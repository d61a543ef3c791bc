import WarpMotor.File.MultiDelivery
import WarpMotor.Tcp.Delivery

/-!
A round of the picker drops the future of `receive` when a command or the
timeout comes first. The sources differ in what is lost with it: the TCP source
keeps everything in its connections, the source over several files loses a file
that it was opening, and the file source loses what the call has taken from its
reader.
-/
namespace WarpMotor

open Framing

/-- What the completed calls of a source return is its event sequence up to what the source still
    holds: for the file source when no read fails and a call is dropped only at its first read and
    with nothing buffered, for the source over several files when no call is dropped that opens a
    file, and for the TCP source always. -/
theorem dropped_receive_loses_nothing (decoders : File.Decoders) :
    (∀ (key : String) (data : Bytes) (encode : File.FileEncoding) (tags : List (String × String))
      (limits : Nat × Nat × Nat) (instances : Nat) (calls : List (List File.FileRead)),
      ∀ range ∈ File.computeFileRanges data instances,
      let start : File.FileReceiver := ⟨.new key data encode tags limits range, []⟩
      none ∉ File.payloadsOf decoders encode (File.rangeText data range) →
      Runs.AllSteps (File.FileReceiver.step decoders) (File.FileReceiver.Undisturbed decoders) start
        calls →
      ∃ back, File.FileReceiver.Complete decoders encode (File.rangeText data range) back
        (Runs.run (File.FileReceiver.step decoders) start calls)) ∧
    (∀ (files : String → Option Bytes) (key : String) (paths : List String)
      (encode : File.FileEncoding) (tags : List (String × String)) (instances : Nat)
      (limits : Nat × Nat × Nat) (steps : List File.MultiStep),
      let start : File.MultiReceiver :=
        ⟨⟨key, paths, encode, tags, instances, limits, none⟩, .idle, [], []⟩
      (∀ path data, files path = some data → none ∉ File.payloadsOf decoders encode data) →
      Runs.AllSteps (File.MultiReceiver.step decoders files) File.MultiReceiver.Undisturbed start
        steps →
      File.MultiReceiver.Lossless decoders files paths encode instances
        (Runs.run (File.MultiReceiver.step decoders files) start steps)) ∧
    (∀ (key : String) (baseTags : List (String × String)) (framing : FramingMode)
      (batchCapacity maxBatchBytes : Nat) (steps : List Tcp.Step),
      let source := Tcp.TcpSource.new key baseTags framing batchCapacity maxBatchBytes
      let s := Runs.run Tcp.Receiver.step (Tcp.Receiver.ofSource source) steps
      Tcp.Receiver.DistinctIds steps →
      ∀ reg ∈ steps.filterMap Tcp.Receiver.acceptedReg,
        Tcp.Ledger (source.freshConnection reg) reg
          (Tcp.deliveredIn s.returned reg.connectionId) (s.liveOf reg.connectionId)) := by
  refine ⟨?_, ?_, ?_⟩
  · intro key data encode tags limits instances calls range mem start decodes undisturbed
    obtain ⟨back, hands⟩ := File.computeFileRanges_handsOut data instances
      (max File.minChunkBytes (min limits.2.2 File.maxChunkBytes)) range mem
    have complete : File.FileReceiver.Complete decoders encode (File.rangeText data range) back
        start := ⟨rfl, _, hands, rfl⟩
    exact ⟨back, File.FileReceiver.run_complete decodes complete calls undisturbed⟩
  · intro files key paths encode tags instances limits steps start decodes undisturbed
    refine File.MultiReceiver.run_lossless decodes ?_ steps undisturbed
    constructor
    · rfl
    · rfl
    · rfl
    · intro g current
      cases current
    · intro n path data entry
      cases entry
    · intro n i _
      rfl
    · trivial
  · intro key baseTags framing batchCapacity maxBatchBytes steps source s distinct
    exact Tcp.Receiver.delivered_events key baseTags framing batchCapacity maxBatchBytes steps
      distinct

namespace File

/-- Two lines, and a reader that can take both into one batch. -/
def twoLines : FileReceiver := ⟨.new "src" [97, 10, 98, 10] .text [] (16, 0, 4096) (0, none), []⟩

def noDecoders : Decoders := ⟨fun _ => none, fun _ => none⟩

end File

namespace Tcp

/-- A call is dropped while it waits for a connection, the next one while it waits for data. -/
def twoDrops : List Step :=
  [.start, .receive, .turn, .drop, .accept 8 ⟨1, [.wouldBlock, .ok [97, 10]], "peer"⟩ true,
    .receive, .turn, .drop, .receive, .turn]

end Tcp

/-- Calls that are dropped at the first read of a file, while they wait for a message of a task and
    while they wait for a connection or its data. -/
theorem dropped_while_waiting_loses_nothing :
    (∃ back, File.FileReceiver.Complete File.noDecoders .text [97, 10, 98, 10] back
      (Runs.run (File.FileReceiver.step File.noDecoders) File.twoLines [[], [.upTo 4, .upTo 1]])) ∧
    File.MultiReceiver.Lossless File.noDecoders (fun _ => some [97, 10]) ["file"] .text 1
      (Runs.run (File.MultiReceiver.step File.noDecoders (fun _ => some [97, 10]))
        ⟨⟨"src", ["file"], .text, [], 1, (16, 0, 4096), none⟩, .idle, [], []⟩
        [.receive, .turn, .opened, .drop, .work 0 [.upTo 2, .upTo 1]]) ∧
    let source := Tcp.TcpSource.new "src" [] .line 16 1024
    let s := Runs.run Tcp.Receiver.step (Tcp.Receiver.ofSource source) Tcp.twoDrops
    let reg : Tcp.ConnectionRegistration := ⟨1, [.wouldBlock, .ok [97, 10]], "peer"⟩
    Tcp.Ledger (source.freshConnection reg) reg (Tcp.deliveredIn s.returned 1) (s.liveOf 1) := by
  obtain ⟨file, multi, tcp⟩ := dropped_receive_loses_nothing File.noDecoders
  refine ⟨?_, ?_, ?_⟩
  · refine file "src" [97, 10, 98, 10] .text [] (16, 0, 4096) 1 [[], [.upTo 4, .upTo 1]] (0, none)
      (by decide) (by decide) ⟨⟨by decide, ?_⟩, ⟨by decide, ?_⟩, trivial⟩
    · decide +kernel
    · decide +kernel
  · refine multi (fun _ => some [97, 10]) "src" ["file"] .text [] 1 (16, 0, 4096)
      [.receive, .turn, .opened, .drop, .work 0 [.upTo 2, .upTo 1]] ?_ ?_
    · intro path data there
      cases there
      decide
    · have no_failure : File.FileRead.failed ∉ [File.FileRead.upTo 2, .upTo 1] := by decide
      refine ⟨trivial, trivial, trivial, ?_, no_failure, trivial⟩
      intro path data opening
      cases opening
  · have distinct : Tcp.Receiver.DistinctIds Tcp.twoDrops := ⟨by decide, by decide⟩
    exact tcp "src" [] .line 16 1024 Tcp.twoDrops distinct _ (by decide)

/-- The first call has taken the first line when it is dropped; the second returns the second. -/
theorem dropped_second_read_loses_line :
    ¬ ∀ calls : List (List File.FileRead), (∀ reads ∈ calls, .failed ∉ reads) →
      (Runs.run (File.FileReceiver.step File.noDecoders) File.twoLines calls).returned.flatten.map
        File.payloadOf <+: File.payloadsOf File.noDecoders .text [97, 10, 98, 10] := by
  intro nothing_skipped
  have front := nothing_skipped [[.upTo 2], [.upTo 2, .upTo 1]] (by decide)
  revert front
  decide +kernel

end WarpMotor
