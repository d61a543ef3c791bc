import WarpMotor.Lib.AsciiScan
import WarpMotor.Parse.Attribution
import WarpMotor.Parse.GlobalTags
import WarpMotor.Sink.Replicas

/-!
Where the events of a batch end. Each of them is filed with its records under
the keys these carry, reported as missed, or dropped as blank; the groups keep
the order of the events. Only the blank test sees how a payload is stored: a
text is tested for Unicode white space, bytes for ASCII white space.
-/
namespace WarpMotor
open SinkDispatcher (held held_pushEntry)
variable {Progress : Type}

/-- The events of a batch with their results; the hit counts move along. -/
def parseEach (api : ParserApi Progress) (setting : ParseOption) :
    SourceBatch → MultiParser Progress → List (SourceEvent × ProcessResult)
  | [], _ => []
  | event :: rest, mp =>
    (event, (mp.parseEvent api event setting).1) ::
      parseEach api setting rest (mp.parseEvent api event setting).2

/-- The record of a parsed event, under the key of the rule that parsed it. -/
def mainRecord (outcome : SourceEvent × ProcessResult) : List (String × DataRecord) :=
  match outcome.2 with
  | .success wplKey record _ => [(wplKey, record)]
  | .partialParse wplKey record _ _ => [(wplKey, record)]
  | .miss _ => []

def sideRecords (outcome : SourceEvent × ProcessResult) : SideRecords :=
  match outcome.2 with
  | .success _ _ sides => sides
  | .partialParse _ _ _ sides => sides
  | .miss _ => []

def residueEntry (outcome : SourceEvent × ProcessResult) : List (Nat × String) :=
  match outcome.2 with
  | .success .. => []
  | .partialParse wplKey _ residue _ =>
    [(outcome.1.eventId, "wpl:" ++ wplKey ++ ",residue:" ++ residue)]
  | .miss _ => []

def missedPacket (outcome : SourceEvent × ProcessResult) : List (SourceEvent × ParseFailInfo) :=
  match outcome.2 with
  | .success .. => []
  | .partialParse .. => []
  | .miss info => if payloadIsWhitespace outcome.1.payload then [] else [(outcome.1, info)]

def droppedBlank (outcome : SourceEvent × ProcessResult) : List SourceEvent :=
  match outcome.2 with
  | .success .. => []
  | .partialParse .. => []
  | .miss _ => if payloadIsWhitespace outcome.1.payload then [outcome.1] else []

/-- What an event brings to the group of a key: its record, then its side records. -/
def unitsUnder (key : String) (outcome : SourceEvent × ProcessResult) : SinkPackage :=
  ((mainRecord outcome ++ sideRecords outcome).filter (fun entry => entry.1 = key)).map
    (fun entry => ⟨outcome.1.eventId, .null, enrichRecordWithTags entry.2 outcome.1.tags⟩)

/-- Every event ends in one place, and every place holds what the events bring it, in order. -/
structure Partitioned (outcomes : List (SourceEvent × ProcessResult)) (out : ParsedDatSet) :
    Prop where
  once : ∀ outcome ∈ outcomes, (mainRecord outcome).length + (missedPacket outcome).length +
    (droppedBlank outcome).length = 1
  residue : ∀ outcome ∈ outcomes, residueEntry outcome ≠ [] ↔
    ∃ wplKey record left sides, outcome.2 = .partialParse wplKey record left sides
  groups : ∀ key, held key out.sinkGroups = outcomes.flatMap (unitsUnder key)
  keys : (out.sinkGroups.map Prod.fst).Nodup
  residues : out.residueData = outcomes.flatMap residueEntry
  missed : out.missedPackets = outcomes.flatMap missedPacket

theorem pushEntry_keys (key : String) (unit : SinkRecUnit) (groups : List (String × SinkPackage)) :
    (pushEntry key unit groups).map Prod.fst =
      if key ∈ groups.map Prod.fst then groups.map Prod.fst else groups.map Prod.fst ++ [key] := by
  induction groups with
  | nil => rfl
  | cons entry rest ih =>
    obtain ⟨other, units⟩ := entry
    unfold pushEntry
    by_cases same : other = key
    · simp [same]
    · have different : ¬ key = other := fun hit => same hit.symm
      rw [if_neg same, List.map_cons, ih]
      by_cases present : key ∈ rest.map Prod.fst
      · simp only [List.map_cons, List.mem_cons, different, false_or, if_pos present]
      · simp only [List.map_cons, List.mem_cons, different, false_or, if_neg present,
          List.cons_append]

theorem pushEntry_nodup (key : String) (unit : SinkRecUnit) {groups : List (String × SinkPackage)}
    (distinct : (groups.map Prod.fst).Nodup) :
    ((pushEntry key unit groups).map Prod.fst).Nodup := by
  rw [pushEntry_keys]
  split
  · exact distinct
  · rename_i absent
    apply List.nodup_append.mpr
    refine ⟨distinct, List.nodup_singleton key, ?_⟩
    intro a member b single same
    rw [List.mem_singleton.mp single] at same
    rw [same] at member
    exact absent member

/-- Pushing records files each under its own key, behind what is there. -/
theorem held_pushRecords (key : String) (event : SourceEvent)
    (records : List (String × DataRecord)) (groups : List (String × SinkPackage)) :
    held key (pushRecords event records groups) = held key groups ++
      (records.filter (fun entry => entry.1 = key)).map
        (fun entry => ⟨event.eventId, .null, enrichRecordWithTags entry.2 event.tags⟩) := by
  induction records generalizing groups with
  | nil => simp [pushRecords]
  | cons entry rest ih =>
    have step : pushRecords event (entry :: rest) groups = pushRecords event rest
        (pushEntry entry.1 ⟨event.eventId, .null, enrichRecordWithTags entry.2 event.tags⟩
          groups) := rfl
    rw [step, ih, held_pushEntry, List.append_assoc, List.filter_cons]
    by_cases same : entry.1 = key <;> simp [same]

theorem pushRecords_nodup (event : SourceEvent) (records : List (String × DataRecord))
    {groups : List (String × SinkPackage)} (distinct : (groups.map Prod.fst).Nodup) :
    ((pushRecords event records groups).map Prod.fst).Nodup := by
  induction records generalizing groups with
  | nil => exact distinct
  | cons entry rest ih => exact ih (pushEntry_nodup _ _ distinct)

/-- The output grows by what each event brings. -/
theorem batchParsePackage_appends (api : ParserApi Progress) (setting : ParseOption)
    (batch : SourceBatch) (mp : MultiParser Progress) (out : ParsedDatSet)
    (distinct : (out.sinkGroups.map Prod.fst).Nodup) :
    let after := (batchParsePackage api setting batch mp out).1
    (∀ key, held key after.sinkGroups =
      held key out.sinkGroups ++ (parseEach api setting batch mp).flatMap (unitsUnder key)) ∧
    (after.sinkGroups.map Prod.fst).Nodup ∧
    after.residueData =
      out.residueData ++ (parseEach api setting batch mp).flatMap residueEntry ∧
    after.missedPackets =
      out.missedPackets ++ (parseEach api setting batch mp).flatMap missedPacket := by
  induction batch generalizing mp out with
  | nil => simp [batchParsePackage, parseEach, distinct]
  | cons event rest ih =>
    dsimp only
    simp only [parseEach, List.flatMap_cons, ← List.append_assoc]
    unfold batchParsePackage
    cases parsed : mp.parseEvent api event setting with
    | mk result next =>
      cases result with
      | success wplKey record sides =>
        obtain ⟨groups, keys, residues, missed⟩ := ih next { out with
          sinkGroups := pushRecords event ((wplKey, record) :: sides) out.sinkGroups }
          (pushRecords_nodup event _ distinct)
        refine ⟨?_, keys, ?_, ?_⟩
        · intro key
          rw [groups key, held_pushRecords]
          rfl
        · simpa [residueEntry] using residues
        · simpa [missedPacket] using missed
      | partialParse wplKey record left sides =>
        obtain ⟨groups, keys, residues, missed⟩ := ih next { out with
          sinkGroups := pushRecords event ((wplKey, record) :: sides) out.sinkGroups
          residueData := out.residueData ++
            [(event.eventId, "wpl:" ++ wplKey ++ ",residue:" ++ left)] }
          (pushRecords_nodup event _ distinct)
        refine ⟨?_, keys, residues, ?_⟩
        · intro key
          rw [groups key, held_pushRecords]
          rfl
        · simpa [missedPacket] using missed
      | miss info =>
        by_cases blank : payloadIsWhitespace event.payload = true
        · obtain ⟨groups, keys, residues, missed⟩ := ih next out distinct
          dsimp only
          rw [if_pos blank]
          refine ⟨?_, keys, ?_, ?_⟩
          · intro key
            simpa [unitsUnder, mainRecord, sideRecords] using groups key
          · simpa [residueEntry] using residues
          · simpa [missedPacket, blank] using missed
        · obtain ⟨groups, keys, residues, missed⟩ := ih next { out with
            missedPackets := out.missedPackets ++ [(event, info)] } distinct
          dsimp only
          rw [if_neg blank]
          refine ⟨?_, keys, ?_, ?_⟩
          · intro key
            simpa [unitsUnder, mainRecord, sideRecords] using groups key
          · simpa [residueEntry] using residues
          · simpa [missedPacket, blank] using missed

theorem batch_partitioned (api : ParserApi Progress) (setting : ParseOption) (batch : SourceBatch)
    (mp : MultiParser Progress) :
    Partitioned (parseEach api setting batch mp)
      (batchParsePackage api setting batch mp ⟨[], [], []⟩).1 := by
  obtain ⟨groups, keys, residues, missed⟩ :=
    batchParsePackage_appends api setting batch mp ⟨[], [], []⟩ List.nodup_nil
  refine ⟨?_, ?_, groups, keys, residues, missed⟩
  · intro outcome _
    obtain ⟨event, result⟩ := outcome
    cases result with
    | success => rfl
    | partialParse => rfl
    | miss info =>
      by_cases blank : payloadIsWhitespace event.payload = true <;>
        simp [mainRecord, missedPacket, droppedBlank, blank]
  · intro outcome _
    obtain ⟨event, result⟩ := outcome
    cases result <;> simp [residueEntry]

/-- The payload stores this text, as a string or in its UTF-8 bytes. -/
def RawData.HasText (text : String) : RawData → Prop
  | .string stored => stored = text
  | .bytes data => data = Utf8.encode text.toList
  | .arcBytes data => data = Utf8.encode text.toList

/-- `is_ascii_whitespace` of a character: space, tab, line feed, form feed, carriage return. -/
def isAsciiBlank (c : Char) : Bool :=
  c.toNat = 32 || c.toNat = 9 || c.toNat = 10 || c.toNat = 12 || c.toNat = 13

theorem isAsciiBlank_white {c : Char} (blank : isAsciiBlank c = true) : Oml.isWhite c = true := by
  simp only [isAsciiBlank, Bool.or_eq_true, decide_eq_true_eq] at blank
  simp only [Oml.isWhite, Bool.or_eq_true, Bool.and_eq_true, decide_eq_true_eq]
  omega

theorem isAsciiBlank_byte (b : UInt8) :
    (b = 32 || b = 9 || b = 10 || b = 12 || b = 13) = isAsciiBlank (Char.ofUInt8 b) := by
  have value : (Char.ofUInt8 b).toNat = b.toNat := rfl
  simp only [isAsciiBlank, value, ← UInt8.toNat_inj]
  rfl

theorem bytes_blank_iff (text : List Char) :
    (Utf8.encode text).all (fun b => b = 32 || b = 9 || b = 10 || b = 12 || b = 13) =
      text.all isAsciiBlank := by
  have decides : Utf8.Decides (fun b => isAsciiBlank (Char.ofUInt8 b)) isAsciiBlank := by
    apply Utf8.decides_ascii
    intro c blank
    simp only [isAsciiBlank, Bool.or_eq_true, decide_eq_true_eq] at blank
    omega
  simp only [isAsciiBlank_byte]
  induction text with
  | nil => rfl
  | cons c rest ih =>
    rw [Utf8.encode_cons, List.all_append, ih, List.all_cons]
    congr 1
    cases blank : isAsciiBlank c with
    | true => exact List.all_eq_true.mpr ((decides c).1 blank)
    | false =>
      obtain ⟨b, others, encoded, fails⟩ := (decides c).2 blank
      dsimp only at fails
      rw [encoded, List.all_cons, fails, Bool.false_and]

/-- Blank or not, whichever way the text is stored. -/
def BlankByText (payload : RawData) : Prop :=
  ∀ text other, payload.HasText text → RawData.HasText text other →
    payloadIsWhitespace other = payloadIsWhitespace payload

/-- The text is white space, but not only ASCII white space as the byte test has it. -/
def BlankBeyondAscii (payload : RawData) : Prop :=
  ∃ text, payload.HasText text ∧ text.toList.all Oml.isWhite = true ∧
    ¬ text.toList.all isAsciiBlank = true

theorem payloadIsWhitespace_cases {text : String} {payload : RawData}
    (stores : payload.HasText text) :
    payloadIsWhitespace payload = text.toList.all Oml.isWhite ∨
      payloadIsWhitespace payload = text.toList.all isAsciiBlank := by
  cases payload with
  | string stored =>
    cases stores
    exact .inl rfl
  | bytes data =>
    cases stores
    exact .inr (bytes_blank_iff _)
  | arcBytes data =>
    cases stores
    exact .inr (bytes_blank_iff _)

theorem blankByText_iff (payload : RawData) :
    BlankByText payload ↔ ¬ BlankBeyondAscii payload := by
  constructor
  · rintro free ⟨text, stores, white, wide⟩
    have asString := free text (.string text) stores rfl
    have asBytes := free text (.bytes (Utf8.encode text.toList)) stores rfl
    have same := asString.trans asBytes.symm
    rw [payloadIsWhitespace, payloadIsWhitespace, bytes_blank_iff, white] at same
    exact wide same.symm
  · intro narrow text other stores stores'
    have same : text.toList.all Oml.isWhite = text.toList.all isAsciiBlank := by
      by_contra differ
      apply narrow
      have white : text.toList.all Oml.isWhite = true := by
        by_contra dark
        have blank : text.toList.all isAsciiBlank = true := by
          rw [Bool.not_eq_true] at dark
          rw [dark] at differ
          cases found : text.toList.all isAsciiBlank with
          | true => rfl
          | false => exact absurd found.symm differ
        apply dark
        apply List.all_eq_true.mpr
        intro c member
        exact isAsciiBlank_white (List.all_eq_true.mp blank c member)
      exact ⟨text, stores, white, fun blank => differ (white.trans blank.symm)⟩
    rcases payloadIsWhitespace_cases stores with mine | mine <;>
      rcases payloadIsWhitespace_cases stores' with others | others <;>
        simp only [mine, others, same]

/-- Every batch is partitioned, and which events count as blank depends on their texts alone
    exactly if no text of the batch is white space beyond what the byte test knows. -/
theorem batch_is_partitioned_by_text_iff (api : ParserApi Progress) (setting : ParseOption)
    (batch : SourceBatch) (mp : MultiParser Progress) :
    (Partitioned (parseEach api setting batch mp)
        (batchParsePackage api setting batch mp ⟨[], [], []⟩).1 ∧
      ∀ event ∈ batch, BlankByText event.payload) ↔
      ∀ event ∈ batch, ¬ BlankBeyondAscii event.payload := by
  simp only [batch_partitioned api setting batch mp, true_and, blankByText_iff]

/-- An ideographic space: dropped as a string, reported as missed in its bytes. -/
theorem wide_space_is_blank_as_text_only :
    let setting : ParseOption := ⟨false, false, none⟩
    let mp : MultiParser Nat := ⟨[failingRule "digits" 0 (.uvs .dataError) 0]⟩
    let asText : SourceEvent := { abcEvent with payload := .string "\u3000" }
    let asBytes : SourceEvent := { abcEvent with payload := .bytes [227, 128, 128] }
    RawData.HasText "\u3000" asBytes.payload ∧
      (batchParsePackage byteProgressApi setting [asText] mp ⟨[], [], []⟩).1.missedPackets = [] ∧
      (batchParsePackage byteProgressApi setting [asBytes] mp ⟨[], [], []⟩).1.missedPackets =
        [(asBytes, ⟨"digits", ⟨.uvs .dataError, none⟩, 0⟩)] := by
  refine ⟨rfl, ?_, ?_⟩ <;> decide

end WarpMotor
