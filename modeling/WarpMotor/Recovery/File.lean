import Mathlib.Data.List.DropRight
import WarpMotor.Actor.Command
import WarpMotor.Lib.Runs
import WarpMotor.Record

/-!
Recovery of one rescue file over any number of sessions. A session opens the
file, sends its entries one by one to the candidate sinks and removes the
file at its end; a stop command or sinks that refuse an entry interrupt it.
The checkpoint counts the accepted entries and is saved and loaded, but the
next session starts again at the first line: what an interrupted session had
delivered is delivered once more.
-/
namespace WarpMotor.Recovery

inductive RescuePayload where
  | record (record : DataRecord)
  | raw (raw : String)
  deriving DecidableEq, Repr

structure RescueEntry where
  version : Nat
  payload : RescuePayload
  deriving DecidableEq, Repr

/-- `serde_json::from_str` on one line. -/
abbrev EntryParser := String → Option RescueEntry

section Lines

/-- The lines that `read_line` returns one after the other, each with its line feed. -/
def readLines : List Char → List (List Char)
  | [] => []
  | c :: rest =>
    if c = '\n' then [c] :: readLines rest
    else match readLines rest with
      | [] => [[c]]
      | line :: lines => (c :: line) :: lines

def trimEnd (line : List Char) : List Char := line.rdropWhile (fun c => c = '\r' || c = '\n')

def lineEntry (parse : EntryParser) (line : List Char) : Option RescueEntry :=
  if (trimEnd line).isEmpty then none else parse (String.ofList (trimEnd line))

/-- The payloads a file holds, in file order. -/
def fileEntries (parse : EntryParser) (content : List Char) : List RescuePayload :=
  (readLines content).filterMap (fun line => (lineEntry parse line).map RescueEntry.payload)

/-- `RescueFileSink::write_entry`: the serialised entry and a line feed. -/
def writeEntry (encode : RescueEntry → List Char) (entry : RescueEntry) : List Char :=
  encode entry ++ ['\n']

theorem readLines_line {line : List Char} (unbroken : '\n' ∉ line) (rest : List Char) :
    readLines (line ++ '\n' :: rest) = (line ++ ['\n']) :: readLines rest := by
  induction line with
  | nil => simp [readLines]
  | cons c line ih =>
    rw [List.mem_cons, not_or] at unbroken
    have different : ¬ c = '\n' := fun same => unbroken.1 same.symm
    simp [readLines, different, ih unbroken.2]

theorem trimEnd_line {line : List Char} (unbroken : '\n' ∉ line) (unreturned : '\r' ∉ line) :
    trimEnd (line ++ ['\n']) = line := by
  unfold trimEnd
  rw [List.rdropWhile_concat_pos _ _ _ (by simp)]
  cases line using List.reverseRecOn with
  | nil => rfl
  | append_singleton first last =>
    rw [List.rdropWhile_concat_neg]
    simp only [List.mem_append, List.mem_singleton, not_or] at unbroken unreturned
    simp [Ne.symm unbroken.2, Ne.symm unreturned.2]

/-- What the rescue sink wrote is what recovery finds. The serialiser puts no line break into an
    entry and the parser inverts it. -/
theorem fileEntries_written {parse : EntryParser} {encode : RescueEntry → List Char}
    (unbroken : ∀ entry, '\n' ∉ encode entry) (unreturned : ∀ entry, '\r' ∉ encode entry)
    (filled : ∀ entry, encode entry ≠ [])
    (parsed : ∀ entry, parse (String.ofList (encode entry)) = some entry)
    (entries : List RescueEntry) :
    fileEntries parse (entries.flatMap (writeEntry encode)) = entries.map RescueEntry.payload := by
  induction entries with
  | nil => rfl
  | cons entry rest ih =>
    have line := trimEnd_line (unbroken entry) (unreturned entry)
    have found : lineEntry parse (encode entry ++ ['\n']) = some entry := by
      simp [lineEntry, line, filled entry, parsed entry]
    unfold fileEntries at ih ⊢
    simp only [List.flatMap_cons, writeEntry, List.append_assoc, List.singleton_append]
    rw [readLines_line (unbroken entry)]
    simp [found]
    exact ih

end Lines

section Send

inductive TrySendStatus where
  | sended
  | fulfilled
  | err (reason : String)
  deriving DecidableEq, Repr

def recoverBusyRetryMax : Nat := 2500

inductive Attempt where
  | sent
  | gaveUp (reason : String)
  deriving DecidableEq, Repr

/-- The inner loop on one candidate: `answer` gives what its tries return, `left` the retries that
    remain. -/
def retryBusy (answer : Nat → TrySendStatus) (left busyRetries : Nat) : Attempt :=
  match answer busyRetries with
  | .sended => .sent
  | .err reason => .gaveUp reason
  | .fulfilled =>
    match left with
    | 0 => .gaveUp "sink dispatcher channel stayed full for 5s"
    | left + 1 => retryBusy answer left (busyRetries + 1)

/-- The loop over the candidates, from the active one on; it returns the new active index. -/
def failover (total : Nat) (answer : Nat → Nat → TrySendStatus) :
    Nat → Nat → Option String → Nat × Except String Unit
  | 0, active, lastError =>
    (active, .error (lastError.getD "last_error should exist when all candidates fail"))
  | rounds + 1, active, _ =>
    match retryBusy (answer (active % total)) recoverBusyRetryMax 0 with
    | .sent => (active % total, .ok ())
    | .gaveUp reason => failover total answer rounds ((active % total + 1) % total) (some reason)

def sendWithBackpressure (total active : Nat) (answer : Nat → Nat → TrySendStatus) :
    Nat × Except String Unit :=
  if total = 0 then (active, .error "no sink candidates for recovery")
  else failover total answer total active none

/-- A candidate takes an entry: after some full channels, within the retries, it accepts. -/
def Takes (answer : Nat → TrySendStatus) : Prop :=
  ∃ t ≤ recoverBusyRetryMax, answer t = .sended ∧ ∀ u < t, answer u = .fulfilled

theorem retryBusy_sent_iff (answer : Nat → TrySendStatus) (left busyRetries : Nat) :
    retryBusy answer left busyRetries = .sent ↔
      ∃ t ≤ left, answer (busyRetries + t) = .sended ∧
        ∀ u < t, answer (busyRetries + u) = .fulfilled := by
  induction left generalizing busyRetries with
  | zero =>
    unfold retryBusy
    cases first : answer busyRetries with
    | sended => simp [first]
    | err reason => simp [first]
    | fulfilled => simp [first]
  | succ left ih =>
    unfold retryBusy
    cases first : answer busyRetries with
    | sended =>
      simp only [true_iff]
      exact ⟨0, by omega, by simpa using first, by omega⟩
    | err reason =>
      simp only [reduceCtorEq, false_iff]
      rintro ⟨t, -, accepted, busy⟩
      cases t with
      | zero => simp [first] at accepted
      | succ t =>
        have start := busy 0 (by omega)
        simp [first] at start
    | fulfilled =>
      simp only [ih]
      constructor
      · rintro ⟨t, bound, accepted, busy⟩
        refine ⟨t + 1, by omega, ?_, ?_⟩
        · rw [← accepted]
          congr 1
          omega
        · intro u before
          cases u with
          | zero => exact first
          | succ u =>
            rw [← busy u (by omega)]
            congr 1
            omega
      · rintro ⟨t, bound, accepted, busy⟩
        cases t with
        | zero => simp [first] at accepted
        | succ t =>
          refine ⟨t, by omega, ?_, ?_⟩
          · rw [← accepted]
            congr 1
            omega
          · intro u before
            rw [← busy (u + 1) (by omega)]
            congr 1
            omega

theorem takes_iff (answer : Nat → TrySendStatus) :
    retryBusy answer recoverBusyRetryMax 0 = .sent ↔ Takes answer := by
  rw [retryBusy_sent_iff]
  simp only [Nat.zero_add, Takes]

theorem failover_ok_iff (total : Nat) (answer : Nat → Nat → TrySendStatus) (rounds active : Nat)
    (lastError : Option String) :
    (failover total answer rounds active lastError).2 = .ok () ↔
      ∃ i < rounds, Takes (answer ((active + i) % total)) := by
  induction rounds generalizing active lastError with
  | zero => simp [failover]
  | succ rounds ih =>
    unfold failover
    cases first : retryBusy (answer (active % total)) recoverBusyRetryMax 0 with
    | sent =>
      simp only [true_iff]
      exact ⟨0, by omega, (takes_iff _).mp first⟩
    | gaveUp reason =>
      have refused : ¬ Takes (answer (active % total)) := by
        rw [← takes_iff, first]
        simp
      simp only [ih]
      have next : ∀ i, ((active % total + 1) % total + i) % total = (active + (i + 1)) % total := by
        intro i
        rw [Nat.mod_add_mod, Nat.add_assoc, Nat.mod_add_mod]
        congr 1
        omega
      constructor
      · rintro ⟨i, bound, taken⟩
        rw [next] at taken
        exact ⟨i + 1, by omega, taken⟩
      · rintro ⟨i, bound, taken⟩
        cases i with
        | zero => exact absurd taken refused
        | succ i =>
          refine ⟨i, by omega, ?_⟩
          rw [next]
          exact taken

/-- The first entry of a session is accepted exactly when some candidate takes it. -/
theorem sendWithBackpressure_ok_iff (total : Nat) (answer : Nat → Nat → TrySendStatus) :
    (sendWithBackpressure total 0 answer).2 = .ok () ↔ ∃ c < total, Takes (answer c) := by
  unfold sendWithBackpressure
  split
  · rename_i none
    simp [none]
  · rw [failover_ok_iff]
    constructor
    · rintro ⟨c, bound, taken⟩
      rw [Nat.zero_add, Nat.mod_eq_of_lt bound] at taken
      exact ⟨c, bound, taken⟩
    · rintro ⟨c, bound, taken⟩
      refine ⟨c, bound, ?_⟩
      rw [Nat.zero_add, Nat.mod_eq_of_lt bound]
      exact taken

end Send

/-- Accepted entries by file path. -/
structure CheckPoint where
  counts : List (String × Nat)
  deriving DecidableEq, Repr

namespace CheckPoint

def get (point : CheckPoint) (path : String) : Option Nat := point.counts.lookup path

def recSuc (point : CheckPoint) (path : String) : CheckPoint :=
  match point.get path with
  | some _ => ⟨point.counts.map (fun slot => if slot.1 = path then (slot.1, slot.2 + 1) else slot)⟩
  | none => ⟨(path, 1) :: point.counts⟩

def removePoint (point : CheckPoint) (path : String) : CheckPoint :=
  ⟨point.counts.filter (fun slot => slot.1 ≠ path)⟩

end CheckPoint

/-- What ends the wait after a unit: a command, or the sleep with the readings of the clock. -/
inductive UnitEvent where
  | cmd (cmd : ActorCtrlCmd)
  | slept (idleAt missNow now : Nat)
  deriving DecidableEq, Repr

structure UnitTurn where
  statDue : Bool
  statOk : Bool
  saveOk : Bool
  event : UnitEvent
  deriving DecidableEq, Repr

/-- What one session meets. `restarted`: a new process, which loads the saved checkpoint.
    `answer` is indexed by the entries already sent, the candidate and its retries; `readOk` by
    the lines that are left. -/
structure Session where
  restarted : Bool
  agents : Nat
  openOk : Bool
  readOk : Nat → Bool
  answer : Nat → Nat → Nat → TrySendStatus
  turn : Nat → UnitTurn
  finalSaveOk : Bool
  finalStatOk : Bool
  removeOk : Bool

inductive RecoverError where
  | openFile | read | parse | sink (reason : String) | removeFile | stat | save
  deriving DecidableEq, Repr

inductive RecoverEnd where
  | noFile | noAgent | sucEnded | interrupt
  | failed (error : RecoverError)
  deriving DecidableEq, Repr

structure PickState where
  ctrl : TaskController
  activeSinkIdx : Nat
  sent : List (Nat × RescuePayload)
  point : CheckPoint
  saved : CheckPoint
  units : Nat
  deriving DecidableEq, Repr

/-- After the loop was left by a stop. -/
def leaveInterrupted (env : Session) (st : PickState) : PickState × RecoverEnd :=
  if !env.finalSaveOk then (st, .failed .save)
  else ({ st with saved := st.point },
    if !env.finalStatOk then .failed .stat else .interrupt)

/-- Between two units: the periodic statistics and checkpoint, then a command or the stop check. -/
def closeUnit (env : Session) (st : PickState) : PickState × Option RecoverEnd :=
  let turn := env.turn st.units
  let st := { st with units := st.units + 1 }
  if turn.statDue && !turn.statOk then (st, some (.failed .stat))
  else if turn.statDue && !turn.saveOk then (st, some (.failed .save))
  else
    let st := if turn.statDue then { st with saved := st.point } else st
    match turn.event with
    | .cmd cmd => ({ st with ctrl := (st.ctrl.updateCmd cmd).recTaskUnitReset }, none)
    | .slept idleAt missNow now =>
      let ctrl := st.ctrl.recTaskIdle idleAt
      if ctrl.isStop missNow now then
        let left := leaveInterrupted env { st with ctrl }
        (left.1, some left.2)
      else ({ st with ctrl := ctrl.recTaskUnitReset }, none)

def acceptEntry (path : String) (idx : Nat) (payload : RescuePayload) (st : PickState) : PickState :=
  { st with
    activeSinkIdx := idx
    sent := st.sent ++ [(idx, payload)]
    ctrl := st.ctrl.recTaskSucCnt 1
    point := st.point.recSuc path }

/-- The two nested loops of `pick_file`; `lines` are those still to be read. -/
def pickLoop (parse : EntryParser) (path : String) (env : Session) :
    List (List Char) → PickState → PickState × RecoverEnd
  | [], st =>
    if !env.readOk 0 then (st, .failed .read)
    else if !env.removeOk then (st, .failed .removeFile)
    else ({ st with point := st.point.removePoint path }, .sucEnded)
  | line :: rest, st =>
    if !env.readOk (rest.length + 1) then (st, .failed .read)
    else if (trimEnd line).isEmpty then pickLoop parse path env rest st
    else match parse (String.ofList (trimEnd line)) with
      | none => (st, .failed .parse)
      | some entry =>
        match sendWithBackpressure env.agents st.activeSinkIdx (env.answer st.sent.length) with
        | (idx, .error reason) => ({ st with activeSinkIdx := idx }, .failed (.sink reason))
        | (idx, .ok ()) =>
          let st := acceptEntry path idx entry.payload st
          if st.ctrl.isUnitEnd then
            match closeUnit env st with
            | (st, some how) => (st, how)
            | (st, none) => pickLoop parse path env rest st
          else pickLoop parse path env rest st

def pickFile (parse : EntryParser) (path : String) (env : Session) (content : List Char)
    (point saved : CheckPoint) : PickState × RecoverEnd :=
  pickLoop parse path env (readLines content)
    { ctrl := TaskController.fromSpeedLimit 100, activeSinkIdx := 0, sent := [], point, saved
      units := 0 }

/-- What lasts from session to session: the file, the saved checkpoint and the one in memory, and
    all that the sinks have accepted. -/
structure RescueStore where
  file : Option (List Char)
  saved : CheckPoint
  point : CheckPoint
  accepted : List (Nat × RescuePayload)
  deriving DecidableEq, Repr

def recovFile (parse : EntryParser) (path : String) (store : RescueStore) (env : Session) :
    RescueStore × RecoverEnd :=
  let store := if env.restarted then { store with point := store.saved } else store
  match store.file with
  | none => (store, .noFile)
  | some content =>
    if env.agents = 0 then (store, .noAgent)
    else if !env.openOk then (store, .failed .openFile)
    else
      let out := pickFile parse path env content store.point store.saved
      ({ file := if out.2 = .sucEnded then none else some content
         saved := out.1.saved
         point := out.1.point
         accepted := store.accepted ++ out.1.sent }, out.2)

def recoverStep (parse : EntryParser) (path : String) (store : RescueStore) (env : Session) :
    RescueStore := (recovFile parse path store env).1

/-- A stop command, or sinks that are not there or do not take an entry. -/
def RecoverEnd.isInterruption : RecoverEnd → Bool
  | .interrupt => true
  | .noAgent => true
  | .failed (.sink _) => true
  | _ => false

/-- No candidate takes the first entry that the session sends. -/
def Session.RefusesFirst (env : Session) : Prop := ∀ c < env.agents, ¬ Takes (env.answer 0 c)

def payloads (sent : List (Nat × RescuePayload)) : List RescuePayload := sent.map Prod.snd

section Loop
variable {parse : EntryParser} {path : String} {env : Session}

theorem closeUnit_sent (env : Session) (st : PickState) : (closeUnit env st).1.sent = st.sent := by
  unfold closeUnit leaveInterrupted
  dsimp only
  repeat' split
  all_goals rfl

theorem closeUnit_end {st : PickState} {how : RecoverEnd} (left : (closeUnit env st).2 = some how) :
    how ≠ .sucEnded := by
  unfold closeUnit leaveInterrupted at left
  dsimp only at left
  repeat' split at left
  all_goals first | (cases left; done) | (cases left; simp)

/-- One line: the loop ends before the line is sent, or skips a blank line, or sends its entry
    and then goes on or ends. -/
theorem pickLoop_cons (parse : EntryParser) (path : String) (env : Session) (line : List Char)
    (rest : List (List Char)) (st : PickState) :
    (∃ idx how, pickLoop parse path env (line :: rest) st = ({ st with activeSinkIdx := idx }, how) ∧
      how ≠ .sucEnded ∧ (how.isInterruption = true →
        (sendWithBackpressure env.agents st.activeSinkIdx (env.answer st.sent.length)).2 ≠
          .ok ())) ∨
    (lineEntry parse line = none ∧
      pickLoop parse path env (line :: rest) st = pickLoop parse path env rest st) ∨
    ∃ entry next, lineEntry parse line = some entry ∧
      (sendWithBackpressure env.agents st.activeSinkIdx (env.answer st.sent.length)).2 = .ok () ∧
      payloads next.sent = payloads st.sent ++ [entry.payload] ∧
      (pickLoop parse path env (line :: rest) st = pickLoop parse path env rest next ∨
        ∃ how, pickLoop parse path env (line :: rest) st = (next, how) ∧ how ≠ .sucEnded) := by
  rw [pickLoop]
  split
  · exact Or.inl ⟨st.activeSinkIdx, _, rfl, by simp, by simp [RecoverEnd.isInterruption]⟩
  · split
    · rename_i blank
      exact Or.inr (Or.inl ⟨by simp [lineEntry, blank], rfl⟩)
    · rename_i filled
      split
      · exact Or.inl ⟨st.activeSinkIdx, _, rfl, by simp, by simp [RecoverEnd.isInterruption]⟩
      · rename_i entry parsed
        have found : lineEntry parse line = some entry := by
          unfold lineEntry
          rw [if_neg filled, parsed]
        split
        · rename_i idx reason refused
          exact Or.inl ⟨idx, _, rfl, by simp, by simp [refused]⟩
        · rename_i idx sent
          right
          right
          have added : payloads (acceptEntry path idx entry.payload st).sent =
              payloads st.sent ++ [entry.payload] := by
            simp [payloads, acceptEntry]
          dsimp only
          split
          · have kept := closeUnit_sent env (acceptEntry path idx entry.payload st)
            split
            · rename_i next how closed
              rw [closed] at kept
              refine ⟨entry, next, found, by rw [sent], by rw [kept, added], Or.inr ⟨how, rfl, ?_⟩⟩
              exact closeUnit_end (by rw [closed])
            · rename_i next closed
              rw [closed] at kept
              exact ⟨entry, next, found, by rw [sent], by rw [kept, added], Or.inl rfl⟩
          · exact ⟨entry, _, found, by rw [sent], added, Or.inl rfl⟩

def lineEntries (parse : EntryParser) (lines : List (List Char)) : List RescuePayload :=
  lines.filterMap (fun line => (lineEntry parse line).map RescueEntry.payload)

/-- A session delivers a prefix of what is left to read, and all of it when it ends well. -/
theorem pickLoop_delivers (parse : EntryParser) (path : String) (env : Session)
    (lines : List (List Char)) (st : PickState) :
    ∃ delivered, payloads (pickLoop parse path env lines st).1.sent =
        payloads st.sent ++ delivered ∧
      delivered <+: lineEntries parse lines ∧
      ((pickLoop parse path env lines st).2 = .sucEnded → delivered = lineEntries parse lines) := by
  induction lines generalizing st with
  | nil =>
    refine ⟨[], ?_, List.nil_prefix, fun _ => rfl⟩
    rw [List.append_nil, pickLoop]
    repeat' split
    all_goals rfl
  | cons line rest ih =>
    rcases pickLoop_cons parse path env line rest st with
      ⟨idx, how, loop, unended, -⟩ | ⟨blank, loop⟩ | ⟨entry, next, found, -, added, loop⟩
    · rw [loop]
      exact ⟨[], by simp, List.nil_prefix, fun ended => absurd ended unended⟩
    · rw [loop]
      have same : lineEntries parse (line :: rest) = lineEntries parse rest := by
        simp [lineEntries, blank]
      rw [same]
      exact ih st
    · have first : lineEntries parse (line :: rest) = entry.payload :: lineEntries parse rest := by
        simp [lineEntries, found]
      rw [first]
      rcases loop with onward | ⟨how, stopped, unended⟩
      · obtain ⟨delivered, sent, before, all⟩ := ih next
        rw [onward]
        refine ⟨entry.payload :: delivered, ?_, ?_, ?_⟩
        · rw [sent, added, List.append_assoc]
          rfl
        · exact (List.prefix_cons_inj _).mpr before
        · intro ended
          rw [all ended]
      · rw [stopped]
        refine ⟨[entry.payload], added, ?_, fun ended => absurd ended unended⟩
        exact (List.prefix_cons_inj _).mpr List.nil_prefix

/-- An interrupted session delivers nothing exactly when its first entry is refused. -/
theorem pickLoop_delivers_nothing_iff {lines : List (List Char)} {st : PickState}
    (fresh : st.sent = []) (first : st.activeSinkIdx = 0)
    (interrupted : (pickLoop parse path env lines st).2.isInterruption = true) :
    payloads (pickLoop parse path env lines st).1.sent = [] ↔ env.RefusesFirst := by
  have refuses : env.RefusesFirst ↔ ¬ (sendWithBackpressure env.agents st.activeSinkIdx
      (env.answer st.sent.length)).2 = .ok () := by
    rw [fresh, first, List.length_nil, sendWithBackpressure_ok_iff]
    unfold Session.RefusesFirst
    simp only [not_exists, not_and]
  rw [refuses]
  induction lines with
  | nil =>
    rw [pickLoop] at interrupted
    revert interrupted
    repeat' split
    all_goals simp [RecoverEnd.isInterruption]
  | cons line rest ih =>
    rcases pickLoop_cons parse path env line rest st with
      ⟨idx, how, loop, -, refused⟩ | ⟨blank, loop⟩ | ⟨entry, next, found, sent, added, loop⟩
    · rw [loop] at interrupted ⊢
      have nothing : payloads st.sent = [] := by simp [payloads, fresh]
      exact iff_of_true nothing (refused interrupted)
    · rw [loop] at interrupted ⊢
      exact ih interrupted
    · simp only [sent, not_true_eq_false, iff_false]
      have grown : payloads next.sent ≠ [] := by simp [added]
      rcases loop with onward | ⟨how, stopped, -⟩
      · obtain ⟨delivered, later, -, -⟩ := pickLoop_delivers parse path env rest next
        rw [onward, later]
        simp [grown]
      · rw [stopped]
        exact grown

theorem closeUnit_ignores_checkpoint (env : Session) (st : PickState) (point saved : CheckPoint) :
    ∃ point' saved', closeUnit env { st with point, saved } =
      ({ (closeUnit env st).1 with point := point', saved := saved' }, (closeUnit env st).2) := by
  unfold closeUnit leaveInterrupted
  dsimp only
  repeat' split
  all_goals exact ⟨_, _, rfl⟩

/-- The checkpoint a session starts from changes neither what it delivers nor how it ends. -/
theorem pickLoop_ignores_checkpoint (parse : EntryParser) (path : String) (env : Session)
    (lines : List (List Char)) (st : PickState) (point saved : CheckPoint) :
    (pickLoop parse path env lines { st with point, saved }).1.sent =
        (pickLoop parse path env lines st).1.sent ∧
      (pickLoop parse path env lines { st with point, saved }).2 =
        (pickLoop parse path env lines st).2 := by
  induction lines generalizing st point saved with
  | nil =>
    rw [pickLoop, pickLoop]
    repeat' split
    all_goals exact ⟨rfl, rfl⟩
  | cons line rest ih =>
    rw [pickLoop, pickLoop]
    dsimp only
    split
    · exact ⟨rfl, rfl⟩
    · split
      · exact ih st point saved
      · cases parse (String.ofList (trimEnd line)) with
        | none => exact ⟨rfl, rfl⟩
        | some entry =>
          dsimp only
          generalize sendWithBackpressure env.agents st.activeSinkIdx (env.answer st.sent.length) =
            answered
          obtain ⟨idx, outcome⟩ := answered
          cases outcome with
          | error reason => exact ⟨rfl, rfl⟩
          | ok _ =>
            have accepted : acceptEntry path idx entry.payload { st with point, saved } =
                { acceptEntry path idx entry.payload st with
                  point := point.recSuc path, saved := saved } := rfl
            obtain ⟨point', saved', closed⟩ := closeUnit_ignores_checkpoint env
              (acceptEntry path idx entry.payload st) (point.recSuc path) saved
            rw [← accepted] at closed
            dsimp only
            rw [closed, accepted]
            dsimp only
            split
            · generalize closeUnit env (acceptEntry path idx entry.payload st) = unit
              obtain ⟨next, how⟩ := unit
              cases how with
              | some how => exact ⟨rfl, rfl⟩
              | none => exact ih next point' saved'
            · exact ih _ (point.recSuc path) saved

end Loop

section Sessions
variable {parse : EntryParser} {path : String} {content : List Char}

theorem recovFile_present (parse : EntryParser) (path : String) {store : RescueStore}
    (env : Session) (present : store.file = some content) :
    ∃ start : RescueStore, start.file = some content ∧ start.accepted = store.accepted ∧
      recovFile parse path store env =
        if env.agents = 0 then (start, .noAgent)
        else if !env.openOk then (start, .failed .openFile)
        else
          let out := pickFile parse path env content start.point start.saved
          ({ file := if out.2 = .sucEnded then none else some content
             saved := out.1.saved
             point := out.1.point
             accepted := start.accepted ++ out.1.sent }, out.2) := by
  unfold recovFile
  dsimp only
  cases env.restarted with
  | true => exact ⟨{ store with point := store.saved }, present, rfl, by simp [present]⟩
  | false => exact ⟨store, present, rfl, by simp [present]⟩

/-- An interrupted session leaves the file and adds what it delivered. -/
theorem recovFile_interrupted {store : RescueStore} {env : Session}
    (present : store.file = some content)
    (interrupted : (recovFile parse path store env).2.isInterruption = true) :
    (recovFile parse path store env).1.file = some content ∧
      ∃ delivered, payloads (recovFile parse path store env).1.accepted =
          payloads store.accepted ++ delivered ∧
        (delivered = [] ↔ env.RefusesFirst) := by
  obtain ⟨start, loaded, before, session⟩ := recovFile_present parse path env present
  rw [session] at interrupted ⊢
  split at interrupted
  · rename_i missing
    rw [if_pos missing]
    refine ⟨loaded, [], by simp [before], ?_⟩
    simp [Session.RefusesFirst, missing]
  · rename_i found
    rw [if_neg found]
    split at interrupted
    · cases interrupted
    · rename_i opened
      rw [if_neg opened]
      dsimp only at interrupted ⊢
      have unended : (pickFile parse path env content start.point start.saved).2 ≠ .sucEnded := by
        intro ended
        rw [ended] at interrupted
        cases interrupted
      refine ⟨by simp [unended], _, ?_, pickLoop_delivers_nothing_iff rfl rfl interrupted⟩
      simp only [payloads, List.map_append, before]
      rfl

/-- A session that ends well delivers the whole file, whatever was delivered before. -/
theorem recovFile_finished {store : RescueStore} {env : Session}
    (present : store.file = some content)
    (finished : (recovFile parse path store env).2 = .sucEnded) :
    payloads (recovFile parse path store env).1.accepted =
      payloads store.accepted ++ fileEntries parse content := by
  obtain ⟨start, -, before, session⟩ := recovFile_present parse path env present
  rw [session] at finished ⊢
  split at finished
  · cases finished
  · rename_i found
    rw [if_neg found]
    split at finished
    · cases finished
    · rename_i opened
      rw [if_neg opened]
      obtain ⟨delivered, sent, -, all⟩ := pickLoop_delivers parse path env (readLines content)
        { ctrl := TaskController.fromSpeedLimit 100, activeSinkIdx := 0, sent := []
          point := start.point, saved := start.saved, units := 0 }
      have whole : payloads (pickFile parse path env content start.point start.saved).1.sent =
          fileEntries parse content := by
        rw [← show delivered = fileEntries parse content from all finished]
        exact sent
      rw [← whole, ← before]
      exact List.map_append

theorem interrupted_sessions (sessions : List Session) {store : RescueStore}
    (present : store.file = some content)
    (interrupted : Runs.AllSteps (recoverStep parse path)
      (fun store env => (recovFile parse path store env).2.isInterruption = true) store sessions) :
    (Runs.run (recoverStep parse path) store sessions).file = some content ∧
      ∃ delivered, payloads (Runs.run (recoverStep parse path) store sessions).accepted =
          payloads store.accepted ++ delivered ∧
        (delivered = [] ↔ ∀ env ∈ sessions, env.RefusesFirst) := by
  induction sessions generalizing store with
  | nil => exact ⟨present, [], by simp, by simp⟩
  | cons env rest ih =>
    obtain ⟨first, later⟩ := interrupted
    obtain ⟨kept, early, added, none⟩ := recovFile_interrupted present first
    obtain ⟨stays, late, more, noneLater⟩ := ih kept later
    refine ⟨stays, early ++ late, ?_, ?_⟩
    · rw [added, List.append_assoc] at more
      exact more
    · rw [List.append_eq_nil_iff, none, noneLater, List.forall_mem_cons]

end Sessions

/-- Sessions that are interrupted and a last one that ends well deliver the file exactly once if
    and only if no candidate took the first entry of any interrupted session. -/
theorem recovery_exactly_once_iff (parse : EntryParser) (path : String) (content : List Char)
    (saved point : CheckPoint) (sessions : List Session) (last : Session)
    (interrupted : Runs.AllSteps (recoverStep parse path)
      (fun store env => (recovFile parse path store env).2.isInterruption = true)
      ⟨some content, saved, point, []⟩ sessions)
    (finished : (recovFile parse path
      (Runs.run (recoverStep parse path) ⟨some content, saved, point, []⟩ sessions) last).2 =
        .sucEnded) :
    payloads (Runs.run (recoverStep parse path) ⟨some content, saved, point, []⟩
        (sessions ++ [last])).accepted = fileEntries parse content ↔
      ∀ env ∈ sessions, env.RefusesFirst := by
  obtain ⟨present, delivered, before, nothing⟩ := interrupted_sessions sessions rfl interrupted
  have after := recovFile_finished present finished
  rw [before] at after
  have whole : payloads (Runs.run (recoverStep parse path) ⟨some content, saved, point, []⟩
      (sessions ++ [last])).accepted = delivered ++ fileEntries parse content := by
    rw [Runs.run, List.foldl_append]
    exact after
  rw [whole, ← nothing]
  exact List.append_left_eq_self

section TwoEntries

/-- A raw entry as the rescue sink writes it. -/
def rawLine (text : String) : String :=
  "\x7b\"version\":1,\"kind\":\"raw\",\"raw\":\"" ++ text ++ "\"\x7d"

/-- The JSON parser on the lines of the file below. -/
def rawParse : EntryParser := fun line =>
  if line = rawLine "a" then some ⟨1, .raw "a"⟩
  else if line = rawLine "b" then some ⟨1, .raw "b"⟩
  else none

def twoEntries : List Char := (rawLine "a" ++ "\n" ++ rawLine "b" ++ "\n").toList

/-- One candidate, which accepts the first `limit` entries of the session and is closed then. -/
def closesAfter (limit : Nat) : Session :=
  { restarted := true, agents := 1, openOk := true, readOk := fun _ => true
    answer := fun sent _ _ => if sent < limit then .sended else .err "closed"
    turn := fun _ => ⟨false, true, true, .slept 0 0 0⟩
    finalSaveOk := true, finalStatOk := true, removeOk := true }

theorem refused_at_once_then_recovered :
    payloads (Runs.run (recoverStep rawParse "g/s.dat") ⟨some twoEntries, ⟨[]⟩, ⟨[]⟩, []⟩
      [closesAfter 0, closesAfter 2]).accepted = fileEntries rawParse twoEntries := by
  refine (recovery_exactly_once_iff rawParse "g/s.dat" twoEntries ⟨[]⟩ ⟨[]⟩ [closesAfter 0]
    (closesAfter 2) ?_ ?_).mpr ?_
  · exact ⟨by decide +kernel, trivial⟩
  · decide +kernel
  · intro env member
    rw [List.mem_singleton] at member
    subst member
    rintro c - ⟨t, -, accepted, -⟩
    cases accepted

/-- The sink closes after the first entry. The checkpoint has counted it, and the next session
    delivers it again. -/
theorem interrupted_entry_is_delivered_twice :
    (recovFile rawParse "g/s.dat" ⟨some twoEntries, ⟨[]⟩, ⟨[]⟩, []⟩ (closesAfter 1)).2 =
      .failed (.sink "closed") ∧
    (recovFile rawParse "g/s.dat" ⟨some twoEntries, ⟨[]⟩, ⟨[]⟩, []⟩
      (closesAfter 1)).1.point.get "g/s.dat" = some 1 ∧
    fileEntries rawParse twoEntries = [.raw "a", .raw "b"] ∧
    (Runs.run (recoverStep rawParse "g/s.dat") ⟨some twoEntries, ⟨[]⟩, ⟨[]⟩, []⟩
      [closesAfter 1, closesAfter 2]).file = none ∧
    payloads (Runs.run (recoverStep rawParse "g/s.dat") ⟨some twoEntries, ⟨[]⟩, ⟨[]⟩, []⟩
      [closesAfter 1, closesAfter 2]).accepted = [.raw "a", .raw "a", .raw "b"] := by
  decide +kernel

end TwoEntries

end WarpMotor.Recovery
