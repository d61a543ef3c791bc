import Mathlib.Data.List.Basic
import WarpMotor.Sink.Dispatcher

/-!
How a package is spread over the replicas of an infrastructure group. The
replica of a unit is counted twice: once when the units are filed under keys
made of a name and an ordinal, and once when the runtimes collect what is
filed under theirs. Both counts run over the ready sinks in the same order and
different pairs have different keys, so a runtime collects exactly the units
that fall to it. The single-record path counts in the same way.
-/
namespace WarpMotor

/-- Texts before a separator are equal when what follows it does not contain it. -/
theorem split_at_last {A : Type} {mark : A} {first second tail tail' : List A}
    (absent : mark ∉ tail) (absent' : mark ∉ tail')
    (same : first ++ mark :: tail = second ++ mark :: tail') : first = second ∧ tail = tail' := by
  induction first generalizing second with
  | nil =>
    cases second with
    | nil => exact ⟨rfl, (List.cons.inj same).2⟩
    | cons a rest =>
      have tails : tail = rest ++ mark :: tail' := (List.cons.inj same).2
      rw [tails] at absent
      simp at absent
  | cons a rest ih =>
    cases second with
    | nil =>
      have tails : rest ++ mark :: tail = tail' := (List.cons.inj same).2
      rw [← tails] at absent'
      simp at absent'
    | cons b others =>
      obtain ⟨heads, rests⟩ := List.cons.inj same
      obtain ⟨before, after⟩ := ih rests
      exact ⟨by rw [heads, before], after⟩

/-- A single item for a runtime of a dispatcher. -/
def SinkSlot.sendToSink {M : Type} (ctx : SendCtx) (data : SinkDataEnum) (slot : SinkSlot M) :
    SinkSlot M × Except SinkError Unit :=
  let (state, result) := slot.state.sendToSink slot.env ctx data
  ({ slot with state }, result)

namespace SinkDispatcher

theorem underscore_not_digit (ordinal : Nat) : '_' ∉ (toString ordinal).toList := by
  intro member
  have digit := Nat.isDigit_of_mem_toDigits (b := 10) (n := ordinal) (c := '_') (by omega) (by omega)
    (by simpa using member)
  cases digit

theorem replicaKey_inj {name other : String} {ordinal number : Nat} :
    replicaKey name ordinal = replicaKey other number ↔ name = other ∧ ordinal = number := by
  constructor
  · intro same
    have texts : name.toList ++ '_' :: (toString ordinal).toList =
        other.toList ++ '_' :: (toString number).toList := by
      have whole := congrArg String.toList same
      simpa [replicaKey] using whole
    obtain ⟨names, digits⟩ :=
      split_at_last (underscore_not_digit ordinal) (underscore_not_digit number) texts
    refine ⟨String.toList_inj.mp names, ?_⟩
    have numbers := congrArg (fun text => Nat.ofDigitChars 10 text 0) digits
    simpa using numbers
  · rintro ⟨rfl, rfl⟩
    rfl

/-- What is filed under a key. -/
def held (key : String) (routed : List (String × SinkPackage)) : SinkPackage :=
  (takeEntry key routed).1.getD []

theorem held_pushEntry (key other : String) (unit : SinkRecUnit)
    (routed : List (String × SinkPackage)) :
    held key (pushEntry other unit routed) =
      held key routed ++ if other = key then [unit] else [] := by
  induction routed with
  | nil =>
    by_cases same : other = key <;> simp [held, pushEntry, takeEntry, same]
  | cons entry rest ih =>
    obtain ⟨name, units⟩ := entry
    simp only [held] at ih
    unfold held pushEntry
    by_cases found : name = other
    · rw [if_pos found]
      by_cases same : name = key
      · simp [takeEntry, same, ← found]
      · have different : other ≠ key := fun hit => same (found.trans hit)
        simp [takeEntry, same, different]
    · rw [if_neg found]
      by_cases same : name = key
      · have different : other ≠ key := fun hit => found (same.trans hit.symm)
        simp [takeEntry, same, different]
      · simp [takeEntry, same, ih]

theorem held_takeEntry {key other : String} (different : key ≠ other)
    (routed : List (String × SinkPackage)) :
    held key (takeEntry other routed).2 = held key routed := by
  induction routed with
  | nil => rfl
  | cons entry rest ih =>
    obtain ⟨name, units⟩ := entry
    simp only [held] at ih
    unfold held
    by_cases hit : name = other
    · simp [takeEntry, hit, Ne.symm different]
    · by_cases same : name = key
      · simp [takeEntry, same, different]
      · simp [takeEntry, hit, same, ih]

variable {M : Type}

/-- The number of ready sinks of a name. -/
def readyCount (name : String) (sinks : List (SinkSlot M)) : Nat :=
  sinks.countP (fun slot => slot.ready && decide (slot.name = name))

theorem readyCount_cons (name : String) (slot : SinkSlot M) (rest : List (SinkSlot M)) :
    readyCount name (slot :: rest) =
      readyCount name rest + if slot.ready ∧ slot.name = name then 1 else 0 := by
  simp only [readyCount, List.countP_cons, Bool.and_eq_true, decide_eq_true_eq]

/-- A unit is filed under one key of each name: that of the ordinal its id falls to, if the pass
    over the sinks meets a ready one with this ordinal. -/
theorem held_routeUnit (total : String → Nat) (unit : SinkRecUnit) (name : String) (ordinal : Nat)
    (sinks : List (SinkSlot M)) (seen : List String) (routed : List (String × SinkPackage)) :
    held (replicaKey name ordinal) (routeUnit total unit sinks seen routed) =
      held (replicaKey name ordinal) routed ++
        if ordinal = unit.id % total name ∧ seen.count name ≤ ordinal ∧
          ordinal < seen.count name + readyCount name sinks then [unit] else [] := by
  induction sinks generalizing seen routed with
  | nil =>
    have none_left : ¬ (ordinal = unit.id % total name ∧ seen.count name ≤ ordinal ∧
        ordinal < seen.count name + readyCount name ([] : List (SinkSlot M))) := by
      simp only [readyCount, List.countP_nil]
      omega
    rw [if_neg none_left, List.append_nil, routeUnit]
  | cons slot rest ih =>
    unfold routeUnit
    rw [readyCount_cons]
    by_cases ready : slot.ready = true
    · rw [if_pos ready]
      dsimp only
      rw [ih]
      by_cases named : slot.name = name
      · subst named
        simp only [ready, List.count_cons_self, and_self, if_true]
        by_cases hit : seen.count slot.name = unit.id % total slot.name
        · rw [if_pos hit, held_pushEntry]
          by_cases this : seen.count slot.name = ordinal
          · have later : ¬ (ordinal = unit.id % total slot.name ∧
                seen.count slot.name + 1 ≤ ordinal ∧
                ordinal < seen.count slot.name + 1 + readyCount slot.name rest) := by omega
            have met : ordinal = unit.id % total slot.name ∧ seen.count slot.name ≤ ordinal ∧
                ordinal < seen.count slot.name + (readyCount slot.name rest + 1) := by omega
            rw [if_neg later, if_pos met, this, if_pos rfl, List.append_nil]
          · have other : ¬ replicaKey slot.name (seen.count slot.name) =
                replicaKey slot.name ordinal := fun same => this (replicaKey_inj.mp same).2
            rw [if_neg other, List.append_nil]
            congr 1
            apply if_congr ?_ rfl rfl
            omega
        · rw [if_neg hit]
          congr 1
          apply if_congr ?_ rfl rfl
          omega
      · have other : ∀ number, ¬ replicaKey slot.name number = replicaKey name ordinal :=
          fun number same => named (replicaKey_inj.mp same).1
        simp only [named, and_false, if_false, Nat.add_zero, List.count_cons_of_ne named]
        congr 1
        split
        · rw [held_pushEntry, if_neg (other _), List.append_nil]
        · rfl
    · rw [if_neg ready, ih]
      simp only [ready, false_and, if_false, Nat.add_zero, Bool.false_eq_true]

/-- The units of a package that the routing files for a replica, in package order. -/
theorem held_routed (total : String → Nat) (name : String) (ordinal : Nat)
    (sinks : List (SinkSlot M)) (package : SinkPackage) (routed : List (String × SinkPackage))
    (present : ordinal < readyCount name sinks) :
    held (replicaKey name ordinal)
        (package.foldl (fun routed unit => routeUnit total unit sinks [] routed) routed) =
      held (replicaKey name ordinal) routed ++
        package.filter (fun unit => ordinal = unit.id % total name) := by
  induction package generalizing routed with
  | nil => simp
  | cons unit rest ih =>
    rw [List.foldl_cons, ih, held_routeUnit, List.append_assoc, List.filter_cons]
    congr 1
    have bounds : List.count name [] ≤ ordinal ∧
        ordinal < List.count name [] + readyCount name sinks := by
      simp only [List.count_nil]
      omega
    by_cases falls : ordinal = unit.id % total name
    · rw [if_pos ⟨falls, bounds⟩, if_pos (by simpa using falls)]
      rfl
    · rw [if_neg (fun hit => falls hit.1), if_neg (by simpa using falls)]
      rfl

/-- A loop over the ready sinks, each with its ordinal among those of its name; `seen` are the names
    of the ready sinks passed so far. -/
def passReady (act : Nat → SinkSlot M → SinkSlot M × Except SinkError Unit) :
    List (SinkSlot M) → List String → List (SinkSlot M) × Except SinkError Unit
  | [], _ => ([], .ok ())
  | slot :: rest, seen =>
    if slot.ready then
      match act (seen.count slot.name) slot with
      | (sent, .error e) => (sent :: rest, .error e)
      | (sent, .ok ()) =>
        let (rest, result) := passReady act rest (slot.name :: seen)
        (sent :: rest, result)
    else
      let (rest, result) := passReady act rest seen
      (slot :: rest, result)

/-- `dispatch_one_per_name_tdc`: a single record, sent to the replica of each name that its event
    falls to. -/
def dispatchOnePerNameTdc (ctx : SendCtx) (eventId : Nat) (procMeta : ProcMeta) (data : DataRecord)
    (d : SinkDispatcher M) : DispatchResult M Unit :=
  if d.sinks.all (fun slot => !slot.ready) then (d, .ok ())
  else
    let (sinks, result) := passReady (fun ordinal slot =>
      if ordinal = eventId % d.readyTotal slot.name then slot.sendToSink ctx (.record procMeta data)
      else (slot, .ok ())) d.sinks []
    ({ d with sinks }, result)

/-- The ordinal of a position: the ready sinks of the name before it. -/
def ordinalAt (sinks : List (SinkSlot M)) (index : Nat) (name : String) : Nat :=
  readyCount name (sinks.take index)

theorem ordinalAt_succ (slot : SinkSlot M) (rest : List (SinkSlot M)) (index : Nat)
    (name : String) :
    ordinalAt (slot :: rest) (index + 1) name =
      ordinalAt rest index name + if slot.ready ∧ slot.name = name then 1 else 0 := by
  rw [ordinalAt, List.take_succ_cons, readyCount_cons, ordinalAt]

theorem count_seen (slot : SinkSlot M) (seen : List String) (name : String)
    (ready : slot.ready = true) :
    (slot.name :: seen).count name =
      seen.count name + if slot.ready ∧ slot.name = name then 1 else 0 := by
  rw [List.count_cons]
  simp only [ready, true_and, beq_iff_eq]

/-- The loop acts on every ready sink it reaches, under its ordinal, and reaches all of them when it
    ends well. -/
theorem passReady_spec (act : Nat → SinkSlot M → SinkSlot M × Except SinkError Unit)
    (sinks : List (SinkSlot M)) (seen : List String) :
    ∃ reached, ((passReady act sinks seen).2 = .ok () → reached = sinks.length) ∧
      ∀ index slot, sinks[index]? = some slot →
        (passReady act sinks seen).1[index]? = some (if index < reached ∧ slot.ready = true then
          (act (seen.count slot.name + ordinalAt sinks index slot.name) slot).1 else slot) := by
  induction sinks generalizing seen with
  | nil =>
    refine ⟨0, fun _ => rfl, ?_⟩
    intro index slot present
    simp at present
  | cons head rest ih =>
    unfold passReady
    by_cases ready : head.ready = true
    · rw [if_pos ready]
      cases acted : act (seen.count head.name) head with
      | mk sent result =>
        cases result with
        | error e =>
          refine ⟨1, fun ok => (by cases ok), ?_⟩
          intro index slot present
          cases index with
          | zero =>
            cases present
            simp [ready, ordinalAt, readyCount, acted]
          | succ index => simpa using present
        | ok _ =>
          obtain ⟨reached, whole, visited⟩ := ih (head.name :: seen)
          refine ⟨reached + 1, ?_, ?_⟩
          · intro ok
            rw [whole ok, List.length_cons]
          · intro index slot present
            cases index with
            | zero =>
              cases present
              simp [ready, ordinalAt, readyCount, acted]
            | succ index =>
              have later := visited index slot (by simpa using present)
              rw [count_seen head seen slot.name ready] at later
              rw [ordinalAt_succ, Nat.add_comm (ordinalAt rest index slot.name), ← Nat.add_assoc]
              simpa only [List.getElem?_cons_succ, Nat.add_lt_add_iff_right] using later
    · rw [if_neg ready]
      obtain ⟨reached, whole, visited⟩ := ih seen
      refine ⟨reached + 1, ?_, ?_⟩
      · intro ok
        rw [whole ok, List.length_cons]
      · intro index slot present
        cases index with
        | zero =>
          cases present
          simp [ready]
        | succ index =>
          have later := visited index slot (by simpa using present)
          rw [ordinalAt_succ]
          simpa [ready] using later

variable [DecidableEq M]

/-- A replica with filed units sends them as one package. -/
def sendHeld (routed : List (String × SinkPackage)) (ordinal : Nat) (slot : SinkSlot M) :
    SinkSlot M × Except SinkError Unit :=
  let units := held (replicaKey slot.name ordinal) routed
  if units.isEmpty then (slot, .ok ()) else slot.sendPackage workCtx units

/-- What the replicas before have taken out is filed under other keys, so every replica still finds
    its own. -/
theorem deliverRouted_eq (sinks : List (SinkSlot M)) (seen : List String)
    (routed whole : List (String × SinkPackage))
    (untouched : ∀ name ordinal, seen.count name ≤ ordinal →
      held (replicaKey name ordinal) routed = held (replicaKey name ordinal) whole) :
    deliverRouted sinks seen routed = passReady (sendHeld whole) sinks seen := by
  induction sinks generalizing seen routed with
  | nil => rfl
  | cons slot rest ih =>
    unfold deliverRouted passReady
    by_cases ready : slot.ready = true
    · rw [if_pos ready, if_pos ready]
      have mine := untouched slot.name (seen.count slot.name) (Nat.le_refl _)
      have others : ∀ name ordinal, (slot.name :: seen).count name ≤ ordinal →
          held (replicaKey name ordinal)
              (takeEntry (replicaKey slot.name (seen.count slot.name)) routed).2 =
            held (replicaKey name ordinal) whole := by
        intro name ordinal later
        rw [count_seen slot seen name ready] at later
        rw [held_takeEntry, untouched name ordinal (by omega)]
        intro same
        obtain ⟨named, counted⟩ := replicaKey_inj.mp same
        rw [if_pos ⟨ready, named.symm⟩, counted, named] at later
        omega
      have after := ih (slot.name :: seen) _ others
      rw [held] at mine
      unfold sendHeld
      rw [← mine]
      cases taken : takeEntry (replicaKey slot.name (seen.count slot.name)) routed with
      | mk found remaining =>
        rw [taken] at after
        dsimp only at after
        cases found with
        | none => simp only [Option.getD_none, List.isEmpty_nil, if_true, after]; rfl
        | some units =>
          dsimp only [Option.getD_some]
          by_cases empty : units.isEmpty = true
          · rw [if_pos empty, if_pos empty, after]
            rfl
          · rw [if_neg empty, if_neg empty]
            cases slot.sendPackage workCtx units with
            | mk sent result =>
              cases result with
              | error e => rfl
              | ok _ =>
                dsimp only
                rw [after]
                rfl
    · rw [if_neg ready, if_neg ready, ih seen routed untouched]

end SinkDispatcher

namespace SinkDispatcher
variable {M : Type}

/-- Every ordinal below the number of ready replicas belongs to exactly one position. -/
theorem existsUnique_ordinalAt (name : String) (sinks : List (SinkSlot M)) (ordinal : Nat)
    (present : ordinal < readyCount name sinks) :
    ∃! index, ∃ slot, sinks[index]? = some slot ∧ slot.name = name ∧ slot.ready = true ∧
      ordinalAt sinks index slot.name = ordinal := by
  induction sinks generalizing ordinal with
  | nil =>
    simp only [readyCount, List.countP_nil] at present
    omega
  | cons head rest ih =>
    rw [readyCount_cons] at present
    have behind : ∀ target, target < readyCount name rest →
        target + (if head.ready ∧ head.name = name then 1 else 0) = ordinal →
        (head.ready = true ∧ head.name = name → ordinal ≠ 0) →
        ∃! index, ∃ slot, (head :: rest)[index]? = some slot ∧ slot.name = name ∧
          slot.ready = true ∧ ordinalAt (head :: rest) index slot.name = ordinal := by
      intro target room shifted skipped
      obtain ⟨index, ⟨slot, found, named, ready, counted⟩, only⟩ := ih target room
      refine ⟨index + 1, ⟨slot, by simpa using found, named, ready, ?_⟩, ?_⟩
      · rw [ordinalAt_succ, counted, named]
        exact shifted
      · rintro other ⟨slot', found', named', ready', counted'⟩
        cases other with
        | zero =>
          cases found'
          have first : ordinal = 0 := counted'.symm
          exact absurd first (skipped ⟨ready', named'⟩)
        | succ other =>
          rw [ordinalAt_succ, named'] at counted'
          rw [only other ⟨slot', by simpa using found', named', ready', by rw [named']; omega⟩]
    by_cases hit : head.ready = true ∧ head.name = name
    · rw [if_pos hit] at present
      cases ordinal with
      | zero =>
        refine ⟨0, ⟨head, rfl, hit.2, hit.1, rfl⟩, ?_⟩
        rintro other ⟨slot', -, named', -, counted'⟩
        cases other with
        | zero => rfl
        | succ other =>
          rw [ordinalAt_succ, named', if_pos hit] at counted'
          omega
      | succ ordinal =>
        exact behind ordinal (by omega) (by rw [if_pos hit]) (fun _ => Nat.succ_ne_zero _)
    · rw [if_neg hit] at present
      exact behind ordinal (by omega) (by rw [if_neg hit, Nat.add_zero])
        (fun impossible => absurd impossible hit)

theorem ordinalAt_lt {sinks : List (SinkSlot M)} {index : Nat} {slot : SinkSlot M}
    (found : sinks[index]? = some slot) (ready : slot.ready = true) :
    ordinalAt sinks index slot.name < readyCount slot.name sinks := by
  induction sinks generalizing index with
  | nil => simp at found
  | cons head rest ih =>
    rw [readyCount_cons]
    cases index with
    | zero =>
      cases found
      simp [ordinalAt, readyCount, ready]
    | succ index =>
      have later := ih (by simpa using found)
      rw [ordinalAt_succ]
      omega

/-- The event falls to the ready sink at this position. -/
def fallsTo (d : SinkDispatcher M) (eventId index : Nat) (slot : SinkSlot M) : Bool :=
  slot.ready && decide (ordinalAt d.sinks index slot.name = eventId % d.readyTotal slot.name)

/-- The units of a package that fall to a position, in package order. -/
def share (d : SinkDispatcher M) (package : SinkPackage) (index : Nat) (slot : SinkSlot M) :
    SinkPackage :=
  package.filter (fun unit => d.fallsTo unit.id index slot)

theorem share_frozen (d : SinkDispatcher M) (package : SinkPackage) (index : Nat)
    {slot : SinkSlot M} (frozen : ¬ slot.ready = true) : d.share package index slot = [] := by
  simp [share, fallsTo, frozen]

theorem existsUnique_fallsTo (d : SinkDispatcher M) (eventId : Nat) {name : String}
    (present : 0 < d.readyTotal name) :
    ∃! index, ∃ slot, d.sinks[index]? = some slot ∧ slot.name = name ∧
      d.fallsTo eventId index slot = true := by
  obtain ⟨index, ⟨slot, found, named, ready, counted⟩, only⟩ := existsUnique_ordinalAt name d.sinks
    (eventId % d.readyTotal name) (Nat.mod_lt eventId present)
  refine ⟨index, ⟨slot, found, named, ?_⟩, ?_⟩
  · rw [named] at counted
    simp [fallsTo, ready, counted, named]
  · rintro other ⟨slot', found', named', falls⟩
    simp only [fallsTo, Bool.and_eq_true, decide_eq_true_eq] at falls
    rw [named'] at falls
    exact only other ⟨slot', found', named', falls.1, by rw [named']; exact falls.2⟩

/-- The single-record path sends to the positions the event falls to, up to a first error. -/
theorem dispatchOnePerNameTdc_spec (ctx : SendCtx) (eventId : Nat) (procMeta : ProcMeta)
    (data : DataRecord) (d : SinkDispatcher M) :
    ∃ reached, ((d.dispatchOnePerNameTdc ctx eventId procMeta data).2 = .ok () →
        reached = d.sinks.length) ∧
      ∀ index slot, d.sinks[index]? = some slot →
        (d.dispatchOnePerNameTdc ctx eventId procMeta data).1.sinks[index]? =
          some (if index < reached ∧ d.fallsTo eventId index slot = true then
            (slot.sendToSink ctx (.record procMeta data)).1 else slot) := by
  unfold dispatchOnePerNameTdc
  split
  · rename_i frozen
    refine ⟨d.sinks.length, fun _ => rfl, ?_⟩
    intro index slot found
    have asleep := List.all_eq_true.mp frozen slot (List.mem_of_getElem? found)
    rw [found]
    simp only [Bool.not_eq_true'] at asleep
    simp [fallsTo, asleep]
  · obtain ⟨reached, whole, visited⟩ := passReady_spec (fun ordinal slot =>
      if ordinal = eventId % d.readyTotal slot.name then slot.sendToSink ctx (.record procMeta data)
      else (slot, .ok ())) d.sinks []
    refine ⟨reached, whole, ?_⟩
    intro index slot found
    have seen := visited index slot found
    dsimp only at seen ⊢
    rw [seen, List.count_nil, Nat.zero_add]
    by_cases passed : index < reached <;> by_cases ready : slot.ready = true <;>
      by_cases falls : ordinalAt d.sinks index slot.name = eventId % d.readyTotal slot.name <;>
        simp [fallsTo, passed, ready, falls]

variable [DecidableEq M]

/-- The batch path sends each position its share, up to a first error. -/
theorem groupSinkBatchDirect_spec (package : SinkPackage) (d : SinkDispatcher M) :
    ∃ reached, (∀ count, (d.groupSinkBatchDirect package).2 = .ok count →
        reached = d.sinks.length) ∧
      ∀ index slot, d.sinks[index]? = some slot →
        (d.groupSinkBatchDirect package).1.sinks[index]? =
          some (if index < reached ∧ d.share package index slot ≠ [] then
            (slot.sendPackage workCtx (d.share package index slot)).1 else slot) := by
  unfold groupSinkBatchDirect
  split
  · rename_i empty
    rw [List.isEmpty_iff] at empty
    refine ⟨d.sinks.length, fun _ _ => rfl, ?_⟩
    intro index slot found
    simp [empty, share, found]
  · split
    · rename_i frozen
      refine ⟨d.sinks.length, fun _ _ => rfl, ?_⟩
      intro index slot found
      have asleep := List.all_eq_true.mp frozen slot (List.mem_of_getElem? found)
      rw [Bool.not_eq_true', ← Bool.not_eq_true] at asleep
      simp [found, share_frozen d package index asleep]
    · dsimp only
      rw [deliverRouted_eq d.sinks [] _ _ (fun _ _ _ => rfl)]
      have passed := passReady_spec (sendHeld (package.foldl
        (fun routed unit => routeUnit d.readyTotal unit d.sinks [] routed) [])) d.sinks []
      generalize routing : package.foldl
        (fun routed unit => routeUnit d.readyTotal unit d.sinks [] routed) [] = routed at passed ⊢
      obtain ⟨reached, whole, visited⟩ := passed
      refine ⟨reached, ?_, ?_⟩
      · intro count ok
        split at ok
        · cases ok
        · rename_i outcome
          exact whole (congrArg Prod.snd outcome)
      · intro index slot found
        have seen := visited index slot found
        rw [List.count_nil, Nat.zero_add] at seen
        have kept : ∀ sinks result, passReady (sendHeld routed) d.sinks [] = (sinks, result) →
            sinks[index]? = some (if index < reached ∧ d.share package index slot ≠ [] then
              (slot.sendPackage workCtx (d.share package index slot)).1 else slot) := by
          intro sinks result outcome
          rw [outcome] at seen
          rw [seen]
          by_cases ready : slot.ready = true
          · have collected : held (replicaKey slot.name (ordinalAt d.sinks index slot.name)) routed =
                d.share package index slot := by
              rw [← routing, held_routed _ _ _ _ _ _ (ordinalAt_lt found ready)]
              simp [held, takeEntry, share, fallsTo, ready]
            simp only [sendHeld, collected, ready, and_true]
            by_cases empty : d.share package index slot = [] <;> simp [empty]
          · simp [ready, share_frozen d package index ready]
        split
        · rename_i outcome
          exact kept _ _ outcome
        · rename_i outcome
          exact kept _ _ outcome

end SinkDispatcher

end WarpMotor
