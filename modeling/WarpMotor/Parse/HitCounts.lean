import WarpMotor.Parse.Attribution

/-!
What the hit counts count. A rule's count goes up with every answer it gives,
before the residue of the answer is looked at; an event is delivered under the
first rule whose residue is small enough. The two agree on an event exactly if
no rule before that one answers, unless it carries the same key.
-/
namespace WarpMotor
variable {Progress : Type}

/-- The rule ends the search with its parse. -/
def WplPipeline.delivers (event : SourceEvent) (p : WplPipeline Progress) : Bool :=
  p.autoMatch && p.parses event

/-- The key an event is delivered under. -/
def ProcessResult.wplKey? : ProcessResult → Option String
  | .success wplKey _ _ => some wplKey
  | .partialParse wplKey _ _ _ => some wplKey
  | .miss _ => none

theorem parses_answers {p : WplPipeline Progress} {event : SourceEvent}
    (parses : p.parses event = true) : p.answers event = true := by
  unfold WplPipeline.parses at parses
  unfold WplPipeline.answers
  split
  · rfl
  · rename_i e outcome
    rw [outcome] at parses
    cases parses

theorem rejects_no_answer {p : WplPipeline Progress} {event : SourceEvent}
    (rejects : p.rejectsOutright event = true) : ¬ p.answers event = true := by
  unfold WplPipeline.rejectsOutright at rejects
  unfold WplPipeline.answers
  split
  · rename_i value outcome
    rw [outcome] at rejects
    cases rejects
  · simp

/-- The rules after one event: every answer up to the delivering rule is counted. -/
def countHits (event : SourceEvent) : List (WplPipeline Progress) → List (WplPipeline Progress)
  | [] => []
  | p :: rest =>
    if p.delivers event then p.bump :: rest
    else (if p.autoMatch && p.answers event then p.bump else p) :: countHits event rest

def deliveredKey (event : SourceEvent) (rules : List (WplPipeline Progress)) : Option String :=
  (rules.find? (WplPipeline.delivers event)).map WplPipeline.wplKey

def LoopEnd.wplKey? : LoopEnd Progress → Option String
  | .returned result => result.wplKey?
  | .missed _ => none

section Loop
variable (api : ParserApi Progress) (event : SourceEvent) (setting : ParseOption)

theorem parseLoop_delivers (idx : Nat) {p : WplPipeline Progress}
    (rest : List (WplPipeline Progress)) (best : Attribution Progress)
    (delivers : p.delivers event = true) :
    ∃ result, parseLoop api event setting idx (p :: rest) best =
      (p.bump :: rest, .returned result) ∧ result.wplKey? = some p.wplKey := by
  obtain ⟨tried, parses⟩ := Bool.and_eq_true_iff.mp delivers
  rw [parseLoop, if_pos tried]
  unfold WplPipeline.parses at parses
  cases outcome : p.proc event with
  | mk parsed progress =>
    rw [outcome] at parses
    cases parsed with
    | error e => cases parses
    | ok value =>
      obtain ⟨record, left, sides⟩ := value
      have small := of_decide_eq_true parses
      dsimp only
      split
      · exact ⟨_, rfl, rfl⟩
      · rw [if_neg (by omega)]
        exact ⟨_, rfl, rfl⟩

/-- The loop counts and delivers like this once an error is on record, and before that as long as
    the first attempt does not reject the event outright. -/
theorem parseLoop_counts (idx : Nat) (rules : List (WplPipeline Progress))
    (best : Attribution Progress)
    (goes_on : best.error ≠ none ∨ best.Fresh ∧ ¬ FirstRejects rules event) :
    (parseLoop api event setting idx rules best).1 = countHits event rules ∧
      (parseLoop api event setting idx rules best).2.wplKey? = deliveredKey event rules := by
  induction rules generalizing idx best with
  | nil => exact ⟨rfl, rfl⟩
  | cons p rest ih =>
    unfold countHits deliveredKey
    by_cases delivers : p.delivers event = true
    · obtain ⟨result, ended, key⟩ := parseLoop_delivers api event setting idx rest best delivers
      rw [ended, if_pos delivers, List.find?_cons_of_pos delivers]
      exact ⟨rfl, key⟩
    · rw [if_neg delivers, List.find?_cons_of_neg delivers]
      by_cases tried : p.autoMatch = true
      · have fails : ¬ p.parses event = true := fun parses => delivers (by
          simp [WplPipeline.delivers, tried, parses])
        simp only [tried, Bool.true_and]
        by_cases rejects : p.rejectsOutright event = true
        · have settled : best.error ≠ none := by
            rcases goes_on with settled | ⟨-, tolerated⟩
            · exact settled
            · exact absurd ⟨p, by simp [tried], rejects⟩ tolerated
          rw [parseLoop_passes_over api event setting idx rest best tried rejects settled,
            if_neg (rejects_no_answer rejects)]
          obtain ⟨rules, key⟩ := ih (idx + 1) best (.inl settled)
          exact ⟨by rw [rules], key⟩
        · obtain ⟨e, continued⟩ :=
            parseLoop_candidate api event setting idx rest best tried fails rejects
          have settled : (best.challenge api event (p, idx) e).error ≠ none := by
            unfold Attribution.challenge
            split
            · simp
            · rename_i loses
              rcases goes_on with settled | ⟨fresh, -⟩
              · exact settled
              · simp [fresh.1] at loses
          rw [continued]
          obtain ⟨rules, key⟩ := ih (idx + 1) _ (.inl settled)
          exact ⟨by rw [rules], key⟩
      · have goes_on' : best.error ≠ none ∨ best.Fresh ∧ ¬ FirstRejects rest event := by
          have first : FirstRejects (p :: rest) event ↔ FirstRejects rest event := by
            simp [FirstRejects, tried]
          rw [← first]
          exact goes_on
        obtain ⟨rules, key⟩ := ih (idx + 1) best goes_on'
        rw [parseLoop, if_neg tried]
        simp only [tried, Bool.false_and, Bool.false_eq_true, if_false]
        exact ⟨by rw [rules], key⟩

/-- A first attempt that rejects the event outright ends the loop before any answer. -/
theorem parseLoop_counts_nothing (idx : Nat) (rules : List (WplPipeline Progress))
    (best : Attribution Progress) (fresh : best.Fresh) (rejects : FirstRejects rules event) :
    (parseLoop api event setting idx rules best).1 = rules ∧
      (parseLoop api event setting idx rules best).2.wplKey? = none := by
  induction rules generalizing idx with
  | nil =>
    obtain ⟨first, found, -⟩ := rejects
    cases found
  | cons p rest ih =>
    by_cases tried : p.autoMatch = true
    · have refuses : p.rejectsOutright event = true := by
        simpa [FirstRejects, tried] using rejects
      obtain ⟨e, ended⟩ :=
        parseLoop_first_rejection api event setting idx rest best tried refuses fresh
      rw [ended]
      exact ⟨rfl, rfl⟩
    · have later : FirstRejects rest event := by
        simpa [FirstRejects, tried] using rejects
      obtain ⟨rules, key⟩ := ih (idx + 1) later
      rw [parseLoop, if_neg tried]
      exact ⟨congrArg (List.cons p) rules, key⟩

end Loop

/-- The rules that are asked before one delivers the event. -/
def askedInVain (event : SourceEvent) (rules : List (WplPipeline Progress)) :
    List (WplPipeline Progress) :=
  rules.takeWhile (fun p => !p.delivers event)

/-- The rules behind the one that delivers the event. -/
def behindDelivery (event : SourceEvent) (rules : List (WplPipeline Progress)) :
    List (WplPipeline Progress) :=
  (rules.dropWhile (fun p => !p.delivers event)).tail

/-- The first attempt ends the search by rejecting the event outright; or no rule asked in vain
    returns a record and no other rule has the key of the rule that delivers, or both at once. -/
def HitsRight (rules : List (WplPipeline Progress)) (event : SourceEvent) : Prop :=
  FirstRejects rules event ∨
    (∀ p ∈ askedInVain event rules, (p.autoMatch && p.answers event) = true ↔
      deliveredKey event rules = some p.wplKey) ∧
    ∀ p ∈ behindDelivery event rules, deliveredKey event rules ≠ some p.wplKey

/-- Every rule's count is the number of deliveries under its key. -/
def CountsDeliveries (rules : List (WplPipeline Progress)) (delivered : List String) : Prop :=
  ∀ p ∈ rules, p.hitCnt = delivered.count p.wplKey

theorem count_delivery (delivered : List String) (key : Option String) (wplKey : String) :
    (delivered ++ key.toList).count wplKey =
      delivered.count wplKey + if key = some wplKey then 1 else 0 := by
  cases key with
  | none => simp
  | some found =>
    by_cases same : found = wplKey <;> simp [List.count_append, same]

/-- One event at a time: whether the counts stay right for the key it is delivered under. -/
theorem countHits_iff (event : SourceEvent) (rules : List (WplPipeline Progress))
    (delivered : List String) (key : Option String) (right : CountsDeliveries rules delivered) :
    CountsDeliveries (countHits event rules) (delivered ++ key.toList) ↔
      (∀ p ∈ askedInVain event rules, (p.autoMatch && p.answers event) = true ↔
          key = some p.wplKey) ∧
        (∀ p ∈ behindDelivery event rules, key ≠ some p.wplKey) ∧
        ∀ p, rules.find? (WplPipeline.delivers event) = some p → key = some p.wplKey := by
  induction rules with
  | nil => simp [countHits, askedInVain, behindDelivery, CountsDeliveries]
  | cons p rest ih =>
    have mine : p.hitCnt = delivered.count p.wplKey := right p (List.mem_cons_self ..)
    have others : CountsDeliveries rest delivered :=
      fun q member => right q (List.mem_cons_of_mem p member)
    unfold countHits askedInVain behindDelivery
    by_cases delivers : p.delivers event = true
    · have unmoved : CountsDeliveries rest (delivered ++ key.toList) ↔
          ∀ q ∈ rest, key ≠ some q.wplKey := by
        apply forall₂_congr
        intro q member
        rw [count_delivery, others q member]
        by_cases same : key = some q.wplKey <;> simp [same]
      have moved : p.bump.hitCnt = (delivered ++ key.toList).count p.bump.wplKey ↔
          key = some p.wplKey := by
        have bumped : p.bump.hitCnt = p.hitCnt + 1 := rfl
        have named : p.bump.wplKey = p.wplKey := rfl
        rw [bumped, named, count_delivery, mine]
        by_cases same : key = some p.wplKey <;> simp [same]
      rw [if_pos delivers, List.takeWhile_cons_of_neg (by simp [delivers]),
        List.dropWhile_cons_of_neg (by simp [delivers]), List.find?_cons_of_pos delivers,
        CountsDeliveries, List.forall_mem_cons, moved, List.tail_cons]
      simp only [CountsDeliveries] at unmoved
      rw [unmoved]
      simp only [List.not_mem_nil, false_implies, implies_true, true_and, Option.some.injEq,
        forall_eq']
      exact and_comm
    · have moved : (if (p.autoMatch && p.answers event) = true then p.bump else p).hitCnt =
          (delivered ++ key.toList).count
            (if (p.autoMatch && p.answers event) = true then p.bump else p).wplKey ↔
          ((p.autoMatch && p.answers event) = true ↔ key = some p.wplKey) := by
        have bumped : p.bump.hitCnt = p.hitCnt + 1 := rfl
        have named : p.bump.wplKey = p.wplKey := rfl
        split
        · rename_i counted
          rw [bumped, named, count_delivery, mine]
          by_cases same : key = some p.wplKey <;> simp [same, counted]
        · rename_i uncounted
          rw [count_delivery, mine]
          by_cases same : key = some p.wplKey <;> simp [same, uncounted]
      rw [if_neg delivers, List.takeWhile_cons_of_pos (by simp [delivers]),
        List.dropWhile_cons_of_pos (by simp [delivers]), List.find?_cons_of_neg delivers,
        CountsDeliveries, List.forall_mem_cons, moved, List.forall_mem_cons, and_assoc]
      exact and_congr_right (fun _ => ih others)

/-- The parser and the keys it has delivered events under since its counts were cleared. -/
structure CountedParser (Progress : Type) where
  mp : MultiParser Progress
  delivered : List String

def CountedParser.step (api : ParserApi Progress) (c : CountedParser Progress)
    (input : SourceEvent × ParseOption) : CountedParser Progress :=
  let (result, mp) := c.mp.parseEvent api input.1 input.2
  { mp, delivered := c.delivered ++ result.wplKey?.toList }

def CountedParser.Right (c : CountedParser Progress) : Prop :=
  CountsDeliveries c.mp.pipelines c.delivered

theorem parseEvent_loop (api : ParserApi Progress) (event : SourceEvent) (setting : ParseOption)
    (mp : MultiParser Progress) :
    (mp.parseEvent api event setting).2.pipelines =
        (parseLoop api event setting 0 mp.pipelines ⟨none, api.noProgress, none⟩).1 ∧
      (mp.parseEvent api event setting).1.wplKey? =
        (parseLoop api event setting 0 mp.pipelines ⟨none, api.noProgress, none⟩).2.wplKey? := by
  unfold MultiParser.parseEvent
  split
  all_goals
    rename_i outcome
    rw [outcome]
    exact ⟨rfl, rfl⟩

theorem step_right_iff (api : ParserApi Progress) (c : CountedParser Progress)
    (input : SourceEvent × ParseOption) (right : c.Right) :
    (c.step api input).Right ↔ HitsRight c.mp.pipelines input.1 := by
  obtain ⟨rules, key⟩ := parseEvent_loop api input.1 input.2 c.mp
  unfold CountedParser.Right CountedParser.step HitsRight
  dsimp only
  rw [rules, key]
  by_cases rejects : FirstRejects c.mp.pipelines input.1
  · obtain ⟨same, nothing⟩ := parseLoop_counts_nothing api input.1 input.2 0 c.mp.pipelines
      ⟨none, api.noProgress, none⟩ ⟨rfl, rfl⟩ rejects
    rw [same, nothing, Option.toList_none, List.append_nil]
    exact iff_of_true right (.inl rejects)
  · obtain ⟨counted, delivered⟩ := parseLoop_counts api input.1 input.2 0 c.mp.pipelines
      ⟨none, api.noProgress, none⟩ (.inr ⟨⟨rfl, rfl⟩, rejects⟩)
    have own : ∀ p, c.mp.pipelines.find? (WplPipeline.delivers input.1) = some p →
        deliveredKey input.1 c.mp.pipelines = some p.wplKey := by
      intro p found
      rw [deliveredKey, found, Option.map_some]
    rw [counted, delivered, countHits_iff input.1 _ _ _ right]
    simp only [rejects, false_or]
    exact ⟨fun all => ⟨all.1, all.2.1⟩, fun both => ⟨both.1, both.2, own⟩⟩

/-- From cleared counts on, all along every sequence of events, each count is the number of events
    delivered under the key of its rule, exactly if every event finds the rules as `HitsRight`
    says. -/
theorem hit_counts_are_deliveries_iff (api : ParserApi Progress) (mp : MultiParser Progress)
    (cleared : ∀ p ∈ mp.pipelines, p.hitCnt = 0) (inputs : List (SourceEvent × ParseOption)) :
    (∀ seen, seen <+: inputs → (Runs.run (CountedParser.step api) ⟨mp, []⟩ seen).Right) ↔
      Runs.AllSteps (CountedParser.step api) (fun c input => HitsRight c.mp.pipelines input.1)
        ⟨mp, []⟩ inputs := by
  apply Runs.prefixes_iff_allSteps CountedParser.Right
  · intro c input right
    exact step_right_iff api c input right
  · intro p member
    exact cleared p member

section Examples

/-- A rule that returns an empty record and leaves this text. -/
def answeringRule (wplKey : String) (index : Nat) (left : String) : WplPipeline Nat :=
  { parser := fun _ _ => (.ok (⟨0, []⟩, left), 3), funVec := [], hitCnt := 0, index, wplKey
    autoMatch := true, late := false }

theorem hit_counts_of_one_delivery :
    (∀ seen, seen <+: [(abcEvent, (⟨false, false, none⟩ : ParseOption))] →
      (Runs.run (CountedParser.step byteProgressApi) ⟨⟨[answeringRule "chars" 0 ""]⟩, []⟩
        seen).Right) ↔
      Runs.AllSteps (CountedParser.step byteProgressApi)
        (fun c input => HitsRight c.mp.pipelines input.1) ⟨⟨[answeringRule "chars" 0 ""]⟩, []⟩
        [(abcEvent, ⟨false, false, none⟩)] :=
  hit_counts_are_deliveries_iff byteProgressApi ⟨[answeringRule "chars" 0 ""]⟩ (by decide)
    [(abcEvent, ⟨false, false, none⟩)]

/-- The first rule leaves two of three bytes and is given up, but its hit is counted. -/
theorem discarded_parse_is_counted :
    let c := CountedParser.step byteProgressApi
      ⟨⟨[answeringRule "greedy" 0 "bc", answeringRule "chars" 1 ""]⟩, []⟩
      (abcEvent, ⟨false, false, none⟩)
    c.delivered = ["chars"] ∧ c.mp.pipelines.map WplPipeline.hitCnt = [1, 1] := by
  decide

end Examples
end WarpMotor
