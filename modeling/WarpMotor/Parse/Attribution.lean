import WarpMotor.Lib.FirstMax
import WarpMotor.Parse.MultiParser

/-!
Which rule a miss is attributed to. The loop keeps the deepest attempt among
the rules that fail with a `DataError` or leave too much of the payload. A rule
that rejects the event outright is never such a candidate, and as the first
attempt it ends the loop.
-/
namespace WarpMotor
open FirstMax
variable {Progress : Type}

/-- How far the rule gets in the event. -/
def WplPipeline.progress (p : WplPipeline Progress) (event : SourceEvent) : Progress :=
  (p.proc event).2

/-- The rules that take part in matching, with their positions, in matching order. -/
def attempts (rules : List (WplPipeline Progress)) (idx : Nat) :
    List (WplPipeline Progress × Nat) :=
  (rules.zipIdx idx).filter (fun attempt => attempt.1.autoMatch)

def Deeper (api : ParserApi Progress) (event : SourceEvent)
    (a b : WplPipeline Progress × Nat) : Prop :=
  api.isDeeperThan (a.1.progress event) (b.1.progress event) = true

instance (api : ParserApi Progress) (event : SourceEvent) : DecidableRel (Deeper api event) :=
  fun _ _ => inferInstanceAs (Decidable (_ = true))

theorem deeper_order {api : ParserApi Progress}
    (order : IsStrictWeakOrder Progress (fun a b => api.isDeeperThan a b = true))
    (event : SourceEvent) : IsStrictWeakOrder _ (Deeper api event) where
  irrefl a := order.irrefl (a.1.progress event)
  trans a b c := order.trans (a.1.progress event) (b.1.progress event) (c.1.progress event)
  incomp_trans a b c :=
    order.incomp_trans (a.1.progress event) (b.1.progress event) (c.1.progress event)

theorem attempts_skip {p : WplPipeline Progress} (rest : List (WplPipeline Progress)) (idx : Nat)
    (skipped : ¬ p.autoMatch = true) : attempts (p :: rest) idx = attempts rest (idx + 1) := by
  simp only [attempts, List.zipIdx_cons, List.filter_cons, if_neg skipped]

theorem attempts_cons {p : WplPipeline Progress} (rest : List (WplPipeline Progress)) (idx : Nat)
    (tried : p.autoMatch = true) :
    attempts (p :: rest) idx = (p, idx) :: attempts rest (idx + 1) := by
  simp only [attempts, List.zipIdx_cons, List.filter_cons, if_pos tried]

theorem mem_attempts {rules : List (WplPipeline Progress)} {idx : Nat}
    {attempt : WplPipeline Progress × Nat} (member : attempt ∈ attempts rules idx) :
    attempt.1 ∈ rules ∧ attempt.1.autoMatch = true := by
  obtain ⟨listed, tried⟩ := List.mem_filter.mp member
  exact ⟨List.fst_mem_of_mem_zipIdx listed, tried⟩

/-- The attempts that may become the attribution of a miss. -/
def candidates (event : SourceEvent) (rules : List (WplPipeline Progress)) (idx : Nat) :
    List (WplPipeline Progress × Nat) :=
  (attempts rules idx).filter (fun attempt => !attempt.1.rejectsOutright event)

/-- The rule returns a record, whatever it leaves of the payload. -/
def WplPipeline.answers (p : WplPipeline Progress) (event : SourceEvent) : Bool :=
  match (p.proc event).1 with
  | .ok _ => true
  | .error _ => false

def WplPipeline.bump (p : WplPipeline Progress) : WplPipeline Progress :=
  { p with hitCnt := p.hitCnt + 1 }

/-- The attribution after an attempt that fails with `e`. -/
def Attribution.challenge (api : ParserApi Progress) (event : SourceEvent)
    (attempt : WplPipeline Progress × Nat) (e : WparseError) (best : Attribution Progress) :
    Attribution Progress :=
  if (best.idx.isNone || api.isDeeperThan (attempt.1.progress event) best.progress) = true then
    ⟨some attempt.2, attempt.1.progress event, some e⟩ else best

/-- The attribution is this attempt's, and its error is on record. -/
structure Attribution.Names (best : Attribution Progress) (event : SourceEvent)
    (attempt : WplPipeline Progress × Nat) : Prop where
  idx : best.idx = some attempt.2
  progress : best.progress = attempt.1.progress event
  error : best.error ≠ none

section Loop
variable (api : ParserApi Progress) (event : SourceEvent) (setting : ParseOption) (idx : Nat)
  {p : WplPipeline Progress} (rest : List (WplPipeline Progress)) (best : Attribution Progress)

/-- The rule is handed back with its hit counted if it has answered; a candidate replaces the
    attribution if it is the first attempt or strictly deeper. -/
theorem parseLoop_candidate (tried : p.autoMatch = true) (fails : ¬ p.parses event = true)
    (tolerated : ¬ p.rejectsOutright event = true) :
    ∃ e, parseLoop api event setting idx (p :: rest) best =
      ((if p.answers event = true then p.bump else p) ::
          (parseLoop api event setting (idx + 1) rest (best.challenge api event (p, idx) e)).1,
        (parseLoop api event setting (idx + 1) rest (best.challenge api event (p, idx) e)).2) := by
  rw [parseLoop, if_pos tried]
  unfold WplPipeline.parses at fails
  unfold WplPipeline.rejectsOutright at tolerated
  unfold WplPipeline.answers Attribution.challenge WplPipeline.progress
  cases outcome : p.proc event with
  | mk parsed progress =>
    rw [outcome] at fails tolerated
    cases parsed with
    | ok value =>
      obtain ⟨record, left, sides⟩ := value
      have large : ¬ (RawData.string left).len * 5 ≤ event.payload.len := by simpa using fails
      have some_left : ¬ (RawData.string left).isEmpty = true := by
        intro empty
        have zero : (RawData.string left).len = 0 := by simpa [RawData.isEmpty] using empty
        omega
      dsimp only
      rw [if_neg some_left, if_pos (by omega)]
      exact ⟨dataError, rfl⟩
    | error e =>
      have data : e.reason = .uvs .dataError := by simpa using tolerated
      dsimp only
      rw [if_pos data]
      exact ⟨e, rfl⟩

/-- With an error on record an outright rejection changes nothing. -/
theorem parseLoop_passes_over (tried : p.autoMatch = true)
    (rejects : p.rejectsOutright event = true) (settled : best.error ≠ none) :
    parseLoop api event setting idx (p :: rest) best =
      (p :: (parseLoop api event setting (idx + 1) rest best).1,
        (parseLoop api event setting (idx + 1) rest best).2) := by
  rw [parseLoop, if_pos tried]
  unfold WplPipeline.rejectsOutright at rejects
  cases outcome : p.proc event with
  | mk parsed progress =>
    rw [outcome] at rejects
    cases parsed with
    | ok value => cases rejects
    | error e =>
      dsimp only
      rw [if_neg (of_decide_eq_true rejects), if_neg (by simpa using settled)]

/-- As the first attempt it is the attribution and ends the loop. -/
theorem parseLoop_first_rejection (tried : p.autoMatch = true)
    (rejects : p.rejectsOutright event = true) (fresh : best.Fresh) :
    ∃ e, parseLoop api event setting idx (p :: rest) best =
      (p :: rest, .missed ⟨some idx, p.progress event, some e⟩) := by
  rw [parseLoop, if_pos tried]
  unfold WplPipeline.rejectsOutright at rejects
  unfold WplPipeline.progress
  cases outcome : p.proc event with
  | mk parsed progress =>
    rw [outcome] at rejects
    cases parsed with
    | ok value => cases rejects
    | error e =>
      dsimp only
      rw [if_neg (of_decide_eq_true rejects), if_pos (by simp [fresh.2])]
      exact ⟨e, rfl⟩

end Loop

section Missed
variable (api : ParserApi Progress) (event : SourceEvent) (setting : ParseOption)

/-- The loop scans the candidates that are left, starting from the attempt it holds. -/
theorem parseLoop_scans (idx : Nat) (rules : List (WplPipeline Progress))
    (best last : Attribution Progress) {held : WplPipeline Progress × Nat}
    (names : best.Names event held)
    (missed : (parseLoop api event setting idx rules best).2 = .missed last) :
    ∃ found, last.Names event found ∧
      (candidates event rules idx).foldl (keepBest (Deeper api event)) (some held) =
        some found := by
  induction rules generalizing idx best held with
  | nil =>
    cases missed
    exact ⟨held, names, rfl⟩
  | cons p rest ih =>
    by_cases tried : p.autoMatch = true
    · rw [candidates, attempts_cons rest idx tried]
      by_cases rejects : p.rejectsOutright event = true
      · rw [parseLoop_passes_over api event setting idx rest best tried rejects names.error]
          at missed
        rw [List.filter_cons_of_neg (by simp [rejects])]
        exact ih (idx + 1) best names missed
      · have fails : ¬ p.parses event = true := by
          intro parses
          obtain ⟨result, returned, -⟩ :=
            parseLoop_parses api event setting idx rest best tried parses
          rw [returned] at missed
          cases missed
        obtain ⟨e, continued⟩ :=
          parseLoop_candidate api event setting idx rest best tried fails rejects
        rw [continued, Attribution.challenge, names.idx, names.progress] at missed
        rw [List.filter_cons_of_pos (by simp [rejects]), List.foldl_cons]
        by_cases deeper : Deeper api event (p, idx) held
        · have wins : (Option.isNone (some held.2) ||
              api.isDeeperThan (p.progress event) (held.1.progress event)) = true := by
            rw [Option.isNone_some, Bool.false_or]
            exact deeper
          rw [if_pos wins] at missed
          rw [keepBest, if_pos deeper]
          exact ih (idx + 1) _ ⟨rfl, rfl, by simp⟩ missed
        · have loses : ¬ (Option.isNone (some held.2) ||
              api.isDeeperThan (p.progress event) (held.1.progress event)) = true := by
            rw [Option.isNone_some, Bool.false_or]
            exact deeper
          rw [if_neg loses] at missed
          rw [keepBest, if_neg deeper]
          exact ih (idx + 1) best names missed
    · rw [parseLoop_skip api event setting idx rest best tried] at missed
      rw [candidates, attempts_skip rest idx tried]
      exact ih (idx + 1) best names missed

/-- What the loop is left with when no rule has parsed the event. -/
theorem parseLoop_missed (idx : Nat) (rules : List (WplPipeline Progress))
    (best last : Attribution Progress) (fresh : best.Fresh)
    (missed : (parseLoop api event setting idx rules best).2 = .missed last) :
    (attempts rules idx = [] ∧ last.idx = none) ∨
      ∃ found, last.Names event found ∧
        ((FirstRejects rules event ∧ (attempts rules idx).head? = some found) ∨
          ¬ FirstRejects rules event ∧
            (candidates event rules idx).foldl (keepBest (Deeper api event)) none =
              some found) := by
  induction rules generalizing idx with
  | nil =>
    cases missed
    exact .inl ⟨rfl, fresh.1⟩
  | cons p rest ih =>
    by_cases tried : p.autoMatch = true
    · have first : FirstRejects (p :: rest) event ↔ p.rejectsOutright event = true := by
        simp [FirstRejects, tried]
      right
      rw [first, candidates, attempts_cons rest idx tried]
      by_cases rejects : p.rejectsOutright event = true
      · obtain ⟨e, ended⟩ :=
          parseLoop_first_rejection api event setting idx rest best tried rejects fresh
        rw [ended] at missed
        cases missed
        exact ⟨(p, idx), ⟨rfl, rfl, by simp⟩, .inl ⟨rejects, rfl⟩⟩
      · have fails : ¬ p.parses event = true := by
          intro parses
          obtain ⟨result, returned, -⟩ :=
            parseLoop_parses api event setting idx rest best tried parses
          rw [returned] at missed
          cases missed
        obtain ⟨e, continued⟩ :=
          parseLoop_candidate api event setting idx rest best tried fails rejects
        have first_one : best.challenge api event (p, idx) e =
            ⟨some idx, p.progress event, some e⟩ := by
          rw [Attribution.challenge, if_pos (by simp [fresh.1])]
        rw [continued, first_one] at missed
        have holds : Attribution.Names ⟨some idx, p.progress event, some e⟩ event (p, idx) :=
          ⟨rfl, rfl, by simp⟩
        obtain ⟨found, names, scanned⟩ :=
          parseLoop_scans api event setting (idx + 1) rest _ last holds missed
        refine ⟨found, names, .inr ⟨rejects, ?_⟩⟩
        rw [List.filter_cons_of_pos (by simp [rejects]), List.foldl_cons]
        exact scanned
    · have first : FirstRejects (p :: rest) event ↔ FirstRejects rest event := by
        simp [FirstRejects, tried]
      rw [parseLoop_skip api event setting idx rest best tried] at missed
      rw [first, candidates, attempts_skip rest idx tried]
      exact ih (idx + 1) missed

end Missed

/-- The attribution that an event is reported as a miss with. -/
def MultiParser.attribution (api : ParserApi Progress) (event : SourceEvent)
    (setting : ParseOption) (mp : MultiParser Progress) : Option (Attribution Progress) :=
  match (parseLoop api event setting 0 mp.pipelines ⟨none, api.noProgress, none⟩).2 with
  | .returned _ => none
  | .missed best => some best

theorem miss_attribution (api : ParserApi Progress) (event : SourceEvent) (setting : ParseOption)
    (mp : MultiParser Progress) {info : ParseFailInfo}
    (missed : (mp.parseEvent api event setting).1 = .miss info) :
    ∃ best, mp.attribution api event setting = some best ∧
      info = MultiParser.missInfo api (mp.parseEvent api event setting).2.pipelines best := by
  unfold MultiParser.parseEvent at missed ⊢
  unfold MultiParser.attribution
  split at missed
  · rename_i pipelines result outcome
    have returned : (parseLoop api event setting 0 mp.pipelines
        ⟨none, api.noProgress, none⟩).2 = .returned result := by
      rw [outcome]
    have parsed := parseLoop_returned_parsed api event setting 0 mp.pipelines
      ⟨none, api.noProgress, none⟩ returned
    have same : result = .miss info := missed
    rw [same] at parsed
    cases parsed
  · rename_i pipelines best outcome
    rw [outcome]
    cases missed
    exact ⟨best, rfl, rfl⟩

/-- No attribution if there is no rule to match; else it is that of the attempt that no other
    exceeds and that exceeds all before it. -/
structure RightlyAttributed (api : ParserApi Progress) (event : SourceEvent)
    (rules : List (WplPipeline Progress)) (best : Attribution Progress) : Prop where
  empty : best.idx = none → ∀ rule ∈ rules, ¬ rule.autoMatch = true
  named : best.idx ≠ none → ∃ attempt, Leads (Deeper api event) (attempts rules 0) attempt ∧
    best.idx = some attempt.2 ∧ best.progress = attempt.1.progress event

/-- The deepest attempt is the first one, or neither of the two rejects the event outright. -/
def MissIsRight (api : ParserApi Progress) (event : SourceEvent)
    (rules : List (WplPipeline Progress)) : Prop :=
  ∀ leader, Leads (Deeper api event) (attempts rules 0) leader →
    (attempts rules 0).head? = some leader ∨
      ¬ FirstRejects rules event ∧ ¬ leader.1.rejectsOutright event = true

theorem attempts_eq_nil_iff (rules : List (WplPipeline Progress)) :
    attempts rules 0 = [] ↔ ∀ rule ∈ rules, ¬ rule.autoMatch = true := by
  constructor
  · intro empty rule member tried
    obtain ⟨index, here⟩ := List.mem_iff_getElem?.mp member
    have listed : (rule, index) ∈ attempts rules 0 :=
      List.mem_filter.mpr ⟨List.mem_zipIdx_iff_getElem?.mpr here, tried⟩
    rw [empty] at listed
    cases listed
  · intro none_tried
    apply List.filter_eq_nil_iff.mpr
    intro attempt member
    exact none_tried attempt.1 (List.fst_mem_of_mem_zipIdx member)

theorem head_not_rejecting {event : SourceEvent} {rules : List (WplPipeline Progress)} {idx : Nat}
    {head : WplPipeline Progress × Nat} (first : (attempts rules idx).head? = some head)
    (tolerated : ¬ FirstRejects rules event) : ¬ head.1.rejectsOutright event = true := by
  induction rules generalizing idx with
  | nil => cases first
  | cons p rest ih =>
    by_cases tried : p.autoMatch = true
    · rw [attempts_cons rest idx tried] at first
      cases first
      intro rejects
      exact tolerated ⟨p, by simp [tried], rejects⟩
    · rw [attempts_skip rest idx tried] at first
      apply ih first
      intro rejects
      apply tolerated
      obtain ⟨found, here, refuses⟩ := rejects
      exact ⟨found, by simp [tried, here], refuses⟩

/-- An attribution that names an attempt is right exactly if this is the leader. -/
theorem rightlyAttributed_iff {api : ParserApi Progress} {event : SourceEvent}
    {rules : List (WplPipeline Progress)} {best : Attribution Progress}
    {found : WplPipeline Progress × Nat} (names : best.Names event found)
    (member : found ∈ attempts rules 0) :
    RightlyAttributed api event rules best ↔ Leads (Deeper api event) (attempts rules 0) found := by
  constructor
  · intro right
    obtain ⟨attempt, leads, idx, -⟩ := right.named (by simp [names.idx])
    have listed := (List.mem_filter.mp leads.mem).1
    have listed' := (List.mem_filter.mp member).1
    have same : attempt.2 = found.2 := by
      rw [names.idx] at idx
      exact (Option.some.inj idx).symm
    rw [List.mem_zipIdx_iff_getElem?] at listed listed'
    rw [same, listed'] at listed
    have equal : attempt = found := Prod.ext (Option.some.inj listed).symm same
    rw [← equal]
    exact leads
  · intro leads
    refine ⟨?_, fun _ => ⟨found, leads, names.idx, names.progress⟩⟩
    intro nothing
    rw [names.idx] at nothing
    cases nothing

/-- An event is reported as a miss under the deepest rule that was to be tried, the first of them in
    matching order, exactly if that rule is the first of all or neither of these two rejects the
    event outright. -/
theorem miss_names_the_deepest_rule_iff (api : ParserApi Progress)
    (order : IsStrictWeakOrder Progress (fun a b => api.isDeeperThan a b = true))
    (mp : MultiParser Progress) (event : SourceEvent) (setting : ParseOption)
    {info : ParseFailInfo} (missed : (mp.parseEvent api event setting).1 = .miss info) :
    ∃ best, mp.attribution api event setting = some best ∧
      info = MultiParser.missInfo api (mp.parseEvent api event setting).2.pipelines best ∧
      (RightlyAttributed api event mp.pipelines best ↔ MissIsRight api event mp.pipelines) := by
  obtain ⟨best, attributed, reported⟩ := miss_attribution api event setting mp missed
  refine ⟨best, attributed, reported, ?_⟩
  have weak := deeper_order order event
  have ended : (parseLoop api event setting 0 mp.pipelines ⟨none, api.noProgress, none⟩).2 =
      .missed best := by
    unfold MultiParser.attribution at attributed
    split at attributed
    · cases attributed
    · rename_i outcome
      cases attributed
      exact outcome
  rcases parseLoop_missed api event setting 0 mp.pipelines _ best ⟨rfl, rfl⟩ ended with
    ⟨none_tried, unnamed⟩ | ⟨found, names, outcome⟩
  · -- without a rule to match the report is empty
    have vacuous : MissIsRight api event mp.pipelines := by
      intro leader leads
      have member := leads.mem
      rw [none_tried] at member
      cases member
    refine ⟨fun _ => vacuous, fun _ => ⟨fun _ => (attempts_eq_nil_iff _).mp none_tried, ?_⟩⟩
    intro named
    exact absurd unnamed named
  · rcases outcome with ⟨rejects, first⟩ | ⟨tolerated, scanned⟩
    · -- the loop has stopped at the first attempt
      have member := List.mem_of_head? first
      rw [rightlyAttributed_iff names member]
      constructor
      · intro leads leader leads'
        rw [leads'.unique leads]
        exact .inl first
      · intro right
        obtain ⟨leader, leads⟩ := exists_leader (Deeper api event)
          (List.ne_nil_of_mem member)
        rcases right leader leads with here | ⟨impossible, -⟩
        · rw [first] at here
          cases here
          exact leads
        · exact absurd rejects impossible
    · have scan := leads_of_foldl scanned
      obtain ⟨member, accepted⟩ := List.mem_filter.mp scan.mem
      rw [rightlyAttributed_iff names member]
      constructor
      · intro leads leader leads'
        rw [leads'.unique leads]
        exact .inr ⟨tolerated, by simpa using accepted⟩
      · intro right
        obtain ⟨leader, leads⟩ := exists_leader (Deeper api event)
          (List.ne_nil_of_mem member)
        have candidate : ¬ leader.1.rejectsOutright event = true := by
          rcases right leader leads with first | ⟨-, calm⟩
          · exact head_not_rejecting first tolerated
          · exact calm
        have filtered := leads.filter (fun attempt => !attempt.1.rejectsOutright event)
          (by simp [candidate])
        rw [scan.unique filtered]
        exact leads

section Examples

/-- Progress as a count of bytes. -/
def byteProgressApi : ParserApi Nat := ⟨0, fun a b => decide (b < a), id, fun _ => ""⟩

theorem byteProgress_order :
    IsStrictWeakOrder Nat (fun a b => byteProgressApi.isDeeperThan a b = true) where
  irrefl a := by simp [byteProgressApi]
  trans a b c := by
    simp only [byteProgressApi, decide_eq_true_eq]
    omega
  incomp_trans a b c := by
    simp only [byteProgressApi, decide_eq_true_eq]
    omega

/-- A rule that fails with this reason after so many bytes. -/
def failingRule (wplKey : String) (index : Nat) (reason : WparseReason) (depth : Nat) :
    WplPipeline Nat :=
  { parser := fun _ _ => (.error ⟨reason, none⟩, depth), funVec := [], hitCnt := 0, index, wplKey
    autoMatch := true, late := false }

def abcEvent : SourceEvent :=
  { eventId := 1, srcKey := "file", payload := .bytes [97, 98, 99], tags := [], upsIp := none }

theorem miss_names_the_deeper_of_two :
    let mp : MultiParser Nat := ⟨[failingRule "shallow" 0 (.uvs .dataError) 1,
      failingRule "deep" 1 (.uvs .dataError) 2]⟩
    ∃ best, mp.attribution byteProgressApi abcEvent ⟨false, false, none⟩ = some best ∧
      ⟨"deep", ⟨.uvs .dataError, none⟩, 2⟩ = MultiParser.missInfo byteProgressApi
        (mp.parseEvent byteProgressApi abcEvent ⟨false, false, none⟩).2.pipelines best ∧
      (RightlyAttributed byteProgressApi abcEvent mp.pipelines best ↔
        MissIsRight byteProgressApi abcEvent mp.pipelines) :=
  miss_names_the_deepest_rule_iff byteProgressApi byteProgress_order _ abcEvent _ (by decide)

/-- The first rule gives the event up at once with `NotMatch`: the rule that gets through two bytes
    is not even tried. -/
theorem rejection_hides_the_deepest_rule :
    let mp : MultiParser Nat := ⟨[failingRule "strict" 0 .notMatch 0,
      failingRule "deep" 1 (.uvs .dataError) 2]⟩
    (mp.parseEvent byteProgressApi abcEvent ⟨false, false, none⟩).1 =
        .miss ⟨"strict", ⟨.notMatch, none⟩, 0⟩ ∧
      Deeper byteProgressApi abcEvent (failingRule "deep" 1 (.uvs .dataError) 2, 1)
        (failingRule "strict" 0 .notMatch 0, 0) := by
  decide

end Examples
end WarpMotor
