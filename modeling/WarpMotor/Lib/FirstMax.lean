import Mathlib.Data.List.MinMax
import Mathlib.Order.Defs.Unbundled

/-!
The first element of a list that is maximal under a measure. `challenge` is one
step of the scan that keeps it; a challenger wins only when it measures more.
The second half is the same scan for a strict weak order without a measure.
-/
namespace FirstMax
variable {α β ι : Type*} [LinearOrder β] {f : α → β}

def challenge (f : α → β) (held : Option α) (challenger : α) : Option α :=
  match held with
  | none => some challenger
  | some champion => if f champion < f challenger then some challenger else some champion

/-- A challenger that comes twice changes nothing the second time. -/
theorem challenge_twice (f : α → β) (held : Option α) (challenger : α) :
    challenge f (challenge f held challenger) challenger = challenge f held challenger := by
  cases held with
  | none => simp [challenge]
  | some champion => by_cases beaten : f champion < f challenger <;> simp [challenge, beaten]

theorem foldl_challenge (f : α → β) (l : List α) : l.foldl (challenge f) none = l.argmax f := by
  have same : challenge f = List.argAux (fun b c => f c < f b) := by
    funext held challenger
    cases held <;> rfl
  rw [same]
  rfl

/-- Everything before it measures less, and nothing behind it more. -/
def IsFirstMax (f : α → β) (l : List α) (m : α) : Prop :=
  ∃ before after, l = before ++ m :: after ∧ (∀ a ∈ before, f a < f m) ∧ ∀ a ∈ after, f a ≤ f m

theorem IsFirstMax.mem {l : List α} {m : α} (first : IsFirstMax f l m) : m ∈ l := by
  obtain ⟨before, after, split, -, -⟩ := first
  rw [split]
  exact List.mem_append_right before (List.mem_cons_self ..)

theorem IsFirstMax.le {l : List α} {m : α} (first : IsFirstMax f l m) : ∀ a ∈ l, f a ≤ f m := by
  obtain ⟨before, after, split, less, most⟩ := first
  intro a member
  rw [split, List.mem_append, List.mem_cons] at member
  rcases member with early | same | late
  · exact (less a early).le
  · rw [same]
  · exact most a late

theorem isFirstMax_concat (l : List α) (a m : α) :
    IsFirstMax f (l ++ [a]) m ↔
      (IsFirstMax f l m ∧ f a ≤ f m) ∨ m = a ∧ ∀ x ∈ l, f x < f a := by
  constructor
  · intro first
    obtain ⟨before, after, split, less, most⟩ := first
    rcases List.eq_nil_or_concat after with none | ⟨front, last, some⟩
    · subst none
      obtain ⟨same, end_⟩ := List.append_inj' split rfl
      cases end_
      rw [← same] at less
      exact Or.inr ⟨rfl, less⟩
    · subst some
      rw [List.concat_eq_append] at split most
      rw [← List.cons_append, ← List.append_assoc] at split
      obtain ⟨same, end_⟩ := List.append_inj' split rfl
      cases end_
      refine Or.inl ⟨⟨before, front, same, less, ?_⟩, ?_⟩
      · intro x member
        exact most x (List.mem_append_left _ member)
      · exact most a (List.mem_append_right _ (List.mem_singleton.mpr rfl))
  · intro either
    rcases either with ⟨⟨before, after, split, less, most⟩, weaker⟩ | ⟨same, less⟩
    · refine ⟨before, after ++ [a], by rw [split]; simp, less, ?_⟩
      intro x member
      rcases List.mem_append.mp member with early | last
      · exact most x early
      · rw [List.mem_singleton.mp last]
        exact weaker
    · subst same
      refine ⟨l, [], rfl, less, ?_⟩
      intro x member
      cases member

/-- The scan finds the first maximal element. -/
theorem argmax_eq_some_iff (l : List α) (m : α) : l.argmax f = some m ↔ IsFirstMax f l m := by
  induction l using List.reverseRecOn generalizing m with
  | nil =>
    constructor
    · intro impossible
      cases impossible
    · intro first
      cases first.mem
  | append_singleton l a ih =>
    rw [List.argmax_concat, isFirstMax_concat]
    cases found : l.argmax f with
    | none =>
      have empty := List.argmax_eq_none.mp found
      subst empty
      constructor
      · intro same
        cases same
        exact Or.inr ⟨rfl, fun x member => by cases member⟩
      · intro either
        rcases either with ⟨first, _⟩ | ⟨same, _⟩
        · cases first.mem
        · rw [same]
    | some c =>
      have champion := (ih c).mp found
      dsimp only
      split
      · rename_i beaten
        constructor
        · intro same
          cases same
          exact Or.inr ⟨rfl, fun x member => (champion.le x member).trans_lt beaten⟩
        · intro either
          rcases either with ⟨first, weaker⟩ | ⟨same, _⟩
          · have itself := (ih m).mpr first
            rw [found] at itself
            cases itself
            exact absurd beaten (not_lt.mpr weaker)
          · rw [same]
      · rename_i unbeaten
        constructor
        · intro same
          cases same
          exact Or.inl ⟨champion, not_lt.mp unbeaten⟩
        · intro either
          rcases either with ⟨first, _⟩ | ⟨_, less⟩
          · rw [← (ih m).mpr first, found]
          · exact absurd (less c champion.mem) unbeaten

/-- Over lists in a row: the first list with a maximal element holds it. -/
theorem isFirstMax_flatMap (items : List ι) (g : ι → List α) (m : α) :
    IsFirstMax f (items.flatMap g) m ↔
      ∃ before item after, items = before ++ item :: after ∧ IsFirstMax f (g item) m ∧
        (∀ i ∈ before, ∀ a ∈ g i, f a < f m) ∧ ∀ i ∈ after, ∀ a ∈ g i, f a ≤ f m := by
  constructor
  · intro first
    induction items with
    | nil => cases first.mem
    | cons item rest ih =>
      obtain ⟨before, after, split, less, most⟩ := first
      rw [List.flatMap_cons, List.append_eq_append_iff] at split
      rcases split with ⟨gap, front, back⟩ | ⟨gap, front, back⟩
      · -- the element lies behind the first list
        have later : IsFirstMax f (rest.flatMap g) m := by
          refine ⟨gap, after, back, ?_, most⟩
          intro a member
          exact less a (by rw [front]; exact List.mem_append_right _ member)
        obtain ⟨some, found, others, same, inside, early, late⟩ := ih later
        refine ⟨item :: some, found, others, by rw [same, List.cons_append], inside, ?_, late⟩
        intro i member a inI
        rcases List.mem_cons.mp member with here | there
        · subst here
          exact less a (by rw [front]; exact List.mem_append_left _ inI)
        · exact early i there a inI
      · cases gap with
        | nil =>
          -- the first list ends just before the element
          rw [List.append_nil] at front
          have later : IsFirstMax f (rest.flatMap g) m := by
            refine ⟨[], after, back.symm, ?_, most⟩
            intro a member
            cases member
          obtain ⟨some, found, others, same, inside, early, late⟩ := ih later
          refine ⟨item :: some, found, others, by rw [same, List.cons_append], inside, ?_, late⟩
          intro i member a inI
          rcases List.mem_cons.mp member with here | there
          · subst here
            exact less a (by rw [← front]; exact inI)
          · exact early i there a inI
        | cons head gap =>
          rw [List.cons_append] at back
          obtain ⟨same, behind⟩ := List.cons.inj back
          subst same
          refine ⟨[], item, rest, rfl, ⟨before, gap, front, less, ?_⟩, ?_, ?_⟩
          · intro a member
            exact most a (by rw [behind]; exact List.mem_append_left _ member)
          · intro i member
            cases member
          · intro i member a inI
            apply most a
            rw [behind]
            exact List.mem_append_right _ (List.mem_flatMap.mpr ⟨i, member, inI⟩)
  · intro found
    obtain ⟨before, item, after, split, ⟨front, back, same, less, most⟩, early, late⟩ := found
    refine ⟨before.flatMap g ++ front, back ++ after.flatMap g, ?_, ?_, ?_⟩
    · rw [split, List.flatMap_append, List.flatMap_cons, same]
      simp
    · intro a member
      rcases List.mem_append.mp member with inBefore | inFront
      · obtain ⟨i, there, inI⟩ := List.mem_flatMap.mp inBefore
        exact early i there a inI
      · exact less a inFront
    · intro a member
      rcases List.mem_append.mp member with inBack | inAfter
      · exact most a inBack
      · obtain ⟨i, there, inI⟩ := List.mem_flatMap.mp inAfter
        exact late i there a inI

section Order
variable {beats : α → α → Prop}

/-- One step of the scan: a challenger wins only when it beats the element held. -/
def keepBest (beats : α → α → Prop) [DecidableRel beats] (held : Option α) (challenger : α) :
    Option α :=
  match held with
  | none => some challenger
  | some champion => if beats challenger champion then some challenger else some champion

/-- It beats everything before it, and nothing behind it beats it. -/
def Leads (beats : α → α → Prop) (l : List α) (m : α) : Prop :=
  ∃ before after, l = before ++ m :: after ∧ (∀ a ∈ before, beats m a) ∧
    ∀ a ∈ after, ¬ beats a m

theorem Leads.mem {l : List α} {m : α} (leads : Leads beats l m) : m ∈ l := by
  obtain ⟨before, after, split, -⟩ := leads
  rw [split]
  exact List.mem_append_right before (List.mem_cons_self ..)

/-- Of two positions the earlier would have to be beaten and unbeaten by the later. -/
theorem Leads.unique {l : List α} {m n : α} (first : Leads beats l m) (second : Leads beats l n) :
    m = n := by
  obtain ⟨before, after, split, wins, holds⟩ := first
  obtain ⟨before', after', split', wins', holds'⟩ := second
  rw [split, List.append_eq_append_iff] at split'
  rcases split' with ⟨gap, front, back⟩ | ⟨gap, front, back⟩
  · cases gap with
    | nil => exact (List.cons.inj back).1
    | cons head gap =>
      obtain ⟨same, behind⟩ := List.cons.inj back
      subst same
      have later : n ∈ after := by simp [behind]
      exact absurd (wins' m (by simp [front])) (holds n later)
  · cases gap with
    | nil => exact (List.cons.inj back).1.symm
    | cons head gap =>
      obtain ⟨same, behind⟩ := List.cons.inj back
      subst same
      have later : m ∈ after' := by simp [behind]
      exact absurd (wins n (by simp [front])) (holds' m later)

theorem Leads.filter {l : List α} {m : α} (leads : Leads beats l m) (keeps : α → Bool)
    (kept : keeps m = true) : Leads beats (l.filter keeps) m := by
  obtain ⟨before, after, split, wins, holds⟩ := leads
  refine ⟨before.filter keeps, after.filter keeps, ?_, ?_, ?_⟩
  · rw [split, List.filter_append, List.filter_cons_of_pos kept]
  · intro a member
    exact wins a (List.mem_filter.mp member).1
  · intro a member
    exact holds a (List.mem_filter.mp member).1

/-- To be unbeaten is transitive. -/
theorem not_beats_trans [IsStrictWeakOrder α beats] {a b c : α} (first : ¬ beats a b)
    (second : ¬ beats b c) : ¬ beats a c := by
  intro direct
  have backward : ¬ beats b a := fun other => second (trans_of beats other direct)
  have backward' : ¬ beats c b := fun other => first (trans_of beats direct other)
  exact (IsStrictWeakOrder.incomp_trans a b c ⟨first, backward⟩ ⟨second, backward'⟩).1 direct

variable [DecidableRel beats]

theorem foldl_keepBest_isSome (l : List α) (held : α) :
    ∃ m, l.foldl (keepBest beats) (some held) = some m := by
  induction l generalizing held with
  | nil => exact ⟨held, rfl⟩
  | cons a rest ih =>
    rw [List.foldl_cons, keepBest]
    split <;> exact ih _

variable (beats) in
theorem exists_foldl_keepBest {l : List α} (some_element : l ≠ []) :
    ∃ m, l.foldl (keepBest beats) none = some m := by
  cases l with
  | nil => exact absurd rfl some_element
  | cons a rest => exact foldl_keepBest_isSome rest a

/-- The scan finds the leader. -/
theorem leads_of_foldl [IsStrictWeakOrder α beats] {l : List α} {m : α}
    (found : l.foldl (keepBest beats) none = some m) : Leads beats l m := by
  induction l using List.reverseRecOn generalizing m with
  | nil => cases found
  | append_singleton l a ih =>
    rw [List.foldl_append, List.foldl_cons, List.foldl_nil] at found
    cases scanned : l.foldl (keepBest beats) none with
    | none =>
      rw [scanned] at found
      cases found
      cases l with
      | nil => exact ⟨[], [], rfl, by simp, by simp⟩
      | cons b rest =>
        obtain ⟨c, some_champion⟩ := exists_foldl_keepBest beats (List.cons_ne_nil b rest)
        rw [scanned] at some_champion
        cases some_champion
    | some c =>
      obtain ⟨before, after, split, wins, holds⟩ := ih scanned
      rw [scanned, keepBest] at found
      split at found
      · rename_i beaten
        cases found
        refine ⟨l, [], rfl, ?_, by simp⟩
        intro x member
        by_contra weaker
        have unbeaten : ¬ beats x c := by
          rw [split, List.mem_append, List.mem_cons] at member
          rcases member with early | same | late
          · exact fun other => asymm_of beats other (wins x early)
          · rw [same]
            exact irrefl_of beats c
          · exact holds x late
        exact not_beats_trans weaker unbeaten beaten
      · rename_i unbeaten
        cases found
        refine ⟨before, after ++ [a], by rw [split]; simp, wins, ?_⟩
        intro x member
        rcases List.mem_append.mp member with late | last
        · exact holds x late
        · rw [List.mem_singleton.mp last]
          exact unbeaten

variable (beats) in
theorem exists_leader [IsStrictWeakOrder α beats] {l : List α} (some_element : l ≠ []) :
    ∃ m, Leads beats l m := by
  obtain ⟨m, found⟩ := exists_foldl_keepBest beats some_element
  exact ⟨m, leads_of_foldl found⟩

end Order
end FirstMax
