import Mathlib.Data.List.Basic
import Mathlib.Data.List.Chain

/-!
Cutting a stream of items into batches. Items are held back until a test on the
held items and the next one says that the held ones go out first. The test may
use a state that every item changes. `deliver` hands batches to a receiver that
may refuse one, which ends the delivery.
-/
namespace Batching
variable {S I B : Type*}

structure Cutter (S I : Type*) where
  cut : S → List I → I → Bool
  observe : S → I → S

/-- What went out, what is held and the state after the last item. -/
structure Fed (S I : Type*) where
  out : List (List I)
  held : List I
  state : S

def feed (c : Cutter S I) (state : S) (held : List I) : List I → Fed S I
  | [] => ⟨[], held, state⟩
  | item :: rest =>
    if c.cut state held item then
      let later := feed c (c.observe state item) [item] rest
      ⟨held :: later.out, later.held, later.state⟩
    else feed c (c.observe state item) (held ++ [item]) rest

/-- What is held at the end goes out too, unless it is empty. -/
def Fed.batches (fed : Fed S I) : List (List I) :=
  if fed.held.isEmpty then fed.out else fed.out ++ [fed.held]

theorem feed_flatten (c : Cutter S I) (state : S) (held items : List I) :
    (feed c state held items).out.flatten ++ (feed c state held items).held = held ++ items := by
  induction items generalizing state held with
  | nil => simp [feed]
  | cons item rest ih =>
    unfold feed
    split
    · simp [ih]
    · simp [ih]

theorem Fed.batches_flatten (fed : Fed S I) : fed.batches.flatten = fed.out.flatten ++ fed.held := by
  unfold batches
  split
  · rename_i empty
    simp [List.isEmpty_iff.mp empty]
  · simp

/-- No item is lost, none is sent twice, and all stay in order. -/
theorem feed_batches_flatten (c : Cutter S I) (state : S) (items : List I) :
    (feed c state [] items).batches.flatten = items := by
  rw [Fed.batches_flatten, feed_flatten, List.nil_append]

theorem Fed.mem_batches {fed : Fed S I} {batch : List I} (member : batch ∈ fed.batches) :
    batch ∈ fed.out ∨ batch = fed.held ∧ batch ≠ [] := by
  unfold batches at member
  split at member
  · exact .inl member
  · rename_i some_held
    rcases List.mem_append.mp member with sent | last
    · exact .inl sent
    · right
      rw [List.mem_singleton.mp last]
      exact ⟨rfl, fun none_held => some_held (List.isEmpty_iff.mpr none_held)⟩

/-- What holds of a single item and is kept where the test lets an item join holds of every batch. -/
theorem feed_fits {c : Cutter S I} {Fits : List I → Prop} (single : ∀ item, Fits [item])
    (joins : ∀ state held item, c.cut state held item = false → Fits held → Fits (held ++ [item]))
    (state : S) (held items : List I) (start : Fits held) :
    (∀ batch ∈ (feed c state held items).out, Fits batch) ∧
      Fits (feed c state held items).held := by
  induction items generalizing state held with
  | nil => exact ⟨fun batch member => absurd member (List.not_mem_nil), start⟩
  | cons item rest ih =>
    unfold feed
    split
    · obtain ⟨sent, kept⟩ := ih (c.observe state item) [item] (single item)
      refine ⟨?_, kept⟩
      intro batch member
      rcases List.mem_cons.mp member with rfl | later
      · exact start
      · exact sent batch later
    · rename_i stays
      exact ih _ _ (joins state held item (by simpa using stays) start)

/-- A test that never sends out nothing gives no empty batch. -/
theorem feed_out_ne_nil {c : Cutter S I} (holds : ∀ state item, c.cut state [] item = false)
    (state : S) (held items : List I) : ∀ batch ∈ (feed c state held items).out, batch ≠ [] := by
  induction items generalizing state held with
  | nil => exact fun batch member => absurd member List.not_mem_nil
  | cons item rest ih =>
    unfold feed
    split
    · rename_i goes
      intro batch member
      rcases List.mem_cons.mp member with rfl | later
      · rintro rfl
        rw [holds] at goes
        cases goes
      · exact ih _ _ batch later
    · exact ih _ _

/-- The test sent the first batch out before the first item of the second. -/
def CutBefore (c : Cutter S I) (batch next : List I) : Prop :=
  ∃ state item rest, next = item :: rest ∧ c.cut state batch item = true

/-- What goes out next begins as what is held, or with the next item. -/
theorem feed_head (c : Cutter S I) (state : S) (item : I) (held items : List I) :
    ∃ rest more, (feed c state (item :: held) items).out ++
      [(feed c state (item :: held) items).held] = (item :: rest) :: more := by
  induction items generalizing state held with
  | nil => exact ⟨held, [], rfl⟩
  | cons next items ih =>
    unfold feed
    split
    · exact ⟨held, _, rfl⟩
    · exact ih (c.observe state next) (held ++ [next])

/-- A batch is closed only when the test asks for it. -/
theorem feed_cutBefore (c : Cutter S I) (state : S) (held items : List I) :
    ((feed c state held items).out ++ [(feed c state held items).held]).IsChain (CutBefore c) := by
  induction items generalizing state held with
  | nil => exact List.isChain_singleton _
  | cons item items ih =>
    unfold feed
    split
    · rename_i goes
      have chained := ih (c.observe state item) [item]
      obtain ⟨rest, more, opened⟩ := feed_head c (c.observe state item) item [] items
      rw [List.cons_append]
      rw [opened] at chained ⊢
      exact List.isChain_cons_cons.mpr ⟨⟨state, item, rest, rfl, goes⟩, chained⟩
    · exact ih _ _

theorem Fed.batches_front (fed : Fed S I) : fed.batches <+: fed.out ++ [fed.held] := by
  unfold batches
  split
  · exact List.prefix_append _ _
  · exact List.prefix_rfl

/-- Delivery ends with the first batch that is refused. -/
def deliver (accepts : List B → B → Bool) (log : List B) : List B → List B × Bool
  | [] => (log, true)
  | batch :: rest =>
    if accepts log batch then deliver accepts (log ++ [batch]) rest else (log, false)

theorem deliver_append (accepts : List B → B → Bool) (log first second : List B) :
    deliver accepts log (first ++ second) =
      if (deliver accepts log first).2 then deliver accepts (deliver accepts log first).1 second
      else deliver accepts log first := by
  induction first generalizing log with
  | nil => rfl
  | cons batch rest ih =>
    simp only [List.cons_append, deliver]
    split
    · exact ih _
    · rfl

/-- What was delivered is a first part of the batches, and all of them if none was refused. -/
theorem deliver_front (accepts : List B → B → Bool) (log batches : List B) :
    ∃ front, front <+: batches ∧ (deliver accepts log batches).1 = log ++ front ∧
      ((deliver accepts log batches).2 = true ↔ front = batches) := by
  induction batches generalizing log with
  | nil => exact ⟨[], List.prefix_rfl, by simp [deliver], by simp [deliver]⟩
  | cons batch rest ih =>
    unfold deliver
    split
    · obtain ⟨front, first, reached, whole⟩ := ih (log ++ [batch])
      refine ⟨batch :: front, List.cons_prefix_cons.mpr ⟨rfl, first⟩, ?_, ?_⟩
      · simp [reached]
      · simp [whole]
    · exact ⟨[], List.nil_prefix, by simp, by simp⟩

theorem deliver_all {accepts : List B → B → Bool} {log batches logged : List B}
    (all : deliver accepts log batches = (logged, true)) : logged = log ++ batches := by
  obtain ⟨front, _, reached, whole⟩ := deliver_front accepts log batches
  rw [all] at reached whole
  have logged_front : logged = log ++ front := reached
  rw [logged_front, whole.mp rfl]

end Batching
