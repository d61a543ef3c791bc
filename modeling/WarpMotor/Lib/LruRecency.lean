import Mathlib.Data.Finset.Card
import WarpMotor.Lib.Lru

/-!
A cache that only takes new values (`put`) holds the front of the list of all
keys ever put, the latest first. So a key is held exactly as long as fewer
other keys than the capacity have been put after it.
-/
namespace LruCache
variable {K V : Type*} [DecidableEq K]

/-- `put`: the old value is replaced. -/
def put (c : LruCache K V) (entry : K × V) : LruCache K V :=
  c.touch entry.1 entry.2 fun _ => entry.2

def puts (c : LruCache K V) (entries : List (K × V)) : LruCache K V := Runs.run put c entries

@[simp] theorem puts_nil (c : LruCache K V) : c.puts [] = c := rfl

@[simp] theorem puts_cons (c : LruCache K V) (entry : K × V) (rest : List (K × V)) :
    c.puts (entry :: rest) = (c.put entry).puts rest := rfl

/-- The latest entry comes first, an older one of its key goes. -/
def refresh (recent : List (Sigma fun _ : K => V)) (entry : K × V) : List (Sigma fun _ : K => V) :=
  ⟨entry.1, entry.2⟩ :: recent.filter (fun e => e.1 ≠ entry.1)

/-- All keys put, the latest first, with their last values. -/
def recency (recent : List (Sigma fun _ : K => V)) (entries : List (K × V)) :
    List (Sigma fun _ : K => V) :=
  entries.foldl refresh recent

theorem mem_keys_filter {recent : List (Sigma fun _ : K => V)} {key k : K} :
    k ∈ (recent.filter (fun e => e.1 ≠ key)).keys ↔ k ∈ recent.keys ∧ k ≠ key := by
  simp only [List.keys, List.mem_map, List.mem_filter, decide_eq_true_eq]
  constructor
  · rintro ⟨e, ⟨member, other⟩, rfl⟩
    exact ⟨⟨e, member, rfl⟩, other⟩
  · rintro ⟨⟨e, member, rfl⟩, other⟩
    exact ⟨e, ⟨member, other⟩, rfl⟩

theorem refresh_nodup {recent : List (Sigma fun _ : K => V)} (distinct : recent.NodupKeys)
    (entry : K × V) : (refresh recent entry).NodupKeys := by
  refine List.nodupKeys_cons.mpr ⟨?_, distinct.sublist List.filter_sublist⟩
  intro held
  exact (mem_keys_filter.mp held).2 rfl

theorem take_filter_ne {key : K} (recent : List (Sigma fun _ : K => V)) (m : Nat)
    (absent : key ∉ (recent.take m).keys) :
    (recent.filter (fun e => e.1 ≠ key)).take m = recent.take m := by
  induction recent generalizing m with
  | nil => rfl
  | cons e rest ih =>
    cases m with
    | zero => rfl
    | succ m =>
      rw [List.take_succ_cons, List.keys_cons, List.mem_cons, not_or] at absent
      have kept : decide (e.1 ≠ key) = true := decide_eq_true (Ne.symm absent.1)
      rw [List.filter_cons, if_pos kept, List.take_succ_cons, List.take_succ_cons, ih m absent.2]

/-- Taking one key out of a front lets the next one in. -/
theorem kerase_take {key : K} (recent : List (Sigma fun _ : K => V)) (m : Nat)
    (distinct : recent.NodupKeys) (held : key ∈ (recent.take (m + 1)).keys) :
    (recent.take (m + 1)).kerase key = (recent.filter (fun e => e.1 ≠ key)).take m := by
  induction recent generalizing m with
  | nil => simp at held
  | cons e rest ih =>
    obtain ⟨fresh, tail⟩ := List.nodupKeys_cons.mp distinct
    rw [List.take_succ_cons] at held ⊢
    by_cases own : key = e.1
    · have gone : decide (e.1 ≠ key) = false := decide_eq_false (fun other => other own.symm)
      rw [List.kerase_cons_eq own, List.filter_cons, if_neg (by simp [gone])]
      have absent : key ∉ (rest.take m).keys := by
        rw [own]
        intro among
        obtain ⟨e', member, same⟩ := List.mem_map.mp among
        exact fresh (List.mem_map.mpr ⟨e', List.mem_of_mem_take member, same⟩)
      exact (take_filter_ne rest m absent).symm
    · have kept : decide (e.1 ≠ key) = true := decide_eq_true (Ne.symm own)
      rw [List.keys_cons, List.mem_cons] at held
      have later := held.resolve_left own
      rw [List.kerase_cons_ne own, List.filter_cons, if_pos kept]
      cases m with
      | zero => simp at later
      | succ m => rw [List.take_succ_cons, ih m tail later]

/-- The cache holds the front of the list of recent keys. -/
theorem put_entries {c : LruCache K V} {recent : List (Sigma fun _ : K => V)}
    (distinct : recent.NodupKeys) (front : c.entries.entries = recent.take c.capacity)
    (entry : K × V) : (c.put entry).entries.entries = (refresh recent entry).take c.capacity := by
  have positive := c.positive
  obtain ⟨m, capacity⟩ : ∃ m, c.capacity = m + 1 := ⟨c.capacity - 1, by omega⟩
  have base : (c.base entry.1).entries.kerase entry.1 =
      (recent.filter (fun e => e.1 ≠ entry.1)).take m := by
    rw [capacity] at front
    by_cases held : entry.1 ∈ c.entries
    · have among : entry.1 ∈ (recent.take (m + 1)).keys := by
        rw [← front]
        exact held
      unfold LruCache.base
      rw [if_pos held, front]
      exact kerase_take recent m distinct among
    · have absent : entry.1 ∉ (recent.take (m + 1)).keys := by
        rw [← front]
        exact held
      have room : c.room.entries = recent.take m := by
        unfold LruCache.room
        split
        · rename_i short
          rw [front, capacity] at short
          rw [front]
          have few : recent.length ≤ m := by
            rw [List.length_take] at short
            omega
          rw [List.take_of_length_le few, List.take_of_length_le (by omega)]
        · rename_i full
          rw [front, capacity] at full
          change c.entries.entries.dropLast = _
          rw [front, List.dropLast_eq_take, List.take_take, List.length_take]
          rw [List.length_take] at full
          congr 1
          omega
      have fewer : entry.1 ∉ (recent.take m).keys := by
        intro among
        obtain ⟨e, member, same⟩ := List.mem_map.mp among
        refine absent (List.mem_map.mpr ⟨e, ?_, same⟩)
        exact (List.take_subset_take_left recent (Nat.le_succ m)) member
      unfold LruCache.base
      rw [if_neg held, room, List.kerase_of_notMem_keys fewer, take_filter_ne recent m fewer]
  change ((c.base entry.1).insert entry.1 entry.2).entries = _
  rw [AList.entries_insert, base, capacity, refresh, List.take_succ_cons]

theorem puts_entries (entries : List (K × V)) {c : LruCache K V}
    {recent : List (Sigma fun _ : K => V)} (distinct : recent.NodupKeys)
    (front : c.entries.entries = recent.take c.capacity) :
    (c.puts entries).entries.entries = (recency recent entries).take c.capacity ∧
      (recency recent entries).NodupKeys := by
  induction entries generalizing c recent with
  | nil => exact ⟨front, distinct⟩
  | cons entry rest ih => exact ih (refresh_nodup distinct entry) (put_entries distinct front entry)

/-- What is put later moves an entry back by one place for each new key. -/
theorem recency_split (entries : List (K × V)) {key : K} (value : V)
    (absent : key ∉ entries.map Prod.fst) (front back : List (Sigma fun _ : K => V))
    (distinct : front.NodupKeys) (apart : key ∉ front.keys) :
    ∃ front' back', recency (front ++ ⟨key, value⟩ :: back) entries =
        front' ++ ⟨key, value⟩ :: back' ∧ front'.NodupKeys ∧ key ∉ front'.keys ∧
      ∀ k, k ∈ front'.keys ↔ k ∈ front.keys ∨ k ∈ entries.map Prod.fst := by
  induction entries generalizing front back with
  | nil => exact ⟨front, back, rfl, distinct, apart, fun k => by simp⟩
  | cons entry rest ih =>
    rw [List.map_cons, List.mem_cons, not_or] at absent
    obtain ⟨other, later⟩ := absent
    have stays : refresh (front ++ ⟨key, value⟩ :: back) entry =
        refresh front entry ++ ⟨key, value⟩ :: back.filter (fun e => e.1 ≠ entry.1) := by
      simp [refresh, List.filter_append, other]
    have apart' : key ∉ (refresh front entry).keys := by
      unfold refresh
      rw [List.keys_cons, List.mem_cons, not_or]
      exact ⟨other, fun held => apart (mem_keys_filter.mp held).1⟩
    obtain ⟨front', back', same, distinct', gone, keys⟩ :=
      ih later (refresh front entry) (back.filter (fun e => e.1 ≠ entry.1))
        (refresh_nodup distinct entry) apart'
    refine ⟨front', back', ?_, distinct', gone, ?_⟩
    · unfold recency at same ⊢
      rw [List.foldl_cons, stays, same]
    · intro k
      rw [keys k, refresh, List.keys_cons, List.mem_cons, mem_keys_filter, List.map_cons,
        List.mem_cons]
      by_cases own : k = entry.1
      · simp [own]
      · simp [own]

/-- An entry is held as long as fewer keys than the capacity have been put after it. -/
theorem lookup_puts (capacity : Nat) (positive : 0 < capacity) (before after : List (K × V))
    (entry : K × V) (absent : entry.1 ∉ after.map Prod.fst) :
    ((empty capacity positive).puts (before ++ entry :: after)).lookup entry.1 =
      if (after.map Prod.fst).toFinset.card < capacity then some entry.2 else none := by
  have nothing : (empty capacity positive : LruCache K V).entries.entries =
      List.take capacity [] := by
    rw [List.take_nil]
    rfl
  obtain ⟨held, distinct⟩ := puts_entries (before ++ entry :: after) List.nodupKeys_nil nothing
  have steps : recency [] (before ++ entry :: after) =
      recency ([] ++ ⟨entry.1, entry.2⟩ ::
        (recency [] before).filter (fun e => e.1 ≠ entry.1)) after := by
    unfold recency
    rw [List.foldl_append, List.foldl_cons]
    rfl
  obtain ⟨front, back, same, nodup, apart, keys⟩ := recency_split after entry.2 absent []
    ((recency [] before).filter (fun e => e.1 ≠ entry.1)) List.nodupKeys_nil (by simp)
  have count : front.length = (after.map Prod.fst).toFinset.card := by
    have members : front.keys.toFinset = (after.map Prod.fst).toFinset := by
      ext k
      simpa using keys k
    rw [← members, List.toFinset_card_of_nodup nodup, List.keys, List.length_map]
  have limit : (empty capacity positive : LruCache K V).capacity = capacity := rfl
  rw [steps, same, limit] at held
  change ((empty capacity positive).puts (before ++ entry :: after)).entries.entries.dlookup _ = _
  rw [held, ← count, List.take_append]
  split
  · rename_i room
    obtain ⟨m, more⟩ : ∃ m, capacity - front.length = m + 1 :=
      ⟨capacity - front.length - 1, by omega⟩
    rw [more, List.take_succ_cons, List.take_of_length_le (by omega), List.dlookup_append]
    rw [List.dlookup_eq_none.mpr apart]
    exact List.dlookup_cons_eq _ _ _
  · rename_i full
    have nothing : capacity - front.length = 0 := by omega
    rw [nothing, List.take_zero, List.append_nil, List.dlookup_eq_none]
    intro among
    obtain ⟨e, member, same_key⟩ := List.mem_map.mp among
    exact apart (List.mem_map.mpr ⟨e, List.mem_of_mem_take member, same_key⟩)

/-- A key that was never put is not held. -/
theorem lookup_puts_none (capacity : Nat) (positive : 0 < capacity) (entries : List (K × V))
    {key : K}
    (absent : key ∉ entries.map Prod.fst) :
    ((empty capacity positive).puts entries).lookup key = none := by
  have never : ∀ c : LruCache K V, c.lookup key = none →
      (c.puts entries).lookup key = none := by
    induction entries with
    | nil => exact fun c missing => missing
    | cons entry rest ih =>
      rw [List.map_cons, List.mem_cons, not_or] at absent
      intro c missing
      rw [puts_cons]
      apply ih absent.2
      cases found : (c.put entry).lookup key with
      | none => rfl
      | some value =>
        rcases lookup_touch found with ⟨own, _⟩ | before
        · exact absurd own absent.1
        · rw [missing] at before
          cases before
  exact never _ rfl

end LruCache
