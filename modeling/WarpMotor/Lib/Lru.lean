import Mathlib.Data.List.AList
import Mathlib.Data.Finset.Card
import WarpMotor.Lib.Runs

/-!
A cache of bounded size that gives up the entry unused for longest, most
recent first. `touch` finds or creates an entry, changes it and brings it to
the front. `Table` is the same without a bound; a cache that is never asked
for more keys than it holds is that table.
-/

/-- What a key stands for, without a bound on the number of keys. -/
abbrev Table (K V : Type*) := K → Option V

namespace Table
variable {K V : Type*} [DecidableEq K]

def touch (t : Table K V) (fresh : K → V) (key : K) (change : V → V) : Table K V :=
  fun k => if k = key then some (change ((t key).getD (fresh key))) else t k

def run (fresh : K → V) (t : Table K V) (updates : List (K × (V → V))) : Table K V :=
  Runs.run (fun t update => t.touch fresh update.1 update.2) t updates

@[simp] theorem run_nil (fresh : K → V) (t : Table K V) : t.run fresh [] = t := rfl

@[simp] theorem run_cons (fresh : K → V) (t : Table K V) (update : K × (V → V))
    (rest : List (K × (V → V))) :
    t.run fresh (update :: rest) = (t.touch fresh update.1 update.2).run fresh rest := rfl

/-- A key holds what its own updates make of it, in their order. -/
theorem run_apply (fresh : K → V) (updates : List (K × (V → V))) (t : Table K V) (k : K) :
    t.run fresh updates k =
      if k ∈ updates.map Prod.fst then
        some ((updates.filter (fun u => u.1 = k)).foldl (fun v u => u.2 v) ((t k).getD (fresh k)))
      else t k := by
  induction updates generalizing t with
  | nil => rfl
  | cons update rest ih =>
    rw [run_cons, ih]
    by_cases own : k = update.1
    · subst own
      by_cases later : update.1 ∈ rest.map Prod.fst
      · simp [touch, later]
      · have none_left : rest.filter (fun u => u.1 = update.1) = [] := by
          rw [List.filter_eq_nil_iff]
          intro u member same
          exact later (List.mem_map.mpr ⟨u, member, by simpa using same⟩)
        simp [touch, later, none_left]
    · have skipped : decide (update.1 = k) = false := by simpa using Ne.symm own
      have listed : (k ∈ (update :: rest).map Prod.fst) = (k ∈ rest.map Prod.fst) := by simp [own]
      simp only [listed, List.filter_cons, skipped, touch, own, if_false, Bool.false_eq_true]

end Table

structure LruCache (K V : Type*) where
  capacity : Nat
  entries : AList (fun _ : K => V)
  positive : 0 < capacity
  bounded : entries.entries.length ≤ capacity

namespace LruCache
variable {K V : Type*}

def empty (capacity : Nat) (positive : 0 < capacity) : LruCache K V where
  capacity := capacity
  entries := ∅
  positive := positive
  bounded := Nat.zero_le capacity

def isEmpty (c : LruCache K V) : Bool := c.entries.entries.isEmpty

/-- The entries a new one joins: all, or all but the oldest when the cache is full. -/
def room (c : LruCache K V) : AList (fun _ : K => V) :=
  if c.entries.entries.length < c.capacity then c.entries
  else ⟨c.entries.entries.dropLast, c.entries.nodupKeys.sublist (List.dropLast_sublist _)⟩

theorem room_length (c : LruCache K V) : c.room.entries.length + 1 ≤ c.capacity := by
  unfold room
  split
  · assumption
  · have := c.bounded
    have := c.positive
    simp only [List.length_dropLast]
    omega

theorem room_sublist (c : LruCache K V) :
    List.Sublist c.room.entries c.entries.entries := by
  unfold room
  split
  · exact List.Sublist.refl _
  · exact List.dropLast_sublist _

variable [DecidableEq K]

def lookup (c : LruCache K V) (key : K) : Option V := c.entries.lookup key

/-- Every value the cache holds satisfies `P`. -/
def All (P : V → Prop) (c : LruCache K V) : Prop := ∀ key value, c.lookup key = some value → P value

def base (c : LruCache K V) (key : K) : AList (fun _ : K => V) :=
  if key ∈ c.entries then c.entries else c.room

theorem base_bounded (c : LruCache K V) (key : K) (value : V) :
    ((c.base key).insert key value).entries.length ≤ c.capacity := by
  have erased : ∀ s : AList (fun _ : K => V),
      (s.insert key value).entries.length = (s.keys.erase key).length + 1 := by
    intro s
    have keys := congrArg List.length (AList.keys_insert (a := key) (b := value) s)
    simpa [AList.keys, List.keys] using keys
  rw [erased]
  unfold base
  split
  · rename_i present
    rw [List.length_erase_of_mem (AList.mem_keys.mp present)]
    have held : c.entries.keys.length ≤ c.capacity := by
      simpa [AList.keys, List.keys] using c.bounded
    have := c.positive
    omega
  · have fits := c.room_length
    have fewer : (c.room.keys.erase key).length ≤ c.room.keys.length := List.length_erase_le ..
    have same : c.room.keys.length = c.room.entries.length := by simp [AList.keys, List.keys]
    omega

/-- `get_or_insert_mut_ref` and a change of what it returns. -/
def touch (c : LruCache K V) (key : K) (fresh : V) (change : V → V) : LruCache K V where
  capacity := c.capacity
  entries := (c.base key).insert key (change ((c.lookup key).getD fresh))
  positive := c.positive
  bounded := c.base_bounded key _

theorem lookup_touch_self (c : LruCache K V) (key : K) (fresh : V) (change : V → V) :
    (c.touch key fresh change).lookup key = some (change ((c.lookup key).getD fresh)) :=
  AList.lookup_insert _

theorem lookup_base {c : LruCache K V} (key : K) {k : K} {value : V}
    (found : (c.base key).lookup k = some value) : c.lookup k = some value := by
  unfold base at found
  split at found
  · exact found
  · exact List.sublist_dlookup c.entries.nodupKeys c.room_sublist found

/-- What the cache holds after a touch is what it held, or the touched entry. -/
theorem lookup_touch {c : LruCache K V} {key k : K} {fresh value : V} {change : V → V}
    (found : (c.touch key fresh change).lookup k = some value) :
    (k = key ∧ value = change ((c.lookup key).getD fresh)) ∨ c.lookup k = some value := by
  by_cases own : k = key
  · subst own
    rw [lookup_touch_self, Option.some_inj] at found
    exact .inl ⟨rfl, found.symm⟩
  · right
    apply lookup_base key
    rw [← found]
    exact (AList.lookup_insert_ne own).symm

/-- A change that keeps `P` keeps it on all entries. -/
theorem all_touch {P : V → Prop} {c : LruCache K V} {key : K} {fresh : V} {change : V → V}
    (start : P fresh) (kept : ∀ v, P v → P (change v)) (held : c.All P) :
    (c.touch key fresh change).All P := by
  intro k value found
  rcases lookup_touch found with ⟨-, rfl⟩ | before
  · cases known : c.lookup key with
    | none => exact kept fresh start
    | some v => exact kept v (held key v known)
  · exact held k value before

theorem all_empty (P : V → Prop) (capacity : Nat) (positive : 0 < capacity) :
    (empty capacity positive : LruCache K V).All P := by
  intro key value found
  simp [empty, lookup] at found

theorem base_of_room {c : LruCache K V} {key : K}
    (fits : key ∈ c.entries ∨ c.entries.entries.length < c.capacity) : c.base key = c.entries := by
  unfold base room
  split
  · rfl
  · rename_i absent
    rw [if_pos (fits.resolve_left absent)]

/-- Two touches of one key in a row are one touch with both changes. -/
theorem touch_touch (c : LruCache K V) (key : K) (fresh : V) (first second : V → V) :
    (c.touch key fresh first).touch key fresh second =
      c.touch key fresh (fun v => second (first v)) := by
  have present : key ∈ (c.touch key fresh first).entries := by
    simp [touch, AList.mem_insert]
  have entries : ((c.touch key fresh first).touch key fresh second).entries =
      (c.touch key fresh (fun v => second (first v))).entries := by
    calc ((c.touch key fresh first).touch key fresh second).entries
        = ((c.touch key fresh first).entries).insert key
            (second (((c.touch key fresh first).lookup key).getD fresh)) := by
          rw [← base_of_room (.inl present)]
          rfl
      _ = (c.touch key fresh (fun v => second (first v))).entries := by
          rw [lookup_touch_self]
          exact AList.insert_insert _
  cases c
  simp only [touch, mk.injEq] at entries ⊢
  exact ⟨trivial, entries⟩

def run (fresh : K → V) (c : LruCache K V) (updates : List (K × (V → V))) : LruCache K V :=
  Runs.run (fun c update => c.touch update.1 (fresh update.1) update.2) c updates

@[simp] theorem run_nil (fresh : K → V) (c : LruCache K V) : c.run fresh [] = c := rfl

@[simp] theorem run_cons (fresh : K → V) (c : LruCache K V) (update : K × (V → V))
    (rest : List (K × (V → V))) :
    c.run fresh (update :: rest) =
      (c.touch update.1 (fresh update.1) update.2).run fresh rest := rfl

/-- The keys the cache holds and those it will be asked for. -/
def demand (c : LruCache K V) (updates : List (K × (V → V))) : Finset K :=
  (c.entries.keys ++ updates.map Prod.fst).toFinset

theorem room_of_demand {c : LruCache K V} {update : K × (V → V)} {rest : List (K × (V → V))}
    (enough : (c.demand (update :: rest)).card ≤ c.capacity) :
    update.1 ∈ c.entries ∨ c.entries.entries.length < c.capacity := by
  by_cases present : update.1 ∈ c.entries
  · exact .inl present
  · right
    have absent : update.1 ∉ c.entries.keys := fun held => present (AList.mem_keys.mpr held)
    have distinct : (update.1 :: c.entries.keys).Nodup :=
      List.nodup_cons.mpr ⟨absent, c.entries.keys_nodup⟩
    have inside : (update.1 :: c.entries.keys).toFinset ⊆ c.demand (update :: rest) := by
      intro k member
      simp only [demand, List.mem_toFinset, List.mem_cons, List.mem_append, List.map_cons] at member ⊢
      tauto
    have counted := (Finset.card_le_card inside).trans enough
    rw [List.toFinset_card_of_nodup distinct] at counted
    simpa [AList.keys, List.keys, Nat.succ_le_iff] using counted

theorem demand_touch (c : LruCache K V) (update : K × (V → V)) (rest : List (K × (V → V)))
    (fits : update.1 ∈ c.entries ∨ c.entries.entries.length < c.capacity) (fresh : V) :
    (c.touch update.1 fresh update.2).demand rest = c.demand (update :: rest) := by
  ext k
  have held : k ∈ (c.touch update.1 fresh update.2).entries.keys ↔
      k = update.1 ∨ k ∈ c.entries.keys := by
    rw [← AList.mem_keys, ← AList.mem_keys]
    simp [touch, base_of_room fits, AList.mem_insert]
  simp only [demand, List.mem_toFinset, List.mem_append, held, List.map_cons, List.mem_cons]
  tauto

/-- A cache that is large enough for all keys it is asked for is the table. -/
theorem lookup_run (fresh : K → V) (updates : List (K × (V → V))) (c : LruCache K V)
    (enough : (c.demand updates).card ≤ c.capacity) :
    (c.run fresh updates).lookup = Table.run fresh c.lookup updates := by
  induction updates generalizing c with
  | nil => rfl
  | cons update rest ih =>
    have fits := room_of_demand enough
    have next : (c.touch update.1 (fresh update.1) update.2).lookup =
        Table.touch c.lookup fresh update.1 update.2 := by
      funext k
      unfold Table.touch
      split
      · rename_i own
        rw [own, lookup_touch_self]
      · rename_i other
        calc (c.touch update.1 (fresh update.1) update.2).lookup k
            = (c.base update.1).lookup k := AList.lookup_insert_ne other
          _ = c.lookup k := by rw [base_of_room fits]; rfl
    rw [run_cons, Table.run_cons, ← next]
    apply ih
    rw [demand_touch c update rest fits]
    exact enough

end LruCache
