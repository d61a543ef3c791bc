import Mathlib.Data.List.Count
import WarpMotor.File.MultiSource

/-!
What the calls of the source over several files deliver. For every shard of the
current file, what was returned, what waits in the channel and what its task has
still to read make up the lines of the shard; a file is left only when nothing
of it waits any more. The one await where a dropped call loses something is the
one that opens a file.
-/
namespace WarpMotor

open Framing

namespace File

def ParallelSourceMsg.events : ParallelSourceMsg → SourceBatch
  | .batch events => events
  | .done => []
  | .err => []

namespace Group

/-- The messages of one shard in the channel. -/
def inbox (g : Group) (shard : Nat) : List ParallelSourceMsg :=
  (g.queue.filter (fun entry => entry.1 == shard)).map (fun entry => entry.2)

/-- The last message of the shard is still to be received. -/
def isOpen (g : Group) (shard : Nat) : Bool :=
  !(g.workers[shard]?.any (fun w => w.finished)) || !(g.inbox shard).isEmpty

end Group

/-- One shard: what was returned, what waits in the channel and what is left in the file make up
    its lines, and the last message of its task stands behind all its batches. -/
structure ShardKept (decoders : Decoders) (encode : FileEncoding) (text : Bytes)
    (delivered : List SourceEvent) (inbox : List ParallelSourceMsg) (w : Worker) : Prop where
  same_encode : w.source.encode = encode
  left : ∃ front back, w.source.reader.HandsOut front back ∧
    (delivered ++ inbox.flatMap ParallelSourceMsg.events).map payloadOf ++
      payloadsOf decoders encode front = payloadsOf decoders encode text ∧
    (w.finished = true → front = [])
  shape : w.finished = false ∧ (∀ m ∈ inbox, ∃ events, m = .batch events) ∨
    w.finished = true ∧ (inbox = [] ∨
      ∃ batches : List SourceBatch, inbox = batches.map .batch ++ [.done])

namespace ShardKept
variable {decoders : Decoders} {encode : FileEncoding} {text : Bytes}
  {delivered : List SourceEvent} {inbox : List ParallelSourceMsg} {w : Worker}

/-- What a call of the task takes from the file is in what it received. -/
theorem received {source : FileSource} {result : Received} {reads : List FileRead}
    (kept : ShardKept decoders encode text delivered inbox w) (no_failure : .failed ∉ reads)
    (decodes : none ∉ payloadsOf decoders encode text)
    (call : w.source.receive decoders reads = (source, result)) :
    result ≠ .failed ∧ source.encode = encode ∧ (result ≠ .dropped →
      ∃ front back, source.reader.HandsOut front back ∧ (result = .eof → front = []) ∧
        (delivered ++ inbox.flatMap ParallelSourceMsg.events ++ result.events).map payloadOf ++
          payloadsOf decoders encode front = payloadsOf decoders encode text) := by
  obtain ⟨front, back, hands, balance, -⟩ := kept.left
  have same := kept.same_encode
  have front_decodes : none ∉ payloadsOf decoders w.source.encode front := by
    rw [same]
    rw [← balance, List.mem_append, not_or] at decodes
    exact decodes.2
  obtain ⟨still, no_fail, taken⟩ := FileSource.receiveLoop_spec hands no_failure front_decodes call
  refine ⟨no_fail, still.trans same, ?_⟩
  intro kept_call
  obtain ⟨front', later, ended, split⟩ := taken kept_call
  rw [same] at split
  refine ⟨front', back, later, ended, ?_⟩
  rw [List.map_append, List.append_assoc, ← balance]
  exact congrArg _ split

/-- The task sends a batch. -/
theorem sends {source : FileSource} {events : SourceBatch} {reads : List FileRead}
    (kept : ShardKept decoders encode text delivered inbox w) (running : w.finished = false)
    (no_failure : .failed ∉ reads) (decodes : none ∉ payloadsOf decoders encode text)
    (call : w.source.receive decoders reads = (source, .batch events)) :
    ShardKept decoders encode text delivered (inbox ++ [.batch events]) { w with source } := by
  obtain ⟨-, same, taken⟩ := kept.received no_failure decodes call
  obtain ⟨front, back, hands, -, balance⟩ := taken (by simp)
  refine ⟨same, ⟨front, back, hands, ?_, ?_⟩, ?_⟩
  · rw [List.append_assoc] at balance
    simpa [ParallelSourceMsg.events, Received.events] using balance
  · intro finished
    exact absurd (running.symm.trans finished) Bool.false_ne_true
  · rcases kept.shape with ⟨-, batches⟩ | ⟨finished, -⟩
    · left
      refine ⟨running, ?_⟩
      intro m mem
      rcases List.mem_append.mp mem with before | now
      · exact batches m before
      · rw [List.mem_singleton] at now
        exact ⟨events, now⟩
    · exact absurd (running.symm.trans finished) Bool.false_ne_true

/-- The task is at the end of its shard and says so. -/
theorem ends {source : FileSource} {reads : List FileRead}
    (kept : ShardKept decoders encode text delivered inbox w) (running : w.finished = false)
    (no_failure : .failed ∉ reads) (decodes : none ∉ payloadsOf decoders encode text)
    (call : w.source.receive decoders reads = (source, .eof)) :
    ShardKept decoders encode text delivered (inbox ++ [.done]) ⟨source, true⟩ := by
  obtain ⟨-, same, taken⟩ := kept.received no_failure decodes call
  obtain ⟨front, back, hands, ended, balance⟩ := taken (by simp)
  refine ⟨same, ⟨front, back, hands, ?_, fun _ => ended rfl⟩, ?_⟩
  · simpa [ParallelSourceMsg.events, Received.events] using balance
  · rcases kept.shape with ⟨-, batches⟩ | ⟨finished, -⟩
    · refine .inr ⟨rfl, .inr ?_⟩
      refine ⟨inbox.map ParallelSourceMsg.events, ?_⟩
      rw [List.map_map, List.map_congr_left (g := id) ?_, List.map_id]
      intro m mem
      obtain ⟨events, same⟩ := batches m mem
      rw [same]
      rfl
    · exact absurd (running.symm.trans finished) Bool.false_ne_true

/-- A batch goes from the channel to the caller. -/
theorem delivers {events : SourceBatch}
    (kept : ShardKept decoders encode text delivered (.batch events :: inbox) w) :
    ShardKept decoders encode text (delivered ++ events) inbox w ∧
      (w.finished = true → inbox ≠ []) := by
  obtain ⟨front, back, hands, balance, ended⟩ := kept.left
  refine ⟨⟨kept.same_encode, ⟨front, back, hands, ?_, ended⟩, ?_⟩, ?_⟩
  · simpa [ParallelSourceMsg.events] using balance
  · rcases kept.shape with ⟨running, batches⟩ | ⟨finished, empty | ⟨sent, shape⟩⟩
    · exact .inl ⟨running, fun m mem => batches m (List.mem_cons_of_mem _ mem)⟩
    · cases empty
    · cases sent with
      | nil => cases shape
      | cons first rest =>
        rw [List.map_cons, List.cons_append, List.cons.injEq] at shape
        exact .inr ⟨finished, .inr ⟨rest, shape.2⟩⟩
  · intro finished empty
    subst empty
    rcases kept.shape with ⟨running, -⟩ | ⟨-, empty | ⟨sent, shape⟩⟩
    · exact absurd (running.symm.trans finished) Bool.false_ne_true
    · cases empty
    · cases sent with
      | nil => cases shape
      | cons first rest => simp at shape

/-- The last message of a task has nothing behind it. -/
theorem closes (kept : ShardKept decoders encode text delivered (.done :: inbox) w) :
    w.finished = true ∧ inbox = [] ∧ ShardKept decoders encode text delivered inbox w := by
  obtain ⟨front, back, hands, balance, ended⟩ := kept.left
  rcases kept.shape with ⟨-, batches⟩ | ⟨finished, empty | ⟨sent, shape⟩⟩
  · obtain ⟨events, same⟩ := batches .done List.mem_cons_self
    cases same
  · cases empty
  · cases sent with
    | nil =>
      rw [List.map_nil, List.nil_append, List.cons.injEq] at shape
      refine ⟨finished, shape.2, kept.same_encode, ⟨front, back, hands, ?_, ended⟩, ?_⟩
      · simpa [ParallelSourceMsg.events] using balance
      · exact .inr ⟨finished, .inl shape.2⟩
    | cons first rest => cases shape

theorem no_error (kept : ShardKept decoders encode text delivered (.err :: inbox) w) : False := by
  rcases kept.shape with ⟨-, batches⟩ | ⟨-, empty | ⟨sent, shape⟩⟩
  · obtain ⟨events, same⟩ := batches .err List.mem_cons_self
    cases same
  · cases empty
  · cases sent with
    | nil => cases shape
    | cons first rest => cases shape

/-- A task that is done and has nothing in the channel has delivered its shard. -/
theorem complete (kept : ShardKept decoders encode text delivered [] w)
    (finished : w.finished = true) :
    delivered.map payloadOf = payloadsOf decoders encode text := by
  obtain ⟨front, back, -, balance, ended⟩ := kept.left
  rw [ended finished] at balance
  simpa [payloadsOf, lineChunks] using balance

end ShardKept

/-- Where one element of a list stops to count, the count is one less. -/
theorem countP_eq_succ {p q : Nat → Bool} {l : List Nat} (once : l.Nodup) {j : Nat} (mem : j ∈ l)
    (was : p j = true) (is_not : q j = false) (others : ∀ i, i ≠ j → p i = q i) :
    l.countP p = l.countP q + 1 := by
  induction l with
  | nil => cases mem
  | cons i rest ih =>
    rw [List.nodup_cons] at once
    rcases List.mem_cons.mp mem with rfl | later
    · have same : rest.countP p = rest.countP q := by
        refine List.countP_congr ?_
        intro k k_mem
        have differs : k ≠ j := by
          rintro rfl
          exact once.1 k_mem
        rw [others k differs]
      simp [was, is_not, same]
    · have differs : i ≠ j := by
        rintro rfl
        exact once.1 later
      rw [List.countP_cons, List.countP_cons, ih once.2 later, others i differs]
      omega

namespace Group

theorem inbox_append (g : Group) (shard i : Nat) (m : ParallelSourceMsg) (workers : List Worker) :
    ({ g with queue := g.queue ++ [(shard, m)], workers } : Group).inbox i =
      g.inbox i ++ if shard = i then [m] else [] := by
  unfold inbox
  by_cases same : shard = i
  · simp [List.filter_append, same]
  · simp [List.filter_append, same]

theorem inbox_cons (g : Group) (shard i : Nat) (m : ParallelSourceMsg)
    (queue : List (Nat × ParallelSourceMsg)) (shape : g.queue = (shard, m) :: queue) (active : Nat) :
    g.inbox i = (if shard = i then [m] else []) ++ ({ g with queue, active } : Group).inbox i := by
  unfold inbox
  rw [shape]
  by_cases same : shard = i
  · simp [same]
  · simp [same]

end Group

theorem Group.work_active (decoders : Decoders) (g : Group) (shard : Nat) (reads : List FileRead) :
    (g.work decoders shard reads).active = g.active := by
  unfold Group.work
  split
  · rfl
  · split
    · rfl
    · split <;> rfl

/-- The current file: each shard is kept, and `active` counts the shards that are still open. -/
structure GroupKept (decoders : Decoders) (encode : FileEncoding) (data : Bytes) (instances : Nat)
    (delivered : Nat → List SourceEvent) (g : Group) : Prop where
  same_length : g.workers.length = (computeFileRanges data instances).length
  shards : ∀ i range w, (computeFileRanges data instances)[i]? = some range →
    g.workers[i]? = some w →
    ShardKept decoders encode (rangeText data range) (delivered i) (g.inbox i) w
  senders : ∀ entry ∈ g.queue, entry.1 < g.workers.length
  counted : g.active = (List.range g.workers.length).countP g.isOpen

namespace GroupKept
variable {decoders : Decoders} {encode : FileEncoding} {data : Bytes} {instances : Nat}
  {delivered : Nat → List SourceEvent} {g : Group}

theorem range_of (kept : GroupKept decoders encode data instances delivered g) {i : Nat}
    {w : Worker} (there : g.workers[i]? = some w) :
    ∃ range, (computeFileRanges data instances)[i]? = some range := by
  have inside : i < g.workers.length := (List.getElem?_eq_some_iff.mp there).1
  rw [kept.same_length] at inside
  exact ⟨_, List.getElem?_eq_getElem inside⟩

/-- A task at work: its shard changes, the others and the count do not. -/
theorem worked (kept : GroupKept decoders encode data instances delivered g) {shard : Nat}
    {w w' : Worker} {m : ParallelSourceMsg} (there : g.workers[shard]? = some w)
    (running : w.finished = false)
    (shard_kept : ∀ range, (computeFileRanges data instances)[shard]? = some range →
      ShardKept decoders encode (rangeText data range) (delivered shard)
        (g.inbox shard ++ [m]) w') :
    GroupKept decoders encode data instances delivered
      { g with queue := g.queue ++ [(shard, m)], workers := g.workers.set shard w' } := by
  have inside : shard < g.workers.length := (List.getElem?_eq_some_iff.mp there).1
  constructor
  · rw [List.length_set]
    exact kept.same_length
  · intro i range v range_eq worker_eq
    rw [Group.inbox_append]
    by_cases same : shard = i
    · subst same
      dsimp only at worker_eq
      rw [List.getElem?_set_self inside, Option.some.injEq] at worker_eq
      subst worker_eq
      rw [if_pos rfl]
      exact shard_kept range range_eq
    · dsimp only at worker_eq
      rw [List.getElem?_set_ne same] at worker_eq
      rw [if_neg same, List.append_nil]
      exact kept.shards i range v range_eq worker_eq
  · intro entry mem
    rw [List.length_set]
    rcases List.mem_append.mp mem with before | now
    · exact kept.senders entry before
    · rw [List.mem_singleton] at now
      rw [now]
      exact inside
  · rw [List.length_set]
    refine kept.counted.trans (List.countP_congr ?_)
    intro i _
    unfold Group.isOpen
    rw [Group.inbox_append]
    by_cases same : shard = i
    · subst same
      simp [there, running]
    · simp [same]

/-- A step of a task keeps the group. -/
theorem work (kept : GroupKept decoders encode data instances delivered g)
    (decodes : ∀ range ∈ computeFileRanges data instances,
      none ∉ payloadsOf decoders encode (rangeText data range))
    (shard : Nat) {reads : List FileRead} (no_failure : .failed ∉ reads) :
    GroupKept decoders encode data instances delivered (g.work decoders shard reads) := by
  unfold Group.work
  cases there : g.workers[shard]? with
  | none => exact kept
  | some w =>
    dsimp only
    by_cases finished : w.finished = true
    · rw [if_pos finished]
      exact kept
    · have running : w.finished = false := Bool.eq_false_of_not_eq_true finished
      rw [if_neg finished]
      obtain ⟨range, range_eq⟩ := kept.range_of there
      have shard_kept := kept.shards shard range w range_eq there
      have shard_decodes := decodes range (List.mem_of_getElem? range_eq)
      cases call : w.source.receive decoders reads with
      | mk source result =>
        cases result with
        | dropped => exact kept
        | failed =>
          obtain ⟨no_fail, -⟩ := shard_kept.received no_failure shard_decodes call
          exact absurd rfl no_fail
        | batch events =>
          refine kept.worked there running ?_
          intro range' range_eq'
          rw [range_eq, Option.some.injEq] at range_eq'
          subst range_eq'
          exact shard_kept.sends running no_failure shard_decodes call
        | eof =>
          refine kept.worked there running ?_
          intro range' range_eq'
          rw [range_eq, Option.some.injEq] at range_eq'
          subst range_eq'
          exact shard_kept.ends running no_failure shard_decodes call

theorem worker_of (kept : GroupKept decoders encode data instances delivered g) {shard : Nat}
    {m : ParallelSourceMsg} {queue : List (Nat × ParallelSourceMsg)}
    (shape : g.queue = (shard, m) :: queue) : ∃ w, g.workers[shard]? = some w := by
  have inside : shard < g.workers.length := by
    refine kept.senders (shard, m) ?_
    rw [shape]
    exact List.mem_cons_self
  exact ⟨_, List.getElem?_eq_getElem inside⟩

/-- The first message of the channel is the first one of its shard. -/
theorem shard_of_head (kept : GroupKept decoders encode data instances delivered g) {shard : Nat}
    {m : ParallelSourceMsg} {queue : List (Nat × ParallelSourceMsg)}
    (shape : g.queue = (shard, m) :: queue) (active : Nat) {w : Worker} {range : Range}
    (there : g.workers[shard]? = some w)
    (range_eq : (computeFileRanges data instances)[shard]? = some range) :
    ShardKept decoders encode (rangeText data range) (delivered shard)
      (m :: ({ g with queue, active } : Group).inbox shard) w := by
  have shard_kept := kept.shards shard range w range_eq there
  rw [g.inbox_cons shard shard m queue shape active, if_pos rfl] at shard_kept
  exact shard_kept

/-- A batch is taken from the channel. -/
theorem delivers (kept : GroupKept decoders encode data instances delivered g) {shard : Nat}
    {events : SourceBatch} {queue : List (Nat × ParallelSourceMsg)}
    (shape : g.queue = (shard, .batch events) :: queue) {delivered' : Nat → List SourceEvent}
    (added : delivered' shard = delivered shard ++ events)
    (same : ∀ i, i ≠ shard → delivered' i = delivered i) :
    GroupKept decoders encode data instances delivered' { g with queue } := by
  obtain ⟨w, there⟩ := kept.worker_of shape
  constructor
  · exact kept.same_length
  · intro i range v range_eq worker_eq
    by_cases here : i = shard
    · subst here
      rw [added]
      exact (kept.shard_of_head shape g.active worker_eq range_eq).delivers.1
    · have shard_kept := kept.shards i range v range_eq worker_eq
      rw [g.inbox_cons shard i _ queue shape g.active, if_neg (Ne.symm here),
        List.nil_append] at shard_kept
      rw [same i here]
      exact shard_kept
  · intro entry mem
    refine kept.senders entry ?_
    rw [shape]
    exact List.mem_cons_of_mem _ mem
  · refine kept.counted.trans (List.countP_congr ?_)
    intro i _
    unfold Group.isOpen
    rw [g.inbox_cons shard i _ queue shape g.active]
    by_cases here : shard = i
    · subst here
      obtain ⟨range, range_eq⟩ := kept.range_of there
      obtain ⟨-, waits⟩ := (kept.shard_of_head shape g.active there range_eq).delivers
      by_cases finished : w.finished = true
      · simp [there, finished, waits finished]
      · simp [there, finished]
    · simp [here]

/-- The last message of a shard is taken from the channel. -/
theorem closes (kept : GroupKept decoders encode data instances delivered g) {shard : Nat}
    {queue : List (Nat × ParallelSourceMsg)} (shape : g.queue = (shard, .done) :: queue) :
    GroupKept decoders encode data instances delivered
      { g with queue, active := g.active - 1 } := by
  obtain ⟨w, there⟩ := kept.worker_of shape
  obtain ⟨range, range_eq⟩ := kept.range_of there
  have head := kept.shard_of_head shape (g.active - 1) there range_eq
  obtain ⟨finished, none_left, -⟩ := head.closes
  have inside : shard < g.workers.length := (List.getElem?_eq_some_iff.mp there).1
  constructor
  · exact kept.same_length
  · intro i range' v range_eq' worker_eq
    by_cases here : i = shard
    · subst here
      exact (kept.shard_of_head shape (g.active - 1) worker_eq range_eq').closes.2.2
    · have shard_kept := kept.shards i range' v range_eq' worker_eq
      rw [g.inbox_cons shard i _ queue shape (g.active - 1), if_neg (Ne.symm here),
        List.nil_append] at shard_kept
      exact shard_kept
  · intro entry mem
    refine kept.senders entry ?_
    rw [shape]
    exact List.mem_cons_of_mem _ mem
  · have dropped := countP_eq_succ (p := g.isOpen)
      (q := ({ g with queue, active := g.active - 1 } : Group).isOpen)
      (l := List.range g.workers.length) List.nodup_range (List.mem_range.mpr inside) ?_ ?_ ?_
    · have count := kept.counted.trans dropped
      exact Nat.sub_eq_of_eq_add count
    · unfold Group.isOpen
      rw [g.inbox_cons shard shard _ queue shape g.active]
      simp
    · unfold Group.isOpen
      rw [none_left]
      simp [there, finished]
    · intro i differs
      unfold Group.isOpen
      rw [g.inbox_cons shard i _ queue shape (g.active - 1), if_neg (Ne.symm differs), List.nil_append]

/-- With nobody left to send and nothing in the channel, every shard is closed. -/
theorem closed_active (kept : GroupKept decoders encode data instances delivered g)
    (empty : g.queue = []) (closed : g.Closed) : g.active = 0 := by
  rw [kept.counted, List.countP_eq_zero]
  intro i mem
  have inside := List.mem_range.mp mem
  have finished := closed _ (List.getElem_mem inside)
  simp [Group.isOpen, Group.inbox, empty, List.getElem?_eq_getElem inside, finished]

/-- When no shard is open any more the whole file has been returned. -/
theorem complete (kept : GroupKept decoders encode data instances delivered g)
    (none_open : g.active = 0) {i : Nat} {range : Range}
    (range_eq : (computeFileRanges data instances)[i]? = some range) :
    (delivered i).map payloadOf = payloadsOf decoders encode (rangeText data range) := by
  have inside : i < g.workers.length := by
    rw [kept.same_length]
    exact (List.getElem?_eq_some_iff.mp range_eq).1
  have there := List.getElem?_eq_getElem inside
  have shard_kept := kept.shards i range _ range_eq there
  rw [kept.counted, List.countP_eq_zero] at none_open
  have closed := none_open i (List.mem_range.mpr inside)
  simp only [Group.isOpen, there, Option.any_some, Bool.or_eq_true, Bool.not_eq_true',
    not_or, Bool.not_eq_false, List.isEmpty_iff] at closed
  rw [closed.2] at shard_kept
  exact shard_kept.complete closed.1

end GroupKept

/-- The reader of every shard hands out the bytes of its range. -/
theorem computeFileRanges_handsOut (data : Bytes) (instances chunkSize : Nat) :
    ∀ range ∈ computeFileRanges data instances, ∃ back,
      (rangeReader data chunkSize range).HandsOut (rangeText data range) back := by
  obtain ⟨rest, shape, growing, aligned⟩ := computeFileRanges_eq data instances
  rw [shape]
  exact rangesFrom_handsOut chunkSize growing aligned

/-- The lines of a shard are lines of the file. -/
theorem range_decodes {decoders : Decoders} {encode : FileEncoding} {data : Bytes}
    (decodes : none ∉ payloadsOf decoders encode data) (instances : Nat) :
    ∀ range ∈ computeFileRanges data instances,
      none ∉ payloadsOf decoders encode (rangeText data range) := by
  obtain ⟨rest, shape, growing, aligned⟩ := computeFileRanges_eq data instances
  rw [shape]
  intro range mem undecoded
  have lines := rangesFrom_lineChunks growing aligned
  rw [List.drop_zero] at lines
  refine decodes ?_
  unfold payloadsOf at undecoded ⊢
  obtain ⟨line, line_mem, line_none⟩ := List.mem_map.mp undecoded
  refine List.mem_map.mpr ⟨line, ?_, line_none⟩
  rw [← lines]
  exact List.mem_flatMap.mpr ⟨range, mem, line_mem⟩

theorem GroupKept.launch (decoders : Decoders) (src : MultiFileSource) (data : Bytes)
    {delivered : Nat → List SourceEvent} (none_yet : ∀ i, delivered i = []) :
    GroupKept decoders src.encode data src.instances delivered (src.launch data) := by
  constructor
  · simp [MultiFileSource.launch]
  · intro i range w range_eq worker_eq
    simp only [MultiFileSource.launch, List.getElem?_mapIdx, range_eq, Option.map_some,
      Option.some.injEq] at worker_eq
    subst worker_eq
    obtain ⟨back, hands⟩ := computeFileRanges_handsOut data src.instances
      (max minChunkBytes (min src.limits.2.2 maxChunkBytes)) range (List.mem_of_getElem? range_eq)
    refine ⟨rfl, ⟨_, back, hands, ?_, fun finished => by cases finished⟩, .inl ⟨rfl, ?_⟩⟩
    · rw [none_yet]
      rfl
    · intro m mem
      cases mem
  · intro entry mem
    cases mem
  · simp only [MultiFileSource.launch, List.length_mapIdx]
    rw [List.countP_eq_length.mpr]
    · rw [List.length_range]
    · intro i mem
      have inside := List.mem_range.mp mem
      simp [Group.isOpen, List.getElem?_eq_getElem inside]

namespace MultiReceiver

/-- The events that the completed calls returned from one shard of one file. -/
def delivered (s : MultiReceiver) (file shard : Nat) : List SourceEvent :=
  (s.returned.filter (fun entry => entry.1 == (file, shard))).flatMap (fun entry => entry.2)

/-- The file that a call is about to open. -/
def beingOpened (s : MultiReceiver) : List String :=
  match s.call with
  | .opening path _ => [path]
  | _ => []

/-- What a call has before it at each of its awaits; it never aborts a file. -/
def CallFits (files : String → Option Bytes) (group : Option Group) : MultiCall → Prop
  | .idle => True
  | .looping => True
  | .opening path data => files path = some data ∧ group = none
  | .awaitMessage => group ≠ none
  | .clearing => ∃ g, group = some g ∧ g.active = 0
  | .aborting => False

/-- No file is skipped, the shards of the current one are kept, and those of every file that was
    left are returned in full. -/
structure Lossless (decoders : Decoders) (files : String → Option Bytes) (paths : List String)
    (encode : FileEncoding) (instances : Nat) (s : MultiReceiver) : Prop where
  same_encode : s.source.encode = encode
  same_instances : s.source.instances = instances
  all_paths : s.settled.map Prod.fst ++ s.beingOpened ++ s.source.paths = paths
  current_file : ∀ g, s.source.group = some g → ∃ path data,
    s.settled.getLast? = some (path, true) ∧ files path = some data ∧
      GroupKept decoders encode data instances (s.delivered s.current) g
  left_files : ∀ n path data, s.settled[n]? = some (path, true) → files path = some data →
    s.source.group = none ∨ n + 1 < s.settled.length →
    ∀ i range, (computeFileRanges data instances)[i]? = some range →
      (s.delivered n i).map payloadOf = payloadsOf decoders encode (rangeText data range)
  later_files : ∀ n i, s.settled.length ≤ n → s.delivered n i = []
  calls : CallFits files s.source.group s.call

theorem delivered_append (s : MultiReceiver) (file shard : Nat) (events : SourceBatch)
    (source : MultiFileSource) (call : MultiCall) (n i : Nat) :
    ({ s with source, call, returned := s.returned ++ [((file, shard), events)] } :
        MultiReceiver).delivered n i =
      s.delivered n i ++ if file = n ∧ shard = i then events else [] := by
  unfold delivered
  by_cases same : file = n ∧ shard = i
  · simp [List.filter_append, same]
  · simp [List.filter_append, same]

section Steps
variable {decoders : Decoders} {files : String → Option Bytes} {paths : List String}
  {encode : FileEncoding} {instances : Nat} {s : MultiReceiver}

/-- Only the call changes, and no file is being opened before or after. -/
theorem Lossless.recall (lossless : Lossless decoders files paths encode instances s)
    {call : MultiCall} (before : s.beingOpened = [])
    (after : ({ s with call } : MultiReceiver).beingOpened = [])
    (calls : CallFits files s.source.group call) :
    Lossless decoders files paths encode instances { s with call } := by
  have all := lossless.all_paths
  rw [before] at all
  exact { lossless with all_paths := by rw [after]; exact all, calls := calls }

/-- A file is given up without being opened. -/
theorem Lossless.gives_up (lossless : Lossless decoders files paths encode instances s)
    {path : String} {rest : List String} (none_current : s.source.group = none)
    (split : s.settled.map Prod.fst ++ [path] ++ rest = paths) :
    Lossless decoders files paths encode instances
      { s with
        source := { s.source with paths := rest }
        call := .idle
        settled := s.settled ++ [(path, false)] } := by
  constructor
  · exact lossless.same_encode
  · exact lossless.same_instances
  · simpa [beingOpened] using split
  · intro g current
    rw [none_current] at current
    cases current
  · intro n path' data entry there _ i range range_eq
    rw [List.getElem?_append] at entry
    split at entry
    · exact lossless.left_files n path' data entry there (.inl none_current) i range range_eq
    · simp only [List.getElem?_singleton] at entry
      split at entry
      · cases entry
      · cases entry
  · intro n i later
    refine lossless.later_files n i ?_
    rw [List.length_append, List.length_singleton] at later
    omega
  · trivial

theorem Lossless.turn (lossless : Lossless decoders files paths encode instances s)
    (looping : s.call = .looping) :
    Lossless decoders files paths encode instances (s.turn files) := by
  have none_opened : s.beingOpened = [] := by simp only [beingOpened, looping]
  unfold MultiReceiver.turn
  cases current : s.source.group with
  | some g => exact lossless.recall none_opened rfl (by simp [CallFits, current])
  | none =>
    dsimp only
    have all := lossless.all_paths
    rw [none_opened, List.append_nil] at all
    cases next : s.source.paths with
    | nil => exact lossless.recall none_opened rfl trivial
    | cons path rest =>
      dsimp only
      rw [next] at all
      have split : s.settled.map Prod.fst ++ [path] ++ rest = paths := by
        rw [List.append_assoc]
        exact all
      cases there : files path with
      | none => exact lossless.gives_up current split
      | some data =>
        refine { lossless with all_paths := ?_, calls := ⟨there, current⟩ }
        exact split

theorem Lossless.opened (lossless : Lossless decoders files paths encode instances s)
    {path : String} {data : Bytes} (opening : s.call = .opening path data) :
    Lossless decoders files paths encode instances
      { s with
        source := { s.source with group := some (s.source.launch data) }
        call := .awaitMessage
        settled := s.settled ++ [(path, true)] } := by
  have fits := lossless.calls
  rw [opening] at fits
  obtain ⟨there, none_current⟩ := fits
  have all := lossless.all_paths
  simp only [beingOpened, opening] at all
  constructor
  · exact lossless.same_encode
  · exact lossless.same_instances
  · simpa [beingOpened] using all
  · intro g current
    cases current
    refine ⟨path, data, by simp, there, ?_⟩
    have none_yet : ∀ i, s.delivered s.settled.length i = [] :=
      fun i => lossless.later_files _ i le_rfl
    have launched := GroupKept.launch decoders s.source data none_yet
    rw [lossless.same_encode, lossless.same_instances] at launched
    have number : ({ s with settled := s.settled ++ [(path, true)] } : MultiReceiver).current =
        s.settled.length := by
      simp [MultiReceiver.current]
    change GroupKept decoders encode data instances
      (s.delivered ({ s with settled := s.settled ++ [(path, true)] } : MultiReceiver).current) _
    rw [number]
    exact launched
  · intro n path' data' entry there' left i range range_eq
    rcases left with none_left | earlier
    · cases none_left
    · rw [List.length_append, List.length_singleton] at earlier
      rw [List.getElem?_append_left (by omega)] at entry
      exact lossless.left_files n path' data' entry there' (.inl none_current) i range range_eq
  · intro n i later
    refine lossless.later_files n i ?_
    rw [List.length_append, List.length_singleton] at later
    omega
  · simp [CallFits]

/-- The group changes, but nothing is returned. -/
theorem Lossless.regroup (lossless : Lossless decoders files paths encode instances s)
    {g g' : Group} (current : s.source.group = some g) {call : MultiCall}
    (before : s.beingOpened = []) (after : ({ s with call } : MultiReceiver).beingOpened = [])
    (kept : ∀ path data, s.settled.getLast? = some (path, true) → files path = some data →
      GroupKept decoders encode data instances (s.delivered s.current) g →
      GroupKept decoders encode data instances (s.delivered s.current) g')
    (calls : CallFits files (some g') call) :
    Lossless decoders files paths encode instances
      { s with source := { s.source with group := some g' }, call } := by
  have all := lossless.all_paths
  rw [before] at all
  obtain ⟨path, data, last, there, group_kept⟩ := lossless.current_file g current
  constructor
  · exact lossless.same_encode
  · exact lossless.same_instances
  · have none_opened : ({ s with source := { s.source with group := some g' }, call } :
        MultiReceiver).beingOpened = [] := after
    rw [none_opened]
    exact all
  · intro h same
    cases same
    exact ⟨path, data, last, there, kept path data last there group_kept⟩
  · intro n path' data' entry there' left
    refine lossless.left_files n path' data' entry there' ?_
    rcases left with none_left | earlier
    · cases none_left
    · exact .inr earlier
  · exact lossless.later_files
  · exact calls

/-- A batch of the current file is returned. -/
theorem Lossless.returns (lossless : Lossless decoders files paths encode instances s)
    {g : Group} (current : s.source.group = some g) (before : s.beingOpened = []) {shard : Nat}
    {events : SourceBatch} {queue : List (Nat × ParallelSourceMsg)}
    (shape : g.queue = (shard, .batch events) :: queue) :
    Lossless decoders files paths encode instances
      { s with
        source := { s.source with group := some { g with queue } }
        call := .idle
        returned := s.returned ++ [((s.current, shard), events)] } := by
  have all := lossless.all_paths
  rw [before] at all
  obtain ⟨path, data, last, there, group_kept⟩ := lossless.current_file g current
  have some_file : s.settled ≠ [] := by
    rintro none_file
    rw [none_file] at last
    cases last
  have positive : 0 < s.settled.length := List.length_pos_of_ne_nil some_file
  constructor
  · exact lossless.same_encode
  · exact lossless.same_instances
  · exact all
  · intro h same
    cases same
    refine ⟨path, data, last, there, ?_⟩
    refine group_kept.delivers shape ?_ ?_
    · exact (delivered_append s s.current shard events _ _ s.current shard).trans (by simp)
    · intro i differs
      refine (delivered_append s s.current shard events _ _ s.current i).trans ?_
      rw [if_neg (fun both => differs both.2.symm), List.append_nil]
  · intro n path' data' entry there' left i range range_eq
    rcases left with none_left | earlier
    · cases none_left
    · have other : ¬ (s.current = n ∧ shard = i) := by
        rintro ⟨same, -⟩
        unfold MultiReceiver.current at same
        dsimp only at earlier
        omega
      rw [delivered_append, if_neg other, List.append_nil]
      exact lossless.left_files n path' data' entry there' (.inr earlier) i range range_eq
  · intro n i later
    have other : ¬ (s.current = n ∧ shard = i) := by
      rintro ⟨same, -⟩
      unfold MultiReceiver.current at same
      dsimp only at later
      omega
    rw [delivered_append, if_neg other, List.append_nil]
    exact lossless.later_files n i later
  · trivial

theorem Lossless.message (lossless : Lossless decoders files paths encode instances s)
    (waits : s.call = .awaitMessage) :
    Lossless decoders files paths encode instances s.message := by
  have none_opened : s.beingOpened = [] := by simp only [beingOpened, waits]
  unfold MultiReceiver.message
  cases current : s.source.group with
  | none => exact lossless
  | some g =>
    obtain ⟨path, data, last, there, group_kept⟩ := lossless.current_file g current
    dsimp only
    cases shape : g.queue with
    | nil =>
      dsimp only
      by_cases closed : g.Closed
      · have none_open := group_kept.closed_active shape closed
        rw [if_pos closed, if_pos none_open]
        exact lossless.recall none_opened rfl ⟨g, current, none_open⟩
      · rw [if_neg closed]
        exact lossless
    | cons entry queue =>
      obtain ⟨shard, m⟩ := entry
      cases m with
      | batch events => exact lossless.returns current none_opened shape
      | done =>
        dsimp only
        by_cases none_open : g.active - 1 = 0
        · rw [if_pos none_open]
          refine lossless.regroup current none_opened rfl (fun _ _ _ _ kept => kept.closes shape) ?_
          exact ⟨_, rfl, none_open⟩
        · rw [if_neg none_open]
          exact lossless.regroup current none_opened rfl (fun _ _ _ _ kept => kept.closes shape)
            trivial
      | err =>
        obtain ⟨w, worker_eq⟩ := group_kept.worker_of shape
        obtain ⟨range, range_eq⟩ := group_kept.range_of worker_eq
        exact absurd (group_kept.shard_of_head shape g.active worker_eq range_eq)
          (fun kept => kept.no_error)

theorem Lossless.tasksEnded (lossless : Lossless decoders files paths encode instances s)
    (clearing : s.call = .clearing) :
    Lossless decoders files paths encode instances
      { s with source := { s.source with group := none }, call := .looping } := by
  have fits := lossless.calls
  rw [clearing] at fits
  obtain ⟨g, current, none_open⟩ := fits
  obtain ⟨path, data, last, there, group_kept⟩ := lossless.current_file g current
  have all := lossless.all_paths
  simp only [beingOpened, clearing] at all
  constructor
  · exact lossless.same_encode
  · exact lossless.same_instances
  · exact all
  · intro h same
    cases same
  · intro n path' data' entry there' _ i range range_eq
    by_cases earlier : n + 1 < s.settled.length
    · exact lossless.left_files n path' data' entry there' (.inr earlier) i range range_eq
    · have inside : n < s.settled.length := (List.getElem?_eq_some_iff.mp entry).1
      have here : n = s.current := by
        unfold MultiReceiver.current
        omega
      have same : (path', true) = (path, true) := by
        rw [List.getLast?_eq_getElem?] at last
        rw [here] at entry
        exact Option.some.inj (entry.symm.trans last)
      cases same
      rw [there, Option.some.injEq] at there'
      subst there'
      rw [here]
      exact group_kept.complete none_open range_eq
  · exact lossless.later_files
  · trivial

/-- A call that is opening a file is not dropped there, and no read of a task fails. -/
def Undisturbed (s : MultiReceiver) : MultiStep → Prop
  | .drop => ∀ path data, s.call ≠ .opening path data
  | .work _ reads => .failed ∉ reads
  | _ => True

theorem CallFits.work {g : Group} {call : MultiCall} (fits : CallFits files (some g) call)
    (shard : Nat) (reads : List FileRead) :
    CallFits files (some (g.work decoders shard reads)) call := by
  cases call with
  | idle => trivial
  | looping => trivial
  | opening path data => cases fits.2
  | awaitMessage => simp [CallFits]
  | clearing =>
    obtain ⟨h, same, none_open⟩ := fits
    cases same
    exact ⟨_, rfl, (g.work_active decoders shard reads).trans none_open⟩
  | aborting => exact fits

theorem Lossless.step (decodes : ∀ path data, files path = some data →
      none ∉ payloadsOf decoders encode data)
    (lossless : Lossless decoders files paths encode instances s) {label : MultiStep}
    (undisturbed : Undisturbed s label) :
    Lossless decoders files paths encode instances (s.step decoders files label) := by
  unfold MultiReceiver.step
  cases label with
  | receive =>
    dsimp only
    split
    · rename_i idle
      exact lossless.recall (by simp only [beingOpened, idle]) rfl trivial
    · exact lossless
  | turn =>
    dsimp only
    split
    · rename_i looping
      exact lossless.turn looping
    · exact lossless
  | opened =>
    dsimp only
    split
    · rename_i path data opening
      exact lossless.opened opening
    · exact lossless
  | openFailed =>
    dsimp only
    split
    · rename_i path data opening
      have fits := lossless.calls
      rw [opening] at fits
      have all := lossless.all_paths
      simp only [beingOpened, opening] at all
      exact lossless.gives_up fits.2 all
    · exact lossless
  | message =>
    dsimp only
    split
    · rename_i waits
      exact lossless.message waits
    · exact lossless
  | tasksEnded =>
    dsimp only
    split
    · rename_i clearing
      exact lossless.tasksEnded clearing
    · split
      · rename_i aborting
        have fits := lossless.calls
        rw [aborting] at fits
        exact fits.elim
      · exact lossless
  | drop =>
    unfold dropCall
    cases call : s.call with
    | idle => exact lossless
    | looping => exact lossless
    | opening path data => exact absurd call (undisturbed path data)
    | awaitMessage => exact lossless.recall (by simp only [beingOpened, call]) rfl trivial
    | clearing => exact lossless.recall (by simp only [beingOpened, call]) rfl trivial
    | aborting => exact lossless.recall (by simp only [beingOpened, call]) rfl trivial
  | work shard reads =>
    dsimp only
    cases current : s.source.group with
    | none => exact lossless
    | some g =>
      have fits := lossless.calls
      rw [current] at fits
      have none_opened : s.beingOpened = [] := by
        cases call : s.call with
        | opening path data =>
          rw [call] at fits
          cases fits.2
        | _ => simp only [beingOpened, call]
      refine lossless.regroup current none_opened none_opened ?_ (fits.work shard reads)
      intro path data _ there kept
      exact kept.work (range_decodes (decodes path data there) instances) shard undisturbed

/-- In every run of undisturbed steps no file is skipped, and of every file that was taken up all
    lines are returned, in the channel or still to be read. -/
theorem run_lossless (decodes : ∀ path data, files path = some data →
      none ∉ payloadsOf decoders encode data)
    (start : Lossless decoders files paths encode instances s) (steps : List MultiStep)
    (undisturbed : Runs.AllSteps (MultiReceiver.step decoders files) Undisturbed s steps) :
    Lossless decoders files paths encode instances
      (Runs.run (MultiReceiver.step decoders files) s steps) :=
  Runs.run_invariant_of_allSteps (Lossless decoders files paths encode instances)
    (fun _ _ ok lossless => lossless.step decodes ok) steps s start undisturbed

end Steps

end MultiReceiver

end File

end WarpMotor
