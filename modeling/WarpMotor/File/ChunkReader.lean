import Mathlib.Data.List.DropRight
import WarpMotor.Lib.Fuel
import WarpMotor.Tcp.Framing

/-!
The line reader of the file sources. A file handle gives the bytes behind its
position in reads of any size, a `BufReader` holds what the last read brought,
and `read_until` appends to `buf` up to and including a newline. Every read of
the file is an await: a list of reads that ends leaves the call waiting there.
An optional limit says how many bytes the reader may still hand out.
-/
namespace WarpMotor

open Framing

namespace File

/-- What the file gives to one read: at most so many bytes, or an error. -/
inductive FileRead where
  | upTo (bytes : Nat)
  | failed
  deriving DecidableEq, Repr

/-- `file` is what lies behind the position of the handle, `buffered` what the `BufReader` holds. -/
structure ChunkedLineReader where
  file : Bytes
  buffered : Bytes
  capacity : Nat
  buf : Bytes
  remaining : Option Nat
  deriving DecidableEq, Repr

inductive LineResult where
  | line (text : Bytes)
  | eof
  | pending
  | failed
  deriving DecidableEq, Repr

def trimCrlf (buf : Bytes) : Bytes := buf.rdropWhile (fun b => b == newline || b == carriageReturn)

namespace ChunkedLineReader

def new (file : Bytes) (chunkSize : Nat) (limit : Option Nat) : ChunkedLineReader :=
  { file, buffered := [], capacity := max chunkSize (4 * 1024), buf := [], remaining := limit }

/-- How the wait for a line ended. -/
inductive Progress where
  | done | pending | failed
  deriving DecidableEq, Repr

/-- Everything that is buffered goes to `buf`. -/
def collect (r : ChunkedLineReader) : ChunkedLineReader :=
  { r with buf := r.buf ++ r.buffered, buffered := [] }

/-- One read of the file into the empty buffer. -/
def refill (r : ChunkedLineReader) (bytes : Nat) : ChunkedLineReader :=
  let got := max 1 (min bytes r.capacity)
  { r with buffered := r.file.take got, file := r.file.drop got }

/-- What is buffered goes to `buf` up to a newline; without one the file is read again. A read
    that brings nothing is the end of the file. -/
def readUntil : List FileRead → ChunkedLineReader → ChunkedLineReader × List FileRead × Progress
  | reads, r =>
    match splitNewline r.buffered with
    | some (line, rest) =>
      ({ r with buf := r.buf ++ (line ++ [newline]), buffered := rest }, reads, .done)
    | none =>
      match reads with
      | [] => (r.collect, [], .pending)
      | .failed :: reads => (r.collect, reads, .failed)
      | .upTo bytes :: reads =>
        if r.file = [] then (r.collect, reads, .done)
        else readUntil reads (r.collect.refill bytes)

/-- The line that `buf` holds, cut at the limit, and what the limit leaves. -/
def takeLine (r : ChunkedLineReader) : ChunkedLineReader × Bytes :=
  match r.remaining with
  | none => ({ r with buf := [] }, trimCrlf r.buf)
  | some rem =>
    if rem ≤ r.buf.length then
      ({ r with buf := [], remaining := some 0 }, trimCrlf (r.buf.take (min rem r.buf.length)))
    else ({ r with buf := [], remaining := some (rem - r.buf.length) }, trimCrlf r.buf)

def nextLine (reads : List FileRead) (r : ChunkedLineReader) :
    ChunkedLineReader × List FileRead × LineResult :=
  if r.remaining = some 0 then (r, reads, .eof)
  else
    match readUntil reads { r with buf := [] } with
    | (r, reads, .pending) => (r, reads, .pending)
    | (r, reads, .failed) => (r, reads, .failed)
    | (r, reads, .done) =>
      if r.buf = [] then (r, reads, .eof)
      else
        let taken := r.takeLine
        (taken.1, reads, .line taken.2)

/-- Calls of `next_line` until it answers `None`; no result while a call waits or fails. -/
def lines : Nat → List FileRead → ChunkedLineReader → Option (List Bytes)
  | 0, _, _ => none
  | fuel + 1, reads, r =>
    match nextLine reads r with
    | (r, reads, .line text) => (lines fuel reads r).map (text :: ·)
    | (_, _, .eof) => some []
    | (_, _, .pending) => none
    | (_, _, .failed) => none

end ChunkedLineReader

/-- The lines of a text, each with its newline; the last one may have none. -/
def lineChunks : Bytes → List Bytes
  | [] => []
  | b :: rest =>
    if b = newline then [b] :: lineChunks rest
    else
      match lineChunks rest with
      | [] => [[b]]
      | line :: others => (b :: line) :: others

/-- The text ends where a line ends, so that what follows it begins a line. -/
def EndsLine (text : Bytes) : Prop := text = [] ∨ text.getLast? = some newline

theorem EndsLine.newline_mem {text : Bytes} (ends : EndsLine text) (some_text : text ≠ []) :
    newline ∈ text := by
  rcases ends with empty | final
  · exact absurd empty some_text
  · exact List.mem_of_getLast? final

theorem EndsLine.of_append {line text : Bytes} (ends : EndsLine (line ++ text)) : EndsLine text := by
  cases text with
  | nil => exact .inl rfl
  | cons b rest =>
    rcases ends with empty | final
    · simp at empty
    · exact .inr (by simpa [List.getLast?_append] using final)

theorem lineChunks_ne_nil {text : Bytes} (some_text : text ≠ []) : lineChunks text ≠ [] := by
  cases text with
  | nil => exact absurd rfl some_text
  | cons b rest =>
    unfold lineChunks
    split
    · exact List.cons_ne_nil _ _
    · cases lineChunks rest with
      | nil => exact List.cons_ne_nil _ _
      | cons line others => exact List.cons_ne_nil _ _

theorem lineChunks_append {front : Bytes} (ends : EndsLine front) (back : Bytes) :
    lineChunks (front ++ back) = lineChunks front ++ lineChunks back := by
  induction front with
  | nil => rfl
  | cons b rest ih =>
    by_cases last : b = newline
    · have rest_ends : EndsLine rest := by
        cases rest with
        | nil => exact .inl rfl
        | cons c others =>
          rcases ends with empty | final
          · cases empty
          · exact .inr (by simpa using final)
      simp only [List.cons_append, lineChunks, last, if_true, ih rest_ends]
    · have rest_ne : rest ≠ [] := by
        rintro rfl
        rcases ends with empty | final
        · cases empty
        · exact last (by simpa using final)
      have rest_ends : EndsLine rest := by
        rcases ends with empty | final
        · cases empty
        · right
          cases rest with
          | nil => exact absurd rfl rest_ne
          | cons c others => simpa using final
      obtain ⟨line, others, shape⟩ := List.exists_cons_of_ne_nil (lineChunks_ne_nil rest_ne)
      simp only [List.cons_append, lineChunks, if_neg last, ih rest_ends, shape]

/-- What stands before the first newline, with it, is the first line. -/
theorem lineChunks_line {line : Bytes} (clean : newline ∉ line) (rest : Bytes) :
    lineChunks ((line ++ [newline]) ++ rest) = (line ++ [newline]) :: lineChunks rest := by
  induction line with
  | nil => simp [lineChunks]
  | cons b more ih =>
    rw [List.mem_cons, not_or] at clean
    have inner := ih clean.2
    simp only [List.cons_append, lineChunks, if_neg (Ne.symm clean.1), inner]

theorem lineChunks_tail {text : Bytes} (clean : newline ∉ text) (some_text : text ≠ []) :
    lineChunks text = [text] := by
  induction text with
  | nil => exact absurd rfl some_text
  | cons b more ih =>
    rw [List.mem_cons, not_or] at clean
    cases more with
    | nil => simp [lineChunks, Ne.symm clean.1]
    | cons c others =>
      have inner := ih clean.2 (List.cons_ne_nil _ _)
      rw [lineChunks, if_neg (Ne.symm clean.1), inner]

namespace ChunkedLineReader

/-- What the reader has not handed out yet. -/
def content (r : ChunkedLineReader) : Bytes := r.buffered ++ r.file

/-- `line` went from the content to `buf`: a line with its newline, or all that was left. -/
structure LineRead (r r' : ChunkedLineReader) (line : Bytes) : Prop where
  same_limit : r'.remaining = r.remaining
  added : r'.buf = r.buf ++ line
  taken : r.content = line ++ r'.content
  shape : (∃ body, line = body ++ [newline] ∧ newline ∉ body) ∨ newline ∉ line ∧ r'.content = []

theorem content_refill (r : ChunkedLineReader) (bytes : Nat) :
    (r.collect.refill bytes).content = r.file :=
  List.take_append_drop _ r.file

theorem LineRead.cut_line {r : ChunkedLineReader} {line rest : Bytes}
    (cut : splitNewline r.buffered = some (line, rest)) :
    LineRead r { r with buf := r.buf ++ (line ++ [newline]), buffered := rest }
      (line ++ [newline]) := by
  obtain ⟨whole, clean⟩ := splitNewline_eq_some.mp cut
  constructor
  · rfl
  · rfl
  · simp [content, whole]
  · exact .inl ⟨line, rfl, clean⟩

theorem LineRead.last {r : ChunkedLineReader} (none_in : splitNewline r.buffered = none)
    (at_end : r.file = []) : LineRead r r.collect r.buffered := by
  constructor
  · rfl
  · rfl
  · simp [content, collect]
  · exact .inr ⟨splitNewline_eq_none.mp none_in, by simp [content, collect, at_end]⟩

/-- A line that began in the buffer goes on in the next read. -/
theorem LineRead.more {r r' : ChunkedLineReader} {line : Bytes} {bytes : Nat}
    (none_in : splitNewline r.buffered = none) (later : LineRead (r.collect.refill bytes) r' line) :
    LineRead r r' (r.buffered ++ line) := by
  have clean := splitNewline_eq_none.mp none_in
  have rest := later.taken
  rw [content_refill] at rest
  constructor
  · exact later.same_limit
  · rw [later.added, ← List.append_assoc]
    rfl
  · rw [content, rest, List.append_assoc]
  · rcases later.shape with ⟨body, rfl, body_clean⟩ | ⟨line_clean, empty⟩
    · exact .inl ⟨r.buffered ++ body, by simp, by simp [clean, body_clean]⟩
    · exact .inr ⟨by simp [clean, line_clean], empty⟩

theorem readUntil_done {reads reads' : List FileRead} {r r' : ChunkedLineReader}
    (done : readUntil reads r = (r', reads', .done)) : ∃ line, LineRead r r' line := by
  induction reads generalizing r with
  | nil =>
    unfold readUntil at done
    cases cut : splitNewline r.buffered with
    | some parts =>
      rw [cut] at done
      cases done
      exact ⟨_, LineRead.cut_line cut⟩
    | none =>
      rw [cut] at done
      cases done
  | cons read reads ih =>
    unfold readUntil at done
    cases cut : splitNewline r.buffered with
    | some parts =>
      rw [cut] at done
      cases done
      exact ⟨_, LineRead.cut_line cut⟩
    | none =>
      rw [cut] at done
      cases read with
      | failed => cases done
      | upTo bytes =>
        dsimp only at done
        split at done
        · rename_i at_end
          cases done
          exact ⟨_, LineRead.last cut at_end⟩
        · obtain ⟨line, later⟩ := ih done
          exact ⟨_, LineRead.more cut later⟩

/-- Every read brings a byte or finds the end of the file, so the wait ends when there are more
    reads than bytes; only the last line costs one read more than its bytes. -/
theorem readUntil_returns (sizes : List Nat) (r : ChunkedLineReader)
    (enough : r.file.length < sizes.length) :
    ∃ (r' : ChunkedLineReader) (left : List Nat),
      readUntil (sizes.map .upTo) r = (r', left.map .upTo, .done) ∧
      (sizes.length + r'.file.length ≤ left.length + r.file.length ∨
        r'.content = [] ∧ sizes.length ≤ left.length + r.file.length + 1) := by
  induction sizes generalizing r with
  | nil => simp at enough
  | cons bytes sizes ih =>
    unfold readUntil
    cases cut : splitNewline r.buffered with
    | some parts => exact ⟨_, bytes :: sizes, rfl, .inl (by simp)⟩
    | none =>
      simp only [List.map_cons]
      split
      · rename_i at_end
        refine ⟨_, sizes, rfl, .inr ⟨?_, by simp⟩⟩
        simp [content, collect, at_end]
      · rename_i some_left
        have shorter : (r.collect.refill bytes).file.length < r.file.length := by
          have positive : 0 < r.file.length := List.length_pos_of_ne_nil some_left
          have moved : 1 ≤ max 1 (min bytes r.capacity) := Nat.le_max_left ..
          simp only [refill, collect, List.length_drop]
          omega
        rw [List.length_cons] at enough
        obtain ⟨r', left, returns, cost⟩ := ih (r.collect.refill bytes) (by omega)
        refine ⟨r', left, returns, ?_⟩
        rw [List.length_cons]
        rcases cost with paid | ⟨empty, paid⟩
        · exact .inl (by omega)
        · exact .inr ⟨empty, by omega⟩

/-- The reader still hands out `front` and leaves `back` to another one: it has no limit and
    nothing is left, or its limit stands where a line ends. -/
structure HandsOut (r : ChunkedLineReader) (front back : Bytes) : Prop where
  whole : r.content = front ++ back
  limit : r.remaining = none ∧ back = [] ∨ r.remaining = some front.length ∧ EndsLine front

theorem HandsOut.ends {r : ChunkedLineReader} {front back : Bytes} (hands : HandsOut r front back) :
    back = [] ∨ EndsLine front := by
  rcases hands.limit with ⟨-, all⟩ | ⟨-, ends⟩
  · exact .inl all
  · exact .inr ends

/-- The line that was read is the first one of what the reader hands out. -/
theorem LineRead.first_line {r r' : ChunkedLineReader} {line front back : Bytes}
    (read : LineRead r r' line) (whole : r.content = front ++ back)
    (ends : back = [] ∨ EndsLine front) (some_left : front ≠ []) :
    ∃ front', front = line ++ front' ∧ r'.content = front' ++ back ∧ line ≠ [] ∧
      lineChunks front = line :: lineChunks front' := by
  have split : line ++ r'.content = front ++ back := read.taken.symm.trans whole
  rcases read.shape with ⟨body, rfl, clean⟩ | ⟨clean, empty⟩
  · have within : newline ∈ front := by
      rcases ends with rfl | ends
      · rw [List.append_nil] at split
        rw [← split]
        simp
      · exact ends.newline_mem some_left
    cases cut : splitNewline front with
    | none => exact absurd within (splitNewline_eq_none.mp cut)
    | some parts =>
      obtain ⟨before, after⟩ := parts
      have here := splitNewline_append back cut
      have there : splitNewline (front ++ back) = some (body, r'.content) :=
        splitNewline_eq_some.mpr ⟨by rw [← split]; simp, clean⟩
      rw [here, Option.some.injEq, Prod.mk.injEq] at there
      obtain ⟨rfl, rest⟩ := there
      have front_eq := (splitNewline_eq_some.mp cut).1
      refine ⟨after, by simp [front_eq], rest.symm, by simp, ?_⟩
      rw [← lineChunks_line clean after, front_eq]
      simp
  · rw [empty, List.append_nil] at split
    have all : back = [] := by
      rcases ends with all | ends
      · exact all
      · have within := ends.newline_mem some_left
        exact absurd (by rw [split]; exact List.mem_append_left _ within) clean
    rw [all, List.append_nil] at split
    subst split
    refine ⟨[], by simp, by simp [empty, all], some_left, ?_⟩
    rw [lineChunks_tail clean some_left, lineChunks]

theorem takeLine_of_handsOut {r r' : ChunkedLineReader} {line front' back : Bytes}
    (hands : HandsOut r (line ++ front') back) (read : LineRead { r with buf := [] } r' line)
    (rest : r'.content = front' ++ back) :
    HandsOut r'.takeLine.1 front' back ∧ r'.takeLine.2 = trimCrlf line := by
  have held : r'.buf = line := read.added
  have same : r'.remaining = r.remaining := read.same_limit
  unfold takeLine
  rcases hands.limit with ⟨no_limit, all⟩ | ⟨limit, ends⟩
  · rw [same, no_limit]
    exact ⟨⟨rest, .inl ⟨rfl, all⟩⟩, congrArg trimCrlf held⟩
  · rw [same, limit, List.length_append]
    dsimp only
    rw [held]
    split
    · rename_i covered
      have none_left : front' = [] := List.eq_nil_of_length_eq_zero (by omega)
      subst none_left
      exact ⟨⟨rest, .inr ⟨rfl, .inl rfl⟩⟩, by simp⟩
    · exact ⟨⟨rest, .inr ⟨by simp, ends.of_append⟩⟩, rfl⟩

theorem takeLine_content (r : ChunkedLineReader) :
    r.takeLine.1.file = r.file ∧ r.takeLine.1.buffered = r.buffered := by
  unfold takeLine
  split
  · exact ⟨rfl, rfl⟩
  · split
    · exact ⟨rfl, rfl⟩
    · exact ⟨rfl, rfl⟩

/-- What `next_line` answers when its wait is over: the first line that is left, or `None`. -/
theorem nextLine_done {r r' : ChunkedLineReader} {front back : Bytes} {reads left : List FileRead}
    (hands : HandsOut r front back) (open_limit : r.remaining ≠ some 0)
    (done : readUntil reads { r with buf := [] } = (r', left, .done)) :
    (front = [] ∧ nextLine reads r = (r', left, .eof) ∧ HandsOut r' [] back) ∨
      ∃ line front', front = line ++ front' ∧ line ≠ [] ∧
        lineChunks front = line :: lineChunks front' ∧
        nextLine reads r = (r'.takeLine.1, left, .line (trimCrlf line)) ∧
        HandsOut r'.takeLine.1 front' back := by
  obtain ⟨line, read⟩ := readUntil_done done
  have held : r'.buf = line := read.added
  unfold nextLine
  rw [if_neg open_limit, done]
  dsimp only
  by_cases none_left : front = []
  · left
    have all : back = [] := by
      rcases hands.limit with ⟨-, all⟩ | ⟨limit, -⟩
      · exact all
      · rw [none_left] at limit
        exact absurd limit open_limit
    have split := read.taken.symm.trans hands.whole
    rw [none_left, all] at split
    obtain ⟨nothing, none_after⟩ := List.append_eq_nil_iff.mp split
    refine ⟨none_left, ?_, ?_⟩
    · rw [if_pos (held.trans nothing)]
    · constructor
      · rw [none_after, all]
        rfl
      · rw [read.same_limit]
        have limit := hands.limit
        rw [none_left] at limit
        exact limit
  · right
    obtain ⟨front', rfl, rest, some_line, chunks⟩ :=
      read.first_line hands.whole hands.ends none_left
    obtain ⟨left_out, text⟩ := takeLine_of_handsOut hands read rest
    refine ⟨line, front', rfl, some_line, chunks, ?_, left_out⟩
    rw [if_neg (by rwa [held]), text]

theorem nextLine_spent {r : ChunkedLineReader} {front back : Bytes} (hands : HandsOut r front back)
    (spent : r.remaining = some 0) (reads : List FileRead) :
    front = [] ∧ nextLine reads r = (r, reads, .eof) := by
  constructor
  · rcases hands.limit with ⟨no_limit, -⟩ | ⟨limit, -⟩
    · rw [no_limit] at spent
      cases spent
    · rw [limit, Option.some.injEq] at spent
      exact List.eq_nil_of_length_eq_zero spent
  · exact if_pos spent

/-- A call of `next_line` with enough reads answers the first line that is left, or `None`. -/
theorem nextLine_of_handsOut {r : ChunkedLineReader} {front back : Bytes} {sizes : List Nat}
    (hands : HandsOut r front back) (enough : r.file.length < sizes.length) :
    (∃ (r' : ChunkedLineReader) (left : List FileRead),
        front = [] ∧ nextLine (sizes.map .upTo) r = (r', left, .eof)) ∨
      ∃ (r' : ChunkedLineReader) (left : List Nat) (line front' : Bytes),
        front = line ++ front' ∧ line ≠ [] ∧ lineChunks front = line :: lineChunks front' ∧
        nextLine (sizes.map .upTo) r = (r', left.map .upTo, .line (trimCrlf line)) ∧
        HandsOut r' front' back ∧
        (sizes.length + r'.file.length ≤ left.length + r.file.length ∨
          r'.content = [] ∧ sizes.length ≤ left.length + r.file.length + 1) := by
  by_cases spent : r.remaining = some 0
  · obtain ⟨none_left, answer⟩ := nextLine_spent hands spent (sizes.map .upTo)
    exact .inl ⟨_, _, none_left, answer⟩
  · obtain ⟨r', left, returns, cost⟩ := readUntil_returns sizes { r with buf := [] } enough
    rcases nextLine_done hands spent returns with
      ⟨none_left, answer, -⟩ | ⟨line, front', split, some_line, chunks, answer, later⟩
    · exact .inl ⟨_, _, none_left, answer⟩
    · refine .inr ⟨_, left, line, front', split, some_line, chunks, answer, later, ?_⟩
      obtain ⟨same_file, same_buffered⟩ := takeLine_content r'
      rw [content, same_file, same_buffered]
      exact cost

/-- The reader hands out the lines of `front`, whatever the sizes of the reads are. -/
theorem lines_of_handsOut {r : ChunkedLineReader} {front back : Bytes} {sizes : List Nat}
    {fuel : Nat} (hands : HandsOut r front back) (calls : front.length < fuel)
    (enough : r.file.length + 1 < sizes.length ∨ r.content = [] ∧ 0 < sizes.length) :
    lines fuel (sizes.map .upTo) r = some ((lineChunks front).map trimCrlf) := by
  induction fuel generalizing r front sizes with
  | zero => omega
  | succ fuel ih =>
    have reads : r.file.length < sizes.length := by
      rcases enough with many | ⟨empty, one⟩
      · omega
      · have none_left : r.file = [] := (List.append_eq_nil_iff.mp empty).2
        rw [none_left]
        exact one
    unfold lines
    rcases nextLine_of_handsOut hands reads with
      ⟨r', left, rfl, answer⟩ | ⟨r', left, line, front', rfl, some_line, chunks, answer, later, cost⟩
    · rw [answer]
      rfl
    · rw [answer, chunks]
      have longer : 0 < line.length := List.length_pos_of_ne_nil some_line
      rw [List.length_append] at calls
      dsimp only
      have spent : r'.file.length + 1 < left.length ∨ r'.content = [] ∧ 0 < left.length := by
        rcases enough with many | ⟨empty, -⟩
        · rcases cost with paid | ⟨empty, paid⟩
          · exact .inl (by omega)
          · exact .inr ⟨empty, by omega⟩
        · have nothing := hands.whole.symm.trans empty
          simp only [List.append_eq_nil_iff] at nothing
          exact absurd nothing.1.1 some_line
      rw [ih later (by omega) spent]
      rfl

end ChunkedLineReader

end File

end WarpMotor
