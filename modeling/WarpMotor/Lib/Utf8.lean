import Mathlib.Data.List.Basic
import Mathlib.Data.List.Infix

/-!
Texts as their UTF-8 bytes. A slice of a text is taken by byte offsets and is
refused when an offset falls inside a character. An offset behind an ASCII byte
never does.
-/
namespace Utf8

def encode (text : List Char) : List UInt8 := text.flatMap String.utf8EncodeChar

/-- The byte is not the first of its character. -/
def isContinuation (b : UInt8) : Bool := 128 ≤ b && b < 192

def isBoundary (bytes : List UInt8) (i : Nat) : Bool :=
  i == 0 || (bytes[i]?.map (fun b => !isContinuation b)).getD (i == bytes.length)

/-- `none` where the program stops: an offset inside a character, or out of order. -/
def slice (bytes : List UInt8) (start stop : Nat) : Option (List UInt8) :=
  if start ≤ stop ∧ isBoundary bytes start = true ∧ isBoundary bytes stop = true then
    some ((bytes.take stop).drop start)
  else none

@[simp] theorem encode_nil : encode [] = [] := rfl

@[simp] theorem encode_cons (c : Char) (text : List Char) :
    encode (c :: text) = String.utf8EncodeChar c ++ encode text := rfl

theorem encode_append (first second : List Char) :
    encode (first ++ second) = encode first ++ encode second := List.flatMap_append

theorem byte_toNat_range {low high n : Nat} (least : low ≤ n) (most : n < high)
    (byte : high ≤ 256) : low ≤ (UInt8.ofNat n).toNat ∧ (UInt8.ofNat n).toNat < high := by
  rw [UInt8.toNat_ofNat_of_lt' (by omega : n < 256)]
  exact ⟨least, most⟩

theorem isContinuation_iff (b : UInt8) :
    isContinuation b = true ↔ 128 ≤ b.toNat ∧ b.toNat < 192 := by
  simp [isContinuation, UInt8.le_iff_toNat_le, UInt8.lt_iff_toNat_lt]

/-- A character is one byte below 128, or a first byte from 192 on with continuations behind it. -/
theorem encodeChar_cases (c : Char) :
    (∃ b : UInt8, b.toNat < 128 ∧ String.utf8EncodeChar c = [b]) ∨
    (∃ (b : UInt8) (rest : List UInt8), 192 ≤ b.toNat ∧
      (∀ b' ∈ rest, isContinuation b' = true) ∧ String.utf8EncodeChar c = b :: rest) := by
  have tail : ∀ v : Nat, isContinuation (UInt8.ofNat (v % 64 + 128)) = true := by
    intro v
    rw [isContinuation_iff]
    exact byte_toNat_range (by omega) (by omega) (by omega)
  have first : ∀ v, 192 ≤ v → v < 256 → 192 ≤ (UInt8.ofNat v).toNat := fun v least most =>
    (byte_toNat_range least most (Nat.le_refl _)).1
  unfold String.utf8EncodeChar
  dsimp only
  split
  · exact .inl ⟨_, (byte_toNat_range (Nat.zero_le _) (by omega) (by omega)).2, rfl⟩
  · right
    split
    · refine ⟨_, _, first _ (by omega) (by omega), ?_, rfl⟩
      simp only [List.mem_cons, List.not_mem_nil, or_false, forall_eq, tail]
    · split
      · refine ⟨_, _, first _ (by omega) (by omega), ?_, rfl⟩
        simp only [List.mem_cons, List.not_mem_nil, or_false, forall_eq_or_imp, forall_eq, tail,
          and_self]
      · refine ⟨_, _, first _ (by omega) (by omega), ?_, rfl⟩
        simp only [List.mem_cons, List.not_mem_nil, or_false, forall_eq_or_imp, forall_eq, tail,
          and_self]

theorem isContinuation_first {c : Char} {b : UInt8} {rest : List UInt8}
    (encoded : String.utf8EncodeChar c = b :: rest) : isContinuation b = false := by
  rw [Bool.eq_false_iff, Ne, isContinuation_iff]
  obtain ⟨b', low, single⟩ | ⟨b', rest', high, -, wide⟩ := encodeChar_cases c
  · rw [encoded] at single
    cases single
    omega
  · rw [encoded] at wide
    cases wide
    omega

theorem isBoundary_iff {bytes : List UInt8} {i : Nat} :
    isBoundary bytes i = true ↔
      i = 0 ∨ i = bytes.length ∨ ∃ b, bytes[i]? = some b ∧ isContinuation b = false := by
  unfold isBoundary
  cases byte : bytes[i]? with
  | none => simp
  | some b =>
    have inside : i ≠ bytes.length := by
      rintro rfl
      simp at byte
    simp [inside]

theorem isBoundary_length (bytes : List UInt8) : isBoundary bytes bytes.length = true := by
  simp [isBoundary_iff]

theorem le_of_isBoundary {bytes : List UInt8} {i : Nat} (boundary : isBoundary bytes i = true) :
    i ≤ bytes.length := by
  obtain start | last | ⟨b, byte, -⟩ := isBoundary_iff.mp boundary
  · omega
  · omega
  · exact Nat.le_of_lt (List.getElem?_eq_some_iff.mp byte).1

theorem isBoundary_encode (before after : List Char) :
    isBoundary (encode (before ++ after)) (encode before).length = true := by
  rw [encode_append]
  cases after with
  | nil =>
    rw [encode_nil, List.append_nil]
    exact isBoundary_length _
  | cons c after =>
    cases encoded : String.utf8EncodeChar c with
    | nil => exact absurd encoded String.utf8EncodeChar_ne_nil
    | cons b rest =>
      have here : (encode before ++ encode (c :: after))[(encode before).length]? = some b := by
        rw [encode_cons, encoded, List.cons_append, List.getElem?_append_right (Nat.le_refl _)]
        simp
      exact isBoundary_iff.mpr (.inr (.inr ⟨b, here, isContinuation_first encoded⟩))

/-- A boundary stands between two characters. -/
theorem split_of_isBoundary {text : List Char} {i : Nat}
    (boundary : isBoundary (encode text) i = true) :
    ∃ before after, text = before ++ after ∧ (encode before).length = i := by
  induction text generalizing i with
  | nil =>
    refine ⟨[], [], rfl, ?_⟩
    simp [isBoundary_iff] at boundary
    simp [boundary]
  | cons c text ih =>
    rcases Nat.eq_zero_or_pos i with rfl | inside
    · exact ⟨[], c :: text, rfl, rfl⟩
    · by_cases behind : (String.utf8EncodeChar c).length ≤ i
      · have later : isBoundary (encode text) (i - (String.utf8EncodeChar c).length) = true := by
          rw [isBoundary_iff] at boundary ⊢
          obtain none_left | last | ⟨b, byte, first⟩ := boundary
          · omega
          · rw [encode_cons, List.length_append] at last
            exact .inr (.inl (by omega))
          · rw [encode_cons, List.getElem?_append_right behind] at byte
            exact .inr (.inr ⟨b, byte, first⟩)
        obtain ⟨before, after, rfl, offset⟩ := ih later
        refine ⟨c :: before, after, rfl, ?_⟩
        rw [encode_cons, List.length_append, offset]
        omega
      · -- Inside the character stands a continuation.
        exfalso
        have less : i < (String.utf8EncodeChar c).length := by omega
        have byte : (encode (c :: text))[i]? = some (String.utf8EncodeChar c)[i] := by
          rw [encode_cons, List.getElem?_append_left less, List.getElem?_eq_getElem less]
        obtain ⟨b, -, single⟩ | ⟨b, rest, -, continued, wide⟩ := encodeChar_cases c
        · rw [single] at less
          simp at less
          omega
        · have tail : isContinuation (String.utf8EncodeChar c)[i] = true := by
            apply continued
            simp only [wide]
            rw [List.getElem_cons, dif_neg (by omega)]
            exact List.getElem_mem _
          obtain none_left | last | ⟨b', byte', first⟩ := isBoundary_iff.mp boundary
          · omega
          · rw [encode_cons, List.length_append] at last
            omega
          · rw [byte] at byte'
            cases byte'
            rw [tail] at first
            cases first

/-- Behind an ASCII byte the next character begins. -/
theorem isBoundary_after_ascii {text : List Char} {i : Nat} {b : UInt8}
    (byte : (encode text)[i]? = some b) (ascii : b.toNat < 128) :
    isBoundary (encode text) (i + 1) = true := by
  suffices split : ∃ before c after, text = before ++ c :: after ∧
      (encode before).length = i ∧ (String.utf8EncodeChar c).length = 1 by
    obtain ⟨before, c, after, rfl, offset, single⟩ := split
    have boundary := isBoundary_encode (before ++ [c]) after
    simp only [List.append_assoc, List.singleton_append] at boundary
    simpa [encode_append, offset, single] using boundary
  induction text generalizing i with
  | nil => simp at byte
  | cons c text ih =>
    by_cases behind : (String.utf8EncodeChar c).length ≤ i
    · rw [encode_cons, List.getElem?_append_right behind] at byte
      obtain ⟨before, c', after, rfl, offset, single⟩ := ih byte
      refine ⟨c :: before, c', after, rfl, ?_, single⟩
      rw [encode_cons, List.length_append, offset]
      omega
    · have less : i < (String.utf8EncodeChar c).length := by omega
      rw [encode_cons, List.getElem?_append_left less] at byte
      obtain ⟨b', -, single⟩ | ⟨b', rest, high, continued, wide⟩ := encodeChar_cases c
      · rw [single] at less
        simp at less
        subst less
        exact ⟨[], c, text, rfl, rfl, by simp [single]⟩
      · -- Every byte of a wide character is above the ASCII ones.
        exfalso
        rw [wide] at byte
        cases i with
        | zero =>
          cases byte
          omega
        | succ i =>
          have tail := (isContinuation_iff b).mp (continued b (List.mem_of_getElem? byte))
          omega

/-! Slices of the characters themselves. -/

def takeBytes : List Char → Nat → Option (List Char)
  | _, 0 => some []
  | [], _ + 1 => none
  | c :: text, n + 1 =>
    if c.utf8Size ≤ n + 1 then (takeBytes text (n + 1 - c.utf8Size)).map (c :: ·) else none

def dropBytes : List Char → Nat → Option (List Char)
  | text, 0 => some text
  | [], _ + 1 => none
  | c :: text, n + 1 =>
    if c.utf8Size ≤ n + 1 then dropBytes text (n + 1 - c.utf8Size) else none

def sliceText (text : List Char) (start stop : Nat) : Option (List Char) :=
  if start ≤ stop then (takeBytes text stop).bind (dropBytes · start) else none

theorem takeBytes_encode (front back : List Char) :
    takeBytes (front ++ back) (encode front).length = some front := by
  induction front with
  | nil => cases back <;> rfl
  | cons c front ih =>
    have positive := c.utf8Size_pos
    obtain ⟨n, size⟩ : ∃ n, c.utf8Size + (encode front).length = n + 1 :=
      ⟨_, (Nat.succ_pred_eq_of_pos (by omega)).symm⟩
    have left : n + 1 - c.utf8Size = (encode front).length := by omega
    rw [encode_cons, List.length_append, String.length_utf8EncodeChar, size, List.cons_append,
      takeBytes, if_pos (by omega), left, ih]
    rfl

theorem dropBytes_encode (front back : List Char) :
    dropBytes (front ++ back) (encode front).length = some back := by
  induction front with
  | nil => cases back <;> rfl
  | cons c front ih =>
    have positive := c.utf8Size_pos
    obtain ⟨n, size⟩ : ∃ n, c.utf8Size + (encode front).length = n + 1 :=
      ⟨_, (Nat.succ_pred_eq_of_pos (by omega)).symm⟩
    have left : n + 1 - c.utf8Size = (encode front).length := by omega
    rw [encode_cons, List.length_append, String.length_utf8EncodeChar, size, List.cons_append,
      dropBytes, if_pos (by omega), left, ih]

/-- Between boundaries the slice of the characters is that of the bytes. -/
theorem sliceText_eq {text : List Char} {start : Nat}
    (boundary : isBoundary (encode text) start = true) :
    ∃ inner, sliceText text start (encode text).length = some inner ∧
      encode inner = (encode text).drop start := by
  obtain ⟨front, back, rfl, rfl⟩ := split_of_isBoundary boundary
  have whole := takeBytes_encode (front ++ back) []
  rw [List.append_nil] at whole
  refine ⟨back, ?_, ?_⟩
  · rw [sliceText, if_pos (le_of_isBoundary boundary), whole, Option.bind_some,
      dropBytes_encode]
  · rw [encode_append, List.drop_left]

theorem isValidUTF8_iff (bytes : List UInt8) :
    (ByteArray.mk bytes.toArray).IsValidUTF8 ↔ ∃ text, bytes = encode text := by
  constructor
  · rintro ⟨text, same⟩
    refine ⟨text, ?_⟩
    have data := congrArg (fun array : ByteArray => array.data.toList) same
    simpa [List.utf8Encode, encode] using data
  · rintro ⟨text, rfl⟩
    exact ⟨text, by ext1; simp [List.utf8Encode, encode]⟩

end Utf8
