import WarpMotor.Lib.Cursor
import WarpMotor.Lib.Utf8

/-!
A text scanned by the indexes of its bytes. A byte below 128 stands for its
own character and no other character has it, so a scan that looks for such
bytes never stops inside a character.
-/
namespace Utf8

theorem encodeChar_ascii {c : Char} (ascii : c.toNat < 128) :
    String.utf8EncodeChar c = [c.toUInt8] := by
  have small : c.val.toNat ≤ 127 := Nat.le_of_lt_succ ascii
  unfold String.utf8EncodeChar
  dsimp only
  rw [if_pos small]
  rfl

theorem toUInt8_toNat {c : Char} (ascii : c.toNat < 128) : c.toUInt8.toNat = c.toNat := by
  have modulo : c.toUInt8.toNat = c.val.toNat % 256 := rfl
  have same : c.val.toNat = c.toNat := rfl
  omega

theorem toUInt8_inj {c d : Char} (narrow : c.toNat < 128) (ascii : d.toNat < 128) :
    c.toUInt8 = d.toUInt8 ↔ c = d := by
  constructor
  · intro same
    have numbers := congrArg UInt8.toNat same
    rw [toUInt8_toNat narrow, toUInt8_toNat ascii] at numbers
    exact Char.toNat_inj.mp numbers
  · rintro rfl
    rfl

/-- A character that is not of ASCII begins with a byte from 192 on, and has no small byte. -/
theorem encodeChar_wide {c : Char} (wide : 128 ≤ c.toNat) :
    ∃ b rest, String.utf8EncodeChar c = b :: rest ∧ 192 ≤ b.toNat ∧
      ∀ b' ∈ String.utf8EncodeChar c, 128 ≤ b'.toNat := by
  rcases encodeChar_cases c with ⟨b, small, single⟩ | ⟨b, rest, high, continued, encoded⟩
  · -- one byte is too short for the size of such a character
    have size := String.length_utf8EncodeChar c
    rw [single, List.length_singleton] at size
    have narrow := Char.utf8Size_eq_one_iff.mp size.symm
    have bound : c.toNat ≤ 127 := by
      simpa [UInt32.le_iff_toNat_le] using narrow
    omega
  · refine ⟨b, rest, encoded, high, ?_⟩
    intro b' member
    rw [encoded, List.mem_cons] at member
    rcases member with rfl | later
    · omega
    · exact ((isContinuation_iff b').mp (continued b' later)).1

/-- The byte of an ASCII character stands first where the character does. -/
theorem head_encode_iff {d : Char} (ascii : d.toNat < 128) (text : List Char) :
    (encode text).head? = some d.toUInt8 ↔ text.head? = some d := by
  cases text with
  | nil => simp
  | cons c rest =>
    rw [encode_cons, List.head?_cons, Option.some.injEq]
    have size := toUInt8_toNat ascii
    by_cases narrow : c.toNat < 128
    · rw [encodeChar_ascii narrow, List.singleton_append, List.head?_cons, Option.some.injEq,
        toUInt8_inj narrow ascii]
    · obtain ⟨b, others, encoded, high, -⟩ := encodeChar_wide (Nat.le_of_not_lt narrow)
      rw [encoded, List.cons_append, List.head?_cons, Option.some.injEq]
      constructor
      · rintro rfl
        omega
      · rintro rfl
        exact absurd ascii narrow

/-- A predicate on bytes that decides one on characters: a character has it in every byte, or
    not in the first. -/
def Decides (p : UInt8 → Bool) (q : Char → Bool) : Prop :=
  ∀ c, (q c = true → ∀ b ∈ String.utf8EncodeChar c, p b = true) ∧
    (q c = false → ∃ b rest, String.utf8EncodeChar c = b :: rest ∧ p b = false)

theorem decides_other {d : Char} (ascii : d.toNat < 128) :
    Decides (· != d.toUInt8) (fun c => decide (c ≠ d)) := by
  intro c
  have size := toUInt8_toNat ascii
  constructor
  · intro other b member
    rw [decide_eq_true_eq] at other
    rw [bne_iff_ne]
    rintro rfl
    by_cases narrow : c.toNat < 128
    · rw [encodeChar_ascii narrow, List.mem_singleton, toUInt8_inj ascii narrow] at member
      exact other member.symm
    · obtain ⟨-, -, -, -, high⟩ := encodeChar_wide (Nat.le_of_not_lt narrow)
      have large := high _ member
      omega
  · intro same
    obtain rfl : c = d := by simpa using same
    exact ⟨_, [], encodeChar_ascii ascii, by simp⟩

/-- A predicate on characters that only ASCII has can be asked of the bytes. -/
theorem decides_ascii {q : Char → Bool} (narrow : ∀ c, q c = true → c.toNat < 128) :
    Decides (fun b => q (Char.ofUInt8 b)) q := by
  intro c
  have value (b : UInt8) : (Char.ofUInt8 b).toNat = b.toNat := rfl
  by_cases ascii : c.toNat < 128
  · have back : Char.ofUInt8 c.toUInt8 = c := by
      apply Char.toNat_inj.mp
      rw [value, toUInt8_toNat ascii]
    rw [encodeChar_ascii ascii]
    constructor
    · intro holds b member
      rw [List.mem_singleton] at member
      rw [member]
      exact (congrArg q back).trans holds
    · intro fails
      exact ⟨_, [], rfl, (congrArg q back).trans fails⟩
  · constructor
    · intro holds
      exact absurd (narrow c holds) ascii
    · intro _
      obtain ⟨b, rest, encoded, high, -⟩ := encodeChar_wide (Nat.le_of_not_lt ascii)
      refine ⟨b, rest, encoded, Bool.eq_false_iff.mpr (fun holds => ?_)⟩
      have small := narrow _ holds
      rw [value] at small
      omega

theorem takeWhile_encode {p : UInt8 → Bool} {q : Char → Bool} (decides : Decides p q)
    (text : List Char) : (encode text).takeWhile p = encode (text.takeWhile q) := by
  induction text with
  | nil => rfl
  | cons c rest ih =>
    rw [encode_cons]
    cases holds : q c with
    | true =>
      rw [List.takeWhile_append_of_pos ((decides c).1 holds), ih, List.takeWhile_cons_of_pos holds,
        encode_cons]
    | false =>
      obtain ⟨b, others, encoded, fails⟩ := (decides c).2 holds
      rw [encoded, List.cons_append, List.takeWhile_cons_of_neg (by simp [fails]),
        List.takeWhile_cons_of_neg (by simp [holds])]
      rfl

theorem encode_length_pos {text : List Char} : 0 < (encode text).length ↔ text ≠ [] := by
  cases text with
  | nil => simp
  | cons c rest =>
    have positive := c.utf8Size_pos
    rw [encode_cons, List.length_append, String.length_utf8EncodeChar]
    simp only [ne_eq, reduceCtorEq, not_false_eq_true, iff_true]
    omega

/-- The index stands before `after` in the bytes of the text. -/
def Before (text : List Char) (i : Nat) (after : List Char) : Prop :=
  ∃ front, text = front ++ after ∧ i = (encode front).length

namespace Before

variable {text after rest passed : List Char} {i : Nat}

theorem start (text : List Char) : Before text 0 text := ⟨[], rfl, rfl⟩

theorem drop (before : Before text i after) : (encode text).drop i = encode after := by
  obtain ⟨front, rfl, rfl⟩ := before
  rw [encode_append, List.drop_left]

theorem length (before : Before text i after) :
    (encode text).length = i + (encode after).length := by
  obtain ⟨front, rfl, rfl⟩ := before
  rw [encode_append, List.length_append]

theorem inside_iff (before : Before text i after) : i < (encode text).length ↔ after ≠ [] := by
  rw [before.length, ← encode_length_pos]
  omega

theorem byte (before : Before text i after) : (encode text)[i]? = (encode after).head? := by
  rw [← before.drop, List.head?_drop]

theorem byte_iff (before : Before text i after) {d : Char} (ascii : d.toNat < 128) :
    (encode text)[i]? = some d.toUInt8 ↔ after.head? = some d := by
  rw [before.byte, head_encode_iff ascii]

theorem pass (before : Before text i (passed ++ rest)) :
    Before text (i + (encode passed).length) rest := by
  obtain ⟨front, rfl, rfl⟩ := before
  refine ⟨front ++ passed, (List.append_assoc front passed rest).symm, ?_⟩
  rw [encode_append, List.length_append]

theorem char {c : Char} (before : Before text i (c :: rest)) :
    Before text (i + c.utf8Size) rest := by
  have passed : Before text (i + (encode [c]).length) rest := pass before
  simpa using passed

theorem next {c : Char} (before : Before text i (c :: rest)) (ascii : c.toNat < 128) :
    Before text (i + 1) rest := by
  have passed := before.char
  rw [← String.length_utf8EncodeChar, encodeChar_ascii ascii] at passed
  exact passed

/-- A loop over bytes stops where the loop over characters does. -/
theorem scanWhile {p : UInt8 → Bool} {q : Char → Bool} (decides : Decides p q)
    (before : Before text i after) :
    Cursor.scanWhile p (encode text) i = i + (encode (after.takeWhile q)).length ∧
      Before text (Cursor.scanWhile p (encode text) i) (after.dropWhile q) := by
  have stops : Cursor.scanWhile p (encode text) i = i + (encode (after.takeWhile q)).length := by
    rw [Cursor.scanWhile, before.drop, takeWhile_encode decides]
  rw [← List.takeWhile_append_dropWhile (p := q) (l := after)] at before
  exact ⟨stops, stops ▸ before.pass⟩

theorem slice (before : Before text i (passed ++ rest)) :
    sliceText text i (i + (encode passed).length) = some passed := by
  obtain ⟨front, rfl, rfl⟩ := before
  have taken := takeBytes_encode (front ++ passed) rest
  rw [encode_append, List.length_append, List.append_assoc] at taken
  rw [sliceText, if_pos (Nat.le_add_right _ _), taken, Option.bind_some, dropBytes_encode]

/-- The bytes from the index on are those of the next character. -/
theorem byte_of_char {c : Char} (before : Before text i (c :: rest)) {k : Nat}
    (within : k < c.utf8Size) :
    ∃ b ∈ String.utf8EncodeChar c, (encode text)[i + k]? = some b := by
  have enough : k < (String.utf8EncodeChar c).length := by
    rw [String.length_utf8EncodeChar]
    exact within
  refine ⟨(String.utf8EncodeChar c)[k], List.getElem_mem enough, ?_⟩
  rw [← List.getElem?_drop, before.drop, encode_cons, List.getElem?_append_left enough,
    List.getElem?_eq_getElem enough]

end Before

end Utf8
