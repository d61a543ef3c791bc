import Mathlib
import WarpMotor.Oml.SqlBody

/-!
The words of a list of columns: which characters it is written with, and that
no digit follows one of its words over blanks.
-/
namespace WarpMotor.Oml

section Words

/-- `split_whitespace`. -/
def words (text : Text) : List Text := (text.splitOnP isWhite).filter (fun part => !part.isEmpty)

@[simp] theorem words_nil : words [] = [] := rfl

theorem words_white {s : Char} (white : isWhite s = true) (before behind : Text) :
    words (before ++ s :: behind) = words before ++ words behind := by
  rw [words, List.splitOnP_append_cons before behind white, List.filter_append]
  rfl

theorem words_blank {text : Text} (blank : Blank text) : words text = [] := by
  induction text with
  | nil => rfl
  | cons s rest ih =>
    obtain ⟨white, blank⟩ := List.forall_mem_cons.mp blank
    have first := words_white white [] rest
    rw [List.nil_append, words_nil, List.nil_append] at first
    rw [first, ih blank]

theorem words_lead {lead : Text} (blank : Blank lead) (text : Text) :
    words (lead ++ text) = words text := by
  induction lead with
  | nil => rfl
  | cons s rest ih =>
    obtain ⟨white, blank⟩ := List.forall_mem_cons.mp blank
    have first := words_white white [] (rest ++ text)
    rw [List.nil_append, words_nil, List.nil_append] at first
    rw [List.cons_append, first, ih blank]

theorem words_trail (text : Text) {trail : Text} (blank : Blank trail) :
    words (text ++ trail) = words text := by
  cases trail with
  | nil => rw [List.append_nil]
  | cons s rest =>
    obtain ⟨white, blank⟩ := List.forall_mem_cons.mp blank
    rw [words_white white, words_blank blank, List.append_nil]

theorem words_trim (text : Text) : words (trimText text) = words text := by
  obtain ⟨lead, trail, blank_lead, blank_trail, whole⟩ := trimText_split text
  conv_rhs => rw [whole, words_trail _ blank_trail, words_lead blank_lead]

/-- A visible character begins or goes on with a word. -/
theorem words_visible {c : Char} (visible : isWhite c = false) (text : Text) :
    ∃ word others, words (c :: text) = (c :: word) :: others := by
  obtain ⟨first, others, cut⟩ := List.exists_cons_of_ne_nil (List.splitOnP_ne_nil isWhite text)
  refine ⟨first, others.filter (fun part => !part.isEmpty), ?_⟩
  rw [words, List.splitOnP_cons_eq_if_modifyHead, if_neg (by simp [visible]), cut]
  rfl

theorem mem_words {text : Text} {c : Char} (member : c ∈ text) (visible : isWhite c = false) :
    ∃ word ∈ words text, c ∈ word := by
  induction text with
  | nil => cases member
  | cons d rest ih =>
    rcases List.mem_cons.mp member with rfl | inside
    · obtain ⟨word, others, cut⟩ := words_visible visible rest
      rw [cut]
      exact ⟨c :: word, List.mem_cons_self, List.mem_cons_self⟩
    · obtain ⟨word, listed, holds⟩ := ih inside
      cases white : isWhite d with
      | true =>
        have first := words_white white [] rest
        rw [List.nil_append, words_nil, List.nil_append] at first
        rw [first]
        exact ⟨word, listed, holds⟩
      | false =>
        obtain ⟨head, others, cut⟩ :=
          List.exists_cons_of_ne_nil (List.splitOnP_ne_nil isWhite rest)
        have joined : words (d :: rest) =
            (d :: head) :: others.filter (fun part => !part.isEmpty) := by
          rw [words, List.splitOnP_cons_eq_if_modifyHead, if_neg (by simp [white]), cut]
          rfl
        rw [joined]
        rw [words, cut] at listed
        rcases List.mem_cons.mp (List.mem_of_mem_filter listed) with rfl | later
        · exact ⟨d :: word, List.mem_cons_self, List.mem_cons_of_mem _ holds⟩
        · refine ⟨word, List.mem_cons_of_mem _ (List.mem_filter.mpr ⟨later, ?_⟩), holds⟩
          exact (List.mem_filter.mp listed).2

end Words

section OrderBy

theorem isSupportedOrderByItem_words (item : Text) :
    isSupportedOrderByItem item =
      match words item with
      | [col] => isSqlIdent col
      | [col, dir] => isSqlIdent col &&
        (dir.map Char.toLower = "asc".toList || dir.map Char.toLower = "desc".toList)
      | _ => false := rfl

/-- A column, and `asc` or `desc` behind it. -/
theorem item_words {item : Text} (supported : isSupportedOrderByItem item = true) :
    ∃ col, isSqlIdent col = true ∧ (words item = [col] ∨ ∃ dir, words item = [col, dir] ∧
      (dir.map Char.toLower = "asc".toList ∨ dir.map Char.toLower = "desc".toList)) := by
  rw [isSupportedOrderByItem_words] at supported
  split at supported
  · next col cut => exact ⟨col, supported, .inl cut⟩
  · next col dir cut =>
    simp only [Bool.and_eq_true, Bool.or_eq_true, decide_eq_true_eq] at supported
    exact ⟨col, supported.1, .inr ⟨dir, cut, supported.2⟩⟩
  · cases supported

theorem orderBy_pieces {cols : Text} (supported : isSupportedOrderByCols cols = true) :
    ∃ pieces, cols = joinTexts [','] pieces ∧
      ∀ piece ∈ pieces, isSupportedOrderByItem (trimText piece) = true := by
  unfold isSupportedOrderByCols at supported
  split at supported
  · cases supported
  · next items cut =>
    obtain ⟨first, rest, whole, rfl⟩ := splitCommas_pieces cut
    rw [List.reverse_nil, List.nil_append] at whole
    refine ⟨first :: rest, whole, ?_⟩
    intro piece member
    exact List.all_eq_true.mp supported _ (List.mem_map_of_mem member)

/-- What a list of columns is written with. -/
def isOrderByChar (c : Char) : Bool := isWhite c || isIdentChar c || c = '.' || c = ','

theorem word_chars {word : Text} (spelled : isSqlIdent word = true ∨
    word.map Char.toLower = "asc".toList ∨ word.map Char.toLower = "desc".toList) {c : Char}
    (member : c ∈ word) : isOrderByChar c = true := by
  have letter (lower : c.toLower.isAlpha = true) : isOrderByChar c = true := by
    rw [Char.isAlpha_toLower_eq_isAlpha] at lower
    simp [isOrderByChar, isIdentChar, Char.isAlphanum, lower]
  rcases spelled with ident | asc | desc
  · simp only [isSqlIdent, Bool.and_eq_true] at ident
    have char := List.all_eq_true.mp ident.2 c member
    simp only [Bool.or_eq_true, decide_eq_true_eq] at char
    rcases char with char | char <;> simp [isOrderByChar, char]
  · have lower : c.toLower ∈ "asc".toList := asc ▸ List.mem_map_of_mem member
    exact letter (List.all_eq_true.mp (by decide) _ lower)
  · have lower : c.toLower ∈ "desc".toList := desc ▸ List.mem_map_of_mem member
    exact letter (List.all_eq_true.mp (by decide) _ lower)

theorem piece_chars {piece : Text} (supported : isSupportedOrderByItem (trimText piece) = true)
    {c : Char} (member : c ∈ piece) : isOrderByChar c = true := by
  cases white : isWhite c with
  | true => simp [isOrderByChar, white]
  | false =>
    obtain ⟨col, ident, cut⟩ := item_words supported
    obtain ⟨word, listed, holds⟩ := mem_words member white
    rw [← words_trim] at listed
    rcases cut with cut | ⟨dir, cut, direction⟩
    · rw [cut, List.mem_singleton] at listed
      exact word_chars (.inl ident) (listed ▸ holds)
    · rw [cut, List.mem_cons, List.mem_singleton] at listed
      rcases listed with rfl | rfl
      · exact word_chars (.inl ident) holds
      · exact word_chars (.inr direction) holds

theorem mem_joinTexts {pieces : List Text} {c : Char} (member : c ∈ joinTexts [','] pieces) :
    c = ',' ∨ ∃ piece ∈ pieces, c ∈ piece := by
  induction pieces with
  | nil => cases member
  | cons piece rest ih =>
    cases rest with
    | nil => exact .inr ⟨piece, List.mem_singleton_self _, member⟩
    | cons next rest =>
      rw [joinTexts, List.mem_append, List.mem_append, List.mem_singleton] at member
      · rcases member with (inside | comma) | later
        · exact .inr ⟨piece, List.mem_cons_self, inside⟩
        · exact .inl comma
        · rcases ih later with comma | ⟨other, listed, inside⟩
          · exact .inl comma
          · exact .inr ⟨other, List.mem_cons_of_mem _ listed, inside⟩
      · simp

theorem orderBy_chars {cols : Text} (supported : isSupportedOrderByCols cols = true) :
    ∀ c ∈ cols, isOrderByChar c = true := by
  obtain ⟨pieces, rfl, items⟩ := orderBy_pieces supported
  intro c member
  rcases mem_joinTexts member with rfl | ⟨piece, listed, inside⟩
  · rfl
  · exact piece_chars (items piece listed) inside

/-- A part of the list without a comma lies inside one item. -/
theorem part_of_piece {pieces : List Text} {before part behind : Text} (comma : ',' ∉ part)
    (some_part : part ≠ []) (whole : joinTexts [','] pieces = before ++ (part ++ behind)) :
    ∃ piece ∈ pieces, ∃ before' behind', piece = before' ++ (part ++ behind') := by
  induction pieces generalizing before with
  | nil =>
    have empty := congrArg List.length whole
    have size := List.length_pos_of_ne_nil some_part
    simp only [joinTexts, List.length_nil, List.length_append] at empty
    omega
  | cons piece rest ih =>
    cases rest with
    | nil => exact ⟨piece, List.mem_singleton_self _, before, behind, whole⟩
    | cons next rest =>
      rw [joinTexts, List.append_assoc] at whole
      · rcases List.append_eq_append_iff.mp whole with ⟨more, rfl, cut⟩ | ⟨more, rfl, cut⟩
        · -- the part begins behind the piece
          cases more with
          | nil =>
            rw [List.nil_append, List.singleton_append] at cut
            obtain ⟨c, others, rfl⟩ := List.exists_cons_of_ne_nil some_part
            obtain ⟨rfl, -⟩ := List.cons.inj cut
            exact absurd List.mem_cons_self comma
          | cons c more =>
            obtain ⟨-, later⟩ := List.cons.inj cut
            obtain ⟨other, listed, inside⟩ := ih later
            exact ⟨other, List.mem_cons_of_mem _ listed, inside⟩
        · rcases List.append_eq_append_iff.mp cut with ⟨more', rfl, cut'⟩ | ⟨more', rfl, cut'⟩
          · exact ⟨_, List.mem_cons_self, before, more', rfl⟩
          · cases more' with
            | nil => exact ⟨_, List.mem_cons_self, before, [], by simp⟩
            | cons c more' =>
              obtain ⟨rfl, -⟩ := List.cons.inj cut'
              exact absurd (List.mem_append_right _ List.mem_cons_self) comma
      · simp

theorem digit_range {d : Char} (digit : d.isDigit = true) : 48 ≤ d.toNat ∧ d.toNat ≤ 57 := by
  simpa [Char.isDigit, UInt32.le_iff_toNat_le] using digit

theorem digit_not_white {d : Char} (digit : d.isDigit = true) : isWhite d = false := by
  obtain ⟨low, high⟩ := digit_range digit
  simp only [isWhite, Bool.or_eq_false_iff, Bool.and_eq_false_iff, decide_eq_false_iff_not]
  omega

theorem digit_not_alpha {d : Char} (digit : d.isDigit = true) : d.isAlpha = false := by
  obtain ⟨low, high⟩ := digit_range digit
  by_contra other
  have code : d.val.toNat = d.toNat := rfl
  simp [Char.isAlpha, Char.isUpper, Char.isLower, UInt32.le_iff_toNat_le, code] at other
  omega

theorem alpha_visible {c : Char} (alpha : c.isAlpha = true) : isWhite c = false := by
  have code : c.val.toNat = c.toNat := rfl
  simp [Char.isAlpha, Char.isUpper, Char.isLower, UInt32.le_iff_toNat_le, code] at alpha
  simp only [isWhite, Bool.or_eq_false_iff, Bool.and_eq_false_iff, decide_eq_false_iff_not]
  omega

theorem comma_not_blank {gap : Text} (blank : Blank gap) : ',' ∉ gap := by
  intro member
  cases blank ',' member

/-- Behind a word of the list, over blanks, comes no digit. -/
theorem no_digit_behind {cols before word gap behind : Text} {d : Char}
    (supported : isSupportedOrderByCols cols = true) (some_word : ∃ c ∈ word, isWhite c = false)
    (comma : ',' ∉ word) (some_gap : gap ≠ []) (blank : Blank gap) (digit : d.isDigit = true)
    (whole : cols = before ++ (word ++ (gap ++ d :: behind))) : False := by
  obtain ⟨pieces, joined, items⟩ := orderBy_pieces supported
  have no_comma : ',' ∉ word ++ (gap ++ [d]) := by
    simp only [List.mem_append, List.mem_singleton, not_or]
    refine ⟨comma, comma_not_blank blank, ?_⟩
    rintro rfl
    cases digit
  obtain ⟨piece, listed, before', behind', inside⟩ :=
    part_of_piece no_comma (by simp)
      (show joinTexts [','] pieces = before ++ ((word ++ (gap ++ [d])) ++ behind) by
        rw [← joined, whole]
        simp)
  obtain ⟨s, gap, rfl⟩ := List.exists_cons_of_ne_nil some_gap
  obtain ⟨white, blank⟩ := List.forall_mem_cons.mp blank
  obtain ⟨tail, others, later⟩ := words_visible (digit_not_white digit) behind'
  have split : words (trimText piece) = words (before' ++ word) ++ (d :: tail) :: others := by
    rw [words_trim, ← later, ← words_lead blank (d :: behind'), ← words_white white, inside]
    simp
  obtain ⟨c, member, visible⟩ := some_word
  obtain ⟨first, earlier, -⟩ := mem_words (List.mem_append_right before' member) visible
  have some_earlier := List.length_pos_of_mem earlier
  obtain ⟨col, -, cut⟩ := item_words (items piece listed)
  rcases cut with cut | ⟨dir, cut, direction⟩
  · have count := congrArg List.length (split.symm.trans cut)
    simp only [List.length_append, List.length_cons, List.length_nil] at count
    omega
  · have same := split.symm.trans cut
    have count := congrArg List.length same
    simp only [List.length_append, List.length_cons, List.length_nil] at count
    obtain ⟨only, shape⟩ := List.length_eq_one_iff.mp (show (words (before' ++ word)).length = 1 by omega)
    rw [shape, List.singleton_append] at same
    obtain ⟨rfl, -⟩ := List.cons.inj (List.cons.inj same).2
    have letter : d.toLower.isAlpha = true := by
      rcases direction with asc | desc
      · rw [(List.cons.inj asc).1]
        rfl
      · rw [(List.cons.inj desc).1]
        rfl
    rw [Char.isAlpha_toLower_eq_isAlpha] at letter
    cases (digit_not_alpha digit).symm.trans letter

end OrderBy

end WarpMotor.Oml
