import WarpMotor.Lib.AsciiScan
import WarpMotor.Oml.Conf

/-!
The names behind `:` in a SQL text, found over its bytes. A lexer that says
what a quote, a bracket and a comment is fixes which of them are outside.
-/
namespace WarpMotor.Oml

section Scan

variable (bytes : List UInt8)

/-- Behind the quote that ends the piece; two quotes stand for one. -/
def skipQuoteBytes (quote : UInt8) (idx : Nat) : Nat :=
  if idx < bytes.length then
    if bytes[idx]? == some quote then
      if bytes[idx + 1]? == some quote then skipQuoteBytes quote (idx + 2) else idx + 1
    else skipQuoteBytes quote (idx + 1)
  else idx
termination_by bytes.length - idx

/-- Behind the end of the block comment. -/
def skipBlockBytes (idx : Nat) : Nat :=
  if idx + 1 < bytes.length then
    if bytes[idx]? == some '*'.toUInt8 && bytes[idx + 1]? == some '/'.toUInt8 then idx + 2
    else skipBlockBytes (idx + 1)
  else bytes.length
termination_by bytes.length - idx

def isNameByte (byte : UInt8) : Bool := isIdentChar (Char.ofUInt8 byte)

/-- One turn of the outer loop: the range of a name, and where the next turn begins. -/
def scanTurn (idx : Nat) (byte : UInt8) : Option (Nat × Nat) × Nat :=
  if byte == '\''.toUInt8 || byte == '"'.toUInt8 || byte == '`'.toUInt8 then
    (none, skipQuoteBytes bytes byte (idx + 1))
  else if byte == '['.toUInt8 then
    let stop := Cursor.scanWhile (· != ']'.toUInt8) bytes (idx + 1)
    (none, if stop < bytes.length then stop + 1 else stop)
  else if byte == '-'.toUInt8 && bytes[idx + 1]? == some '-'.toUInt8 then
    (none, Cursor.scanWhile (· != '\n'.toUInt8) bytes (idx + 2))
  else if byte == '/'.toUInt8 && bytes[idx + 1]? == some '*'.toUInt8 then
    (none, skipBlockBytes bytes (idx + 2))
  else if byte == ':'.toUInt8 then
    let stop := Cursor.scanWhile isNameByte bytes (idx + 1)
    if idx + 1 < stop then (some (idx + 1, stop), stop) else (none, idx + 1)
  else (none, idx + 1)

theorem le_skipQuoteBytes (quote : UInt8) (idx : Nat) : idx ≤ skipQuoteBytes bytes quote idx := by
  induction idx using skipQuoteBytes.induct bytes quote with
  | case1 idx inside first second ih =>
    rw [skipQuoteBytes, if_pos inside, if_pos first, if_pos second]
    omega
  | case2 idx inside first second =>
    rw [skipQuoteBytes, if_pos inside, if_pos first, if_neg second]
    omega
  | case3 idx inside other ih =>
    rw [skipQuoteBytes, if_pos inside, if_neg other]
    omega
  | case4 idx outside =>
    rw [skipQuoteBytes, if_neg outside]

theorem skipBlockBytes_bounds (idx : Nat) :
    skipBlockBytes bytes idx = bytes.length ∨ idx < skipBlockBytes bytes idx := by
  induction idx using skipBlockBytes.induct bytes with
  | case1 idx inside ends =>
    rw [skipBlockBytes, if_pos inside, if_pos ends]
    exact .inr (by omega)
  | case2 idx inside other ih =>
    rw [skipBlockBytes, if_pos inside, if_neg other]
    omega
  | case3 idx outside =>
    rw [skipBlockBytes, if_neg outside]
    exact .inl rfl

theorem lt_scanTurn {idx : Nat} {byte : UInt8} (here : bytes[idx]? = some byte) :
    idx < (scanTurn bytes idx byte).2 := by
  have inside := (List.getElem?_eq_some_iff.mp here).1
  have quoted := le_skipQuoteBytes bytes byte (idx + 1)
  have block := skipBlockBytes_bounds bytes (idx + 2)
  have moves (p : UInt8 → Bool) (i : Nat) : i ≤ Cursor.scanWhile p bytes i :=
    Nat.le_add_right _ _
  have bracket := moves (· != ']'.toUInt8) (idx + 1)
  have line := moves (· != '\n'.toUInt8) (idx + 2)
  unfold scanTurn
  dsimp only
  repeat' split
  all_goals dsimp only; omega

end Scan

/-- `ordered_sql_param_names`. The slice of a name is `none` where it would panic. -/
def scanSqlParamNames (isParam : String → Bool) (sql : Text) (idx : Nat) : Option (List String) :=
  match here : (Utf8.encode sql)[idx]? with
  | none => some []
  | some byte =>
    match (scanTurn (Utf8.encode sql) idx byte).1 with
    | none => scanSqlParamNames isParam sql (scanTurn (Utf8.encode sql) idx byte).2
    | some (start, stop) => do
      let name ← Utf8.sliceText sql start stop
      let names ← scanSqlParamNames isParam sql (scanTurn (Utf8.encode sql) idx byte).2
      return if isParam (String.ofList name) then String.ofList name :: names else names
termination_by (Utf8.encode sql).length - idx
decreasing_by all_goals
  have inside := (List.getElem?_eq_some_iff.mp here).1
  have moved := lt_scanTurn (Utf8.encode sql) here
  omega

section Bytes

open Utf8

variable {bytes : List UInt8}

theorem skipQuoteBytes_pass {quote : UInt8} (count idx : Nat)
    (plain : ∀ k < count, ∃ b, bytes[idx + k]? = some b ∧ b ≠ quote) :
    skipQuoteBytes bytes quote idx = skipQuoteBytes bytes quote (idx + count) := by
  induction count generalizing idx with
  | zero => rfl
  | succ count ih =>
    obtain ⟨b, here, other⟩ := plain 0 (Nat.succ_pos count)
    have inside := (List.getElem?_eq_some_iff.mp here).1
    rw [Nat.add_zero] at here inside
    have later := ih (idx + 1) (fun k small => by
      have shift : idx + 1 + k = idx + (k + 1) := by omega
      rw [shift]
      exact plain (k + 1) (by omega))
    rw [skipQuoteBytes, if_pos inside, if_neg (by simp [here, other]), later]
    congr 1
    omega

theorem skipBlockBytes_pass (count idx : Nat)
    (plain : ∀ k < count, ¬ (bytes[idx + k]? = some '*'.toUInt8 ∧
      bytes[idx + k + 1]? = some '/'.toUInt8)) :
    skipBlockBytes bytes idx = skipBlockBytes bytes (idx + count) := by
  induction count generalizing idx with
  | zero => rfl
  | succ count ih =>
    have here := plain 0 (Nat.succ_pos count)
    rw [Nat.add_zero] at here
    have later := ih (idx + 1) (fun k small => by
      have shift : idx + 1 + k = idx + (k + 1) := by omega
      rw [shift]
      exact plain (k + 1) (by omega))
    have step : skipBlockBytes bytes idx = skipBlockBytes bytes (idx + 1) := by
      by_cases inside : idx + 1 < bytes.length
      · rw [skipBlockBytes, if_pos inside, if_neg (by simpa using here)]
      · rw [skipBlockBytes, if_neg inside, skipBlockBytes, if_neg (by omega)]
    rw [step, later]
    congr 1
    omega

theorem skipQuoted_plain {quote c : Char} (other : c ≠ quote) (fuel : Nat) (rest : Text) :
    skipQuoted quote (fuel + 1) (c :: rest) = skipQuoted quote fuel rest := by
  simp [skipQuoted, other]

theorem skipQuoted_doubled (quote : Char) (fuel : Nat) (rest : Text) :
    skipQuoted quote (fuel + 1) (quote :: quote :: rest) = skipQuoted quote fuel rest := by
  simp [skipQuoted]

theorem skipQuoted_closed {quote : Char} {rest : Text} (single : rest.head? ≠ some quote)
    (fuel : Nat) : skipQuoted quote (fuel + 1) (quote :: rest) = rest := by
  cases rest with
  | nil => simp [skipQuoted]
  | cons d more =>
    have other : d ≠ quote := by simpa using single
    simp [skipQuoted, other]

variable {sql after : Text} {idx : Nat}

/-- Over bytes and over characters a quoted piece ends in one place. -/
theorem skipQuoteBytes_before {quote : Char} (ascii : quote.toNat < 128) (fuel : Nat)
    (enough : after.length ≤ fuel) (before : Before sql idx after) :
    Before sql (skipQuoteBytes (encode sql) quote.toUInt8 idx) (skipQuoted quote fuel after) := by
  induction fuel generalizing idx after with
  | zero =>
    obtain rfl : after = [] := List.eq_nil_of_length_eq_zero (by omega)
    rw [skipQuoteBytes, if_neg (by simp [before.inside_iff]), skipQuoted]
    exact before
  | succ fuel ih =>
    cases after with
    | nil =>
      rw [skipQuoteBytes, if_neg (by simp [before.inside_iff]), skipQuoted]
      exact before
    | cons c rest =>
      rw [List.length_cons] at enough
      by_cases same : c = quote
      · subst same
        have behind := before.next ascii
        have first : (encode sql)[idx]? = some c.toUInt8 := (before.byte_iff ascii).mpr rfl
        rw [skipQuoteBytes, if_pos (before.inside_iff.mpr (List.cons_ne_nil c rest)),
          if_pos (by simp [first])]
        by_cases double : rest.head? = some c
        · obtain ⟨more, rfl⟩ := List.head?_eq_some_iff.mp double
          have second : (encode sql)[idx + 1]? = some c.toUInt8 := (behind.byte_iff ascii).mpr rfl
          rw [if_pos (by simp [second]), skipQuoted_doubled]
          rw [List.length_cons] at enough
          exact ih (by omega) (behind.next ascii)
        · rw [if_neg (by simp [behind.byte_iff ascii, double]), skipQuoted_closed double]
          exact behind
      · have passed := @skipQuoteBytes_pass (encode sql) quote.toUInt8 c.utf8Size idx
          (fun k within => by
            obtain ⟨b, member, here⟩ := before.byte_of_char within
            have other := (decides_other ascii c).1 (by simpa using same) b member
            exact ⟨b, here, by simpa using other⟩)
        rw [passed, skipQuoted_plain same]
        exact ih (by omega) before.char

theorem skipBlockBytes_before (before : Before sql idx after) :
    Before sql (skipBlockBytes (encode sql) idx) (skipComment after) := by
  induction after using skipComment.induct generalizing idx with
  | case1 =>
    have last := before.length
    rw [encode_nil, List.length_nil] at last
    rw [skipBlockBytes, if_neg (by omega), skipComment, last]
    exact before
  | case2 rest =>
    have star : ('*' : Char).toNat < 128 := by decide
    have slash : ('/' : Char).toNat < 128 := by decide
    have behind := before.next star
    have first : (encode sql)[idx]? = some '*'.toUInt8 := (before.byte_iff star).mpr rfl
    have second : (encode sql)[idx + 1]? = some '/'.toUInt8 := (behind.byte_iff slash).mpr rfl
    rw [skipBlockBytes, if_pos (behind.inside_iff.mpr (by simp)), if_pos (by simp [first, second])]
    exact behind.next slash
  | case3 c rest other ih =>
    have passed := @skipBlockBytes_pass (encode sql) c.utf8Size idx (fun k within both => by
      obtain ⟨b, member, here⟩ := before.byte_of_char within
      by_cases star : c = '*'
      · -- one byte, and no slash behind it
        subst star
        obtain rfl : k = 0 := by
          have size : ('*' : Char).utf8Size = 1 := by decide
          omega
        have slash := ((before.next (by decide)).byte_iff (by decide)).mp both.2
        cases rest with
        | nil => cases slash
        | cons d more =>
          obtain rfl := Option.some.inj slash
          exact other more rfl rfl
      · have plain := (decides_other (by decide : ('*' : Char).toNat < 128) c).1 (by simpa using star) b member
        rw [here] at both
        exact absurd (Option.some.inj both.1) (by simpa using plain))
    rw [passed, skipComment]
    · exact ih before.char
    · exact other

theorem isIdentChar_ascii {c : Char} (ident : isIdentChar c = true) : c.toNat < 128 := by
  have bounds : (decide ('A'.val ≤ c.val ∧ c.val ≤ 'Z'.val) ||
      decide ('a'.val ≤ c.val) && decide (c.val ≤ 'z'.val) ||
      decide ('0'.val ≤ c.val) && decide (c.val ≤ '9'.val) || decide (c = '_')) = true := ident
  simp only [Bool.or_eq_true, Bool.and_eq_true, decide_eq_true_eq, UInt32.le_iff_toNat_le]
    at bounds
  rcases bounds with ((upper | lower) | digit) | underscore
  · exact Nat.lt_of_le_of_lt upper.2 (by decide)
  · exact Nat.lt_of_le_of_lt lower.2 (by decide)
  · exact Nat.lt_of_le_of_lt digit.2 (by decide)
  · subst underscore
    decide

theorem isNameByte_decides : Decides isNameByte isIdentChar :=
  decides_ascii (fun _ ident => isIdentChar_ascii ident)

section Turn

/-- The turn of an ASCII character, said of characters. -/
theorem scanTurn_char {c : Char} {rest : Text} (ascii : c.toNat < 128)
    (before : Before sql idx (c :: rest)) : scanTurn (encode sql) idx c.toUInt8 =
      if c = '\'' ∨ c = '"' ∨ c = '`' then
        (none, skipQuoteBytes (encode sql) c.toUInt8 (idx + 1))
      else if c = '[' then
        (none, if Cursor.scanWhile (· != ']'.toUInt8) (encode sql) (idx + 1) < (encode sql).length
          then Cursor.scanWhile (· != ']'.toUInt8) (encode sql) (idx + 1) + 1
          else Cursor.scanWhile (· != ']'.toUInt8) (encode sql) (idx + 1))
      else if c = '-' ∧ rest.head? = some '-' then
        (none, Cursor.scanWhile (· != '\n'.toUInt8) (encode sql) (idx + 2))
      else if c = '/' ∧ rest.head? = some '*' then (none, skipBlockBytes (encode sql) (idx + 2))
      else if c = ':' then
        if idx + 1 < Cursor.scanWhile isNameByte (encode sql) (idx + 1) then
          (some (idx + 1, Cursor.scanWhile isNameByte (encode sql) (idx + 1)),
            Cursor.scanWhile isNameByte (encode sql) (idx + 1))
        else (none, idx + 1)
      else (none, idx + 1) := by
  have behind := before.next ascii
  have same (d : Char) (narrow : d.toNat < 128) : (c.toUInt8 == d.toUInt8) = decide (c = d) := by
    rw [Bool.eq_iff_iff, beq_iff_eq, decide_eq_true_eq]
    exact toUInt8_inj ascii narrow
  have ahead (d : Char) (narrow : d.toNat < 128) :
      ((encode sql)[idx + 1]? == some d.toUInt8) = decide (rest.head? = some d) := by
    rw [Bool.eq_iff_iff, beq_iff_eq, decide_eq_true_eq]
    exact behind.byte_iff narrow
  unfold scanTurn
  simp only [same '\'' (by decide), same '"' (by decide), same '`' (by decide),
    same '[' (by decide), same '-' (by decide), same '/' (by decide), same ':' (by decide),
    ahead '-' (by decide), ahead '*' (by decide), Bool.or_eq_true, Bool.and_eq_true,
    decide_eq_true_eq, or_assoc]

/-- A byte that is not of ASCII is passed. -/
theorem scanTurn_high {byte : UInt8} (high : 128 ≤ byte.toNat) :
    scanTurn (encode sql) idx byte = (none, idx + 1) := by
  have other (d : Char) (narrow : d.toNat < 128) : (byte == d.toUInt8) = false := by
    rw [beq_eq_false_iff_ne]
    rintro rfl
    rw [toUInt8_toNat narrow] at high
    omega
  unfold scanTurn
  simp only [other '\'' (by decide), other '"' (by decide), other '`' (by decide),
    other '[' (by decide), other '-' (by decide), other '/' (by decide), other ':' (by decide),
    Bool.or_false, Bool.false_and, Bool.false_eq_true, if_false]

variable (isParam : String → Bool)

theorem scan_done (ended : (encode sql)[idx]? = none) :
    scanSqlParamNames isParam sql idx = some [] := by
  rw [scanSqlParamNames]
  split
  · rfl
  · next byte here =>
    rw [ended] at here
    cases here

theorem scan_skip {byte : UInt8} {next : Nat} (here : (encode sql)[idx]? = some byte)
    (turn : scanTurn (encode sql) idx byte = (none, next)) :
    scanSqlParamNames isParam sql idx = scanSqlParamNames isParam sql next := by
  rw [scanSqlParamNames]
  split
  · next missing =>
    rw [here] at missing
    cases missing
  · next byte' same =>
    obtain rfl := Option.some.inj (here.symm.trans same)
    simp [turn]

theorem scan_name {byte : UInt8} {start stop next : Nat} {name : Text}
    (here : (encode sql)[idx]? = some byte)
    (turn : scanTurn (encode sql) idx byte = (some (start, stop), next))
    (sliced : sliceText sql start stop = some name) :
    scanSqlParamNames isParam sql idx = (scanSqlParamNames isParam sql next).map (fun names =>
      if isParam (String.ofList name) then String.ofList name :: names else names) := by
  rw [scanSqlParamNames]
  split
  · next missing =>
    rw [here] at missing
    cases missing
  · next byte' same =>
    obtain rfl := Option.some.inj (here.symm.trans same)
    simp only [turn, sliced]
    cases scanSqlParamNames isParam sql next <;> rfl

theorem scan_pass (count idx : Nat)
    (high : ∀ k < count, ∃ b, (encode sql)[idx + k]? = some b ∧ 128 ≤ b.toNat) :
    scanSqlParamNames isParam sql idx = scanSqlParamNames isParam sql (idx + count) := by
  induction count generalizing idx with
  | zero => rfl
  | succ count ih =>
    obtain ⟨b, here, large⟩ := high 0 (Nat.succ_pos count)
    rw [Nat.add_zero] at here
    have later := ih (idx + 1) (fun k small => by
      have shift : idx + 1 + k = idx + (k + 1) := by omega
      rw [shift]
      exact high (k + 1) (by omega))
    rw [scan_skip isParam here (scanTurn_high large), later]
    congr 1
    omega

end Turn

end Bytes

section Characters

/-- One turn over the characters: the name, and the text the next turn begins with. -/
def charTurn (c : Char) (rest : Text) : Option Text × Text :=
  if c = '\'' ∨ c = '"' ∨ c = '`' then (none, skipQuoted c rest.length rest)
  else if c = '[' then (none, (rest.dropWhile (· ≠ ']')).drop 1)
  else if c = '-' ∧ rest.head? = some '-' then (none, (rest.drop 1).dropWhile (· ≠ '\n'))
  else if c = '/' ∧ rest.head? = some '*' then (none, skipComment (rest.drop 1))
  else if c = ':' ∧ rest.head?.any isIdentChar then
    (some (rest.takeWhile isIdentChar), rest.dropWhile isIdentChar)
  else (none, rest)

theorem orderedSqlParamNames_cons (isParam : String → Bool) (fuel : Nat) (c : Char) (rest : Text) :
    orderedSqlParamNames isParam (fuel + 1) (c :: rest) =
      ((charTurn c rest).1.toList.map String.ofList).filter isParam ++
        orderedSqlParamNames isParam fuel (charTurn c rest).2 := by
  rw [orderedSqlParamNames]
  unfold charTurn
  dsimp only
  split_ifs <;> simp [*]

theorem skipQuoted_suffix (quote : Char) (fuel : Nat) (text : Text) :
    skipQuoted quote fuel text <:+ text := by
  induction fuel generalizing text with
  | zero => simp [skipQuoted]
  | succ fuel ih =>
    cases text with
    | nil => simp [skipQuoted]
    | cons c rest =>
      by_cases same : c = quote
      · subst same
        by_cases double : rest.head? = some c
        · obtain ⟨more, rfl⟩ := List.head?_eq_some_iff.mp double
          rw [skipQuoted_doubled]
          exact (ih more).trans ((List.suffix_cons c more).trans (List.suffix_cons c _))
        · rw [skipQuoted_closed double]
          exact List.suffix_cons c rest
      · rw [skipQuoted_plain same]
        exact (ih rest).trans (List.suffix_cons c rest)

theorem skipComment_suffix (text : Text) : skipComment text <:+ text := by
  induction text using skipComment.induct with
  | case1 => exact List.suffix_rfl
  | case2 rest => exact (List.suffix_cons '/' rest).trans (List.suffix_cons '*' _)
  | case3 c rest other ih =>
    rw [skipComment]
    · exact ih.trans (List.suffix_cons c rest)
    · exact other

theorem charTurn_suffix (c : Char) (rest : Text) : (charTurn c rest).2 <:+ rest := by
  unfold charTurn
  split_ifs
  · exact skipQuoted_suffix c rest.length rest
  · exact (List.drop_suffix 1 _).trans (List.dropWhile_suffix _)
  · exact (List.dropWhile_suffix _).trans (List.drop_suffix 1 rest)
  · exact (skipComment_suffix _).trans (List.drop_suffix 1 rest)
  · exact List.dropWhile_suffix _
  · exact List.suffix_rfl

end Characters

theorem takeWhile_ne_nil {p : Char → Bool} {text : Text} :
    text.takeWhile p ≠ [] ↔ text.head?.any p = true := by
  cases text with
  | nil => simp
  | cons c rest => cases holds : p c <;> simp [holds]

section Agreement

open Utf8

variable {sql : Text} {idx : Nat} {c : Char} {rest : Text}

/-- Over bytes a turn reads the name that it reads over characters, and ends where that ends. -/
theorem scanTurn_before (ascii : c.toNat < 128) (before : Before sql idx (c :: rest)) :
    ∃ next, Before sql next (charTurn c rest).2 ∧
      ((charTurn c rest).1 = none ∧ scanTurn (encode sql) idx c.toUInt8 = (none, next) ∨
        ∃ name, (charTurn c rest).1 = some name ∧ sliceText sql (idx + 1) next = some name ∧
          scanTurn (encode sql) idx c.toUInt8 = (some (idx + 1, next), next)) := by
  have behind := before.next ascii
  rw [scanTurn_char ascii before]
  unfold charTurn
  by_cases quote : c = '\'' ∨ c = '"' ∨ c = '`'
  · rw [if_pos quote, if_pos quote]
    exact ⟨_, skipQuoteBytes_before ascii rest.length (Nat.le_refl _) behind, .inl ⟨rfl, rfl⟩⟩
  rw [if_neg quote, if_neg quote]
  by_cases bracket : c = '['
  · rw [if_pos bracket, if_pos bracket]
    obtain ⟨-, stopped⟩ := behind.scanWhile (decides_other (by decide : (']' : Char).toNat < 128))
    refine ⟨_, ?_, .inl ⟨rfl, rfl⟩⟩
    by_cases ended : rest.dropWhile (fun d => decide (d ≠ ']')) = []
    · rw [ended] at stopped ⊢
      rw [if_neg (by simp [stopped.inside_iff])]
      exact stopped
    · obtain ⟨d, more, shape⟩ := List.exists_cons_of_ne_nil ended
      have closing : d = ']' := by
        have stops := List.head?_dropWhile_not (fun d => decide (d ≠ ']')) rest
        rw [shape] at stops
        simpa using stops
      subst closing
      rw [shape] at stopped ⊢
      rw [if_pos (by simp [stopped.inside_iff])]
      exact stopped.next (by decide)
  rw [if_neg bracket, if_neg bracket]
  by_cases line : c = '-' ∧ rest.head? = some '-'
  · rw [if_pos line, if_pos line]
    obtain ⟨more, rfl⟩ := List.head?_eq_some_iff.mp line.2
    obtain ⟨-, stopped⟩ := (behind.next (by decide)).scanWhile
      (decides_other (by decide : ('\n' : Char).toNat < 128))
    refine ⟨_, ?_, .inl ⟨rfl, rfl⟩⟩
    exact stopped
  rw [if_neg line, if_neg line]
  by_cases block : c = '/' ∧ rest.head? = some '*'
  · rw [if_pos block, if_pos block]
    obtain ⟨more, rfl⟩ := List.head?_eq_some_iff.mp block.2
    exact ⟨_, skipBlockBytes_before (behind.next (by decide)), .inl ⟨rfl, rfl⟩⟩
  rw [if_neg block, if_neg block]
  obtain ⟨stop, stopped⟩ := behind.scanWhile isNameByte_decides
  by_cases colon : c = ':'
  · rw [if_pos colon]
    by_cases word : rest.head?.any isIdentChar = true
    · rw [if_pos ⟨colon, word⟩]
      have moved : 0 < (encode (rest.takeWhile isIdentChar)).length :=
        encode_length_pos.mpr (takeWhile_ne_nil.mpr word)
      rw [if_pos (by omega)]
      refine ⟨_, stopped, .inr ⟨_, rfl, ?_, rfl⟩⟩
      rw [stop]
      have whole := behind
      rw [← List.takeWhile_append_dropWhile (p := isIdentChar) (l := rest)] at whole
      exact whole.slice
    · rw [if_neg (fun both => word both.2)]
      have stays : ¬ 0 < (encode (rest.takeWhile isIdentChar)).length :=
        fun moved => word (takeWhile_ne_nil.mp (encode_length_pos.mp moved))
      rw [if_neg (by omega)]
      exact ⟨_, behind, .inl ⟨rfl, rfl⟩⟩
  · rw [if_neg colon, if_neg (fun both => colon both.1)]
    exact ⟨_, behind, .inl ⟨rfl, rfl⟩⟩

theorem scan_wide (isParam : String → Bool) (wide : 128 ≤ c.toNat)
    (before : Before sql idx (c :: rest)) :
    scanSqlParamNames isParam sql idx = scanSqlParamNames isParam sql (idx + c.utf8Size) := by
  obtain ⟨-, -, -, -, high⟩ := encodeChar_wide wide
  refine scan_pass isParam c.utf8Size idx (fun k within => ?_)
  obtain ⟨b, member, here⟩ := before.byte_of_char within
  exact ⟨b, here, high b member⟩

theorem charTurn_wide (wide : 128 ≤ c.toNat) : charTurn c rest = (none, rest) := by
  have other (d : Char) (narrow : d.toNat < 128) : ¬ c = d := by
    rintro rfl
    omega
  unfold charTurn
  simp only [other '\'' (by decide), other '"' (by decide), other '`' (by decide),
    other '[' (by decide), other '-' (by decide), other '/' (by decide), other ':' (by decide),
    or_self, false_and, if_false]

/-- Scanned by bytes or by characters, a text has the same names, and no slice is refused. -/
theorem scan_before (isParam : String → Bool) {after : Text} (fuel : Nat)
    (enough : after.length < fuel) (before : Before sql idx after) :
    scanSqlParamNames isParam sql idx = some (orderedSqlParamNames isParam fuel after) := by
  induction fuel generalizing idx after with
  | zero => omega
  | succ fuel ih =>
    cases after with
    | nil =>
      rw [orderedSqlParamNames]
      exact scan_done isParam (by rw [before.byte]; rfl)
    | cons c rest =>
      rw [List.length_cons] at enough
      have shorter := (charTurn_suffix c rest).length_le
      rw [orderedSqlParamNames_cons]
      by_cases ascii : c.toNat < 128
      · have here : (encode sql)[idx]? = some c.toUInt8 := (before.byte_iff ascii).mpr rfl
        obtain ⟨next, later, ⟨nothing, turn⟩ | ⟨name, found, sliced, turn⟩⟩ :=
          scanTurn_before ascii before
        · rw [scan_skip isParam here turn, ih (by omega) later, nothing]
          rfl
        · rw [scan_name isParam here turn sliced, ih (by omega) later, found]
          cases asked : isParam (String.ofList name) <;> simp [asked]
      · have wide := Nat.le_of_not_lt ascii
        rw [scan_wide isParam wide before, ih (by omega) before.char, charTurn_wide wide]
        rfl

/-- `ordered_sql_param_names` over its bytes is the one that the queries use. -/
theorem scan_eq (isParam : String → Bool) (sql : Text) : scanSqlParamNames isParam sql 0 =
    some (orderedSqlParamNames isParam (sql.length + 1) sql) :=
  scan_before isParam (sql.length + 1) (Nat.lt_succ_self _) (Before.start sql)

theorem paramNames_scanned (query : SqlQuery) :
    scanSqlParamNames (fun name => (query.var name).isSome) query.omlSql.toList 0 =
      some query.paramNames :=
  scan_eq _ _

end Agreement

section Lexer

/-- The inside of a quoted piece: no single quote. -/
inductive QuoteBody (quote : Char) : Text → Prop
  | nil : QuoteBody quote []
  | plain {c : Char} {body : Text} (other : c ≠ quote) (inner : QuoteBody quote body) :
      QuoteBody quote (c :: body)
  | doubled {body : Text} (inner : QuoteBody quote body) : QuoteBody quote (quote :: quote :: body)

def QuoteMark (c : Char) : Prop := c = '\'' ∨ c = '"' ∨ c = '`'

/-- What a SQL text begins with, the name if it is a parameter, and what is behind it. The inside
    of a quote, a bracket or a comment is one piece, also where the text ends in it. -/
inductive SqlPiece : Text → Option Text → Text → Prop
  | quoted {quote : Char} {body rest : Text} (mark : QuoteMark quote) (inner : QuoteBody quote body)
      (single : rest.head? ≠ some quote) : SqlPiece (quote :: (body ++ quote :: rest)) none rest
  | openQuote {quote : Char} {body : Text} (mark : QuoteMark quote) (inner : QuoteBody quote body) :
      SqlPiece (quote :: body) none []
  | bracketed {body rest : Text} (inner : ']' ∉ body) :
      SqlPiece ('[' :: (body ++ ']' :: rest)) none rest
  | openBracket {body : Text} (inner : ']' ∉ body) : SqlPiece ('[' :: body) none []
  | line {body rest : Text} (inner : '\n' ∉ body) :
      SqlPiece ('-' :: '-' :: (body ++ '\n' :: rest)) none ('\n' :: rest)
  | lastLine {body : Text} (inner : '\n' ∉ body) : SqlPiece ('-' :: '-' :: body) none []
  | block {body rest : Text} (first : ¬ ['*', '/'] <:+: body ++ ['*']) :
      SqlPiece ('/' :: '*' :: (body ++ '*' :: '/' :: rest)) none rest
  | openBlock {body : Text} (never : ¬ ['*', '/'] <:+: body) : SqlPiece ('/' :: '*' :: body) none []
  | name {word rest : Text} (nonempty : word ≠ []) (ident : ∀ c ∈ word, isIdentChar c = true)
      (whole : rest.head?.any isIdentChar = false) : SqlPiece (':' :: (word ++ rest)) (some word) rest
  | other {c : Char} {rest : Text} (plain : ¬ QuoteMark c) (bracket : c ≠ '[')
      (line : c = '-' → rest.head? ≠ some '-') (block : c = '/' → rest.head? ≠ some '*')
      (colon : c = ':' → rest.head?.any isIdentChar = false) : SqlPiece (c :: rest) none rest

/-- The parameters of a text, each time one occurs, in their order. -/
inductive SqlNames : Text → List String → Prop
  | done : SqlNames [] []
  | piece {text rest : Text} {name : Option Text} {names : List String}
      (first : SqlPiece text name rest) (others : SqlNames rest names) :
      SqlNames text (name.toList.map String.ofList ++ names)

theorem QuoteBody.skip {quote : Char} {body : Text} (inner : QuoteBody quote body) :
    (∀ fuel, body.length ≤ fuel → skipQuoted quote fuel body = []) ∧
      ∀ rest fuel, rest.head? ≠ some quote → (body ++ quote :: rest).length ≤ fuel →
        skipQuoted quote fuel (body ++ quote :: rest) = rest := by
  induction inner with
  | nil =>
    constructor
    · intro fuel _
      cases fuel <;> rfl
    · intro rest fuel single enough
      rw [List.nil_append, List.length_cons] at enough
      obtain ⟨more, rfl⟩ := Nat.exists_eq_add_of_le' (Nat.le_of_add_left_le enough)
      exact skipQuoted_closed single more
  | @plain c body other inner ih =>
    constructor
    · intro fuel enough
      rw [List.length_cons] at enough
      obtain ⟨more, rfl⟩ := Nat.exists_eq_add_of_le' (Nat.le_of_add_left_le enough)
      rw [skipQuoted_plain other]
      exact ih.1 more (by omega)
    · intro rest fuel single enough
      rw [List.cons_append, List.length_cons] at enough
      obtain ⟨more, rfl⟩ := Nat.exists_eq_add_of_le' (Nat.le_of_add_left_le enough)
      rw [List.cons_append, skipQuoted_plain other]
      exact ih.2 rest more single (by omega)
  | @doubled body inner ih =>
    constructor
    · intro fuel enough
      rw [List.length_cons, List.length_cons] at enough
      obtain ⟨more, rfl⟩ := Nat.exists_eq_add_of_le' (Nat.le_of_add_left_le enough)
      rw [skipQuoted_doubled]
      exact ih.1 more (by omega)
    · intro rest fuel single enough
      rw [List.cons_append, List.cons_append, List.length_cons, List.length_cons] at enough
      obtain ⟨more, rfl⟩ := Nat.exists_eq_add_of_le' (Nat.le_of_add_left_le enough)
      rw [List.cons_append, List.cons_append, skipQuoted_doubled]
      exact ih.2 rest more single (by omega)

/-- A quote ends or the text does. -/
theorem quoteBody_split (quote : Char) (text : Text) : QuoteBody quote text ∨
    ∃ body rest, text = body ++ quote :: rest ∧ QuoteBody quote body ∧
      rest.head? ≠ some quote := by
  induction size : text.length using Nat.strongRecOn generalizing text with
  | ind size ih =>
    subst size
    cases text with
    | nil => exact .inl .nil
    | cons c rest =>
      by_cases same : c = quote
      · subst same
        by_cases double : rest.head? = some c
        · obtain ⟨more, rfl⟩ := List.head?_eq_some_iff.mp double
          rcases ih more.length (by simp only [List.length_cons]; omega) more rfl with inner | ⟨body, left, rfl, inner, single⟩
          · exact .inl (.doubled inner)
          · exact .inr ⟨c :: c :: body, left, rfl, .doubled inner, single⟩
        · exact .inr ⟨[], rest, rfl, .nil, double⟩
      · rcases ih rest.length (by simp) rest rfl with inner | ⟨body, left, rfl, inner, single⟩
        · exact .inl (.plain same inner)
        · exact .inr ⟨c :: body, left, rfl, .plain same inner, single⟩

/-- A block comment ends at its first `*/`, or where the text does. -/
theorem skipComment_closed (body rest : Text) (first : ¬ ['*', '/'] <:+: body ++ ['*']) :
    skipComment (body ++ '*' :: '/' :: rest) = rest := by
  induction body with
  | nil => rfl
  | cons c body ih =>
    rw [List.cons_append, List.infix_cons_iff, not_or] at first
    rw [List.cons_append, skipComment]
    · exact ih first.2
    · intro more star behind
      subst star
      apply first.1
      cases body with
      | nil => simp at behind
      | cons d body =>
        rw [List.cons_append] at behind
        obtain rfl := (List.cons.inj behind).1
        exact ⟨body ++ ['*'], rfl⟩

theorem skipComment_open (body : Text) (never : ¬ ['*', '/'] <:+: body) : skipComment body = [] := by
  induction body with
  | nil => rfl
  | cons c body ih =>
    rw [List.infix_cons_iff, not_or] at never
    rw [skipComment]
    · exact ih never.2
    · intro more star behind
      subst star behind
      exact never.1 ⟨more, rfl⟩

theorem comment_split (text : Text) : ¬ ['*', '/'] <:+: text ∨
    ∃ body rest, text = body ++ '*' :: '/' :: rest ∧ ¬ ['*', '/'] <:+: body ++ ['*'] := by
  induction text using skipComment.induct with
  | case1 => exact .inl (by simp)
  | case2 rest => exact .inr ⟨[], rest, rfl, by decide⟩
  | case3 c rest other ih =>
    have here (more : Text) (begins : ['*', '/'] <+: c :: more) (same : more.head? = rest.head?) :
        False := by
      obtain ⟨tail, shape⟩ := begins
      obtain ⟨star, behind⟩ := List.cons.inj shape
      rw [← behind] at same
      obtain ⟨left, shape⟩ := List.head?_eq_some_iff.mp same.symm
      exact other left star.symm shape
    rcases ih with never | ⟨body, left, shape, first⟩
    · refine .inl ?_
      rw [List.infix_cons_iff, not_or]
      exact ⟨fun begins => here rest begins rfl, never⟩
    · refine .inr ⟨c :: body, left, by rw [shape]; rfl, ?_⟩
      rw [List.cons_append, List.infix_cons_iff, not_or]
      refine ⟨fun begins => here _ begins ?_, first⟩
      rw [shape]
      cases body <;> rfl

theorem dropWhile_reach {d : Char} {body : Text} (inner : d ∉ body) (rest : Text) :
    (body ++ rest).dropWhile (fun c => decide (c ≠ d)) =
      rest.dropWhile (fun c => decide (c ≠ d)) := by
  refine List.dropWhile_append_of_pos (fun c member => ?_)
  rw [decide_eq_true_eq]
  rintro rfl
  exact inner member

theorem dropWhile_found {d : Char} {body : Text} (inner : d ∉ body) (rest : Text) :
    (body ++ d :: rest).dropWhile (fun c => decide (c ≠ d)) = d :: rest := by
  rw [dropWhile_reach inner, List.dropWhile_cons_of_neg (by simp)]

theorem dropWhile_missing {d : Char} {body : Text} (inner : d ∉ body) :
    body.dropWhile (fun c => decide (c ≠ d)) = [] := by
  have reach := dropWhile_reach inner []
  rwa [List.append_nil] at reach

theorem mem_split (d : Char) (text : Text) :
    d ∉ text ∨ ∃ body rest, text = body ++ d :: rest ∧ d ∉ body := by
  by_cases member : d ∈ text
  · obtain ⟨body, rest, shape, fresh⟩ := List.eq_append_cons_of_mem member
    exact .inr ⟨body, rest, shape, fresh⟩
  · exact .inl member

theorem charTurn_quote {c : Char} (mark : QuoteMark c) (rest : Text) :
    charTurn c rest = (none, skipQuoted c rest.length rest) := if_pos mark

theorem charTurn_bracket (rest : Text) :
    charTurn '[' rest = (none, (rest.dropWhile (fun c => decide (c ≠ ']'))).drop 1) := rfl

theorem charTurn_line (rest : Text) :
    charTurn '-' ('-' :: rest) = (none, rest.dropWhile (fun c => decide (c ≠ '\n'))) := rfl

theorem charTurn_block (rest : Text) : charTurn '/' ('*' :: rest) = (none, skipComment rest) := rfl

theorem charTurn_name {rest : Text} (word : rest.head?.any isIdentChar = true) :
    charTurn ':' rest = (some (rest.takeWhile isIdentChar), rest.dropWhile isIdentChar) := by
  unfold charTurn
  simp [word]

theorem charTurn_other {c : Char} {rest : Text} (plain : ¬ QuoteMark c) (bracket : c ≠ '[')
    (line : c = '-' → rest.head? ≠ some '-') (block : c = '/' → rest.head? ≠ some '*')
    (colon : c = ':' → rest.head?.any isIdentChar = false) : charTurn c rest = (none, rest) := by
  have unquoted : ¬ (c = '\'' ∨ c = '"' ∨ c = '`') := plain
  unfold charTurn
  rw [if_neg unquoted, if_neg bracket, if_neg (fun both => line both.1 both.2),
    if_neg (fun both => block both.1 both.2), if_neg]
  rintro ⟨same, word⟩
  rw [colon same] at word
  cases word

/-- What a turn does is what the text begins with. -/
theorem charTurn_of_piece {text left : Text} {name : Option Text} (piece : SqlPiece text name left) :
    ∃ c rest, text = c :: rest ∧ charTurn c rest = (name, left) := by
  cases piece with
  | @quoted quote body left mark inner single =>
    refine ⟨_, _, rfl, ?_⟩
    rw [charTurn_quote mark, inner.skip.2 left _ single (Nat.le_refl _)]
  | openQuote mark inner =>
    refine ⟨_, _, rfl, ?_⟩
    rw [charTurn_quote mark, inner.skip.1 _ (Nat.le_refl _)]
  | bracketed inner =>
    refine ⟨_, _, rfl, ?_⟩
    rw [charTurn_bracket, dropWhile_found inner]
    rfl
  | openBracket inner =>
    refine ⟨_, _, rfl, ?_⟩
    rw [charTurn_bracket, dropWhile_missing inner]
    rfl
  | line inner =>
    refine ⟨_, _, rfl, ?_⟩
    rw [charTurn_line, dropWhile_found inner]
  | lastLine inner =>
    refine ⟨_, _, rfl, ?_⟩
    rw [charTurn_line, dropWhile_missing inner]
  | block first =>
    refine ⟨_, _, rfl, ?_⟩
    rw [charTurn_block, skipComment_closed _ _ first]
  | openBlock never =>
    refine ⟨_, _, rfl, ?_⟩
    rw [charTurn_block, skipComment_open _ never]
  | @name word left nonempty ident whole =>
    refine ⟨_, _, rfl, ?_⟩
    obtain ⟨d, others, rfl⟩ := List.exists_cons_of_ne_nil nonempty
    have begins : (d :: others ++ left).head?.any isIdentChar = true := ident d List.mem_cons_self
    have ends : left.takeWhile isIdentChar = [] := by
      by_contra more
      rw [takeWhile_ne_nil.mp more] at whole
      cases whole
    have kept := List.takeWhile_append_dropWhile (p := isIdentChar) (l := left)
    rw [ends, List.nil_append] at kept
    rw [charTurn_name begins, List.takeWhile_append_of_pos ident, ends, List.append_nil,
      List.dropWhile_append_of_pos ident, kept]
  | other plain bracket line block colon =>
    exact ⟨_, _, rfl, charTurn_other plain bracket line block colon⟩

theorem piece_of_charTurn (c : Char) (rest : Text) :
    SqlPiece (c :: rest) (charTurn c rest).1 (charTurn c rest).2 := by
  -- each kind of piece turns into its values, once it is cut where the text allows
  suffices piece : ∃ name left, SqlPiece (c :: rest) name left by
    obtain ⟨name, left, piece⟩ := piece
    obtain ⟨d, more, shape, turn⟩ := charTurn_of_piece piece
    obtain ⟨rfl, rfl⟩ := List.cons.inj shape
    rw [turn]
    exact piece
  by_cases mark : QuoteMark c
  · rcases quoteBody_split c rest with inner | ⟨body, left, rfl, inner, single⟩
    · exact ⟨none, [], .openQuote mark inner⟩
    · exact ⟨none, left, .quoted mark inner single⟩
  by_cases bracket : c = '['
  · subst bracket
    rcases mem_split ']' rest with inner | ⟨body, left, rfl, inner⟩
    · exact ⟨none, [], .openBracket inner⟩
    · exact ⟨none, left, .bracketed inner⟩
  by_cases line : c = '-' ∧ rest.head? = some '-'
  · obtain ⟨rfl, behind⟩ := line
    obtain ⟨more, rfl⟩ := List.head?_eq_some_iff.mp behind
    rcases mem_split '\n' more with inner | ⟨body, left, rfl, inner⟩
    · exact ⟨none, [], .lastLine inner⟩
    · exact ⟨none, _, .line inner⟩
  by_cases block : c = '/' ∧ rest.head? = some '*'
  · obtain ⟨rfl, behind⟩ := block
    obtain ⟨more, rfl⟩ := List.head?_eq_some_iff.mp behind
    rcases comment_split more with never | ⟨body, left, rfl, first⟩
    · exact ⟨none, [], .openBlock never⟩
    · exact ⟨none, left, .block first⟩
  by_cases word : c = ':' ∧ rest.head?.any isIdentChar = true
  · obtain ⟨rfl, begins⟩ := word
    have nonempty := takeWhile_ne_nil.mpr begins
    have whole : (rest.dropWhile isIdentChar).head?.any isIdentChar = false := by
      cases behind : rest.dropWhile isIdentChar with
      | nil => rfl
      | cons d left =>
        have stops := List.head?_dropWhile_not isIdentChar rest
        rw [behind] at stops
        simpa using stops
    refine ⟨some (rest.takeWhile isIdentChar), rest.dropWhile isIdentChar, ?_⟩
    have piece := SqlPiece.name nonempty (fun d member => List.mem_takeWhile_imp member) whole
    rwa [List.takeWhile_append_dropWhile] at piece
  · refine ⟨none, rest, .other mark bracket (fun same both => line ⟨same, both⟩)
      (fun same both => block ⟨same, both⟩) (fun same => ?_)⟩
    exact Bool.eq_false_iff.mpr (fun begins => word ⟨same, begins⟩)

/-- The names of a text are those that are found with every name a parameter. -/
theorem names_unique {text : Text} {names : List String} (lexed : SqlNames text names)
    (isParam : String → Bool) (fuel : Nat) (enough : text.length < fuel) :
    orderedSqlParamNames isParam fuel text = names.filter isParam := by
  induction lexed generalizing fuel with
  | done =>
    obtain ⟨more, rfl⟩ := Nat.exists_eq_add_of_le' (Nat.one_le_of_lt enough)
    rfl
  | piece first others ih =>
    obtain ⟨more, rfl⟩ := Nat.exists_eq_add_of_le' (Nat.one_le_of_lt enough)
    obtain ⟨c, rest, rfl, turn⟩ := charTurn_of_piece first
    have shorter := (charTurn_suffix c rest).length_le
    rw [turn] at shorter
    rw [List.length_cons] at enough
    rw [orderedSqlParamNames_cons, turn, List.filter_append]
    congr 1
    exact ih more (by dsimp only at shorter; omega)

theorem names_exist (text : Text) : ∃ names, SqlNames text names := by
  induction size : text.length using Nat.strongRecOn generalizing text with
  | ind size ih =>
    subst size
    cases text with
    | nil => exact ⟨[], .done⟩
    | cons c rest =>
      have shorter := (charTurn_suffix c rest).length_le
      obtain ⟨names, others⟩ := ih _ (by rw [List.length_cons]; omega) (charTurn c rest).2 rfl
      exact ⟨_, .piece (piece_of_charTurn c rest) others⟩

end Lexer

/-- The scan of any SQL text ends, slices it between characters only, and finds the parameters
    outside quotes, brackets and comments that are variables, each time and in their order. -/
theorem sql_params_are_exact (isParam : String → Bool) (sql : Text) :
    ∃ names, SqlNames sql names ∧ (∀ other, SqlNames sql other → other = names) ∧
      scanSqlParamNames isParam sql 0 = some (names.filter isParam) := by
  obtain ⟨names, lexed⟩ := names_exist sql
  refine ⟨names, lexed, ?_, ?_⟩
  · intro other again
    have one := names_unique lexed (fun _ => true) _ (Nat.lt_succ_self _)
    have two := names_unique again (fun _ => true) _ (Nat.lt_succ_self _)
    rw [List.filter_true] at one two
    exact two.symm.trans one
  · rw [scan_eq, names_unique lexed isParam _ (Nat.lt_succ_self _)]

-- the doubled quote does not end the literal, and `/*/` does not close itself
example : orderedSqlParamNames (fun _ => true) 40 "a=':x'':y' or :z /*/ :u */ + b::int".toList =
    ["z", "int"] := by
  decide

end WarpMotor.Oml
