import WarpMotor.Oml.OrderByWords

/-!
The clauses behind a condition. What `append_tail` puts there is what
`split_tail_clauses` takes off again, unless a column called `limit` stands
before a real `limit`: the scan stops at the first such word and gives up.
-/
namespace WarpMotor.Oml

section Scanning

/-- The scan behind a text. -/
def Scan.through (scan : Scan) (text : Text) : Option Scan := text.foldlM Scan.step scan

theorem Scan.top_iff (scan : Scan) : scan.top = true ↔ scan = .start := by
  cases scan with
  | mk depth inSingle inDouble =>
    cases inSingle <;> cases inDouble <;> simp [Scan.top, Scan.outside, Scan.start]

/-- The first hit in a text that goes on: where the front has it, else in the rest. -/
theorem findTopLevel_append {hit : Option Char → Text → Bool} {front rest : Text}
    {scan after : Scan} (passes : scan.through front = some after)
    (blind : ∀ before back, hit before (back ++ rest) = hit before back) (before : Text) :
    findTopLevel hit (front ++ rest) before scan =
      ((findTopLevel hit front before scan).map fun cut => (cut.1, cut.2 ++ rest)).or
        (findTopLevel hit rest (front.reverse ++ before) after) := by
  induction front generalizing scan before with
  | nil =>
    cases passes
    rfl
  | cons c front ih =>
    have unseen := blind before.head? (c :: front)
    rw [List.cons_append] at unseen
    rw [List.cons_append, findTopLevel, findTopLevel, unseen]
    by_cases here : (!scan.isMark c && scan.top && hit before.head? (c :: front)) = true
    · rw [if_pos here, if_pos here]
      rfl
    · rw [if_neg here, if_neg here]
      rw [Scan.through, List.foldlM_cons] at passes
      cases stepped : scan.step c with
      | none =>
        rw [stepped] at passes
        cases passes
      | some scan' =>
        rw [stepped] at passes
        dsimp only
        rw [ih passes, List.reverse_cons, List.append_assoc, List.singleton_append]

/-- What stands before a text matters for a hit at its first place only. -/
theorem findTopLevel_before {hit : Option Char → Text → Bool} {text before before' : Text}
    {scan : Scan} (same : hit before.head? text = hit before'.head? text) :
    (findTopLevel hit text before scan).map Prod.snd =
      (findTopLevel hit text before' scan).map Prod.snd := by
  induction text generalizing before before' scan with
  | nil => rfl
  | cons c rest ih =>
    rw [findTopLevel, findTopLevel, same]
    split
    · rfl
    · cases scan.step c with
      | none => rfl
      | some scan' => exact ih rfl

def kwHit (kw : Text) (before : Option Char) (text : Text) : Bool :=
  startsWithNoCase kw text && before.all isAsciiSpace && (text.drop kw.length).head?.all isAsciiSpace

theorem findTopLevelKw_eq (kw s : Text) :
    findTopLevelKw kw s = findTopLevel (kwHit kw) s [] .start := rfl

/-- A blank behind a text ends a keyword as the end of the text does. -/
theorem kwHit_blind {kw rest : Text} (lower : kw.map Char.toLower = kw)
    (straddle : ∀ front back, kw = front ++ ' ' :: back → startsWithNoCase back rest = false)
    (before : Option Char) (back : Text) :
    kwHit kw before (back ++ ' ' :: rest) = kwHit kw before back := by
  unfold kwHit
  rcases Nat.lt_or_ge back.length kw.length with short | long
  · have alone : startsWithNoCase kw back = false := by
      rw [Bool.eq_false_iff]
      intro begins
      have fits := (List.isPrefixOf_iff_prefix.mp begins).length_le
      rw [List.length_map, List.length_map] at fits
      omega
    have together : startsWithNoCase kw (back ++ ' ' :: rest) = false := by
      rw [Bool.eq_false_iff]
      intro begins
      have begins := List.isPrefixOf_iff_prefix.mp begins
      rw [lower, List.map_append, List.map_cons] at begins
      have front := List.prefix_of_prefix_length_le
        (List.prefix_append (back.map Char.toLower) (' '.toLower :: rest.map Char.toLower)) begins
        (by rw [List.length_map]; omega)
      obtain ⟨tail, whole⟩ := front
      rw [← whole, List.prefix_append_right_inj] at begins
      cases tail with
      | nil =>
        rw [← whole, List.append_nil, List.length_map] at short
        omega
      | cons d tail =>
        obtain ⟨rfl, behind⟩ := List.cons_prefix_cons.mp begins
        have never := straddle _ tail whole.symm
        have tail_lower : tail.map Char.toLower = tail := by
          rw [← whole, List.map_append, List.map_cons] at lower
          exact (List.cons.inj (List.append_inj_right lower (by simp))).2
        rw [startsWithNoCase, tail_lower] at never
        have found : peekStr tail (rest.map Char.toLower) = true :=
          List.isPrefixOf_iff_prefix.mpr behind
        cases never.symm.trans found
    rw [alone, together]
    rfl
  · have same : startsWithNoCase kw (back ++ ' ' :: rest) = startsWithNoCase kw back := by
      rw [Bool.eq_iff_iff]
      unfold startsWithNoCase peekStr
      rw [List.isPrefixOf_iff_prefix, List.isPrefixOf_iff_prefix, List.map_append]
      constructor
      · intro begins
        exact List.prefix_of_prefix_length_le begins (List.prefix_append _ _) (by simpa using long)
      · exact fun begins => begins.trans (List.prefix_append _ _)
    rw [same, List.drop_append_of_le_length long]
    cases behind : back.drop kw.length with
    | nil => rfl
    | cons d more => rfl

theorem startsWithNoCase_own (kw behind : Text) : startsWithNoCase kw (kw ++ behind) = true := by
  unfold startsWithNoCase peekStr
  rw [List.isPrefixOf_iff_prefix, List.map_append]
  exact List.prefix_append _ _

/-- A keyword behind a blank is found at once. -/
theorem findTopLevel_here (first : Char) (kw : Text) (plain : Scan.start.isMark first = false)
    (before behind : Text) (blank_before : before.head?.all isAsciiSpace = true)
    (blank_behind : behind.head?.all isAsciiSpace = true) :
    findTopLevel (kwHit (first :: kw)) (first :: kw ++ behind) before .start =
      some (before.reverse, first :: kw ++ behind) := by
  have hit : kwHit (first :: kw) before.head? (first :: kw ++ behind) = true := by
    unfold kwHit
    rw [startsWithNoCase_own, blank_before, List.drop_left, blank_behind]
    rfl
  rw [List.cons_append] at hit ⊢
  rw [findTopLevel, if_pos]
  rw [plain, hit]
  rfl

end Scanning

section Trimming

theorem head_visible {text : Text} (trimmed : trimText text = text) {c : Char}
    (first : text.head? = some c) : isWhite c = false := by
  obtain ⟨rest, rfl⟩ := List.head?_eq_some_iff.mp first
  by_contra other
  have white : isWhite c = true := by simpa using other
  have shorter : (trimText (c :: rest)).length ≤ rest.length := by
    unfold trimText trimStart
    rw [List.length_reverse, List.dropWhile_cons_of_pos white]
    have outer := List.dropWhile_suffix isWhite (l := (rest.dropWhile isWhite).reverse)
    have inner := List.dropWhile_suffix isWhite (l := rest)
    have bound := outer.length_le
    rw [List.length_reverse] at bound
    exact bound.trans inner.length_le
  rw [trimmed, List.length_cons] at shorter
  omega

theorem last_visible {text : Text} (trimmed : trimText text = text) {c : Char}
    (last : text.getLast? = some c) : isWhite c = false := by
  have back : (trimStart text).reverse.dropWhile isWhite = text.reverse := by
    rw [← List.reverse_reverse ((trimStart text).reverse.dropWhile isWhite)]
    exact congrArg List.reverse trimmed
  have first := List.head?_dropWhile_not isWhite (trimStart text).reverse
  rw [back, List.head?_reverse, last] at first
  simpa using first

/-- Blanks around a text with visible ends are trimmed away, and nothing else. -/
theorem trimText_around {lead text trail : Text} (blank_lead : Blank lead)
    (blank_trail : Blank trail) (some_text : text ≠ [])
    (first : ∀ c, text.head? = some c → isWhite c = false)
    (last : ∀ c, text.getLast? = some c → isWhite c = false) :
    trimText (lead ++ (text ++ trail)) = text := by
  obtain ⟨c, rest, rfl⟩ := List.exists_cons_of_ne_nil some_text
  have starts : trimStart (lead ++ (c :: rest ++ trail)) = c :: rest ++ trail := by
    rw [trimStart, List.dropWhile_append_of_pos blank_lead, List.cons_append,
      List.dropWhile_cons_of_neg (by simp [first c rfl])]
  rw [trimText, starts, List.reverse_append, List.dropWhile_append_of_pos
    (fun d member => blank_trail d (List.mem_reverse.mp member))]
  cases back : (c :: rest).reverse with
  | nil => simp at back
  | cons d more =>
    have ends : (c :: rest).getLast? = some d := by rw [← List.head?_reverse, back]; rfl
    rw [List.dropWhile_cons_of_neg (by simp [last d ends]), ← back, List.reverse_reverse]

end Trimming

section Clauses

def limitKw : Text := "limit".toList
def orderByKw : Text := "order by".toList

/-- What is done with the text before a `limit`. -/
def orderPart (head : Text) (limit : Option Text) : Option TailClauses :=
  match findTopLevelKw orderByKw head with
  | none => some ⟨trimText head, none, limit⟩
  | some (before, rest) =>
    let cols := trimText (rest.drop 8)
    if isSupportedOrderByCols cols then some ⟨trimText before, some cols, limit⟩ else none

/-- The digits behind a word `limit`. -/
def limitDigits (rest : Text) : Text := (trimStart (rest.drop 5)).takeWhile Char.isDigit

def limitPart (s : Text) : Option (Text × Option Text) :=
  match findTopLevelKw limitKw s with
  | none => some (s, none)
  | some (before, rest) =>
    if (limitDigits rest).isEmpty then some (s, none)
    else if (trimText ((trimStart (rest.drop 5)).dropWhile Char.isDigit)).isEmpty then
      some (before, some (limitDigits rest))
    else none

theorem splitTailClauses_eq {s : Text} (some_text : trimText s ≠ []) :
    splitTailClauses s =
      (limitPart (trimText s)).bind fun parts => orderPart parts.1 parts.2 := by
  have seen : (trimText s).isEmpty = false := by simpa using some_text
  unfold splitTailClauses limitPart
  simp only [seen, Bool.false_eq_true, if_false]
  change (match findTopLevelKw limitKw (trimText s) with | none => _ | some (before, rest) => _) = _
  cases findTopLevelKw limitKw (trimText s) with
  | none => rfl
  | some cut =>
    cases none_there : ((trimStart (cut.2.drop 5)).takeWhile Char.isDigit).isEmpty with
    | true =>
      simp only [limitDigits, none_there, if_true]
      rfl
    | false =>
      cases nothing : (trimText ((trimStart (cut.2.drop 5)).dropWhile Char.isDigit)).isEmpty with
      | true =>
        simp only [limitDigits, none_there, nothing, Bool.false_eq_true, if_true, if_false]
        rfl
      | false =>
        simp only [limitDigits, none_there, nothing, Bool.false_eq_true, if_false]
        rfl

theorem orderPart_limit {head : Text} {limit : Option Text} {out : TailClauses}
    (part : orderPart head limit = some out) : out.limit = limit := by
  unfold orderPart at part
  split at part
  · cases part
    rfl
  · dsimp only at part
    split at part
    · cases part
      rfl
    · cases part

/-- The columns that come back are trimmed. -/
theorem split_orderBy_trimmed {s cols : Text} {out : TailClauses}
    (cut : splitTailClauses s = some out) (order : out.orderBy = some cols) :
    trimText cols = cols := by
  by_cases some_text : trimText s = []
  · unfold splitTailClauses at cut
    simp only [some_text, List.isEmpty_nil, if_true, Option.some.injEq] at cut
    rw [← cut] at order
    cases order
  · rw [splitTailClauses_eq some_text] at cut
    obtain ⟨parts, -, part⟩ := Option.bind_eq_some_iff.mp cut
    unfold orderPart at part
    split at part
    · cases part
      cases order
    · dsimp only at part
      split at part
      · cases part
        cases order
        exact trimText_trimmed _
      · cases part

/-- Where the word `limit` is followed by no digit there is no clause. -/
theorem split_without_limit {s : Text} (trimmed : trimText s = s) (some_text : s ≠ [])
    (quiet : ∀ cut, findTopLevelKw limitKw s = some cut → limitDigits cut.2 = []) :
    splitTailClauses s = orderPart s none := by
  rw [splitTailClauses_eq (by rwa [trimmed]), trimmed, limitPart]
  cases found : findTopLevelKw limitKw s with
  | none => rfl
  | some cut =>
    dsimp only
    rw [quiet cut found, if_pos List.isEmpty_nil]
    rfl

/-- A keyword in a text that goes on behind a blank. -/
theorem findTopLevel_gap {kw rest front : Text} (lower : kw.map Char.toLower = kw)
    (straddle : ∀ head back, kw = head ++ ' ' :: back → startsWithNoCase back rest = false)
    (misses : ∀ before, kwHit kw before (' ' :: rest) = false)
    (passes : Scan.start.through front = some .start) (before : Text) :
    findTopLevel (kwHit kw) (front ++ ' ' :: rest) before .start =
      ((findTopLevel (kwHit kw) front before .start).map fun cut =>
        (cut.1, cut.2 ++ ' ' :: rest)).or
          (findTopLevel (kwHit kw) rest (' ' :: (front.reverse ++ before)) .start) := by
  rw [findTopLevel_append passes (kwHit_blind lower straddle)]
  congr 1
  rw [findTopLevel, misses, if_neg (by simp)]
  rfl

theorem limit_unbroken (head back : Text) : limitKw ≠ head ++ ' ' :: back := by
  intro whole
  have inside : ' ' ∈ limitKw := whole ▸ List.mem_append_right _ List.mem_cons_self
  revert inside
  decide

theorem limit_gap {front : Text} (passes : Scan.start.through front = some .start)
    (rest before : Text) :
    findTopLevel (kwHit limitKw) (front ++ ' ' :: rest) before .start =
      ((findTopLevel (kwHit limitKw) front before .start).map fun cut =>
        (cut.1, cut.2 ++ ' ' :: rest)).or
          (findTopLevel (kwHit limitKw) rest (' ' :: (front.reverse ++ before)) .start) :=
  findTopLevel_gap rfl (fun head back whole => absurd whole (limit_unbroken head back))
    (fun _ => rfl) passes before

theorem orderBy_break {head back : Text} (whole : orderByKw = head ++ ' ' :: back) :
    back = "by".toList := by
  have here : orderByKw[head.length]? = some ' ' := by
    rw [whole]
    simp
  have inside : head.length < 8 := by
    have size := congrArg List.length whole
    rw [List.length_append, List.length_cons, show orderByKw.length = 8 from rfl] at size
    omega
  have place : head.length = 5 := by
    generalize head.length = n at here inside
    revert here
    revert n
    decide
  have parts : "order".toList ++ ' ' :: "by".toList = head ++ ' ' :: back := whole
  obtain ⟨-, behind⟩ := List.append_inj parts place.symm
  exact (List.cons.inj behind).2.symm

/-- The first `order by` behind a text without one. -/
theorem orderBy_behind {c : Text} (passes : Scan.start.through c = some .start)
    (alone : findTopLevelKw orderByKw c = none) (cols : Text) :
    findTopLevelKw orderByKw (c ++ ' ' :: (orderByKw ++ ' ' :: cols)) =
      some (c ++ [' '], orderByKw ++ ' ' :: cols) := by
  rw [findTopLevelKw_eq] at alone ⊢
  rw [findTopLevel_gap rfl (fun head back whole => by rw [orderBy_break whole]; rfl)
    (fun _ => rfl) passes, alone, Option.map_none, Option.none_or]
  have here := findTopLevel_here 'o' "rder by".toList rfl (' ' :: (c.reverse ++ [])) (' ' :: cols)
    rfl rfl
  rw [List.append_nil] at here ⊢
  rw [show orderByKw = 'o' :: "rder by".toList from rfl, here, List.reverse_cons,
    List.reverse_reverse]

theorem no_orderBy_behind {c : Text} (passes : Scan.start.through c = some .start)
    (alone : findTopLevelKw orderByKw c = none) : findTopLevelKw orderByKw (c ++ [' ']) = none := by
  rw [findTopLevelKw_eq] at alone ⊢
  rw [findTopLevel_gap rfl (fun head back whole => by rw [orderBy_break whole]; rfl)
    (fun _ => rfl) passes, alone]
  rfl

theorem findTopLevel_suffix {hit : Option Char → Text → Bool} {text before : Text} {scan : Scan}
    {cut : Text × Text} (found : findTopLevel hit text before scan = some cut) : cut.2 <:+ text := by
  induction text generalizing before scan with
  | nil => cases found
  | cons c rest ih =>
    rw [findTopLevel] at found
    split at found
    · cases found
      exact List.suffix_rfl
    · split at found
      · cases found
      · exact (ih found).trans (List.suffix_cons c rest)

theorem limit_word {text before : Text} {scan : Scan} {cut : Text × Text}
    (found : findTopLevel (kwHit limitKw) text before scan = some cut) :
    (cut.2.take 5).map Char.toLower = limitKw ∧ (cut.2.drop 5).head?.all isAsciiSpace = true := by
  have hit := (findTopLevel_some found).2
  simp only [kwHit, Bool.and_eq_true] at hit
  exact ⟨startsWithNoCase_take hit.1.1, hit.2⟩

theorem limitDigits_append {word rest : Text} (long : 5 ≤ word.length)
    (quiet : limitDigits word = []) (rest_quiet : (trimStart rest).takeWhile Char.isDigit = []) :
    limitDigits (word ++ rest) = [] := by
  unfold limitDigits trimStart at *
  rw [List.drop_append_of_le_length long, List.dropWhile_append]
  split
  · exact rest_quiet
  · rename_i visible
    cases behind : (word.drop 5).dropWhile isWhite with
    | nil => exact absurd (by rw [behind]; rfl) visible
    | cons d more =>
      rw [behind] at quiet
      rw [List.cons_append, List.takeWhile_cons]
      rw [List.takeWhile_cons] at quiet
      split at quiet
      · cases quiet
      · rename_i other
        rw [if_neg other]

theorem limit_word_long {word : Text} (spelled : (word.take 5).map Char.toLower = limitKw) :
    5 ≤ word.length := by
  have size := congrArg List.length spelled
  rw [List.length_map, List.length_take, show limitKw.length = 5 from rfl] at size
  omega

/-- A column called `limit` is not followed by digits. -/
theorem columns_quiet {cols before : Text} {scan : Scan} {cut : Text × Text}
    (supported : isSupportedOrderByCols cols = true)
    (found : findTopLevel (kwHit limitKw) cols before scan = some cut) : limitDigits cut.2 = [] := by
  obtain ⟨spelled, bounded⟩ := limit_word found
  obtain ⟨front, whole⟩ := findTopLevel_suffix found
  obtain ⟨gap, blank, cutting⟩ := blank_dropWhile (cut.2.drop 5)
  unfold limitDigits trimStart
  cases behind : (cut.2.drop 5).dropWhile isWhite with
  | nil => rfl
  | cons d more =>
    cases digit : d.isDigit with
    | false => rw [List.takeWhile_cons_of_neg (by simp [digit])]
    | true =>
      rw [behind] at cutting
      have some_gap : gap ≠ [] := by
        rintro rfl
        rw [cutting] at bounded
        obtain ⟨low, high⟩ := digit_range digit
        simp [isAsciiSpace, Char.ext_iff, UInt32.ext_iff] at bounded
        have code : d.val.toNat = d.toNat := rfl
        omega
      have letters : ∀ c ∈ cut.2.take 5, c.toLower ∈ limitKw := by
        intro c member
        rw [← spelled]
        exact List.mem_map_of_mem member
      have parts : cols = front ++ (cut.2.take 5 ++ (gap ++ d :: more)) := by
        rw [← cutting, List.take_append_drop, whole]
      refine (no_digit_behind supported ?_ ?_ some_gap blank digit parts).elim
      · have long := limit_word_long spelled
        obtain ⟨c, others, first⟩ := List.exists_cons_of_ne_nil
          (show cut.2.take 5 ≠ [] from List.ne_nil_of_length_pos (by rw [List.length_take]; omega))
        refine ⟨c, first ▸ List.mem_cons_self, ?_⟩
        have letter := letters c (first ▸ List.mem_cons_self)
        by_contra other
        have white : isWhite c = true := by simpa using other
        have alpha := List.all_eq_true.mp (show limitKw.all Char.isAlpha = true by decide) _ letter
        rw [Char.isAlpha_toLower_eq_isAlpha] at alpha
        exact absurd white (by simp [alpha_visible alpha])
      · intro comma
        exact absurd (letters ',' comma) (by decide)

section Claim
variable {c : Text}

theorem alone_quiet (some_text : c ≠ []) (trimmed : trimText c = c)
    (alone : splitTailClauses c = some ⟨c, none, none⟩) {cut : Text × Text}
    (found : findTopLevelKw limitKw c = some cut) : limitDigits cut.2 = [] := by
  rw [splitTailClauses_eq (by rwa [trimmed]), trimmed, limitPart, found] at alone
  dsimp only at alone
  split at alone
  · next quiet => exact List.isEmpty_iff.mp quiet
  · split at alone
    · cases orderPart_limit alone
    · cases alone

theorem alone_no_orderBy (some_text : c ≠ []) (trimmed : trimText c = c)
    (alone : splitTailClauses c = some ⟨c, none, none⟩) : findTopLevelKw orderByKw c = none := by
  have part := split_without_limit trimmed some_text
    (fun _ found => alone_quiet some_text trimmed alone found)
  rw [alone, orderPart] at part
  split at part
  · next absent => exact absent
  · dsimp only at part
    split at part
    · cases part
    · cases part

theorem trimmed_append {tail : Text} (some_text : c ≠ []) (trimmed : trimText c = c)
    (some_tail : tail ≠ []) (last : ∀ d, tail.getLast? = some d → isWhite d = false) :
    trimText (c ++ tail) = c ++ tail := by
  have around : trimText ([] ++ (c ++ tail ++ [])) = c ++ tail :=
    trimText_around Blank.nothing Blank.nothing (by simp [some_text]) ?_ ?_
  · rwa [List.append_nil] at around
  · intro d first
    rw [List.head?_append_of_ne_nil _ some_text] at first
    exact head_visible trimmed first
  · intro d ends
    rw [List.getLast?_append_of_ne_nil _ some_tail] at ends
    exact last d ends

theorem trimText_both {lead trail : Text} (blank_lead : Blank lead) (blank_trail : Blank trail)
    (some_text : c ≠ []) (trimmed : trimText c = c) : trimText (lead ++ (c ++ trail)) = c :=
  trimText_around blank_lead blank_trail some_text (fun _ => head_visible trimmed)
    (fun _ => last_visible trimmed)

theorem orderBy_nonempty {cols : Text} (supported : isSupportedOrderByCols cols = true) :
    cols ≠ [] := by
  rintro rfl
  cases supported

/-- The columns are taken off again. -/
theorem orderPart_behind {cols trail : Text} {limit : Option Text} (some_text : c ≠ [])
    (trimmed : trimText c = c) (passes : Scan.start.through c = some .start)
    (absent : findTopLevelKw orderByKw c = none) (supported : isSupportedOrderByCols cols = true)
    (trimmed_cols : trimText cols = cols) (blank : Blank trail) :
    orderPart (c ++ ' ' :: (orderByKw ++ ' ' :: (cols ++ trail))) limit =
      some ⟨c, some cols, limit⟩ := by
  have front := trimText_both Blank.nothing Blank.space some_text trimmed
  have back := trimText_both Blank.space blank (orderBy_nonempty supported) trimmed_cols
  rw [List.nil_append] at front
  rw [List.singleton_append] at back
  have behind : (orderByKw ++ ' ' :: (cols ++ trail)).drop 8 = ' ' :: (cols ++ trail) := rfl
  rw [orderPart, orderBy_behind passes absent]
  dsimp only
  rw [behind, back, front, if_pos supported]

/-- A real `limit` that is the first such word is taken off. -/
theorem split_limit {s head n : Text} (some_text : s ≠ []) (trimmed : trimText s = s)
    (found : findTopLevelKw limitKw s = some (head, limitKw ++ ' ' :: n)) (some_digits : n ≠ [])
    (digits : ∀ d ∈ n, d.isDigit = true) : splitTailClauses s = orderPart head (some n) := by
  have starts : trimStart ((limitKw ++ ' ' :: n).drop 5) = n := by
    obtain ⟨d, rest, rfl⟩ := List.exists_cons_of_ne_nil some_digits
    have visible := digit_not_white (digits d List.mem_cons_self)
    show (' ' :: d :: rest).dropWhile isWhite = d :: rest
    rw [List.dropWhile_cons_of_pos rfl, List.dropWhile_cons_of_neg (by simp [visible])]
  have taken : n.takeWhile Char.isDigit = n := by
    rw [← List.append_nil (n.takeWhile Char.isDigit), ← List.dropWhile_eq_nil_iff.mpr digits,
      List.takeWhile_append_dropWhile]
  have read : limitDigits (limitKw ++ ' ' :: n) = n := by rw [limitDigits, starts, taken]
  rw [splitTailClauses_eq (by rwa [trimmed]), trimmed, limitPart, found]
  dsimp only
  rw [read, starts, List.dropWhile_eq_nil_iff.mpr digits, if_neg (by simpa using some_digits),
    if_pos (by rfl)]
  rfl

/-- A word `limit` that stands first and has no digits behind it hides the others. -/
theorem split_hidden {s : Text} {cut : Text × Text} {out : TailClauses} (some_text : s ≠ [])
    (trimmed : trimText s = s) (found : findTopLevelKw limitKw s = some cut)
    (quiet : limitDigits cut.2 = []) (split : splitTailClauses s = some out) :
    out.limit = none := by
  rw [split_without_limit trimmed some_text] at split
  · exact orderPart_limit split
  · intro other same
    rw [← Option.some.inj (found.symm.trans same)]
    exact quiet

/-- The columns of a list keep the scan where it is. -/
theorem columns_pass {cols : Text} (supported : isSupportedOrderByCols cols = true) :
    Scan.start.through cols = some .start := by
  have plain := orderBy_chars supported
  clear supported
  induction cols with
  | nil => rfl
  | cons d rest ih =>
    obtain ⟨first, others⟩ := List.forall_mem_cons.mp plain
    have kept : Scan.start.step d = some .start := by
      have unmarked (mark : Char) (other : isOrderByChar mark = false) : d ≠ mark := by
        rintro rfl
        cases first.symm.trans other
      simp [Scan.step, unmarked '\'' (by decide), unmarked '"' (by decide),
        unmarked '(' (by decide), unmarked ')' (by decide)]
    rw [Scan.through, List.foldlM_cons, kept]
    exact ih others

theorem limit_behind_orderBy (passes : Scan.start.through c = some .start) (rest : Text) :
    findTopLevelKw limitKw (c ++ ' ' :: (orderByKw ++ ' ' :: rest)) =
      ((findTopLevelKw limitKw c).map fun cut =>
        (cut.1, cut.2 ++ ' ' :: (orderByKw ++ ' ' :: rest))).or
          (findTopLevel (kwHit limitKw) rest
            (' ' :: (orderByKw.reverse ++ ' ' :: (c.reverse ++ []))) .start) := by
  have none_there (before : Text) :
      findTopLevel (kwHit limitKw) orderByKw before .start = none := rfl
  rw [findTopLevelKw_eq, limit_gap passes, limit_gap (show _ = some Scan.start from rfl),
    none_there, Option.map_none, Option.none_or]
  rfl

theorem limit_here (before n : Text) :
    findTopLevel (kwHit limitKw) (limitKw ++ ' ' :: n) (' ' :: before) .start =
      some (before.reverse ++ [' '], limitKw ++ ' ' :: n) := by
  have here := findTopLevel_here 'l' "imit".toList rfl (' ' :: before) (' ' :: n) rfl rfl
  rw [List.reverse_cons] at here
  exact here

theorem last_of_append {front back : Text} (some_back : back ≠ [])
    (last : ∀ d, back.getLast? = some d → isWhite d = false) :
    ∀ d, (front ++ back).getLast? = some d → isWhite d = false := by
  intro d ends
  rw [List.getLast?_append_of_ne_nil _ some_back] at ends
  exact last d ends

theorem digits_last {n : Text} (digits : ∀ d ∈ n, d.isDigit = true) :
    ∀ d, n.getLast? = some d → isWhite d = false :=
  fun d ends => digit_not_white (digits d (List.mem_of_getLast? ends))

/-- With the clauses put behind it the text has visible ends. -/
theorem appendTail_trimmed (some_text : c ≠ []) (trimmed : trimText c = c)
    {orderBy limit : Option Text} (trimmed_cols : ∀ cols ∈ orderBy, trimText cols = cols)
    (columns : ∀ cols ∈ orderBy, isSupportedOrderByCols cols = true)
    (digits : ∀ n ∈ limit, n ≠ [] ∧ ∀ d ∈ n, d.isDigit = true) :
    trimText (appendTail c orderBy limit) = appendTail c orderBy limit := by
  have cols_last (cols : Text) (given : cols ∈ orderBy) :
      ∀ d, cols.getLast? = some d → isWhite d = false := fun d => last_visible (trimmed_cols cols given)
  unfold appendTail
  cases orderBy with
  | none =>
    cases limit with
    | none => simpa using trimmed
    | some n =>
      obtain ⟨some_digits, digits⟩ := digits n rfl
      rw [List.append_nil]
      exact trimmed_append some_text trimmed (by simp)
        (last_of_append some_digits (digits_last digits))
  | some cols =>
    cases limit with
    | none =>
      rw [List.append_nil]
      exact trimmed_append some_text trimmed (by simp)
        (last_of_append (orderBy_nonempty (columns cols rfl)) (cols_last cols rfl))
    | some n =>
      obtain ⟨some_digits, digits⟩ := digits n rfl
      rw [List.append_assoc]
      exact trimmed_append some_text trimmed (by simp)
        (last_of_append (by simp) (last_of_append some_digits (digits_last digits)))

theorem appendTail_nonempty (some_text : c ≠ []) (orderBy limit : Option Text) :
    appendTail c orderBy limit ≠ [] := by
  simp [appendTail, some_text]

theorem limit_not_hidden (some_text : c ≠ []) (trimmed : trimText c = c)
    (alone : splitTailClauses c = some ⟨c, none, none⟩) {text n : Text}
    {orderBy : Option Text} {tail : Text} (quiet_tail : (trimStart (' ' :: tail)).takeWhile Char.isDigit = [])
    (some_whole : text ≠ []) (trimmed_whole : trimText text = text)
    {later : Option (Text × Text)}
    (search : findTopLevelKw limitKw text =
      ((findTopLevelKw limitKw c).map fun cut => (cut.1, cut.2 ++ ' ' :: tail)).or later)
    (split : splitTailClauses text = some ⟨c, orderBy, some n⟩) :
    findTopLevelKw limitKw c = none := by
  cases found : findTopLevelKw limitKw c with
  | none => rfl
  | some cut =>
    rw [found] at search
    rw [findTopLevelKw_eq] at found
    have long := limit_word_long (limit_word found).1
    have quiet := limitDigits_append long (alone_quiet some_text trimmed alone found) quiet_tail
    cases split_hidden some_whole trimmed_whole search quiet split

theorem append_orderBy (base cols : Text) :
    appendTail base (some cols) none = base ++ ' ' :: (orderByKw ++ ' ' :: (cols ++ [])) := by
  have clause : " order by ".toList = ' ' :: (orderByKw ++ [' ']) := rfl
  unfold appendTail
  rw [clause]
  simp only [List.append_nil, List.append_assoc, List.cons_append, List.nil_append]

theorem append_limit (base n : Text) :
    appendTail base none (some n) = base ++ ' ' :: (limitKw ++ ' ' :: n) := by
  have clause : " limit ".toList = ' ' :: (limitKw ++ [' ']) := rfl
  unfold appendTail
  rw [clause]
  simp only [List.append_nil, List.append_assoc, List.cons_append, List.nil_append]

theorem append_both (base cols n : Text) :
    appendTail base (some cols) (some n) =
      base ++ ' ' :: (orderByKw ++ ' ' :: (cols ++ ' ' :: (limitKw ++ ' ' :: n))) := by
  have order : " order by ".toList = ' ' :: (orderByKw ++ [' ']) := rfl
  have limit : " limit ".toList = ' ' :: (limitKw ++ [' ']) := rfl
  unfold appendTail
  rw [order, limit]
  simp only [List.append_assoc, List.cons_append, List.nil_append]

theorem quiet_limit (n : Text) :
    (trimStart (' ' :: (limitKw ++ ' ' :: n))).takeWhile Char.isDigit = [] := rfl

theorem quiet_orderBy (rest : Text) :
    (trimStart (' ' :: (orderByKw ++ ' ' :: rest))).takeWhile Char.isDigit = [] := rfl

theorem columns_search (cols before : Text) :
    findTopLevel (kwHit limitKw) cols (' ' :: before) .start = none ↔
      findTopLevelKw limitKw cols = none := by
  have same : (findTopLevel (kwHit limitKw) cols (' ' :: before) .start).map Prod.snd =
      (findTopLevel (kwHit limitKw) cols [] .start).map Prod.snd := findTopLevel_before rfl
  rw [findTopLevelKw_eq]
  constructor
  · intro absent
    rw [absent] at same
    exact Option.map_eq_none_iff.mp same.symm
  · intro absent
    rw [absent] at same
    exact Option.map_eq_none_iff.mp same

/-- What was put behind a condition comes off again, exactly when the columns have no blanks around
    them and, if there is a limit, no word `limit` stands before it. -/
theorem tail_clauses_split_and_join_iff (some_text : c ≠ []) (trimmed : trimText c = c)
    (balanced : Scan.start.through c = some .start)
    (alone : splitTailClauses c = some ⟨c, none, none⟩) (orderBy limit : Option Text)
    (columns : ∀ cols ∈ orderBy, isSupportedOrderByCols cols = true)
    (digits : ∀ n ∈ limit, n ≠ [] ∧ ∀ d ∈ n, d.isDigit = true) :
    splitTailClauses (appendTail c orderBy limit) = some ⟨c, orderBy, limit⟩ ↔
      (∀ cols ∈ orderBy, trimText cols = cols) ∧
        (limit ≠ none → findTopLevelKw limitKw c = none ∧
          ∀ cols ∈ orderBy, findTopLevelKw limitKw cols = none) := by
  have absent := alone_no_orderBy some_text trimmed alone
  have some_whole := appendTail_nonempty some_text orderBy limit
  constructor
  · intro split
    have trimmed_cols : ∀ cols ∈ orderBy, trimText cols = cols := by
      intro cols given
      exact split_orderBy_trimmed split given
    have trimmed_whole := appendTail_trimmed some_text trimmed trimmed_cols columns digits
    refine ⟨trimmed_cols, ?_⟩
    intro limited
    obtain ⟨n, rfl⟩ := Option.ne_none_iff_exists'.mp limited
    cases orderBy with
    | none =>
      have search := limit_gap balanced (limitKw ++ ' ' :: n) []
      rw [append_limit] at split some_whole trimmed_whole
      refine ⟨limit_not_hidden some_text trimmed alone (quiet_limit n) some_whole trimmed_whole
        search split, ?_⟩
      intro cols given
      cases given
    | some cols =>
      have supported := columns cols rfl
      rw [append_both] at split some_whole trimmed_whole
      have search := limit_behind_orderBy balanced (cols ++ ' ' :: (limitKw ++ ' ' :: n))
      have unhidden := limit_not_hidden some_text trimmed alone (quiet_orderBy _) some_whole
        trimmed_whole search split
      refine ⟨unhidden, ?_⟩
      intro other given
      cases given
      rw [unhidden, Option.map_none, Option.none_or, limit_gap (columns_pass supported)] at search
      cases found : findTopLevel (kwHit limitKw) cols
          (' ' :: (orderByKw.reverse ++ ' ' :: (c.reverse ++ []))) .start with
      | none => exact (columns_search cols _).mp found
      | some cut =>
        rw [found] at search
        have quiet := limitDigits_append (limit_word_long (limit_word found).1)
          (columns_quiet supported found) (quiet_limit n)
        cases split_hidden some_whole trimmed_whole search quiet split
  · rintro ⟨trimmed_cols, unhidden⟩
    have trimmed_whole := appendTail_trimmed some_text trimmed trimmed_cols columns digits
    cases limit with
    | none =>
      cases orderBy with
      | none => simpa [appendTail] using alone
      | some cols =>
        have supported := columns cols rfl
        rw [append_orderBy] at some_whole trimmed_whole ⊢
        rw [split_without_limit trimmed_whole some_whole]
        · exact orderPart_behind some_text trimmed balanced absent supported (trimmed_cols cols rfl)
            Blank.nothing
        · intro cut found
          rw [limit_behind_orderBy balanced] at found
          cases first : findTopLevelKw limitKw c with
          | none =>
            rw [first, Option.map_none, Option.none_or, List.append_nil] at found
            exact columns_quiet supported found
          | some word =>
            rw [first] at found
            cases found
            have quiet := alone_quiet some_text trimmed alone first
            rw [findTopLevelKw_eq] at first
            exact limitDigits_append (limit_word_long (limit_word first).1) quiet
              (quiet_orderBy _)
    | some n =>
      obtain ⟨some_digits, digits⟩ := digits n rfl
      obtain ⟨first_word, columns_free⟩ := unhidden (by simp)
      cases orderBy with
      | none =>
        have search := limit_gap balanced (limitKw ++ ' ' :: n) []
        rw [← findTopLevelKw_eq, ← findTopLevelKw_eq, first_word, Option.map_none, Option.none_or,
          limit_here, List.append_nil, List.reverse_reverse] at search
        rw [append_limit] at some_whole trimmed_whole ⊢
        rw [split_limit some_whole trimmed_whole search some_digits digits, orderPart,
          no_orderBy_behind balanced absent]
        have front := trimText_both Blank.nothing Blank.space some_text trimmed
        rw [List.nil_append] at front
        dsimp only
        rw [front]
      | some cols =>
        have supported := columns cols rfl
        have search := limit_behind_orderBy balanced (cols ++ ' ' :: (limitKw ++ ' ' :: n))
        rw [first_word, Option.map_none, Option.none_or, limit_gap (columns_pass supported),
          (columns_search cols _).mpr (columns_free cols rfl), Option.map_none, Option.none_or, limit_here] at search
        rw [append_both] at some_whole trimmed_whole ⊢
        rw [split_limit some_whole trimmed_whole search some_digits digits]
        have head : (cols.reverse ++ ' ' :: (orderByKw.reverse ++ ' ' :: (c.reverse ++ []))).reverse ++
            [' '] = c ++ ' ' :: (orderByKw ++ ' ' :: (cols ++ [' '])) := by
          simp
        rw [head]
        exact orderPart_behind some_text trimmed balanced absent supported (trimmed_cols cols rfl)
          Blank.space

end Claim

deriving instance DecidableEq for TailClauses

/-- In quotes, or as a part of a name, `limit` does not count. -/
theorem quoted_limit_splits_and_joins :
    splitTailClauses (appendTail "a = 'limit 5'".toList (some "limit_x desc, b".toList)
        (some "10".toList)) =
      some ⟨"a = 'limit 5'".toList, some "limit_x desc, b".toList, some "10".toList⟩ := by
  refine (tail_clauses_split_and_join_iff (by decide) (by decide +kernel) (by decide +kernel)
    (by decide +kernel) _ _ ?_ ?_).mpr ⟨?_, fun _ => ⟨by decide +kernel, ?_⟩⟩
  · rintro cols ⟨⟩
    decide +kernel
  · rintro n ⟨⟩
    exact ⟨by decide, List.all_eq_true.mp (by decide)⟩
  · rintro cols ⟨⟩
    decide +kernel
  · rintro cols ⟨⟩
    decide +kernel

/-- A column called `limit` hides the clause behind it. -/
theorem column_limit_hides_the_clause :
    let c : Text := "limit = 5".toList
    let n : Text := "10".toList
    (c ≠ [] ∧ trimText c = c ∧ Scan.start.through c = some .start ∧
      splitTailClauses c = some ⟨c, none, none⟩ ∧ n ≠ [] ∧ n.all Char.isDigit = true) ∧
      splitTailClauses (appendTail c none (some n)) =
        some ⟨"limit = 5 limit 10".toList, none, none⟩ ∧
      splitTailClauses (appendTail c none (some n)) ≠ some ⟨c, none, some n⟩ := by
  decide +kernel

end Clauses
end WarpMotor.Oml
