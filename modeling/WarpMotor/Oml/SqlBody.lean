import Mathlib.Data.List.DropRight
import Mathlib.Data.List.TakeDrop
import Mathlib.Data.List.TakeWhile
import WarpMotor.Oml.Resolved

/-!
What the sanitizer of a query lets through: a list of columns, stars and calls,
and a source that is a table or a bracketed query of the same kind. The only
text it does not look into is the delimiter of a `string_agg`, which it takes
for a literal when it begins and ends with a quote.
-/
namespace WarpMotor.Oml

open Parsing

def Blank (text : Text) : Prop := ∀ c ∈ text, isWhite c = true

/-- The quote occurs only doubled. -/
inductive Escaped (quote : Char) : Text → Prop
  | nil : Escaped quote []
  | char {c : Char} {rest : Text} (other : c ≠ quote) (tail : Escaped quote rest) :
      Escaped quote (c :: rest)
  | doubled {rest : Text} (tail : Escaped quote rest) : Escaped quote (quote :: quote :: rest)

def IsQuote (c : Char) : Prop := c = '\'' ∨ c = '"'

/-- One literal of the language of queries. -/
def SingleLiteral (text : Text) : Prop :=
  ∃ quote content, IsQuote quote ∧ Escaped quote content ∧ text = quote :: content ++ [quote]

/-- What a function may be called with, and the delimiter in it. -/
inductive CallArgument (fnName : Text) : Text → List Text → Prop
  | column {arg : Text} (ident : isSqlIdent arg = true) : CallArgument fnName arg []
  | distinct {s₁ arg s₂ : Text} (b₁ : Blank s₁) (ident : isSqlIdent arg = true) (b₂ : Blank s₂) :
      CallArgument fnName ("distinct".toList ++ (s₁ ++ arg ++ s₂)) []
  | stringAgg {s₁ s₂ arg s₃ s₄ delimiter s₅ : Text}
      (named : fnName.map Char.toLower = "string_agg".toList) (b₁ : Blank s₁) (b₂ : Blank s₂)
      (ident : isSqlIdent arg = true) (b₃ : Blank s₃) (b₄ : Blank s₄) (b₅ : Blank s₅) :
      CallArgument fnName
        (s₁ ++ "distinct".toList ++ s₂ ++ arg ++ s₃ ++ ',' :: (s₄ ++ delimiter ++ s₅)) [delimiter]

/-- An item of the columns, with its delimiter. -/
inductive SelectItem : Text → List Text → Prop
  | star : SelectItem ['*'] []
  | column {name : Text} (ident : isSqlIdent name = true) : SelectItem name []
  | call {s₁ name s₂ s₃ arg s₄ : Text} {ds : List Text} (b₁ : Blank s₁)
      (ident : isSqlIdent name = true) (b₂ : Blank s₂) (b₃ : Blank s₃)
      (argument : CallArgument name arg ds) (b₄ : Blank s₄) :
      SelectItem (s₁ ++ name ++ s₂ ++ '(' :: (s₃ ++ arg ++ s₄) ++ [')']) ds

/-- Items between commas. -/
inductive SelectList : Text → List Text → Prop
  | last {s₁ item s₂ : Text} {ds : List Text} (b₁ : Blank s₁) (read : SelectItem item ds)
      (b₂ : Blank s₂) : SelectList (s₁ ++ item ++ s₂) ds
  | more {s₁ item s₂ rest : Text} {ds others : List Text} (b₁ : Blank s₁)
      (read : SelectItem item ds) (b₂ : Blank s₂) (tail : SelectList rest others) :
      SelectList (s₁ ++ item ++ s₂ ++ ',' :: rest) (ds ++ others)

/-- What may stand behind a bracketed source. -/
inductive SourceName : Text → Prop
  | none {s : Text} (blank : Blank s) : SourceName s
  | name {s₁ name s₂ : Text} (b₁ : Blank s₁) (ident : isSqlIdent name = true) (b₂ : Blank s₂) :
      SourceName (s₁ ++ name ++ s₂)
  | asName {s₁ word s₂ name s₃ : Text} (b₁ : Blank s₁)
      (keyword : word.map Char.toLower = "as ".toList) (b₂ : Blank s₂)
      (ident : isSqlIdent name = true) (b₃ : Blank s₃) :
      SourceName (s₁ ++ word ++ s₂ ++ name ++ s₃)

mutual
/-- Columns and a source, with the delimiters in them. -/
inductive SelectBody : Text → List Text → Prop
  | body {s₁ cols s₂ word s₃ source s₄ : Text} {ds others : List Text} (b₁ : Blank s₁)
      (columns : SelectList cols ds) (b₂ : Blank s₂)
      (keyword : word.map Char.toLower = "from".toList) (b₃ : Blank s₃)
      (origin : FromSource source others) (b₄ : Blank s₄) :
      SelectBody (s₁ ++ cols ++ s₂ ++ word ++ s₃ ++ source ++ s₄) (ds ++ others)

inductive FromSource : Text → List Text → Prop
  | table {name : Text} (ident : isSqlIdent name = true) : FromSource name []
  | query {s₁ word body s₂ name : Text} {ds : List Text} (b₁ : Blank s₁)
      (keyword : word.map Char.toLower = "select ".toList) (inner : SelectBody body ds)
      (b₂ : Blank s₂) (named : SourceName name) :
      FromSource ('(' :: (s₁ ++ word ++ body ++ s₂) ++ ')' :: name) ds
end

section Pieces

theorem blank_dropWhile (text : Text) : ∃ lead, Blank lead ∧ text = lead ++ text.dropWhile isWhite :=
  ⟨text.takeWhile isWhite, fun _ member => List.mem_takeWhile_imp member,
    List.takeWhile_append_dropWhile.symm⟩

theorem trimText_split (text : Text) :
    ∃ lead trail, Blank lead ∧ Blank trail ∧ text = lead ++ trimText text ++ trail := by
  obtain ⟨lead, blank_lead, starts⟩ := blank_dropWhile text
  obtain ⟨trail, blank_trail, ends⟩ := blank_dropWhile (trimStart text).reverse
  have back : trimStart text = trimText text ++ trail.reverse := by
    rw [← List.reverse_reverse (trimStart text), ends, List.reverse_append]
    rfl
  refine ⟨lead, trail.reverse, blank_lead, ?_, ?_⟩
  · intro c member
    exact blank_trail c (List.mem_reverse.mp member)
  · rw [List.append_assoc, ← back]
    exact starts

theorem Blank.nothing : Blank [] := by simp [Blank]

theorem Blank.space : Blank [' '] := by
  intro c member
  rw [List.mem_singleton.mp member]
  decide

theorem Blank.append {first second : Text} (b₁ : Blank first) (b₂ : Blank second) :
    Blank (first ++ second) := by
  intro c member
  rcases List.mem_append.mp member with left | right
  · exact b₁ c left
  · exact b₂ c right

/-- What is left after trimming twice. -/
theorem trimText_twice (text : Text) : ∃ lead trail, Blank lead ∧ Blank trail ∧
    text = lead ++ trimText (trimText text) ++ trail := by
  obtain ⟨lead, trail, blank_lead, blank_trail, outer⟩ := trimText_split text
  obtain ⟨lead', trail', blank_lead', blank_trail', middle⟩ := trimText_split (trimText text)
  refine ⟨lead ++ lead', trail' ++ trail, blank_lead.append blank_lead',
    blank_trail'.append blank_trail, ?_⟩
  calc text = lead ++ trimText text ++ trail := outer
    _ = lead ++ (lead' ++ trimText (trimText text) ++ trail') ++ trail := by rw [← middle]
    _ = lead ++ lead' ++ trimText (trimText text) ++ (trail' ++ trail) := by
      simp only [List.append_assoc]

theorem stripPrefix_some {start text rest : Text} (found : stripPrefix start text = some rest) :
    text = start ++ rest := by
  unfold stripPrefix at found
  split at found
  · next begins =>
    cases found
    obtain ⟨after, rfl⟩ := List.isPrefixOf_iff_prefix.mp begins
    rw [List.drop_left]
  · cases found

theorem stripSuffix_some {tail text rest : Text} (found : stripSuffix tail text = some rest) :
    text = rest ++ tail := by
  unfold stripSuffix at found
  split at found
  · next ends =>
    cases found
    obtain ⟨before, rfl⟩ := List.isSuffixOf_iff_suffix.mp ends
    have start : (before ++ tail).length - tail.length = before.length := by simp
    rw [start, List.take_left]
  · cases found

theorem startsWithNoCase_take {what text : Text} (begins : startsWithNoCase what text = true) :
    (text.take what.length).map Char.toLower = what.map Char.toLower := by
  obtain ⟨after, same⟩ := List.isPrefixOf_iff_prefix.mp begins
  rw [List.map_take, ← same, List.take_left' (by simp)]

theorem splitCommas_pieces {text current : Text} {scan : Scan} {items : List Text}
    (cut : splitCommas text current scan = some items) :
    ∃ first rest, current.reverse ++ text = joinTexts [','] (first :: rest) ∧
      items = (first :: rest).map trimText := by
  induction text generalizing current scan items with
  | nil =>
    rw [splitCommas] at cut
    split at cut
    · cases cut
    · cases cut
      exact ⟨current.reverse, [], by simp [joinTexts], rfl⟩
  | cons c rest ih =>
    rw [splitCommas] at cut
    split at cut
    · next comma =>
      dsimp only at cut
      split at cut
      · cases cut
      · obtain ⟨others, later, rfl⟩ := Option.map_eq_some_iff.mp cut
        obtain ⟨first, more, whole, rfl⟩ := ih later
        refine ⟨current.reverse, first :: more, ?_, rfl⟩
        simp only [Bool.and_eq_true, decide_eq_true_eq] at comma
        rw [joinTexts, ← whole, comma.1]
        · simp
        · simp
    · split at cut
      · cases cut
      · obtain ⟨first, more, whole, rfl⟩ := ih cut
        refine ⟨first, more, ?_, rfl⟩
        rw [← whole]
        simp

theorem findTopLevel_some {hit : Option Char → Text → Bool} {text before : Text} {scan : Scan}
    {left right : Text} (found : findTopLevel hit text before scan = some (left, right)) :
    left ++ right = before.reverse ++ text ∧ hit left.getLast? right = true := by
  induction text generalizing before scan with
  | nil => cases found
  | cons c rest ih =>
    rw [findTopLevel] at found
    split at found
    · next here =>
      cases found
      simp only [Bool.and_eq_true] at here
      refine ⟨rfl, ?_⟩
      rw [List.getLast?_reverse]
      exact here.2
    · split at found
      · cases found
      · obtain ⟨whole, met⟩ := ih found
        refine ⟨?_, met⟩
        rw [whole]
        simp

theorem findMatchingParen_some {text before : Text} {scan : Scan} {left right : Text}
    (found : findMatchingParen text before scan = some (left, right)) :
    ∃ piece, text = piece ++ ')' :: right ∧ left = (before.reverse ++ piece).drop 1 := by
  induction text generalizing before scan with
  | nil => cases found
  | cons c rest ih =>
    rw [findMatchingParen] at found
    split at found
    · cases found
    · split at found
      · next closes =>
        cases found
        simp only [Bool.and_eq_true, decide_eq_true_eq] at closes
        exact ⟨[], by rw [closes.1.1, List.nil_append], by simp⟩
      · obtain ⟨piece, whole, rfl⟩ := ih found
        exact ⟨c :: piece, by rw [whole, List.cons_append], by simp⟩

end Pieces

/-- The second argument of a `string_agg`. -/
def itemDelimiters (item : Text) : List Text :=
  match (trimText item).span (· ≠ '(') with
  | (_, []) => []
  | (fnName, _ :: rest) =>
    if (trimText fnName).map Char.toLower = "string_agg".toList then
      match (stripSuffix [')'] rest).bind (fun inner => splitTopLevelCommas (trimText inner)) with
      | some [_, delimiter] => [trimText delimiter]
      | _ => []
    else []

/-- The body of the query that a bracketed source holds. -/
def nestedBody (source : Text) : Option Text :=
  if isSqlIdent source then none
  else (findMatchingParen source [] .start).map (fun found => (trimText (trimText found.1)).drop 7)

/-- The delimiters of a body, those of the query it selects from included. -/
def delimiters : Nat → Text → List Text
  | 0, _ => []
  | fuel + 1, body =>
    match findTopLevelFrom (trimText body) with
    | none => []
    | some (colsPart, rest) =>
      ((splitTopLevelCommas colsPart).getD []).flatMap itemDelimiters ++
        (nestedBody (trimText (trimText (rest.drop 4)))).elim [] (delimiters fuel)

theorem ident_no_bracket {name : Text} (ident : isSqlIdent name = true) : '(' ∉ name := by
  intro member
  simp only [isSqlIdent, Bool.and_eq_true, List.all_eq_true] at ident
  exact absurd (ident.2 '(' member) (by decide)

theorem span_all {p : Char → Bool} {text : Text} (every : ∀ c ∈ text, p c = true) :
    text.span p = (text, []) := by
  rw [List.span_eq_takeWhile_dropWhile, List.takeWhile_eq_self_iff.mpr every,
    List.dropWhile_eq_nil_iff.mpr every]

theorem span_cut {text before after : Text} {c : Char}
    (cut : text.span (· ≠ '(') = (before, c :: after)) : text = before ++ '(' :: after := by
  rw [List.span_eq_takeWhile_dropWhile, Prod.mk.injEq] at cut
  have whole := @List.takeWhile_append_dropWhile _ (fun c => decide (c ≠ '(')) text
  have stop : c = '(' := by
    have head := List.head?_dropWhile_not (fun c => decide (c ≠ '(')) text
    rw [cut.2] at head
    simpa using head
  rw [cut.1, cut.2, stop] at whole
  exact whole.symm

theorem stringAgg_inner {fnName inner : Text}
    (named : fnName.map Char.toLower = "string_agg".toList)
    (supported : isSupportedStringAggInner inner = true) :
    ∃ expr delimiter, splitTopLevelCommas inner = some [expr, delimiter] ∧
      CallArgument fnName inner [trimText delimiter] ∧
      isSqlStringLiteral (trimText delimiter) = true := by
  unfold isSupportedStringAggInner at supported
  split at supported
  · next expr delimiter cut =>
    split at supported
    · next found starts =>
      simp only [Bool.and_eq_true] at supported
      obtain ⟨first, rest, whole, pieces⟩ := splitCommas_pieces cut
      match rest, pieces, whole with
      | [second], pieces, whole =>
        simp only [List.map_cons, List.map_nil, List.cons.injEq, and_true] at pieces
        obtain ⟨rfl, rfl⟩ := pieces
        obtain ⟨l₁, t₁, bl₁, bt₁, first_eq⟩ := trimText_twice first
        obtain ⟨l₂, t₂, bl₂, bt₂, found_eq⟩ := trimText_split found
        obtain ⟨l₃, t₃, bl₃, bt₃, second_eq⟩ := trimText_twice second
        rw [stripPrefix_some starts] at first_eq
        have inner_eq : inner = l₁ ++ "distinct".toList ++ l₂ ++ trimText found ++ (t₂ ++ t₁) ++
            ',' :: (l₃ ++ trimText (trimText second) ++ t₃) :=
          calc inner = first ++ ',' :: second := by simpa [joinTexts] using whole
            _ = (l₁ ++ ("distinct".toList ++ (l₂ ++ trimText found ++ t₂)) ++ t₁) ++
                ',' :: (l₃ ++ trimText (trimText second) ++ t₃) := by
              rw [← found_eq, ← first_eq, ← second_eq]
            _ = _ := by simp only [List.append_assoc]
        refine ⟨trimText first, trimText second, cut, ?_, supported.2⟩
        rw [inner_eq]
        exact .stringAgg named bl₁ bl₂ supported.1 (bt₂.append bt₁) bl₃ bt₃
    · cases supported
  · cases supported

theorem item_of_supported {item : Text} (supported : isSupportedSelectItem item = true) :
    SelectItem (trimText item) (itemDelimiters item) := by
  unfold isSupportedSelectItem at supported
  dsimp only at supported
  split at supported
  · next plain =>
    rw [Bool.or_eq_true, decide_eq_true_eq] at plain
    rcases plain with star | ident
    · have no_call : itemDelimiters item = [] := by
        rw [itemDelimiters, star]
        rfl
      rw [no_call, star]
      exact .star
    · have no_call : itemDelimiters item = [] := by
        rw [itemDelimiters, span_all]
        intro c member
        have other := ident_no_bracket ident
        simpa using fun same : c = '(' => other (same ▸ member)
      rw [no_call]
      exact .column ident
  · split at supported
    · cases supported
    · next fnName bracket rest cut =>
      have whole := span_cut cut
      split at supported
      · cases supported
      · next inner ends =>
        split at supported
        · cases supported
        · next named =>
          simp only [Bool.or_eq_true, not_or, Bool.not_eq_true, Bool.not_eq_false'] at named
          obtain ⟨l₁, t₁, bl₁, bt₁, name_eq⟩ := trimText_split fnName
          obtain ⟨l₂, t₂, bl₂, bt₂, inner_eq⟩ := trimText_split inner
          have item_eq : trimText item = l₁ ++ trimText fnName ++ t₁ ++
              '(' :: (l₂ ++ trimText inner ++ t₂) ++ [')'] :=
            calc trimText item = fnName ++ '(' :: (inner ++ [')']) := by
                  rw [whole, stripSuffix_some ends]
              _ = (l₁ ++ trimText fnName ++ t₁) ++
                  '(' :: ((l₂ ++ trimText inner ++ t₂) ++ [')']) := by rw [← name_eq, ← inner_eq]
              _ = _ := by simp only [List.append_assoc, List.cons_append]
          have reads : CallArgument (trimText fnName) (trimText inner) (itemDelimiters item) := by
            rw [itemDelimiters, cut]
            dsimp only
            split at supported
            · next aggregate =>
              obtain ⟨expr, delimiter, pieces, argument, -⟩ := stringAgg_inner aggregate supported
              rw [if_pos aggregate, ends, Option.bind_some, pieces]
              exact argument
            · next other =>
              rw [if_neg other]
              split at supported
              · next found starts =>
                obtain ⟨l₃, t₃, bl₃, bt₃, found_eq⟩ := trimText_split found
                rw [stripPrefix_some starts, found_eq]
                exact .distinct bl₃ supported bt₃
              · exact .column supported
          rw [item_eq]
          exact .call bl₁ named.1 bt₁ bl₂ reads bt₂

theorem item_literals {item : Text} (supported : isSupportedSelectItem item = true) :
    ∀ d ∈ itemDelimiters item, isSqlStringLiteral d = true := by
  intro d member
  unfold itemDelimiters at member
  split at member
  · cases member
  · next fnName bracket rest cut =>
    split at member
    · next aggregate =>
      split at member
      · next expr delimiter found =>
        rw [List.mem_singleton.mp member]
        obtain ⟨inner, ends, pieces⟩ := Option.bind_eq_some_iff.mp found
        unfold isSupportedSelectItem at supported
        dsimp only at supported
        split at supported
        · next plain =>
          have brackets : '(' ∈ trimText item := by
            rw [span_cut cut]
            simp
          rw [Bool.or_eq_true, decide_eq_true_eq] at plain
          rcases plain with star | ident
          · rw [star] at brackets
            exact absurd brackets (by decide)
          · exact absurd brackets (ident_no_bracket ident)
        · simp only [cut, ends] at supported
          split at supported
          · cases supported
          · obtain ⟨expr', delimiter', pieces', -, literal⟩ := stringAgg_inner aggregate supported
            rw [pieces] at pieces'
            cases pieces'
            exact literal
      · cases member
    · cases member

/-- A text that is an item with white space around it. -/
def HoldsItem (text : Text) (ds : List Text) : Prop :=
  ∃ lead item trail, Blank lead ∧ Blank trail ∧ text = lead ++ item ++ trail ∧ SelectItem item ds

theorem selectList_join {gap : Text} (blank_gap : Blank gap) (ds : Text → List Text)
    (first : Text) (rest : List Text) (holds : ∀ text ∈ first :: rest, HoldsItem text (ds text))
    {lead : Text} (blank_lead : Blank lead) :
    SelectList (lead ++ joinTexts (',' :: gap) (first :: rest)) ((first :: rest).flatMap ds) := by
  induction rest generalizing first lead with
  | nil =>
    obtain ⟨before, item, after, blank_before, blank_after, first_eq, read⟩ :=
      holds first (by simp)
    have list := SelectList.last (blank_lead.append blank_before) read blank_after
    simpa [joinTexts, first_eq] using list
  | cons second rest ih =>
    obtain ⟨before, item, after, blank_before, blank_after, first_eq, read⟩ :=
      holds first (by simp)
    have tail := ih second (fun text member => holds text (by simp [member])) blank_gap
    have list := SelectList.more (blank_lead.append blank_before) read blank_after tail
    have joined : joinTexts (',' :: gap) (first :: second :: rest) =
        first ++ (',' :: gap) ++ joinTexts (',' :: gap) (second :: rest) := rfl
    rw [List.flatMap_cons, joined]
    simpa [first_eq] using list

theorem columns_of_split {colsPart : Text} {cols : List Text}
    (cut : splitTopLevelCommas colsPart = some cols)
    (supported : cols.all isSupportedSelectItem = true) :
    SelectList colsPart (cols.flatMap itemDelimiters) ∧
      SelectList (joinTexts ", ".toList cols) (cols.flatMap itemDelimiters) := by
  obtain ⟨first, rest, whole, rfl⟩ := splitCommas_pieces cut
  rw [List.all_eq_true] at supported
  constructor
  · have list := selectList_join Blank.nothing (fun piece => itemDelimiters (trimText piece)) first rest
      (fun piece member => by
        obtain ⟨lead, trail, blank_lead, blank_trail, piece_eq⟩ := trimText_twice piece
        exact ⟨lead, _, trail, blank_lead, blank_trail, piece_eq,
          item_of_supported (supported _ (List.mem_map_of_mem member))⟩) Blank.nothing
    rw [List.nil_append, ← whole] at list
    simpa [List.flatMap_map] using list
  · have list := selectList_join Blank.space itemDelimiters (trimText first) (rest.map trimText)
      (fun col member => by
        obtain ⟨lead, trail, blank_lead, blank_trail, col_eq⟩ := trimText_split col
        exact ⟨lead, _, trail, blank_lead, blank_trail, col_eq,
          item_of_supported (supported col member)⟩) Blank.nothing
    simpa using list

theorem byteSlice_some {text start : Text} {n : Nat} (cut : byteSlice text n = some start) :
    start <+: text := by
  induction text generalizing n start with
  | nil =>
    cases n with
    | zero =>
      cases cut
      exact List.prefix_refl []
    | succ n => cases cut
  | cons c rest ih =>
    cases n with
    | zero =>
      cases cut
      exact List.nil_prefix
    | succ n =>
      rw [byteSlice] at cut
      split at cut
      · obtain ⟨tail, inside, rfl⟩ := Option.map_eq_some_iff.mp cut
        exact List.prefix_cons_inj c |>.mpr (ih inside)
      · cases cut

theorem sourceName_of_alias {remainder : Text} {name : Option Text}
    (read : sourceAlias (trimText remainder) = .ok (some name)) :
    SourceName remainder ∧ ∀ found, name = some found → isSqlIdent found = true := by
  obtain ⟨lead, trail, blank_lead, blank_trail, whole⟩ := trimText_split remainder
  have plain (ident : isSqlIdent (trimText remainder) = true) : SourceName remainder := by
    rw [whole]
    exact .name blank_lead ident blank_trail
  unfold sourceAlias at read
  split at read
  · next empty =>
    cases read
    rw [List.isEmpty_iff] at empty
    rw [empty, List.append_nil] at whole
    exact ⟨whole ▸ .none (blank_lead.append blank_trail), fun _ other => by cases other⟩
  · split at read
    · split at read
      · cases read
      · next start cut =>
        split at read
        · next keyword =>
          dsimp only at read
          split at read
          · next ident =>
            cases read
            obtain ⟨after, rest_eq⟩ := byteSlice_some cut
            have three : start.length = 3 := by simpa using congrArg List.length keyword
            have after_eq : (trimText remainder).drop 3 = after := by
              rw [← rest_eq, ← three, List.drop_left]
            rw [after_eq] at ident ⊢
            obtain ⟨l, t, bl, bt, name_eq⟩ := trimText_split after
            refine ⟨?_, fun _ same => by cases same; exact ident⟩
            have alias_eq : remainder = lead ++ start ++ l ++ trimText after ++ (t ++ trail) :=
              calc remainder = lead ++ (start ++ after) ++ trail := by rw [rest_eq, ← whole]
                _ = lead ++ (start ++ (l ++ trimText after ++ t)) ++ trail := by rw [← name_eq]
                _ = _ := by simp only [List.append_assoc]
            rw [alias_eq]
            exact .asName blank_lead keyword bl ident (bt.append blank_trail)
          · cases read
        · split at read
          · next ident =>
            cases read
            exact ⟨plain ident, fun _ same => by cases same; exact ident⟩
          · cases read
    · split at read
      · next ident =>
        cases read
        exact ⟨plain ident, fun _ same => by cases same; exact ident⟩
      · cases read

/-- What the sanitizer accepts is read by the grammar, before and after it is put together again;
    each delimiter has a quote at both ends. -/
def Reads (text out : Text) (ds : List Text) (grammar : Text → List Text → Prop) : Prop :=
  grammar text ds ∧ grammar out ds ∧ ∀ d ∈ ds, isSqlStringLiteral d = true

theorem stmt_of_sanitized {fuel : Nat} {stmt out : Text}
    (accepted : sanitizeSelectStmt fuel stmt = .ok (some out)) :
    ∃ smaller sanitized, fuel = smaller + 1 ∧
      startsWithNoCase "select ".toList (trimText stmt) = true ∧
      sanitizeSqlBody smaller ((trimText stmt).drop 7) = .ok (some sanitized) ∧
      out = "select ".toList ++ sanitized := by
  cases fuel with
  | zero => cases accepted
  | succ smaller =>
    rw [sanitizeSelectStmt] at accepted
    split at accepted
    · next keyword =>
      obtain ⟨found, inner, accepted⟩ := bind_ok accepted
      cases found with
      | none => cases accepted
      | some sanitized =>
        cases accepted
        exact ⟨smaller, sanitized, rfl, keyword, inner, rfl⟩
    · cases accepted

theorem opening_bracket {text : Text} (found : ¬ (!peekStr ['('] text) = true) :
    ∃ rest, text = '(' :: rest := by
  simp only [Bool.not_eq_true, Bool.not_eq_false'] at found
  obtain ⟨rest, whole⟩ := List.isPrefixOf_iff_prefix.mp found
  exact ⟨rest, whole.symm⟩

theorem source_of_sanitized {fuel n : Nat} {source out : Text}
    (inner : ∀ smaller body out, smaller < fuel →
      sanitizeSqlBody smaller body = .ok (some out) → Reads body out (delimiters n body) SelectBody)
    (accepted : sanitizeFromSource fuel source = .ok (some out)) :
    Reads (trimText source) out ((nestedBody (trimText source)).elim [] (delimiters n))
      FromSource := by
  cases fuel with
  | zero => cases accepted
  | succ smaller =>
    rw [sanitizeFromSource] at accepted
    split at accepted
    · cases accepted
    split at accepted
    · next ident =>
      cases accepted
      rw [nestedBody, if_pos ident]
      exact ⟨.table ident, .table ident, by simp⟩
    next not_ident =>
    split at accepted
    · cases accepted
    next bracket =>
    split at accepted
    · cases accepted
    next left remainder matched =>
    obtain ⟨named, alias_ok, accepted⟩ := bind_ok accepted
    cases named with
    | none => cases accepted
    | some name =>
      obtain ⟨found, stmt_ok, accepted⟩ := bind_ok accepted
      cases found with
      | none => cases accepted
      | some stmt =>
        obtain ⟨least, sanitized, rfl, keyword, body_ok, rfl⟩ := stmt_of_sanitized stmt_ok
        obtain ⟨read, read_out, literals⟩ := inner least _ _ (by omega) body_ok
        obtain ⟨before, whole⟩ := opening_bracket bracket
        obtain ⟨piece, cut, left_eq⟩ := findMatchingParen_some matched
        have nested : nestedBody (trimText source) =
            some ((trimText (trimText left)).drop 7) := by
          rw [nestedBody, if_neg not_ident, matched]
          rfl
        have source_eq : trimText source = '(' :: left ++ ')' :: remainder := by
          cases piece with
          | nil =>
            rw [whole] at cut
            cases cut
          | cons c tail =>
            have same := cut
            rw [whole, List.cons_append, List.cons.injEq] at same
            rw [cut, ← same.1, left_eq]
            rfl
        obtain ⟨lead, trail, blank_lead, blank_trail, left_split⟩ := trimText_twice left
        have word := startsWithNoCase_take keyword
        obtain ⟨named, ident⟩ := sourceName_of_alias alias_ok
        rw [nested]
        refine ⟨?_, ?_, literals⟩
        · have query := FromSource.query blank_lead word read blank_trail named
          have left_again : lead ++ (trimText (trimText left)).take "select ".toList.length ++
              (trimText (trimText left)).drop 7 ++ trail = left := by
            rw [List.append_assoc lead]
            exact (List.take_append_drop 7 (trimText (trimText left))).symm ▸ left_split.symm
          rw [left_again] at query
          rwa [source_eq]
        · have word : ("select ".toList).map Char.toLower = "select ".toList := by decide
          cases name with
          | none =>
            cases accepted
            have query := FromSource.query .nothing word read_out .nothing (.none .nothing)
            simpa using query
          | some name =>
            cases accepted
            have query := FromSource.query .nothing word read_out .nothing
              (.name .space (ident name rfl) .nothing)
            simpa using query

/-- The sanitizer accepts only what the grammar reads. -/
theorem body_of_sanitized {fuel n : Nat} (enough : fuel ≤ n) {body out : Text}
    (accepted : sanitizeSqlBody fuel body = .ok (some out)) :
    Reads body out (delimiters n body) SelectBody := by
  induction fuel using Nat.strongRecOn generalizing n body out with
  | ind fuel ih =>
    cases fuel with
    | zero => cases accepted
    | succ fuel =>
      obtain ⟨n, rfl⟩ : ∃ m, n = m + 1 := ⟨n - 1, by omega⟩
      rw [sanitizeSqlBody] at accepted
      split at accepted
      · cases accepted
      next colsPart rest found =>
      obtain ⟨table, source_ok, accepted⟩ := bind_ok accepted
      cases table with
      | none => cases accepted
      | some tableName =>
        dsimp only at accepted
        split at accepted
        · cases accepted
        next cols cut =>
        split at accepted
        · next supported =>
          cases accepted
          have source := source_of_sanitized (fun smaller _ _ below inner =>
            ih smaller (by omega) (show smaller ≤ n by omega) inner) source_ok
          obtain ⟨read, read_out, literals⟩ := source
          obtain ⟨columns, columns_out⟩ := columns_of_split cut supported
          have ds_eq : delimiters (n + 1) body = cols.flatMap itemDelimiters ++
              (nestedBody (trimText (trimText (rest.drop 4)))).elim [] (delimiters n) := by
            rw [delimiters, found]
            dsimp only
            rw [cut]
            rfl
          rw [ds_eq]
          refine ⟨?_, ?_, ?_⟩
          · obtain ⟨whole, hit⟩ := findTopLevel_some found
            simp only [Bool.and_eq_true] at hit
            have keyword := startsWithNoCase_take hit.1.2
            obtain ⟨lead, trail, blank_lead, blank_trail, body_eq⟩ := trimText_split body
            obtain ⟨l, t, blank_l, blank_t, rest_eq⟩ := trimText_twice (rest.drop 4)
            have read_body := SelectBody.body blank_lead columns .nothing keyword blank_l read
              (blank_t.append blank_trail)
            have again : lead ++ colsPart ++ [] ++ rest.take "from".toList.length ++ l ++
                trimText (trimText (rest.drop 4)) ++ (t ++ trail) = body :=
              calc _ = lead ++ (colsPart ++ (rest.take 4 ++
                    (l ++ trimText (trimText (rest.drop 4)) ++ t))) ++ trail := by
                    simp only [List.append_assoc, List.nil_append]
                    rfl
                _ = lead ++ (colsPart ++ rest) ++ trail := by
                  rw [← rest_eq, List.take_append_drop]
                _ = body := by rw [whole, List.reverse_nil, List.nil_append, ← body_eq]
            rwa [again] at read_body
          · have word : ("from".toList).map Char.toLower = "from".toList := by decide
            have read_body := SelectBody.body .nothing columns_out .space word .space read_out
              .nothing
            simpa using read_body
          · intro d member
            rcases List.mem_append.mp member with own | inside
            · obtain ⟨item, chosen, inside⟩ := List.mem_flatMap.mp own
              exact item_literals (List.all_eq_true.mp supported item chosen) d inside
            · exact literals d inside
        · cases accepted

section Outside

/-- What could end a statement, start a comment or open a literal. -/
def forbidden : Text := [';', '-', '/', '\'', '"']

/-- A text cut at its delimiters, with nothing forbidden between them. -/
inductive Spliced : Text → List Text → Prop
  | plain {text : Text} (plain : ∀ c ∈ text, c ∉ forbidden) : Spliced text []
  | delimiter {before d after : Text} {ds : List Text} (plain : ∀ c ∈ before, c ∉ forbidden)
      (rest : Spliced after ds) : Spliced (before ++ d ++ after) (d :: ds)

theorem Spliced.append {first second : Text} {ds others : List Text} (left : Spliced first ds)
    (right : Spliced second others) : Spliced (first ++ second) (ds ++ others) := by
  induction left with
  | plain harmless =>
    cases right with
    | plain also =>
      refine .plain (fun c member => ?_)
      rcases List.mem_append.mp member with inside | behind
      · exact harmless c inside
      · exact also c behind
    | delimiter also rest =>
      rw [← List.append_assoc, ← List.append_assoc]
      refine .delimiter (fun c member => ?_) rest
      rcases List.mem_append.mp member with inside | behind
      · exact harmless c inside
      · exact also c behind
  | delimiter harmless _ ih =>
    rw [List.append_assoc, List.cons_append]
    exact .delimiter harmless ih

theorem harmless_of {p : Char → Bool} (never : forbidden.any p = false) {text : Text}
    (every : ∀ c ∈ text, p c = true) : Spliced text [] := by
  refine .plain (fun c member bad => ?_)
  exact List.any_eq_false.mp never c bad (every c member)

theorem Blank.spliced {text : Text} (blank : Blank text) : Spliced text [] :=
  harmless_of (p := isWhite) (by decide) blank

theorem ident_spliced {name : Text} (ident : isSqlIdent name = true) : Spliced name [] := by
  simp only [isSqlIdent, Bool.and_eq_true, List.all_eq_true] at ident
  exact harmless_of (p := fun c => isIdentChar c || c = '.') (by decide) ident.2

theorem keyword_spliced {word what : Text} (keyword : word.map Char.toLower = what)
    (plain : forbidden.any (fun f => what.contains f.toLower) = false) : Spliced word [] := by
  refine .plain (fun c member bad => List.any_eq_false.mp plain c bad ?_)
  rw [List.contains_iff_mem, ← keyword]
  exact List.mem_map_of_mem member

theorem mark_spliced (c : Char) (plain : c ∉ forbidden) : Spliced [c] [] := by
  refine .plain (fun other member => ?_)
  rwa [List.mem_singleton.mp member]

theorem delimiter_spliced (d : Text) : Spliced d [d] := by
  have alone : Spliced ([] ++ d ++ []) [d] := .delimiter (by simp) (.plain (by simp))
  simpa using alone

theorem CallArgument.spliced {fnName arg : Text} {ds : List Text}
    (read : CallArgument fnName arg ds) : Spliced arg ds := by
  cases read with
  | column ident => exact ident_spliced ident
  | distinct b₁ ident b₂ =>
    have word : Spliced "distinct".toList [] := keyword_spliced rfl (by decide)
    exact word.append ((b₁.spliced.append (ident_spliced ident)).append b₂.spliced)
  | @stringAgg s₁ s₂ arg s₃ s₄ delimiter s₅ named b₁ b₂ ident b₃ b₄ b₅ =>
    have word : Spliced "distinct".toList [] := keyword_spliced rfl (by decide)
    have before := (((b₁.spliced.append word).append b₂.spliced).append
      (ident_spliced ident)).append b₃.spliced
    have behind := (b₄.spliced.append (delimiter_spliced delimiter)).append b₅.spliced
    simpa using before.append ((mark_spliced ',' (by decide)).append behind)

theorem SelectItem.spliced {item : Text} {ds : List Text} (read : SelectItem item ds) :
    Spliced item ds := by
  cases read with
  | star => exact mark_spliced '*' (by decide)
  | column ident => exact ident_spliced ident
  | call b₁ ident b₂ b₃ argument b₄ =>
    have name := (b₁.spliced.append (ident_spliced ident)).append b₂.spliced
    have inside := (b₃.spliced.append argument.spliced).append b₄.spliced
    have bracketed := ((mark_spliced '(' (by decide)).append inside).append
      (mark_spliced ')' (by decide))
    simpa using name.append bracketed

theorem SelectList.spliced {list : Text} {ds : List Text} (read : SelectList list ds) :
    Spliced list ds := by
  induction read with
  | last b₁ item b₂ => simpa using (b₁.spliced.append item.spliced).append b₂.spliced
  | more b₁ item b₂ _ ih =>
    have first := (b₁.spliced.append item.spliced).append b₂.spliced
    simpa using first.append ((mark_spliced ',' (by decide)).append ih)

theorem SourceName.spliced {name : Text} (read : SourceName name) : Spliced name [] := by
  cases read with
  | none blank => exact blank.spliced
  | name b₁ ident b₂ =>
    simpa using (b₁.spliced.append (ident_spliced ident)).append b₂.spliced
  | asName b₁ keyword b₂ ident b₃ =>
    have word := keyword_spliced keyword (by decide)
    simpa using (((b₁.spliced.append word).append b₂.spliced).append
      (ident_spliced ident)).append b₃.spliced

mutual
theorem SelectBody.spliced {body : Text} {ds : List Text} :
    SelectBody body ds → Spliced body ds
  | .body b₁ columns b₂ keyword b₃ origin b₄ => by
    have word := keyword_spliced keyword (by decide)
    have start := ((b₁.spliced.append columns.spliced).append b₂.spliced).append word
    simpa using ((start.append b₃.spliced).append origin.spliced).append b₄.spliced

theorem FromSource.spliced {source : Text} {ds : List Text} :
    FromSource source ds → Spliced source ds
  | .table ident => ident_spliced ident
  | .query b₁ keyword inner b₂ named => by
    have word := keyword_spliced keyword (by decide)
    have inside := ((b₁.spliced.append word).append inner.spliced).append b₂.spliced
    have bracketed := ((mark_spliced '(' (by decide)).append inside).append
      (mark_spliced ')' (by decide))
    simpa using bracketed.append named.spliced
end

end Outside

section Literals

/-- Between two quotes, the quote occurs only doubled. -/
def onlyDoubled (quote : Char) : Text → Bool
  | [] => true
  | [c] => c ≠ quote
  | c :: d :: rest =>
    if c = quote then d = quote && onlyDoubled quote rest else onlyDoubled quote (d :: rest)

/-- The quote that the text begins with does not close it before its end. -/
def closesAtEnd : Text → Bool
  | [] => false
  | quote :: rest => onlyDoubled quote rest.dropLast

theorem escaped_iff (quote : Char) (content : Text) :
    Escaped quote content ↔ onlyDoubled quote content = true := by
  constructor
  · intro escaped
    induction escaped with
    | nil => rfl
    | @char c rest other _ ih =>
      cases rest with
      | nil => simpa [onlyDoubled] using other
      | cons d tail => rwa [onlyDoubled, if_neg other]
    | doubled _ ih => simpa [onlyDoubled] using ih
  · intro doubled
    induction content using onlyDoubled.induct quote with
    | case1 => exact .nil
    | case2 c => exact .char (by simpa [onlyDoubled] using doubled) .nil
    | case3 d rest ih =>
      simp only [onlyDoubled, if_true, Bool.and_eq_true, decide_eq_true_eq] at doubled
      rw [doubled.1]
      exact .doubled (ih doubled.2)
    | case4 c d rest other ih =>
      rw [onlyDoubled, if_neg other] at doubled
      exact .char other (ih doubled)

theorem trimText_trimmed (text : Text) : trimText (trimText text) = trimText text := by
  have starts : trimStart (trimText text) = trimText text := by
    cases ends : trimText text with
    | nil => rfl
    | cons c rest =>
      have inside : trimText text <+: trimStart text := by
        unfold trimText
        rw [← List.reverse_suffix, List.reverse_reverse]
        exact List.dropWhile_suffix isWhite
      rw [ends] at inside
      obtain ⟨after, whole⟩ := inside
      have first := List.head?_dropWhile_not isWhite text
      rw [show text.dropWhile isWhite = c :: (rest ++ after) from whole.symm] at first
      simp only [List.head?_cons] at first
      rw [trimStart, List.dropWhile_cons_of_neg (by simpa using first)]
  calc trimText (trimText text)
      = ((trimStart (trimText text)).reverse.dropWhile isWhite).reverse := rfl
    _ = (((trimStart text).reverse.dropWhile isWhite).dropWhile isWhite).reverse := by
      rw [starts, trimText, List.reverse_reverse]
    _ = trimText text := by rw [List.dropWhile_idempotent]; rfl

theorem delimiter_trimmed {fuel : Nat} {body d : Text} (member : d ∈ delimiters fuel body) :
    trimText d = d := by
  induction fuel generalizing body with
  | zero => cases member
  | succ fuel ih =>
    rw [delimiters] at member
    split at member
    · cases member
    · next colsPart rest _ =>
      rcases List.mem_append.mp member with own | inside
      · obtain ⟨item, _, inside⟩ := List.mem_flatMap.mp own
        unfold itemDelimiters at inside
        split at inside
        · cases inside
        · split at inside
          · split at inside
            · rw [List.mem_singleton.mp inside]
              exact trimText_trimmed _
            · cases inside
          · cases inside
      · cases nested : nestedBody (trimText (trimText (rest.drop 4))) with
        | none =>
          rw [nested] at inside
          cases inside
        | some inner =>
          rw [nested] at inside
          exact ih inside

/-- A delimiter with quotes at both ends is one literal when its quote closes it at the end. -/
theorem singleLiteral_iff {d : Text} (trimmed : trimText d = d)
    (literal : isSqlStringLiteral d = true) : SingleLiteral d ↔ closesAtEnd d = true := by
  simp only [isSqlStringLiteral, trimmed, Bool.and_eq_true, Bool.or_eq_true,
    decide_eq_true_eq] at literal
  obtain ⟨long, quoted⟩ := literal
  constructor
  · rintro ⟨quote, content, -, escaped, rfl⟩
    simpa [closesAtEnd] using (escaped_iff quote content).mp escaped
  · intro closes
    match d, closes, long with
    | quote :: rest, closes, long =>
      have filled : rest ≠ [] := by
        intro empty
        simp [empty] at long
      have quoted : IsQuote quote ∧ rest.getLast filled = quote := by
        have last : (quote :: rest).getLast? = some (rest.getLast filled) := by
          rw [List.getLast?_eq_some_getLast (by simp), List.getLast_cons filled]
        rw [last, List.head?_cons] at quoted
        rcases quoted with ⟨single, same⟩ | ⟨double, same⟩
        · cases single
          exact ⟨.inl rfl, Option.some.inj same⟩
        · cases double
          exact ⟨.inr rfl, Option.some.inj same⟩
      refine ⟨quote, rest.dropLast, quoted.1, (escaped_iff quote _).mpr closes, ?_⟩
      rw [List.cons_append, ← quoted.2, List.dropLast_append_getLast]

end Literals

section Queries

variable {PipeFun : Type} (atoms : Atoms PipeFun) (symbols : List String) (fuel : Nat)

/-- The text between `select` and `where`, and the clauses behind `where`. -/
def sqlHead : Parse (Text × TailClauses) := do
  kwSqlSelect
  let body ← takeUntil "where".toList
  kwSqlWhere
  let raw ← takeUntil [';']
  match splitTailClauses raw with
  | none => failWith .backtrack
  | some tail => return (body, tail)

/-- The condition that the forms of a query are looked for in. -/
def condOf (tail : TailClauses) : Text := (rewriteLhsFnEqLiteral tail.cond).getD tail.cond

/-- What a query is put together from. -/
structure SqlParts where
  body : Text
  whereSql : Text
  vars : Vars
  tail : TailClauses

def SqlParts.query (parts : SqlParts) : SqlQuery :=
  sqlQuery parts.body parts.whereSql parts.vars parts.tail

/-- The parts that `omlSql` chooses. -/
def sqlParts (strict : Bool) : Parse SqlParts := do
  let (body, tail) ← sqlHead
  match fastPathIp4BetweenEqOne (condOf tail) with
  | some (sql, vars) => return ⟨body, sql, vars, tail⟩
  | none =>
    match fastPathInList (condOf tail) with
    | some (sql, vars) => return ⟨body, sql, vars, tail⟩
    | none =>
      match ← liftExcept (fastPathLike (condOf tail)) with
      | some (sql, vars) => return ⟨body, sql, vars, tail⟩
      | none =>
        let (sql, vars) ← genericWhere atoms symbols fuel (condOf tail)
        return ⟨← safeBody strict body, sql, vars, tail⟩

theorem omlSql_eq (strict : Bool) :
    omlSql atoms symbols strict fuel = (do return (← sqlParts atoms symbols fuel strict).query) := by
  funext text
  unfold omlSql sqlParts sqlHead
  simp only [bind_run]
  rcases kwSqlSelect text with ⟨_ | _, text⟩
  · rfl
  dsimp only
  rcases takeUntil "where".toList text with ⟨_ | body, text⟩
  · rfl
  dsimp only
  rcases kwSqlWhere text with ⟨_ | _, text⟩
  · rfl
  dsimp only
  rcases takeUntil [';'] text with ⟨_ | raw, text⟩
  · rfl
  dsimp only
  cases splitTailClauses raw with
  | none => rfl
  | some tail =>
    simp only [condOf, pure_run]
    generalize (rewriteLhsFnEqLiteral tail.cond).getD tail.cond = cond
    cases fastPathIp4BetweenEqOne cond with
    | some found => rfl
    | none =>
      cases fastPathInList cond with
      | some found => rfl
      | none =>
        cases fastPathLike cond with
        | error e => rfl
        | ok found =>
          cases found with
          | some found => rfl
          | none =>
            simp only [liftExcept, bind_run, pure_run]
            rcases genericWhere atoms symbols fuel cond text with ⟨_ | found, text⟩
            · rfl
            dsimp only
            rcases safeBody strict body text with ⟨_ | safe, text⟩ <;> rfl

/-- A body that the sanitizer lets through, as it was written or as it was put together again. -/
def LetThrough (body : Text) : Prop :=
  ∃ fuel raw out, sanitizeSqlBody fuel raw = .ok (some out) ∧ (body = raw ∨ body = out)

/-- The condition is one of `ip4_between(..) = 1`, `field in (..)` and `field like ..`. -/
def FastPath (cond : Text) : Prop :=
  (fastPathIp4BetweenEqOne cond).isSome ∨ (fastPathInList cond).isSome ∨
    ∃ found, fastPathLike cond = .ok (some found)

/-- A body of the allowed shape, with nothing forbidden outside its delimiters, each of them one
    literal. -/
def CleanBody (body : Text) (ds : List Text) : Prop :=
  SelectBody body ds ∧ Spliced body ds ∧ ∀ d ∈ ds, SingleLiteral d

theorem liftExcept_ok {A : Type} {result : Except Fail A} {a : A} {text rest : Text}
    (read : liftExcept result text = (.ok a, rest)) : result = .ok a := by
  cases result with
  | error e => cases read
  | ok other =>
    cases read
    rfl

/-- On the general path the body is what the sanitizer answers, on the others what was written. -/
theorem sqlParts_body {text rest : Text} {parts : SqlParts}
    (read : sqlParts atoms symbols fuel true text = (.ok parts, rest)) :
    ∃ body tail after, sqlHead text = (.ok (body, tail), after) ∧
      ((FastPath (condOf tail) ∧ parts.body = body) ∨
        (¬ FastPath (condOf tail) ∧ ∃ fuel, sanitizeSqlBody fuel body = .ok (some parts.body))) := by
  obtain ⟨⟨body, tail⟩, after, head, read⟩ := bind_ok_run read
  refine ⟨body, tail, after, head, ?_⟩
  cases no_ip : fastPathIp4BetweenEqOne (condOf tail) with
  | some found =>
    simp only [no_ip] at read
    cases read
    exact .inl ⟨.inl (by simp [no_ip]), rfl⟩
  | none =>
  cases no_list : fastPathInList (condOf tail) with
  | some found =>
    simp only [no_ip, no_list] at read
    cases read
    exact .inl ⟨.inr (.inl (by simp [no_list])), rfl⟩
  | none =>
  simp only [no_ip, no_list] at read
  obtain ⟨found, between, like, read⟩ := bind_ok_run read
  have fast := liftExcept_ok like
  cases found with
  | some found =>
    cases read
    exact .inl ⟨.inr (.inr ⟨_, fast⟩), rfl⟩
  | none =>
    obtain ⟨⟨sql, vars⟩, between, _, read⟩ := bind_ok_run read
    obtain ⟨safe, between, checked, read⟩ := bind_ok_run read
    cases read
    refine .inr ⟨?_, 3 * body.length + 3, ?_⟩
    · rintro (ip | list | ⟨other, also⟩)
      · simp [no_ip] at ip
      · simp [no_list] at list
      · rw [fast] at also
        cases also
    · obtain ⟨answer, between, sanitized, checked⟩ := bind_ok_run checked
      have given := liftExcept_ok sanitized
      cases answer with
      | none => cases checked
      | some answer =>
        cases checked
        exact given

end Queries

theorem literal_has_quote {d : Text} (literal : isSqlStringLiteral d = true) :
    '\'' ∈ d ∨ '"' ∈ d := by
  obtain ⟨lead, trail, -, -, whole⟩ := trimText_split d
  have inside {c : Char} (member : c ∈ trimText d) : c ∈ d := by
    rw [whole]
    simp [member]
  simp only [isSqlStringLiteral, Bool.and_eq_true, Bool.or_eq_true, decide_eq_true_eq] at literal
  rcases literal.2 with ⟨single, -⟩ | ⟨double, -⟩
  · exact .inl (inside (List.mem_of_mem_head? single))
  · exact .inr (inside (List.mem_of_mem_head? double))

/-- Without quotes there is nothing forbidden in what the sanitizer lets through. -/
theorem unquoted_is_harmless {body : Text} (fit : LetThrough body) (single : '\'' ∉ body)
    (double : '"' ∉ body) : ∀ c ∈ body, c ∉ forbidden := by
  obtain ⟨n, raw, out, accepted, which⟩ := fit
  obtain ⟨read_raw, read_out, literals⟩ := body_of_sanitized (Nat.le_refl n) accepted
  have spliced : Spliced body (delimiters n raw) := by
    rcases which with rfl | rfl
    · exact read_raw.spliced
    · exact read_out.spliced
  generalize delimiters n raw = ds at spliced literals
  cases spliced with
  | plain harmless => exact harmless
  | @delimiter before d after ds =>
    rcases literal_has_quote (literals d (by simp)) with quote | quote
    · exact absurd (by simp [quote]) single
    · exact absurd (by simp [quote]) double

/-- A table whose name is no identifier, and a list. -/
def tableOne : Text := "select a, b from table-1 where x in (1) ;".toList

def delimiterExpression : Text := "string_agg(distinct a, 'x' || pw || 'y') from t".toList

end WarpMotor.Oml
