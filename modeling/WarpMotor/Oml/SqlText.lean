import WarpMotor.Oml.Reading

/-!
What the parser of a query does with text: the scans for keywords outside
brackets and quotes, the checks on identifiers and on the columns and the
source of a query, and the rewriting of `fn(...) = literal`. Positions in the
text are the text before and after them. A slice that does not end between two
characters is a panic.
-/
namespace WarpMotor.Oml

open Parsing

def stripPrefix (start text : Text) : Option Text :=
  if peekStr start text then some (text.drop start.length) else none

def stripSuffix (tail text : Text) : Option Text :=
  if tail.isSuffixOf text then some (text.take (text.length - tail.length)) else none

/-- Without regard to the case of ASCII letters. -/
def startsWithNoCase (what text : Text) : Bool :=
  peekStr (what.map Char.toLower) (text.map Char.toLower)

def isAsciiSpace (c : Char) : Bool := c = ' ' || c = '\t' || c = '\n' || c = '\r' || c.toNat = 12

def isIdentChar (c : Char) : Bool := c.isAlphanum || c = '_'

def isSqlIdent (s : Text) : Bool := !s.isEmpty && s.all (fun c => isIdentChar c || c = '.')

/-- How a scan stands: the depth of brackets, and whether it is inside quotes. -/
structure Scan where
  depth : Nat
  inSingle : Bool
  inDouble : Bool
  deriving DecidableEq, Repr

namespace Scan

def start : Scan := ⟨0, false, false⟩

def outside (scan : Scan) : Bool := !scan.inSingle && !scan.inDouble

def top (scan : Scan) : Bool := scan.outside && scan.depth = 0

/-- Over a quote or a bracket; `none` behind a bracket too many. -/
def step (scan : Scan) (c : Char) : Option Scan :=
  if c = '\'' && !scan.inDouble then some { scan with inSingle := !scan.inSingle }
  else if c = '"' && !scan.inSingle then some { scan with inDouble := !scan.inDouble }
  else if c = '(' && scan.outside then some { scan with depth := scan.depth + 1 }
  else if c = ')' && scan.outside then
    if scan.depth = 0 then none else some { scan with depth := scan.depth - 1 }
  else some scan

def isMark (scan : Scan) (c : Char) : Bool :=
  (c = '\'' && !scan.inDouble) || (c = '"' && !scan.inSingle) ||
    ((c = '(' || c = ')') && scan.outside)

end Scan

def splitCommas : Text → Text → Scan → Option (List Text)
  | [], current, scan =>
    let tail := trimText current.reverse
    if !scan.top || tail.isEmpty then none else some [tail]
  | c :: rest, current, scan =>
    if c = ',' && scan.top then
      let item := trimText current.reverse
      if item.isEmpty then none else (splitCommas rest [] scan).map (item :: ·)
    else
      match scan.step c with
      | none => none
      | some scan => splitCommas rest (c :: current) scan

/-- At the commas outside brackets and quotes. -/
def splitTopLevelCommas (input : Text) : Option (List Text) := splitCommas input [] .start

/-- The first place outside brackets and quotes where `hit` holds, given the character before. -/
def findTopLevel (hit : Option Char → Text → Bool) : Text → Text → Scan → Option (Text × Text)
  | [], _, _ => none
  | c :: rest, before, scan =>
    if !scan.isMark c && scan.top && hit before.head? (c :: rest) then
      some (before.reverse, c :: rest)
    else
      match scan.step c with
      | none => none
      | some scan => findTopLevel hit rest (c :: before) scan

def findTopLevelFrom (body : Text) : Option (Text × Text) :=
  findTopLevel (fun before text => before.any isAsciiSpace &&
    startsWithNoCase "from".toList text && (text.drop 4).head?.any isAsciiSpace) body [] .start

def findTopLevelInKeyword (input : Text) : Option (Text × Text) :=
  findTopLevel (fun before text => startsWithNoCase "in".toList text &&
    before.any (fun c => isAsciiSpace c || c = ')') &&
    ((text.drop 2).dropWhile isAsciiSpace).head? = some '(') input [] .start

def findTopLevelLikeKeyword (input : Text) : Option (Text × Text) :=
  findTopLevel (fun before text => startsWithNoCase "like".toList text &&
    before.any isAsciiSpace && (text.drop 4).head?.any isAsciiSpace) input [] .start

def findTopLevelKw (kw s : Text) : Option (Text × Text) :=
  findTopLevel (fun before text => startsWithNoCase kw text &&
    before.all isAsciiSpace && (text.drop kw.length).head?.all isAsciiSpace) s [] .start

def isSqlStringLiteral (s : Text) : Bool :=
  let st := trimText s
  2 ≤ st.length && ((st.head? = some '\'' && st.getLast? = some '\'') ||
    (st.head? = some '"' && st.getLast? = some '"'))

def isSupportedStringAggInner (inner : Text) : Bool :=
  match splitTopLevelCommas inner with
  | some [expr, delimiter] =>
    match stripPrefix "distinct".toList (trimText expr) with
    | some expr => isSqlIdent (trimText expr) && isSqlStringLiteral (trimText delimiter)
    | none => false
  | _ => false

def isSupportedSelectItem (item : Text) : Bool :=
  let item := trimText item
  if item = ['*'] || isSqlIdent item then true
  else
    match item.span (· ≠ '(') with
    | (_, []) => false
    | (fnName, _ :: rest) =>
      match stripSuffix [')'] rest with
      | none => false
      | some inner =>
        let inner := trimText inner
        if !isSqlIdent (trimText fnName) || inner.isEmpty then false
        else if (trimText fnName).map Char.toLower = "string_agg".toList then
          isSupportedStringAggInner inner
        else
          match stripPrefix "distinct".toList inner with
          | some rest => isSqlIdent (trimText rest)
          | none => isSqlIdent inner

/-- The text inside the bracket that the text starts with, and the text behind it. -/
def findMatchingParen : Text → Text → Scan → Option (Text × Text)
  | [], _, _ => none
  | c :: rest, before, scan =>
    match scan.step c with
    | none => none
    | some after =>
      if c = ')' && scan.outside && after.depth = 0 then some (before.reverse.drop 1, rest)
      else findMatchingParen rest (c :: before) after

/-- `text[..n]` in bytes, when `n` is between two characters. -/
def byteSlice : Text → Nat → Option Text
  | _, 0 => some []
  | [], _ + 1 => none
  | c :: rest, n + 1 =>
    if c.utf8Size ≤ n + 1 then (byteSlice rest (n + 1 - c.utf8Size)).map (c :: ·) else none

def byteLength : Text → Nat
  | [] => 0
  | c :: rest => c.utf8Size + byteLength rest

/-- The alias behind a bracketed source; `none` is no alias, and an error `none` outside. -/
def sourceAlias (remainder : Text) : Except Fail (Option (Option Text)) :=
  if remainder.isEmpty then .ok (some none)
  else if 3 ≤ byteLength remainder then
    match byteSlice remainder 3 with
    | none => .error .panic
    | some start =>
      if start.map Char.toLower = "as ".toList then
        let name := trimText (remainder.drop 3)
        if isSqlIdent name then .ok (some (some name)) else .ok none
      else if isSqlIdent remainder then .ok (some (some remainder)) else .ok none
  else if isSqlIdent remainder then .ok (some (some remainder)) else .ok none

def joinTexts (separator : Text) : List Text → Text
  | [] => []
  | [item] => item
  | item :: rest => item ++ separator ++ joinTexts separator rest

mutual
/-- `<cols> from <source>`, or `none`. -/
def sanitizeSqlBody : Nat → Text → Except Fail (Option Text)
  | 0, _ => .error .exhausted
  | fuel + 1, body =>
    match findTopLevelFrom (trimText body) with
    | none => .ok none
    | some (colsPart, rest) => do
      match ← sanitizeFromSource fuel (trimText (rest.drop 4)) with
      | none => .ok none
      | some tableName =>
        match splitTopLevelCommas colsPart with
        | none => .ok none
        | some cols =>
          if cols.all isSupportedSelectItem then
            .ok (some (joinTexts ", ".toList cols ++ " from ".toList ++ tableName))
          else .ok none

def sanitizeFromSource : Nat → Text → Except Fail (Option Text)
  | 0, _ => .error .exhausted
  | fuel + 1, source =>
    let source := trimText source
    if source.isEmpty then .ok none
    else if isSqlIdent source then .ok (some source)
    else if !peekStr ['('] source then .ok none
    else
      match findMatchingParen source [] .start with
      | none => .ok none
      | some (inner, remainder) => do
        match ← sourceAlias (trimText remainder) with
        | none => .ok none
        | some name =>
          match ← sanitizeSelectStmt fuel (trimText inner) with
          | none => .ok none
          | some inner =>
            match name with
            | some name => .ok (some ("(".toList ++ inner ++ ") ".toList ++ name))
            | none => .ok (some ("(".toList ++ inner ++ ")".toList))

def sanitizeSelectStmt : Nat → Text → Except Fail (Option Text)
  | 0, _ => .error .exhausted
  | fuel + 1, stmt =>
    let stmt := trimText stmt
    if startsWithNoCase "select ".toList stmt then do
      match ← sanitizeSqlBody fuel (stmt.drop 7) with
      | none => .ok none
      | some sanitized => .ok (some ("select ".toList ++ sanitized))
    else .ok none
end

def isBlank (c : Char) : Bool := c = ' ' || c = '\t'

/-- Up to the bracket that closes the first one, without regard to quotes. -/
def closeParen : Text → Text → Nat → Option (Text × Text)
  | [], _, _ => none
  | c :: rest, before, depth =>
    let depth := if c = '(' then depth + 1 else if c = ')' then depth - 1 else depth
    if c = ')' && depth = 0 then some ((c :: before).reverse, rest)
    else closeParen rest (c :: before) depth

/-- `fn(...) = literal` becomes `literal = fn(...)`. -/
def rewriteLhsFnEqLiteral (s : Text) : Option Text :=
  let t := trimText s
  match t with
  | [] => none
  | first :: _ =>
    if !first.isAlpha then none
    else
      let name := t.takeWhile (fun c => isIdentChar c || c = '.')
      let behind := t.dropWhile (fun c => isIdentChar c || c = '.')
      let blanks := behind.takeWhile isBlank
      let call := behind.dropWhile isBlank
      if !peekStr ['('] call then none
      else
        match closeParen call [] 0 with
        | none => none
        | some (args, after) =>
          match after.dropWhile isBlank with
          | '=' :: rest =>
            let rhs := trimText (rest.dropWhile isBlank)
            if rhs.isEmpty then none
            else some (rhs ++ " = ".toList ++ trimText (name ++ blanks ++ args))
          | _ => none

def isSupportedOrderByItem (item : Text) : Bool :=
  match (item.splitOnP isWhite).filter (fun part => !part.isEmpty) with
  | [col] => isSqlIdent col
  | [col, dir] => isSqlIdent col &&
    (dir.map Char.toLower = "asc".toList || dir.map Char.toLower = "desc".toList)
  | _ => false

def isSupportedOrderByCols (cols : Text) : Bool :=
  match splitTopLevelCommas cols with
  | none => false
  | some items => items.all isSupportedOrderByItem

structure TailClauses where
  cond : Text
  orderBy : Option Text
  limit : Option Text

/-- `order by <cols>` and `limit <N>` behind the condition; `none` where they are not well written. -/
def splitTailClauses (cond : Text) : Option TailClauses :=
  let s := trimText cond
  if s.isEmpty then some ⟨[], none, none⟩
  else do
    let (head, limit) ←
      match findTopLevelKw "limit".toList s with
      | none => some (s, none)
      | some (before, rest) =>
        let after := trimStart (rest.drop 5)
        let digits := after.takeWhile Char.isDigit
        if digits.isEmpty then some (s, none)
        else if (trimText (after.dropWhile Char.isDigit)).isEmpty then some (before, some digits)
        else none
    match findTopLevelKw "order by".toList head with
    | none => some ⟨trimText head, none, limit⟩
    | some (before, rest) =>
      let cols := trimText (rest.drop 8)
      if isSupportedOrderByCols cols then some ⟨trimText before, some cols, limit⟩ else none

/-- The clauses put back behind the query. -/
def appendTail (base : Text) (orderBy limit : Option Text) : Text :=
  base ++ (match orderBy with | some cols => " order by ".toList ++ cols | none => []) ++
    (match limit with | some digits => " limit ".toList ++ digits | none => [])

end WarpMotor.Oml
