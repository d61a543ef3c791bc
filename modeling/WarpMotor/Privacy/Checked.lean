import WarpMotor.Privacy.Operators

/-!
The masks with the places where the source can panic: subtractions of lengths,
indices, shifts and the branch called unreachable. `none` is a panic. No text
and no parameter brings a mask to one of them, so that each agrees with the
mask that has no such places.
-/
namespace WarpMotor.Privacy

open Oml (Text joinTexts)

/-- A subtraction of unsigned numbers. -/
def usizeSub (a b : Nat) : Option Nat := if b ≤ a then some (a - b) else none

theorem usizeSub_of_le {a b : Nat} (fits : b ≤ a) : usizeSub a b = some (a - b) := by
  simp [usizeSub, fits]

/-- A shift to the right by less than the width. -/
def shiftRight {w : Nat} (bits : BitVec w) (amount : Nat) : Option (BitVec w) :=
  if amount < w then some (bits >>> amount) else none

/-- `list[start..]` -/
def sliceFrom {A : Type} (list : List A) (start : Nat) : Option (List A) :=
  if start ≤ list.length then some (list.drop start) else none

/-- What a mask of the ends puts in the place of the character at `i`. -/
def keptOrMasked (count keepFirst keepLast : Nat) (ch c : Char) (i : Nat) : Option Char :=
  if i < keepFirst then some c
  else (usizeSub count keepLast).map (fun last => if i ≥ last then c else ch)

def maskKeepChecked (text : Text) (keepFirst keepLast : Nat) (ch : Char) (placeholder : Text) :
    Option Text :=
  if text.isEmpty then some []
  else if keepFirst + keepLast ≥ text.length then some placeholder
  else text.zipIdx.mapM (fun entry =>
    keptOrMasked text.length keepFirst keepLast ch entry.1 entry.2)

def maskNameChecked (text : Text) (style : NameStyle) (ch : Char) : Option Text :=
  if text.isEmpty then some []
  else if text.length = 1 then some [ch]
  else
    match style with
    | .head => do
      let first ← text[0]?
      let hidden ← usizeSub text.length 1
      return first :: List.replicate hidden ch
    | .tail => do
      let hidden ← usizeSub text.length 1
      let last ← text.getLast?
      return List.replicate hidden ch ++ [last]
    | .full => some (List.replicate text.length ch)

def maskDomainChecked (text : Text) (keepLevels : Nat) (ch : Char) (placeholder : Text) :
    Option Text :=
  let levels := domainLevels text
  if levels.length < keepLevels || keepLevels = 0 then some placeholder
  else do
    let start ← usizeSub levels.length keepLevels
    let kept ← sliceFrom levels start
    return List.replicate 3 ch ++ '.' :: joinTexts ['.'] kept

/-- The bits of the host part. -/
def Net.hostMaskChecked {w : Nat} (net : Net w) : Option (BitVec w) := do
  let hostBits ← usizeSub w net.prefixLen
  if hostBits = 0 then some 0
  else if hostBits = w then some (BitVec.allOnes w)
  else
    let amount ← usizeSub w hostBits
    shiftRight (BitVec.allOnes w) amount

section

variable (env : Env)

def mapIpChecked {w : Nat} (version : UInt8) (ip : BitVec w) (salt : Bytes) (pool : Net w) :
    Option (BitVec w) := do
  let tag := env.hmacSha256 salt (version :: octets ip)
  let hostMask ← pool.hostMaskChecked
  return pool.network ||| (fromBeBytes w (tag.take (w / 8)) &&& hostMask)

namespace Mask

def maskedChecked (m : Mask) (text : Text) : Option Text :=
  let ch := m.maskChar
  let placeholder := m.placeholder
  match m.kind with
  | .mobile => maskKeepChecked text 0 (m.keepLast.getD 4) ch placeholder
  | .idCard => maskKeepChecked text (m.keepFirst.getD 6) (m.keepLast.getD 4) ch placeholder
  | .mail => some (maskMail text (m.keepFirst.getD 1) (m.keepDomain.getD true) ch placeholder)
  | .domain => maskDomainChecked text (m.keepLevels.getD 2) ch placeholder
  | .name => maskNameChecked text (m.nameStyle.getD .head) ch
  | .address => maskKeepChecked text (m.keepFirst.getD 6) (m.keepLast.getD 0) ch placeholder
  | .company => maskKeepChecked text (m.keepFirst.getD 4) (m.keepLast.getD 0) ch placeholder
  | .keyMsg => some placeholder
  | .text =>
    if m.keepFirst.isNone && m.keepLast.isNone then some placeholder
    else maskKeepChecked text (m.keepFirst.getD 0) (m.keepLast.getD 0) ch placeholder
  -- `unreachable!`
  | .ip => none

def maskedIpChecked (m : Mask) (name text : Text) : Option DataField :=
  match parseIp env text with
  | none => some (m.fallback name)
  | some ip =>
    let mapped (salt : Bytes) : Option DataField :=
      match ip with
      | .v4 bits => (mapIpChecked env 4 bits salt (selectPoolV4 m.pool)).map
          (fun found => .fromIp name (.v4 found))
      | .v6 bits => (mapIpChecked env 6 bits salt (selectPoolV6 m.pool)).map
          (fun found => .fromIp name (.v6 found))
    match env.secrets.getSecret defaultSaltName with
    | some salt => mapped salt
    | none => if m.allowUnsalted then mapped [] else some (m.fallback name)

def valueCacuChecked (m : Mask) (field : DataField) : Option DataField :=
  match valueText env field.value with
  | none => some (if isMissing field.value then field else m.fallback field.name)
  | some text =>
    if text.isEmpty then some field
    else if m.kind = .ip then m.maskedIpChecked env field.name text
    else (m.maskedChecked text).map (.fromChars field.name)

end Mask

end

theorem mapM_some {A B : Type} (f : A → Option B) (g : A → B) (list : List A)
    (same : ∀ a ∈ list, f a = some (g a)) : list.mapM f = some (list.map g) := by
  induction list with
  | nil => rfl
  | cons a rest ih =>
    have later := ih (fun b member => same b (List.mem_cons_of_mem a member))
    simp [List.mapM_cons, same a List.mem_cons_self, later]

theorem maskKeepChecked_eq (text : Text) (keepFirst keepLast : Nat) (ch : Char)
    (placeholder : Text) :
    maskKeepChecked text keepFirst keepLast ch placeholder =
      some (maskKeep text keepFirst keepLast ch placeholder) := by
  unfold maskKeepChecked maskKeep
  split
  · rfl
  · split
    · rfl
    · next short =>
      -- the guard before the loop keeps the subtraction in it from going below zero
      have fits : keepLast ≤ text.length := by omega
      rw [List.mapIdx_eq_zipIdx_map]
      apply mapM_some
      intro entry _
      simp only [keptOrMasked, usizeSub_of_le fits, Option.map_some]
      by_cases first : entry.2 < keepFirst <;> simp [first]

theorem maskNameChecked_eq (text : Text) (style : NameStyle) (ch : Char) :
    maskNameChecked text style ch = some (maskName text style ch) := by
  match text with
  | [] => rfl
  | [_] => rfl
  | first :: second :: rest =>
    cases style with
    | head => simp [maskNameChecked, maskName, usizeSub]
    | tail => simp [maskNameChecked, maskName, usizeSub, List.getLast?_eq_some_getLast]
    | full => simp [maskNameChecked, maskName]

theorem maskDomainChecked_eq (text : Text) (keepLevels : Nat) (ch : Char) (placeholder : Text) :
    maskDomainChecked text keepLevels ch placeholder =
      some (maskDomain text keepLevels ch placeholder) := by
  unfold maskDomainChecked maskDomain
  dsimp only
  split
  · rfl
  · next enough =>
    simp only [Bool.or_eq_true, decide_eq_true_eq, not_or, Nat.not_lt] at enough
    simp [usizeSub_of_le enough.1, sliceFrom]

theorem hostMaskChecked_eq {w : Nat} (net : Net w) : net.hostMaskChecked = some net.hostMask := by
  unfold Net.hostMaskChecked Net.hostMask
  rw [usizeSub_of_le net.fits]
  by_cases none_left : w - net.prefixLen = 0
  · simp [none_left]
  · by_cases all_left : w - net.prefixLen = w
    · simp only [Option.bind_eq_bind, Option.bind_some, if_neg none_left, if_pos all_left]
    · -- the lengths 0 and `w`, whose shift is as wide as the address, are handled before
      have inner : w - net.prefixLen ≤ w := Nat.sub_le w net.prefixLen
      have narrow : w - (w - net.prefixLen) < w := by omega
      simp [none_left, all_left, usizeSub_of_le inner, shiftRight, narrow]

namespace Mask

theorem maskedChecked_eq (m : Mask) (text : Text) (other : m.kind ≠ .ip) :
    m.maskedChecked text = some (m.masked text) := by
  unfold maskedChecked masked
  cases kind : m.kind with
  | ip => exact absurd kind other
  | text => simp only [maskKeepChecked_eq]; split <;> rfl
  | _ => simp [maskKeepChecked_eq, maskNameChecked_eq, maskDomainChecked_eq]

theorem maskedIpChecked_eq (env : Env) (m : Mask) (name text : Text) :
    m.maskedIpChecked env name text = some (m.maskedIp env name text) := by
  unfold maskedIpChecked maskedIp
  cases parseIp env text with
  | none => rfl
  | some ip =>
    cases ip <;> cases env.secrets.getSecret defaultSaltName <;>
      simp [mapIpChecked, hostMaskChecked_eq, mapIpv4, mapIpv6, mapIp] <;> split <;> rfl

/-- No field brings a mask to a panic. -/
theorem valueCacuChecked_eq (env : Env) (m : Mask) (field : DataField) :
    m.valueCacuChecked env field = some (m.valueCacu env field) := by
  unfold valueCacuChecked valueCacu
  cases valueText env field.value with
  | none => rfl
  | some text =>
    dsimp only
    split
    · rfl
    · split
      · exact m.maskedIpChecked_eq env field.name text
      · next other => rw [m.maskedChecked_eq text other, Option.map_some]

end Mask

end WarpMotor.Privacy
