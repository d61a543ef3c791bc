import Mathlib.Data.List.Basic
import WarpMotor.Oml.SqlText

/-!
The privacy operators of object models: `mask`, `hash` and `tokenize`, and the
registry their secrets are in. How addresses and numbers are printed, how an
address is read, and the ciphers and digests come from other crates and are
parameters.
-/
namespace WarpMotor.Privacy

open Oml (Text trimText joinTexts)

abbrev Bytes := List UInt8

def utf8 (text : Text) : Bytes := (String.ofList text).toUTF8.data.toList

/-- The registry of secrets, the newest entry of a name first. -/
structure Secrets where
  entries : List (Text × Bytes)
  filled : ∀ entry ∈ entries, entry.2 ≠ []

namespace Secrets

def normalizeSecretName (name : Text) : Text :=
  let upper := (trimText name).map Char.toUpper
  (Oml.stripPrefix "SEC_".toList upper).getD upper

def none : Secrets := ⟨[], by simp⟩

/-- Empty material is no secret: the entry is removed. -/
def setSecret (secrets : Secrets) (name : Text) (value : Bytes) : Secrets where
  entries :=
    let others := secrets.entries.filter (fun entry => entry.1 ≠ normalizeSecretName name)
    if value.isEmpty then others else (normalizeSecretName name, value) :: others
  filled := by
    intro entry member
    split at member
    · exact secrets.filled entry (List.mem_of_mem_filter member)
    · next given =>
      rcases List.mem_cons.mp member with same | old
      · subst same
        simpa using given
      · exact secrets.filled entry (List.mem_of_mem_filter old)

def getSecret (secrets : Secrets) (name : Text) : Option Bytes :=
  (secrets.entries.find? (fun entry => entry.1 = normalizeSecretName name)).map (·.2)

theorem getSecret_filled {secrets : Secrets} {name : Text} {value : Bytes}
    (found : secrets.getSecret name = some value) : value ≠ [] := by
  obtain ⟨entry, first, rfl⟩ := Option.map_eq_some_iff.mp found
  exact secrets.filled entry (List.mem_of_find?_eq_some first)

theorem getSecret_setSecret (secrets : Secrets) (name : Text) (value : Bytes) :
    (secrets.setSecret name value).getSecret name =
      if value.isEmpty then Option.none else some value := by
  unfold getSecret setSecret
  dsimp only
  split
  · simp only [Option.map_eq_none_iff, List.find?_eq_none, List.mem_filter]
    intro entry member
    simpa using member.2
  · simp

end Secrets

inductive IpAddr where
  | v4 (bits : BitVec 32)
  | v6 (bits : BitVec 128)
  deriving DecidableEq, Repr

/-- A block of addresses. -/
structure Net (w : Nat) where
  addr : BitVec w
  prefixLen : Nat
  fits : prefixLen ≤ w

namespace Net

variable {w : Nat}

/-- The bits of the host part. -/
def hostMask (net : Net w) : BitVec w :=
  if w - net.prefixLen = 0 then 0
  else if w - net.prefixLen = w then BitVec.allOnes w
  else BitVec.allOnes w >>> (w - (w - net.prefixLen))

def network (net : Net w) : BitVec w := net.addr &&& ~~~ net.hostMask

def Contains (net : Net w) (bits : BitVec w) : Prop := bits &&& ~~~ net.hostMask = net.network

end Net

inductive IpNet where
  | v4 (net : Net 32)
  | v6 (net : Net 128)

inductive Value where
  | null | ignore
  | chars (text : Text)
  | symbol (text : Text)
  | domain (text : Text)
  | url (text : Text)
  | email (text : Text)
  | idCard (text : Text)
  | mobilePhone (text : Text)
  | ipAddr (ip : IpAddr)
  | ipNet (net : IpNet)
  | int (number : Int)
  | float (bits : UInt64)
  | bool (truth : Bool)
  | hex (number : Nat)
  | bigUint (number : Nat)
  | other (kind : String)

inductive DataType where
  | chars | ip | other (name : String)
  deriving DecidableEq, Repr

structure DataField where
  info : DataType
  name : Text
  value : Value

namespace DataField

def fromChars (name text : Text) : DataField := ⟨.chars, name, .chars text⟩
def fromIp (name : Text) (ip : IpAddr) : DataField := ⟨.ip, name, .ipAddr ip⟩

end DataField

/-- What the operators take from elsewhere. A cipher is given its nonce. -/
structure Env where
  secrets : Secrets
  showIp : IpAddr → Text
  showNet : IpNet → Text
  showFloat : UInt64 → Text
  showHex : Nat → Text
  readIp : Text → Option IpAddr
  hmacSha256 : Bytes → Bytes → Bytes
  hmacSha1 : Bytes → Bytes → Bytes
  md5 : Bytes → Bytes
  hexEncode : Bytes → Text
  base64Encode : Bytes → Text
  newCipher : Bytes → Option (Bytes → Bytes → Option Bytes)
  nonce : Bytes

def defaultMaskChar : Char := '*'
def defaultPlaceholder : Text := "[REDACTED]".toList
def defaultSaltName : Text := "pii_salt".toList
def defaultKeyName : Text := "pii_key".toList
def defaultTokenPrefix : Text := "tok:v1:".toList

/-- `240.0.0.0/4` -/
def defaultPoolV4 : Net 32 := ⟨0xF0000000#32, 4, by decide⟩

/-- `2001:db8::/32` -/
def defaultPoolV6 : Net 128 := ⟨0x20010DB8000000000000000000000000#128, 32, by decide⟩

inductive MaskKind where
  | text | ip | mobile | idCard | mail | domain | name | address | company | keyMsg
  deriving DecidableEq, Repr

inductive NameStyle where
  | head | tail | full
  deriving DecidableEq, Repr

structure Mask where
  kind : MaskKind
  keepFirst : Option Nat := none
  keepLast : Option Nat := none
  keepLevels : Option Nat := none
  keepDomain : Option Bool := none
  nameStyle : Option NameStyle := none
  char : Option Char := none
  placeholderText : Option Text := none
  pool : Option IpNet := none
  allowUnsalted : Bool := false

namespace Mask

def maskChar (m : Mask) : Char := m.char.getD defaultMaskChar

def placeholder (m : Mask) : Text := m.placeholderText.getD defaultPlaceholder

end Mask

inductive HashAlgo where
  | sha256 | sha1 | md5
  deriving DecidableEq, Repr

inductive Encoding where
  | hex | base64Url
  deriving DecidableEq, Repr

structure Hash where
  algo : HashAlgo
  encoding : Encoding
  truncate : Option Nat

structure Tokenize where
  tokenPrefix : Text

section

variable (env : Env)

def valueText : Value → Option Text
  | .chars text => some text
  | .symbol text => some text
  | .domain text => some text
  | .url text => some text
  | .email text => some text
  | .idCard text => some text
  | .mobilePhone text => some text
  | .ipAddr ip => some (env.showIp ip)
  | .ipNet net => some (env.showNet net)
  | .int number => some (toString number).toList
  | .float bits => some (env.showFloat bits)
  | .bool truth => some (toString truth).toList
  | .hex number => some (env.showHex number)
  | .bigUint number => some (toString number).toList
  | .null => none
  | .ignore => none
  | .other _ => none

def isMissing : Value → Bool
  | .null => true
  | .ignore => true
  | _ => false

end

/-- The sum saturates in the source, above the length of any text. -/
def maskKeep (text : Text) (keepFirst keepLast : Nat) (ch : Char) (placeholder : Text) : Text :=
  if text.isEmpty then []
  else if keepFirst + keepLast ≥ text.length then placeholder
  else text.mapIdx (fun i c =>
    if i < keepFirst || decide (i ≥ text.length - keepLast) then c else ch)

def maskName (text : Text) (style : NameStyle) (ch : Char) : Text :=
  match text with
  | [] => []
  | [_] => [ch]
  | first :: second :: rest =>
    match style with
    | .head => first :: List.replicate (rest.length + 1) ch
    | .tail => List.replicate (rest.length + 1) ch ++ [(second :: rest).getLast (by simp)]
    | .full => List.replicate (rest.length + 2) ch

/-- The text before and behind the last `sep`. -/
def rsplitOnce (sep : Char) : Text → Option (Text × Text)
  | [] => none
  | c :: rest =>
    match rsplitOnce sep rest with
    | some (before, after) => some (c :: before, after)
    | none => if c = sep then some ([], rest) else none

def maskMail (text : Text) (keepFirst : Nat) (keepDomain : Bool) (ch : Char)
    (placeholder : Text) : Text :=
  match rsplitOnce '@' text with
  | none => placeholder
  | some (before, domain) =>
    if before.length = 0 || decide (keepFirst ≥ before.length) then placeholder
    else before.take keepFirst ++ List.replicate 3 ch ++ if keepDomain then '@' :: domain else []

def domainLevels (text : Text) : List Text := (text.splitOn '.').filter (fun part => !part.isEmpty)

def maskDomain (text : Text) (keepLevels : Nat) (ch : Char) (placeholder : Text) : Text :=
  let levels := domainLevels text
  if levels.length < keepLevels || keepLevels = 0 then placeholder
  else List.replicate 3 ch ++ '.' :: joinTexts ['.'] (levels.drop (levels.length - keepLevels))

/-- The number a big-endian sequence of bytes stands for. -/
def fromBeBytes (w : Nat) (bytes : Bytes) : BitVec w :=
  BitVec.ofNat w (bytes.foldl (fun n b => n * 256 + b.toNat) 0)

def octets {w : Nat} (bits : BitVec w) : Bytes :=
  (List.range (w / 8)).map (fun i => UInt8.ofNat (bits >>> (w - 8 * (i + 1))).toNat)

def selectPoolV4 : Option IpNet → Net 32
  | some (.v4 net) => net
  | some (.v6 _) => defaultPoolV4
  | none => defaultPoolV4

def selectPoolV6 : Option IpNet → Net 128
  | some (.v6 net) => net
  | some (.v4 _) => defaultPoolV6
  | none => defaultPoolV6

section

variable (env : Env)

def parseIp (text : Text) : Option IpAddr := env.readIp (trimText text)

/-- An address mapped into a pool: the host part is taken from the digest. -/
def mapIp {w : Nat} (version : UInt8) (ip : BitVec w) (salt : Bytes) (pool : Net w) : BitVec w :=
  let tag := env.hmacSha256 salt (version :: octets ip)
  pool.network ||| (fromBeBytes w (tag.take (w / 8)) &&& pool.hostMask)

theorem mapIp_contained {w : Nat} (version : UInt8) (ip : BitVec w) (salt : Bytes)
    (pool : Net w) : pool.Contains (mapIp env version ip salt pool) := by
  unfold Net.Contains mapIp
  apply BitVec.eq_of_getLsbD_eq
  intro i inside
  simp only [Net.network, BitVec.getLsbD_and, BitVec.getLsbD_or, BitVec.getLsbD_not]
  cases pool.hostMask.getLsbD i <;> simp [inside]

def mapIpv4 (ip : BitVec 32) (salt : Bytes) (pool : Net 32) : BitVec 32 := mapIp env 4 ip salt pool

def mapIpv6 (ip : BitVec 128) (salt : Bytes) (pool : Net 128) : BitVec 128 :=
  mapIp env 6 ip salt pool

namespace Mask

def fallback (m : Mask) (name : Text) : DataField := .fromChars name m.placeholder

/-- The masked text, for the kinds other than `ip`. -/
def masked (m : Mask) (text : Text) : Text :=
  let ch := m.maskChar
  let placeholder := m.placeholder
  match m.kind with
  | .mobile => maskKeep text 0 (m.keepLast.getD 4) ch placeholder
  | .idCard => maskKeep text (m.keepFirst.getD 6) (m.keepLast.getD 4) ch placeholder
  | .mail => maskMail text (m.keepFirst.getD 1) (m.keepDomain.getD true) ch placeholder
  | .domain => maskDomain text (m.keepLevels.getD 2) ch placeholder
  | .name => maskName text (m.nameStyle.getD .head) ch
  | .address => maskKeep text (m.keepFirst.getD 6) (m.keepLast.getD 0) ch placeholder
  | .company => maskKeep text (m.keepFirst.getD 4) (m.keepLast.getD 0) ch placeholder
  | .keyMsg => placeholder
  | .text =>
    if m.keepFirst.isNone && m.keepLast.isNone then placeholder
    else maskKeep text (m.keepFirst.getD 0) (m.keepLast.getD 0) ch placeholder
  -- handled before in the source
  | .ip => placeholder

def maskedIp (m : Mask) (name text : Text) : DataField :=
  match parseIp env text with
  | none => m.fallback name
  | some ip =>
    let mapped (salt : Bytes) : DataField := .fromIp name (match ip with
      | .v4 bits => .v4 (mapIpv4 env bits salt (selectPoolV4 m.pool))
      | .v6 bits => .v6 (mapIpv6 env bits salt (selectPoolV6 m.pool)))
    match env.secrets.getSecret defaultSaltName with
    | some salt => mapped salt
    | none => if m.allowUnsalted then mapped [] else m.fallback name

def valueCacu (m : Mask) (field : DataField) : DataField :=
  match valueText env field.value with
  | none => if isMissing field.value then field else m.fallback field.name
  | some text =>
    if text.isEmpty then field
    else if m.kind = .ip then m.maskedIp env field.name text
    else .fromChars field.name (m.masked text)

end Mask

def hmacMd5 (key msg : Bytes) : Bytes :=
  let short := if key.length > 64 then env.md5 key else key
  let block := short ++ List.replicate (64 - short.length) 0
  let innerDigest := env.md5 (block.map (· ^^^ 0x36) ++ msg)
  env.md5 (block.map (· ^^^ 0x5c) ++ innerDigest)

def digest : HashAlgo → Bytes → Bytes → Bytes
  | .sha256 => env.hmacSha256
  | .sha1 => env.hmacSha1
  | .md5 => hmacMd5 env

def Hash.valueCacu (h : Hash) (field : DataField) : DataField :=
  match valueText env field.value with
  | none => if isMissing field.value then field else .fromChars field.name defaultPlaceholder
  | some text =>
    if text.isEmpty then field
    else
      match env.secrets.getSecret defaultSaltName with
      | none => .fromChars field.name defaultPlaceholder
      | some salt =>
        let raw := digest env h.algo salt (utf8 text)
        let encoded := match h.encoding with
          | .hex => env.hexEncode raw
          | .base64Url => env.base64Encode raw
        .fromChars field.name (match h.truncate with
          | some limit => encoded.take limit
          | none => encoded)

def encryptToken (key plain : Bytes) : Option Bytes := do
  let cipher ← env.newCipher key
  let ciphertext ← cipher env.nonce plain
  return env.nonce ++ ciphertext

def Tokenize.valueCacu (t : Tokenize) (field : DataField) : DataField :=
  match valueText env field.value with
  | none => if isMissing field.value then field else .fromChars field.name defaultPlaceholder
  | some text =>
    if text.isEmpty then field
    else
      match env.secrets.getSecret defaultKeyName with
      | none => .fromChars field.name defaultPlaceholder
      | some key =>
        match encryptToken env key (utf8 text) with
        | none => .fromChars field.name defaultPlaceholder
        | some payload => .fromChars field.name (t.tokenPrefix ++ env.base64Encode payload)

end

end WarpMotor.Privacy
