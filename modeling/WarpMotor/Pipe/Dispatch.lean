import WarpMotor.Pipe.Functions

/-!
The other pipe functions: elements and members, replacements, addresses of the
network, the words of a log line and the privacy operators; and the dispatch to
each function.
-/
namespace WarpMotor.Pipe

open Oml (Text trimText)
open Privacy (IpAddr utf8)

def Nth.valueCacu (index : Nat) (field : DataField) : DataField :=
  match field.value with
  | .array items =>
    match items[index]? with
    | some found => found.asField
    | none => field
  | _ => field

/-- The float is zero, of either sign. -/
def isZero (bits : UInt64) : Bool := bits == 0 || bits == 0x8000000000000000

def SkipEmpty.valueCacu (field : DataField) : DataField :=
  match field.value with
  | .array items => if items.isEmpty then .fromIgnore field.name else field
  | .int number => if number = 0 then .fromIgnore field.name else field
  | .float bits => if isZero bits then .fromIgnore field.name else field
  | .chars text => if text.isEmpty then .fromIgnore field.name else field
  | .obj members => if members.isEmpty then .fromIgnore field.name else field
  | _ => field

/-- The keys from an object on: the field found by the last one, or the object that the keys lead
    to. A key that finds nothing, or nothing with members, is passed over. -/
def Get.follow : List Text → List Member → DataField ⊕ List Member
  | [], members => .inr members
  | key :: keys, members =>
    match getMember members key with
    | none => follow keys members
    | some found =>
      if keys.isEmpty then .inl found.asField
      else
        match found.asField.value with
        | .obj nested => follow keys nested
        | _ => follow keys members

def Get.valueCacu (name : Text) (field : DataField) : DataField :=
  match field.value with
  | .obj members =>
    match Get.follow (name.splitOn '/') members with
    | .inl found => found
    -- the object of the field has been replaced on the way
    | .inr reached => ⟨field.info, field.name, .obj reached⟩
  | _ => field

def OnFail.valueCacu (value : Text) (field : DataField) : DataField :=
  match field.value with
  | .ignore => .fromChars field.name value
  | .null => .fromChars field.name value
  | _ => field

def StartsWith.valueCacu (start : Text) (field : DataField) : DataField :=
  match field.value with
  | .chars text => if start.isPrefixOf text then field else .fromIgnore field.name
  | _ => .fromIgnore field.name

def MapTo.valueCacu (value : MapValue) (field : DataField) : DataField :=
  match field.value with
  | .ignore => field
  | _ =>
    match value with
    | .chars text => .fromChars field.name text
    | .digit number => .fromInt field.name number
    | .float bits => .fromFloat field.name bits
    | .bool truth => .fromBool field.name truth

def Remove.valueCacu (field : DataField) : DataField := ⟨.ignore, field.name, .null⟩

/-- IPv6 addresses are put behind the IPv4 ones. -/
def ipToBiguint : IpAddr → Nat
  | .v4 bits => bits.toNat
  | .v6 bits => bits.toNat + 340282366920938463463374607431768211456

/-- An IPv4 address written as an IPv6 one is taken as IPv4. -/
def normalizeFamily : IpAddr → IpAddr
  | .v4 bits => .v4 bits
  | .v6 bits => if bits >>> 32 = 0xFFFF#128 then .v4 (bits.setWidth 32) else .v6 bits

def isIpv4 : IpAddr → Bool
  | .v4 _ => true
  | .v6 _ => false

/-- `192.0.2.1` -/
def maskDefaultV4 : IpAddr := .v4 0xC0000201#32

/-- `2001:db8::1` -/
def maskDefaultV6 : IpAddr := .v6 0x20010DB8000000000000000000000001#128

section

variable (env : Env)

def nullFieldLike (field : DataField) : DataField := ⟨env.defaultType, field.name, .null⟩

/-- Anything but an address is null, with an issue unless the value is missing. -/
def IpToBigUint.valueCacu (field : DataField) : DataField :=
  match field.value with
  | .ipAddr ip => ⟨.bigInt, field.name, .bigUint (ipToBiguint ip)⟩
  | _ => nullFieldLike env field

def Ip4ToInt.valueCacu (field : DataField) : DataField :=
  match field.value with
  | .ipAddr (.v4 bits) => .fromInt field.name bits.toNat
  | .ipAddr (.v6 _) => nullFieldLike env field
  | .chars text =>
    let text := trimText text
    if text.isEmpty then nullFieldLike env field
    else
      match env.readIp text with
      | some (.v4 bits) => .fromInt field.name bits.toNat
      | _ => nullFieldLike env field
  | _ => field

def side (ip : IpAddr) : Text := if env.isIntranet ip then "LAN".toList else "WAN".toList

def IntranetIp.valueCacu (field : DataField) : DataField :=
  match field.value with
  | .ipAddr ip => .fromChars field.name (side env ip)
  | .chars text =>
    let text := trimText text
    if text.isEmpty then .fromIgnore field.name
    else
      match env.readIp text with
      | some ip => .fromChars field.name (side env ip)
      | none => .fromIgnore field.name
  | .null => .fromIgnore field.name
  | .ignore => .fromIgnore field.name
  | _ => field

def IntranetReplace.mask (replace : Option IpAddr) (raw : IpAddr) (field : DataField) :
    DataField :=
  let ip := normalizeFamily raw
  if !env.isIntranet ip then field
  else
    match replace with
    | some explicit =>
      let explicit := normalizeFamily explicit
      if isIpv4 explicit != isIpv4 ip then .fromIgnore field.name
      else .fromIp field.name explicit
    | none => .fromIp field.name (if isIpv4 ip then maskDefaultV4 else maskDefaultV6)

def IntranetReplace.valueCacu (replace : Option IpAddr) (field : DataField) : DataField :=
  match field.value with
  | .ipAddr ip => IntranetReplace.mask env replace ip field
  | _ => field

inductive WordRole where
  | entity | action | status
  deriving DecidableEq, Repr

def classifyEng (word : Text) : WordRole :=
  let lower := env.lowercase word
  let bytes := (utf8 lower).length
  if env.dict.statusWords.contains lower then .status
  else if env.dict.actionVerbs.contains lower then .action
  else if env.dict.entityNouns.contains lower then .entity
  else if "ing".toList.isSuffixOf lower && decide (bytes > 4) then .action
  else if "ed".toList.isSuffixOf lower && decide (bytes > 3) then .action
  else if ("tion".toList.isSuffixOf lower || "sion".toList.isSuffixOf lower) &&
    decide (bytes > 5) then .action
  else .entity

def actionPos : List Text := ["v".toList, "vn".toList, "vd".toList]

def entityPos : List Text :=
  ["n".toList, "nr".toList, "ns".toList, "nt".toList, "nz".toList, "ng".toList]

/-- Words of the other parts of speech have no role. -/
def classifyCn (pos word : Text) : Option WordRole :=
  let lower := env.lowercase word
  if env.dict.statusWords.contains lower then some .status
  else if env.dict.actionVerbs.contains lower then some .action
  else if actionPos.contains pos then some .action
  else if entityPos.contains pos then some .entity
  else if env.dict.domainWords.contains lower then some .entity
  else none

/-- Who does what to whom, with what outcome. -/
structure Analysis where
  subject : Text := []
  action : Text := []
  object : Text := []
  status : Text := []
  actionSeen : Bool := false

/-- The first word of a role is kept; the object is an entity behind the action. -/
def Analysis.assign (found : Analysis) (word : Text) : WordRole → Analysis
  | .status => if found.status.isEmpty then { found with status := word } else found
  | .action =>
    if found.action.isEmpty then { found with action := word, actionSeen := true } else found
  | .entity =>
    if found.subject.isEmpty then { found with subject := word }
    else if found.actionSeen && found.object.isEmpty then { found with object := word }
    else found

def analyzeTag (found : Analysis) (tag : Text × Text) : Analysis :=
  let word := trimText tag.1
  if word.isEmpty then found
  else if env.dict.stopWords.contains (env.lowercase word) then found
  else
    let role := if tag.2 = "eng".toList then some (classifyEng env word)
      else classifyCn env tag.2 word
    match role with
    | some role => found.assign word role
    | none => found

def analyzeSubjectObject (text : Text) : Analysis := (env.tag text).foldl (analyzeTag env) {}

def charsMember (name text : Text) : Member := ⟨name, .fromOwned (.fromChars name text)⟩

/-- The parser leaves the output for diagnosis turned off. -/
def ExtractSubjectObject.valueCacu (field : DataField) : DataField :=
  if !env.isSemanticEnabled then .fromObj field.name []
  else
    match field.value with
    | .chars text =>
      let cleaned := trimText text
      if cleaned.isEmpty then .fromObj field.name []
      else
        let found := analyzeSubjectObject env cleaned
        .fromObj field.name
          [charsMember "subject".toList found.subject, charsMember "action".toList found.action,
            charsMember "object".toList found.object, charsMember "status".toList found.status]
    | _ => field

/-- A word of the domain, or one of a core part of speech that is no stop word. -/
def isMainWord (tag : Text × Text) : Bool :=
  let lower := env.lowercase tag.1
  !(trimText tag.1).isEmpty &&
    (env.dict.domainWords.contains lower ||
      (env.dict.corePos.contains tag.2 && !env.dict.stopWords.contains lower))

def ExtractMainWord.valueCacu (field : DataField) : DataField :=
  if !env.isSemanticEnabled then .fromChars field.name []
  else
    match field.value with
    | .chars text =>
      let cleaned := trimText text
      if cleaned.isEmpty then .fromChars field.name []
      else .fromChars field.name (((env.tag cleaned).find? (isMainWord env)).elim [] (·.1))
    | _ => field

end

/-- The value as the privacy operators see it: values that hold fields have no text. -/
def Value.toPrivacy : Value → Privacy.Value
  | plain value => value
  | time _ => .other "time"
  | array _ => .other "array"
  | obj _ => .other "obj"

def DataField.toPrivacy (field : DataField) : Privacy.DataField :=
  let info := match field.info with
    | .chars => .chars
    | .ip => .ip
    | _ => .other ""
  ⟨info, field.name, field.value.toPrivacy⟩

/-- The result of a privacy operator, which is a text, an address or the field it was given. -/
def DataField.ofPrivacy (field : DataField) (result : Privacy.DataField) : DataField :=
  match result.info with
  | .chars => ⟨.chars, result.name, .plain result.value⟩
  | .ip => ⟨.ip, result.name, .plain result.value⟩
  | .other _ => field

section

variable (env : Env)

def Mask.valueCacu (op : Privacy.Mask) (field : DataField) : Option DataField :=
  (op.valueCacuChecked env.toEnv field.toPrivacy).map field.ofPrivacy

def Hash.valueCacu (op : Privacy.Hash) (field : DataField) : DataField :=
  field.ofPrivacy (op.valueCacu env.toEnv field.toPrivacy)

def Tokenize.valueCacu (op : Privacy.Tokenize) (field : DataField) : DataField :=
  field.ofPrivacy (op.valueCacu env.toEnv field.toPrivacy)

def PipeFun.valueCacu (function : PipeFun) (field : DataField) : Option DataField :=
  match function with
  | base64Encode => some (Base64Encode.valueCacu env field)
  | base64Decode encode => some (Base64Decode.valueCacu env encode field)
  | htmlEscape => some (HtmlEscape.valueCacu env field)
  | htmlUnescape => some (HtmlUnescape.valueCacu env field)
  | strEscape => some (StrEscape.valueCacu field)
  | jsonEscape => some (JsonEscape.valueCacu env field)
  | jsonUnescape => some (JsonUnescape.valueCacu env field)
  | timeToTs zone => some (TimeToTs.valueCacu env zone field)
  | timeToTsMs zone => some (TimeToTsMs.valueCacu env zone field)
  | timeToTsUs zone => some (TimeToTsUs.valueCacu env zone field)
  | timeToTsZone zone unit => some (TimeToTsZone.valueCacu env zone unit field)
  | timeFromTs zone => TimeFromTs.valueCacu env zone field
  | timeFromTsMs zone => TimeFromTsMs.valueCacu env zone field
  | timeFromTsUs zone => TimeFromTsUs.valueCacu env zone field
  | nth index => some (Nth.valueCacu index field)
  | get name => some (Get.valueCacu name field)
  | onFail value => some (OnFail.valueCacu value field)
  | startsWith start => some (StartsWith.valueCacu start field)
  | mapTo value => some (MapTo.valueCacu value field)
  | toStr => ToStr.valueCacu env field
  | toJson => some (ToJson.valueCacu env field)
  | skipEmpty => some (SkipEmpty.valueCacu field)
  -- `todo!`
  | dumb => none
  | pathGet key => some (PathGet.valueCacu env key field)
  | urlGet key => some (UrlGet.valueCacu env key field)
  | ip4ToInt => some (Ip4ToInt.valueCacu env field)
  | ipToBigUint => some (IpToBigUint.valueCacu env field)
  | intranetIp => some (IntranetIp.valueCacu env field)
  | intranetReplace replace => some (IntranetReplace.valueCacu env replace field)
  | extractMainWord => some (ExtractMainWord.valueCacu env field)
  | extractSubjectObject => some (ExtractSubjectObject.valueCacu env field)
  | mask op => Mask.valueCacu env op field
  | hash op => some (Hash.valueCacu env op field)
  | tokenize op => some (Tokenize.valueCacu env op field)
  | remove => some (Remove.valueCacu field)

end

end WarpMotor.Pipe
