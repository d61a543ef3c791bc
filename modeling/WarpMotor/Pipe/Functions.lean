import WarpMotor.Pipe.Field
import WarpMotor.Privacy.Checked

/-!
The pipe functions. `none` is a panic: most functions return a field whatever
they are given, and are total here; those with a place that can panic return
an option. Encodings, decoders, the splitting of paths and addresses of pages,
the tagging of words and the formatter of values are parameters, as are the
networks taken for internal. Issues reported for diagnosis are not kept.
-/
namespace WarpMotor.Pipe

open Oml (Text trimText)
open Privacy (Bytes IpAddr utf8)

/-- A character set of the decoders. -/
inductive Charset where
  | big5 | eucJp | gb18030 | ibm866 | iso2022Jp | iso88592 | iso88593 | iso88594 | iso88595
  | iso88596 | iso88597 | iso88598 | iso885910 | iso885913 | iso885914 | iso885915 | iso885916
  | koi8R | koi8U | macintosh | shiftJis | utf16be | utf16le | windows874 | windows1250
  | windows1251 | windows1252 | windows1253 | windows1254 | windows1255 | windows1256
  | windows1257 | windows1258 | xMacCyrillic
  deriving DecidableEq, Repr

/-- The parts of the address of a page. -/
structure Url where
  domain : Option Text
  hostStr : Option Text
  port : Option Nat
  fromPath : Text
  path : Text
  query : Option Text

/-- The word lists of the semantic functions. -/
structure SemanticDict where
  corePos : List Text
  stopWords : List Text
  domainWords : List Text
  statusWords : List Text
  actionVerbs : List Text
  entityNouns : List Text

/-- What the functions take from elsewhere. -/
structure Env extends Privacy.Env where
  calendar : Calendar
  /-- The name of a shared field made owned, by its own and its current name. -/
  ownedName : Text → Text → Text
  defaultType : DataType
  lowercase : Text → Text
  encodeSafe : Text → Text
  decodeHtmlEntities : Text → Text
  escapeJson : Text → Text
  unescapeJson : Text → Option Text
  formatValue : Value → Text
  standardEncode : Bytes → Text
  standardDecode : Text → Option Bytes
  escapeByteString : Bytes → Text
  fromUtf8Lossy : Bytes → Text
  decode : Charset → Bytes → Text
  pathParent : Text → Option Text
  pathFileName : Text → Option Text
  parseUrl : Text → Option Url
  isIntranet : IpAddr → Bool
  isSemanticEnabled : Bool
  dict : SemanticDict
  /-- The words of a text, each with its part of speech. -/
  tag : Text → List (Text × Text)

inductive EncodeType where
  | utf8 | utf16le | utf16be | windows949 | eucJp | windows31j | iso2022Jp | gbk | gb18030 | hz
  | big52003 | macCyrillic | windows874 | windows1250 | windows1251 | windows1252 | windows1253
  | windows1254 | windows1255 | windows1256 | windows1257 | windows1258 | ascii | ibm866
  | iso88591 | iso88592 | iso88593 | iso88594 | iso88595 | iso88596 | iso88597 | iso88598
  | iso885910 | iso885913 | iso885914 | iso885915 | iso885916 | koi8R | koi8U | macRoman | imap
  deriving DecidableEq, Repr

inductive TimeStampUnit where
  | ms | us | ss
  deriving DecidableEq, Repr

inductive MapValue where
  | chars (text : Text)
  | digit (number : Int)
  | float (bits : UInt64)
  | bool (truth : Bool)

inductive PathType where
  | default | fileName | path
  deriving DecidableEq, Repr

inductive UrlType where
  | default | domain | httpReqHost | httpReqUri | httpReqPath | httpReqParams
  deriving DecidableEq, Repr

inductive PipeFun where
  | base64Encode
  | base64Decode (encode : EncodeType)
  | htmlEscape | htmlUnescape | strEscape | jsonEscape | jsonUnescape
  | timeToTs (zone : Option Int)
  | timeToTsMs (zone : Option Int)
  | timeToTsUs (zone : Option Int)
  | timeToTsZone (zone : Int) (unit : TimeStampUnit)
  | timeFromTs (zone : Option Int)
  | timeFromTsMs (zone : Option Int)
  | timeFromTsUs (zone : Option Int)
  | nth (index : Nat)
  | get (name : Text)
  | onFail (value : Text)
  | startsWith (start : Text)
  | mapTo (value : MapValue)
  | toStr | toJson | skipEmpty | dumb
  | pathGet (key : PathType)
  | urlGet (key : UrlType)
  | ip4ToInt | ipToBigUint | intranetIp
  | intranetReplace (replace : Option IpAddr)
  | extractMainWord | extractSubjectObject
  | mask (op : Privacy.Mask)
  | hash (op : Privacy.Hash)
  | tokenize (op : Privacy.Tokenize)
  | remove

/-- A text is made another; any other value stays. -/
def mapChars (f : Text → Text) (field : DataField) : DataField :=
  match field.value with
  | .chars text => .fromChars field.name (f text)
  | _ => field

def escapeDefault (c : Char) : Text :=
  if c = '\t' then ['\\', 't']
  else if c = '\r' then ['\\', 'r']
  else if c = '\n' then ['\\', 'n']
  else if c.toNat = 0x22 || c.toNat = 0x27 || c.toNat = 0x5C then ['\\', c]
  else if 0x20 ≤ c.toNat && c.toNat ≤ 0x7E then [c]
  else ['\\', 'u', '{'] ++ Nat.toDigits 16 c.toNat ++ ['}']

def StrEscape.valueCacu : DataField → DataField := mapChars (fun text => text.flatMap escapeDefault)

section

variable (env : Env)

def HtmlEscape.valueCacu : DataField → DataField := mapChars env.encodeSafe
def HtmlUnescape.valueCacu : DataField → DataField := mapChars env.decodeHtmlEntities
def JsonEscape.valueCacu : DataField → DataField := mapChars env.escapeJson

def JsonUnescape.valueCacu (field : DataField) : DataField :=
  match field.value with
  | .chars text =>
    match env.unescapeJson text with
    | some json => .fromChars field.name json
    | none => field
  | _ => field

def ToStr.valueCacu (field : DataField) : Option DataField :=
  match field.value with
  | .chars _ => some field
  | .ipAddr ip => some (.fromChars field.name (env.showIp ip))
  -- `unimplemented!`
  | _ => none

def ToJson.valueCacu (field : DataField) : DataField :=
  ⟨.json, field.name, .chars (env.formatValue field.value)⟩

def Base64Encode.valueCacu : DataField → DataField :=
  mapChars (fun text => env.standardEncode (utf8 text))

/-- Sets that the decoders do not have are read as others. -/
def decodeBytes (code : Bytes) : EncodeType → Text
  | .imap => env.escapeByteString code
  | .utf8 | .hz | .ascii => env.fromUtf8Lossy code
  | .utf16le => env.decode .utf16le code
  | .utf16be => env.decode .utf16be code
  | .eucJp => env.decode .eucJp code
  | .windows31j => env.decode .shiftJis code
  | .iso2022Jp => env.decode .iso2022Jp code
  | .gbk | .gb18030 | .windows949 => env.decode .gb18030 code
  | .big52003 => env.decode .big5 code
  | .macCyrillic => env.decode .xMacCyrillic code
  | .windows874 => env.decode .windows874 code
  | .windows1250 => env.decode .windows1250 code
  | .windows1251 => env.decode .windows1251 code
  | .windows1252 | .iso88591 => env.decode .windows1252 code
  | .windows1253 => env.decode .windows1253 code
  | .windows1254 => env.decode .windows1254 code
  | .windows1255 => env.decode .windows1255 code
  | .windows1256 => env.decode .windows1256 code
  | .windows1257 => env.decode .windows1257 code
  | .windows1258 => env.decode .windows1258 code
  | .ibm866 => env.decode .ibm866 code
  | .iso88592 => env.decode .iso88592 code
  | .iso88593 => env.decode .iso88593 code
  | .iso88594 => env.decode .iso88594 code
  | .iso88595 => env.decode .iso88595 code
  | .iso88596 => env.decode .iso88596 code
  | .iso88597 => env.decode .iso88597 code
  | .iso88598 => env.decode .iso88598 code
  | .iso885910 => env.decode .iso885910 code
  | .iso885913 => env.decode .iso885913 code
  | .iso885914 => env.decode .iso885914 code
  | .iso885915 => env.decode .iso885915 code
  | .iso885916 => env.decode .iso885916 code
  | .koi8R => env.decode .koi8R code
  | .koi8U => env.decode .koi8U code
  | .macRoman => env.decode .macintosh code

def Base64Decode.valueCacu (encode : EncodeType) : DataField → DataField :=
  mapChars (fun text =>
    match env.standardDecode text with
    | some code => decodeBytes env code encode
    | none => [])

def PathGet.valueCacu (key : PathType) : DataField → DataField :=
  mapChars (fun text =>
    let text := text.map (fun c => if c = '\\' then '/' else c)
    match key with
    | .default => text
    | .path => (env.pathParent text).getD text
    | .fileName => (env.pathFileName text).getD text)

def UrlGet.valueCacu (key : UrlType) : DataField → DataField :=
  mapChars (fun text =>
    match env.parseUrl text with
    | none => text
    | some url =>
      match key with
      | .domain => url.domain.getD text
      | .httpReqHost =>
        let port := (url.port.map (fun p => ':' :: (toString p).toList)).getD []
        url.hostStr.getD [] ++ port
      | .httpReqUri => url.fromPath
      | .httpReqPath => url.path
      | .httpReqParams => url.query.getD []
      | .default => text)

/-- The whole hours as an offset; the product saturates. -/
def zoneOffset (zoneHours : Int) : Option FixedOffset :=
  FixedOffset.eastOpt (max (-2147483648) (min 2147483647 (zoneHours * 3600)))

/-- `none` when the field stays as it is. -/
def timeToTsValue (field : DataField) (zone : Option Int) (conv : NaiveDateTime → Int) :
    Option DataField :=
  match field.value with
  | .time moment => do
    let tz ← zoneOffset (zone.getD 8)
    let utc ← env.calendar.andLocalTimezone moment tz
    return .fromInt field.name (conv utc)
  | _ => none

/-- The inner `none` when the field stays as it is. -/
def tsToTimeValue (field : DataField) (zone : Option Int) (conv : Int → Option NaiveDateTime) :
    Option (Option DataField) :=
  match field.value with
  | .int x =>
    match conv x with
    | none => some none
    | some utc =>
      match zoneOffset (zone.getD 8) with
      | none => some none
      | some tz => (env.calendar.naiveLocal utc tz).map
          (fun moment => some (.fromTime field.name moment))
  | _ => some none

def TimeToTs.valueCacu (zone : Option Int) (field : DataField) : DataField :=
  (timeToTsValue env field zone NaiveDateTime.timestamp).getD field

def TimeToTsMs.valueCacu (zone : Option Int) (field : DataField) : DataField :=
  (timeToTsValue env field zone NaiveDateTime.timestampMillis).getD field

def TimeToTsUs.valueCacu (zone : Option Int) (field : DataField) : DataField :=
  (timeToTsValue env field zone NaiveDateTime.timestampMicros).getD field

def TimeToTsZone.valueCacu (zone : Int) (unit : TimeStampUnit) (field : DataField) : DataField :=
  let conv := match unit with
    | .ms => NaiveDateTime.timestampMillis
    | .us => NaiveDateTime.timestampMicros
    | .ss => NaiveDateTime.timestamp
  (timeToTsValue env field (some zone) conv).getD field

def TimeFromTs.valueCacu (zone : Option Int) (field : DataField) : Option DataField :=
  (tsToTimeValue env field zone (fun x => env.calendar.fromTimestamp x 0)).map (·.getD field)

def TimeFromTsMs.valueCacu (zone : Option Int) (field : DataField) : Option DataField :=
  (tsToTimeValue env field zone env.calendar.fromTimestampMillis).map (·.getD field)

def TimeFromTsUs.valueCacu (zone : Option Int) (field : DataField) : Option DataField :=
  (tsToTimeValue env field zone env.calendar.fromTimestampMicros).map (·.getD field)

end

end WarpMotor.Pipe
