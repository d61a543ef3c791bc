import Mathlib.Data.String.Basic
import WarpMotor.Oml.Reading
import WarpMotor.Parse.MultiParser
import WarpMotor.Sink.Dispatcher
import WarpMotor.Tags

/-!
Where global tags come from and how a batch gets them: the environment
variable is parsed and checked once, every parsed record and side record is
stamped, and the tags of the source are added where their name is still free.
A batch is then grouped by rule.
-/
namespace WarpMotor
open DataRecord

namespace GlobalTags

def globalTagsEnv : String := "WP_GLOBAL_TAGS"

/-- The prefix of system fields. -/
def reservedPrefix : List Char := "wp_".toList

def isReserved (key : String) : Bool := reservedPrefix.isPrefixOf key.toList

def validatePairs : List (String × String) → Except String (List (String × String))
  | [] => .ok []
  | (key, value) :: rest =>
    if key = "" then .error (globalTagsEnv ++ " contains an empty key")
    else if isReserved key then
      .error (globalTagsEnv ++ " key '" ++ key ++ "' uses reserved prefix 'wp_'")
    else
      match validatePairs rest with
      | .error e => .error e
      | .ok out => .ok ((key, value) :: out)

/-- `split_once('=')`. -/
def splitOnce (text : List Char) : Option (List Char × List Char) :=
  match text.dropWhile (fun c => c ≠ '=') with
  | [] => none
  | _ :: value => some (text.takeWhile (fun c => c ≠ '='), value)

def parseItems : List (List Char) → Except String (List (String × String))
  | [] => .ok []
  | item :: rest =>
    let item := Oml.trimText item
    if item.isEmpty then parseItems rest
    else
      match splitOnce item with
      | none =>
        .error (globalTagsEnv ++ " item '" ++ String.ofList item ++ "' must be in key=value form")
      | some (key, value) =>
        let key := Oml.trimText key
        let value := Oml.trimText value
        if key.isEmpty then .error (globalTagsEnv ++ " contains an empty key")
        else
          match parseItems rest with
          | .error e => .error e
          | .ok pairs => .ok ((String.ofList key, String.ofList value) :: pairs)

/-- `parse_global_tags`; `json` reads an object of strings. -/
def parseGlobalTags (json : List Char → Except String (List (String × String))) (raw : List Char) :
    Except String (List (String × String)) :=
  let raw := Oml.trimText raw
  if raw.isEmpty then .ok []
  else if raw.head? = some '{' then
    match json raw with
    | .error e => .error (globalTagsEnv ++ " JSON parse failed: " ++ e)
    | .ok pairs => validatePairs pairs
  else
    match parseItems (raw.splitOn ',') with
    | .error e => .error e
    | .ok pairs => validatePairs pairs

/-- An entry of a sorted map: a later value replaces an earlier one. -/
def insertTag (key value : String) : List (String × String) → List (String × String)
  | [] => [(key, value)]
  | (other, old) :: rest =>
    if key < other then (key, value) :: (other, old) :: rest
    else if key = other then (key, value) :: rest
    else (other, old) :: insertTag key value rest

def fromPairs (pairs : List (String × String)) : GlobalTags :=
  ⟨pairs.foldl (fun tags pair => insertTag pair.1 pair.2 tags) []⟩

/-- The state of an environment variable. -/
inductive EnvVar where
  | present (raw : List Char)
  | absent
  | unreadable (error : String)

def fromEnvVar (json : List Char → Except String (List (String × String))) (name : String) :
    EnvVar → Except String GlobalTags
  | .present raw =>
    match parseGlobalTags json raw with
    | .error e => .error e
    | .ok pairs => .ok (fromPairs pairs)
  | .absent => .ok ⟨[]⟩
  | .unreadable error => .error ("read " ++ name ++ " failed: " ++ error)

def fromEnv (json : List Char → Except String (List (String × String))) (var : EnvVar) :
    Except String GlobalTags :=
  fromEnvVar json globalTagsEnv var

theorem validatePairs_unreserved {pairs out : List (String × String)}
    (accepted : validatePairs pairs = .ok out) :
    ∀ pair ∈ out, isReserved pair.1 = false := by
  induction pairs generalizing out with
  | nil =>
    cases accepted
    simp
  | cons pair pairs ih =>
    rw [validatePairs] at accepted
    split at accepted
    · cases accepted
    · split at accepted
      · cases accepted
      · rename_i free
        cases rest : validatePairs pairs with
        | error e =>
          rw [rest] at accepted
          cases accepted
        | ok more =>
          rw [rest] at accepted
          cases accepted
          intro other member
          rw [List.mem_cons] at member
          obtain rfl | member := member
          · simpa using free
          · exact ih rest other member

theorem parseGlobalTags_unreserved {json : List Char → Except String (List (String × String))}
    {raw : List Char} {pairs : List (String × String)}
    (accepted : parseGlobalTags json raw = .ok pairs) :
    ∀ pair ∈ pairs, isReserved pair.1 = false := by
  unfold parseGlobalTags at accepted
  dsimp only at accepted
  split at accepted
  · cases accepted
    simp
  · split at accepted
    · split at accepted
      · cases accepted
      · exact validatePairs_unreserved accepted
    · split at accepted
      · cases accepted
      · exact validatePairs_unreserved accepted

theorem insertTag_keys (key value : String) (tags : List (String × String)) {name : String}
    (member : name ∈ (insertTag key value tags).map Prod.fst) :
    name = key ∨ name ∈ tags.map Prod.fst := by
  induction tags with
  | nil => simpa [insertTag] using member
  | cons tag tags ih =>
    rw [insertTag] at member
    split at member
    · simpa using member
    · split at member
      · rename_i same
        simp only [List.map_cons, List.mem_cons] at member ⊢
        exact member.imp_right Or.inr
      · simp only [List.map_cons, List.mem_cons] at member ⊢
        obtain here | there := member
        · exact .inr (.inl here)
        · exact (ih there).imp_right Or.inr

theorem insertTag_sorted (key value : String) {tags : List (String × String)}
    (sorted : (tags.map Prod.fst).Pairwise (· < ·)) :
    ((insertTag key value tags).map Prod.fst).Pairwise (· < ·) := by
  induction tags with
  | nil => simp [insertTag]
  | cons tag tags ih =>
    obtain ⟨other, old⟩ := tag
    have above := sorted
    rw [List.map_cons, List.pairwise_cons] at above
    rw [insertTag]
    split
    · rename_i smaller
      rw [List.map_cons, List.pairwise_cons]
      refine ⟨?_, sorted⟩
      intro name member
      rw [List.map_cons, List.mem_cons] at member
      obtain rfl | member := member
      · exact smaller
      · exact lt_trans smaller (above.1 name member)
    · split
      · rename_i same
        subst same
        exact sorted
      · rename_i not_smaller differs
        rw [List.map_cons, List.pairwise_cons]
        refine ⟨?_, ih above.2⟩
        intro name member
        obtain rfl | member := insertTag_keys key value tags member
        · exact lt_of_le_of_ne (not_lt.mp not_smaller) (Ne.symm differs)
        · exact above.1 name member

theorem fromPairs_sorted (pairs : List (String × String)) :
    (fromPairs pairs).keys.Pairwise (· < ·) := by
  unfold fromPairs keys
  suffices run : ∀ tags : List (String × String), (tags.map Prod.fst).Pairwise (· < ·) →
      ((pairs.foldl (fun tags pair => insertTag pair.1 pair.2 tags) tags).map Prod.fst).Pairwise
        (· < ·) from run [] List.Pairwise.nil
  induction pairs with
  | nil => exact fun _ sorted => sorted
  | cons pair pairs ih => exact fun tags sorted => ih _ (insertTag_sorted pair.1 pair.2 sorted)

theorem fromPairs_distinct (pairs : List (String × String)) : (fromPairs pairs).KeysDistinct :=
  (fromPairs_sorted pairs).imp (fun less => ne_of_lt less)

theorem fromPairs_keys (pairs : List (String × String)) {name : String}
    (member : name ∈ (fromPairs pairs).keys) : name ∈ pairs.map Prod.fst := by
  unfold fromPairs keys at member
  suffices run : ∀ tags : List (String × String),
      name ∈ (pairs.foldl (fun tags pair => insertTag pair.1 pair.2 tags) tags).map Prod.fst →
        name ∈ tags.map Prod.fst ∨ name ∈ pairs.map Prod.fst by
    obtain none_here | here := run [] member
    · simp at none_here
    · exact here
  clear member
  induction pairs with
  | nil => exact fun _ member => .inl member
  | cons pair pairs ih =>
    intro tags member
    rw [List.map_cons, List.mem_cons]
    obtain before | later := ih _ member
    · obtain new | old := insertTag_keys pair.1 pair.2 tags before
      · exact .inr (.inl new)
      · exact .inl old
    · exact .inr (.inr later)

/-- What `from_env` guarantees: the keys of a map, none of them reserved. -/
structure Admitted (tags : GlobalTags) : Prop where
  distinct : tags.KeysDistinct
  unreserved : ∀ key ∈ tags.keys, isReserved key = false

theorem fromEnv_admitted {json : List Char → Except String (List (String × String))}
    {var : EnvVar} {tags : GlobalTags} (loaded : fromEnv json var = .ok tags) :
    tags.Admitted := by
  cases var with
  | absent =>
    cases loaded
    exact ⟨List.nodup_nil, by simp [keys]⟩
  | unreadable error => cases loaded
  | present raw =>
    rw [fromEnv, fromEnvVar] at loaded
    cases parsed : parseGlobalTags json raw with
    | error e =>
      rw [parsed] at loaded
      cases loaded
    | ok pairs =>
      rw [parsed] at loaded
      cases loaded
      refine ⟨fromPairs_distinct pairs, ?_⟩
      intro key member
      obtain ⟨pair, listed, rfl⟩ := List.mem_map.mp (fromPairs_keys pairs member)
      exact parseGlobalTags_unreserved parsed pair listed

/-- A later pair wins over an earlier one of its key. -/
example : fromEnv (fun _ => .error "") (.present "owner_id=a,owner_id=b".toList) =
    .ok ⟨[("owner_id", "b")]⟩ := by decide

end GlobalTags

namespace DataRecord

/-- The fields under the prefix of the system. -/
def systemFields (record : DataRecord) : List DataField :=
  record.items.filter (fun field => GlobalTags.isReserved field.name)

theorem systemFields_append (record : DataRecord) (field : DataField) :
    record.systemFields <+: (record.append field).systemFields := by
  rw [systemFields, systemFields, append, List.filter_append]
  exact List.prefix_append _ _

theorem systemFields_appendAll (record : DataRecord) (fields : List DataField) :
    record.systemFields <+: (fields.foldl append record).systemFields := by
  induction fields generalizing record with
  | nil => exact List.prefix_rfl
  | cons field fields ih => exact (systemFields_append record field).trans (ih (record.append field))

end DataRecord

/-- Stamping touches no system field. -/
theorem applyGlobalTags_systemFields {tags : GlobalTags} (admitted : tags.Admitted)
    (record : DataRecord) : (applyGlobalTags record tags).systemFields = record.systemFields := by
  refine applyGlobalTags_filter record ?_
  intro field system member
  rw [admitted.unreserved field.name member] at system
  cases system

/-- `record.field(key)` finds nothing. -/
def DataRecord.lacks (record : DataRecord) (key : String) : Bool :=
  record.items.all (fun field => decide (field.name ≠ key))

/-- The tags of the source whose name is still free. -/
def enrichRecordWithTags (record : DataRecord) (tags : List (String × String)) : DataRecord :=
  (tags.filter (fun tag => record.lacks tag.1)).foldl
    (fun record tag => record.append (DataField.fromChars tag.1 tag.2)) record

theorem enrich_appends (record : DataRecord) (tags : List (String × String)) :
    enrichRecordWithTags record tags =
      ((tags.filter (fun tag => record.lacks tag.1)).map (fun tag =>
        DataField.fromChars tag.1 tag.2)).foldl append record := by
  rw [List.foldl_map]
  rfl

theorem named_appendAll (name : String) (record : DataRecord) (fields : List DataField)
    (other : ∀ field ∈ fields, field.name ≠ name) :
    (fields.foldl append record).named name = record.named name := by
  induction fields generalizing record with
  | nil => rfl
  | cons field fields ih =>
    rw [List.foldl_cons, ih (record.append field) (fun f member =>
      other f (List.mem_cons_of_mem _ member))]
    have different := other field List.mem_cons_self
    simp [named, append, different]

/-- A source tag never stands beside a global tag of its name. -/
theorem enrich_carried {tags : GlobalTags} {record : DataRecord} (carried : tags.CarriedBy record)
    (sourceTags : List (String × String)) :
    tags.CarriedBy (enrichRecordWithTags record sourceTags) := by
  intro tag member
  have once := carried tag member
  rw [enrich_appends, named_appendAll, once]
  intro field added same
  obtain ⟨source, free, rfl⟩ := List.mem_map.mp added
  have lacks := (List.mem_filter.mp free).2
  have present : DataField.fromChars tag.1 tag.2 ∈ record.named tag.1 := by
    rw [once]
    exact List.mem_cons_self
  have absent := List.all_eq_true.mp lacks _ (List.mem_of_mem_filter present)
  exact of_decide_eq_true absent same.symm

theorem enrich_systemFields (record : DataRecord) (sourceTags : List (String × String)) :
    record.systemFields <+: (enrichRecordWithTags record sourceTags).systemFields := by
  rw [enrich_appends]
  exact systemFields_appendAll record _

section Parsing
variable {Progress : Type}

theorem stampEventMeta_carried (api : ParserApi Progress) (event : SourceEvent)
    {setting : ParseOption} {tags : GlobalTags} (distinct : tags.KeysDistinct)
    (set : setting.globalTags = some tags) (record : DataRecord) :
    tags.CarriedBy (stampEventMeta api event setting record) := by
  unfold stampEventMeta
  rw [set]
  exact applyGlobalTags_carried distinct _

theorem stampEventMeta_systemFields (api : ParserApi Progress) (event : SourceEvent)
    {setting : ParseOption} {tags : GlobalTags} (admitted : tags.Admitted)
    (set : setting.globalTags = some tags) (record : DataRecord) :
    record.systemFields <+: (stampEventMeta api event setting record).systemFields := by
  unfold stampEventMeta
  rw [set]
  dsimp only
  rw [applyGlobalTags_systemFields admitted]
  cases setting.genMsgId with
  | false => exact List.prefix_rfl
  | true =>
    simp only [if_true]
    have keyed := systemFields_append (record.setId event.eventId)
      (DataField.fromChars "wp_src_key" event.srcKey)
    cases event.upsIp with
    | none =>
      cases setting.genEventMd5 with
      | false => exact keyed
      | true => exact keyed.trans (systemFields_append _ _)
    | some ip =>
      have addressed := keyed.trans (systemFields_append _ (DataField.fromIp "wp_src_ip" ip))
      cases setting.genEventMd5 with
      | false => exact addressed
      | true => exact addressed.trans (systemFields_append _ _)

/-- A record or side record that a rule made of an event of the batch. -/
def Produced (rules : List (WplPipeline Progress)) (event : SourceEvent) (raw : DataRecord) : Prop :=
  ∃ p ∈ rulesOf rules, ∃ record left sides,
    (p.proc event).1 = .ok (record, left, sides) ∧ (raw = record ∨ ∃ key, (key, raw) ∈ sides)

/-- The global tags are in place, and the system fields of the record it was made of. -/
def WellTagged (tags : GlobalTags) (origin : DataRecord → Prop) (record : DataRecord) : Prop :=
  tags.CarriedBy record ∧ ∃ raw, origin raw ∧ raw.systemFields <+: record.systemFields

def ProcessResult.records : ProcessResult → List (String × DataRecord)
  | .success key record sides => (key, record) :: sides
  | .partialParse key record _ sides => (key, record) :: sides
  | .miss _ => []

section Result
variable (api : ParserApi Progress) (event : SourceEvent) {setting : ParseOption}
  {tags : GlobalTags} (admitted : tags.Admitted) (set : setting.globalTags = some tags)
include admitted set

theorem stamped_wellTagged {origin : DataRecord → Prop} {record : DataRecord} {sides : SideRecords}
    (main : origin record) (beside : ∀ side ∈ sides, origin side.2) (key : String) :
    ∀ entry ∈ (key, (stampRecordAndSides api event setting record sides).1) ::
        (stampRecordAndSides api event setting record sides).2,
      WellTagged tags origin entry.2 := by
  intro entry member
  rw [List.mem_cons] at member
  obtain rfl | member := member
  · exact ⟨stampEventMeta_carried api event admitted.distinct set record, record, main,
      stampEventMeta_systemFields api event admitted set record⟩
  · obtain ⟨side, listed, rfl⟩ := List.mem_map.mp member
    exact ⟨stampEventMeta_carried api event admitted.distinct set side.2, side.2, beside side listed,
      stampEventMeta_systemFields api event admitted set side.2⟩

omit admitted set in
theorem WellTagged.mono {origin wider : DataRecord → Prop} (weaken : ∀ raw, origin raw → wider raw)
    {record : DataRecord} (tagged : WellTagged tags origin record) :
    WellTagged tags wider record := by
  obtain ⟨carried, raw, source, kept⟩ := tagged
  exact ⟨carried, raw, weaken raw source, kept⟩

theorem parseLoop_wellTagged (idx : Nat) (rules : List (WplPipeline Progress))
    (best : Attribution Progress) {result : ProcessResult}
    (returned : (parseLoop api event setting idx rules best).2 = .returned result) :
    ∀ entry ∈ result.records, WellTagged tags (Produced rules event) entry.2 := by
  induction rules generalizing idx best with
  | nil => cases returned
  | cons p rest ih =>
    have later : ∀ best, (parseLoop api event setting (idx + 1) rest best).2 = .returned result →
        ∀ entry ∈ result.records, WellTagged tags (Produced (p :: rest) event) entry.2 := by
      intro best more entry member
      refine (ih (idx + 1) best more entry member).mono ?_
      rintro raw ⟨q, listed, made⟩
      exact ⟨q, List.mem_cons_of_mem _ listed, made⟩
    rw [parseLoop] at returned
    split at returned
    · cases outcome : p.proc event with
      | mk parsed progress =>
        rw [outcome] at returned
        dsimp only at returned
        cases parsed with
        | error e =>
          dsimp only at returned
          split at returned
          · exact later _ returned
          · split at returned
            · cases returned
            · exact later _ returned
        | ok value =>
          obtain ⟨record, left, sides⟩ := value
          have made : ∀ raw, raw = record ∨ (∃ key, (key, raw) ∈ sides) →
              Produced (p :: rest) event raw := by
            intro raw source
            refine ⟨p.rule, List.mem_cons_self, record, left, sides, ?_, source⟩
            rw [show p.rule.proc event = p.proc event from rfl, outcome]
          have stamped := stamped_wellTagged api event admitted set (made record (.inl rfl))
            (fun side listed => made side.2 (.inr ⟨side.1, listed⟩)) p.wplKey
          dsimp only at returned
          split at returned
          · cases returned
            exact stamped
          · split at returned
            · exact later _ returned
            · cases returned
              exact stamped
    · exact later _ returned

theorem parseEvent_wellTagged (mp : MultiParser Progress) :
    ∀ entry ∈ (mp.parseEvent api event setting).1.records,
      WellTagged tags (Produced mp.pipelines event) entry.2 := by
  unfold MultiParser.parseEvent
  cases outcome : parseLoop api event setting 0 mp.pipelines ⟨none, api.noProgress, none⟩ with
  | mk pipelines ended =>
    cases ended with
    | missed best => simp [ProcessResult.records]
    | returned result =>
      exact parseLoop_wellTagged api event admitted set 0 mp.pipelines _ (by rw [outcome])

end Result

/-- `payload_is_whitespace`. -/
def payloadIsWhitespace : RawData → Bool
  | .string text => text.toList.all Oml.isWhite
  | .bytes data => data.all (fun b => b = 32 || b = 9 || b = 10 || b = 12 || b = 13)
  | .arcBytes data => data.all (fun b => b = 32 || b = 9 || b = 10 || b = 12 || b = 13)

structure ParsedDatSet where
  sinkGroups : List (String × SinkPackage)
  residueData : List (Nat × String)
  missedPackets : List (SourceEvent × ParseFailInfo)

/-- A record and its side records, each enriched and put to the units of its rule. -/
def pushRecords (event : SourceEvent) (records : List (String × DataRecord))
    (groups : List (String × SinkPackage)) : List (String × SinkPackage) :=
  records.foldl (fun groups entry => pushEntry entry.1
    ⟨event.eventId, .null, enrichRecordWithTags entry.2 event.tags⟩ groups) groups

def batchParsePackage (api : ParserApi Progress) (setting : ParseOption) :
    SourceBatch → MultiParser Progress → ParsedDatSet → ParsedDatSet × MultiParser Progress
  | [], mp, out => (out, mp)
  | event :: rest, mp, out =>
    match mp.parseEvent api event setting with
    | (.success wplKey record sides, mp) =>
      batchParsePackage api setting rest mp { out with
        sinkGroups := pushRecords event ((wplKey, record) :: sides) out.sinkGroups }
    | (.partialParse wplKey record residue sides, mp) =>
      batchParsePackage api setting rest mp { out with
        sinkGroups := pushRecords event ((wplKey, record) :: sides) out.sinkGroups
        residueData := out.residueData ++
          [(event.eventId, "wpl:" ++ wplKey ++ ",residue:" ++ residue)] }
    | (.miss info, mp) =>
      if payloadIsWhitespace event.payload then batchParsePackage api setting rest mp out
      else batchParsePackage api setting rest mp { out with
        missedPackets := out.missedPackets ++ [(event, info)] }

/-- Every unit of every group has the property. -/
def UnitsAll (property : SinkRecUnit → Prop) (groups : List (String × SinkPackage)) : Prop :=
  ∀ group ∈ groups, ∀ unit ∈ group.2, property unit

theorem pushEntry_unitsAll {property : SinkRecUnit → Prop} (key : String) {unit : SinkRecUnit}
    (holds : property unit) {groups : List (String × SinkPackage)}
    (before : UnitsAll property groups) : UnitsAll property (pushEntry key unit groups) := by
  induction groups with
  | nil =>
    intro group member other listed
    rw [pushEntry, List.mem_singleton] at member
    subst member
    rw [List.mem_singleton.mp listed]
    exact holds
  | cons group groups ih =>
    obtain ⟨other, units⟩ := group
    have tail : UnitsAll property groups :=
      fun group member => before group (List.mem_cons_of_mem _ member)
    have head := before (other, units) List.mem_cons_self
    rw [pushEntry]
    split
    · intro group member found listed
      rw [List.mem_cons] at member
      obtain rfl | member := member
      · rw [List.mem_append, List.mem_singleton] at listed
        obtain old | rfl := listed
        · exact head found old
        · exact holds
      · exact tail group member found listed
    · intro group member
      rw [List.mem_cons] at member
      obtain rfl | member := member
      · exact head
      · exact ih tail group member

section Batch
variable (api : ParserApi Progress) {setting : ParseOption} {tags : GlobalTags}
  {origin : DataRecord → Prop}

theorem pushRecords_wellTagged (event : SourceEvent) (records : List (String × DataRecord))
    (tagged : ∀ entry ∈ records, WellTagged tags origin entry.2)
    {groups : List (String × SinkPackage)}
    (before : UnitsAll (fun unit => WellTagged tags origin unit.data) groups) :
    UnitsAll (fun unit => WellTagged tags origin unit.data) (pushRecords event records groups) := by
  unfold pushRecords
  induction records generalizing groups with
  | nil => exact before
  | cons entry records ih =>
    obtain ⟨carried, raw, source, kept⟩ := tagged entry List.mem_cons_self
    refine ih (fun other member => tagged other (List.mem_cons_of_mem _ member)) ?_
    refine pushEntry_unitsAll entry.1 ?_ before
    exact ⟨enrich_carried carried event.tags, raw, source,
      kept.trans (enrich_systemFields entry.2 event.tags)⟩

theorem parseEvent_rules (event : SourceEvent) (mp : MultiParser Progress) :
    rulesOf (mp.parseEvent api event setting).2.pipelines = rulesOf mp.pipelines := by
  have same := parseLoop_rules api event setting 0 mp.pipelines ⟨none, api.noProgress, none⟩
  unfold MultiParser.parseEvent
  split
  all_goals
    rename_i outcome
    rw [outcome] at same
    exact same

/-- Every unit that a batch is parsed to carries the global tags, and the system fields of its
    record. -/
theorem batchParsePackage_wellTagged (admitted : tags.Admitted)
    (set : setting.globalTags = some tags) (batch : SourceBatch) (mp : MultiParser Progress)
    (out : ParsedDatSet)
    (source : ∀ event ∈ batch, ∀ raw, Produced mp.pipelines event raw → origin raw)
    (before : UnitsAll (fun unit => WellTagged tags origin unit.data) out.sinkGroups) :
    UnitsAll (fun unit => WellTagged tags origin unit.data)
      (batchParsePackage api setting batch mp out).1.sinkGroups := by
  induction batch generalizing mp out with
  | nil => exact before
  | cons event rest ih =>
    have records := parseEvent_wellTagged api event admitted set mp
    have rules := @parseEvent_rules _ api setting event mp
    have first := source event List.mem_cons_self
    rw [batchParsePackage]
    cases parsed : mp.parseEvent api event setting with
    | mk result next =>
      rw [parsed] at records rules
      have later : ∀ event ∈ rest, ∀ raw, Produced next.pipelines event raw → origin raw := by
        intro other member raw made
        rw [Produced, rules] at made
        exact source other (List.mem_cons_of_mem _ member) raw made
      have pushed : ∀ entry ∈ result.records, WellTagged tags origin entry.2 :=
        fun entry member => (records entry member).mono first
      cases result with
      | success key record sides =>
        exact ih next _ later (pushRecords_wellTagged event _ pushed before)
      | partialParse key record residue sides =>
        exact ih next _ later (pushRecords_wellTagged event _ pushed before)
      | miss info =>
        dsimp only
        split
        · exact ih next _ later before
        · exact ih next _ later before

end Batch

end Parsing
end WarpMotor
