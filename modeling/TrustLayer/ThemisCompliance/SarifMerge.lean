import TrustLayer.Library.Unicode
import TrustLayer.SerdeJson.Shape

/-!
# Merging SARIF logs

The logs of several scanners become one, with the runs of all.  The reader and
the writer are derived from the structures, field by field.
-/

namespace TrustLayer.ThemisCompliance

open TrustLayer.Library hiding Json
open TrustLayer.AgentGuard (Json)
open TrustLayer.SerdeJson

/-! ## The structures -/

structure SarifDriver where
  name : Str
  version : Str
  informationUri : Option Str

structure SarifTool where
  driver : SarifDriver

structure SarifMessage where
  text : Str

structure SarifArtifactLocation where
  uri : Str

structure SarifRegion where
  startLine : Option UInt32
  endLine : Option UInt32

structure SarifPhysicalLocation where
  artifactLocation : SarifArtifactLocation
  region : Option SarifRegion

structure SarifLocation where
  physicalLocation : SarifPhysicalLocation

structure SarifResult where
  ruleId : Str
  level : Str
  message : SarifMessage
  locations : List SarifLocation

structure SarifRun where
  tool : SarifTool
  results : List SarifResult
  properties : Option Json

structure SarifReport where
  schema : Str
  version : Str
  runs : List SarifRun

def sarifSchemaUrl : Str :=
  "https://json.schemastore.org/sarif-2.1.0.json".toList

/-! ## The derived readers and writers -/

def SarifDriver.fields : List Str :=
  ["name".toList, "version".toList, "information_uri".toList]

def SarifDriver.build : List (Option Json) → Option SarifDriver
  | [name, version, informationUri] => do
      return {
        name := ← name.bind Json.asStr
        version := ← version.bind Json.asStr
        informationUri := ← readOption Json.asStr informationUri }
  | _ => none

def SarifDriver.read (json : Json) : Option SarifDriver :=
  (fieldsFrom 2 SarifDriver.fields json).bind SarifDriver.build

def SarifDriver.value (driver : SarifDriver) : Json :=
  structValue [
    ("name".toList, some (.string driver.name)),
    ("version".toList, some (.string driver.version)),
    ("information_uri".toList, driver.informationUri.map .string)]

def SarifTool.fields : List Str :=
  ["driver".toList]

def SarifTool.build : List (Option Json) → Option SarifTool
  | [driver] => do
      return {
        driver := ← driver.bind SarifDriver.read }
  | _ => none

def SarifTool.read (json : Json) : Option SarifTool :=
  (fieldsFrom 1 SarifTool.fields json).bind SarifTool.build

def SarifTool.value (tool : SarifTool) : Json :=
  structValue [("driver".toList, some tool.driver.value)]

def SarifMessage.fields : List Str :=
  ["text".toList]

def SarifMessage.build : List (Option Json) → Option SarifMessage
  | [text] => do
      return {
        text := ← text.bind Json.asStr }
  | _ => none

def SarifMessage.read (json : Json) : Option SarifMessage :=
  (fieldsFrom 1 SarifMessage.fields json).bind SarifMessage.build

def SarifMessage.value (message : SarifMessage) : Json :=
  structValue [("text".toList, some (.string message.text))]

def SarifArtifactLocation.fields : List Str :=
  ["uri".toList]

def SarifArtifactLocation.build : List (Option Json) → Option SarifArtifactLocation
  | [uri] => do
      return {
        uri := ← uri.bind Json.asStr }
  | _ => none

def SarifArtifactLocation.read (json : Json) : Option SarifArtifactLocation :=
  (fieldsFrom 1 SarifArtifactLocation.fields json).bind SarifArtifactLocation.build

def SarifArtifactLocation.value (location : SarifArtifactLocation) : Json :=
  structValue [("uri".toList, some (.string location.uri))]

/-- The number of a line, as it is written. -/
def lineValue (number : UInt32) : Json :=
  integer number.toNat

def SarifRegion.fields : List Str :=
  ["startLine".toList, "endLine".toList]

def SarifRegion.build : List (Option Json) → Option SarifRegion
  | [startLine, endLine] => do
      return {
        startLine := ← readOption readU32 startLine
        endLine := ← readOption readU32 endLine }
  | _ => none

def SarifRegion.read (json : Json) : Option SarifRegion :=
  (fieldsFrom 0 SarifRegion.fields json).bind SarifRegion.build

def SarifRegion.value (region : SarifRegion) : Json :=
  structValue [
    ("startLine".toList, region.startLine.map lineValue),
    ("endLine".toList, region.endLine.map lineValue)]

def SarifPhysicalLocation.fields : List Str :=
  ["artifactLocation".toList, "region".toList]

def SarifPhysicalLocation.build : List (Option Json) → Option SarifPhysicalLocation
  | [artifactLocation, region] => do
      return {
        artifactLocation := ← artifactLocation.bind SarifArtifactLocation.read
        region := ← readOption SarifRegion.read region }
  | _ => none

def SarifPhysicalLocation.read (json : Json) : Option SarifPhysicalLocation :=
  (fieldsFrom 1 SarifPhysicalLocation.fields json).bind SarifPhysicalLocation.build

def SarifPhysicalLocation.value (location : SarifPhysicalLocation) : Json :=
  structValue [
    ("artifactLocation".toList, some location.artifactLocation.value),
    ("region".toList, location.region.map SarifRegion.value)]

def SarifLocation.fields : List Str :=
  ["physicalLocation".toList]

def SarifLocation.build : List (Option Json) → Option SarifLocation
  | [physicalLocation] => do
      return {
        physicalLocation := ← physicalLocation.bind SarifPhysicalLocation.read }
  | _ => none

def SarifLocation.read (json : Json) : Option SarifLocation :=
  (fieldsFrom 1 SarifLocation.fields json).bind SarifLocation.build

def SarifLocation.value (location : SarifLocation) : Json :=
  structValue [
    ("physicalLocation".toList, some location.physicalLocation.value)]

def SarifResult.fields : List Str :=
  ["ruleId".toList, "level".toList, "message".toList, "locations".toList]

def SarifResult.build : List (Option Json) → Option SarifResult
  | [ruleId, level, message, locations] => do
      return {
        ruleId := ← ruleId.bind Json.asStr
        level := ← level.bind Json.asStr
        message := ← message.bind SarifMessage.read
        locations := ← readDefault [] (readVec SarifLocation.read) locations }
  | _ => none

def SarifResult.read (json : Json) : Option SarifResult :=
  (fieldsFrom 3 SarifResult.fields json).bind SarifResult.build

def SarifResult.value (result : SarifResult) : Json :=
  structValue [
    ("ruleId".toList, some (.string result.ruleId)),
    ("level".toList, some (.string result.level)),
    ("message".toList, some result.message.value),
    ("locations".toList, some (vecValue SarifLocation.value result.locations))]

def SarifRun.fields : List Str :=
  ["tool".toList, "results".toList, "properties".toList]

def SarifRun.build : List (Option Json) → Option SarifRun
  | [tool, results, properties] => do
      return {
        tool := ← tool.bind SarifTool.read
        results := ← readDefault [] (readVec SarifResult.read) results
        properties := ← readOption some properties }
  | _ => none

def SarifRun.read (json : Json) : Option SarifRun :=
  (fieldsFrom 1 SarifRun.fields json).bind SarifRun.build

def SarifRun.value (run : SarifRun) : Json :=
  structValue [
    ("tool".toList, some run.tool.value),
    ("results".toList, some (vecValue SarifResult.value run.results)),
    ("properties".toList, run.properties.map id)]

def SarifReport.fields : List Str :=
  ["$schema".toList, "version".toList, "runs".toList]

def SarifReport.build : List (Option Json) → Option SarifReport
  | [schema, version, runs] => do
      return {
        schema := ← readDefault sarifSchemaUrl Json.asStr schema
        version := ← version.bind Json.asStr
        runs := ← runs.bind (readVec SarifRun.read) }
  | _ => none

def SarifReport.read (json : Json) : Option SarifReport :=
  (fieldsFrom 3 SarifReport.fields json).bind SarifReport.build

def SarifReport.value (report : SarifReport) : Json :=
  structValue [
    ("$schema".toList, some (.string report.schema)),
    ("version".toList, some (.string report.version)),
    ("runs".toList, some (vecValue SarifRun.value report.runs))]

/-! ## Reading and writing logs -/

inductive SarifMergeError where
  | invalidFormat (text : Str)

def SarifMergeError.display : SarifMergeError → Str
  | .invalidFormat text => "invalid SARIF: ".toList ++ text

def merge : List SarifReport → SarifReport
  | [] =>
      { schema := sarifSchemaUrl
        version := "2.1.0".toList
        runs := [] }
  | first :: rest =>
      { schema := first.schema
        version := first.version
        runs := first.runs ++ rest.flatMap SarifReport.runs }

/-- `Map::insert`. -/
def insertField (key : Str) (value : Json) (fields : List (Str × Json)) :
    List (Str × Json) :=
  byKey ((key, value) :: fields.filter fun field => field.1 ≠ key)

def toJson (report : SarifReport) : Json :=
  match report.value with
  | .object fields =>
      let blank :=
        (((fields.lookup "$schema".toList).bind Json.asStr).map
          List.isEmpty).getD true
      let fields :=
        if blank then
          insertField "$schema".toList (.string sarifSchemaUrl) fields
        else fields
      if (fields.lookup "version".toList).isSome then .object fields
      else
        .object (insertField "version".toList (.string "2.1.0".toList) fields)
  | value => value

section

variable [UnicodeTables] [Parser]

def fromJson (value : Json) : Except SarifMergeError SarifReport :=
  match fromValue "SarifReport".toList SarifReport.read value with
  | .error error => .error (.invalidFormat ("serde: ".toList ++ error))
  | .ok report =>
      if report.version ≠ "2.1.0".toList then
        .error (.invalidFormat
          ("version must be 2.1.0, got ".toList ++ debugStr report.version))
      else if report.schema = [] then
        .error (.invalidFormat "$schema must not be empty".toList)
      else .ok report

end

/-! ## The specification -/

/-- A line is counted from one. -/
def IsLine (json : Json) : Prop :=
  ∃ number : Nat, 0 < number ∧ json = integer number

def IsLevel (json : Json) : Prop :=
  ∃ level ∈ ["none", "note", "warning", "error"], json = .string level.toList

def NullOr (holds : Json → Prop) (json : Json) : Prop :=
  json = .null ∨ holds json

def IsRegion : Json → Prop :=
  HasFields [
    ("startLine".toList, Optional IsLine),
    ("endLine".toList, Optional IsLine)]

def IsArtifactLocation : Json → Prop :=
  HasFields [("uri".toList, Optional IsText)]

def IsPhysicalLocation : Json → Prop :=
  HasFields [
    ("artifactLocation".toList, Optional IsArtifactLocation),
    ("region".toList, Optional IsRegion)]

def IsLocation : Json → Prop :=
  HasFields [("physicalLocation".toList, Optional IsPhysicalLocation)]

def IsMessage : Json → Prop :=
  HasFields [("text".toList, Required IsText)]

def IsResult : Json → Prop :=
  HasFields [
    ("ruleId".toList, Optional IsText),
    ("level".toList, Optional IsLevel),
    ("message".toList, Required IsMessage),
    ("locations".toList, Optional (Elements IsLocation))]

def IsDriver : Json → Prop :=
  HasFields [
    ("name".toList, Required IsText),
    ("version".toList, Optional IsText),
    ("informationUri".toList, Optional IsText)]

def IsTool : Json → Prop :=
  HasFields [("driver".toList, Required IsDriver)]

def IsRun : Json → Prop :=
  HasFields [
    ("tool".toList, Required IsTool),
    ("results".toList, Optional (NullOr (Elements IsResult))),
    ("properties".toList, Optional fun _ => True)]

/-- A log with the fields that are modelled, and no others. -/
def IsLog : Json → Prop :=
  HasFields [
    ("$schema".toList, Optional IsText),
    ("version".toList, Required (· = .string "2.1.0".toList)),
    ("runs".toList, Required (NullOr (Elements IsRun)))]

structure SarifLog where
  json : Json
  isLog : IsLog json

def runsOf (json : Json) : List Json :=
  ((json.get "runs".toList).bind Json.asArray).getD []

/-! ## What is kept -/

/-- The number of a line that has 32 bits. -/
def KeptLine (json : Json) : Prop :=
  ∃ number : UInt32, json = lineValue number

def KeptRegion : Json → Prop :=
  HasFields [
    ("startLine".toList, Optional KeptLine),
    ("endLine".toList, Optional KeptLine)]

def KeptArtifactLocation : Json → Prop :=
  HasFields [("uri".toList, Required IsText)]

def KeptPhysicalLocation : Json → Prop :=
  HasFields [
    ("artifactLocation".toList, Required KeptArtifactLocation),
    ("region".toList, Optional KeptRegion)]

def KeptLocation : Json → Prop :=
  HasFields [("physicalLocation".toList, Required KeptPhysicalLocation)]

def KeptResult : Json → Prop :=
  HasFields [
    ("ruleId".toList, Required IsText),
    ("level".toList, Required IsText),
    ("message".toList, Required IsMessage),
    ("locations".toList, Required (Elements KeptLocation))]

/-- The tool has a version, and no `informationUri`. -/
def KeptDriver : Json → Prop :=
  HasFields [
    ("name".toList, Required IsText),
    ("version".toList, Required IsText)]

def KeptTool : Json → Prop :=
  HasFields [("driver".toList, Required KeptDriver)]

/-- The results are there, and the properties are not null. -/
def KeptRun : Json → Prop :=
  HasFields [
    ("tool".toList, Required KeptTool),
    ("results".toList, Required (Elements KeptResult)),
    ("properties".toList, Optional (· ≠ .null))]

def KeptLog : Json → Prop :=
  HasFields [
    ("$schema".toList, Optional fun json => IsText json ∧ json ≠ .string []),
    ("version".toList, Required (· = .string "2.1.0".toList)),
    ("runs".toList, Required (Elements KeptRun))]

/-! ## Round trips -/

section

theorem lineValue_ne_null (number : UInt32) : lineValue number ≠ .null :=
  nofun

theorem region_ne_null (region : SarifRegion) : region.value ≠ .null :=
  nofun

theorem roundTrips_line : RoundTrips readU32 lineValue = KeptLine :=
  roundTrips_u32

theorem text_ne_null (text : Str) : Json.string text ≠ .null :=
  nofun

theorem SarifRegion.roundTrips :
    RoundTrips SarifRegion.read SarifRegion.value = KeptRegion := by
  funext json
  apply propext
  refine (roundTrips_struct_iff 0 SarifRegion.fields SarifRegion.build
    SarifRegion.value [
      ("startLine".toList, passOption readU32 lineValue),
      ("endLine".toList, passOption readU32 lineValue)]
    (by decide) rfl ?_).trans ?_
  · intro values length
    match values, length with
    | [startLine, endLine], _ =>
        dsimp only [passFields, passOption, SarifRegion.build]
        cases readOption readU32 startLine <;>
          cases readOption readU32 endLine <;> rfl
  · simp only [List.map, passOption_iff_of_write lineValue_ne_null, roundTrips_line]
    rfl

theorem SarifArtifactLocation.roundTrips :
    RoundTrips SarifArtifactLocation.read SarifArtifactLocation.value = KeptArtifactLocation := by
  funext json
  apply propext
  refine (roundTrips_struct_iff 1 SarifArtifactLocation.fields SarifArtifactLocation.build
    SarifArtifactLocation.value [
      ("uri".toList, passRequired Json.asStr .string)]
    (by decide) rfl ?_).trans ?_
  · intro values length
    match values, length with
    | [uri], _ =>
        dsimp only [passFields, passRequired, SarifArtifactLocation.build]
        cases uri.bind Json.asStr <;> rfl
  · simp only [List.map, passRequired_iff, roundTrips_text]
    rfl

theorem SarifPhysicalLocation.roundTrips :
    RoundTrips SarifPhysicalLocation.read SarifPhysicalLocation.value =
      KeptPhysicalLocation := by
  funext json
  apply propext
  refine (roundTrips_struct_iff 1 SarifPhysicalLocation.fields SarifPhysicalLocation.build
    SarifPhysicalLocation.value [
      ("artifactLocation".toList,
        passRequired SarifArtifactLocation.read SarifArtifactLocation.value),
      ("region".toList, passOption SarifRegion.read SarifRegion.value)]
    (by decide) rfl ?_).trans ?_
  · intro values length
    match values, length with
    | [artifactLocation, region], _ =>
        dsimp only [passFields, passRequired, passOption, SarifPhysicalLocation.build]
        cases artifactLocation.bind SarifArtifactLocation.read <;>
          cases readOption SarifRegion.read region <;> rfl
  · simp only [List.map, passRequired_iff, passOption_iff_of_write region_ne_null,
      SarifArtifactLocation.roundTrips, SarifRegion.roundTrips]
    rfl

theorem SarifLocation.roundTrips :
    RoundTrips SarifLocation.read SarifLocation.value = KeptLocation := by
  funext json
  apply propext
  refine (roundTrips_struct_iff 1 SarifLocation.fields SarifLocation.build
    SarifLocation.value [
      ("physicalLocation".toList,
        passRequired SarifPhysicalLocation.read SarifPhysicalLocation.value)]
    (by decide) rfl ?_).trans ?_
  · intro values length
    match values, length with
    | [physicalLocation], _ =>
        dsimp only [passFields, passRequired, SarifLocation.build]
        cases physicalLocation.bind SarifPhysicalLocation.read <;> rfl
  · simp only [List.map, passRequired_iff, SarifPhysicalLocation.roundTrips]
    rfl

theorem SarifMessage.roundTrips :
    RoundTrips SarifMessage.read SarifMessage.value = IsMessage := by
  funext json
  apply propext
  refine (roundTrips_struct_iff 1 SarifMessage.fields SarifMessage.build
    SarifMessage.value [
      ("text".toList, passRequired Json.asStr .string)]
    (by decide) rfl ?_).trans ?_
  · intro values length
    match values, length with
    | [text], _ =>
        dsimp only [passFields, passRequired, SarifMessage.build]
        cases text.bind Json.asStr <;> rfl
  · simp only [List.map, passRequired_iff, roundTrips_text]
    rfl

theorem SarifResult.roundTrips :
    RoundTrips SarifResult.read SarifResult.value = KeptResult := by
  funext json
  apply propext
  refine (roundTrips_struct_iff 3 SarifResult.fields SarifResult.build
    SarifResult.value [
      ("ruleId".toList, passRequired Json.asStr .string),
      ("level".toList, passRequired Json.asStr .string),
      ("message".toList, passRequired SarifMessage.read SarifMessage.value),
      ("locations".toList, passDefault [] (readVec SarifLocation.read)
        (vecValue SarifLocation.value))]
    (by decide) rfl ?_).trans ?_
  · intro values length
    match values, length with
    | [ruleId, level, message, locations], _ =>
        dsimp only [passFields, passRequired, passDefault, SarifResult.build]
        cases ruleId.bind Json.asStr <;>
          cases level.bind Json.asStr <;>
          cases message.bind SarifMessage.read <;>
          cases readDefault [] (readVec SarifLocation.read) locations <;> rfl
  · simp only [List.map, passRequired_iff, passDefault_iff, roundTrips_text,
      roundTrips_vec, SarifMessage.roundTrips, SarifLocation.roundTrips]
    rfl

theorem SarifDriver.roundTrips :
    RoundTrips SarifDriver.read SarifDriver.value = HasFields [
      ("name".toList, Required IsText),
      ("version".toList, Required IsText),
      ("information_uri".toList, Optional IsText)] := by
  funext json
  apply propext
  refine (roundTrips_struct_iff 2 SarifDriver.fields SarifDriver.build
    SarifDriver.value [
      ("name".toList, passRequired Json.asStr .string),
      ("version".toList, passRequired Json.asStr .string),
      ("information_uri".toList, passOption Json.asStr .string)]
    (by decide) rfl ?_).trans ?_
  · intro values length
    match values, length with
    | [name, version, informationUri], _ =>
        dsimp only [passFields, passRequired, passOption, SarifDriver.build]
        cases name.bind Json.asStr <;>
          cases version.bind Json.asStr <;>
          cases readOption Json.asStr informationUri <;> rfl
  · simp only [List.map, passRequired_iff, passOption_iff_of_write text_ne_null,
      roundTrips_text]

theorem SarifTool.roundTrips :
    RoundTrips SarifTool.read SarifTool.value = HasFields [
      ("driver".toList,
        Required (RoundTrips SarifDriver.read SarifDriver.value))] := by
  funext json
  apply propext
  refine (roundTrips_struct_iff 1 SarifTool.fields SarifTool.build
    SarifTool.value [
      ("driver".toList, passRequired SarifDriver.read SarifDriver.value)]
    (by decide) rfl ?_).trans ?_
  · intro values length
    match values, length with
    | [driver], _ =>
        dsimp only [passFields, passRequired, SarifTool.build]
        cases driver.bind SarifDriver.read <;> rfl
  · simp only [List.map, passRequired_iff]

theorem SarifRun.roundTrips :
    RoundTrips SarifRun.read SarifRun.value = HasFields [
      ("tool".toList, Required (RoundTrips SarifTool.read SarifTool.value)),
      ("results".toList, Required (Elements KeptResult)),
      ("properties".toList, Optional (· ≠ .null))] := by
  funext json
  apply propext
  refine (roundTrips_struct_iff 1 SarifRun.fields SarifRun.build
    SarifRun.value [
      ("tool".toList, passRequired SarifTool.read SarifTool.value),
      ("results".toList, passDefault [] (readVec SarifResult.read)
        (vecValue SarifResult.value)),
      ("properties".toList, passOption some id)]
    (by decide) rfl ?_).trans ?_
  · intro values length
    match values, length with
    | [tool, results, properties], _ =>
        dsimp only [passFields, passRequired, passDefault, passOption, SarifRun.build]
        cases tool.bind SarifTool.read <;>
          cases readDefault [] (readVec SarifResult.read) results <;>
          cases readOption some properties <;> rfl
  · simp only [List.map, passRequired_iff, passDefault_iff, passOption_iff,
      roundTrips_vec, roundTrips_some, and_true, SarifResult.roundTrips]

end

/-! ## What is kept of a log -/

section

variable {json : Json}

/-- The address of a driver is not read, so it must not be there. -/
theorem IsDriver.roundTrip_iff (isDriver : IsDriver json) :
    RoundTrips SarifDriver.read SarifDriver.value json ↔ KeptDriver json := by
  obtain ⟨fields, rfl, map, known, -⟩ := isDriver
  rw [SarifDriver.roundTrips, KeptDriver, hasFields_object_iff,
    hasFields_object_iff]
  apply and_congr_right
  intro _
  have absent : (∀ key ∈ fields.map Prod.fst,
      key ∈ ["name".toList, "version".toList, "information_uri".toList]) ↔
        ∀ key ∈ fields.map Prod.fst, key ∈ ["name".toList, "version".toList] := by
    apply forall₂_congr
    intro key member
    have inSpec := known key member
    simp only [List.map, List.mem_cons, List.not_mem_nil, or_false] at inSpec ⊢
    rcases inSpec with rfl | rfl | rfl
    · decide
    · decide
    · decide
  have none (only : ∀ key ∈ fields.map Prod.fst,
      key ∈ ["name".toList, "version".toList]) :
      fields.lookup "information_uri".toList = none := by
    rw [List.lookup_eq_none_iff]
    intro field member
    have inList := only field.1 (List.mem_map_of_mem member)
    rw [bne_iff_ne]
    rintro same
    rw [← same] at inList
    exact absurd inList (by decide)
  constructor
  · rintro ⟨keys, each⟩
    refine ⟨absent.mp keys, fun expected member => each expected ?_⟩
    exact List.mem_append_left [_] member
  · rintro ⟨keys, each⟩
    refine ⟨absent.mpr keys, fun expected member => ?_⟩
    rcases List.mem_append.mp (show expected ∈ [_, _] ++ [_] from member)
      with first | last
    · exact each expected first
    · rw [List.mem_singleton.mp last]
      rw [none keys]
      trivial

theorem IsTool.roundTrip_iff (isTool : IsTool json) :
    RoundTrips SarifTool.read SarifTool.value json ↔ KeptTool json := by
  rw [SarifTool.roundTrips]
  apply HasFields.congr [("driver".toList, Required IsDriver, _, _)] isTool
  rw [List.forall_mem_singleton]
  intro value present
  exact present.congr fun _ => IsDriver.roundTrip_iff

theorem IsRun.roundTrip_iff (isRun : IsRun json) :
    RoundTrips SarifRun.read SarifRun.value json ↔ KeptRun json := by
  rw [SarifRun.roundTrips]
  apply HasFields.congr [
    ("tool".toList, Required IsTool, _, _),
    ("results".toList, Optional (NullOr (Elements IsResult)), _, _),
    ("properties".toList, (Optional fun _ => True), _, _)] isRun
  simp only [List.forall_mem_cons, List.not_mem_nil, false_imp_iff, implies_true,
    and_true, iff_self]
  intro value present
  exact present.congr fun _ => IsTool.roundTrip_iff

end

/-! ## Logs -/

theorem runs_merge (reports : List SarifReport) :
    (merge reports).runs = reports.flatMap SarifReport.runs := by
  cases reports with
  | nil => rfl
  | cons first rest => rfl

/-- The stamps of a written log leave its runs alone. -/
theorem runsOf_toJson (report : SarifReport) :
    runsOf (toJson report) = report.runs.map SarifRun.value := by
  obtain ⟨schema, version, runs⟩ := report
  cases schema with
  | nil => rfl
  | cons char schema => rfl

/-- What is read of a log. -/
theorem read_log (log : SarifLog) :
    ∃ schema runs, log.json.get "runs".toList = some runs ∧
      NullOr (Elements IsRun) runs ∧
      SarifReport.read log.json =
        (readVec SarifRun.read runs).map (fun runs =>
          { schema, version := "2.1.0".toList, runs }) ∧
      (KeptLog log.json ↔ schema ≠ [] ∧ Elements KeptRun runs) := by
  obtain ⟨json, fields, rfl, map, keys, each⟩ := log
  simp only [List.forall_mem_cons, List.not_mem_nil, false_imp_iff,
    implies_true, and_true] at each
  obtain ⟨isText, isVersion, isRuns⟩ := each
  have version : fields.lookup "version".toList =
      some (.string "2.1.0".toList) := by
    cases found : fields.lookup "version".toList with
    | none =>
        rw [found] at isVersion
        cases isVersion
    | some value =>
        rw [found] at isVersion
        exact congrArg some isVersion
  cases runsFound : fields.lookup "runs".toList with
  | none =>
      rw [runsFound] at isRuns
      cases isRuns
  | some runs =>
  rw [runsFound] at isRuns
  have read (schema : Str)
      (readSchema : readDefault sarifSchemaUrl Json.asStr
        (fields.lookup "$schema".toList) = some schema) :
      SarifReport.read (.object fields) =
        (readVec SarifRun.read runs).map (fun runs =>
          { schema, version := "2.1.0".toList, runs }) := by
    rw [SarifReport.read, fieldsFrom_object map.nodup, Option.bind_some]
    dsimp only [SarifReport.fields, List.map, SarifReport.build]
    rw [readSchema, version, runsFound]
    change (readVec SarifRun.read runs).bind _ = _
    cases readVec SarifRun.read runs <;> rfl
  have kept : KeptLog (.object fields) ↔
      Optional (fun json => IsText json ∧ json ≠ .string [])
        (fields.lookup "$schema".toList) ∧ Elements KeptRun runs := by
    rw [KeptLog, hasFields_object_iff]
    simp only [List.forall_mem_cons, List.not_mem_nil, false_imp_iff,
      implies_true, and_true, version, runsFound]
    constructor
    · rintro ⟨-, -, schema, -, keptRuns⟩
      exact ⟨schema, keptRuns⟩
    · rintro ⟨schema, keptRuns⟩
      exact ⟨map, keys, schema, rfl, keptRuns⟩
  cases schemaFound : fields.lookup "$schema".toList with
  | none =>
      rw [schemaFound] at read kept
      refine ⟨sarifSchemaUrl, runs, runsFound, isRuns, read _ rfl, ?_⟩
      rw [kept]
      exact and_congr_left fun _ => iff_of_true trivial (by decide)
  | some schema =>
      rw [schemaFound] at read kept isText
      obtain ⟨text, rfl⟩ := isText
      refine ⟨text, runs, runsFound, isRuns, read _ rfl, ?_⟩
      rw [kept]
      apply and_congr_left
      intro _
      change IsText (.string text) ∧ Json.string text ≠ .string [] ↔ _
      rw [Ne, Json.string.injEq]
      exact and_iff_right ⟨text, rfl⟩

theorem isRun_of_mem_runsOf (log : SarifLog) :
    ∀ run ∈ runsOf log.json, IsRun run := by
  obtain ⟨schema, runs, found, isRuns, -, -⟩ := read_log log
  rw [runsOf, found]
  rcases isRuns with rfl | each
  · nofun
  · cases runs with
    | array items => exact each
    | _ => cases each

section

variable [UnicodeTables] [Parser]

theorem fromJson_eq_ok_iff {json : Json} {report : SarifReport} :
    fromJson json = .ok report ↔
      SarifReport.read json = some report ∧
        report.version = "2.1.0".toList ∧ report.schema ≠ [] := by
  rw [fromJson, fromValue]
  cases SarifReport.read json with
  | none => simp
  | some found =>
      dsimp only
      split_ifs with version schema
      · simp only [Option.some.injEq, false_iff]
        rintro ⟨rfl, same, -⟩
        exact version same
      · simp only [Option.some.injEq, false_iff]
        rintro ⟨rfl, -, same⟩
        exact same schema
      · simp only [Except.ok.injEq, Option.some.injEq]
        constructor
        · rintro rfl
          exact ⟨rfl, not_not.mp version, schema⟩
        · exact And.left

/-- A log that is accepted has as many runs as are read. -/
theorem length_runs {log : SarifLog} {report : SarifReport}
    (accepted : fromJson log.json = .ok report) :
    report.runs.length = (runsOf log.json).length := by
  obtain ⟨schema, runs, found, -, read, -⟩ := read_log log
  rw [fromJson_eq_ok_iff, read] at accepted
  obtain ⟨values, readRuns, rfl⟩ := Option.map_eq_some_iff.mp accepted.1
  rw [runsOf, found]
  cases runs with
  | array items => exact (length_of_readVec readRuns).symm
  | _ => cases readRuns

/-- What a log keeps. -/
theorem fromJson_log_iff (log : SarifLog) :
    (∃ report, fromJson log.json = .ok report ∧
      report.runs.map SarifRun.value = runsOf log.json) ↔ KeptLog log.json := by
  obtain ⟨schema, runs, found, isRuns, read, kept⟩ := read_log log
  have same : RoundTrips (readVec SarifRun.read) (vecValue SarifRun.value) runs ↔
      Elements KeptRun runs := by
    rw [roundTrips_vec]
    rcases isRuns with rfl | each
    · exact Iff.rfl
    · exact each.congr fun _ => IsRun.roundTrip_iff
  rw [kept, ← same]
  constructor
  · rintro ⟨report, accepted, written⟩
    rw [fromJson_eq_ok_iff, read] at accepted
    obtain ⟨accepted, -, nonempty⟩ := accepted
    obtain ⟨values, readRuns, rfl⟩ := Option.map_eq_some_iff.mp accepted
    refine ⟨nonempty, ?_⟩
    rw [runsOf, found] at written
    rw [RoundTrips, readRuns]
    cases runs with
    | array items =>
        exact congrArg (fun items => some (Json.array items)) written
    | _ => cases readRuns
  · rintro ⟨nonempty, roundTrips⟩
    obtain ⟨values, readRuns, written⟩ := Option.map_eq_some_iff.mp roundTrips
    refine ⟨⟨schema, "2.1.0".toList, values⟩, ?_, ?_⟩
    · rw [fromJson_eq_ok_iff, read, readRuns]
      exact ⟨rfl, rfl, nonempty⟩
    · rw [runsOf, found, ← written]
      rfl

/-! ## The merge -/

/-- All logs are accepted, and what is written has the runs of all, in order and
field for field. -/
def Lossless (logs : List SarifLog) : Prop :=
  ∃ reports,
    List.Forall₂ (fun log report => fromJson log.json = .ok report)
      logs reports ∧
    runsOf (toJson (merge reports)) = logs.flatMap (fun log => runsOf log.json) ∧
    ∀ run ∈ runsOf (toJson (merge reports)), IsRun run

/-- As many runs are read as there are, so those of all are the same only where
those of each are. -/
theorem flatMap_runs_iff {logs : List SarifLog} {reports : List SarifReport}
    (accepted : List.Forall₂ (fun log report => fromJson log.json = .ok report)
      logs reports) :
    (reports.flatMap SarifReport.runs).map SarifRun.value =
        logs.flatMap (fun log => runsOf log.json) ↔
      List.Forall₂ (fun log report =>
        report.runs.map SarifRun.value = runsOf log.json) logs reports := by
  induction accepted with
  | nil => simp
  | @cons log report logs reports here _ induction =>
      rw [List.flatMap_cons, List.flatMap_cons, List.map_append,
        List.forall₂_cons, ← induction]
      have lengths : (report.runs.map SarifRun.value).length =
          (runsOf log.json).length := by
        rw [List.length_map, length_runs here]
      constructor
      · intro same
        exact List.append_inj same lengths
      · rintro ⟨same, others⟩
        rw [same, others]

theorem keptLog_of_lossless {logs : List SarifLog} (lossless : Lossless logs) :
    ∀ log ∈ logs, KeptLog log.json := by
  obtain ⟨reports, accepted, same, -⟩ := lossless
  rw [runsOf_toJson, runs_merge, flatMap_runs_iff accepted] at same
  induction accepted with
  | nil => nofun
  | @cons log report logs reports here _ induction =>
      rw [List.forall₂_cons] at same
      rw [List.forall_mem_cons]
      exact ⟨(fromJson_log_iff log).mp ⟨report, here, same.1⟩, induction same.2⟩

/-- Each log is read, and its runs are written as they were. -/
theorem accepted_of_keptLog {logs : List SarifLog}
    (kept : ∀ log ∈ logs, KeptLog log.json) :
    ∃ reports,
      List.Forall₂ (fun log report => fromJson log.json = .ok report)
        logs reports ∧
      List.Forall₂ (fun log report =>
        report.runs.map SarifRun.value = runsOf log.json) logs reports := by
  induction logs with
  | nil => exact ⟨[], .nil, .nil⟩
  | cons log logs induction =>
      rw [List.forall_mem_cons] at kept
      obtain ⟨report, here, same⟩ := (fromJson_log_iff log).mpr kept.1
      obtain ⟨reports, accepted, others⟩ := induction kept.2
      exact ⟨report :: reports, .cons here accepted, .cons same others⟩

/-- A merge loses nothing exactly where each log keeps all it has. -/
theorem lossless_iff (logs : List SarifLog) :
    Lossless logs ↔ ∀ log ∈ logs, KeptLog log.json := by
  constructor
  · exact keptLog_of_lossless
  · intro kept
    obtain ⟨reports, accepted, same⟩ := accepted_of_keptLog kept
    have concatenated : runsOf (toJson (merge reports)) =
        logs.flatMap fun log => runsOf log.json := by
      rw [runsOf_toJson, runs_merge, flatMap_runs_iff accepted]
      exact same
    refine ⟨reports, accepted, concatenated, ?_⟩
    rw [concatenated]
    intro run member
    obtain ⟨log, -, inLog⟩ := List.mem_flatMap.mp member
    exact isRun_of_mem_runsOf log run inLog

end

/-! ## An address -/

def addressedDriver : Json :=
  .object [
    ("informationUri".toList, .string "https://codeql.github.com".toList),
    ("name".toList, .string "CodeQL".toList),
    ("version".toList, .string "2.20.0".toList)]

theorem isDriver_addressedDriver : IsDriver addressedDriver := by
  refine ⟨_, rfl, by decide, by decide, ?_⟩
  simp only [List.forall_mem_cons, List.not_mem_nil, false_imp_iff, implies_true,
    and_true]
  exact ⟨⟨_, rfl⟩, ⟨_, rfl⟩, ⟨_, rfl⟩⟩

def addressedRun : Json :=
  .object [
    ("results".toList, .array []),
    ("tool".toList, .object [("driver".toList, addressedDriver)])]

theorem isRun_addressedRun : IsRun addressedRun := by
  refine ⟨_, rfl, by decide, by decide, ?_⟩
  simp only [List.forall_mem_cons, List.not_mem_nil, false_imp_iff, implies_true,
    and_true]
  refine ⟨⟨_, rfl, by decide, by decide, ?_⟩, .inr nofun, trivial⟩
  rw [List.forall_mem_singleton]
  exact isDriver_addressedDriver

def addressedLog : SarifLog where
  json := .object [
    ("runs".toList, .array [addressedRun]),
    ("version".toList, .string "2.1.0".toList)]
  isLog := by
    refine ⟨_, rfl, by decide, by decide, ?_⟩
    simp only [List.forall_mem_cons, List.not_mem_nil, false_imp_iff,
      implies_true, and_true]
    refine ⟨trivial, rfl, .inr ?_⟩
    rw [Elements, List.forall_mem_singleton]
    exact isRun_addressedRun

/-- The address of a tool is lost. -/
theorem addressedLog_lossy :
    ¬ ∃ (tables : UnicodeTables) (parser : Parser),
      @Lossless tables parser [addressedLog] := by
  rintro ⟨tables, parser, lossless⟩
  have kept := keptLog_of_lossless lossless addressedLog List.mem_cons_self
  rw [KeptLog, addressedLog, hasFields_object_iff] at kept
  have runs := kept.2.2 _ (.tail _ (.tail _ (.head _)))
  obtain ⟨_, same, -, -, each⟩ := runs addressedRun List.mem_cons_self
  cases same
  have tool := each _ (.head _)
  obtain ⟨_, same, -, -, each⟩ := tool
  cases same
  have driver := each _ (.head _)
  obtain ⟨_, same, -, keys, -⟩ := driver
  cases same
  exact absurd (keys "informationUri".toList (by decide)) (by decide)

end TrustLayer.ThemisCompliance
