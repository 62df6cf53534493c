import AzureInit.Diagnostics.ReportRoundTrip

/-! The reports that the agent encodes for itself, and how they are parsed. -/

set_option autoImplicit false

namespace AzureInit.Agent

open Foundation
open Kvp (HashMap)
open Diagnostics

/-- The package version that the compiler puts in. -/
def cargoPkgVersion : Text := "0.1.1".toList

/-! ## Errors -/

structure StatusCode where
  asU16 : UInt16
  /-- The code with its canonical reason. -/
  printed : Text
  deriving DecidableEq, Repr

/-- Errors of the agent. Errors of other crates and exit statuses are the texts that
they print. -/
inductive Error where
  | json (source : Text)
  | xml (source : Text)
  | http (source : Text)
  | io (source : Text)
  | httpStatus (endpoint : Text) (status : StatusCode)
  | subprocessFailed (command : Text) (status : Text)
  | nulError (source : Text)
  | rustix (source : Text)
  | userMissing (user : Text)
  | usernameFailure
  | instanceMetadataFailure
  | nonEmptyPassword
  | blockUtils (source : Text)
  | noHostnameProvisioner
  | noUserProvisioner
  | noPasswordProvisioner
  | timeout
  | updateSshdConfig
  | loadSshdConfig (details : Text)
  | unhandledError (details : Text)
  deriving DecidableEq, Repr

namespace Error

def documentationUrl : Text := "https://aka.ms/linuxprovisioningerror".toList

/-- What the error prints. -/
def display : Error → Text
  | .json source => "Unable to deserialize or serialize JSON data: ".toList ++ source
  | .xml source => "Unable to deserialize or serialize XML data: ".toList ++ source
  | .http source => "HTTP client error occurred: ".toList ++ source
  | .io source => "An I/O error occurred: ".toList ++ source
  | .httpStatus endpoint status =>
      "HTTP request did not succeed (HTTP ".toList ++ status.printed ++ " from ".toList ++
        endpoint ++ ")".toList
  | .subprocessFailed command status =>
      "executing ".toList ++ command ++ " failed: ".toList ++ status
  | .nulError _ => "failed to construct a C-style string".toList
  | .rustix source => "rustix call failed: ".toList ++ source
  | .userMissing user => "The user ".toList ++ user ++ " does not exist".toList
  | .usernameFailure => "failed to get username from IMDS or local OVF files".toList
  | .instanceMetadataFailure => "failed to get instance metadata from IMDS".toList
  | .nonEmptyPassword =>
      "Provisioning a user with a non-empty password is not supported".toList
  | .blockUtils source => "Unable to get list of block devices: ".toList ++ source
  | .noHostnameProvisioner =>
      "Failed to set the hostname; none of the provided backends succeeded".toList
  | .noUserProvisioner =>
      "Failed to create a user; none of the provided backends succeeded".toList
  | .noPasswordProvisioner =>
      "Failed to set the user password; none of the provided backends succeeded".toList
  | .timeout => "A timeout error occurred".toList
  | .updateSshdConfig => "Failed to update sshd config".toList
  | .loadSshdConfig details => "Failed to load sshd config: ".toList ++ details
  | .unhandledError details => "unhandled error: ".toList ++ details

def reason : Error → Text
  | .json _ => "JSON error".toList
  | .xml _ => "XML error".toList
  | .http _ => "HTTP error".toList
  | .io _ => "I/O error".toList
  | .httpStatus _ _ => "http status error".toList
  | .subprocessFailed _ _ => "subprocess failed".toList
  | .nulError _ => "C string nul byte".toList
  | .rustix _ => "rustix error".toList
  | .userMissing _ => "user not found".toList
  | .usernameFailure => "failed to determine username".toList
  | .instanceMetadataFailure => "failed to retrieve instance metadata".toList
  | .nonEmptyPassword => "provisioning with non-empty password is unsupported".toList
  | .blockUtils _ => "block device error".toList
  | .noHostnameProvisioner => "failed to provision hostname".toList
  | .noUserProvisioner => "failed to provision user".toList
  | .noPasswordProvisioner => "failed to provision password".toList
  | .timeout => "operation timed out".toList
  | .updateSshdConfig => "failed to update sshd config".toList
  | .loadSshdConfig _ => "failed to load sshd config".toList
  | _ => "unhandled error".toList

def supportingData (error : Error) : HashMap Text :=
  match error with
  | .httpStatus endpoint status =>
      ((∅ : HashMap Text).insert "endpoint".toList endpoint).insert "status".toList
        (Decimal.digits status.asU16.toNat)
  | .subprocessFailed command status =>
      ((∅ : HashMap Text).insert "command".toList command).insert "exit_status".toList status
  | .userMissing user => (∅ : HashMap Text).insert "user".toList user
  | .loadSshdConfig details => (∅ : HashMap Text).insert "details".toList details
  | _ => (∅ : HashMap Text).insert "error".toList error.display

end Error

/-! ## Encoding -/

/-- Serialize texts as one entry between pipes. -/
def encodeReport (csvWriteRecord : CsvWriteRecord) (data : List Text) : Text :=
  popLineFeed (csvWriteRecord data)

def agentName : Text := "Azure-Init/".toList ++ cargoPkgVersion

/-- An order in which a hash map may hand out its pairs. -/
structure MapOrder where
  arrange : List ((_ : Text) × Text) → List ((_ : Text) × Text)
  perm : ∀ pairs, (arrange pairs).Perm pairs

def Error.asEncodedReport (csvWriteRecord : CsvWriteRecord) (order : MapOrder)
    (nowRfc3339 : Text) (error : Error) (vmId : Text) : Text :=
  encodeReport csvWriteRecord <|
    ["result=error".toList, "reason=".toList ++ error.reason, "agent=".toList ++ agentName] ++
    (order.arrange error.supportingData.entries).map (fun pair => pair.1 ++ '=' :: pair.2) ++
    ["pps_type=None".toList, "vm_id=".toList ++ vmId, "timestamp=".toList ++ nowRfc3339,
      "documentation_url=".toList ++ Error.documentationUrl]

def encodedSuccessReport (csvWriteRecord : CsvWriteRecord) (nowRfc3339 vmId : Text)
    (optionalKeyValue : Option (Text × Text)) : Text :=
  encodeReport csvWriteRecord <|
    ["result=success".toList, "agent=".toList ++ agentName, "pps_type=None".toList,
      "vm_id=".toList ++ vmId, "timestamp=".toList ++ nowRfc3339] ++
    optionalKeyValue.toList.map fun (key, value) => key ++ '=' :: value

/-! ## As reports -/

/-- The report that an error is encoded as. -/
def Error.report (order : MapOrder) (nowRfc3339 : Text) (error : Error) (vmId : Text) :
    ProvisioningReport where
  result := .error
  agent := agentName
  vmId := vmId
  timestamp := nowRfc3339
  ppsType := .none
  reason := some error.reason
  documentationUrl := some documentationUrl
  extra := (order.arrange error.supportingData.entries).map fun pair => (pair.1, pair.2)

def successReport (nowRfc3339 vmId : Text) (optionalKeyValue : Option (Text × Text)) :
    ProvisioningReport :=
  { ProvisioningReport.success nowRfc3339 agentName vmId .none with
    extra := optionalKeyValue.toList }

theorem Error.asEncodedReport_eq (csvWriteRecord : CsvWriteRecord) (order : MapOrder)
    (nowRfc3339 : Text) (error : Error) (vmId : Text) :
    error.asEncodedReport csvWriteRecord order nowRfc3339 vmId =
      (error.report order nowRfc3339 vmId).encode csvWriteRecord := by
  have supporting : ((error.report order nowRfc3339 vmId).extra).map fieldText =
      (order.arrange error.supportingData.entries).map fun pair => pair.1 ++ '=' :: pair.2 := by
    simp [report, fieldText]
  have data : (error.report order nowRfc3339 vmId).fields.map fieldText =
      ["result=error".toList, "reason=".toList ++ error.reason, "agent=".toList ++ agentName] ++
      ((error.report order nowRfc3339 vmId).extra).map fieldText ++
      ["pps_type=None".toList, "vm_id=".toList ++ vmId, "timestamp=".toList ++ nowRfc3339,
        "documentation_url=".toList ++ documentationUrl] := by
    unfold ProvisioningReport.fields
    simp only [report, Option.toList_some, List.map_cons, List.map_nil, List.map_append,
      List.cons_append, List.nil_append, List.append_assoc]
    rfl
  rw [ProvisioningReport.encode, data, supporting]
  rfl

theorem encodedSuccessReport_eq (csvWriteRecord : CsvWriteRecord) (nowRfc3339 vmId : Text)
    (optionalKeyValue : Option (Text × Text)) :
    encodedSuccessReport csvWriteRecord nowRfc3339 vmId optionalKeyValue =
      (successReport nowRfc3339 vmId optionalKeyValue).encode csvWriteRecord := by
  cases optionalKeyValue <;> rfl

/-! ## Parsing them -/

namespace Error

/-- The text of an error, as its supporting data has it, is without NUL. -/
def NulFree (error : Error) : Prop :=
  ∀ pair ∈ error.supportingData.entries, '\x00' ∉ pair.2

/-- The names of supporting data. -/
def supportingNames : List Text :=
  ["endpoint".toList, "status".toList, "command".toList, "exit_status".toList, "user".toList,
    "details".toList, "error".toList]

private theorem mem_supportingNames_of_insert {name key value : Text} {data : HashMap Text}
    (named : name ∈ data.insert key value) (here : key ∈ supportingNames)
    (others : name ∈ data → name ∈ supportingNames) : name ∈ supportingNames := by
  rcases (AList.mem_insert data).mp named with rfl | earlier
  · exact here
  · exact others earlier

theorem mem_supportingData {error : Error} {pair : (_ : Text) × Text}
    (member : pair ∈ error.supportingData.entries) : pair.1 ∈ supportingNames := by
  have named : pair.1 ∈ error.supportingData := AList.mem_keys.mpr (List.mem_keys_of_mem member)
  have none : pair.1 ∈ (∅ : HashMap Text) → pair.1 ∈ supportingNames := fun inEmpty =>
    absurd inEmpty (AList.notMem_empty _)
  unfold supportingData at named
  split at named
  · apply mem_supportingNames_of_insert named (by decide)
    intro earlier
    exact mem_supportingNames_of_insert earlier (by decide) none
  · apply mem_supportingNames_of_insert named (by decide)
    intro earlier
    exact mem_supportingNames_of_insert earlier (by decide) none
  · exact mem_supportingNames_of_insert named (by decide) none
  · exact mem_supportingNames_of_insert named (by decide) none
  · exact mem_supportingNames_of_insert named (by decide) none

theorem not_mem_reason (error : Error) : '\x00' ∉ error.reason := by
  unfold reason
  split <;> decide

theorem encodable_report (order : MapOrder) (nowRfc3339 : Text) (error : Error) (vmId : Text) :
    (error.report order nowRfc3339 vmId).Encodable where
  extraNames field member := by
    obtain ⟨pair, arranged, rfl⟩ := List.mem_map.mp member
    have supporting := mem_supportingData ((order.perm _).mem_iff.mp arranged)
    have names : ∀ name ∈ supportingNames,
        (name ≠ [] ∧ '=' ∉ name) ∧ name ∉ standardNames .error := by decide
    exact names _ supporting
  failure := .inr ⟨rfl, rfl⟩

theorem nulFree_report {order : MapOrder} {nowRfc3339 : Text} {error : Error} {vmId : Text}
    (errorText : error.NulFree) (identity : '\x00' ∉ vmId) (time : '\x00' ∉ nowRfc3339) :
    (error.report order nowRfc3339 vmId).NulFree := by
  intro text member
  simp only [ProvisioningReport.texts, report, Option.toList_some, List.mem_append, List.mem_cons,
    List.not_mem_nil, or_false, List.mem_flatMap, List.mem_map] at member
  rcases member with (((rfl | rfl | rfl) | rfl) | rfl) | ⟨_, ⟨pair, arranged, rfl⟩, part⟩
  · decide
  · exact identity
  · exact time
  · exact not_mem_reason error
  · decide
  · have stored := (order.perm _).mem_iff.mp arranged
    rcases part with rfl | rfl
    · have names : ∀ name ∈ supportingNames, '\x00' ∉ name := by decide
      exact names _ (mem_supportingData stored)
    · exact errorText _ stored

end Error

theorem encodable_successReport {nowRfc3339 vmId : Text} {optionalKeyValue : Option (Text × Text)}
    (names : ∀ pair ∈ optionalKeyValue,
      IsFieldName pair.1 ∧ pair.1 ∉ standardNames .success) :
    (successReport nowRfc3339 vmId optionalKeyValue).Encodable where
  extraNames pair member := names pair (Option.mem_toList.mp member)
  failure := .inl ⟨rfl, rfl, rfl⟩

theorem nulFree_successReport {nowRfc3339 vmId : Text} {optionalKeyValue : Option (Text × Text)}
    (identity : '\x00' ∉ vmId) (time : '\x00' ∉ nowRfc3339)
    (pairText : ∀ pair ∈ optionalKeyValue, '\x00' ∉ pair.1 ∧ '\x00' ∉ pair.2) :
    (successReport nowRfc3339 vmId optionalKeyValue).NulFree := by
  intro text member
  simp only [ProvisioningReport.texts, successReport, ProvisioningReport.success,
    Option.toList_none, List.append_nil, List.mem_append, List.mem_cons, List.not_mem_nil, or_false,
    List.mem_flatMap] at member
  rcases member with (rfl | rfl | rfl) | ⟨pair, given, part⟩
  · decide
  · exact identity
  · exact time
  · have texts := pairText pair (Option.mem_toList.mp given)
    rcases part with rfl | rfl
    · exact texts.1
    · exact texts.2

/-- The reader accepts what the agent encodes, and finds in it what the agent put in. -/
theorem agent_reports_are_parsed {crates : Crates} {csvWriteRecord : CsvWriteRecord}
    {nowRfc3339 : Text} (csv : crates.Csv csvWriteRecord)
    (timestamp : crates.IsTimestamp nowRfc3339) :
    (∀ (error : Error) (vmId : Text) (order : MapOrder), error.NulFree → '\x00' ∉ vmId →
      ∃ report, ProvisioningReport.fromStr crates
          (error.asEncodedReport csvWriteRecord order nowRfc3339 vmId) = .ok report ∧
        report.result = .error ∧ report.agent = agentName ∧ report.reason = some error.reason ∧
        report.vmId = vmId ∧ report.ppsType = .none ∧
        report.documentationUrl = some Error.documentationUrl ∧
        report.extra.Perm (error.supportingData.entries.map fun pair => (pair.1, pair.2))) ∧
    (∀ (vmId : Text) (optionalKeyValue : Option (Text × Text)), '\x00' ∉ vmId →
      (∀ pair ∈ optionalKeyValue, (IsFieldName pair.1 ∧ pair.1 ∉ standardNames .success) ∧
        '\x00' ∉ pair.1 ∧ '\x00' ∉ pair.2) →
      ∃ report, ProvisioningReport.fromStr crates
          (encodedSuccessReport csvWriteRecord nowRfc3339 vmId optionalKeyValue) = .ok report ∧
        report.result = .success ∧ report.agent = agentName ∧ report.vmId = vmId ∧
        report.ppsType = .none ∧ report.extra = optionalKeyValue.toList) := by
  constructor
  · intro error vmId order errorText identity
    refine ⟨error.report order nowRfc3339 vmId, ?_, rfl, rfl, rfl, rfl, rfl, rfl,
      (order.perm _).map _⟩
    rw [Error.asEncodedReport_eq]
    exact ProvisioningReport.fromStr_encode csv (Error.encodable_report order nowRfc3339 error vmId)
      (Error.nulFree_report errorText identity timestamp.nulFree) timestamp.parsed
  · intro vmId optionalKeyValue identity pairs
    refine ⟨successReport nowRfc3339 vmId optionalKeyValue, ?_, rfl, rfl, rfl, rfl, rfl⟩
    rw [encodedSuccessReport_eq]
    exact ProvisioningReport.fromStr_encode csv
      (encodable_successReport fun pair given => (pairs pair given).1)
      (nulFree_successReport identity timestamp.nulFree fun pair given => (pairs pair given).2)
      timestamp.parsed

/-- The order in which the pairs stand in the map. -/
def MapOrder.stored : MapOrder := ⟨id, fun _ => .refl _⟩

theorem agent_reports_are_parsed_loadSshdConfig :
    ∃ report, ProvisioningReport.fromStr ReferenceCrates.withCsv
        ((Error.loadSshdConfig "line 1: \"x|y\"\n".toList).asEncodedReport
          ReferenceCrates.csvWriteRecord .stored "2026-06-17T00:00:00Z".toList "vm".toList) =
        .ok report ∧
      report.extra = [("details".toList, "line 1: \"x|y\"\n".toList)] := by
  have timestamp : ReferenceCrates.withCsv.IsTimestamp "2026-06-17T00:00:00Z".toList :=
    ⟨by decide, by decide⟩
  have nulFree : (Error.loadSshdConfig "line 1: \"x|y\"\n".toList).NulFree := by
    intro pair member
    obtain rfl := List.mem_singleton.mp member
    decide
  obtain ⟨report, parsed, -, -, -, -, -, -, extra⟩ :=
    (agent_reports_are_parsed ReferenceCrates.withCsv_csv timestamp).1 _ "vm".toList .stored
      nulFree (by decide)
  exact ⟨report, parsed, List.perm_singleton.mp extra⟩

end AzureInit.Agent
