import AzureInit.Foundation.DelimitedText
import AzureInit.Diagnostics.Crates
import AzureInit.Diagnostics.Diagnostic

/-! Provisioning reports as the reader parses them. -/

set_option autoImplicit false

namespace AzureInit.Diagnostics

open Foundation

def provisioningReportKey : Text := "PROVISIONING_REPORT".toList

inductive ReportResult where
  | success
  | error
  deriving DecidableEq, Repr

inductive ReportPpsType where
  | none
  | osDisk
  | running
  | savable
  | unknown
  deriving DecidableEq, Repr

def ReportPpsType.fromWire (value : Text) : Except DecodeError ReportPpsType :=
  if value == "None".toList then .ok .none
  else if value == "PreprovisionedOSDisk".toList then .ok .osDisk
  else if value == "Running".toList then .ok .running
  else if value == "Savable".toList then .ok .savable
  else if value == "Unknown".toList then .ok .unknown
  else .error .malformed

structure ProvisioningReport where
  result : ReportResult
  agent : Text
  vmId : Text
  timestamp : Text
  ppsType : ReportPpsType
  reason : Option Text
  documentationUrl : Option Text
  extra : List (Text × Text)
  deriving DecidableEq, Repr

inductive QuotingState where
  | start
  | unquoted
  | quoted
  | closed
  deriving DecidableEq, Repr

def quote : UInt8 := 0x22
def pipe : UInt8 := 0x7c
def carriageReturn : UInt8 := 0x0d
def lineFeed : UInt8 := 0x0a

def quotingStep (state : QuotingState) (byte : UInt8) : Except DecodeError QuotingState :=
  if byte == 0 then .error .malformed
  else
    match state with
    | .quoted => .ok (if byte == quote then .closed else .quoted)
    | .start =>
        if byte == quote then .ok .quoted
        else if byte == pipe then .ok .start
        else if byte == carriageReturn || byte == lineFeed then .error .malformed
        else .ok .unquoted
    | .unquoted =>
        if byte == pipe then .ok .start
        else if byte == quote || byte == carriageReturn || byte == lineFeed then
          .error .malformed
        else .ok .unquoted
    | .closed =>
        if byte == quote then .ok .quoted
        else if byte == pipe then .ok .start
        else .error .malformed

def validateReportQuoting (value : Text) : Except DecodeError Unit := do
  let state ← (Utf8.encode value).foldlM quotingStep .start
  if state == .quoted then throw .malformed else return ()

/-- Take the field of a name out of the list; two of one name are an error. -/
def takeField (name : Text) :
    StateT (List (Text × Text)) (Except DecodeError) (Option Text) := do
  let fields ← get
  match fields.filter (·.1 == name) with
  | [] => return none
  | [(_, value)] =>
      set (fields.eraseIdx (fields.findIdx (·.1 == name)))
      return some value
  | _ => throw .malformed

def splitReportField (field : Text) : Except DecodeError (Text × Text) := do
  let (key, value) ← okOr (Delimited.splitOnce? '=' field) .malformed
  if key.isEmpty then throw .malformed else return (key, value)

/-- Take a field that a report must have. -/
def takeRequired (name : Text) : StateT (List (Text × Text)) (Except DecodeError) Text := do
  let taken ← takeField name
  okOr taken DecodeError.malformed

def takeReport (crates : Crates) :
    StateT (List (Text × Text)) (Except DecodeError) ProvisioningReport := do
  let resultToken ← takeRequired "result".toList
  let result ←
    if resultToken == "success".toList then pure ReportResult.success
    else if resultToken == "error".toList then pure ReportResult.error
    else throw DecodeError.malformed
  let agent ← takeRequired "agent".toList
  let vmId ← takeRequired "vm_id".toList
  let timestamp ← takeRequired "timestamp".toList
  let _ ← okOr (crates.parseFromRfc3339 timestamp) DecodeError.malformed
  let ppsType ← ReportPpsType.fromWire (← takeRequired "pps_type".toList)
  let (reason, documentationUrl) ←
    match result with
    | .success => pure (none, none)
    | .error => do
        let reason ← takeRequired "reason".toList
        let documentationUrl ← takeField "documentation_url".toList
        pure (some reason, documentationUrl)
  let extra ← get
  return { result, agent, vmId, timestamp, ppsType, reason, documentationUrl, extra }

/-- The value without one line end behind it. -/
def stripLineEnd (value : Text) : Text :=
  ((value.dropSuffix? "\r\n".toList).orElse fun _ =>
    value.dropSuffix? "\n".toList).getD value

/-- Parse a stored report. -/
def ProvisioningReport.fromStr (crates : Crates) (value : Text) :
    Except DecodeError ProvisioningReport := do
  let value := stripLineEnd value
  validateReportQuoting value
  let record ← okOr (← okOr (crates.csvFirstRecord value) .malformed) .malformed
  let fields ← record.mapM splitReportField
  let (report, _) ← (takeReport crates).run fields
  return report

end AzureInit.Diagnostics
