import AzureInit.Foundation.CsvRecord
import AzureInit.Diagnostics.Report
import AzureInit.Kvp.Store

/-! Provisioning reports as they are built, encoded and stored. -/

set_option autoImplicit false

namespace AzureInit.Diagnostics

open Foundation
open Kvp (KvpIo PoolMode)

def ReportResult.asStr : ReportResult → Text
  | .success => "success".toList
  | .error => "error".toList

def ReportPpsType.asStr : ReportPpsType → Text
  | .none => "None".toList
  | .osDisk => "PreprovisionedOSDisk".toList
  | .running => "Running".toList
  | .savable => "Savable".toList
  | .unknown => "Unknown".toList

/-! ## The writer of the csv crate -/

/-- `write_record` of a writer with the delimiter `|` and the necessary quoting. -/
abbrev CsvWriteRecord : Type := List Text → Text

/-- Neither an empty record nor a blank line, and no byte order mark in front. -/
structure IsRecord (fields : List Text) : Prop where
  given : fields ≠ []
  notBlank : fields ≠ [[]]
  noByteOrderMark : fields.head?.bind List.head? ≠ some '\uFEFF'

/-- Quotes stand around the fields that need them, and the reader is the inverse of
the writer; what it reads comes from the text. -/
structure Crates.Csv (crates : Crates) (csvWriteRecord : CsvWriteRecord) : Prop where
  write_necessary : ∀ (fields : List Text), IsRecord fields →
    csvWriteRecord fields = Csv.line '|' fields ++ ['\n']
  read_line : ∀ (fields : List Text), IsRecord fields →
    crates.csvFirstRecord (Csv.line '|' fields) = some (some fields)
  read_subset : ∀ (text : Text) (fields : List Text),
    crates.csvFirstRecord text = some (some fields) →
      ∀ field ∈ fields, ∀ c ∈ field, c ∈ text

/-- A time as `to_rfc3339` prints it. -/
structure Crates.IsTimestamp (crates : Crates) (text : Text) : Prop where
  parsed : (crates.parseFromRfc3339 text).isSome
  nulFree : '\x00' ∉ text

/-- The bytes without one line feed behind them. -/
def popLineFeed (bytes : Text) : Text :=
  if bytes.getLast? == some '\n' then bytes.dropLast else bytes

def fieldText (field : Text × Text) : Text := field.1 ++ '=' :: field.2

namespace ProvisioningReport

/-! ## Building -/

/-- A report of success; the time is that of the call. -/
def success (nowRfc3339 agent vmId : Text) (ppsType : ReportPpsType) : ProvisioningReport where
  result := .success
  agent := agent
  vmId := vmId
  timestamp := nowRfc3339
  ppsType := ppsType
  reason := none
  documentationUrl := none
  extra := []

/-- A report of failure; the time is that of the call. -/
def failure (nowRfc3339 agent vmId reason : Text) (ppsType : ReportPpsType) :
    ProvisioningReport where
  result := .error
  agent := agent
  vmId := vmId
  timestamp := nowRfc3339
  ppsType := ppsType
  reason := some reason
  documentationUrl := none
  extra := []

def withDocumentationUrl (report : ProvisioningReport) (url : Text) : ProvisioningReport :=
  { report with documentationUrl := some url }

def withExtra (report : ProvisioningReport) (key value : Text) : ProvisioningReport :=
  { report with extra := report.extra ++ [(key, value)] }

/-! ## Encoding -/

/-- The fields in the order in which they are written. -/
def fields (report : ProvisioningReport) : List (Text × Text) :=
  ("result".toList, report.result.asStr) ::
    match report.result with
    | .success =>
        [("agent".toList, report.agent), ("pps_type".toList, report.ppsType.asStr),
          ("vm_id".toList, report.vmId), ("timestamp".toList, report.timestamp)] ++
        report.extra
    | .error =>
        report.reason.toList.map (fun reason => ("reason".toList, reason)) ++
        [("agent".toList, report.agent)] ++ report.extra ++
        [("pps_type".toList, report.ppsType.asStr), ("vm_id".toList, report.vmId),
          ("timestamp".toList, report.timestamp)] ++
        report.documentationUrl.toList.map (fun url => ("documentation_url".toList, url))

def encode (csvWriteRecord : CsvWriteRecord) (report : ProvisioningReport) : Text :=
  popLineFeed (csvWriteRecord (report.fields.map fieldText))

end ProvisioningReport

/-- Store a report in place of any other. -/
def writeReport (csvWriteRecord : CsvWriteRecord) (mode : PoolMode)
    (report : ProvisioningReport) : KvpIo Unit :=
  Kvp.KvpPoolStore.insert mode provisioningReportKey (report.encode csvWriteRecord)

end AzureInit.Diagnostics
