import AzureInit.Cli.SupportingData
import AzureInit.Diagnostics.CutReports
import AzureInit.Diagnostics.StoredReports
import AzureInit.Kvp.Replacement

/-! The report commands, and what the reader finds after them. -/

set_option autoImplicit false

namespace AzureInit.Cli

open Foundation
open Kvp (KvpError KvpIo PoolMode IoError World HandleStep noFaults Call Reply)
open Diagnostics

def exitOk : Nat := 0
def exitUsageOrValidation : Nat := 2
def exitIo : Nat := 3

inductive CliError where
  | usage (message : Text)
  | kvp (error : KvpError)
  | io (error : IoError)
  deriving DecidableEq, Repr

def CliError.exitCode : CliError → Nat
  | .usage _ => exitUsageOrValidation
  | .kvp (.io _) | .io _ => exitIo
  | .kvp _ => exitUsageOrValidation

abbrev CliIo (α : Type) : Type := ExceptT CliError (Program Call Reply) α

/-- The `?` conversion from the store's results. -/
def liftKvp {α : Type} (program : KvpIo α) : CliIo α :=
  ExceptT.mk (Except.mapError CliError.kvp <$> program.run)

/-- The given identity, or that of the machine. -/
def resolveVmIdWith (vmId lookup : Option Text) : Except CliError Text :=
  match vmId with
  | some vmId => .ok vmId
  | none =>
      okOr lookup (.usage ("unable to determine the current VM ID automatically; ".toList ++
        "pass --vm-id explicitly".toList))

/-- The pairs of all arguments. -/
def pairsOf (supportingData : List SupportingData) : List (Text × Text) :=
  supportingData.flatMap (·.pairs)

def withExtras (report : ProvisioningReport) (pairs : List (Text × Text)) : ProvisioningReport :=
  pairs.foldl (fun report pair => report.withExtra pair.1 pair.2) report

/-- What the commands find on the machine: its identity, the time, and the csv writer. -/
structure Host where
  vmId : Option Text
  nowRfc3339 : Text
  csvWriteRecord : CsvWriteRecord

def reportSuccess (host : Host) (mode : PoolMode) (vmId : Option Text) (agent : Text)
    (supportingData : List SupportingData) : CliIo Nat := do
  let vmId ← ExceptT.mk (pure (resolveVmIdWith vmId host.vmId))
  let report := ProvisioningReport.success host.nowRfc3339 agent vmId .none
  let report := withExtras report (pairsOf supportingData)
  liftKvp (writeReport host.csvWriteRecord mode report)
  return exitOk

def reportFailure (host : Host) (mode : PoolMode) (vmId : Option Text) (agent reason : Text)
    (documentationUrl : Option Text) (supportingData : List SupportingData) : CliIo Nat := do
  let vmId ← ExceptT.mk (pure (resolveVmIdWith vmId host.vmId))
  let report := ProvisioningReport.failure host.nowRfc3339 agent vmId reason .none
  let report := withExtras report (pairsOf supportingData)
  let report := match documentationUrl with
    | some url => report.withDocumentationUrl url
    | none => report
  liftKvp (writeReport host.csvWriteRecord mode report)
  return exitOk

/-- The report commands with the arguments as they are given. -/
inductive ReportCommand where
  | reportSuccess (vmId : Option Text) (agent : Text) (supportingData : List Text)
  | reportFailure (vmId : Option Text) (agent reason : Text) (documentationUrl : Option Text)
      (supportingData : List Text)
  deriving DecidableEq, Repr

namespace ReportCommand

def vmId : ReportCommand → Option Text
  | .reportSuccess vmId .. | .reportFailure vmId .. => vmId

def supportingData : ReportCommand → List Text
  | .reportSuccess _ _ supportingData | .reportFailure _ _ _ _ supportingData => supportingData

def result : ReportCommand → ReportResult
  | .reportSuccess .. => .success
  | .reportFailure .. => .error

/-- Run a command once its arguments have been accepted. -/
def dispatch (host : Host) (mode : PoolMode) (command : ReportCommand)
    (supportingData : List SupportingData) : CliIo Nat :=
  match command with
  | .reportSuccess vmId agent _ => Cli.reportSuccess host mode vmId agent supportingData
  | .reportFailure vmId agent reason documentationUrl _ =>
      Cli.reportFailure host mode vmId agent reason documentationUrl supportingData

/-- The report that a command asks for. -/
def report (nowRfc3339 vmId : Text) (pairs : List (Text × Text)) :
    ReportCommand → ProvisioningReport
  | .reportSuccess _ agent _ =>
      { ProvisioningReport.success nowRfc3339 agent vmId .none with extra := pairs }
  | .reportFailure _ agent reason documentationUrl _ =>
      { ProvisioningReport.failure nowRfc3339 agent vmId reason .none with
        documentationUrl := documentationUrl, extra := pairs }

end ReportCommand

/-! ## What a command writes -/

theorem withExtras_eq (report : ProvisioningReport) (pairs : List (Text × Text)) :
    withExtras report pairs = { report with extra := report.extra ++ pairs } := by
  unfold withExtras
  induction pairs generalizing report with
  | nil => simp
  | cons pair pairs ih =>
      rw [List.foldl_cons, ih]
      simp [ProvisioningReport.withExtra]

theorem runs_liftKvp_iff {α : Type} {program : KvpIo α} {world after : World}
    {outcome : Except CliError α} :
    Program.Runs (HandleStep noFaults) (liftKvp program).run world outcome after ↔
      ∃ result, Program.Runs (HandleStep noFaults) program.run world result after ∧
        outcome = result.mapError CliError.kvp := by
  have mapped : (liftKvp program).run = program.run >>= fun result =>
      pure (result.mapError CliError.kvp) := map_eq_pure_bind _ _
  rw [mapped, Program.runs_bind_iff]
  constructor
  · intro ran
    obtain ⟨result, middle, ran, rest⟩ := ran
    obtain ⟨rfl, rfl⟩ := Program.runs_pure_iff.mp rest
    exact ⟨result, ran, rfl⟩
  · intro ran
    obtain ⟨result, ran, rfl⟩ := ran
    exact ⟨result, after, ran, Program.runs_pure_iff.mpr ⟨rfl, rfl⟩⟩

theorem runs_liftKvp_ok_iff {α : Type} {program : KvpIo α} {world after : World} {value : α} :
    Program.Runs (HandleStep noFaults) (liftKvp program).run world (.ok value) after ↔
      Program.Runs (HandleStep noFaults) program.run world (.ok value) after := by
  rw [runs_liftKvp_iff]
  constructor
  · intro ran
    obtain ⟨result, ran, same⟩ := ran
    cases result with
    | error error => cases same
    | ok other =>
        cases same
        exact ran
  · intro ran
    exact ⟨.ok value, ran, rfl⟩

variable {host : Host} {mode : PoolMode}

/-- Both commands resolve the identity and write their report. -/
private theorem runs_resolved_iff {given : Option Text} {report : Text → ProvisioningReport}
    {world after : World} :
    Program.Runs (HandleStep noFaults) (do
      let vmId ← ExceptT.mk (pure (resolveVmIdWith given host.vmId))
      liftKvp (writeReport host.csvWriteRecord mode (report vmId))
      return exitOk : CliIo Nat).run world (.ok exitOk) after ↔
    ∃ vmId, resolveVmIdWith given host.vmId = .ok vmId ∧
      Program.Runs (HandleStep noFaults) (writeReport host.csvWriteRecord mode (report vmId)).run
        world (.ok ()) after := by
  rw [Program.runs_except_bind_ok_iff]
  constructor
  · intro ran
    obtain ⟨vmId, middle, looked, rest⟩ := ran
    obtain ⟨same, rfl⟩ := Program.runs_pure_iff.mp looked
    obtain ⟨⟨⟩, last, wrote, ended⟩ := Program.runs_except_bind_ok_iff.mp rest
    obtain ⟨-, rfl⟩ := Program.runs_pure_iff.mp ended
    exact ⟨vmId, same.symm, runs_liftKvp_ok_iff.mp wrote⟩
  · intro wrote
    obtain ⟨vmId, same, wrote⟩ := wrote
    refine ⟨vmId, world, Program.runs_pure_iff.mpr ⟨same.symm, rfl⟩, ?_⟩
    exact Program.runs_except_bind_ok_iff.mpr
      ⟨(), after, runs_liftKvp_ok_iff.mpr wrote, Program.runs_pure_iff.mpr ⟨rfl, rfl⟩⟩

/-- A command exits well when it has stored the report that it was asked for. -/
theorem runs_dispatch_iff {command : ReportCommand} {data : List SupportingData}
    {world after : World} :
    Program.Runs (HandleStep noFaults) (command.dispatch host mode data).run world
      (.ok exitOk) after ↔
    ∃ vmId, resolveVmIdWith command.vmId host.vmId = .ok vmId ∧
      Program.Runs (HandleStep noFaults) (writeReport host.csvWriteRecord mode
        (command.report host.nowRfc3339 vmId (pairsOf data))).run world (.ok ()) after := by
  cases command with
  | reportSuccess vmId agent arguments =>
      refine runs_resolved_iff.trans ?_
      simp only [withExtras_eq]
      rfl
  | reportFailure vmId agent reason documentationUrl arguments =>
      refine runs_resolved_iff.trans ?_
      simp only [withExtras_eq]
      cases documentationUrl <;> rfl

/-! ## What the reader finds -/

/-- A report that says what another one was meant to say. -/
structure Tells (asked told : ProvisioningReport) : Prop where
  result : told.result = asked.result
  agent : told.agent = asked.agent
  vmId : told.vmId = asked.vmId
  reason : told.reason = asked.reason
  documentationUrl : told.documentationUrl = asked.documentationUrl
  extra : told.extra = asked.extra

theorem ReportCommand.report_result {command : ReportCommand} {nowRfc3339 vmId : Text}
    {pairs : List (Text × Text)} : (command.report nowRfc3339 vmId pairs).result =
      command.result := by
  cases command <;> rfl

theorem ReportCommand.report_extra {command : ReportCommand} {nowRfc3339 vmId : Text}
    {pairs : List (Text × Text)} : (command.report nowRfc3339 vmId pairs).extra = pairs := by
  cases command <;> rfl

theorem ReportCommand.encodable_report {command : ReportCommand} {nowRfc3339 vmId : Text}
    {pairs : List (Text × Text)} (named : ∀ pair ∈ pairs, IsFieldName pair.1)
    (free : ∀ pair ∈ pairs, pair.1 ∉ standardNames command.result) :
    (command.report nowRfc3339 vmId pairs).Encodable := by
  constructor
  · rw [report_extra, report_result]
    exact fun pair member => ⟨named pair member, free pair member⟩
  · cases command with
    | reportSuccess vmId agent arguments => exact .inl ⟨rfl, rfl, rfl⟩
    | reportFailure vmId agent reason documentationUrl arguments => exact .inr ⟨rfl, rfl⟩

variable {crates : Crates}

/-- Whether the report of a command is told by its encoding. -/
theorem ReportCommand.parsed_iff (csv : crates.Csv host.csvWriteRecord) {command : ReportCommand}
    {vmId : Text} {pairs : List (Text × Text)}
    (timestamp : (crates.parseFromRfc3339 host.nowRfc3339).isSome)
    (named : ∀ pair ∈ pairs, IsFieldName pair.1)
    (nulFree : '\x00' ∉
      (command.report host.nowRfc3339 vmId pairs).encode host.csvWriteRecord) :
    (∃ told, ProvisioningReport.fromStr crates
        ((command.report host.nowRfc3339 vmId pairs).encode host.csvWriteRecord) = .ok told ∧
      Tells (command.report host.nowRfc3339 vmId pairs) told) ↔
    ∀ pair ∈ pairs, pair.1 ∉ standardNames command.result := by
  constructor
  · intro found pair member
    obtain ⟨told, parsed, tells⟩ := found
    have describes := ProvisioningReport.describes_of_fromStr_encode csv
      (by rw [report_extra]; exact named) parsed
    have kept := describes.extra
    rw [tells.extra, tells.result, report_extra, report_result] at kept
    rw [kept] at member
    simpa using (List.mem_filter.mp member).2
  · intro free
    have encodable := @encodable_report command host.nowRfc3339 vmId pairs named free
    have stamped : (command.report host.nowRfc3339 vmId pairs).timestamp = host.nowRfc3339 := by
      cases command <;> rfl
    refine ⟨_, ProvisioningReport.fromStr_encode csv encodable
      (ProvisioningReport.nulFree_of_encode csv encodable nulFree) ?_, ⟨rfl, rfl, rfl, rfl, rfl, rfl⟩⟩
    rw [stamped]
    exact timestamp

theorem isFieldName_of_pairsOf {arguments : List Text} {data : List SupportingData}
    (accepted : arguments.mapM parseSupportingData = .ok data) :
    ∀ pair ∈ pairsOf data, IsFieldName pair.1 := by
  intro pair member
  obtain ⟨one, isArgument, inPairs⟩ := List.mem_flatMap.mp member
  have each := Fallible.mapM_eq_ok_iff.mp accepted
  obtain ⟨index, bound, rfl⟩ := List.getElem_of_mem isArgument
  have parsed := each.get (by rw [each.length_eq]; exact bound) bound
  exact isFieldName_of_parseSupportingData parsed pair inPairs

/-- What the reader finds is what the encoded report is parsed as. -/
theorem told_iff_parsed {command : ReportCommand} {data : List SupportingData} {vmId : Text}
    {order : HashOrder} {world stored after : World} {result : Except KvpError (List Entry)}
    (wellFormed : world.WellFormed)
    (resolved : resolveVmIdWith command.vmId host.vmId = .ok vmId)
    (exited : Program.Runs (HandleStep noFaults) (command.dispatch host mode data).run world
      (.ok exitOk) stored)
    (read : Program.Runs (HandleStep noFaults) (DiagnosticReader.entries crates order).run stored
      result after) :
    let asked := command.report host.nowRfc3339 vmId (pairsOf data)
    '\x00' ∉ asked.encode host.csvWriteRecord ∧
      ((∃ entries told, result = .ok entries ∧ entries.filter Entry.isForReport = [.report told] ∧
        Tells asked told) ↔
      ∃ told, ProvisioningReport.fromStr crates (asked.encode host.csvWriteRecord) = .ok told ∧
        Tells asked told) := by
  obtain ⟨found, same, written⟩ := runs_dispatch_iff.mp exited
  rw [resolved] at same
  obtain rfl := Except.ok.inj same
  obtain ⟨storedWellFormed, replaced⟩ := Kvp.insert_replaces wellFormed written
  obtain ⟨record, alone, recordDecoded⟩ := replaced.stored
  obtain ⟨entries, rfl, only⟩ := reportEntries_of_stored storedWellFormed alone recordDecoded read
  refine ⟨(Kvp.value_of_validateRecord (Kvp.validateRecord_of_insert written)).1, ?_⟩
  constructor
  · intro shown
    obtain ⟨others, told, same, entry, tells⟩ := shown
    obtain rfl := Except.ok.inj same
    rw [only, List.singleton_inj] at entry
    exact ⟨told, reportEntry_eq_report_iff.mp entry, tells⟩
  · intro parsed
    obtain ⟨told, parsed, tells⟩ := parsed
    exact ⟨entries, told, rfl, by rw [only, reportEntry_eq_report_iff.mpr parsed], tells⟩

/-- A command that exits well leaves one entry for the report, which tells what was given,
when no supporting data has the name of a standard field. -/
theorem cli_report_is_readable_iff {crates : Crates} {host : Host} {mode : PoolMode}
    {command : ReportCommand} {data : List SupportingData} {vmId : Text} {order : HashOrder}
    {world stored after : World} {result : Except KvpError (List Entry)}
    (csv : crates.Csv host.csvWriteRecord)
    (timestamp : (crates.parseFromRfc3339 host.nowRfc3339).isSome)
    (wellFormed : world.WellFormed)
    (accepted : command.supportingData.mapM parseSupportingData = .ok data)
    (resolved : resolveVmIdWith command.vmId host.vmId = .ok vmId)
    (exited : Program.Runs (HandleStep noFaults) (command.dispatch host mode data).run world
      (.ok exitOk) stored)
    (read : Program.Runs (HandleStep noFaults) (DiagnosticReader.entries crates order).run stored
      result after) :
    (∃ entries told, result = .ok entries ∧ entries.filter Entry.isForReport = [.report told] ∧
      Tells (command.report host.nowRfc3339 vmId (pairsOf data)) told) ↔
    ∀ pair ∈ pairsOf data, pair.1 ∉ standardNames command.result := by
  obtain ⟨nulFree, found⟩ := told_iff_parsed wellFormed resolved exited read
  rw [found]
  exact ReportCommand.parsed_iff csv timestamp (isFieldName_of_pairsOf accepted) nulFree

/-! ## Two commands -/

/-- A machine on the day of the report. -/
def sampleHost : Host where
  vmId := none
  nowRfc3339 := "2026-06-17T00:00:00Z".toList
  csvWriteRecord := ReferenceCrates.csvWriteRecord

def sampleFailure : ReportCommand :=
  .reportFailure (some "vm".toList) "cli".toList "no|space".toList none
    ["disk='a,b',path=/dev/sda".toList]

/-- Supporting data under the name of a standard field. -/
def repeatedVmId : ReportCommand :=
  .reportSuccess (some "vm".toList) "cli".toList ["vm_id=x".toList]

/-- A command in a pool that was missing, and the reader behind it. -/
private theorem exists_exited_and_read {command : ReportCommand} {data : List SupportingData}
    {vmId : Text} (order : HashOrder)
    (resolved : resolveVmIdWith command.vmId sampleHost.vmId = .ok vmId)
    (valid : Kvp.KvpPoolStore.validateRecord .safe provisioningReportKey
      ((command.report sampleHost.nowRfc3339 vmId (pairsOf data)).encode
        sampleHost.csvWriteRecord) = .ok ()) :
    ∃ stored result after,
      Program.Runs (HandleStep noFaults) (command.dispatch sampleHost .safe data).run
        Kvp.missingPool (.ok exitOk) stored ∧
      Program.Runs (HandleStep noFaults)
        (DiagnosticReader.entries ReferenceCrates.withCsv order).run stored result after := by
  have written := Kvp.runs_execute noFaults (writeReport sampleHost.csvWriteRecord .safe
    (command.report sampleHost.nowRfc3339 vmId (pairsOf data))).run Kvp.missingPool
  have returned := Kvp.insert_returns Kvp.missingPool_wellFormed valid (by decide) written
  rw [returned] at written
  exact ⟨_, _, _, runs_dispatch_iff.mpr ⟨vmId, resolved, written⟩, Kvp.runs_execute noFaults _ _⟩

theorem cli_report_is_readable_iff_sampleFailure :
    ∃ data stored result after, sampleFailure.supportingData.mapM parseSupportingData = .ok data ∧
      Program.Runs (HandleStep noFaults) (sampleFailure.dispatch sampleHost .safe data).run
        Kvp.missingPool (.ok exitOk) stored ∧
      Program.Runs (HandleStep noFaults)
        (DiagnosticReader.entries ReferenceCrates.withCsv ⟨id, fun _ => .refl _⟩).run stored
        result after ∧
      ∃ entries told, result = .ok entries ∧
        entries.filter Entry.isForReport = [.report told] ∧
        Tells (sampleFailure.report sampleHost.nowRfc3339 "vm".toList (pairsOf data)) told := by
  have accepted : sampleFailure.supportingData.mapM parseSupportingData =
      .ok [⟨[("disk".toList, "a,b".toList), ("path".toList, "/dev/sda".toList)]⟩] := by
    decide +kernel
  obtain ⟨stored, result, after, exited, read⟩ := @exists_exited_and_read sampleFailure
    [⟨[("disk".toList, "a,b".toList), ("path".toList, "/dev/sda".toList)]⟩] "vm".toList
    ⟨id, fun _ => .refl _⟩ rfl (by decide +kernel)
  refine ⟨_, stored, result, after, accepted, exited, read, ?_⟩
  exact (cli_report_is_readable_iff ReferenceCrates.withCsv_csv (by decide)
    Kvp.missingPool_wellFormed accepted rfl exited read).mpr (by decide)

/-- The second `vm_id` makes the stored report unreadable. -/
theorem repeatedVmId_is_not_readable :
    ∃ data stored result after, repeatedVmId.supportingData.mapM parseSupportingData = .ok data ∧
      Program.Runs (HandleStep noFaults) (repeatedVmId.dispatch sampleHost .safe data).run
        Kvp.missingPool (.ok exitOk) stored ∧
      Program.Runs (HandleStep noFaults)
        (DiagnosticReader.entries ReferenceCrates.withCsv ⟨id, fun _ => .refl _⟩).run stored
        result after ∧
      ¬ ∃ entries told, result = .ok entries ∧
        entries.filter Entry.isForReport = [.report told] ∧
        Tells (repeatedVmId.report sampleHost.nowRfc3339 "vm".toList (pairsOf data)) told := by
  have accepted : repeatedVmId.supportingData.mapM parseSupportingData =
      .ok [⟨[("vm_id".toList, "x".toList)]⟩] := by
    decide +kernel
  obtain ⟨stored, result, after, exited, read⟩ := @exists_exited_and_read repeatedVmId
    [⟨[("vm_id".toList, "x".toList)]⟩] "vm".toList ⟨id, fun _ => .refl _⟩ rfl (by decide +kernel)
  refine ⟨_, stored, result, after, accepted, exited, read, ?_⟩
  obtain ⟨nulFree, found⟩ := told_iff_parsed Kvp.missingPool_wellFormed rfl exited read
  rw [found, ReportCommand.parsed_iff ReferenceCrates.withCsv_csv (by decide)
    (isFieldName_of_pairsOf accepted) nulFree]
  decide

end AzureInit.Cli
