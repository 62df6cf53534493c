import AzureInit.Agent.Attempt
import AzureInit.Foundation.FoundedLogs

/-! What a boot comes to: its exit code, its log and the one report that it sends. -/

set_option autoImplicit false

namespace AzureInit.Agent

open Foundation
open Foundation.Program (ask)
open Foundation.Event
open AzureInit.Configuration (Config)

/-! ## Requests that only look around -/

def BootRequest.Plain : BootRequest → Prop
  | .readToString _ | .metadata _ | .createDirAll _ | .setPermissions _ _ | .readDir _ | .now
  | .loadConfig _ => True
  | _ => False

/-- Nothing is provisioned, marked, removed or reported. -/
def PlainLog (log : List BootEvent) : Prop := ∀ event ∈ log, event.request.Plain

/-- No marker has been made. -/
def Unmarked (log : List BootEvent) : Prop :=
  ∀ path mode, (⟨.createFile path mode, .ok ()⟩ : BootEvent) ∉ log

section Plain

variable {log first second : List BootEvent}

theorem Unmarked.append (unmarked : Unmarked first) (also : Unmarked second) :
    Unmarked (first ++ second) := fun path mode member =>
  (List.mem_append.mp member).elim (unmarked path mode) (also path mode)

theorem PlainLog.append (plain : PlainLog first) (also : PlainLog second) :
    PlainLog (first ++ second) := fun event member =>
  (List.mem_append.mp member).elim (plain event) (also event)

theorem plainLog_singleton (request : BootRequest) (reply : request.Reply) (plain : request.Plain) :
    PlainLog [⟨request, reply⟩] :=
  fun other member => by rwa [List.mem_singleton.mp member]

theorem PlainLog.hostLog_eq (plain : PlainLog log) : hostLog log = [] := by
  refine List.filterMap_eq_nil_iff.mpr fun event member => ?_
  obtain ⟨request, reply⟩ := event
  cases request with
  | host request => exact (plain _ member).elim
  | _ => rfl

theorem PlainLog.unmarked (plain : PlainLog log) : Unmarked log :=
  fun _ _ member => plain _ member

theorem plainLog_of_logged {α : Type} {program : BootProgram α} {result : α}
    (uses : program.Uses BootRequest.Plain) (logged : Logged program result log) : PlainLog log :=
  mem_uses uses logged

theorem uses_pathExists (path : Text) : (pathExists path).Uses BootRequest.Plain :=
  ⟨trivial, fun _ => Program.uses_pure _⟩

theorem uses_isVmGen1 (sysfsEfiPath devEfiPath : Option Text) :
    (isVmGen1 sysfsEfiPath devEfiPath).Uses BootRequest.Plain := by
  refine (uses_pathExists _).bind fun found => ?_
  split_ifs
  · exact Program.uses_pure _
  · exact (uses_pathExists _).bind fun _ => Program.uses_pure _

theorem uses_getVmId (platform : Platform) : (getVmId platform).Uses BootRequest.Plain := by
  refine ⟨trivial, fun reply => ?_⟩
  cases reply with
  | error error => trivial
  | ok text =>
      show Program.Uses _ (if _ then _ else _)
      split_ifs
      · exact Program.uses_pure _
      · refine (uses_isVmGen1 none none).bind fun gen1 => ?_
        split_ifs <;> exact Program.uses_pure _

theorem uses_checkProvisionDir (config : Config) :
    (checkProvisionDir config).run.Uses BootRequest.Plain := by
  unfold checkProvisionDir
  rw [ExceptT.run_bind_lift]
  refine (uses_pathExists _).bind fun found => ?_
  split_ifs
  · refine usesExcept_bind ⟨trivial, fun _ => trivial⟩ fun _ => ?_
    rw [ExceptT.run_bind_lift]
    exact ⟨trivial, fun _ => trivial⟩
  · exact Program.uses_pure _

/-- The marker is the last thing that is made, if it comes to that. -/
theorem mark_of_logged {config : Config} {vmId : Text} {result : Except Kvp.IoError Unit}
    (logged : Logged (markProvisioningComplete config vmId).run result log) :
    ∃ dirs, PlainLog dirs ∧
      ((log = dirs ∧ result ≠ .ok ()) ∨
        log = dirs ++ [⟨.createFile (markerPath config vmId) 0o600, result⟩]) := by
  rcases logged_except_bind_iff.mp logged with checked | failed
  · obtain ⟨value, dirs, rest, checked, created, rfl⟩ := checked
    obtain rfl := logged_ask_iff.mp created
    exact ⟨dirs, plainLog_of_logged (uses_checkProvisionDir config) checked, .inr rfl⟩
  · obtain ⟨error, checked, rfl⟩ := failed
    exact ⟨log, plainLog_of_logged (uses_checkProvisionDir config) checked, .inl ⟨rfl, nofun⟩⟩

end Plain

/-! ## Outcomes -/

section Outcome

variable (platform : Platform) (opts : Cli)

/-- The firmware has told what the machine is, or nothing that could be used. -/
def Identified (id : Option Text) (log : List BootEvent) : Prop :=
  ∃ first, Logged (getVmId platform) id first ∧ first <+: log

/-- What the boot calls the machine: its identity or, as it has found none, the nil one. -/
def Named (vmId : Text) (log : List BootEvent) : Prop :=
  Identified platform (some vmId) log ∨ Identified platform none log ∧ vmId = nilVmId

/-- The boot is to provision, knows the configuration and has a name for the machine, and has
looked for the marker in vain. -/
structure Begun (config : Config) (vmId : Text) (log : List BootEvent) : Prop where
  command : opts.command = none
  named : Named platform vmId log
  loaded : (⟨.loadConfig opts.config, .ok config⟩ : BootEvent) ∈ log
  unmarked : ∃ error, (⟨.metadata (markerPath config vmId), .error error⟩ : BootEvent) ∈ log

/-- What a boot that comes to its end has come to, with its exit code and its log. -/
inductive Outcome : ExitCode → List BootEvent → Prop where
  /-- The version is printed. -/
  | version {log : List BootEvent} :
      opts.showVersion = true → PlainLog log → Outcome ExitCode.success log
  /-- The configuration cannot be loaded, which is reported. -/
  | unconfigured {log : List BootEvent} {details vmId now : Text} {sent : Except Error Unit} :
      PlainLog log → Named platform vmId log →
      (⟨.loadConfig opts.config, .error details⟩ : BootEvent) ∈ log →
      Outcome ExitCode.failure (log ++ [⟨.now, now⟩, ⟨.reportFailure
        ((Error.loadSshdConfig details).asEncodedReport platform.csvWriteRecord platform.order
          now vmId) {}, sent⟩])
  /-- Markers are removed. -/
  | cleaned {config : Config} {logs : Bool} {code : ExitCode} {before log : List BootEvent} :
      opts.command = some (.clean logs) → PlainLog before →
      (⟨.loadConfig opts.config, .ok config⟩ : BootEvent) ∈ before →
      Logged (clean config logs) code log → Outcome code (before ++ log)
  /-- The marker is there. -/
  | skipped {config : Config} {vmId : Text} {directory : Bool} {log : List BootEvent} :
      opts.command = none → PlainLog log → Named platform vmId log →
      (⟨.loadConfig opts.config, .ok config⟩ : BootEvent) ∈ log →
      (⟨.metadata (markerPath config vmId), .ok directory⟩ : BootEvent) ∈ log →
      Outcome ExitCode.success log
  /-- The machine is provisioned and marked, and reported to be ready. -/
  | provisioned {config : Config} {vmId : Text} {before log : List BootEvent}
      {sent : Except Error Unit} :
      Begun platform opts config vmId before → PlainLog before →
      Attempt platform opts config vmId (.ok ()) log →
      Outcome ExitCode.success (before ++ log ++ [⟨.reportReady config vmId, sent⟩])
  /-- The attempt fails, which is reported. -/
  | failed {config : Config} {vmId now : Text} {error : BootError} {before log : List BootEvent}
      {sent : Except Error Unit} :
      Begun platform opts config vmId before → PlainLog before →
      Attempt platform opts config vmId (.error error) log →
      Outcome (exitCodeOf error) (before ++ log ++ [⟨.now, now⟩, ⟨.reportFailure
        ((reportedError error).asEncodedReport platform.csvWriteRecord platform.order now vmId)
        config, sent⟩])

end Outcome

section Facts

variable {platform : Platform} {opts : Cli} {config : Config} {vmId : Text}
  {log : List BootEvent}

theorem Identified.append {id : Option Text} (identified : Identified platform id log)
    (more : List BootEvent) : Identified platform id (log ++ more) := by
  obtain ⟨first, read, front⟩ := identified
  exact ⟨first, read, front.trans (List.prefix_append log more)⟩

theorem Named.append (named : Named platform vmId log) (more : List BootEvent) :
    Named platform vmId (log ++ more) :=
  named.imp (·.append more) (And.imp_left (·.append more))

theorem Begun.append (begun : Begun platform opts config vmId log) (more : List BootEvent) :
    Begun platform opts config vmId (log ++ more) where
  command := begun.command
  named := begun.named.append more
  loaded := List.mem_append_left _ begun.loaded
  unmarked := begun.unmarked.imp fun _ missing => List.mem_append_left _ missing

theorem outcome_of_provisionAndReport {code : ExitCode} {before : List BootEvent}
    (logged : Logged (provisionAndReport platform config vmId opts) code log)
    (begun : Begun platform opts config vmId before) (plain : PlainLog before) :
    Outcome platform opts code (before ++ log) := by
  obtain ⟨result, first, rest, provided, reported, rfl⟩ := logged_bind_iff.mp logged
  have attempt := attempt_of_logged provided
  rw [← List.append_assoc]
  cases result with
  | ok value =>
      obtain ⟨sent, last, ended, rfl⟩ := logged_call_iff.mp reported
      obtain ⟨rfl, rfl⟩ := logged_pure_iff.mp ended
      exact .provisioned begun plain attempt
  | error error =>
      obtain ⟨now, last, encoded, rfl⟩ := logged_call_iff.mp reported
      obtain ⟨sent, last, ended, rfl⟩ := logged_call_iff.mp encoded
      obtain ⟨rfl, rfl⟩ := logged_pure_iff.mp ended
      exact .failed begun plain attempt

theorem outcome_of_runCommand {code : ExitCode} {before : List BootEvent}
    (logged : Logged (runCommand platform config vmId opts) code log) (plain : PlainLog before)
    (named : Named platform vmId before)
    (loaded : (⟨.loadConfig opts.config, .ok config⟩ : BootEvent) ∈ before) :
    Outcome platform opts code (before ++ log) := by
  unfold runCommand at logged
  cases command : opts.command with
  | some asked =>
      obtain ⟨logs⟩ := asked
      rw [command] at logged
      exact .cleaned command plain loaded logged
  | none =>
      rw [command] at logged
      obtain ⟨marked, rest, continued, rfl⟩ := logged_call_iff.mp logged
      have looked : PlainLog (before ++ [⟨.metadata (markerPath config vmId), marked⟩]) :=
        plain.append (plainLog_singleton _ _ trivial)
      cases marked with
      | ok directory =>
          obtain ⟨rfl, rfl⟩ := logged_pure_iff.mp continued
          exact .skipped command looked (named.append _) (List.mem_append_left _ loaded)
            List.mem_concat_self
      | error error =>
          have begun : Begun platform opts config vmId
              (before ++ [⟨.metadata (markerPath config vmId), .error error⟩]) :=
            ⟨command, named.append _, List.mem_append_left _ loaded, error, List.mem_concat_self⟩
          rw [List.append_cons]
          exact outcome_of_provisionAndReport continued begun looked

/-- Every boot that comes to its end has one of the outcomes. -/
theorem outcome_of_main {code : ExitCode} (logged : Logged (main platform opts) code log) :
    Outcome platform opts code log := by
  obtain ⟨id, first, rest, read, continued, rfl⟩ := logged_bind_iff.mp logged
  have plain := plainLog_of_logged (uses_getVmId platform) read
  have named : Named platform (id.getD nilVmId) first := by
    cases id with
    | none => exact .inr ⟨⟨first, read, List.prefix_rfl⟩, rfl⟩
    | some vmId => exact .inl ⟨first, read, List.prefix_rfl⟩
  dsimp only at continued
  split_ifs at continued with version
  · obtain ⟨rfl, rfl⟩ := logged_pure_iff.mp continued
    rw [List.append_nil]
    exact .version version plain
  · obtain ⟨loaded, rest, started, rfl⟩ := logged_call_iff.mp continued
    have known : PlainLog (first ++ [⟨.loadConfig opts.config, loaded⟩]) :=
      plain.append (plainLog_singleton _ _ trivial)
    cases loaded with
    | error details =>
        obtain ⟨now, last, encoded, rfl⟩ := logged_call_iff.mp started
        obtain ⟨sent, last, ended, rfl⟩ := logged_call_iff.mp encoded
        obtain ⟨rfl, rfl⟩ := logged_pure_iff.mp ended
        rw [List.append_cons]
        exact .unconfigured known (named.append _) List.mem_concat_self
    | ok config =>
        rw [List.append_cons]
        exact outcome_of_runCommand started known (named.append _) List.mem_concat_self

end Facts

end AzureInit.Agent
