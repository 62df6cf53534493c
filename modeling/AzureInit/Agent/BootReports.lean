import AzureInit.Agent.BootFiles

/-! What a boot reports, and what its exit code tells. -/

set_option autoImplicit false

namespace AzureInit.Agent

open Foundation
open Foundation.Event
open AzureInit.Configuration (Config)
open Provision (HostError HostEvent)

def BootRequest.Reports : BootRequest → Prop
  | .reportReady _ _ | .reportFailure _ _ => True
  | _ => False

/-- Nothing is reported. -/
def Silent (log : List BootEvent) : Prop := ∀ event ∈ log, ¬ event.request.Reports

section Reports

variable {platform : Platform} {opts : Cli} {config : Config} {vmId : Text}
  {log first second : List BootEvent} {code : ExitCode}

theorem Silent.append (silent : Silent first) (also : Silent second) : Silent (first ++ second) :=
  fun event member => (List.mem_append.mp member).elim (silent event) (also event)

theorem PlainLog.silent (plain : PlainLog log) : Silent log := by
  intro event member
  have allowed := plain event member
  obtain ⟨request, reply⟩ := event
  cases request with
  | reportReady config vmId => exact allowed.elim
  | reportFailure report config => exact allowed.elim
  | _ => exact id

theorem silent_map_ofHost (events : List HostEvent) : Silent (events.map BootEvent.ofHost) := by
  intro event member
  obtain ⟨host, -, rfl⟩ := List.mem_map.mp member
  exact id

theorem silent_sourceLog {answer media} : Silent (sourceLog config answer media) := by
  intro event member
  simp only [sourceLog, List.mem_cons, List.not_mem_nil, or_false] at member
  rcases member with rfl | rfl | rfl <;> exact id

theorem silent_of_mark {result : Except Kvp.IoError Unit}
    (logged : Logged (markProvisioningComplete config vmId).run result log) : Silent log := by
  obtain ⟨dirs, plain, same⟩ := mark_of_logged logged
  rcases same with failed | created
  · rw [failed.1]
    exact plain.silent
  · rw [created]
    refine plain.silent.append fun event member => ?_
    rw [List.mem_singleton.mp member]
    exact id

theorem silent_of_attempt {result : Except BootError Unit}
    (attempt : Attempt platform opts config vmId result log) : Silent log := by
  cases attempt with
  | unbuilt =>
      intro event member
      rw [List.mem_singleton.mp member]
      exact id
  | unnamed => exact silent_sourceLog
  | untold => exact silent_sourceLog
  | stopped executed => exact silent_sourceLog.append (silent_map_ofHost _)
  | unmarked executed written =>
      exact (silent_sourceLog.append (silent_map_ofHost _)).append (silent_of_mark written)
  | marked executed written =>
      exact (silent_sourceLog.append (silent_map_ofHost _)).append (silent_of_mark written)

theorem silent_of_clean {logs : Bool} (logged : Logged (clean config logs) code log) :
    Silent log := by
  intro event member
  have allowed := mem_uses (uses_clean logs) logged event member
  obtain ⟨request, reply⟩ := event
  cases request with
  | readDir path => exact id
  | removeFile path => exact id
  | _ => exact allowed.elim

theorem code_of_clean {logs : Bool} (logged : Logged (clean config logs) code log) :
    code = ExitCode.success ∨ code = ExitCode.failure := by
  obtain ⟨outcome, first, rest, cleaned, continued, rfl⟩ := logged_bind_iff.mp logged
  cases outcome with
  | error error => exact .inr (logged_pure_iff.mp continued).1
  | ok value =>
      cases logs with
      | false => exact .inl (logged_pure_iff.mp continued).1
      | true =>
          obtain ⟨removed, second, last, tried, ended, rfl⟩ := logged_bind_iff.mp continued
          cases removed with
          | error error => exact .inr (logged_pure_iff.mp ended).1
          | ok value => exact .inl (logged_pure_iff.mp ended).1

theorem exitCodeOf_cases (error : BootError) :
    exitCodeOf error = ExitCode.failure ∨ exitCodeOf error = ExitCode.config := by
  unfold exitCodeOf
  split
  · exact .inr rfl
  · exact .inr rfl
  · exact .inl rfl

/-- How a boot reports: not at all, or with its last request; that the machine is ready if it
has been marked, and a failure if it has not. -/
inductive Reporting : ExitCode → List BootEvent → Prop where
  | silent {code : ExitCode} {log : List BootEvent} :
      Silent log → Unmarked log → Reporting code log
  | ready {config : Config} {vmId : Text} {before : List BootEvent} {sent : Except Error Unit} :
      Silent before →
      (⟨.createFile (markerPath config vmId) 0o600, .ok ()⟩ : BootEvent) ∈ before →
      Reporting ExitCode.success (before ++ [⟨.reportReady config vmId, sent⟩])
  | failure {code : ExitCode} {report : Text} {config : Config} {before : List BootEvent}
      {sent : Except Error Unit} :
      code = ExitCode.failure ∨ code = ExitCode.config → Silent before → Unmarked before →
      Reporting code (before ++ [⟨.reportFailure report config, sent⟩])

theorem reporting_of_main (logged : Logged (main platform opts) code log) :
    Reporting code log := by
  cases outcome_of_main logged with
  | version _ plain => exact .silent plain.silent plain.unmarked
  | @unconfigured log details vmId now sent plain _ _ =>
      rw [List.append_cons]
      have before := plain.append (plainLog_singleton .now now trivial)
      exact .failure (.inl rfl) before.silent before.unmarked
  | cleaned _ plain _ cleaned =>
      exact .silent (plain.silent.append (silent_of_clean cleaned))
        (plain.unmarked.append fun _ _ member => mem_uses (uses_clean _) cleaned _ member)
  | skipped _ plain _ _ _ => exact .silent plain.silent plain.unmarked
  | provisioned begun plain attempt =>
      refine .ready (plain.silent.append (silent_of_attempt attempt)) ?_
      obtain ⟨before, rfl⟩ := created_of_attempt attempt
      simp
  | @failed config vmId now error before log sent begun plain attempt =>
      rw [List.append_cons]
      have clock := plainLog_singleton .now now trivial
      exact .failure (exitCodeOf_cases _)
        ((plain.silent.append (silent_of_attempt attempt)).append clock.silent)
        ((plain.unmarked.append (unmarked_of_attempt attempt)).append clock.unmarked)

/-! ## Answers to reports -/

theorem BootRequest.Plain.not_reports {request : BootRequest} (plain : request.Plain) :
    ¬ request.Reports := by
  intro reports
  cases request with
  | reportReady | reportFailure => exact plain
  | _ => exact reports

theorem BootRequest.Cleans.not_reports {logs : Bool} {request : BootRequest}
    (cleans : request.Cleans config logs) : ¬ request.Reports := by
  intro reports
  cases request with
  | reportReady | reportFailure => exact cleans
  | _ => exact reports

theorem uses_onHost {permitted : BootRequest → Prop} {α : Type}
    (program : Provision.HostProgram α)
    (each : ∀ request, permitted (.host request)) : (onHost program).Uses permitted := by
  induction program with
  | done value => trivial
  | call request next ih => exact ⟨each request, ih⟩

theorem uses_sources : (sources config).run.Uses (¬ ·.Reports) := by
  refine ⟨id, fun client => ?_⟩
  cases client with
  | error printed => trivial
  | ok value => exact ⟨id, fun _ => ⟨id, fun _ => trivial⟩⟩

theorem uses_provisionInstance (provisioning : Provision.Provisioning) :
    (provisionInstance platform provisioning vmId).run.Uses (¬ ·.Reports) := by
  unfold provisionInstance
  refine usesExcept_bind ?_ fun _ => ?_
  · rw [ExceptT.run_mk, ← bind_pure_comp]
    exact (uses_onHost _ fun _ => id).bind fun _ => Program.uses_pure _
  · rw [ExceptT.run_mk, ← bind_pure_comp]
    refine Program.Uses.bind (usesExcept_bind ?_ fun _ => ⟨id, fun _ => trivial⟩)
      fun _ => Program.uses_pure _
    exact (uses_checkProvisionDir _).imp fun _ plain => plain.not_reports

theorem uses_provision : (provision platform config vmId opts).run.Uses (¬ ·.Reports) := by
  refine usesExcept_bind uses_sources fun told => ?_
  refine usesExcept_bind (Program.uses_pure _) fun username => ?_
  cases told.1 with
  | none => exact Program.uses_pure _
  | some metadata => exact uses_provisionInstance _

theorem ignores_provisionAndReport :
    (provisionAndReport platform config vmId opts).Ignores BootRequest.Reports := by
  refine (uses_provision.ignores fun _ => id).bind fun outcome => ?_
  cases outcome with
  | ok value => exact Program.ignores_call _ (Program.ignores_pure _)
  | error error =>
      exact ⟨False.elim, fun now => Program.ignores_call _ (Program.ignores_pure _)⟩

/-- Whether the service takes a report does not matter. -/
theorem ignores_main : (main platform opts).Ignores BootRequest.Reports := by
  refine ((uses_getVmId platform).ignores fun _ plain => plain.not_reports).bind fun id => ?_
  dsimp only
  split_ifs
  · exact Program.ignores_pure _
  · refine ⟨False.elim, fun loaded => ?_⟩
    cases loaded with
    | error details =>
        exact ⟨False.elim, fun now => Program.ignores_call _ (Program.ignores_pure _)⟩
    | ok config =>
        show (runCommand platform config _ opts).Ignores _
        unfold runCommand
        split
        · exact (uses_clean _).ignores fun _ cleans => cleans.not_reports
        · refine ⟨False.elim, fun marked => ?_⟩
          cases marked with
          | ok directory => exact Program.ignores_pure _
          | error error => exact ignores_provisionAndReport

/-- A boot sends one report at most, as its last request, and ends in the same way whatever
the service answers. -/
theorem one_report (logged : Logged (main platform opts) code log) :
    Reporting code log ∧ ∀ before request reply,
      log = before ++ [⟨request, reply⟩] → request.Reports →
      ∀ other, Logged (main platform opts) code (before ++ [⟨request, other⟩]) := by
  refine ⟨reporting_of_main logged, fun before request reply split reports other => ?_⟩
  rw [split] at logged
  exact logged_of_ignores ignores_main reports logged other

/-! ## The exit code of a missing user -/

def BootEvent.told? : BootEvent → Option (Config × InstanceMetadata)
  | ⟨.query config, .ok metadata⟩ => some (config, metadata)
  | _ => none

/-- What the metadata service has told. -/
def told (log : List BootEvent) : List (Config × InstanceMetadata) :=
  log.filterMap BootEvent.told?

/-- Provisioning has ended because the user was missing. -/
def UserWasMissing (platform : Platform) (opts : Cli) (log : List BootEvent) : Prop :=
  ∃ config metadata user, (config, metadata) ∈ told log ∧
    Logged ((provisioningFor opts config metadata).provision platform.regex).run
      (.error (.userMissing user)) (hostLog log)

@[simp] theorem told_append (first second : List BootEvent) :
    told (first ++ second) = told first ++ told second :=
  List.filterMap_append

@[simp] theorem told_map_ofHost (events : List HostEvent) :
    told (events.map BootEvent.ofHost) = [] := by
  simp [told, List.filterMap_map, BootEvent.ofHost, BootEvent.told?, Function.comp_def]

theorem PlainLog.told_eq (plain : PlainLog log) : told log = [] := by
  refine List.filterMap_eq_nil_iff.mpr fun event member => ?_
  obtain ⟨request, reply⟩ := event
  cases request with
  | query config => exact (plain _ member).elim
  | _ => rfl

theorem quiet_of_mark {result : Except Kvp.IoError Unit}
    (logged : Logged (markProvisioningComplete config vmId).run result log) :
    told log = [] ∧ hostLog log = [] := by
  obtain ⟨dirs, plain, same⟩ := mark_of_logged logged
  rcases same with failed | created
  · rw [failed.1]
    exact ⟨plain.told_eq, plain.hostLog_eq⟩
  · rw [created, told_append, hostLog_append, plain.told_eq, plain.hostLog_eq]
    exact ⟨rfl, rfl⟩

/-- Without metadata, no user is missed. -/
theorem not_userWasMissing (none : told log = []) : ¬ UserWasMissing platform opts log := by
  intro missing
  obtain ⟨config, metadata, user, member, -⟩ := missing
  rw [none] at member
  cases member

/-- With metadata, the end of provisioning tells. -/
theorem userWasMissing_iff_of_logged {metadata : InstanceMetadata} {ended : Except HostError Unit}
    (one : told log = [(config, metadata)])
    (ran : Logged ((provisioningFor opts config metadata).provision platform.regex).run ended
      (hostLog log)) :
    UserWasMissing platform opts log ↔ ∃ user, ended = .error (.userMissing user) := by
  constructor
  · intro missing
    obtain ⟨asked, answer, user, member, stopped⟩ := missing
    rw [one, List.mem_singleton] at member
    cases member
    exact ⟨user, ran.unique stopped⟩
  · intro ends
    obtain ⟨user, rfl⟩ := ends
    exact ⟨config, metadata, user, by rw [one]; exact List.mem_singleton_self _, ran⟩

theorem exitCodeOf_hostErrorOf_iff (error : HostError) :
    exitCodeOf (.agent (hostErrorOf platform error)) = ExitCode.config ↔
      ∃ user, error = .userMissing user := by
  cases error with
  | userMissing user => exact ⟨fun _ => ⟨user, rfl⟩, fun _ => rfl⟩
  | _ => exact ⟨nofun, fun missing => nomatch missing.choose_spec⟩

/-- What stands around an attempt does not matter. -/
theorem userWasMissing_framed_iff {before after : List BootEvent} (plain : PlainLog before)
    (noneTold : told after = []) (noneHosted : hostLog after = []) :
    UserWasMissing platform opts (before ++ log ++ after) ↔ UserWasMissing platform opts log := by
  have sameTold : told (before ++ log ++ after) = told log := by
    simp [plain.told_eq, noneTold]
  have sameHost : hostLog (before ++ log ++ after) = hostLog log := by
    simp [plain.hostLog_eq, noneHosted]
  unfold UserWasMissing
  rw [sameTold, sameHost]

theorem exitCodeOf_attempt_iff {error : BootError}
    (attempt : Attempt platform opts config vmId (.error error) log) :
    exitCodeOf error = ExitCode.config ↔ UserWasMissing platform opts log := by
  cases attempt with
  | unbuilt => exact iff_of_false nofun (not_userWasMissing rfl)
  | unnamed => exact iff_of_false nofun (not_userWasMissing rfl)
  | untold => exact iff_of_false nofun (not_userWasMissing rfl)
  | @stopped metadata media error events executed =>
      have one : told (sourceLog config (.ok metadata) media ++ events.map BootEvent.ofHost) =
          [(config, metadata)] := by
        rw [told_append, told_map_ofHost]
        rfl
      have all : hostLog (sourceLog config (.ok metadata) media ++
          events.map BootEvent.ofHost) = events := by
        rw [hostLog_append, hostLog_map_ofHost]
        rfl
      rw [exitCodeOf_hostErrorOf_iff, userWasMissing_iff_of_logged one (by rwa [all])]
      simp
  | unmarked executed written =>
      obtain ⟨none, noHost⟩ := quiet_of_mark written
      refine iff_of_false nofun ?_
      rw [userWasMissing_iff_of_logged (by rw [told_append, told_append, told_map_ofHost, none]; rfl)
        (by rwa [hostLog_append, hostLog_append, hostLog_map_ofHost, noHost, List.append_nil])]
      exact nofun

theorem not_userWasMissing_of_attempt
    (attempt : Attempt platform opts config vmId (.ok ()) log) :
    ¬ UserWasMissing platform opts log := by
  cases attempt with
  | marked executed written =>
      obtain ⟨none, noHost⟩ := quiet_of_mark written
      rw [userWasMissing_iff_of_logged (by rw [told_append, told_append, told_map_ofHost, none]; rfl)
        (by rwa [hostLog_append, hostLog_append, hostLog_map_ofHost, noHost, List.append_nil])]
      exact nofun

theorem told_of_clean {logs : Bool} (logged : Logged (clean config logs) code log) :
    told log = [] := by
  refine List.filterMap_eq_nil_iff.mpr fun event member => ?_
  have allowed := mem_uses (uses_clean logs) logged event member
  obtain ⟨request, reply⟩ := event
  cases request with
  | query config => exact allowed.elim
  | _ => rfl

/-- Only a missing user makes the exit code tell a wrong configuration. -/
theorem exit_config_iff (logged : Logged (main platform opts) code log) :
    code = ExitCode.config ↔ UserWasMissing platform opts log := by
  cases outcome_of_main logged with
  | version _ plain => exact iff_of_false nofun (not_userWasMissing plain.told_eq)
  | unconfigured plain _ _ =>
      exact iff_of_false nofun (not_userWasMissing (by rw [told_append, plain.told_eq]; rfl))
  | cleaned _ plain _ cleaned =>
      refine iff_of_false (fun config => ?_) (not_userWasMissing ?_)
      · rcases code_of_clean cleaned with rfl | rfl <;> cases config
      · rw [told_append, plain.told_eq, told_of_clean cleaned]
        rfl
  | skipped _ plain _ _ _ => exact iff_of_false nofun (not_userWasMissing plain.told_eq)
  | provisioned begun plain attempt =>
      rw [userWasMissing_framed_iff plain rfl rfl]
      exact iff_of_false nofun (not_userWasMissing_of_attempt attempt)
  | failed begun plain attempt =>
      rw [userWasMissing_framed_iff plain rfl rfl]
      exact exitCodeOf_attempt_iff attempt

end Reports

theorem sample_report :
    Reporting (sampleBoot provisionOpts (fun _ => false) []).1
      (sampleBoot provisionOpts (fun _ => false) []).2 ∧
    ∀ before request reply,
      (sampleBoot provisionOpts (fun _ => false) []).2 = before ++ [⟨request, reply⟩] →
      request.Reports → ∀ other, Logged (main referencePlatform provisionOpts)
        (sampleBoot provisionOpts (fun _ => false) []).1 (before ++ [⟨request, other⟩]) :=
  one_report (logged_sampleBoot provisionOpts _ _)

/-- The sample machine, whose user database has no entry for the user. -/
def userless (request : BootRequest) (log : List BootEvent) : request.Reply :=
  match request with
  | .host (.getUserByName _) => .error { kind := .notFound }
  | request => answering sampleMetadata (fun _ => false) [] request log

def userlessBoot : ExitCode × List BootEvent :=
  Program.run (recording userless) (main referencePlatform provisionOpts) []

theorem logged_userlessBoot :
    Logged (main referencePlatform provisionOpts) userlessBoot.1 userlessBoot.2 :=
  Program.runs_run (recorded_recording _) _ _

theorem userlessBoot_code : userlessBoot.1 = ExitCode.config := by decide +kernel

theorem sample_exit_code : userlessBoot.1 = 78 ∧
    UserWasMissing referencePlatform provisionOpts userlessBoot.2 :=
  ⟨userlessBoot_code, (exit_config_iff logged_userlessBoot).mp userlessBoot_code⟩

end AzureInit.Agent
