import AzureInit.Provision.MediaSearch

/-! Which devices the search for the OVF environment leaves mounted. -/

set_option autoImplicit false

namespace AzureInit.Provision

open Foundation
open Foundation.Event
open Kvp (IoError)

abbrev MediaEvent : Type := Event MediaRequest.Reply

/-! ## What a log tells of the mount point -/

inductive Observation where
  | mounted
  | mountFailed
  | unmounting
  | bodyRead (body : Text)
  | other
  deriving DecidableEq, Repr

def ranToSuccess (reply : Except IoError ExitStatus) : Bool := reply.toOption.any (·.success)

def mountsOnMountPoint (command : Command) : Bool :=
  command.program == "mount".toList && command.args.getLast? == some pathMountPoint

def observe : MediaEvent → Observation
  | ⟨.output command, reply⟩ =>
      if mountsOnMountPoint command then
        if ranToSuccess reply then .mounted else .mountFailed
      else if command = umountCommand pathMountPoint then .unmounting
      else .other
  | ⟨.readToString _, .ok body⟩ => .bodyRead body
  | _ => .other

/-- An unmount is attempted before anything else is mounted and before the end. -/
def released : List Observation → Bool
  | [] => false
  | .unmounting :: _ => true
  | .mounted :: _ => false
  | .mountFailed :: _ => false
  | .bodyRead _ :: log => released log
  | .other :: log => released log

/-- The text that is read before the mount point changes. -/
def bodyRead? : List Observation → Option Text
  | [] => none
  | .bodyRead body :: _ => some body
  | .mounted :: _ => none
  | .mountFailed :: _ => none
  | .unmounting :: _ => none
  | .other :: log => bodyRead? log

/-- What follows each mount that succeeded. -/
def everyMount (holds : List Observation → Bool) : List Observation → Bool
  | [] => true
  | .mounted :: log => holds log && everyMount holds log
  | .mountFailed :: log => everyMount holds log
  | .unmounting :: log => everyMount holds log
  | .bodyRead _ :: log => everyMount holds log
  | .other :: log => everyMount holds log

def usable (fromStr : Text → Except Text OvfEnvironment) (log : List Observation) : Bool :=
  (bodyRead? log).any fun body => (parseOvfEnv fromStr body).isOk

/-- Every device whose mount succeeded has its unmount attempted in time. -/
def neverLeftMounted (log : List MediaEvent) : Bool := everyMount released (log.map observe)

/-- Every device whose mount succeeded has a file that is read and accepted. -/
def everyMountUsable (fromStr : Text → Except Text OvfEnvironment) (log : List MediaEvent) :
    Bool :=
  everyMount (usable fromStr) (log.map observe)

/-! ## Observations without a meaning -/

def Quiet (log : List Observation) : Prop := ∀ observation ∈ log, observation = .other

theorem Quiet.nil : Quiet [] := by
  intro observation member
  cases member

theorem Quiet.cons {log : List Observation} (quiet : Quiet log) : Quiet (.other :: log) := by
  intro observation member
  cases member with
  | head => rfl
  | tail _ later => exact quiet observation later

theorem Quiet.tail {observation : Observation} {log : List Observation}
    (quiet : Quiet (observation :: log)) : observation = .other ∧ Quiet log :=
  ⟨quiet observation List.mem_cons_self,
    fun later member => quiet later (List.mem_cons_of_mem observation member)⟩

section Skip

variable {quietLog : List Observation} (quiet : Quiet quietLog) (log : List Observation)

include quiet

theorem Quiet.released_append : released (quietLog ++ log) = released log := by
  induction quietLog with
  | nil => rfl
  | cons observation quietLog ih =>
      obtain ⟨rfl, others⟩ := quiet.tail
      exact ih others

theorem Quiet.bodyRead?_append : bodyRead? (quietLog ++ log) = bodyRead? log := by
  induction quietLog with
  | nil => rfl
  | cons observation quietLog ih =>
      obtain ⟨rfl, others⟩ := quiet.tail
      exact ih others

theorem Quiet.everyMount_append (holds : List Observation → Bool) :
    everyMount holds (quietLog ++ log) = everyMount holds log := by
  induction quietLog with
  | nil => rfl
  | cons observation quietLog ih =>
      obtain ⟨rfl, others⟩ := quiet.tail
      exact ih others

end Skip

/-! ## One device -/

/-- The visits of a device. -/
inductive Visit (fromStr : Text → Except Text OvfEnvironment) : List Observation → Prop where
  | unprepared {log : List Observation} : Quiet log → Visit fromStr log
  | notMounted {before : List Observation} : Quiet before →
      Visit fromStr (before ++ [.mountFailed])
  | unread {before after : List Observation} : Quiet before → Quiet after →
      Visit fromStr (before ++ .mounted :: after)
  | refused {before opened : List Observation} {body : Text} : Quiet before → Quiet opened →
      (parseOvfEnv fromStr body).isOk = false →
      Visit fromStr (before ++ .mounted :: (opened ++ [.bodyRead body]))
  | used {before opened after : List Observation} {body : Text} : Quiet before →
      Quiet opened → Quiet after → (parseOvfEnv fromStr body).isOk = true →
      Visit fromStr (before ++ .mounted :: (opened ++ .bodyRead body :: .unmounting :: after))

/-- A log that neither unmounts nor reads before it mounts. -/
structure BeginsUnmounted (log : List Observation) : Prop where
  notReleased : released log = false
  notRead : bodyRead? log = none

theorem BeginsUnmounted.nil : BeginsUnmounted [] := ⟨rfl, rfl⟩

section Visits

variable {fromStr : Text → Except Text OvfEnvironment} {visit log : List Observation}

theorem Visit.beginsUnmounted (isVisit : Visit fromStr visit) (later : BeginsUnmounted log) :
    BeginsUnmounted (visit ++ log) := by
  cases isVisit with
  | unprepared quiet =>
      constructor
      · rw [quiet.released_append]
        exact later.notReleased
      · rw [quiet.bodyRead?_append]
        exact later.notRead
  | notMounted quiet | unread quiet _ | refused quiet _ _ | used quiet _ _ _ =>
      constructor
      · rw [List.append_assoc, quiet.released_append]
        rfl
      · rw [List.append_assoc, quiet.bodyRead?_append]
        rfl

/-- A visit gives the mount point back where it is used, and nothing behind it does. -/
theorem Visit.everyMount_released (isVisit : Visit fromStr visit)
    (later : BeginsUnmounted log)
    (same : everyMount released log = everyMount (usable fromStr) log) :
    everyMount released (visit ++ log) = everyMount (usable fromStr) (visit ++ log) := by
  cases isVisit with
  | unprepared quiet =>
      rw [quiet.everyMount_append, quiet.everyMount_append]
      exact same
  | notMounted quiet =>
      rw [List.append_assoc, quiet.everyMount_append, quiet.everyMount_append]
      exact same
  | unread quiet quietAfter =>
      rw [List.append_assoc, quiet.everyMount_append, quiet.everyMount_append]
      simp only [List.cons_append, everyMount, usable, quietAfter.released_append,
        quietAfter.bodyRead?_append, later.notReleased, later.notRead, Option.any_none,
        Bool.false_and]
  | refused quiet opened isRefused =>
      rw [List.append_assoc, quiet.everyMount_append, quiet.everyMount_append]
      simp only [List.cons_append, List.append_assoc, everyMount, usable,
        opened.released_append, opened.bodyRead?_append, released, bodyRead?,
        List.nil_append, later.notReleased, Option.any_some, isRefused, Bool.false_and]
  | used quiet opened quietAfter accepted =>
      rw [List.append_assoc, quiet.everyMount_append, quiet.everyMount_append]
      simp only [List.cons_append, List.append_assoc, everyMount, usable,
        opened.released_append, opened.bodyRead?_append, opened.everyMount_append,
        quietAfter.everyMount_append, released, bodyRead?, Option.any_some, accepted,
        Bool.true_and]
      exact same

end Visits

/-! ## The logs of the operations -/

theorem logged_perform_iff {request : MediaRequest} {result : Except MediaError request.Value}
    {log : List MediaEvent} :
    Logged (perform request).run result log ↔
      ∃ reply : request.Reply, log = [⟨request, reply⟩] ∧ result = reply.mapError .io := by
  show Logged (Except.mapError MediaError.io <$> Program.ask request) result log ↔ _
  simp only [logged_map_iff, logged_ask_iff]

theorem logged_runCommand {command : Command} {result : Except MediaError Unit}
    {log : List MediaEvent} (executed : Logged (runCommand command).run result log) :
    ∃ reply, log = [⟨.output command, reply⟩] ∧ result.isOk = ranToSuccess reply := by
  unfold runCommand at executed
  cases logged_except_bind_iff.mp executed with
  | inl succeeded =>
      obtain ⟨status, first, second, performed, checked, rfl⟩ := succeeded
      obtain ⟨reply, rfl, replied⟩ := logged_perform_iff.mp performed
      cases reply with
      | error error => cases replied
      | ok given =>
          cases replied
          refine ⟨.ok status, ?_, ?_⟩
          all_goals
            cases success : status.success with
            | true =>
                simp only [success, Bool.not_true, Bool.false_eq_true, ↓reduceIte] at checked
                obtain ⟨rfl, rfl⟩ := logged_except_pure_iff.mp checked
                simp [ranToSuccess, Except.toOption, success, Except.isOk, Except.toBool]
            | false =>
                simp only [success, Bool.not_false, ↓reduceIte] at checked
                obtain ⟨rfl, rfl⟩ := logged_throw_iff.mp checked
                simp [ranToSuccess, Except.toOption, success, Except.isOk, Except.toBool]
  | inr failed =>
      obtain ⟨error, performed, rfl⟩ := failed
      obtain ⟨reply, rfl, replied⟩ := logged_perform_iff.mp performed
      cases reply with
      | error error => exact ⟨.error error, rfl, rfl⟩
      | ok given => cases replied

/-- A request that tells nothing of the mount point fails, or the program goes on. -/
theorem logged_quiet_bind {α : Type} {request : MediaRequest}
    (tellsNothing : ∀ reply, observe ⟨request, reply⟩ = .other)
    {continuation : request.Value → MediaIo α} {result : Except MediaError α}
    {log : List MediaEvent} (executed : Logged (perform request >>= continuation).run result log) :
    (∃ value rest, Logged (continuation value).run result rest ∧
      log.map observe = .other :: rest.map observe) ∨
    (∃ error, result = .error error ∧ Quiet (log.map observe)) := by
  cases logged_except_bind_iff.mp executed with
  | inl succeeded =>
      obtain ⟨value, first, second, performed, continued, rfl⟩ := succeeded
      obtain ⟨reply, rfl, -⟩ := logged_perform_iff.mp performed
      exact .inl ⟨value, second, continued, by simp [tellsNothing]⟩
  | inr failed =>
      obtain ⟨error, performed, rfl⟩ := failed
      obtain ⟨reply, rfl, -⟩ := logged_perform_iff.mp performed
      refine .inr ⟨error, rfl, ?_⟩
      rw [List.map_singleton, tellsNothing]
      exact Quiet.nil.cons

/-- What a mount tells, with its result. -/
inductive MountLog (media : Media .unmounted) :
    Except MediaError (Media .mounted) → List Observation → Prop where
  | unprepared {error : MediaError} {log : List Observation} : Quiet log →
      MountLog media (.error error) log
  | failed {error : MediaError} {before : List Observation} : Quiet before →
      MountLog media (.error error) (before ++ [.mountFailed])
  | mounted {before : List Observation} : Quiet before →
      MountLog media (.ok { devicePath := media.devicePath, mountPath := media.mountPath })
        (before ++ [.mounted])

theorem MountLog.cons {media : Media .unmounted} {result : Except MediaError (Media .mounted)}
    {log : List Observation} (mountLog : MountLog media result log) :
    MountLog media result (.other :: log) := by
  cases mountLog with
  | unprepared quiet => exact .unprepared quiet.cons
  | failed quiet => exact .failed quiet.cons
  | mounted quiet => exact .mounted quiet.cons

private theorem observe_mount {media : Media .unmounted}
    (onMountPoint : media.mountPath = pathMountPoint) (reply : Except IoError ExitStatus) :
    observe ⟨.output (mountCommand media.devicePath media.mountPath), reply⟩ =
      if ranToSuccess reply then .mounted else .mountFailed := by
  have mounts : mountsOnMountPoint (mountCommand media.devicePath media.mountPath) = true := by
    rw [onMountPoint]
    simp [mountsOnMountPoint, mountCommand]
  simp [observe, mounts]

private theorem logged_mountCommand {media : Media .unmounted}
    (onMountPoint : media.mountPath = pathMountPoint)
    {result : Except MediaError (Media .mounted)} {log : List MediaEvent}
    (executed : Logged (do
      runCommand (mountCommand media.devicePath media.mountPath)
      pure { devicePath := media.devicePath, mountPath := media.mountPath } :
        MediaIo (Media .mounted)).run result log) :
    MountLog media result (log.map observe) := by
  cases logged_except_bind_iff.mp executed with
  | inl succeeded =>
      obtain ⟨_, first, second, ran, returned, rfl⟩ := succeeded
      obtain ⟨reply, rfl, success⟩ := logged_runCommand ran
      obtain ⟨rfl, rfl⟩ := logged_except_pure_iff.mp returned
      have told : observe ⟨.output (mountCommand media.devicePath media.mountPath), reply⟩ =
          .mounted := by
        rw [observe_mount onMountPoint, ← success]
        rfl
      rw [List.append_nil, List.map_singleton, told]
      exact MountLog.mounted Quiet.nil
  | inr failed =>
      obtain ⟨error, ran, rfl⟩ := failed
      obtain ⟨reply, rfl, success⟩ := logged_runCommand ran
      have told : observe ⟨.output (mountCommand media.devicePath media.mountPath), reply⟩ =
          .mountFailed := by
        rw [observe_mount onMountPoint, ← success]
        rfl
      rw [List.map_singleton, told]
      exact MountLog.failed Quiet.nil

theorem logged_mount {media : Media .unmounted}
    (onMountPoint : media.mountPath = pathMountPoint)
    {result : Except MediaError (Media .mounted)} {log : List MediaEvent}
    (executed : Logged media.mount.run result log) : MountLog media result (log.map observe) := by
  unfold Media.mount at executed
  cases logged_quiet_bind (fun _ => rfl) executed with
  | inr failed =>
      obtain ⟨error, rfl, quiet⟩ := failed
      exact .unprepared quiet
  | inl created =>
      obtain ⟨_, log, executed, told⟩ := created
      rw [told]
      apply MountLog.cons
      cases logged_quiet_bind (fun _ => rfl) executed with
      | inr failed =>
          obtain ⟨error, rfl, quiet⟩ := failed
          exact .unprepared quiet
      | inl examined =>
          obtain ⟨_, log, executed, told⟩ := examined
          rw [told]
          apply MountLog.cons
          cases logged_quiet_bind (fun _ => rfl) executed with
          | inr failed =>
              obtain ⟨error, rfl, quiet⟩ := failed
              exact .unprepared quiet
          | inl permitted =>
              obtain ⟨_, log, executed, told⟩ := permitted
              rw [told]
              apply MountLog.cons
              exact logged_mountCommand onMountPoint executed

theorem logged_readOvfEnvToString {media : Media .mounted} {result : Except MediaError Text}
    {log : List MediaEvent} (executed : Logged media.readOvfEnvToString.run result log) :
    (∃ opened body, Quiet opened ∧ result = .ok body ∧
      log.map observe = opened ++ [.bodyRead body]) ∨
    (∃ error, result = .error error ∧ Quiet (log.map observe)) := by
  unfold Media.readOvfEnvToString at executed
  cases logged_quiet_bind (fun _ => rfl) executed with
  | inr failed => exact .inr failed
  | inl opened =>
      obtain ⟨_, log, executed, told⟩ := opened
      obtain ⟨reply, rfl, rfl⟩ := logged_perform_iff.mp executed
      rw [told]
      cases reply with
      | error error => exact .inr ⟨.io error, rfl, Quiet.nil.cons.cons⟩
      | ok body => exact .inl ⟨[.other], body, Quiet.nil.cons, rfl, rfl⟩

private theorem observe_umount (reply : Except IoError ExitStatus) :
    observe ⟨.output (umountCommand pathMountPoint), reply⟩ = .unmounting := by
  have noMount : mountsOnMountPoint (umountCommand pathMountPoint) = false := by
    simp [mountsOnMountPoint, umountCommand]
  simp [observe, noMount]

private theorem observe_eject (devicePath : Text) (reply : Except IoError ExitStatus) :
    observe ⟨.output (ejectCommand devicePath), reply⟩ = .other := by
  have noMount : mountsOnMountPoint (ejectCommand devicePath) = false := by
    simp [mountsOnMountPoint, ejectCommand]
  have noUmount : ejectCommand devicePath ≠ umountCommand pathMountPoint := by
    simp [ejectCommand, umountCommand]
  simp [observe, noMount, noUmount]

/-- An unmount is attempted, and nothing that follows touches the mount point. -/
theorem logged_unmount {media : Media .mounted} (onMountPoint : media.mountPath = pathMountPoint)
    {result : Except MediaError Unit} {log : List MediaEvent}
    (executed : Logged media.unmount.run result log) :
    ∃ after, Quiet after ∧ log.map observe = .unmounting :: after := by
  unfold Media.unmount at executed
  rw [onMountPoint] at executed
  cases logged_except_bind_iff.mp executed with
  | inl succeeded =>
      obtain ⟨_, first, second, unmounted, ejected, rfl⟩ := succeeded
      obtain ⟨reply, rfl, -⟩ := logged_runCommand unmounted
      obtain ⟨ejectReply, rfl, -⟩ := logged_runCommand ejected
      refine ⟨[.other], Quiet.nil.cons, ?_⟩
      simp [observe_umount, observe_eject]
  | inr failed =>
      obtain ⟨error, unmounted, rfl⟩ := failed
      obtain ⟨reply, rfl, -⟩ := logged_runCommand unmounted
      exact ⟨[], Quiet.nil, by simp [observe_umount]⟩

private theorem logged_unmountAfter {media : Media .mounted}
    (onMountPoint : media.mountPath = pathMountPoint) {environment : OvfEnvironment}
    {result : Except MediaError OvfEnvironment} {log : List MediaEvent}
    (executed : Logged (do
      media.unmount
      return environment : MediaIo OvfEnvironment).run result log) :
    ∃ after, Quiet after ∧ log.map observe = .unmounting :: after := by
  cases logged_except_bind_iff.mp executed with
  | inl succeeded =>
      obtain ⟨_, first, second, unmounted, returned, rfl⟩ := succeeded
      obtain ⟨-, rfl⟩ := logged_except_pure_iff.mp returned
      rw [List.append_nil]
      exact logged_unmount onMountPoint unmounted
  | inr failed =>
      obtain ⟨error, unmounted, -⟩ := failed
      exact logged_unmount onMountPoint unmounted

section Search

variable {fromStr : Text → Except Text OvfEnvironment}

/-- What is done with media that are mounted. -/
private theorem logged_mounted {media : Media .mounted}
    (onMountPoint : media.mountPath = pathMountPoint)
    {result : Except MediaError OvfEnvironment} {before : List Observation}
    {log : List MediaEvent} (quiet : Quiet before)
    (executed : Logged (do
      let ovfBody ← media.readOvfEnvToString
      let environment ← ExceptT.mk (pure (parseOvfEnv fromStr ovfBody))
      media.unmount
      return environment : MediaIo OvfEnvironment).run result log) :
    Visit fromStr (before ++ .mounted :: log.map observe) := by
  cases logged_except_bind_iff.mp executed with
  | inr failed =>
      obtain ⟨error, notRead, rfl⟩ := failed
      cases logged_readOvfEnvToString notRead with
      | inl read =>
          obtain ⟨_, body, -, same, -⟩ := read
          cases same
      | inr failed =>
          obtain ⟨_, -, quietAfter⟩ := failed
          exact .unread quiet quietAfter
  | inl succeeded =>
      obtain ⟨body, first, second, wasRead, parsed, rfl⟩ := succeeded
      cases logged_readOvfEnvToString wasRead with
      | inr failed =>
          obtain ⟨_, same, -⟩ := failed
          cases same
      | inl read =>
          obtain ⟨opened, _, quietOpened, same, told⟩ := read
          cases same
          rw [List.map_append, told]
          cases logged_except_bind_iff.mp parsed with
          | inr refused =>
              obtain ⟨error, notParsed, rfl⟩ := refused
              obtain ⟨isError, rfl⟩ := logged_pure_iff.mp notParsed
              rw [List.map_nil, List.append_nil]
              exact .refused quiet quietOpened (by rw [← isError]; rfl)
          | inl accepted =>
              obtain ⟨environment, third, fourth, isParsed, unmounted, rfl⟩ := accepted
              obtain ⟨isOk, rfl⟩ := logged_pure_iff.mp isParsed
              have accepts : (parseOvfEnv fromStr body).isOk = true := by
                rw [← isOk]
                rfl
              obtain ⟨after, quietAfter, told⟩ := logged_unmountAfter onMountPoint unmounted
              rw [List.nil_append, told, List.append_assoc]
              exact .used quiet quietOpened quietAfter accepts

theorem logged_mountParseOvfEnv {dev : Text} {result : Except MediaError OvfEnvironment}
    {log : List MediaEvent} (executed : Logged (mountParseOvfEnv fromStr dev).run result log) :
    Visit fromStr (log.map observe) := by
  unfold mountParseOvfEnv orchestrateOvfEnv at executed
  cases logged_except_bind_iff.mp executed with
  | inl succeeded =>
      obtain ⟨media, first, second, isMounted, continued, rfl⟩ := succeeded
      rw [List.map_append]
      generalize told : first.map observe = observations
      have mountLog := logged_mount rfl isMounted
      rw [told] at mountLog
      cases mountLog with
      | mounted quiet =>
          rw [List.append_assoc]
          exact logged_mounted rfl quiet continued
  | inr failed =>
      obtain ⟨error, notMounted, rfl⟩ := failed
      have mountLog := logged_mount rfl notMounted
      generalize log.map observe = observations at mountLog ⊢
      cases mountLog with
      | unprepared quiet => exact .unprepared quiet
      | failed quiet => exact .notMounted quiet

theorem logged_getMountDevice {path : Option Text} {result : Except MediaError (List Text)}
    {log : List MediaEvent} (executed : Logged (getMountDevice path).run result log) :
    Quiet (log.map observe) := by
  unfold getMountDevice at executed
  cases logged_quiet_bind (fun _ => rfl) executed with
  | inr failed =>
      obtain ⟨_, -, quiet⟩ := failed
      exact quiet
  | inl listed =>
      obtain ⟨_, rest, returned, told⟩ := listed
      obtain ⟨-, rfl⟩ := logged_except_pure_iff.mp returned
      rw [told]
      exact Quiet.nil.cons

/-- Over all the visits the devices that are released are those that can be used. -/
private theorem tried_released {candidates : List Candidate} {before after : List MediaEvent}
    (tried : Tried (fun request before reply after =>
      Program.Runs Recorded (request.perform fromStr) before reply after)
      candidates before after) :
    ∃ log, after = before ++ log ∧ BeginsUnmounted (log.map observe) ∧
      everyMount released (log.map observe) = everyMount (usable fromStr) (log.map observe) := by
  induction tried with
  | nil => exact ⟨[], by simp, BeginsUnmounted.nil, rfl⟩
  | cons stepped _ ih =>
      obtain ⟨rest, rfl, later, same⟩ := ih
      obtain ⟨visit, rfl, visited⟩ := runs_recorded_iff.mp stepped
      have isVisit := logged_mountParseOvfEnv visited
      refine ⟨visit ++ rest, List.append_assoc _ _ _, ?_, ?_⟩
      · rw [List.map_append]
        exact isVisit.beginsUnmounted later
      · rw [List.map_append]
        exact isVisit.everyMount_released later same

/-- No device is left mounted if and only if each device that is mounted has a file that is
read and accepted. -/
theorem media_released_iff {result : Except AnyhowError OvfEnvironment} {log : List MediaEvent}
    (executed : Logged (getEnvironmentOnMedia fromStr) result log) :
    neverLeftMounted log = true ↔ everyMountUsable fromStr log = true := by
  unfold neverLeftMounted everyMountUsable
  cases runs_getEnvironmentOnMedia executed with
  | inl failed =>
      obtain ⟨error, listed, -⟩ := failed
      have quiet := logged_getMountDevice listed
      rw [← List.append_nil (log.map observe), quiet.everyMount_append, quiet.everyMount_append]
      rfl
  | inr searched =>
      obtain ⟨candidates, middle, listed, tried, -⟩ := searched
      obtain ⟨rest, rfl, -, same⟩ := tried_released tried
      have quiet := logged_getMountDevice listed
      rw [List.map_append, quiet.everyMount_append, quiet.everyMount_append, same]

end Search

/-! ## A search with one device -/

def ovfBody : Text :=
  ("<Environment xmlns=\"http://schemas.dmtf.org/ovf/environment/1\" " ++
    "xmlns:wa=\"http://schemas.microsoft.com/windowsazure\">" ++
    "<wa:ProvisioningSection><wa:Version>1.0</wa:Version><LinuxProvisioningConfigurationSet>" ++
    "<UserName>u</UserName><UserPassword></UserPassword><HostName>vm</HostName>" ++
    "</LinuxProvisioningConfigurationSet></wa:ProvisioningSection>" ++
    "<wa:PlatformSettingsSection><wa:Version>1.0</wa:Version><PlatformSettings>" ++
    "<PreprovisionedVm>false</PreprovisionedVm>" ++
    "<PreprovisionedVmType>None</PreprovisionedVmType>" ++
    "</PlatformSettings></wa:PlatformSettingsSection></Environment>").toList

/-- What the deserializer makes of the one body. -/
def ovfBodyFromStr (_body : Text) : Except Text OvfEnvironment := .ok (environmentOf ['u'])

/-- A device that can be mounted and unmounted, with a file or without one. -/
def oneDevice (file : Except IoError Text) :
    (request : MediaRequest) → List MediaEvent → request.Reply
  | .getEntries _, _ => .ok [{ fsSpec := "/dev/sr0".toList, vfsType := "iso9660".toList }]
  | .createDirAll _, _ => .ok ()
  | .metadata _, _ => .ok 0o755
  | .setPermissions _ _, _ => .ok ()
  | .output _, _ => .ok { code := 0 }
  | .openFile _, _ => file.map fun _ => ()
  | .readToString _, _ => file

def oneDeviceLog (fromStr : Text → Except Text OvfEnvironment) (file : Except IoError Text) :
    List MediaEvent :=
  ((getEnvironmentOnMedia fromStr).run (recording (oneDevice file)) []).2

theorem logged_oneDevice (fromStr : Text → Except Text OvfEnvironment)
    (file : Except IoError Text) :
    Logged (getEnvironmentOnMedia fromStr)
      ((getEnvironmentOnMedia fromStr).run (recording (oneDevice file)) []).1
      (oneDeviceLog fromStr file) :=
  Program.runs_run (recorded_recording (oneDevice file)) _ _

theorem media_released_oneDevice :
    neverLeftMounted (oneDeviceLog ovfBodyFromStr (.ok ovfBody)) = true :=
  (media_released_iff (logged_oneDevice ovfBodyFromStr (.ok ovfBody))).mpr (by decide +kernel)

/-- A device without the file stays mounted. -/
theorem device_without_file_stays_mounted :
    ¬ ∀ (fromStr : Text → Except Text OvfEnvironment) (result : Except AnyhowError OvfEnvironment)
      (log : List MediaEvent), Logged (getEnvironmentOnMedia fromStr) result log →
      neverLeftMounted log = true := by
  intro released
  have leftMounted :
      neverLeftMounted (oneDeviceLog ovfBodyFromStr (.error { kind := .notFound })) = false := by
    decide +kernel
  have isReleased :=
    released _ _ _ (logged_oneDevice ovfBodyFromStr (.error { kind := .notFound }))
  exact Bool.noConfusion (isReleased.symm.trans leftMounted)

end AzureInit.Provision
