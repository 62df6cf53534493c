import AzureInit.Foundation.FoundedLogs
import AzureInit.Provision.HostLogs
import AzureInit.Provision.Provisioning

/-! In which order provisioning works on the host, and what has succeeded when a request
is made. -/

set_option autoImplicit false

namespace AzureInit.Provision

open Foundation
open Foundation.Event
open Foundation.Program (findOkOr)

/-! ## Stages -/

inductive Stage where
  | hostname
  | user
  | password
  | sshd
  | keys
  deriving DecidableEq, Repr

def Stage.rank : Stage → Nat
  | .hostname => 0
  | .user => 1
  | .password => 2
  | .sshd => 3
  | .keys => 4

def sshdConfigPaths : List Text :=
  ["/etc/ssh/sshd_config.d/50-azure-init.conf".toList, "/etc/ssh/sshd_config".toList]

/-- The first stage that opens and writes the file. -/
def fileStage (path : Text) : Stage :=
  if path = sudoersPath then .user
  else if sshdConfigPaths.contains path then .sshd
  else .keys

/-- The first stage that makes the request. -/
def HostRequest.stage : HostRequest → Stage
  | .output command =>
      if command.program = "hostnamectl".toList then .hostname
      else if command.program = "passwd".toList then .password
      else if command.program = "sshd".toList then .keys
      else .user
  | .spawn _ => .password
  | .writeStdin _ => .password
  | .wait => .password
  | .createFile path _ => fileStage path
  | .writeAll path _ => fileStage path
  | .metadata _ => .sshd
  | .openTruncate _ => .sshd
  | .openAppend _ => .sshd
  | .openRead _ => .sshd
  | .readToString _ => .sshd
  | .setPermissions path _ => if sshdConfigPaths.contains path then .sshd else .keys
  | .createDirAll _ _ => .keys
  | .chown _ _ => .keys
  | .getUserByName _ => .keys

def HostRequest.WritesTo (path : Text) : HostRequest → Prop
  | .createFile written _ => written = path
  | .writeAll written _ => written = path
  | _ => False

/-! ## What a stage does -/

def Succeeded (command : Command) (log : List HostEvent) : Prop :=
  ∃ output : Output, ⟨.output command, .ok output⟩ ∈ log ∧ output.status.success = true

/-- The account was looked up, and then added to its groups or created. -/
def AccountReady (user : User) (log : List HostEvent) : Prop :=
  ∃ found output : Output, output.status.success = true ∧
    [⟨.output (getentCommand user.name), .ok found⟩,
      ⟨.output (if found.status.success then usermodCommand user else useraddCommand user),
        .ok output⟩] <:+: log

/-- The password was handed over and taken, or the account was locked. -/
def PasswordReady (user : User) (log : List HostEvent) : Prop :=
  match user.password with
  | none => Succeeded (lockCommand user.name) log
  | some password => ∃ status : ExitStatus, status.success = true ∧
      passwordEvents user.name password status <:+: log

namespace Provisioning

variable (provisioning : Provisioning) (regex : RegexCrate)

def setting : Text := passwordAuthSetting provisioning.disablePasswordAuthentication

/-- The file that the stat of the directory chose was updated. -/
def SshdReady (log : List HostEvent) : Prop :=
  ∃ directory update, SshdUpdate regex (sshdConfigPathFor directory) provisioning.setting update ∧
    ⟨.metadata "/etc/ssh/sshd_config.d".toList, directory⟩ :: update <:+: log

/-- The keys were installed for the user that was looked up, at the path that the
configuration or the daemon told. -/
def KeysReady (log : List HostEvent) : Prop :=
  ∃ user path asked,
    KeysPathAsked user provisioning.config.ssh.authorizedKeysPath
      provisioning.config.ssh.querySshdConfig path asked ∧
    ⟨.getUserByName provisioning.user.name, .ok user⟩ ::
      (asked ++ keysEvents user provisioning.user.sshKeys path) <:+: log

/-- What a stage that has succeeded leaves in the log. -/
def Done : Stage → List HostEvent → Prop
  | .hostname, log => Succeeded (setHostnameCommand provisioning.hostname) log
  | .user, log =>
      AccountReady provisioning.user log ∧
        sudoersEvents provisioning.user.name sudoersPath <:+: log
  | .password, log => PasswordReady provisioning.user log
  | .sshd, log => provisioning.config.ssh.configureSshdPasswordAuthentication = true →
      provisioning.SshdReady regex log
  | .keys, log => provisioning.user.sshKeys ≠ [] → provisioning.KeysReady log

/-- What has to have succeeded before a request: all the stages in front of its own, and
the account before its rights are written down. -/
def Ground (request : HostRequest) (before : List HostEvent) : Prop :=
  (∀ stage : Stage, stage.rank < request.stage.rank → provisioning.Done regex stage before) ∧
    (request.WritesTo sudoersPath → AccountReady provisioning.user before)

end Provisioning

/-! ## Logs that grow -/

section Mono

variable {log longer : List HostEvent}

theorem Succeeded.mono {command : Command} (succeeded : Succeeded command log)
    (inside : log ⊆ longer) : Succeeded command longer := by
  obtain ⟨output, member, success⟩ := succeeded
  exact ⟨output, inside member, success⟩

theorem AccountReady.mono {user : User} (ready : AccountReady user log) (inside : log <:+: longer) :
    AccountReady user longer := by
  obtain ⟨found, output, success, within⟩ := ready
  exact ⟨found, output, success, within.trans inside⟩

theorem PasswordReady.mono {user : User} (ready : PasswordReady user log)
    (inside : log <:+: longer) : PasswordReady user longer := by
  unfold PasswordReady at *
  split at ready
  · exact ready.mono inside.subset
  · obtain ⟨status, success, within⟩ := ready
    exact ⟨status, success, within.trans inside⟩

theorem Provisioning.Done.mono {provisioning : Provisioning} {regex : RegexCrate}
    {stage : Stage} (done : provisioning.Done regex stage log) (inside : log <:+: longer) :
    provisioning.Done regex stage longer := by
  cases stage with
  | hostname => exact Succeeded.mono done inside.subset
  | user =>
      obtain ⟨ready, granted⟩ := done
      exact ⟨ready.mono inside, granted.trans inside⟩
  | password => exact PasswordReady.mono done inside
  | sshd =>
      intro configured
      obtain ⟨directory, update, updated, within⟩ := done configured
      exact ⟨directory, update, updated, within.trans inside⟩
  | keys =>
      intro given
      obtain ⟨user, path, asked, told, within⟩ := done given
      exact ⟨user, path, asked, told, within.trans inside⟩

end Mono

/-! ## The requests of a single one -/

theorem uses_tryHost {permitted : HostRequest → Prop} {request : HostRequest}
    (allowed : permitted request) : (tryHost request).run.Uses permitted := by
  unfold tryHost
  rw [ExceptT.run_mk, ← bind_pure_comp]
  exact (Program.uses_ask_iff.mpr allowed).bind fun _ => Program.uses_pure _

theorem uses_run {permitted : HostRequest → Prop} {command : Command}
    (allowed : permitted (.output command)) : (run command).run.Uses permitted := by
  refine usesExcept_bind (uses_tryHost allowed) fun output => ?_
  split <;> exact Program.uses_pure _

/-! ## What the stages leave behind -/

section Done

variable {provisioning : Provisioning} {regex : RegexCrate} {log : List HostEvent}

theorem done_of_setHostname (logged : Logged provisioning.setHostname.run (.ok ()) log) :
    provisioning.Done regex .hostname log := by
  obtain ⟨backend, -, earlier, last, set, rfl⟩ := exists_logged_of_findOkOr logged
  cases backend
  obtain ⟨output, success, rfl⟩ := logged_run_ok_iff.mp set
  exact ⟨output, by simp, success⟩

theorem accountReady_of_useradd {user : User} (logged : Logged (useradd user).run (.ok ()) log) :
    AccountReady user log := by
  obtain ⟨found, output, success, rfl⟩ := logged_useradd_ok_iff.mp logged
  exact ⟨found, output, success, List.infix_rfl⟩

theorem done_of_createUser (logged : Logged provisioning.createUser.run (.ok ()) log) :
    provisioning.Done regex .user log := by
  obtain ⟨backend, -, earlier, last, created, rfl⟩ := exists_logged_of_findOkOr logged
  cases backend
  obtain ⟨_, account, sudoers, added, granted, rfl⟩ := logged_except_bind_ok_iff.mp created
  rw [logged_addUserForPasswordlessSudo_ok_iff.mp granted]
  exact ⟨(accountReady_of_useradd added).mono (List.infix_append' _ _ _),
    ((List.suffix_append _ _).trans (List.suffix_append _ _)).isInfix⟩

theorem passwordReady_of_passwd {user : User} (logged : Logged (passwd user).run (.ok ()) log) :
    PasswordReady user log := by
  unfold passwd at logged
  unfold PasswordReady
  split at logged
  · rename_i password given
    rw [given]
    obtain ⟨-, -, status, success, rfl⟩ := logged_setUserPassword_ok_iff.mp logged
    exact ⟨status, success, List.infix_rfl⟩
  · rename_i given
    rw [given]
    obtain ⟨-, output, success, rfl⟩ := logged_lockUser_ok_iff.mp logged
    exact ⟨output, List.mem_singleton_self _, success⟩

theorem done_of_setPassword (logged : Logged provisioning.setPassword.run (.ok ()) log) :
    provisioning.Done regex .password log := by
  obtain ⟨backend, -, earlier, last, set, rfl⟩ := exists_logged_of_findOkOr logged
  cases backend
  exact (passwordReady_of_passwd set).mono (List.suffix_append _ _).isInfix

theorem done_of_updateSshConfig
    (logged : Logged (provisioning.updateSshConfig regex).run (.ok ()) log) :
    provisioning.Done regex .sshd log := by
  intro configured
  unfold Provisioning.updateSshConfig at logged
  rw [if_pos configured] at logged
  obtain ⟨path, first, second, located, updated, rfl⟩ := logged_except_bind_ok_iff.mp logged
  obtain ⟨chosen, resolved, same⟩ := logged_lift_iff.mp located
  cases same
  obtain ⟨directory, rfl, rfl⟩ := logged_getSshdConfigPath_iff.mp resolved
  obtain ⟨outcome, ran, same⟩ := logged_map_iff.mp updated
  cases outcome with
  | ok value =>
      exact ⟨directory, second, logged_updateSshdConfigAt_ok_iff.mp ran, List.infix_rfl⟩
  | error error => cases same

theorem done_of_provisionSshKeys
    (logged : Logged provisioning.provisionSshKeys.run (.ok ()) log) :
    provisioning.Done regex .keys log := by
  intro given
  unfold Provisioning.provisionSshKeys at logged
  rw [if_neg (by simpa using given), ExceptT.run_bind_lift] at logged
  obtain ⟨found, rest, continued, rfl⟩ := logged_call_iff.mp logged
  cases found with
  | error error => cases (logged_throw_iff.mp continued).1
  | ok user =>
      obtain ⟨path, asked, told, rfl⟩ := logged_provisionSsh_ok_iff.mp continued
      exact ⟨user, path, asked, told, List.infix_rfl⟩

end Done

end AzureInit.Provision
