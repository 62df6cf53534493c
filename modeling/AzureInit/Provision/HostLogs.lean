import AzureInit.Foundation.ProgramRefinement
import AzureInit.Provision.SshKeys

/-! The logs of the parts of provisioning: which requests stand in them, and with which
answers, when a part succeeds. -/

set_option autoImplicit false

namespace AzureInit.Provision

open Foundation
open Foundation.Event

/-! ## Single requests -/

section Requests

variable {log : List HostEvent}

@[simp] theorem logged_tryHost_ok_iff {request : HostRequest} {value : request.Value} :
    Logged (tryHost request).run (.ok value) log ↔ log = [⟨request, .ok value⟩] := by
  unfold tryHost
  rw [ExceptT.run_mk, logged_map_iff]
  constructor
  · intro asked
    obtain ⟨reply, logged, same⟩ := asked
    cases reply with
    | ok given =>
        cases same
        exact logged_ask_iff.mp logged
    | error error => cases same
  · rintro rfl
    exact ⟨.ok value, logged_ask_iff.mpr rfl, rfl⟩

/-- A request whose success is gone on from. -/
theorem logged_tryHost_bind_ok_iff {α : Type} {request : HostRequest} {result : α}
    {continuation : request.Value → HostIo α} :
    Logged (tryHost request >>= continuation).run (.ok result) log ↔
      ∃ value rest, log = ⟨request, .ok value⟩ :: rest ∧
        Logged (continuation value).run (.ok result) rest :=
  logged_single_bind_ok_iff logged_tryHost_ok_iff

/-- A request that is passed on as it is answered. -/
@[simp] theorem logged_mk_ask_iff {request : HostRequest} {reply : request.Reply} :
    Logged (ExceptT.mk (Program.ask request)).run reply log ↔ log = [⟨request, reply⟩] :=
  logged_ask_iff

theorem logged_mk_ask_bind_ok_iff {α : Type} {request : HostRequest} {result : α}
    {continuation : request.Value → ExceptT Kvp.IoError HostProgram α} :
    Logged (ExceptT.mk (Program.ask request) >>= continuation).run (.ok result) log ↔
      ∃ value rest, log = ⟨request, .ok value⟩ :: rest ∧
        Logged (continuation value).run (.ok result) rest :=
  logged_single_bind_ok_iff logged_mk_ask_iff

@[simp] theorem logged_chown_ok_iff {path : Text} {owner : Owner} :
    Logged (chown path owner).run (.ok ()) log ↔ log = [⟨.chown path owner, .ok ()⟩] := by
  unfold chown
  rw [ExceptT.run_mk, logged_map_iff]
  constructor
  · intro asked
    obtain ⟨reply, logged, same⟩ := asked
    cases reply with
    | ok given => exact logged_ask_iff.mp logged
    | error error => cases same
  · rintro rfl
    exact ⟨.ok (), logged_ask_iff.mpr rfl, rfl⟩

theorem logged_chown_bind_ok_iff {α : Type} {path : Text} {owner : Owner} {result : α}
    {continuation : Unit → HostIo α} :
    Logged (chown path owner >>= continuation).run (.ok result) log ↔
      ∃ value rest, log = ⟨.chown path owner, .ok ()⟩ :: rest ∧
        Logged (continuation value).run (.ok result) rest :=
  logged_single_bind_ok_iff logged_chown_ok_iff

theorem logged_run_ok_iff {command : Command} :
    Logged (run command).run (.ok ()) log ↔
      ∃ output : Output, output.status.success = true ∧
        log = [⟨.output command, .ok output⟩] := by
  unfold run
  rw [logged_tryHost_bind_ok_iff]
  constructor
  · intro split
    obtain ⟨output, rest, rfl, checked⟩ := split
    cases success : output.status.success with
    | true =>
        simp [success] at checked
        exact ⟨output, success, by rw [checked]⟩
    | false => simp [success] at checked
  · intro ran
    obtain ⟨output, success, rfl⟩ := ran
    exact ⟨output, [], rfl, by simp [success]⟩

end Requests

/-! ## The account and its password -/

section Accounts

variable {log : List HostEvent}

/-- The account is looked up, and is then added to its groups or created. -/
theorem logged_useradd_ok_iff {user : User} :
    Logged (useradd user).run (.ok ()) log ↔
      ∃ found output : Output, output.status.success = true ∧
        log = [⟨.output (getentCommand user.name), .ok found⟩,
          ⟨.output (if found.status.success then usermodCommand user else useraddCommand user),
            .ok output⟩] := by
  unfold useradd userExists
  rw [bind_assoc, logged_tryHost_bind_ok_iff]
  constructor
  · intro split
    obtain ⟨found, rest, rfl, ran⟩ := split
    rw [pure_bind] at ran
    cases existing : found.status.success with
    | true =>
        rw [existing, if_pos rfl] at ran
        obtain ⟨output, success, rfl⟩ := logged_run_ok_iff.mp ran
        exact ⟨found, output, success, by rw [existing, if_pos rfl]⟩
    | false =>
        rw [existing, if_neg (by decide)] at ran
        obtain ⟨output, success, rfl⟩ := logged_run_ok_iff.mp ran
        exact ⟨found, output, success, by rw [existing, if_neg (by decide)]⟩
  · intro ran
    obtain ⟨found, output, success, rfl⟩ := ran
    refine ⟨found, _, rfl, ?_⟩
    rw [pure_bind]
    cases existing : found.status.success with
    | true =>
        rw [if_pos rfl]
        exact logged_run_ok_iff.mpr ⟨output, success, by rw [if_pos rfl]⟩
    | false =>
        rw [if_neg (by decide)]
        exact logged_run_ok_iff.mpr ⟨output, success, by rw [if_neg (by decide)]⟩

/-- The rights of the account, in a file of root's alone. -/
def sudoersEvents (username path : Text) : List HostEvent :=
  [⟨.createFile path 0o600, .ok ()⟩, ⟨.writeAll path username, .ok ()⟩,
    ⟨.writeAll path sudoersRule, .ok ()⟩]

theorem logged_addUserForPasswordlessSudo_ok_iff {username path : Text} :
    Logged (addUserForPasswordlessSudo username path).run (.ok ()) log ↔
      log = sudoersEvents username path := by
  constructor
  · intro logged
    obtain ⟨_, _, rfl, opened⟩ := logged_tryHost_bind_ok_iff.mp logged
    obtain ⟨_, _, rfl, named⟩ := logged_tryHost_bind_ok_iff.mp opened
    rw [logged_tryHost_ok_iff.mp named]
    rfl
  · rintro rfl
    refine logged_tryHost_bind_ok_iff.mpr ⟨(), _, rfl, ?_⟩
    exact logged_tryHost_bind_ok_iff.mpr ⟨(), _, rfl, logged_tryHost_ok_iff.mpr rfl⟩

/-- The password is handed over and taken. -/
def passwordEvents (username password : Text) (status : ExitStatus) : List HostEvent :=
  [⟨.spawn chpasswdCommand, .ok ()⟩, ⟨.writeStdin (username ++ ':' :: password), .ok ()⟩,
    ⟨.wait, .ok status⟩]

theorem logged_setUserPassword_ok_iff {username password : Text} :
    Logged (setUserPassword username password).run (.ok ()) log ↔
      username ≠ [] ∧ password ≠ [] ∧ ∃ status : ExitStatus, status.success = true ∧
        log = passwordEvents username password status := by
  unfold setUserPassword
  split_ifs with nameless wordless
  · simp [List.isEmpty_iff.mp nameless, emptyUsername]
  · simp [List.isEmpty_iff.mp wordless, emptyPassword]
  · have named : username ≠ [] := fun empty => nameless (by rw [empty]; rfl)
    have given : password ≠ [] := fun empty => wordless (by rw [empty]; rfl)
    simp only [ne_eq, named, given, not_false_eq_true, true_and]
    constructor
    · intro logged
      obtain ⟨_, _, rfl, spawned⟩ := logged_tryHost_bind_ok_iff.mp logged
      obtain ⟨_, _, rfl, handed⟩ := logged_tryHost_bind_ok_iff.mp spawned
      obtain ⟨status, _, rfl, checked⟩ := logged_tryHost_bind_ok_iff.mp handed
      change ExitStatus at status
      cases success : status.success with
      | true =>
          simp [success] at checked
          exact ⟨status, success, by rw [checked]; rfl⟩
      | false => simp [success] at checked
    · intro taken
      obtain ⟨status, success, rfl⟩ := taken
      refine logged_tryHost_bind_ok_iff.mpr ⟨(), _, rfl, ?_⟩
      refine logged_tryHost_bind_ok_iff.mpr ⟨(), _, rfl, ?_⟩
      exact logged_tryHost_bind_ok_iff.mpr ⟨status, [], rfl, by simp [success]⟩

theorem logged_lockUser_ok_iff {username : Text} :
    Logged (lockUser username).run (.ok ()) log ↔
      username ≠ [] ∧ ∃ output : Output, output.status.success = true ∧
        log = [⟨.output (lockCommand username), .ok output⟩] := by
  unfold lockUser
  cases username with
  | nil => simp [emptyUsername]
  | cons first username => simp [logged_run_ok_iff]

end Accounts

/-! ## The configuration of the SSH daemon -/

section Sshd

variable {log : List HostEvent}

/-- The file of the configuration, as the stat of the directory tells it. -/
def sshdConfigPathFor (directory : Except Kvp.IoError Bool) : Text :=
  if directory.toOption == some true then "/etc/ssh/sshd_config.d/50-azure-init.conf".toList
  else "/etc/ssh/sshd_config".toList

theorem logged_getSshdConfigPath_iff {path : Text} :
    Logged getSshdConfigPath path log ↔
      ∃ directory, path = sshdConfigPathFor directory ∧
        log = [⟨.metadata "/etc/ssh/sshd_config.d".toList, directory⟩] := by
  have chosen : getSshdConfigPath =
      sshdConfigPathFor <$> Program.ask (HostRequest.metadata "/etc/ssh/sshd_config.d".toList) := by
    unfold getSshdConfigPath resolveSshdConfigPath isDir sshdConfigPathFor
    rw [bind_assoc, ← bind_pure_comp]
    congr 1
    funext directory
    rw [pure_bind]
    split_ifs <;> rfl
  rw [chosen, logged_map_iff]
  constructor
  · intro asked
    obtain ⟨directory, logged, rfl⟩ := asked
    exact ⟨directory, rfl, logged_ask_iff.mp logged⟩
  · intro asked
    obtain ⟨directory, rfl, rfl⟩ := asked
    exact ⟨directory, logged_ask_iff.mpr rfl, rfl⟩

/-- An update of the file: a missing one is created for root alone, and of one that is there
the text that was read is rewritten or added to. -/
inductive SshdUpdate (regex : RegexCrate) (path setting : Text) : List HostEvent → Prop where
  | created (error : Kvp.IoError) : SshdUpdate regex path setting
      [⟨.metadata path, .error error⟩, ⟨.createFile path newFileMode, .ok ()⟩,
        ⟨.setPermissions path 0o600, .ok ()⟩,
        ⟨.writeAll path (settingLine setting [] ++ ['\n']), .ok ()⟩]
  | modified (isDirectory : Bool) (fileContent : Text)
      (found : regex.isMatch passwordRegex fileContent = true) : SshdUpdate regex path setting
      [⟨.metadata path, .ok isDirectory⟩, ⟨.openRead path, .ok ()⟩,
        ⟨.readToString path, .ok fileContent⟩, ⟨.openTruncate path, .ok ()⟩,
        ⟨.writeAll path (regex.replaceAll passwordRegex fileContent
          (settingLine setting modifiedComment ++ ['\n'])), .ok ()⟩]
  | added (isDirectory : Bool) (fileContent : Text)
      (missing : regex.isMatch passwordRegex fileContent = false) : SshdUpdate regex path setting
      [⟨.metadata path, .ok isDirectory⟩, ⟨.openRead path, .ok ()⟩,
        ⟨.readToString path, .ok fileContent⟩, ⟨.openAppend path, .ok ()⟩,
        ⟨.writeAll path (settingLine setting addedComment ++ ['\n']), .ok ()⟩]

theorem logged_createSshdConfig_ok_iff {path setting : Text} :
    Logged (createSshdConfig path setting).run (.ok ()) log ↔
      log = [⟨.createFile path newFileMode, .ok ()⟩, ⟨.setPermissions path 0o600, .ok ()⟩,
        ⟨.writeAll path (settingLine setting [] ++ ['\n']), .ok ()⟩] := by
  constructor
  · intro logged
    obtain ⟨_, _, rfl, created⟩ := logged_mk_ask_bind_ok_iff.mp logged
    obtain ⟨_, _, rfl, restricted⟩ := logged_mk_ask_bind_ok_iff.mp created
    rw [logged_mk_ask_iff.mp restricted]
  · rintro rfl
    refine logged_mk_ask_bind_ok_iff.mpr ⟨(), _, rfl, ?_⟩
    exact logged_mk_ask_bind_ok_iff.mpr ⟨(), _, rfl, logged_mk_ask_iff.mpr rfl⟩

theorem sshdUpdate_of_changeSshdConfig {regex : RegexCrate} {path setting : Text}
    (logged : Logged (changeSshdConfig regex path setting).run (.ok ()) log) (isDirectory : Bool) :
    SshdUpdate regex path setting (⟨.metadata path, .ok isDirectory⟩ :: log) := by
  obtain ⟨_, _, rfl, opened⟩ := logged_mk_ask_bind_ok_iff.mp logged
  obtain ⟨fileContent, _, rfl, read⟩ := logged_mk_ask_bind_ok_iff.mp opened
  split_ifs at read with found
  · obtain ⟨_, _, rfl, written⟩ := logged_mk_ask_bind_ok_iff.mp read
    rw [logged_mk_ask_iff.mp written]
    exact .modified isDirectory fileContent found
  · obtain ⟨_, _, rfl, written⟩ := logged_mk_ask_bind_ok_iff.mp read
    rw [logged_mk_ask_iff.mp written]
    exact .added isDirectory fileContent (Bool.eq_false_of_not_eq_true found)

theorem logged_updateSshdConfigAt_ok_iff {regex : RegexCrate} {path : Text} {disable : Bool} :
    Logged (updateSshdConfigAt regex path disable).run (.ok ()) log ↔
      SshdUpdate regex path (passwordAuthSetting disable) log := by
  have stat : (updateSshdConfigAt regex path disable).run =
      Program.ask (HostRequest.metadata path) >>= fun reply =>
        (if !reply.isOk then createSshdConfig path (passwordAuthSetting disable)
        else changeSshdConfig regex path (passwordAuthSetting disable)).run := by
    unfold updateSshdConfigAt pathExists
    rw [ExceptT.run_bind_lift, bind_assoc]
    rfl
  rw [stat]
  constructor
  · intro logged
    obtain ⟨reply, rest, updated, rfl⟩ := logged_call_iff.mp logged
    cases reply with
    | error error =>
        rw [logged_createSshdConfig_ok_iff.mp updated]
        exact .created error
    | ok isDirectory => exact sshdUpdate_of_changeSshdConfig updated isDirectory
  · intro update
    cases update with
    | created error =>
        exact logged_call_iff.mpr ⟨.error error, _, logged_createSshdConfig_ok_iff.mpr rfl, rfl⟩
    | modified isDirectory fileContent found =>
        refine logged_call_iff.mpr ⟨.ok isDirectory, _, ?_, rfl⟩
        refine logged_mk_ask_bind_ok_iff.mpr ⟨(), _, rfl, ?_⟩
        refine logged_mk_ask_bind_ok_iff.mpr ⟨fileContent, _, rfl, ?_⟩
        rw [if_pos found]
        exact logged_mk_ask_bind_ok_iff.mpr ⟨(), _, rfl, logged_mk_ask_iff.mpr rfl⟩
    | added isDirectory fileContent missing =>
        refine logged_call_iff.mpr ⟨.ok isDirectory, _, ?_, rfl⟩
        refine logged_mk_ask_bind_ok_iff.mpr ⟨(), _, rfl, ?_⟩
        refine logged_mk_ask_bind_ok_iff.mpr ⟨fileContent, _, rfl, ?_⟩
        rw [if_neg (by simp [missing])]
        exact logged_mk_ask_bind_ok_iff.mpr ⟨(), _, rfl, logged_mk_ask_iff.mpr rfl⟩

end Sshd

/-! ## The keys of the user -/

section Keys

variable {log : List HostEvent}

/-- The path that the daemon tells when it succeeds. -/
def toldKeysPath : Except Kvp.IoError Output → Option Text
  | .ok output =>
      if output.status.success then extractAuthorizedKeysFilePath output.stdout else none
  | .error _ => none

/-- The path of the keys with the question it comes from: the configured one, or what the
daemon told when it was asked. -/
inductive KeysPathAsked (user : SshUser) (configured : Text) :
    (querySshdConfig : Bool) → (path : Text) → List HostEvent → Prop where
  | configured : KeysPathAsked user configured false (pathJoin user.homeDir configured) []
  | queried (reply : Except Kvp.IoError Output) : KeysPathAsked user configured true
      (pathJoin user.homeDir ((toldKeysPath reply).getD configured))
      [⟨.output sshdCommand, reply⟩]

theorem getAuthorizedKeysPathFromSshd_eq :
    getAuthorizedKeysPathFromSshd =
      toldKeysPath <$> Program.ask (HostRequest.output sshdCommand) := by
  unfold getAuthorizedKeysPathFromSshd runSshdCommand
  rw [bind_assoc, ← bind_pure_comp]
  congr 1
  funext reply
  cases reply with
  | error error => rfl
  | ok output =>
      cases success : output.status.success <;> simp [toldKeysPath, success]

theorem logged_authorizedKeysPathOf_iff {user : SshUser} {configured path : Text}
    {querySshdConfig : Bool} :
    Logged (authorizedKeysPathOf user configured querySshdConfig) path log ↔
      KeysPathAsked user configured querySshdConfig path log := by
  cases querySshdConfig with
  | false =>
      constructor
      · intro logged
        obtain ⟨rfl, rfl⟩ := logged_pure_iff.mp logged
        exact .configured
      · intro asked
        cases asked
        exact logged_pure_iff.mpr ⟨rfl, rfl⟩
  | true =>
      have chosen : authorizedKeysPathOf user configured true =
          (fun reply => pathJoin user.homeDir ((toldKeysPath reply).getD configured)) <$>
            Program.ask (HostRequest.output sshdCommand) := by
        unfold authorizedKeysPathOf
        rw [if_pos rfl, getAuthorizedKeysPathFromSshd_eq, ← bind_pure_comp, ← bind_pure_comp,
          bind_assoc]
        congr 1
        funext reply
        rw [pure_bind]
        cases toldKeysPath reply <;> rfl
      rw [chosen, logged_map_iff]
      constructor
      · intro mapped
        obtain ⟨reply, logged, rfl⟩ := mapped
        rw [logged_ask_iff.mp logged]
        exact .queried reply
      · intro asked
        cases asked with
        | queried reply => exact ⟨reply, logged_ask_iff.mpr rfl, rfl⟩

/-- The writes that the keys consist of. -/
def keyWrites (path : Text) (keys : List PublicKeys) : List HostEvent :=
  keys.flatMap fun key => [⟨.writeAll path key.keyData, .ok ()⟩, ⟨.writeAll path ['\n'], .ok ()⟩]

theorem keyWrites_cons {path : Text} {key : PublicKeys} {keys : List PublicKeys} :
    keyWrites path (key :: keys) =
      ⟨.writeAll path key.keyData, .ok ()⟩ :: ⟨.writeAll path ['\n'], .ok ()⟩ ::
        keyWrites path keys := rfl

theorem logged_writeKeys_ok_iff {path : Text} {keys : List PublicKeys} :
    Logged (writeKeys path keys).run (.ok ()) log ↔ log = keyWrites path keys := by
  induction keys generalizing log with
  | nil => simp [writeKeys, keyWrites]
  | cons key keys ih =>
      rw [keyWrites_cons]
      constructor
      · intro logged
        obtain ⟨_, _, rfl, written⟩ := logged_tryHost_bind_ok_iff.mp logged
        obtain ⟨_, _, rfl, ended⟩ := logged_tryHost_bind_ok_iff.mp written
        rw [ih.mp ended]
      · rintro rfl
        refine logged_tryHost_bind_ok_iff.mpr ⟨(), _, rfl, ?_⟩
        exact logged_tryHost_bind_ok_iff.mpr ⟨(), _, rfl, ih.mpr rfl⟩

/-- The directory is made the user's alone, and the keys are written to a file that is made
its owner's alone before and the user's afterwards. -/
def keysEvents (user : SshUser) (keys : List PublicKeys) (path : Text) : List HostEvent :=
  ⟨.createDirAll (sshDirOf user) 0o700, .ok ()⟩ ::
    ⟨.setPermissions (sshDirOf user) 0o700, .ok ()⟩ ::
    ⟨.chown (sshDirOf user) user.owner, .ok ()⟩ ::
    ⟨.createFile path newFileMode, .ok ()⟩ ::
    ⟨.setPermissions path 0o600, .ok ()⟩ ::
    (keyWrites path keys ++ [⟨.chown path user.owner, .ok ()⟩])

theorem logged_installAuthorizedKeys_ok_iff {user : SshUser} {keys : List PublicKeys}
    {path : Text} :
    Logged (installAuthorizedKeys user keys path).run (.ok ()) log ↔
      log = keysEvents user keys path := by
  constructor
  · intro logged
    obtain ⟨_, _, rfl, created⟩ := logged_tryHost_bind_ok_iff.mp logged
    obtain ⟨_, _, rfl, limited⟩ := logged_tryHost_bind_ok_iff.mp created
    obtain ⟨_, _, rfl, owned⟩ := logged_chown_bind_ok_iff.mp limited
    obtain ⟨_, _, rfl, opened⟩ := logged_tryHost_bind_ok_iff.mp owned
    obtain ⟨_, _, rfl, guarded⟩ := logged_tryHost_bind_ok_iff.mp opened
    obtain ⟨_, writes, last, written, handed, rfl⟩ := logged_except_bind_ok_iff.mp guarded
    rw [logged_writeKeys_ok_iff.mp written, logged_chown_ok_iff.mp handed]
    rfl
  · rintro rfl
    refine logged_tryHost_bind_ok_iff.mpr ⟨(), _, rfl, ?_⟩
    refine logged_tryHost_bind_ok_iff.mpr ⟨(), _, rfl, ?_⟩
    refine logged_chown_bind_ok_iff.mpr ⟨(), _, rfl, ?_⟩
    refine logged_tryHost_bind_ok_iff.mpr ⟨(), _, rfl, ?_⟩
    refine logged_tryHost_bind_ok_iff.mpr ⟨(), _, rfl, ?_⟩
    exact logged_except_bind_ok_iff.mpr
      ⟨(), _, _, logged_writeKeys_ok_iff.mpr rfl, logged_chown_ok_iff.mpr rfl, rfl⟩

/-- The path is asked for, and the keys are installed there. -/
theorem logged_provisionSsh_ok_iff {user : SshUser} {keys : List PublicKeys} {configured : Text}
    {querySshdConfig : Bool} :
    Logged (provisionSsh user keys configured querySshdConfig).run (.ok ()) log ↔
      ∃ path asked, KeysPathAsked user configured querySshdConfig path asked ∧
        log = asked ++ keysEvents user keys path := by
  unfold provisionSsh
  rw [ExceptT.run_bind_lift, logged_bind_iff]
  constructor
  · intro split
    obtain ⟨path, asked, installed, chosen, ran, rfl⟩ := split
    rw [logged_installAuthorizedKeys_ok_iff.mp ran]
    exact ⟨path, asked, logged_authorizedKeysPathOf_iff.mp chosen, rfl⟩
  · intro split
    obtain ⟨path, asked, chosen, rfl⟩ := split
    exact ⟨path, asked, _, logged_authorizedKeysPathOf_iff.mpr chosen,
      logged_installAuthorizedKeys_ok_iff.mpr rfl, rfl⟩

end Keys

end AzureInit.Provision
