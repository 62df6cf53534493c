import AzureInit.Provision.ProvisionOrder
import AzureInit.Provision.SshdConvergence

/-! Every request of provisioning has its ground in what has succeeded before, and the
error of provisioning tells the stage that it stopped in. -/

set_option autoImplicit false

namespace AzureInit.Provision

open Foundation
open Foundation.Event

/-! ## The requests of a stage -/

/-- A stage may make the request: it belongs to no later one, and does not write rights
down before the account is there. -/
def AllowedAt (rank : Nat) (request : HostRequest) : Prop :=
  request.stage.rank ≤ rank ∧ (request.WritesTo sudoersPath → 1 < rank)

theorem Stage.rank_le (stage : Stage) : stage.rank ≤ 4 := by
  cases stage <;> decide

theorem allowedAt_last (request : HostRequest) : AllowedAt 4 request :=
  ⟨Stage.rank_le _, fun _ => by decide⟩

theorem uses_of_forall {permitted : HostRequest → Prop} {α : Type} (program : HostProgram α)
    (every : ∀ request, permitted request) : program.Uses permitted := by
  induction program with
  | done => trivial
  | call request next ih => exact ⟨every request, ih⟩

theorem uses_setHostname (backend : Configuration.HostnameProvisioner) (hostname : Text) :
    (HostnameProvisioner.set backend hostname).run.Uses (AllowedAt 0) := by
  cases backend
  exact uses_run ⟨Nat.le_refl _, fun writes => writes.elim⟩

theorem uses_useradd (user : User) : (useradd user).run.Uses (AllowedAt 1) := by
  have command : ∀ command : Command, command.program ∈
      ["getent".toList, "usermod".toList, "useradd".toList] →
      AllowedAt 1 (.output command) := by
    intro command known
    refine ⟨?_, fun writes => writes.elim⟩
    simp only [List.mem_cons, List.not_mem_nil, or_false] at known
    rcases known with named | named | named <;> simp only [HostRequest.stage, named] <;> decide
  refine usesExcept_bind ?_ fun existing => ?_
  · exact usesExcept_bind (uses_tryHost (command _ (.head _)))
      fun output => Program.uses_pure _
  · cases existing with
    | true => exact uses_run (command _ (.tail _ (.head _)))
    | false => exact uses_run (command _ (.tail _ (.tail _ (.head _))))

theorem uses_addUserForPasswordlessSudo (username : Text) :
    (addUserForPasswordlessSudo username sudoersPath).run.Uses (·.stage.rank ≤ 1) := by
  have created : (HostRequest.createFile sudoersPath 0o600).stage.rank ≤ 1 := by decide
  have written : ∀ text, (HostRequest.writeAll sudoersPath text).stage.rank ≤ 1 := by
    intro text
    simp [HostRequest.stage, fileStage, Stage.rank]
  refine usesExcept_bind (uses_tryHost created) fun _ => ?_
  exact usesExcept_bind (uses_tryHost (written _)) fun _ => uses_tryHost (written _)

theorem uses_passwd (user : User) : (passwd user).run.Uses (AllowedAt 2) := by
  have lock : AllowedAt 2 (.output (lockCommand user.name)) :=
    ⟨Nat.le_refl _, fun writes => writes.elim⟩
  unfold passwd
  split
  · unfold setUserPassword
    split_ifs
    · exact Program.uses_pure _
    · exact Program.uses_pure _
    · refine usesExcept_bind (uses_tryHost ⟨Nat.le_refl _, fun writes => writes.elim⟩) fun _ => ?_
      refine usesExcept_bind (uses_tryHost ⟨Nat.le_refl _, fun writes => writes.elim⟩) fun _ => ?_
      refine usesExcept_bind (uses_tryHost ⟨Nat.le_refl _, fun writes => writes.elim⟩)
        fun status => ?_
      split <;> exact Program.uses_pure _
  · unfold lockUser
    split_ifs
    · exact Program.uses_pure _
    · exact uses_run lock

theorem allowedAt_sshd {request : HostRequest} (bounded : request.stage.rank ≤ 3) :
    AllowedAt 3 request :=
  ⟨bounded, fun _ => by decide⟩

theorem uses_mk_ask {permitted : HostRequest → Prop} {request : HostRequest}
    (allowed : permitted request) :
    (ExceptT.mk (Program.ask request) : ExceptT Kvp.IoError HostProgram request.Value).run.Uses
      permitted :=
  Program.uses_ask_iff.mpr allowed

theorem fileStage_rank_le {path : Text} (known : path ∈ sshdConfigPaths) :
    (fileStage path).rank ≤ 3 := by
  rw [fileStage, if_pos (List.contains_iff_mem.mpr known)]
  split_ifs
  · decide
  · decide

theorem getSshdConfigPath_yields : getSshdConfigPath.Yields (· ∈ sshdConfigPaths) := by
  intro reply
  cases reply with
  | error error => exact List.mem_cons_of_mem _ List.mem_cons_self
  | ok directory =>
      cases directory with
      | false => exact List.mem_cons_of_mem _ List.mem_cons_self
      | true => exact List.mem_cons_self

theorem uses_updateSshdConfigAt (regex : RegexCrate) {path : Text} (disable : Bool)
    (known : path ∈ sshdConfigPaths) :
    (updateSshdConfigAt regex path disable).run.Uses (AllowedAt 3) := by
  have written : ∀ text, AllowedAt 3 (.writeAll path text) := fun text =>
    allowedAt_sshd (fileStage_rank_le known)
  have created : AllowedAt 3 (.createFile path newFileMode) :=
    allowedAt_sshd (fileStage_rank_le known)
  have restricted : AllowedAt 3 (.setPermissions path 0o600) := by
    refine allowedAt_sshd ?_
    rw [HostRequest.stage, if_pos (List.contains_iff_mem.mpr known)]
    decide
  refine usesExcept_bind ?_ fun present => ?_
  · exact (Program.uses_ask_iff.mpr (allowedAt_sshd (Nat.le_refl _))).bind
      fun _ => Program.uses_pure _
  · cases present with
    | false =>
        refine usesExcept_bind (uses_mk_ask created) fun _ => ?_
        exact usesExcept_bind (uses_mk_ask restricted) fun _ => uses_mk_ask (written _)
    | true =>
        refine usesExcept_bind (uses_mk_ask (allowedAt_sshd (Nat.le_refl _))) fun _ => ?_
        refine usesExcept_bind (uses_mk_ask (allowedAt_sshd (Nat.le_refl _)))
          fun fileContent => ?_
        split_ifs
        · exact usesExcept_bind (uses_mk_ask (allowedAt_sshd (Nat.le_refl _)))
            fun _ => uses_mk_ask (written _)
        · exact usesExcept_bind (uses_mk_ask (allowedAt_sshd (Nat.le_refl _)))
            fun _ => uses_mk_ask (written _)

/-! ## Grounds -/

namespace Provisioning

variable {provisioning : Provisioning} {regex : RegexCrate}

/-- Everything in front of a stage has succeeded. -/
def DoneBefore (provisioning : Provisioning) (regex : RegexCrate) (rank : Nat)
    (log : List HostEvent) : Prop :=
  ∀ stage : Stage, stage.rank < rank → provisioning.Done regex stage log

theorem DoneBefore.mono {rank : Nat} {log longer : List HostEvent}
    (done : provisioning.DoneBefore regex rank log) (inside : log <:+: longer) :
    provisioning.DoneBefore regex rank longer :=
  fun stage earlier => (done stage earlier).mono inside

/-- One more stage has succeeded behind those in front of it. -/
theorem DoneBefore.next {stage : Stage} {earlier log : List HostEvent}
    (before : provisioning.DoneBefore regex stage.rank earlier)
    (done : provisioning.Done regex stage log) :
    provisioning.DoneBefore regex (stage.rank + 1) (earlier ++ log) := by
  intro other reached
  rcases Nat.lt_or_ge other.rank stage.rank with less | notLess
  · exact (before other less).mono (List.prefix_append _ _).isInfix
  · have same : other = stage := by
      cases other <;> cases stage <;> simp [Stage.rank] at reached notLess ⊢
    rw [same]
    exact done.mono (List.suffix_append _ _).isInfix

theorem DoneBefore.accountReady {rank : Nat} {log : List HostEvent}
    (before : provisioning.DoneBefore regex rank log) (behind : 1 < rank) :
    AccountReady provisioning.user log :=
  (before .user behind).1

/-- What a stage may ask for is founded on the stages in front of it. -/
theorem founded_of_allowed {rank : Nat} {earlier log : List HostEvent} {α : Type} {result : α}
    {program : HostProgram α} (before : provisioning.DoneBefore regex rank earlier)
    (uses : program.Uses (AllowedAt rank)) (logged : Logged program result log) :
    Founded (provisioning.Ground regex) earlier log := by
  refine founded_of_uses uses logged fun request later allowed => ?_
  have stillDone := before.mono (List.prefix_append earlier later).isInfix
  refine ⟨fun stage less => stillDone stage (Nat.lt_of_lt_of_le less allowed.1), ?_⟩
  intro writes
  exact stillDone.accountReady (allowed.2 writes)

theorem founded_createUser {earlier log : List HostEvent} {result : Except HostError Unit}
    (before : provisioning.DoneBefore regex 1 earlier)
    (logged : Logged provisioning.createUser.run result log) :
    Founded (provisioning.Ground regex) earlier log := by
  refine founded_findOkOr logged fun backend outcome passed log created => ?_
  have passedBefore := before.mono (List.prefix_append earlier passed).isInfix
  cases backend
  refine founded_bind created (fun outcome log added => ?_)
    fun value result before log added granted => ?_
  · exact founded_of_allowed passedBefore (uses_useradd _) added
  · have ready := accountReady_of_useradd added
    refine founded_of_uses (uses_addUserForPasswordlessSudo _) granted
      fun request later bounded => ?_
    refine ⟨fun stage less => ?_, fun _ => ready.mono ⟨earlier ++ passed, later, rfl⟩⟩
    have stillDone : provisioning.DoneBefore regex _ (earlier ++ passed ++ before ++ later) :=
      passedBefore.mono ⟨[], before ++ later, by simp⟩
    exact stillDone stage (Nat.lt_of_lt_of_le less bounded)

theorem founded_provisionCore {log : List HostEvent} {result : Except HostError Unit}
    (logged : Logged provisioning.provisionCore.run result log) :
    Founded (provisioning.Ground regex) [] log := by
  have none : provisioning.DoneBefore regex Stage.hostname.rank [] := fun _ less => nomatch less
  refine founded_bind logged (fun outcome log set => ?_)
    fun value result hostname log set continued => ?_
  · exact founded_findOkOr set fun backend outcome passed log ran =>
      founded_of_allowed (none.mono (List.nil_prefix).isInfix) (uses_setHostname _ _) ran
  · have named : provisioning.DoneBefore regex Stage.user.rank _ :=
      none.next (done_of_setHostname set)
    refine founded_bind continued (fun outcome log created => founded_createUser named created)
      fun value result user log created secured => ?_
    have present : provisioning.DoneBefore regex Stage.password.rank _ :=
      named.next (done_of_createUser created)
    exact founded_findOkOr secured fun backend outcome passed log ran => by
      cases backend
      exact founded_of_allowed (present.mono (List.prefix_append _ _).isInfix)
        (uses_passwd _) ran

theorem doneBefore_of_provisionCore {log : List HostEvent}
    (logged : Logged provisioning.provisionCore.run (.ok ()) log) :
    provisioning.DoneBefore regex Stage.sshd.rank log := by
  obtain ⟨_, hostname, rest, set, continued, rfl⟩ := logged_except_bind_ok_iff.mp logged
  obtain ⟨_, user, password, created, secured, rfl⟩ := logged_except_bind_ok_iff.mp continued
  have none : provisioning.DoneBefore regex Stage.hostname.rank [] := fun _ less => nomatch less
  rw [← List.append_assoc]
  exact ((none.next (done_of_setHostname set)).next (done_of_createUser created)).next
    (done_of_setPassword secured)

theorem uses_updateSshConfig : (provisioning.updateSshConfig regex).run.Uses (AllowedAt 3) := by
  have located : getSshdConfigPath.Uses (AllowedAt 3) := by
    refine ⟨allowedAt_sshd (Nat.le_refl _), fun reply => ?_⟩
    cases reply with
    | error error => exact trivial
    | ok directory => cases directory <;> exact trivial
  unfold updateSshConfig
  split_ifs
  · rw [ExceptT.run_bind_lift]
    refine located.bindYields getSshdConfigPath_yields fun path known => ?_
    rw [ExceptT.run_mk, ← bind_pure_comp]
    exact (uses_updateSshdConfigAt regex _ known).bind fun _ => Program.uses_pure _
  · exact Program.uses_pure _

theorem founded_provision {log : List HostEvent} {result : Except HostError Unit}
    (logged : Logged (provisioning.provision regex).run result log) :
    Founded (provisioning.Ground regex) [] log := by
  refine founded_bind logged (fun outcome log core => founded_provisionCore core)
    fun value result core log provisioned continued => ?_
  have behindCore : provisioning.DoneBefore regex _ _ := doneBefore_of_provisionCore provisioned
  refine founded_bind continued (fun outcome log updated => ?_)
    fun value result sshd log updated installed => ?_
  · exact founded_of_allowed behindCore uses_updateSshConfig updated
  · have behindUpdate := behindCore.next (done_of_updateSshConfig updated)
    exact founded_of_allowed behindUpdate (uses_of_forall _ allowedAt_last) installed

/-- What has succeeded on the host when provisioning makes a request. -/
theorem ground_of_request {log before after : List HostEvent} {event : HostEvent}
    {result : Except HostError Unit}
    (logged : Logged (provisioning.provision regex).run result log)
    (made : log = before ++ event :: after) : provisioning.Ground regex event.request before := by
  have founded := founded_provision logged
  rw [made] at founded
  exact founded.at

end Provisioning

/-! ## Outcomes -/

/-- The stage that an error of provisioning comes from; other errors stay within a stage. -/
def HostError.stage? : HostError → Option Stage
  | .noHostnameProvisioner => some .hostname
  | .noUserProvisioner => some .user
  | .noPasswordProvisioner => some .password
  | .updateSshdConfig => some .sshd
  | .io _ => some .keys
  | .rustix _ => some .keys
  | .userMissing _ => some .keys
  | .subprocessFailed _ _ => none
  | .unhandledError _ => none

/-- Errors are those of the last stage. -/
def OfKeys {α : Type} (outcome : Except HostError α) : Prop :=
  ∀ error, outcome = .error error → error.stage? = some .keys

theorem ofKeys_tryHost (request : HostRequest) : (tryHost request).run.Yields OfKeys := by
  intro reply error same
  cases reply with
  | ok value => cases same
  | error given =>
      cases same
      rfl

theorem ofKeys_chown (path : Text) (owner : Owner) : (chown path owner).run.Yields OfKeys := by
  intro reply error same
  cases reply with
  | ok value => cases same
  | error given =>
      cases same
      rfl

theorem ofKeys_pure {α : Type} (value : α) :
    (pure value : HostIo α).run.Yields OfKeys := fun _ same => nomatch same

theorem ofKeys_writeKeys (path : Text) (keys : List PublicKeys) :
    (writeKeys path keys).run.Yields OfKeys := by
  induction keys with
  | nil => exact ofKeys_pure ()
  | cons key keys ih =>
      refine Program.yieldsError_bind (ofKeys_tryHost _) fun _ => ?_
      exact Program.yieldsError_bind (ofKeys_tryHost _) fun _ => ih

theorem ofKeys_provisionSsh (user : SshUser) (keys : List PublicKeys) (path : Text)
    (querySshdConfig : Bool) :
    (provisionSsh user keys path querySshdConfig).run.Yields OfKeys := by
  refine Program.yieldsError_bind (Program.yieldsError_lift _) fun authorizedKeysPath => ?_
  refine Program.yieldsError_bind (ofKeys_tryHost _) fun _ => ?_
  refine Program.yieldsError_bind (ofKeys_tryHost _) fun _ => ?_
  refine Program.yieldsError_bind (ofKeys_chown _ _) fun _ => ?_
  refine Program.yieldsError_bind (ofKeys_tryHost _) fun _ => ?_
  refine Program.yieldsError_bind (ofKeys_tryHost _) fun _ => ?_
  exact Program.yieldsError_bind (ofKeys_writeKeys _ _) fun _ => ofKeys_chown _ _

namespace Provisioning

variable {provisioning : Provisioning} {regex : RegexCrate}

theorem ofKeys_provisionSshKeys : provisioning.provisionSshKeys.run.Yields OfKeys := by
  unfold provisionSshKeys
  split_ifs
  · exact ofKeys_pure ()
  · refine Program.yieldsError_bind (Program.yieldsError_lift _) fun found => ?_
    cases found with
    | error error =>
        intro other same
        cases same
        rfl
    | ok user => exact ofKeys_provisionSsh _ _ _ _

/-- An execution that stops in a stage: all in front of it is done, and nothing behind it
is begun. -/
def StopsIn (provisioning : Provisioning) (regex : RegexCrate) (stage : Stage)
    (log : List HostEvent) : Prop :=
  provisioning.DoneBefore regex stage.rank log ∧
    ∀ event ∈ log, event.request.stage.rank ≤ stage.rank

theorem StopsIn.behind {stage : Stage} {earlier log : List HostEvent}
    (before : provisioning.DoneBefore regex stage.rank earlier)
    (began : ∀ event ∈ earlier, event.request.stage.rank ≤ stage.rank)
    (stopped : ∀ event ∈ log, event.request.stage.rank ≤ stage.rank) :
    provisioning.StopsIn regex stage (earlier ++ log) := by
  refine ⟨before.mono (List.prefix_append _ _).isInfix, fun event member => ?_⟩
  rcases List.mem_append.mp member with old | new
  · exact began event old
  · exact stopped event new

theorem uses_setHostnameStage : provisioning.setHostname.run.Uses (·.stage.rank ≤ 0) :=
  Program.uses_findOkOr (fun _ => (uses_setHostname _ _).imp fun _ allowed => allowed.1) _

theorem uses_createUser : provisioning.createUser.run.Uses (·.stage.rank ≤ 1) := by
  refine Program.uses_findOkOr (fun backend => ?_) _
  cases backend
  exact usesExcept_bind ((uses_useradd _).imp fun request allowed => allowed.1)
    fun _ => uses_addUserForPasswordlessSudo _

theorem uses_setPassword : provisioning.setPassword.run.Uses (·.stage.rank ≤ 2) := by
  refine Program.uses_findOkOr (fun backend => ?_) _
  cases backend
  exact (uses_passwd _).imp fun _ allowed => allowed.1

theorem uses_provisionCore : provisioning.provisionCore.run.Uses (·.stage.rank ≤ 2) := by
  refine usesExcept_bind (uses_setHostnameStage.imp fun _ none => Nat.le_trans none (Nat.zero_le 2)) fun _ => ?_
  exact usesExcept_bind (uses_createUser.imp fun _ => Nat.le_succ_of_le) fun _ => uses_setPassword

/-- The stages of the core resources stop in the one whose error is returned. -/
theorem stopsIn_of_provisionCore {error : HostError} {log : List HostEvent}
    (logged : Logged provisioning.provisionCore.run (.error error) log) :
    ∃ stage, error.stage? = some stage ∧ provisioning.StopsIn regex stage log := by
  have none : provisioning.DoneBefore regex Stage.hostname.rank [] := fun _ less => nomatch less
  rcases logged_except_bind_error_iff.mp logged with continued | unnamed
  · obtain ⟨_, hostname, rest, set, continued, rfl⟩ := continued
    have named : provisioning.DoneBefore regex Stage.user.rank _ :=
      none.next (done_of_setHostname set)
    have begun : ∀ event ∈ hostname, event.request.stage.rank ≤ 1 := fun event member =>
      Nat.le_succ_of_le (mem_uses uses_setHostnameStage set event member)
    rcases logged_except_bind_error_iff.mp continued with secured | missing
    · obtain ⟨_, user, password, created, unsecured, rfl⟩ := secured
      refine ⟨.password, ?_, ?_⟩
      · rw [error_of_findOkOr unsecured]
        rfl
      · rw [← List.append_assoc]
        refine .behind (named.next (done_of_createUser created)) ?_
          (mem_uses uses_setPassword unsecured)
        intro event member
        rcases List.mem_append.mp member with old | new
        · exact Nat.le_succ_of_le (begun event old)
        · exact Nat.le_succ_of_le (mem_uses uses_createUser created event new)
    · refine ⟨.user, ?_, .behind named begun (mem_uses uses_createUser missing)⟩
      rw [error_of_findOkOr missing]
      rfl
  · refine ⟨.hostname, ?_, .behind none (by simp) (mem_uses uses_setHostnameStage unnamed)⟩
    rw [error_of_findOkOr unnamed]
    rfl

theorem error_of_updateSshConfig {error : HostError} {log : List HostEvent}
    (logged : Logged (provisioning.updateSshConfig regex).run (.error error) log) :
    error = .updateSshdConfig := by
  unfold updateSshConfig at logged
  split_ifs at logged
  · rcases logged_except_bind_error_iff.mp logged with updated | unresolved
    · obtain ⟨path, first, second, -, failed, rfl⟩ := updated
      obtain ⟨outcome, -, same⟩ := logged_map_iff.mp failed
      cases outcome with
      | ok value => cases same
      | error error =>
          cases same
          rfl
    · obtain ⟨path, -, same⟩ := logged_lift_iff.mp unresolved
      cases same
  · cases (logged_except_pure_iff.mp logged).1

/-- A success has done all stages. -/
theorem done_of_provision {log : List HostEvent}
    (logged : Logged (provisioning.provision regex).run (.ok ()) log) (stage : Stage) :
    provisioning.Done regex stage log := by
  obtain ⟨_, core, rest, provisioned, continued, rfl⟩ := logged_except_bind_ok_iff.mp logged
  obtain ⟨_, sshd, keys, updated, installed, rfl⟩ := logged_except_bind_ok_iff.mp continued
  have behindCore : provisioning.DoneBefore regex _ _ := doneBefore_of_provisionCore provisioned
  have behindUpdate := behindCore.next (done_of_updateSshConfig updated)
  have all : provisioning.DoneBefore regex (Stage.keys.rank + 1) _ :=
    behindUpdate.next (done_of_provisionSshKeys installed)
  rw [← List.append_assoc]
  exact all stage (Nat.lt_succ_of_le stage.rank_le)

/-- What an execution leaves with its result: a success has done all stages, and an error
tells the stage that it stopped in. -/
def Leaves (provisioning : Provisioning) (regex : RegexCrate) :
    Except HostError Unit → List HostEvent → Prop
  | .ok (), log => ∀ stage, provisioning.Done regex stage log
  | .error error, log =>
      ∃ stage, error.stage? = some stage ∧ provisioning.StopsIn regex stage log

theorem leaves_of_provision {log : List HostEvent} {result : Except HostError Unit}
    (logged : Logged (provisioning.provision regex).run result log) :
    provisioning.Leaves regex result log := by
  cases result with
  | ok value => exact done_of_provision logged
  | error error =>
      rcases logged_except_bind_error_iff.mp logged with continued | unprovisioned
      · obtain ⟨_, core, rest, provisioned, continued, rfl⟩ := continued
        have behindCore : provisioning.DoneBefore regex _ _ := doneBefore_of_provisionCore provisioned
        have begun := mem_uses uses_provisionCore provisioned
        rcases logged_except_bind_error_iff.mp continued with installed | unupdated
        · obtain ⟨_, sshd, keys, updated, failed, rfl⟩ := installed
          refine ⟨.keys, good_of_logged ofKeys_provisionSshKeys failed error rfl, ?_⟩
          rw [← List.append_assoc]
          exact .behind (behindCore.next (done_of_updateSshConfig updated))
            (fun event _ => Stage.rank_le _) (fun event _ => Stage.rank_le _)
        · refine ⟨.sshd, ?_, .behind behindCore (fun event member => ?_) fun event member => ?_⟩
          · rw [error_of_updateSshConfig unupdated]
            rfl
          · exact Nat.le_succ_of_le (begun event member)
          · exact (mem_uses uses_updateSshConfig unupdated event member).1
      · exact stopsIn_of_provisionCore unprovisioned

end Provisioning

/-! ## A host that obliges -/

/-- All commands succeed, and of the configuration of the daemon nothing is there. -/
def obliging : (request : HostRequest) → List HostEvent → request.Reply
  | .output _, _ => .ok { status := { code := 0 }, stdout := [] }
  | .spawn _, _ => .ok ()
  | .writeStdin _, _ => .ok ()
  | .wait, _ => .ok { code := 0 }
  | .getUserByName _, _ =>
      .ok { homeDir := "/home/azureuser".toList, owner := { uid := 1000, gid := 1000 } }
  | .metadata _, _ => .error { kind := .notFound }
  | .createDirAll _ _, _ => .ok ()
  | .setPermissions _ _, _ => .ok ()
  | .chown _ _, _ => .ok ()
  | .createFile _ _, _ => .ok ()
  | .openTruncate _, _ => .ok ()
  | .openAppend _, _ => .ok ()
  | .openRead _, _ => .ok ()
  | .readToString _, _ => .ok []
  | .writeAll _ _, _ => .ok ()

def sampleProvisioning : Provisioning where
  hostname := "vm".toList
  user := .new "azureuser".toList [{ keyData := "ssh-ed25519 AAAA".toList, path := [] }]
  config := {}
  disablePasswordAuthentication := true

def sampleRun : Except HostError Unit × List HostEvent :=
  Program.run (recording obliging) (sampleProvisioning.provision referenceRegex).run []

theorem logged_sampleRun :
    Logged (sampleProvisioning.provision referenceRegex).run sampleRun.1 sampleRun.2 :=
  Program.runs_run (recorded_recording obliging) _ _

theorem sample_key_grounded :
    ∃ before after path, sampleRun.2 =
        before ++ ⟨.writeAll path "ssh-ed25519 AAAA".toList, .ok ()⟩ :: after ∧
      sampleProvisioning.Ground referenceRegex (.writeAll path "ssh-ed25519 AAAA".toList) before :=
  ⟨sampleRun.2.take 19, sampleRun.2.drop 20, "/home/azureuser/.ssh/authorized_keys".toList, rfl,
    @Provisioning.ground_of_request sampleProvisioning referenceRegex sampleRun.2 _
      (sampleRun.2.drop 20) ⟨.writeAll "/home/azureuser/.ssh/authorized_keys".toList
        "ssh-ed25519 AAAA".toList, .ok ()⟩ _ logged_sampleRun rfl⟩

theorem sample_leaves : sampleProvisioning.Leaves referenceRegex (.ok ()) sampleRun.2 :=
  @Provisioning.leaves_of_provision _ _ _ (.ok ()) logged_sampleRun

end AzureInit.Provision
