import AzureInit.Agent.BootOutcome

/-! What has happened in a boot before it makes a request: nothing is provisioned unless the
marker is missing, and no marker is made unless everything is provisioned. -/

set_option autoImplicit false

namespace AzureInit.Agent

open Foundation
open Foundation.Event
open AzureInit.Configuration (Config)
open Provision (AnyhowError HostEvent OvfEnvironment)

instance (request : BootRequest) : Nonempty request.Reply := by
  cases request with
  | now => exact ⟨[]⟩
  | host request => exact ⟨.error { kind := .other }⟩
  | loadConfig | buildClient => exact ⟨.error []⟩
  | query | reportReady | reportFailure => exact ⟨.error .timeout⟩
  | getEnvironment => exact ⟨.error Provision.noEnvironment⟩
  | _ => exact ⟨.error { kind := .other }⟩

/-! ## Grounds -/

section Grounds

variable (platform : Platform) (opts : Cli)

/-- Provisioning is possible: the metadata are there. -/
structure Fetched (config : Config) (vmId : Text) (metadata : InstanceMetadata)
    (log : List BootEvent) : Prop where
  begun : Begun platform opts config vmId log
  told : (⟨.query config, .ok metadata⟩ : BootEvent) ∈ log

/-- Provisioning has come to its end with these metadata. -/
structure Completed (config : Config) (vmId : Text) (metadata : InstanceMetadata)
    (log : List BootEvent) : Prop where
  fetched : Fetched platform opts config vmId metadata log
  provisioned : Logged ((provisioningFor opts config metadata).provision platform.regex).run
    (.ok ()) (hostLog log)

def Ground : BootRequest → List BootEvent → Prop
  | .buildClient _, log => ∃ config vmId, Begun platform opts config vmId log
  | .query config, log => ∃ vmId, Begun platform opts config vmId log
  | .getEnvironment, log => ∃ config vmId, Begun platform opts config vmId log
  | .host _, log => ∃ config vmId metadata, Fetched platform opts config vmId metadata log
  | .createFile path mode, log => mode = 0o600 ∧ ∃ config vmId metadata,
      path = markerPath config vmId ∧ Completed platform opts config vmId metadata log
  | .reportReady config vmId, log => Begun platform opts config vmId log ∧
      (⟨.createFile (markerPath config vmId) 0o600, .ok ()⟩ : BootEvent) ∈ log
  | .reportFailure _ _, log => Unmarked log
  | .removeFile path, log => ∃ logs config, opts.command = some (.clean logs) ∧
      (⟨.loadConfig opts.config, .ok config⟩ : BootEvent) ∈ log ∧
      (extension path = some provisioned ∨
        logs = true ∧ path = config.azureInitLogPath.path)
  | _, _ => True

end Grounds

section Facts

variable {platform : Platform} {opts : Cli} {config : Config} {vmId : Text}
  {metadata : InstanceMetadata} {log earlier : List BootEvent}

theorem Fetched.append (fetched : Fetched platform opts config vmId metadata log)
    (more : List BootEvent) : Fetched platform opts config vmId metadata (log ++ more) where
  begun := fetched.begun.append more
  told := List.mem_append_left _ fetched.told

theorem BootRequest.Plain.ground {request : BootRequest} (plain : request.Plain)
    (log : List BootEvent) : Ground platform opts request log := by
  cases request with
  | readToString | metadata | createDirAll | setPermissions | readDir | now | loadConfig =>
      trivial
  | _ => exact plain.elim

theorem founded_of_plain (plain : PlainLog log) : Founded (Ground platform opts) earlier log := by
  induction log generalizing earlier with
  | nil => trivial
  | cons event log ih =>
      exact ⟨(plain event List.mem_cons_self).ground earlier,
        ih fun other member => plain other (List.mem_cons_of_mem _ member)⟩

theorem founded_map_ofHost (fetched : Fetched platform opts config vmId metadata earlier)
    (events : List HostEvent) :
    Founded (Ground platform opts) earlier (events.map BootEvent.ofHost) := by
  induction events generalizing earlier with
  | nil => trivial
  | cons event events ih => exact ⟨⟨config, vmId, metadata, fetched⟩, ih (fetched.append _)⟩

theorem founded_markProvisioningComplete {result : Except Kvp.IoError Unit}
    (logged : Logged (markProvisioningComplete config vmId).run result log)
    (completed : Completed platform opts config vmId metadata earlier) :
    Founded (Ground platform opts) earlier log := by
  obtain ⟨dirs, plain, same⟩ := mark_of_logged logged
  rcases same with failed | created
  · obtain ⟨rfl, -⟩ := failed
    exact founded_of_plain plain
  · rw [created]
    refine founded_append_iff.mpr ⟨founded_of_plain plain, ?_, trivial⟩
    refine ⟨rfl, config, vmId, metadata, rfl, completed.fetched.append dirs, ?_⟩
    rw [hostLog_append, plain.hostLog_eq, List.append_nil]
    exact completed.provisioned

theorem founded_sourceLog (begun : Begun platform opts config vmId earlier)
    (answer : Except Error InstanceMetadata) (media : Except AnyhowError OvfEnvironment) :
    Founded (Ground platform opts) earlier (sourceLog config answer media) :=
  ⟨⟨config, vmId, begun⟩, ⟨vmId, begun.append _⟩,
    ⟨config, vmId, (begun.append _).append _⟩, trivial⟩

theorem founded_of_attempt {result : Except BootError Unit}
    (attempt : Attempt platform opts config vmId result log)
    (begun : Begun platform opts config vmId earlier) (quiet : hostLog earlier = []) :
    Founded (Ground platform opts) earlier log := by
  have fetched : ∀ metadata media, Fetched platform opts config vmId metadata
      (earlier ++ sourceLog config (.ok metadata) media) := fun metadata media =>
    ⟨begun.append _, by simp [sourceLog]⟩
  have completed : ∀ {metadata media events},
      Logged ((provisioningFor opts config metadata).provision platform.regex).run (.ok ()) events →
      Completed platform opts config vmId metadata
        (earlier ++ (sourceLog config (.ok metadata) media ++ events.map BootEvent.ofHost)) := by
    intro metadata media events executed
    rw [← List.append_assoc]
    refine ⟨(fetched metadata media).append _, ?_⟩
    rw [hostLog_append, hostLog_append, quiet, hostLog_map_ofHost]
    exact executed
  cases attempt with
  | unbuilt => exact ⟨⟨config, vmId, begun⟩, trivial⟩
  | unnamed => exact founded_sourceLog begun ..
  | untold => exact founded_sourceLog begun ..
  | stopped executed =>
      exact founded_append_iff.mpr
        ⟨founded_sourceLog begun .., founded_map_ofHost (fetched ..) _⟩
  | unmarked executed written =>
      refine founded_append_iff.mpr ⟨founded_append_iff.mpr
        ⟨founded_sourceLog begun .., founded_map_ofHost (fetched ..) _⟩, ?_⟩
      exact founded_markProvisioningComplete written (completed executed)
  | marked executed written =>
      refine founded_append_iff.mpr ⟨founded_append_iff.mpr
        ⟨founded_sourceLog begun .., founded_map_ofHost (fetched ..) _⟩, ?_⟩
      exact founded_markProvisioningComplete written (completed executed)

/-! ## Cleaning -/

/-- What cleaning asks for. -/
def BootRequest.Cleans (config : Config) (logs : Bool) : BootRequest → Prop
  | .readDir _ => True
  | .removeFile path => extension path = some provisioned ∨
      logs = true ∧ path = config.azureInitLogPath.path
  | _ => False

/-- Markers among the entries are removed. -/
def BootRequest.RemovesFrom (entries : List (Except Kvp.IoError Text)) : BootRequest → Prop
  | .removeFile path => .ok path ∈ entries ∧ extension path = some provisioned
  | _ => False

theorem BootRequest.RemovesFrom.cleans {entries : List (Except Kvp.IoError Text)}
    {request : BootRequest} (removes : request.RemovesFrom entries) (logs : Bool) :
    request.Cleans config logs := by
  cases request with
  | removeFile path => exact .inl removes.2
  | _ => exact removes.elim

theorem uses_removeIfPresent {permitted : BootRequest → Prop} {path : Text}
    (allowed : permitted (.removeFile path)) : (removeIfPresent path).run.Uses permitted := by
  refine ⟨allowed, fun reply => ?_⟩
  cases reply with
  | ok value => trivial
  | error error =>
      show Program.Uses permitted (ExceptT.run (if _ then _ else _))
      split_ifs <;> exact Program.uses_pure _

theorem uses_cleanEntries (entries : List (Except Kvp.IoError Text)) :
    (cleanEntries entries).run.Uses (BootRequest.RemovesFrom entries) := by
  induction entries with
  | nil => exact Program.uses_pure _
  | cons entry entries ih =>
      cases entry with
      | error error => exact Program.uses_pure _
      | ok path =>
          have later : (cleanEntries entries).run.Uses
              (BootRequest.RemovesFrom (.ok path :: entries)) := ih.imp fun request removes => by
            cases request with
            | removeFile other => exact removes.imp_left (List.mem_cons_of_mem _)
            | _ => exact removes.elim
          unfold cleanEntries
          split_ifs with marker
          · exact usesExcept_bind (uses_removeIfPresent ⟨List.mem_cons_self, marker⟩) fun _ => later
          · exact later

theorem uses_cleanProvisioningStatus (logs : Bool) :
    (cleanProvisioningStatus config).run.Uses (BootRequest.Cleans config logs) := by
  refine ⟨trivial, fun reply => ?_⟩
  cases reply with
  | ok entries => exact (uses_cleanEntries entries).imp fun _ removes => removes.cleans logs
  | error error =>
      show Program.Uses _ (ExceptT.run (if _ then _ else _))
      split_ifs <;> exact Program.uses_pure _

theorem uses_clean (logs : Bool) : (clean config logs).Uses (BootRequest.Cleans config logs) := by
  refine (uses_cleanProvisioningStatus logs).bind fun outcome => ?_
  cases outcome with
  | error error => exact Program.uses_pure _
  | ok value =>
      cases logs with
      | false => exact Program.uses_pure _
      | true =>
          refine (uses_removeIfPresent (.inr ⟨rfl, rfl⟩)).bind fun outcome => ?_
          cases outcome <;> exact Program.uses_pure _

theorem founded_clean {logs : Bool} {code : ExitCode}
    (logged : Logged (clean config logs) code log) (command : opts.command = some (.clean logs))
    (loaded : (⟨.loadConfig opts.config, .ok config⟩ : BootEvent) ∈ earlier) :
    Founded (Ground platform opts) earlier log := by
  refine founded_of_uses (uses_clean logs) logged fun request later cleans => ?_
  cases request with
  | readDir path => trivial
  | removeFile path => exact ⟨logs, config, command, List.mem_append_left _ loaded, cleans⟩
  | _ => exact cleans.elim

/-! ## Whole boots -/

theorem unmarked_of_attempt {error : BootError}
    (attempt : Attempt platform opts config vmId (.error error) log) : Unmarked log := by
  intro path mode member
  cases attempt with
  | unbuilt => simp at member
  | unnamed => simp [sourceLog] at member
  | untold => simp [sourceLog] at member
  | stopped executed => simp [sourceLog, BootEvent.ofHost] at member
  | unmarked executed written =>
      obtain ⟨dirs, plain, same⟩ := mark_of_logged written
      rcases List.mem_append.mp member with before | marking
      · simp [sourceLog, BootEvent.ofHost] at before
      · rcases same with failed | created
        · obtain ⟨rfl, -⟩ := failed
          exact plain.unmarked path mode marking
        · rw [created] at marking
          rcases List.mem_append.mp marking with looked | failed
          · exact plain.unmarked path mode looked
          · cases List.mem_singleton.mp failed

theorem created_of_attempt (attempt : Attempt platform opts config vmId (.ok ()) log) :
    ∃ before, log = before ++ [⟨.createFile (markerPath config vmId) 0o600, .ok ()⟩] := by
  cases attempt with
  | marked executed written =>
      obtain ⟨dirs, plain, same⟩ := mark_of_logged written
      rcases same with failed | created
      · exact (failed.2 rfl).elim
      · rw [created, ← List.append_assoc]
        exact ⟨_, rfl⟩

theorem founded_of_outcome {code : ExitCode} (outcome : Outcome platform opts code log) :
    Founded (Ground platform opts) [] log := by
  cases outcome with
  | version _ plain => exact founded_of_plain plain
  | unconfigured plain _ _ =>
      refine founded_append_iff.mpr ⟨founded_of_plain plain, trivial, ?_, trivial⟩
      exact (plain.append (plainLog_singleton .now _ trivial)).unmarked
  | cleaned command plain loaded cleaned =>
      exact founded_append_iff.mpr
        ⟨founded_of_plain plain, founded_clean cleaned command loaded⟩
  | skipped _ plain _ _ _ => exact founded_of_plain plain
  | provisioned begun plain attempt =>
      have attempted := founded_of_attempt attempt begun plain.hostLog_eq
      refine founded_append_iff.mpr ⟨founded_append_iff.mpr ⟨founded_of_plain plain, attempted⟩,
        ⟨begun.append _, ?_⟩, trivial⟩
      obtain ⟨_, rfl⟩ := created_of_attempt attempt
      simp
  | failed begun plain attempt =>
      have attempted := founded_of_attempt attempt begun plain.hostLog_eq
      refine founded_append_iff.mpr ⟨founded_append_iff.mpr ⟨founded_of_plain plain, attempted⟩,
        trivial, ?_, trivial⟩
      exact (plain.unmarked.append (unmarked_of_attempt attempt)).append
        (plainLog_singleton .now _ trivial).unmarked

/-- Wherever a boot is cut off, every request it has made had its ground. -/
theorem founded_main {rest : BootProgram ExitCode}
    (reached : Program.Reaches Recorded (main platform opts) [] rest log) :
    Founded (Ground platform opts) [] log :=
  founded_of_reaches reached fun _ _ logged => founded_of_outcome (outcome_of_main logged)

end Facts

end AzureInit.Agent
