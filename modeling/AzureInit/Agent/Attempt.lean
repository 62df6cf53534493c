import AzureInit.Agent.Boot

/-! An attempt to provision a machine: what it comes to, and what it has asked for. -/

set_option autoImplicit false

namespace AzureInit.Agent

open Foundation
open Foundation.Program (ask)
open Foundation.Event
open AzureInit.Configuration (Config)
open Provision (AnyhowError HostError HostEvent HostProgram OvfEnvironment Provisioning)

/-! ## The part of provisioning in a log -/

def BootEvent.host? : BootEvent → Option HostEvent
  | ⟨.host request, reply⟩ => some ⟨request, reply⟩
  | _ => none

def BootEvent.ofHost (event : HostEvent) : BootEvent := ⟨.host event.request, event.reply⟩

def hostLog (log : List BootEvent) : List HostEvent := log.filterMap BootEvent.host?

@[simp] theorem hostLog_append (first second : List BootEvent) :
    hostLog (first ++ second) = hostLog first ++ hostLog second :=
  List.filterMap_append

@[simp] theorem hostLog_map_ofHost (log : List HostEvent) :
    hostLog (log.map BootEvent.ofHost) = log := by
  unfold hostLog
  rw [List.filterMap_map]
  exact List.filterMap_some

/-- An execution of provisioning makes up its part of the log. -/
theorem logged_onHost_iff {α : Type} {program : HostProgram α} {result : α} {log : List BootEvent} :
    Logged (onHost program) result log ↔
      ∃ events, Logged program result events ∧ log = events.map BootEvent.ofHost := by
  induction program generalizing log with
  | done value =>
      constructor
      · intro done
        obtain ⟨rfl, rfl⟩ := logged_pure_iff.mp done
        exact ⟨[], logged_pure_iff.mpr ⟨rfl, rfl⟩, rfl⟩
      · intro done
        obtain ⟨events, done, rfl⟩ := done
        obtain ⟨rfl, rfl⟩ := logged_pure_iff.mp done
        exact logged_pure_iff.mpr ⟨rfl, rfl⟩
  | call request next ih =>
      have asked : onHost (.call request next) =
          .call (BootRequest.host request) fun reply => onHost (next reply) := rfl
      rw [asked, logged_call_iff]
      constructor
      · intro split
        obtain ⟨reply, rest, continued, rfl⟩ := split
        obtain ⟨events, executed, rfl⟩ := (ih reply).mp continued
        exact ⟨⟨request, reply⟩ :: events, logged_call_iff.mpr ⟨reply, events, executed, rfl⟩, rfl⟩
      · intro split
        obtain ⟨events, executed, rfl⟩ := split
        obtain ⟨reply, rest, continued, rfl⟩ := logged_call_iff.mp executed
        exact ⟨reply, rest.map BootEvent.ofHost, (ih reply).mpr ⟨rest, continued, rfl⟩, rfl⟩

/-! ## The outcomes of an attempt -/

/-- What is provisioned with the metadata that the service has told. -/
def provisioningFor (opts : Cli) (config : Config) (metadata : InstanceMetadata) : Provisioning :=
  provisioningOf config opts.groups metadata.compute.osProfile.adminUsername metadata

/-- The events of asking both sources. -/
def sourceLog (config : Config) (answer : Except Error InstanceMetadata)
    (media : Except AnyhowError OvfEnvironment) : List BootEvent :=
  [⟨.buildClient config.imds.connectionTimeoutSecs, .ok ()⟩, ⟨.query config, answer⟩,
    ⟨.getEnvironment, media⟩]

section Attempt

variable (platform : Platform) (opts : Cli)

/-- What an attempt to provision a machine comes to, with its log. -/
inductive Attempt (config : Config) (vmId : Text) : Except BootError Unit → List BootEvent → Prop where
  | unbuilt {printed : Text} :
      Attempt config vmId (.error (.other printed))
        [⟨.buildClient config.imds.connectionTimeoutSecs, .error printed⟩]
  | unnamed {error : Error} {mediaError : AnyhowError} :
      Attempt config vmId (.error (.agent .usernameFailure))
        (sourceLog config (.error error) (.error mediaError))
  | untold {error : Error} {environment : OvfEnvironment} :
      Attempt config vmId (.error (.agent .instanceMetadataFailure))
        (sourceLog config (.error error) (.ok environment))
  | stopped {metadata : InstanceMetadata} {media : Except AnyhowError OvfEnvironment}
      {error : HostError} {events : List HostEvent} :
      Logged ((provisioningFor opts config metadata).provision platform.regex).run
        (.error error) events →
      Attempt config vmId (.error (.agent (hostErrorOf platform error)))
        (sourceLog config (.ok metadata) media ++ events.map BootEvent.ofHost)
  | unmarked {metadata : InstanceMetadata} {media : Except AnyhowError OvfEnvironment}
      {events : List HostEvent} {error : Kvp.IoError} {log : List BootEvent} :
      Logged ((provisioningFor opts config metadata).provision platform.regex).run (.ok ()) events →
      Logged (markProvisioningComplete config vmId).run (.error error) log →
      Attempt config vmId (.error (.context markFailed (.io (platform.printIoError error))))
        (sourceLog config (.ok metadata) media ++ events.map BootEvent.ofHost ++ log)
  | marked {metadata : InstanceMetadata} {media : Except AnyhowError OvfEnvironment}
      {events : List HostEvent} {log : List BootEvent} :
      Logged ((provisioningFor opts config metadata).provision platform.regex).run (.ok ()) events →
      Logged (markProvisioningComplete config vmId).run (.ok ()) log →
      Attempt config vmId (.ok ())
        (sourceLog config (.ok metadata) media ++ events.map BootEvent.ofHost ++ log)

end Attempt

section Facts

variable {platform : Platform} {opts : Cli} {config : Config} {vmId : Text} {log : List BootEvent}

/-- The client that cannot be built ends the part at once. -/
theorem sources_of_logged {outcome : Except BootError _}
    (logged : Logged (sources config).run outcome log) :
    (∃ printed, outcome = .error (.other printed) ∧
      log = [⟨.buildClient config.imds.connectionTimeoutSecs, .error printed⟩]) ∨
    (∃ answer media, outcome = .ok (answer.toOption, media.toOption) ∧
      log = sourceLog config answer media) := by
  obtain ⟨client, rest, provided, rfl⟩ := logged_call_iff.mp logged
  cases client with
  | error printed =>
      obtain ⟨rfl, rfl⟩ := logged_pure_iff.mp provided
      exact .inl ⟨printed, rfl, rfl⟩
  | ok value =>
      obtain ⟨answer, rest, queried, rfl⟩ := logged_call_iff.mp provided
      obtain ⟨media, rest, searched, rfl⟩ := logged_call_iff.mp queried
      obtain ⟨rfl, rfl⟩ := logged_pure_iff.mp searched
      exact .inr ⟨answer, media, rfl, rfl⟩

theorem attempt_of_logged {result : Except BootError Unit}
    (logged : Logged (provision platform config vmId opts).run result log) :
    Attempt platform opts config vmId result log := by
  rcases logged_except_bind_iff.mp logged with answered | failed
  · obtain ⟨told, first, rest, answered, continued, rfl⟩ := answered
    rcases sources_of_logged answered with unbuilt | complete
    · obtain ⟨printed, unequal, -⟩ := unbuilt
      cases unequal
    obtain ⟨answer, media, same, rfl⟩ := complete
    cases same
    cases answer with
    | error error =>
        cases media with
        | error mediaError =>
            obtain ⟨rfl, rfl⟩ := logged_pure_iff.mp continued
            exact .unnamed
        | ok environment =>
            obtain ⟨rfl, rfl⟩ := logged_pure_iff.mp continued
            exact .untold
    | ok metadata =>
        have provisioned : Logged (provisionInstance platform
            (provisioningFor opts config metadata) vmId).run result rest := continued
        rcases logged_except_bind_iff.mp provisioned with hosted | stopped
        · obtain ⟨value, first, last, hosted, marked, rfl⟩ := hosted
          obtain ⟨ended, ran, same⟩ := logged_map_iff.mp hosted
          obtain ⟨events, executed, rfl⟩ := logged_onHost_iff.mp ran
          cases ended with
          | error error => cases same
          | ok value =>
              obtain ⟨written, created, rfl⟩ := logged_map_iff.mp marked
              rw [← List.append_assoc]
              cases written with
              | error error => exact .unmarked executed created
              | ok value => exact .marked executed created
        · obtain ⟨error, hosted, rfl⟩ := stopped
          obtain ⟨ended, ran, same⟩ := logged_map_iff.mp hosted
          obtain ⟨events, executed, rfl⟩ := logged_onHost_iff.mp ran
          cases ended with
          | ok value => cases same
          | error error =>
              cases same
              exact .stopped executed
  · obtain ⟨error, answered, rfl⟩ := failed
    rcases sources_of_logged answered with unbuilt | complete
    · obtain ⟨printed, same, rfl⟩ := unbuilt
      cases same
      exact .unbuilt
    · obtain ⟨answer, media, unequal, -⟩ := complete
      cases unequal

end Facts

end AzureInit.Agent
