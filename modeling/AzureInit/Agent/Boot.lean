import AzureInit.Agent.ProvisioningStatus

/-! The agent from its command line to its exit code. -/

set_option autoImplicit false

namespace AzureInit.Agent

open Foundation
open Foundation.Program (ask)
open Kvp (IoError)
open AzureInit.Configuration (Config)
open Provision (HostError HostIo OvfEnvironment Provisioning User)

variable (platform : Platform)

/-- The errors of provisioning, as errors of the agent. -/
def hostErrorOf : HostError → Error
  | .io error => .io (platform.printIoError error)
  | .rustix error => .rustix (platform.printIoError error)
  | .subprocessFailed command status =>
      .subprocessFailed (platform.printCommand command) (platform.printStatus status)
  | .userMissing user => .userMissing user
  | .noHostnameProvisioner => .noHostnameProvisioner
  | .noUserProvisioner => .noUserProvisioner
  | .noPasswordProvisioner => .noPasswordProvisioner
  | .updateSshdConfig => .updateSshdConfig
  | .unhandledError details => .unhandledError details

/-- Requests of provisioning, as requests of the agent. -/
def onHost {α : Type} (program : Provision.HostProgram α) : BootProgram α :=
  program.interpret fun request => ask (.host request)

/-! ## Provisioning -/

def getUsername (instanceMetadata : Option InstanceMetadata) (environment : Option OvfEnvironment) :
    Except BootError Text :=
  match instanceMetadata, environment with
  | some metadata, _ => .ok metadata.compute.osProfile.adminUsername
  | none, some environment =>
      .ok environment.provisioningSection.linuxProvConfSet.username
  | none, none => .error (.agent .usernameFailure)

/-- What is provisioned with the metadata of an instance. -/
def provisioningOf (config : Config) (groups : List Text) (username : Text)
    (metadata : InstanceMetadata) : Provisioning where
  hostname := metadata.compute.osProfile.computerName
  user := (User.new username metadata.compute.publicKeys).withGroups groups
  config := config
  disablePasswordAuthentication := metadata.compute.osProfile.disablePasswordAuthentication

def markFailed : Text := "Failed to mark provisioning complete.".toList

/-- The last part of `provision`: the instance is provisioned and marked. -/
def provisionInstance (provisioning : Provisioning) (vmId : Text) :
    ExceptT BootError BootProgram Unit := do
  ExceptT.mk (Except.mapError (.agent ∘ hostErrorOf platform) <$>
    onHost (provisioning.provision platform.regex).run)
  ExceptT.mk (Except.mapError (.context markFailed ∘ .io ∘ platform.printIoError) <$>
    (markProvisioningComplete provisioning.config vmId).run)

/-- The first part: both sources are asked, and neither has to answer. -/
def sources (config : Config) :
    ExceptT BootError BootProgram (Option InstanceMetadata × Option OvfEnvironment) := do
  ExceptT.mk (Except.mapError .other <$>
    ask (BootRequest.buildClient config.imds.connectionTimeoutSecs))
  let instanceMetadata ← ExceptT.lift (Except.toOption <$> ask (BootRequest.query config))
  let environment ← ExceptT.lift (Except.toOption <$> ask BootRequest.getEnvironment)
  return (instanceMetadata, environment)

/-- The name of the user may come from either source; the rest is metadata. -/
def provision (config : Config) (vmId : Text) (opts : Cli) :
    ExceptT BootError BootProgram Unit := do
  let (instanceMetadata, environment) ← sources config
  let username ← ExceptT.mk (pure (getUsername instanceMetadata environment))
  match instanceMetadata with
  | none => throw (.agent .instanceMetadataFailure)
  | some metadata =>
      provisionInstance platform (provisioningOf config opts.groups username metadata) vmId

/-! ## Reports and exit codes -/

/-- An error of the agent is reported as it is, another one with its text. -/
def reportedError (error : BootError) : Error :=
  match error with
  | .agent error => error
  | .context _ error => error
  | .other printed => .unhandledError printed

def encodedFailure (error : Error) (vmId : Text) : BootProgram Text := do
  return error.asEncodedReport platform.csvWriteRecord platform.order
    (← ask BootRequest.now) vmId

def exitCodeOf (error : BootError) : ExitCode :=
  match error.rootCause with
  | some (.userMissing _) => ExitCode.config
  | some .nonEmptyPassword => ExitCode.config
  | _ => ExitCode.failure

/-- What comes of provisioning is reported; whether the report arrives does not matter. -/
def provisionAndReport (config : Config) (vmId : Text) (opts : Cli) : BootProgram ExitCode := do
  match ← (provision platform config vmId opts).run with
  | .ok () =>
      let _ ← ask (BootRequest.reportReady config vmId)
      return ExitCode.success
  | .error error =>
      let reportStr ← encodedFailure platform (reportedError error) vmId
      let _ ← ask (BootRequest.reportFailure reportStr config)
      return exitCodeOf error

/-! ## The agent -/

def clean (config : Config) (logs : Bool) : BootProgram ExitCode := do
  match ← (cleanProvisioningStatus config).run with
  | .error _ => return ExitCode.failure
  | .ok () =>
      if logs then
        match ← (cleanLogFile config).run with
        | .error _ => return ExitCode.failure
        | .ok () => return ExitCode.success
      else return ExitCode.success

def nilVmId : Text := "00000000-0000-0000-0000-000000000000".toList

/-- The command, behind the configuration. -/
def runCommand (config : Config) (vmId : Text) (opts : Cli) : BootProgram ExitCode := do
  match opts.command with
  | some (.clean logs) => clean config logs
  | none =>
      if ← isProvisioningComplete config vmId then return ExitCode.success
      else provisionAndReport platform config vmId opts

def main (opts : Cli) : BootProgram ExitCode := do
  let vmId := (← getVmId platform).getD nilVmId
  if opts.showVersion then return ExitCode.success
  else
    match ← ask (BootRequest.loadConfig opts.config) with
    | .error details =>
        let reportStr ← encodedFailure platform (.loadSshdConfig details) vmId
        let _ ← ask (BootRequest.reportFailure reportStr {})
        return ExitCode.failure
    | .ok config => runCommand platform config vmId opts

end AzureInit.Agent
