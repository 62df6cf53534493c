import AzureInit.Foundation.ProgramRefinement
import AzureInit.Kvp.Error

/-! The provisioning media: how a device is mounted, read and unmounted, and the search for
the OVF environment over the devices of the mount table. -/

set_option autoImplicit false

namespace AzureInit.Provision

open Foundation
open Foundation.Program (ask)
open Kvp (IoError)

/-! ## The environment -/

structure LinuxProvisioningConfigurationSet where
  username : Text
  password : Text
  hostname : Text
  deriving DecidableEq, Repr

structure ProvisioningSection where
  version : Text
  linuxProvConfSet : LinuxProvisioningConfigurationSet
  deriving DecidableEq, Repr

structure PlatformSettings where
  preprovisionedVm : Bool
  preprovisionedVmType : Text
  deriving DecidableEq, Repr

structure PlatformSettingsSection where
  version : Text
  platformSettings : PlatformSettings
  deriving DecidableEq, Repr

structure OvfEnvironment where
  provisioningSection : ProvisioningSection
  platformSettingsSection : PlatformSettingsSection
  deriving DecidableEq, Repr

/-! ## Commands, errors and requests -/

structure Command where
  program : Text
  args : List Text
  deriving DecidableEq, Repr

structure ExitStatus where
  code : Nat
  deriving DecidableEq, Repr

def ExitStatus.success (status : ExitStatus) : Bool := status.code == 0

inductive MediaError where
  | io (error : IoError)
  | subprocessFailed (command : Command) (status : ExitStatus)
  | xml (message : Text)
  | nonEmptyPassword
  deriving DecidableEq, Repr

/-- The columns of the mount table that are looked at. -/
structure FsEntry where
  fsSpec : Text
  vfsType : Text
  deriving DecidableEq, Repr

inductive MediaRequest where
  | getEntries (path : Text)
  | createDirAll (path : Text)
  | metadata (path : Text)
  | setPermissions (path : Text) (mode : Nat)
  | output (command : Command)
  | openFile (path : Text)
  | readToString (path : Text)
  deriving DecidableEq, Repr

abbrev MediaRequest.Value : MediaRequest → Type
  | .getEntries _ => List FsEntry
  | .createDirAll _ => Unit
  | .metadata _ => Nat
  | .setPermissions _ _ => Unit
  | .output _ => ExitStatus
  | .openFile _ => Unit
  | .readToString _ => Text

abbrev MediaRequest.Reply (request : MediaRequest) : Type := Except IoError request.Value

abbrev MediaProgram : Type → Type := Program MediaRequest MediaRequest.Reply

abbrev MediaIo : Type → Type := ExceptT MediaError MediaProgram

/-- The `?` of an I/O result. -/
def perform (request : MediaRequest) : MediaIo request.Value :=
  ExceptT.mk (Except.mapError .io <$> ask request)

/-- A command runs to its end, and its status has to be a success. -/
def runCommand (command : Command) : MediaIo Unit := do
  let status ← perform (.output command)
  if !status.success then
    throw (.subprocessFailed command status)

/-! ## Media -/

inductive MediaState where
  | mounted
  | unmounted
  deriving DecidableEq, Repr

structure Media (state : MediaState) where
  devicePath : Text
  mountPath : Text
  deriving DecidableEq, Repr

def mountCommand (devicePath mountPath : Text) : Command :=
  { program := "mount".toList, args := ["-o".toList, "ro".toList, devicePath, mountPath] }

def umountCommand (mountPath : Text) : Command :=
  { program := "umount".toList, args := [mountPath] }

def ejectCommand (devicePath : Text) : Command :=
  { program := "eject".toList, args := [devicePath] }

/-- A relative path behind a path. -/
def pathPush (path relative : Text) : Text :=
  if path.isEmpty || path.getLast? == some '/' then path ++ relative
  else path ++ '/' :: relative

def Media.mount (media : Media .unmounted) : MediaIo (Media .mounted) := do
  perform (.createDirAll media.mountPath)
  let _ ← perform (.metadata media.mountPath)
  perform (.setPermissions media.mountPath 0o700)
  runCommand (mountCommand media.devicePath media.mountPath)
  return { devicePath := media.devicePath, mountPath := media.mountPath }

def Media.unmount (media : Media .mounted) : MediaIo Unit := do
  runCommand (umountCommand media.mountPath)
  runCommand (ejectCommand media.devicePath)

def Media.readOvfEnvToString (media : Media .mounted) : MediaIo Text := do
  let filePath := pathPush media.mountPath "ovf-env.xml".toList
  perform (.openFile filePath)
  perform (.readToString filePath)

section Environment

variable (fromStr : Text → Except Text OvfEnvironment)

/-- Parsing with the `from_str` of `serde_xml_rs`; a password is refused. -/
def parseOvfEnv (ovfBody : Text) : Except MediaError OvfEnvironment := do
  let environment ← (fromStr ovfBody).mapError .xml
  if !environment.provisioningSection.linuxProvConfSet.password.isEmpty then
    .error .nonEmptyPassword
  else
    .ok environment

def orchestrateOvfEnv (mountFn : MediaIo (Media .mounted))
    (readFn : Media .mounted → MediaIo Text) (unmountFn : Media .mounted → MediaIo Unit) :
    MediaIo OvfEnvironment := do
  let mounted ← mountFn
  let ovfBody ← readFn mounted
  let environment ← ExceptT.mk (pure (parseOvfEnv fromStr ovfBody))
  unmountFn mounted
  return environment

def pathMountPoint : Text := "/run/azure-init/media/".toList

def mountParseOvfEnv (dev : Text) : MediaIo OvfEnvironment :=
  let mountMedia : Media .unmounted := { devicePath := dev, mountPath := pathMountPoint }
  orchestrateOvfEnv fromStr mountMedia.mount Media.readOvfEnvToString Media.unmount

end Environment

def cdromValidFs : List Text := ["iso9660".toList, "udf".toList]

def mtabPath : Text := "/etc/mtab".toList

def cdromDevices (entries : List FsEntry) : List Text :=
  entries.filterMap fun entry =>
    if cdromValidFs.contains entry.vfsType then some entry.fsSpec else none

def getMountDevice (path : Option Text) : MediaIo (List Text) := do
  let entries ← perform (.getEntries (path.getD mtabPath))
  return cdromDevices entries

/-! ## The search -/

inductive SearchRequest where
  | getMountDevice
  | mountParseOvfEnv (dev : Text)
  deriving DecidableEq, Repr

abbrev SearchRequest.Reply : SearchRequest → Type
  | .getMountDevice => Except MediaError (List Text)
  | .mountParseOvfEnv _ => Except MediaError OvfEnvironment

/-- An error that is passed on, or a message of its own. -/
inductive AnyhowError where
  | error (error : MediaError)
  | message (text : Text)
  deriving DecidableEq, Repr

abbrev SearchProgram : Type → Type := Program SearchRequest SearchRequest.Reply

/-- The loop over the devices: a device that fails leaves the environment as it is. -/
def searchDevices : List Text → Option OvfEnvironment → SearchProgram (Option OvfEnvironment)
  | [], environment => pure environment
  | dev :: ovfDevices, environment => do
      match (← ask (.mountParseOvfEnv dev) : Except MediaError OvfEnvironment) with
      | .ok env => searchDevices ovfDevices (some env)
      | .error _ => searchDevices ovfDevices environment

def noEnvironment : AnyhowError := .message "Unable to get list of block devices".toList

def getEnvironment : SearchProgram (Except AnyhowError OvfEnvironment) := do
  match (← ask .getMountDevice : Except MediaError (List Text)) with
  | .error error => return .error (.error error)
  | .ok ovfDevices =>
      let environment ← searchDevices ovfDevices none
      match environment with
      | some environment => return .ok environment
      | none => return .error noEnvironment

/-- What the search asks for, on the media themselves. -/
def SearchRequest.perform (fromStr : Text → Except Text OvfEnvironment) :
    (request : SearchRequest) → MediaProgram request.Reply
  | .getMountDevice => (Provision.getMountDevice none).run
  | .mountParseOvfEnv dev => (Provision.mountParseOvfEnv fromStr dev).run

def getEnvironmentOnMedia (fromStr : Text → Except Text OvfEnvironment) :
    MediaProgram (Except AnyhowError OvfEnvironment) :=
  getEnvironment.interpret (SearchRequest.perform fromStr)

end AzureInit.Provision
