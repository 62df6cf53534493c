import AzureInit.Agent.VmId

/-! The markers that tell which machines have been provisioned, and their removal. -/

set_option autoImplicit false

namespace AzureInit.Agent

open Foundation
open Foundation.Program (ask)
open Kvp (IoError)
open AzureInit.Configuration (Config)
open Provision (pathJoin)

abbrev BootIo : Type → Type := ExceptT IoError BootProgram

/-! ## Markers -/

def provisioned : Text := "provisioned".toList

/-- The marker of a machine. -/
def markerPath (config : Config) (vmId : Text) : Text :=
  pathJoin config.azureInitDataDir.path (vmId ++ '.' :: provisioned)

def isProvisioningComplete (config : Config) (vmId : Text) : BootProgram Bool :=
  pathExists (markerPath config vmId)

/-- A directory that is missing is created; its mode is not insisted on. -/
def checkProvisionDir (config : Config) : BootIo Unit := do
  let dir := config.azureInitDataDir.path
  if !(← ExceptT.lift (pathExists dir)) then
    ExceptT.mk (ask (BootRequest.createDirAll dir))
    let _ ← ExceptT.lift (ask (BootRequest.setPermissions dir 0o700))

def markProvisioningComplete (config : Config) (vmId : Text) : BootIo Unit := do
  checkProvisionDir config
  ExceptT.mk (ask (BootRequest.createFile (markerPath config vmId) 0o600))

/-! ## Cleaning -/

/-- `Path::file_name` of a path that does not end in a slash or in two dots. -/
def fileName (path : Text) : Text := path.rtakeWhile (· != '/')

/-- `Path::extension`: what stands behind the last dot, which is not the first character. -/
def extension (path : Text) : Option Text :=
  let name := fileName path
  match name.rdropWhile (· != '.') with
  | [] => none
  | [_] => none
  | _ :: _ :: _ => some (name.rtakeWhile (· != '.'))

/-- Removal of a file; one that is not there is left at that. -/
def removeIfPresent (path : Text) : BootIo Unit := do
  match ← ExceptT.lift (ask (BootRequest.removeFile path)) with
  | .ok () => return ()
  | .error error => if error.kind = .notFound then return () else throw error

def cleanEntries : List (Except IoError Text) → BootIo Unit
  | [] => return ()
  | .error error :: _ => throw error
  | .ok path :: entries => do
      if extension path = some provisioned then
        removeIfPresent path
      cleanEntries entries

def cleanProvisioningStatus (config : Config) : BootIo Unit := do
  match ← ExceptT.lift (ask (BootRequest.readDir config.azureInitDataDir.path)) with
  | .error error => if error.kind = .notFound then return () else throw error
  | .ok entries => cleanEntries entries

def cleanLogFile (config : Config) : BootIo Unit := removeIfPresent config.azureInitLogPath.path

end AzureInit.Agent
