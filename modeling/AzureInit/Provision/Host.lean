import AzureInit.Provision.Media

/-! What provisioning asks of the host: commands, accounts and files. -/

set_option autoImplicit false

namespace AzureInit.Provision

open Foundation
open Foundation.Program (ask)
open Kvp (IoError)

/-- What a command leaves; its output is the text that a lossy conversion makes of it. -/
structure Output where
  status : ExitStatus
  stdout : Text
  deriving DecidableEq, Repr

structure Owner where
  uid : Nat
  gid : Nat
  deriving DecidableEq, Repr

/-- What is read of an entry of the user database. -/
structure SshUser where
  homeDir : Text
  owner : Owner
  deriving DecidableEq, Repr

/-- Errors of provisioning on the host. -/
inductive HostError where
  | io (error : IoError)
  | rustix (error : IoError)
  | subprocessFailed (command : Command) (status : ExitStatus)
  | userMissing (user : Text)
  | noHostnameProvisioner
  | noUserProvisioner
  | noPasswordProvisioner
  | updateSshdConfig
  | unhandledError (details : Text)
  deriving DecidableEq, Repr

/-- Files are named by their paths, and a file that is written was opened before. -/
inductive HostRequest where
  | output (command : Command)
  | spawn (command : Command)
  | writeStdin (text : Text)
  | wait
  | getUserByName (name : Text)
  | metadata (path : Text)
  | createDirAll (path : Text) (mode : Nat)
  | setPermissions (path : Text) (mode : Nat)
  | chown (path : Text) (owner : Owner)
  | createFile (path : Text) (mode : Nat)
  | openTruncate (path : Text)
  | openAppend (path : Text)
  | openRead (path : Text)
  | readToString (path : Text)
  | writeAll (path : Text) (text : Text)
  deriving DecidableEq, Repr

/-- Of the metadata of a path, whether it is a directory is looked at. -/
abbrev HostRequest.Value : HostRequest → Type
  | .output _ => Output
  | .wait => ExitStatus
  | .getUserByName _ => SshUser
  | .metadata _ => Bool
  | .readToString _ => Text
  | _ => Unit

abbrev HostRequest.Reply (request : HostRequest) : Type := Except IoError request.Value

abbrev HostProgram : Type → Type := Program HostRequest HostRequest.Reply

abbrev HostEvent : Type := Event HostRequest.Reply

abbrev HostIo : Type → Type := ExceptT HostError HostProgram

/-- The `?` of an I/O result. -/
def tryHost (request : HostRequest) : HostIo request.Value :=
  ExceptT.mk (Except.mapError .io <$> ask request)

/-- A command runs to its end, and its status has to be a success. -/
def run (command : Command) : HostIo Unit := do
  let output ← tryHost (.output command)
  if !output.status.success then
    throw (.subprocessFailed command output.status)

/-- `Path::exists`. -/
def pathExists (path : Text) : HostProgram Bool := do
  return (← ask (HostRequest.metadata path)).isOk

/-- `Path::is_dir`. -/
def isDir (path : Text) : HostProgram Bool := do
  return (← ask (HostRequest.metadata path)).toOption == some true

/-- A path behind a path, which an absolute one replaces. -/
def pathJoin (path joined : Text) : Text :=
  if joined.head? = some '/' then joined else pathPush path joined

end AzureInit.Provision
