import AzureInit.Agent.EncodedReports
import AzureInit.Provision.Provisioning

/-! What the agent asks for in the course of a boot, and what it is answered. -/

set_option autoImplicit false

namespace AzureInit.Agent

open Foundation
open Foundation.Program (ask)
open Kvp (IoError)
open AzureInit.Configuration (Config)
open Provision (HostRequest HostError PublicKeys OvfEnvironment AnyhowError ExitStatus RegexCrate)
open Diagnostics (CsvWriteRecord)

/-! ## Instance metadata -/

structure OsProfile where
  adminUsername : Text
  computerName : Text
  disablePasswordAuthentication : Bool
  deriving DecidableEq, Repr

structure Compute where
  osProfile : OsProfile
  publicKeys : List PublicKeys
  deriving DecidableEq, Repr

structure InstanceMetadata where
  compute : Compute
  deriving DecidableEq, Repr

/-! ## The command line -/

inductive Command where
  | clean (logs : Bool)
  deriving DecidableEq, Repr

structure Cli where
  groups : List Text
  config : Option Text
  showVersion : Bool
  command : Option Command
  deriving DecidableEq, Repr

abbrev ExitCode : Type := UInt8

namespace ExitCode

def success : ExitCode := 0

def failure : ExitCode := 1

/-- `exitcode::CONFIG`. -/
def config : ExitCode := 78

end ExitCode

/-! ## Other crates -/

/-- The sixteen bytes of a UUID. -/
structure Uuid where
  bytes : List UInt8
  length_eq : bytes.length = 16
  deriving DecidableEq, Repr

/-- The UUID crate. -/
structure UuidCrate where
  parseStr : Text → Option Uuid
  toText : Uuid → Text

/-- What of other crates and of the platform a boot depends on. -/
structure Platform where
  littleEndian : Bool
  toLowercase : Text → Text
  uuid : UuidCrate
  regex : RegexCrate
  csvWriteRecord : CsvWriteRecord
  order : MapOrder
  printIoError : IoError → Text
  printCommand : Provision.Command → Text
  printStatus : ExitStatus → Text

/-! ## Requests -/

/-- A configuration that cannot be loaded and a client that cannot be built are told by the
texts that their errors print. -/
inductive BootRequest where
  | readToString (path : Text)
  | metadata (path : Text)
  | createDirAll (path : Text)
  | setPermissions (path : Text) (mode : Nat)
  | createFile (path : Text) (mode : Nat)
  | readDir (path : Text)
  | removeFile (path : Text)
  | now
  | loadConfig (path : Option Text)
  | buildClient (connectionTimeoutSecs : Float)
  | query (config : Config)
  | getEnvironment
  | host (request : HostRequest)
  | reportReady (config : Config) (vmId : Text)
  | reportFailure (report : Text) (config : Config)

abbrev BootRequest.Reply : BootRequest → Type
  | .readToString _ => Except IoError Text
  | .metadata _ => Except IoError Bool
  | .createDirAll _ => Except IoError Unit
  | .setPermissions _ _ => Except IoError Unit
  | .createFile _ _ => Except IoError Unit
  | .readDir _ => Except IoError (List (Except IoError Text))
  | .removeFile _ => Except IoError Unit
  | .now => Text
  | .loadConfig _ => Except Text Config
  | .buildClient _ => Except Text Unit
  | .query _ => Except Error InstanceMetadata
  | .getEnvironment => Except AnyhowError OvfEnvironment
  | .host request => request.Reply
  | .reportReady _ _ => Except Error Unit
  | .reportFailure _ _ => Except Error Unit

abbrev BootProgram : Type → Type := Program BootRequest BootRequest.Reply

abbrev BootEvent : Type := Event BootRequest.Reply

/-- What `anyhow` carries: an error of the agent, with a context or without, or another one
as it is printed. -/
inductive BootError where
  | agent (error : Error)
  | context (context : Text) (error : Error)
  | other (printed : Text)
  deriving DecidableEq, Repr

namespace BootError

/-- `downcast_ref` to an error of the agent. -/
def asError : BootError → Option Error
  | .agent error => some error
  | .context _ error => some error
  | .other _ => none

end BootError

namespace Error

/-- Whether the error is made from another one, which is then its source. -/
def hasSource : Error → Bool
  | .json _ | .xml _ | .http _ | .io _ | .nulError _ | .rustix _ | .blockUtils _ => true
  | _ => false

end Error

/-- `root_cause`, as far as it is an error of the agent. -/
def BootError.rootCause (error : BootError) : Option Error :=
  error.asError.filter (!·.hasSource)

/-- `Path::exists`. -/
def pathExists (path : Text) : BootProgram Bool := do
  return (← ask (BootRequest.metadata path)).isOk

end AzureInit.Agent
