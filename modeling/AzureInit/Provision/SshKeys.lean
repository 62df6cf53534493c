import AzureInit.Foundation.TextLines
import AzureInit.Provision.Accounts
import AzureInit.Provision.SshdConfig

/-! The SSH daemon of the host: its configuration file, and the keys of the user. -/

set_option autoImplicit false

namespace AzureInit.Provision

open Foundation
open Foundation.Program (ask)
open Kvp (IoError)

/-! ## The configuration file -/

def resolveSshdConfigPath (configDir : Text) : HostProgram Text := do
  if ← isDir configDir then
    return "/etc/ssh/sshd_config.d/50-azure-init.conf".toList
  else
    return "/etc/ssh/sshd_config".toList

def getSshdConfigPath : HostProgram Text :=
  resolveSshdConfigPath "/etc/ssh/sshd_config.d".toList

/-- What a new file may be read and written by, before its mask. -/
def newFileMode : Nat := 0o666

/-- The first branch of the update: the file is not there. -/
def createSshdConfig (sshdConfigPath setting : Text) : ExceptT IoError HostProgram Unit := do
  ExceptT.mk (ask (HostRequest.createFile sshdConfigPath newFileMode))
  ExceptT.mk (ask (HostRequest.setPermissions sshdConfigPath 0o600))
  ExceptT.mk (ask (HostRequest.writeAll sshdConfigPath (settingLine setting [] ++ ['\n'])))

/-- The other branch: the file is rewritten, or the setting added to it. -/
def changeSshdConfig (regex : RegexCrate) (sshdConfigPath setting : Text) :
    ExceptT IoError HostProgram Unit := do
  ExceptT.mk (ask (HostRequest.openRead sshdConfigPath))
  let fileContent ← ExceptT.mk (ask (HostRequest.readToString sshdConfigPath))
  if regex.isMatch passwordRegex fileContent then
    let modifiedContent := regex.replaceAll passwordRegex fileContent
      (settingLine setting modifiedComment ++ ['\n'])
    ExceptT.mk (ask (HostRequest.openTruncate sshdConfigPath))
    ExceptT.mk (ask (HostRequest.writeAll sshdConfigPath modifiedContent))
  else
    ExceptT.mk (ask (HostRequest.openAppend sshdConfigPath))
    ExceptT.mk (ask (HostRequest.writeAll sshdConfigPath
      (settingLine setting addedComment ++ ['\n'])))

/-- The update of the file at a path, through reads and writes. -/
def updateSshdConfigAt (regex : RegexCrate) (sshdConfigPath : Text)
    (disablePasswordAuthentication : Bool) : ExceptT IoError HostProgram Unit := do
  let setting := passwordAuthSetting disablePasswordAuthentication
  if !(← ExceptT.lift (pathExists sshdConfigPath)) then
    createSshdConfig sshdConfigPath setting
  else
    changeSshdConfig regex sshdConfigPath setting

/-! ## The path of the keys -/

def splitWhitespace (text : Text) : List Text :=
  (text.splitOnP isWhitespace).filter (!·.isEmpty)

def authorizedKeysKeyword : Text := "authorizedkeysfile".toList

def extractAuthorizedKeysFilePath (stdout : Text) : Option Text :=
  (Lines.lines stdout).findSome? fun line =>
    if authorizedKeysKeyword.isPrefixOf line then (splitWhitespace line)[1]? else none

def sshdCommand : Command := { program := "sshd".toList, args := ["-G".toList] }

def runSshdCommand : HostProgram (Option Output) := do
  match ← ask (HostRequest.output sshdCommand) with
  | .ok output => return if output.status.success then some output else none
  | .error _ => return none

def getAuthorizedKeysPathFromSshd : HostProgram (Option Text) := do
  match ← runSshdCommand with
  | some output => return extractAuthorizedKeysFilePath output.stdout
  | none => return none

/-! ## The keys -/

/-- The lines of the keys, each written in two pieces. -/
def writeKeys (authorizedKeysPath : Text) : List PublicKeys → HostIo Unit
  | [] => pure ()
  | key :: keys => do
      tryHost (.writeAll authorizedKeysPath key.keyData)
      tryHost (.writeAll authorizedKeysPath ['\n'])
      writeKeys authorizedKeysPath keys

/-- A change of owner, whose errors are those of `rustix`. -/
def chown (path : Text) (owner : Owner) : HostIo Unit :=
  ExceptT.mk (Except.mapError .rustix <$> ask (HostRequest.chown path owner))

/-- The path that the daemon or, without it, the configuration tells. -/
def authorizedKeysPathOf (user : SshUser) (authorizedKeysPath : Text) (querySshdConfig : Bool) :
    HostProgram Text := do
  if querySshdConfig then
    match ← getAuthorizedKeysPathFromSshd with
    | some path => return pathJoin user.homeDir path
    | none => return pathJoin user.homeDir authorizedKeysPath
  else
    return pathJoin user.homeDir authorizedKeysPath

def sshDirOf (user : SshUser) : Text := pathJoin user.homeDir ".ssh".toList

/-- The keys are written to a file of its owner's. -/
def writeAuthorizedKeys (user : SshUser) (keys : List PublicKeys) (authorizedKeysPath : Text) :
    HostIo Unit := do
  tryHost (.createFile authorizedKeysPath newFileMode)
  tryHost (.setPermissions authorizedKeysPath 0o600)
  writeKeys authorizedKeysPath keys
  chown authorizedKeysPath user.owner

/-- The directory of the keys, and the keys. -/
def installAuthorizedKeys (user : SshUser) (keys : List PublicKeys) (authorizedKeysPath : Text) :
    HostIo Unit := do
  let sshDir := sshDirOf user
  tryHost (.createDirAll sshDir 0o700)
  tryHost (.setPermissions sshDir 0o700)
  chown sshDir user.owner
  writeAuthorizedKeys user keys authorizedKeysPath

def provisionSsh (user : SshUser) (keys : List PublicKeys) (authorizedKeysPath : Text)
    (querySshdConfig : Bool) : HostIo Unit := do
  let authorizedKeysPath ← ExceptT.lift
    (authorizedKeysPathOf user authorizedKeysPath querySshdConfig)
  installAuthorizedKeys user keys authorizedKeysPath

end AzureInit.Provision
