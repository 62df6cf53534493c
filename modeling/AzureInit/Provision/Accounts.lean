import AzureInit.Provision.Host
import AzureInit.Configuration.Settings

/-! The backends that set the hostname, create the user and set or lock the password. -/

set_option autoImplicit false

namespace AzureInit.Provision

open Foundation

/-! ## The hostname -/

def setHostnameCommand (hostname : Text) : Command :=
  { program := "hostnamectl".toList, args := ["set-hostname".toList, hostname] }

def hostnamectl (hostname : Text) : HostIo Unit := run (setHostnameCommand hostname)

def HostnameProvisioner.set : Configuration.HostnameProvisioner → Text → HostIo Unit
  | .hostnamectl, hostname => hostnamectl hostname

/-! ## The user -/

structure PublicKeys where
  keyData : Text
  path : Text
  deriving DecidableEq, Repr

structure User where
  name : Text
  groups : List Text
  sshKeys : List PublicKeys
  password : Option Text
  deriving DecidableEq, Repr

namespace User

def new (name : Text) (sshKeys : List PublicKeys) : User :=
  { name, groups := [], sshKeys, password := none }

def withPassword (user : User) (password : Text) : User :=
  { user with password := some password }

def withGroups (user : User) (groups : List Text) : User := { user with groups }

end User

def getentCommand (username : Text) : Command :=
  { program := "getent".toList, args := ["passwd".toList, username] }

def userExists (username : Text) : HostIo Bool := do
  let output ← tryHost (.output (getentCommand username))
  return output.status.success

def groupList (user : User) : Text := [','].intercalate user.groups

def usermodCommand (user : User) : Command :=
  { program := "usermod".toList, args := ["-aG".toList, groupList user, user.name] }

def useraddCommand (user : User) : Command :=
  { program := "useradd".toList
    args := [user.name, "--comment".toList,
      "azure-init created this user based on username provided in IMDS".toList,
      "--groups".toList, groupList user, "-d".toList, "/home/".toList ++ user.name, "-m".toList] }

/-- An account that exists is added to the groups; another one is created. -/
def useradd (user : User) : HostIo Unit := do
  if ← userExists user.name then run (usermodCommand user)
  else run (useraddCommand user)

def sudoersRule : Text := " ALL=(ALL) NOPASSWD: ALL\n".toList

/-- The file is not buffered, so that nothing is left to flush. -/
def addUserForPasswordlessSudo (username path : Text) : HostIo Unit := do
  tryHost (.createFile path 0o600)
  tryHost (.writeAll path username)
  tryHost (.writeAll path sudoersRule)

def sudoersPath : Text := "/etc/sudoers.d/azure-init-user".toList

def UserProvisioner.createUserAccount : Configuration.UserProvisioner → User → HostIo Unit
  | .useradd, user => useradd user

def UserProvisioner.configureSudoers :
    Configuration.UserProvisioner → (username path : Text) → HostIo Unit
  | .useradd, username, path => addUserForPasswordlessSudo username path

def UserProvisioner.create (provisioner : Configuration.UserProvisioner) (user : User) :
    HostIo Unit := do
  UserProvisioner.createUserAccount provisioner user
  UserProvisioner.configureSudoers provisioner user.name sudoersPath

/-! ## The password -/

def chpasswdCommand : Command := { program := "chpasswd".toList, args := [] }

def emptyUsername : HostError := .unhandledError "Username cannot be empty".toList

def emptyPassword : HostError := .unhandledError "Password cannot be empty".toList

def setUserPassword (username password : Text) : HostIo Unit :=
  if username.isEmpty then throw emptyUsername
  else if password.isEmpty then throw emptyPassword
  else do
    tryHost (.spawn chpasswdCommand)
    tryHost (.writeStdin (username ++ ':' :: password))
    let status ← tryHost .wait
    if !status.success then throw (.subprocessFailed chpasswdCommand status)

def lockCommand (username : Text) : Command :=
  { program := "passwd".toList, args := ["-l".toList, username] }

def lockUser (username : Text) : HostIo Unit :=
  if username.isEmpty then throw emptyUsername
  else run (lockCommand username)

def passwd (user : User) : HostIo Unit :=
  match user.password with
  | some password => setUserPassword user.name password
  | none => lockUser user.name

def PasswordProvisioner.set : Configuration.PasswordProvisioner → User → HostIo Unit
  | .passwd, user => passwd user

end AzureInit.Provision
