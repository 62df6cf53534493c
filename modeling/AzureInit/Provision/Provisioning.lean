import AzureInit.Foundation.Fallback
import AzureInit.Provision.SshKeys

/-! The provisioning flow: hostname, user, password, SSH configuration and SSH keys. -/

set_option autoImplicit false

namespace AzureInit.Provision

open Foundation
open Foundation.Program (ask findOkOr)
open AzureInit.Configuration (Config)

/-- A `Provision`. -/
structure Provisioning where
  hostname : Text
  user : User
  config : Config
  disablePasswordAuthentication : Bool

namespace Provisioning

variable (provisioning : Provisioning) (regex : RegexCrate)

def setHostname : HostIo Unit :=
  findOkOr (fun backend => HostnameProvisioner.set backend provisioning.hostname)
    provisioning.config.hostnameProvisioners.backends .noHostnameProvisioner

def createUser : HostIo Unit :=
  findOkOr (fun backend => UserProvisioner.create backend provisioning.user)
    provisioning.config.userProvisioners.backends .noUserProvisioner

/-- The last part of `provisionCore`. -/
def setPassword : HostIo Unit :=
  findOkOr (fun backend => PasswordProvisioner.set backend provisioning.user)
    provisioning.config.passwordProvisioners.backends .noPasswordProvisioner

def provisionCore : HostIo Unit := do
  provisioning.setHostname
  provisioning.createUser
  provisioning.setPassword

def updateSshConfig : HostIo Unit :=
  if provisioning.config.ssh.configureSshdPasswordAuthentication then do
    let sshdConfigPath ← ExceptT.lift getSshdConfigPath
    ExceptT.mk (Except.mapError (fun _ => .updateSshdConfig) <$>
      (updateSshdConfigAt regex sshdConfigPath provisioning.disablePasswordAuthentication).run)
  else pure ()

def provisionSshKeys : HostIo Unit :=
  if provisioning.user.sshKeys.isEmpty then pure ()
  else do
    match ← ExceptT.lift (ask (HostRequest.getUserByName provisioning.user.name)) with
    | .error _ => throw (.userMissing provisioning.user.name)
    | .ok user =>
        provisionSsh user provisioning.user.sshKeys provisioning.config.ssh.authorizedKeysPath
          provisioning.config.ssh.querySshdConfig

def provision : HostIo Unit := do
  provisioning.provisionCore
  provisioning.updateSshConfig regex
  provisioning.provisionSshKeys

end Provisioning

end AzureInit.Provision
