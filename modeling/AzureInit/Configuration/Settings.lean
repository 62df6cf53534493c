import AzureInit.Foundation.Utf8Text

/-! The configuration of the provisioning agent and its defaults. -/

set_option autoImplicit false

namespace AzureInit.Configuration

open Foundation

inductive HostnameProvisioner where
  | hostnamectl
  deriving DecidableEq, Repr

inductive UserProvisioner where
  | useradd
  deriving DecidableEq, Repr

inductive PasswordProvisioner where
  | passwd
  deriving DecidableEq, Repr

structure Ssh where
  authorizedKeysPath : Text := ".ssh/authorized_keys".toList
  querySshdConfig : Bool := true
  configureSshdPasswordAuthentication : Bool := true
  deriving DecidableEq, Repr

structure HostnameProvisioners where
  backends : List HostnameProvisioner := [.hostnamectl]
  deriving DecidableEq, Repr

structure UserProvisioners where
  backends : List UserProvisioner := [.useradd]
  deriving DecidableEq, Repr

structure PasswordProvisioners where
  backends : List PasswordProvisioner := [.passwd]
  deriving DecidableEq, Repr

structure Imds where
  connectionTimeoutSecs : Float := 30.0
  requestTimeoutSecs : Float := 60.0
  retryIntervalSecs : Float := 2.0
  totalRetryTimeoutSecs : Float := 300.0

structure ProvisioningMedia where
  enable : Bool := true
  deriving DecidableEq, Repr

structure AzureProxyAgent where
  enable : Bool := true
  deriving DecidableEq, Repr

structure Wireserver where
  connectionTimeoutSecs : Float := 60.0
  readTimeoutSecs : Float := 60.0
  totalRetryTimeoutSecs : Float := 1200.0
  healthEndpoint : Text := "http://168.63.129.16/provisioning/health".toList

structure Telemetry where
  kvpDiagnostics : Bool := true
  kvpFilter : Option Text := none
  deriving DecidableEq, Repr

def defaultAzureInitDataDir : Text := "/var/lib/azure-init/".toList

structure AzureInitDataDir where
  path : Text := defaultAzureInitDataDir
  deriving DecidableEq, Repr

def defaultAzureInitLogPath : Text := "/var/log/azure-init.log".toList

structure AzureInitLogPath where
  path : Text := defaultAzureInitLogPath
  deriving DecidableEq, Repr

structure Config where
  ssh : Ssh := {}
  hostnameProvisioners : HostnameProvisioners := {}
  userProvisioners : UserProvisioners := {}
  passwordProvisioners : PasswordProvisioners := {}
  imds : Imds := {}
  provisioningMedia : ProvisioningMedia := {}
  azureProxyAgent : AzureProxyAgent := {}
  wireserver : Wireserver := {}
  telemetry : Telemetry := {}
  azureInitDataDir : AzureInitDataDir := {}
  azureInitLogPath : AzureInitLogPath := {}

end AzureInit.Configuration
