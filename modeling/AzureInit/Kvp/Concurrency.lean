import AzureInit.Foundation.LockTable
import AzureInit.Kvp.HandleProperties
import AzureInit.Kvp.Store
import AzureInit.Kvp.StoreProperties
import AzureInit.Foundation.Protocols

/-! Clients that work on one pool path at the same time. Each step of a client is one
call on the path or on its own handle; only the locks keep steps apart. -/

set_option autoImplicit false

namespace AzureInit.Kvp

open Foundation

/-! ## Locks -/

/-- The kernel's two kinds of locks, which know nothing of each other. -/
inductive LockDomain where
  | flock
  | fcntl
  deriving DecidableEq, Repr

/-- The lock that a call waits for. -/
def Call.acquires : Call → Option (LockDomain × LockMode)
  | .flockExclusive => some (.flock, .exclusive)
  | .flockShared => some (.flock, .shared)
  | .fcntlExclusive => some (.fcntl, .exclusive)
  | .fcntlShared => some (.fcntl, .shared)
  | _ => none

/-- The locks of a descriptor after a call; closing it gives up all of them. -/
def Call.locksAfter (call : Call) (locks : Locks LockDomain) : Locks LockDomain :=
  match call, call.acquires with
  | _, some (domain, mode) => Function.update locks domain (some mode)
  | .flockUnlock, none => Function.update locks .flock none
  | .close, none => noLocks
  | _, none => locks

/-! ## Calls of clients -/

/-- The operations that open the pool. -/
inductive PoolCall where
  | update (update : Update)
  | clearIfStale
  | read (key : Text)
  | entries
  | dump
  deriving DecidableEq, Repr

inductive PoolReply where
  | updated (reply : UpdateReply)
  | value (value : Option Text)
  | map (map : HashMap Text)
  | records (records : List (Text × Text))

def PoolCall.perform : PoolCall → KvpIo PoolReply
  | .update change => do
      let reply ← change.perform
      return .updated reply
  | .clearIfStale => do
      KvpPoolStore.clearIfStale
      return .updated .done
  | .read key => do
      let value ← KvpPoolStore.read key
      return .value value
  | .entries => do
      let map ← KvpPoolStore.entries
      return .map map
  | .dump => do
      let records ← KvpPoolStore.dump
      return .records records

/-- Whether a call works on the open handle alone, and under a lock of the mode. -/
def Call.isInside (mode : LockMode) : Call → Bool
  | .metadata | .seekStart _ | .seekEnd | .streamPosition | .readExact _ | .flush => true
  | .writeAll _ | .setLen _ => mode = .exclusive
  | _ => false

/-- An update by another program, which takes one of the two locks exclusively around
it and leaves whole records. -/
structure ForeignUpdate where
  creates : Bool
  body : Io Unit
  inside : body.run.Uses fun call => call.isInside .exclusive = true
  framed : ∀ (world : World) (result : Except IoError Unit) (after : World),
    Program.Runs (HandleStep noFaults) body.run world result after →
      world.Framed → after.Framed

def lockExclusive : LockDomain → Io Unit
  | .flock => request .flockExclusive
  | .fcntl => request .fcntlExclusive

def ForeignUpdate.openPool (update : ForeignUpdate) : KvpIo Unit :=
  if update.creates then openForReadWriteCreate else openForReadWrite

def ForeignUpdate.perform (update : ForeignUpdate) (domain : LockDomain) : KvpIo Unit := do
  update.openPool
  closing <| Io.lift do
    lockExclusive domain
    update.body

/-- What a client has to do: a call of the store, or an update of another program. -/
inductive Task where
  | own (call : PoolCall)
  | foreign (update : ForeignUpdate)

/-- What a client is told; other programs keep their results to themselves. -/
inductive Outcome where
  | own (result : Except KvpError PoolReply)
  | foreign

/-- A task as a program; all other programs take the lock of one domain. -/
def Task.program (domain : LockDomain) : Task → Program Call Reply Outcome
  | .own call => do
      let result ← call.perform.run
      return .own result
  | .foreign update => do
      let _ ← (update.perform domain).run
      return .foreign

/-! ## Interleaving -/

/-- The stored bytes; a missing file has none. -/
def fileBytes : Option PoolFile → List UInt8
  | none => []
  | some file => file.bytes

/-- One client: what it still has to do, the task it is at, the position and the locks
of its descriptor, and what it has been told. -/
structure Session where
  pending : List Task
  current : Option (Task × Program Call Reply Outcome)
  position : Nat
  locks : Locks LockDomain
  returned : List (Task × Outcome)

/-- The pool file and the clients at work on it. -/
structure System (clients : Nat) where
  file : Option PoolFile
  bootTime : Int
  sessions : Fin clients → Session

namespace System

variable {clients : Nat}

/-- The file as one client sees it. -/
def world (system : System clients) (client : Fin clients) (now : Int) : World where
  file := system.file
  position := (system.sessions client).position
  now := now
  bootTime := system.bootTime

/-- Whether the other clients' locks let a client make a call. -/
def grants (system : System clients) (client : Fin clients) (call : Call) : Bool :=
  match call.acquires with
  | none => true
  | some (domain, mode) =>
      (List.finRange clients).all fun other =>
        decide (other = client) || mode.compatible ((system.sessions other).locks domain)

def setSession (system : System clients) (client : Fin clients) (session : Session) :
    System clients :=
  { system with sessions := Function.update system.sessions client session }

/-- A client's next step at a time of the clock: it takes up its next task, makes a
call that does not fail, or returns. There is none if it has to wait for a lock. -/
def advance (domain : LockDomain) (client : Fin clients) (now : Int)
    (system : System clients) : Option (System clients) :=
  let session := system.sessions client
  match session.current with
  | none =>
      match session.pending with
      | [] => none
      | task :: later =>
          some <| system.setSession client
            { session with pending := later, current := some (task, task.program domain) }
  | some (task, .done outcome) =>
      some <| system.setSession client
        { session with current := none, returned := session.returned ++ [(task, outcome)] }
  | some (task, .call call next) =>
      if system.grants client call then
        let (reply, after) := call.perform (system.world client now)
        some { system with
          file := after.file
          sessions := Function.update system.sessions client
            { session with
              current := some (task, next reply)
              position := after.position
              locks := call.locksAfter session.locks } }
      else none

/-- The clients' steps in the order of a schedule. -/
def run (domain : LockDomain) (schedule : List (Fin clients × Int))
    (system : System clients) : Option (System clients) :=
  schedule.foldlM (fun system (client, now) => system.advance domain client now) system

/-- Clients that have not begun. -/
def initial (file : Option PoolFile) (bootTime : Int) (tasks : Fin clients → List Task) :
    System clients where
  file := file
  bootTime := bootTime
  sessions := fun client =>
    { pending := tasks client, current := none, position := 0, locks := noLocks, returned := [] }

/-- Every client has done all it had to do. -/
def Finished (system : System clients) : Prop :=
  ∀ client, (system.sessions client).current = none ∧ (system.sessions client).pending = []

end System

end AzureInit.Kvp
