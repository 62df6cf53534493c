import AzureInit.Foundation.EffectProgram
import AzureInit.Kvp.Record

/-! The calls the store makes on the pool path and on its open handle, what
each does to the file, and how each may fail. -/

set_option autoImplicit false

namespace AzureInit.Kvp

open Foundation

/-- File metadata; only the fields the store consults. -/
structure StatInfo where
  len : Nat
  mtime : Int
  deriving DecidableEq, Repr

/-- The methods of `SysOps` and `Handle`, with the handle's drop as `close`. -/
inductive Call where
  | openRead
  | openReadWrite
  | openReadWriteCreate
  | bootTime
  | flockExclusive
  | flockShared
  | flockUnlock
  | fcntlExclusive
  | fcntlShared
  | metadata
  | seekStart (offset : Nat)
  | seekEnd
  | streamPosition
  | readExact (count : Nat)
  | writeAll (data : List UInt8)
  | setLen (len : Nat)
  | flush
  | close
  deriving DecidableEq, Repr

abbrev Call.Value : Call → Type
  | .bootTime => Int
  | .metadata => StatInfo
  | .seekStart _ | .seekEnd | .streamPosition => Nat
  | .readExact _ => List UInt8
  | .openRead | .openReadWrite | .openReadWriteCreate
  | .flockExclusive | .flockShared | .flockUnlock | .fcntlExclusive | .fcntlShared
  | .writeAll _ | .setLen _ | .flush | .close => Unit

abbrev Reply (call : Call) : Type := Except IoError call.Value

/-- A computation returning `io::Result`. -/
abbrev Io (α : Type) : Type := ExceptT IoError (Program Call Reply) α

/-- A computation returning `Result<_, KvpError>`. -/
abbrev KvpIo (α : Type) : Type := ExceptT KvpError (Program Call Reply) α

def request (call : Call) : Io call.Value := ExceptT.mk (Program.ask call)

/-- The `?` conversion from `io::Result`. -/
def Io.lift {α : Type} (program : Io α) : KvpIo α :=
  ExceptT.mk do
    match ← program.run with
    | .ok value => return .ok value
    | .error error => return .error (.io error)

/-- The pool file: its bytes and modification time. -/
structure PoolFile where
  bytes : List UInt8
  mtime : Int
  deriving DecidableEq, Repr

/-- What one client sees: the file at the pool path, the position of its open
handle, the clock, and the system's boot time. Handles exist on existing files. -/
structure World where
  file : Option PoolFile
  position : Nat := 0
  now : Int
  bootTime : Int
  deriving DecidableEq, Repr

namespace World

/-- The bytes at the pool path; a missing file has none. -/
def bytes (world : World) : List UInt8 :=
  match world.file with
  | some file => file.bytes
  | none => []

def mtime (world : World) : Int :=
  match world.file with
  | some file => file.mtime
  | none => 0

/-- Replace the file content at the current time. -/
def store (world : World) (bytes : List UInt8) : World :=
  { world with file := some { bytes, mtime := world.now } }

def seek (world : World) (position : Nat) : World := { world with position }

/-- Write at the position, zero-filling any gap, and move behind the data. -/
def write (world : World) (data : List UInt8) : World :=
  let gap := List.replicate (world.position - world.bytes.length) 0
  (world.store (Blocks.splice (world.bytes ++ gap) world.position data)).seek
    (world.position + data.length)

/-- Cut or zero-extend the file to a length; the position stays. -/
def resize (world : World) (len : Nat) : World :=
  world.store (zeroPadded len world.bytes)

end World

def notFound : IoError := { kind := .notFound }

/-- What a call that does not fail does; locks are those of a sole client. -/
def Call.perform : (call : Call) → World → Reply call × World
  | .openRead, world | .openReadWrite, world =>
      match world.file with
      | none => (.error notFound, world)
      | some _ => (.ok (), world.seek 0)
  | .openReadWriteCreate, world =>
      match world.file with
      | none => (.ok (), (world.store []).seek 0)
      | some _ => (.ok (), world.seek 0)
  | .bootTime, world => (.ok world.bootTime, world)
  | .flockExclusive, world | .flockShared, world | .flockUnlock, world
  | .fcntlExclusive, world | .fcntlShared, world => (.ok (), world)
  | .metadata, world => (.ok { len := world.bytes.length, mtime := world.mtime }, world)
  | .seekStart offset, world => (.ok offset, world.seek offset)
  | .seekEnd, world => (.ok world.bytes.length, world.seek world.bytes.length)
  | .streamPosition, world => (.ok world.position, world)
  | .readExact count, world =>
      if world.position + count ≤ world.bytes.length then
        (.ok ((world.bytes.drop world.position).take count),
          world.seek (world.position + count))
      else (.error { kind := .unexpectedEof }, world)
  | .writeAll data, world => (.ok (), world.write data)
  | .setLen len, world => (.ok (), world.resize len)
  | .flush, world | .close, world => (.ok (), world)

/-- How a call may fail: without effect on the file, or, for `write_all`, after
storing a prefix of its buffer. -/
inductive Fault where
  | failed (call : Call)
  | torn (data : List UInt8) (stored : Nat)
  deriving DecidableEq, Repr

def World.at (world : World) (now : Int) : World := { world with now }

/-- One call in an environment that may also answer with the allowed faults.
The clock may have moved since the call before. -/
inductive HandleStep (allowed : World → Fault → Prop) :
    (call : Call) → World → Reply call → World → Prop where
  | performed (call : Call) (world : World) (now : Int) :
      HandleStep allowed call world (call.perform (world.at now)).1
        (call.perform (world.at now)).2
  | failed (call : Call) (world : World) (error : IoError) (position : Nat) :
      allowed world (.failed call) →
      HandleStep allowed call world (.error error) (world.seek position)
  | torn (data : List UInt8) (world : World) (error : IoError) (stored : Nat) (now : Int) :
      allowed world (.torn data stored) →
      HandleStep allowed (.writeAll data) world (.error error)
        ((world.at now).write (data.take stored))

def noFaults : World → Fault → Prop := fun _ _ => False

def anyFault : World → Fault → Prop := fun _ _ => True

/-- A call sequence of a sole client in which nothing fails and no time passes. -/
def execute {α : Type} (program : Program Call Reply α) (world : World) : α × World :=
  program.run Call.perform world

/-- What faultless execution does is possible in every environment. -/
theorem runs_execute {α : Type} (allowed : World → Fault → Prop)
    (program : Program Call Reply α) (world : World) :
    Program.Runs (HandleStep allowed) program world (execute program world).1
      (execute program world).2 :=
  Program.runs_run (fun call state => .performed call state state.now) program world

end AzureInit.Kvp
