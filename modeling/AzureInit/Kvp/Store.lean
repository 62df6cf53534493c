import Mathlib.Data.List.AList
import AzureInit.Kvp.PoolIter

/-! The operations of `KvpPoolStore` on one pool path. A store's pool and path
are fixed, so that an operation takes the mode only where it consults it. -/

set_option autoImplicit false

namespace AzureInit.Kvp

open Foundation

/-- A hash map; its iteration order is the list's, and is nowhere relied on. -/
abbrev HashMap (Value : Type) : Type := AList fun _ : Text => Value

/-- A `Result` produced without I/O. -/
def ofResult {α : Type} (result : Except KvpError α) : KvpIo α := ExceptT.mk (pure result)

/-- Run a body that owns the open handle, which is dropped behind it. -/
def closing {α : Type} (body : KvpIo α) : KvpIo α :=
  ExceptT.mk do
    let result ← body.run
    let _ ← (request .close).run
    return result

/-- Run a body that returns the open handle, which is dropped if it fails. -/
def closingOnError {α : Type} (body : KvpIo α) : KvpIo α :=
  ExceptT.mk do
    match ← body.run with
    | .ok value => return .ok value
    | .error error =>
        let _ ← (request .close).run
        return .error error

/-- Run a body on an opened pool; a pool that is reported missing ends the call. -/
def unlessMissing {α β : Type} (opened : KvpIo β) (missing : α) (body : β → KvpIo α) :
    KvpIo α :=
  ExceptT.mk do
    match ← opened.run with
    | .ok value => (closing (body value)).run
    | .error (.io error) =>
        if error.kind = .notFound then return .ok missing else return .error (.io error)
    | .error error => return .error error

def openForRead : KvpIo Unit := Io.lift (request .openRead)

def openForReadWrite : KvpIo Unit := Io.lift (request .openReadWrite)

def openForReadWriteCreate : KvpIo Unit := Io.lift (request .openReadWriteCreate)

namespace KvpPoolStore

def iter : KvpIo KvpPoolIter := do
  openForRead
  closingOnError (KvpPoolIter.new true)

def iterMut : KvpIo KvpPoolIter := do
  openForReadWrite
  closingOnError (KvpPoolIter.new false)

/-- The iterator of the operations that create a missing pool. -/
def iterCreate : KvpIo KvpPoolIter := do
  openForReadWriteCreate
  closingOnError (KvpPoolIter.new false)

def validateRecord (mode : PoolMode) (key value : Text) : Except KvpError Unit := do
  validateKey key mode.maxKeySize
  validateValue value mode.maxValueSize

def append (mode : PoolMode) (key value : Text) : KvpIo Unit := do
  ofResult (validateRecord mode key value)
  let iter ← iterCreate
  closing do
    let _ ← Io.lift (iter.append key value)
    Io.lift KvpPoolIter.flush

/-- Clear the file first if asked. -/
def truncateIf (truncate : Bool) (iter : KvpPoolIter) : KvpIo KvpPoolIter :=
  if truncate then do
    Io.lift (request (.setLen 0))
    return { iter with recordCount := 0 }
  else return iter

/-- The write primitive shared by `load` and `appendMultiple`. -/
def writeRecordsLocked (records : List (Text × Text)) (truncate : Bool) : KvpIo Unit := do
  let iter ← iterCreate
  closing do
    let iter ← truncateIf truncate iter
    let _ ← records.foldlM (fun iter (key, value) => Io.lift (iter.append key value)) iter
    Io.lift KvpPoolIter.flush

def appendMultiple (mode : PoolMode) (records : List (Text × Text)) : KvpIo Unit :=
  if records.isEmpty then return ()
  else do
    ofResult (records.forM fun (key, value) => validateRecord mode key value)
    writeRecordsLocked records false

def clear : KvpIo Unit :=
  unlessMissing openForReadWrite () fun _ => Io.lift do
    lockForWriting
    request (.setLen 0)

def clearIfStale : KvpIo Unit :=
  unlessMissing openForReadWrite () fun _ => Io.lift do
    let bootTime ← request .bootTime
    lockForWriting
    let info ← request .metadata
    if info.mtime ≤ bootTime then request (.setLen 0) else pure ()

/-- The scan of both deletions: remove the targeted records and take note of each. -/
def removeTargeted {β : Type} (targeted : Text → Bool) (note : β → β) (iter : KvpPoolIter)
    (noted : β) (record : Text × Text) : KvpIo (KvpPoolIter × β) :=
  if targeted record.1 then do
    let iter ← Io.lift iter.removeCurrent
    return (iter, note noted)
  else return (iter, noted)

def delete (key : Text) : KvpIo Bool := do
  ofResult (validateKey key usizeMax)
  unlessMissing iterMut false fun iter => do
    let (_, found) ← KvpPoolIter.forEachRecord (removeTargeted (· == key) fun _ => true)
      iter.recordCount iter false
    Io.lift (if found then KvpPoolIter.flush else pure ())
    return found

def collectKeys (keys : List Text) : Except KvpError (Finset Text) :=
  keys.foldlM (fun keysToDelete key => do
    validateKey key usizeMax
    return insert key keysToDelete) ∅

def deleteMultiple (keys : List Text) : KvpIo Nat := do
  let keysToDelete ← ofResult (collectKeys keys)
  if keysToDelete = ∅ then return 0
  else unlessMissing iterMut 0 fun iter => do
    let (_, removed) ← KvpPoolIter.forEachRecord
      (removeTargeted (· ∈ keysToDelete) fun removed => removed + 1) iter.recordCount iter 0
    Io.lift (if removed > 0 then KvpPoolIter.flush else pure ())
    return removed

/-- Read the pool from front to back into an accumulator. -/
def collect {β : Type} (visit : β → Text × Text → β) (initial : β) (iter : KvpPoolIter) :
    KvpIo β := do
  let (_, result) ← KvpPoolIter.forEachRecord
    (fun iter result record => return (iter, visit result record))
    iter.recordCount iter initial
  return result

def dump : KvpIo (List (Text × Text)) :=
  unlessMissing iter [] (collect (fun records record => records ++ [record]) [])

def entries : KvpIo (HashMap Text) :=
  unlessMissing iter ∅ (collect (fun map (key, value) => map.insert key value) ∅)

def read (key : Text) : KvpIo (Option Text) := do
  ofResult (validateKey key usizeMax)
  unlessMissing iter none
    (collect (fun result (k, value) => if k = key then some value else result) none)

def uniqueKeysOf (mode : PoolMode) (records : List (Text × Text)) :
    Except KvpError (Finset Text) :=
  records.foldlM (fun uniqueKeys (key, value) => do
    validateRecord mode key value
    return insert key uniqueKeys) ∅

def load (mode : PoolMode) (records : List (Text × Text)) : KvpIo Unit := do
  let uniqueKeys ← ofResult (uniqueKeysOf mode records)
  if uniqueKeys.card > maxUniqueKeys then throw (.maxUniqueKeysExceeded maxUniqueKeys)
  else writeRecordsLocked records true

/-- What `insert` has seen of the pool: the key itself, and all distinct keys. -/
structure InsertScan where
  found : Bool
  uniqueKeys : Finset Text

/-- Overwrite the first record of the key and remove the later ones. -/
def insertRecord (key value : Text) (iter : KvpPoolIter) (scan : InsertScan)
    (record : Text × Text) : KvpIo (KvpPoolIter × InsertScan) := do
  let uniqueKeys := insert record.1 scan.uniqueKeys
  if record.1 = key then
    if scan.found then do
      let iter ← Io.lift iter.removeCurrent
      return (iter, { scan with uniqueKeys })
    else do
      Io.lift (iter.overwriteCurrentValue value)
      return (iter, { found := true, uniqueKeys })
  else return (iter, { scan with uniqueKeys })

/-- Append the record if the scan has not found its key. -/
def insertMissing (key value : Text) (iter : KvpPoolIter) (scan : InsertScan) : KvpIo Unit :=
  if scan.found then return ()
  else if scan.uniqueKeys.card ≥ maxUniqueKeys then
    throw (.maxUniqueKeysExceeded maxUniqueKeys)
  else do
    let _ ← Io.lift (iter.append key value)

def insert (mode : PoolMode) (key value : Text) : KvpIo Unit := do
  ofResult (validateRecord mode key value)
  let iter ← iterCreate
  closing do
    let (iter, scan) ← KvpPoolIter.forEachRecord (insertRecord key value) iter.recordCount iter
      { found := false, uniqueKeys := ∅ }
    insertMissing key value iter scan
    Io.lift KvpPoolIter.flush

end KvpPoolStore

/-! ## Calls -/

/-- The operations that write records or remove them. -/
inductive Update where
  | append (mode : PoolMode) (key value : Text)
  | appendMultiple (mode : PoolMode) (records : List (Text × Text))
  | insert (mode : PoolMode) (key value : Text)
  | delete (key : Text)
  | deleteMultiple (keys : List Text)
  | load (mode : PoolMode) (records : List (Text × Text))
  | clear
  deriving DecidableEq, Repr

/-- What an update returns. -/
inductive UpdateReply where
  | done
  | found (any : Bool)
  | removed (count : Nat)
  deriving DecidableEq, Repr

def Update.perform : Update → KvpIo UpdateReply
  | .append mode key value => do
      KvpPoolStore.append mode key value
      return .done
  | .appendMultiple mode records => do
      KvpPoolStore.appendMultiple mode records
      return .done
  | .insert mode key value => do
      KvpPoolStore.insert mode key value
      return .done
  | .delete key => do
      let found ← KvpPoolStore.delete key
      return .found found
  | .deleteMultiple keys => do
      let count ← KvpPoolStore.deleteMultiple keys
      return .removed count
  | .load mode records => do
      KvpPoolStore.load mode records
      return .done
  | .clear => do
      KvpPoolStore.clear
      return .done

end AzureInit.Kvp
