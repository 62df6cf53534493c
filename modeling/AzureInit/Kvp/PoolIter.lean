import AzureInit.Kvp.Handle

/-! The record-at-a-time iterator over a locked pool file. -/

set_option autoImplicit false

namespace AzureInit.Kvp

open Foundation

/-- Take the first lock, then the second; if the second fails, the first is
released before its error is returned. -/
def lockPair (flock fcntl : Io Unit) : Io Unit := do
  flock
  ExceptT.mk do
    match ← fcntl.run with
    | .ok () => return .ok ()
    | .error error =>
        let _ ← (request .flockUnlock).run
        return .error error

def lockForWriting : Io Unit :=
  lockPair (request .flockExclusive) (request .fcntlExclusive)

def lockForReading : Io Unit :=
  lockPair (request .flockShared) (request .fcntlShared)

/-- The iterator's own fields; its handle is the world's open handle. -/
structure KvpPoolIter where
  recordCount : Nat
  currentIndex : Nat
  deriving DecidableEq, Repr

namespace KvpPoolIter

def append (iter : KvpPoolIter) (key value : Text) : Io KvpPoolIter := do
  let resumePos ← request .streamPosition
  let _ ← request .seekEnd
  request (.writeAll (encodeRecord key value))
  let iter := { iter with recordCount := iter.recordCount + 1 }
  let _ ← request (.seekStart resumePos)
  return iter

def flush : Io Unit := request .flush

def new (readOnly : Bool) : KvpIo KvpPoolIter := do
  Io.lift (if readOnly then lockForReading else lockForWriting)
  let info ← Io.lift (request .metadata)
  let recordCount ← Io.lift (ExceptT.mk (pure (recordCountFromLen info.len)))
  let _ ← Io.lift (request (.seekStart 0))
  return { recordCount, currentIndex := 0 }

def noRecordRead : IoError :=
  { kind := .invalidInput, message := "no record has been read yet".toList }

/-- Overwrite the value field of the record last yielded. -/
def overwriteCurrentValue (iter : KvpPoolIter) (value : Text) : Io Unit :=
  if iter.currentIndex = 0 then throw noRecordRead
  else do
    let recordStart := (iter.currentIndex - 1) * recordSize
    let valueOffset := recordStart + wireMaxKeyBytes
    let _ ← request (.seekStart valueOffset)
    request (.writeAll (zeroPadded wireMaxValueBytes (Utf8.encode value)))

/-- Move the final record over the one to delete and rewind to it, so that the
next read sees the record that was moved there. -/
def swapInLast (deleteIndex lastIndex : Nat) : Io Unit := do
  let _ ← request (.seekStart (lastIndex * recordSize))
  let buf ← request (.readExact recordSize)
  let _ ← request (.seekStart (deleteIndex * recordSize))
  request (.writeAll buf)
  let _ ← request (.seekStart (deleteIndex * recordSize))

/-- The index of the final record. There is none where the subtraction underflows. -/
def lastIndex (iter : KvpPoolIter) : Option Nat :=
  if iter.recordCount = 0 then none else some (iter.recordCount - 1)

/-- What a removal comes to where the subtraction underflows: the index wraps around, and
the seek to it is refused. A build with overflow checks stops instead. -/
def noFinalRecord : IoError := { kind := .invalidInput }

/-- Remove the record last yielded by moving the final record into its place. -/
def removeCurrent (iter : KvpPoolIter) : Io KvpPoolIter :=
  if iter.currentIndex = 0 then throw noRecordRead
  else
    let deleteIndex := iter.currentIndex - 1
    match iter.lastIndex with
    | none => throw noFinalRecord
    | some lastIndex => do
        if deleteIndex ≠ lastIndex then swapInLast deleteIndex lastIndex else pure ()
        request (.setLen (lastIndex * recordSize))
        return {
          recordCount := iter.recordCount - 1
          -- Removing the final record leaves the index behind the new end.
          currentIndex := if deleteIndex ≠ lastIndex then deleteIndex else iter.currentIndex }

/-- `Iterator::next`, with the iterator it leaves. -/
def next (iter : KvpPoolIter) :
    Program Call Reply (Option (Except IoError (Text × Text)) × KvpPoolIter) := do
  if iter.currentIndex ≥ iter.recordCount then
    return (none, iter)
  match ← (request (.readExact recordSize)).run with
  | .ok buf =>
      return (some (decodeRecord buf), { iter with currentIndex := iter.currentIndex + 1 })
  | .error error => return (some (.error error), iter)

/-- `Iterator::size_hint`: the records still to be yielded. There is no value where
the subtraction underflows. -/
def sizeHint (iter : KvpPoolIter) : Option Nat :=
  if iter.currentIndex ≤ iter.recordCount then some (iter.recordCount - iter.currentIndex)
  else none

/-- `while let Some(record) = iter.next()` with a body that may stop the caller.
The bound counts the records still to be yielded, which each turn lowers. -/
def forEachRecord {β : Type}
    (body : KvpPoolIter → β → Text × Text → KvpIo (KvpPoolIter × β)) :
    Nat → KvpPoolIter → β → KvpIo (KvpPoolIter × β)
  | 0, iter, state => return (iter, state)
  | bound + 1, iter, state => do
      match ← (iter.next : Program Call Reply _) with
      | (none, iter) => return (iter, state)
      | (some (.error error), _) => throw (.io error)
      | (some (.ok record), iter) =>
          let (iter, state) ← body iter state record
          forEachRecord body bound iter state

end KvpPoolIter

end AzureInit.Kvp
