import AzureInit.Foundation.InPlaceSweep
import AzureInit.Kvp.RecordProperties
import AzureInit.Kvp.Store

/-! What each update means for the list of stored records. Records are kept byte
for byte, so that also what follows a field's NUL is accounted for. -/

set_option autoImplicit false

namespace AzureInit.Kvp

open Foundation
open Sweep (Edit sweep)

/-- One step of a deletion's pass. -/
def removal {β : Type} (targeted : Text → Bool) (note : β → β) (noted : β)
    (record : RawRecord) : Except IoError (Edit RawRecord × β) :=
  match record.decode with
  | .error error => .error error
  | .ok (key, _) => .ok (if targeted key then (.remove, note noted) else (.keep, noted))

/-- One step of an insertion's pass. -/
def insertion (key value : Text) (scan : KvpPoolStore.InsertScan) (record : RawRecord) :
    Except IoError (Edit RawRecord × KvpPoolStore.InsertScan) :=
  match record.decode with
  | .error error => .error error
  | .ok (k, _) =>
      let uniqueKeys := insert k scan.uniqueKeys
      .ok <|
        if k = key then
          if scan.found then (.remove, { scan with uniqueKeys })
          else (.replace (record.setValue value), { found := true, uniqueKeys })
        else (.keep, { scan with uniqueKeys })

/-- One step of a reading pass. -/
def visiting {β : Type} (visit : β → Text × Text → β) (state : β) (record : RawRecord) :
    Except IoError (Edit RawRecord × β) :=
  match record.decode with
  | .error error => .error error
  | .ok decoded => .ok (.keep, visit state decoded)

/-- Before its pass an insertion has seen nothing. -/
def noneSeen : KvpPoolStore.InsertScan := { found := false, uniqueKeys := ∅ }

/-- The result of a pass as the result of a call. -/
def swept {β : Type} (reply : β → UpdateReply) (outcome : Except IoError β × List RawRecord) :
    Except KvpError UpdateReply × List RawRecord :=
  match outcome with
  | (.ok state, final) => (.ok (reply state), final)
  | (.error error, final) => (.error (.io error), final)

/-- What remains to be done when an insertion's pass has ended. -/
def insertEnd (key value : Text) (outcome : Except IoError KvpPoolStore.InsertScan × List RawRecord) :
    Except KvpError UpdateReply × List RawRecord :=
  match outcome with
  | (.error error, final) => (.error (.io error), final)
  | (.ok scan, final) =>
      if scan.found then (.ok .done, final)
      else if scan.uniqueKeys.card ≥ maxUniqueKeys then
        (.error (.maxUniqueKeysExceeded maxUniqueKeys), final)
      else (.ok .done, final ++ [RawRecord.encode key value])

def encodeAll (records : List (Text × Text)) : List RawRecord :=
  records.map fun (key, value) => RawRecord.encode key value

def validateAll (mode : PoolMode) (records : List (Text × Text)) : Except KvpError Unit :=
  records.forM fun (key, value) => KvpPoolStore.validateRecord mode key value

/-- An update of the list of records, with its reply; a rejected one returns the
records its pass has left. -/
def Update.onList : Update → List RawRecord → Except KvpError UpdateReply × List RawRecord
  | .append mode key value, records =>
      match KvpPoolStore.validateRecord mode key value with
      | .error error => (.error error, records)
      | .ok () => (.ok .done, records ++ [RawRecord.encode key value])
  | .appendMultiple mode added, records =>
      if added.isEmpty then (.ok .done, records)
      else
        match validateAll mode added with
        | .error error => (.error error, records)
        | .ok () => (.ok .done, records ++ encodeAll added)
  | .insert mode key value, records =>
      match KvpPoolStore.validateRecord mode key value with
      | .error error => (.error error, records)
      | .ok () => insertEnd key value (sweep (insertion key value) noneSeen records)
  | .delete key, records =>
      match validateKey key usizeMax with
      | .error error => (.error error, records)
      | .ok () => swept .found (sweep (removal (· == key) fun _ => true) false records)
  | .deleteMultiple keys, records =>
      match KvpPoolStore.collectKeys keys with
      | .error error => (.error error, records)
      | .ok targeted =>
          if targeted = ∅ then (.ok (.removed 0), records)
          else swept .removed (sweep (removal (· ∈ targeted) fun count => count + 1) 0 records)
  | .load mode added, records =>
      match KvpPoolStore.uniqueKeysOf mode added with
      | .error error => (.error error, records)
      | .ok uniqueKeys =>
          if uniqueKeys.card > maxUniqueKeys then
            (.error (.maxUniqueKeysExceeded maxUniqueKeys), records)
          else (.ok .done, encodeAll added)
  | .clear, _ => (.ok .done, [])

end AzureInit.Kvp
