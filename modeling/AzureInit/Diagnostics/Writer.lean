import AzureInit.Diagnostics.Encoding
import AzureInit.Kvp.Store

/-! The diagnostic writer: validation, the eleven-field key, and chunk framing. -/

set_option autoImplicit false

namespace AzureInit.Diagnostics

open Foundation
open Kvp (KvpError KvpIo PoolMode)

def maxAgentBytes : Nat := 32
def defaultMaxNameBytes : Nat := 64
def maxUuidBytes : Nat := 36
def maxTimestampBytes : Nat := 30
def maxKeyBytes : Nat := 254
def maxChunks : Nat := 1023

inductive TimestampPrecision where
  | seconds
  | millis
  | micros
  | nanos
  deriving DecidableEq, Repr

def TimestampPrecision.secondsFormat : TimestampPrecision → SecondsFormat
  | .seconds => .secs
  | .millis => .millis
  | .micros => .micros
  | .nanos => .nanos

inductive DurationPrecision where
  | seconds
  | millis
  | micros
  | nanos
  deriving DecidableEq, Repr

/-- The decimal text of a number of seconds with a fraction of the given width. -/
def fixedPoint (width : Nat) (duration : Duration) : Text :=
  Decimal.digits duration.secs.toNat ++
    '.' :: Decimal.paddedDigits width (duration.nanos / 10 ^ (9 - width))

def DurationPrecision.format (precision : DurationPrecision) (duration : Duration) : Text :=
  match precision with
  | .seconds => Decimal.digits duration.secs.toNat
  | .millis => fixedPoint 3 duration
  | .micros => fixedPoint 6 duration
  | .nanos => fixedPoint 9 duration

def validateField (field : Text) (value : Text) (max : Nat) : Except KvpError Unit :=
  if value.isEmpty then .error (.emptyEventField field)
  else if value.contains '|' then .error (.eventFieldContainsDelimiter field)
  else if value.contains '\x00' then .error .keyContainsNull
  else if Utf8.byteLength value > max then
    .error (.eventFieldTooLong field max (Utf8.byteLength value))
  else .ok ()

def validateUuid (crates : Crates) (field : Text) (value : Text) : Except KvpError Unit := do
  validateField field value maxUuidBytes
  if crates.parseUuid value then return () else throw (.invalidUuid field)

/-- A base key with a chunk index behind it. -/
def chunkKey (baseKey : Text) (index : Nat) : Text := baseKey ++ '|' :: Decimal.digits index

/-- The longest chunk at the front of a value, and what remains behind it. -/
def cutChunk (value : Text) : Text × Text :=
  let chunkEnd := Utf8.floorCharBoundary value (min (Utf8.byteLength value) maxChunkBytes)
  (Utf8.splitAt? value chunkEnd).getD (value, [])

/-- The framing loop; `room` is how many records may still be pushed. -/
def frameFrom (baseKey : Text) :
    (room : Nat) → (records : List (Text × Text)) → (value : Text) →
      Except KvpError (List (Text × Text))
  | 0, _, _ => .error (.tooManyChunks maxChunks)
  | room + 1, records, value =>
      let key := chunkKey baseKey records.length
      if Utf8.byteLength key > maxKeyBytes then
        .error (.keyTooLarge maxKeyBytes (Utf8.byteLength key))
      else
        let (chunk, remaining) := cutChunk value
        let records := records ++ [(key, chunk)]
        if remaining.isEmpty then .ok records else frameFrom baseKey room records remaining

def frameRecords (baseKey value : Text) : Except KvpError (List (Text × Text)) :=
  frameFrom baseKey maxChunks [] value

/-- The ten fields in front of the chunk index. -/
def baseKeyFields (diagnostic : Diagnostic) (vmId timestamp duration : Text) : List Text :=
  [diagnosticVersionId, diagnostic.key.agent, vmId, diagnostic.kind.toText,
    diagnostic.key.name, diagnostic.key.eventId, timestamp,
    (diagnostic.key.encoding.map Encoding.toText).getD "none".toList,
    (diagnostic.result.map Outcome.asStr).getD [], duration]

def prepareRecords (crates : Crates) (diagnostic : Diagnostic)
    (timestampPrecision : TimestampPrecision) (durationPrecision : DurationPrecision)
    (maxNameBytes : Nat) : Except KvpError (List (Text × Text)) := do
  let key := diagnostic.key
  validateField "agent".toList key.agent maxAgentBytes
  let vmId ← okOr key.vmId (.emptyEventField "vm_id".toList)
  validateUuid crates "vm_id".toList vmId
  validateField "name".toList key.name maxNameBytes
  validateUuid crates "event_id".toList key.eventId
  let duration := (diagnostic.duration.map durationPrecision.format).getD []
  let timestamp := crates.toRfc3339Opts key.timestamp timestampPrecision.secondsFormat
  validateField "timestamp".toList timestamp maxTimestampBytes
  let value ← encodePayload crates diagnostic.payload key.encoding
  let baseKey := ['|'].intercalate (baseKeyFields diagnostic vmId timestamp duration)
  frameRecords baseKey value

structure DiagnosticWriter where
  agent : Text
  vmId : Text
  maxNameBytes : Nat
  timestampPrecision : TimestampPrecision
  durationPrecision : DurationPrecision
  deriving DecidableEq, Repr

def DiagnosticWriter.new (crates : Crates) (agent vmId : Text) :
    Except KvpError DiagnosticWriter := do
  validateField "agent".toList agent maxAgentBytes
  validateUuid crates "vm_id".toList vmId
  return {
    agent, vmId, maxNameBytes := defaultMaxNameBytes
    timestampPrecision := .millis, durationPrecision := .micros }

/-- Append a diagnostic's records; nothing is opened for a diagnostic refused. -/
def DiagnosticWriter.emit (writer : DiagnosticWriter) (crates : Crates) (mode : PoolMode)
    (diagnostic : Diagnostic) : KvpIo Unit := do
  let records ← Kvp.ofResult (prepareRecords crates diagnostic writer.timestampPrecision
    writer.durationPrecision writer.maxNameBytes)
  Kvp.KvpPoolStore.appendMultiple mode records

/-- The metadata of a diagnostic that is captured at a time. -/
def DiagnosticWriter.keyAt (writer : DiagnosticWriter) (eventId name : Text)
    (encoding : Option Encoding) (timestamp : DateTime) : DiagnosticKey where
  agent := writer.agent
  vmId := some writer.vmId
  name
  eventId
  timestamp
  encoding

/-- What the writer reads when it is called: the time and a random identity. -/
structure Moment where
  now : DateTime
  newUuid : Text
  deriving DecidableEq, Repr

def DiagnosticWriter.emitStart (writer : DiagnosticWriter) (crates : Crates) (mode : PoolMode)
    (moment : Moment) (eventId name : Text) (payload : DiagnosticPayload)
    (encoding : Option Encoding) : KvpIo Unit :=
  writer.emit crates mode (.start {
    key := writer.keyAt eventId name encoding moment.now
    payload })

def DiagnosticWriter.emitFinish (writer : DiagnosticWriter) (crates : Crates) (mode : PoolMode)
    (moment : Moment) (eventId name : Text) (payload : DiagnosticPayload)
    (encoding : Option Encoding) (result : Outcome) (duration : Duration) : KvpIo Unit :=
  writer.emit crates mode (.finish {
    key := writer.keyAt eventId name encoding moment.now
    payload, result, duration })

def DiagnosticWriter.emitEvent (writer : DiagnosticWriter) (crates : Crates) (mode : PoolMode)
    (moment : Moment) (name : Text) (payload : DiagnosticPayload) (encoding : Option Encoding)
    (result : Option Outcome) (duration : Option Duration) : KvpIo Unit :=
  writer.emit crates mode (.event {
    key := writer.keyAt moment.newUuid name encoding moment.now
    payload, result, duration })

end AzureInit.Diagnostics
