import AzureInit.Diagnostics.Report
import AzureInit.Diagnostics.Encoding

/-! Records of cloud-init: keys with and without a VM identity and a chunk index,
and JSON values whose last member is the message. -/

set_option autoImplicit false

namespace AzureInit.Diagnostics.CloudInit

open Foundation

def keyPrefix : Text := "CLOUD_INIT".toList

structure CloudInitKey where
  kind : Text
  name : Text
  vmId : Option Text
  eventId : Text
  deriving DecidableEq, Repr

def parseKey (crates : Crates) (base : Text) : Except DecodeError CloudInitKey := do
  let fields := base.splitOn '|'
  let (keyPrefix, incarnation, kind, name, vmId, eventId) ←
    match fields with
    | [keyPrefix, incarnation, kind, name, eventId] =>
        pure (keyPrefix, incarnation, kind, name, none, eventId)
    | [keyPrefix, incarnation, kind, name, vmId, eventId] =>
        pure (keyPrefix, incarnation, kind, name, some vmId, eventId)
    | _ => throw .malformed
  if keyPrefix != CloudInit.keyPrefix || base.contains '\x00' || fields.any List.isEmpty ||
      !incarnation.all Char.isDigit then throw .malformed
  else if vmId.any (!crates.parseUuid ·) then throw .malformed
  else if !crates.parseUuid eventId then throw .malformed
  else return { kind, name, vmId, eventId }

def splitKey (crates : Crates) (key : Text) :
    Except DecodeError (Text × Option UInt64) := do
  let fields := key.splitOn '|'
  let indexed ←
    match fields.length with
    | 5 => pure false
    | 6 => pure (!crates.parseUuid (fields.getD 5 []))
    | 7 => pure true
    | _ => throw .malformed
  let (base, index) ←
    if indexed then do
      let (base, index) ← okOr (Delimited.rsplitOnce? ['|'] key) .malformed
      let index ← parseUnsigned index
      pure (base, some index)
    else pure (key, none)
  let _ ← parseKey crates base
  return (base, index)

def durationUs (seconds : Number) : Except DecodeError Duration := do
  match seconds.asU64 with
  | some seconds =>
      let micros := seconds.toNat * 1000000
      if micros < UInt64.size then return Duration.fromMicros (UInt64.ofNat micros)
      else throw .malformed
  | none =>
      let micros := (← okOr seconds.asF64 .malformed) * 1000000.0
      -- The exclusive upper bound avoids a saturating conversion to an integer.
      if 0.0 ≤ micros ∧ micros < UInt64.toFloat 0xffffffffffffffff then
        return Duration.fromMicros micros.round.toUInt64
      else throw .malformed

def isAsciiWhitespace (byte : UInt8) : Bool :=
  byte == 0x20 || byte == 0x09 || byte == 0x0a || byte == 0x0c || byte == 0x0d

def decodeCompressed (crates : Crates) (data : Text) :
    Except DecodeError DiagnosticPayload :=
  let compact := (Utf8.encode data).filter (!isAsciiWhitespace ·)
  match crates.base64Decode compact with
  | none => .error .undecodable
  | some compressed =>
      let encoding : Encoding :=
        if [0x1f, 0x8b].isPrefixOf compressed then .gzB64 else .zlibB64
      decompress crates compressed encoding

def decodeMessage (crates : Crates) (message : Text) (compressed : Bool) :
    Except DecodeError (DiagnosticPayload × Option Encoding) := do
  let envelope := crates.jsonFromStr message
  let isEnvelope := envelope.any fun value =>
    (value.get "encoding".toList).isSome && (value.get "data".toList).isSome
  if !compressed && !isEnvelope then return (.text message, none)
  else
    let envelope ← okOr envelope .malformed
    let encoding ← okOr ((envelope.get "encoding".toList).bind Value.asStr) .malformed
    if encoding != "gz+b64".toList then throw .undecodable
    else
      let data ← okOr ((envelope.get "data".toList).bind Value.asStr) .malformed
      return (← decodeCompressed crates data, some .gzB64)

def diagnostic (crates : Crates) (source : CloudInitKey) (metadata : Value)
    (message : Text) : Except DecodeError Diagnostic := do
  if (metadata.get "name".toList).bind Value.asStr != some source.name ||
      (metadata.get "type".toList).bind Value.asStr != some source.kind then
    throw .malformed
  else
    let timestamp ← okOr ((metadata.get "ts".toList).bind Value.asStr) .malformed
    let timestamp ← okOr (crates.parseFromRfc3339 timestamp) .malformed
    let (payload, encoding) ←
      decodeMessage crates message (source.kind == "compressed".toList)
    let key : DiagnosticKey :=
      { agent := CloudInit.keyPrefix, vmId := source.vmId, name := source.name,
        eventId := source.eventId, timestamp, encoding }
    if source.kind == "start".toList then
      if (metadata.get "result".toList).isSome ||
          (metadata.get "duration".toList).isSome then throw .malformed
      else return .start { key, payload }
    else if source.kind == "finish".toList then
      let token := (metadata.get "result".toList).bind Value.asStr
      let result ←
        if token == some "SUCCESS".toList then pure Outcome.ok
        else if token == some "FAIL".toList then pure Outcome.error
        else throw .malformed
      let duration ← okOr ((metadata.get "duration".toList).bind Value.asNumber) .malformed
      return .finish { key, payload, result, duration := ← durationUs duration }
    else return .event { key, payload, result := none, duration := none }

def decodeSingle (crates : Crates) (base value : Text) :
    Except DecodeError Diagnostic := do
  let key ← parseKey crates base
  let metadata ← okOr (crates.jsonFromStr value) .malformed
  if (metadata.get "msg_i".toList).isSome then throw .malformed
  else
    let message ← okOr ((metadata.get "msg".toList).bind Value.asStr) .malformed
    diagnostic crates key metadata message

/-- The metadata and the still escaped message of a chunk, whose `msg` is last. -/
def chunkParts (crates : Crates) (value : Text) : Except DecodeError (Value × Text) := do
  let (opening, message) ← okOr (Delimited.rsplitOnce? ",\"msg\":".toList value) .malformed
  let fragment ← okOr ((message.dropPrefix? "\"".toList).bind (·.dropSuffix? "\"\x7d".toList)) .malformed
  let metadata ← okOr (crates.jsonFromStr (opening ++ "\x7d".toList)) .malformed
  return (metadata, fragment)

/-- Add a chunk to the metadata and the escaped message of those before it. -/
def addChunk (crates : Crates) (joined : Option Value × Text) (chunk : UInt64 × Text) :
    Except DecodeError (Option Value × Text) := do
  let (metadata, escapedMessage) := joined
  let (current, fragment) ← chunkParts crates chunk.2
  if (current.get "msg_i".toList).bind Value.asU64 != some chunk.1 then throw .malformed
  else
    let current ← okOr (current.remove "msg_i".toList) .malformed
    if metadata.any (· != current) then throw .malformed
    else return (some (metadata.getD current), escapedMessage ++ fragment)

/-- Decode chunks that are ordered and complete. -/
def decodeChunks (crates : Crates) (base : Text) (chunks : List (UInt64 × Text)) :
    Except DecodeError Diagnostic := do
  let key ← parseKey crates base
  let (metadata, escapedMessage) ← chunks.foldlM (addChunk crates) (none, [])
  let quoted := "\"".toList ++ escapedMessage ++ "\"".toList
  let message ← okOr ((crates.jsonFromStr quoted).bind Value.asStr) .malformed
  diagnostic crates key (← okOr metadata .malformed) message

end AzureInit.Diagnostics.CloudInit
