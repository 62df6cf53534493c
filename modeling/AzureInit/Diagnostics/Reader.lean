import Mathlib.Data.List.Sort
import AzureInit.Diagnostics.CloudInit
import AzureInit.Kvp.Store

/-! The diagnostic reader: one scan that places every record, and one pass over
the chunk groups, in the order in which the hash map happens to hold them. -/

set_option autoImplicit false

namespace AzureInit.Diagnostics

open Foundation
open Kvp (HashMap KvpIo)

/-- One item returned by the reader. -/
inductive Entry where
  | diagnostic (diagnostic : Diagnostic)
  | report (report : ProvisioningReport)
  | raw (raw : RawKeyValue)
  deriving DecidableEq, Repr

structure Chunk where
  position : Nat
  index : UInt64
  raw : RawKeyValue
  deriving DecidableEq, Repr

structure ChunkGroup where
  firstPosition : Nat
  chunks : List Chunk
  deriving DecidableEq, Repr

/-- Decoding that sorts the chunks of its group in place, also when it fails. -/
abbrev ChunkDecoder (α : Type) : Type := ExceptT DecodeError (StateM (List Chunk)) α

def orderChunks : ChunkDecoder Unit := do
  modify fun chunks => chunks.insertionSort (·.index ≤ ·.index)
  let chunks ← get
  if (chunks.zip chunks.tail).any fun pair => pair.1.index == pair.2.index then
    throw .duplicateChunk
  else if chunks.zipIdx.any fun (chunk, expected) => chunk.index.toNat != expected then
    throw .incompleteGroup
  else return ()

def decodeChunks (crates : Crates) (encoding : Option Encoding) :
    ChunkDecoder DiagnosticPayload := do
  orderChunks
  let chunks ← get
  let value := chunks.flatMap (·.raw.value)
  ofExcept (decodePayload crates (Utf8.encode value) encoding)

/-- The fraction of a second as nanoseconds, in 32-bit arithmetic. -/
def fractionNanos (fraction : Text) : Except DecodeError UInt32 :=
  if fraction.isEmpty || Utf8.byteLength fraction > 9 || !fraction.all Char.isDigit then
    .error .malformed
  else if Decimal.digitsValue fraction < UInt32.size then
    .ok (UInt32.ofNat (Decimal.digitsValue fraction) *
      UInt32.ofNat (10 ^ (9 - Utf8.byteLength fraction)))
  else .error .malformed

def parseDecimalDuration (value : Text) : Except DecodeError Duration := do
  let (seconds, fraction) :=
    match Delimited.splitOnce? '.' value with
    | some (seconds, fraction) => (seconds, some fraction)
    | none => (value, none)
  let seconds ← parseUnsigned seconds
  let nanos ←
    match fraction with
    | none => pure 0
    | some fraction => fractionNanos fraction
  return Duration.new seconds nanos.toNat

def parseDuration (crates : Crates) (value : Text) : Except DecodeError Duration :=
  match parseDecimalDuration value with
  | .ok duration => .ok duration
  | .error _ => okOr ((crates.parseF64 value).bind crates.tryFromSecsF64) .malformed

/-- What a base key says about its diagnostic. -/
structure DiagHeader where
  key : DiagnosticKey
  kind : Text
  result : Option Outcome
  duration : Option Duration
  deriving DecidableEq, Repr

def parseOutcome (token : Text) : Except DecodeError (Option Outcome) :=
  if token.isEmpty then .ok none
  else if token == Outcome.ok.asStr then .ok (some .ok)
  else if token == Outcome.error.asStr then .ok (some .error)
  else .error .malformed

def parseOptionalDuration (crates : Crates) (token : Text) :
    Except DecodeError (Option Duration) :=
  if token.isEmpty then .ok none else (parseDuration crates token).map some

def encodingOfToken (token : Text) : Option Encoding :=
  if token == "none".toList then none
  else if token == "zlib+b64".toList then some .zlibB64
  else if token == "gz+b64".toList then some .gzB64
  else some (.other token)

def parseDiagHeader (crates : Crates) (base : Text) : Except DecodeError DiagHeader :=
  match base.splitOn '|' with
  | [version, agent, vmId, kind, name, eventId, timestamp, encoding, result, duration] =>
      if version != diagnosticVersionId || base.contains '\x00' ||
          [agent, vmId, name, eventId, timestamp, encoding].any List.isEmpty then
        .error .malformed
      else if !crates.parseUuid vmId then .error .malformed
      else do
        let timestamp ← okOr (crates.parseFromRfc3339 timestamp) .malformed
        let result ← parseOutcome result
        let duration ← parseOptionalDuration crates duration
        let encoding := encodingOfToken encoding
        let key := { agent, vmId := some vmId, name, eventId, timestamp, encoding }
        return { key, kind, result, duration }
  | _ => .error .malformed

/-- The diagnostic of a header and the payload in its chunks. -/
def decodeWithHeader (crates : Crates) (header : DiagHeader) : ChunkDecoder Diagnostic :=
  let { key, kind, result, duration } := header
  if kind == "start".toList && result.isNone && duration.isNone then do
    let payload ← decodeChunks crates key.encoding
    return .start { key, payload }
  else if kind == "finish".toList then
    match result, duration with
    | some result, some duration => do
        let payload ← decodeChunks crates key.encoding
        return .finish { key, payload, result, duration }
    | _, _ => throw .malformed
  else if kind == "event".toList then do
    let payload ← decodeChunks crates key.encoding
    return .event { key, payload, result, duration }
  else throw .malformed

def decodeDiagGroup (crates : Crates) (base : Text) : ChunkDecoder Diagnostic := do
  let header ← ofExcept (parseDiagHeader crates base)
  decodeWithHeader crates header

def splitChunkKey (key : Text) : Except DecodeError (Text × UInt64) := do
  let (base, index) ← okOr (Delimited.rsplitOnce? ['|'] key) .malformed
  return (base, ← parseUnsigned index)

/-- Where the scan puts a record: in the output, or in the group of a base key. -/
inductive Placement where
  | entry (entry : Entry)
  | chunk (base : Text) (index : UInt64)
  deriving DecidableEq, Repr

def placeParsed (crates : Crates) (raw : RawKeyValue)
    (parsed : Except DecodeError (Text × Option UInt64)) : Placement :=
  match parsed with
  | .ok (base, some index) => .chunk base index
  | .ok (base, none) =>
      match CloudInit.decodeSingle crates base raw.value with
      | .ok diagnostic => .entry (.diagnostic diagnostic)
      | .error error => .entry (.raw (raw.withError error))
  | .error error => .entry (.raw (raw.withError error))

def placeRecord (crates : Crates) (record : Text × Text) : Placement :=
  let raw : RawKeyValue := { key := record.1, value := record.2, error := none }
  let keyPrefix := Delimited.firstField '|' raw.key
  if keyPrefix == diagnosticVersionId then
    placeParsed crates raw ((splitChunkKey raw.key).map fun (base, index) => (base, some index))
  else if keyPrefix == CloudInit.keyPrefix then
    placeParsed crates raw (CloudInit.splitKey crates raw.key)
  else if keyPrefix == provisioningReportKey && raw.key == provisioningReportKey then
    match ProvisioningReport.fromStr crates raw.value with
    | .ok report => .entry (.report report)
    | .error error => .entry (.raw (raw.withError error))
  else if "DIAG_V".toList.isPrefixOf keyPrefix then
    placeParsed crates raw (.error .unsupportedVersion)
  else .entry (.raw raw)

structure Scan where
  entries : List (Nat × Entry)
  groups : HashMap ChunkGroup

/-- Push a chunk to the group of its base key, which is created with it if need be. -/
def pushChunk (groups : HashMap ChunkGroup) (base : Text) (chunk : Chunk) :
    HashMap ChunkGroup :=
  let group := (groups.lookup base).getD { firstPosition := chunk.position, chunks := [] }
  groups.insert base { group with chunks := group.chunks ++ [chunk] }

def scanRecord (crates : Crates) (scan : Scan) (numbered : (Text × Text) × Nat) : Scan :=
  let (record, position) := numbered
  match placeRecord crates record with
  | .entry entry => { scan with entries := scan.entries ++ [(position, entry)] }
  | .chunk base index =>
      let raw := { key := record.1, value := record.2, error := none }
      { scan with groups := pushChunk scan.groups base { position, index, raw } }

def scanRecords (crates : Crates) (records : List (Text × Text)) : Scan :=
  records.zipIdx.foldl (scanRecord crates) { entries := [], groups := ∅ }

def decodeGroup (crates : Crates) (base : Text) : ChunkDecoder Diagnostic :=
  if Delimited.firstField '|' base == CloudInit.keyPrefix then do
    orderChunks
    let chunks ← get
    ofExcept (CloudInit.decodeChunks crates base
      (chunks.map fun chunk => (chunk.index, chunk.raw.value)))
  else decodeDiagGroup crates base

/-- The output of one group: its diagnostic, or all its records with the error. -/
def groupEntries (crates : Crates) (base : Text) (group : ChunkGroup) :
    List (Nat × Entry) :=
  let (decoded, chunks) := (decodeGroup crates base).run.run group.chunks
  match decoded with
  | .ok diagnostic => [(group.firstPosition, .diagnostic diagnostic)]
  | .error error =>
      chunks.map fun chunk => (chunk.position, .raw (chunk.raw.withError error))

/-- An order in which a hash map may hand out its entries. -/
structure HashOrder where
  arrange : List ((_ : Text) × ChunkGroup) → List ((_ : Text) × ChunkGroup)
  perm : ∀ groups, (arrange groups).Perm groups

def decodeEntries (crates : Crates) (order : HashOrder) (records : List (Text × Text)) :
    List Entry :=
  let scan := scanRecords crates records
  let decoded := (order.arrange scan.groups.entries).flatMap fun entry =>
    groupEntries crates entry.1 entry.2
  ((scan.entries ++ decoded).insertionSort (·.1 ≤ ·.1)).map (·.2)

/-- `DiagnosticReader::entries`: what the pool holds, decoded. -/
def DiagnosticReader.entries (crates : Crates) (order : HashOrder) : KvpIo (List Entry) := do
  let records ← Kvp.KvpPoolStore.dump
  return decodeEntries crates order records

end AzureInit.Diagnostics
