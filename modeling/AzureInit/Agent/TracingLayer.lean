import AzureInit.Foundation.SortedMap
import AzureInit.Diagnostics.Crates
import AzureInit.Diagnostics.Diagnostic

/-! The bridge from tracing spans and events to the diagnostics writer. -/

set_option autoImplicit false

namespace AzureInit.Agent.TracingLayer

open Foundation
open Diagnostics (DiagnosticPayload Number Outcome Value)

inductive Level where
  | error
  | warn
  | info
  | debug
  | trace
  deriving DecidableEq, Repr

def Level.asStr : Level → Text
  | .error => "ERROR".toList
  | .warn => "WARN".toList
  | .info => "INFO".toList
  | .debug => "DEBUG".toList
  | .trace => "TRACE".toList

/-- What is known of a span or an event at its place in the code. -/
structure Metadata where
  name : Text
  target : Text
  level : Level
  deriving DecidableEq, Repr

/-! ## Fields -/

/-- A value as a visitor is given it; errors and debug values are already printed. -/
inductive FieldValue where
  | bool (value : Bool)
  | i64 (value : Int64)
  | u64 (value : UInt64)
  | f64 (value : Float)
  | str (value : Text)
  | error (shown : Text)
  | debug (shown : Text)

/-- A number that JSON has no literal for, as it is printed. -/
def showNonFinite (value : Float) : Text :=
  if value.isNaN then "NaN".toList else if value > 0 then "inf".toList else "-inf".toList

def FieldValue.toValue : FieldValue → Value
  | .bool value => .bool value
  | .i64 value =>
      .number (if value < 0 then .negInt value else .posInt value.toUInt64)
  | .u64 value => .number (.posInt value)
  | .f64 value =>
      if value.isFinite then .number (.float value) else .string (showNonFinite value)
  | .str value => .string value
  | .error shown => .string shown
  | .debug shown => .string shown

/-- Recorded fields by their names. -/
structure Fields where
  members : List (Text × Value)

def outcomeField : Text := "diagnostic.result".toList

def invalidOutcome : Text :=
  "diagnostic.result must be a string containing success or fail".toList

namespace Fields

def empty : Fields := ⟨[]⟩

def get (fields : Fields) (name : Text) : Option Value := SortedMap.get name fields.members

/-- Visit recorded values in their order. -/
def record (fields : Fields) (values : List (Text × FieldValue)) : Fields :=
  ⟨SortedMap.insertAll (values.map fun field => (field.1, field.2.toValue)) fields.members⟩

def outcome (fields : Fields) : Except Text (Option Outcome) :=
  match fields.get outcomeField with
  | none => .ok none
  | some (.string value) =>
      if value = "success".toList then .ok (some .ok)
      else if value = "fail".toList then .ok (some .error)
      else .error invalidOutcome
  | some _ => .error invalidOutcome

/-- The payload as JSON text. -/
def payload (printJson : Value → Text) (fields : Fields) (metadata : Metadata) :
    DiagnosticPayload :=
  .text (printJson (.object (SortedMap.insertAll
    [("target".toList, .string metadata.target), ("level".toList, .string metadata.level.asStr),
      ("fields".toList, .object fields.members)] [])))

end Fields

/-! ## Spans -/

abbrev SpanId : Type := UInt64

/-- A reading of the monotonic clock, in nanoseconds. -/
abbrev Instant : Type := Nat

/-- The time since an earlier reading, or zero. -/
def saturatingDurationSince (later earlier : Instant) : Duration :=
  Duration.new (UInt64.ofNat ((later - earlier) / nanosPerSecond))
    ((later - earlier) % nanosPerSecond)

/-- What is kept from a span's creation until its close. -/
structure SpanState where
  eventId : Text
  name : Text
  started : Instant
  fields : Fields
  sawError : Bool

/-- A span in the registry, with the layer's extension. -/
structure SpanData where
  metadata : Metadata
  extension : Option SpanState

/-- The open spans. -/
abbrev Registry : Type := SpanId → Option SpanData

namespace Registry

def empty : Registry := fun _ => none

def register (registry : Registry) (id : SpanId) (metadata : Metadata) : Registry :=
  Function.update registry id (some { metadata, extension := none })

def unregister (registry : Registry) (id : SpanId) : Registry :=
  Function.update registry id none

def state (registry : Registry) (id : SpanId) : Option SpanState :=
  (registry id).bind (·.extension)

/-- Change a span's extension. -/
def extend (registry : Registry) (id : SpanId)
    (change : Option SpanState → Option SpanState) : Registry :=
  Function.update registry id
    ((registry id).map fun span => { span with extension := change span.extension })

end Registry

/-! ## Callbacks -/

/-- What the layer asks of the writer. -/
inductive WriterCall where
  | emitStart (eventId name : Text) (payload : DiagnosticPayload)
  | emitEvent (name : Text) (payload : DiagnosticPayload) (result : Option Outcome)
  | emitFinish (eventId name : Text) (payload : DiagnosticPayload) (result : Outcome)
      (duration : Duration)

section Layer

variable (printJson : Value → Text)

def onNewSpan (registry : Registry) (id : SpanId) (metadata : Metadata)
    (attrs : List (Text × FieldValue)) (started : Instant) (eventId : Text) :
    Registry × Option WriterCall :=
  match registry id with
  | none => (registry, none)
  | some _ =>
      let fields := Fields.empty.record attrs
      let name := metadata.name
      let state := { eventId, name, started, fields, sawError := false }
      (registry.extend id fun _ => some state,
        some (.emitStart eventId name (fields.payload printJson metadata)))

def onRecord (registry : Registry) (id : SpanId) (values : List (Text × FieldValue)) : Registry :=
  registry.extend id fun extension =>
    extension.map fun state => { state with fields := state.fields.record values }

def onEvent (registry : Registry) (parent : Option SpanId) (metadata : Metadata)
    (values : List (Text × FieldValue)) : Registry × Option WriterCall :=
  let isError := metadata.level = .error
  let enclosing := parent.bind registry
  let name := (enclosing.map (·.metadata.name)).getD metadata.name
  let registry :=
    match parent with
    | some id =>
        if isError then registry.extend id fun extension =>
          extension.map fun state => { state with sawError := true }
        else registry
    | none => registry
  let fields := Fields.empty.record values
  match fields.outcome with
  | .error _ => (registry, none)
  | .ok result => (registry, some (.emitEvent name (fields.payload printJson metadata) result))

def onClose (registry : Registry) (id : SpanId) (closedAt : Instant) (panicking : Bool) :
    Registry × Option WriterCall :=
  match registry id with
  | none => (registry, none)
  | some span =>
      match span.extension with
      | none => (registry, none)
      | some state =>
          let registry := registry.extend id fun _ => none
          let finish (result : Outcome) : WriterCall :=
            .emitFinish state.eventId state.name (state.fields.payload printJson span.metadata)
              result (saturatingDurationSince closedAt state.started)
          if panicking then (registry, some (finish .error))
          else
            match state.fields.outcome with
            | .error _ => (registry, none)
            | .ok explicit =>
                (registry, some (finish (explicit.getD (if state.sawError then .error else .ok))))

/-- One call of the layer, with what it reads from the clock, the random source and the
thread. A span is registered before its first callback and forgotten behind its last. -/
inductive Callback where
  | newSpan (id : SpanId) (metadata : Metadata) (attrs : List (Text × FieldValue))
      (started : Instant) (eventId : Text)
  | record (id : SpanId) (values : List (Text × FieldValue))
  | event (parent : Option SpanId) (metadata : Metadata) (values : List (Text × FieldValue))
  | close (id : SpanId) (closedAt : Instant) (panicking : Bool)

def step (registry : Registry) : Callback → Registry × Option WriterCall
  | .newSpan id metadata attrs started eventId =>
      onNewSpan printJson (registry.register id metadata) id metadata attrs started eventId
  | .record id values => (onRecord registry id values, none)
  | .event parent metadata values => onEvent printJson registry parent metadata values
  | .close id closedAt panicking =>
      let (registry, call) := onClose printJson registry id closedAt panicking
      (registry.unregister id, call)

/-- The registry behind a sequence of callbacks. -/
def after (registry : Registry) (callbacks : List Callback) : Registry :=
  callbacks.foldl (fun registry callback => (step printJson registry callback).1) registry

/-- What a sequence of callbacks asks of the writer. -/
def calls (registry : Registry) : List Callback → List WriterCall
  | [] => []
  | callback :: rest =>
      (step printJson registry callback).2.toList ++
        calls (step printJson registry callback).1 rest

end Layer

end AzureInit.Agent.TracingLayer
