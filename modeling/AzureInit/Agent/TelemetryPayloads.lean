import AzureInit.Agent.StoredTelemetry
import AzureInit.Diagnostics.JsonRoundTrip

/-! The payloads of the tracing layer as JSON: what the spans and events were given is what a
reader of the payloads gets. -/

set_option autoImplicit false

namespace AzureInit.Agent.TracingLayer

open Foundation
open Diagnostics (Diagnostic DiagnosticPayload DiagnosticWriter Number Value)
open Diagnostics.Json (Legible ReadsNumber)

/-- The value whose text is the payload. -/
def payloadValue (metadata : Metadata) (fields : Fields) : Value :=
  .object [("fields".toList, .object fields.members),
    ("level".toList, .string metadata.level.asStr), ("target".toList, .string metadata.target)]

def Callback.values : Callback → List (Text × FieldValue)
  | .newSpan _ _ attrs _ _ => attrs
  | .record _ values => values
  | .event _ _ values => values
  | .close _ _ _ => []

variable {printJson : Value → Text} {writer : DiagnosticWriter} {registry : Registry}

section Readable

variable (numberOf : Text → Option Number) (printFloat : Float → Text)

/-- A number is read as it is printed. -/
def FieldValue.Readable (value : FieldValue) : Prop :=
  ∀ number, value.toValue = .number number →
    ∃ first rest, ReadsNumber numberOf printFloat number first rest

structure Fields.Readable (fields : Fields) : Prop where
  sorted : SortedMap.Sorted fields.members
  legible : ∀ member ∈ fields.members, ∀ depth, Legible numberOf printFloat depth member.2

def Registry.Readable (registry : Registry) : Prop :=
  ∀ id state, registry.state id = some state → state.fields.Readable numberOf printFloat

end Readable

variable {numberOf : Text → Option Number} {printFloat : Float → Text}

theorem FieldValue.Readable.legible {value : FieldValue}
    (readable : value.Readable numberOf printFloat) (depth : Nat) :
    Legible numberOf printFloat depth value.toValue := by
  cases isValue : value.toValue with
  | null => exact .null
  | bool flag => exact .bool flag
  | number number =>
      obtain ⟨first, rest, reads⟩ := readable number isValue
      exact .number reads
  | string text => exact .string text
  | array | object =>
      -- no visited value is a list or a map
      cases value with
      | f64 float =>
          simp only [FieldValue.toValue] at isValue
          split at isValue <;> cases isValue
      | bool | i64 | u64 | str | error | debug => cases isValue

theorem Fields.Readable.empty : Fields.empty.Readable numberOf printFloat :=
  ⟨List.Pairwise.nil, fun _ member => absurd member List.not_mem_nil⟩

theorem Fields.Readable.record {fields : Fields} (readable : fields.Readable numberOf printFloat)
    {values : List (Text × FieldValue)}
    (given : ∀ field ∈ values, field.2.Readable numberOf printFloat) :
    (fields.record values).Readable numberOf printFloat := by
  constructor
  · exact readable.sorted.insertAll _
  · intro member inFields depth
    rcases SortedMap.mem_of_mem_insertAll inFields with new | old
    · obtain ⟨field, inValues, rfl⟩ := List.mem_map.mp new
      exact (given field inValues).legible depth
    · exact readable.legible member old depth

/-- What one callback makes of a span is readable if what is given is. -/
theorem readable_of_update {callback : Callback} {id : SpanId} {span : Option SpanData}
    {state : SpanState}
    (given : ∀ field ∈ callback.values, field.2.Readable numberOf printFloat)
    (before : ∀ earlier, span.bind (·.extension) = some earlier →
      earlier.fields.Readable numberOf printFloat)
    (updated : (callback.update id span).bind (·.extension) = some state) :
    state.fields.Readable numberOf printFloat := by
  cases callback with
  | newSpan other metadata attrs started eventId =>
      simp only [Callback.update] at updated
      split at updated
      · cases updated
        exact Fields.Readable.empty.record given
      · exact before state updated
  | record other values =>
      simp only [Callback.update] at updated
      split at updated
      · cases span with
        | none => cases updated
        | some span =>
            obtain ⟨earlier, extension, rfl⟩ := Option.map_eq_some_iff.mp updated
            exact (before earlier extension).record given
      · exact before state updated
  | event parent metadata values =>
      simp only [Callback.update] at updated
      split at updated
      · cases span with
        | none => cases updated
        | some span =>
            obtain ⟨earlier, extension, rfl⟩ := Option.map_eq_some_iff.mp updated
            exact before earlier extension
      · exact before state updated
  | close other closedAt panicking =>
      simp only [Callback.update] at updated
      split at updated
      · cases updated
      · exact before state updated

theorem Registry.Readable.step {callback : Callback}
    (readable : registry.Readable numberOf printFloat)
    (given : ∀ field ∈ callback.values, field.2.Readable numberOf printFloat) :
    (step printJson registry callback).1.Readable numberOf printFloat := by
  intro id state found
  rw [Registry.state, step_apply] at found
  exact readable_of_update given (readable id) found

theorem Fields.Readable.fromStr {fields : Fields} (readable : fields.Readable numberOf printFloat)
    (metadata : Metadata) :
    Diagnostics.Json.fromStr numberOf
        (Diagnostics.Json.printCompact printFloat (payloadValue metadata fields)) =
      some (payloadValue metadata fields) := by
  apply Diagnostics.Json.fromStr_printCompact
  have fieldsBeforeLevel : "fields".toList < "level".toList := by decide
  have fieldsBeforeTarget : "fields".toList < "target".toList := by decide
  have levelBeforeTarget : "level".toList < "target".toList := by decide
  have sorted : SortedMap.Sorted [("fields".toList, Value.object fields.members),
      ("level".toList, .string metadata.level.asStr),
      ("target".toList, .string metadata.target)] := by
    refine List.pairwise_cons.mpr ⟨?_, List.pairwise_cons.mpr ⟨?_, List.pairwise_singleton _ _⟩⟩
    · exact List.forall_mem_cons.mpr
        ⟨fieldsBeforeLevel, List.forall_mem_singleton.mpr fieldsBeforeTarget⟩
    · exact List.forall_mem_singleton.mpr levelBeforeTarget
  refine .object sorted ?_
  simp only [List.forall_mem_cons]
  refine ⟨?_, .string _, .string _, fun _ member => absurd member List.not_mem_nil⟩
  exact .object readable.sorted fun member inFields => readable.legible member inFields _

/-! ## A boot -/

end AzureInit.Agent.TracingLayer
