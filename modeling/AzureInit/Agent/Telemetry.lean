import AzureInit.Agent.SpanPairing
import AzureInit.Cli.TextDump
import AzureInit.Diagnostics.RecordOrder

/-! The tracing layer at work on the pool: which diagnostics it asks for in the course of a
boot, and that no two of them are taken for one. -/

set_option autoImplicit false

namespace AzureInit.Agent.TracingLayer

open Foundation
open Diagnostics (Crates Diagnostic DiagnosticWriter Kind Moment Value)
open Kvp (Call KvpError KvpIo PoolMode Reply)

/-! ## The layer and its writer -/

/-- A callback, with the moment at which it writes. -/
structure Occasion where
  callback : Callback
  moment : Moment

def WriterCall.perform (writer : DiagnosticWriter) (crates : Crates) (mode : PoolMode)
    (moment : Moment) : WriterCall → KvpIo Unit
  | .emitStart eventId name payload =>
      writer.emitStart crates mode moment eventId name payload none
  | .emitEvent name payload result =>
      writer.emitEvent crates mode moment name payload none result none
  | .emitFinish eventId name payload result duration =>
      writer.emitFinish crates mode moment eventId name payload none result duration

/-- An error of a write is reported, and nothing else is done about it. -/
def reportWriteError (write : KvpIo Unit) : Program Call Reply Unit := do
  let _ ← write.run
  return ()

section Layer

variable (printJson : Value → Text) (writer : DiagnosticWriter)

/-- The layer with a registry, from one callback to the next. -/
def layerFrom (crates : Crates) (mode : PoolMode) :
    Registry → List Occasion → Program Call Reply Unit
  | _, [] => return ()
  | registry, ⟨callback, moment⟩ :: rest => do
      match (step printJson registry callback).2 with
      | none => pure ()
      | some call => reportWriteError (call.perform writer crates mode moment)
      layerFrom crates mode (step printJson registry callback).1 rest

/-! ## The diagnostics that are asked for -/

def WriterCall.diagnostic (moment : Moment) : WriterCall → Diagnostic
  | .emitStart eventId name payload =>
      .start { key := writer.keyAt eventId name none moment.now, payload }
  | .emitEvent name payload result =>
      .event {
        key := writer.keyAt moment.newUuid name none moment.now
        payload, result, duration := none }
  | .emitFinish eventId name payload result duration =>
      .finish { key := writer.keyAt eventId name none moment.now, payload, result, duration }

def asked : Registry → List Occasion → List Diagnostic
  | _, [] => []
  | registry, ⟨callback, moment⟩ :: rest =>
      ((step printJson registry callback).2.map (·.diagnostic writer moment)).toList ++
        asked (step printJson registry callback).1 rest

theorem WriterCall.perform_eq (crates : Crates) (mode : PoolMode) (moment : Moment)
    (call : WriterCall) :
    call.perform writer crates mode moment =
      writer.emit crates mode (call.diagnostic writer moment) := by
  cases call <;> rfl

end Layer

/-! ## Payloads -/

/-- What is told on a callback, of which span or event. -/
def told (registry : Registry) : Callback → Option (Metadata × Fields)
  | .newSpan _ metadata attrs _ _ => some (metadata, Fields.empty.record attrs)
  | .record _ _ => none
  | .event _ metadata values => some (metadata, Fields.empty.record values)
  | .close id _ _ =>
      (registry id).bind fun span => span.extension.map fun state => (span.metadata, state.fields)

/-! ## Identities -/

/-- The identity that a diagnostic is given on an occasion. -/
def Occasion.identity (occasion : Occasion) : Option Text :=
  match occasion.callback with
  | .event _ _ _ => some occasion.moment.newUuid
  | callback => callback.eventId

/-- What tells the diagnostics of one writer apart. -/
def signature (diagnostic : Diagnostic) : Kind × Text := (diagnostic.kind, diagnostic.key.eventId)

variable {printJson : Value → Text} {writer : DiagnosticWriter} {registry : Registry}
  {callback : Callback} {moment : Moment}

/-- What a callback asks for: the start of a new span, an event, or the finish of a span. -/
theorem call_of_step {call : WriterCall}
    (calls : (step printJson registry callback).2 = some call) :
    (∃ id metadata attrs started eventId,
      callback = .newSpan id metadata attrs started eventId ∧
        call = .emitStart eventId metadata.name
          ((Fields.empty.record attrs).payload printJson metadata)) ∨
    (∃ parent metadata values name result, callback = .event parent metadata values ∧
      call = .emitEvent name ((Fields.empty.record values).payload printJson metadata) result) ∨
    (∃ id closedAt panicking span state result, callback = .close id closedAt panicking ∧
      registry id = some span ∧ span.extension = some state ∧
        call = .emitFinish state.eventId state.name
          (state.fields.payload printJson span.metadata) result
          (saturatingDurationSince closedAt state.started)) := by
  cases callback with
  | newSpan id metadata attrs started eventId =>
      simp only [step, onNewSpan, Registry.register, Function.update_self, Option.some.injEq]
        at calls
      exact .inl ⟨id, metadata, attrs, started, eventId, rfl, calls.symm⟩
  | record id values => cases calls
  | event parent metadata values =>
      unfold step onEvent at calls
      dsimp only at calls
      split at calls
      · cases calls
      · exact .inr (.inl ⟨parent, metadata, values, _, _, rfl, (Option.some.inj calls).symm⟩)
  | close id closedAt panicking =>
      unfold step onClose at calls
      dsimp only at calls
      split at calls
      · cases calls
      · rename_i span registered
        split at calls
        · cases calls
        · rename_i state extension
          have finishes : ∃ result, call = .emitFinish state.eventId state.name
              (state.fields.payload printJson span.metadata) result
              (saturatingDurationSince closedAt state.started) := by
            split at calls
            · exact ⟨_, (Option.some.inj calls).symm⟩
            · split at calls
              · cases calls
              · exact ⟨_, (Option.some.inj calls).symm⟩
          obtain ⟨result, finish⟩ := finishes
          exact .inr (.inr ⟨id, closedAt, panicking, span, state, result, rfl, registered,
            extension, finish⟩)

/-- A diagnostic has the identity of its occasion, or is the finish of the span that is closed. -/
theorem signature_of_step {call : WriterCall}
    (calls : (step printJson registry callback).2 = some call) :
    (⟨callback, moment⟩ : Occasion).identity = some (call.diagnostic writer moment).key.eventId ∨
      ∃ id state, registry.state id = some state ∧ callback.closes id = true ∧
        signature (call.diagnostic writer moment) = (.finish, state.eventId) := by
  rcases call_of_step calls with starts | occurs | finishes
  · obtain ⟨id, metadata, attrs, started, eventId, rfl, rfl⟩ := starts
    exact .inl rfl
  · obtain ⟨parent, metadata, values, name, result, rfl, rfl⟩ := occurs
    exact .inl rfl
  · obtain ⟨id, closedAt, panicking, span, state, result, rfl, registered, extension, rfl⟩ :=
      finishes
    exact .inr ⟨id, state, Option.bind_eq_some_iff.mpr ⟨span, registered, extension⟩,
      by simp [Callback.closes], rfl⟩

/-- The payload of a diagnostic is what is told. -/
theorem told_of_step {call : WriterCall}
    (calls : (step printJson registry callback).2 = some call) :
    ∃ metadata fields, told registry callback = some (metadata, fields) ∧
      (call.diagnostic writer moment).payload = fields.payload printJson metadata := by
  rcases call_of_step calls with starts | occurs | finishes
  · obtain ⟨id, metadata, attrs, started, eventId, rfl, rfl⟩ := starts
    exact ⟨metadata, _, rfl, rfl⟩
  · obtain ⟨parent, metadata, values, name, result, rfl, rfl⟩ := occurs
    exact ⟨metadata, _, rfl, rfl⟩
  · obtain ⟨id, closedAt, panicking, span, state, result, rfl, registered, extension, rfl⟩ :=
      finishes
    exact ⟨span.metadata, state.fields, by simp [told, registered, extension], rfl⟩

/-- The open spans have different identities, none of which is given again. -/
structure Separate (registry : Registry) (identities : List Text) : Prop where
  distinct : ∀ id other state otherState, registry.state id = some state →
    registry.state other = some otherState → state.eventId = otherState.eventId → id = other
  fresh : ∀ id state, registry.state id = some state → state.eventId ∉ identities

theorem identity_of_created {eventId : Text} (created : callback.eventId = some eventId) :
    (⟨callback, moment⟩ : Occasion).identity = some eventId := by
  cases callback with
  | newSpan => exact created
  | record => cases created
  | event => cases created
  | close => cases created

/-- What is open behind a callback was open before, unless the callback has opened it. -/
theorem opened_of_step {id : SpanId} {state : SpanState}
    (found : (step printJson registry callback).1.state id = some state) :
    (callback.closes id = false ∧
      ∃ earlier, registry.state id = some earlier ∧ state.eventId = earlier.eventId) ∨
    (callback.opens id = true ∧ callback.eventId = some state.eventId) := by
  rw [Registry.state, step_apply] at found
  cases callback with
  | newSpan other metadata attrs started eventId =>
      simp only [Callback.update] at found
      split at found
      · rename_i same
        cases found
        exact .inr ⟨by simp [Callback.opens, same], rfl⟩
      · exact .inl ⟨rfl, state, found, rfl⟩
  | record | event =>
      rcases eventId_of_update found with kept | created
      · exact .inl ⟨rfl, kept⟩
      · cases created
  | close other closedAt panicking =>
      simp only [Callback.update] at found
      split at found
      · cases found
      · rename_i different
        exact .inl ⟨by simp [Callback.closes, different], state, found, rfl⟩

theorem opens_unique {id other : SpanId} (first : callback.opens id = true)
    (second : callback.opens other = true) : id = other := by
  cases callback with
  | newSpan opened =>
      simp only [Callback.opens, decide_eq_true_eq] at first second
      exact first.symm.trans second
  | record => cases first
  | event => cases first
  | close => cases first

theorem closes_of_opens {id other : SpanId} (opens : callback.opens id = true)
    (closes : callback.closes other = true) : False := by
  cases callback with
  | newSpan => cases closes
  | record => cases opens
  | event => cases opens
  | close => cases opens

/-- The callback that opens a span asks for its start. -/
theorem kind_of_opens {call : WriterCall} {id : SpanId}
    (calls : (step printJson registry callback).2 = some call)
    (opens : callback.opens id = true) : (call.diagnostic writer moment).kind = .start := by
  rcases call_of_step calls with starts | occurs | finishes
  · obtain ⟨_, _, _, _, _, rfl, rfl⟩ := starts
    rfl
  · obtain ⟨_, _, _, _, _, rfl, -⟩ := occurs
    cases opens
  · obtain ⟨_, _, _, _, _, _, rfl, -⟩ := finishes
    cases opens

variable {identities : List Text}

theorem Separate.step
    (separate : Separate registry ((⟨callback, moment⟩ : Occasion).identity.toList ++ identities))
    (nodup : ((⟨callback, moment⟩ : Occasion).identity.toList ++ identities).Nodup) :
    Separate (step printJson registry callback).1 identities := by
  have notNew : ∀ {id state}, registry.state id = some state →
      callback.eventId ≠ some state.eventId := by
    intro id state isOpen created
    refine separate.fresh id state isOpen (List.mem_append_left _ ?_)
    rw [identity_of_created created]
    exact List.mem_singleton_self _
  constructor
  · intro id other state otherState found otherFound same
    rcases opened_of_step found with ⟨-, earlier, isOpen, kept⟩ | ⟨opens, created⟩
    · rcases opened_of_step otherFound with ⟨-, otherEarlier, otherOpen, otherKept⟩ | ⟨-, created⟩
      · exact separate.distinct id other earlier otherEarlier isOpen otherOpen
          (kept.symm.trans (same.trans otherKept))
      · rw [← same, kept] at created
        exact absurd created (notNew isOpen)
    · rcases opened_of_step otherFound with ⟨-, earlier, isOpen, kept⟩ | ⟨otherOpens, -⟩
      · rw [same, kept] at created
        exact absurd created (notNew isOpen)
      · exact opens_unique opens otherOpens
  · intro id state found again
    rcases opened_of_step found with ⟨-, earlier, isOpen, kept⟩ | ⟨-, created⟩
    · exact separate.fresh id earlier isOpen (List.mem_append_right _ (kept ▸ again))
    · rw [identity_of_created created] at nodup
      exact (List.nodup_cons.mp nodup).1 again

/-- What is asked for later has a new identity or finishes an open span. -/
theorem signature_of_asked {timeline : List Occasion} {diagnostic : Diagnostic}
    (member : diagnostic ∈ asked printJson writer registry timeline) :
    diagnostic.key.eventId ∈ timeline.filterMap Occasion.identity ∨
      ∃ id state, registry.state id = some state ∧
        signature diagnostic = (.finish, state.eventId) := by
  induction timeline generalizing registry with
  | nil => cases member
  | cons occasion rest ih =>
      obtain ⟨callback, moment⟩ := occasion
      rcases List.mem_append.mp member with now | later
      · obtain ⟨call, calls, rfl⟩ := Option.map_eq_some_iff.mp (Option.mem_toList.mp now)
        rcases @signature_of_step printJson writer registry callback moment call calls with
          named | ⟨id, state, isOpen, -, same⟩
        · exact .inl (List.mem_filterMap.mpr ⟨_, List.mem_cons_self, named⟩)
        · exact .inr ⟨id, state, isOpen, same⟩
      · rcases ih later with named | ⟨id, state, found, same⟩
        · obtain ⟨other, inRest, isNamed⟩ := List.mem_filterMap.mp named
          exact .inl (List.mem_filterMap.mpr ⟨other, List.mem_cons_of_mem _ inRest, isNamed⟩)
        · rcases opened_of_step found with ⟨-, earlier, isOpen, kept⟩ | ⟨-, created⟩
          · exact .inr ⟨id, earlier, isOpen, kept ▸ same⟩
          · have eventId : diagnostic.key.eventId = state.eventId := congrArg Prod.snd same
            rw [eventId]
            exact .inl (List.mem_filterMap.mpr
              ⟨⟨callback, moment⟩, List.mem_cons_self, identity_of_created created⟩)

/-- No two diagnostics are asked for with one kind and identity. -/
theorem signatures_nodup {timeline : List Occasion}
    (separate : Separate registry (timeline.filterMap Occasion.identity))
    (fresh : (timeline.filterMap Occasion.identity).Nodup) :
    ((asked printJson writer registry timeline).map signature).Nodup := by
  induction timeline generalizing registry with
  | nil => exact .nil
  | cons occasion rest ih =>
      obtain ⟨callback, moment⟩ := occasion
      have split : (⟨callback, moment⟩ :: rest : List Occasion).filterMap Occasion.identity =
          (⟨callback, moment⟩ : Occasion).identity.toList ++ rest.filterMap Occasion.identity := by
        rw [List.filterMap_cons]
        cases (⟨callback, moment⟩ : Occasion).identity <;> rfl
      rw [split] at separate fresh
      have others := @ih (step printJson registry callback).1 (separate.step fresh)
        (List.nodup_append.mp fresh).2.1
      unfold asked
      cases calls : (step printJson registry callback).2 with
      | none => exact others
      | some call =>
          refine List.nodup_cons.mpr ⟨fun again => ?_, others⟩
          obtain ⟨later, member, same⟩ := List.mem_map.mp again
          have sameId : later.key.eventId = (call.diagnostic writer moment).key.eventId :=
            congrArg Prod.snd same
          rcases signature_of_step calls with named | ⟨id, state, isOpen, closes, finishes⟩
          · rw [named] at fresh separate
            rcases signature_of_asked member with renamed | ⟨id, state, found, finishes⟩
            · exact (List.nodup_cons.mp fresh).1 (sameId ▸ renamed)
            · have stateId : state.eventId = (call.diagnostic writer moment).key.eventId :=
                (congrArg Prod.snd finishes).symm.trans sameId
              rcases opened_of_step found with ⟨-, earlier, isOpen, kept⟩ | ⟨opens, -⟩
              · exact separate.fresh id earlier isOpen
                  (List.mem_cons.mpr (.inl (kept.symm.trans stateId)))
              · have starts : (call.diagnostic writer moment).kind = .start :=
                  kind_of_opens calls opens
                have isFinish : (call.diagnostic writer moment).kind = .finish :=
                  (congrArg Prod.fst same).symm.trans (congrArg Prod.fst finishes)
                cases starts.symm.trans isFinish
          · have stateId : later.key.eventId = state.eventId :=
              sameId.trans (congrArg Prod.snd finishes)
            rcases signature_of_asked member with renamed | ⟨other, otherState, found, finishes⟩
            · exact separate.fresh id state isOpen
                (List.mem_append_right _ (stateId ▸ renamed))
            · have otherId : later.key.eventId = otherState.eventId := congrArg Prod.snd finishes
              rcases opened_of_step found with ⟨stays, earlier, otherOpen, kept⟩ | ⟨opens, -⟩
              · have oneSpan := separate.distinct id other state earlier isOpen otherOpen
                  (stateId.symm.trans (otherId.trans kept))
                rw [← oneSpan, closes] at stays
                cases stays
              · exact closes_of_opens opens closes

end AzureInit.Agent.TracingLayer
