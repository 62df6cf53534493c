import AzureInit.Diagnostics.JsonText
import AzureInit.Agent.TracingLayer

/-! Starts and finishes of spans over any interleaving of callbacks. What a span leads to
depends on the callbacks that address it, from its creation to its close. -/

set_option autoImplicit false

namespace AzureInit.Agent.TracingLayer

open Foundation
open Diagnostics (Outcome Value)

/-! ## What callbacks say about a span -/

def Callback.recordedIn (id : SpanId) : Callback → List (Text × FieldValue)
  | .record other values => if other = id then values else []
  | _ => []

/-- Whether an event of the level ERROR occurs directly in a span. -/
def Callback.errsIn (id : SpanId) : Callback → Bool
  | .event parent metadata _ => parent = some id && metadata.level = .error
  | _ => false

def Callback.closes (id : SpanId) : Callback → Bool
  | .close other _ _ => other = id
  | _ => false

def Callback.opens (id : SpanId) : Callback → Bool
  | .newSpan other _ _ _ _ => other = id
  | _ => false

/-- The identity that a new span is given. -/
def Callback.eventId : Callback → Option Text
  | .newSpan _ _ _ _ eventId => some eventId
  | _ => none

def WriterCall.eventId : WriterCall → Option Text
  | .emitStart eventId _ _ | .emitFinish eventId _ _ _ _ => some eventId
  | .emitEvent _ _ _ => none

/-- No span is created under the identifier of an open one. -/
def Observed : Finset SpanId → List Callback → Prop
  | _, [] => True
  | live, .newSpan id _ _ _ _ :: rest => id ∉ live ∧ Observed (insert id live) rest
  | live, .close id _ _ :: rest => Observed (live.erase id) rest
  | live, .record _ _ :: rest => Observed live rest
  | live, .event _ _ _ :: rest => Observed live rest

/-- The value that was recorded last for a field. -/
def lastRecorded (name : Text) (recorded : List (Text × FieldValue)) : Option Value :=
  SortedMap.last name (recorded.map fun field => (field.1, field.2.toValue))

/-- The result of a closed span, if its finish is written at all. -/
def verdict (panicking : Bool) (explicit : Option Value) (erred : Bool) : Option Outcome :=
  if panicking then some .error
  else
    match explicit with
    | none => some (if erred then .error else .ok)
    | some (.string text) =>
        if text = "success".toList then some .ok
        else if text = "fail".toList then some .error
        else none
    | some _ => none

theorem observed_append {live : Finset SpanId} {front back : List Callback}
    (observed : Observed live (front ++ back)) : ∃ left, Observed left back := by
  induction front generalizing live with
  | nil => exact ⟨live, observed⟩
  | cons callback front ih =>
      cases callback with
      | newSpan id metadata attrs started eventId => exact ih observed.2
      | record id values => exact ih observed
      | event parent metadata values => exact ih observed
      | close id closedAt panicking => exact ih observed

/-- An open span is not created again before it is closed. -/
theorem not_opens_of_observed {live : Finset SpanId} {lifetime back : List Callback} {id : SpanId}
    (observed : Observed live (lifetime ++ back)) (isLive : id ∈ live)
    (stays : ∀ callback ∈ lifetime, callback.closes id = false) :
    ∀ callback ∈ lifetime, callback.opens id = false := by
  induction lifetime generalizing live with
  | nil => simp
  | cons callback lifetime ih =>
      obtain ⟨first, others⟩ := List.forall_mem_cons.mp stays
      rw [List.forall_mem_cons]
      cases callback with
      | newSpan other metadata attrs started eventId =>
          refine ⟨?_, ih observed.2 (Finset.mem_insert_of_mem isLive) others⟩
          rw [Callback.opens, decide_eq_false_iff_not]
          intro same
          exact observed.1 (same ▸ isLive)
      | record other values => exact ⟨rfl, ih observed isLive others⟩
      | event parent metadata values => exact ⟨rfl, ih observed isLive others⟩
      | close other closedAt panicking =>
          have different : id ≠ other := by
            intro same
            rw [same] at first
            simp [Callback.closes] at first
          exact ⟨rfl, ih observed (Finset.mem_erase.mpr ⟨different, isLive⟩) others⟩

/-! ## One span of the registry -/

/-- What a callback makes of one span. -/
def Callback.update (id : SpanId) (span : Option SpanData) : Callback → Option SpanData
  | .newSpan other metadata attrs started eventId =>
      if other = id then
        some { metadata, extension := some {
          eventId, name := metadata.name, started, fields := Fields.empty.record attrs,
          sawError := false } }
      else span
  | .record other values =>
      if other = id then span.map fun span => { span with
        extension := span.extension.map fun state =>
          { state with fields := state.fields.record values } }
      else span
  | .event parent metadata _ =>
      if parent = some id ∧ metadata.level = .error then span.map fun span => { span with
        extension := span.extension.map fun state => { state with sawError := true } }
      else span
  | .close other _ _ => if other = id then none else span

variable {printJson : Value → Text} {registry : Registry} {callback : Callback} {id : SpanId}

theorem Registry.extend_apply (change : Option SpanState → Option SpanState) (other : SpanId) :
    registry.extend id change other = if other = id then
      (registry id).map fun span => { span with extension := change span.extension }
    else registry other := by
  simp [extend, Function.update_apply]

/-- Each span goes its own way. -/
theorem step_apply : (step printJson registry callback).1 id = callback.update id (registry id) := by
  cases callback with
  | newSpan other metadata attrs started eventId =>
      have registered : registry.register other metadata other =
          some { metadata, extension := none } := by simp [Registry.register]
      simp only [step, onNewSpan, registered, Registry.extend_apply, Callback.update]
      by_cases same : other = id
      · simp [same]
      · simp [same, Ne.symm same, Registry.register]
  | record other values =>
      by_cases same : other = id
      · simp [step, onRecord, Registry.extend_apply, Callback.update, same]
      · simp [step, onRecord, Registry.extend_apply, Callback.update, same, Ne.symm same]
  | event parent metadata values =>
      cases parent with
      | none =>
          have left : (step printJson registry (.event none metadata values)).1 id =
              registry id := by
            simp only [step, onEvent]
            cases (Fields.empty.record values).outcome <;> rfl
          rw [left]
          simp [Callback.update]
      | some other =>
          have left : (step printJson registry (.event (some other) metadata values)).1 =
              if metadata.level = Level.error then registry.extend other fun extension =>
                extension.map fun state : SpanState => { state with sawError := true }
              else registry := by
            simp only [step, onEvent]
            cases (Fields.empty.record values).outcome <;> rfl
          rw [left]
          by_cases isError : metadata.level = .error
          · by_cases same : other = id
            · simp [Registry.extend_apply, Callback.update, isError, same]
            · simp [Registry.extend_apply, Callback.update, isError, same, Ne.symm same]
          · simp [Callback.update, isError]
  | close other closedAt panicking =>
      have kept : other ≠ id → (onClose printJson registry other closedAt panicking).1 id =
          registry id := by
        intro different
        unfold onClose
        split
        · rfl
        · split
          · rfl
          · split
            · simp [Registry.extend_apply, Ne.symm different]
            · split <;> simp [Registry.extend_apply, Ne.symm different]
      by_cases same : other = id
      · simp [step, Registry.unregister, Callback.update, same]
      · simp [step, Registry.unregister, Callback.update, same, Ne.symm same, kept same]

/-- What a callback asks of the writer for a span comes from its creation or its close. -/
theorem eventId_of_step {call : WriterCall} {eventId : Text}
    (asked : (step printJson registry callback).2 = some call) (named : call.eventId = some eventId) :
    callback.eventId = some eventId ∨ ∃ other state, registry.state other = some state ∧
      state.eventId = eventId ∧ callback.closes other = true := by
  cases callback with
  | newSpan other metadata attrs started fresh =>
      simp only [step, onNewSpan, Registry.register, Function.update_self, Option.some.injEq]
        at asked
      subst asked
      exact .inl named
  | record other values => cases asked
  | event parent metadata values =>
      unfold step onEvent at asked
      dsimp only at asked
      split at asked
      · cases asked
      · cases asked
        cases named
  | close other closedAt panicking =>
      unfold step onClose at asked
      dsimp only at asked
      split at asked
      · cases asked
      · rename_i span registered
        split at asked
        · cases asked
        · rename_i state extension
          refine .inr ⟨other, state, Option.bind_eq_some_iff.mpr ⟨span, registered, extension⟩, ?_,
            by simp [Callback.closes]⟩
          split at asked
          · cases asked
            exact Option.some.inj named
          · split at asked
            · cases asked
            · cases asked
              exact Option.some.inj named

/-! ## Identities -/

/-- No other span than the given one has an identity. -/
def Apart (eventId : Text) (registry : Registry) (owner : Option SpanId) : Prop :=
  ∀ id state, some id ≠ owner → registry.state id = some state → state.eventId ≠ eventId

/-- A state behind a callback has the identity of one before it, or is new. -/
theorem eventId_of_update {span : Option SpanData} {state : SpanState}
    (updated : (callback.update id span).bind (·.extension) = some state) :
    (∃ earlier, span.bind (·.extension) = some earlier ∧ state.eventId = earlier.eventId) ∨
      callback.eventId = some state.eventId := by
  cases callback with
  | newSpan other metadata attrs started eventId =>
      simp only [Callback.update] at updated
      split at updated
      · cases updated
        exact .inr rfl
      · exact .inl ⟨state, updated, rfl⟩
  | record | event =>
      simp only [Callback.update] at updated
      split at updated
      · cases span with
        | none => cases updated
        | some span =>
            obtain ⟨earlier, extension, rfl⟩ := Option.map_eq_some_iff.mp updated
            exact .inl ⟨earlier, extension, rfl⟩
      · exact .inl ⟨state, updated, rfl⟩
  | close other closedAt panicking =>
      simp only [Callback.update] at updated
      split at updated
      · cases updated
      · exact .inl ⟨state, updated, rfl⟩

theorem Apart.step {eventId : Text} {owner : Option SpanId} (apart : Apart eventId registry owner)
    (other : callback.eventId ≠ some eventId) :
    Apart eventId (step printJson registry callback).1 owner := by
  intro id state different found same
  rw [Registry.state, step_apply] at found
  rcases eventId_of_update found with kept | created
  · obtain ⟨earlier, extension, sameId⟩ := kept
    exact apart id earlier different extension (sameId.symm.trans same)
  · exact other (created.trans (congrArg some same))

/-- Callbacks that do not close the owner ask nothing for its identity. -/
theorem Apart.calls {eventId : Text} {owner : Option SpanId} {callbacks : List Callback}
    (apart : Apart eventId registry owner)
    (others : ∀ callback ∈ callbacks, callback.eventId ≠ some eventId)
    (stays : ∀ callback ∈ callbacks, ∀ id ∈ owner, callback.closes id = false) :
    (calls printJson registry callbacks).filter (·.eventId == some eventId) = [] ∧
      Apart eventId (after printJson registry callbacks) owner := by
  induction callbacks generalizing registry with
  | nil => exact ⟨rfl, apart⟩
  | cons callback callbacks ih =>
      obtain ⟨other, others⟩ := List.forall_mem_cons.mp others
      have staysFirst := stays callback (List.mem_cons_self ..)
      obtain ⟨rest, behind⟩ := @ih (TracingLayer.step printJson registry callback).1
        (apart.step other) others fun callback member => stays callback (List.mem_cons_of_mem _ member)
      refine ⟨?_, behind⟩
      rw [TracingLayer.calls, List.filter_append, rest, List.append_nil, List.filter_eq_nil_iff]
      intro call member named
      rcases eventId_of_step (Option.mem_toList.mp member) (beq_iff_eq.mp named) with
        created | closed
      · exact other created
      · obtain ⟨id, state, held, same, closes⟩ := closed
        by_cases isOwner : some id = owner
        · rw [staysFirst id isOwner.symm] at closes
          cases closes
        · exact apart id state isOwner held same

/-! ## From creation to close -/

theorem Fields.record_append (fields : Fields) (first second : List (Text × FieldValue)) :
    fields.record (first ++ second) = (fields.record first).record second := by
  simp [Fields.record, SortedMap.insertAll_append]

theorem Fields.get_record_empty (name : Text) (recorded : List (Text × FieldValue)) :
    (Fields.empty.record recorded).get name = lastRecorded name recorded := by
  have kept := SortedMap.get_insertAll name
    (recorded.map fun field => (field.1, field.2.toValue)) []
  rw [Fields.get, Fields.record, lastRecorded, Fields.empty, kept]
  cases SortedMap.last name (recorded.map fun field => (field.1, field.2.toValue)) <;> rfl

/-- What one callback makes of an open span. -/
theorem update_open {metadata : Metadata} {state : SpanState}
    (stays : callback.closes id = false) (once : callback.opens id = false) :
    callback.update id (some { metadata, extension := some state }) =
      some { metadata, extension := some { state with
        fields := state.fields.record (callback.recordedIn id)
        sawError := state.sawError || callback.errsIn id } } := by
  cases callback with
  | newSpan other _ attrs started eventId =>
      have different : other ≠ id := by simpa [Callback.opens] using once
      simp [Callback.update, Callback.recordedIn, Callback.errsIn, different, Fields.record,
        SortedMap.insertAll]
  | record other values =>
      by_cases same : other = id
      · simp [Callback.update, Callback.recordedIn, Callback.errsIn, same]
      · simp [Callback.update, Callback.recordedIn, Callback.errsIn, same, Fields.record,
          SortedMap.insertAll]
  | event parent eventMetadata values =>
      by_cases errs : parent = some id ∧ eventMetadata.level = .error
      · simp [Callback.update, Callback.recordedIn, Callback.errsIn, errs, Fields.record,
          SortedMap.insertAll]
      · have calm : Callback.errsIn id (.event parent eventMetadata values) = false := by
          simpa [Callback.errsIn] using errs
        simp [Callback.update, Callback.recordedIn, calm, errs, Fields.record,
          SortedMap.insertAll]
  | close other closedAt panicking =>
      have different : other ≠ id := by simpa [Callback.closes] using stays
      simp [Callback.update, Callback.recordedIn, Callback.errsIn, different, Fields.record,
        SortedMap.insertAll]

/-- What any callbacks make of a span while it is open. -/
theorem after_open {lifetime : List Callback} {metadata : Metadata} {state : SpanState}
    (isOpen : registry id = some { metadata, extension := some state })
    (stays : ∀ callback ∈ lifetime, callback.closes id = false)
    (once : ∀ callback ∈ lifetime, callback.opens id = false) :
    after printJson registry lifetime id = some { metadata, extension := some { state with
      fields := state.fields.record (lifetime.flatMap (·.recordedIn id))
      sawError := state.sawError || lifetime.any (·.errsIn id) } } := by
  induction lifetime generalizing registry state with
  | nil => simpa [after, Fields.record, SortedMap.insertAll] using isOpen
  | cons callback lifetime ih =>
      obtain ⟨staysFirst, stays⟩ := List.forall_mem_cons.mp stays
      obtain ⟨onceFirst, once⟩ := List.forall_mem_cons.mp once
      have stepped : (step printJson registry callback).1 id = _ :=
        step_apply.trans ((congrArg (Callback.update id · callback) isOpen).trans
          (update_open staysFirst onceFirst))
      have rest := ih stepped stays once
      rw [List.flatMap_cons, List.any_cons, Fields.record_append, ← Bool.or_assoc]
      exact rest

/-- The finish of a span that is closed. -/
theorem step_close {metadata : Metadata} {state : SpanState} {closedAt : Instant}
    {panicking : Bool} (isOpen : registry id = some { metadata, extension := some state }) :
    (step printJson registry (.close id closedAt panicking)).2 =
      (verdict panicking (state.fields.get outcomeField) state.sawError).map fun result =>
        .emitFinish state.eventId state.name (state.fields.payload printJson metadata) result
          (saturatingDurationSince closedAt state.started) := by
  have outcome : state.fields.outcome.toOption.map (·.getD (if state.sawError then .error else .ok)) =
      verdict false (state.fields.get outcomeField) state.sawError := by
    unfold Fields.outcome verdict
    cases state.fields.get outcomeField with
    | none => rfl
    | some explicit =>
        cases explicit with
        | string text =>
            dsimp only
            by_cases isSuccess : text = "success".toList
            · rw [if_pos isSuccess, if_neg Bool.false_ne_true, if_pos isSuccess]
              rfl
            · rw [if_neg isSuccess, if_neg Bool.false_ne_true, if_neg isSuccess]
              by_cases isFail : text = "fail".toList
              · rw [if_pos isFail, if_pos isFail]
                rfl
              · rw [if_neg isFail, if_neg isFail]
                rfl
        | null => rfl
        | bool value => rfl
        | number value => rfl
        | array elements => rfl
        | object members => rfl
  simp only [step, onClose, isOpen]
  cases panicking with
  | true => rfl
  | false =>
      rw [← outcome]
      cases state.fields.outcome <;> rfl

theorem calls_append (front back : List Callback) :
    calls printJson registry (front ++ back) =
      calls printJson registry front ++ calls printJson (after printJson registry front) back := by
  induction front generalizing registry with
  | nil => rfl
  | cons callback front ih =>
      rw [List.cons_append, calls, ih, calls, List.append_assoc]
      rfl

/-- The state of a span behind its creation. -/
def created (metadata : Metadata) (attrs : List (Text × FieldValue)) (started : Instant)
    (eventId : Text) : SpanState where
  eventId := eventId
  name := metadata.name
  started := started
  fields := Fields.empty.record attrs
  sawError := false

section Creation

variable {metadata : Metadata} {attrs : List (Text × FieldValue)} {started : Instant}
  {eventId : Text}

theorem step_newSpan :
    (step printJson registry (.newSpan id metadata attrs started eventId)).1 id =
        some { metadata, extension := some (created metadata attrs started eventId) } ∧
      (step printJson registry (.newSpan id metadata attrs started eventId)).2 =
        some (.emitStart eventId metadata.name
          ((Fields.empty.record attrs).payload printJson metadata)) := by
  constructor
  · rw [step_apply, Callback.update, if_pos rfl]
    rfl
  · simp [step, onNewSpan, Registry.register]

theorem Apart.newSpan (apart : Apart eventId registry none) :
    Apart eventId (TracingLayer.step printJson registry
      (.newSpan id metadata attrs started eventId)).1 (some id) := by
  intro other state different found
  rw [Registry.state, step_apply, Callback.update, if_neg fun same => different (congrArg some same.symm)] at found
  exact apart other state nofun found

theorem Apart.close {closedAt : Instant} {panicking : Bool}
    (apart : Apart eventId registry (some id)) :
    Apart eventId (TracingLayer.step printJson registry (.close id closedAt panicking)).1 none := by
  intro other state _ found
  rw [Registry.state, step_apply, Callback.update] at found
  split at found
  · cases found
  · rename_i different
    exact apart other state (fun same => different (Option.some.inj same).symm) found

/-- What is still written for an open span when it is closed. -/
theorem written_of_open {state : SpanState} {lifetime later : List Callback} {closedAt : Instant}
    {panicking : Bool} (isOpen : registry id = some { metadata, extension := some state })
    (apart : Apart state.eventId registry (some id))
    (others : ∀ callback ∈ lifetime ++ .close id closedAt panicking :: later,
      callback.eventId ≠ some state.eventId)
    (stays : ∀ callback ∈ lifetime, callback.closes id = false)
    (once : ∀ callback ∈ lifetime, callback.opens id = false) :
    let recorded := state.fields.record (lifetime.flatMap (·.recordedIn id))
    (calls printJson registry (lifetime ++ .close id closedAt panicking :: later)).filter
        (·.eventId == some state.eventId) =
      ((verdict panicking (recorded.get outcomeField)
        (state.sawError || lifetime.any (·.errsIn id))).map fun result =>
          WriterCall.emitFinish state.eventId state.name (recorded.payload printJson metadata)
            result (saturatingDurationSince closedAt state.started)).toList := by
  obtain ⟨quiet, apartEnd⟩ := @Apart.calls printJson registry state.eventId (some id) lifetime
    apart (fun callback member => others callback (List.mem_append_left _ member))
    fun callback member owner isOwner => Option.some.inj isOwner ▸ stays callback member
  have atClose := @after_open printJson registry id lifetime metadata state isOpen stays once
  have finishes := @step_close printJson _ id metadata _ closedAt panicking atClose
  obtain ⟨silent, -⟩ := @Apart.calls printJson _ state.eventId none later
    (@Apart.close printJson _ id state.eventId closedAt panicking apartEnd)
    (fun callback member => others callback
      (List.mem_append_right _ (List.mem_cons_of_mem _ member))) (by simp)
  rw [calls_append, List.filter_append, quiet, List.nil_append, calls, List.filter_append,
    silent, List.append_nil, finishes, List.filter_eq_self]
  intro call member
  obtain ⟨result, -, rfl⟩ := Option.map_eq_some_iff.mp (Option.mem_toList.mp member)
  exact beq_self_eq_true _

end Creation

/-- Where no identity is given twice, the callbacks around a creation have other ones. -/
theorem others_of_fresh {before rest : List Callback} {creation : Callback} {eventId : Text}
    (named : creation.eventId = some eventId)
    (fresh : ((before ++ creation :: rest).filterMap Callback.eventId).Nodup) :
    (∀ callback ∈ before, callback.eventId ≠ some eventId) ∧
      ∀ callback ∈ rest, callback.eventId ≠ some eventId := by
  rw [List.filterMap_append, List.nodup_append, List.filterMap_cons_some named] at fresh
  obtain ⟨-, freshRest, different⟩ := fresh
  constructor
  · intro callback member same
    exact different eventId (List.mem_filterMap.mpr ⟨callback, member, same⟩) eventId
      (List.mem_cons_self ..) rfl
  · intro callback member same
    exact (List.nodup_cons.mp freshRest).1 (List.mem_filterMap.mpr ⟨callback, member, same⟩)

/-- A creation writes a start and leaves an open span, whose identity no other one has. -/
theorem written_of_creation (printJson : Value → Text) {before : List Callback} (id : SpanId)
    (metadata : Metadata) (attrs : List (Text × FieldValue)) (started : Instant) {eventId : Text}
    (others : ∀ callback ∈ before, callback.eventId ≠ some eventId) (rest : List Callback) :
    ∃ registry : Registry,
      registry id = some { metadata, extension := some (created metadata attrs started eventId) } ∧
      Apart eventId registry (some id) ∧
      (calls printJson Registry.empty
        (before ++ .newSpan id metadata attrs started eventId :: rest)).filter
          (·.eventId == some eventId) =
        .emitStart eventId metadata.name ((Fields.empty.record attrs).payload printJson metadata) ::
          (calls printJson registry rest).filter (·.eventId == some eventId) := by
  have apartEmpty : Apart eventId Registry.empty none := by
    intro other state _ found
    cases found
  obtain ⟨nothing, apart⟩ := @Apart.calls printJson _ eventId none before apartEmpty others
    (by simp)
  obtain ⟨isOpen, starts⟩ := @step_newSpan printJson (after printJson Registry.empty before) id
    metadata attrs started eventId
  refine ⟨_, isOpen, apart.newSpan, ?_⟩
  rw [calls_append, List.filter_append, nothing, List.nil_append, calls, starts,
    Option.toList_some, List.singleton_append]
  exact List.filter_cons_of_pos (beq_self_eq_true _)

/-- Each span that is created leads to one start. While it stays open nothing else is
written for it, and its close writes the finish that its own callbacks call for. -/
theorem spans_are_paired {printJson : Value → Text} {before rest : List Callback} {id : SpanId}
    {metadata : Metadata} {attrs : List (Text × FieldValue)} {started : Instant} {eventId : Text}
    (observed : Observed ∅ (before ++ .newSpan id metadata attrs started eventId :: rest))
    (fresh : ((before ++ .newSpan id metadata attrs started eventId :: rest).filterMap
      Callback.eventId).Nodup) :
    let written := (calls printJson Registry.empty
      (before ++ .newSpan id metadata attrs started eventId :: rest)).filter
        (·.eventId == some eventId)
    let start := WriterCall.emitStart eventId metadata.name
      ((Fields.empty.record attrs).payload printJson metadata)
    ((∀ callback ∈ rest, callback.closes id = false) → written = [start]) ∧
    (∀ lifetime closedAt panicking later,
      rest = lifetime ++ .close id closedAt panicking :: later →
      (∀ callback ∈ lifetime, callback.closes id = false) →
      let recorded := attrs ++ lifetime.flatMap (·.recordedIn id)
      let finish := (verdict panicking (lastRecorded outcomeField recorded)
        (lifetime.any (·.errsIn id))).map fun result =>
          WriterCall.emitFinish eventId metadata.name
            ((Fields.empty.record recorded).payload printJson metadata) result
            (saturatingDurationSince closedAt started)
      written = start :: finish.toList ∧
        ∀ name, (Fields.empty.record recorded).get name = lastRecorded name recorded) := by
  obtain ⟨live, observedFrom⟩ := observed_append observed
  obtain ⟨-, observedRest⟩ : id ∉ live ∧ Observed (insert id live) rest := observedFrom
  obtain ⟨othersBefore, othersRest⟩ := others_of_fresh rfl fresh
  obtain ⟨registry, isOpen, apartOpen, split⟩ :=
    written_of_creation printJson id metadata attrs started othersBefore rest
  dsimp only
  rw [split]
  constructor
  · intro stays
    have quiet := @Apart.calls printJson registry eventId (some id) rest apartOpen othersRest
      fun callback member owner isOwner => Option.some.inj isOwner ▸ stays callback member
    rw [quiet.1]
  · intro lifetime closedAt panicking later joined stays
    subst joined
    have once := not_opens_of_observed observedRest (Finset.mem_insert_self id live) stays
    refine ⟨?_, fun name => Fields.get_record_empty name _⟩
    have closing := @written_of_open printJson registry id metadata
      (created metadata attrs started eventId) lifetime later closedAt panicking isOpen apartOpen
      othersRest stays once
    rw [created] at closing
    rw [closing]
    simp only [Bool.false_or, ← Fields.record_append, Fields.get_record_empty]

/-! ## One interleaved run -/

def provision : Metadata := ⟨"provision".toList, "azure_init".toList, .info⟩

def failure : Metadata := ⟨"event".toList, "azure_init".toList, .error⟩

/-- Two spans that overlap. The error inside the first names an invalid result. -/
def overlapping : List Callback :=
  [.record 1 [("step".toList, .str "disk".toList)],
    .newSpan 2 provision [(outcomeField, .str "fail".toList)] 6 "b".toList,
    .event (some 1) failure [(outcomeField, .str "maybe".toList)],
    .close 2 8 false]

/-- What `provision` carries when it starts and when it is closed. -/
def startPayload : Text :=
  "\x7b\"fields\":\x7b\"step\":\"network\"\x7d,\"level\":\"INFO\",".toList ++
    "\"target\":\"azure_init\"\x7d".toList

def finishPayload : Text :=
  "\x7b\"fields\":\x7b\"step\":\"disk\"\x7d,\"level\":\"INFO\",".toList ++
    "\"target\":\"azure_init\"\x7d".toList

theorem spans_are_paired_overlapping :
    (calls (Diagnostics.Json.printCompact fun _ => []) Registry.empty
      ([] ++ Callback.newSpan 1 provision [("step".toList, .str "network".toList)] 5 "a".toList ::
        (overlapping ++ [Callback.close 1 1000000012 false]))).filter
        (·.eventId == some "a".toList) =
      [.emitStart "a".toList "provision".toList (.text startPayload),
        .emitFinish "a".toList "provision".toList (.text finishPayload) .error
          (Duration.new 1 7)] := by
  have observed : Observed ∅
      ([] ++ Callback.newSpan 1 provision [("step".toList, .str "network".toList)] 5 "a".toList ::
        (overlapping ++ [Callback.close 1 1000000012 false])) := by
    simp [Observed, overlapping]
  have fresh : (([] ++
      Callback.newSpan 1 provision [("step".toList, .str "network".toList)] 5 "a".toList ::
        (overlapping ++ [Callback.close 1 1000000012 false])).filterMap Callback.eventId).Nodup := by
    decide
  have stays : ∀ callback ∈ overlapping, callback.closes 1 = false := by
    simp [overlapping, Callback.closes]
  obtain ⟨-, closing⟩ := @spans_are_paired (Diagnostics.Json.printCompact fun _ => [])
    _ _ _ _ _ _ _ observed fresh
  exact (closing overlapping 1000000012 false [] rfl stays).1

end AzureInit.Agent.TracingLayer
