import AzureInit.Agent.Telemetry

/-! What the tracing layer has written, as the reader finds it: every diagnostic that the
writer takes, in the order of the callbacks and behind what was in the pool before. -/

set_option autoImplicit false

namespace AzureInit.Agent.TracingLayer

open Foundation
open Cli (Holds never)
open Diagnostics
open Kvp (Call KvpError KvpIo PoolMode Reply World HandleStep noFaults)

section

variable {crates : Crates} {mode : PoolMode} {writer : DiagnosticWriter} {world : World}
  {records : List (Text × Text)} {diagnostic : Diagnostic}

/-! ## One diagnostic -/

def prepared (writer : DiagnosticWriter) (crates : Crates) (diagnostic : Diagnostic) :
    Except KvpError (List (Text × Text)) :=
  prepareRecords crates diagnostic writer.timestampPrecision writer.durationPrecision
    writer.maxNameBytes

/-- A diagnostic of the writer as it is read back, with its times cut. -/
def asRead (writer : DiagnosticWriter) (diagnostic : Diagnostic) : Diagnostic :=
  diagnostic.restored
    (diagnostic.key.timestamp.truncate writer.timestampPrecision.secondsFormat)
    writer.durationPrecision.cut diagnostic.payload

/-- What is read of a diagnostic, if the writer accepts it. -/
def readEntry (writer : DiagnosticWriter) (crates : Crates) (diagnostic : Diagnostic) :
    Option Entry :=
  if (prepared writer crates diagnostic).toBool then some (.diagnostic (asRead writer diagnostic))
  else none

/-- A text of a time that the reader takes. -/
structure Tellable (diagnostic : Diagnostic) : Prop where
  unencoded : diagnostic.key.encoding = none
  isText : diagnostic.payload.isText = true
  fourDigitYear : diagnostic.key.timestamp.FourDigitYear
  noLeapSecond : diagnostic.key.timestamp.isLeapSecond = false

def emission {stored : List (Text × Text)}
    (succeeded : prepared writer crates diagnostic = .ok stored) : Emission crates where
  diagnostic
  timestampPrecision := writer.timestampPrecision
  durationPrecision := writer.durationPrecision
  maxNameBytes := writer.maxNameBytes
  records := stored
  prepared := succeeded

theorem Tellable.decoded_eq (rfc3339 : crates.Rfc3339) (codecs : crates.Codecs)
    (tellable : Tellable diagnostic) {stored : List (Text × Text)}
    (succeeded : prepared writer crates diagnostic = .ok stored) :
    (emission succeeded).decoded = .ok (asRead writer diagnostic) := by
  obtain ⟨payload, sameContents, form, decoded⟩ := (emission succeeded).decoded_eq codecs
  have read : (emission succeeded).readTimestamp =
      some (diagnostic.key.timestamp.truncate writer.timestampPrecision.secondsFormat) :=
    rfc3339.parse_format _ _ tellable.fourDigitYear.1 tellable.fourDigitYear.2
      tellable.noLeapSecond
  have samePayload : payload = diagnostic.payload := by
    have isText : payload.isText = true := by
      rw [form]
      exact congrArg Option.isNone tellable.unencoded
    change payload.contents = diagnostic.payload.contents at sameContents
    have given := tellable.isText
    cases payload with
    | bytes content => cases isText
    | text message =>
        cases told : diagnostic.payload with
        | bytes content =>
            rw [told] at given
            cases given
        | text original =>
            rw [told] at sameContents
            have sameText : Utf8.decode? (Utf8.encode message) =
                Utf8.decode? (Utf8.encode original) := congrArg Utf8.decode? sameContents
            rw [Utf8.decode?_encode, Utf8.decode?_encode] at sameText
            rw [Option.some.inj sameText]
  rw [decoded, read, samePayload]
  rfl

/-! ## Diagnostics apart from each other -/

/-- The kind and the identity in a base key. -/
def keySignature (base : Text) : Option Text × Option Text :=
  ((base.splitOn '|')[3]?, (base.splitOn '|')[5]?)

theorem keySignature_baseKey (emission : Emission crates) :
    keySignature emission.baseKey =
      (some emission.diagnostic.kind.toText, some emission.diagnostic.key.eventId) := by
  obtain ⟨vmId, value, parts, baseKey, -, -⟩ := emission.shape
  rw [keySignature, baseKey, splitOn_writtenBase parts]
  rfl

/-- No stored group has the kind and the identity of a diagnostic. -/
def Unheard (crates : Crates) (records : List (Text × Text)) (diagnostic : Diagnostic) : Prop :=
  ∀ record ∈ records, ∀ base, recordGroup crates record = some base →
    keySignature base ≠ (some diagnostic.kind.toText, some diagnostic.key.eventId)

theorem Unheard.outside (unheard : Unheard crates records diagnostic)
    {stored : List (Text × Text)}
    (succeeded : prepared writer crates diagnostic = .ok stored) :
    Outside crates (emission succeeded).baseKey records :=
  fun record member grouped =>
    unheard record member _ grouped (keySignature_baseKey (emission succeeded))

theorem Kind.toText_injective : Function.Injective Kind.toText := by
  intro left right same
  cases left <;> cases right <;> first | rfl | exact absurd same (by decide)

/-- A diagnostic of another signature is unheard of among its records. -/
theorem unheard_of_prepared {other : Diagnostic} {stored : List (Text × Text)}
    (succeeded : prepared writer crates diagnostic = .ok stored)
    (different : signature diagnostic ≠ signature other) : Unheard crates stored other := by
  intro record member base grouped same
  have own : recordGroup crates record = some (emission succeeded).baseKey :=
    @Emission.recordGroup_of_mem _ (emission succeeded) _ member
  cases own.symm.trans grouped
  rw [keySignature_baseKey] at same
  have sameKind := Kind.toText_injective (Option.some.inj (congrArg Prod.fst same))
  have sameId := Option.some.inj (congrArg Prod.snd same)
  exact different (Prod.ext sameKind sameId)

theorem Unheard.append {added : List (Text × Text)} (before : Unheard crates records diagnostic)
    (behind : Unheard crates added diagnostic) : Unheard crates (records ++ added) diagnostic := by
  intro record member
  rcases List.mem_append.mp member with old | new
  · exact before record old
  · exact behind record new

/-! ## Emission after emission -/

/-- One diagnostic: behind it, the pool has its records, or is as before if it is refused. -/
theorem emit_post (rfc3339 : crates.Rfc3339) (codecs : crates.Codecs)
    (tellable : Tellable diagnostic) (holds : Holds world records)
    (unheard : Unheard crates records diagnostic) :
    Post (HandleStep noFaults) (reportWriteError (writer.emit crates mode diagnostic)) world
      fun _ middle => ∃ added, Holds middle (records ++ added) ∧
        (∀ other, signature diagnostic ≠ signature other → Unheard crates added other) ∧
        ∀ order, decodeEntries crates order (records ++ added) =
          decodeEntries crates order records ++ (readEntry writer crates diagnostic).toList := by
  have emitted : Post (HandleStep noFaults) (writer.emit crates mode diagnostic).run world
      fun _ middle => ∃ added, Holds middle (records ++ added) ∧
        (∀ other, signature diagnostic ≠ signature other → Unheard crates added other) ∧
        ∀ order, decodeEntries crates order (records ++ added) =
          decodeEntries crates order records ++ (readEntry writer crates diagnostic).toList := by
    unfold DiagnosticWriter.emit
    cases succeeded : prepared writer crates diagnostic with
    | error error =>
        have refused : prepareRecords crates diagnostic writer.timestampPrecision
            writer.durationPrecision writer.maxNameBytes = .error error := succeeded
        have noEntry : readEntry writer crates diagnostic = none := by
          rw [readEntry, succeeded]
          rfl
        rw [refused]
        refine post_pure_iff.mpr ⟨[], ?_, fun _ _ _ => nofun, fun order => ?_⟩
        · rwa [List.append_nil]
        · rw [List.append_nil, noEntry, Option.toList_none, List.append_nil]
    | ok stored =>
        have taken : prepareRecords crates diagnostic writer.timestampPrecision
            writer.durationPrecision writer.maxNameBytes = .ok stored := succeeded
        have isEntry : readEntry writer crates diagnostic =
            some (.diagnostic (asRead writer diagnostic)) := by
          rw [readEntry, succeeded]
          rfl
        have valid : ∀ record ∈ stored,
            Kvp.KvpPoolStore.validateRecord mode record.1 record.2 = .ok () :=
          fun record member => Kvp.validateRecord_eq_ok_iff.mpr
            ((emission succeeded).record_valid codecs member mode)
        rw [taken]
        refine Post.imp (Cli.appendMultiple_ensures valid holds) ?_
        intro result middle ended
        cases result with
        | error error => cases ended
        | ok done =>
            refine ⟨stored, ended, fun other => unheard_of_prepared succeeded, fun order => ?_⟩
            have appended := decodeEntries_append_emission (unheard.outside succeeded)
              (tellable.decoded_eq rfc3339 codecs succeeded) order
            rw [isEntry]
            exact appended
  unfold reportWriteError
  refine post_bind_iff.mpr (emitted.imp ?_)
  exact fun _ _ reached => post_pure_iff.mpr reached

/-- Emit diagnostics one after the other, whatever comes of each. -/
def emitEach (writer : DiagnosticWriter) (crates : Crates) (mode : PoolMode) :
    List Diagnostic → Program Call Reply Unit
  | [] => return ()
  | diagnostic :: rest => do
      reportWriteError (writer.emit crates mode diagnostic)
      emitEach writer crates mode rest

/-- All diagnostics that are accepted are found behind what was there before. -/
theorem emitEach_post (rfc3339 : crates.Rfc3339) (codecs : crates.Codecs)
    {diagnostics : List Diagnostic} (tellable : ∀ diagnostic ∈ diagnostics, Tellable diagnostic)
    (apart : (diagnostics.map signature).Nodup) (holds : Holds world records)
    (unheard : ∀ diagnostic ∈ diagnostics, Unheard crates records diagnostic) :
    Post (HandleStep noFaults) (emitEach writer crates mode diagnostics) world
      fun _ after => ∃ added, Holds after (records ++ added) ∧
        ∀ order, decodeEntries crates order (records ++ added) =
          decodeEntries crates order records ++ diagnostics.filterMap (readEntry writer crates) := by
  induction diagnostics generalizing world records with
  | nil =>
      refine post_pure_iff.mpr ⟨[], ?_, fun order => ?_⟩
      · rwa [List.append_nil]
      · rw [List.append_nil, List.filterMap_nil, List.append_nil]
  | cons diagnostic rest ih =>
      obtain ⟨isTellable, tellable⟩ := List.forall_mem_cons.mp tellable
      obtain ⟨isUnheard, unheard⟩ := List.forall_mem_cons.mp unheard
      obtain ⟨different, apart⟩ := List.nodup_cons.mp apart
      refine post_bind_iff.mpr
        ((emit_post rfc3339 codecs isTellable holds isUnheard).imp fun _ middle reached => ?_)
      obtain ⟨added, between, others, found⟩ := reached
      have stillUnheard : ∀ other ∈ rest, Unheard crates (records ++ added) other := by
        intro other member
        refine (unheard other member).append (others other ?_)
        exact fun same => different (List.mem_map.mpr ⟨other, member, same.symm⟩)
      refine (ih tellable apart between stillUnheard).imp fun _ after ended => ?_
      obtain ⟨later, behind, foundLater⟩ := ended
      rw [List.append_assoc] at behind foundLater
      refine ⟨added ++ later, behind, fun order => ?_⟩
      rw [foundLater, found, List.append_assoc, List.filterMap_cons]
      cases readEntry writer crates diagnostic <;> rfl

end

/-! ## The layer -/

variable {crates : Crates} {mode : PoolMode} {printJson : Value → Text}
  {writer : DiagnosticWriter} {registry : Registry}

/-- The layer emits what it asks for. -/
theorem layerFrom_eq (timeline : List Occasion) :
    layerFrom printJson writer crates mode registry timeline =
      emitEach writer crates mode (asked printJson writer registry timeline) := by
  induction timeline generalizing registry with
  | nil => rfl
  | cons occasion rest ih =>
      obtain ⟨callback, moment⟩ := occasion
      rw [layerFrom, asked]
      cases (step printJson registry callback).2 with
      | none => exact ih
      | some call =>
          simp only [Option.map_some, Option.toList_some, List.singleton_append, emitEach,
            WriterCall.perform_eq, ih]

/-- What is asked for on an occasion is a text of its time. -/
theorem tellable_of_asked {timeline : List Occasion}
    (timed : ∀ occasion ∈ timeline, occasion.moment.now.FourDigitYear ∧
      occasion.moment.now.isLeapSecond = false) {diagnostic : Diagnostic}
    (member : diagnostic ∈ asked printJson writer registry timeline) : Tellable diagnostic := by
  induction timeline generalizing registry with
  | nil => cases member
  | cons occasion rest ih =>
      obtain ⟨first, others⟩ := List.forall_mem_cons.mp timed
      obtain ⟨callback, moment⟩ := occasion
      rcases List.mem_append.mp member with now | later
      · obtain ⟨call, calls, rfl⟩ := Option.map_eq_some_iff.mp (Option.mem_toList.mp now)
        obtain ⟨metadata, fields, -, payload⟩ :=
          @told_of_step printJson writer registry callback moment call calls
        have isText : (call.diagnostic writer moment).payload.isText = true := by
          rw [payload]
          rfl
        cases call with
        | emitStart | emitEvent | emitFinish => exact ⟨rfl, isText, first.1, first.2⟩
      · exact ih others later

theorem unheard_of_unmentioned {timeline : List Occasion} {records : List (Text × Text)}
    (unmentioned : ∀ record ∈ records, ∀ base, recordGroup crates record = some base →
      ∀ identity ∈ timeline.filterMap Occasion.identity, identity ∉ base.splitOn '|')
    {diagnostic : Diagnostic}
    (member : diagnostic ∈ asked printJson writer Registry.empty timeline) :
    Unheard crates records diagnostic := by
  intro record inPool base grouped same
  have mentioned : diagnostic.key.eventId ∈ base.splitOn '|' :=
    List.mem_of_getElem? (congrArg Prod.snd same)
  rcases signature_of_asked member with named | ⟨id, state, found, -⟩
  · exact unmentioned record inPool base grouped _ named mentioned
  · cases found

/-! ## A boot -/

/-- Whatever callbacks come in a boot, the reader finds a diagnostic for each that the layer
asks for and the writer accepts, in their order and behind what it found before. -/
theorem telemetry_is_read_back (rfc3339 : crates.Rfc3339) (codecs : crates.Codecs)
    (printJson : Value → Text) (writer : DiagnosticWriter) (mode : PoolMode)
    {timeline : List Occasion} (unique : (timeline.filterMap Occasion.identity).Nodup)
    (timed : ∀ occasion ∈ timeline, occasion.moment.now.FourDigitYear ∧
      occasion.moment.now.isLeapSecond = false)
    {world : World} {records : List (Text × Text)} (holds : Holds world records)
    (unmentioned : ∀ record ∈ records, ∀ base, recordGroup crates record = some base →
      ∀ identity ∈ timeline.filterMap Occasion.identity, identity ∉ base.splitOn '|') :
    Post (HandleStep noFaults) (layerFrom printJson writer crates mode Registry.empty timeline)
      world fun _ after => after.WellFormed ∧
        ∀ order, Ensures (HandleStep noFaults) (DiagnosticReader.entries crates order) after
          (fun entries _ => entries = decodeEntries crates order records ++
            (asked printJson writer Registry.empty timeline).filterMap (readEntry writer crates))
          never := by
  have noneOpen : ∀ id state, Registry.empty.state id ≠ some state := fun _ _ => nofun
  have separate : Separate Registry.empty (timeline.filterMap Occasion.identity) :=
    ⟨fun id _ state _ found => absurd found (noneOpen id state),
      fun id state found => absurd found (noneOpen id state)⟩
  rw [layerFrom_eq]
  refine (emitEach_post rfc3339 codecs (fun _ => tellable_of_asked timed)
    (signatures_nodup separate unique) holds fun _ => unheard_of_unmentioned unmentioned).imp
      fun _ after ended => ?_
  obtain ⟨added, behind, found⟩ := ended
  refine ⟨behind.wellFormed, fun order => ?_⟩
  intro result later read
  rw [runs_entries behind.wellFormed read, behind.contents]
  exact found order

/-! ## A span with an event in it -/

def sampleMoment : Moment :=
  ⟨startTime, "22222222-3333-4444-5555-666666666666".toList⟩

def sampleTimeline : List Occasion :=
  [⟨.newSpan 1 provision [("step".toList, .str "disk".toList), ("try".toList, .u64 3)] 5
      "11111111-2222-3333-4444-555555555555".toList, sampleMoment⟩,
    ⟨.event (some 1) failure [("reason".toList, .debug "\"none\"".toList)], sampleMoment⟩,
    ⟨.close 1 1000000012 false, sampleMoment⟩]

def sampleWriter : DiagnosticWriter where
  agent := "azure-init/0.1.1".toList
  vmId := "3f2504e0-4f89-41d3-9a0c-0305e82c3301".toList
  maxNameBytes := defaultMaxNameBytes
  timestampPrecision := .millis
  durationPrecision := .micros

def printValue : Value → Text := Json.printCompact fun _ => []

theorem sampleTimeline_timed : ∀ occasion ∈ sampleTimeline,
    occasion.moment.now.FourDigitYear ∧ occasion.moment.now.isLeapSecond = false := by
  have timed : sampleMoment.now.FourDigitYear := ⟨by decide, by decide⟩
  simp only [sampleTimeline, List.forall_mem_cons]
  exact ⟨⟨timed, rfl⟩, ⟨timed, rfl⟩, ⟨timed, rfl⟩, fun _ => nofun⟩

theorem awkwardRecords_ungrouped : ∀ record ∈ Cli.awkwardRecords,
    recordGroup ReferenceCrates.reference record = none := by
  decide +kernel

theorem telemetry_is_read_back_sample :
    ((asked printValue sampleWriter Registry.empty sampleTimeline).filterMap
      (readEntry sampleWriter ReferenceCrates.reference)).length = 3 ∧
    Post (HandleStep noFaults) (layerFrom printValue sampleWriter ReferenceCrates.reference .safe
      Registry.empty sampleTimeline) (Cli.loadedPool .safe Cli.awkwardRecords) fun _ after =>
        after.WellFormed ∧ ∀ order, Ensures (HandleStep noFaults)
          (DiagnosticReader.entries ReferenceCrates.reference order) after
          (fun entries _ => entries =
            decodeEntries ReferenceCrates.reference order Cli.awkwardRecords ++
              (asked printValue sampleWriter Registry.empty sampleTimeline).filterMap
                (readEntry sampleWriter ReferenceCrates.reference)) never := by
  refine ⟨by decide +kernel, telemetry_is_read_back ReferenceCrates.reference_rfc3339
    ReferenceCrates.reference_codecs printValue sampleWriter .safe (by decide)
    sampleTimeline_timed
    (Cli.loadedPool_spec Cli.uniqueKeysOf_awkwardRecords (by decide)).1 ?_⟩
  intro record member base grouped
  rw [awkwardRecords_ungrouped record member] at grouped
  cases grouped

end AzureInit.Agent.TracingLayer
