import AzureInit.Agent.EncodedReports
import AzureInit.Agent.ReportReplacement
import AzureInit.Agent.StoredTelemetry
import AzureInit.Cli.EditedPools
import AzureInit.Kvp.Staleness

/-! The layers of the subscriber that write to the pool: how they are set up at the start of a
boot, and what the reader finds in the pool behind it. -/

set_option autoImplicit false

namespace AzureInit.Agent.TracingLayer

open Foundation
open Cli (Holds never)
open Diagnostics
open Kvp (Call KvpError KvpIo PoolMode RawRecord Reply World HandleStep noFaults contents)

/-! ## The setup -/

/-- The agent in the keys of its diagnostics. -/
def agent : Text := "azure-init/".toList ++ cargoPkgVersion

/-- Whether there is a store for reports, and the writer of diagnostics. -/
structure Layers where
  store : Bool
  writer : Option DiagnosticWriter

/-- Nothing is written if telemetry is off or the pool cannot be prepared, and no diagnostics
are if the identity of the machine is not accepted. -/
def setupLayers (crates : Crates) (kvpDiagnostics : Bool) (vmId : Text) :
    Program Call Reply Layers := do
  let store ←
    if kvpDiagnostics then do
      let cleared ← Kvp.KvpPoolStore.clearIfStale.run
      pure cleared.toBool
    else pure false
  return { store, writer := if store then (DiagnosticWriter.new crates agent vmId).toOption else none }

/-! ## The layers at work -/

def healthReportField : Text := "health_report".toList

/-- What the filters let through: a callback for the diagnostics, or an event of the target of
reports. -/
inductive Signal where
  | callback (occasion : Occasion)
  | report (values : List (Text × FieldValue))

/-- A field as a report; texts are taken as they are. -/
def reportText (showDebug : FieldValue → Text) : FieldValue → Text
  | .str value => value
  | value => showDebug value

/-- The report in the fields of an event. -/
def healthReport (showDebug : FieldValue → Text) (values : List (Text × FieldValue)) :
    Option Text :=
  SortedMap.last healthReportField (values.map fun field => (field.1, reportText showDebug field.2))

section Layers

variable (printJson : Value → Text) (showDebug : FieldValue → Text) (crates : Crates)
  (layers : Layers)

def onCallback (registry : Registry) (occasion : Occasion) : Program Call Reply Unit :=
  match layers.writer with
  | none => pure ()
  | some writer =>
      match (step printJson registry occasion.callback).2 with
      | none => pure ()
      | some call => reportWriteError (call.perform writer crates .safe occasion.moment)

def onReport (values : List (Text × FieldValue)) : Program Call Reply Unit :=
  match if layers.store then healthReport showDebug values else none with
  | none => pure ()
  | some report => reportWriteError (writeProvisioningReport .safe report)

def subscriberFrom : Registry → List Signal → Program Call Reply Unit
  | _, [] => return ()
  | registry, .callback occasion :: rest => do
      onCallback printJson crates layers registry occasion
      subscriberFrom (step printJson registry occasion.callback).1 rest
  | registry, .report values :: rest => do
      onReport showDebug layers values
      subscriberFrom registry rest

end Layers

/-- The telemetry of a boot. -/
def telemetry (printJson : Value → Text) (showDebug : FieldValue → Text) (crates : Crates)
    (kvpDiagnostics : Bool) (vmId : Text) (signals : List Signal) : Program Call Reply Unit := do
  let layers ← setupLayers crates kvpDiagnostics vmId
  subscriberFrom printJson showDebug crates layers Registry.empty signals

/-! ## What is written -/

def Signal.occasion? : Signal → Option Occasion
  | .callback occasion => some occasion
  | .report _ => none

def Signal.report? (showDebug : FieldValue → Text) : Signal → Option Text
  | .callback _ => none
  | .report values => healthReport showDebug values

/-- The callbacks for the diagnostics. -/
def callbacks (signals : List Signal) : List Occasion := signals.filterMap Signal.occasion?

/-- The reports that are told. -/
def reports (showDebug : FieldValue → Text) (signals : List Signal) : List Text :=
  signals.filterMap (Signal.report? showDebug)

def Layers.asked (printJson : Value → Text) (layers : Layers) (registry : Registry)
    (signals : List Signal) : List Diagnostic :=
  match layers.writer with
  | none => []
  | some writer => TracingLayer.asked printJson writer registry (callbacks signals)

def Layers.readEntry (crates : Crates) (layers : Layers) (diagnostic : Diagnostic) :
    Option Entry :=
  layers.writer.bind fun writer => TracingLayer.readEntry writer crates diagnostic

def Layers.reports (showDebug : FieldValue → Text) (layers : Layers) (signals : List Signal) :
    List Text :=
  if layers.store then TracingLayer.reports showDebug signals else []

/-! ## Reports among diagnostics -/

variable {crates : Crates} {records left : List (Text × Text)}

def isReport (record : Text × Text) : Bool := record.1 == provisioningReportKey

theorem recordGroup_report (value : Text) :
    recordGroup crates (provisioningReportKey, value) = none := by
  rw [recordGroup, placeRecord_report]

theorem singleOutput_report (value : Text) :
    singleOutput crates (provisioningReportKey, value) = [reportEntry crates value] := by
  rw [singleOutput, singleEntries, placeRecord_report]
  rfl

theorem ungrouped_of_isReport {record : Text × Text} (report : isReport record = true) :
    recordGroup crates record = none := by
  obtain ⟨key, value⟩ := record
  obtain rfl : key = provisioningReportKey := beq_iff_eq.mp report
  exact recordGroup_report value

/-- What is read of a pool, the reports behind the rest. -/
theorem decodeEntries_perm_reports (order : HashOrder) (records : List (Text × Text)) :
    (decodeEntries crates order records).Perm
      (decodeEntries crates order (records.filter fun record => !isReport record) ++
        decodeEntries crates order (records.filter isReport)) := by
  have split : records.Perm
      ((records.filter fun record => !isReport record) ++ records.filter isReport) :=
    (List.filter_append_perm isReport records).symm.trans List.perm_append_comm
  refine (decodeEntries_perm split order order).trans (.of_eq (decodeEntries_append ?_ order))
  intro record member base grouped
  rw [ungrouped_of_isReport (List.mem_filter.mp member).2] at grouped
  cases grouped

theorem decodeEntries_reports (order : HashOrder) (records : List (Text × Text)) :
    decodeEntries crates order (records.filter isReport) =
      (records.filter isReport).map fun record => reportEntry crates record.2 := by
  have isReport_of_mem : ∀ record ∈ records.filter isReport, isReport record = true :=
    fun record member => (List.mem_filter.mp member).2
  rw [decodeEntries_of_ungrouped fun record member =>
    ungrouped_of_isReport (isReport_of_mem record member), List.map_eq_flatMap]
  apply List.flatMap_congr
  intro record member
  obtain ⟨key, value⟩ := record
  obtain rfl : key = provisioningReportKey := beq_iff_eq.mp (isReport_of_mem _ member)
  exact singleOutput_report value

theorem isForReport_reportEntry (value : Text) : (reportEntry crates value).isForReport = true := by
  unfold reportEntry
  split
  · rfl
  · exact beq_self_eq_true _

/-- The entries that are not for the report key are those of the other records. -/
theorem filter_decodeEntries_others (order : HashOrder) (records : List (Text × Text)) :
    ((decodeEntries crates order records).filter fun entry => !entry.isForReport).Perm
      (decodeEntries crates order (records.filter fun record => !isReport record)) := by
  have split := (@decodeEntries_perm_reports crates order records).filter
    fun entry => !entry.isForReport
  have others : ∀ entry ∈ decodeEntries crates order
      (records.filter fun record => !isReport record), (!entry.isForReport) = true := by
    intro entry member
    rw [Bool.not_eq_true']
    by_contra forReport
    have kept : entry ∈ (decodeEntries crates order
        (records.filter fun record => !isReport record)).filter Entry.isForReport :=
      List.mem_filter.mpr ⟨member, Bool.not_eq_false _ ▸ forReport⟩
    rw [filter_decodeEntries, List.filter_filter, List.filter_eq_nil_iff.mpr] at kept
    · cases kept
    · intro record _
      cases same : record.1 == provisioningReportKey <;> simp [isReport, same]
  have none_left : ((records.filter isReport).map fun record =>
      reportEntry crates record.2).filter (fun entry => !entry.isForReport) = [] := by
    rw [List.filter_eq_nil_iff]
    intro entry member
    obtain ⟨record, -, rfl⟩ := List.mem_map.mp member
    simp [isForReport_reportEntry]
  rwa [List.filter_append, List.filter_eq_self.mpr others, decodeEntries_reports, none_left,
    List.append_nil] at split

/-! ## Writes -/

/-- What is read behind a report. -/
def Told (crates : Crates) (records left : List (Text × Text)) (told : List Entry)
    (report : Option Text) : Prop :=
  ∀ order, (decodeEntries crates order left).Perm
    (((decodeEntries crates order records).filter fun entry => !entry.isForReport) ++ told ++
      match report with
      | some report => [reportEntry crates (cutReport .safe report)]
      | none => (decodeEntries crates order records).filter Entry.isForReport)

theorem isForReport_readEntry {writer : DiagnosticWriter} {diagnostic : Diagnostic} {entry : Entry}
    (read : readEntry writer crates diagnostic = some entry) : entry.isForReport = false := by
  unfold readEntry at read
  split at read
  · cases read
    rfl
  · cases read

theorem Told.of_same {records : List (Text × Text)} : Told crates records records [] none := by
  intro order
  rw [List.append_nil]
  exact (List.filter_append_perm Entry.isForReport _).symm.trans List.perm_append_comm

/-- Entries that have been told before. -/
theorem Told.behind {middle : List (Text × Text)} {first told : List Entry} {report : Option Text}
    (holds : Told crates middle left told report)
    (others : ∀ entry ∈ first, entry.isForReport = false)
    (found : ∀ order, decodeEntries crates order middle = decodeEntries crates order records ++ first) :
    Told crates records left (first ++ told) report := by
  have kept : first.filter (fun entry => !entry.isForReport) = first :=
    List.filter_eq_self.mpr fun entry member => by simp [others entry member]
  have none_left : first.filter Entry.isForReport = [] :=
    List.filter_eq_nil_iff.mpr fun entry member => by simp [others entry member]
  intro order
  have read := holds order
  rw [found, List.filter_append, kept, List.filter_append, none_left, List.append_nil] at read
  rwa [← List.append_assoc]

/-- A report that has been told before, in place of all others. -/
theorem Told.replaced {middle : List (Text × Text)} {told : List Entry} {text : Text}
    {report : Option Text} (holds : Told crates middle left told report)
    (stored : middle.Perm ((records.filter fun record => !isReport record) ++
      [(provisioningReportKey, cutReport .safe text)])) :
    Told crates records left told (some (report.getD text)) := by
  intro order
  have reread : (decodeEntries crates order middle).Perm
      (((decodeEntries crates order records).filter fun entry => !entry.isForReport) ++
        [reportEntry crates (cutReport .safe text)]) := by
    refine (decodeEntries_perm stored order order).trans ?_
    rw [decodeEntries_append]
    · refine (filter_decodeEntries_others order records).symm.append ?_
      have ungrouped : ∀ record ∈ [(provisioningReportKey, cutReport .safe text)],
          recordGroup crates record = none := by
        intro record member
        rw [List.mem_singleton.mp member]
        exact recordGroup_report _
      rw [decodeEntries_of_ungrouped ungrouped, List.flatMap_singleton, singleOutput_report]
    · intro record member base grouped
      rw [List.mem_singleton.mp member, recordGroup_report] at grouped
      cases grouped
  have others := reread.filter fun entry => !entry.isForReport
  rw [List.filter_append, List.filter_filter, List.filter_cons_of_neg
    (by simp [isForReport_reportEntry]), List.filter_nil, List.append_nil] at others
  simp only [Bool.and_self] at others
  refine (holds order).trans ?_
  refine (others.append_right told).append ?_
  cases report with
  | some later => exact .refl _
  | none =>
      have own := reread.filter Entry.isForReport
      have none_left : ((decodeEntries crates order records).filter fun entry =>
          !entry.isForReport).filter Entry.isForReport = [] := by
        rw [List.filter_filter, List.filter_eq_nil_iff]
        intro entry _
        cases entry.isForReport <;> simp
      rw [List.filter_append, none_left, List.nil_append,
        List.filter_cons_of_pos (isForReport_reportEntry _), List.filter_nil] at own
      exact own

/-! ## Signal after signal -/

variable {printJson : Value → Text} {showDebug : FieldValue → Text} {layers : Layers}
  {registry : Registry} {world : World}

theorem asked_callback (occasion : Occasion) (rest : List Signal) :
    layers.asked printJson registry (.callback occasion :: rest) =
      (layers.writer.bind fun writer => (step printJson registry occasion.callback).2.map
        (·.diagnostic writer occasion.moment)).toList ++
        layers.asked printJson (step printJson registry occasion.callback).1 rest := by
  unfold Layers.asked
  cases layers.writer <;> rfl

/-- Without a writer nothing is asked for. -/
theorem asked_cases {motive : List Diagnostic → Prop} {signals : List Signal} (without : motive [])
    (written : ∀ writer, motive (asked printJson writer registry (callbacks signals))) :
    motive (layers.asked printJson registry signals) := by
  unfold Layers.asked
  cases layers.writer with
  | none => exact without
  | some writer => exact written writer

theorem told_eq (signals : List Signal) :
    (layers.asked printJson registry signals).filterMap (layers.readEntry crates) =
      match layers.writer with
      | some writer =>
          (asked printJson writer registry (callbacks signals)).filterMap (readEntry writer crates)
      | none => [] := by
  unfold Layers.asked
  cases given : layers.writer with
  | none => rfl
  | some writer =>
      have sameEntry : layers.readEntry crates = readEntry writer crates := by
        funext diagnostic
        simp [Layers.readEntry, given]
      rw [sameEntry]

/-- What a callback for the diagnostics adds. -/
theorem onCallback_post (rfc3339 : crates.Rfc3339) (codecs : crates.Codecs) {occasion : Occasion}
    {now : Option Diagnostic}
    (isNow : now = layers.writer.bind fun writer =>
      (step printJson registry occasion.callback).2.map (·.diagnostic writer occasion.moment))
    (tellable : ∀ diagnostic ∈ now, Tellable diagnostic) (holds : Holds world records)
    (unheard : ∀ diagnostic ∈ now, Unheard crates records diagnostic) :
    Post (HandleStep noFaults) (onCallback printJson crates layers registry occasion) world
      fun _ middle => ∃ added, Holds middle (records ++ added) ∧
        (∀ other, (∀ diagnostic ∈ now, signature diagnostic ≠ signature other) →
          Unheard crates added other) ∧
        ∀ order, decodeEntries crates order (records ++ added) =
          decodeEntries crates order records ++ (now.bind (layers.readEntry crates)).toList := by
  have nothing : Post (HandleStep noFaults) (pure () : Program Call Reply Unit) world
      fun _ middle => ∃ added, Holds middle (records ++ added) ∧
        (∀ other, (∀ diagnostic ∈ (none : Option Diagnostic),
          signature diagnostic ≠ signature other) → Unheard crates added other) ∧
        ∀ order, decodeEntries crates order (records ++ added) =
          decodeEntries crates order records ++ [] := by
    refine post_pure_iff.mpr ⟨[], ?_, fun _ _ _ => nofun, fun order => ?_⟩
    · rwa [List.append_nil]
    · rw [List.append_nil, List.append_nil]
  unfold onCallback
  cases given : layers.writer with
  | none =>
      rw [given] at isNow
      subst isNow
      exact nothing
  | some writer =>
      rw [given, Option.bind_some] at isNow
      cases calls : (step printJson registry occasion.callback).2 with
      | none =>
          rw [calls] at isNow
          subst isNow
          exact nothing
      | some call =>
          rw [calls] at isNow
          subst isNow
          have one : call.diagnostic writer occasion.moment ∈
              Option.map (·.diagnostic writer occasion.moment) (some call) := rfl
          dsimp only
          rw [WriterCall.perform_eq]
          refine (emit_post rfc3339 codecs (tellable _ one) holds (unheard _ one)).imp
            fun _ middle reached => ?_
          obtain ⟨added, between, others, found⟩ := reached
          refine ⟨added, between, fun other different => others other (different _ one), ?_⟩
          have sameEntry : layers.readEntry crates (call.diagnostic writer occasion.moment) =
              readEntry writer crates (call.diagnostic writer occasion.moment) := by
            unfold Layers.readEntry
            rw [given]
            rfl
          rw [Option.map_some, Option.bind_some, sameEntry]
          exact found

/-- What an event of the target of reports leaves. -/
theorem onReport_post {values : List (Text × FieldValue)} (holds : Holds world records)
    (nulFree : ∀ report ∈ healthReport showDebug values, '\x00' ∉ report) :
    Post (HandleStep noFaults) (onReport showDebug layers values) world
      fun _ middle => ∃ left, Holds middle left ∧
        match if layers.store then healthReport showDebug values else none with
        | none => left = records
        | some report => left.Perm ((records.filter fun record => !isReport record) ++
            [(provisioningReportKey, cutReport .safe report)]) := by
  unfold onReport
  cases told : if layers.store then healthReport showDebug values else none with
  | none => exact post_pure_iff.mpr ⟨records, holds, rfl⟩
  | some report =>
      have isTold : report ∈ healthReport showDebug values := by
        split at told
        · exact told
        · cases told
      refine post_bind_iff.mpr fun result middle ran => post_pure_iff.mpr ?_
      obtain ⟨-, wellFormed, replaced⟩ := writeProvisioningReport_replaces holds.wellFormed
        (nulFree report isTold) ran
      refine ⟨contents middle.records, ⟨wellFormed, rfl⟩, ?_⟩
      have stored := Cli.contents_of_replaced replaced
      rwa [holds.contents] at stored

/-- A report is of no group. -/
theorem Unheard.of_stored {diagnostic : Diagnostic} {text : Text}
    (unheard : Unheard crates records diagnostic)
    (stored : left.Perm ((records.filter fun record => !isReport record) ++
      [(provisioningReportKey, text)])) : Unheard crates left diagnostic := by
  intro record member base grouped
  rcases List.mem_append.mp (stored.mem_iff.mp member) with old | report
  · exact unheard record (List.mem_filter.mp old).1 base grouped
  · rw [List.mem_singleton.mp report, recordGroup_report] at grouped
    cases grouped

theorem subscriberFrom_post (rfc3339 : crates.Rfc3339) (codecs : crates.Codecs)
    {signals : List Signal}
    (tellable : ∀ diagnostic ∈ layers.asked printJson registry signals, Tellable diagnostic)
    (apart : ((layers.asked printJson registry signals).map signature).Nodup)
    (nulFree : ∀ report ∈ reports showDebug signals, '\x00' ∉ report)
    (holds : Holds world records)
    (unheard : ∀ diagnostic ∈ layers.asked printJson registry signals,
      Unheard crates records diagnostic) :
    Post (HandleStep noFaults) (subscriberFrom printJson showDebug crates layers registry signals)
      world fun _ after => ∃ left, Holds after left ∧
        Told crates records left
          ((layers.asked printJson registry signals).filterMap (layers.readEntry crates))
          (layers.reports showDebug signals).getLast? := by
  induction signals generalizing world records registry with
  | nil =>
      refine post_pure_iff.mpr ⟨records, holds, ?_⟩
      have noneAsked : layers.asked printJson registry [] = [] := by
        unfold Layers.asked
        cases layers.writer <;> rfl
      have noneTold : layers.reports showDebug [] = [] := ite_self _
      rw [noneAsked, noneTold]
      exact .of_same
  | cons signal rest ih =>
      cases signal with
      | callback occasion =>
          rw [asked_callback] at tellable apart unheard
          generalize isNow : (layers.writer.bind fun writer =>
            (step printJson registry occasion.callback).2.map
              (·.diagnostic writer occasion.moment)) = now at tellable apart unheard
          rw [List.map_append] at apart
          obtain ⟨-, apartRest, different⟩ := List.nodup_append.mp apart
          have fromNow : ∀ diagnostic ∈ now, diagnostic ∈ now.toList :=
            fun _ => Option.mem_toList.mpr
          refine post_bind_iff.mpr ((onCallback_post rfc3339 codecs isNow.symm
            (fun diagnostic member => tellable diagnostic
              (List.mem_append_left _ (fromNow diagnostic member))) holds
            (fun diagnostic member => unheard diagnostic
              (List.mem_append_left _ (fromNow diagnostic member)))).imp fun _ middle reached => ?_)
          obtain ⟨added, between, others, found⟩ := reached
          refine (ih (fun diagnostic member => tellable diagnostic (List.mem_append_right _ member))
            apartRest nulFree between fun other member => ?_).imp fun _ after ended => ?_
          · refine (unheard other (List.mem_append_right _ member)).append (others other ?_)
            intro diagnostic isOne same
            exact different _ (List.mem_map_of_mem (fromNow diagnostic isOne)) _
              (List.mem_map_of_mem member) same
          · obtain ⟨left, behind, told⟩ := ended
            refine ⟨left, behind, ?_⟩
            rw [asked_callback, isNow, List.filterMap_append]
            have first : now.toList.filterMap (layers.readEntry crates) =
                (now.bind (layers.readEntry crates)).toList := by
              cases now with
              | none => rfl
              | some diagnostic =>
                  rw [Option.toList_some, List.filterMap_cons, List.filterMap_nil, Option.bind_some]
                  cases layers.readEntry crates diagnostic <;> rfl
            rw [first]
            refine told.behind ?_ found
            intro entry member
            obtain ⟨diagnostic, -, read⟩ := Option.bind_eq_some_iff.mp (Option.mem_toList.mp member)
            obtain ⟨writer, -, read⟩ := Option.bind_eq_some_iff.mp read
            exact isForReport_readEntry read
      | report values =>
          have reportsRest : ∀ report ∈ reports showDebug rest, '\x00' ∉ report := by
            intro report member
            apply nulFree report
            obtain ⟨signal, inRest, isTold⟩ := List.mem_filterMap.mp member
            exact List.mem_filterMap.mpr ⟨signal, List.mem_cons_of_mem _ inRest, isTold⟩
          have reportsNow : ∀ report ∈ healthReport showDebug values, '\x00' ∉ report :=
            fun report isTold => nulFree report
              (List.mem_filterMap.mpr ⟨.report values, List.mem_cons_self, isTold⟩)
          have sameAsked : layers.asked printJson registry (.report values :: rest) =
              layers.asked printJson registry rest := rfl
          have split : layers.reports showDebug (.report values :: rest) =
              (if layers.store then healthReport showDebug values else none).toList ++
                layers.reports showDebug rest := by
            unfold Layers.reports reports
            split
            · rw [List.filterMap_cons, Signal.report?]
              cases healthReport showDebug values <;> rfl
            · rfl
          rw [sameAsked] at tellable apart unheard ⊢
          refine post_bind_iff.mpr ((onReport_post holds reportsNow).imp
            fun _ middle reached => ?_)
          obtain ⟨left, between, stored⟩ := reached
          rw [split]
          cases told : if layers.store then healthReport showDebug values else none with
          | none =>
              rw [told] at stored
              subst stored
              exact ih tellable apart reportsRest between unheard
          | some report =>
              rw [told] at stored
              refine (ih tellable apart reportsRest between
                fun other member => (unheard other member).of_stored stored).imp
                  fun _ after ended => ?_
              obtain ⟨final, behind, told⟩ := ended
              refine ⟨final, behind, ?_⟩
              rw [Option.toList_some, List.singleton_append, List.getLast?_cons]
              exact told.replaced stored

/-! ## A boot -/

theorem setupLayers_post (kvpDiagnostics : Bool) (vmId : Text) (wellFormed : world.WellFormed) :
    Post (HandleStep noFaults) (setupLayers crates kvpDiagnostics vmId) world
      fun layers middle =>
        layers.store = kvpDiagnostics ∧
        layers.writer = (if kvpDiagnostics then (DiagnosticWriter.new crates agent vmId).toOption
          else none) ∧
        Holds middle (if kvpDiagnostics ∧ world.Stale then [] else contents world.records) := by
  unfold setupLayers
  cases kvpDiagnostics with
  | false =>
      refine post_bind_iff.mpr (post_pure_iff.mpr (post_pure_iff.mpr ⟨rfl, rfl, ?_⟩))
      rw [if_neg (by simp)]
      exact ⟨wellFormed, rfl⟩
  | true =>
      refine post_bind_iff.mpr (Kvp.clearIfStale_keeps.imp ?_)
      intro cleared middle reached
      obtain ⟨rfl, bytes⟩ := reached
      refine post_bind_iff.mpr (post_pure_iff.mpr (post_pure_iff.mpr ⟨rfl, rfl, ?_⟩))
      rw [World.kept] at bytes
      split at bytes
      · rename_i stale
        have empty : middle.bytes = Blocks.image ([] : List RawRecord) := bytes
        have none_left : middle.records = [] := Kvp.World.records_of_image empty
        rw [if_pos ⟨rfl, stale⟩]
        refine ⟨⟨Kvp.World.framed_of_image empty, ?_⟩, ?_⟩
        · rw [none_left]
          exact Kvp.Decodable.nil
        · rw [none_left]
          rfl
      · rename_i fresh
        have image := bytes.trans wellFormed.framed.bytes_eq
        have same := Kvp.World.records_of_image image
        rw [if_neg fun both => fresh both.2]
        refine ⟨⟨Kvp.World.framed_of_image image, ?_⟩, ?_⟩
        · rw [same]
          exact wellFormed.decodable
        · rw [same]

/-- The writer of a boot. -/
def bootWriter (crates : Crates) (kvpDiagnostics : Bool) (vmId : Text) : Option DiagnosticWriter :=
  if kvpDiagnostics then (DiagnosticWriter.new crates agent vmId).toOption else none

/-- Whatever is signalled in a boot, the reader finds behind it, in some order, a diagnostic for
each that is asked for and accepted, the last report, and of a pool that was not stale all that
it found there before but the reports that have been replaced. -/
theorem boot_telemetry_is_read_back (rfc3339 : crates.Rfc3339) (codecs : crates.Codecs)
    (printJson : Value → Text) (showDebug : FieldValue → Text) (kvpDiagnostics : Bool)
    (vmId : Text) {signals : List Signal}
    (unique : ((callbacks signals).filterMap Occasion.identity).Nodup)
    (timed : ∀ occasion ∈ callbacks signals, occasion.moment.now.FourDigitYear ∧
      occasion.moment.now.isLeapSecond = false)
    (nulFree : ∀ report ∈ reports showDebug signals, '\x00' ∉ report)
    {world : World} (wellFormed : world.WellFormed) {earlier : List (Text × Text)}
    (isEarlier : earlier = if kvpDiagnostics ∧ world.Stale then [] else contents world.records)
    (unmentioned : ∀ record ∈ earlier, ∀ base, recordGroup crates record = some base →
      ∀ identity ∈ (callbacks signals).filterMap Occasion.identity,
        identity ∉ base.splitOn '|') :
    Post (HandleStep noFaults)
      (telemetry printJson showDebug crates kvpDiagnostics vmId signals) world fun _ after =>
        after.WellFormed ∧ ∀ order,
          Ensures (HandleStep noFaults) (DiagnosticReader.entries crates order) after
            (fun entries _ => entries.Perm
              ((decodeEntries crates order earlier).filter (fun entry => !entry.isForReport) ++
                (match bootWriter crates kvpDiagnostics vmId with
                  | some writer =>
                      (asked printJson writer Registry.empty (callbacks signals)).filterMap
                        (readEntry writer crates)
                  | none => []) ++
                match if kvpDiagnostics then (reports showDebug signals).getLast? else none with
                | some report => [reportEntry crates (cutReport .safe report)]
                | none => (decodeEntries crates order earlier).filter Entry.isForReport)) never := by
  unfold telemetry
  refine post_bind_iff.mpr ((setupLayers_post kvpDiagnostics vmId wellFormed).imp
    fun layers middle reached => ?_)
  obtain ⟨store, hasWriter, holds⟩ := reached
  rw [← isEarlier] at holds
  have isWriter : layers.writer = bootWriter crates kvpDiagnostics vmId := hasWriter
  have noneOpen : ∀ id state, Registry.empty.state id ≠ some state := fun _ _ => nofun
  have separate : Separate Registry.empty ((callbacks signals).filterMap Occasion.identity) :=
    ⟨fun id _ state _ found => absurd found (noneOpen id state),
      fun id state found => absurd found (noneOpen id state)⟩
  have tellable := @asked_cases printJson layers Registry.empty
    (fun diagnostics => ∀ diagnostic ∈ diagnostics, Tellable diagnostic) signals
    (fun _ => nofun) fun _ _ => tellable_of_asked timed
  have apart := @asked_cases printJson layers Registry.empty
    (fun diagnostics => (diagnostics.map signature).Nodup) signals
    .nil fun _ => signatures_nodup separate unique
  have unheard := @asked_cases printJson layers Registry.empty
    (fun diagnostics => ∀ diagnostic ∈ diagnostics, Unheard crates earlier diagnostic) signals
    (fun _ => nofun) fun _ _ => unheard_of_unmentioned unmentioned
  refine (subscriberFrom_post rfc3339 codecs tellable apart nulFree holds unheard).imp
    fun _ after ended => ?_
  obtain ⟨left, behind, told⟩ := ended
  refine ⟨behind.wellFormed, fun order => ?_⟩
  intro result later read
  rw [runs_entries behind.wellFormed read, behind.contents]
  have found := told order
  have sameReport : (layers.reports showDebug signals).getLast? =
      if kvpDiagnostics then (reports showDebug signals).getLast? else none := by
    unfold Layers.reports
    rw [store]
    split <;> rfl
  rw [told_eq, isWriter, sameReport] at found
  exact found

/-! ## A boot with a report -/

def sampleSignals : List Signal :=
  sampleTimeline.map .callback ++ [.report [(healthReportField, .debug "result=success".toList)]]

def showDebugText : FieldValue → Text
  | .debug shown => shown
  | .error shown => shown
  | _ => []

def sampleVmId : Text := "3f2504e0-4f89-41d3-9a0c-0305e82c3301".toList

/-- A pool that was modified since the boot. -/
def freshPool : World := { Cli.loadedPool .safe Cli.awkwardRecords with bootTime := -1 }

theorem holds_bootTime (holds : Holds world records) (bootTime : Int) :
    Holds { world with bootTime } records :=
  ⟨⟨holds.wellFormed.framed, holds.wellFormed.decodable⟩, holds.contents⟩

theorem freshPool_holds : Holds freshPool Cli.awkwardRecords :=
  holds_bootTime (Cli.loadedPool_spec Cli.uniqueKeysOf_awkwardRecords (by decide)).1 (-1)

theorem freshPool_fresh : ¬ freshPool.Stale := by
  decide +kernel

theorem boot_telemetry_is_read_back_sample :
    Post (HandleStep noFaults)
      (telemetry printValue showDebugText ReferenceCrates.reference true sampleVmId sampleSignals)
      freshPool fun _ after => after.WellFormed ∧ ∀ order,
        Ensures (HandleStep noFaults) (DiagnosticReader.entries ReferenceCrates.reference order)
          after (fun entries _ => entries.Perm
            ((decodeEntries ReferenceCrates.reference order Cli.awkwardRecords).filter
                (fun entry => !entry.isForReport) ++
              (match bootWriter ReferenceCrates.reference true sampleVmId with
                | some writer => (asked printValue writer Registry.empty
                    (callbacks sampleSignals)).filterMap
                      (readEntry writer ReferenceCrates.reference)
                | none => []) ++
              [reportEntry ReferenceCrates.reference
                (cutReport .safe "result=success".toList)])) never := by
  refine boot_telemetry_is_read_back ReferenceCrates.reference_rfc3339
    ReferenceCrates.reference_codecs printValue showDebugText true sampleVmId (by decide) ?_
    (by decide) freshPool_holds.wellFormed ?_ ?_
  · exact sampleTimeline_timed
  · rw [if_neg fun both => freshPool_fresh both.2]
    exact freshPool_holds.contents.symm
  · intro record member base grouped
    rw [awkwardRecords_ungrouped record member] at grouped
    cases grouped

end AzureInit.Agent.TracingLayer
