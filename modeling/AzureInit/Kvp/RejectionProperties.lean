import AzureInit.Kvp.FrameProperties

/-! What a rejected update leaves behind, for every content of the pool file. A
scan edits as it reads, so invalid UTF-8 behind a targeted record is found late. -/

set_option autoImplicit false

namespace AzureInit.Kvp

open Foundation
open Blocks (image)
open Sweep (sweep)

/-! ## Files with a partial record -/

private theorem kept_of_misframed {allowed : World → Fault → Prop} {world : World} {α β : Type}
    {opened : KvpIo α} {continuation : α → KvpIo β}
    (refused : Ensures (HandleStep allowed) opened world
      (fun _ _ => False) (fun _ after => after.bytes = world.bytes)) :
    Ensures (HandleStep allowed) (opened >>= continuation) world
      (fun _ after => after.bytes = world.bytes) (fun _ after => after.bytes = world.bytes) :=
  refused.bind (fun _ _ => id) fun _ _ impossible => impossible.elim

private theorem kept_of_missing {allowed : World → Fault → Prop} {world : World} {α β : Type}
    {opened : KvpIo α} {missing : β} {body : α → KvpIo β}
    (refused : Ensures (HandleStep allowed) opened world
      (fun _ _ => False) (fun _ after => after.bytes = world.bytes)) :
    Ensures (HandleStep allowed) (unlessMissing opened missing body) world
      (fun _ after => after.bytes = world.bytes) (fun _ after => after.bytes = world.bytes) :=
  unlessMissing_ensures refused (fun _ _ left _ => left) (fun _ _ left _ => left)
    fun _ _ impossible => impossible.elim

/-- No update but `clear` changes a file that holds a partial record. -/
theorem misframed_kept {allowed : World → Fault → Prop} {world : World}
    (misframed : ¬ world.Framed) {update : Update} (notClear : update ≠ .clear) :
    Ensures (HandleStep allowed) update.perform world
      (fun _ after => after.bytes = world.bytes) (fun _ after => after.bytes = world.bytes) := by
  have creating : ∀ {β : Type} (continuation : KvpPoolIter → KvpIo β),
      Ensures (HandleStep allowed) (KvpPoolStore.iterCreate >>= continuation) world
        (fun _ after => after.bytes = world.bytes) (fun _ after => after.bytes = world.bytes) :=
    fun _ => kept_of_misframed (KvpPoolStore.iterCreate_misframed misframed)
  have existing : ∀ {β : Type} (missing : β) (body : KvpPoolIter → KvpIo β),
      Ensures (HandleStep allowed) (unlessMissing KvpPoolStore.iterMut missing body) world
        (fun _ after => after.bytes = world.bytes) (fun _ after => after.bytes = world.bytes) :=
    fun _ _ => kept_of_missing (KvpPoolStore.iterMut_misframed misframed)
  have checked : ∀ {α β : Type} (result : Except KvpError α) (continuation : α → KvpIo β),
      (∀ value, Ensures (HandleStep allowed) (continuation value) world
        (fun _ after => after.bytes = world.bytes) (fun _ after => after.bytes = world.bytes)) →
      Ensures (HandleStep allowed) (ofResult result >>= continuation) world
        (fun _ after => after.bytes = world.bytes) (fun _ after => after.bytes = world.bytes) :=
    fun _ _ rest => ofResult_bind_ensures (fun _ _ => rfl) fun value _ => rest value
  have replied : ∀ {α : Type} (program : KvpIo α) (reply : α → UpdateReply),
      Ensures (HandleStep allowed) program world
        (fun _ after => after.bytes = world.bytes) (fun _ after => after.bytes = world.bytes) →
      Ensures (HandleStep allowed) (program >>= fun value => pure (reply value)) world
        (fun _ after => after.bytes = world.bytes) (fun _ after => after.bytes = world.bytes) :=
    fun _ _ kept => kept.bind (fun _ _ => id) fun _ _ left => ensures_pure_iff.mpr left
  cases update with
  | append mode key value => exact replied _ _ (checked _ _ fun _ => creating _)
  | appendMultiple mode added =>
      refine replied _ _ ?_
      rw [KvpPoolStore.appendMultiple]
      split
      · exact ensures_pure_iff.mpr rfl
      · exact checked _ _ fun _ => creating _
  | insert mode key value => exact replied _ _ (checked _ _ fun _ => creating _)
  | delete key => exact replied _ UpdateReply.found (checked _ _ fun _ => existing _ _)
  | deleteMultiple keys =>
      refine replied _ UpdateReply.removed (checked _ _ fun targeted => ?_)
      split
      · exact ensures_pure_iff.mpr rfl
      · exact existing _ _
  | load mode added =>
      refine replied _ _ (checked _ _ fun uniqueKeys => ?_)
      split
      · exact ensures_throw_iff.mpr rfl
      · exact creating _
  | clear => exact absurd rfl notClear

/-! ## Files of whole records -/

/-- The first undecodable record of a list, and the decodable ones before it. -/
theorem exists_first_undecodable {records : List RawRecord} (undecodable : ¬ Decodable records) :
    ∃ front bad back, records = front ++ bad :: back ∧ Decodable front ∧ ¬ bad.Decodable := by
  induction records with
  | nil => exact absurd .nil undecodable
  | cons head tail ih =>
      by_cases headDecodable : head.Decodable
      · have tailUndecodable : ¬ Decodable tail := by
          intro tailDecodable
          refine undecodable fun record member => ?_
          rcases List.mem_cons.mp member with rfl | inTail
          · exact headDecodable
          · exact tailDecodable record inTail
        obtain ⟨front, bad, back, rfl, frontDecodable, badUndecodable⟩ := ih tailUndecodable
        refine ⟨head :: front, bad, back, rfl, fun record member => ?_, badUndecodable⟩
        rcases List.mem_cons.mp member with rfl | inFront
        · exact headDecodable
        · exact frontDecodable record inFront
      · exact ⟨[], head, tail, rfl, .nil, headDecodable⟩

theorem decodeField_error_kind {bytes : List UInt8} {io : IoError}
    (refused : decodeField bytes = .error io) : io.kind = .invalidData := by
  rw [decodeField] at refused
  split at refused
  · cases refused
  · obtain rfl := Except.error.inj refused
    rfl

theorem RawRecord.decode_error_kind {record : RawRecord} {io : IoError}
    (refused : record.decode = .error io) : io.kind = .invalidData := by
  rw [RawRecord.decode, decodeRecord_eq record.toList_length] at refused
  cases key : decodeField (record.toList.take wireMaxKeyBytes) with
  | error keyError =>
      rw [key] at refused
      obtain rfl := Except.error.inj refused
      exact decodeField_error_kind key
  | ok _ =>
      cases value : decodeField (record.toList.drop wireMaxKeyBytes) with
      | error valueError =>
          rw [key, value] at refused
          obtain rfl := Except.error.inj refused
          exact decodeField_error_kind value
      | ok _ =>
          rw [key, value] at refused
          cases refused

/-- Invalid UTF-8 was found, and a record the update targets stands before it. -/
structure FoundLate (update : Update) (records : List RawRecord) (error : KvpError) : Prop where
  invalidData : ∃ io, error = .io io ∧ io.kind = .invalidData
  late : ∃ targeted front bad back, update.targets = some targeted ∧
    records = front ++ bad :: back ∧ Decodable front ∧ ¬ bad.Decodable ∧
    ∃ target ∈ front, targeted target.key = true

/-- A pass that is refused leaves all as it was, unless a targeted record stands
before the first that does not decode. -/
theorem sweep_refused {β : Type} {step : β → RawRecord → Except IoError (Sweep.Edit RawRecord × β)}
    {targeted : Text → Bool} {visit : β → RawRecord → β} {records : List RawRecord} {state : β}
    {io : IoError}
    (accepts : ∀ state record, record.Decodable → ∃ outcome, step state record = .ok outcome)
    (passes : ∀ record, record.Decodable → targeted record.key = false →
      ∀ state, step state record = .ok (.keep, visit state record))
    (refuses : ∀ state record error, record.decode = .error error →
      step state record = .error error)
    (stopped : (sweep step state records).1 = .error io) :
    io.kind = .invalidData ∧ ((sweep step state records).2 = records ∨
      ∃ front bad back, records = front ++ bad :: back ∧ Decodable front ∧ ¬ bad.Decodable ∧
        ∃ target ∈ front, targeted target.key = true) := by
  obtain ⟨record, member, refusedState, refusal⟩ := Sweep.refused_of_sweep_error stopped
  have undecodableRecord : ¬ record.Decodable := by
    intro decodable
    obtain ⟨outcome, accepted⟩ := accepts refusedState record decodable
    rw [accepted] at refusal
    cases refusal
  constructor
  · obtain ⟨error, bad⟩ := RawRecord.not_decodable_iff.mp undecodableRecord
    rw [refuses refusedState record error bad] at refusal
    obtain rfl := Except.error.inj refusal
    exact RawRecord.decode_error_kind bad
  have undecodable : ¬ Decodable records := fun all => undecodableRecord (all record member)
  obtain ⟨front, bad, back, rfl, frontDecodable, badUndecodable⟩ :=
    exists_first_undecodable undecodable
  by_cases target : ∃ target ∈ front, targeted target.key = true
  · exact .inr ⟨front, bad, back, rfl, frontDecodable, badUndecodable, target⟩
  · left
    obtain ⟨error, badError⟩ := RawRecord.not_decodable_iff.mp badUndecodable
    have untargeted : ∀ record ∈ front, ∀ state,
        step state record = .ok (.keep, visit state record) := by
      intro record inFront
      refine passes record (frontDecodable record inFront) ?_
      by_contra chosen
      exact target ⟨record, inFront, by simpa using chosen⟩
    rw [Sweep.sweep_append_of_keep front (bad :: back) state untargeted,
      Sweep.sweep_cons_error (refuses _ bad error badError)]

private theorem removal_sweep_refused {β : Type} {targeted : Text → Bool} {note : β → β}
    {records : List RawRecord} {noted : β} {io : IoError}
    (stopped : (sweep (removal targeted note) noted records).1 = .error io) :
    io.kind = .invalidData ∧ ((sweep (removal targeted note) noted records).2 = records ∨
      ∃ front bad back, records = front ++ bad :: back ∧ Decodable front ∧ ¬ bad.Decodable ∧
        ∃ target ∈ front, targeted target.key = true) := by
  refine @sweep_refused _ _ targeted (fun noted _ => noted) _ _ _ ?_ ?_ removal_refuses stopped
  · exact fun noted record decodable => ⟨_, removal_of_decodable decodable targeted note noted⟩
  · intro record decodable untargeted noted
    rw [removal_of_decodable decodable, untargeted]
    rfl

private theorem insertion_sweep_refused {key value : Text} {records : List RawRecord} {io : IoError}
    (stopped : (sweep (insertion key value) noneSeen records).1 = .error io) :
    io.kind = .invalidData ∧ ((sweep (insertion key value) noneSeen records).2 = records ∨
      ∃ front bad back, records = front ++ bad :: back ∧ Decodable front ∧ ¬ bad.Decodable ∧
        ∃ target ∈ front, (target.key == key) = true) := by
  refine @sweep_refused _ _ (· == key) KvpPoolStore.InsertScan.pass _ _ _ ?_ ?_
    insertion_refuses stopped
  · exact fun scan record decodable => ⟨_, insertion_of_decodable decodable key value scan⟩
  · intro record decodable untargeted scan
    rw [insertion_of_decodable decodable, if_neg (by simpa using untargeted)]
    rfl

/-- The cap is found exceeded only when the pass has changed nothing. -/
private theorem insertion_full_kept {key value : Text} {records final : List RawRecord}
    {scan : KvpPoolStore.InsertScan}
    (passed : sweep (insertion key value) noneSeen records = (.ok scan, final))
    (missing : ¬ scan.found = true) : final = records := by
  have decodable : Decodable records := by
    intro record member
    have ended : (sweep (insertion key value) noneSeen records).1 = .ok scan := by rw [passed]
    obtain ⟨state, outcome, accepted⟩ := Sweep.accepted_of_sweep_ok ended record member
    by_contra undecodable
    obtain ⟨error, bad⟩ := RawRecord.not_decodable_iff.mp undecodable
    rw [insertion_refuses state record error bad] at accepted
    cases accepted
  cases first : records.find? (·.key == key) with
  | none =>
      have absent : ∀ record ∈ records, record.key ≠ key := by
        simpa using List.find?_eq_none.mp first
      rw [sweep_insertion_absent key value noneSeen records decodable absent] at passed
      exact (Prod.mk.inj passed).2.symm
  | some target =>
      obtain ⟨same, front, back, rfl, before⟩ := List.find?_eq_some_iff_append.mp first
      obtain ⟨last, rest, ended, found, -⟩ := sweep_insertion_present key value front back target
        decodable (by simpa using before) (by simpa using same)
      rw [ended] at passed
      obtain rfl := Except.ok.inj (Prod.mk.inj passed).1
      exact absurd found missing

private theorem deletion_rejected {β : Type} {update : Update} {targeted : Text → Bool}
    {note : β → β} {noted : β} {reply : β → UpdateReply} {records : List RawRecord}
    {error : KvpError}
    (rejected : (swept reply (sweep (removal targeted note) noted records)).1 = .error error)
    (targets : update.targets = some targeted) :
    (swept reply (sweep (removal targeted note) noted records)).2 = records ∨
      FoundLate update records error := by
  cases passed : sweep (removal targeted note) noted records with
  | mk result final =>
      rw [passed] at rejected
      cases result with
      | ok last => cases rejected
      | error io =>
          obtain rfl : KvpError.io io = error := Except.error.inj rejected
          have stopped : (sweep (removal targeted note) noted records).1 = .error io := by
            rw [passed]
          obtain ⟨kind, kept | ⟨front, bad, back, late⟩⟩ := removal_sweep_refused stopped
          · left
            rw [passed] at kept
            exact kept
          · exact .inr ⟨⟨io, rfl, kind⟩, targeted, front, bad, back, targets, late⟩

private theorem insertion_rejected {update : Update} {key value : Text}
    {records : List RawRecord} {error : KvpError}
    (rejected : (insertEnd key value (sweep (insertion key value) noneSeen records)).1 =
      .error error)
    (targets : update.targets = some (· == key)) :
    (insertEnd key value (sweep (insertion key value) noneSeen records)).2 = records ∨
      FoundLate update records error := by
  cases passed : sweep (insertion key value) noneSeen records with
  | mk result final =>
      rw [passed] at rejected
      cases result with
      | error io =>
          obtain rfl : KvpError.io io = error := Except.error.inj rejected
          have stopped : (sweep (insertion key value) noneSeen records).1 = .error io := by
            rw [passed]
          obtain ⟨kind, kept | ⟨front, bad, back, late⟩⟩ := insertion_sweep_refused stopped
          · left
            rw [passed] at kept
            exact kept
          · exact .inr ⟨⟨io, rfl, kind⟩, _, front, bad, back, targets, late⟩
      | ok scan =>
          simp only [insertEnd] at rejected ⊢
          split at rejected
          · cases rejected
          rename_i missing
          split at rejected
          · rename_i full
            rw [if_neg missing, if_pos full]
            exact .inl (insertion_full_kept passed missing)
          · cases rejected

/-- A rejected update of a list leaves it as it was, or has met invalid UTF-8 behind
a record it targets. -/
theorem onList_rejected {records : List RawRecord} {update : Update} {error : KvpError}
    (rejected : (update.onList records).1 = .error error) :
    (update.onList records).2 = records ∨ FoundLate update records error := by
  cases update with
  | append mode key value =>
      simp only [Update.onList] at rejected ⊢
      split at rejected
      · exact .inl rfl
      · cases rejected
  | appendMultiple mode added =>
      simp only [Update.onList] at rejected ⊢
      split at rejected
      · cases rejected
      rename_i nonempty
      rw [if_neg nonempty]
      split at rejected
      · exact .inl rfl
      · cases rejected
  | insert mode key value =>
      simp only [Update.onList] at rejected ⊢
      split at rejected
      · exact .inl rfl
      exact insertion_rejected rejected rfl
  | delete key =>
      simp only [Update.onList] at rejected ⊢
      split at rejected
      · exact .inl rfl
      exact deletion_rejected rejected rfl
  | deleteMultiple keys =>
      simp only [Update.onList] at rejected ⊢
      split at rejected
      · exact .inl rfl
      rename_i targeted collected
      split at rejected
      · cases rejected
      rename_i some
      rw [if_neg some]
      refine deletion_rejected rejected ?_
      simp only [Update.targets, mem_collectKeys collected, List.contains_eq_mem]
  | load mode added =>
      simp only [Update.onList] at rejected ⊢
      split at rejected
      · exact .inl rfl
      rename_i uniqueKeys accepted
      split at rejected
      · rename_i tooMany
        rw [if_pos tooMany]
        exact .inl rfl
      · cases rejected
  | clear => cases rejected

/-- An update other than `clear` that is rejected leaves the bytes of the file as
they were, whatever they are, or has met invalid UTF-8 behind a targeted record. -/
theorem rejected_update_keeps_bytes {world : World} {update : Update} {error : KvpError}
    (notClear : update ≠ .clear) (rejected : (update.execute world).1 = .error error) :
    (update.execute world).2.bytes = world.bytes ∨
      world.Framed ∧ FoundLate update world.records error := by
  by_cases framed : world.Framed
  · obtain ⟨result, bytes⟩ := update_execute framed update
    rw [result] at rejected
    refine (onList_rejected rejected).imp (fun kept => ?_) fun late => ⟨framed, late⟩
    rw [bytes, kept, framed.bytes_eq]
  · left
    have kept := execute_of_ensures (@misframed_kept noFaults world framed update notClear)
    rw [← Update.execute, rejected] at kept
    exact kept

/-- A pool file of a single byte. -/
def oneByte : World := { file := some { bytes := [1], mtime := 0 }, now := 0, bootTime := 0 }

theorem rejected_update_keeps_bytes_oneByte :
    ((Update.append .safe ['k'] ['0']).execute oneByte).2.bytes = oneByte.bytes ∨
      oneByte.Framed ∧ FoundLate (.append .safe ['k'] ['0']) oneByte.records
        (.io { kind := .other, message :=
          "file size (1) is not a multiple of record size (2560)".toList }) :=
  rejected_update_keeps_bytes (by decide) (by rfl)

/-- A record whose key field holds a byte that no UTF-8 text contains. -/
def undecodableRecord : RawRecord := ⟨List.replicate recordSize 255, List.length_replicate⟩

theorem undecodableRecord_decode :
    undecodableRecord.decode = .error { kind := .invalidData } := by
  have noText : Utf8.decode? ((undecodableRecord.toList.take wireMaxKeyBytes).take
      ((undecodableRecord.toList.take wireMaxKeyBytes).findIdx (· == 0))) = none := by
    cases decoded : Utf8.decode? _ with
    | none => rfl
    | some text =>
        have bytes := Utf8.encode_of_decode? decoded
        have member : (255 : UInt8) ∈ Utf8.encode text := by
          rw [bytes]
          decide +kernel
        exact absurd member (Utf8.not_mem_encode_of_le (by decide))
  rw [RawRecord.decode, decodeRecord_eq undecodableRecord.toList_length, decodeField, noText]
  rfl

/-- A pool with one record in front of an undecodable one. -/
def invalidBehind : World where
  file := some { bytes := image [RawRecord.encode ['k'] ['0'], undecodableRecord], mtime := 0 }
  now := 0
  bootTime := 0

/-- The insertion reports invalid UTF-8 after it has overwritten the first record. -/
theorem insert_changes_then_fails :
    ((Update.insert .safe ['k'] ['1']).execute invalidBehind).1 =
        .error (.io { kind := .invalidData }) ∧
      ((Update.insert .safe ['k'] ['1']).execute invalidBehind).2.bytes ≠ invalidBehind.bytes := by
  have records : invalidBehind.records = [RawRecord.encode ['k'] ['0'], undecodableRecord] :=
    World.records_of_image rfl
  have framed : invalidBehind.Framed := World.framed_of_image rfl
  obtain ⟨decodable, key, value⟩ :=
    @fields_encode .safe ['k'] ['0'] (by decide)
  have accepted : KvpPoolStore.validateRecord .safe ['k'] ['1'] = .ok () := by decide
  have stored : ((RawRecord.encode ['k'] ['0']).setValue ['1']).value = ['1'] := by
    have decoded : (RawRecord.encode ['k'] ['0']).decode = .ok (['k'], ['0']) := by
      rw [decodable, key, value]
    exact (RawRecord.decodable_of_decode
      (RawRecord.decode_setValue decoded (by decide) (by decide))).2.2
  have replaced : insertion ['k'] ['1'] noneSeen (RawRecord.encode ['k'] ['0']) =
      .ok (.replace ((RawRecord.encode ['k'] ['0']).setValue ['1']),
        { found := true, uniqueKeys := {['k']} }) := by
    rw [insertion_of_decodable decodable, key]
    rfl
  have refused := @insertion_refuses ['k'] ['1']
    { found := true, uniqueKeys := {['k']} } _ _ undecodableRecord_decode
  have changed : (Update.insert .safe ['k'] ['1']).onList invalidBehind.records =
      (.error (.io { kind := .invalidData }),
        [(RawRecord.encode ['k'] ['0']).setValue ['1'], undecodableRecord]) := by
    simp only [records, Update.onList, accepted]
    rw [Sweep.sweep_cons_ok replaced, Sweep.Edit.remaining_replace, Sweep.sweep_cons_error refused]
    rfl
  obtain ⟨result, bytes⟩ := update_execute framed (.insert .safe ['k'] ['1'])
  rw [changed] at result bytes
  refine ⟨result, fun same => ?_⟩
  rw [bytes, framed.bytes_eq, records] at same
  have sameRecords := Blocks.image_injective recordSize_pos same
  have sameFirst := (List.cons.inj sameRecords).1
  rw [sameFirst, value] at stored
  exact absurd stored (by decide)

end AzureInit.Kvp
