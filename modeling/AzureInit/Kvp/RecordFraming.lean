import Mathlib.Data.List.TakeWhile
import AzureInit.Foundation.DelimitedText
import AzureInit.Kvp.IterBookkeeping
import AzureInit.Kvp.ListRefinement

/-! The record codec and the framing of a pool file. What can be stored is read back,
record by record, and records that other programs have stored are encoded again up to
what lies behind the first NUL of a field. -/

set_option autoImplicit false

namespace AzureInit.Kvp

open Foundation
open Blocks (image)
open Walk (Cursor Move)

/-! ## Storable records -/

/-- A key and a value that their fields have room for. -/
structure Storable (record : Text × Text) : Prop where
  nonempty : record.1 ≠ []
  keyNulFree : '\x00' ∉ record.1
  keyFits : Utf8.byteLength record.1 ≤ wireMaxKeyBytes
  valueNulFree : '\x00' ∉ record.2
  valueFits : Utf8.byteLength record.2 ≤ wireMaxValueBytes

/-- The records that can be stored are those that the store takes in unsafe mode. -/
theorem storable_iff {key value : Text} :
    Storable (key, value) ↔ KvpPoolStore.validateRecord .unsafe_ key value = .ok () := by
  rw [validateRecord_eq_ok_iff, validateKey_eq_ok_iff, validateValue_eq_ok_iff]
  constructor
  · intro storable
    exact ⟨⟨storable.nonempty, storable.keyNulFree, storable.keyFits⟩,
      storable.valueNulFree, storable.valueFits⟩
  · intro valid
    obtain ⟨⟨nonempty, keyNulFree, keyFits⟩, valueNulFree, valueFits⟩ := valid
    exact ⟨nonempty, keyNulFree, keyFits, valueNulFree, valueFits⟩

theorem Storable.decode_encode {record : Text × Text} (storable : Storable record) :
    (RawRecord.encode record.1 record.2).decode = .ok record :=
  decode_encode_of_validateRecord (storable_iff.mp storable)

/-- The encodings of some records, one behind the other. -/
def encodings (records : List (Text × Text)) : List UInt8 :=
  records.flatMap fun (key, value) => encodeRecord key value

theorem image_encodeAll (records : List (Text × Text)) :
    image (encodeAll records) = encodings records := by
  rw [image, encodeAll, List.flatMap_map]
  rfl

theorem encodeAll_append (front back : List (Text × Text)) :
    encodeAll (front ++ back) = encodeAll front ++ encodeAll back :=
  List.map_append

theorem decode_encodeAll {records : List (Text × Text)}
    (storable : ∀ record ∈ records, Storable record) :
    (encodeAll records).map RawRecord.decode = records.map .ok := by
  rw [encodeAll, List.map_map]
  exact List.map_congr_left fun record member => (storable record member).decode_encode

/-! ## Iteration -/

/-- What an iterator that is opened on a file of storable records yields. -/
theorem willYield_of_encodings {records : List (Text × Text)} {world : World} {readOnly : Bool}
    {start : IterState} (storable : ∀ record ∈ records, Storable record)
    (bytes : world.bytes = encodings records) (opened : NewIter readOnly world start) :
    WillYield (records.map .ok) start := by
  rw [← image_encodeAll] at bytes
  rw [← decode_encodeAll storable]
  exact willYield_ahead (opened.standing bytes)

/-- A call that changes a record of the file or takes one out. -/
def IterCall.edits : IterCall → Bool
  | .overwriteCurrentValue _ | .removeCurrent => true
  | .next | .append _ _ | .flush => false

/-- The record that a call appends. -/
def IterCall.record? : IterCall → Option (Text × Text)
  | .append key value => some (key, value)
  | .next | .overwriteCurrentValue _ | .removeCurrent | .flush => none

def appendedRecords (events : List IterEvent) : List (Text × Text) :=
  events.filterMap fun event => event.call.record?

/-- A run that reads and appends, and appends these records. -/
structure IsAppending (start : IterState) (more : List (Text × Text))
    (events : List IterEvent) : Prop where
  run : IsRun start events
  reads : ∀ event ∈ events, event.call.edits = false
  appended : appendedRecords events = more

/-- Behind a run the file holds some records, and they are what is yielded: to the
iterator of the run from its first call on, and to any other that is opened then. -/
structure Holding (records : List (Text × Text)) (start : IterState)
    (events : List IterEvent) : Prop where
  bytes : (stateAfter start events).world.bytes = encodings records
  pending : ∃ rest, yielded events ++ rest = records.map .ok ∧
    WillYield rest (stateAfter start events)
  reopened : ∀ readOnly again, NewIter readOnly (stateAfter start events).world again →
    WillYield (records.map .ok) again

theorem IterCall.move_grows {call : IterCall} (reads : call.edits = false) :
    call.move.Grows := by
  cases call with
  | next | append | flush => trivial
  | overwriteCurrentValue | removeCurrent => cases reads

theorem IterCall.appended_move (call : IterCall) :
    call.move.appended = call.record?.map fun record => RawRecord.encode record.1 record.2 := by
  cases call <;> rfl

theorem encodeAll_appendedRecords (events : List IterEvent) :
    (events.map fun event => event.call.move).filterMap Move.appended =
      encodeAll (appendedRecords events) := by
  rw [List.filterMap_map, encodeAll, appendedRecords, List.map_filterMap]
  exact List.filterMap_congr fun event _ => event.call.appended_move

theorem sparesFinal_of_reads {start : IterState} {events : List IterEvent}
    (reads : ∀ event ∈ events, event.call.edits = false) : SparesFinal start events := by
  induction events generalizing start with
  | nil => trivial
  | cons event later ih =>
      obtain ⟨first, others⟩ := List.forall_mem_cons.mp reads
      refine ⟨?_, ih others⟩
      intro removes
      rw [removes.1] at first
      cases first

/-- Whatever is read on the way, all records are yielded in the order of the file. -/
theorem holding_of_appends {records more : List (Text × Text)} {world : World} {readOnly : Bool}
    {start : IterState} {events : List IterEvent}
    (storable : ∀ record ∈ records ++ more, Storable record)
    (bytes : world.bytes = encodings records) (opened : NewIter readOnly world start)
    (appending : IsAppending start more events) : Holding (records ++ more) start events := by
  obtain ⟨run, reads, rfl⟩ := appending
  rw [← image_encodeAll] at bytes
  obtain ⟨reached, outputs⟩ :=
    run_follows (opened.standing bytes) run (sparesFinal_of_reads reads)
  have grows : ∀ move ∈ events.map fun event => event.call.move, move.Grows := by
    intro move member
    obtain ⟨event, called, rfl⟩ := List.mem_map.mp member
    exact IterCall.move_grows (reads event called)
  obtain ⟨elements, pending⟩ := Cursor.performAll_grows ⟨[], encodeAll records⟩ grows
  have before : Cursor.elements ⟨[], encodeAll records⟩ = encodeAll records := rfl
  rw [before, encodeAll_appendedRecords, ← encodeAll_append] at elements
  rw [encodeAll_appendedRecords, ← encodeAll_append] at pending
  have file : (stateAfter start events).world.bytes =
      encodings (records ++ appendedRecords events) := by
    rw [reached.agrees.bytes, elements, image_encodeAll]
  generalize Cursor.performAll ⟨[], encodeAll records⟩ (events.map fun event => event.call.move)
    = cursor at reached pending
  refine ⟨file, ⟨cursor.ahead.map RawRecord.decode, ?_, willYield_ahead reached⟩, ?_⟩
  · rw [outputs, ← List.map_append, pending, decode_encodeAll storable]
  · intro other again reopened
    exact willYield_of_encodings storable file reopened

theorem exists_appending (start : IterState) (more : List (Text × Text)) :
    ∃ events, IsAppending start more events := by
  obtain ⟨events, run, calls⟩ :=
    exists_run start (more.map fun record => .append record.1 record.2)
  refine ⟨events, run, ?_, ?_⟩
  · intro event member
    have called : event.call ∈ events.map fun event => event.call :=
      List.mem_map_of_mem member
    rw [calls] at called
    obtain ⟨record, -, same⟩ := List.mem_map.mp called
    rw [← same]
    rfl
  · have records : appendedRecords events =
        (events.map fun event => event.call).filterMap IterCall.record? := by
      rw [List.filterMap_map]
      rfl
    rw [records, calls, List.filterMap_map]
    exact List.filterMap_some

/-! ## Records of other programs -/

/-- The bytes of a field up to its first NUL, with zeros behind them to its end. -/
structure CutAtNul (field cut : List UInt8) : Prop where
  length : cut.length = field.length
  front : ∀ position : Nat, (∀ earlier ≤ position, field[earlier]? ≠ some 0) →
    cut[position]? = field[position]?
  behind : ∀ position < field.length, (∃ earlier ≤ position, field[earlier]? = some 0) →
    cut[position]? = some 0

theorem zeroPadded_length (bytes : List UInt8) : zeroPadded bytes.length bytes = bytes := by
  rw [zeroPadded, List.take_length, Nat.sub_self, List.replicate_zero, List.append_nil]

theorem CutAtNul.of_not_mem {field : List UInt8} (nulFree : 0 ∉ field) :
    CutAtNul field field where
  length := rfl
  front _ _ := rfl
  behind position _ broken := by
    obtain ⟨earlier, -, nul⟩ := broken
    exact absurd (List.mem_of_getElem? nul) nulFree

theorem CutAtNul.of_split {front rest : List UInt8} (nulFree : 0 ∉ front) :
    CutAtNul (front ++ 0 :: rest) (front ++ List.replicate (rest.length + 1) 0) where
  length := by simp
  front position unbroken := by
    have inside : position < front.length := by
      by_contra behind
      exact unbroken front.length (Nat.le_of_not_lt behind) (by simp)
    rw [List.getElem?_append_left inside, List.getElem?_append_left inside]
  behind position inside broken := by
    obtain ⟨earlier, before, nul⟩ := broken
    have reached : front.length ≤ position := by
      by_contra inFront
      rw [List.getElem?_append_left (by omega)] at nul
      exact nulFree (List.mem_of_getElem? nul)
    rw [List.length_append, List.length_cons] at inside
    rw [List.getElem?_append_right reached, List.getElem?_replicate, if_pos (by omega)]

theorem cutAtNul_zeroPadded (field : List UInt8) :
    CutAtNul field (zeroPadded field.length (field.takeWhile (· != 0))) := by
  by_cases nul : 0 ∈ field
  · obtain ⟨front, rest, rfl, nulFree⟩ := List.eq_append_cons_of_mem nul
    have stopped : (front ++ 0 :: rest).takeWhile (· != 0) = front :=
      Delimited.takeWhile_append_cons rest nulFree
    have padded : zeroPadded (front ++ 0 :: rest).length front =
        front ++ List.replicate (rest.length + 1) 0 := by
      rw [zeroPadded, List.take_of_length_le (by simp), List.length_append,
        Nat.add_sub_cancel_left, List.length_cons]
    rw [stopped, padded]
    exact .of_split nulFree
  · have whole : field.takeWhile (· != 0) = field := by
      apply List.takeWhile_eq_self_iff.mpr
      intro byte member
      exact bne_iff_ne.mpr fun same => nul (same ▸ member)
    rw [whole, zeroPadded_length]
    exact .of_not_mem nul

/-- A record that is decoded is encoded again as what its fields hold up to a NUL. -/
theorem encodeRecord_of_decodeRecord {data : List UInt8} {key value : Text}
    (decoded : decodeRecord data = .ok (key, value)) :
    CutAtNul (data.take wireMaxKeyBytes) ((encodeRecord key value).take wireMaxKeyBytes) ∧
      CutAtNul (data.drop wireMaxKeyBytes) ((encodeRecord key value).drop wireMaxKeyBytes) := by
  obtain ⟨size, keyRead, valueRead⟩ := decodeRecord_eq_ok_iff.mp decoded
  have keyLength : (data.take wireMaxKeyBytes).length = wireMaxKeyBytes := by
    rw [List.length_take, size]
    rfl
  have valueLength : (data.drop wireMaxKeyBytes).length = wireMaxValueBytes := by
    rw [List.length_drop, size]
    rfl
  have keyCut := cutAtNul_zeroPadded (data.take wireMaxKeyBytes)
  have valueCut := cutAtNul_zeroPadded (data.drop wireMaxKeyBytes)
  rw [keyLength, ← decodeField_eq_ok_iff.mp keyRead] at keyCut
  rw [valueLength, ← decodeField_eq_ok_iff.mp valueRead] at valueCut
  rw [encodeRecord, List.take_left' (length_zeroPadded _ _),
    List.drop_left' (length_zeroPadded _ _)]
  exact ⟨keyCut, valueCut⟩

/-! ## Fields without a NUL byte -/

/-- A record that fills its fields has no terminator in them. -/
theorem encodeRecord_of_fullWidth {key value : Text} (keyFull : Utf8.byteLength key = wireMaxKeyBytes)
    (valueFull : Utf8.byteLength value = wireMaxValueBytes) :
    encodeRecord key value = Utf8.encode key ++ Utf8.encode value := by
  rw [← Utf8.length_encode] at keyFull valueFull
  rw [encodeRecord, ← keyFull, ← valueFull, zeroPadded_length, zeroPadded_length]

def fullWidthKey : Text := List.replicate wireMaxKeyBytes 'k'

def fullWidthValue : Text := List.replicate wireMaxValueBytes 'v'

theorem byteLength_replicate {c : Char} (ascii : c.toNat < 128) (count : Nat) :
    Utf8.byteLength (List.replicate count c) = count := by
  rw [Utf8.byteLength_of_ascii, List.length_replicate]
  intro other member
  rwa [List.eq_of_mem_replicate member]

theorem byteLength_fullWidthKey : Utf8.byteLength fullWidthKey = wireMaxKeyBytes :=
  byteLength_replicate (by decide) _

theorem byteLength_fullWidthValue : Utf8.byteLength fullWidthValue = wireMaxValueBytes :=
  byteLength_replicate (by decide) _

theorem fullWidth_storable : Storable (fullWidthKey, fullWidthValue) where
  nonempty := List.ne_nil_of_length_pos (by rw [fullWidthKey, List.length_replicate]; decide)
  keyNulFree := by simp [fullWidthKey]
  keyFits := Nat.le_of_eq byteLength_fullWidthKey
  valueNulFree := by simp [fullWidthValue]
  valueFits := Nat.le_of_eq byteLength_fullWidthValue

/-! ## The codec and the file -/

/-- Storable records are read back, alone and from the file that their encodings make,
and what is appended to the file is read behind them. A record that another program has
stored is encoded again as what its fields hold up to the first NUL. -/
theorem records_are_framed_exactly :
    (∀ key value, Storable (key, value) →
      decodeRecord (encodeRecord key value) = .ok (key, value)) ∧
    (∀ (records : List (Text × Text)) (world : World) (readOnly : Bool),
      (∀ record ∈ records, Storable record) → world.bytes = encodings records →
      (∃ start, NewIter readOnly world start) ∧
      ∀ start, NewIter readOnly world start → WillYield (records.map .ok) start ∧
        ∀ more, (∀ record ∈ more, Storable record) →
          (∃ events, IsAppending start more events) ∧
          ∀ events, IsAppending start more events → Holding (records ++ more) start events) ∧
    ∀ data key value, decodeRecord data = .ok (key, value) →
      data.length = recordSize ∧
      CutAtNul (data.take wireMaxKeyBytes) ((encodeRecord key value).take wireMaxKeyBytes) ∧
      CutAtNul (data.drop wireMaxKeyBytes) ((encodeRecord key value).drop wireMaxKeyBytes) := by
  refine ⟨?_, ?_, ?_⟩
  · intro key value storable
    exact storable.decode_encode
  · intro records world readOnly storable bytes
    have framed : world.Framed := by
      rw [← image_encodeAll] at bytes
      exact World.framed_of_image bytes
    refine ⟨exists_newIter framed readOnly, ?_⟩
    intro start opened
    refine ⟨willYield_of_encodings storable bytes opened, ?_⟩
    intro more moreStorable
    refine ⟨exists_appending start more, ?_⟩
    intro events appending
    refine holding_of_appends ?_ bytes opened appending
    exact List.forall_mem_append.mpr ⟨storable, moreStorable⟩
  · intro data key value decoded
    exact ⟨(decodeRecord_eq_ok_iff.mp decoded).1, encodeRecord_of_decodeRecord decoded⟩

theorem records_are_framed_exactly_fullWidth :
    0 ∉ encodeRecord fullWidthKey fullWidthValue ∧
      decodeRecord (encodeRecord fullWidthKey fullWidthValue) =
        .ok (fullWidthKey, fullWidthValue) := by
  refine ⟨?_, records_are_framed_exactly.1 _ _ fullWidth_storable⟩
  rw [encodeRecord_of_fullWidth byteLength_fullWidthKey byteLength_fullWidthValue,
    List.mem_append, not_or, Utf8.nul_mem_encode_iff, Utf8.nul_mem_encode_iff]
  exact ⟨fullWidth_storable.keyNulFree, fullWidth_storable.valueNulFree⟩

end AzureInit.Kvp
