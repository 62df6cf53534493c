import AzureInit.Foundation.EditedWalk
import AzureInit.Kvp.StoreProperties

/-! The iterator's bookkeeping over whole runs of its operations. Counters, cursor and
`size_hint` agree with the file, and every record is yielded once, as long as the record
that is removed is not the final one. -/

set_option autoImplicit false

namespace AzureInit.Kvp

open Foundation
open Blocks (image wholeBlocks)
open Walk (Cursor Move)

/-! ## Operations and runs -/

/-- What `next` yields: a decoded record, or why it is none. -/
abbrev IterItem : Type := Except IoError (Text × Text)

/-- The operations of an iterator that its owner may call in any order. -/
inductive IterCall where
  | next
  | overwriteCurrentValue (value : Text)
  | removeCurrent
  | append (key value : Text)
  | flush
  deriving DecidableEq, Repr

inductive IterReply where
  | item (item : Option IterItem)
  | result (result : Except IoError Unit)

/-- A mutating method: where it fails in its first check, the iterator stays as it is. -/
def updating (iter : KvpPoolIter) (method : Io KvpPoolIter) :
    Program Call Reply (IterReply × KvpPoolIter) := do
  match ← method.run with
  | .ok updated => return (.result (.ok ()), updated)
  | .error error => return (.result (.error error), iter)

def IterCall.perform (iter : KvpPoolIter) :
    IterCall → Program Call Reply (IterReply × KvpPoolIter)
  | .next => do
      let (item, iter) ← iter.next
      return (.item item, iter)
  | .overwriteCurrentValue value =>
      updating iter do
        iter.overwriteCurrentValue value
        return iter
  | .removeCurrent => updating iter iter.removeCurrent
  | .append key value => updating iter (iter.append key value)
  | .flush =>
      updating iter do
        KvpPoolIter.flush
        return iter

/-- An iterator with the file and the handle that it works on. -/
structure IterState where
  iter : KvpPoolIter
  world : World

/-- A call with its reply and the state that it leaves. -/
structure IterEvent where
  call : IterCall
  reply : IterReply
  after : IterState

/-- The calls follow each other, and none of them meets an I/O fault. -/
def IsRun : IterState → List IterEvent → Prop
  | _, [] => True
  | before, event :: later =>
      Program.Runs (HandleStep noFaults) (event.call.perform before.iter) before.world
        (event.reply, event.after.iter) event.after.world ∧ IsRun event.after later

def stateAfter (start : IterState) (events : List IterEvent) : IterState :=
  events.foldl (fun _ event => event.after) start

/-- An iterator as `KvpPoolIter::new` returns it for the file of a world. -/
def NewIter (readOnly : Bool) (world : World) (start : IterState) : Prop :=
  Program.Runs (HandleStep noFaults) (KvpPoolIter.new readOnly).run world (.ok start.iter)
    start.world

/-! ## The bookkeeping -/

def IterReply.yields : IterReply → Option IterItem
  | .item found => found
  | .result _ => none

/-- The item that an appended record is yielded as. -/
def IterCall.appends : IterCall → Option IterItem
  | .append key value => some (decodeRecord (encodeRecord key value))
  | .next | .overwriteCurrentValue _ | .removeCurrent | .flush => none

def yielded (events : List IterEvent) : List IterItem :=
  events.filterMap fun event => event.reply.yields

def appended (events : List IterEvent) : List IterItem :=
  events.filterMap fun event => event.call.appends

/-- The items of the records in a file. -/
def World.items (world : World) : List IterItem :=
  (wholeBlocks recordSize world.bytes).map RawRecord.decode

/-- Repeated `next` yields these items one after the other and then ends. -/
def WillYield : List IterItem → IterState → Prop
  | [], state =>
      Post (HandleStep noFaults) state.iter.next state.world fun result _ => result.1 = none
  | item :: items, state =>
      Post (HandleStep noFaults) state.iter.next state.world fun result after =>
        result.1 = some item ∧ WillYield items ⟨result.2, after⟩

/-- The iterator's books are in order behind the events so far. -/
structure Kept (start : IterState) (events : List IterEvent) : Prop where
  counted : (stateAfter start events).iter.recordCount * recordSize =
    (stateAfter start events).world.bytes.length
  inside : (stateAfter start events).iter.currentIndex ≤
    (stateAfter start events).iter.recordCount
  position : (stateAfter start events).world.position =
    (stateAfter start events).iter.currentIndex * recordSize
  /-- Nothing is lost or doubled: what was there or has been appended has been yielded
  or is still to come, and `size_hint` counts what is to come. -/
  pending : ∃ items, (stateAfter start events).iter.sizeHint = some items.length ∧
    WillYield items (stateAfter start events) ∧
    (yielded events ++ items).Perm (start.world.items ++ appended events)
  delivered : (stateAfter start events).iter.currentIndex =
      (stateAfter start events).iter.recordCount →
    (yielded events).Perm (start.world.items ++ appended events)

/-- A removal of the file's final record, which `next` has yielded last. -/
def RemovesFinal (before : IterState) (event : IterEvent) : Prop :=
  event.call = .removeCurrent ∧ before.iter.currentIndex ≠ 0 ∧
    before.iter.currentIndex = before.iter.recordCount

/-- No call of the run removes the file's final record. -/
def SparesFinal : IterState → List IterEvent → Prop
  | _, [] => True
  | before, event :: later => ¬ RemovesFinal before event ∧ SparesFinal event.after later

/-- Records are overwritten and removed behind a `next` that yielded one, and each is
removed once at most. -/
def Disciplined : (current : Bool) → List IterEvent → Prop
  | _, [] => True
  | current, event :: later =>
      match event.call, event.reply with
      | .next, .item (some (.ok _)) => Disciplined true later
      | .overwriteCurrentValue _, _ => current = true ∧ Disciplined current later
      | .removeCurrent, _ => current = true ∧ Disciplined false later
      | _, _ => Disciplined current later

/-! ## One operation -/

def IterCall.move : IterCall → Move RawRecord
  | .next => .advance
  | .overwriteCurrentValue value => .modify fun record => record.setValue value
  | .removeCurrent => .remove
  | .append key value => .append (RawRecord.encode key value)
  | .flush => .stay

/-- The iterator walks over the records of the file and stands at the cursor. -/
structure Standing (cursor : Cursor RawRecord) (iter : KvpPoolIter) (world : World) : Prop where
  agrees : iter.At cursor.elements world
  index : iter.currentIndex = cursor.passed.length

/-- What a call replies and leaves is what its move makes of the cursor. -/
def Follows (cursor : Cursor RawRecord) (call : IterCall) (result : IterReply × KvpPoolIter)
    (after : World) : Prop :=
  result.1.yields = (cursor.perform call.move).1.map RawRecord.decode ∧
    Standing (cursor.perform call.move).2 result.2 after

section Operation

variable {cursor : Cursor RawRecord} {iter : KvpPoolIter} {world : World}
  {passed ahead : List RawRecord} {last : RawRecord}

theorem standing_nil_iff :
    Standing ⟨[], ahead⟩ iter world ↔ iter.At ahead world ∧ iter.currentIndex = 0 :=
  ⟨fun standing => ⟨standing.agrees, standing.index⟩, fun holds => ⟨holds.1, holds.2⟩⟩

/-- Behind a record that has been passed, the file is what is in front of it, that
record and what is ahead. -/
theorem standing_concat_iff :
    Standing ⟨passed ++ [last], ahead⟩ iter world ↔
      iter.At (passed ++ last :: ahead) world ∧ iter.currentIndex = passed.length + 1 := by
  have same : (passed ++ [last]) ++ ahead = passed ++ last :: ahead := by simp
  have length : (passed ++ [last]).length = passed.length + 1 := by simp
  constructor
  · intro standing
    have agrees := standing.agrees
    rw [Cursor.elements, same] at agrees
    exact ⟨agrees, standing.index.trans length⟩
  · intro holds
    refine ⟨?_, holds.2.trans length.symm⟩
    rw [Cursor.elements, same]
    exact holds.1

theorem next_moves (standing : Standing cursor iter world) :
    Post (HandleStep noFaults) iter.next world fun outcome after =>
      outcome.1 = (cursor.perform .advance).1.map RawRecord.decode ∧
        Standing (cursor.perform .advance).2 outcome.2 after := by
  obtain ⟨passed, ahead⟩ := cursor
  have index : iter.currentIndex = passed.length := standing.index
  have between : iter.Between passed ahead world := by
    refine ⟨standing.agrees, fun _ => index, ?_⟩
    intro ended
    rw [standing.agrees.count, index, ended]
    simp [Cursor.elements]
  cases ahead with
  | nil =>
      rw [KvpPoolIter.next_ended between rfl]
      exact post_pure_iff.mpr ⟨rfl, standing⟩
  | cons head tail =>
      refine Post.imp (KvpPoolIter.next_post between) ?_
      intro outcome after reached
      obtain ⟨file, ⟨rfl, position⟩ | ⟨fault, -⟩⟩ := reached
      · have bytes := World.bytes_eq_of_file_eq file
        refine ⟨rfl, standing_concat_iff.mpr ⟨⟨?_, standing.agrees.count, ?_⟩, ?_⟩⟩
        · exact bytes.trans standing.agrees.bytes
        · rw [position, index]
        · rw [index]
      · exact absurd fault not_faulted_noFaults

theorem next_follows (standing : Standing cursor iter world) :
    Post (HandleStep noFaults) (IterCall.next.perform iter) world (Follows cursor .next) := by
  rw [IterCall.perform, post_bind_iff]
  refine Post.imp (next_moves standing) ?_
  intro outcome after moved
  exact post_pure_iff.mpr moved

/-- A method that changes the file as its move changes the cursor, or is refused where
there is nothing to change. -/
theorem updating_follows {call : IterCall} {method : Io KvpPoolIter}
    (silent : (cursor.perform call.move).1 = none)
    (ensured : Ensures (HandleStep noFaults) method world
      (Standing (cursor.perform call.move).2)
      (fun _ => Standing (cursor.perform call.move).2 iter)) :
    Post (HandleStep noFaults) (updating iter method) world (Follows cursor call) := by
  unfold updating
  rw [post_bind_iff]
  refine Post.imp ensured ?_
  intro result after reached
  cases result with
  | ok updated => exact post_pure_iff.mpr ⟨by rw [silent]; rfl, reached⟩
  | error error => exact post_pure_iff.mpr ⟨by rw [silent]; rfl, reached⟩

theorem overwriteCurrentValue_follows (standing : Standing cursor iter world) (value : Text) :
    Post (HandleStep noFaults) ((IterCall.overwriteCurrentValue value).perform iter) world
      (Follows cursor (.overwriteCurrentValue value)) := by
  obtain ⟨passed, ahead⟩ := cursor
  rw [IterCall.perform]
  cases List.eq_nil_or_concat passed with
  | inl empty =>
      subst empty
      apply updating_follows rfl
      rw [KvpPoolIter.overwriteCurrentValue, if_pos (standing_nil_iff.mp standing).2]
      refine ensures_bind_iff.mpr (ensures_throw_iff.mpr ?_)
      exact standing
  | inr split =>
      obtain ⟨front, last, rfl⟩ := split
      rw [List.concat_eq_append] at *
      obtain ⟨agrees, index⟩ := standing_concat_iff.mp standing
      apply updating_follows (by rw [IterCall.move, Cursor.perform_modify_concat])
      rw [IterCall.move, Cursor.perform_modify_concat]
      refine Ensures.bind (KvpPoolIter.overwriteCurrentValue_ensures agrees index value) ?_ ?_
      · exact fun _ _ torn => absurd torn.1 not_faulted_noFaults
      · intro _ after written
        exact ensures_pure_iff.mpr (standing_concat_iff.mpr ⟨written, index⟩)

theorem removeCurrent_follows (standing : Standing cursor iter world)
    (spares : iter.currentIndex ≠ 0 → iter.currentIndex ≠ iter.recordCount) :
    Post (HandleStep noFaults) (IterCall.removeCurrent.perform iter) world
      (Follows cursor .removeCurrent) := by
  obtain ⟨passed, ahead⟩ := cursor
  rw [IterCall.perform]
  cases List.eq_nil_or_concat passed with
  | inl empty =>
      subst empty
      apply updating_follows rfl
      rw [KvpPoolIter.removeCurrent, if_pos (standing_nil_iff.mp standing).2]
      exact ensures_throw_iff.mpr standing
  | inr split =>
      obtain ⟨front, last, rfl⟩ := split
      rw [List.concat_eq_append] at *
      obtain ⟨agrees, index⟩ := standing_concat_iff.mp standing
      have more : ahead ≠ [] := by
        intro ended
        apply spares
        · rw [index]
          exact Nat.succ_ne_zero _
        · rw [agrees.count, index, ended]
          simp
      apply updating_follows (by rw [IterCall.move, Cursor.perform_remove_concat])
      rw [IterCall.move, Cursor.perform_remove_concat]
      apply (KvpPoolIter.removeCurrent_ensures agrees index).imp
      · intro updated after removed
        obtain ⟨left, back⟩ := removed
        rw [if_neg more] at back
        exact ⟨left, back⟩
      · exact fun _ _ torn => absurd torn.1 not_faulted_noFaults

theorem append_follows (standing : Standing cursor iter world) (key value : Text) :
    Post (HandleStep noFaults) ((IterCall.append key value).perform iter) world
      (Follows cursor (.append key value)) := by
  obtain ⟨passed, ahead⟩ := cursor
  rw [IterCall.perform]
  apply updating_follows rfl
  rw [IterCall.move, Cursor.perform_append]
  apply (KvpPoolIter.append_ensures standing.agrees key value).imp
  · intro updated after grown
    obtain ⟨agrees, index⟩ := grown
    refine ⟨?_, index.trans standing.index⟩
    rwa [Cursor.elements, ← List.append_assoc]
  · exact fun _ _ torn => absurd torn.1 not_faulted_noFaults

theorem flush_follows (standing : Standing cursor iter world) :
    Post (HandleStep noFaults) (IterCall.flush.perform iter) world (Follows cursor .flush) := by
  rw [IterCall.perform]
  apply updating_follows rfl
  refine Ensures.bind (ensures_sync (by simp)) ?_ ?_
  · exact fun _ _ untouched => absurd untouched.2 not_faulted_noFaults
  · intro _ after kept
    obtain ⟨file, position⟩ := kept
    refine ensures_pure_iff.mpr ⟨⟨?_, standing.agrees.count, ?_⟩, standing.index⟩
    · rw [World.bytes_eq_of_file_eq file]
      exact standing.agrees.bytes
    · rw [position]
      exact standing.agrees.position

/-- Every operation but the removal of the final record is a move of the cursor. -/
theorem perform_follows (standing : Standing cursor iter world) (call : IterCall)
    (spares : call = .removeCurrent → iter.currentIndex ≠ 0 →
      iter.currentIndex ≠ iter.recordCount) :
    Post (HandleStep noFaults) (call.perform iter) world (Follows cursor call) := by
  cases call with
  | next => exact next_follows standing
  | overwriteCurrentValue value => exact overwriteCurrentValue_follows standing value
  | removeCurrent => exact removeCurrent_follows standing (spares rfl)
  | append key value => exact append_follows standing key value
  | flush => exact flush_follows standing

/-- The removal of the final record leaves the cursor behind the end. -/
theorem removeCurrent_final (agrees : iter.At (passed ++ [last]) world)
    (index : iter.currentIndex = passed.length + 1) :
    Post (HandleStep noFaults) (IterCall.removeCurrent.perform iter) world
      fun result _ => result.2.recordCount < result.2.currentIndex := by
  rw [IterCall.perform, updating, post_bind_iff]
  refine Post.imp (KvpPoolIter.removeCurrent_ensures agrees index) ?_
  intro result after removed
  cases result with
  | ok updated =>
      obtain ⟨left, back⟩ := removed
      refine post_pure_iff.mpr ?_
      rw [left.count, back]
      simp
  | error error => exact absurd removed.1 not_faulted_noFaults

end Operation

/-! ## Runs -/

theorem stateAfter_cons (start : IterState) (event : IterEvent) (later : List IterEvent) :
    stateAfter start (event :: later) = stateAfter event.after later :=
  rfl

/-- The cursor that a run's iterator stands at, and what has been yielded on the way. -/
theorem run_follows {cursor : Cursor RawRecord} {start : IterState} {events : List IterEvent}
    (standing : Standing cursor start.iter start.world) (run : IsRun start events)
    (spares : SparesFinal start events) :
    Standing (cursor.performAll (events.map fun event => event.call.move))
        (stateAfter start events).iter (stateAfter start events).world ∧
      yielded events = (cursor.handedOut (events.map fun event => event.call.move)).map
        RawRecord.decode := by
  induction events generalizing cursor start with
  | nil => exact ⟨standing, rfl⟩
  | cons event later ih =>
      obtain ⟨performed, continued⟩ := run
      obtain ⟨spared, sparesLater⟩ := spares
      have followed : Follows cursor event.call (event.reply, event.after.iter)
          event.after.world := by
        apply perform_follows standing event.call
        · intro removal behind final
          exact spared ⟨removal, behind, final⟩
        · exact performed
      obtain ⟨yields, moved⟩ := followed
      obtain ⟨reached, outputs⟩ := ih moved continued sparesLater
      refine ⟨reached, ?_⟩
      have first : yielded (event :: later) = event.reply.yields.toList ++ yielded later := by
        unfold yielded
        cases item : event.reply.yields <;> simp [item]
      rw [first, yields, outputs, List.map_cons, Cursor.handedOut, List.map_append]
      cases (cursor.perform event.call.move).1 <;> rfl

theorem IterCall.appends_eq (call : IterCall) :
    call.appends = call.move.appended.map RawRecord.decode := by
  cases call <;> rfl

theorem appended_eq (events : List IterEvent) :
    appended events = ((events.map fun event => event.call.move).filterMap
      Move.appended).map RawRecord.decode := by
  rw [List.filterMap_map, List.map_filterMap]
  exact List.filterMap_congr fun event _ => event.call.appends_eq

/-- Repeated `next` yields the records ahead of the cursor. -/
theorem willYield_ahead {passed ahead : List RawRecord} {iter : KvpPoolIter} {world : World}
    (standing : Standing ⟨passed, ahead⟩ iter world) :
    WillYield (ahead.map RawRecord.decode) ⟨iter, world⟩ := by
  induction ahead generalizing passed iter world with
  | nil =>
      refine Post.imp (next_moves standing) ?_
      intro outcome after moved
      exact moved.1
  | cons head tail ih =>
      refine Post.imp (next_moves standing) ?_
      intro outcome after moved
      exact ⟨moved.1, ih moved.2⟩

theorem items_of_image {records : List RawRecord} {world : World}
    (bytes : world.bytes = image records) : world.items = records.map RawRecord.decode := by
  rw [World.items, bytes, Blocks.wholeBlocks_image recordSize_pos]

/-- Where the iterator stands at the cursor that its run leads to, its books are in
order. -/
theorem kept_of_standing {records : List RawRecord} {start : IterState}
    {events : List IterEvent} (standing : Standing ⟨[], records⟩ start.iter start.world)
    (run : IsRun start events) (spares : SparesFinal start events) : Kept start events := by
  obtain ⟨reached, outputs⟩ := run_follows standing run spares
  have balanced := Cursor.performAll_balanced ⟨[], records⟩
    (events.map fun event => event.call.move)
  generalize Cursor.performAll ⟨[], records⟩ (events.map fun event => event.call.move) = cursor
    at reached balanced
  obtain ⟨passed, ahead⟩ := cursor
  have items : start.world.items = records.map RawRecord.decode :=
    items_of_image (standing_nil_iff.mp standing).1.bytes
  have accounted : (yielded events ++ ahead.map RawRecord.decode).Perm
      (start.world.items ++ appended events) := by
    rw [outputs, items, appended_eq, ← List.map_append, ← List.map_append]
    exact balanced.map _
  have count : (stateAfter start events).iter.recordCount = passed.length + ahead.length :=
    reached.agrees.count.trans List.length_append
  have index : (stateAfter start events).iter.currentIndex = passed.length := reached.index
  constructor
  · rw [reached.agrees.length_bytes, reached.agrees.count]
  · rw [count, index]
    exact Nat.le_add_right _ _
  · exact reached.agrees.position
  · refine ⟨ahead.map RawRecord.decode, ?_, willYield_ahead reached, accounted⟩
    rw [KvpPoolIter.sizeHint, count, index, if_pos (Nat.le_add_right _ _), List.length_map,
      Nat.add_sub_cancel_left]
  · intro ended
    have none : ahead = [] := by
      apply List.eq_nil_of_length_eq_zero
      omega
    rwa [none, List.map_nil, List.append_nil] at accounted

/-! ## From the opening on -/

theorem new_currentIndex {readOnly : Bool} {world : World} {start : IterState}
    (opened : NewIter readOnly world start) : start.iter.currentIndex = 0 := by
  rw [NewIter, KvpPoolIter.new] at opened
  obtain ⟨_, _, _, opened⟩ := Program.runs_except_bind_ok_iff.mp opened
  obtain ⟨_, _, _, opened⟩ := Program.runs_except_bind_ok_iff.mp opened
  obtain ⟨_, _, _, opened⟩ := Program.runs_except_bind_ok_iff.mp opened
  obtain ⟨_, _, _, opened⟩ := Program.runs_except_bind_ok_iff.mp opened
  obtain ⟨same, -⟩ := Program.runs_except_pure_iff.mp opened
  rw [Except.ok.inj same]

/-- A new iterator stands in front of the first record. -/
theorem NewIter.standing {readOnly : Bool} {world : World} {start : IterState}
    {records : List RawRecord} (opened : NewIter readOnly world start)
    (bytes : world.bytes = image records) :
    Standing ⟨[], records⟩ start.iter start.world := by
  obtain ⟨-, -, between⟩ := Ensures.value (new_ensures readOnly) opened
  exact standing_nil_iff.mpr ⟨(between records bytes).standing, new_currentIndex opened⟩

theorem NewIter.exists_records {readOnly : Bool} {world : World} {start : IterState}
    (opened : NewIter readOnly world start) :
    ∃ records : List RawRecord, world.bytes = image records := by
  obtain ⟨-, count, -⟩ := Ensures.value (new_ensures readOnly) opened
  apply World.Framed.exists_records
  rw [World.Framed, ← count, Nat.mul_mod_left]

theorem isRun_append_iff {start : IterState} {front back : List IterEvent} :
    IsRun start (front ++ back) ↔ IsRun start front ∧ IsRun (stateAfter start front) back := by
  induction front generalizing start with
  | nil => simp [IsRun, stateAfter]
  | cons event later ih =>
      rw [List.cons_append, IsRun, IsRun, ih, stateAfter_cons, and_assoc]

theorem sparesFinal_append_iff {start : IterState} {front back : List IterEvent} :
    SparesFinal start (front ++ back) ↔
      SparesFinal start front ∧ SparesFinal (stateAfter start front) back := by
  induction front generalizing start with
  | nil => simp [SparesFinal, stateAfter]
  | cons event later ih =>
      rw [List.cons_append, SparesFinal, SparesFinal, ih, stateAfter_cons, and_assoc]

theorem removesFinal_overtakes {before : IterState} {event : IterEvent} {records : List RawRecord}
    (agrees : before.iter.At records before.world) (removes : RemovesFinal before event)
    (performed : Program.Runs (HandleStep noFaults) (event.call.perform before.iter) before.world
      (event.reply, event.after.iter) event.after.world) :
    event.after.iter.recordCount < event.after.iter.currentIndex := by
  obtain ⟨removal, behind, final⟩ := removes
  rw [removal] at performed
  cases List.eq_nil_or_concat records with
  | inl empty =>
      rw [agrees.count, empty] at final
      exact absurd final behind
  | inr split =>
      obtain ⟨front, last, rfl⟩ := split
      rw [List.concat_eq_append] at agrees
      have index : before.iter.currentIndex = front.length + 1 := by
        rw [final, agrees.count, List.length_append, List.length_singleton]
      exact removeCurrent_final agrees index _ _ performed

/-- Behind the removal of the final record the books are not in order. -/
theorem Kept.spares {start : IterState} {front : List IterEvent} {event : IterEvent}
    (kept : Kept start front) (keptAfter : Kept start (front ++ [event]))
    (performed : Program.Runs (HandleStep noFaults)
      (event.call.perform (stateAfter start front).iter) (stateAfter start front).world
      (event.reply, event.after.iter) event.after.world) :
    ¬ RemovesFinal (stateAfter start front) event := by
  intro removes
  have framed : (stateAfter start front).world.Framed := by
    rw [World.Framed, ← kept.counted, Nat.mul_mod_left]
  obtain ⟨records, bytes⟩ := framed.exists_records
  have count : (stateAfter start front).iter.recordCount = records.length := by
    have counted := kept.counted
    rw [bytes, Blocks.length_image] at counted
    exact Nat.eq_of_mul_eq_mul_right recordSize_pos counted
  have overtaken := removesFinal_overtakes ⟨bytes, count, kept.position⟩ removes performed
  have inside := keptAfter.inside
  have last : stateAfter start (front ++ [event]) = event.after := by simp [stateAfter]
  rw [last] at inside
  exact absurd overtaken (Nat.not_lt.mpr inside)

theorem sparesFinal_of_kept {start : IterState} {events : List IterEvent}
    (run : IsRun start events) (kept : ∀ front, front <+: events → Kept start front) :
    SparesFinal start events := by
  induction events using List.reverseRecOn with
  | nil => trivial
  | append_singleton front event ih =>
      obtain ⟨runFront, performed, -⟩ := isRun_append_iff.mp run
      have within : front <+: front ++ [event] := List.prefix_append front [event]
      refine sparesFinal_append_iff.mpr ⟨?_, ?_, trivial⟩
      · exact ih runFront fun earlier early => kept earlier (early.trans within)
      · exact (kept front within).spares (kept _ (List.prefix_refl _)) performed

/-- In every run of a new iterator's operations, the books are in order behind every
call if and only if no call removes the file's final record. -/
theorem bookkeeping_is_kept_iff {readOnly : Bool} {world : World} {start : IterState}
    {events : List IterEvent} (opened : NewIter readOnly world start)
    (run : IsRun start events) :
    (∀ front, front <+: events → Kept start front) ↔ SparesFinal start events := by
  constructor
  · exact sparesFinal_of_kept run
  · intro spares front within
    obtain ⟨back, rfl⟩ := within
    obtain ⟨records, bytes⟩ := opened.exists_records
    exact kept_of_standing (opened.standing bytes) (isRun_append_iff.mp run).1
      (sparesFinal_append_iff.mp spares).1

/-! ## Two runs on a file with one record -/

theorem exists_newIter {world : World} (framed : world.Framed) (readOnly : Bool) :
    ∃ start, NewIter readOnly world start := by
  have execution := runs_execute noFaults (KvpPoolIter.new readOnly).run world
  cases result : (execute (KvpPoolIter.new readOnly).run world).1 with
  | ok iter =>
      rw [result] at execution
      exact ⟨⟨iter, _⟩, execution⟩
  | error error =>
      rw [result] at execution
      obtain ⟨-, refused⟩ := Ensures.error (new_ensures readOnly) execution
      cases refused with
      | inl fault => exact absurd fault not_faulted_noFaults
      | inr misframed => exact absurd framed misframed.1

theorem exists_run (start : IterState) (calls : List IterCall) :
    ∃ events, IsRun start events ∧ events.map (fun event => event.call) = calls := by
  induction calls generalizing start with
  | nil => exact ⟨[], trivial, rfl⟩
  | cons call later ih =>
      have execution := runs_execute noFaults (call.perform start.iter) start.world
      obtain ⟨events, run, same⟩ :=
        ih ⟨(execute (call.perform start.iter) start.world).1.2,
          (execute (call.perform start.iter) start.world).2⟩
      refine ⟨⟨call, (execute (call.perform start.iter) start.world).1.1, _⟩ :: events,
        ⟨execution, run⟩, ?_⟩
      rw [List.map_cons, same]

def storedRecord : RawRecord := RawRecord.encode "key".toList "value".toList

/-- A pool with one record. -/
def oneRecordPool : World where
  file := some { bytes := image [storedRecord], mtime := 0 }
  now := 0
  bootTime := 0

theorem exists_newIter_oneRecordPool : ∃ start, NewIter false oneRecordPool start ∧
    Standing ⟨[], [storedRecord]⟩ start.iter start.world := by
  have bytes : oneRecordPool.bytes = image [storedRecord] := rfl
  obtain ⟨start, opened⟩ := exists_newIter (World.framed_of_image bytes) false
  exact ⟨start, opened, opened.standing bytes⟩

/-- A record is appended, so that the one removed is not the final one. -/
theorem bookkeeping_is_kept_iff_appended : ∃ start events, NewIter false oneRecordPool start ∧
    IsRun start events ∧
    events.map (fun event => event.call) =
      [.next, .append "key".toList "other".toList, .removeCurrent, .next] ∧
    ∀ front, front <+: events → Kept start front := by
  obtain ⟨start, opened, standing⟩ := exists_newIter_oneRecordPool
  obtain ⟨events, run, calls⟩ := exists_run start
    [.next, .append "key".toList "other".toList, .removeCurrent, .next]
  refine ⟨start, events, opened, run, calls, (bookkeeping_is_kept_iff opened run).mpr ?_⟩
  obtain ⟨read, _, rfl, readCall, rest⟩ := List.map_eq_cons_iff.mp calls
  obtain ⟨grown, _, rfl, grownCall, rest⟩ := List.map_eq_cons_iff.mp rest
  obtain ⟨removal, _, rfl, removalCall, rest⟩ := List.map_eq_cons_iff.mp rest
  obtain ⟨last, _, rfl, lastCall, rest⟩ := List.map_eq_cons_iff.mp rest
  obtain rfl := List.map_eq_nil_iff.mp rest
  obtain ⟨performedRead, performedGrown, -⟩ := run
  rw [readCall] at performedRead
  rw [grownCall] at performedGrown
  obtain ⟨-, standingRead⟩ := next_follows standing _ _ performedRead
  obtain ⟨-, standingGrown⟩ := append_follows standingRead _ _ _ _ performedGrown
  refine ⟨?_, ?_, ?_, ?_, trivial⟩
  · intro removes
    exact nomatch readCall.symm.trans removes.1
  · intro removes
    exact nomatch grownCall.symm.trans removes.1
  · intro removes
    have final := removes.2.2
    rw [standingGrown.index, standingGrown.agrees.count] at final
    exact absurd final (by decide)
  · intro removes
    exact nomatch lastCall.symm.trans removes.1

theorem IterReply.eq_of_yields {reply : IterReply} {item : IterItem}
    (yields : reply.yields = some item) : reply = .item (some item) := by
  cases reply with
  | item found => rw [← yields, IterReply.yields]
  | result result => cases yields

/-- The only record is read and removed: `size_hint` underflows. -/
theorem removal_of_only_record_breaks_bookkeeping : ∃ start events,
    NewIter false oneRecordPool start ∧ IsRun start events ∧
    events.map (fun event => event.call) = [.next, .removeCurrent] ∧
    Disciplined false events ∧ (stateAfter start events).iter.sizeHint = none ∧
    ¬ ∀ front, front <+: events → Kept start front := by
  obtain ⟨start, opened, standing⟩ := exists_newIter_oneRecordPool
  obtain ⟨events, run, calls⟩ := exists_run start [.next, .removeCurrent]
  refine ⟨start, events, opened, run, calls, ?_⟩
  obtain ⟨read, _, rfl, readCall, rest⟩ := List.map_eq_cons_iff.mp calls
  obtain ⟨removal, _, rfl, removalCall, rest⟩ := List.map_eq_cons_iff.mp rest
  obtain rfl := List.map_eq_nil_iff.mp rest
  obtain ⟨performedRead, performedRemoval, -⟩ := run
  rw [readCall] at performedRead
  rw [removalCall] at performedRemoval
  obtain ⟨yields, standingRead⟩ := next_follows standing _ _ performedRead
  have decoded : storedRecord.decode = .ok ("key".toList, "value".toList) := by
    apply RawRecord.decode_encode <;> decide
  have reply : read.reply = .item (some (.ok ("key".toList, "value".toList))) := by
    apply IterReply.eq_of_yields
    rw [yields, ← decoded]
    rfl
  have overtaken : removal.after.iter.recordCount < removal.after.iter.currentIndex :=
    removeCurrent_final standingRead.agrees standingRead.index _ _ performedRemoval
  have hint : removal.after.iter.sizeHint = none :=
    if_neg (Nat.not_le.mpr overtaken)
  refine ⟨?_, hint, ?_⟩
  · simp only [Disciplined, readCall, reply, removalCall, and_self]
  · intro kept
    obtain ⟨items, counted, -⟩ := (kept _ (List.prefix_refl _)).pending
    exact nomatch hint.symm.trans counted

end AzureInit.Kvp
