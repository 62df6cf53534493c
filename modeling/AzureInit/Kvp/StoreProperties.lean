import AzureInit.Kvp.PoolIterProperties
import AzureInit.Kvp.Store

/-! Opening, locking and dropping the pool around an operation. Opening a pool
changes nothing in it, and an operation begins its scan at the first record. -/

set_option autoImplicit false

namespace AzureInit.Kvp

open Foundation
open Blocks (image)

variable {allowed : World → Fault → Prop} {world : World} {α β : Type}

/-- A pool whose length is a multiple of the record size. -/
def World.Framed (world : World) : Prop := world.bytes.length % recordSize = 0

theorem World.framed_of_image {records : List RawRecord} (bytes : world.bytes = image records) :
    world.Framed := by
  rw [Framed, bytes, Blocks.length_image, Nat.mul_mod_left]

theorem World.Framed.exists_records (framed : world.Framed) :
    ∃ records : List RawRecord, world.bytes = image records :=
  ⟨_, (Blocks.image_wholeBlocks recordSize_pos framed).symm⟩

/-- A check made before any call: it ends the operation or lets it go on. -/
theorem ofResult_bind_ensures {result : Except KvpError α} {continuation : α → KvpIo β}
    {good : β → World → Prop} {bad : KvpError → World → Prop}
    (rejected : ∀ error, result = .error error → bad error world)
    (accepted : ∀ value, result = .ok value →
      Ensures (HandleStep allowed) (continuation value) world good bad) :
    Ensures (HandleStep allowed) (ofResult result >>= continuation) world good bad := by
  cases result with
  | error error => exact ensures_throw_iff.mpr (rejected error rfl)
  | ok value => exact accepted value rfl

/-! ## Locks -/

theorem lockPair_ensures {flock fcntl : Io Unit}
    (flockQuiet : ∀ world, Ensures (HandleStep allowed) flock world
      (fun _ after => after.file = world.file) (Untouched allowed world))
    (fcntlQuiet : ∀ world, Ensures (HandleStep allowed) fcntl world
      (fun _ after => after.file = world.file) (Untouched allowed world)) :
    Ensures (HandleStep allowed) (lockPair flock fcntl) world
      (fun _ after => after.file = world.file) (Untouched allowed world) := by
  refine (flockQuiet world).bind (fun _ _ => id) fun _ first firstFile => ?_
  refine post_bind_iff.mpr (Post.imp (fcntlQuiet first) fun result second => ?_)
  cases result with
  | ok value =>
      intro secondFile
      exact post_pure_iff.mpr (Eq.trans secondFile firstFile)
  | error error =>
      rintro ⟨secondFile, fault⟩
      have unlocked := @ensures_sync allowed second .flockUnlock (by simp)
      refine post_bind_iff.mpr (Post.imp unlocked fun reply third reached => ?_)
      refine post_pure_iff.mpr ⟨?_, fault⟩
      have thirdFile : third.file = second.file := by
        cases reply with
        | ok value => exact reached.1
        | error error => exact reached.1
      exact thirdFile.trans (secondFile.trans firstFile)

theorem lock_ensures {call : Call}
    (sync : call ∈ [Call.flockExclusive, .flockShared, .flockUnlock, .fcntlExclusive,
      .fcntlShared, .flush, .close]) (world : World) :
    Ensures (HandleStep allowed) (request call) world
      (fun _ after => after.file = world.file) (Untouched allowed world) :=
  (ensures_sync sync).imp (fun _ _ kept => kept.1) fun _ _ => id

theorem lockForWriting_ensures :
    Ensures (HandleStep allowed) lockForWriting world
      (fun _ after => after.file = world.file) (Untouched allowed world) :=
  lockPair_ensures (lock_ensures (by simp)) (lock_ensures (by simp))

theorem lockForReading_ensures :
    Ensures (HandleStep allowed) lockForReading world
      (fun _ after => after.file = world.file) (Untouched allowed world) :=
  lockPair_ensures (lock_ensures (by simp)) (lock_ensures (by simp))

/-! ## Opening -/

/-- Why an existing pool could not be iterated: a fault, or its length. -/
def Refused (allowed : World → Fault → Prop) (world : World) (error : KvpError)
    (bytes : List UInt8) : Prop :=
  bytes = world.bytes ∧
    (Faulted allowed ∨ ¬ world.Framed ∧ ∃ io, error = .io io ∧ io.kind ≠ .notFound ∧
      recordCountFromLen world.bytes.length = .error io)

theorem recordCountFromLen_error_kind {len : Nat} {io : IoError}
    (refused : recordCountFromLen len = .error io) : io.kind = .other := by
  unfold recordCountFromLen at refused
  split at refused
  · obtain rfl := Except.error.inj refused
    rfl
  · cases refused

theorem new_ensures (readOnly : Bool) :
    Ensures (HandleStep allowed) (KvpPoolIter.new readOnly) world
      (fun iter after => after.file = world.file ∧ iter.recordCount * recordSize =
          world.bytes.length ∧ ∀ records, world.bytes = image records →
        iter.Between [] records after)
      (fun error after => Refused allowed world error after.bytes) := by
  have locked : Ensures (HandleStep allowed)
      (if readOnly = true then lockForReading else lockForWriting) world
      (fun _ after => after.file = world.file) (Untouched allowed world) := by
    split
    · exact lockForReading_ensures
    · exact lockForWriting_ensures
  refine (ensures_lift locked).bind (fun _ _ ⟨_, _, stopped⟩ => ⟨stopped.bytes, .inl stopped.2⟩) ?_
  rintro _ first firstFile
  have firstBytes := World.bytes_eq_of_file_eq firstFile
  refine (ensures_lift ensures_metadata).bind
    (fun _ _ ⟨_, _, stopped⟩ => ⟨stopped.bytes.trans firstBytes, .inl stopped.2⟩) ?_
  rintro _ second ⟨rfl, secondFile, -⟩
  have secondBytes := World.bytes_eq_of_file_eq (secondFile.trans firstFile)
  rw [firstBytes]
  cases counted : recordCountFromLen world.bytes.length with
  | error io =>
      refine post_pure_iff.mpr ⟨secondBytes, .inr ⟨?_, io, rfl, ?_, counted⟩⟩
      · intro framed
        have accepted := recordCountFromLen_eq_ok_iff.mpr
          (Nat.div_mul_cancel (Nat.dvd_of_mod_eq_zero framed)).symm
        rw [counted] at accepted
        cases accepted
      · rw [recordCountFromLen_error_kind counted]
        decide
  | ok count =>
      rw [recordCountFromLen_eq_ok_iff] at counted
      refine (ensures_lift (ensures_seekStart 0)).bind
        (fun _ _ ⟨_, _, stopped⟩ => ⟨stopped.bytes.trans secondBytes, .inl stopped.2⟩) ?_
      rintro _ third ⟨thirdFile, thirdPosition⟩
      have file := thirdFile.trans (secondFile.trans firstFile)
      refine ensures_pure_iff.mpr ⟨file, counted.symm, fun records bytes => ?_⟩
      have sameCount : count = records.length := by
        rw [bytes, Blocks.length_image] at counted
        exact (Nat.eq_of_mul_eq_mul_right recordSize_pos counted).symm
      refine ⟨⟨?_, sameCount, ?_⟩, fun _ => rfl, ?_⟩
      · rw [World.bytes_eq_of_file_eq file, bytes]
        rfl
      · rw [thirdPosition, Nat.zero_mul]
      · rintro rfl
        exact Nat.le_of_eq sameCount

private theorem close_post :
    Post (HandleStep allowed) (request .close).run world
      (fun _ after => after.file = world.file) := by
  have closed := @ensures_sync allowed world .close (by simp)
  refine Post.imp closed fun reply after reached => ?_
  cases reply with
  | ok value => exact reached.1
  | error error => exact reached.1

/-- Dropping the handle changes nothing that a postcondition on the bytes sees. -/
theorem closing_ensures {body : KvpIo α} {good : α → List UInt8 → Prop}
    {bad : KvpError → List UInt8 → Prop}
    (ensured : Ensures (HandleStep allowed) body world
      (fun value after => good value after.bytes) (fun error after => bad error after.bytes)) :
    Ensures (HandleStep allowed) (closing body) world
      (fun value after => good value after.bytes) (fun error after => bad error after.bytes) := by
  rw [closing, ensures_mk_iff, post_bind_iff]
  refine Post.imp ensured fun result middle reached => ?_
  refine post_bind_iff.mpr (Post.imp close_post fun reply after file => post_pure_iff.mpr ?_)
  have bytes := World.bytes_eq_of_file_eq file
  cases result with
  | ok value => rwa [eitherWay_ok, bytes]
  | error error => rwa [eitherWay_error, bytes]

theorem closingOnError_ensures {body : KvpIo α} {good : α → World → Prop}
    {bad : KvpError → List UInt8 → Prop}
    (ensured : Ensures (HandleStep allowed) body world good
      (fun error after => bad error after.bytes)) :
    Ensures (HandleStep allowed) (closingOnError body) world good
      (fun error after => bad error after.bytes) := by
  rw [closingOnError, ensures_mk_iff, post_bind_iff]
  refine Post.imp ensured fun result middle reached => ?_
  cases result with
  | ok value => exact post_pure_iff.mpr reached
  | error error =>
      refine post_bind_iff.mpr (Post.imp close_post fun reply after file => post_pure_iff.mpr ?_)
      rwa [eitherWay_error, World.bytes_eq_of_file_eq file]

/-- An opening call that reports a missing pool. -/
def IsNotFound (error : KvpError) : Prop := ∃ io, error = .io io ∧ io.kind = .notFound

theorem unlessMissing_ensures {opened : KvpIo β} {missing : α} {body : β → KvpIo α}
    {between : β → World → Prop} {stopped : KvpError → World → Prop} {good : α → World → Prop}
    {bad : KvpError → World → Prop}
    (opens : Ensures (HandleStep allowed) opened world between stopped)
    (absent : ∀ error after, stopped error after → IsNotFound error → good missing after)
    (stop : ∀ error after, stopped error after → ¬ IsNotFound error → bad error after)
    (rest : ∀ value middle, between value middle →
      Ensures (HandleStep allowed) (closing (body value)) middle good bad) :
    Ensures (HandleStep allowed) (unlessMissing opened missing body) world good bad := by
  rw [unlessMissing, ensures_mk_iff, post_bind_iff]
  refine Post.imp opens fun result middle reached => ?_
  have other : ∀ error, result = .error error → ¬ IsNotFound error →
      Post (HandleStep allowed) (pure (.error error)) middle (eitherWay good bad) := by
    rintro error rfl present
    exact post_pure_iff.mpr (stop error middle reached present)
  rcases result with (⟨⟩ | ⟨_⟩ | io | _ | _ | _ | _ | _ | _ | _ | _ | _ | _ | _) | value
  case error.io =>
    by_cases kind : io.kind = .notFound
    · simp only [kind, if_true]
      exact post_pure_iff.mpr (absent _ middle reached ⟨io, rfl, kind⟩)
    · simp only [kind, if_false]
      refine other _ rfl ?_
      rintro ⟨_, ⟨⟩, found⟩
      exact kind found
  case ok => exact rest value middle reached
  all_goals exact other _ rfl fun ⟨_, same, _⟩ => nomatch same

/-! ## The iterators of the operations -/

theorem open_ensures {call : Call} (opening : call ∈ [Call.openRead, .openReadWrite]) :
    Ensures (HandleStep allowed) (Io.lift (request call)) world
      (fun _ after => after.file = world.file)
      (fun error after => after.file = world.file ∧
        (Faulted allowed ∨ IsNotFound error ∧ world.file = none)) := by
  have opened : Ensures (HandleStep allowed) (request call) world
      (fun _ after => after.file = world.file)
      (fun error after => after.file = world.file ∧
        (Faulted allowed ∨ error.kind = .notFound ∧ world.file = none)) := by
    simp only [List.mem_cons, List.not_mem_nil, or_false] at opening
    rcases opening with rfl | rfl <;>
      refine ensures_request (fun _ => nofun) (fun now => ?_) fun _ _ fault => ⟨rfl, .inl fault⟩ <;>
      cases file : world.file <;>
      simp [Call.perform, file, notFound]
  refine (ensures_lift opened).imp (fun _ _ => id) ?_
  rintro _ after ⟨io, rfl, file, fault | ⟨kind, missing⟩⟩
  · exact ⟨file, .inl fault⟩
  · exact ⟨file, .inr ⟨⟨io, rfl, kind⟩, missing⟩⟩

theorem openCreate_ensures :
    Ensures (HandleStep allowed) openForReadWriteCreate world
      (fun _ after => after.bytes = world.bytes)
      (fun _ after => after.bytes = world.bytes ∧ Faulted allowed) := by
  have opened : Ensures (HandleStep allowed) (request .openReadWriteCreate) world
      (fun _ after => after.bytes = world.bytes)
      (fun _ after => after.bytes = world.bytes ∧ Faulted allowed) := by
    refine ensures_request (fun _ => nofun) (fun now => ?_) fun _ _ fault => ⟨rfl, fault⟩
    cases file : world.file <;> simp [Call.perform, file, World.bytes, World.store]
  refine (ensures_lift opened).imp (fun _ _ => id) ?_
  rintro error after ⟨_, -, stopped⟩
  exact stopped

/-- The locked iterator over a file of whole records stands before the first. -/
theorem locked_ensures {records : List RawRecord} (bytes : world.bytes = image records)
    (readOnly : Bool) :
    Ensures (HandleStep allowed) (closingOnError (KvpPoolIter.new readOnly)) world
      (fun iter after => iter.Between [] records after)
      (fun _ after => after.bytes = image records ∧ Faulted allowed) := by
  refine (closingOnError_ensures (new_ensures readOnly)).imp ?_ ?_
  · rintro iter after ⟨-, -, between⟩
    exact between records bytes
  · rintro error after ⟨left, refused⟩
    refine ⟨left.trans bytes, refused.resolve_right fun misframed => ?_⟩
    exact misframed.1 (World.framed_of_image bytes)

private theorem missing_of_open {opened : KvpIo Unit} {records : List RawRecord}
    (bytes : world.bytes = image records)
    (opens : Ensures (HandleStep allowed) opened world
      (fun _ after => after.file = world.file)
      (fun error after => after.file = world.file ∧
        (Faulted allowed ∨ IsNotFound error ∧ world.file = none))) :
    Ensures (HandleStep allowed) opened world
      (fun _ after => after.bytes = image records)
      (fun error after => after.bytes = image records ∧
        (Faulted allowed ∨ IsNotFound error ∧ records = [])) := by
  refine opens.imp (fun _ _ file => (World.bytes_eq_of_file_eq file).trans bytes) ?_
  rintro error after ⟨file, stopped⟩
  refine ⟨(World.bytes_eq_of_file_eq file).trans bytes, stopped.imp_right fun ⟨kind, missing⟩ => ?_⟩
  refine ⟨kind, Blocks.image_injective recordSize_pos ?_⟩
  rw [← bytes, World.bytes, missing]
  rfl

private theorem iter_ensures_of_open {opened : KvpIo Unit} {records : List RawRecord}
    (readOnly : Bool) (bytes : world.bytes = image records)
    (opens : Ensures (HandleStep allowed) opened world
      (fun _ after => after.file = world.file)
      (fun error after => after.file = world.file ∧
        (Faulted allowed ∨ IsNotFound error ∧ world.file = none))) :
    Ensures (HandleStep allowed) (opened >>= fun _ => closingOnError (KvpPoolIter.new readOnly))
      world (fun iter after => iter.Between [] records after)
      (fun error after => after.bytes = image records ∧
        (Faulted allowed ∨ IsNotFound error ∧ records = [])) := by
  refine (missing_of_open bytes opens).bind (fun _ _ => id) fun _ middle left => ?_
  exact (locked_ensures left readOnly).imp (fun _ _ => id)
    fun _ _ stopped => ⟨stopped.1, .inl stopped.2⟩

namespace KvpPoolStore

theorem openForReadWrite_ensures {records : List RawRecord} (bytes : world.bytes = image records) :
    Ensures (HandleStep allowed) openForReadWrite world
      (fun _ after => after.bytes = image records)
      (fun error after => after.bytes = image records ∧
        (Faulted allowed ∨ IsNotFound error ∧ records = [])) :=
  missing_of_open bytes (open_ensures (by simp))

theorem iter_ensures {records : List RawRecord} (bytes : world.bytes = image records) :
    Ensures (HandleStep allowed) iter world
      (fun iter after => iter.Between [] records after)
      (fun error after => after.bytes = image records ∧
        (Faulted allowed ∨ IsNotFound error ∧ records = [])) :=
  iter_ensures_of_open true bytes (open_ensures (by simp))

theorem iterMut_ensures {records : List RawRecord} (bytes : world.bytes = image records) :
    Ensures (HandleStep allowed) iterMut world
      (fun iter after => iter.Between [] records after)
      (fun error after => after.bytes = image records ∧
        (Faulted allowed ∨ IsNotFound error ∧ records = [])) :=
  iter_ensures_of_open false bytes (open_ensures (by simp))

theorem iterCreate_ensures {records : List RawRecord} (bytes : world.bytes = image records) :
    Ensures (HandleStep allowed) iterCreate world
      (fun iter after => iter.Between [] records after)
      (fun _ after => after.bytes = image records ∧ Faulted allowed) := by
  refine openCreate_ensures.bind (fun _ _ stopped => ⟨stopped.1.trans bytes, stopped.2⟩) ?_
  exact fun _ middle left => locked_ensures (left.trans bytes) false

/-! A file with a partial record is never iterated. -/

private theorem locked_misframed (misframed : ¬ world.Framed) (readOnly : Bool) :
    Ensures (HandleStep allowed) (closingOnError (KvpPoolIter.new readOnly)) world
      (fun _ _ => False) (fun _ after => after.bytes = world.bytes) := by
  refine (closingOnError_ensures (new_ensures readOnly)).imp ?_ ?_
  · rintro iter after ⟨-, count, -⟩
    refine misframed ?_
    rw [World.Framed, ← count, Nat.mul_mod_left]
  · exact fun _ _ refused => refused.1

theorem iterMut_misframed (misframed : ¬ world.Framed) :
    Ensures (HandleStep allowed) iterMut world
      (fun _ _ => False) (fun _ after => after.bytes = world.bytes) := by
  refine (open_ensures (by simp)).bind (fun _ _ stopped => World.bytes_eq_of_file_eq stopped.1) ?_
  intro _ middle file
  have bytes := World.bytes_eq_of_file_eq file
  have stillMisframed : ¬ middle.Framed := by rwa [World.Framed, bytes]
  exact (locked_misframed stillMisframed false).imp (fun _ _ => id) fun _ _ left => left.trans bytes

theorem iterCreate_misframed (misframed : ¬ world.Framed) :
    Ensures (HandleStep allowed) iterCreate world
      (fun _ _ => False) (fun _ after => after.bytes = world.bytes) := by
  refine openCreate_ensures.bind (fun _ _ stopped => stopped.1) ?_
  intro _ middle bytes
  have stillMisframed : ¬ middle.Framed := by rwa [World.Framed, bytes]
  exact (locked_misframed stillMisframed false).imp (fun _ _ => id) fun _ _ left => left.trans bytes

end KvpPoolStore

end AzureInit.Kvp
