import AzureInit.Foundation.Postconditions
import AzureInit.Kvp.Handle
import AzureInit.Kvp.RecordProperties

/-! What each call on an open handle ensures, with and without faults. Only
`write_all`, `set_len` and the creating open change the file. -/

set_option autoImplicit false

namespace AzureInit.Kvp

open Foundation

/-- Some fault of the environment is allowed. -/
def Faulted (allowed : World → Fault → Prop) : Prop := ∃ world fault, allowed world fault

theorem not_faulted_noFaults : ¬ Faulted noFaults := by
  rintro ⟨_, _, impossible⟩
  exact impossible

/-- A failing write may have stored this much of its buffer. -/
def MayStore (allowed : World → Fault → Prop) (world : World) (data : List UInt8)
    (stored : Nat) : Prop :=
  stored = 0 ∧ allowed world (.failed (.writeAll data)) ∨ allowed world (.torn data stored)

theorem MayStore.faulted {allowed : World → Fault → Prop} {world : World} {data : List UInt8}
    {stored : Nat} (fault : MayStore allowed world data stored) : Faulted allowed := by
  rcases fault with ⟨_, failed⟩ | torn
  · exact ⟨_, _, failed⟩
  · exact ⟨_, _, torn⟩

@[simp] theorem World.file_at (world : World) (now : Int) : (world.at now).file = world.file := rfl

@[simp] theorem World.bytes_at (world : World) (now : Int) :
    (world.at now).bytes = world.bytes := rfl

@[simp] theorem World.position_at (world : World) (now : Int) :
    (world.at now).position = world.position := rfl

@[simp] theorem World.file_seek (world : World) (position : Nat) :
    (world.seek position).file = world.file := rfl

@[simp] theorem World.bytes_seek (world : World) (position : Nat) :
    (world.seek position).bytes = world.bytes := rfl

@[simp] theorem World.position_seek (world : World) (position : Nat) :
    (world.seek position).position = position := rfl

@[simp] theorem World.bytes_store (world : World) (bytes : List UInt8) :
    (world.store bytes).bytes = bytes := rfl

@[simp] theorem World.position_store (world : World) (bytes : List UInt8) :
    (world.store bytes).position = world.position := rfl

theorem World.bytes_eq_of_file_eq {world other : World} (same : other.file = world.file) :
    other.bytes = world.bytes := by
  rw [World.bytes, World.bytes, same]

theorem World.bytes_write {world : World} {data : List UInt8}
    (inside : world.position ≤ world.bytes.length) :
    (world.write data).bytes = Blocks.splice world.bytes world.position data := by
  rw [World.write, World.bytes_seek, World.bytes_store, Nat.sub_eq_zero_of_le inside]
  simp

@[simp] theorem World.position_write (world : World) (data : List UInt8) :
    (world.write data).position = world.position + data.length := rfl

theorem World.bytes_resize {world : World} {len : Nat} (inside : len ≤ world.bytes.length) :
    (world.resize len).bytes = world.bytes.take len := by
  rw [World.resize, World.bytes_store, zeroPadded, Nat.sub_eq_zero_of_le inside]
  simp

@[simp] theorem World.position_resize (world : World) (len : Nat) :
    (world.resize len).position = world.position := rfl

section Calls

variable {allowed : World → Fault → Prop} {world : World}

/-- The error postcondition of a call that leaves the file alone. -/
def Untouched (allowed : World → Fault → Prop) (world : World) (_error : IoError)
    (after : World) : Prop :=
  after.file = world.file ∧ Faulted allowed

theorem Untouched.bytes {error : IoError} {after : World}
    (untouched : Untouched allowed world error after) : after.bytes = world.bytes :=
  World.bytes_eq_of_file_eq untouched.1

/-- A call other than `write_all`, through what it does when it does not fail. -/
theorem ensures_request {call : Call} {good : call.Value → World → Prop}
    {bad : IoError → World → Prop} (notWrite : ∀ data, call ≠ .writeAll data)
    (performed : ∀ now, eitherWay good bad (call.perform (world.at now)).1
      (call.perform (world.at now)).2)
    (failed : ∀ error position, Faulted allowed → bad error (world.seek position)) :
    Ensures (HandleStep allowed) (request call) world good bad := by
  refine post_ask_iff.mpr fun reply after stepped => ?_
  cases stepped with
  | performed _ _ now => exact performed now
  | failed _ _ error position fault => exact failed error position ⟨_, _, fault⟩
  | torn data => exact absurd rfl (notWrite data)

/-- A call that answers without touching the file. -/
theorem ensures_quiet (call : Call) (value : call.Value) (position : Nat)
    (notWrite : ∀ data, call ≠ .writeAll data)
    (performed : ∀ now, call.perform (world.at now) =
      (.ok value, (world.at now).seek position)) :
    Ensures (HandleStep allowed) (request call) world
      (fun reply after => reply = value ∧ after.file = world.file ∧ after.position = position)
      (Untouched allowed world) := by
  refine ensures_request notWrite (fun now => ?_) fun error position fault => ⟨rfl, fault⟩
  rw [performed now]
  exact ⟨rfl, rfl, rfl⟩

theorem ensures_seekStart (offset : Nat) :
    Ensures (HandleStep allowed) (request (.seekStart offset)) world
      (fun _ after => after.file = world.file ∧ after.position = offset)
      (Untouched allowed world) :=
  (ensures_quiet (.seekStart offset) offset offset (fun _ => nofun) fun _ => rfl).imp
    (fun _ _ holds => holds.2) fun _ _ => id

theorem ensures_seekEnd :
    Ensures (HandleStep allowed) (request .seekEnd) world
      (fun _ after => after.file = world.file ∧ after.position = world.bytes.length)
      (Untouched allowed world) :=
  (ensures_quiet .seekEnd world.bytes.length _ (fun _ => nofun) fun _ => rfl).imp
    (fun _ _ holds => holds.2) fun _ _ => id

theorem ensures_streamPosition :
    Ensures (HandleStep allowed) (request .streamPosition) world
      (fun position after => position = world.position ∧ after.file = world.file ∧
        after.position = world.position)
      (Untouched allowed world) :=
  ensures_quiet .streamPosition world.position _ (fun _ => nofun) fun _ => rfl

theorem ensures_metadata :
    Ensures (HandleStep allowed) (request .metadata) world
      (fun info after => info = { len := world.bytes.length, mtime := world.mtime } ∧
        after.file = world.file ∧ after.position = world.position)
      (Untouched allowed world) :=
  ensures_quiet .metadata { len := world.bytes.length, mtime := world.mtime } _
    (fun _ => nofun) fun _ => rfl

theorem ensures_readExact {count : Nat} (inside : world.position + count ≤ world.bytes.length) :
    Ensures (HandleStep allowed) (request (.readExact count)) world
      (fun buf after => buf = (world.bytes.drop world.position).take count ∧
        after.file = world.file ∧ after.position = world.position + count)
      (Untouched allowed world) :=
  ensures_quiet (.readExact count) ((world.bytes.drop world.position).take count) _
    (fun _ => nofun) fun _ => if_pos inside

/-- Calls that only wait or synchronise: locks, `flush` and `close`. -/
theorem ensures_sync {call : Call}
    (sync : call ∈ [Call.flockExclusive, .flockShared, .flockUnlock, .fcntlExclusive,
      .fcntlShared, .flush, .close]) :
    Ensures (HandleStep allowed) (request call) world
      (fun _ after => after.file = world.file ∧ after.position = world.position)
      (Untouched allowed world) := by
  simp only [List.mem_cons, List.not_mem_nil, or_false] at sync
  have quiet : ∀ data, call ≠ .writeAll data := by
    rintro data rfl
    simp at sync
  rcases sync with rfl | rfl | rfl | rfl | rfl | rfl | rfl <;>
    exact (ensures_quiet _ () _ quiet fun _ => rfl).imp (fun _ _ holds => holds.2) fun _ _ => id

theorem ensures_writeAll {data : List UInt8} (inside : world.position ≤ world.bytes.length) :
    Ensures (HandleStep allowed) (request (.writeAll data)) world
      (fun _ after => after.bytes = Blocks.splice world.bytes world.position data ∧
        after.position = world.position + data.length)
      (fun _ after => ∃ stored, MayStore allowed world data stored ∧
        after.bytes = Blocks.splice world.bytes world.position (data.take stored)) := by
  refine post_ask_iff.mpr fun reply after stepped => ?_
  cases stepped with
  | performed => exact ⟨World.bytes_write inside, rfl⟩
  | failed _ _ error position fault =>
      refine ⟨0, .inl ⟨rfl, fault⟩, ?_⟩
      simp [Blocks.splice]
  | torn _ _ error stored now fault => exact ⟨stored, .inr fault, World.bytes_write inside⟩

theorem ensures_setLen {len : Nat} (inside : len ≤ world.bytes.length) :
    Ensures (HandleStep allowed) (request (.setLen len)) world
      (fun _ after => after.bytes = world.bytes.take len ∧ after.position = world.position)
      (Untouched allowed world) := by
  refine ensures_request (fun _ => nofun) (fun now => ?_) fun _ _ fault => ⟨rfl, fault⟩
  exact ⟨World.bytes_resize inside, rfl⟩

/-- Lifting an `io::Result` keeps its postconditions. -/
theorem ensures_lift {α : Type} {program : Io α} {good : α → World → Prop}
    {bad : IoError → World → Prop} (holds : Ensures (HandleStep allowed) program world good bad) :
    Ensures (HandleStep allowed) (Io.lift program) world good
      (fun error after => ∃ io, error = .io io ∧ bad io after) := by
  rw [Io.lift, ensures_mk_iff, post_bind_iff]
  refine Post.imp holds fun result middle reached => ?_
  cases result with
  | ok value => exact post_pure_iff.mpr reached
  | error error => exact post_pure_iff.mpr ⟨error, rfl, reached⟩

end Calls

end AzureInit.Kvp
