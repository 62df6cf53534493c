import AzureInit.Kvp.SequentialCalls

/-! Stale pools: what is cleared at the start of a boot, and what stays. -/

set_option autoImplicit false

namespace AzureInit.Kvp

open Foundation
open Blocks (image)

/-- A pool that was last modified at or before the boot. -/
def World.Stale (world : World) : Prop := world.mtime ≤ world.bootTime

instance (world : World) : Decidable world.Stale := inferInstanceAs (Decidable (_ ≤ _))

/-- The records that a boot finds. -/
def World.kept (world : World) : List UInt8 := if world.Stale then [] else world.bytes

/-! ## The time of the boot -/

theorem HandleStep.bootTime_eq {call : Call} {before after : World} {reply : Reply call}
    (stepped : HandleStep noFaults call before reply after) :
    after.bootTime = before.bootTime := by
  obtain ⟨-, now, -, rfl⟩ := stepped.answered
  cases call with
  | openRead | openReadWrite | openReadWriteCreate =>
      simp only [Call.perform]
      split <;> rfl
  | readExact count =>
      simp only [Call.perform]
      split <;> rfl
  | bootTime | flockExclusive | flockShared | flockUnlock | fcntlExclusive | fcntlShared
  | metadata | seekStart | seekEnd | streamPosition | writeAll | setLen | flush | close => rfl

/-- No program changes the time of the boot. -/
theorem bootTime_eq_of_runs {α : Type} {program : Program Call Reply α} {before after : World}
    {result : α} (returned : Program.Runs (HandleStep noFaults) program before result after) :
    after.bootTime = before.bootTime := by
  induction returned with
  | done => rfl
  | call stepped _ ih => exact ih.trans stepped.bootTime_eq

theorem ensures_bootTime {α ε : Type} {program : ExceptT ε (Program Call Reply) α} {world : World}
    {good : α → World → Prop} {bad : ε → World → Prop}
    (ensured : Ensures (HandleStep noFaults) program world good bad) :
    Ensures (HandleStep noFaults) program world
      (fun value after => good value after ∧ after.bootTime = world.bootTime) bad := by
  intro result after returned
  have reached := ensured result after returned
  cases result with
  | ok value => exact ⟨reached, bootTime_eq_of_runs returned⟩
  | error error => exact reached

/-! ## Clearing -/

/-- A stale pool is cleared, and any other is left as it is. -/
theorem clearIfStale_keeps {world : World} :
    Always KvpPoolStore.clearIfStale.run world fun result after =>
      result = .ok () ∧ after.bytes = world.kept := by
  have noFault : ∀ {before : World} {error : IoError} {after : World},
      Untouched noFaults before error after → False :=
    fun untouched => not_faulted_noFaults untouched.2
  have cleared : Ensures (HandleStep noFaults) KvpPoolStore.clearIfStale world
      (fun _ after => after.bytes = world.kept) (fun _ _ => False) := by
    have opens := ensures_bootTime
      (@open_ensures noFaults world .openReadWrite (by simp))
    apply unlessMissing_ensures opens
    · intro error after stopped present
      have file : after.file = world.file := stopped.1
      rcases stopped.2 with fault | missing
      · exact absurd fault not_faulted_noFaults
      · have noBytes : world.bytes = [] := by simp [World.bytes, missing.2]
        rw [World.bytes_eq_of_file_eq file, World.kept, noBytes, ite_self]
    · intro error after stopped present
      rcases stopped.2 with fault | missing
      · exact not_faulted_noFaults fault
      · exact present missing.1
    · intro _ middle opened
      have locked : Ensures (HandleStep noFaults)
          (Io.lift do
            let bootTime ← request .bootTime
            lockForWriting
            let info ← request .metadata
            if info.mtime ≤ bootTime then request (.setLen 0) else pure ()) middle
          (fun _ after => after.bytes = world.kept) (fun _ _ => False) := by
        refine (@ensures_lift noFaults middle _ _ _ (fun _ _ => False) ?_).imp (fun _ _ => id) ?_
        rotate_left
        · rintro _ _ ⟨_, _, impossible⟩
          exact impossible
        have notWrite : ∀ data, Call.bootTime ≠ .writeAll data := by
          intro data same
          cases same
        have asked := @ensures_quiet noFaults middle .bootTime
          middle.bootTime middle.position notWrite fun _ => rfl
        apply asked.bind fun _ _ => noFault
        rintro bootTime first ⟨rfl, firstFile, -⟩
        apply lockForWriting_ensures.bind fun _ _ => noFault
        rintro _ second secondFile
        apply ensures_metadata.bind fun _ _ => noFault
        rintro info third ⟨rfl, thirdFile, -⟩
        have file : third.file = world.file :=
          thirdFile.trans (secondFile.trans (firstFile.trans opened.1))
        have sameTime : second.mtime = world.mtime := by
          rw [World.mtime, World.mtime, secondFile.trans (firstFile.trans opened.1)]
        have stale : second.mtime ≤ middle.bootTime ↔ world.Stale := by
          rw [World.Stale, sameTime, opened.2]
        split
        · rename_i isStale
          rw [World.kept, if_pos (stale.mp isStale)]
          exact (ensures_setLen (Nat.zero_le _)).imp (fun _ _ cut => cut.1) fun _ _ => noFault
        · rename_i isFresh
          rw [World.kept, if_neg fun isStale => isFresh (stale.mpr isStale)]
          exact ensures_pure_iff.mpr (World.bytes_eq_of_file_eq file)
      exact @closing_ensures noFaults middle _ _ (fun _ left => left = world.kept)
        (fun _ _ => False) locked
  refine always_of_ensures cleared ?_ ?_
  · exact fun _ _ left => ⟨rfl, left⟩
  · exact fun _ _ => False.elim

end AzureInit.Kvp
