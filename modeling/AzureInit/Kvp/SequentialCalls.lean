import AzureInit.Kvp.ListRefinement
import AzureInit.Kvp.LockDiscipline

/-! Tasks that run one after the other, each by itself: what a task makes of the file
it finds, and that a missing pool is as good as an empty one to those that do not
create it. -/

set_option autoImplicit false

namespace AzureInit.Kvp

open Foundation
open Blocks (image)

/-- The pool as a task finds it that works alone. -/
def aloneAt (bootTime : Int) (file : Option PoolFile) (now : Int) : World where
  file := file
  now := now
  bootTime := bootTime

/-- What a task by itself returns and leaves; the clock moves as it likes. -/
def Task.Yields (domain : LockDomain) (bootTime : Int) (task : Task)
    (before : Option PoolFile) (outcome : Outcome) (after : Option PoolFile) : Prop :=
  ∃ (now : Int) (final : World),
    Program.Runs (HandleStep noFaults) (task.program domain) (aloneAt bootTime before now)
      outcome final ∧ final.file = after

theorem World.bytes_eq_fileBytes (world : World) : world.bytes = fileBytes world.file := by
  unfold World.bytes fileBytes
  cases world.file <;> rfl

/-- Every execution without faults ends like this. -/
abbrev Always {α : Type} (program : Program Call Reply α) (world : World)
    (good : α → World → Prop) : Prop :=
  Post (HandleStep noFaults) program world good

/-! ## Calls of the store -/

section Calls

variable {world : World} {records : List RawRecord}

theorem always_of_ensures {α : Type} {program : KvpIo α} {good : α → World → Prop}
    {bad : KvpError → World → Prop} {final : Except KvpError α → World → Prop}
    (ensured : Ensures (HandleStep noFaults) program world good bad)
    (onValue : ∀ value after, good value after → final (.ok value) after)
    (onError : ∀ error after, bad error after → final (.error error) after) :
    Always program.run world final := by
  refine Post.imp ensured ?_
  intro outcome after reached
  cases outcome with
  | ok value => exact onValue value after reached
  | error error => exact onError error after reached

theorem update_always (bytes : world.bytes = image records) (update : Update) :
    Always update.perform.run world fun result after =>
      result = (update.onList records).1 ∧ after.bytes = image (update.onList records).2 := by
  have performed := @update_performs noFaults world records bytes update
  refine always_of_ensures performed ?_ ?_
  · exact fun _ _ outcome => outcome.resolve_right fun fault => not_faulted_noFaults fault.1
  · exact fun _ _ outcome => outcome.resolve_right fun fault => not_faulted_noFaults fault.1

/-- A reading call on an empty pool, missing or not. -/
theorem collect_of_empty {β : Type} (bytes : world.bytes = []) (visit : β → Text × Text → β)
    (initial : β) :
    Always (unlessMissing KvpPoolStore.iter initial
      (KvpPoolStore.collect visit initial)).run world fun result _ => result = .ok initial := by
  have emptyImage : world.bytes = image ([] : List RawRecord) := bytes
  refine always_of_ensures (collect_ensures emptyImage Decodable.nil visit initial) ?_ ?_
  · intro value after read
    rw [read.resolve_right not_faulted_noFaults]
    rfl
  · exact fun _ _ fault => absurd fault not_faulted_noFaults

/-- Clearing a stale pool leaves it as it is or empty. -/
theorem clearIfStale_always (bytes : world.bytes = image records) :
    Always KvpPoolStore.clearIfStale.run world fun result after =>
      result = .ok () ∧ (after.bytes = image records ∨ after.bytes = []) := by
  have cleared : Ensures (HandleStep noFaults) KvpPoolStore.clearIfStale world
      (fun _ after => after.bytes = image records ∨ after.bytes = []) (fun _ _ => False) := by
    apply unlessMissing_ensures (KvpPoolStore.openForReadWrite_ensures bytes)
    · rintro error after ⟨left, -⟩ -
      exact .inl left
    · rintro error after ⟨-, fault | missing⟩ present
      · exact not_faulted_noFaults fault
      · exact present missing.1
    · intro _ middle left
      have locked : Ensures (HandleStep noFaults)
          (Io.lift do
            let bootTime ← request .bootTime
            lockForWriting
            let info ← request .metadata
            if info.mtime ≤ bootTime then request (.setLen 0) else pure ()) middle
          (fun _ after => after.bytes = image records ∨ after.bytes = []) (fun _ _ => False) := by
        refine (@ensures_lift noFaults middle _ _ _ (fun _ _ => False) ?_).imp (fun _ _ => id) ?_
        rotate_left
        · rintro _ _ ⟨_, _, impossible⟩
          exact impossible
        have noFault : ∀ {before : World} {error : IoError} {after : World},
            Untouched noFaults before error after → False :=
          fun untouched => not_faulted_noFaults untouched.2
        have asked := @ensures_quiet noFaults middle .bootTime
          middle.bootTime middle.position (fun _ => nofun) fun _ => rfl
        apply asked.bind fun _ _ => noFault
        rintro bootTime first ⟨-, firstFile, -⟩
        apply lockForWriting_ensures.bind fun _ _ => noFault
        rintro _ second secondFile
        apply ensures_metadata.bind fun _ _ => noFault
        rintro info third ⟨-, thirdFile, -⟩
        have kept : third.bytes = image records := by
          rw [World.bytes_eq_of_file_eq (thirdFile.trans (secondFile.trans firstFile)), left]
        split
        · apply (ensures_setLen (Nat.zero_le _)).imp
          · exact fun _ _ cut => .inr cut.1
          · exact fun _ _ => noFault
        · exact ensures_pure_iff.mpr (.inl kept)
      exact @closing_ensures noFaults middle _ _
        (fun _ left => left = image records ∨ left = []) (fun _ _ => False) locked
  refine always_of_ensures cleared ?_ ?_
  · exact fun _ _ left => ⟨rfl, left⟩
  · exact fun _ _ => False.elim

/-! ## Updates of other programs -/

/-- What the body makes of the bytes it finds, the whole update makes of them, unless
there is no pool to open. -/
theorem foreign_always {good : List UInt8 → Prop} (update : ForeignUpdate)
    (domain : LockDomain)
    (worked : ∀ (middle : World) (result : Except IoError Unit) (after : World),
      Program.Runs (HandleStep noFaults) update.body.run middle result after →
        middle.bytes = world.bytes → good after.bytes)
    (unopened : update.creates = false → world.file = none → good world.bytes) :
    Always (update.perform domain).run world fun _ after => good after.bytes := by
  have opens : Ensures (HandleStep noFaults) update.openPool world
      (fun _ after => after.bytes = world.bytes) (fun _ after => good after.bytes) := by
    unfold ForeignUpdate.openPool
    split
    · exact openCreate_ensures.imp (fun _ _ => id)
        fun _ _ stopped => absurd stopped.2 not_faulted_noFaults
    · rename_i existing
      apply (open_ensures (by simp)).imp (fun _ _ file => World.bytes_eq_of_file_eq file)
      rintro error after ⟨file, fault | ⟨-, missing⟩⟩
      · exact absurd fault not_faulted_noFaults
      · rw [World.bytes_eq_of_file_eq file]
        exact unopened (by simpa using existing) missing
  have performed : Ensures (HandleStep noFaults) (update.perform domain) world
      (fun _ after => good after.bytes) (fun _ after => good after.bytes) := by
    refine opens.bind (fun _ _ => id) ?_
    intro _ middle opened
    refine @closing_ensures noFaults middle _ _ (fun _ left => good left)
      (fun _ left => good left) ?_
    have locked : Ensures (HandleStep noFaults) (lockExclusive domain) middle
        (fun _ after => after.file = middle.file) (Untouched noFaults middle) := by
      cases domain
      · exact lock_ensures (by simp) middle
      · exact lock_ensures (by simp) middle
    have inside : Ensures (HandleStep noFaults) (do lockExclusive domain; update.body) middle
        (fun _ after => good after.bytes) (fun _ after => good after.bytes) := by
      refine locked.bind (fun _ _ untouched => absurd untouched.2 not_faulted_noFaults) ?_
      intro _ inside file result after execution
      have left : good after.bytes :=
        worked inside result after execution ((World.bytes_eq_of_file_eq file).trans opened)
      cases result <;> exact left
    apply (ensures_lift inside).imp (fun _ _ => id)
    rintro _ _ ⟨_, _, left⟩
    exact left
  exact always_of_ensures performed (fun _ _ => id) fun _ _ => id

end Calls

/-! ## The file outside the section -/

/-- The calls that change the file write to it, cut it, or create it. -/
theorem file_perform {call : Call} {world : World} (noWrite : ∀ data, call ≠ .writeAll data)
    (noCut : ∀ len, call ≠ .setLen len) (noCreation : call ≠ .openReadWriteCreate) :
    (call.perform world).2.file = world.file := by
  cases call with
  | writeAll data => exact absurd rfl (noWrite data)
  | setLen len => exact absurd rfl (noCut len)
  | openReadWriteCreate => exact absurd rfl noCreation
  | openRead | openReadWrite =>
      cases file : world.file <;> simp [Call.perform, file]
  | readExact count =>
      simp only [Call.perform]
      split <;> rfl
  | bootTime | flockExclusive | flockShared | flockUnlock | fcntlExclusive | fcntlShared
  | metadata | seekStart | seekEnd | streamPosition | flush | close => rfl

/-- A move that neither creates the pool nor works on it exclusively keeps the file. -/
theorem Discipline.Moves.file_perform {discipline : Discipline} {stage later : Stage}
    {call : Call} {reply : Reply call} (moves : discipline.Moves stage call reply later)
    (existing : discipline.creates = false ∨ stage ≠ .outside)
    (quiet : discipline.mode = .shared ∨ stage ≠ .opened []) (world : World) :
    (call.perform world).2.file = world.file := by
  cases moves with
  | opens _ _ opening =>
      rw [existing.resolve_right fun outside => outside rfl] at opening
      rcases opening with rfl | rfl <;>
        exact Kvp.file_perform (fun _ => nofun) (fun _ => nofun) nofun
  | locks _ _ _ _ acquires =>
      apply Kvp.file_perform
      · rintro _ rfl
        cases acquires
      · rintro _ rfl
        cases acquires
      · rintro rfl
        cases acquires
  | asksBootTime _ _ _ _ asks =>
      subst asks
      rfl
  | works _ _ inside =>
      rw [quiet.resolve_right fun outside => outside rfl] at inside
      apply Kvp.file_perform
      · rintro _ rfl
        cases inside
      · rintro _ rfl
        cases inside
      · rintro rfl
        cases inside
  | drops _ _ closes =>
      subst closes
      rfl

theorem HandleStep.answered {call : Call} {before after : World} {reply : Reply call}
    (stepped : HandleStep noFaults call before reply after) :
    call.Answers reply ∧ ∃ now, reply = (call.perform (before.at now)).1 ∧
      after = (call.perform (before.at now)).2 := by
  cases stepped with
  | performed _ _ now => exact ⟨⟨_, rfl⟩, now, rfl, rfl⟩
  | failed _ _ _ _ fault => exact fault.elim
  | torn _ _ _ _ _ fault => exact fault.elim

section Tasks

variable {domain : LockDomain} {task : Task} {before : World} {outcome : Outcome}
  {after : World}

/-- A reading task leaves the file alone. -/
theorem file_of_shared (shared : (task.discipline domain).mode = .shared)
    (existing : (task.discipline domain).creates = false)
    (execution : Program.Runs (HandleStep noFaults) (task.program domain) before outcome after) :
    after.file = before.file := by
  have preserved : ∀ (stage : Stage) (call : Call) (middle : World) (reply : Reply call)
      (next : World) (later : Stage), HandleStep noFaults call middle reply next →
        (task.discipline domain).advance stage call reply = some later →
          middle.file = before.file → next.file = before.file := by
    intro stage call middle reply next later stepped advanced file
    obtain ⟨-, now, rfl, rfl⟩ := stepped.answered
    have moves := Discipline.moves_of_advance advanced
    rw [moves.file_perform (.inl existing) (.inl shared), World.file_at, file]
  obtain ⟨_, -, kept⟩ := (task_governed domain task).invariant execution
    (fun _ _ _ _ stepped => stepped.answered.1) preserved rfl
  exact kept

/-- A task that does not create the pool leaves a missing one missing. -/
theorem file_of_missing (existing : (task.discipline domain).creates = false)
    (missing : before.file = none)
    (execution : Program.Runs (HandleStep noFaults) (task.program domain) before outcome after) :
    after.file = none := by
  have preserved : ∀ (stage : Stage) (call : Call) (middle : World) (reply : Reply call)
      (next : World) (later : Stage), HandleStep noFaults call middle reply next →
        (task.discipline domain).advance stage call reply = some later →
          middle.file = none ∧ stage.Idle → next.file = none ∧ later.Idle := by
    rintro stage call middle reply next later stepped advanced ⟨file, idle⟩
    obtain ⟨-, now, rfl, rfl⟩ := stepped.answered
    have moves := Discipline.moves_of_advance advanced
    have quiet : stage ≠ .opened [] := by
      rintro rfl
      cases idle with
      | inl impossible => cases impossible
      | inr impossible => cases impossible
    refine ⟨(moves.file_perform (.inl existing) (.inr quiet) _).trans file, ?_⟩
    cases moves with
    | opens _ _ opening =>
        rw [existing] at opening
        right
        rcases opening with rfl | rfl <;> simp [Call.perform, file, Except.isOk, Except.toBool]
    | locks | asksBootTime | works | drops =>
        rcases idle with impossible | impossible <;> cases impossible
  obtain ⟨_, -, kept⟩ := (task_governed domain task).invariant execution
    (fun _ _ _ _ stepped => stepped.answered.1) preserved ⟨missing, .inl rfl⟩
  exact kept.1

end Tasks

/-! ## One task after the other -/

/-- The records that a call appends when it succeeds. -/
def Task.appended : Task → List RawRecord
  | .own (.update (.append _ key value)) => [RawRecord.encode key value]
  | .own (.update (.appendMultiple _ added)) => encodeAll added
  | _ => []

/-- An update of another program that finds its pool empty leaves it so, unless it is
one that creates the pool. -/
def ForeignUpdate.Settled (update : ForeignUpdate) : Prop :=
  update.creates = false → ∀ (world : World) (result : Except IoError Unit) (after : World),
    Program.Runs (HandleStep noFaults) update.body.run world result after →
      world.bytes = [] → after.bytes = []

def Task.Settled : Task → Prop
  | .own _ => True
  | .foreign update => update.Settled

theorem Update.appended_suffix {change : Update} {records : List RawRecord}
    {reply : UpdateReply} (accepted : (change.onList records).1 = .ok reply) :
    (Task.own (.update change)).appended <:+ (change.onList records).2 := by
  cases change with
  | append mode key value =>
      simp only [Update.onList] at accepted ⊢
      split at accepted
      · cases accepted
      · exact List.suffix_append _ _
  | appendMultiple mode added =>
      simp only [Update.onList] at accepted ⊢
      split at accepted
      · rename_i none
        rw [List.isEmpty_iff.mp none]
        exact List.nil_suffix
      · rename_i filled
        rw [if_neg filled]
        split at accepted
        · cases accepted
        · exact List.suffix_append _ _
  | insert | delete | deleteMultiple | load | clear => exact List.nil_suffix

theorem Update.onList_nil {change : Update} (existing : change.creates = false) :
    (change.onList []).2 = [] := by
  cases change with
  | append | appendMultiple | insert | load => cases existing
  | clear => rfl
  | delete key =>
      simp only [Update.onList, Sweep.sweep_nil]
      split <;> rfl
  | deleteMultiple keys =>
      simp only [Update.onList, Sweep.sweep_nil]
      split
      · rfl
      · split <;> rfl

theorem exceptMap_eq_ok {ε α β : Type} {result : Except ε α} {f : α → β} {value : β}
    (mapped : result.map f = .ok value) : ∃ inner, result = .ok inner := by
  cases result with
  | ok inner => exact ⟨inner, rfl⟩
  | error error => cases mapped

section Yields

variable {domain : LockDomain} {bootTime : Int} {before after : Option PoolFile}
  {outcome : Outcome}

theorem always_mapOk {α β : Type} {program : KvpIo α} {world : World} {f : α → β}
    {good : Except KvpError β → World → Prop}
    (always : Always program.run world fun result after => good (result.map f) after) :
    Always (program >>= fun value => pure (f value)).run world good := by
  rw [Always, ExceptT.run_bind, post_bind_iff]
  refine Post.imp always ?_
  intro result after reached
  cases result with
  | ok value => exact post_pure_iff.mpr reached
  | error error => exact post_pure_iff.mpr reached

/-- What every execution of a call returns and leaves, its task yields. -/
theorem Task.Yields.of_always {call : PoolCall} {good : Except KvpError PoolReply → World → Prop}
    (yields : (Task.own call).Yields domain bootTime before outcome after)
    (always : ∀ world : World, world.bytes = fileBytes before →
      Always call.perform.run world good) :
    ∃ result final, outcome = .own result ∧ good result final ∧ final.file = after := by
  obtain ⟨now, final, execution, file⟩ := yields
  obtain ⟨result, middle, performed, returned⟩ := Program.runs_bind_iff.mp execution
  obtain ⟨rfl, rfl⟩ := Program.runs_pure_iff.mp returned
  have reached := always _ (World.bytes_eq_fileBytes _) _ _ performed
  exact ⟨result, final, rfl, reached, file⟩

theorem Task.Yields.of_update {change : Update} {records : List RawRecord}
    (yields : (Task.own (.update change)).Yields domain bootTime before outcome after)
    (stored : fileBytes before = image records) :
    outcome = .own ((change.onList records).1.map .updated) ∧
      fileBytes after = image (change.onList records).2 := by
  have performed : ∀ world : World, world.bytes = fileBytes before →
      Always (PoolCall.update change).perform.run world fun result after =>
        result = (change.onList records).1.map .updated ∧
          after.bytes = image (change.onList records).2 := by
    intro world bytes
    apply always_mapOk
    refine Post.imp (update_always (bytes.trans stored) change) ?_
    exact fun _ _ left => ⟨congrArg _ left.1, left.2⟩
  obtain ⟨result, final, rfl, ⟨rfl, left⟩, rfl⟩ := yields.of_always performed
  exact ⟨rfl, (World.bytes_eq_fileBytes final).symm.trans left⟩

theorem Task.Yields.of_clearIfStale {records : List RawRecord}
    (yields : (Task.own .clearIfStale).Yields domain bootTime before outcome after)
    (stored : fileBytes before = image records) :
    outcome = .own (.ok (.updated .done)) ∧
      (fileBytes after = image records ∨ fileBytes after = []) := by
  have performed : ∀ world : World, world.bytes = fileBytes before →
      Always PoolCall.clearIfStale.perform.run world fun result after =>
        result = .ok (.updated .done) ∧ (after.bytes = image records ∨ after.bytes = []) := by
    intro world bytes
    apply always_mapOk
    refine Post.imp (clearIfStale_always (bytes.trans stored)) ?_
    rintro _ _ ⟨rfl, left⟩
    exact ⟨rfl, left⟩
  obtain ⟨result, final, rfl, ⟨rfl, left⟩, rfl⟩ := yields.of_always performed
  rw [World.bytes_eq_fileBytes] at left
  exact ⟨rfl, left⟩

theorem Task.Yields.of_foreign {update : ForeignUpdate} {good : List UInt8 → Prop}
    (yields : (Task.foreign update).Yields domain bootTime before outcome after)
    (kept : ∀ (world : World) (result : Except IoError Unit) (after : World),
      Program.Runs (HandleStep noFaults) update.body.run world result after →
        good world.bytes → good after.bytes)
    (initial : good (fileBytes before)) : outcome = .foreign ∧ good (fileBytes after) := by
  obtain ⟨now, final, execution, rfl⟩ := yields
  obtain ⟨result, middle, performed, returned⟩ := Program.runs_bind_iff.mp execution
  obtain ⟨rfl, rfl⟩ := Program.runs_pure_iff.mp returned
  have found : good (aloneAt bootTime before now).bytes := by
    rw [World.bytes_eq_fileBytes]
    exact initial
  have left : good final.bytes := foreign_always update domain
    (fun middle result after execution same => kept middle result after execution (same ▸ found))
    (fun _ _ => found) _ _ performed
  exact ⟨rfl, World.bytes_eq_fileBytes final ▸ left⟩

theorem Task.Yields.of_shared {task : Task}
    (yields : task.Yields domain bootTime before outcome after)
    (shared : (task.discipline domain).mode = .shared)
    (existing : (task.discipline domain).creates = false) : after = before := by
  obtain ⟨now, final, execution, rfl⟩ := yields
  exact file_of_shared shared existing execution

/-- A task on whole records leaves whole records; what it has appended stands at the end. -/
theorem Task.Yields.leaves_image {task : Task} {records : List RawRecord}
    (yields : task.Yields domain bootTime before outcome after)
    (stored : fileBytes before = image records) :
    ∃ left, fileBytes after = image left ∧
      ∀ reply, outcome = .own (.ok reply) → task.appended <:+ left := by
  have read (shared : (task.discipline domain).mode = .shared)
      (existing : (task.discipline domain).creates = false) (none : task.appended = []) :
      ∃ left, fileBytes after = image left ∧
        ∀ reply, outcome = .own (.ok reply) → task.appended <:+ left := by
    refine ⟨records, ?_, fun _ _ => none ▸ List.nil_suffix⟩
    rw [yields.of_shared shared existing, stored]
  cases task with
  | foreign update =>
      have framed : (fileBytes before).length % recordSize = 0 := by
        rw [stored, Blocks.length_image, Nat.mul_mod_left]
      obtain ⟨rfl, left⟩ := @Task.Yields.of_foreign _ _ _ _ _ _
        (fun bytes => bytes.length % recordSize = 0) yields update.framed framed
      exact ⟨_, (Blocks.image_wholeBlocks recordSize_pos left).symm, fun _ => nofun⟩
  | own call =>
      cases call with
      | read key => exact read rfl rfl rfl
      | entries => exact read rfl rfl rfl
      | dump => exact read rfl rfl rfl
      | clearIfStale =>
          obtain ⟨-, kept | cleared⟩ := yields.of_clearIfStale stored
          · exact ⟨records, kept, fun _ _ => List.nil_suffix⟩
          · exact ⟨[], cleared, fun _ _ => List.nil_suffix⟩
      | update change =>
          obtain ⟨rfl, left⟩ := yields.of_update stored
          refine ⟨_, left, ?_⟩
          rintro reply told
          obtain ⟨value, accepted⟩ := exceptMap_eq_ok (Outcome.own.inj told)
          exact change.appended_suffix accepted

/-- What a task returns that finds the pool empty, whether the file is there or not. -/
theorem Task.Settled.on_empty {task : Task} (settled : task.Settled)
    (existing : (task.discipline domain).creates = false) :
    ∃ fixed : Outcome, ∀ before outcome after, fileBytes before = [] →
      task.Yields domain bootTime before outcome after →
        outcome = fixed ∧ fileBytes after = [] := by
  have reading {call : PoolCall} {result : Except KvpError PoolReply}
      (shared : call.mode = .shared) (existing : call.creates = false)
      (performed : ∀ world : World, world.bytes = [] →
        Always call.perform.run world fun told _ => told = result) :
      ∃ fixed : Outcome, ∀ before outcome after, fileBytes before = [] →
        (Task.own call).Yields domain bootTime before outcome after →
          outcome = fixed ∧ fileBytes after = [] := by
    refine ⟨.own result, fun before outcome after empty yields => ?_⟩
    obtain ⟨told, _, rfl, rfl, -⟩ :=
      yields.of_always fun world bytes => performed world (bytes.trans empty)
    rw [yields.of_shared shared existing]
    exact ⟨rfl, empty⟩
  cases task with
  | foreign update =>
      refine ⟨.foreign, fun before outcome after empty yields => ?_⟩
      exact @Task.Yields.of_foreign _ _ _ _ _ _ (· = []) yields (settled existing) empty
  | own call =>
      cases call with
      | update change =>
          refine ⟨.own ((change.onList []).1.map .updated), fun before outcome after empty yields => ?_⟩
          have stored : fileBytes before = image ([] : List RawRecord) := empty
          obtain ⟨told, left⟩ := yields.of_update stored
          rw [Update.onList_nil existing] at left
          exact ⟨told, left⟩
      | clearIfStale =>
          refine ⟨.own (.ok (.updated .done)), fun before outcome after empty yields => ?_⟩
          have stored : fileBytes before = image ([] : List RawRecord) := empty
          obtain ⟨told, left⟩ := yields.of_clearIfStale stored
          exact ⟨told, left.elim id id⟩
      | entries =>
          apply reading rfl rfl
          exact fun world empty => always_mapOk <| Post.imp (collect_of_empty empty _ _)
            fun _ _ told => congrArg _ told
      | dump =>
          apply reading rfl rfl
          exact fun world empty => always_mapOk <| Post.imp (collect_of_empty empty _ _)
            fun _ _ told => congrArg _ told
      | read key =>
          cases valid : validateKey key usizeMax with
          | error error =>
              apply @reading (.read key) (.error error) rfl rfl
              intro world _
              simp only [PoolCall.perform, KvpPoolStore.read, valid]
              exact post_pure_iff.mpr rfl
          | ok _ =>
              apply @reading (.read key) (.ok (.value none)) rfl rfl
              intro world empty
              apply always_mapOk
              simp only [KvpPoolStore.read, valid]
              exact Post.imp (collect_of_empty empty _ _) fun _ _ told => congrArg _ told

/-- Whether it finds an empty pool or a missing one, a task that does not create it
returns the same. -/
theorem Task.Settled.yields_missing {task : Task} (settled : task.Settled)
    (existing : (task.discipline domain).creates = false) (empty : fileBytes before = [])
    (yields : task.Yields domain bootTime before outcome after) :
    fileBytes after = [] ∧ task.Yields domain bootTime none outcome none := by
  obtain ⟨fixed, on_empty⟩ := @Task.Settled.on_empty domain bootTime task settled existing
  have execution := runs_execute noFaults (task.program domain) (aloneAt bootTime none 0)
  have missing := file_of_missing existing rfl execution
  obtain ⟨told, -⟩ := on_empty none _ none rfl ⟨0, _, execution, missing⟩
  obtain ⟨rfl, left⟩ := on_empty before outcome after empty yields
  rw [told] at execution
  exact ⟨left, 0, _, execution, missing⟩

end Yields

end AzureInit.Kvp
