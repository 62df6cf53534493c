import AzureInit.Kvp.Concurrency

/-! The order in which a task opens the pool, takes its locks, works on the file and
drops its handle. Every task of a client keeps to it. -/

set_option autoImplicit false

namespace AzureInit.Kvp

open Foundation

/-- How a task opens the pool, and the locks it takes, one after the other. -/
structure Discipline where
  creates : Bool
  mode : LockMode
  domains : List LockDomain

def Update.creates : Update → Bool
  | .append .. | .appendMultiple .. | .insert .. | .load .. => true
  | .delete _ | .deleteMultiple _ | .clear => false

def PoolCall.creates : PoolCall → Bool
  | .update change => change.creates
  | .clearIfStale | .read _ | .entries | .dump => false

def PoolCall.mode : PoolCall → LockMode
  | .update _ | .clearIfStale => .exclusive
  | .read _ | .entries | .dump => .shared

def Task.discipline (domain : LockDomain) : Task → Discipline
  | .own call => { creates := call.creates, mode := call.mode, domains := [.flock, .fcntl] }
  | .foreign update => { creates := update.creates, mode := .exclusive, domains := [domain] }

/-- Where a task stands: with the pool not open, with locks still to take (in the
section when there are none), or with its handle dropped. -/
inductive Stage where
  | outside
  | opened (waiting : List LockDomain)
  | dropped
  deriving DecidableEq, Repr

def Stage.inSection : Stage := .opened []

/-- A task ends before it has opened the pool or after it has dropped the handle. -/
def Stage.Idle (stage : Stage) : Prop := stage = .outside ∨ stage = .dropped

/-- The locks that a task holds at a stage. -/
def Discipline.locksAt (discipline : Discipline) : Stage → Locks LockDomain
  | .opened waiting => fun domain =>
      if domain ∈ discipline.domains ∧ domain ∉ waiting then some discipline.mode else none
  | .outside | .dropped => noLocks

/-- The stage that a call leads to, if it has its place there. -/
def Discipline.advance (discipline : Discipline) :
    Stage → (call : Call) → Reply call → Option Stage
  | .outside, .openRead, reply | .outside, .openReadWrite, reply =>
      if discipline.creates then none
      else some (if reply.isOk then .opened discipline.domains else .dropped)
  | .outside, .openReadWriteCreate, reply =>
      if discipline.creates then
        some (if reply.isOk then .opened discipline.domains else .dropped)
      else none
  | .opened (domain :: waiting), call, _ =>
      if call.acquires = some (domain, discipline.mode) then some (.opened waiting)
      else if call = .bootTime then some (.opened (domain :: waiting))
      else none
  | .opened [], .close, _ => some .dropped
  | .opened [], call, _ => if call.isInside discipline.mode then some (.opened []) else none
  | _, _, _ => none

/-- Whether a call opens the pool, and creates it if need be. -/
def Call.Opens (creates : Bool) (call : Call) : Prop :=
  if creates then call = .openReadWriteCreate else call = .openRead ∨ call = .openReadWrite

/-- The moves from stage to stage. -/
inductive Discipline.Moves (discipline : Discipline) :
    Stage → (call : Call) → Reply call → Stage → Prop where
  | opens (call : Call) (reply : Reply call) : call.Opens discipline.creates →
      discipline.Moves .outside call reply
        (if reply.isOk then .opened discipline.domains else .dropped)
  | locks (call : Call) (reply : Reply call) (domain : LockDomain)
      (waiting : List LockDomain) : call.acquires = some (domain, discipline.mode) →
      discipline.Moves (.opened (domain :: waiting)) call reply (.opened waiting)
  | asksBootTime (call : Call) (reply : Reply call) (domain : LockDomain)
      (waiting : List LockDomain) : call = .bootTime →
      discipline.Moves (.opened (domain :: waiting)) call reply (.opened (domain :: waiting))
  | works (call : Call) (reply : Reply call) : call.isInside discipline.mode = true →
      discipline.Moves (.opened []) call reply (.opened [])
  | drops (call : Call) (reply : Reply call) : call = .close →
      discipline.Moves (.opened []) call reply .dropped

theorem Discipline.moves_of_advance {discipline : Discipline} {stage later : Stage}
    {call : Call} {reply : Reply call}
    (advanced : discipline.advance stage call reply = some later) :
    discipline.Moves stage call reply later := by
  cases stage with
  | outside =>
      cases creates : discipline.creates <;> cases call <;>
        simp [Discipline.advance, creates] at advanced <;> subst advanced <;>
        exact .opens _ _ (by simp [Call.Opens, creates])
  | dropped => cases call <;> cases advanced
  | opened waiting =>
      cases waiting with
      | cons domain waiting =>
          have leads : (if call.acquires = some (domain, discipline.mode) then
              some (.opened waiting)
            else if call = .bootTime then some (.opened (domain :: waiting)) else none) =
              some later := by
            cases call <;> exact advanced
          split at leads
          · rename_i acquires
            cases leads
            exact .locks _ _ _ _ acquires
          · split at leads
            · rename_i asks
              cases leads
              exact .asksBootTime _ _ _ _ asks
            · cases leads
      | nil =>
          by_cases closes : call = .close
          · subst closes
            cases advanced
            exact .drops _ _ rfl
          · have leads : (if call.isInside discipline.mode then some (Stage.opened [])
                else none) = some later := by
              cases call <;> first | exact advanced | exact absurd rfl closes
            split at leads
            · rename_i inside
              cases leads
              exact .works _ _ inside
            · cases leads

/-- An answer that a call may be given where nothing fails. -/
def Call.Answers (call : Call) (reply : Reply call) : Prop :=
  ∃ world : World, reply = (call.perform world).1

def Discipline.protocol (discipline : Discipline) : Protocol Call Reply Stage where
  answers := Call.Answers
  advance := discipline.advance

/-! ## Inside the section -/

/-- A program that works on its open handle alone. -/
def StaysInside {α : Type} (mode : LockMode) (program : Program Call Reply α) : Prop :=
  program.Uses fun call => call.isInside mode = true

section Inside

variable {mode : LockMode} {α β : Type}

theorem staysInside_pure (value : α) :
    StaysInside mode (pure value : Program Call Reply α) := Program.uses_pure value

theorem StaysInside.bind {program : Program Call Reply α}
    {continuation : α → Program Call Reply β} (first : StaysInside mode program)
    (rest : ∀ value, StaysInside mode (continuation value)) :
    StaysInside mode (program >>= continuation) := Program.Uses.bind first rest

theorem staysInside_request {call : Call} (inside : call.isInside mode = true) :
    StaysInside mode (request call).run := Program.uses_ask_iff.mpr inside

theorem StaysInside.io {program : Io α} {continuation : α → Io β}
    (first : StaysInside mode program.run)
    (rest : ∀ value, StaysInside mode (continuation value).run) :
    StaysInside mode (program >>= continuation).run := usesExcept_bind first rest

theorem StaysInside.kvpIo {program : KvpIo α} {continuation : α → KvpIo β}
    (first : StaysInside mode program.run)
    (rest : ∀ value, StaysInside mode (continuation value).run) :
    StaysInside mode (program >>= continuation).run := usesExcept_bind first rest

theorem StaysInside.lift {program : Io α} (inside : StaysInside mode program.run) :
    StaysInside mode (Io.lift program).run := by
  apply StaysInside.bind inside
  intro outcome
  cases outcome <;> exact staysInside_pure _

theorem append_staysInside (iter : KvpPoolIter) (key value : Text) :
    StaysInside .exclusive (iter.append key value).run := by
  apply StaysInside.io (staysInside_request rfl)
  intro _
  apply StaysInside.io (staysInside_request rfl)
  intro _
  apply StaysInside.io (staysInside_request rfl)
  intro _
  apply StaysInside.io (staysInside_request rfl)
  exact fun _ => staysInside_pure _

theorem appendAll_staysInside (records : List (Text × Text)) (iter : KvpPoolIter) :
    StaysInside .exclusive
      (records.foldlM (fun (iter : KvpPoolIter) (record : Text × Text) =>
        Io.lift (iter.append record.1 record.2)) iter : KvpIo KvpPoolIter).run := by
  induction records generalizing iter with
  | nil => exact staysInside_pure _
  | cons record records ih =>
      rw [List.foldlM_cons]
      exact StaysInside.kvpIo (append_staysInside iter record.1 record.2).lift ih

theorem overwriteCurrentValue_staysInside (iter : KvpPoolIter) (value : Text) :
    StaysInside .exclusive (iter.overwriteCurrentValue value).run := by
  unfold KvpPoolIter.overwriteCurrentValue
  split
  · exact staysInside_pure _
  · apply StaysInside.io (staysInside_request rfl)
    exact fun _ => staysInside_request rfl

theorem swapInLast_staysInside (deleteIndex lastIndex : Nat) :
    StaysInside .exclusive (KvpPoolIter.swapInLast deleteIndex lastIndex).run := by
  apply StaysInside.io (staysInside_request rfl)
  intro _
  apply StaysInside.io (staysInside_request rfl)
  intro _
  apply StaysInside.io (staysInside_request rfl)
  intro _
  apply StaysInside.io (staysInside_request rfl)
  intro _
  apply StaysInside.io (staysInside_request rfl)
  exact fun _ => staysInside_pure _

theorem removeCurrent_staysInside (iter : KvpPoolIter) :
    StaysInside .exclusive iter.removeCurrent.run := by
  have cut : ∀ (len : Nat) (left : KvpPoolIter), StaysInside .exclusive
      (do request (.setLen len); return left : Io KvpPoolIter).run := by
    intro len left
    apply StaysInside.io (staysInside_request rfl)
    exact fun _ => staysInside_pure _
  unfold KvpPoolIter.removeCurrent
  dsimp only
  split
  · exact staysInside_pure _
  · split
    · exact staysInside_pure _
    · split
      · exact StaysInside.io (swapInLast_staysInside _ _) fun _ => cut _ _
      · exact cut _ _

theorem readExact_isInside (mode : LockMode) (count : Nat) :
    (Call.readExact count).isInside mode = true := by cases mode <;> rfl

theorem next_staysInside (iter : KvpPoolIter) : StaysInside mode iter.next := by
  unfold KvpPoolIter.next
  split
  · exact staysInside_pure _
  · apply StaysInside.bind (staysInside_request (readExact_isInside mode _))
    intro outcome
    cases outcome <;> exact staysInside_pure _

theorem forEachRecord_staysInside {body : KvpPoolIter → β → Text × Text → KvpIo (KvpPoolIter × β)}
    (inside : ∀ iter state record, StaysInside mode (body iter state record).run)
    (bound : Nat) (iter : KvpPoolIter) (state : β) :
    StaysInside mode (KvpPoolIter.forEachRecord body bound iter state).run := by
  induction bound generalizing iter state with
  | zero => exact staysInside_pure _
  | succ bound ih =>
      rw [KvpPoolIter.forEachRecord_succ]
      apply StaysInside.bind (next_staysInside iter)
      rintro ⟨_ | ⟨error | record⟩, iter⟩
      · exact staysInside_pure _
      · exact staysInside_pure _
      · exact StaysInside.kvpIo (inside iter state record) fun next => ih next.1 next.2

theorem removeTargeted_staysInside (targeted : Text → Bool) (note : β → β)
    (iter : KvpPoolIter) (noted : β) (record : Text × Text) :
    StaysInside .exclusive (KvpPoolStore.removeTargeted targeted note iter noted record).run := by
  unfold KvpPoolStore.removeTargeted
  split
  · apply StaysInside.kvpIo (removeCurrent_staysInside iter).lift
    exact fun _ => staysInside_pure _
  · exact staysInside_pure _

theorem collect_staysInside (visit : β → Text × Text → β) (initial : β) (iter : KvpPoolIter) :
    StaysInside mode (KvpPoolStore.collect visit initial iter).run := by
  apply StaysInside.kvpIo
  · exact forEachRecord_staysInside (fun _ _ _ => staysInside_pure _) _ _ _
  · exact fun _ => staysInside_pure _

theorem insertRecord_staysInside (key value : Text) (iter : KvpPoolIter)
    (scan : KvpPoolStore.InsertScan) (record : Text × Text) :
    StaysInside .exclusive (KvpPoolStore.insertRecord key value iter scan record).run := by
  unfold KvpPoolStore.insertRecord
  dsimp only
  split
  · split
    · apply StaysInside.kvpIo (removeCurrent_staysInside iter).lift
      exact fun _ => staysInside_pure _
    · apply StaysInside.kvpIo (overwriteCurrentValue_staysInside iter value).lift
      exact fun _ => staysInside_pure _
  · exact staysInside_pure _

theorem insertMissing_staysInside (key value : Text) (iter : KvpPoolIter)
    (scan : KvpPoolStore.InsertScan) :
    StaysInside .exclusive (KvpPoolStore.insertMissing key value iter scan).run := by
  unfold KvpPoolStore.insertMissing
  split
  · exact staysInside_pure _
  · split
    · exact staysInside_pure _
    · apply StaysInside.kvpIo (append_staysInside iter key value).lift
      exact fun _ => staysInside_pure _

theorem flush_staysInside : StaysInside .exclusive (Io.lift KvpPoolIter.flush).run :=
  (staysInside_request rfl : StaysInside .exclusive KvpPoolIter.flush.run).lift

theorem flushIf_staysInside (condition : Prop) [Decidable condition] :
    StaysInside .exclusive
      (Io.lift (if condition then KvpPoolIter.flush else pure ())).run := by
  split
  · exact flush_staysInside
  · exact StaysInside.lift (staysInside_pure _)

end Inside

/-! ## Around the section -/

/-- A program that ends with its handle dropped, or without having opened the pool. -/
def Discipline.Governs {α : Type} (discipline : Discipline) (program : Program Call Reply α)
    (stage : Stage) : Prop :=
  discipline.protocol.Obeyed program stage fun _ later => later.Idle

section Around

variable {discipline : Discipline} {α β : Type}

theorem obeyed_request {call : Call} {stage : Stage} {good : Reply call → Stage → Prop}
    (leads : ∀ reply, call.Answers reply →
      ∃ later, discipline.advance stage call reply = some later ∧ good reply later) :
    discipline.protocol.Obeyed (request call).run stage good := leads

theorem obeyed_of_staysInside {program : Program Call Reply α}
    (inside : StaysInside discipline.mode program) :
    discipline.protocol.Obeyed program (.opened []) fun _ later => later = .opened [] := by
  apply Protocol.obeyed_of_uses ?_ inside
  intro call reply allowed
  have leads : (if call.isInside discipline.mode then some (Stage.opened []) else none) =
      some (.opened []) := if_pos allowed
  cases call <;> first | exact leads | cases allowed

theorem obeyed_lift {program : Io α} {stage : Stage} {good : α → Stage → Prop}
    {bad : Stage → Prop}
    (obeyed : discipline.protocol.Obeyed program.run stage
      (eitherWay good fun _ later => bad later)) :
    discipline.protocol.Obeyed (Io.lift program).run stage
      (eitherWay good fun _ later => bad later) := by
  apply obeyed.bind
  intro outcome later reached
  cases outcome <;> exact reached

theorem obeyed_liftStage {program : Io α} {stage : Stage} {final : Stage → Prop}
    (obeyed : discipline.protocol.Obeyed program.run stage fun _ later => final later) :
    discipline.protocol.Obeyed (Io.lift program).run stage fun _ later => final later := by
  apply obeyed.bind
  intro outcome later reached
  cases outcome <;> exact reached

theorem governed_ofResult_bind {result : Except KvpError α} {continuation : α → KvpIo β}
    (rest : ∀ value, discipline.Governs (continuation value).run .outside) :
    discipline.Governs (ofResult result >>= continuation).run .outside := by
  cases result with
  | ok value => exact rest value
  | error error => exact .inl rfl

/-- Whatever a call's result is turned into, the stages are the call's. -/
theorem Discipline.Governs.map {program : Program Call Reply α} {stage : Stage}
    (governed : discipline.Governs program stage) (f : α → β) :
    discipline.Governs (program >>= fun value => pure (f value)) stage :=
  governed.bind fun _ _ idle => idle

theorem Discipline.Governs.mapOk {program : KvpIo α} {stage : Stage}
    (governed : discipline.Governs program.run stage) (f : α → β) :
    discipline.Governs (program >>= fun value => pure (f value)).run stage := by
  rw [ExceptT.run_bind]
  apply governed.bind
  intro outcome later idle
  cases outcome <;> exact idle

/-! ### Locks -/

theorem lock_obeyed {call : Call} {domain : LockDomain} {waiting : List LockDomain}
    {value : call.Value} (acquires : call.acquires = some (domain, discipline.mode))
    (granted : ∀ world : World, (call.perform world).1 = .ok value) :
    discipline.protocol.Obeyed (request call).run (.opened (domain :: waiting))
      (eitherWay (fun _ later => later = .opened waiting) fun _ _ => False) := by
  apply obeyed_request
  rintro reply ⟨world, rfl⟩
  refine ⟨.opened waiting, ?_, ?_⟩
  · exact if_pos acquires
  · rw [granted]
    rfl

theorem lockPair_obeyed {flock fcntl : Io Unit}
    (first : discipline.protocol.Obeyed flock.run (.opened [.flock, .fcntl])
      (eitherWay (fun _ later => later = .opened [.fcntl]) fun _ _ => False))
    (second : discipline.protocol.Obeyed fcntl.run (.opened [.fcntl])
      (eitherWay (fun _ later => later = .opened []) fun _ _ => False)) :
    discipline.protocol.Obeyed (lockPair flock fcntl).run (.opened [.flock, .fcntl])
      (eitherWay (fun _ later => later = .opened []) fun _ _ => False) := by
  apply first.exceptBind (fun _ _ => False.elim)
  rintro _ _ rfl
  apply second.bind
  intro outcome later reached
  cases outcome with
  | ok _ => exact reached
  | error _ => exact False.elim reached

theorem lockForWriting_obeyed (exclusive : discipline.mode = .exclusive) :
    discipline.protocol.Obeyed lockForWriting.run (.opened [.flock, .fcntl])
      (eitherWay (fun _ later => later = .opened []) fun _ _ => False) := by
  apply lockPair_obeyed
  · exact lock_obeyed (exclusive ▸ rfl) fun _ => rfl
  · exact lock_obeyed (exclusive ▸ rfl) fun _ => rfl

theorem lockForReading_obeyed (shared : discipline.mode = .shared) :
    discipline.protocol.Obeyed lockForReading.run (.opened [.flock, .fcntl])
      (eitherWay (fun _ later => later = .opened []) fun _ _ => False) := by
  apply lockPair_obeyed
  · exact lock_obeyed (shared ▸ rfl) fun _ => rfl
  · exact lock_obeyed (shared ▸ rfl) fun _ => rfl

theorem lockExclusive_obeyed (exclusive : discipline.mode = .exclusive)
    (domain : LockDomain) :
    discipline.protocol.Obeyed (lockExclusive domain).run (.opened [domain])
      (eitherWay (fun _ later => later = .opened []) fun _ _ => False) := by
  cases domain
  · exact lock_obeyed (exclusive ▸ rfl) fun _ => rfl
  · exact lock_obeyed (exclusive ▸ rfl) fun _ => rfl

/-! ### Opening and dropping -/

/-- A pool that is opened, or found missing with the handle never made. -/
def Discipline.Opens (discipline : Discipline) (opened : KvpIo Unit) : Prop :=
  discipline.protocol.Obeyed opened.run .outside
    (eitherWay (fun _ later => later = .opened discipline.domains)
      fun _ later => later = .dropped)

theorem open_obeyed {call : Call}
    (leads : ∀ reply : Reply call, discipline.advance .outside call reply =
      some (if reply.isOk then .opened discipline.domains else .dropped)) :
    discipline.protocol.Obeyed (request call).run .outside
      (eitherWay (fun _ later => later = .opened discipline.domains)
        fun _ later => later = .dropped) := by
  apply obeyed_request
  intro reply _
  refine ⟨_, leads reply, ?_⟩
  cases reply <;> rfl

theorem openForRead_opens (existing : discipline.creates = false) :
    discipline.Opens openForRead :=
  obeyed_lift (open_obeyed fun _ => by simp [Discipline.advance, existing])

theorem openForReadWrite_opens (existing : discipline.creates = false) :
    discipline.Opens openForReadWrite :=
  obeyed_lift (open_obeyed fun _ => by simp [Discipline.advance, existing])

theorem openForReadWriteCreate_opens (creating : discipline.creates = true) :
    discipline.Opens openForReadWriteCreate :=
  obeyed_lift (open_obeyed fun _ => by simp [Discipline.advance, creating])

theorem close_obeyed :
    discipline.protocol.Obeyed (request .close).run (.opened [])
      fun _ later => later = .dropped :=
  obeyed_request fun _ _ => ⟨.dropped, rfl, rfl⟩

theorem closing_obeyed {body : KvpIo α} {stage : Stage}
    (inside : discipline.protocol.Obeyed body.run stage fun _ later => later = .opened []) :
    discipline.protocol.Obeyed (closing body).run stage fun _ later => later = .dropped := by
  apply inside.bind
  rintro _ _ rfl
  exact close_obeyed.bind fun _ _ dropped => dropped

theorem closingOnError_obeyed {body : KvpIo α} {stage : Stage}
    (inside : discipline.protocol.Obeyed body.run stage fun _ later => later = .opened []) :
    discipline.protocol.Obeyed (closingOnError body).run stage
      (eitherWay (fun _ later => later = .opened []) fun _ later => later = .dropped) := by
  apply inside.bind
  rintro outcome _ rfl
  cases outcome with
  | ok value => exact rfl
  | error error => exact close_obeyed.bind fun _ _ dropped => dropped

theorem unlessMissing_governed {opened : KvpIo β} {missing : α} {body : β → KvpIo α}
    {between : β → Stage → Prop}
    (opens : discipline.protocol.Obeyed opened.run .outside
      (eitherWay between fun _ later => later = .dropped))
    (rest : ∀ value later, between value later →
      discipline.protocol.Obeyed (closing (body value)).run later
        fun _ final => final = .dropped) :
    discipline.Governs (unlessMissing opened missing body).run .outside := by
  apply opens.bind
  intro outcome later reached
  split
  · exact (rest _ later reached).imp fun _ _ dropped => .inr dropped
  · split <;> exact .inr reached
  · exact .inr reached

/-! ### The iterators -/

/-- The two locks of a client of the store. -/
def bothLocks : List LockDomain := [.flock, .fcntl]

theorem new_obeyed (readOnly : Bool)
    (mode : discipline.mode = if readOnly then .shared else .exclusive) :
    discipline.protocol.Obeyed (KvpPoolIter.new readOnly).run (.opened bothLocks)
      fun _ later => later = .opened [] := by
  have locked : discipline.protocol.Obeyed
      (if readOnly then lockForReading else lockForWriting).run (.opened bothLocks)
      (eitherWay (fun _ later => later = .opened []) fun _ _ => False) := by
    cases readOnly with
    | true => exact lockForReading_obeyed mode
    | false => exact lockForWriting_obeyed mode
  have measured : StaysInside discipline.mode (do
      let info ← Io.lift (request .metadata)
      let recordCount ← Io.lift (ExceptT.mk (pure (recordCountFromLen info.len)))
      let _ ← Io.lift (request (.seekStart 0))
      return { recordCount, currentIndex := 0 } : KvpIo KvpPoolIter).run := by
    apply StaysInside.kvpIo (StaysInside.lift (staysInside_request (by cases discipline.mode <;> rfl)))
    intro info
    apply StaysInside.kvpIo (StaysInside.lift (staysInside_pure _))
    intro recordCount
    apply StaysInside.kvpIo (StaysInside.lift (staysInside_request (by cases discipline.mode <;> rfl)))
    exact fun _ => staysInside_pure _
  apply (obeyed_lift locked).exceptBindStage fun _ _ => False.elim
  rintro _ _ rfl
  exact obeyed_of_staysInside measured

/-- An iterator that is opened and locked, or whose pool was missing or refused. -/
def Discipline.OpensIter (discipline : Discipline) (opened : KvpIo KvpPoolIter) : Prop :=
  discipline.protocol.Obeyed opened.run .outside
    (eitherWay (fun _ later => later = .opened []) fun _ later => later = .dropped)

theorem Discipline.Opens.iter {opened : KvpIo Unit} (opens : discipline.Opens opened)
    (both : discipline.domains = bothLocks) (readOnly : Bool)
    (mode : discipline.mode = if readOnly then .shared else .exclusive) :
    discipline.OpensIter (opened >>= fun _ => closingOnError (KvpPoolIter.new readOnly)) := by
  apply opens.exceptBind fun _ _ => id
  rintro _ _ rfl
  rw [both]
  exact closingOnError_obeyed (new_obeyed readOnly mode)

theorem Discipline.OpensIter.unlessMissing_governed {opened : KvpIo KvpPoolIter} {missing : α}
    {body : KvpPoolIter → KvpIo α} (opens : discipline.OpensIter opened)
    (inside : ∀ iter, StaysInside discipline.mode (body iter).run) :
    discipline.Governs (unlessMissing opened missing body).run .outside := by
  apply Kvp.unlessMissing_governed opens
  rintro iter _ rfl
  exact closing_obeyed (obeyed_of_staysInside (inside iter))

theorem Discipline.OpensIter.closing_governed {opened : KvpIo KvpPoolIter}
    {body : KvpPoolIter → KvpIo α} (opens : discipline.OpensIter opened)
    (inside : ∀ iter, StaysInside discipline.mode (body iter).run) :
    discipline.Governs (opened >>= fun iter => closing (body iter)).run .outside := by
  apply opens.exceptBindStage fun _ _ => .inr
  rintro iter _ rfl
  exact (closing_obeyed (obeyed_of_staysInside (inside iter))).imp fun _ _ => .inr

end Around

/-! ## Every task -/

section Tasks

/-- The discipline of an operation that creates a missing pool. -/
def creating : Discipline := { creates := true, mode := .exclusive, domains := bothLocks }

/-- The discipline of an operation that removes records from an existing pool. -/
def removing : Discipline := { creates := false, mode := .exclusive, domains := bothLocks }

/-- The discipline of an operation that reads an existing pool. -/
def reading : Discipline := { creates := false, mode := .shared, domains := bothLocks }

theorem iter_opens : reading.OpensIter KvpPoolStore.iter :=
  (openForRead_opens rfl).iter rfl true rfl

theorem iterMut_opens : removing.OpensIter KvpPoolStore.iterMut :=
  (openForReadWrite_opens rfl).iter rfl false rfl

theorem iterCreate_opens : creating.OpensIter KvpPoolStore.iterCreate :=
  (openForReadWriteCreate_opens rfl).iter rfl false rfl

theorem append_governed (mode : PoolMode) (key value : Text) :
    creating.Governs (KvpPoolStore.append mode key value).run .outside := by
  apply governed_ofResult_bind
  intro _
  apply iterCreate_opens.closing_governed
  intro iter
  apply StaysInside.kvpIo (append_staysInside iter key value).lift
  exact fun _ => flush_staysInside

theorem writeRecordsLocked_governed (records : List (Text × Text)) (truncate : Bool) :
    creating.Governs (KvpPoolStore.writeRecordsLocked records truncate).run .outside := by
  apply iterCreate_opens.closing_governed
  intro iter
  apply StaysInside.kvpIo
  · cases truncate with
    | false => exact staysInside_pure _
    | true =>
        apply StaysInside.kvpIo (StaysInside.lift (staysInside_request rfl))
        exact fun _ => staysInside_pure _
  · intro iter
    apply StaysInside.kvpIo (appendAll_staysInside records iter)
    exact fun _ => flush_staysInside

theorem appendMultiple_governed (mode : PoolMode) (records : List (Text × Text)) :
    creating.Governs (KvpPoolStore.appendMultiple mode records).run .outside := by
  unfold KvpPoolStore.appendMultiple
  split
  · exact .inl rfl
  · exact governed_ofResult_bind fun _ => writeRecordsLocked_governed records false

theorem insert_governed (mode : PoolMode) (key value : Text) :
    creating.Governs (KvpPoolStore.insert mode key value).run .outside := by
  apply governed_ofResult_bind
  intro _
  apply iterCreate_opens.closing_governed
  intro iter
  apply StaysInside.kvpIo
  · exact forEachRecord_staysInside (insertRecord_staysInside key value) _ _ _
  · intro scanned
    apply StaysInside.kvpIo (insertMissing_staysInside key value _ _)
    exact fun _ => flush_staysInside

theorem load_governed (mode : PoolMode) (records : List (Text × Text)) :
    creating.Governs (KvpPoolStore.load mode records).run .outside := by
  apply governed_ofResult_bind
  intro uniqueKeys
  split
  · exact .inl rfl
  · exact writeRecordsLocked_governed records true

theorem removeScan_staysInside {β : Type} (targeted : Text → Bool) (note : β → β)
    (initial : β) (any : β → Prop) [DecidablePred any] (iter : KvpPoolIter) :
    StaysInside .exclusive (do
      let (_, noted) ← KvpPoolIter.forEachRecord (KvpPoolStore.removeTargeted targeted note)
        iter.recordCount iter initial
      Io.lift (if any noted then KvpPoolIter.flush else pure ())
      return noted : KvpIo β).run := by
  apply StaysInside.kvpIo
  · exact forEachRecord_staysInside (removeTargeted_staysInside targeted note) _ _ _
  · intro scanned
    apply StaysInside.kvpIo (flushIf_staysInside _)
    exact fun _ => staysInside_pure _

theorem delete_governed (key : Text) : removing.Governs (KvpPoolStore.delete key).run .outside := by
  apply governed_ofResult_bind
  intro _
  exact iterMut_opens.unlessMissing_governed
    (removeScan_staysInside (· == key) (fun _ => true) false (· = true))

theorem deleteMultiple_governed (keys : List Text) :
    removing.Governs (KvpPoolStore.deleteMultiple keys).run .outside := by
  apply governed_ofResult_bind
  intro keysToDelete
  split
  · exact .inl rfl
  · exact iterMut_opens.unlessMissing_governed
      (removeScan_staysInside (· ∈ keysToDelete) (fun removed => removed + 1) 0 (· > 0))

theorem setLen_staysInside (len : Nat) : StaysInside .exclusive (request (.setLen len)).run :=
  staysInside_request rfl

theorem clear_governed : removing.Governs KvpPoolStore.clear.run .outside := by
  apply unlessMissing_governed (openForReadWrite_opens rfl)
  rintro _ _ rfl
  apply closing_obeyed
  apply obeyed_liftStage
  apply (lockForWriting_obeyed rfl).exceptBindStage fun _ _ => False.elim
  rintro _ _ rfl
  exact obeyed_of_staysInside (setLen_staysInside 0)

theorem clearIfStale_governed : removing.Governs KvpPoolStore.clearIfStale.run .outside := by
  apply unlessMissing_governed (openForReadWrite_opens rfl)
  rintro _ _ rfl
  apply closing_obeyed
  have checked (bootTime : Int) : StaysInside .exclusive (do
      let info ← request .metadata
      if info.mtime ≤ bootTime then request (.setLen 0) else pure () : Io Unit).run := by
    apply StaysInside.io (staysInside_request rfl)
    intro info
    split
    · exact setLen_staysInside 0
    · exact staysInside_pure _
  have asked : removing.protocol.Obeyed (request .bootTime).run (.opened bothLocks)
      (eitherWay (fun _ later => later = .opened bothLocks) fun _ _ => False) := by
    apply obeyed_request
    rintro _ ⟨world, rfl⟩
    exact ⟨_, rfl, rfl⟩
  apply obeyed_liftStage
  apply asked.exceptBindStage fun _ _ => False.elim
  rintro bootTime _ rfl
  apply (lockForWriting_obeyed rfl).exceptBindStage fun _ _ => False.elim
  rintro _ _ rfl
  exact obeyed_of_staysInside (checked bootTime)

theorem read_governed (key : Text) : reading.Governs (KvpPoolStore.read key).run .outside := by
  apply governed_ofResult_bind
  intro _
  exact iter_opens.unlessMissing_governed (collect_staysInside _ _)

theorem entries_governed : reading.Governs KvpPoolStore.entries.run .outside :=
  iter_opens.unlessMissing_governed (collect_staysInside _ _)

theorem dump_governed : reading.Governs KvpPoolStore.dump.run .outside :=
  iter_opens.unlessMissing_governed (collect_staysInside _ _)

theorem update_governed (update : Update) :
    (Task.discipline .flock (.own (.update update))).Governs update.perform.run .outside := by
  cases update with
  | append mode key value => exact (append_governed mode key value).mapOk _
  | appendMultiple mode records => exact (appendMultiple_governed mode records).mapOk _
  | insert mode key value => exact (insert_governed mode key value).mapOk _
  | delete key => exact (delete_governed key).mapOk _
  | deleteMultiple keys => exact (deleteMultiple_governed keys).mapOk _
  | load mode records => exact (load_governed mode records).mapOk _
  | clear => exact clear_governed.mapOk _

theorem foreign_governed (update : ForeignUpdate) (domain : LockDomain) :
    (Task.discipline domain (.foreign update)).Governs (update.perform domain).run .outside := by
  have opens : (Task.discipline domain (.foreign update)).Opens update.openPool := by
    unfold ForeignUpdate.openPool
    cases creates : update.creates with
    | true => exact openForReadWriteCreate_opens creates
    | false => exact openForReadWrite_opens creates
  apply opens.exceptBindStage fun _ _ => .inr
  rintro _ _ rfl
  apply (closing_obeyed (obeyed_liftStage ?_)).imp fun _ _ => .inr
  apply (lockExclusive_obeyed rfl domain).exceptBindStage fun _ _ => False.elim
  rintro _ _ rfl
  have inside : StaysInside (Task.discipline domain (.foreign update)).mode update.body.run :=
    update.inside
  exact obeyed_of_staysInside inside

/-- Every task opens the pool, takes its locks, works on the file and drops its handle,
in this order. -/
theorem task_governed (domain : LockDomain) (task : Task) :
    (task.discipline domain).Governs (task.program domain) .outside := by
  cases task with
  | foreign update => exact (foreign_governed update domain).map fun _ => Outcome.foreign
  | own call =>
      have performed : (Task.discipline domain (.own call)).Governs call.perform.run .outside := by
        cases call with
        | update change => exact (update_governed change).mapOk _
        | clearIfStale => exact clearIfStale_governed.mapOk _
        | read key => exact (read_governed key).mapOk _
        | entries => exact entries_governed.mapOk _
        | dump => exact dump_governed.mapOk _
      exact performed.map Outcome.own

end Tasks

end AzureInit.Kvp
