import AzureInit.Kvp.SequentialCalls

/-! Where a client stands among others: before its pool is open, waiting for its
locks, at work in its section, or done. In the section it stands where it would be had
it worked alone, from the file that was there when it came in. -/

set_option autoImplicit false

namespace AzureInit.Kvp

open Foundation

/-! ## Calls -/

/-- The pool as a client sees it at a position of its handle. -/
def worldAt (bootTime : Int) (file : Option PoolFile) (position : Nat) (now : Int) : World where
  file := file
  position := position
  now := now
  bootTime := bootTime

theorem World.eq_worldAt (world : World) :
    world = worldAt world.bootTime world.file world.position world.now := rfl

@[simp] theorem Call.bootTime_perform (call : Call) (world : World) :
    (call.perform world).2.bootTime = world.bootTime := by
  cases call with
  | openRead | openReadWrite | openReadWriteCreate =>
      simp only [Call.perform]
      split <;> rfl
  | readExact count =>
      simp only [Call.perform]
      split <;> rfl
  | bootTime | flockExclusive | flockShared | flockUnlock | fcntlExclusive | fcntlShared
  | metadata | seekStart | seekEnd | streamPosition | writeAll | setLen | flush | close => rfl

/-- No call removes the file. -/
theorem Call.file_ne_none {call : Call} {world : World} (present : world.file ≠ none) :
    (call.perform world).2.file ≠ none := by
  obtain ⟨file, found⟩ := Option.ne_none_iff_exists'.mp present
  cases call with
  | openRead | openReadWrite | openReadWriteCreate =>
      simp [Call.perform, found, World.seek]
  | readExact count =>
      simp only [Call.perform]
      split
      · exact present
      · exact present
  | writeAll | setLen => exact Option.some_ne_none _
  | bootTime | flockExclusive | flockShared | flockUnlock | fcntlExclusive | fcntlShared
  | metadata | seekStart | seekEnd | streamPosition | flush | close => exact present

theorem Call.perform_of_acquires {call : Call} {lock : LockDomain × LockMode}
    (acquires : call.acquires = some lock) :
    ∃ reply, ∀ world, call.perform world = (reply, world) := by
  cases call with
  | flockExclusive | flockShared | fcntlExclusive | fcntlShared => exact ⟨.ok (), fun _ => rfl⟩
  | _ => cases acquires

theorem Call.locksAfter_of_acquires {call : Call} {domain : LockDomain} {mode : LockMode}
    (acquires : call.acquires = some (domain, mode)) (locks : Locks LockDomain) :
    call.locksAfter locks = Function.update locks domain (some mode) := by
  unfold Call.locksAfter
  rw [acquires]

theorem Call.locksAfter_of_opens {call : Call} {creates : Bool} (opens : call.Opens creates)
    (locks : Locks LockDomain) : call.locksAfter locks = locks := by
  cases creates with
  | true =>
      obtain rfl := opens
      rfl
  | false =>
      cases opens with
      | inl opens => subst opens; rfl
      | inr opens => subst opens; rfl

theorem Call.locksAfter_of_isInside {call : Call} {mode : LockMode}
    (inside : call.isInside mode = true) (locks : Locks LockDomain) :
    call.locksAfter locks = locks := by
  cases call with
  | metadata | seekStart | seekEnd | streamPosition | readExact | flush | writeAll | setLen => rfl
  | _ => cases inside

/-! ## A task on its way -/

/-- The file that a task finds and the one it has opened: the same, or one that it has
just created. -/
inductive Opened (creates : Bool) : Option PoolFile → PoolFile → Prop where
  | existing (file : PoolFile) : Opened creates (some file) file
  | created (mtime : Int) : creates = true → Opened creates none { bytes := [], mtime }

theorem Opened.found_or_created {creates : Bool} {origin : Option PoolFile} {file : PoolFile}
    (opened : Opened creates origin file) :
    origin = some file ∨ origin = none ∧ creates = true ∧ file.bytes = [] := by
  cases opened with
  | existing => exact .inl rfl
  | created _ creates => exact .inr ⟨rfl, creates, rfl⟩

section Comes

variable {domain : LockDomain} {bootTime : Int} {task : Task} {origin file : Option PoolFile}
  {position : Nat}

/-- Alone with a file, a task comes to a remaining program, a file and a position. -/
def Task.Comes (domain : LockDomain) (bootTime : Int) (task : Task) (origin : Option PoolFile)
    (program : Program Call Reply Outcome) (file : Option PoolFile) (position : Nat) : Prop :=
  ∃ start now : Int, Program.Reaches (HandleStep noFaults) (task.program domain)
    (aloneAt bootTime origin start) program (worldAt bootTime file position now)

theorem Task.Comes.step {call : Call} {next : Reply call → Program Call Reply Outcome}
    (comes : task.Comes domain bootTime origin (.call call next) file position) (now : Int) :
    task.Comes domain bootTime origin
      (next (call.perform (worldAt bootTime file position now)).1)
      (call.perform (worldAt bootTime file position now)).2.file
      (call.perform (worldAt bootTime file position now)).2.position := by
  obtain ⟨start, clock, reached⟩ := comes
  have stepped : HandleStep noFaults call (worldAt bootTime file position clock)
      (call.perform (worldAt bootTime file position now)).1
      (call.perform (worldAt bootTime file position now)).2 := .performed call _ now
  refine ⟨start, (call.perform (worldAt bootTime file position now)).2.now, ?_⟩
  have unmoved : (call.perform (worldAt bootTime file position now)).2.bootTime = bootTime :=
    Call.bootTime_perform call _
  rw [World.eq_worldAt (call.perform (worldAt bootTime file position now)).2, unmoved] at stepped
  exact reached.call stepped

/-- A call that leaves its world alone is one that others cannot tell. -/
theorem Task.Comes.quiet {call : Call} {next : Reply call → Program Call Reply Outcome}
    {reply : Reply call} (comes : task.Comes domain bootTime origin (.call call next) file position)
    (quiet : ∀ world : World, world.bootTime = bootTime → call.perform world = (reply, world)) :
    task.Comes domain bootTime origin (next reply) file position := by
  have stepped := comes.step 0
  rw [quiet _ rfl] at stepped
  exact stepped

theorem Task.Comes.yields {outcome : Outcome}
    (comes : task.Comes domain bootTime origin (.done outcome) file position) :
    task.Yields domain bootTime origin outcome file := by
  obtain ⟨start, now, reached⟩ := comes
  exact ⟨start, _, reached.runs .done, rfl⟩

/-- A task that has opened its pool, whatever file it has found. -/
def Task.ComesOpened (domain : LockDomain) (bootTime : Int) (task : Task)
    (program : Program Call Reply Outcome) (position : Nat) : Prop :=
  ∀ origin file, Opened (task.discipline domain).creates origin file →
    task.Comes domain bootTime origin program (some file) position

/-- Opening finds no file, or leaves one that is opened at its start. -/
theorem Call.Opens.perform {creates : Bool} {call : Call} (opens : call.Opens creates)
    (world : World) :
    (world.file = none ∧ creates = false ∧ (call.perform world).1.isOk = false ∧
      (call.perform world).2 = world ∧
      ∀ other : World, other.file = none → (call.perform other).1 = (call.perform world).1) ∨
    (call.perform world).1.isOk = true ∧ (call.perform world).2.position = 0 ∧
      ∃ file, Opened creates world.file file ∧ (call.perform world).2.file = some file := by
  cases found : world.file with
  | none =>
      cases creates with
      | true =>
          obtain rfl := opens
          right
          refine ⟨?_, ?_, _, .created world.now rfl, ?_⟩ <;>
            simp [Call.perform, found, Except.isOk, Except.toBool, World.seek, World.store]
      | false =>
          left
          have missing : ∀ other : World, other.file = none →
              (call.perform other).2 = other ∧ (call.perform other).1 = (call.perform world).1 ∧
                (call.perform other).1.isOk = false := by
            intro other absent
            rcases opens with rfl | rfl <;>
              simp [Call.perform, found, absent, Except.isOk, Except.toBool]
          obtain ⟨unmoved, -, refused⟩ := missing world found
          exact ⟨rfl, rfl, refused, unmoved, fun other absent => (missing other absent).2.1⟩
  | some file =>
      right
      have opened : (call.perform world).1.isOk = true ∧ (call.perform world).2 = world.seek 0 := by
        cases creates with
        | true =>
            obtain rfl := opens
            simp [Call.perform, found, Except.isOk, Except.toBool]
        | false =>
            rcases opens with rfl | rfl <;>
              simp [Call.perform, found, Except.isOk, Except.toBool]
      rw [opened.2]
      exact ⟨opened.1, rfl, file, .existing file, found⟩

/-- A successful opening is answered the same whatever file there was. -/
theorem Call.Opens.reply_eq {creates : Bool} {call : Call} (opens : call.Opens creates)
    {reply other : Reply call} (isOk : reply.isOk = true) (otherIsOk : other.isOk = true) :
    reply = other := by
  have unit : ∀ reply other : Except IoError Unit, reply.isOk = true → other.isOk = true →
      reply = other := by
    intro reply other isOk otherIsOk
    cases reply with
    | error _ => cases isOk
    | ok _ =>
        cases other with
        | error _ => cases otherIsOk
        | ok _ => rfl
  cases creates with
  | true =>
      obtain rfl := opens
      exact unit _ _ isOk otherIsOk
  | false => rcases opens with rfl | rfl <;> exact unit _ _ isOk otherIsOk

theorem comesOpened_of_opens {call : Call} {next : Reply call → Program Call Reply Outcome}
    {reply : Reply call} (starting : task.program domain = .call call next)
    (opens : call.Opens (task.discipline domain).creates) (isOk : reply.isOk = true) :
    task.ComesOpened domain bootTime (next reply) 0 := by
  intro origin file opened
  have start : task.Comes domain bootTime origin (.call call next) origin 0 := by
    refine ⟨0, 0, ?_⟩
    rw [← starting]
    exact .start
  have clock : ∃ now, (call.perform (worldAt bootTime origin 0 now)).2.file = some file := by
    cases opened with
    | existing file =>
        refine ⟨0, ?_⟩
        rcases opens.perform (worldAt bootTime (some file) 0 0) with ⟨missing, -⟩ | ⟨-, -, _, same, left⟩
        · cases missing
        · cases same
          exact left
    | created mtime creates =>
        refine ⟨mtime, ?_⟩
        rw [creates] at opens
        obtain rfl := opens
        rfl
  obtain ⟨now, left⟩ := clock
  have stepped := start.step now
  rcases opens.perform (worldAt bootTime origin 0 now) with ⟨missing, -, -, same, -⟩ | ⟨otherIsOk, rewound, -⟩
  · rw [same] at left
    rw [left] at missing
    cases missing
  · rw [left, rewound, opens.reply_eq otherIsOk isOk] at stepped
    exact stepped

end Comes

/-! ## Stages -/

theorem Discipline.Governs.call_of_opened {discipline : Discipline} {α : Type}
    {program : Program Call Reply α} {waiting : List LockDomain}
    (governed : discipline.Governs program (.opened waiting)) :
    ∃ call next, program = .call call next := by
  cases program with
  | call call next => exact ⟨call, next, rfl⟩
  | done value =>
      cases governed with
      | inl impossible => cases impossible
      | inr impossible => cases impossible

theorem Discipline.Governs.done_of_dropped {discipline : Discipline} {α : Type}
    {program : Program Call Reply α} (governed : discipline.Governs program .dropped) :
    ∃ value, program = .done value := by
  cases program with
  | done value => exact ⟨value, rfl⟩
  | call call next =>
      obtain ⟨_, advanced, -⟩ := governed _ ⟨aloneAt 0 none 0, rfl⟩
      cases call <;> cases advanced

/-- A client has all locks of its discipline but those it still waits for. -/
def Discipline.Holds (discipline : Discipline) (waiting : List LockDomain)
    (locks : Locks LockDomain) : Prop :=
  ∀ domain ∈ discipline.domains, domain ∉ waiting → locks domain = some discipline.mode

theorem Discipline.holds_domains (discipline : Discipline) (locks : Locks LockDomain) :
    discipline.Holds discipline.domains locks :=
  fun _ member absent => absurd member absent

theorem Discipline.Holds.acquire {discipline : Discipline} {domain : LockDomain}
    {waiting : List LockDomain} {locks : Locks LockDomain}
    (holds : discipline.Holds (domain :: waiting) locks) :
    discipline.Holds waiting (Function.update locks domain (some discipline.mode)) := by
  intro asked member absent
  by_cases here : asked = domain
  · rw [here, Function.update_self]
  · rw [Function.update_of_ne here]
    exact holds asked member (by simp [here, absent])

/-- All tasks lock the domain that the other programs take. -/
theorem Task.domain_mem (domain : LockDomain) (task : Task) :
    domain ∈ (task.discipline domain).domains := by
  cases task with
  | own call => cases domain <;> simp [Task.discipline]
  | foreign update => simp [Task.discipline]

theorem Task.creates_of_shared {domain : LockDomain} {task : Task}
    (shared : (task.discipline domain).mode = .shared) :
    (task.discipline domain).creates = false := by
  cases task with
  | foreign update => cases shared
  | own call =>
      cases call with
      | update | clearIfStale => cases shared
      | read | entries | dump => rfl

/-- Two clients that hold all their locks share them. -/
theorem shared_of_holds {Holder : Type} {table : Holder → Locks LockDomain}
    (exclude : LocksExclude table) {holder other : Holder} (different : holder ≠ other)
    {domain : LockDomain} {task : Task} {otherTask : Task}
    (holds : (task.discipline domain).Holds [] (table holder))
    (otherHolds : (otherTask.discipline domain).Holds [] (table other)) :
    (task.discipline domain).mode = .shared := by
  have held := holds domain (task.domain_mem domain) List.not_mem_nil
  have otherHeld := otherHolds domain (otherTask.domain_mem domain) List.not_mem_nil
  cases mode : (task.discipline domain).mode with
  | shared => rfl
  | exclusive =>
      rw [mode] at held
      rw [exclude holder other different domain held] at otherHeld
      cases otherHeld

/-- The file from which a task in its section has come: the one that the tasks done so
far have left, or an empty one that somebody is about to write the first records to. -/
def Task.Departs (domain : LockDomain) (committed : Option PoolFile) (task : Task)
    (origin : Option PoolFile) : Prop :=
  origin = committed ∨
    committed = none ∧ (task.discipline domain).creates = false ∧ fileBytes origin = []

/-- Where a client stands, next to the file and the one that the tasks done so far
have left. -/
inductive Session.Stands (domain : LockDomain) (bootTime : Int)
    (file committed : Option PoolFile) (session : Session) : Stage → Prop where
  | resting : session.current = none → session.locks = noLocks →
      session.Stands domain bootTime file committed .outside
  | starting (task : Task) (call : Call) (next : Reply call → Program Call Reply Outcome) :
      session.current = some (task, .call call next) → task.program domain = .call call next →
      session.locks = noLocks → session.Stands domain bootTime file committed .outside
  | waiting (task : Task) (program : Program Call Reply Outcome) (lock : LockDomain)
      (later : List LockDomain) : session.current = some (task, program) →
      (task.discipline domain).Governs program (.opened (lock :: later)) →
      (task.discipline domain).Holds (lock :: later) session.locks → file ≠ none →
      task.ComesOpened domain bootTime program session.position →
      session.Stands domain bootTime file committed (.opened (lock :: later))
  | working (task : Task) (program : Program Call Reply Outcome) (origin : Option PoolFile) :
      session.current = some (task, program) →
      (task.discipline domain).Governs program (.opened []) →
      (task.discipline domain).Holds [] session.locks → file ≠ none →
      task.Departs domain committed origin →
      task.Comes domain bootTime origin program file session.position →
      session.Stands domain bootTime file committed (.opened [])
  | returning (task : Task) (outcome : Outcome) : session.current = some (task, .done outcome) →
      session.locks = noLocks → session.Stands domain bootTime file committed .dropped

section Standing

variable {domain : LockDomain} {bootTime : Int} {file committed : Option PoolFile}
  {session : Session} {stage : Stage}

theorem Session.Stands.of_none (stands : session.Stands domain bootTime file committed stage)
    (rests : session.current = none) : stage = .outside ∧ session.locks = noLocks := by
  cases stands with
  | resting _ free => exact ⟨rfl, free⟩
  | starting _ _ _ doing | waiting _ _ _ _ doing | working _ _ _ doing | returning _ _ doing =>
      rw [rests] at doing
      cases doing

theorem Session.Stands.of_done {task : Task} {outcome : Outcome}
    (stands : session.Stands domain bootTime file committed stage)
    (ends : session.current = some (task, .done outcome)) :
    stage = .dropped ∧ session.locks = noLocks := by
  cases stands with
  | returning _ _ _ free => exact ⟨rfl, free⟩
  | resting rests | starting _ _ _ rests =>
      rw [ends] at rests
      cases rests
  | waiting _ _ _ _ doing governed | working _ _ _ doing governed =>
      rw [ends] at doing
      cases doing
      obtain ⟨_, _, impossible⟩ := governed.call_of_opened
      cases impossible

/-- Outside its section a client does not notice what others do to the file. -/
theorem Session.Stands.frame {laterFile laterCommitted : Option PoolFile}
    (stands : session.Stands domain bootTime file committed stage)
    (present : file ≠ none → laterFile ≠ none)
    (kept : stage = .opened [] → laterFile = file ∧ laterCommitted = committed) :
    session.Stands domain bootTime laterFile laterCommitted stage := by
  cases stands with
  | resting rests free => exact .resting rests free
  | starting task call next doing starting free => exact .starting task call next doing starting free
  | waiting task program lock later doing governed holds found comes =>
      exact .waiting task program lock later doing governed holds (present found) comes
  | working task program origin doing governed holds found departs comes =>
      obtain ⟨rfl, rfl⟩ := kept rfl
      exact .working task program origin doing governed holds found departs comes
  | returning task outcome doing free => exact .returning task outcome doing free

end Standing

end AzureInit.Kvp
