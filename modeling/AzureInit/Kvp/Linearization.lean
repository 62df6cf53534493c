import AzureInit.Kvp.ClientStages

/-! Clients that work on one pool at the same time come to the same as if their tasks
had been done one after the other, each at the moment it completes. -/

set_option autoImplicit false

namespace AzureInit.Kvp

open Foundation
open Blocks (image)

/-! ## Sequential executions -/

/-- A task as one client has done it, and what the client was told. -/
structure Turn (clients : Nat) where
  client : Fin clients
  task : Task
  outcome : Outcome

section Sequential

variable {clients : Nat} {domain : LockDomain} {bootTime : Int} {first : Option PoolFile}

/-- Tasks done one after the other, from the file before the first to the one that the
last has left. -/
inductive Sequential (domain : LockDomain) (bootTime : Int) (first : Option PoolFile) :
    List (Turn clients) → Option PoolFile → Prop where
  | start : Sequential domain bootTime first [] first
  | turn {history : List (Turn clients)} {before after : Option PoolFile} (turn : Turn clients) :
      Sequential domain bootTime first history before →
      turn.task.Yields domain bootTime before turn.outcome after →
      Sequential domain bootTime first (history ++ [turn]) after

theorem Sequential.exists_image {history : List (Turn clients)} {last : Option PoolFile}
    (sequential : Sequential domain bootTime first history last)
    (framed : (fileBytes first).length % recordSize = 0) :
    ∃ records : List RawRecord, fileBytes last = image records := by
  induction sequential with
  | start => exact ⟨_, (Blocks.image_wholeBlocks recordSize_pos framed).symm⟩
  | turn turn _ yields ih =>
      obtain ⟨records, stored⟩ := ih
      obtain ⟨left, leaves, -⟩ := yields.leaves_image stored
      exact ⟨left, leaves⟩

/-- What one client has done and been told. -/
def turnsOf (client : Fin clients) (history : List (Turn clients)) : List (Task × Outcome) :=
  (history.filter (·.client = client)).map fun turn => (turn.task, turn.outcome)

@[simp] theorem turnsOf_nil (client : Fin clients) : turnsOf client [] = [] := rfl

@[simp] theorem turnsOf_append (client : Fin clients) (early late : List (Turn clients)) :
    turnsOf client (early ++ late) = turnsOf client early ++ turnsOf client late := by
  simp [turnsOf]

theorem turnsOf_self (turn : Turn clients) :
    turnsOf turn.client [turn] = [(turn.task, turn.outcome)] := by
  simp [turnsOf]

end Sequential

/-! ## The invariant -/

/-- What a client is told or is about to be told. -/
def Session.completed (session : Session) : List (Task × Outcome) :=
  match session.current with
  | some (task, .done outcome) => session.returned ++ [(task, outcome)]
  | _ => session.returned

/-- The tasks that a client has begun. -/
def Session.begun (session : Session) : List Task :=
  session.returned.map Prod.fst ++ (session.current.map Prod.fst).toList

theorem Session.completed_of_call {session : Session} {task : Task} {call : Call}
    {next : Reply call → Program Call Reply Outcome}
    (doing : session.current = some (task, .call call next)) :
    session.completed = session.returned := by
  rw [completed, doing]

theorem Session.completed_of_done {session : Session} {task : Task} {outcome : Outcome}
    (doing : session.current = some (task, .done outcome)) :
    session.completed = session.returned ++ [(task, outcome)] := by
  rw [completed, doing]

theorem Session.completed_of_none {session : Session} (rests : session.current = none) :
    session.completed = session.returned := by
  rw [completed, rests]

/-- A session in which a call has been made. -/
def Session.called (session : Session) (task : Task) (call : Call)
    (program : Program Call Reply Outcome) (after : World) : Session :=
  { session with
    current := some (task, program)
    position := after.position
    locks := call.locksAfter session.locks }

theorem Session.called_begun {session : Session} {task : Task} {call : Call}
    {program next : Program Call Reply Outcome} {after : World}
    (doing : session.current = some (task, program)) :
    (session.called task call next after).begun ++ (session.called task call next after).pending =
      session.begun ++ session.pending := by
  simp [Session.begun, called, doing]

/-- A client at a task that keeps others out of its section. -/
def Session.Exclusive (domain : LockDomain) (session : Session) : Prop :=
  ∃ task program, session.current = some (task, program) ∧
    (task.discipline domain).mode = .exclusive

/-- A client at a task that creates a missing pool. -/
def Session.Creates (domain : LockDomain) (session : Session) : Prop :=
  ∃ task program, session.current = some (task, program) ∧
    (task.discipline domain).creates = true

/-- The file is the one that the tasks done so far have left, or it has just been
created and is still empty. -/
def Tracks (committed file : Option PoolFile) : Prop :=
  file = committed ∨ committed = none ∧ fileBytes file = []

/-- Nobody can tell whether a task that enters its section has opened the file now or
when there was none. -/
theorem Tracks.exists_origin {domain : LockDomain} {bootTime : Int} {task : Task}
    {program : Program Call Reply Outcome} {committed file : Option PoolFile} {position : Nat}
    (tracks : Tracks committed file) (found : file ≠ none)
    (comes : task.ComesOpened domain bootTime program position) :
    ∃ origin, task.Departs domain committed origin ∧
      task.Comes domain bootTime origin program file position := by
  obtain ⟨stored, rfl⟩ := Option.ne_none_iff_exists'.mp found
  cases tracks with
  | inl same => exact ⟨_, .inl same, comes _ _ (.existing stored)⟩
  | inr just =>
      obtain ⟨missing, empty⟩ := just
      cases creates : (task.discipline domain).creates with
      | false => exact ⟨_, .inr ⟨missing, creates, empty⟩, comes _ _ (.existing stored)⟩
      | true =>
          refine ⟨none, .inl missing.symm, comes _ _ ?_⟩
          have new : stored = { bytes := [], mtime := stored.mtime } := by
            rw [← show stored.bytes = [] from empty]
          rw [new]
          exact .created stored.mtime creates

namespace System

variable {clients : Nat} {domain : LockDomain} {first : Option PoolFile}
  {tasks : Fin clients → List Task} {system : System clients}
  {history : List (Turn clients)} {committed : Option PoolFile} {stages : Fin clients → Stage}

/-- Between two steps: the tasks done so far, one after the other, have left a file,
and each client stands somewhere next to it. -/
structure Linear (domain : LockDomain) (first : Option PoolFile) (tasks : Fin clients → List Task)
    (system : System clients) (history : List (Turn clients)) (committed : Option PoolFile)
    (stages : Fin clients → Stage) : Prop where
  sequential : Sequential domain system.bootTime first history committed
  told : ∀ client, turnsOf client history = (system.sessions client).completed
  given : ∀ client, (system.sessions client).begun ++ (system.sessions client).pending =
    tasks client
  exclude : LocksExclude fun client => (system.sessions client).locks
  stands : ∀ client,
    (system.sessions client).Stands domain system.bootTime system.file committed (stages client)
  tracks : Tracks committed system.file ∨
    ∃ client, stages client = .opened [] ∧ (system.sessions client).Exclusive domain
  created : committed = none → system.file ≠ none →
    ∃ client waiting, stages client = .opened waiting ∧ (system.sessions client).Creates domain

theorem linear_initial (file : Option PoolFile) (bootTime : Int)
    (tasks : Fin clients → List Task) :
    (initial file bootTime tasks).Linear domain file tasks [] file fun _ => .outside where
  sequential := .start
  told := fun _ => rfl
  given := fun _ => rfl
  exclude := locksExclude_noLocks
  stands := fun _ => .resting rfl rfl
  tracks := .inl (.inl rfl)
  created := fun missing present => absurd missing present

/-- One client moves: the others stand where they stood, and unless the file or the
done tasks change outside every section, nobody else is in one. -/
theorem Linear.update {client : Fin clients} {session : Session} {stage : Stage}
    {file laterCommitted : Option PoolFile} {more : List (Turn clients)}
    (linear : system.Linear domain first tasks history committed stages)
    (sequential : Sequential domain system.bootTime first (history ++ more) laterCommitted)
    (told : (system.sessions client).completed ++ turnsOf client more = session.completed)
    (own : ∀ turn ∈ more, turn.client = client)
    (given : session.begun ++ session.pending =
      (system.sessions client).begun ++ (system.sessions client).pending)
    (exclude : LocksExclude (Function.update (fun other => (system.sessions other).locks) client
      session.locks))
    (stands : session.Stands domain system.bootTime file laterCommitted stage)
    (present : system.file ≠ none → file ≠ none)
    (others : ∀ other, other ≠ client → stages other = .opened [] →
      file = system.file ∧ laterCommitted = committed)
    (tracks : (Tracks laterCommitted file ∨ stage = .opened [] ∧ session.Exclusive domain) ∨
      ∃ other, other ≠ client ∧ stages other = .opened [] ∧
        (system.sessions other).Exclusive domain)
    (created : laterCommitted = none → file ≠ none →
      (∃ waiting, stage = .opened waiting ∧ session.Creates domain) ∨
      ∃ other waiting, other ≠ client ∧ stages other = .opened waiting ∧
        (system.sessions other).Creates domain) :
    ({ system with file, sessions := Function.update system.sessions client session } :
      System clients).Linear domain first tasks (history ++ more) laterCommitted
        (Function.update stages client stage) where
  sequential := sequential
  told := by
    intro other
    by_cases isOwn : other = client
    · subst isOwn
      simp only [Function.update_self]
      rw [turnsOf_append, linear.told, told]
    · have none : turnsOf other more = [] := by
        have noTurns : more.filter (·.client = other) = [] := by
          rw [List.filter_eq_nil_iff]
          intro turn member
          simpa [own turn member] using Ne.symm isOwn
        rw [turnsOf, noTurns, List.map_nil]
      simp only [Function.update_of_ne isOwn]
      rw [turnsOf_append, linear.told, none, List.append_nil]
  given := by
    intro other
    by_cases isOwn : other = client
    · subst isOwn
      simp only [Function.update_self]
      rw [given, linear.given]
    · simp only [Function.update_of_ne isOwn]
      exact linear.given other
  exclude := by
    have table : (fun other => (Function.update system.sessions client session other).locks) =
        Function.update (fun other => (system.sessions other).locks) client session.locks :=
      Function.comp_update Session.locks system.sessions client session
    rwa [table]
  stands := by
    intro other
    by_cases isOwn : other = client
    · subst isOwn
      simp only [Function.update_self]
      exact stands
    · simp only [Function.update_of_ne isOwn]
      exact (linear.stands other).frame present (others other isOwn)
  tracks := by
    rcases tracks with (tracks | ⟨working, exclusive⟩) | ⟨other, different, working, exclusive⟩
    · exact .inl tracks
    · right
      refine ⟨client, ?_, ?_⟩
      · rw [Function.update_self, working]
      · simp only [Function.update_self]
        exact exclusive
    · right
      refine ⟨other, ?_, ?_⟩
      · rw [Function.update_of_ne different, working]
      · simp only [Function.update_of_ne different]
        exact exclusive
  created := by
    intro missing found
    rcases created missing found with ⟨waiting, opened, creates⟩ |
      ⟨other, waiting, different, opened, creates⟩
    · refine ⟨client, waiting, ?_, ?_⟩
      · rw [Function.update_self, opened]
      · simp only [Function.update_self]
        exact creates
    · refine ⟨other, waiting, ?_, ?_⟩
      · rw [Function.update_of_ne different, opened]
      · simp only [Function.update_of_ne different]
        exact creates

/-- A move that completes no task. -/
theorem Linear.continue {client : Fin clients} {session : Session} {stage : Stage}
    {file : Option PoolFile} (linear : system.Linear domain first tasks history committed stages)
    (told : session.completed = (system.sessions client).completed)
    (given : session.begun ++ session.pending =
      (system.sessions client).begun ++ (system.sessions client).pending)
    (exclude : LocksExclude (Function.update (fun other => (system.sessions other).locks) client
      session.locks))
    (stands : session.Stands domain system.bootTime file committed stage)
    (present : system.file ≠ none → file ≠ none)
    (others : ∀ other, other ≠ client → stages other = .opened [] → file = system.file)
    (tracks : (Tracks committed file ∨ stage = .opened [] ∧ session.Exclusive domain) ∨
      ∃ other, other ≠ client ∧ stages other = .opened [] ∧
        (system.sessions other).Exclusive domain)
    (created : committed = none → file ≠ none →
      (∃ waiting, stage = .opened waiting ∧ session.Creates domain) ∨
      ∃ other waiting, other ≠ client ∧ stages other = .opened waiting ∧
        (system.sessions other).Creates domain) :
    ({ system with file, sessions := Function.update system.sessions client session } :
      System clients).Linear domain first tasks history committed
        (Function.update stages client stage) := by
  have sequential : Sequential domain system.bootTime first (history ++ []) committed := by
    rw [List.append_nil]
    exact linear.sequential
  have continued := linear.update sequential (by rw [told]; exact List.append_nil _) (by simp) given
    exclude stands present (fun other different working => ⟨others other different working, rfl⟩)
    tracks created
  rwa [List.append_nil] at continued

theorem Linear.exclude_same (linear : system.Linear domain first tasks history committed stages)
    (client : Fin clients) :
    LocksExclude (Function.update (fun other => (system.sessions other).locks) client
      (system.sessions client).locks) :=
  linear.exclude.release fun _ => .inr rfl

/-! ## Steps -/

/-- A client that has made a call on the pool and goes on with the rest of its task. -/
def called (system : System clients) (client : Fin clients) (task : Task) (call : Call)
    (program : Program Call Reply Outcome) (after : World) : System clients :=
  { system with
    file := after.file
    sessions := Function.update system.sessions client
      ((system.sessions client).called task call program after) }

/-- The moves of a client: it takes up a task, returns from one, or makes a call. -/
theorem advance_cases {client : Fin clients} {now : Int} {next : System clients}
    (advanced : system.advance domain client now = some next) :
    (∃ task later, (system.sessions client).current = none ∧
      (system.sessions client).pending = task :: later ∧
      next = system.setSession client { system.sessions client with
        pending := later, current := some (task, task.program domain) }) ∨
    (∃ task outcome, (system.sessions client).current = some (task, .done outcome) ∧
      next = system.setSession client { system.sessions client with
        current := none, returned := (system.sessions client).returned ++ [(task, outcome)] }) ∨
    ∃ task call rest, (system.sessions client).current = some (task, .call call rest) ∧
      system.grants client call = true ∧
      next = system.called client task call (rest (call.perform (system.world client now)).1)
        (call.perform (system.world client now)).2 := by
  unfold advance at advanced
  cases doing : (system.sessions client).current with
  | none =>
      cases pending : (system.sessions client).pending with
      | nil => simp [doing, pending] at advanced
      | cons task later =>
          simp only [doing, pending, Option.some.injEq] at advanced
          exact .inl ⟨task, later, rfl, rfl, advanced.symm⟩
  | some current =>
      obtain ⟨task, program⟩ := current
      cases program with
      | done outcome =>
          simp only [doing, Option.some.injEq] at advanced
          exact .inr (.inl ⟨task, outcome, rfl, advanced.symm⟩)
      | call call rest =>
          simp only [doing] at advanced
          split at advanced
          · rename_i granted
            exact .inr (.inr ⟨task, call, rest, rfl, granted, (Option.some.inj advanced).symm⟩)
          · cases advanced

theorem grants_of_acquires {client : Fin clients} {call : Call} {lock : LockDomain}
    {mode : LockMode} (granted : system.grants client call = true)
    (acquires : call.acquires = some (lock, mode)) (other : Fin clients)
    (different : other ≠ client) :
    mode.compatible ((system.sessions other).locks lock) = true := by
  simp only [grants, acquires, List.all_eq_true] at granted
  have free := granted other (List.mem_finRange other)
  simpa [different] using free

section Step

variable {client : Fin clients} {task : Task} {call : Call}
  {rest : Reply call → Program Call Reply Outcome}

theorem Linear.tracks_carried {own : Prop}
    (linear : system.Linear domain first tasks history committed stages)
    (outside : ¬ (stages client = .opened [] ∧ (system.sessions client).Exclusive domain)) :
    (Tracks committed system.file ∨ own) ∨
      ∃ other, other ≠ client ∧ stages other = .opened [] ∧
        (system.sessions other).Exclusive domain := by
  cases linear.tracks with
  | inl tracks => exact .inl (.inl tracks)
  | inr exclusive =>
      obtain ⟨other, working, exclusive⟩ := exclusive
      refine .inr ⟨other, ?_, working, exclusive⟩
      rintro rfl
      exact outside ⟨working, exclusive⟩

theorem Linear.created_carried {own : Prop}
    (linear : system.Linear domain first tasks history committed stages)
    (notOpened : ∀ waiting, stages client ≠ .opened waiting) (missing : committed = none)
    (found : system.file ≠ none) :
    own ∨ ∃ other waiting, other ≠ client ∧ stages other = .opened waiting ∧
      (system.sessions other).Creates domain := by
  obtain ⟨other, waiting, opened, creates⟩ := linear.created missing found
  refine .inr ⟨other, waiting, ?_, opened, creates⟩
  rintro rfl
  exact notOpened waiting opened

/-- A client that takes up a task; a task without any call is done at once. -/
theorem Linear.begins {later : List Task}
    (linear : system.Linear domain first tasks history committed stages)
    (rests : (system.sessions client).current = none)
    (pending : (system.sessions client).pending = task :: later) :
    ∃ more laterStages, (system.setSession client { system.sessions client with
      pending := later, current := some (task, task.program domain) }).Linear domain first tasks
        (history ++ more) committed laterStages := by
  obtain ⟨outside, free⟩ := (linear.stands client).of_none rests
  have notOpened : ∀ waiting, stages client ≠ .opened waiting := by simp [outside]
  have given : (system.sessions client).returned.map Prod.fst ++ [task] ++ later =
      (system.sessions client).begun ++ (system.sessions client).pending := by
    simp [Session.begun, rests, pending]
  cases program : task.program domain with
  | done outcome =>
      have yields : task.Yields domain system.bootTime committed outcome committed := by
        refine ⟨0, aloneAt system.bootTime committed 0, ?_, rfl⟩
        rw [program]
        exact .done
      refine ⟨[⟨client, task, outcome⟩], Function.update stages client .dropped, ?_⟩
      apply linear.update (linear.sequential.turn ⟨client, task, outcome⟩ yields)
      · rw [Session.completed_of_none rests, Session.completed_of_done rfl, turnsOf_self ⟨client, _, _⟩]
      · simp
      · exact given
      · exact linear.exclude_same client
      · exact .returning task outcome rfl free
      · exact id
      · exact fun _ _ _ => ⟨rfl, rfl⟩
      · exact linear.tracks_carried fun working => notOpened _ working.1
      · exact linear.created_carried notOpened
  | call call next =>
      refine ⟨[], Function.update stages client .outside, ?_⟩
      rw [List.append_nil]
      apply linear.continue
      · rw [Session.completed_of_none rests, Session.completed_of_call rfl]
      · exact given
      · exact linear.exclude_same client
      · exact .starting task call next rfl program free
      · exact id
      · exact fun _ _ _ => rfl
      · exact linear.tracks_carried fun working => notOpened _ working.1
      · exact linear.created_carried notOpened

/-- A client that returns from its task. -/
theorem Linear.returns {outcome : Outcome}
    (linear : system.Linear domain first tasks history committed stages)
    (ends : (system.sessions client).current = some (task, .done outcome)) :
    ∃ laterStages, (system.setSession client { system.sessions client with
      current := none, returned := (system.sessions client).returned ++ [(task, outcome)] }).Linear
        domain first tasks history committed laterStages := by
  obtain ⟨dropped, free⟩ := (linear.stands client).of_done ends
  have notOpened : ∀ waiting, stages client ≠ .opened waiting := by simp [dropped]
  refine ⟨Function.update stages client .outside, ?_⟩
  apply linear.continue
  · rw [Session.completed_of_done ends, Session.completed_of_none rfl]
  · simp [Session.begun, ends]
  · exact linear.exclude_same client
  · exact .resting rfl free
  · exact id
  · exact fun _ _ _ => rfl
  · exact linear.tracks_carried fun working => notOpened _ working.1
  · exact linear.created_carried notOpened

/-! ### Calls -/

/-- A call has its place at the stage of the client. -/
theorem Linear.moves (linear : system.Linear domain first tasks history committed stages)
    (doing : (system.sessions client).current = some (task, .call call rest)) (now : Int) :
    ∃ later, (task.discipline domain).Moves (stages client) call
        (call.perform (system.world client now)).1 later ∧
      (task.discipline domain).Governs (rest (call.perform (system.world client now)).1) later := by
  have moves {stage : Stage}
      (governed : (task.discipline domain).Governs (.call call rest) stage) :
      ∃ later, (task.discipline domain).Moves stage call
          (call.perform (system.world client now)).1 later ∧
        (task.discipline domain).Governs (rest (call.perform (system.world client now)).1) later := by
    obtain ⟨later, advanced, governed⟩ := governed _ ⟨system.world client now, rfl⟩
    exact ⟨later, Discipline.moves_of_advance advanced, governed⟩
  have stands := linear.stands client
  generalize stages client = stage at stands ⊢
  cases stands with
  | resting rests =>
      rw [doing] at rests
      cases rests
  | starting _ _ _ current starting =>
      rw [doing] at current
      cases current
      apply moves
      rw [← starting]
      exact task_governed domain task
  | waiting _ _ _ _ current governed =>
      rw [doing] at current
      cases current
      exact moves governed
  | working _ _ _ current governed =>
      rw [doing] at current
      cases current
      exact moves governed
  | returning _ _ current =>
      rw [doing] at current
      cases current

/-- While the file is missing, nobody has done anything to it or is at work on it. -/
theorem Linear.committed_of_missing
    (linear : system.Linear domain first tasks history committed stages)
    (missing : system.file = none) :
    committed = none ∧ ∀ other, stages other ≠ .opened [] := by
  have idle : ∀ other, stages other ≠ .opened [] := by
    intro other working
    have stands := linear.stands other
    rw [working] at stands
    cases stands with
    | working _ _ _ _ _ _ found => exact found missing
  refine ⟨?_, idle⟩
  cases linear.tracks with
  | inl tracks =>
      cases tracks with
      | inl same => exact same.symm.trans missing
      | inr just => exact just.1
  | inr exclusive =>
      obtain ⟨other, working, -⟩ := exclusive
      exact absurd working (idle other)

/-- Two clients in their sections share the file. -/
theorem Linear.shared_of_working {locks : Locks LockDomain} {table : Fin clients → Locks LockDomain}
    (linear : system.Linear domain first tasks history committed stages)
    {other : Fin clients} (different : other ≠ client) (working : stages other = .opened [])
    (exclude : LocksExclude table) (kept : table other = (system.sessions other).locks)
    (own : table client = locks) (holds : (task.discipline domain).Holds [] locks) :
    (task.discipline domain).mode = .shared ∧ ¬ (system.sessions other).Exclusive domain := by
  have stands := linear.stands other
  rw [working] at stands
  cases stands with
  | working otherTask _ _ current _ otherHolds =>
      rw [← own] at holds
      rw [← kept] at otherHolds
      refine ⟨shared_of_holds exclude different.symm holds otherHolds, ?_⟩
      rintro ⟨_, _, atTask, exclusive⟩
      rw [current] at atTask
      cases atTask
      rw [shared_of_holds exclude different otherHolds holds] at exclusive
      cases exclusive

/-- A call that completes a task leaves the file to the others, and the task has come
there from the file that the tasks before it have left. -/
structure Completes (domain : LockDomain) (system : System clients)
    (committed : Option PoolFile) (stages : Fin clients → Stage) (client : Fin clients)
    (task : Task) (call : Call) (after : World) (outcome : Outcome) : Prop where
  file : after.file = system.file
  locks : call.locksAfter (system.sessions client).locks = noLocks
  departed : ∃ origin, task.Departs domain committed origin ∧
    task.Yields domain system.bootTime origin outcome system.file
  shares : ∀ other, other ≠ client → stages other = .opened [] →
    (task.discipline domain).mode = .shared ∧ ¬ (system.sessions other).Exclusive domain

theorem Linear.completes (linear : system.Linear domain first tasks history committed stages)
    (doing : (system.sessions client).current = some (task, .call call rest)) {now : Int}
    {outcome : Outcome}
    (ends : rest (call.perform (system.world client now)).1 = .done outcome) :
    Completes domain system committed stages client task call
      (call.perform (system.world client now)).2 outcome := by
  obtain ⟨later, moves, governed⟩ := linear.moves doing now
  have dropped : later = .dropped ∨ later = .outside := by
    cases later with
    | outside => exact .inr rfl
    | dropped => exact .inl rfl
    | opened waiting =>
        obtain ⟨_, _, impossible⟩ := governed.call_of_opened
        rw [ends] at impossible
        cases impossible
  have stands := linear.stands client
  generalize stage : stages client = standing at stands moves
  cases moves with
  | locks | asksBootTime | works => simp at dropped
  | opens _ _ opens =>
      cases stands with
      | resting rests =>
          rw [doing] at rests
          cases rests
      | starting _ _ _ current starting free =>
          rw [doing] at current
          cases current
          rcases opens.perform (system.world client now) with
            ⟨missing, existing, -, same, told⟩ | ⟨isOk, -⟩
          · have missing : system.file = none := missing
            obtain ⟨untouched, idle⟩ := linear.committed_of_missing missing
            refine ⟨by rw [same]; rfl, ?_, ⟨none, .inl untouched.symm, now, ?_⟩, ?_⟩
            · rw [Call.locksAfter_of_opens opens, free]
            · rcases opens.perform (aloneAt system.bootTime none now) with
                ⟨-, -, -, unmoved, -⟩ | ⟨-, -, _, opened, -⟩
              · have stepped : HandleStep noFaults call (aloneAt system.bootTime none now)
                    (call.perform (aloneAt system.bootTime none now)).1
                    (call.perform (aloneAt system.bootTime none now)).2 := .performed call _ now
                rw [told _ rfl, unmoved] at stepped
                refine ⟨aloneAt system.bootTime none now, ?_, missing.symm⟩
                rw [starting]
                apply Program.Runs.call stepped
                rw [ends]
                exact .done
              · cases opened with
                | created _ creates =>
                    rw [existing] at creates
                    cases creates
            · exact fun other _ working => absurd working (idle other)
          · simp [isOk] at dropped
  | drops _ _ closes =>
      subst closes
      cases stands with
      | working _ _ origin current _ holds _ departs comes =>
          rw [doing] at current
          cases current
          refine ⟨rfl, rfl, ⟨origin, departs, ?_⟩, ?_⟩
          · have stepped := comes.step now
            rw [show worldAt system.bootTime system.file (system.sessions client).position now =
              system.world client now from rfl, ends] at stepped
            exact stepped.yields
          · intro other different working
            exact linear.shared_of_working different working linear.exclude rfl rfl holds

/-- The task that a call completes takes its turn after those done so far. -/
theorem Linear.takesTurn {after : World} {outcome : Outcome}
    (linear : system.Linear domain first tasks history committed stages)
    (settled : task.Settled)
    (doing : (system.sessions client).current = some (task, .call call rest))
    (completes : Completes domain system committed stages client task call after outcome) :
    ∃ laterCommitted, (system.called client task call (.done outcome) after).Linear
      domain first tasks (history ++ [⟨client, task, outcome⟩]) laterCommitted
      (Function.update stages client .dropped) := by
  obtain ⟨origin, departs, yields⟩ := completes.departed
  have exclude : LocksExclude (Function.update (fun other => (system.sessions other).locks) client
      (call.locksAfter (system.sessions client).locks)) := by
    rw [completes.locks]
    exact linear.exclude.release fun _ => .inl rfl
  have takes {laterCommitted : Option PoolFile}
      (yields : task.Yields domain system.bootTime committed outcome laterCommitted)
      (same : ∀ other, other ≠ client → stages other = .opened [] → laterCommitted = committed)
      (tracks : Tracks laterCommitted system.file)
      (created : laterCommitted = none → system.file ≠ none →
        ∃ other waiting, other ≠ client ∧ stages other = .opened waiting ∧
          (system.sessions other).Creates domain) :
      ∃ laterCommitted, (system.called client task call (.done outcome) after).Linear
        domain first tasks (history ++ [⟨client, task, outcome⟩]) laterCommitted
        (Function.update stages client .dropped) := by
    refine ⟨laterCommitted, ?_⟩
    unfold called
    rw [completes.file]
    apply linear.update (linear.sequential.turn ⟨client, task, outcome⟩ yields)
    · rw [Session.completed_of_call doing, Session.completed_of_done rfl,
        turnsOf_self ⟨client, _, _⟩]
      rfl
    · simp
    · exact Session.called_begun doing
    · exact exclude
    · exact .returning task outcome rfl completes.locks
    · exact id
    · exact fun other different working => ⟨rfl, same other different working⟩
    · exact .inl (.inl tracks)
    · exact fun missing found => .inr (created missing found)
  cases departs with
  | inl fromCommitted =>
      subst fromCommitted
      apply takes yields
      · intro other different working
        have shared := (completes.shares other different working).1
        exact yields.of_shared shared (Task.creates_of_shared shared)
      · exact .inl rfl
      · exact fun missing found => absurd missing found
  | inr fromEmpty =>
      obtain ⟨missing, existing, empty⟩ := fromEmpty
      obtain ⟨left, alone⟩ := settled.yields_missing existing empty yields
      rw [← missing] at alone
      apply takes alone
      · exact fun _ _ _ => rfl
      · exact .inr ⟨missing, left⟩
      · intro _ found
        obtain ⟨other, waiting, opened, creates⟩ := linear.created missing found
        refine ⟨other, waiting, ?_, opened, creates⟩
        rintro rfl
        obtain ⟨_, _, current, creating⟩ := creates
        rw [doing] at current
        cases current
        rw [existing] at creating
        cases creating

/-- A client that has its pool open stays at a task that creates the pool. -/
theorem Linear.created_kept {session : Session} {waiting : List LockDomain}
    {program next : Program Call Reply Outcome}
    (linear : system.Linear domain first tasks history committed stages)
    (doing : (system.sessions client).current = some (task, program))
    (onward : session.current = some (task, next)) (missing : committed = none)
    (found : system.file ≠ none) :
    (∃ left, Stage.opened waiting = .opened left ∧ session.Creates domain) ∨
      ∃ other left, other ≠ client ∧ stages other = .opened left ∧
        (system.sessions other).Creates domain := by
  obtain ⟨other, left, opened, creates⟩ := linear.created missing found
  by_cases isOwn : other = client
  · subst isOwn
    obtain ⟨_, _, current, creating⟩ := creates
    rw [doing] at current
    cases current
    exact .inl ⟨waiting, rfl, task, next, onward, creating⟩
  · exact .inr ⟨other, left, isOwn, opened, creates⟩

theorem completed_of_opened {session : Session} {next : Program Call Reply Outcome}
    {after : World} {waiting : List LockDomain} {discipline : Discipline}
    (doing : session.current = some (task, .call call rest))
    (governed : discipline.Governs next (.opened waiting)) :
    (session.called task call next after).completed = session.completed := by
  obtain ⟨_, _, rfl⟩ := governed.call_of_opened
  rw [Session.completed_of_call doing, Session.completed_of_call rfl]
  rfl

/-- Opening the pool: a file that was not there is created empty. -/
theorem Linear.opens {next : Program Call Reply Outcome} {after : World} {stored : PoolFile}
    (linear : system.Linear domain first tasks history committed stages)
    (doing : (system.sessions client).current = some (task, .call call rest))
    (outside : stages client = .outside)
    (governed : (task.discipline domain).Governs next (.opened (task.discipline domain).domains))
    (opens : call.Opens (task.discipline domain).creates)
    (opened : Opened (task.discipline domain).creates system.file stored)
    (file : after.file = some stored)
    (comes : task.ComesOpened domain system.bootTime next after.position) :
    (system.called client task call next after).Linear domain first tasks history committed
      (Function.update stages client (.opened (task.discipline domain).domains)) := by
  have notOpened : ∀ waiting, stages client ≠ .opened waiting := by simp [outside]
  have found : after.file ≠ none := by simp [file]
  have present : system.file ≠ none → after.file = system.file := by
    intro there
    cases opened.found_or_created with
    | inl existing => rw [existing, file]
    | inr created => exact absurd created.1 there
  apply linear.continue
  · exact completed_of_opened doing governed
  · exact Session.called_begun doing
  · rw [Session.called, Call.locksAfter_of_opens opens]
    exact linear.exclude_same client
  · have member := task.domain_mem domain
    have holds := (task.discipline domain).holds_domains (call.locksAfter (system.sessions client).locks)
    cases domains : (task.discipline domain).domains with
    | nil =>
        rw [domains] at member
        cases member
    | cons lock later =>
        rw [domains] at governed holds
        exact .waiting task next lock later rfl governed holds found comes
  · exact fun _ => found
  · intro other different working
    apply present
    intro missing
    exact (linear.committed_of_missing missing).2 other working
  · by_cases missing : system.file = none
    · refine .inl (.inl (.inr ⟨(linear.committed_of_missing missing).1, ?_⟩))
      cases opened.found_or_created with
      | inl existing =>
          rw [missing] at existing
          cases existing
      | inr created =>
          rw [file]
          exact created.2.2
    · rw [present missing]
      exact linear.tracks_carried fun working => notOpened _ working.1
  · intro missing _
    cases opened.found_or_created with
    | inl existing => exact linear.created_carried notOpened missing (by simp [existing])
    | inr created => exact .inl ⟨_, rfl, task, next, rfl, created.2.1⟩

/-- Taking a lock; with the last one the client enters its section. -/
theorem Linear.locks {next : Program Call Reply Outcome} {after : World} {lock : LockDomain}
    {waiting : List LockDomain}
    (linear : system.Linear domain first tasks history committed stages)
    (doing : (system.sessions client).current = some (task, .call call rest))
    (opened : stages client = .opened (lock :: waiting))
    (governed : (task.discipline domain).Governs next (.opened waiting))
    (holds : (task.discipline domain).Holds (lock :: waiting) (system.sessions client).locks)
    (found : system.file ≠ none)
    (acquires : call.acquires = some (lock, (task.discipline domain).mode))
    (granted : system.grants client call = true) (file : after.file = system.file)
    (comes : task.ComesOpened domain system.bootTime next after.position) :
    (system.called client task call next after).Linear domain first tasks history committed
      (Function.update stages client (.opened waiting)) := by
  have locks : call.locksAfter (system.sessions client).locks =
      Function.update (system.sessions client).locks lock (some (task.discipline domain).mode) :=
    Call.locksAfter_of_acquires acquires _
  have exclude : LocksExclude (Function.update (fun other => (system.sessions other).locks) client
      (call.locksAfter (system.sessions client).locks)) := by
    rw [locks]
    exact linear.exclude.acquire (grants_of_acquires granted acquires)
  have now := holds.acquire
  rw [← locks] at now
  have notWorking : stages client ≠ .opened [] := by simp [opened]
  unfold called
  rw [file]
  apply linear.continue
  · exact completed_of_opened doing governed
  · exact Session.called_begun doing
  · exact exclude
  · cases waiting with
    | cons another later => exact .waiting task next another later rfl governed now found comes
    | nil =>
        have tracks : Tracks committed system.file := by
          cases linear.tracks with
          | inl tracks => exact tracks
          | inr exclusive =>
              obtain ⟨other, working, exclusive⟩ := exclusive
              have different : other ≠ client := by
                rintro rfl
                exact notWorking working
              have kept : Function.update (fun other => (system.sessions other).locks) client
                  (call.locksAfter (system.sessions client).locks) other =
                    (system.sessions other).locks := Function.update_of_ne different _ _
              exact absurd exclusive (linear.shared_of_working different working exclude kept
                (Function.update_self ..) now).2
        obtain ⟨origin, departs, comes⟩ := tracks.exists_origin found comes
        exact .working task next origin rfl governed now found departs comes
  · exact id
  · exact fun _ _ _ => rfl
  · exact linear.tracks_carried fun working => notWorking working.1
  · exact fun missing found => linear.created_kept doing rfl missing found

/-- Waiting for a lock without taking it. -/
theorem Linear.waits {next : Program Call Reply Outcome} {after : World}
    {waiting : List LockDomain} {lock : LockDomain}
    (linear : system.Linear domain first tasks history committed stages)
    (doing : (system.sessions client).current = some (task, .call call rest))
    (opened : stages client = .opened (lock :: waiting))
    (governed : (task.discipline domain).Governs next (.opened (lock :: waiting)))
    (holds : (task.discipline domain).Holds (lock :: waiting) (system.sessions client).locks)
    (found : system.file ≠ none) (asks : call = .bootTime) (file : after.file = system.file)
    (comes : task.ComesOpened domain system.bootTime next after.position) :
    (system.called client task call next after).Linear domain first tasks history committed
      (Function.update stages client (.opened (lock :: waiting))) := by
  subst asks
  unfold called
  rw [file]
  apply linear.continue
  · exact completed_of_opened doing governed
  · exact Session.called_begun doing
  · exact linear.exclude_same client
  · exact .waiting task next lock waiting rfl governed holds found comes
  · exact id
  · exact fun _ _ _ => rfl
  · exact linear.tracks_carried fun working => by simp [opened] at working
  · exact fun missing found => linear.created_kept doing rfl missing found

/-- Working on the file in the section. -/
theorem Linear.works {now : Int} {origin : Option PoolFile}
    (linear : system.Linear domain first tasks history committed stages)
    (doing : (system.sessions client).current = some (task, .call call rest))
    (governed : (task.discipline domain).Governs (rest (call.perform (system.world client now)).1)
      (.opened []))
    (holds : (task.discipline domain).Holds [] (system.sessions client).locks)
    (found : system.file ≠ none) (inside : call.isInside (task.discipline domain).mode = true)
    (departs : task.Departs domain committed origin)
    (comes : task.Comes domain system.bootTime origin (.call call rest) system.file
      (system.sessions client).position) :
    (system.called client task call (rest (call.perform (system.world client now)).1)
        (call.perform (system.world client now)).2).Linear domain first tasks history committed
      (Function.update stages client (.opened [])) := by
  have locks : call.locksAfter (system.sessions client).locks = (system.sessions client).locks :=
    Call.locksAfter_of_isInside inside _
  have moves : (task.discipline domain).Moves (.opened []) call
      (call.perform (system.world client now)).1 (.opened []) := .works _ _ inside
  have reading (shared : (task.discipline domain).mode = .shared) :
      (call.perform (system.world client now)).2.file = system.file :=
    moves.file_perform (.inl (Task.creates_of_shared shared)) (.inl shared) _
  have after : (call.perform (system.world client now)).2.file ≠ none := Call.file_ne_none found
  apply linear.continue
  · exact completed_of_opened doing governed
  · exact Session.called_begun doing
  · rw [Session.called, locks]
    exact linear.exclude_same client
  · refine .working task _ origin rfl governed ?_ after departs ?_
    · rw [Session.called, locks]
      exact holds
    · exact comes.step now
  · exact fun _ => after
  · intro other different working
    exact reading (linear.shared_of_working different working linear.exclude rfl rfl holds).1
  · cases mode : (task.discipline domain).mode with
    | exclusive => exact .inl (.inr ⟨rfl, task, _, rfl, mode⟩)
    | shared =>
        rw [reading mode]
        apply linear.tracks_carried
        rintro ⟨-, _, _, current, exclusive⟩
        rw [doing] at current
        cases current
        rw [mode] at exclusive
        cases exclusive
  · exact fun missing _ => linear.created_kept doing rfl missing found

/-- One call of a client; if it completes the task, this is the task's turn. -/
theorem Linear.calls {now : Int}
    (linear : system.Linear domain first tasks history committed stages)
    (settled : task.Settled)
    (doing : (system.sessions client).current = some (task, .call call rest))
    (granted : system.grants client call = true) :
    ∃ more laterCommitted laterStages,
      (system.called client task call (rest (call.perform (system.world client now)).1)
        (call.perform (system.world client now)).2).Linear domain first tasks (history ++ more)
          laterCommitted laterStages := by
  have continues {laterStages : Fin clients → Stage}
      (linear : (system.called client task call (rest (call.perform (system.world client now)).1)
        (call.perform (system.world client now)).2).Linear domain first tasks history committed
          laterStages) :
      ∃ more laterCommitted laterStages,
        (system.called client task call (rest (call.perform (system.world client now)).1)
          (call.perform (system.world client now)).2).Linear domain first tasks (history ++ more)
            laterCommitted laterStages := by
    refine ⟨[], committed, laterStages, ?_⟩
    rw [List.append_nil]
    exact linear
  obtain ⟨later, moves, governed⟩ := linear.moves doing now
  have dropping (dropped : later = .dropped) :
      ∃ more laterCommitted laterStages,
        (system.called client task call (rest (call.perform (system.world client now)).1)
          (call.perform (system.world client now)).2).Linear domain first tasks (history ++ more)
            laterCommitted laterStages := by
    subst dropped
    obtain ⟨outcome, ends⟩ := governed.done_of_dropped
    obtain ⟨laterCommitted, turn⟩ := linear.takesTurn settled doing (linear.completes doing ends)
    rw [ends]
    exact ⟨_, laterCommitted, _, turn⟩
  have stands := linear.stands client
  generalize stage : stages client = standing at stands moves
  cases stands with
  | resting rests =>
      rw [doing] at rests
      cases rests
  | returning _ _ current =>
      rw [doing] at current
      cases current
  | starting _ _ _ current starting =>
      rw [doing] at current
      cases current
      cases moves with
      | opens _ _ opens =>
          split at governed
          · rename_i isOk
            rcases opens.perform (system.world client now) with
              ⟨-, -, refused, -⟩ | ⟨-, position, stored, opened, file⟩
            · rw [refused] at isOk
              cases isOk
            · have comes : task.ComesOpened domain system.bootTime _ 0 :=
                comesOpened_of_opens starting opens isOk
              rw [← position] at comes
              exact continues (linear.opens doing stage governed opens opened file comes)
          · rename_i refused
            apply dropping
            exact if_neg refused
  | waiting _ _ lock waiting current _ holds found comes =>
      rw [doing] at current
      cases current
      cases moves with
      | locks _ _ _ _ acquires =>
          obtain ⟨reply, quiet⟩ := Call.perform_of_acquires acquires
          refine continues (linear.locks doing stage governed holds found acquires granted ?_ ?_)
          · rw [quiet]
            rfl
          · intro origin file opened
            rw [quiet]
            exact (comes origin file opened).quiet fun world _ => quiet world
      | asksBootTime _ _ _ _ asks =>
          refine continues (linear.waits doing stage governed holds found asks ?_ ?_)
          · rw [asks]
            rfl
          · subst asks
            intro origin file opened
            apply (comes origin file opened).quiet
            intro world same
            rw [Call.perform, same]
            rfl
  | working _ _ origin current _ holds found departs comes =>
      rw [doing] at current
      cases current
      cases moves with
      | works _ _ inside =>
          exact continues (linear.works doing governed holds found inside departs comes)
      | drops => exact dropping rfl

end Step

/-! ## Runs -/

theorem advance_bootTime {client : Fin clients} {now : Int} {next : System clients}
    (advanced : system.advance domain client now = some next) :
    next.bootTime = system.bootTime := by
  rcases advance_cases advanced with ⟨_, _, -, -, rfl⟩ | ⟨_, _, -, rfl⟩ | ⟨_, _, _, -, -, rfl⟩ <;> rfl

/-- What one step adds to the tasks done so far. -/
theorem Linear.step {client : Fin clients} {now : Int} {next : System clients}
    (linear : system.Linear domain first tasks history committed stages)
    (settled : ∀ client, ∀ task ∈ tasks client, task.Settled)
    (advanced : system.advance domain client now = some next) :
    ∃ more laterCommitted laterStages,
      next.Linear domain first tasks (history ++ more) laterCommitted laterStages := by
  rcases advance_cases advanced with
    ⟨task, later, rests, pending, rfl⟩ | ⟨task, outcome, ends, rfl⟩ |
    ⟨task, call, rest, doing, granted, rfl⟩
  · obtain ⟨more, laterStages, linear⟩ := linear.begins rests pending
    exact ⟨more, committed, laterStages, linear⟩
  · obtain ⟨laterStages, linear⟩ := linear.returns ends
    refine ⟨[], committed, laterStages, ?_⟩
    rw [List.append_nil]
    exact linear
  · have member : task ∈ tasks client := by
      rw [← linear.given client]
      simp [Session.begun, doing]
    exact linear.calls (settled client task member) doing granted

theorem run_cons {client : Fin clients} {now : Int} {schedule : List (Fin clients × Int)}
    {final : System clients}
    (ran : system.run domain ((client, now) :: schedule) = some final) :
    ∃ next, system.advance domain client now = some next ∧
      next.run domain schedule = some final := by
  unfold run at ran
  rw [List.foldlM_cons] at ran
  exact Option.bind_eq_some_iff.mp ran

/-- What a run adds, and by when. -/
theorem Linear.run {schedule : List (Fin clients × Int)} {final : System clients}
    (linear : system.Linear domain first tasks history committed stages)
    (settled : ∀ client, ∀ task ∈ tasks client, task.Settled)
    (ran : system.run domain schedule = some final) :
    final.bootTime = system.bootTime ∧ ∃ more laterCommitted laterStages,
      final.Linear domain first tasks (history ++ more) laterCommitted laterStages ∧
      ∀ early late reached, schedule = early ++ late → system.run domain early = some reached →
        ∃ front back reachedCommitted reachedStages, more = front ++ back ∧
          reached.Linear domain first tasks (history ++ front) reachedCommitted reachedStages := by
  induction schedule generalizing system history committed stages with
  | nil =>
      cases ran
      refine ⟨rfl, [], committed, stages, by rwa [List.append_nil], ?_⟩
      intro early late reached split ranEarly
      obtain ⟨rfl, -⟩ := List.append_eq_nil_iff.mp split.symm
      cases ranEarly
      exact ⟨[], [], committed, stages, rfl, by rwa [List.append_nil]⟩
  | cons step schedule ih =>
      obtain ⟨client, now⟩ := step
      obtain ⟨next, advanced, ranNext⟩ := run_cons ran
      obtain ⟨added, nextCommitted, nextStages, nextLinear⟩ := linear.step settled advanced
      obtain ⟨bootTime, more, laterCommitted, laterStages, finalLinear, between⟩ :=
        ih nextLinear ranNext
      refine ⟨bootTime.trans (advance_bootTime advanced), added ++ more, laterCommitted,
        laterStages, by rwa [← List.append_assoc], ?_⟩
      intro early late reached split ranEarly
      cases early with
      | nil =>
          cases ranEarly
          exact ⟨[], added ++ more, committed, stages, rfl, by rwa [List.append_nil]⟩
      | cons step early =>
          obtain ⟨rfl, behind⟩ := List.cons_eq_cons.mp split
          obtain ⟨other, otherAdvanced, ranOther⟩ := run_cons ranEarly
          rw [advanced] at otherAdvanced
          obtain rfl := Option.some.inj otherAdvanced
          obtain ⟨front, back, reachedCommitted, reachedStages, rfl, reachedLinear⟩ :=
            between early late reached behind ranOther
          refine ⟨added ++ front, back, reachedCommitted, reachedStages, ?_, ?_⟩
          · rw [List.append_assoc]
          · rwa [← List.append_assoc]

/-- Once all is done, the file is the one that the tasks have left. -/
theorem Linear.file_of_finished
    (linear : system.Linear domain first tasks history committed stages)
    (finished : system.Finished) : system.file = committed := by
  have notOpened : ∀ client waiting, stages client ≠ .opened waiting := by
    intro client waiting opened
    have outside := ((linear.stands client).of_none (finished client).1).1
    rw [opened] at outside
    cases outside
  cases linear.tracks with
  | inr exclusive =>
      obtain ⟨other, working, -⟩ := exclusive
      exact absurd working (notOpened other [])
  | inl tracks =>
      cases tracks with
      | inl same => exact same
      | inr just =>
          rw [just.1]
          by_contra found
          obtain ⟨other, waiting, opened, -⟩ := linear.created just.1 found
          exact notOpened other waiting opened

/-- One order for the tasks of a run: done in this order, each by itself, they leave
the file that the run leaves and return what its clients were told; at every moment of
the run those that have returned are in front of those that have not begun. -/
structure LinearizedBy (domain : LockDomain) (start : System clients)
    (schedule : List (Fin clients × Int)) (final : System clients)
    (history : List (Turn clients)) : Prop where
  sequential : Sequential domain start.bootTime start.file history final.file
  returned : ∀ client, turnsOf client history = (final.sessions client).returned
  inTime : ∀ early late reached, schedule = early ++ late →
    start.run domain early = some reached →
      ∃ front back, history = front ++ back ∧ ∀ client,
        (reached.sessions client).returned <+: turnsOf client front ∧
          (turnsOf client front).map Prod.fst <+: (reached.sessions client).begun

/-- The records that a call appends stand behind one another at the end of the file
when it completes. -/
theorem Linear.appended {client : Fin clients} {now : Int} {task : Task} {call : Call}
    {rest : Reply call → Program Call Reply Outcome} {reply : PoolReply} {after : System clients}
    (linear : system.Linear domain first tasks history committed stages)
    (framed : (fileBytes first).length % recordSize = 0)
    (advanced : system.advance domain client now = some after)
    (doing : (system.sessions client).current = some (task, .call call rest))
    (ends : (after.sessions client).current = some (task, .done (.own (.ok reply)))) :
    ∃ records, fileBytes after.file = image records ∧ task.appended <:+ records := by
  rcases advance_cases advanced with
    ⟨_, _, rests, -⟩ | ⟨_, _, done, -⟩ | ⟨_, _, _, current, -, rfl⟩
  · rw [doing] at rests
    cases rests
  · rw [doing] at done
    cases done
  · rw [doing] at current
    cases current
    simp only [called, Session.called, Function.update_self, Option.some.injEq, Prod.mk.injEq,
      true_and] at ends
    have completes := linear.completes doing ends
    obtain ⟨origin, departs, yields⟩ := completes.departed
    have stored : ∃ records : List RawRecord, fileBytes origin = image records := by
      cases departs with
      | inl fromCommitted => exact fromCommitted ▸ linear.sequential.exists_image framed
      | inr fromEmpty => exact ⟨[], fromEmpty.2.2⟩
    obtain ⟨records, stored⟩ := stored
    obtain ⟨left, leaves, appended⟩ := yields.leaves_image stored
    refine ⟨left, ?_, appended reply rfl⟩
    rw [← leaves]
    exact congrArg fileBytes completes.file

end System

theorem Session.returned_le_completed (session : Session) :
    session.returned <+: session.completed := by
  unfold Session.completed
  split
  · exact List.prefix_append _ _
  · exact List.prefix_rfl

theorem Session.completed_le_begun (session : Session) :
    session.completed.map Prod.fst <+: session.begun := by
  unfold Session.completed Session.begun
  split
  · rename_i current
    simp [current]
  · exact List.prefix_append _ _

end AzureInit.Kvp
