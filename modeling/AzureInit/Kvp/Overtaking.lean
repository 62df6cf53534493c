import AzureInit.Kvp.Linearization

/-! Every run of clients at one pool has an order of its tasks. The runs to look at are
those in which one client overtakes another: the pool that a client has created but not
yet locked is found, still empty, by the next. -/

set_option autoImplicit false

namespace AzureInit.Kvp

open Foundation
open Blocks (image)

namespace System

variable {clients : Nat} {domain : LockDomain}

theorem run_append {system middle : System clients} {early late : List (Fin clients × Int)}
    (ran : system.run domain early = some middle) :
    system.run domain (early ++ late) = middle.run domain late := by
  unfold run at ran ⊢
  rw [List.foldlM_append, ran]
  rfl

theorem run_step {system next : System clients} {client : Fin clients} {now : Int}
    {schedule : List (Fin clients × Int)}
    (advanced : system.advance domain client now = some next) :
    system.run domain ((client, now) :: schedule) = next.run domain schedule := by
  unfold run
  rw [List.foldlM_cons]
  simp [advanced]

theorem grants_of_free {system : System clients} {client : Fin clients}
    (free : ∀ other, other ≠ client → (system.sessions other).locks = noLocks) (call : Call) :
    system.grants client call = true := by
  unfold grants
  split
  · rfl
  · rw [List.all_eq_true]
    intro other _
    by_cases isOwn : other = client
    · simp [isOwn]
    · simp [free other isOwn, noLocks, LockMode.compatible]

theorem advance_call {system : System clients} {client : Fin clients} {task : Task} {call : Call}
    {rest : Reply call → Program Call Reply Outcome} {now : Int}
    (doing : (system.sessions client).current = some (task, .call call rest))
    (granted : system.grants client call = true) :
    system.advance domain client now =
      some (system.called client task call (rest (call.perform (system.world client now)).1)
        (call.perform (system.world client now)).2) := by
  simp only [advance, doing, granted, if_true]
  rfl

/-- What a client leaves that has run its task to the end. -/
structure Ran (system : System clients) (client : Fin clients) (task : Task) (outcome : Outcome)
    (file : Option PoolFile) (final : System clients) : Prop where
  ends : (final.sessions client).current = some (task, .done outcome)
  free : (final.sessions client).locks = noLocks
  pending : (final.sessions client).pending = (system.sessions client).pending
  returned : (final.sessions client).returned = (system.sessions client).returned
  file : final.file = file
  bootTime : final.bootTime = system.bootTime
  others : ∀ other, other ≠ client → final.sessions other = system.sessions other

/-- A client that nobody keeps from the pool can run its task to the end. -/
theorem exists_run_of_runs (domain : LockDomain) (client : Fin clients) {task : Task}
    {program : Program Call Reply Outcome} {before after : World} {outcome : Outcome}
    (execution : Program.Runs (HandleStep noFaults) program before outcome after)
    {discipline : Discipline} {stage : Stage} (governed : discipline.Governs program stage)
    (system : System clients) (doing : (system.sessions client).current = some (task, program))
    (file : before.file = system.file) (position : before.position = (system.sessions client).position)
    (bootTime : before.bootTime = system.bootTime)
    (idle : stage.Idle → (system.sessions client).locks = noLocks)
    (free : ∀ other, other ≠ client → (system.sessions other).locks = noLocks) :
    ∃ schedule final, system.run domain schedule = some final ∧
      system.Ran client task outcome after.file final := by
  induction execution generalizing system stage with
  | done =>
      exact ⟨[], system, rfl, doing, idle governed, rfl, rfl, file.symm, rfl, fun _ _ => rfl⟩
  | @call call next before middle after reply outcome stepped _ ih =>
      obtain ⟨answered, now, rfl, rfl⟩ := stepped.answered
      obtain ⟨later, advanced, governed⟩ := governed _ answered
      have same : before.at now = system.world client now := by
        rw [World.at, World.eq_worldAt before, file, position, bootTime]
        rfl
      rw [same] at advanced governed ih
      have moves := Discipline.moves_of_advance advanced
      have locked : later.Idle → call.locksAfter (system.sessions client).locks = noLocks := by
        intro ended
        cases moves with
        | opens _ _ opens => rw [Call.locksAfter_of_opens opens, idle (.inl rfl)]
        | drops _ _ closes =>
            subst closes
            rfl
        | locks | asksBootTime | works => rcases ended with impossible | impossible <;> cases impossible
      obtain ⟨schedule, final, ran, left⟩ := ih governed
        (system.called client task call (next (call.perform (system.world client now)).1)
          (call.perform (system.world client now)).2)
        (by simp [called, Session.called]) rfl (by simp [called, Session.called])
        (Call.bootTime_perform call _) (by simpa [called, Session.called] using locked)
        (by
          intro other different
          simp only [called, Function.update_of_ne different]
          exact free other different)
      refine ⟨(client, now) :: schedule, final, ?_, ?_⟩
      · rw [run_step (advance_call doing (grants_of_free free call))]
        exact ran
      · refine ⟨left.ends, left.free, ?_, ?_, left.file, left.bootTime, ?_⟩
        · rw [left.pending]
          simp [called, Session.called]
        · rw [left.returned]
          simp [called, Session.called]
        · intro other different
          rw [left.others other different]
          simp [called, Function.update_of_ne different]

theorem advance_begin {system : System clients} {client : Fin clients} {task : Task}
    {later : List Task} (rests : (system.sessions client).current = none)
    (pending : (system.sessions client).pending = task :: later) (now : Int) :
    system.advance domain client now = some (system.setSession client
      { system.sessions client with pending := later, current := some (task, task.program domain) }) := by
  simp only [advance, rests, pending]

theorem advance_return {system : System clients} {client : Fin clients} {task : Task}
    {outcome : Outcome} (ends : (system.sessions client).current = some (task, .done outcome))
    (now : Int) :
    system.advance domain client now = some (system.setSession client
      { system.sessions client with
        current := none, returned := (system.sessions client).returned ++ [(task, outcome)] }) := by
  simp only [advance, ends]

/-- Two clients with one task each. -/
def oneEach (first second : Task) : Fin 2 → List Task := ![[first], [second]]

/-- The first client creates the pool, the second does its task, then the first goes on. -/
theorem exists_overtaking {first second : Task}
    {next : Reply .openReadWriteCreate → Program Call Reply Outcome}
    (creates : first.program domain = .call .openReadWriteCreate next)
    {middle after : World} {firstOutcome secondOutcome : Outcome}
    (secondRuns : Program.Runs (HandleStep noFaults) (second.program domain)
      (aloneAt 0 (some { bytes := [], mtime := 0 }) 0) secondOutcome middle)
    (firstRuns : Program.Runs (HandleStep noFaults) (next (.ok ())) (worldAt 0 middle.file 0 0)
      firstOutcome after) :
    ∃ schedule final, (initial none 0 (oneEach first second)).run domain schedule = some final ∧
      final.Finished ∧ final.file = after.file := by
  let start := initial none 0 (oneEach first second)
  let begun := start.setSession 0 { start.sessions 0 with
    pending := [], current := some (first, first.program domain) }
  have begins : start.advance domain 0 0 = some begun := advance_begin rfl rfl 0
  have doing : (begun.sessions 0).current = some (first, .call .openReadWriteCreate next) := by
    rw [← creates]
    rfl
  have free : ∀ client, (begun.sessions client).locks = noLocks := by
    intro client
    fin_cases client <;> rfl
  let opened := begun.called 0 first .openReadWriteCreate (next (.ok ()))
    (worldAt 0 (some { bytes := [], mtime := 0 }) 0 0)
  have opens : begun.advance domain 0 0 = some opened :=
    advance_call doing (grants_of_free (fun other _ => free other) _)
  let overtaking := opened.setSession 1 { opened.sessions 1 with
    pending := [], current := some (second, second.program domain) }
  have overtakes : opened.advance domain 1 0 = some overtaking := advance_begin rfl rfl 0
  have others : ∀ other : Fin 2, other ≠ 1 → (overtaking.sessions other).locks = noLocks := by
    rw [Fin.forall_fin_two]
    exact ⟨fun _ => rfl, fun different => absurd rfl different⟩
  obtain ⟨schedule, worked, ran, left⟩ := exists_run_of_runs domain 1 secondRuns
    (task_governed domain second) overtaking rfl rfl rfl rfl (fun _ => rfl) others
  let returned := worked.setSession 1 { worked.sessions 1 with
    current := none, returned := (worked.sessions 1).returned ++ [(second, secondOutcome)] }
  have returns : worked.advance domain 1 0 = some returned := advance_return left.ends 0
  have unmoved : returned.sessions 0 = opened.sessions 0 := by
    have same : returned.sessions 0 = worked.sessions 0 := rfl
    rw [same, left.others 0 (by decide)]
    rfl
  have governed := task_governed domain first
  rw [creates] at governed
  obtain ⟨stage, -, governed⟩ := governed (.ok ()) ⟨aloneAt 0 none 0, rfl⟩
  have others : ∀ other : Fin 2, other ≠ 0 → (returned.sessions other).locks = noLocks := by
    rw [Fin.forall_fin_two]
    exact ⟨fun different => absurd rfl different, fun _ => left.free⟩
  obtain ⟨rest, final, ranRest, last⟩ := exists_run_of_runs domain 0 firstRuns governed returned
    (by rw [unmoved]; rfl) left.file.symm (by rw [unmoved]; rfl) left.bootTime.symm
    (fun _ => by rw [unmoved]; rfl) others
  let ended := final.setSession 0 { final.sessions 0 with
    current := none, returned := (final.sessions 0).returned ++ [(first, firstOutcome)] }
  have ends : final.advance domain 0 0 = some ended := advance_return last.ends 0
  refine ⟨(0, 0) :: (0, 0) :: (1, 0) :: (schedule ++ (1, 0) :: (rest ++ [(0, 0)])), ended, ?_, ?_,
    last.file⟩
  · rw [run_step begins, run_step opens, run_step overtakes, run_append ran, run_step returns,
      run_append ranRest, run_step ends]
    rfl
  · have secondDone : ended.sessions 1 = returned.sessions 1 := last.others 1 (by decide)
    unfold Finished
    rw [Fin.forall_fin_two, secondDone]
    refine ⟨⟨rfl, ?_⟩, rfl, left.pending⟩
    have noMore : (ended.sessions 0).pending = (final.sessions 0).pending := rfl
    rw [noMore, last.pending, unmoved]
    rfl

end System

/-! ## Two appends -/

/-- Another program that writes a record behind the last. -/
def appendingBody (record : RawRecord) : Io Unit := do
  let _ ← request .seekEnd
  request (.writeAll record.toList)

theorem appendingBody_ensures (record : RawRecord) (world : World) :
    Ensures (HandleStep noFaults) (appendingBody record) world
      (fun _ after => after.bytes = world.bytes ++ record.toList) (fun _ _ => False) := by
  apply ensures_seekEnd.bind fun _ _ untouched => not_faulted_noFaults untouched.2
  rintro _ middle ⟨file, position⟩
  have bytes := World.bytes_eq_of_file_eq file
  have inside : middle.position ≤ middle.bytes.length := by rw [position, bytes]
  apply (ensures_writeAll inside).imp
  · rintro _ after ⟨left, -⟩
    rw [left, position, bytes, Blocks.splice_end]
  · rintro _ after ⟨stored, may, -⟩
    exact not_faulted_noFaults may.faulted

theorem appendingBody_bytes {record : RawRecord} {world after : World}
    {result : Except IoError Unit}
    (execution : Program.Runs (HandleStep noFaults) (appendingBody record).run world result after) :
    after.bytes = world.bytes ++ record.toList := by
  cases result with
  | ok _ => exact (appendingBody_ensures record world).value execution
  | error _ => exact ((appendingBody_ensures record world).error execution).elim

def appendingUpdate (creates : Bool) (record : RawRecord) : ForeignUpdate where
  creates := creates
  body := appendingBody record
  inside := by
    apply StaysInside.io (staysInside_request rfl)
    exact fun _ => staysInside_request rfl
  framed := by
    intro world result after execution framed
    rw [World.Framed, appendingBody_bytes execution, List.length_append, record.toList_length,
      Nat.add_mod_right]
    exact framed

section Appends

variable {domain : LockDomain} {bootTime : Int} {key value : Text}

/-- The first client's task: to append a record. -/
def appendTask (key value : Text) : Task := .own (.update (.append .safe key value))

theorem appendTask_program (valid : KvpPoolStore.validateRecord .safe key value = .ok ()) :
    ∃ next, (appendTask key value).program domain = .call .openReadWriteCreate next := by
  simp only [appendTask, Task.program, PoolCall.perform, Update.perform, KvpPoolStore.append, valid]
  exact ⟨_, rfl⟩

theorem appendTask_yields {before after : Option PoolFile} {outcome : Outcome}
    {records : List RawRecord} (valid : KvpPoolStore.validateRecord .safe key value = .ok ())
    (yields : (appendTask key value).Yields domain bootTime before outcome after)
    (stored : fileBytes before = image records) :
    fileBytes after = image (records ++ [RawRecord.encode key value]) := by
  obtain ⟨-, left⟩ := Task.Yields.of_update yields stored
  rw [left]
  simp only [Update.onList, valid]

/-- The other program finds the pool that the first client has just created. -/
theorem exists_overtaken_append (domain : LockDomain) (key value : Text) (record : RawRecord)
    (creates : Bool) (valid : KvpPoolStore.validateRecord .safe key value = .ok ()) :
    ∃ schedule final, (System.initial none 0 (System.oneEach (appendTask key value)
        (.foreign (appendingUpdate creates record)))).run domain schedule = some final ∧
      final.Finished ∧
      fileBytes final.file = image [record, RawRecord.encode key value] := by
  obtain ⟨next, starting⟩ : ∃ next, (appendTask key value).program domain =
    .call .openReadWriteCreate next := appendTask_program valid
  let task : Task := .foreign (appendingUpdate creates record)
  have overtakes := runs_execute noFaults (task.program domain)
    (aloneAt 0 (some { bytes := [], mtime := 0 }) 0)
  generalize execute (task.program domain) (aloneAt 0 (some { bytes := [], mtime := 0 }) 0) =
    overtaken at overtakes
  have written : overtaken.2.bytes = image [record] := by
    obtain ⟨result, middle, performed, returned⟩ := Program.runs_bind_iff.mp overtakes
    obtain ⟨-, same⟩ := Program.runs_pure_iff.mp returned
    rw [same]
    apply @foreign_always _ (· = image [record]) (appendingUpdate creates record) domain ?_ ?_ _ _ performed
    · intro found _ after execution empty
      rw [appendingBody_bytes execution, empty]
      exact (List.append_nil _).symm
    · intro _ missing
      cases missing
  have goesOn := runs_execute noFaults (next (.ok ())) (worldAt 0 overtaken.2.file 0 0)
  generalize execute (next (.ok ())) (worldAt 0 overtaken.2.file 0 0) = last at goesOn
  obtain ⟨schedule, final, ran, finished, file⟩ := System.exists_overtaking starting overtakes goesOn
  refine ⟨schedule, final, ran, finished, ?_⟩
  have yields : (appendTask key value).Yields domain 0 overtaken.2.file last.1 last.2.file := by
    refine ⟨0, last.2, ?_, rfl⟩
    rw [starting]
    obtain ⟨left, there⟩ : ∃ left, overtaken.2.file = some left := by
      rw [World.bytes_eq_fileBytes] at written
      cases found : overtaken.2.file with
      | some left => exact ⟨left, rfl⟩
      | none =>
          rw [found] at written
          have lengths := congrArg List.length written
          rw [Blocks.length_image] at lengths
          cases lengths
    have opens : HandleStep noFaults .openReadWriteCreate (aloneAt 0 overtaken.2.file 0) (.ok ())
        (worldAt 0 overtaken.2.file 0 0) := by
      rw [there]
      exact .performed .openReadWriteCreate _ 0
    exact .call opens goesOn
  rw [file]
  have found : fileBytes overtaken.2.file = image [record] :=
    (World.bytes_eq_fileBytes _).symm.trans written
  exact appendTask_yields valid yields found

end Appends

/-- Two records that two programs append. -/
def firstRecord : RawRecord := RawRecord.encode ['a'] ['1']

def secondRecord : RawRecord := RawRecord.encode ['b'] ['2']

theorem secondRecord_ne : secondRecord ≠ firstRecord := by
  intro same
  have first : firstRecord.decode = .ok (['a'], ['1']) :=
    RawRecord.decode_encode (by decide) (by decide) (by decide) (by decide)
  have second : secondRecord.decode = .ok (['b'], ['2']) :=
    RawRecord.decode_encode (by decide) (by decide) (by decide) (by decide)
  rw [same, first] at second
  cases second

/-- Alone, the two programs never leave the second's record in front. -/
theorem sequential_appends {bootTime : Int} {history : List (Turn 2)} {last : Option PoolFile}
    (sequential : Sequential .flock bootTime none history last)
    (own : ∀ turn ∈ history, turn.task = appendTask ['a'] ['1'] ∨
      turn.task = .foreign (appendingUpdate false secondRecord)) :
    last = none ∨ ∃ tail, fileBytes last = image (firstRecord :: tail) := by
  induction sequential with
  | start => exact .inl rfl
  | @turn history before after turn _ yields ih =>
      have earlier := ih fun turn member => own turn (List.mem_append_left _ member)
      rcases own turn (by simp) with append | foreign
      · rw [append] at yields
        right
        rcases earlier with rfl | ⟨tail, stored⟩
        · exact ⟨[], appendTask_yields rfl yields (Blocks.image_nil (α := UInt8)).symm⟩
        · exact ⟨tail ++ [firstRecord], appendTask_yields rfl yields stored⟩
      · rw [foreign] at yields
        rcases earlier with rfl | ⟨tail, stored⟩
        · obtain ⟨now, final, execution, rfl⟩ := yields
          exact .inl (file_of_missing rfl rfl execution)
        · right
          have behind : ∀ (world : World) (result : Except IoError Unit) (after : World),
              Program.Runs (HandleStep noFaults) (appendingBody secondRecord).run world result after →
                (∃ tail, world.bytes = image (firstRecord :: tail)) →
                  ∃ tail, after.bytes = image (firstRecord :: tail) := by
            rintro world result after execution ⟨tail, stored⟩
            refine ⟨tail ++ [secondRecord], ?_⟩
            rw [appendingBody_bytes execution, stored]
            simp [image]
          exact (@Task.Yields.of_foreign _ _ _ _ _ _
            (fun bytes => ∃ tail, bytes = image (firstRecord :: tail)) yields behind
            ⟨tail, stored⟩).2

/-! ## Every run -/

/-- Any number of clients, each with its own list of calls on one pool that is missing
or made of whole records, next to other programs that lock it in one domain, in any
interleaving that the locks permit: a run that ends has an order of its tasks in which
they come to the same one after the other. The records of an append are behind one
another at the end of the file when it completes. -/
theorem concurrent_calls_linearize {clients : Nat} (domain : LockDomain)
    (file : Option PoolFile) (bootTime : Int) (tasks : Fin clients → List Task)
    (framed : (fileBytes file).length % recordSize = 0)
    (settled : ∀ client, ∀ task ∈ tasks client, task.Settled)
    (schedule : List (Fin clients × Int)) (final : System clients)
    (ran : (System.initial file bootTime tasks).run domain schedule = some final) :
    (final.Finished →
      (∃ history, System.LinearizedBy domain (System.initial file bootTime tasks) schedule final
        history) ∧
      ∀ client, (final.sessions client).returned.map Prod.fst = tasks client) ∧
    ∀ (early late : List (Fin clients × Int)) (client : Fin clients) (now : Int)
      (before after : System clients) (task : Task) (call : Call)
      (rest : Reply call → Program Call Reply Outcome) (reply : PoolReply),
      schedule = early ++ (client, now) :: late →
      (System.initial file bootTime tasks).run domain early = some before →
      before.advance domain client now = some after →
      (before.sessions client).current = some (task, .call call rest) →
      (after.sessions client).current = some (task, .done (.own (.ok reply))) →
        ∃ records, fileBytes after.file = image records ∧ task.appended <:+ records := by
  obtain ⟨sameBoot, history, committed, stages, linear, between⟩ :=
    (System.linear_initial file bootTime tasks).run settled ran
  constructor
  · intro finished
    refine ⟨⟨history, ?_, ?_, ?_⟩, ?_⟩
    · have sequential := linear.sequential
      rw [sameBoot, ← linear.file_of_finished finished] at sequential
      exact sequential
    · intro client
      have told := linear.told client
      rw [Session.completed_of_none (finished client).1] at told
      exact told
    · intro early late reached split ranEarly
      obtain ⟨front, back, _, _, more, reachedLinear⟩ := between early late reached split ranEarly
      refine ⟨front, back, more, fun client => ?_⟩
      have told := reachedLinear.told client
      rw [List.nil_append] at told
      rw [told]
      exact ⟨(reached.sessions client).returned_le_completed,
        (reached.sessions client).completed_le_begun⟩
    · intro client
      have given := linear.given client
      rw [Session.begun, (finished client).1, (finished client).2] at given
      simpa using given
  · intro early late client now before after task call rest reply split ranEarly advanced doing ends
    obtain ⟨front, back, _, _, -, beforeLinear⟩ := between early _ before split ranEarly
    exact beforeLinear.appended framed advanced doing ends

/-- An update that finds the pool just created for an append, and would have found none
had it come before: its record stands in front of the append's, which no order of the
two explains. -/
theorem overtaken_append_does_not_linearize :
    ∃ schedule final, (System.initial none 0 (System.oneEach (appendTask ['a'] ['1'])
        (.foreign (appendingUpdate false secondRecord)))).run .flock schedule = some final ∧
      final.Finished ∧
      ¬ ∃ history last, Sequential .flock 0 none history last ∧
        fileBytes last = fileBytes final.file ∧
        ∀ client, (turnsOf client history).map Prod.fst =
          System.oneEach (appendTask ['a'] ['1']) (.foreign (appendingUpdate false secondRecord))
            client := by
  obtain ⟨schedule, final, ran, finished, stored⟩ := exists_overtaken_append .flock ['a'] ['1']
    secondRecord false rfl
  refine ⟨schedule, final, ran, finished, ?_⟩
  rintro ⟨history, last, sequential, same, given⟩
  have own : ∀ turn ∈ history, turn.task = appendTask ['a'] ['1'] ∨
      turn.task = .foreign (appendingUpdate false secondRecord) := by
    intro turn member
    have among : turn.task ∈ (turnsOf turn.client history).map Prod.fst := by
      rw [turnsOf, List.map_map]
      exact List.mem_map.mpr ⟨turn, List.mem_filter.mpr ⟨member, by simp⟩, rfl⟩
    rw [given] at among
    generalize turn.client = client at among
    fin_cases client
    · exact .inl (List.mem_singleton.mp among)
    · exact .inr (List.mem_singleton.mp among)
  rw [stored] at same
  cases sequential_appends sequential own with
  | inl missing =>
      rw [missing] at same
      have lengths := congrArg List.length same
      rw [Blocks.length_image] at lengths
      cases lengths
  | inr front =>
      obtain ⟨tail, front⟩ := front
      rw [front] at same
      have heads := Blocks.image_injective recordSize_pos same
      exact secondRecord_ne (List.cons_eq_cons.mp heads).1.symm

theorem concurrent_calls_linearize_overtaken :
    ∃ schedule final, (System.initial none 0 (System.oneEach (appendTask ['a'] ['1'])
        (.foreign (appendingUpdate true secondRecord)))).run .flock schedule = some final ∧
      ∃ history, System.LinearizedBy .flock (System.initial none 0 (System.oneEach
        (appendTask ['a'] ['1']) (.foreign (appendingUpdate true secondRecord)))) schedule final
          history := by
  obtain ⟨schedule, final, ran, finished, -⟩ := exists_overtaken_append .flock ['a'] ['1']
    secondRecord true rfl
  refine ⟨schedule, final, ran, ?_⟩
  have settled : ∀ client, ∀ task ∈ System.oneEach (appendTask ['a'] ['1'])
      (.foreign (appendingUpdate true secondRecord)) client, task.Settled := by
    rw [Fin.forall_fin_two]
    refine ⟨?_, ?_⟩ <;> intro task member <;> obtain rfl := List.mem_singleton.mp member
    · trivial
    · exact fun existing => by cases existing
  exact ((concurrent_calls_linearize .flock none 0 _ rfl settled schedule final ran).1 finished).1

end AzureInit.Kvp
