import AzureInit.Foundation.TextLines
import AzureInit.Cli.Reports

/-! The text form of a pool: what `dump --text` prints, and what `load` and
`append-multiple` make of it. -/

set_option autoImplicit false

namespace AzureInit.Cli

open Foundation
open Kvp (KvpError KvpIo PoolMode IoError World HandleStep noFaults Call Reply)

/-! ## The commands -/

/-- A stream that text is written to. -/
structure Stdout (W : Type) where
  writeAll : W → Text → Except IoError W

/-- A stream that keeps all text. -/
def buffered : Stdout Text where
  writeAll written text := .ok (written ++ text)

def liftIo {α : Type} (outcome : Except IoError α) : CliIo α :=
  ExceptT.mk (pure (outcome.mapError .io))

def liftResult {α : Type} (outcome : Except CliError α) : CliIo α := ExceptT.mk (pure outcome)

/-- The line of a record. -/
def recordLine (record : Text × Text) : Text := record.1 ++ '=' :: record.2

/-- `dump` without `--parse` and in text mode. -/
def dumpText {W : Type} (stdout : Stdout W) (written : W) : CliIo (Nat × W) := do
  let records ← liftKvp Kvp.KvpPoolStore.dump
  let written ← liftIo (records.foldlM
    (fun written record => stdout.writeAll written (recordLine record ++ ['\n'])) written)
  return (exitOk, written)

/-- The records of the lines; a line is counted from one. -/
def parseLinesFrom : Nat → List Text → Except CliError (List (Text × Text))
  | _, [] => .ok []
  | lineNumber, line :: lines =>
      if line.isEmpty then parseLinesFrom (lineNumber + 1) lines
      else
        match Delimited.splitOnce? '=' line with
        | none =>
            .error (.usage ("line ".toList ++ Decimal.digits (lineNumber + 1) ++
              " must be in key=value format".toList))
        | some record => (parseLinesFrom (lineNumber + 1) lines).map (record :: ·)

def parseKeyValueLines (input : Text) : Except CliError (List (Text × Text)) :=
  parseLinesFrom 0 (Lines.lines input)

/-- Where a command reads its records from: a file, which has to be opened, or the standard
input. -/
inductive Input where
  | file (opened : Except IoError (Except IoError Text))
  | stdin (readToString : Except IoError Text)

def Input.readToString : Input → Except IoError Text
  | .file opened => do
      let readToString ← opened
      readToString
  | .stdin readToString => readToString

/-- Hand the records of the input to an operation of the store. -/
def storeFromReader (store : List (Text × Text) → KvpIo Unit) (input : Input) : CliIo Nat := do
  let buf ← liftIo input.readToString
  let records ← liftResult (parseKeyValueLines buf)
  liftKvp (store records)
  return exitOk

def load (mode : PoolMode) (input : Input) : CliIo Nat :=
  storeFromReader (Kvp.KvpPoolStore.load mode) input

def appendMultiple (mode : PoolMode) (input : Input) : CliIo Nat :=
  storeFromReader (Kvp.KvpPoolStore.appendMultiple mode) input

/-! ## Printing and parsing -/

/-- A record that its line can be split into. -/
structure IsPrintable (record : Text × Text) : Prop where
  keyPlain : '=' ∉ record.1 ∧ '\n' ∉ record.1
  valuePlain : '\n' ∉ record.2
  valueEnd : record.2.getLast? ≠ some '\r'

theorem IsPrintable.isLine {record : Text × Text} (printable : IsPrintable record) :
    Lines.IsLine (recordLine record) := by
  unfold recordLine
  constructor
  · rw [List.mem_append, List.mem_cons, not_or, not_or]
    exact ⟨printable.keyPlain.2, by decide, printable.valuePlain⟩
  · cases value : record.2 with
    | nil => simp
    | cons first rest =>
        have valueEnd := printable.valueEnd
        rw [value] at valueEnd
        rwa [List.getLast?_append_cons, List.getLast?_cons_cons]

theorem IsPrintable.splitOnce? {record : Text × Text} (printable : IsPrintable record) :
    Delimited.splitOnce? '=' (recordLine record) = some record :=
  Delimited.splitOnce?_eq_some_iff.mpr ⟨rfl, printable.keyPlain.1⟩

theorem parseLinesFrom_recordLine {records : List (Text × Text)}
    (printable : ∀ record ∈ records, IsPrintable record) (lineNumber : Nat) :
    parseLinesFrom lineNumber (records.map recordLine) = .ok records := by
  induction records generalizing lineNumber with
  | nil => rfl
  | cons record records ih =>
      obtain ⟨first, others⟩ := List.forall_mem_cons.mp printable
      have given : (recordLine record).isEmpty = false := by simp [recordLine]
      rw [List.map_cons, parseLinesFrom, given, if_neg (by decide), first.splitOnce?]
      dsimp only
      rw [ih others]
      rfl

def printed (records : List (Text × Text)) : Text := Lines.unlines (records.map recordLine)

/-- What is printed is parsed. -/
theorem parseKeyValueLines_printed {records : List (Text × Text)}
    (printable : ∀ record ∈ records, IsPrintable record) :
    parseKeyValueLines (printed records) = .ok records := by
  have isLine : ∀ line ∈ records.map recordLine, Lines.IsLine line := by
    intro line member
    obtain ⟨record, inRecords, rfl⟩ := List.mem_map.mp member
    exact (printable record inRecords).isLine
  unfold parseKeyValueLines printed
  rw [Lines.lines_unlines isLine]
  exact parseLinesFrom_recordLine printable 0

theorem foldlM_buffered (records : List (Text × Text)) (written : Text) :
    records.foldlM (fun written record => buffered.writeAll written (recordLine record ++ ['\n']))
      written = .ok (written ++ printed records) := by
  induction records generalizing written with
  | nil =>
      rw [printed, List.map_nil]
      exact congrArg Except.ok (List.append_nil written).symm
  | cons record records ih =>
      rw [List.foldlM_cons]
      refine (ih (written ++ (recordLine record ++ ['\n']))).trans ?_
      simp [printed, Lines.unlines, List.append_assoc]

/-! ## Pools -/

/-- A well-formed pool with these records in their order. -/
structure Holds (world : World) (records : List (Text × Text)) : Prop where
  wellFormed : world.WellFormed
  contents : Kvp.contents world.records = records

/-- `load` takes the records, on some pool. -/
def LoadAccepts (mode : PoolMode) (records : List (Text × Text)) : Prop :=
  ∃ world after, Program.Runs (HandleStep noFaults) (Kvp.KvpPoolStore.load mode records).run
    world (.ok ()) after

/-- No failure is possible. -/
def never {ε State : Type} : ε → State → Prop := fun _ _ => False

theorem contents_append (left right : List Kvp.RawRecord) :
    Kvp.contents (left ++ right) = Kvp.contents left ++ Kvp.contents right :=
  List.map_append

theorem contents_encodeAll {mode : PoolMode} {records : List (Text × Text)}
    (valid : ∀ record ∈ records,
      Kvp.KvpPoolStore.validateRecord mode record.1 record.2 = .ok ()) :
    Kvp.contents (Kvp.encodeAll records) = records := by
  unfold Kvp.contents Kvp.encodeAll
  rw [List.map_map]
  refine (List.map_congr_left ?_).trans (List.map_id records)
  intro record member
  obtain ⟨-, key, value⟩ := Kvp.fields_encode (valid record member)
  exact Prod.ext key value

/-- What an update that is accepted leaves. -/
private theorem holds_of_records {world : World} {records : List Kvp.RawRecord}
    (bytes : world.bytes = Foundation.Blocks.image records) (decodable : Kvp.Decodable records) :
    Holds world (Kvp.contents records) := by
  have stored := World.records_of_image bytes
  exact ⟨⟨World.framed_of_image bytes, by rwa [stored]⟩, by rw [stored]⟩

/-- An update that is accepted leaves the records that it makes of a list of records. -/
private theorem holds_of_performs {update : Kvp.Update} {program : KvpIo Unit}
    {target : World} {records left : List Kvp.RawRecord}
    (performs : Kvp.Performs noFaults update records program (fun _ => .done) target)
    (onList : update.onList records = (.ok .done, left)) (decodable : Kvp.Decodable left) :
    Ensures (HandleStep noFaults) program target
      (fun _ after => Holds after (Kvp.contents left)) never := by
  refine performs.imp ?_ ?_
  · intro done after outcome
    obtain ⟨-, bytes⟩ := Or.resolve_right outcome fun fault => Kvp.not_faulted_noFaults fault.1
    rw [onList] at bytes
    exact holds_of_records bytes decodable
  · intro error after outcome
    obtain ⟨failed, -⟩ := Or.resolve_right outcome fun fault => Kvp.not_faulted_noFaults fault.1
    rw [onList] at failed
    cases failed

private theorem load_ensures_of_uniqueKeys {mode : PoolMode} {records : List (Text × Text)}
    {uniqueKeys : Finset Text}
    (collected : Kvp.KvpPoolStore.uniqueKeysOf mode records = .ok uniqueKeys)
    (few : uniqueKeys.card ≤ Kvp.maxUniqueKeys) {target : World} (framed : target.Framed) :
    Ensures (HandleStep noFaults) (Kvp.KvpPoolStore.load mode records) target
      (fun _ after => Holds after records) never := by
  have onList : (Kvp.Update.load mode records).onList target.records =
      (.ok .done, Kvp.encodeAll records) := by
    simp only [Kvp.Update.onList, collected]
    rw [if_neg (by omega)]
  have valid := (Kvp.validate_of_uniqueKeysOf collected).1
  have held := holds_of_performs (Kvp.load_performs framed.bytes_eq mode records) onList
    (Kvp.decodable_encodeAll valid)
  rwa [contents_encodeAll valid] at held

/-- A missing pool that has been loaded. -/
def loadedPool (mode : PoolMode) (records : List (Text × Text)) : World :=
  (Kvp.execute (Kvp.KvpPoolStore.load mode records).run Kvp.missingPool).2

theorem loadedPool_spec {mode : PoolMode} {records : List (Text × Text)}
    {uniqueKeys : Finset Text}
    (collected : Kvp.KvpPoolStore.uniqueKeysOf mode records = .ok uniqueKeys)
    (few : uniqueKeys.card ≤ Kvp.maxUniqueKeys) :
    Holds (loadedPool mode records) records ∧
      Program.Runs (HandleStep noFaults) (Kvp.KvpPoolStore.load mode records).run
        Kvp.missingPool (.ok ()) (loadedPool mode records) := by
  have ran := Kvp.runs_execute noFaults (Kvp.KvpPoolStore.load mode records).run Kvp.missingPool
  have ensured := load_ensures_of_uniqueKeys collected few Kvp.missingPool_wellFormed.framed
    _ _ ran
  unfold loadedPool
  cases result : (Kvp.execute (Kvp.KvpPoolStore.load mode records).run Kvp.missingPool).1 with
  | ok done =>
      rw [result] at ran ensured
      exact ⟨ensured, ran⟩
  | error error =>
      rw [result] at ensured
      cases ensured

/-- `load` takes valid records with not too many keys. -/
theorem loadAccepts_iff {mode : PoolMode} {records : List (Text × Text)} :
    LoadAccepts mode records ↔
      ∃ uniqueKeys, Kvp.KvpPoolStore.uniqueKeysOf mode records = .ok uniqueKeys ∧
        uniqueKeys.card ≤ Kvp.maxUniqueKeys := by
  constructor
  · intro accepts
    obtain ⟨world, after, returned⟩ := accepts
    unfold Kvp.KvpPoolStore.load at returned
    obtain ⟨uniqueKeys, middle, collected, rest⟩ := Program.runs_except_bind_ok_iff.mp returned
    refine ⟨uniqueKeys, (Program.runs_pure_iff.mp collected).1.symm, ?_⟩
    by_contra many
    rw [if_pos (by omega)] at rest
    cases (Program.runs_except_throw_iff.mp rest).1
  · intro accepted
    obtain ⟨uniqueKeys, collected, few⟩ := accepted
    exact ⟨Kvp.missingPool, loadedPool mode records, (loadedPool_spec collected few).2⟩

theorem LoadAccepts.valid {mode : PoolMode} {records : List (Text × Text)}
    (accepts : LoadAccepts mode records) :
    ∀ record ∈ records, Kvp.KvpPoolStore.validateRecord mode record.1 record.2 = .ok () := by
  obtain ⟨uniqueKeys, collected, -⟩ := loadAccepts_iff.mp accepts
  exact (Kvp.validate_of_uniqueKeysOf collected).1

theorem load_ensures {mode : PoolMode} {records : List (Text × Text)}
    (accepts : LoadAccepts mode records) {target : World} (framed : target.Framed) :
    Ensures (HandleStep noFaults) (Kvp.KvpPoolStore.load mode records) target
      (fun _ after => Holds after records) never := by
  obtain ⟨uniqueKeys, collected, few⟩ := loadAccepts_iff.mp accepts
  exact load_ensures_of_uniqueKeys collected few framed

theorem appendMultiple_ensures {mode : PoolMode} {records others : List (Text × Text)}
    (valid : ∀ record ∈ records,
      Kvp.KvpPoolStore.validateRecord mode record.1 record.2 = .ok ())
    {target : World} (holds : Holds target others) :
    Ensures (HandleStep noFaults) (Kvp.KvpPoolStore.appendMultiple mode records) target
      (fun _ after => Holds after (others ++ records)) never := by
  have onList : (Kvp.Update.appendMultiple mode records).onList target.records =
      (.ok .done, target.records ++ Kvp.encodeAll records) := by
    simp only [Kvp.Update.onList]
    split
    · rename_i empty
      rw [List.isEmpty_iff.mp empty]
      simp [Kvp.encodeAll]
    · rw [Kvp.validateAll_eq_ok_iff.mpr valid]
  have held := holds_of_performs
    (Kvp.appendMultiple_performs holds.wellFormed.framed.bytes_eq mode records) onList
    (holds.wellFormed.decodable.append (Kvp.decodable_encodeAll valid))
  rwa [contents_append, contents_encodeAll valid, holds.contents] at held

theorem dump_ensures {source : World} {records : List (Text × Text)}
    (holds : Holds source records) :
    Ensures (HandleStep noFaults) Kvp.KvpPoolStore.dump source
      (fun dumped _ => dumped = records) never := by
  intro result after ran
  rw [Kvp.runs_dump holds.wellFormed ran, holds.contents]
  rfl

theorem liftKvp_ensures {α : Type} {program : KvpIo α} {world : World} {good : α → World → Prop}
    (ensured : Ensures (HandleStep noFaults) program world good never) :
    Ensures (HandleStep noFaults) (liftKvp program) world good never := by
  intro result after ran
  obtain ⟨outcome, executed, rfl⟩ := runs_liftKvp_iff.mp ran
  have holds := ensured outcome after executed
  cases outcome with
  | ok value => exact holds
  | error error => exact holds

/-! ## The commands in sequence -/

theorem dumpText_ensures {source : World} {records : List (Text × Text)}
    (holds : Holds source records) :
    Ensures (HandleStep noFaults) (dumpText buffered []) source
      (fun outcome _ => outcome = (exitOk, printed records)) never := by
  unfold dumpText
  refine (liftKvp_ensures (dump_ensures holds)).bind (fun _ _ => id) ?_
  intro dumped middle same
  rw [same, foldlM_buffered]
  exact ensures_pure_iff.mpr rfl

theorem storeFromReader_ensures {store : List (Text × Text) → KvpIo Unit}
    {records left : List (Text × Text)} (printable : ∀ record ∈ records, IsPrintable record)
    {input : Input} (read : input.readToString = .ok (printed records)) {target : World}
    (stored : Ensures (HandleStep noFaults) (store records) target
      (fun _ after => Holds after left) never) :
    Ensures (HandleStep noFaults) (storeFromReader store input) target
      (fun code after => code = exitOk ∧ Holds after left) never := by
  unfold storeFromReader
  rw [read]
  refine ensures_bind_iff.mpr (ensures_pure_iff.mpr ?_)
  rw [parseKeyValueLines_printed printable]
  refine ensures_bind_iff.mpr (ensures_pure_iff.mpr ?_)
  refine (liftKvp_ensures stored).bind (fun _ _ => id) ?_
  intro done after holds
  exact ensures_pure_iff.mpr ⟨rfl, holds⟩

/-- A text from which both commands take the records, in place of what a pool holds and
behind it. -/
def Restores (mode : PoolMode) (records : List (Text × Text)) (text : Text) : Prop :=
  ∀ input : Input, input.readToString = .ok text →
    (∀ target : World, target.Framed →
      Ensures (HandleStep noFaults) (load mode input) target
        (fun code after => code = exitOk ∧ Holds after records) never) ∧
    (∀ (target : World) (others : List (Text × Text)), Holds target others →
      Ensures (HandleStep noFaults) (appendMultiple mode input) target
        (fun code after => code = exitOk ∧ Holds after (others ++ records)) never)

/-- A pool is restored from its text dump. -/
theorem text_dump_is_restored {mode : PoolMode} {records : List (Text × Text)} {source : World}
    (accepts : LoadAccepts mode records)
    (plainKeys : ∀ record ∈ records, '=' ∉ record.1 ∧ '\n' ∉ record.1)
    (plainValues : ∀ record ∈ records, '\n' ∉ record.2 ∧ record.2.getLast? ≠ some '\r')
    (holds : Holds source records) :
    Ensures (HandleStep noFaults) (dumpText buffered []) source
      (fun outcome _ => outcome.1 = exitOk ∧ Restores mode records outcome.2) never := by
  have printable : ∀ record ∈ records, IsPrintable record := by
    intro record member
    obtain ⟨valuePlain, valueEnd⟩ := plainValues record member
    exact { keyPlain := plainKeys record member, valuePlain, valueEnd }
  refine (dumpText_ensures holds).imp ?_ (fun _ _ => id)
  intro outcome after dumped
  rw [dumped]
  refine ⟨rfl, ?_⟩
  intro input read
  constructor
  · intro target framed
    exact storeFromReader_ensures printable read (load_ensures accepts framed)
  · intro target others holdsOthers
    exact storeFromReader_ensures printable read
      (appendMultiple_ensures accepts.valid holdsOthers)

/-- A repeated key, whose values have an equals sign, a lone carriage return and a quote, or
are empty. -/
def awkwardRecords : List (Text × Text) := [(['k'], ['=', '\r', '\'']), (['k'], [])]

theorem uniqueKeysOf_awkwardRecords :
    Kvp.KvpPoolStore.uniqueKeysOf .safe awkwardRecords = .ok {['k']} := by
  rfl

theorem text_dump_is_restored_awkward :
    Ensures (HandleStep noFaults) (dumpText buffered []) (loadedPool .safe awkwardRecords)
      (fun outcome _ => outcome.1 = exitOk ∧ Restores .safe awkwardRecords outcome.2) never :=
  text_dump_is_restored (loadAccepts_iff.mpr ⟨_, uniqueKeysOf_awkwardRecords, by decide⟩)
    (by decide) (by decide) (loadedPool_spec uniqueKeysOf_awkwardRecords (by decide)).1

end AzureInit.Cli
