import AzureInit.Agent.BootGrounds
import AzureInit.Agent.VmIdentity
import AzureInit.Provision.ProvisionGrounds

/-! The files that a boot looks for, makes and removes, and a machine without faults. -/

set_option autoImplicit false

namespace AzureInit.Agent

open Foundation
open Foundation.Event
open Provision (pathJoin pathPush)

/-! ## Names of files -/

/-- The end of a list that passes, behind an element that does not. -/
theorem rtakeWhile_append {α : Type} {p : α → Bool} {front back : List α}
    (stops : ∀ given : front ≠ [], ¬ p (front.getLast given) = true) (passes : ∀ x ∈ back, p x = true) :
    (front ++ back).rtakeWhile p = back := by
  have none : front.reverse.takeWhile p = [] := by
    have stopped := List.rtakeWhile_eq_nil_iff.mpr stops
    rwa [List.rtakeWhile, List.reverse_eq_nil_iff] at stopped
  rw [List.rtakeWhile, List.reverse_append, List.takeWhile_append_of_pos (by simpa using passes),
    none, List.append_nil, List.reverse_reverse]

theorem fileName_pathJoin (dir : Text) {name : Text} (noSlash : '/' ∉ name) :
    fileName (pathJoin dir name) = name := by
  have relative : ¬ name.head? = some '/' := fun absolute => noSlash (List.mem_of_head? absolute)
  have passes : ∀ c ∈ name, (c != '/') = true := fun c member =>
    bne_iff_ne.mpr fun slash => noSlash (slash ▸ member)
  rw [pathJoin, if_neg relative, pathPush]
  split_ifs with ended
  · refine rtakeWhile_append (fun given => ?_) passes
    have slash : dir.getLast? = some '/' := by simpa [given] using ended
    rw [List.getLast?_eq_getLast_of_ne_nil given] at slash
    simp [Option.some.inj slash]
  · rw [List.append_cons]
    exact rtakeWhile_append (by simp) passes

theorem noSlash_fileName (path : Text) : '/' ∉ fileName path := fun member =>
  absurd (List.mem_rtakeWhile_imp member) (by decide)

/-! ## Files -/

/-- Which files there are, directories apart. -/
abbrev Files : Type := Text → Bool

def Files.after (files : Files) : BootEvent → Files
  | ⟨.createFile path _, .ok ()⟩ => Function.update files path true
  | ⟨.removeFile path, .ok ()⟩ => Function.update files path false
  | _ => files

def filesAfter (files : Files) (log : List BootEvent) : Files := log.foldl Files.after files

/-- The answers that these files allow. What provisioning asks of the host, and what others
do in the meantime, leaves the directory of the markers alone. -/
def Truthful (files : Files) : BootEvent → Prop
  | ⟨.metadata path, .ok directory⟩ => files path = !directory
  | ⟨.metadata path, .error error⟩ => error.kind = .notFound → files path = false
  | ⟨.removeFile path, .error error⟩ => error.kind = .notFound → files path = false
  | ⟨.readDir dir, .ok entries⟩ =>
      (∀ path, .ok path ∈ entries → ∃ name, '/' ∉ name ∧ path = pathJoin dir name) ∧
      ((∀ entry ∈ entries, entry.isOk = true) →
        ∀ name, '/' ∉ name → files (pathJoin dir name) = true → .ok (pathJoin dir name) ∈ entries)
  | ⟨.readDir dir, .error error⟩ => error.kind = .notFound →
      ∀ name, '/' ∉ name → files (pathJoin dir name) = false
  | _ => True

/-- Every answer in the log is one that the files allow by then. -/
def Accords : Files → List BootEvent → Prop
  | _, [] => True
  | files, event :: log => Truthful files event ∧ Accords (files.after event) log

section Files

variable {files : Files} {log first second : List BootEvent} {path : Text}

@[simp] theorem filesAfter_nil : filesAfter files [] = files := rfl

@[simp] theorem filesAfter_cons (event : BootEvent) :
    filesAfter files (event :: log) = filesAfter (files.after event) log := rfl

theorem filesAfter_append :
    filesAfter files (first ++ second) = filesAfter (filesAfter files first) second :=
  List.foldl_append

theorem accords_append_iff :
    Accords files (first ++ second) ↔
      Accords files first ∧ Accords (filesAfter files first) second := by
  induction first generalizing files with
  | nil => simp [Accords]
  | cons event first ih => simp only [List.cons_append, Accords, ih, filesAfter_cons, and_assoc]

/-- An event makes the file, removes it or leaves it as it is. -/
theorem Files.after_cases (files : Files) (event : BootEvent) (path : Text) :
    (∃ mode, event = ⟨.createFile path mode, .ok ()⟩ ∧ files.after event path = true) ∨
    (event = ⟨.removeFile path, .ok ()⟩ ∧ files.after event path = false) ∨
    files.after event path = files path := by
  unfold Files.after
  split
  · rename_i created mode
    by_cases same : path = created
    · subst same
      exact .inl ⟨mode, rfl, by simp⟩
    · exact .inr (.inr (by simp [same]))
  · rename_i removed
    by_cases same : path = removed
    · subst same
      exact .inr (.inl ⟨rfl, by simp⟩)
    · exact .inr (.inr (by simp [same]))
  · exact .inr (.inr rfl)

/-- A file that is not removed stays. -/
theorem filesAfter_of_kept (present : files path = true)
    (kept : (⟨.removeFile path, .ok ()⟩ : BootEvent) ∉ log) : filesAfter files log path = true := by
  induction log generalizing files with
  | nil => exact present
  | cons event log ih =>
      rw [List.mem_cons, not_or] at kept
      refine ih ?_ kept.2
      rcases files.after_cases event path with created | removed | same
      · exact created.choose_spec.2
      · exact (kept.1 removed.1.symm).elim
      · rw [same, present]

/-- A file that is there was there before or has been made. -/
theorem created_of_present (present : filesAfter files log path = true)
    (absent : files path = false) :
    ∃ mode, (⟨.createFile path mode, .ok ()⟩ : BootEvent) ∈ log := by
  induction log generalizing files with
  | nil =>
      rw [filesAfter_nil, absent] at present
      cases present
  | cons event log ih =>
      rcases files.after_cases event path with created | removed | same
      · obtain ⟨mode, rfl, -⟩ := created
        exact ⟨mode, List.mem_cons_self⟩
      · exact (ih present removed.2).imp fun mode member => List.mem_cons_of_mem _ member
      · exact (ih present (same.trans absent)).imp fun mode member => List.mem_cons_of_mem _ member

/-- A file that is made and not removed afterwards is there. -/
theorem filesAfter_of_created {mode : Nat}
    (created : (⟨.createFile path mode, .ok ()⟩ : BootEvent) ∈ log)
    (kept : (⟨.removeFile path, .ok ()⟩ : BootEvent) ∉ log) : filesAfter files log path = true := by
  obtain ⟨before, after, rfl⟩ := List.append_of_mem created
  rw [filesAfter_append, filesAfter_cons]
  refine filesAfter_of_kept (by simp [Files.after]) fun member => kept ?_
  exact List.mem_append_right _ (List.mem_cons_of_mem _ member)

end Files

/-! ## A machine without faults -/

/-- The paths at which files have been made. -/
def createdPaths (log : List BootEvent) : List Text :=
  log.filterMap fun
    | ⟨.createFile path _, _⟩ => some path
    | _ => none

/-- The machine has EFI, and the files that it has are among the given paths or new. -/
def answering (metadata : InstanceMetadata) (files : Files) (paths : List Text) :
    (request : BootRequest) → List BootEvent → request.Reply
  | .readToString _, _ => .ok (sampleId ++ ['\n'])
  | .metadata path, log =>
      if filesAfter files log path then .ok false
      else if path = sysfsEfi then .ok true
      else .error { kind := .notFound }
  | .createDirAll _, _ => .ok ()
  | .setPermissions _ _, _ => .ok ()
  | .createFile _ _, _ => .ok ()
  | .readDir dir, log => .ok (((paths ++ createdPaths log).filter fun path =>
      filesAfter files log path && path = pathJoin dir (fileName path)).map .ok)
  | .removeFile path, log =>
      if filesAfter files log path then .ok () else .error { kind := .notFound }
  | .now, _ => "2026-06-17T00:00:00+00:00".toList
  | .loadConfig _, _ => .ok {}
  | .buildClient _, _ => .ok ()
  | .query _, _ => .ok metadata
  | .getEnvironment, _ => .error Provision.noEnvironment
  | .host request, log => Provision.obliging request (hostLog log)
  | .reportReady _ _, _ => .error .timeout
  | .reportFailure _ _, _ => .ok ()

section Machine

variable {metadata : InstanceMetadata} {files : Files} {paths : List Text}

/-- The paths of the files there may be by the end. -/
theorem covered_after {log : List BootEvent} (covered : ∀ path, files path = true → path ∈ paths)
    {path : Text} (present : filesAfter files log path = true) :
    path ∈ paths ++ createdPaths log := by
  rw [List.mem_append]
  cases before : files path with
  | true => exact .inl (covered path before)
  | false =>
      obtain ⟨mode, member⟩ := created_of_present present before
      exact .inr (List.mem_filterMap.mpr ⟨_, member, rfl⟩)

theorem truthful_answering (covered : ∀ path, files path = true → path ∈ paths)
    (request : BootRequest) (log : List BootEvent) :
    Truthful (filesAfter files log) ⟨request, answering metadata files paths request log⟩ := by
  cases request with
  | metadata path =>
      show Truthful _ ⟨.metadata path, if _ then _ else if _ then _ else _⟩
      split_ifs with present efi
      · exact present
      · exact Bool.eq_false_iff.mpr present
      · exact fun _ => Bool.eq_false_iff.mpr present
  | readDir dir =>
      refine ⟨fun path listed => ?_, fun _ name noSlash present => ?_⟩
      · obtain ⟨found, kept, same⟩ := List.mem_map.mp listed
        cases same
        have inside := (Bool.and_eq_true_iff.mp (List.mem_filter.mp kept).2).2
        exact ⟨fileName path, noSlash_fileName path, of_decide_eq_true inside⟩
      · refine List.mem_map_of_mem (List.mem_filter.mpr ⟨covered_after covered present, ?_⟩)
        rw [fileName_pathJoin dir noSlash, present, decide_eq_true rfl]
        rfl
  | removeFile path =>
      show Truthful _ ⟨.removeFile path, if _ then _ else _⟩
      split_ifs with present
      · trivial
      · exact fun _ => Bool.eq_false_iff.mpr present
  | _ => trivial

/-- What is asked of such a machine accords with its files. -/
theorem accords_run {handler : (request : BootRequest) → List BootEvent → request.Reply}
    (truthful : ∀ request log, Truthful (filesAfter files log) ⟨request, handler request log⟩)
    {α : Type} (program : BootProgram α) {log : List BootEvent} (accords : Accords files log) :
    Accords files (program.run (recording handler) log).2 := by
  induction program generalizing log with
  | done => exact accords
  | call request next ih =>
      exact ih _ (accords_append_iff.mpr ⟨accords, truthful request log, trivial⟩)

end Machine

def sampleMetadata : InstanceMetadata where
  compute := {
    osProfile := {
      adminUsername := "azureuser".toList
      computerName := "vm".toList
      disablePasswordAuthentication := true }
    publicKeys := [{ keyData := "ssh-ed25519 AAAA".toList, path := [] }] }

def provisionOpts : Cli where
  groups := []
  config := none
  showVersion := false
  command := none

/-- A boot of the sample machine with these files. -/
def sampleBoot (opts : Cli) (files : Files) (paths : List Text) : ExitCode × List BootEvent :=
  Program.run (recording (answering sampleMetadata files paths)) (main referencePlatform opts) []

theorem logged_sampleBoot (opts : Cli) (files : Files) (paths : List Text) :
    Logged (main referencePlatform opts) (sampleBoot opts files paths).1
      (sampleBoot opts files paths).2 :=
  Program.runs_run (recorded_recording _) _ _

theorem accords_sampleBoot (opts : Cli) {files : Files} {paths : List Text}
    (covered : ∀ path, files path = true → path ∈ paths) :
    Accords files (sampleBoot opts files paths).2 :=
  accords_run (truthful_answering covered) _ trivial

end AzureInit.Agent
