import AzureInit.Agent.BootHistory

/-! What cleaning removes: the markers, the log if that is asked for, and nothing else. -/

set_option autoImplicit false

namespace AzureInit.Agent

open Foundation
open Foundation.Event
open AzureInit.Configuration (Config)
open Provision (pathJoin)

/-! ## Names of markers -/

theorem markerName_noSlash {vmId : Text} (noSlash : '/' ∉ vmId) :
    '/' ∉ vmId ++ '.' :: provisioned := by
  have others : '/' ∉ '.' :: provisioned := by decide
  rw [List.mem_append, not_or]
  exact ⟨noSlash, others⟩

/-- Cleaning recognizes the marker of every machine that has a name. -/
theorem extension_markerPath (config : Config) {vmId : Text} (named : vmId ≠ [])
    (noSlash : '/' ∉ vmId) : extension (markerPath config vmId) = some provisioned := by
  have name : fileName (markerPath config vmId) = vmId ++ ['.'] ++ provisioned := by
    rw [List.append_assoc]
    exact fileName_pathJoin _ (markerName_noSlash noSlash)
  have back : (vmId ++ ['.'] ++ provisioned).rtakeWhile (· != '.') = provisioned :=
    rtakeWhile_append (by simp) (List.all_eq_true.mp (by decide))
  have front : (vmId ++ ['.'] ++ provisioned).rdropWhile (· != '.') = vmId ++ ['.'] := by
    have whole := List.rdropWhile_append_rtakeWhile (p := (· != '.'))
      (l := vmId ++ ['.'] ++ provisioned)
    rw [back] at whole
    exact List.append_cancel_right whole
  obtain ⟨c, rest, rfl⟩ := List.exists_cons_of_ne_nil named
  simp only [extension, name, back, front]
  cases rest <;> rfl

section Cleaning

variable {files : Files} {log : List BootEvent} {path : Text} {config : Config} {logs : Bool}

/-- A file that is not made stays away. -/
theorem filesAfter_of_absent (absent : files path = false)
    (unmarked : Unmarked log) : filesAfter files log path = false := by
  by_contra present
  rw [Bool.not_eq_false] at present
  obtain ⟨mode, member⟩ := created_of_present present absent
  exact unmarked path mode member

/-- A file that is neither made nor removed is as it was. -/
theorem filesAfter_of_untouched (unmarked : Unmarked log)
    (kept : (⟨.removeFile path, .ok ()⟩ : BootEvent) ∉ log) :
    filesAfter files log path = files path := by
  cases present : files path with
  | true => exact filesAfter_of_kept present kept
  | false => exact filesAfter_of_absent present unmarked

theorem unmarked_of_cleans (config : Config) (logs : Bool)
    (cleans : ∀ event ∈ log, event.request.Cleans config logs) : Unmarked log :=
  fun _ _ member => cleans _ member

/-- An error is let pass for what is missing only, and nothing is asked for any more. -/
theorem missing_of_logged {error : Kvp.IoError} {result : Except Kvp.IoError Unit}
    (logged : Logged (if error.kind = .notFound then pure () else throw error :
      BootIo Unit).run result log) :
    log = [] ∧ (result = .ok () → error.kind = .notFound) := by
  split_ifs at logged with missing
  · exact ⟨(logged_except_pure_iff.mp logged).2, fun _ => missing⟩
  · obtain ⟨rfl, rfl⟩ := logged_throw_iff.mp logged
    exact ⟨rfl, nofun⟩

/-- The file is gone: removed, or not there to begin with. -/
theorem absent_of_removeIfPresent
    (logged : Logged (removeIfPresent path).run (.ok ()) log) (accords : Accords files log) :
    filesAfter files log path = false := by
  obtain ⟨reply, rest, answered, rfl⟩ := logged_call_iff.mp logged
  cases reply with
  | ok value =>
      obtain ⟨-, rfl⟩ := logged_pure_iff.mp answered
      simp [Files.after]
  | error error =>
      obtain ⟨rfl, missing⟩ := missing_of_logged answered
      exact accords.1 (missing rfl)

/-- Cleaning that succeeds has come to every entry, and has left no marker among them. -/
theorem absent_of_cleanEntries {entries : List (Except Kvp.IoError Text)}
    (logged : Logged (cleanEntries entries).run (.ok ()) log) (accords : Accords files log) :
    ∀ entry ∈ entries, entry.isOk = true ∧ ∀ path, entry = .ok path →
      extension path = some provisioned → filesAfter files log path = false := by
  induction entries generalizing files log with
  | nil => exact fun _ member => nomatch member
  | cons entry entries ih =>
      cases entry with
      | error error => cases (logged_throw_iff.mp logged).1
      | ok first =>
          unfold cleanEntries at logged
          have noneMade : ∀ {log}, Logged (cleanEntries entries).run (.ok ()) log → Unmarked log :=
            fun ran _ _ member => mem_uses (uses_cleanEntries entries) ran _ member
          split_ifs at logged with marker
          · obtain ⟨_, before, after, removed, cleaned, rfl⟩ := logged_except_bind_ok_iff.mp logged
            obtain ⟨accordsFirst, accordsRest⟩ := accords_append_iff.mp accords
            have gone := absent_of_removeIfPresent removed accordsFirst
            rw [filesAfter_append]
            intro entry member
            rcases List.mem_cons.mp member with rfl | later
            · refine ⟨rfl, fun path same _ => ?_⟩
              cases same
              exact filesAfter_of_absent gone (noneMade cleaned)
            · exact ih cleaned accordsRest entry later
          · intro entry member
            rcases List.mem_cons.mp member with rfl | later
            · refine ⟨rfl, fun path same isMarker => ?_⟩
              cases same
              exact (marker isMarker).elim
            · exact ih logged accords entry later

/-- The marker of some machine, by its place and its ending. -/
def IsMarker (config : Config) (path : Text) : Prop :=
  ∃ name, '/' ∉ name ∧ path = pathJoin config.azureInitDataDir.path name ∧
    extension path = some provisioned

theorem absent_of_cleanProvisioningStatus
    (logged : Logged (cleanProvisioningStatus config).run (.ok ()) log)
    (accords : Accords files log) (marker : IsMarker config path) :
    filesAfter files log path = false := by
  obtain ⟨name, noSlash, rfl, ending⟩ := marker
  obtain ⟨reply, rest, listed, rfl⟩ := logged_call_iff.mp logged
  obtain ⟨truthful, accordsRest⟩ := accords
  cases reply with
  | error error =>
      obtain ⟨rfl, missing⟩ := missing_of_logged listed
      exact truthful (missing rfl) name noSlash
  | ok entries =>
      have cleaned : Logged (cleanEntries entries).run (.ok ()) rest := listed
      have each := absent_of_cleanEntries cleaned accordsRest
      cases present : files (pathJoin config.azureInitDataDir.path name) with
      | false =>
          exact filesAfter_of_absent present (unmarked_of_cleans config false (mem_uses
            (uses_cleanProvisioningStatus false) logged))
      | true =>
          have member := truthful.2 (fun entry member => (each entry member).1) name noSlash present
          exact (each _ member).2 _ rfl ending

/-- Whatever is removed from the directory is a marker there. -/
theorem isMarker_of_removed {result : Except Kvp.IoError Unit} {reply : Except Kvp.IoError Unit}
    (logged : Logged (cleanProvisioningStatus config).run result log)
    (accords : Accords files log) (removed : (⟨.removeFile path, reply⟩ : BootEvent) ∈ log) :
    IsMarker config path := by
  obtain ⟨answer, rest, listed, rfl⟩ := logged_call_iff.mp logged
  replace removed : (⟨.removeFile path, reply⟩ : BootEvent) ∈ rest :=
    (List.mem_cons.mp removed).resolve_left nofun
  cases answer with
  | error error =>
      rw [(missing_of_logged listed).1] at removed
      cases removed
  | ok entries =>
      have cleaned : Logged (cleanEntries entries).run result rest := listed
      obtain ⟨among, ending⟩ := mem_uses (uses_cleanEntries entries) cleaned _ removed
      obtain ⟨name, noSlash, rfl⟩ := accords.1.1 path among
      exact ⟨name, noSlash, rfl, ending⟩

/-- What cleaning comes to when it succeeds: no marker is there, nor the log if that was asked
for; nothing is made, nothing else is tried to be removed, and so nothing else comes or goes. -/
structure Cleaned (config : Config) (logs : Bool) (log : List BootEvent) (before after : Files) :
    Prop where
  markers : ∀ path, IsMarker config path → after path = false
  logFile : logs = true → after config.azureInitLogPath.path = false
  unmade : Unmarked log
  removed : ∀ path reply, (⟨.removeFile path, reply⟩ : BootEvent) ∈ log →
    IsMarker config path ∨ logs = true ∧ path = config.azureInitLogPath.path
  others : ∀ path, ¬ IsMarker config path →
    (logs = true → path ≠ config.azureInitLogPath.path) → after path = before path

theorem removed_of_clean {code : ExitCode} (logged : Logged (clean config logs) code log)
    (accords : Accords files log) {reply : Except Kvp.IoError Unit}
    (removed : (⟨.removeFile path, reply⟩ : BootEvent) ∈ log) :
    IsMarker config path ∨ logs = true ∧ path = config.azureInitLogPath.path := by
  obtain ⟨result, first, rest, cleaned, continued, rfl⟩ := logged_bind_iff.mp logged
  rcases List.mem_append.mp removed with early | late
  · exact .inl (isMarker_of_removed cleaned (accords_append_iff.mp accords).1 early)
  · refine .inr ?_
    cases result with
    | error error =>
        rw [(logged_pure_iff.mp continued).2] at late
        cases late
    | ok value =>
        cases logs with
        | false =>
            rw [(logged_pure_iff.mp continued).2] at late
            cases late
        | true =>
            have uses : (cleanLogFile config).run.Uses
                (· = .removeFile config.azureInitLogPath.path) := uses_removeIfPresent rfl
            obtain ⟨outcome, tried, last, ran, ended, rfl⟩ := logged_bind_iff.mp continued
            have noMore : last = [] := by
              cases outcome <;> exact (logged_pure_iff.mp ended).2
            rw [noMore, List.append_nil] at late
            cases mem_uses uses ran _ late
            exact ⟨rfl, rfl⟩

theorem cleaned_of_clean (logged : Logged (clean config logs) ExitCode.success log)
    (accords : Accords files log) : Cleaned config logs log files (filesAfter files log) := by
  have unmade := unmarked_of_cleans config logs (mem_uses (uses_clean logs) logged)
  have removed : ∀ path reply, (⟨.removeFile path, reply⟩ : BootEvent) ∈ log →
      IsMarker config path ∨ logs = true ∧ path = config.azureInitLogPath.path :=
    fun _ _ => removed_of_clean logged accords
  have others : ∀ path, ¬ IsMarker config path →
      (logs = true → path ≠ config.azureInitLogPath.path) →
      filesAfter files log path = files path := by
    intro path noMarker noLog
    refine filesAfter_of_untouched unmade fun member => ?_
    rcases removed path _ member with marker | isLog
    · exact noMarker marker
    · exact noLog isLog.1 isLog.2
  obtain ⟨result, first, rest, cleaned, continued, rfl⟩ := logged_bind_iff.mp logged
  obtain ⟨accordsFirst, accordsRest⟩ := accords_append_iff.mp accords
  cases result with
  | error error => cases (logged_pure_iff.mp continued).1
  | ok value =>
      have noneMade : Unmarked rest := fun path mode member =>
        unmade path mode (List.mem_append_right _ member)
      refine ⟨fun path marker => ?_, fun asked => ?_, unmade, removed, others⟩
      · rw [filesAfter_append]
        exact filesAfter_of_absent
          (absent_of_cleanProvisioningStatus cleaned accordsFirst marker) noneMade
      · subst asked
        obtain ⟨outcome, removed, last, tried, ended, rfl⟩ := logged_bind_iff.mp continued
        cases outcome with
        | error error => cases (logged_pure_iff.mp ended).1
        | ok value =>
            obtain ⟨-, rfl⟩ := logged_pure_iff.mp ended
            rw [List.append_nil] at accordsRest ⊢
            rw [filesAfter_append]
            exact absent_of_removeIfPresent tried accordsRest

theorem filesAfter_of_plain (plain : PlainLog log) : filesAfter files log = files := by
  funext path
  exact filesAfter_of_untouched plain.unmarked fun member => plain _ member

/-- Looking around in front of the cleaning changes nothing of what it comes to. -/
theorem Cleaned.behind_plain {before after : Files} {looked : List BootEvent}
    (cleaned : Cleaned config logs log before after) (plain : PlainLog looked) :
    Cleaned config logs (looked ++ log) before after where
  markers := cleaned.markers
  logFile := cleaned.logFile
  unmade := plain.unmarked.append cleaned.unmade
  removed path reply member := (List.mem_append.mp member).elim
    (fun early => (plain _ early).elim) (cleaned.removed path reply)
  others := cleaned.others

variable {platform : Platform} {opts : Cli}

private theorem cleaned_of_outcome {code : ExitCode} (outcome : Outcome platform opts code log)
    (succeeded : code = ExitCode.success) (accords : Accords files log)
    (command : opts.command = some (.clean logs)) (noVersion : opts.showVersion = false) :
    ∃ config, (⟨.loadConfig opts.config, .ok config⟩ : BootEvent) ∈ log ∧
      Cleaned config logs log files (filesAfter files log) := by
  cases outcome with
  | version version _ =>
      rw [noVersion] at version
      cases version
  | unconfigured => cases succeeded
  | cleaned asked plain loaded cleaned =>
      subst succeeded
      cases asked.symm.trans command
      have accordsRest := (accords_append_iff.mp accords).2
      rw [filesAfter_append]
      rw [filesAfter_of_plain plain] at accordsRest ⊢
      exact ⟨_, List.mem_append_left _ loaded,
        (cleaned_of_clean cleaned accordsRest).behind_plain plain⟩
  | skipped none _ _ _ _ => cases none.symm.trans command
  | provisioned begun _ _ => cases begun.command.symm.trans command
  | failed begun _ _ => cases begun.command.symm.trans command

theorem isMarker_markerPath {vmId : Text} (named : vmId ≠ []) (noSlash : '/' ∉ vmId) :
    IsMarker config (markerPath config vmId) :=
  ⟨_, markerName_noSlash noSlash, rfl, extension_markerPath config named noSlash⟩

/-- A boot that is to clean and succeeds has removed the markers, and only those and the log. -/
theorem successful_clean (logged : Logged (main platform opts) ExitCode.success log)
    (accords : Accords files log) (command : opts.command = some (.clean logs))
    (noVersion : opts.showVersion = false) :
    ∃ config, (⟨.loadConfig opts.config, .ok config⟩ : BootEvent) ∈ log ∧
      Cleaned config logs log files (filesAfter files log) ∧
      ∀ vmId, vmId ≠ [] → '/' ∉ vmId → filesAfter files log (markerPath config vmId) = false := by
  obtain ⟨config, loaded, cleaned⟩ :=
    cleaned_of_outcome (outcome_of_main logged) rfl accords command noVersion
  exact ⟨config, loaded, cleaned,
    fun _ named noSlash => cleaned.markers _ (isMarker_markerPath named noSlash)⟩

end Cleaning

theorem cleanBoot_succeeds :
    (sampleBoot cleanOpts (filesAfter noFiles firstBoot.log)
      ([] ++ createdPaths firstBoot.log)).1 = ExitCode.success := by
  decide +kernel

theorem sample_clean : ∃ config, (⟨.loadConfig none, .ok config⟩ : BootEvent) ∈ cleanBoot.log ∧
    Cleaned config false cleanBoot.log (filesAfter noFiles firstBoot.log)
      (filesAfter (filesAfter noFiles firstBoot.log) cleanBoot.log) ∧
    ∀ vmId, vmId ≠ [] → '/' ∉ vmId →
      filesAfter (filesAfter noFiles firstBoot.log) cleanBoot.log (markerPath config vmId) =
        false := by
  have covered : ∀ path, filesAfter noFiles firstBoot.log path = true →
      path ∈ [] ++ createdPaths firstBoot.log := fun _ => covered_after covered_noFiles
  have logged := logged_sampleBoot cleanOpts (filesAfter noFiles firstBoot.log)
    ([] ++ createdPaths firstBoot.log)
  rw [cleanBoot_succeeds] at logged
  exact successful_clean logged (accords_sampleBoot cleanOpts covered) rfl rfl

end AzureInit.Agent
