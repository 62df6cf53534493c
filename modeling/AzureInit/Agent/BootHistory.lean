import AzureInit.Agent.BootFiles
import AzureInit.Foundation.CrashSafety
import AzureInit.Provision.ProvisionGrounds

/-! Boots of a machine one behind the other, each of which may be cut off anywhere, and the
markers that they leave. -/

set_option autoImplicit false

namespace AzureInit.Agent

open Foundation
open Foundation.Event
open AzureInit.Configuration (Config)

/-! ## Histories -/

/-- A boot, with what it has asked for until its end or until it was cut off. -/
structure Boot where
  opts : Cli
  log : List BootEvent

namespace Boot

variable (platform : Platform)

/-- The boot makes the marker. -/
def Marks (boot : Boot) (path : Text) : Prop :=
  ∃ mode, (⟨.createFile path mode, .ok ()⟩ : BootEvent) ∈ boot.log

/-- The boot removes the marker. -/
def Unmarks (boot : Boot) (path : Text) : Prop :=
  (⟨.removeFile path, .ok ()⟩ : BootEvent) ∈ boot.log

/-- The boot sets out to provision the machine with this marker. -/
def Provisions (boot : Boot) (path : Text) : Prop :=
  ∃ config vmId, path = markerPath config vmId ∧ Begun platform boot.opts config vmId boot.log

/-- For another reason than that it is missing, the boot cannot tell that the marker is there. -/
def Misses (boot : Boot) (path : Text) : Prop :=
  ∃ error : Kvp.IoError, error.kind ≠ .notFound ∧
    (⟨.metadata path, .error error⟩ : BootEvent) ∈ boot.log

/-- Before it has made the marker, the boot has found out what the machine is, or that it
cannot, and has provisioned it in all its stages. -/
def HasProvisioned (boot : Boot) (path : Text) : Prop :=
  ∃ before after mode config vmId metadata,
    boot.log = before ++ ⟨.createFile path mode, .ok ()⟩ :: after ∧
    path = markerPath config vmId ∧
    (Identified platform (some vmId) before ∨
      Identified platform none before ∧ vmId = nilVmId) ∧
    Completed platform boot.opts config vmId metadata before ∧
    ∀ stage, (provisioningFor boot.opts config metadata).Done platform.regex stage (hostLog before)

end Boot

/-- The machine is booted again and again; nobody but the agent touches the markers. -/
inductive History (platform : Platform) : Files → List Boot → Files → Prop where
  | start {files : Files} : History platform files [] files
  | boot {files now : Files} {boot : Boot} {boots : List Boot} {rest : BootProgram ExitCode} :
      Program.Reaches Recorded (main platform boot.opts) [] rest boot.log →
      Accords files boot.log → History platform (filesAfter files boot.log) boots now →
      History platform files (boot :: boots) now

section History

variable {platform : Platform} {files now : Files} {boots : List Boot} {boot : Boot}
  {path : Text} {rest : BootProgram ExitCode}

theorem Boot.hasProvisioned_of_marks
    (reached : Program.Reaches Recorded (main platform boot.opts) [] rest boot.log)
    (marks : boot.Marks path) : boot.HasProvisioned platform path := by
  obtain ⟨mode, member⟩ := marks
  obtain ⟨before, after, split⟩ := List.append_of_mem member
  have founded := founded_main reached
  rw [split] at founded
  obtain ⟨rfl, config, vmId, metadata, same, completed⟩ := founded.at
  exact ⟨before, after, 0o600, config, vmId, metadata, split, same,
    completed.fetched.begun.named, completed, Provision.Provisioning.done_of_provision completed.provisioned⟩

/-- A boot that provisions removes no marker. -/
theorem Boot.not_unmarks
    (reached : Program.Reaches Recorded (main platform boot.opts) [] rest boot.log)
    (command : boot.opts.command = none) : ¬ boot.Unmarks path := by
  intro member
  obtain ⟨before, after, split⟩ := List.append_of_mem member
  have founded := founded_main reached
  rw [split] at founded
  obtain ⟨logs, config, clean, -⟩ := founded.at
  rw [command] at clean
  cases clean

/-- A boot that sets out to provision has started without the marker, or has missed it. -/
theorem Boot.absent_or_misses
    (reached : Program.Reaches Recorded (main platform boot.opts) [] rest boot.log)
    (accords : Accords files boot.log) (provisions : boot.Provisions platform path) :
    files path = false ∨ boot.Misses path := by
  obtain ⟨config, vmId, rfl, begun⟩ := provisions
  obtain ⟨error, missing⟩ := begun.unmarked
  refine or_iff_not_imp_right.mpr fun told => ?_
  have notFound : error.kind = .notFound := by
    by_contra other
    exact told ⟨error, other, missing⟩
  obtain ⟨before, after, split⟩ := List.append_of_mem missing
  rw [split] at accords
  have absent : filesAfter files before (markerPath config vmId) = false :=
    (accords_append_iff.mp accords).2.1 notFound
  by_contra present
  rw [Bool.not_eq_false] at present
  have kept : ¬ boot.Unmarks (markerPath config vmId) := Boot.not_unmarks reached begun.command
  rw [Boot.Unmarks, split] at kept
  have stays := filesAfter_of_kept present fun member => kept (List.mem_append_left _ member)
  rw [absent] at stays
  cases stays

/-- A boot that makes the marker leaves it. -/
theorem Boot.present_of_marks
    (reached : Program.Reaches Recorded (main platform boot.opts) [] rest boot.log)
    (marks : boot.Marks path) : filesAfter files boot.log path = true := by
  obtain ⟨_, _, _, _, _, _, -, -, -, completed, -⟩ := Boot.hasProvisioned_of_marks reached marks
  exact filesAfter_of_created marks.choose_spec
    (Boot.not_unmarks reached completed.fetched.begun.command)

theorem history_append {first second : List Boot}
    (history : History platform files (first ++ second) now) :
    ∃ middle, History platform files first middle ∧ History platform middle second now := by
  induction first generalizing files with
  | nil => exact ⟨files, .start, history⟩
  | cons boot first ih =>
      cases history with
      | boot reached accords later =>
          obtain ⟨middle, before, after⟩ := ih later
          exact ⟨middle, .boot reached accords before, after⟩

/-- A marker that no boot removes stays. -/
theorem History.present_of_kept (history : History platform files boots now)
    (present : files path = true) (kept : ∀ boot ∈ boots, ¬ boot.Unmarks path) :
    now path = true := by
  induction history with
  | start => exact present
  | boot _ _ _ ih =>
      exact ih (filesAfter_of_kept present (kept _ List.mem_cons_self))
        fun boot member => kept boot (List.mem_cons_of_mem _ member)

/-- Between the boot that marks a machine and one that provisions it again there is one that
removes the marker, unless the marker is there and the later boot cannot tell. -/
theorem provisioned_once {before between after : List Boot} {first again : Boot}
    (history : History platform files (before ++ first :: between ++ again :: after) now)
    (marks : first.Marks path) (provisions : again.Provisions platform path) :
    (∃ boot ∈ between, boot.Unmarks path) ∨ again.Misses path := by
  obtain ⟨middle, marked, second⟩ := history_append history
  obtain ⟨started, -, ran⟩ := history_append marked
  refine or_iff_not_imp_left.mpr fun kept => ?_
  simp only [not_exists, not_and] at kept
  cases ran with
  | boot reached accords waited =>
      have stays := waited.present_of_kept (Boot.present_of_marks reached marks) kept
      cases second with
      | boot reachedAgain accordsAgain _ =>
          rcases Boot.absent_or_misses reachedAgain accordsAgain provisions with absent | misses
          · rw [stays] at absent
            cases absent
          · exact misses

/-- A marker that was not there at first tells that a boot has provisioned the machine in all
its stages, wherever that boot and the others were cut off. -/
theorem marker_tells_provisioned (history : History platform files boots now)
    (present : now path = true) (absent : files path = false) :
    ∃ boot ∈ boots, boot.HasProvisioned platform path := by
  induction history with
  | start =>
      rw [absent] at present
      cases present
  | @boot files now boot boots rest reached accords later ih =>
      cases atStart : filesAfter files boot.log path with
      | true =>
          have marks := created_of_present atStart absent
          exact ⟨boot, List.mem_cons_self, Boot.hasProvisioned_of_marks reached marks⟩
      | false =>
          obtain ⟨other, member, provisioned⟩ := ih present atStart
          exact ⟨other, List.mem_cons_of_mem _ member, provisioned⟩

theorem Boot.HasProvisioned.provisions (provisioned : boot.HasProvisioned platform path) :
    boot.Provisions platform path := by
  obtain ⟨before, after, mode, config, vmId, metadata, split, same, -, completed, -⟩ := provisioned
  refine ⟨config, vmId, same, ?_⟩
  rw [split]
  exact completed.fetched.begun.append _

end History

/-! ## A machine that is provisioned, cleaned and provisioned again -/

def noFiles : Files := fun _ => false

def cleanOpts : Cli := { provisionOpts with command := some (.clean false) }

def sampleMarker : Text := markerPath {} sampleId

/-- A whole boot of the sample machine with these files. -/
def wholeBoot (opts : Cli) (files : Files) (paths : List Text) : Boot :=
  ⟨opts, (sampleBoot opts files paths).2⟩

theorem reaches_wholeBoot (opts : Cli) (files : Files) (paths : List Text) :
    Program.Reaches Recorded (main referencePlatform (wholeBoot opts files paths).opts) []
      (.done (sampleBoot opts files paths).1) (wholeBoot opts files paths).log :=
  (logged_sampleBoot opts files paths).reaches

theorem History.whole (opts : Cli) {files now : Files} {paths : List Text} {boots : List Boot}
    (covered : ∀ path, files path = true → path ∈ paths)
    (later : History referencePlatform (filesAfter files (wholeBoot opts files paths).log)
      boots now) :
    History referencePlatform files (wholeBoot opts files paths :: boots) now :=
  .boot (reaches_wholeBoot opts files paths) (accords_sampleBoot opts covered) later

def firstBoot : Boot := wholeBoot provisionOpts noFiles []

def cleanBoot : Boot :=
  wholeBoot cleanOpts (filesAfter noFiles firstBoot.log) ([] ++ createdPaths firstBoot.log)

def secondBoot : Boot :=
  wholeBoot provisionOpts (filesAfter (filesAfter noFiles firstBoot.log) cleanBoot.log)
    ([] ++ createdPaths firstBoot.log ++ createdPaths cleanBoot.log)

theorem covered_noFiles (path : Text) (present : noFiles path = true) : path ∈ ([] : List Text) :=
  nomatch present

theorem sampleHistory : History referencePlatform noFiles [firstBoot, cleanBoot, secondBoot]
    (filesAfter (filesAfter (filesAfter noFiles firstBoot.log) cleanBoot.log) secondBoot.log) :=
  .whole provisionOpts covered_noFiles
    (.whole cleanOpts (fun _ => covered_after covered_noFiles)
      (.whole provisionOpts (fun _ => covered_after fun _ => covered_after covered_noFiles) .start))

theorem firstBoot_marks : firstBoot.Marks sampleMarker := by
  have present : filesAfter noFiles firstBoot.log sampleMarker = true := by decide +kernel
  exact created_of_present present rfl

theorem secondBoot_marks : secondBoot.Marks sampleMarker := by
  let cleaned := filesAfter (filesAfter noFiles firstBoot.log) cleanBoot.log
  have absent : cleaned sampleMarker = false := by decide +kernel
  have present : filesAfter cleaned secondBoot.log sampleMarker = true := by decide +kernel
  exact created_of_present present absent

theorem sample_provisioned_once :
    (∃ boot ∈ [cleanBoot], boot.Unmarks sampleMarker) ∨ secondBoot.Misses sampleMarker := by
  have again := Boot.hasProvisioned_of_marks (reaches_wholeBoot provisionOpts _ _) secondBoot_marks
  exact @provisioned_once _ _ _ _ [] _ _ _ _ sampleHistory firstBoot_marks again.provisions

theorem sample_marker_tells_provisioned :
    ∃ boot ∈ [firstBoot], boot.HasProvisioned referencePlatform sampleMarker :=
  marker_tells_provisioned (.whole provisionOpts covered_noFiles .start)
    (Boot.present_of_marks (reaches_wholeBoot provisionOpts noFiles []) firstBoot_marks) rfl

end AzureInit.Agent
