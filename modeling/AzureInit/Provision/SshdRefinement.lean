import AzureInit.Foundation.CrashSafety
import AzureInit.Provision.HostFiles
import AzureInit.Provision.SshdConvergence

/-! The update of the SSH daemon's configuration through reads and writes of its file, and
the update of the file's text. -/

set_option autoImplicit false

namespace AzureInit.Provision

open Foundation

def HostFile.sshdConfig (file : HostFile) : SshdConfig :=
  { mode := file.mode, contents := file.contents }

/-- The configuration at a path. -/
def HostFiles.sshdConfig (files : HostFiles) (path : Text) : Option SshdConfig :=
  (files.file path).map HostFile.sshdConfig

/-- The update is on its way: the file is as it was, or holds the beginning of what it is
to hold. It has its mode unless it is empty. -/
structure Updating (regex : RegexCrate) (files : HostFiles) (path : Text) (disable : Bool)
    (now : HostFiles) : Prop where
  elsewhere : ∀ other, other ≠ path → now.file other = files.file other
  here : now.file path = files.file path ∨ ∃ config, now.sshdConfig path = some config ∧
    config.contents <+: (updateSshdConfig regex (files.sshdConfig path) disable).contents ∧
    (config.contents = [] ∨
      config.mode = (updateSshdConfig regex (files.sshdConfig path) disable).mode)

/-- The update is done. -/
structure Updated (regex : RegexCrate) (files : HostFiles) (path : Text) (disable : Bool)
    (now : HostFiles) : Prop where
  elsewhere : ∀ other, other ≠ path → now.file other = files.file other
  here : now.sshdConfig path = some (updateSshdConfig regex (files.sshdConfig path) disable)

section Update

variable {regex : RegexCrate} {files now : HostFiles} {path : Text} {disable : Bool}

theorem Updated.updating (updated : Updated regex files path disable now) :
    Updating regex files path disable now :=
  ⟨updated.elsewhere, .inr ⟨_, updated.here, List.prefix_refl _, .inr rfl⟩⟩

theorem Updating.start : Updating regex files path disable files :=
  ⟨fun _ _ => rfl, .inl rfl⟩

theorem keeps_mk_ask {safe : HostFiles → Prop} {request : HostRequest}
    (good : request.Value → HostFiles → Prop) (start : safe now)
    (onValue : ∀ value after, HostStep request now (.ok value) after →
      safe after ∧ good value after)
    (onError : ∀ error after, HostStep request now (.error error) after → safe after) :
    Keeps HostStep safe
      (ExceptT.mk (Program.ask request) : ExceptT Kvp.IoError HostProgram request.Value).run now
      (eitherWay good fun _ _ => True) := by
  refine ⟨start, fun reply after stepped => ?_⟩
  cases reply with
  | ok value => exact onValue value after stepped
  | error error => exact ⟨onError error after stepped, trivial⟩

/-- A request that leads to one state if it succeeds, and changes nothing if it fails. -/
theorem keeps_settled {safe : HostFiles → Prop} {next : HostFiles} (request : HostRequest)
    (start : safe now) (reached : safe next)
    (onValue : ∀ value after, HostStep request now (.ok value) after → after = next)
    (onError : ∀ error after, HostStep request now (.error error) after → after = now) :
    Keeps HostStep safe
      (ExceptT.mk (Program.ask request) : ExceptT Kvp.IoError HostProgram request.Value).run now
      (eitherWay (fun _ after => after = next) fun _ _ => True) := by
  refine keeps_mk_ask _ start (fun value after stepped => ?_) fun error after stepped => ?_
  · obtain rfl := onValue value after stepped
    exact ⟨reached, rfl⟩
  · obtain rfl := onError error after stepped
    exact start

/-- The last write: a file that holds the first part of the new text gets the rest. -/
theorem keeps_lastWrite {file : HostFile} {text : Text}
    (elsewhere : ∀ other, other ≠ path → now.file other = files.file other)
    (here : now.file path = some file)
    (completes : { mode := file.mode, contents := file.contents ++ text } =
      updateSshdConfig regex (files.sshdConfig path) disable)
    (start : Updating regex files path disable now) :
    Keeps HostStep (Updating regex files path disable)
      (ExceptT.mk (Program.ask (HostRequest.writeAll path text)) :
        ExceptT Kvp.IoError HostProgram Unit).run
      now (eitherWay (fun _ => Updated regex files path disable) fun _ _ => True) := by
  have written : ∀ front, (now.append path front).sshdConfig path =
      some { mode := file.mode, contents := file.contents ++ front } := by
    intro front
    rw [HostFiles.sshdConfig, HostFiles.append, HostFiles.editFile_file_self, here]
    rfl
  have others : ∀ front other, other ≠ path →
      (now.append path front).file other = files.file other := by
    intro front other different
    rw [HostFiles.append, HostFiles.editFile_file_of_ne _ _ different, elsewhere other different]
  refine keeps_mk_ask _ start ?_ ?_
  · intro value after stepped
    cases stepped
    have updated : Updated regex files path disable (now.append path text) :=
      ⟨others text, by rw [written, completes]⟩
    exact ⟨updated.updating, updated⟩
  · intro error after stepped
    obtain ⟨front, part, rfl⟩ := stepped
    refine ⟨others front, .inr ⟨_, written front, ?_, .inr ?_⟩⟩
    · rw [← completes]
      exact (List.prefix_append_right_inj file.contents).mpr part
    · rw [← completes]

/-- A file that is missing is created. -/
theorem keeps_createSshdConfig (missing : files.file path = none) (noDir : files.dir path = none) :
    Keeps HostStep (Updating regex files path disable)
      (createSshdConfig path (passwordAuthSetting disable)).run files
      (eitherWay (fun _ => Updated regex files path disable) fun _ _ => True) := by
  let created := files.setFile path (files.opened path newFileMode)
  have empty : Updating regex files path disable created := by
    refine ⟨fun other different => HostFiles.setFile_file_of_ne _ _ different _, .inr ?_⟩
    refine ⟨(files.opened path newFileMode).sshdConfig, ?_, ?_, .inl ?_⟩
    · rw [HostFiles.sshdConfig, HostFiles.setFile_file_self]
      rfl
    · rw [HostFile.sshdConfig, HostFiles.opened_contents]
      exact List.nil_prefix
    · exact HostFiles.opened_contents ..
  refine (keeps_settled (.createFile path newFileMode) .start empty (fun _ _ stepped => stepped.2)
    fun _ _ stepped => stepped).exceptBind fun _ middle _ same => ?_
  · cases same
    let guarded : HostFile := { files.opened path newFileMode with mode := 0o600 }
    have here : (created.setMode path 0o600).file path = some guarded := by
      rw [HostFiles.setMode_of_file (show created.dir path = none from noDir),
        HostFiles.editFile_file_self, HostFiles.setFile_file_self]
      rfl
    have elsewhere : ∀ other, other ≠ path →
        (created.setMode path 0o600).file other = files.file other := by
      intro other different
      rw [HostFiles.setMode_of_file (show created.dir path = none from noDir),
        HostFiles.editFile_file_of_ne _ _ different, HostFiles.setFile_file_of_ne _ _ different]
    have completes : ({ mode := guarded.mode, contents := guarded.contents ++
        (settingLine (passwordAuthSetting disable) [] ++ ['\n']) } : SshdConfig) =
          updateSshdConfig regex (files.sshdConfig path) disable := by
      simp [guarded, HostFiles.sshdConfig, missing, updateSshdConfig]
    have guardedUpdating : Updating regex files path disable (created.setMode path 0o600) := by
      refine ⟨elsewhere, .inr ⟨guarded.sshdConfig, ?_, ?_, .inl ?_⟩⟩
      · rw [HostFiles.sshdConfig, here]
        rfl
      · simp [guarded, HostFile.sshdConfig]
      · simp [guarded, HostFile.sshdConfig]
    refine (keeps_settled (.setPermissions path 0o600) empty guardedUpdating
      (fun _ _ stepped => stepped) fun _ _ stepped => stepped).exceptBind fun _ last _ same => ?_
    · cases same
      exact keeps_lastWrite elsewhere here completes guardedUpdating

/-- A file that is there is rewritten or added to. -/
theorem keeps_changeSshdConfig :
    Keeps HostStep (Updating regex files path disable)
      (changeSshdConfig regex path (passwordAuthSetting disable)).run files
      (eitherWay (fun _ => Updated regex files path disable) fun _ _ => True) := by
  refine (keeps_settled (.openRead path) .start .start (fun _ _ stepped => stepped)
    fun _ _ stepped => stepped).exceptBind fun _ opened _ same => ?_
  · cases same
    refine (keeps_mk_ask (fun text after => after = files ∧
      (files.file path).map (·.contents) = some text) .start ?_ ?_).exceptBind
      fun fileContent read _ known => ?_
    · intro text after stepped
      obtain ⟨rfl, found⟩ := stepped
      exact ⟨.start, rfl, found⟩
    · intro error after stepped
      cases stepped
      exact .start
    · obtain ⟨rfl, found⟩ := known
      obtain ⟨file, here, rfl⟩ := Option.map_eq_some_iff.mp found
      have config : read.sshdConfig path = some file.sshdConfig := by
        rw [HostFiles.sshdConfig, here]
        rfl
      split_ifs with matched
      · let emptied := read.editFile path ({ · with contents := [] })
        have hereNow : emptied.file path = some { file with contents := [] } := by
          rw [HostFiles.editFile_file_self, here]
          rfl
        have elsewhere : ∀ other, other ≠ path → emptied.file other = read.file other :=
          fun other different => HostFiles.editFile_file_of_ne _ _ different _
        have empty : Updating regex read path disable emptied := by
          refine ⟨elsewhere, .inr ⟨{ mode := file.mode, contents := [] }, ?_, ?_, .inl rfl⟩⟩
          · rw [HostFiles.sshdConfig, hereNow]
            rfl
          · exact List.nil_prefix
        refine (keeps_settled (.openTruncate path) .start empty (fun _ _ stepped => stepped)
          fun _ _ stepped => stepped).exceptBind fun _ last _ same => ?_
        · cases same
          refine keeps_lastWrite elsewhere hereNow ?_ empty
          simp [config, updateSshdConfig, HostFile.sshdConfig, matched]
      · refine (keeps_settled (.openAppend path) .start .start (fun _ _ stepped => stepped)
          fun _ _ stepped => stepped).exceptBind fun _ last _ same => ?_
        · cases same
          refine keeps_lastWrite (fun _ _ => rfl) here ?_ .start
          simp [config, updateSshdConfig, HostFile.sshdConfig, matched]

theorem keeps_updateSshdConfigAt :
    Keeps HostStep (Updating regex files path disable)
      (updateSshdConfigAt regex path disable).run files
      (eitherWay (fun _ => Updated regex files path disable) fun _ _ => True) := by
  unfold updateSshdConfigAt
  rw [ExceptT.run_bind_lift]
  have asked : Keeps HostStep (Updating regex files path disable) (pathExists path) files
      fun present after => after = files ∧
        (present = false → files.file path = none ∧ files.dir path = none) := by
    refine (Keeps.ask (fun reply after => after = files ∧
      (reply.isOk = false → files.file path = none ∧ files.dir path = none)) .start ?_).bind
      fun reply now nowSafe known => ⟨nowSafe, known⟩
    intro reply after stepped
    cases reply with
    | ok directory =>
        obtain ⟨rfl, -⟩ := stepped
        exact ⟨.start, rfl, nofun⟩
    | error error =>
        obtain ⟨rfl, noFile, noDir⟩ := stepped
        exact ⟨.start, rfl, fun _ => ⟨noFile, noDir⟩⟩
  refine asked.bind fun present now _ known => ?_
  obtain ⟨rfl, absent⟩ := known
  cases present with
  | false =>
      obtain ⟨noFile, noDir⟩ := absent rfl
      exact keeps_createSshdConfig noFile noDir
  | true => exact keeps_changeSshdConfig

/-- Wherever an update is cut off, the file is as it was or holds the beginning of what it
is to hold, and no other file is touched. -/
theorem sshd_config_at_every_moment {rest : HostProgram (Except Kvp.IoError Unit)}
    (reached : Program.Reaches HostStep (updateSshdConfigAt regex path disable).run files rest now) :
    Updating regex files path disable now :=
  keeps_updateSshdConfigAt.reaches reached

end Update

/-! ## Sequences of updates -/

/-- Updates of one file that succeed, one behind the other. -/
inductive SshdUpdates (regex : RegexCrate) (path : Text) : List Bool → HostFiles → HostFiles → Prop where
  | none {files : HostFiles} : SshdUpdates regex path [] files files
  | call {disable : Bool} {settings : List Bool} {before middle after : HostFiles} :
      Program.Runs HostStep (updateSshdConfigAt regex path disable).run before (.ok ()) middle →
      SshdUpdates regex path settings middle after →
      SshdUpdates regex path (disable :: settings) before after

/-- On the file, a sequence of updates does what it does on the text. -/
theorem sshd_updates_refine {regex : RegexCrate} {path : Text} {settings : List Bool}
    {before after : HostFiles} (updates : SshdUpdates regex path settings before after) :
    after.sshdConfig path = afterUpdates regex (before.sshdConfig path) settings ∧
      ∀ other, other ≠ path → after.file other = before.file other := by
  induction updates with
  | none => exact ⟨rfl, fun _ _ => rfl⟩
  | call ran _ ih =>
      have updated := (keeps_updateSshdConfigAt.runs ran).2
      refine ⟨?_, fun other different => ?_⟩
      · rw [ih.1, updated.here]
        rfl
      · rw [ih.2 other different, updated.elsewhere other different]

/-! ## A commented setting, rewritten twice -/

def commentedHost : HostFiles where
  umask := 0o022
  file := fun path =>
    if path = "/etc/ssh/sshd_config".toList then
      some { mode := 0o644, owner := rootOwner, contents := commentedConfig.contents }
    else none
  dir := fun _ => none

def runUpdate (disable : Bool) (files : HostFiles) : Except Kvp.IoError Unit × HostFiles :=
  Program.run (HostRequest.perform { homeDir := [], owner := rootOwner } [])
    (updateSshdConfigAt referenceRegex "/etc/ssh/sshd_config".toList disable).run files

theorem runs_runUpdate (disable : Bool) (files : HostFiles) :
    Program.Runs HostStep
      (updateSshdConfigAt referenceRegex "/etc/ssh/sshd_config".toList disable).run files
      (runUpdate disable files).1 (runUpdate disable files).2 :=
  Program.runs_run (hostStep_perform _ _) _ _

theorem commentedHost_updated :
    Updating referenceRegex commentedHost "/etc/ssh/sshd_config".toList true
      (runUpdate true commentedHost).2 :=
  sshd_config_at_every_moment (runs_runUpdate true commentedHost).reaches

theorem runUpdate_ok : (runUpdate true commentedHost).1 = .ok () ∧
    (runUpdate false (runUpdate true commentedHost).2).1 = .ok () := by
  decide +kernel

theorem commentedHost_updated_twice :
    (runUpdate false (runUpdate true commentedHost).2).2.sshdConfig "/etc/ssh/sshd_config".toList =
      afterUpdates referenceRegex (commentedHost.sshdConfig "/etc/ssh/sshd_config".toList)
        [true, false] := by
  have first := runs_runUpdate true commentedHost
  have second := runs_runUpdate false (runUpdate true commentedHost).2
  rw [runUpdate_ok.1] at first
  rw [runUpdate_ok.2] at second
  exact (sshd_updates_refine (.call first (.call second .none))).1

end AzureInit.Provision
