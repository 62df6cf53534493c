import AzureInit.Foundation.ObservedRuns
import AzureInit.Provision.HostFiles
import AzureInit.Provision.HostLogs

/-! The keys of a user while they are written, and afterwards. -/

set_option autoImplicit false

namespace AzureInit.Provision

open Foundation

def keysText (keys : List PublicKeys) : Text := keys.flatMap fun key => key.keyData ++ ['\n']

/-- Who may read a file: root, and whom the bits of the mode admit. -/
def HostFile.ReadableBy (file : HostFile) (uid : Nat) (groups : List Nat) : Prop :=
  uid = 0 ∨
    if uid = file.owner.uid then file.mode.testBit 8 = true
    else if groups.contains file.owner.gid then file.mode.testBit 5 = true
    else file.mode.testBit 2 = true

/-- A file that its owner alone may use is read by nobody else but root. -/
theorem HostFile.ReadableBy.of_private {file : HostFile} {uid : Nat} {groups : List Nat}
    (readable : file.ReadableBy uid groups) (guarded : file.mode = 0o600) :
    uid = 0 ∨ uid = file.owner.uid := by
  refine readable.imp_right fun admitted => ?_
  rw [guarded] at admitted
  by_contra other
  rw [if_neg other] at admitted
  split_ifs at admitted <;> exact absurd admitted (by decide)

/-- At most the file at the path is touched: it holds the beginning of the keys. Unless it is
empty, it is its owner's alone, and that is the user or, before the file is handed over, whose
it was when it was opened. -/
structure Touched (files : HostFiles) (user : SshUser) (keys : List PublicKeys) (path : Text)
    (now : HostFiles) : Prop where
  elsewhere : ∀ other, other ≠ path → now.file other = files.file other
  here : now.file path = files.file path ∨
    ∃ file, now.file path = some file ∧ file.contents <+: keysText keys ∧
      (file.contents = [] ∨ file.mode = 0o600 ∧
        (file.owner = user.owner ∨ file.owner = files.openedOwner path))

theorem touched_iff {files now : HostFiles} {user : SshUser} {keys : List PublicKeys}
    {path : Text} :
    Touched files user keys path now ↔
      (∀ other, other ≠ path → now.file other = files.file other) ∧
      (now.file path = files.file path ∨ ∃ file, now.file path = some file ∧
        file.contents <+: keysText keys ∧ (file.contents = [] ∨ file.mode = 0o600 ∧
          (file.owner = user.owner ∨ file.owner = files.openedOwner path))) :=
  ⟨fun touched => ⟨touched.elsewhere, touched.here⟩, fun both => ⟨both.1, both.2⟩⟩

theorem Touched.of_file_eq {files now : HostFiles} {user : SshUser} {keys : List PublicKeys}
    {path : Text} (same : now.file = files.file) : Touched files user keys path now :=
  ⟨fun other _ => by rw [same], .inl (by rw [same])⟩

theorem touched_congr {files others : HostFiles} (user : SshUser) (keys : List PublicKeys)
    (path : Text) (same : files.file = others.file) :
    Touched files user keys path = Touched others user keys path := by
  funext now
  rw [touched_iff, touched_iff, same, HostFiles.openedOwner_congr files path same]

/-- Who can read a key: root, the user, and the owner of the file that was there before. -/
theorem Touched.readers {files now : HostFiles} {user : SshUser} {keys : List PublicKeys}
    {path : Text} (touched : Touched files user keys path now) {other : Text} {file : HostFile}
    (changed : now.file other ≠ files.file other) (here : now.file other = some file)
    (holds : file.contents ≠ []) {uid : Nat} {groups : List Nat}
    (readable : file.ReadableBy uid groups) :
    uid = 0 ∨ uid = user.owner.uid ∨
      ∃ old, files.file other = some old ∧ uid = old.owner.uid := by
  have chosen : other = path := by
    by_contra different
    exact changed (touched.elsewhere other different)
  subst chosen
  rcases touched.here with unchanged | written
  · exact absurd unchanged changed
  · obtain ⟨found, same, -, guarded⟩ := written
    rw [here] at same
    cases same
    obtain ⟨mode, owned⟩ := guarded.resolve_left holds
    rcases readable.of_private mode with root | owner
    · exact .inl root
    · rcases owned with users | opener
      · exact .inr (.inl (by rw [owner, users]))
      · rw [opener, HostFiles.openedOwner] at owner
        split at owner
        · rename_i old there
          exact .inr (.inr ⟨old, there, owner⟩)
        · exact .inl owner

section Requests

variable {safe : HostFiles → Prop} {now : HostFiles}

theorem keeps_tryHost {request : HostRequest} (good : request.Value → HostFiles → Prop)
    {bad : HostError → HostFiles → Prop} (start : safe now)
    (onValue : ∀ value after, HostStep request now (.ok value) after →
      safe after ∧ good value after)
    (onError : ∀ error after, HostStep request now (.error error) after →
      safe after ∧ bad (.io error) after) :
    Keeps HostStep safe (tryHost request).run now (eitherWay good bad) := by
  refine ⟨start, fun reply after stepped => ?_⟩
  cases reply with
  | ok value => exact onValue value after stepped
  | error error => exact onError error after stepped

theorem keeps_chown {path : Text} {owner : Owner} (good : Unit → HostFiles → Prop)
    {bad : HostError → HostFiles → Prop} (start : safe now)
    (onValue : safe (now.setOwner path owner) ∧ good () (now.setOwner path owner))
    (onError : ∀ error, bad (.rustix error) now) :
    Keeps HostStep safe (chown path owner).run now (eitherWay good bad) := by
  refine ⟨start, fun reply after stepped => ?_⟩
  cases reply with
  | ok value =>
      cases stepped
      exact onValue
  | error error =>
      cases stepped
      exact ⟨start, onError error⟩

end Requests

section Writing

variable {files now : HostFiles} {user : SshUser} {keys : List PublicKeys} {path : Text}

/-- The file while the keys are written: it holds so much of them. -/
structure Holding (files : HostFiles) (path : Text) (owner : Owner) (text : Text) (now : HostFiles) :
    Prop where
  elsewhere : ∀ other, other ≠ path → now.file other = files.file other
  here : now.file path = some { mode := 0o600, owner, contents := text }
  dir : now.dir = files.dir

theorem Holding.touched {owner : Owner} {text : Text} (holding : Holding files path owner text now)
    (owned : owner = user.owner ∨ owner = files.openedOwner path)
    (front : text <+: keysText keys) : Touched files user keys path now :=
  ⟨holding.elsewhere, .inr ⟨_, holding.here, front, .inr ⟨rfl, owned⟩⟩⟩

theorem Holding.append {owner : Owner} {text : Text} (holding : Holding files path owner text now)
    (more : Text) : Holding files path owner (text ++ more) (now.append path more) where
  elsewhere other different := by
    rw [HostFiles.append, HostFiles.editFile_file_of_ne _ _ different]
    exact holding.elsewhere other different
  here := by
    rw [HostFiles.append, HostFiles.editFile_file_self, holding.here]
    rfl
  dir := holding.dir

/-- A piece of the keys is written, in whole or in part. -/
theorem keeps_writePiece {text piece : Text}
    (holding : Holding files path (files.openedOwner path) text now)
    (front : text ++ piece <+: keysText keys) :
    Keeps HostStep (Touched files user keys path) (tryHost (.writeAll path piece)).run now
      (eitherWay (fun _ => Holding files path (files.openedOwner path) (text ++ piece))
        fun _ _ => True) := by
  refine keeps_tryHost _ (holding.touched (.inr rfl) ((List.prefix_append _ _).trans front)) ?_ ?_
  · intro value after stepped
    cases stepped
    exact ⟨(holding.append piece).touched (.inr rfl) front, holding.append piece⟩
  · intro error after stepped
    obtain ⟨written, part, rfl⟩ := stepped
    refine ⟨(holding.append written).touched (.inr rfl) ?_, trivial⟩
    exact ((List.prefix_append_right_inj text).mpr part).trans front

theorem keeps_writeKeys {rest : List PublicKeys} {text : Text}
    (holding : Holding files path (files.openedOwner path) text now)
    (split : keysText keys = text ++ keysText rest) :
    Keeps HostStep (Touched files user keys path) (writeKeys path rest).run now
      (eitherWay (fun _ => Holding files path (files.openedOwner path) (keysText keys))
        fun _ _ => True) := by
  induction rest generalizing text now with
  | nil =>
      have whole : keysText keys = text := by simpa [keysText] using split
      rw [whole]
      refine ⟨holding.touched (.inr rfl) ?_, holding⟩
      rw [whole]
  | cons key rest ih =>
      have joined : keysText keys = text ++ key.keyData ++ ['\n'] ++ keysText rest := by
        rw [split]
        simp [keysText]
      refine (keeps_writePiece holding ?_).exceptBind fun _ middle _ written => ?_
      · rw [joined, List.append_assoc (text ++ key.keyData)]
        exact List.prefix_append _ _
      · refine (keeps_writePiece written ?_).exceptBind fun _ later _ ended => ih ended joined
        rw [joined]
        exact List.prefix_append _ _

/-- The file is opened, becomes its owner's alone, is written and handed over. -/
theorem keeps_writeAuthorizedKeys :
    Keeps HostStep (Touched now user keys path) (writeAuthorizedKeys user keys path).run now
      (eitherWay (fun _ => Holding now path user.owner (keysText keys)) fun _ _ => True) := by
  have start : Touched now user keys path now := .of_file_eq rfl
  let opened := now.setFile path (now.opened path newFileMode)
  have openedTouched : Touched now user keys path opened := by
    refine ⟨fun other different => HostFiles.setFile_file_of_ne _ _ different _, .inr ?_⟩
    refine ⟨_, HostFiles.setFile_file_self .., ?_, .inl (HostFiles.opened_contents ..)⟩
    rw [HostFiles.opened_contents]
    exact List.nil_prefix
  refine (keeps_tryHost (fun _ after => now.dir path = none ∧ after = opened) start
    ?_ ?_).exceptBind fun _ created _ isOpened => ?_
  · intro value after stepped
    obtain ⟨noDir, rfl⟩ := stepped
    exact ⟨openedTouched, noDir, rfl⟩
  · intro error after stepped
    cases stepped
    exact ⟨start, trivial⟩
  · obtain ⟨noDir, rfl⟩ := isOpened
    have restricted : Holding now path (now.openedOwner path) [] (opened.setMode path 0o600) := by
      rw [HostFiles.setMode_of_file (show opened.dir path = none from noDir)]
      refine ⟨fun other different => ?_, ?_, rfl⟩
      · rw [HostFiles.editFile_file_of_ne _ _ different, HostFiles.setFile_file_of_ne _ _ different]
      · rw [HostFiles.editFile_file_self, HostFiles.setFile_file_self]
        simp
    refine (keeps_tryHost
      (fun _ => Holding now path (now.openedOwner path) []) openedTouched
      ?_ ?_).exceptBind fun _ guarded _ holding => ?_
    · intro value after stepped
      cases stepped
      exact ⟨restricted.touched (.inr rfl) List.nil_prefix, restricted⟩
    · intro error after stepped
      cases stepped
      exact ⟨openedTouched, trivial⟩
    · refine (keeps_writeKeys holding (by simp)).exceptBind fun _ written _ whole => ?_
      have noDirNow : written.dir path = none := by rw [whole.dir, noDir]
      have owned : Holding now path user.owner (keysText keys)
          (written.setOwner path user.owner) := by
        rw [HostFiles.setOwner_of_file noDirNow]
        refine ⟨fun other different => ?_, ?_, whole.dir⟩
        · rw [HostFiles.editFile_file_of_ne _ _ different]
          exact whole.elsewhere other different
        · rw [HostFiles.editFile_file_self, whole.here]
          rfl
      exact keeps_chown _ (whole.touched (.inr rfl) List.prefix_rfl)
        ⟨owned.touched (.inl rfl) List.prefix_rfl, owned⟩ fun _ => trivial

end Writing

/-! ## The whole of the keys -/

/-- The keys of the user are in place, and nothing else is changed. -/
structure Installed (files : HostFiles) (user : SshUser) (keys : List PublicKeys) (path : Text)
    (now : HostFiles) : Prop where
  elsewhere : ∀ other, other ≠ path → now.file other = files.file other
  keysFile : now.file path =
    some { mode := 0o600, owner := user.owner, contents := keysText keys }
  sshDir : now.dir (sshDirOf user) = some { mode := 0o700, owner := user.owner }

/-- No file is touched before the path of the keys is known, and at most that one afterwards. -/
def KeysPrivate (files : HostFiles) (user : SshUser) (keys : List PublicKeys) (configured : Text)
    (querySshdConfig : Bool) (now : HostFiles) (log : List HostEvent) : Prop :=
  now.file = files.file ∨
    ∃ path asked, KeysPathAsked user configured querySshdConfig path asked ∧ asked <+: log ∧
      Touched files user keys path now

section Whole

variable {files : HostFiles} {user : SshUser} {keys : List PublicKeys} {configured : Text}
variable {querySshdConfig : Bool}

/-- The question for the path leaves all as it is. -/
theorem keeps_authorizedKeysPathOf :
    Keeps HostStep (· = files) (authorizedKeysPathOf user configured querySshdConfig) files
      fun _ now => now = files := by
  cases querySshdConfig with
  | false => exact ⟨rfl, rfl⟩
  | true =>
      have asked : Keeps HostStep (· = files) (Program.ask (HostRequest.output sshdCommand)) files
          fun _ now => now = files := ⟨rfl, fun reply after stepped => by cases stepped; trivial⟩
      unfold authorizedKeysPathOf
      rw [if_pos rfl, getAuthorizedKeysPathFromSshd_eq, ← bind_pure_comp, bind_assoc]
      refine asked.bind fun reply now _ same => ?_
      rw [pure_bind]
      cases toldKeysPath reply <;> exact ⟨same, same⟩

theorem keeps_installAuthorizedKeys {path : Text} :
    Keeps HostStep (Touched files user keys path) (installAuthorizedKeys user keys path).run files
      (eitherWay (fun _ => Installed files user keys path) fun _ _ => True) := by
  unfold installAuthorizedKeys
  refine (keeps_tryHost
    (fun _ after => after.file = files.file ∧ (after.dir (sshDirOf user)).isSome = true)
    (.of_file_eq rfl) ?_ ?_).exceptBind fun _ created _ made => ?_
  · intro value after stepped
    obtain ⟨dirs, rfl, there, -⟩ := stepped
    exact ⟨.of_file_eq rfl, rfl, there⟩
  · intro error after stepped
    obtain ⟨dirs, rfl⟩ := stepped
    exact ⟨.of_file_eq rfl, trivial⟩
  · obtain ⟨sameFiles, there⟩ := made
    refine (keeps_tryHost (fun _ after => after.file = files.file ∧
      ∃ owner, after.dir (sshDirOf user) = some { mode := 0o700, owner }) (.of_file_eq sameFiles)
      ?_ ?_).exceptBind fun _ limited _ narrowed => ?_
    · intro value after stepped
      cases stepped
      rw [HostFiles.setMode_of_dir there]
      obtain ⟨dir, isDir⟩ := Option.isSome_iff_exists.mp there
      refine ⟨.of_file_eq sameFiles, sameFiles, dir.owner, ?_⟩
      rw [HostFiles.editDir_dir_self, isDir]
      rfl
    · intro error after stepped
      cases stepped
      exact ⟨.of_file_eq sameFiles, trivial⟩
    · obtain ⟨sameFiles, owner, isDir⟩ := narrowed
      have there : (limited.dir (sshDirOf user)).isSome = true := by rw [isDir]; rfl
      have handed : (limited.setOwner (sshDirOf user) user.owner).file = files.file ∧
          (limited.setOwner (sshDirOf user) user.owner).dir (sshDirOf user) =
            some { mode := 0o700, owner := user.owner } := by
        rw [HostFiles.setOwner_of_dir there]
        refine ⟨sameFiles, ?_⟩
        rw [HostFiles.editDir_dir_self, isDir]
        rfl
      refine (keeps_chown (fun _ after => after.file = files.file ∧
        after.dir (sshDirOf user) = some { mode := 0o700, owner := user.owner })
        (.of_file_eq sameFiles) ⟨.of_file_eq handed.1, handed⟩ fun _ => trivial).exceptBind
        fun _ prepared _ ready => ?_
      rw [← touched_congr user keys path ready.1]
      refine keeps_writeAuthorizedKeys.imp fun outcome after _ written => ?_
      cases outcome with
      | error error => trivial
      | ok value =>
          refine ⟨fun other different => ?_, written.here, ?_⟩
          · rw [written.elsewhere other different, ready.1]
          · rw [written.dir, ready.2]

/-- When the question for the path is answered. -/
theorem asked_of_observed {path : Text} {after : HostFiles × List HostEvent}
    (execution : Program.Runs (Observed HostStep)
      (authorizedKeysPathOf user configured querySshdConfig) (files, []) path after) :
    after.1 = files ∧ KeysPathAsked user configured querySshdConfig path after.2 := by
  obtain ⟨asked, same, logged⟩ := logged_of_observed execution
  rw [List.nil_append] at same
  rw [same]
  exact ⟨(keeps_authorizedKeysPathOf.runs (runs_of_observed execution)).2,
    logged_authorizedKeysPathOf_iff.mp logged⟩

/-- Wherever the installation of the keys is cut off, only the file that was asked for is
touched, and no key is in a file that anyone reads but root, the user, and the former owner
of a file that was there before. -/
theorem keys_private_at_every_moment {now : HostFiles × List HostEvent}
    {rest : HostProgram (Except HostError Unit)}
    (reached : Program.Reaches (Observed HostStep)
      (provisionSsh user keys configured querySshdConfig).run (files, []) rest now) :
    KeysPrivate files user keys configured querySshdConfig now.1 now.2 ∧
      ∀ path file uid groups, now.1.file path ≠ files.file path → now.1.file path = some file →
        file.contents ≠ [] → file.ReadableBy uid groups →
          uid = 0 ∨ uid = user.owner.uid ∨
            ∃ old, files.file path = some old ∧ uid = old.owner.uid := by
  unfold provisionSsh at reached
  rw [ExceptT.run_bind_lift] at reached
  rcases reached.bind_cases with asking | installing
  · obtain ⟨remaining, asking, -⟩ := asking
    have same : now.1 = files := keeps_authorizedKeysPathOf.reaches (reaches_of_observed asking)
    refine ⟨.inl (by rw [same]), fun path file uid groups changed => ?_⟩
    exact absurd (by rw [same]) changed
  · obtain ⟨path, ⟨middle, asked⟩, told, installing⟩ := installing
    obtain ⟨rfl, known⟩ := asked_of_observed told
    have touched : Touched middle user keys path now.1 :=
      keeps_installAuthorizedKeys.reaches (reaches_of_observed installing)
    refine ⟨.inr ⟨path, asked, known, prefix_of_observed installing, touched⟩, ?_⟩
    intro other file uid groups changed here holds readable
    exact touched.readers changed here holds readable

/-- An installation that succeeds leaves exactly the keys, at the path that the daemon told
in this execution or that is configured, in a file and a directory of the user's alone. -/
theorem keys_installed {after : HostFiles × List HostEvent}
    (execution : Program.Runs (Observed HostStep)
      (provisionSsh user keys configured querySshdConfig).run (files, []) (.ok ()) after) :
    ∃ path asked, KeysPathAsked user configured querySshdConfig path asked ∧
      after.2 = asked ++ keysEvents user keys path ∧ Installed files user keys path after.1 := by
  unfold provisionSsh at execution
  rw [ExceptT.run_bind_lift, Program.runs_bind_iff] at execution
  obtain ⟨path, ⟨middle, asked⟩, told, installing⟩ := execution
  obtain ⟨rfl, known⟩ := asked_of_observed told
  obtain ⟨installed, same, logged⟩ := logged_of_observed installing
  rw [logged_installAuthorizedKeys_ok_iff.mp logged] at same
  exact ⟨path, asked, known, same,
    (keeps_installAuthorizedKeys.runs (runs_of_observed installing)).2⟩

end Whole

/-! ## A file that everybody could read -/

def sampleUser : SshUser :=
  { homeDir := "/home/azureuser".toList, owner := { uid := 1000, gid := 1000 } }

def sampleKeys : List PublicKeys := [{ keyData := "ssh-ed25519 AAAA".toList, path := [] }]

/-- The file is another user's. -/
def oldKeysFile : HostFile :=
  { mode := 0o644, owner := { uid := 1001, gid := 1001 }, contents := "ssh-rsa old\n".toList }

def oldKeysPath : Text := "/home/azureuser/.ssh/keys".toList

def oldKeysHost : HostFiles where
  umask := 0o022
  file := fun path => if path = oldKeysPath then some oldKeysFile else none
  dir := fun _ => none

def sshdOutput : Text := "port 22\nauthorizedkeysfile .ssh/keys .ssh/more\n".toList

def installOn (handler : (request : HostRequest) → HostFiles → request.Reply × HostFiles) :
    Except HostError Unit × HostFiles × List HostEvent :=
  Program.run (observing handler)
    (provisionSsh sampleUser sampleKeys ".ssh/authorized_keys".toList true).run (oldKeysHost, [])

theorem runs_installOn {handler : (request : HostRequest) → HostFiles → request.Reply × HostFiles}
    (admitted : ∀ request files,
      HostStep request files (handler request files).1 (handler request files).2) :
    Program.Runs (Observed HostStep)
      (provisionSsh sampleUser sampleKeys ".ssh/authorized_keys".toList true).run (oldKeysHost, [])
      (installOn handler).1 (installOn handler).2 :=
  Program.runs_run (observed_observing admitted) _ _

/-- A host without faults but that the keys file is not handed over. -/
def keepingOwner : (request : HostRequest) → HostFiles → request.Reply × HostFiles
  | .chown path owner, files =>
      if path = oldKeysPath then (.error { kind := .other }, files)
      else HostRequest.perform sampleUser sshdOutput (.chown path owner) files
  | request, files => request.perform sampleUser sshdOutput files

theorem hostStep_keepingOwner (request : HostRequest) (files : HostFiles) :
    HostStep request files (keepingOwner request files).1 (keepingOwner request files).2 := by
  cases request with
  | chown path owner =>
      by_cases kept : path = oldKeysPath
      · simp only [keepingOwner, kept, ↓reduceIte]
        rfl
      · simp only [keepingOwner, kept, ↓reduceIte]
        exact hostStep_perform sampleUser sshdOutput _ files
  | _ => exact hostStep_perform sampleUser sshdOutput _ files

/-- The keys, in a file that still has its old owner. -/
def unhandedFile : HostFile := { oldKeysFile with mode := 0o600, contents := keysText sampleKeys }

theorem keepingOwner_file :
    (installOn keepingOwner).2.1.file oldKeysPath = some unhandedFile := by
  decide +kernel

theorem old_keys_private :
    (installOn keepingOwner).2.1.file oldKeysPath = some unhandedFile ∧
    ∀ uid groups, unhandedFile.ReadableBy uid groups →
      uid = 0 ∨ uid = sampleUser.owner.uid ∨
        ∃ old, oldKeysHost.file oldKeysPath = some old ∧ uid = old.owner.uid := by
  have moment := keys_private_at_every_moment (runs_installOn hostStep_keepingOwner).reaches
  refine ⟨keepingOwner_file, fun uid groups => ?_⟩
  refine moment.2 oldKeysPath unhandedFile uid groups ?_ keepingOwner_file (by decide)
  rw [keepingOwner_file]
  decide

theorem installOn_perform_ok : (installOn (HostRequest.perform sampleUser sshdOutput)).1 = .ok () := by
  decide +kernel

theorem installOn_perform_file :
    (installOn (HostRequest.perform sampleUser sshdOutput)).2.1.file oldKeysPath =
      some { mode := 0o600, owner := sampleUser.owner, contents := keysText sampleKeys } := by
  decide +kernel

theorem old_keys_replaced :
    (installOn (HostRequest.perform sampleUser sshdOutput)).2.1.file oldKeysPath =
      some { mode := 0o600, owner := sampleUser.owner, contents := keysText sampleKeys } ∧
    ∃ path asked, KeysPathAsked sampleUser ".ssh/authorized_keys".toList true path asked ∧
      (installOn (HostRequest.perform sampleUser sshdOutput)).2.2 =
        asked ++ keysEvents sampleUser sampleKeys path ∧
      Installed oldKeysHost sampleUser sampleKeys path
        (installOn (HostRequest.perform sampleUser sshdOutput)).2.1 := by
  have execution := runs_installOn (hostStep_perform sampleUser sshdOutput)
  rw [installOn_perform_ok] at execution
  exact ⟨installOn_perform_file, keys_installed execution⟩

end AzureInit.Provision
