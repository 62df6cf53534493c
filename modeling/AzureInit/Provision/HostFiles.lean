import AzureInit.Provision.SshKeys

/-! The files of the host, and what the requests of provisioning do to them. -/

set_option autoImplicit false

namespace AzureInit.Provision

open Foundation

structure HostFile where
  mode : Nat
  owner : Owner
  contents : Text
  deriving DecidableEq, Repr

structure HostDir where
  mode : Nat
  owner : Owner
  deriving DecidableEq, Repr

/-- Paths are names; two of them name different files. -/
structure HostFiles where
  umask : Nat
  file : Text → Option HostFile
  dir : Text → Option HostDir

/-- The agent runs as this one. -/
def rootOwner : Owner := { uid := 0, gid := 0 }

namespace HostFiles

variable (files : HostFiles)

def setFile (path : Text) (file : HostFile) : HostFiles :=
  { files with file := Function.update files.file path (some file) }

/-- A change of the file at the path, if there is one. -/
def editFile (path : Text) (change : HostFile → HostFile) : HostFiles :=
  { files with file := Function.update files.file path ((files.file path).map change) }

def editDir (path : Text) (change : HostDir → HostDir) : HostFiles :=
  { files with dir := Function.update files.dir path ((files.dir path).map change) }

/-- The bits of a mode that the mask lets through. -/
def masked (mode : Nat) : Nat := mode &&& (0o7777 ^^^ files.umask)

/-- What opening a file for writing leaves: an old file keeps its mode and its owner. -/
def opened (path : Text) (mode : Nat) : HostFile :=
  match files.file path with
  | some file => { file with contents := [] }
  | none => { mode := files.masked mode, owner := rootOwner, contents := [] }

/-- Whose a file is when it is opened for writing. -/
def openedOwner (path : Text) : Owner :=
  match files.file path with
  | some file => file.owner
  | none => rootOwner

def append (path text : Text) : HostFiles :=
  files.editFile path fun file => { file with contents := file.contents ++ text }

/-- A mode for a path, be it a directory or a file. -/
def setMode (path : Text) (mode : Nat) : HostFiles :=
  if (files.dir path).isSome then files.editDir path ({ · with mode })
  else files.editFile path ({ · with mode })

def setOwner (path : Text) (owner : Owner) : HostFiles :=
  if (files.dir path).isSome then files.editDir path ({ · with owner })
  else files.editFile path ({ · with owner })

end HostFiles

/-- The answers of the host. Commands leave the files as they are: the only one that the SSH
parts run prints a configuration. A stat that fails finds nothing, whatever its error, and a
write that fails may have written a front of its text. -/
def HostStep : (request : HostRequest) → HostFiles → request.Reply → HostFiles → Prop
  | .metadata path, before, .ok isDirectory, after =>
      after = before ∧
        if isDirectory then (before.dir path).isSome = true
        else (before.file path).isSome = true ∧ before.dir path = none
  | .metadata path, before, .error _, after =>
      after = before ∧ before.file path = none ∧ before.dir path = none
  | .createDirAll path mode, before, .ok (), after =>
      ∃ dirs, after = { before with dir := dirs } ∧ (dirs path).isSome = true ∧
        (∀ dir, before.dir path = some dir → dirs path = some dir) ∧
        (before.dir path = none →
          dirs path = some { mode := before.masked mode, owner := rootOwner })
  | .createDirAll _ _, before, .error _, after => ∃ dirs, after = { before with dir := dirs }
  | .setPermissions path mode, before, .ok (), after => after = before.setMode path mode
  | .chown path owner, before, .ok (), after => after = before.setOwner path owner
  | .createFile path mode, before, .ok (), after =>
      before.dir path = none ∧ after = before.setFile path (before.opened path mode)
  | .openTruncate path, before, .ok (), after =>
      after = before.editFile path ({ · with contents := [] })
  | .readToString path, before, .ok text, after =>
      after = before ∧ (before.file path).map (·.contents) = some text
  | .writeAll path text, before, .ok (), after => after = before.append path text
  | .writeAll path text, before, .error _, after =>
      ∃ front, front <+: text ∧ after = before.append path front
  | _, before, _, after => after = before

/-- A host without faults, on which all commands succeed and print the same. -/
def HostRequest.perform (account : SshUser) (stdout : Text) :
    (request : HostRequest) → HostFiles → request.Reply × HostFiles
  | .output _, files => (.ok { status := { code := 0 }, stdout }, files)
  | .spawn _, files => (.ok (), files)
  | .writeStdin _, files => (.ok (), files)
  | .wait, files => (.ok { code := 0 }, files)
  | .getUserByName _, files => (.ok account, files)
  | .metadata path, files =>
      if (files.dir path).isSome then (.ok true, files)
      else if (files.file path).isSome then (.ok false, files)
      else (.error { kind := .notFound }, files)
  | .createDirAll path mode, files =>
      match files.dir path with
      | some _ => (.ok (), files)
      | none => (.ok (), { files with
          dir := Function.update files.dir path
            (some { mode := files.masked mode, owner := rootOwner }) })
  | .setPermissions path mode, files => (.ok (), files.setMode path mode)
  | .chown path owner, files => (.ok (), files.setOwner path owner)
  | .createFile path mode, files =>
      if (files.dir path).isSome then (.error { kind := .other }, files)
      else (.ok (), files.setFile path (files.opened path mode))
  | .openTruncate path, files => (.ok (), files.editFile path ({ · with contents := [] }))
  | .openAppend _, files => (.ok (), files)
  | .openRead _, files => (.ok (), files)
  | .readToString path, files =>
      match files.file path with
      | some file => (.ok file.contents, files)
      | none => (.error { kind := .notFound }, files)
  | .writeAll path text, files => (.ok (), files.append path text)

/-- Such a host answers as a host may. -/
theorem hostStep_perform (account : SshUser) (stdout : Text) (request : HostRequest)
    (files : HostFiles) :
    HostStep request files (request.perform account stdout files).1
      (request.perform account stdout files).2 := by
  cases request with
  | metadata path =>
      cases dir : files.dir path with
      | some found => simp [HostRequest.perform, dir, HostStep]
      | none =>
          cases file : files.file path with
          | some found => simp [HostRequest.perform, dir, file, HostStep]
          | none => simp [HostRequest.perform, dir, file, HostStep]
  | createDirAll path mode =>
      cases dir : files.dir path with
      | some found =>
          simp only [HostRequest.perform, dir, HostStep]
          exact ⟨files.dir, rfl, by simp [dir], fun other same => by rw [dir, same], nofun⟩
      | none =>
          simp only [HostRequest.perform, dir, HostStep]
          exact ⟨_, rfl, by simp, nofun, by simp⟩
  | createFile path mode =>
      cases dir : files.dir path with
      | some found => simp [HostRequest.perform, dir, HostStep]
      | none => simp [HostRequest.perform, dir, HostStep]
  | readToString path =>
      cases file : files.file path with
      | some found => simp [HostRequest.perform, file, HostStep]
      | none => simp [HostRequest.perform, file, HostStep]
  | _ => rfl

/-! ## What the changes of the files leave -/

namespace HostFiles

variable (files : HostFiles) (path : Text)

@[simp] theorem setFile_file_self (file : HostFile) :
    (files.setFile path file).file path = some file := by
  simp [setFile]

@[simp] theorem setFile_file_of_ne {other : Text} (different : other ≠ path) (file : HostFile) :
    (files.setFile path file).file other = files.file other := by
  simp [setFile, different]

@[simp] theorem setFile_dir (file : HostFile) : (files.setFile path file).dir = files.dir := rfl

@[simp] theorem editFile_file_self (change : HostFile → HostFile) :
    (files.editFile path change).file path = (files.file path).map change := by
  simp [editFile]

@[simp] theorem editFile_file_of_ne {other : Text} (different : other ≠ path)
    (change : HostFile → HostFile) :
    (files.editFile path change).file other = files.file other := by
  simp [editFile, different]

@[simp] theorem editFile_dir (change : HostFile → HostFile) :
    (files.editFile path change).dir = files.dir := rfl

@[simp] theorem editDir_file (change : HostDir → HostDir) :
    (files.editDir path change).file = files.file := rfl

@[simp] theorem editDir_dir_self (change : HostDir → HostDir) :
    (files.editDir path change).dir path = (files.dir path).map change := by
  simp [editDir]

@[simp] theorem editDir_dir_of_ne {other : Text} (different : other ≠ path)
    (change : HostDir → HostDir) :
    (files.editDir path change).dir other = files.dir other := by
  simp [editDir, different]

@[simp] theorem append_dir (text : Text) : (files.append path text).dir = files.dir := rfl

@[simp] theorem opened_contents (mode : Nat) : (files.opened path mode).contents = [] := by
  unfold opened
  split <;> rfl

@[simp] theorem opened_owner (mode : Nat) :
    (files.opened path mode).owner = files.openedOwner path := by
  unfold opened openedOwner
  split <;> rfl

theorem openedOwner_congr {others : HostFiles} (same : files.file = others.file) :
    files.openedOwner path = others.openedOwner path := by
  unfold openedOwner
  rw [same]

variable {files path}

theorem setMode_of_dir (there : (files.dir path).isSome = true) (mode : Nat) :
    files.setMode path mode = files.editDir path ({ · with mode }) :=
  if_pos there

theorem setMode_of_file (noDir : files.dir path = none) (mode : Nat) :
    files.setMode path mode = files.editFile path ({ · with mode }) :=
  if_neg (by simp [noDir])

theorem setOwner_of_dir (there : (files.dir path).isSome = true) (owner : Owner) :
    files.setOwner path owner = files.editDir path ({ · with owner }) :=
  if_pos there

theorem setOwner_of_file (noDir : files.dir path = none) (owner : Owner) :
    files.setOwner path owner = files.editFile path ({ · with owner }) :=
  if_neg (by simp [noDir])

end HostFiles

end AzureInit.Provision
