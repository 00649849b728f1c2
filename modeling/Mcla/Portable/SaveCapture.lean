import Mcla.Library.Interruptible

/-! # Save snapshots of a portable session

`mcla_portable_launcher`: `CaptureSave` keeps a copy of the profile in the `saves` directory
of a session whenever the save or its header has changed.  A copy is made under a partial
name, read back, and published by a rename; old ones are pruned.

A moment is a step of the launcher: the game may change the profile between any two.
-/
namespace Mcla.Portable
open Interruptible

/-- A `std::string`. -/
abbrev Bytes := List UInt8

/-- The bytes of a string literal. -/
def literal (s : String) : Bytes := s.toUTF8.data.toList

def kMaximumSaveEntries : Nat := 4096
def kMaximumSaveBytes : Nat := 512 * 1024 * 1024
def kMaximumSnapshotsPerSession : Nat := 32

/-- A relative path, by its components. -/
abbrev Path := List Bytes

/-- The save, below the profile directory. -/
def savePath : Path :=
  [literal "545407F8", literal "00000001", literal "mc4.sav", literal "mc4.sav"]

/-- The header of the save, below the profile directory. -/
def headerPath : Path :=
  [literal "545407F8", literal "Headers", literal "00000001", literal "mc4.sav.header"]

/-- `SafeRelative`. -/
def safeRelative (path : Path) : Bool :=
  !path.isEmpty && path.all fun component =>
    component != literal ".." && component != literal "." && !component.isEmpty

/-- What an entry of a directory is. -/
inductive EntryKind where
  | directory
  | file (size : Nat)
  | other
deriving DecidableEq

/-- What the walk of a profile meets. -/
structure Listed where
  path : Path
  kind : EntryKind
  reparse : Bool

/-- The hashes of a save that was captured. -/
structure SaveState where
  (saveHash headerHash : Bytes)
deriving DecidableEq

/-- A directory in `saves`: the first digits of a save hash, and `.partial` while it is being
made. -/
structure SnapshotDir where
  name : Bytes
  isPartial : Bool
  profile : List (Path × Bytes)
  manifest : Option Bytes
  written : Nat

/-- What a call meets outside the launcher. -/
structure Host where
  /-- The regular files of the profile that can be read at a moment. -/
  user : Nat → Path → Option Bytes
  /-- What the walk of the profile lists: an error ends it. -/
  walk : List Listed
  /-- The name of the snapshot can be looked up. -/
  looksUp : Bool
  /-- The files of the copy can be read. -/
  readsBack : Bool
  utcStamp : Bytes
  /-- The write time that a directory gets. -/
  written : Nat
  /-- `std::sort` by write time, the latest first: the order of equal times is open. -/
  arrange : List SnapshotDir → List SnapshotDir
  arrange_perm : ∀ entries, (arrange entries).Perm entries
  arrange_sorted : ∀ entries, (arrange entries).Pairwise fun a b => b.written ≤ a.written

/-- The `saves` directory of a session, and what the launcher remembers of it. -/
structure SaveWorld where
  now : Nat
  saves : List SnapshotDir
  last : Option SaveState
  snapshotCount : Nat

/-- A program over the disk. -/
abbrev SaveProgram (α : Type) : Type := Program SaveWorld String α

/-! ## Files -/

def SnapshotDir.is (d : SnapshotDir) (name : Bytes) (isPartial : Bool) : Bool :=
  d.name == name && d.isPartial == isPartial

/-- A file of the copied profile. -/
def SnapshotDir.file (d : SnapshotDir) (path : Path) : Option Bytes :=
  (d.profile.find? (·.1 == path)).map (·.2)

/-- The snapshot of this name. -/
def SaveWorld.find (w : SaveWorld) (name : Bytes) (isPartial : Bool) : Option SnapshotDir :=
  w.saves.find? (·.is name isPartial)

/-- The snapshot of this name changes. -/
def SaveWorld.modify (w : SaveWorld) (name : Bytes) (isPartial : Bool)
    (f : SnapshotDir → SnapshotDir) : SaveWorld :=
  { w with saves := w.saves.map fun d => if d.is name isPartial then f d else d }

/-- The snapshot of this name goes. -/
def SaveWorld.erase (w : SaveWorld) (name : Bytes) (isPartial : Bool) : SaveWorld :=
  { w with saves := w.saves.filter fun d => !d.is name isPartial }

/-- The clock goes on. -/
def SaveWorld.tick (w : SaveWorld) : SaveWorld := { w with now := w.now + 1 }

/-- A step takes a moment. -/
def step {α : Type} (f : SaveWorld → Except String α × SaveWorld) : SaveProgram α :=
  Program.act fun w => ((f w).1, (f w).2.tick)

/-- A step that cannot fail. -/
def change (f : SaveWorld → SaveWorld) : SaveProgram Unit := step fun w => (.ok (), f w)

/-- A regular file of the user's profile. -/
def userFile (host : Host) (w : SaveWorld) (path : Path) : Option Bytes := host.user w.now path

/-- A regular file of a copy. -/
def copiedFile (host : Host) (name : Bytes) (w : SaveWorld) (path : Path) : Option Bytes :=
  if host.readsBack then (w.find name true).bind (·.file path) else none

section
variable (digest : Bytes → Bytes)

/-- A digit of a hash: uppercase. -/
def hexDigit (n : Nat) : UInt8 := UInt8.ofNat (if n < 10 then 48 + n else 55 + n)

/-- `Sha256`, over the digest of the system. -/
def sha256 (bytes : Bytes) : Bytes :=
  (digest bytes).flatMap fun byte => [hexDigit (byte.toNat / 16), hexDigit (byte.toNat % 16)]

/-- `ReadSaveState`, of a profile whose files `fileIn` gives. -/
def readSaveState (fileIn : SaveWorld → Path → Option Bytes) : SaveProgram (Option SaveState) := do
  let save ← Program.observe fun w => ((fileIn w savePath).isSome, w.tick)
  if save then do
    let header ← Program.observe fun w => ((fileIn w headerPath).isSome, w.tick)
    if header then do
      let saveHash ← Program.observe fun w => ((fileIn w savePath).map (sha256 digest), w.tick)
      let headerHash ← Program.observe fun w => ((fileIn w headerPath).map (sha256 digest), w.tick)
      pure (saveHash.bind fun save => headerHash.map fun header => ⟨save, header⟩)
    else pure none
  else pure none

/-! ## `CopyProfileTree` and `PruneDirectories` -/

/-- `create_directories` of the copy. -/
def createPartial (host : Host) (name : Bytes) : SaveProgram Unit :=
  change fun w =>
    if (w.find name true).isSome then w
    else { w with saves := w.saves ++ [⟨name, true, [], none, host.written⟩] }

/-- `copy_file` into the copy. -/
def copyFile (host : Host) (name : Bytes) (path : Path) : SaveProgram Unit :=
  step fun w =>
    match host.user w.now path with
    | none => (.error "the file cannot be read", w)
    | some content =>
        (.ok (), w.modify name true fun d =>
          { d with profile := (path, content) :: d.profile.filter (·.1 != path) })

/-- The loop of `CopyProfileTree`, after some entries and bytes. -/
def copyEntries (host : Host) (name : Bytes) : List Listed → Nat → Nat → SaveProgram Unit
  | [], _, _ => pure ()
  | entry :: rest, entries, bytes => do
      Program.refuseIf (entries + 1 > kMaximumSaveEntries ∨ entry.reparse = true)
        "save snapshot source is unreadable, too large, or contains a reparse point"
      Program.refuseIf (safeRelative entry.path = false) "save snapshot relative path is unsafe"
      match entry.kind with
      | .directory => do
          Program.handle (change id) fun e => Program.fail ("cannot copy save snapshot: " ++ e)
          copyEntries host name rest (entries + 1) bytes
      | .file size => do
          Program.refuseIf (size > kMaximumSaveBytes - bytes)
            "save snapshot exceeds the byte bound"
          Program.handle (copyFile host name entry.path) fun e =>
            Program.fail ("cannot copy save snapshot: " ++ e)
          copyEntries host name rest (entries + 1) (bytes + size)
      | .other => copyEntries host name rest (entries + 1) bytes

/-- `CopyProfileTree`. -/
def copyProfileTree (host : Host) (name : Bytes) : SaveProgram Unit := do
  Program.handle (createPartial host name) fun e =>
    Program.fail ("cannot create save snapshot root: " ++ e)
  copyEntries host name host.walk 0 0

/-- The files of a directory, removed one by one. -/
def removeFiles (host : Host) (name : Bytes) (isPartial : Bool) : List Path → SaveProgram Unit
  | [] => pure ()
  | path :: rest => do
      change fun w => w.modify name isPartial fun d =>
        { d with profile := d.profile.filter (·.1 != path), written := host.written }
      removeFiles host name isPartial rest

/-- `remove_all` of a directory. -/
def removeAll (host : Host) (name : Bytes) (isPartial : Bool) : SaveProgram Unit := do
  let w ← Program.get
  match w.find name isPartial with
  | none => pure ()
  | some d => do
      removeFiles host name isPartial (d.profile.map Prod.fst)
      change fun w => w.modify name isPartial fun d =>
        { d with manifest := none, written := host.written }
      change fun w => w.erase name isPartial

/-- The removals of `PruneDirectories`. -/
def removeEach (host : Host) : List SnapshotDir → SaveProgram Unit
  | [] => pure ()
  | d :: rest => do
      let _ ← Program.attempt (removeAll host d.name false)
      removeEach host rest

/-- `PruneDirectories`. -/
def pruneDirectories (host : Host) (keep : Nat) : SaveProgram Unit := do
  let listed ← Program.attempt (step fun w => (.ok (w.saves.filter fun d => !d.isPartial), w))
  removeEach host ((host.arrange (listed.getD [])).drop keep)

/-! ## `CaptureSave` -/

/-- `JsonEscape`. -/
def jsonEscape (value : Bytes) : Bytes :=
  value.flatMap fun c =>
    if c = 92 then literal "\\\\"
    else if c = 34 then literal "\\\""
    else if c = 10 then literal "\\n"
    else if c = 13 then literal "\\r"
    else if c = 9 then literal "\\t"
    else if c.toNat < 32 then literal "\\u00" ++
      [UInt8.ofNat (48 + c.toNat / 16),
        UInt8.ofNat (if c.toNat % 16 < 10 then 48 + c.toNat % 16 else 87 + c.toNat % 16)]
    else [c]

/-- The text of `snapshot.json`. -/
def snapshotManifest (host : Host) (reason : Bytes) (copied : SaveState) : Bytes :=
  literal "\x7b\n  \"schema\": \"mcla-portable-save-snapshot-v1\",\n  \"captured_utc\": \"" ++
    host.utcStamp ++ literal "\",\n  \"reason\": \"" ++ jsonEscape reason ++
    literal "\",\n  \"save_sha256\": \"" ++ copied.saveHash ++
    literal "\",\n  \"header_sha256\": \"" ++ copied.headerHash ++
    literal "\",\n  \"complete_profile_tree\": true\n\x7d\n"

/-- The rename of a copy to its own name, which must be free. -/
def renameSnapshot (name : Bytes) : SaveProgram Unit :=
  step fun w =>
    if (w.find name false).isSome then
      (.error "atomic directory rename failed (win32=183)", w)
    else
      match w.find name true with
      | none => (.error "atomic directory rename failed (win32=2)", w)
      | some d =>
          (.ok (), { w.erase name true with
            saves := (w.erase name true).saves ++ [{ d with isPartial := false }] })

/-- The name of the snapshot of a state. -/
def snapshotName (state : SaveState) : Bytes := state.saveHash.take 16

/-- `remove_all` whose error is ignored. -/
def discard (host : Host) (name : Bytes) : SaveProgram Unit := do
  let _ ← Program.attempt (removeAll host name true)
  pure ()

/-- The end of `CaptureSave`, for a copy that is complete. -/
def publishSnapshot (host : Host) (reason name : Bytes) (copied : SaveState) :
    SaveProgram Unit := do
  Program.handle
    (change fun w => w.modify name true fun d =>
      { d with manifest := some (snapshotManifest host reason copied), written := host.written })
    fun _ => do
      discard host name
      Program.fail "cannot write save snapshot manifest"
  Program.handle (renameSnapshot name) fun e =>
    Program.fail ("cannot atomically publish save snapshot: " ++ e)
  Program.assign fun w =>
    { w with last := some copied, snapshotCount := w.snapshotCount + 1 }
  pruneDirectories host kMaximumSnapshotsPerSession

/-- The middle of `CaptureSave`: a state that has no snapshot yet is copied. -/
def copySnapshot (host : Host) (reason : Bytes) (before : SaveState) : SaveProgram Unit := do
  let name := snapshotName before
  discard host name
  Program.handle (copyProfileTree host name) fun e => do
    discard host name
    Program.fail e
  let after ← readSaveState digest (userFile host)
  let copied ← readSaveState digest (copiedFile host name)
  if after = some before ∧ copied = some before then publishSnapshot host reason name before
  else discard host name

/-- `CaptureSave`. -/
def captureSave (host : Host) (reason : Bytes) : SaveProgram Unit := do
  let before ← readSaveState digest (userFile host)
  match before with
  | none => pure ()
  | some before => do
      let w ← Program.get
      if w.last = some before then pure ()
      else do
        Program.handle (change id) fun e =>
          Program.fail ("cannot create saves directory: " ++ e)
        let completed ← Program.observe fun w =>
          (host.looksUp && (w.find (snapshotName before) false).isSome, w.tick)
        if completed then Program.assign fun w => { w with last := some before }
        else copySnapshot digest host reason before

end

end Mcla.Portable
