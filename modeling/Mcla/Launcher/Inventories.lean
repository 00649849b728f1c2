import Mcla.Launcher.BuildManifest
import Mcla.Launcher.ChildEnvironment
import Mcla.Library.Correspondence

/-! # The inventories of a build and of a game

`VerifyInventory` of `mcla_launcher_build_win`, and `ValidateExpected` and `Inventory` of
`mcla_launcher_game_win`: what is on disk is exactly what is listed.  Both go over the entries, and
the count at the end decides that nothing is missing.

Names are compared by `CompareStringOrdinal`, which has the system's table of upper-case forms.
Where the system says why an enumeration failed, its code is left out of the text.
-/
namespace Mcla.Launcher.Inventories
open NestedRecorder (need need_ok bind_ok pure_ok)
open ChildEnvironment (CaseTable)
open Correspondence
open List

variable (t : CaseTable)

/-- `OrdinalEqual`, `Equal` -/
def ordinalEqual (a b : Utf16) : Bool := a.length == b.length && t.folded a == t.folded b

variable {t}

theorem ordinalEqual_iff {a b : Utf16} : ordinalEqual t a b = true ↔ t.folded a = t.folded b := by
  rw [ordinalEqual, Bool.and_eq_true, beq_iff_eq, beq_iff_eq]
  constructor
  · exact And.right
  · intro h
    have hlength := congrArg List.length h
    rw [CaseTable.folded, CaseTable.folded, length_map, length_map] at hlength
    exact ⟨hlength, h⟩

variable (t)

/-- What an enumeration says of an entry. -/
structure Found where
  name : Utf16
  (isDirectory isReparse : Bool)

/-- The names that every directory has for itself and for the one above. -/
def isDot (name : Utf16) : Bool := name == u "." || name == u ".."

/-! ### The build -/

def kDeveloperBuildManifest : Utf16 := u "mcla-build.manifest"

/-- What a build directory may hold. -/
def buildRules (files : List Build.VerifiedBuildFile) : Rules Found Utf16 Utf16 where
  name := (·.name)
  alike := ordinalEqual t
  limit := Build.kMaximumFiles + 1
  barred := fun entry => entry.isDirectory || entry.isReparse
  allowed := fun entry => ordinalEqual t entry.name kDeveloperBuildManifest ||
    files.any fun file => ordinalEqual t entry.name file.name
  excessive := u "build inventory contains excessive, nested or redirected entries"
  aliased := u "build inventory contains case-aliased duplicates"
  unexpected := fun entry =>
    u "unexpected build file (including executables, DLLs or configuration): " ++ entry.name

/-- `VerifyInventory`, over what the enumeration finds. -/
def verifyInventory (files : List Build.VerifiedBuildFile) (entries : List Found) :
    Except Utf16 Unit := do
  let seen ← scan (buildRules t files) [] (entries.filter fun entry => !isDot entry.name)
  need (seen.length = files.length + 1) (u "build inventory is missing a listed artifact")

/-- The names a build directory must have, as they are compared. -/
def buildNames (files : List Build.VerifiedBuildFile) : List (List Nat) :=
  (kDeveloperBuildManifest :: files.map (·.name)).map t.folded

variable {t}

theorem folded_ascii {name : Bytes} (h : name.all (· < 128) = true) :
    t.folded (Build.widen name) =
      (Build.widen name).map fun c => (ChildEnvironment.asciiUpper c).toNat := by
  rw [CaseTable.folded]
  apply map_congr_left
  intro c hc
  obtain ⟨b, hb, rfl⟩ := mem_map.mp hc
  rw [t.ascii]
  have hlt := UInt8.lt_iff_toNat_lt.mp (of_decide_eq_true (all_eq_true.mp h b hb))
  have hbound : (128 : UInt8).toNat = 128 := rfl
  rw [UInt16.toNat_ofNat']
  omega

def buildManifestName : Bytes := Build.bytesOf "mcla-build.manifest"

set_option maxRecDepth 20000 in
/-- No two names of a build are the same but for their case. -/
theorem allowed_distinct :
    ((buildManifestName :: Build.kAllowedNames).map fun name =>
      (Build.widen name).map fun c => (ChildEnvironment.asciiUpper c).toNat).Nodup := by
  -- the length and the fifth unit tell them apart
  apply List.Nodup.of_map fun folded => (folded.length, folded[4]?)
  decide

set_option maxRecDepth 20000 in
theorem allowed_ascii : ∀ name ∈ buildManifestName :: Build.kAllowedNames,
    name.all (· < 128) = true := by decide

theorem buildNames_nodup {files : List Build.VerifiedBuildFile} (h : Build.Canonical files) :
    (buildNames t files).Nodup := by
  have hfolded : (buildManifestName :: Build.kAllowedNames).map
      (fun name => t.folded (Build.widen name)) =
        (buildManifestName :: Build.kAllowedNames).map fun name =>
          (Build.widen name).map fun c => (ChildEnvironment.asciiUpper c).toNat := by
    apply map_congr_left
    intro name hname
    exact folded_ascii (allowed_ascii name hname)
  have hnodup := allowed_distinct
  rw [← hfolded] at hnodup
  have hinj := inj_on_of_nodup_map hnodup
  have hwide : ∀ file ∈ files, file.name = Build.widen (Build.narrow file.name) ∧
      Build.narrow file.name ∈ Build.kAllowedNames := by
    intro file hfile
    obtain ⟨name, hallowed, hname⟩ := (h.shapes file hfile).name
    rw [hname, Build.narrow_widen]
    exact ⟨rfl, hallowed⟩
  have hnames : buildNames t files =
      (buildManifestName :: files.map fun file => Build.narrow file.name).map
        fun name => t.folded (Build.widen name) := by
    rw [buildNames, map_cons, map_cons, map_map, map_map]
    congr 1
    apply map_congr_left
    intro file hfile
    exact congrArg t.folded (hwide file hfile).1
  have hsub : ∀ name ∈ buildManifestName :: files.map fun file => Build.narrow file.name,
      name ∈ buildManifestName :: Build.kAllowedNames := by
    intro name hname
    rcases mem_cons.mp hname with rfl | hmem
    · exact mem_cons_self
    · obtain ⟨file, hfile, rfl⟩ := mem_map.mp hmem
      exact mem_cons_of_mem _ (hwide file hfile).2
  rw [hnames]
  apply List.Nodup.map_on
  · intro a ha b hb heq
    exact hinj (hsub a ha) (hsub b hb) heq
  · rw [nodup_cons]
    constructor
    · intro hmem
      obtain ⟨file, hfile, heq⟩ := mem_map.mp hmem
      have hallowed := (hwide file hfile).2
      rw [heq] at hallowed
      revert hallowed
      decide
    · exact h.sorted.imp fun hlt heq => absurd (heq ▸ hlt) (List.lt_irrefl _)

/-- A build directory passes exactly if its entries are the listed files and the manifest, each of
them once, whatever the case of their names, and plain files. -/
theorem verifyInventory_ok {files : List Build.VerifiedBuildFile} (h : Build.Canonical files)
    {entries : List Found} : verifyInventory t files entries = .ok () ↔
      (∀ entry ∈ entries.filter fun entry => !isDot entry.name,
        entry.isDirectory = false ∧ entry.isReparse = false) ∧
      ((entries.filter fun entry => !isDot entry.name).map fun entry =>
        t.folded entry.name).Perm (buildNames t files) := by
  have halike : ∀ a b, (buildRules t files).alike a b = true ↔ t.folded a = t.folded b :=
    fun _ _ => ordinalEqual_iff
  have hnil : (([] : List Utf16).map t.folded).Nodup := nodup_nil
  have hallowed : ∀ entry : Found, (buildRules t files).allowed entry = true ↔
      t.folded entry.name ∈ buildNames t files := by
    intro entry
    rw [buildNames, map_cons, mem_cons, map_map, mem_map]
    show (ordinalEqual t entry.name kDeveloperBuildManifest ||
      files.any fun file => ordinalEqual t entry.name file.name) = true ↔ _
    rw [Bool.or_eq_true, ordinalEqual_iff, any_eq_true]
    refine or_congr_right ⟨?_, ?_⟩
    · rintro ⟨file, hfile, heq⟩
      exact ⟨file, hfile, (ordinalEqual_iff.mp heq).symm⟩
    · rintro ⟨file, hfile, heq⟩
      exact ⟨file, hfile, ordinalEqual_iff.mpr heq.symm⟩
  have hbarred : ∀ entry : Found, (buildRules t files).barred entry = false ↔
      entry.isDirectory = false ∧ entry.isReparse = false := fun entry => Bool.or_eq_false_iff
  generalize hfound : entries.filter (fun entry => !isDot entry.name) = found
  have hmap : ([] ++ found.map (buildRules t files).name).map t.folded =
      found.map fun entry => t.folded entry.name := by
    rw [nil_append, map_map]
    rfl
  have hlength : (buildNames t files).length = files.length + 1 := by
    rw [buildNames, length_map, length_cons, length_map]
  rw [perm_iff (buildNames_nodup h), length_map, hlength]
  simp only [verifyInventory, bind_ok, need_ok, hfound, scan_ok halike hnil, hmap,
    hallowed, hbarred]
  constructor
  · rintro ⟨seen, ⟨rfl, hnodup, hfits, -⟩, hcount⟩
    refine ⟨fun entry hentry => (hfits entry hentry).1, hnodup, ?_, ?_⟩
    · intro key hkey
      obtain ⟨entry, hentry, rfl⟩ := mem_map.mp hkey
      exact (hfits entry hentry).2
    · rw [nil_append, length_map] at hcount
      exact hcount
  · rintro ⟨hplain, hnodup, hmem, hcount⟩
    refine ⟨_, ⟨rfl, hnodup, fun entry hentry => ⟨hplain entry hentry,
      hmem _ (mem_map_of_mem hentry)⟩, .inr ?_⟩, ?_⟩
    · have hfiles := h.count
      show 0 + found.length ≤ Build.kMaximumFiles + 1
      omega
    · rw [nil_append, length_map]
      exact hcount

/-! ### What a game is expected to have -/

def kFileLimit : UInt64 := 2 * 1024 * 1024 * 1024
def kTotalLimit : UInt64 := 8 * 1024 * 1024 * 1024
def kCountLimit : Nat := 64

/-- One file of the game that a list names. -/
structure VerifiedGameFile where
  relative_path : Utf16
  bytes : UInt64
  sha256 : Bytes

/-- `HashShape` -/
def hashShape (text : Bytes) : Bool := text.length == 64 && text.all Build.upperHex

/-- What stands before each slash of a path, from the left. -/
def parentsFrom (before : Utf16) : Utf16 → List Utf16
  | [] => []
  | c :: rest =>
    if c = 47 then before :: parentsFrom (before ++ [c]) rest
    else parentsFrom (before ++ [c]) rest

/-- The directories above a path. -/
def parents (path : Utf16) : List Utf16 := parentsFrom [] path

variable (t)

/-- The loop over the slashes of a path. -/
def addParents (directories : List Utf16) : Nat → List Utf16 → Except Utf16 (List Utf16)
  | _, [] => .ok directories
  | depth, parent :: rest =>
    if 8 < depth + 1 then .error (u "expected game path nesting exceeds bound")
    else if directories.any (ordinalEqual t · parent) then addParents directories (depth + 1) rest
    else if 128 ≤ directories.length then
      .error (u "expected game directory count exceeds bound")
    else addParents (directories ++ [parent]) (depth + 1) rest

/-- The loop over the files. -/
def expectFiles (before : List VerifiedGameFile) (directories : List Utf16) (total : UInt64) :
    List VerifiedGameFile → Except Utf16 (List Utf16)
  | [] => .ok directories
  | file :: rest => do
    need (file.relative_path ≠ [] ∧ file.relative_path.length ≤ 256 ∧ 92 ∉ file.relative_path ∧
        (normalizeRoot (u "C:/" ++ file.relative_path)).isOk = true ∧ file.bytes ≠ 0 ∧
        file.bytes ≤ kFileLimit ∧ hashShape file.sha256 = true)
      (u "expected game path/size/hash invalid")
    need (file.bytes ≤ kTotalLimit - total) (u "expected game payload exceeds 8 GiB")
    need (before.any (fun prior => ordinalEqual t prior.relative_path file.relative_path) = false)
      (u "expected game paths alias/duplicate")
    let directories ← addParents t directories 0 (parents file.relative_path)
    expectFiles (before ++ [file]) directories (total + file.bytes) rest

/-- `ValidateExpected` -/
def validateExpected (files : List VerifiedGameFile) : Except Utf16 (List Utf16) := do
  need (files ≠ [] ∧ files.length ≤ kCountLimit) (u "expected game inventory count invalid")
  let directories ← expectFiles t [] [[]] 0 files
  need (∀ file ∈ files, ∀ dir ∈ directories, ordinalEqual t file.relative_path dir = false)
    (u "expected path cannot be both file and directory")
  return directories

/-! ### The tree of a game -/

/-- An entry of a tree, by the directory that holds it. -/
structure Entry where
  parent : Utf16
  found : Found

/-- `dir.empty() ? name : dir + L"/" + name` -/
def relative (dir name : Utf16) : Utf16 := if dir = [] then name else dir ++ 47 :: name

/-- The path of an entry. -/
def Entry.path (entry : Entry) : Utf16 := relative entry.parent entry.found.name

/-- A directory tree: every entry is held by the root or by a directory of the tree. -/
structure Tree where
  entries : List Entry
  dotted : Utf16 → Bool
  named : ∀ entry ∈ entries, entry.found.name ≠ [] ∧ isDot entry.found.name = false
  held : ∀ entry ∈ entries, entry.parent = [] ∨
    ∃ dir ∈ entries, dir.found.isDirectory = true ∧ dir.path = entry.parent

/-- What an enumeration finds in a directory, if there is one of this name.  The names are found
without regard to case.  Of two directories with one name the parent is refused before. -/
def Tree.enumerate (tree : Tree) (dir : Utf16) : Option (List Found) :=
  if dir = [] ∨ ∃ entry ∈ tree.entries,
      entry.found.isDirectory = true ∧ ordinalEqual t entry.path dir = true then
    some ((if tree.dotted dir then [⟨u ".", true, false⟩, ⟨u "..", true, false⟩] else []) ++
      (tree.entries.filter fun entry => ordinalEqual t entry.parent dir).map (·.found))
  else none

/-- What a game directory may hold.  An item stands with the directory that is gone over. -/
def gameRules (files : List VerifiedGameFile) (directories : List Utf16) :
    Rules (Utf16 × Found) Utf16 Utf16 where
  name := fun item => relative item.1 item.2.name
  alike := ordinalEqual t
  limit := files.length + directories.length - 1
  barred := fun item => item.2.isReparse
  allowed := fun item =>
    if item.2.isDirectory then
      directories.any fun expected => ordinalEqual t (relative item.1 item.2.name) expected
    else files.any fun expected =>
      ordinalEqual t (relative item.1 item.2.name) expected.relative_path
  excessive := u "game inventory has excessive or redirected entries"
  aliased := u "game inventory has case-aliased entries"
  unexpected := fun item =>
    u "unexpected game inventory entry: " ++ relative item.1 item.2.name

/-- The loop over the directories. -/
def inventoryFrom (tree : Tree) (r : Rules (Utf16 × Found) Utf16 Utf16) (seen : List Utf16) :
    List Utf16 → Except Utf16 (List Utf16)
  | [] => .ok seen
  | dir :: rest =>
    match tree.enumerate t dir with
    | none => .error (u "cannot enumerate game inventory")
    | some found => do
      let seen ← scan r seen ((found.filter fun entry => !isDot entry.name).map (dir, ·))
      inventoryFrom tree r seen rest

/-- `Inventory` -/
def inventory (tree : Tree) (files : List VerifiedGameFile) (directories : List Utf16) :
    Except Utf16 Unit := do
  let seen ← inventoryFrom t tree (gameRules t files directories) [] directories
  need (seen.length = files.length + directories.length - 1)
    (u "game inventory has missing entries")

/-! ### What a listing that passes says -/

/-- The files and the directories above them, up to case each of them once. -/
structure Expected (files : List VerifiedGameFile) (dirs : List Utf16) : Prop where
  complete : ∀ file ∈ files, ∀ parent ∈ parents file.relative_path,
    ∃ dir ∈ dirs, ordinalEqual t dir parent = true
  only : ∀ dir ∈ dirs, ∃ file ∈ files, dir ∈ parents file.relative_path
  nonempty : ∀ dir ∈ dirs, dir ≠ []
  distinct : ((files.map (·.relative_path) ++ dirs).map t.folded).Nodup

variable {t}

theorem folded_eq_nil {name : Utf16} : t.folded name = t.folded [] ↔ name = [] := by
  constructor
  · exact fun h => map_eq_nil_iff.mp h
  · rintro rfl
    rfl

theorem parentsFrom_ne_nil {before rest : Utf16} (h : before ≠ []) :
    ∀ parent ∈ parentsFrom before rest, parent ≠ [] := by
  induction rest generalizing before with
  | nil => exact forall_mem_nil _
  | cons c rest ih =>
    have hnext : ∀ parent ∈ parentsFrom (before ++ [c]) rest, parent ≠ [] := ih (by simp)
    rw [parentsFrom]
    split
    · exact forall_mem_cons.mpr ⟨h, hnext⟩
    · exact hnext

theorem parents_ne_nil {path : Utf16} (h : path.head? ≠ some 47) :
    ∀ parent ∈ parents path, parent ≠ [] := by
  cases path with
  | nil => exact forall_mem_nil _
  | cons c rest =>
    rw [parents, parentsFrom, if_neg (fun hc => h (congrArg some hc))]
    exact parentsFrom_ne_nil (by simp)

/-- A root with nothing before a slash is refused. -/
theorem head_of_normalizeRoot {path : Utf16}
    (h : (normalizeRoot (u "C:/" ++ path)).isOk = true) : path.head? ≠ some 47 := by
  intro hhead
  cases path with
  | nil => cases hhead
  | cons c rest =>
    cases hhead
    have hany : (((u "C:/" ++ 47 :: rest).map normalUnit).drop 3).splitOn 47 |>.any
        componentRejected := by
      have hdrop : ((u "C:/" ++ 47 :: rest).map normalUnit).drop 3 = 47 :: rest.map normalUnit :=
        rfl
      rw [hdrop, splitOn_eq_splitOnP, splitOnP_cons_eq_if_modifyHead]
      rfl
    unfold normalizeRoot at h
    rw [hany] at h
    split at h <;> cases h

theorem addParents_ok {directories directories' : List Utf16} {depth : Nat} {path : List Utf16}
    (h : addParents t directories depth path = .ok directories') :
    ∃ new, directories' = directories ++ new ∧ (∀ dir ∈ new, dir ∈ path) ∧
      (∀ parent ∈ path, t.folded parent ∈ directories'.map t.folded) ∧
      ((directories.map t.folded).Nodup → (directories'.map t.folded).Nodup) := by
  induction path generalizing directories depth with
  | nil =>
    rw [addParents] at h
    cases h
    exact ⟨[], (append_nil _).symm, forall_mem_nil _, forall_mem_nil _, id⟩
  | cons parent rest ih =>
    rw [addParents] at h
    split_ifs at h with hdepth hknown hroom
    · obtain ⟨new, rfl, honly, hcomplete, hnodup⟩ := ih h
      refine ⟨new, rfl, fun dir hdir => mem_cons_of_mem _ (honly dir hdir), ?_, hnodup⟩
      refine forall_mem_cons.mpr ⟨?_, hcomplete⟩
      obtain ⟨dir, hdir, heq⟩ := any_eq_true.mp hknown
      rw [← ordinalEqual_iff.mp heq]
      exact mem_map_of_mem (mem_append_left _ hdir)
    · obtain ⟨new, rfl, honly, hcomplete, hnodup⟩ := ih h
      refine ⟨parent :: new, by simp, ?_, ?_, ?_⟩
      · rintro dir hdir
        rcases mem_cons.mp hdir with rfl | hmem
        · exact mem_cons_self
        · exact mem_cons_of_mem _ (honly dir hmem)
      · refine forall_mem_cons.mpr ⟨?_, hcomplete⟩
        exact mem_map_of_mem (mem_append_left _ (mem_append_right _
          mem_cons_self))
      · intro hold
        apply hnodup
        rw [map_append, map_singleton, ← concat_eq_append]
        refine List.Nodup.concat (fun hmem => ?_) hold
        obtain ⟨dir, hdir, heq⟩ := mem_map.mp hmem
        exact hknown (any_eq_true.mpr ⟨dir, hdir, ordinalEqual_iff.mpr heq⟩)

theorem expectFiles_ok {before files : List VerifiedGameFile} {directories directories' : List Utf16}
    {total : UInt64} (h : expectFiles t before directories total files = .ok directories') :
    ∃ new, directories' = directories ++ new ∧
      (∀ dir ∈ new, ∃ file ∈ files, dir ∈ parents file.relative_path) ∧
      (∀ file ∈ files, ∀ parent ∈ parents file.relative_path, parent ≠ [] ∧
        t.folded parent ∈ directories'.map t.folded) ∧
      ((directories.map t.folded).Nodup → (directories'.map t.folded).Nodup) ∧
      ((before.map fun file => t.folded file.relative_path).Nodup →
        ((before ++ files).map fun file => t.folded file.relative_path).Nodup) := by
  induction files generalizing before directories total with
  | nil =>
    rw [expectFiles] at h
    cases h
    refine ⟨[], (append_nil _).symm, forall_mem_nil _, forall_mem_nil _, id, ?_⟩
    rw [append_nil]
    exact id
  | cons file rest ih =>
    simp only [expectFiles, bind_ok, need_ok, exists_const] at h
    obtain ⟨⟨-, -, -, hroot, -⟩, -, hnew, next, hparents, hrest⟩ := h
    obtain ⟨added, rfl, haddedOnly, haddedComplete, haddedNodup⟩ := addParents_ok hparents
    obtain ⟨new, rfl, honly, hcomplete, hnodup, hfiles⟩ := ih hrest
    refine ⟨added ++ new, append_assoc _ _ _, ?_, ?_, fun hold => hnodup (haddedNodup hold), ?_⟩
    · intro dir hdir
      rcases mem_append.mp hdir with hmem | hmem
      · exact ⟨file, mem_cons_self, haddedOnly dir hmem⟩
      · obtain ⟨other, hother, hin⟩ := honly dir hmem
        exact ⟨other, mem_cons_of_mem _ hother, hin⟩
    · refine forall_mem_cons.mpr ⟨fun parent hparent => ⟨?_, ?_⟩, hcomplete⟩
      · exact parents_ne_nil (head_of_normalizeRoot hroot) parent hparent
      · rw [map_append]
        exact mem_append_left _ (haddedComplete parent hparent)
    · intro hold
      have hsnoc : ((before ++ [file]).map fun file => t.folded file.relative_path).Nodup := by
        rw [map_append, map_singleton, ← concat_eq_append]
        refine List.Nodup.concat (fun hmem => ?_) hold
        obtain ⟨prior, hprior, heq⟩ := mem_map.mp hmem
        have hsame : before.any (fun prior => ordinalEqual t prior.relative_path
            file.relative_path) = true :=
          any_eq_true.mpr ⟨prior, hprior, ordinalEqual_iff.mpr heq⟩
        rw [hsame] at hnew
        cases hnew
      have := hfiles hsnoc
      rwa [append_assoc, singleton_append] at this

/-- A listing that passes gives the root and the directories above its files. -/
theorem validateExpected_ok {files : List VerifiedGameFile} {directories : List Utf16}
    (h : validateExpected t files = .ok directories) :
    ∃ dirs, directories = [] :: dirs ∧ Expected t files dirs := by
  simp only [validateExpected, bind_ok, need_ok, pure_ok, exists_const] at h
  obtain ⟨-, _, hfiles, hdisjoint, rfl⟩ := h
  obtain ⟨dirs, rfl, honly, hcomplete, hnodup, hdistinct⟩ := expectFiles_ok hfiles
  have hdirs : (([] :: dirs).map t.folded).Nodup := hnodup (nodup_singleton _)
  rw [map_cons, nodup_cons] at hdirs
  have hnonempty : ∀ dir ∈ dirs, dir ≠ [] := by
    rintro dir hdir rfl
    exact hdirs.1 (mem_map_of_mem hdir)
  refine ⟨dirs, rfl, ?_, honly, hnonempty, ?_⟩
  · intro file hfile parent hparent
    obtain ⟨hne, hmem⟩ := hcomplete file hfile parent hparent
    obtain ⟨dir, hdir, heq⟩ := mem_map.mp hmem
    rcases mem_cons.mp hdir with rfl | hin
    · exact absurd (folded_eq_nil.mp heq.symm) hne
    · exact ⟨dir, hin, ordinalEqual_iff.mpr heq⟩
  · rw [map_append, map_map, nodup_append]
    refine ⟨hdistinct nodup_nil, hdirs.2, ?_⟩
    rintro a ha b hb rfl
    obtain ⟨file, hfile, rfl⟩ := mem_map.mp ha
    obtain ⟨dir, hdir, heq⟩ := mem_map.mp hb
    have hapart := hdisjoint file hfile dir (mem_cons_of_mem _ hdir)
    rw [ordinalEqual_iff.mpr heq.symm] at hapart
    cases hapart

/-! ### The inventory of a game -/

/-- An entry as it is compared: its path, and whether it is a directory. -/
def entryKey (t : CaseTable) (entry : Entry) : List Nat × Bool :=
  (t.folded entry.path, entry.found.isDirectory)

/-- What a game directory must have, as it is compared. -/
def expectedKeys (t : CaseTable) (files : List VerifiedGameFile) (dirs : List Utf16) :
    List (List Nat × Bool) :=
  files.map (fun file => (t.folded file.relative_path, false)) ++
    dirs.map fun dir => (t.folded dir, true)

theorem expectedKeys_fst (files : List VerifiedGameFile) (dirs : List Utf16) :
    (expectedKeys t files dirs).map Prod.fst =
      (files.map (·.relative_path) ++ dirs).map t.folded := by
  rw [expectedKeys, map_append, map_append, map_map, map_map, map_map]
  rfl

variable {dirs : List Utf16} {tree : Tree}

theorem Expected.keys_nodup {files : List VerifiedGameFile} (h : Expected t files dirs) :
    (expectedKeys t files dirs).Nodup := by
  apply List.Nodup.of_map Prod.fst
  rw [expectedKeys_fst]
  exact h.distinct

theorem folded_relative {a b : Utf16} (h : t.folded a = t.folded b) (name : Utf16) :
    t.folded (relative a name) = t.folded (relative b name) := by
  have hnil : a = [] ↔ b = [] := by
    rw [← folded_eq_nil (t := t), ← folded_eq_nil (t := t), h]
  unfold relative
  by_cases ha : a = []
  · rw [if_pos ha, if_pos (hnil.mp ha)]
  · rw [if_neg ha, if_neg (fun hb => ha (hnil.mpr hb))]
    rw [CaseTable.folded, CaseTable.folded, map_append, map_append]
    exact congrArg (· ++ _) h

/-- The items of one directory. -/
def itemsOf (t : CaseTable) (tree : Tree) (dir : Utf16) : List (Utf16 × Found) :=
  (tree.entries.filter fun entry => t.folded entry.parent = t.folded dir).map fun entry =>
    (dir, entry.found)

theorem enumerate_items {dir : Utf16} {found : List Found} (h : tree.enumerate t dir = some found) :
    (found.filter fun entry => !isDot entry.name).map (dir, ·) = itemsOf t tree dir := by
  unfold Tree.enumerate at h
  split at h
  · cases h
    have hdots : (if tree.dotted dir then [(⟨u ".", true, false⟩ : Found), ⟨u "..", true, false⟩]
        else []).filter (fun entry => !isDot entry.name) = [] := by
      split <;> rfl
    have hentries : ((tree.entries.filter fun entry => ordinalEqual t entry.parent dir).map
        (·.found)).filter (fun entry => !isDot entry.name) =
          (tree.entries.filter fun entry => t.folded entry.parent = t.folded dir).map
            (·.found) := by
      rw [filter_eq_self.mpr]
      · congr 1
        apply filter_congr
        intro entry _
        rw [Bool.eq_iff_iff, ordinalEqual_iff, decide_eq_true_eq]
      · intro found hfound
        obtain ⟨entry, hentry, rfl⟩ := mem_map.mp hfound
        rw [(tree.named entry (mem_filter.mp hentry).1).2]
        rfl
    rw [filter_append, hdots, nil_append, hentries, map_map]
    rfl
  · cases h

/-- The loop over the directories is one scan over their items. -/
theorem inventoryFrom_ok {r : Rules (Utf16 × Found) Utf16 Utf16}
    {seen seen' dirs : List Utf16} : inventoryFrom t tree r seen dirs = .ok seen' ↔
      (∀ dir ∈ dirs, (tree.enumerate t dir).isSome = true) ∧
        scan r seen (dirs.flatMap (itemsOf t tree)) = .ok seen' := by
  induction dirs generalizing seen with
  | nil => simp [inventoryFrom, scan]
  | cons dir rest ih =>
    rw [inventoryFrom, forall_mem_cons, flatMap_cons, scan_append]
    cases hdir : tree.enumerate t dir with
    | none => simp
    | some found =>
      simp only [bind_ok, enumerate_items hdir, ih, Option.isSome_some, true_and]
      constructor
      · rintro ⟨next, hscan, hrest, hlast⟩
        exact ⟨hrest, next, hscan, hlast⟩
      · rintro ⟨hrest, next, hscan, hlast⟩
        exact ⟨next, hscan, hrest, hlast⟩

/-- Every entry is found when its directory is one of these. -/
def Covered (t : CaseTable) (tree : Tree) (dirs : List Utf16) : Prop :=
  ∀ entry ∈ tree.entries, t.folded entry.parent ∈ dirs.map t.folded

/-- What two items are compared by. -/
def itemKey (t : CaseTable) (item : Utf16 × Found) : List Nat × Bool :=
  (t.folded (relative item.1 item.2.name), item.2.isDirectory)

/-- What is gone over is the whole tree. -/
theorem items_perm (hdirs : (dirs.map t.folded).Nodup) (h : Covered t tree dirs) :
    ((dirs.flatMap (itemsOf t tree)).map (itemKey t)).Perm (tree.entries.map (entryKey t)) := by
  have hparts := (parts_perm hdirs h).map (entryKey t)
  refine .trans (.of_eq ?_) hparts
  rw [map_flatMap, map_flatMap]
  apply flatMap_congr
  intro dir _
  rw [itemsOf, map_map]
  apply map_congr_left
  intro entry hentry
  have heq := of_decide_eq_true (mem_filter.mp hentry).2
  exact Prod.ext (folded_relative heq.symm entry.found.name) rfl

theorem mem_itemsOf {entry : Entry} (h : entry ∈ tree.entries) {dir : Utf16} (hdir : dir ∈ dirs)
    (heq : t.folded entry.parent = t.folded dir) :
    (dir, entry.found) ∈ dirs.flatMap (itemsOf t tree) :=
  mem_flatMap.mpr ⟨dir, hdir, mem_map.mpr
    ⟨entry, mem_filter.mpr ⟨h, decide_eq_true heq⟩, rfl⟩⟩

section Game
variable {files : List VerifiedGameFile} {dirs : List Utf16}

/-- An item is allowed exactly if it is one of the things expected. -/
theorem allowed_iff {item : Utf16 × Found} (hname : item.2.name ≠ []) :
    (gameRules t files ([] :: dirs)).allowed item = true ↔
      itemKey t item ∈ expectedKeys t files dirs := by
  have hrelative : relative item.1 item.2.name ≠ [] := by
    unfold relative
    split
    · exact hname
    · simp
  rw [expectedKeys, mem_append, mem_map, mem_map]
  show (if item.2.isDirectory then
      ([] :: dirs).any fun expected => ordinalEqual t (relative item.1 item.2.name) expected
    else files.any fun expected =>
      ordinalEqual t (relative item.1 item.2.name) expected.relative_path) = true ↔ _
  by_cases hkind : item.2.isDirectory = true
  · rw [if_pos hkind, any_cons, Bool.or_eq_true, any_eq_true, ordinalEqual_iff,
      folded_eq_nil, itemKey, hkind]
    constructor
    · rintro (hnil | ⟨dir, hdir, heq⟩)
      · exact absurd hnil hrelative
      · exact .inr ⟨dir, hdir, Prod.ext (ordinalEqual_iff.mp heq).symm rfl⟩
    · rintro (⟨file, -, heq⟩ | ⟨dir, hdir, heq⟩)
      · cases congrArg Prod.snd heq
      · exact .inr ⟨dir, hdir, ordinalEqual_iff.mpr (congrArg Prod.fst heq).symm⟩
  · rw [if_neg hkind, any_eq_true, itemKey]
    rw [Bool.not_eq_true] at hkind
    rw [hkind]
    constructor
    · rintro ⟨file, hfile, heq⟩
      exact .inl ⟨file, hfile, Prod.ext (ordinalEqual_iff.mp heq).symm rfl⟩
    · rintro (⟨file, hfile, heq⟩ | ⟨dir, -, heq⟩)
      · exact ⟨file, hfile, ordinalEqual_iff.mpr (congrArg Prod.fst heq).symm⟩
      · cases congrArg Prod.snd heq

/-- Every directory of a tree of which all that is found is expected is gone over. -/
theorem covered_of_allowed {tree : Tree} {directories : List Utf16} (hroot : [] ∈ directories)
    (h : ∀ item ∈ directories.flatMap (itemsOf t tree), item.2.isDirectory = true →
      t.folded (relative item.1 item.2.name) ∈ directories.map t.folded) :
    Covered t tree directories := by
  -- by the length of the parent: a directory has a shorter parent than what it holds
  have hbound : ∀ n, ∀ entry ∈ tree.entries, entry.parent.length < n →
      t.folded entry.parent ∈ directories.map t.folded := by
    intro n
    induction n with
    | zero => exact fun _ _ hlt => absurd hlt (Nat.not_lt_zero _)
    | succ n ih =>
      intro entry hentry hlt
      rcases tree.held entry hentry with hnil | ⟨dir, hdir, hkind, hpath⟩
      · rw [hnil]
        exact mem_map_of_mem hroot
      · have hshorter : dir.parent.length < entry.parent.length := by
          have hname := (tree.named dir hdir).1
          rw [← hpath, Entry.path, relative]
          by_cases hparent : dir.parent = []
          · rw [if_pos hparent, hparent]
            exact length_pos_iff.mpr hname
          · rw [if_neg hparent, length_append, length_cons]
            omega
        obtain ⟨above, habove, heq⟩ := mem_map.mp (ih dir hdir (by omega))
        have := h _ (mem_itemsOf hdir habove heq.symm) hkind
        dsimp only at this
        rwa [folded_relative heq dir.found.name, ← Entry.path, hpath] at this
  exact fun entry hentry => hbound _ entry hentry (Nat.lt_succ_self _)

/-- A tree passes exactly if its entries are the listed files and the directories above them, each
of them once, whatever the case of their names, and none of them redirected. -/
theorem inventory_ok (h : Expected t files dirs) {tree : Tree} :
    inventory t tree files ([] :: dirs) = .ok () ↔
      (∀ entry ∈ tree.entries, entry.found.isReparse = false) ∧
        (tree.entries.map (entryKey t)).Perm (expectedKeys t files dirs) := by
  have halike : ∀ a b, (gameRules t files ([] :: dirs)).alike a b = true ↔
      t.folded a = t.folded b := fun _ _ => ordinalEqual_iff
  have hnil : (([] : List Utf16).map t.folded).Nodup := nodup_nil
  have hroot : [] ∈ [] :: dirs := mem_cons_self
  have hdirs : (([] :: dirs).map t.folded).Nodup := by
    rw [map_cons, nodup_cons]
    constructor
    · intro hmem
      obtain ⟨dir, hdir, heq⟩ := mem_map.mp hmem
      exact h.nonempty dir hdir (folded_eq_nil.mp heq)
    · have := h.distinct
      rw [map_append] at this
      exact this.of_append_right
  have hcount : (expectedKeys t files dirs).length = files.length + dirs.length := by
    rw [expectedKeys, length_append, length_map, length_map]
  have hnames : ∀ item ∈ ([] :: dirs).flatMap (itemsOf t tree), item.2.name ≠ [] ∧
      ∃ entry ∈ tree.entries, entry.found = item.2 := by
    intro item hitem
    obtain ⟨dir, -, hin⟩ := mem_flatMap.mp hitem
    obtain ⟨entry, hentry, rfl⟩ := mem_map.mp hin
    have hmem := (mem_filter.mp hentry).1
    exact ⟨(tree.named entry hmem).1, entry, hmem, rfl⟩
  simp only [inventory, bind_ok, need_ok, inventoryFrom_ok, scan_ok halike hnil,
    nil_append, length_cons, Nat.add_succ_sub_one]
  generalize hitems : ([] :: dirs).flatMap (itemsOf t tree) = items at *
  have hpaths : (items.map (gameRules t files ([] :: dirs)).name).map t.folded =
      (items.map (itemKey t)).map Prod.fst := by
    rw [map_map, map_map]
    rfl
  constructor
  · rintro ⟨seen, ⟨-, rfl, hnodup, hfits, -⟩, hlength⟩
    have hexpected : ∀ item ∈ items, itemKey t item ∈ expectedKeys t files dirs :=
      fun item hitem => (allowed_iff (hnames item hitem).1).mp (hfits item hitem).2
    have hcovered : Covered t tree ([] :: dirs) := by
      apply covered_of_allowed hroot
      rw [hitems]
      intro item hitem hkind
      have hmem := hexpected item hitem
      rw [itemKey, hkind, expectedKeys, mem_append, mem_map, mem_map] at hmem
      rcases hmem with ⟨file, -, heq⟩ | ⟨dir, hdir, heq⟩
      · cases congrArg Prod.snd heq
      · have hfolded : t.folded dir = t.folded (relative item.1 item.2.name) :=
          congrArg Prod.fst heq
        rw [← hfolded]
        exact mem_map_of_mem (mem_cons_of_mem _ hdir)
    have hperm := items_perm hdirs hcovered
    rw [hitems] at hperm
    have hkeys : (items.map (itemKey t)).Perm (expectedKeys t files dirs) := by
      refine (perm_iff h.keys_nodup).mpr ⟨?_, ?_, ?_⟩
      · apply List.Nodup.of_map Prod.fst
        rw [← hpaths]
        exact hnodup
      · intro key hkey
        obtain ⟨item, hitem, rfl⟩ := mem_map.mp hkey
        exact hexpected item hitem
      · rw [length_map] at hlength
        rw [length_map, hlength, hcount]
    refine ⟨fun entry hentry => ?_, hperm.symm.trans hkeys⟩
    obtain ⟨dir, hdir, heq⟩ := mem_map.mp (hcovered entry hentry)
    have hmem := mem_itemsOf hentry hdir heq.symm
    rw [hitems] at hmem
    exact (hfits _ hmem).1
  · rintro ⟨hplain, hkeys⟩
    have hcovered : Covered t tree ([] :: dirs) := by
      intro entry hentry
      rcases tree.held entry hentry with hnone | ⟨dir, hdir, hkind, hpath⟩
      · rw [hnone]
        exact mem_map_of_mem hroot
      · have hmem := hkeys.mem_iff.mp (mem_map_of_mem hdir)
        rw [entryKey, hkind, hpath, expectedKeys, mem_append, mem_map, mem_map] at hmem
        rcases hmem with ⟨file, -, heq⟩ | ⟨expected, hexpected, heq⟩
        · cases congrArg Prod.snd heq
        · have hfolded : t.folded expected = t.folded entry.parent := congrArg Prod.fst heq
          rw [← hfolded]
          exact mem_map_of_mem (mem_cons_of_mem _ hexpected)
    have hperm := items_perm hdirs hcovered
    rw [hitems] at hperm
    have hall := hperm.trans hkeys
    have hlength : items.length = files.length + dirs.length := by
      rw [← hcount, ← hall.length_eq, length_map]
    refine ⟨_, ⟨?_, rfl, ?_, ?_, .inr ?_⟩, ?_⟩
    · intro dir hdir
      have hfound : dir = [] ∨ ∃ entry ∈ tree.entries, entry.found.isDirectory = true ∧
          ordinalEqual t entry.path dir = true := by
        rcases mem_cons.mp hdir with hnone | hmem
        · exact .inl hnone
        · right
          have hkey : (t.folded dir, true) ∈ expectedKeys t files dirs :=
            mem_append_right _ (mem_map.mpr ⟨dir, hmem, rfl⟩)
          obtain ⟨entry, hentry, heq⟩ := mem_map.mp (hkeys.mem_iff.mpr hkey)
          exact ⟨entry, hentry, congrArg Prod.snd heq, ordinalEqual_iff.mpr (congrArg Prod.fst heq)⟩
      rw [Tree.enumerate, if_pos hfound]
      rfl
    · rw [hpaths, (hall.map Prod.fst).nodup_iff, expectedKeys_fst]
      exact h.distinct
    · intro item hitem
      obtain ⟨hname, entry, hentry, heq⟩ := hnames item hitem
      refine ⟨?_, (allowed_iff hname).mpr (hall.mem_iff.mp (mem_map_of_mem hitem))⟩
      show item.2.isReparse = false
      rw [← heq]
      exact hplain entry hentry
    · show 0 + items.length ≤ files.length + (dirs.length + 1) - 1
      omega
    · rw [length_map, hlength]

end Game

/-! ### Exactly what is listed -/

/-- `ValidateExpected`, and then `Inventory`. -/
def checkGame (t : CaseTable) (files : List VerifiedGameFile) (tree : Tree) :
    Except Utf16 Unit := do
  let directories ← validateExpected t files
  inventory t tree files directories

/-- A manifest is the one text of its files, and a build or a game passes exactly if it has what is
listed for it, whatever the case of the names, and nothing else. -/
theorem exactly_listed (t : CaseTable) :
    (∀ text files, Build.parse text = .ok files ↔
      text = Build.serialize files ∧ Build.Canonical files) ∧
    (∀ text files entries, Build.parse text = .ok files →
      (verifyInventory t files entries = .ok () ↔
        (∀ entry ∈ entries.filter fun entry => !isDot entry.name,
          entry.isDirectory = false ∧ entry.isReparse = false) ∧
        ((entries.filter fun entry => !isDot entry.name).map fun entry =>
          t.folded entry.name).Perm (buildNames t files))) ∧
    ∀ files tree, checkGame t files tree = .ok () ↔
      ∃ dirs, validateExpected t files = .ok ([] :: dirs) ∧ Expected t files dirs ∧
        (∀ entry ∈ tree.entries, entry.found.isReparse = false) ∧
        (tree.entries.map (entryKey t)).Perm (expectedKeys t files dirs) := by
  refine ⟨fun text files => Build.parse_ok, fun text files entries h => ?_, fun files tree => ?_⟩
  · exact verifyInventory_ok (Build.parse_ok.mp h).2
  · rw [checkGame, bind_ok]
    constructor
    · rintro ⟨directories, hvalid, htree⟩
      obtain ⟨dirs, rfl, hexpected⟩ := validateExpected_ok hvalid
      exact ⟨dirs, hvalid, hexpected, (inventory_ok hexpected).mp htree⟩
    · rintro ⟨dirs, hvalid, hexpected, hlisted⟩
      exact ⟨_, hvalid, (inventory_ok hexpected).mpr hlisted⟩

/-! A build of two files and a game of one directory, on disk under names of another case. -/

def zeroHash : Bytes := replicate 64 48

/-- A small build. -/
def smallBuild : List Build.VerifiedBuildFile :=
  [⟨u "mcla.exe", 7, zeroHash⟩, ⟨u "mcla_crash_handler.exe", 10, zeroHash⟩]

/-- The manifest of the small build. -/
def smallManifest : Bytes :=
  Build.kHeader ++ zeroHash ++ Build.bytesOf " 7 mcla.exe\n" ++ zeroHash ++
    Build.bytesOf " 10 mcla_crash_handler.exe\n"

def smallEntries : List Found :=
  [⟨u ".", true, false⟩, ⟨u "..", true, false⟩, ⟨u "mcla-build.manifest", false, false⟩,
    ⟨u "MCLA.EXE", false, false⟩, ⟨u "mcla_crash_handler.exe", false, false⟩]

/-- A small game. -/
def smallGame : List VerifiedGameFile := [⟨u "d/f", 3, zeroHash⟩, ⟨u "g", 4, zeroHash⟩]

set_option maxRecDepth 20000 in
/-- The files of the small game. -/
def smallTree : Tree where
  entries := [⟨[], u "G", false, false⟩, ⟨u "D", u "f", false, false⟩, ⟨[], u "D", true, false⟩]
  dotted := fun _ => true
  named := by decide
  held := by decide

set_option maxRecDepth 20000 in
theorem smallBuild_canonical : Build.Canonical smallBuild where
  shapes := by
    intro file hfile
    rcases mem_cons.mp hfile with rfl | hmem
    · exact ⟨by decide, by decide, Build.bytesOf "mcla.exe", by decide, by decide⟩
    · rw [mem_singleton.mp hmem]
      exact ⟨by decide, by decide, Build.bytesOf "mcla_crash_handler.exe", by decide, by decide⟩
  sorted := by decide
  count := by decide
  total := by decide
  host := by decide
  crash := by decide
  length := by decide

set_option maxRecDepth 20000 in
theorem exactly_listed_small :
    Build.parse smallManifest = .ok smallBuild ∧
    verifyInventory ChildEnvironment.asciiTable smallBuild smallEntries = .ok () ∧
    checkGame ChildEnvironment.asciiTable smallGame smallTree = .ok () := by
  obtain ⟨hmanifest, hbuild, hgame⟩ := exactly_listed ChildEnvironment.asciiTable
  have hparse : Build.parse smallManifest = .ok smallBuild :=
    (hmanifest _ _).mpr ⟨by decide, smallBuild_canonical⟩
  have hvalid : validateExpected ChildEnvironment.asciiTable smallGame =
      .ok [[], u "d"] := by decide
  obtain ⟨dirs, heq, hexpected⟩ := validateExpected_ok hvalid
  rw [← (List.cons.inj heq).2] at hexpected
  exact ⟨hparse, (hbuild _ _ smallEntries hparse).mpr ⟨by decide, by decide⟩,
    (hgame _ _).mpr ⟨_, hvalid, hexpected, by decide, by decide⟩⟩

end Mcla.Launcher.Inventories
