import Mcla.Library.KeyedBlock
import Mcla.Library.MachineArith
import Mcla.Launcher.CommandLine

/-! # The environment of the game

`MakeOwnedEnvironment` of `mcla_launcher_process_win`: of the environment of the launcher only
some named variables reach the game; the system directories are set anew.  The block is the one
that `CreateProcessW` takes, sorted by name without regard to case.

The comparison of names is the system's, `CompareStringOrdinal`; of its table of upper-case forms
only the ASCII part is used.
-/
namespace Mcla.Launcher.ChildEnvironment
open MachineArith List

/-- The upper-case form of an ASCII letter. -/
def asciiUpper (c : UInt16) : UInt16 := if 97 ≤ c.toNat ∧ c.toNat ≤ 122 then c - 32 else c

/-- The upper-case table of the system. -/
structure CaseTable where
  upper : UInt16 → UInt16
  ascii : ∀ c, c.toNat < 128 → upper c = asciiUpper c

/-- What an ordinal comparison that ignores case compares. -/
def CaseTable.folded (t : CaseTable) (name : Utf16) : List Nat :=
  name.map fun c => (t.upper c).toNat

/-- `CompareStringOrdinal(..., TRUE) == CSTR_LESS_THAN`. -/
def CaseTable.less (t : CaseTable) (a b : Utf16) : Bool := decide (t.folded a < t.folded b)

def kIntMaximum : Nat := 2 ^ 31 - 1

/-- `EqualName`. -/
def equalName (t : CaseTable) (a b : Utf16) : Bool :=
  a.length == b.length && decide (a.length ≤ kIntMaximum) && t.folded a == t.folded b

/-- A system whose table has no letters but those of ASCII. -/
def asciiTable : CaseTable := ⟨asciiUpper, fun _ _ => rfl⟩

example : equalName asciiTable (u "temp") (u "TEMP") = true := by decide

/-- `HasNul`. -/
def hasNul (value : Utf16) : Bool := value.contains 0

/-- `EnvironmentEntry`; no `std::wstring` is longer than the address space. -/
structure Entry where
  (name value : Utf16)
  sized : value.length < 2 ^ 62

/-- `kInheritedDirectories`. -/
def kInheritedDirectories : List Utf16 :=
  [u "LOCALAPPDATA", u "APPDATA", u "USERPROFILE", u "TEMP", u "TMP", u "ProgramData",
    u "HOMEDRIVE", u "HOMEPATH"]

/-- `kSteamPassThrough`. -/
def kSteamPassThrough : List Utf16 :=
  [u "SDL_GAMECONTROLLER_ALLOW_STEAM_VIRTUAL_GAMEPAD", u "SDL_GAMECONTROLLERCONFIG",
    u "SDL_GAMECONTROLLER_IGNORE_DEVICES", u "SDL_GAMECONTROLLER_IGNORE_DEVICES_EXCEPT",
    u "SteamVirtualGamepadInfo", u "SteamAppId", u "SteamGameId", u "SteamDeck",
    u "STEAM_COMPAT_DATA_PATH", u "WINEPREFIX"]

/-- A variable of the environment that is made. -/
abbrev Variable := Utf16 × Utf16

/-- The loop of `keep` over the source, with the value chosen so far; `none` where it returns
`false`. -/
def choose (t : CaseTable) (allowed : Utf16) :
    Option Utf16 → List Entry → Option (Option Utf16)
  | chosen, [] => some chosen
  | chosen, entry :: rest =>
    if equalName t entry.name allowed = false then choose t allowed chosen rest
    else if chosen.isSome || hasNul entry.value then none
    else choose t allowed (some entry.value) rest

/-- `keep`. -/
def keep (t : CaseTable) (source : List Entry) (values : List Variable) (allowed : Utf16) :
    Option (List Variable) :=
  match choose t allowed none source with
  | none => none
  | some none => some values
  | some (some value) => some (if value.isEmpty then values else values ++ [(allowed, value)])

/-- The loops over the allowed names. -/
def keepAll (t : CaseTable) (source : List Entry) :
    List Variable → List Utf16 → Option (List Variable)
  | values, [] => some values
  | values, allowed :: rest => (keep t source values allowed).bind fun values =>
      keepAll t source values rest

def kMaximumBlockUnits : Nat := 32767

/-- `SystemRoot`, `WINDIR` and `PATH`. -/
def systemVariables (windows system : Utf16) : List Variable :=
  [(u "SystemRoot", windows), (u "WINDIR", windows), (u "PATH", system ++ [59] ++ windows)]

/-- The loop that writes the block. -/
def appendVariables {m : Type → Type} [Monad m] (A : Arith m) (block : Utf16) :
    List Variable → m (Except String Utf16)
  | [] => pure (.ok block)
  | (name, value) :: rest => do
    let both ← A.add name.length value.length
    let needed ← A.add both 3
    let room ← A.sub kMaximumBlockUnits block.length
    if needed > room then pure (.error "Child environment exceeds the bounded size")
    else appendVariables A (block ++ name ++ [61] ++ value ++ [0]) rest

/-- The test of the two directories. -/
def validDirectories (windows system : Utf16) : Bool :=
  !windows.isEmpty && !system.isEmpty && !hasNul windows && !hasNul system &&
    !windows.contains 59 && !system.contains 59 &&
    (normalizeRoot windows).isOk && (normalizeRoot system).isOk

/-- The order of `std::sort`; names that are the same but for case do not occur. -/
def sortVariables (t : CaseTable) (values : List Variable) : List Variable :=
  values.mergeSort fun a b => !t.less b.1 a.1

/-- `MakeOwnedEnvironment`: the block and the number of variables passed through. -/
def makeOwnedEnvironmentWith {m : Type → Type} [Monad m] (A : Arith m) (t : CaseTable)
    (source : List Entry) (windows system : Utf16) : m (Except String (Utf16 × Nat)) :=
  if validDirectories windows system = false then
    pure (.error "Invalid trusted Windows environment directories")
  else
    match keepAll t source [] kInheritedDirectories with
    | none => pure (.error "Invalid or duplicate allowed child environment entry")
    | some inherited =>
      match keepAll t source inherited kSteamPassThrough with
      | none => pure (.error "Invalid or duplicate allowed child environment entry")
      | some values => do
        let passed := values.length - inherited.length
        let block ← appendVariables A []
          (sortVariables t (values ++ systemVariables windows system))
        pure (block.map fun block => (block ++ [0], passed))

/-- `MakeOwnedEnvironment`, where a `size_t` has 64 bits. -/
def makeOwnedEnvironment (t : CaseTable) (source : List Entry) (windows system : Utf16) :
    Except String (Utf16 × Nat) :=
  makeOwnedEnvironmentWith (m := Id) (wrapping 64) t source windows system

/-! ### Which variables are kept -/

/-- The names that may be kept. -/
def allowedNames : List Utf16 := kInheritedDirectories ++ kSteamPassThrough

/-- The values that the source has under a name. -/
def valuesOf (t : CaseTable) (source : List Entry) (name : Utf16) : List Utf16 :=
  (source.filter fun entry => equalName t entry.name name).map Entry.value

/-- The source has at most one value under a name, and no NUL in it. -/
def Single (t : CaseTable) (source : List Entry) (name : Utf16) : Prop :=
  (valuesOf t source name).length ≤ 1 ∧ ∀ value ∈ valuesOf t source name, 0 ∉ value

/-- The variables of a name that are kept: those that are not empty. -/
def variablesOf (t : CaseTable) (source : List Entry) (name : Utf16) : List Variable :=
  ((valuesOf t source name).filter fun value => !value.isEmpty).map fun value => (name, value)

variable {t : CaseTable} {source : List Entry}

instance (name : Utf16) : Decidable (Single t source name) := inferInstanceAs (Decidable (_ ∧ _))

theorem valuesOf_cons (entry : Entry) (rest : List Entry) (name : Utf16) :
    valuesOf t (entry :: rest) name =
      if equalName t entry.name name then entry.value :: valuesOf t rest name
      else valuesOf t rest name := by
  unfold valuesOf
  rw [filter_cons]
  split
  · rfl
  · rfl

theorem choose_some (allowed chosen : Utf16) (source : List Entry) :
    choose t allowed (some chosen) source =
      if valuesOf t source allowed = [] then some (some chosen) else none := by
  induction source with
  | nil => rfl
  | cons entry rest ih =>
    rw [choose, valuesOf_cons]
    by_cases hname : equalName t entry.name allowed = true
    · rw [if_neg (by simp [hname]), if_pos (by simp), if_pos hname, if_neg (by simp)]
    · rw [if_pos (by simpa using hname), if_neg hname, ih]

theorem choose_none (allowed : Utf16) (source : List Entry) :
    choose t allowed none source = match valuesOf t source allowed with
      | [] => some none
      | [value] => if hasNul value then none else some (some value)
      | _ => none := by
  induction source with
  | nil => rfl
  | cons entry rest ih =>
    rw [choose, valuesOf_cons]
    by_cases hname : equalName t entry.name allowed = true
    · rw [if_neg (by simp [hname]), if_pos hname, choose_some]
      cases hrest : valuesOf t rest allowed with
      | nil => simp
      | cons value more => simp
    · rw [if_pos (by simpa using hname), if_neg hname, ih]

theorem hasNul_eq_false {value : Utf16} : hasNul value = false ↔ 0 ∉ value := by
  unfold hasNul
  rw [← Bool.not_eq_true, contains_iff_mem]

/-- **One name**: it is kept when the source has no second value and no NUL for it. -/
theorem keep_of_single {allowed : Utf16} (h : Single t source allowed) (values : List Variable) :
    keep t source values allowed = some (values ++ variablesOf t source allowed) := by
  obtain ⟨hone, hclear⟩ := h
  unfold keep variablesOf
  rw [choose_none]
  cases hvalues : valuesOf t source allowed with
  | nil => simp
  | cons value more =>
    rw [hvalues] at hone hclear
    obtain rfl : more = [] := length_eq_zero_iff.mp (by simpa using hone)
    have hnul : hasNul value = false := hasNul_eq_false.mpr (hclear value mem_cons_self)
    cases value with
    | nil => simp [hnul]
    | cons c value => simp [hnul]

theorem keep_of_not_single {allowed : Utf16} (h : ¬ Single t source allowed)
    (values : List Variable) : keep t source values allowed = none := by
  unfold keep
  rw [choose_none]
  cases hvalues : valuesOf t source allowed with
  | nil =>
    refine absurd ⟨?_, ?_⟩ h
    · simp [hvalues]
    · simp [hvalues]
  | cons value more =>
    cases more with
    | nil =>
      have hnul : hasNul value = true := by
        by_contra hnot
        have hclear := hasNul_eq_false.mp (Bool.not_eq_true _ ▸ hnot)
        refine h ⟨?_, ?_⟩
        · simp [hvalues]
        · simpa [hvalues] using hclear
      simp [hnul]
    | cons second more => rfl

variable {names : List Utf16} {values : List Variable}

theorem keepAll_of_single (h : ∀ name ∈ names, Single t source name) (values : List Variable) :
    keepAll t source values names = some (values ++ names.flatMap (variablesOf t source)) := by
  induction names generalizing values with
  | nil => simp [keepAll]
  | cons name names ih =>
    rw [forall_mem_cons] at h
    rw [keepAll, keep_of_single h.1, Option.bind_some, ih h.2, flatMap_cons, append_assoc]

theorem keepAll_of_not_single (h : ¬ ∀ name ∈ names, Single t source name)
    (values : List Variable) : keepAll t source values names = none := by
  induction names generalizing values with
  | nil => simp at h
  | cons name names ih =>
    rw [keepAll]
    by_cases hname : Single t source name
    · rw [keep_of_single hname, Option.bind_some]
      refine ih (fun hrest => h ?_) _
      rw [forall_mem_cons]
      exact ⟨hname, hrest⟩
    · rw [keep_of_not_single hname, Option.bind_none]

/-! ### The loop that writes the block -/

theorem appendVariables_faithful {m : Type → Type} [Monad m] [LawfulMonad m] {A : Arith m}
    (hA : Faithful 64 A) {block : Utf16} (hblock : block.length ≤ kMaximumBlockUnits)
    (hsized : ∀ entry ∈ values, entry.1.length + entry.2.length + 3 < 2 ^ 64) :
    appendVariables A block values = pure (appendVariables (m := Id) exact block values) := by
  induction values generalizing block with
  | nil => rfl
  | cons entry rest ih =>
    rw [forall_mem_cons] at hsized
    obtain ⟨hentry, hrest⟩ := hsized
    have hmaximum : kMaximumBlockUnits < 2 ^ 64 := by decide
    have hsum : entry.1.length + entry.2.length < 2 ^ 64 := by omega
    simp only [appendVariables, hA.add hsum, hA.add hentry, hA.sub hblock hmaximum, pure_bind]
    show _ = pure (if entry.1.length + entry.2.length + 3 > kMaximumBlockUnits - block.length then _
      else _)
    split
    · rfl
    · rename_i hroom
      refine ih ?_ hrest
      simp only [length_append, length_cons, length_nil]
      omega

/-- The loop writes every row, or there is no room for all of them. -/
theorem appendVariables_ok {block result : Utf16} (hblock : block.length < kMaximumBlockUnits) :
    appendVariables (m := Id) exact block values = .ok result ↔
      result = block ++ values.flatMap (KeyedBlock.row 61 0) ∧
        result.length < kMaximumBlockUnits := by
  induction values generalizing block with
  | nil =>
    show Except.ok block = Except.ok result ↔ _
    rw [flatMap_nil, append_nil, Except.ok.injEq]
    constructor
    · rintro rfl
      exact ⟨rfl, hblock⟩
    · rintro ⟨rfl, -⟩
      rfl
  | cons entry rest ih =>
    have hrow : block ++ (entry :: rest).flatMap (KeyedBlock.row 61 0) =
        (block ++ entry.1 ++ [61] ++ entry.2 ++ [0]) ++ rest.flatMap (KeyedBlock.row 61 0) := by
      rw [flatMap_cons]
      unfold KeyedBlock.row
      simp only [append_assoc, cons_append, nil_append]
    have hlength : (block ++ entry.1 ++ [61] ++ entry.2 ++ [0]).length =
        block.length + entry.1.length + entry.2.length + 2 := by
      simp only [length_append, length_cons, length_nil]
      omega
    show (if entry.1.length + entry.2.length + 3 > kMaximumBlockUnits - block.length then
        (.error "Child environment exceeds the bounded size" : Except String Utf16)
      else appendVariables (m := Id) exact (block ++ entry.1 ++ [61] ++ entry.2 ++ [0]) rest) =
        .ok result ↔ _
    rw [hrow]
    split
    · refine ⟨nofun, ?_⟩
      rintro ⟨rfl, hroom⟩
      rw [length_append] at hroom
      omega
    · exact ih (by omega)

/-! ### The order of the names -/

theorem le_of_not_less {a b : Utf16} : (!t.less b a) = true ↔ t.folded a ≤ t.folded b := by
  unfold CaseTable.less
  rw [Bool.not_eq_true', decide_eq_false_iff_not, not_lt]

/-- **The sort**: names that are different but for case come out in strict order. -/
theorem sortVariables_pairwise (h : (values.map fun entry => t.folded entry.1).Nodup) :
    (sortVariables t values).Pairwise fun a b => t.folded a.1 < t.folded b.1 := by
  have hsorted : (sortVariables t values).Pairwise fun a b => (!t.less b.1 a.1) = true := by
    refine pairwise_mergeSort ?_ ?_ values
    · intro a b c hab hbc
      rw [le_of_not_less] at hab hbc ⊢
      exact hab.trans hbc
    · intro a b
      rw [Bool.or_eq_true, le_of_not_less, le_of_not_less]
      exact le_total _ _
  have hdistinct : ((sortVariables t values).map fun entry => t.folded entry.1).Nodup :=
    ((mergeSort_perm values _).map _).nodup_iff.mpr h
  rw [List.Nodup, pairwise_map] at hdistinct
  refine (hsorted.and hdistinct).imp fun hboth => ?_
  exact lt_of_le_of_ne (le_of_not_less.mp hboth.1) hboth.2

/-- All the names of the environment that is made. -/
def allNames : List Utf16 := allowedNames ++ [u "SystemRoot", u "WINDIR", u "PATH"]

set_option maxRecDepth 4000 in
theorem allNames_all_ascii :
    (allNames.all fun name => name.all fun c => decide (c.toNat < 128)) = true := by decide

theorem allNames_ascii : ∀ name ∈ allNames, ∀ c ∈ name, c.toNat < 128 := by
  intro name hname c hc
  exact of_decide_eq_true (all_eq_true.mp (all_eq_true.mp allNames_all_ascii name hname) c hc)

set_option maxRecDepth 8000 in
theorem allNames_upper_nodup :
    (allNames.map fun name => name.map fun c => (asciiUpper c).toNat).Nodup := by decide

theorem allNames_nodup (t : CaseTable) : (allNames.map t.folded).Nodup := by
  have hsame : allNames.map t.folded =
      allNames.map fun name => name.map fun c => (asciiUpper c).toNat := by
    refine map_congr_left fun name hname => map_congr_left fun c hc => ?_
    rw [t.ascii c (allNames_ascii name hname c hc)]
  rw [hsame]
  exact allNames_upper_nodup

set_option maxRecDepth 4000 in
theorem allNames_plain : ∀ name ∈ allNames, name ≠ [] ∧ 61 ∉ name ∧ 0 ∉ name ∧ name.length < 64 := by
  decide

/-! ### The environment -/

/-- The variables that are kept. -/
def keptVariables (t : CaseTable) (source : List Entry) : List Variable :=
  allowedNames.flatMap (variablesOf t source)

/-- Two sources have the same values under every allowed name. -/
def SameAllowed (t : CaseTable) (source other : List Entry) : Prop :=
  ∀ name ∈ allowedNames, valuesOf t source name = valuesOf t other name

theorem keepAll_congr {other : List Entry}
    (h : ∀ name ∈ names, valuesOf t source name = valuesOf t other name) (values : List Variable) :
    keepAll t source values names = keepAll t other values names := by
  induction names generalizing values with
  | nil => rfl
  | cons name names ih =>
    rw [forall_mem_cons] at h
    have hkeep : keep t source values name = keep t other values name := by
      unfold keep
      rw [choose_none, choose_none, h.1]
    rw [keepAll, keepAll, hkeep]
    congr 1
    funext values
    exact ih h.2 values

theorem variablesOf_keys {name : Utf16} (h : Single t source name) :
    ((variablesOf t source name).map Prod.fst).Sublist [name] := by
  unfold variablesOf
  rw [map_map]
  cases hvalues : valuesOf t source name with
  | nil => simp
  | cons value more =>
    have hone := h.1
    rw [hvalues] at hone
    obtain rfl : more = [] := length_eq_zero_iff.mp (by simpa using hone)
    cases value with
    | nil => simp
    | cons c value => simp

theorem keptVariables_keys (h : ∀ name ∈ names, Single t source name) :
    ((names.flatMap (variablesOf t source)).map Prod.fst).Sublist names := by
  induction names with
  | nil => simp
  | cons name names ih =>
    rw [forall_mem_cons] at h
    rw [flatMap_cons, map_append]
    exact (variablesOf_keys h.1).append (ih h.2)

theorem mem_keptVariables {entry : Variable} (h : entry ∈ keptVariables t source) :
    entry.1 ∈ allowedNames ∧ entry.2 ∈ valuesOf t source entry.1 := by
  obtain ⟨name, hname, hentry⟩ := mem_flatMap.mp h
  obtain ⟨value, hvalue, rfl⟩ := mem_map.mp hentry
  exact ⟨hname, (mem_filter.mp hvalue).1⟩

/-- What the test of the directories gives. -/
structure Directories (windows system : Utf16) : Prop where
  windowsClear : 0 ∉ windows
  systemClear : 0 ∉ system
  windowsLength : windows.length ≤ kMaximumPathUnits
  systemLength : system.length ≤ kMaximumPathUnits

theorem directories_of_valid {windows system : Utf16}
    (h : validDirectories windows system = true) : Directories windows system := by
  unfold validDirectories at h
  simp only [Bool.and_eq_true, Bool.not_eq_true'] at h
  obtain ⟨⟨⟨⟨⟨⟨⟨-, -⟩, hwindows⟩, hsystem⟩, -⟩, -⟩, hwroot⟩, hsroot⟩ := h
  refine ⟨hasNul_eq_false.mp hwindows, hasNul_eq_false.mp hsystem, ?_, ?_⟩
  · cases hroot : normalizeRoot windows with
    | ok root => exact CommandLine.length_of_normalizeRoot hroot
    | error issue => simp [hroot, Except.isOk, Except.toBool] at hwroot
  · cases hroot : normalizeRoot system with
    | ok root => exact CommandLine.length_of_normalizeRoot hroot
    | error issue => simp [hroot, Except.isOk, Except.toBool] at hsroot

section Made
variable {windows system : Utf16}

/-- All variables, as they are before the sort. -/
def madeVariables (t : CaseTable) (source : List Entry) (windows system : Utf16) : List Variable :=
  keptVariables t source ++ systemVariables windows system

theorem madeVariables_nodup (h : ∀ name ∈ allowedNames, Single t source name) :
    ((madeVariables t source windows system).map fun entry => t.folded entry.1).Nodup := by
  have hkeys : ((madeVariables t source windows system).map Prod.fst).Sublist allNames := by
    unfold madeVariables
    rw [map_append]
    exact (keptVariables_keys h).append (List.Sublist.refl _)
  have hfolded := hkeys.map t.folded
  rw [map_map] at hfolded
  exact hfolded.nodup (allNames_nodup t)

/-- Every variable can be told apart in the block, and its length does not wrap. -/
theorem madeVariables_plain (h : ∀ name ∈ allowedNames, Single t source name)
    (hdirectories : Directories windows system) :
    ∀ entry ∈ madeVariables t source windows system, KeyedBlock.Plain 61 0 entry ∧
      entry.1.length + entry.2.length + 3 < 2 ^ 64 := by
  intro entry hentry
  have hname : entry.1 ∈ allNames ∧ 0 ∉ entry.2 ∧ entry.2.length < 2 ^ 62 := by
    rcases mem_append.mp hentry with hkept | hsystem
    · obtain ⟨hname, hvalue⟩ := mem_keptVariables hkept
      refine ⟨mem_append_left _ hname, (h _ hname).2 _ hvalue, ?_⟩
      obtain ⟨original, -, horiginal⟩ := mem_map.mp hvalue
      rw [← horiginal]
      exact original.sized
    · have hbound : kMaximumPathUnits = 1024 := rfl
      have hwlength := hdirectories.windowsLength
      have hslength := hdirectories.systemLength
      simp only [systemVariables, mem_cons, not_mem_nil, or_false] at hsystem
      rcases hsystem with rfl | rfl | rfl
      · refine ⟨mem_append_right _ (by simp), hdirectories.windowsClear, ?_⟩
        dsimp only
        omega
      · refine ⟨mem_append_right _ (by simp), hdirectories.windowsClear, ?_⟩
        dsimp only
        omega
      · refine ⟨mem_append_right _ (by simp), ?_, ?_⟩
        · simp [hdirectories.windowsClear, hdirectories.systemClear]
        · simp only [length_append, length_cons, length_nil]
          omega
  obtain ⟨hmem, hclear, hlength⟩ := hname
  obtain ⟨hne, hequals, hends, hshort⟩ := allNames_plain _ hmem
  exact ⟨⟨hne, hequals, hends, hclear⟩, by omega⟩

variable {m : Type → Type}

/-- **What is made**, in any arithmetic that is exact where nothing wraps. -/
theorem makeOwnedEnvironmentWith_eq [Monad m] [LawfulMonad m] {A : Arith m} (hA : Faithful 64 A)
    (hvalid : validDirectories windows system = true)
    (h : ∀ name ∈ allowedNames, Single t source name) :
    makeOwnedEnvironmentWith A t source windows system =
      pure ((appendVariables (m := Id) exact []
        (sortVariables t (madeVariables t source windows system))).map fun block =>
          (block ++ [0], (kSteamPassThrough.flatMap (variablesOf t source)).length)) := by
  have hinherited : ∀ name ∈ kInheritedDirectories, Single t source name :=
    fun name hname => h name (mem_append_left _ hname)
  have hsteam : ∀ name ∈ kSteamPassThrough, Single t source name :=
    fun name hname => h name (mem_append_right _ hname)
  have hmade : kInheritedDirectories.flatMap (variablesOf t source) ++
      kSteamPassThrough.flatMap (variablesOf t source) ++ systemVariables windows system =
        madeVariables t source windows system := by
    unfold madeVariables keptVariables allowedNames
    rw [flatMap_append]
  have hsized : ∀ entry ∈ sortVariables t (madeVariables t source windows system),
      entry.1.length + entry.2.length + 3 < 2 ^ 64 := by
    intro entry hentry
    exact (madeVariables_plain h (directories_of_valid hvalid) entry
      ((mergeSort_perm _ _).mem_iff.mp hentry)).2
  unfold makeOwnedEnvironmentWith
  rw [if_neg (by simp [hvalid]), keepAll_of_single hinherited, nil_append]
  dsimp only
  rw [keepAll_of_single hsteam]
  dsimp only
  rw [hmade, appendVariables_faithful hA (Nat.zero_le _) hsized, pure_bind, length_append,
    Nat.add_sub_cancel_left]

theorem makeOwnedEnvironmentWith_refused [Monad m] {A : Arith m}
    (h : ¬ ∀ name ∈ allowedNames, Single t source name) :
    makeOwnedEnvironmentWith A t source windows system =
      pure (.error (if validDirectories windows system = false then
        "Invalid trusted Windows environment directories"
      else "Invalid or duplicate allowed child environment entry")) := by
  unfold makeOwnedEnvironmentWith
  split
  · rfl
  · by_cases hinherited : ∀ name ∈ kInheritedDirectories, Single t source name
    · have hsteam : ¬ ∀ name ∈ kSteamPassThrough, Single t source name := by
        intro hsteam
        refine h fun name hname => ?_
        rcases mem_append.mp hname with hmem | hmem
        · exact hinherited name hmem
        · exact hsteam name hmem
      rw [keepAll_of_single hinherited]
      dsimp only
      rw [keepAll_of_not_single hsteam]
    · rw [keepAll_of_not_single hinherited]

theorem makeOwnedEnvironmentWith_invalid [Monad m] {A : Arith m}
    (h : validDirectories windows system = false) :
    makeOwnedEnvironmentWith A t source windows system =
      pure (.error "Invalid trusted Windows environment directories") := by
  unfold makeOwnedEnvironmentWith
  rw [if_pos h]

/-- No computation of a size wraps. -/
theorem makeOwnedEnvironment_checked (t : CaseTable) (source : List Entry)
    (windows system : Utf16) :
    makeOwnedEnvironmentWith (checked 64) t source windows system =
      some (makeOwnedEnvironment t source windows system) := by
  unfold makeOwnedEnvironment
  cases hvalid : validDirectories windows system with
  | false =>
    rw [makeOwnedEnvironmentWith_invalid hvalid, makeOwnedEnvironmentWith_invalid hvalid]
    rfl
  | true =>
    by_cases h : ∀ name ∈ allowedNames, Single t source name
    · rw [makeOwnedEnvironmentWith_eq (checked_faithful 64) hvalid h,
        makeOwnedEnvironmentWith_eq (wrapping_faithful 64) hvalid h]
      rfl
    · rw [makeOwnedEnvironmentWith_refused h, makeOwnedEnvironmentWith_refused h]
      rfl

/-- Only the values under the allowed names decide. -/
theorem makeOwnedEnvironment_congr {other : List Entry} (h : SameAllowed t source other)
    (windows system : Utf16) :
    makeOwnedEnvironment t source windows system = makeOwnedEnvironment t other windows system := by
  have hinherited : ∀ name ∈ kInheritedDirectories,
      valuesOf t source name = valuesOf t other name :=
    fun name hname => h name (mem_append_left _ hname)
  have hsteam : ∀ name ∈ kSteamPassThrough, valuesOf t source name = valuesOf t other name :=
    fun name hname => h name (mem_append_right _ hname)
  unfold makeOwnedEnvironment makeOwnedEnvironmentWith
  simp only [keepAll_congr hinherited, keepAll_congr hsteam]

/-- A block is made only where every allowed name has at most one value, without a NUL. -/
theorem single_of_ok {block : Utf16} {passed : Nat}
    (h : makeOwnedEnvironment t source windows system = .ok (block, passed)) :
    validDirectories windows system = true ∧ ∀ name ∈ allowedNames, Single t source name := by
  unfold makeOwnedEnvironment at h
  constructor
  · by_contra hvalid
    rw [makeOwnedEnvironmentWith_invalid (Bool.not_eq_true _ ▸ hvalid)] at h
    cases h
  · by_contra hsingle
    rw [makeOwnedEnvironmentWith_refused hsingle] at h
    cases h

theorem length_encode_sort (values : List Variable) :
    (KeyedBlock.encode 61 0 (sortVariables t values)).length =
      (KeyedBlock.encode 61 0 values).length := by
  have hperm : (sortVariables t values).Perm values := mergeSort_perm _ _
  unfold KeyedBlock.encode
  rw [length_append, length_append, (hperm.flatMap_right _).length_eq]

/-- When a block is made, and which. -/
theorem makeOwnedEnvironment_ok_iff {block : Utf16} {passed : Nat} :
    makeOwnedEnvironment t source windows system = .ok (block, passed) ↔
      validDirectories windows system = true ∧ (∀ name ∈ allowedNames, Single t source name) ∧
        (KeyedBlock.encode 61 0 (madeVariables t source windows system)).length ≤
          kMaximumBlockUnits ∧
        block = KeyedBlock.encode 61 0 (sortVariables t (madeVariables t source windows system)) ∧
        passed = (kSteamPassThrough.flatMap (variablesOf t source)).length := by
  have hends (written : Utf16) : written =
      [] ++ (sortVariables t (madeVariables t source windows system)).flatMap
        (KeyedBlock.row 61 0) → written ++ [0] =
      KeyedBlock.encode 61 0 (sortVariables t (madeVariables t source windows system)) := by
    rintro rfl
    rfl
  constructor
  · intro h
    obtain ⟨hvalid, hsingle⟩ := single_of_ok h
    rw [makeOwnedEnvironment, makeOwnedEnvironmentWith_eq (wrapping_faithful 64) hvalid hsingle]
      at h
    cases hwritten : appendVariables (m := Id) exact []
        (sortVariables t (madeVariables t source windows system)) with
    | error message =>
      rw [hwritten] at h
      cases h
    | ok written =>
      rw [hwritten] at h
      obtain ⟨rfl, rfl⟩ := Prod.mk.inj (Except.ok.inj h)
      obtain ⟨hrows, hlength⟩ := (appendVariables_ok (by decide)).mp hwritten
      refine ⟨hvalid, hsingle, ?_, hends written hrows, rfl⟩
      rw [← length_encode_sort (t := t), ← hends written hrows, length_append]
      exact hlength
  · rintro ⟨hvalid, hsingle, hroom, rfl, rfl⟩
    rw [← length_encode_sort (t := t), ← hends _ rfl, length_append] at hroom
    rw [makeOwnedEnvironment, makeOwnedEnvironmentWith_eq (wrapping_faithful 64) hvalid hsingle,
      (appendVariables_ok (by decide)).mpr ⟨rfl, hroom⟩]
    exact congrArg (fun block => Except.ok (block, _)) (hends _ rfl)

/-- What a block holds. -/
theorem makeOwnedEnvironment_ok {block : Utf16} {passed : Nat}
    (h : makeOwnedEnvironment t source windows system = .ok (block, passed)) :
    ∃ entries, KeyedBlock.decode 61 0 block = some entries ∧
      entries.Perm (madeVariables t source windows system) ∧
      (entries.Pairwise fun a b => t.folded a.1 < t.folded b.1) ∧
      [0, 0] <:+ block ∧ block.length ≤ kMaximumBlockUnits := by
  obtain ⟨hvalid, hsingle, hroom, rfl, -⟩ := makeOwnedEnvironment_ok_iff.mp h
  have hperm : (sortVariables t (madeVariables t source windows system)).Perm
      (madeVariables t source windows system) := mergeSort_perm _ _
  have hplain : ∀ entry ∈ sortVariables t (madeVariables t source windows system),
      KeyedBlock.Plain 61 0 entry := fun entry hentry =>
    (madeVariables_plain hsingle (directories_of_valid hvalid) entry (hperm.mem_iff.mp hentry)).1
  refine ⟨_, KeyedBlock.decode_encode (by decide) hplain, hperm,
    sortVariables_pairwise (madeVariables_nodup hsingle), ?_,
    (length_encode_sort _).trans_le hroom⟩
  refine KeyedBlock.ends_twice fun hnil => ?_
  have hempty := hperm.length_eq
  rw [hnil] at hempty
  simp [madeVariables, systemVariables] at hempty

end Made

/-- **The environment of the game**, for every environment of the launcher: only what stands under
the allowed names decides; no size wraps; a block is made exactly where the directories are valid,
every allowed name has at most one value, without a NUL, and the whole fits; it decodes to the
variables kept and those of the system, each name once and in order; a second value or a NUL under
an allowed name leaves no block. -/
theorem makeOwnedEnvironment_law (t : CaseTable) (source : List Entry) (windows system : Utf16) :
    (∀ other, SameAllowed t source other → makeOwnedEnvironment t source windows system =
      makeOwnedEnvironment t other windows system) ∧
    makeOwnedEnvironmentWith (checked 64) t source windows system =
      some (makeOwnedEnvironment t source windows system) ∧
    (∀ block passed, makeOwnedEnvironment t source windows system = .ok (block, passed) ↔
      validDirectories windows system = true ∧ (∀ name ∈ allowedNames, Single t source name) ∧
        (KeyedBlock.encode 61 0 (keptVariables t source ++ systemVariables windows system)).length ≤
          kMaximumBlockUnits ∧
        block = KeyedBlock.encode 61 0
          (sortVariables t (keptVariables t source ++ systemVariables windows system)) ∧
        passed = (kSteamPassThrough.flatMap (variablesOf t source)).length) ∧
    (∀ block passed, makeOwnedEnvironment t source windows system = .ok (block, passed) →
      ∃ entries, KeyedBlock.decode 61 0 block = some entries ∧
        entries.Perm (keptVariables t source ++ systemVariables windows system) ∧
        (entries.Pairwise fun a b => t.folded a.1 < t.folded b.1) ∧
        [0, 0] <:+ block ∧ block.length ≤ kMaximumBlockUnits) ∧
    (∀ name ∈ allowedNames,
      1 < (valuesOf t source name).length ∨ (∃ value ∈ valuesOf t source name, 0 ∈ value) →
        ∀ made, makeOwnedEnvironment t source windows system ≠ .ok made) := by
  refine ⟨fun other h => makeOwnedEnvironment_congr h windows system,
    makeOwnedEnvironment_checked t source windows system,
    fun block passed => makeOwnedEnvironment_ok_iff,
    fun block passed h => makeOwnedEnvironment_ok h, ?_⟩
  intro name hname hbad made hok
  obtain ⟨-, hsingle⟩ := single_of_ok hok
  obtain ⟨hone, hclear⟩ := hsingle name hname
  rcases hbad with hmany | ⟨value, hvalue, hnul⟩
  · omega
  · exact hclear value hvalue hnul

/-- A directory for temporary files and an application of Steam are passed on, and a name that is
not allowed is not. -/
theorem makeOwnedEnvironment_law_made :
    ∃ block, makeOwnedEnvironment asciiTable
        [⟨u "Temp", u "D:\\t", by decide⟩, ⟨u "LANG", u "de", by decide⟩,
          ⟨u "SteamAppId", u "480", by decide⟩] (u "C:\\Windows") (u "C:\\Windows\\System32") =
        .ok (block, 1) ∧
      ∃ entries, KeyedBlock.decode 61 0 block = some entries ∧
        entries.Perm [(u "TEMP", u "D:\\t"), (u "SteamAppId", u "480"),
          (u "SystemRoot", u "C:\\Windows"), (u "WINDIR", u "C:\\Windows"),
          (u "PATH", u "C:\\Windows\\System32;C:\\Windows")] := by
  obtain ⟨-, -, hmade, hholds, -⟩ := makeOwnedEnvironment_law asciiTable
    [⟨u "Temp", u "D:\\t", by decide⟩, ⟨u "LANG", u "de", by decide⟩,
      ⟨u "SteamAppId", u "480", by decide⟩] (u "C:\\Windows") (u "C:\\Windows\\System32")
  have hblock := (hmade _ 1).mpr
    ⟨by decide +kernel, by decide +kernel, by decide +kernel, rfl, by decide +kernel⟩
  obtain ⟨entries, hdecoded, hperm, -⟩ := hholds _ 1 hblock
  exact ⟨_, hblock, entries, hdecoded, hperm⟩

end Mcla.Launcher.ChildEnvironment
