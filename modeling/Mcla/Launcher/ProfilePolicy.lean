import Mathlib

/-! # Profiles and launch plans

`mcla_launcher_profile_policy`: the lexical rules for the roots of profiles, of the
build and of the game.  A root is compared in a normal form, ASCII letters in lower
case and every separator a slash; two roots overlap if one is the other or lies
above it.

`rootsOverlap_iff` connects the character tests of the code with that meaning: the
components of one path begin the components of the other.
-/
namespace Mcla.Launcher
open List

/-- A `std::u16string`. -/
abbrev Utf16 := List UInt16

/-- A `std::string`. -/
abbrev Bytes := List UInt8

/-- The units of an ASCII literal. -/
def u (s : String) : Utf16 := s.toList.map fun c => UInt16.ofNat c.toNat

def kLibraryVersion : Nat := 1
def kMaximumProfiles : Nat := 64
def kMaximumLabelUnits : Nat := 80
def kMaximumPathUnits : Nat := 1024

/-- The enumerations of the source are integers; `other` is a value outside them. -/
inductive Layout where
  | managedExternalV1
  | legacyBundleUserReadOnlyV1
  | other (value : Int)
deriving DecidableEq

/-- The timing of a launch. -/
inductive TimingMode where
  | stock
  | fixed60
  | unlocked
  | other (value : Int)
deriving DecidableEq

/-- What is wrong with a library or a request. -/
inductive IssueCode where
  | unsupportedVersion | invalidCount | invalidId | invalidLabel | invalidLayout | invalidPath
  | duplicateId | duplicateRoot | overlappingProfileRoots | missingSelection | unknownSelection
  | legacyReadOnly | rootOverlap | invalidTiming | unverifiedTiming
deriving DecidableEq

/-- What is wrong, and with which entries. -/
structure Issue where
  code : IssueCode
  (entry otherEntry : Nat := 0)
deriving DecidableEq

/-- One profile. -/
structure ProfileEntry where
  id : Bytes
  (label root : Utf16)
  layout : Layout
deriving DecidableEq

/-- The profiles, and the one that is selected. -/
structure ProfileLibrary where
  version : Nat
  entries : List ProfileEntry
  selectedId : Bytes
deriving DecidableEq

/-- What a launch is asked for. -/
structure LaunchRequest where
  (buildRoot gameRoot : Utf16)
  timing : TimingMode

/-- What a launch is made of. -/
structure LaunchPlan where
  profile : ProfileEntry
  (buildRoot gameRoot : Utf16)
  timing : TimingMode
deriving DecidableEq

/-- Exactly 32 lowercase hex digits, not all zero. -/
def validOpaqueId (id : Bytes) : Bool :=
  id.length == 32 &&
    (id.all fun c => (48 ≤ c.toNat && c.toNat ≤ 57) || (97 ≤ c.toNat && c.toNat ≤ 102)) &&
    id.any fun c => c != 48

variable (c : UInt16)

/-- The lower case of `A` to `Z`. -/
def foldAscii : UInt16 := if 65 ≤ c.toNat ∧ c.toNat ≤ 90 then c + 32 else c

/-- Control characters, separators and directional marks. -/
def unsafeUnit : Bool :=
  let n := c.toNat
  n < 0x20 || (0x7f ≤ n && n ≤ 0x9f) || n == 0x2028 || n == 0x2029 ||
    (0x202a ≤ n && n ≤ 0x202e) || (0x2066 ≤ n && n ≤ 0x2069)

/-- The first half of a pair. -/
def highSurrogate : Bool := 0xd800 ≤ c.toNat && c.toNat ≤ 0xdbff

/-- The second half of a pair. -/
def lowSurrogate : Bool := 0xdc00 ≤ c.toNat && c.toNat ≤ 0xdfff

/-- `SafeUnicode`; the unit after a high surrogate is not tested by itself. -/
def safeUnicode : Utf16 → Bool
  | [] => true
  | c :: rest =>
      if unsafeUnit c then false
      else if highSurrogate c then
        match rest with
        | [] => false
        | d :: rest => lowSurrogate d && safeUnicode rest
      else !lowSurrogate c && safeUnicode rest

/-- `ReservedComponent`. -/
def reservedComponent (component : Utf16) : Bool :=
  let base := ((component.takeWhile (· != 46)).reverse.dropWhile (· == 32)).reverse
  if base ∈ [u "con", u "prn", u "aux", u "nul", u "clock$", u "conin$", u "conout$"] then true
  else if base.length ≠ 4 ∨ (base.take 3 ≠ u "com" ∧ base.take 3 ≠ u "lpt") then false
  else
    match base[3]? with
    | none => false
    | some c => (49 ≤ c.toNat && c.toNat ≤ 57) || c == 0x00b9 || c == 0x00b2 || c == 0x00b3

/-- Whether a label may be shown. -/
def validLabel (label : Utf16) : Bool :=
  !label.isEmpty && label.length ≤ kMaximumLabelUnits && label.head? != some 32 &&
    label.getLast? != some 32 && safeUnicode label

/-- The tests of one component in `NormalizeRoot`. -/
def componentRejected (component : Utf16) : Bool :=
  component.isEmpty || component.length > 255 || component == u "." || component == u ".." ||
    component.getLast? == some 46 || component.getLast? == some 32 ||
    reservedComponent component || component.any fun c => c ∈ u ":<>\"|?*"

/-- A unit in the normal form of a path. -/
def normalUnit : UInt16 := foldAscii (if c = 92 then 47 else c)

def asciiLetter : Bool := (65 ≤ c.toNat && c.toNat ≤ 90) || (97 ≤ c.toNat && c.toNat ≤ 122)

/-- The tests of the first units in `NormalizeRoot`. -/
def driveRooted : Utf16 → Bool
  | drive :: colon :: slash :: _ =>
      asciiLetter drive && colon == 58 && (slash == 47 || slash == 92)
  | _ => false

/-- `NormalizeRoot`.  The loop goes over the components between the slashes; a trailing
slash leaves an empty one. -/
def normalizeRoot (path : Utf16) : Except Issue Utf16 :=
  if path.length < 4 || path.length > kMaximumPathUnits || !safeUnicode path || !driveRooted path then
    .error { code := .invalidPath }
  else if ((path.map normalUnit).drop 3).splitOn 47 |>.any componentRejected then
    .error { code := .invalidPath }
  else .ok (path.map normalUnit)

/-- `RootsOverlap`, on normal forms. -/
def rootsOverlap (a b : Utf16) : Bool :=
  a == b || (decide (a.length < b.length) && a.isPrefixOf b && b[a.length]? == some 47) ||
    (decide (b.length < a.length) && b.isPrefixOf a && a[b.length]? == some 47)

/-- The inner loop of `ValidateLibrary`: entry `i` against the entries before it. -/
def clash (i : Nat) (entry : ProfileEntry) (normalized : Utf16) :
    Nat → List (ProfileEntry × Utf16) → Option Issue
  | _, [] => none
  | j, (other, root) :: rest =>
      if entry.id = other.id then some ⟨.duplicateId, i, j⟩
      else if normalized = root then some ⟨.duplicateRoot, i, j⟩
      else if rootsOverlap normalized root then some ⟨.overlappingProfileRoots, i, j⟩
      else clash i entry normalized (j + 1) rest

/-- The outer loop of `ValidateLibrary`, after the entries `before`. -/
def validateEntries (selectedId : Bytes) :
    List (ProfileEntry × Utf16) → Bool → List ProfileEntry → Option Issue
  | _, foundSelection, [] =>
      if !foundSelection then some { code := .unknownSelection } else none
  | before, foundSelection, entry :: rest =>
      let i := before.length
      if !validOpaqueId entry.id then some { code := .invalidId, entry := i }
      else if !validLabel entry.label then some { code := .invalidLabel, entry := i }
      else if entry.layout ≠ .managedExternalV1 ∧ entry.layout ≠ .legacyBundleUserReadOnlyV1 then
        some { code := .invalidLayout, entry := i }
      else
        match normalizeRoot entry.root with
        | .error _ => some { code := .invalidPath, entry := i }
        | .ok normalized =>
            match clash i entry normalized 0 before with
            | some issue => some issue
            | none =>
                validateEntries selectedId (before ++ [(entry, normalized)])
                  (foundSelection || entry.id == selectedId) rest

/-- `ValidateLibrary`. -/
def validateLibrary (library : ProfileLibrary) : Option Issue :=
  if library.version ≠ kLibraryVersion then some { code := .unsupportedVersion }
  else if library.entries.isEmpty ∨ library.entries.length > kMaximumProfiles then
    some { code := .invalidCount }
  else if library.selectedId.isEmpty then some { code := .missingSelection }
  else if !validOpaqueId library.selectedId then some { code := .invalidId }
  else validateEntries library.selectedId [] false library.entries

/-- The loop of `MakeLaunchPlan`: the selected entry, if no root overlaps. -/
def selectEntry (selectedId : Bytes) (build game : Utf16) :
    Nat → Option ProfileEntry → List ProfileEntry → Except Issue (Option ProfileEntry)
  | _, selected, [] => .ok selected
  | i, selected, entry :: rest =>
      match normalizeRoot entry.root with
      | .error issue => .error issue
      | .ok root =>
          if rootsOverlap root build || rootsOverlap root game then
            .error { code := .rootOverlap, entry := i }
          else
            selectEntry selectedId build game (i + 1)
              (if entry.id = selectedId then some entry else selected) rest

/-- `MakeLaunchPlan`. -/
def makeLaunchPlan (library : ProfileLibrary) (request : LaunchRequest) : Except Issue LaunchPlan :=
  match validateLibrary library with
  | some issue => .error issue
  | none =>
      if request.timing = .fixed60 then .error { code := .unverifiedTiming }
      else if request.timing ≠ .stock ∧ request.timing ≠ .unlocked then
        .error { code := .invalidTiming }
      else
        match normalizeRoot request.buildRoot, normalizeRoot request.gameRoot with
        | .error issue, _ => .error issue
        | .ok _, .error issue => .error issue
        | .ok build, .ok game =>
            if rootsOverlap build game then .error { code := .rootOverlap }
            else
              match selectEntry library.selectedId build game 0 none library.entries with
              | .error issue => .error issue
              | .ok none => .error { code := .unknownSelection }
              | .ok (some selected) =>
                  if selected.layout ≠ .managedExternalV1 then .error { code := .legacyReadOnly }
                  else
                    match normalizeRoot selected.root with
                    | .error issue => .error issue
                    | .ok root =>
                        .ok ⟨{ selected with root := root }, build, game, request.timing⟩

/-! ## Overlap of roots -/

/-- The components of a path begin those of another if they are one path or the second
goes on after a separator. -/
theorem splitOn_prefix_iff {α : Type} [DecidableEq α] {a b : List α} {s : α} :
    a.splitOn s <+: b.splitOn s ↔ a = b ∨ a ++ [s] <+: b := by
  constructor
  · rintro ⟨rest, hrest⟩
    have hb : [s].intercalate (a.splitOn s ++ rest) = b := by
      rw [hrest, intercalate_splitOn]
    cases rest with
    | nil =>
      left
      rwa [append_nil, intercalate_splitOn] at hb
    | cons c rest =>
      right
      have happend : ∀ xs : List (List α), xs ≠ [] → [s].intercalate (xs ++ c :: rest) =
          [s].intercalate xs ++ ([s] ++ [s].intercalate (c :: rest)) := by
        intro xs hxs
        induction xs with
        | nil => exact absurd rfl hxs
        | cons x xs ih =>
          by_cases hnil : xs = []
          · subst hnil
            simp
          · rw [cons_append, intercalate_cons_of_ne_nil (by simp), ih hnil,
              intercalate_cons_of_ne_nil hnil]
            simp only [append_assoc]
      rw [happend _ (splitOn_ne_nil s a), intercalate_splitOn] at hb
      exact ⟨_, by rw [append_assoc, hb]⟩
  · rintro (rfl | ⟨rest, rfl⟩)
    · exact prefix_refl _
    · rw [append_assoc, singleton_append, splitOn_append_cons_self]
      exact prefix_append _ _

/-- One of the character tests of `RootsOverlap`. -/
theorem above_iff {a b : Utf16} :
    (decide (a.length < b.length) && a.isPrefixOf b && b[a.length]? == some 47) = true ↔
      a ++ [47] <+: b := by
  rw [Bool.and_eq_true, Bool.and_eq_true, decide_eq_true_eq, beq_iff_eq]
  constructor
  · rintro ⟨⟨-, hpre⟩, hslash⟩
    obtain ⟨rest, rfl⟩ := isPrefixOf_iff_prefix.mp hpre
    rw [getElem?_append_right (le_refl _), Nat.sub_self] at hslash
    cases rest with
    | nil => cases hslash
    | cons c rest =>
      cases hslash
      exact ⟨rest, by simp⟩
  · rintro ⟨rest, rfl⟩
    rw [append_assoc]
    refine ⟨⟨by simp, isPrefixOf_iff_prefix.mpr (prefix_append _ _)⟩, ?_⟩
    rw [getElem?_append_right (le_refl _), Nat.sub_self]
    rfl

/-- **What `RootsOverlap` says**: the components of one path begin those of the other. -/
theorem rootsOverlap_iff {a b : Utf16} :
    rootsOverlap a b = true ↔ a.splitOn 47 <+: b.splitOn 47 ∨ b.splitOn 47 <+: a.splitOn 47 := by
  rw [rootsOverlap, Bool.or_eq_true, Bool.or_eq_true, above_iff, above_iff, beq_iff_eq,
    splitOn_prefix_iff, splitOn_prefix_iff]
  constructor
  · rintro ((h | h) | h)
    · exact .inl (.inl h)
    · exact .inl (.inr h)
    · exact .inr (.inr h)
  · rintro ((h | h) | (h | h))
    · exact .inl (.inl h)
    · exact .inl (.inr h)
    · exact .inl (.inl h.symm)
    · exact .inr h

/-- The normal form of a path. -/
def normalForm (path : Utf16) : Utf16 := path.map normalUnit

/-- The components of a path, with ASCII letters of one case and separators of one kind. -/
def components (path : Utf16) : List Utf16 := (normalForm path).splitOn 47

/-- Neither path is the other nor lies above it. -/
def Apart (a b : Utf16) : Prop := ¬ components a <+: components b ∧ ¬ components b <+: components a

theorem Apart.symm {a b : Utf16} (h : Apart a b) : Apart b a := ⟨h.2, h.1⟩

theorem apart_iff {a b : Utf16} :
    Apart a b ↔ rootsOverlap (normalForm a) (normalForm b) = false := by
  rw [Bool.eq_false_iff, Ne, rootsOverlap_iff, not_or]
  rfl

theorem normalizeRoot_ok {path root : Utf16} (h : normalizeRoot path = .ok root) :
    root = normalForm path := by
  unfold normalizeRoot at h
  split_ifs at h
  exact (Except.ok.inj h).symm

/-! ## Valid libraries -/

/-- Two entries with their roots can stand in one library. -/
def Compatible (a b : ProfileEntry × Utf16) : Prop := a.1.id ≠ b.1.id ∧ rootsOverlap b.2 a.2 = false

theorem clash_eq_none {i j : Nat} {entry : ProfileEntry} {normalized : Utf16}
    {before : List (ProfileEntry × Utf16)} (h : clash i entry normalized j before = none) :
    ∀ other ∈ before, Compatible other (entry, normalized) := by
  induction before generalizing j with
  | nil => simp
  | cons first rest ih =>
    obtain ⟨other, root⟩ := first
    rw [clash] at h
    split_ifs at h with hid hsame hover
    intro x hx
    rcases mem_cons.mp hx with rfl | hx
    · exact ⟨Ne.symm hid, Bool.not_eq_true _ ▸ hover⟩
    · exact ih h x hx

/-- An entry with its root in normal form. -/
def withRoot (entry : ProfileEntry) : ProfileEntry × Utf16 := (entry, normalForm entry.root)

theorem validateEntries_eq_none {selectedId : Bytes} {before : List (ProfileEntry × Utf16)}
    {found : Bool} {entries : List ProfileEntry}
    (h : validateEntries selectedId before found entries = none)
    (hbefore : before.Pairwise Compatible) :
    (before ++ entries.map withRoot).Pairwise Compatible ∧
      (∀ entry ∈ entries, validOpaqueId entry.id = true ∧ validLabel entry.label = true ∧
        (entry.layout = .managedExternalV1 ∨ entry.layout = .legacyBundleUserReadOnlyV1) ∧
        normalizeRoot entry.root = .ok (normalForm entry.root)) := by
  induction entries generalizing before found with
  | nil => exact ⟨by simpa using hbefore, by simp⟩
  | cons entry rest ih =>
    rw [validateEntries] at h
    split_ifs at h with hid hlabel hlayout
    cases hroot : normalizeRoot entry.root with
    | error issue =>
      rw [hroot] at h
      cases h
    | ok normalized =>
      obtain rfl := normalizeRoot_ok hroot
      simp only [hroot] at h
      cases hclash : clash before.length entry (normalForm entry.root) 0 before with
      | some issue =>
        rw [hclash] at h
        cases h
      | none =>
        simp only [hclash] at h
        have hnext : (before ++ [(entry, normalForm entry.root)]).Pairwise Compatible := by
          rw [pairwise_append]
          refine ⟨hbefore, pairwise_singleton _ _, fun x hx y hy => ?_⟩
          rw [mem_singleton.mp hy]
          exact clash_eq_none hclash x hx
        obtain ⟨hpairwise, hall⟩ := ih h hnext
        refine ⟨by simpa [withRoot] using hpairwise, fun x hx => ?_⟩
        rcases mem_cons.mp hx with rfl | hx
        · refine ⟨by simpa using hid, by simpa using hlabel, ?_, hroot⟩
          tauto
        · exact hall x hx

/-- What a library that passes `ValidateLibrary` is like. -/
theorem validateLibrary_eq_none {library : ProfileLibrary} (h : validateLibrary library = none) :
    (library.entries.map withRoot).Pairwise Compatible ∧
      ∀ entry ∈ library.entries, validOpaqueId entry.id = true ∧ validLabel entry.label = true ∧
        (entry.layout = .managedExternalV1 ∨ entry.layout = .legacyBundleUserReadOnlyV1) ∧
        normalizeRoot entry.root = .ok (normalForm entry.root) := by
  unfold validateLibrary at h
  split_ifs at h
  exact validateEntries_eq_none h List.Pairwise.nil

/-! ## Launch plans -/

theorem selectEntry_ok {selectedId : Bytes} {build game : Utf16} {i : Nat}
    {start result : Option ProfileEntry} {entries : List ProfileEntry}
    (h : selectEntry selectedId build game i start entries = .ok result) :
    (∀ entry ∈ entries, rootsOverlap (normalForm entry.root) build = false ∧
      rootsOverlap (normalForm entry.root) game = false) ∧
    (result = start ∨ ∃ entry ∈ entries, entry.id = selectedId ∧ result = some entry) := by
  induction entries generalizing i start with
  | nil => exact ⟨by simp, .inl (Except.ok.inj h).symm⟩
  | cons entry rest ih =>
    rw [selectEntry] at h
    cases hroot : normalizeRoot entry.root with
    | error issue =>
      rw [hroot] at h
      cases h
    | ok root =>
      obtain rfl := normalizeRoot_ok hroot
      simp only [hroot] at h
      by_cases hover : (rootsOverlap (normalForm entry.root) build ||
          rootsOverlap (normalForm entry.root) game) = true
      · rw [if_pos hover] at h
        cases h
      · rw [if_neg hover] at h
        rw [Bool.not_eq_true, Bool.or_eq_false_iff] at hover
        obtain ⟨hall, hresult⟩ := ih h
        refine ⟨fun x hx => ?_, ?_⟩
        · rcases mem_cons.mp hx with rfl | hx
          · exact hover
          · exact hall x hx
        · rcases hresult with hstart | ⟨x, hx, hid, heq⟩
          · by_cases hid : entry.id = selectedId
            · rw [if_pos hid] at hstart
              exact .inr ⟨entry, mem_cons_self, hid, hstart⟩
            · rw [if_neg hid] at hstart
              exact .inl hstart
          · exact .inr ⟨x, mem_cons_of_mem _ hx, hid, heq⟩

/-- **A launch plan keeps the roots apart.**  The build root, the game root and the
roots of all profiles are pairwise apart, and the plan is for the selected managed
profile. -/
theorem makeLaunchPlan_apart {library : ProfileLibrary} {request : LaunchRequest}
    {plan : LaunchPlan} (h : makeLaunchPlan library request = .ok plan) :
    (request.buildRoot :: request.gameRoot :: library.entries.map ProfileEntry.root).Pairwise
        Apart ∧
      ∃ selected ∈ library.entries, selected.id = library.selectedId ∧
        selected.layout = .managedExternalV1 ∧
        plan = ⟨{ selected with root := normalForm selected.root }, normalForm request.buildRoot,
          normalForm request.gameRoot, request.timing⟩ := by
  unfold makeLaunchPlan at h
  cases hvalid : validateLibrary library with
  | some issue =>
    rw [hvalid] at h
    cases h
  | none =>
    obtain ⟨hpairwise, hroots⟩ := validateLibrary_eq_none hvalid
    simp only [hvalid] at h
    split_ifs at h with hfixed hother
    cases hbuild : normalizeRoot request.buildRoot with
    | error issue =>
      rw [hbuild] at h
      cases h
    | ok build =>
      cases hgame : normalizeRoot request.gameRoot with
      | error issue =>
        rw [hbuild, hgame] at h
        cases h
      | ok game =>
        obtain rfl := normalizeRoot_ok hbuild
        obtain rfl := normalizeRoot_ok hgame
        simp only [hbuild, hgame] at h
        split_ifs at h with hover
        cases hselect : selectEntry library.selectedId (normalForm request.buildRoot)
            (normalForm request.gameRoot) 0 none library.entries with
        | error issue =>
          rw [hselect] at h
          cases h
        | ok result =>
          obtain ⟨hall, hresult⟩ := selectEntry_ok hselect
          rcases hresult with rfl | ⟨selected, hmem, hid, rfl⟩
          · rw [hselect] at h
            cases h
          · simp only [hselect] at h
            split_ifs at h with hlayout
            rw [not_not] at hlayout
            simp only [(hroots selected hmem).2.2.2] at h
            refine ⟨?_, selected, hmem, hid, hlayout, (Except.ok.inj h).symm⟩
            have hentries : (library.entries.map ProfileEntry.root).Pairwise Apart := by
              rw [pairwise_map] at hpairwise ⊢
              exact hpairwise.imp fun hab => (apart_iff.mpr hab.2).symm
            refine pairwise_cons.mpr ⟨fun root hroot => ?_,
              pairwise_cons.mpr ⟨fun root hroot => ?_, hentries⟩⟩
            · rcases mem_cons.mp hroot with rfl | hroot
              · exact apart_iff.mpr (Bool.not_eq_true _ ▸ hover)
              · obtain ⟨entry, hentry, rfl⟩ := mem_map.mp hroot
                exact (apart_iff.mpr (hall entry hentry).1).symm
            · obtain ⟨entry, hentry, rfl⟩ := mem_map.mp hroot
              exact (apart_iff.mpr (hall entry hentry).2).symm

/-- A library of two managed profiles. -/
def sampleLibrary (first second : Utf16) : ProfileLibrary :=
  let id (c : UInt8) : Bytes := replicate 32 c
  ⟨kLibraryVersion, [⟨id 49, u "MAIN", first, .managedExternalV1⟩,
    ⟨id 50, u "SPARE", second, .managedExternalV1⟩], id 49⟩

def sampleRequest : LaunchRequest := ⟨u "C:\\Build", u "D:/Game", .stock⟩

/-- The sample plan. -/
theorem makeLaunchPlan_apart_sample :
    (sampleRequest.buildRoot :: sampleRequest.gameRoot ::
        (sampleLibrary (u "E:/Saves/MAIN") (u "E:/Saves/SPARE")).entries.map
          ProfileEntry.root).Pairwise Apart ∧
      ∃ selected ∈ (sampleLibrary (u "E:/Saves/MAIN") (u "E:/Saves/SPARE")).entries,
        selected.id = (sampleLibrary (u "E:/Saves/MAIN") (u "E:/Saves/SPARE")).selectedId ∧
        selected.layout = .managedExternalV1 ∧
        (⟨⟨replicate 32 49, u "MAIN", u "e:/saves/main", .managedExternalV1⟩, u "c:/build",
            u "d:/game", .stock⟩ : LaunchPlan) =
          ⟨{ selected with root := normalForm selected.root }, normalForm sampleRequest.buildRoot,
            normalForm sampleRequest.gameRoot, sampleRequest.timing⟩ :=
  makeLaunchPlan_apart (by decide +kernel)

/-- The capital letters of Latin-1 fold like the ASCII ones. -/
def foldLatin1 : UInt16 :=
  if 0xc0 ≤ c.toNat ∧ c.toNat ≤ 0xde ∧ c.toNat ≠ 0xd7 then c + 32 else normalUnit c

/-- Two profile roots that differ only in the case of a letter outside ASCII have a
launch plan. -/
theorem plan_of_case_variants :
    let upper := u "E:/" ++ [0xc9]
    let lower := u "E:/" ++ [0xe9]
    upper.map foldLatin1 = lower.map foldLatin1 ∧
      (makeLaunchPlan (sampleLibrary upper lower) sampleRequest).isOk = true := by
  decide +kernel

end Mcla.Launcher
