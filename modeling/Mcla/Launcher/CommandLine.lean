import Mcla.Library.CommandArguments
import Mcla.Launcher.ProfilePolicy

/-! # The command line of the game

`StartOwnedProcess` of `mcla_launcher_process_win` writes the command line of the process that it
starts: the executable and every argument, each quoted, with a space between them.  The portable
launcher has a quoting of its own.  The process splits its command line by the rules of
`CommandArguments`, and gets back what was quoted.
-/
namespace Mcla.Launcher.CommandLine
open CommandArguments List

/-- The loop of `QuoteWindowsArgument`, after a number of backslashes. -/
def quoteArgumentFrom (result : Utf16) (backslashes : Nat) : Utf16 → Utf16
  | [] => result ++ replicate (backslashes * 2) 92 ++ [34]
  | c :: rest =>
      if c = 92 then quoteArgumentFrom result (backslashes + 1) rest
      else
        quoteArgumentFrom
          (result ++ replicate (if c = 34 then backslashes * 2 + 1 else backslashes) 92 ++ [c])
          0 rest

/-- `QuoteWindowsArgument`. -/
def quoteWindowsArgument (argument : Utf16) : Utf16 := quoteArgumentFrom [34] 0 argument

/-- The loop of `Quote`, of the portable launcher. -/
def quoteFrom (result : Utf16) (slashes : Nat) : Utf16 → Utf16
  | [] => result ++ replicate (slashes * 2) 92 ++ [34]
  | c :: rest =>
      if c = 92 then quoteFrom result (slashes + 1) rest
      else if c = 34 then quoteFrom (result ++ replicate (slashes * 2 + 1) 92 ++ [34]) 0 rest
      else quoteFrom (result ++ replicate slashes 92 ++ [c]) 0 rest

/-- `Quote`. -/
def quote (value : Utf16) : Utf16 := quoteFrom [34] 0 value

def kMaximumCommandUnits : Nat := 32766

/-- The loop of `StartOwnedProcess` over the arguments. -/
def appendArguments (command : Utf16) : List Utf16 → Except String Utf16
  | [] => .ok command
  | argument :: rest =>
      if 0 ∈ argument ∨ argument.length > kMaximumCommandUnits then
        .error "Owned child argument contains NUL or exceeds bound"
      else
        let command := command ++ [32] ++ quoteWindowsArgument argument
        if command.length > kMaximumCommandUnits then
          .error "Owned child command exceeds Windows length bound"
        else appendArguments command rest

/-- `StartOwnedProcess`, up to the command line; the working directory is there or is not. -/
def ownedCommand (executable working_directory : Utf16) (present : Bool)
    (arguments : List Utf16) : Except String Utf16 :=
  match normalizeRoot executable, normalizeRoot working_directory with
  | .ok _, .ok _ =>
      if present = false then .error "Owned child working directory is missing or redirected"
      else appendArguments (quoteWindowsArgument executable) arguments
  | _, _ => .error "Owned child needs explicit safe absolute local paths"

/-! ### The two quotings -/

theorem quoteArgumentFrom_eq (result : Utf16) (n : Nat) (text : Utf16) :
    quoteArgumentFrom result n text = result ++ quotedFrom n text := by
  induction text generalizing result n with
  | nil => rw [quoteArgumentFrom, quotedFrom, Nat.mul_comm, append_assoc]
  | cons c text ih =>
    rw [quoteArgumentFrom, quotedFrom]
    by_cases hslash : c = 92
    · rw [if_pos hslash, if_pos hslash, ih]
    rw [if_neg hslash, if_neg hslash, ih]
    by_cases hquote : c = 34
    · subst hquote
      rw [if_pos rfl, if_pos rfl, Nat.mul_comm]
      simp only [append_assoc, singleton_append]
    · rw [if_neg hquote, if_neg hquote]
      simp only [append_assoc, singleton_append]

theorem quoteFrom_eq (result : Utf16) (n : Nat) (text : Utf16) :
    quoteFrom result n text = result ++ quotedFrom n text := by
  induction text generalizing result n with
  | nil => rw [quoteFrom, quotedFrom, Nat.mul_comm, append_assoc]
  | cons c text ih =>
    rw [quoteFrom, quotedFrom]
    by_cases hslash : c = 92
    · rw [if_pos hslash, if_pos hslash, ih]
    rw [if_neg hslash, if_neg hslash]
    by_cases hquote : c = 34
    · subst hquote
      rw [if_pos rfl, if_pos rfl, ih, Nat.mul_comm]
      simp only [append_assoc, singleton_append]
    · rw [if_neg hquote, if_neg hquote, ih]
      simp only [append_assoc, singleton_append]

theorem quoteWindowsArgument_eq (argument : Utf16) :
    quoteWindowsArgument argument = quoted argument := quoteArgumentFrom_eq [34] 0 argument

theorem quote_eq (value : Utf16) : quote value = quoted value := quoteFrom_eq [34] 0 value

/-! ### The command line -/

/-- The executable and the arguments, quoted. -/
def joined (executable : Utf16) (arguments : List Utf16) : Utf16 :=
  quoted executable ++ arguments.flatMap fun argument => 32 :: quoted argument

/-- The loop adds every argument, or one has a NUL or the line is too long. -/
theorem appendArguments_ok {command result : Utf16} {arguments : List Utf16}
    (hcommand : command.length ≤ kMaximumCommandUnits) :
    appendArguments command arguments = .ok result ↔ (∀ argument ∈ arguments, 0 ∉ argument) ∧
      result = command ++ (arguments.flatMap fun argument => 32 :: quoted argument) ∧
      result.length ≤ kMaximumCommandUnits := by
  induction arguments generalizing command with
  | nil =>
    rw [appendArguments, flatMap_nil, append_nil, Except.ok.injEq]
    constructor
    · rintro rfl
      exact ⟨by simp, rfl, hcommand⟩
    · rintro ⟨-, rfl, -⟩
      rfl
  | cons argument rest ih =>
    have hline : command ++ ((argument :: rest).flatMap fun argument => 32 :: quoted argument) =
        (command ++ [32] ++ quoteWindowsArgument argument) ++
          (rest.flatMap fun argument => 32 :: quoted argument) := by
      rw [quoteWindowsArgument_eq, flatMap_cons]
      simp only [append_assoc, cons_append, nil_append]
    have hlonger : argument.length ≤ (command ++ [32] ++ quoteWindowsArgument argument).length := by
      have hquoted := (length_quotedFrom 0 argument).1
      rw [quoteWindowsArgument_eq, quoted, length_append, length_cons]
      omega
    rw [appendArguments, hline, forall_mem_cons]
    dsimp only
    -- A line that is too long stays so: what is added later only makes it longer.
    split_ifs with hargument hlong
    · refine ⟨nofun, ?_⟩
      rintro ⟨⟨hclear, -⟩, rfl, hroom⟩
      rw [length_append] at hroom
      exact absurd (hargument.resolve_left hclear) (by omega)
    · refine ⟨nofun, ?_⟩
      rintro ⟨-, rfl, hroom⟩
      rw [length_append] at hroom
      omega
    · rw [ih (Nat.le_of_not_lt hlong)]
      exact and_congr_left fun _ => (and_iff_right fun hmem => hargument (.inl hmem)).symm

/-- Quoting adds quotes and backslashes only. -/
theorem mem_quotedFrom {c : UInt16} {n : Nat} {text : Utf16} (h : c ∈ quotedFrom n text) :
    c = 92 ∨ c = 34 ∨ c ∈ text := by
  induction text generalizing n with
  | nil =>
    rw [quotedFrom, mem_append, mem_singleton] at h
    rcases h with hslash | hquote
    · exact .inl (eq_of_mem_replicate hslash)
    · exact .inr (.inl hquote)
  | cons d text ih =>
    have hlater : ∀ {k : Nat}, c ∈ quotedFrom k text → c = 92 ∨ c = 34 ∨ c ∈ d :: text := by
      intro k hmem
      rcases ih hmem with hslash | hquote | htext
      · exact .inl hslash
      · exact .inr (.inl hquote)
      · exact .inr (.inr (mem_cons_of_mem _ htext))
    rw [quotedFrom] at h
    split at h
    · exact hlater h
    split at h
    · rw [mem_append, mem_cons] at h
      rcases h with hslash | hquote | hrest
      · exact .inl (eq_of_mem_replicate hslash)
      · exact .inr (.inl hquote)
      · exact hlater hrest
    · rw [mem_append, mem_cons] at h
      rcases h with hslash | rfl | hrest
      · exact .inl (eq_of_mem_replicate hslash)
      · exact .inr (.inr mem_cons_self)
      · exact hlater hrest

theorem nul_quoted {text : Utf16} (h : 0 ∉ text) : 0 ∉ quoted text := by
  intro hmem
  rcases mem_cons.mp hmem with hquote | hmem
  · exact absurd hquote (by decide)
  · rcases mem_quotedFrom hmem with hslash | hquote | htext
    · exact absurd hslash (by decide)
    · exact absurd hquote (by decide)
    · exact h htext

/-! ### Paths that are safe -/

theorem le_of_safeUnicode {path : Utf16} (h : safeUnicode path = true) :
    ∀ c ∈ path, 0x20 ≤ c.toNat := by
  induction path using safeUnicode.induct with
  | case1 => simp
  | case2 c rest hrefused =>
    rw [safeUnicode.eq_def] at h
    simp [hrefused] at h
  | case3 c hsafe hhigh =>
    rw [safeUnicode.eq_def] at h
    simp [hsafe, hhigh] at h
  | case4 c hsafe hhigh d rest ih =>
    rw [safeUnicode.eq_def] at h
    simp only [hsafe, hhigh, Bool.false_eq_true, if_false, if_true, Bool.and_eq_true] at h
    have hlow := h.1
    unfold highSurrogate at hhigh
    unfold lowSurrogate at hlow
    simp only [Bool.and_eq_true, decide_eq_true_eq] at hhigh hlow
    rw [forall_mem_cons, forall_mem_cons]
    exact ⟨by omega, by omega, ih h.2⟩
  | case5 c rest hsafe hhigh ih =>
    rw [safeUnicode.eq_def] at h
    simp only [hsafe, hhigh, Bool.false_eq_true, if_false, Bool.and_eq_true] at h
    rw [forall_mem_cons]
    refine ⟨?_, ih h.2⟩
    unfold unsafeUnit at hsafe
    simp only [Bool.not_eq_true, Bool.or_eq_false_iff, decide_eq_false_iff_not] at hsafe
    omega

theorem exists_component {c sep : UInt16} (hne : c ≠ sep) {path : Utf16} (h : c ∈ path) :
    ∃ component ∈ path.splitOn sep, c ∈ component := by
  rw [splitOn_eq_splitOnP]
  induction path with
  | nil => cases h
  | cons d path ih =>
    rw [splitOnP_cons_eq_if_modifyHead]
    split
    · rename_i hsep
      rcases mem_cons.mp h with rfl | hmem
      · exact absurd (beq_iff_eq.mp hsep) hne
      · obtain ⟨component, hcomponent, hc⟩ := ih hmem
        exact ⟨component, mem_cons_of_mem _ hcomponent, hc⟩
    · cases hparts : path.splitOnP (· == sep) with
      | nil => exact absurd hparts (splitOnP_ne_nil _ _)
      | cons first others =>
        rw [modifyHead_cons]
        rcases mem_cons.mp h with rfl | hmem
        · exact ⟨c :: first, mem_cons_self, mem_cons_self⟩
        · obtain ⟨component, hcomponent, hc⟩ := ih hmem
          rw [hparts] at hcomponent
          rcases mem_cons.mp hcomponent with rfl | hlater
          · exact ⟨d :: component, mem_cons_self, mem_cons_of_mem _ hc⟩
          · exact ⟨component, mem_cons_of_mem _ hlater, hc⟩

/-- What `NormalizeRoot` accepts begins with a drive, and its components are those that are
accepted. -/
theorem rooted_of_normalizeRoot {path root : Utf16} (h : normalizeRoot path = .ok root) :
    safeUnicode path = true ∧ ∃ drive slash rest, path = drive :: 58 :: slash :: rest ∧
      rest ≠ [] ∧ asciiLetter drive = true ∧ (slash = 47 ∨ slash = 92) ∧
      ∀ component ∈ (rest.map normalUnit).splitOn 47, componentRejected component = false := by
  unfold normalizeRoot at h
  split at h
  · cases h
  rename_i hbounds
  split at h
  · cases h
  rename_i hcomponents
  simp only [Bool.or_eq_true, not_or, decide_eq_true_eq, Bool.not_eq_true', Bool.not_eq_false]
    at hbounds
  obtain ⟨⟨⟨hshort, -⟩, hsafe⟩, hdrive⟩ := hbounds
  refine ⟨hsafe, ?_⟩
  match path, hdrive with
  | drive :: colon :: slash :: rest, hdrive =>
    unfold driveRooted at hdrive
    simp only [Bool.and_eq_true, beq_iff_eq, Bool.or_eq_true] at hdrive
    obtain ⟨⟨hletter, rfl⟩, hslash⟩ := hdrive
    refine ⟨drive, slash, rest, rfl, ?_, hletter, hslash, ?_⟩
    · rintro rfl
      exact hshort (by simp)
    · intro component hmem
      by_contra hrejected
      exact hcomponents (any_eq_true.mpr ⟨component, hmem, by simpa using hrejected⟩)

/-- A path that `NormalizeRoot` accepts has no quote and no NUL, and no backslash at its end. -/
theorem plain_of_normalizeRoot {path root : Utf16} (h : normalizeRoot path = .ok root) :
    34 ∉ path ∧ 0 ∉ path ∧ path.getLast? ≠ some 92 := by
  obtain ⟨hsafe, drive, slash, rest, rfl, hne, hletter, hslash, hcomponents⟩ :=
    rooted_of_normalizeRoot h
  refine ⟨?_, ?_, ?_⟩
  · intro hmem
    simp only [mem_cons] at hmem
    rcases hmem with rfl | hcolon | rfl | hrest
    · exact absurd hletter (by decide)
    · exact absurd hcolon (by decide)
    · exact absurd hslash (by decide)
    · have hnormal : (34 : UInt16) ∈ rest.map normalUnit := mem_map.mpr ⟨34, hrest, rfl⟩
      obtain ⟨component, hcomponent, hquote⟩ := exists_component (show (34 : UInt16) ≠ 47 by decide) hnormal
      have haccepted := hcomponents component hcomponent
      unfold componentRejected at haccepted
      rw [Bool.or_eq_false_iff] at haccepted
      have hany := any_eq_false.mp haccepted.2 34 hquote
      exact hany (by decide)
  · intro hmem
    exact absurd (le_of_safeUnicode hsafe 0 hmem) (by decide)
  · intro hlast
    obtain ⟨front, rfl⟩ : ∃ front, rest = front ++ [92] := by
      have hdrop : rest.getLast? = some 92 := by
        rw [getLast?_cons_cons, getLast?_cons_cons] at hlast
        cases rest with
        | nil => exact absurd rfl hne
        | cons c rest => rwa [getLast?_cons_cons] at hlast
      exact ⟨rest.dropLast, (dropLast_append_getLast? 92 hdrop).symm⟩
    have hempty : [] ∈ ((front ++ [92]).map normalUnit).splitOn 47 := by
      rw [map_append, map_singleton, show normalUnit 92 = 47 by decide, splitOn_append_cons_self]
      exact mem_append_right _ mem_cons_self
    exact absurd (hcomponents [] hempty) (by decide)

theorem length_of_normalizeRoot {path root : Utf16} (h : normalizeRoot path = .ok root) :
    path.length ≤ kMaximumPathUnits := by
  unfold normalizeRoot at h
  split at h
  · cases h
  rename_i hbounds
  simp only [Bool.or_eq_true, not_or, decide_eq_true_eq] at hbounds
  omega

/-- When a line is built, and which. -/
theorem ownedCommand_ok {executable working_directory command : Utf16} {present : Bool}
    {arguments : List Utf16} :
    ownedCommand executable working_directory present arguments = .ok command ↔
      (normalizeRoot executable).isOk = true ∧ (normalizeRoot working_directory).isOk = true ∧
        present = true ∧ (∀ argument ∈ arguments, 0 ∉ argument) ∧
        (joined executable arguments).length ≤ kMaximumCommandUnits ∧
        command = joined executable arguments := by
  unfold ownedCommand
  cases hexecutable : normalizeRoot executable with
  | error issue => simp [Except.isOk, Except.toBool]
  | ok root =>
    cases hdirectory : normalizeRoot working_directory with
    | error issue => simp [Except.isOk, Except.toBool]
    | ok directory =>
      cases present with
      | false => simp
      | true =>
        have hshort : (quoteWindowsArgument executable).length ≤ kMaximumCommandUnits := by
          have hpath := length_of_normalizeRoot hexecutable
          have hquoted := (length_quotedFrom 0 executable).2
          have hbound : kMaximumPathUnits = 1024 := rfl
          have hroom : kMaximumCommandUnits = 32766 := rfl
          rw [quoteWindowsArgument_eq, quoted, length_cons]
          omega
        rw [if_neg (by decide), appendArguments_ok hshort, quoteWindowsArgument_eq]
        simp only [Except.isOk, Except.toBool, true_and, joined]
        refine and_congr_right fun _ => ⟨?_, ?_⟩
        · rintro ⟨rfl, hlength⟩
          exact ⟨hlength, rfl⟩
        · rintro ⟨hlength, rfl⟩
          exact ⟨rfl, hlength⟩

/-! ### What the process is given -/

/-- **The process gets back what was quoted**, under both readings of two quotes in a quoted part:
the executable and every argument, in order, whether the name of the program is read as an argument
or by its own rule.  The line is built exactly where both paths are accepted, the directory is there,
no argument has a NUL and the line is not too long.  The quoting of the portable launcher stands
for the same argument. -/
theorem arguments_split_back (doubled : Bool) (executable working_directory : Utf16)
    (present : Bool) (arguments : List Utf16) :
    split doubled (joined executable arguments) = executable :: arguments ∧
      (∀ command, ownedCommand executable working_directory present arguments = .ok command ↔
        (normalizeRoot executable).isOk = true ∧ (normalizeRoot working_directory).isOk = true ∧
          present = true ∧ (∀ argument ∈ arguments, 0 ∉ argument) ∧
          (joined executable arguments).length ≤ kMaximumCommandUnits ∧
          command = joined executable arguments) ∧
      (∀ command, ownedCommand executable working_directory present arguments = .ok command →
        command = joined executable arguments ∧ 0 ∉ command ∧
          split doubled command = executable :: arguments ∧
          programArguments doubled command = executable :: arguments) ∧
      ∀ value, quote value = quoteWindowsArgument value ∧ split doubled (quote value) = [value] := by
  refine ⟨split_joined executable arguments, fun command => ownedCommand_ok, ?_, ?_⟩
  · intro command h
    obtain ⟨hexecutable, -, -, hnul, -, rfl⟩ := ownedCommand_ok.mp h
    obtain ⟨root, hroot⟩ : ∃ root, normalizeRoot executable = .ok root := by
      cases hroot : normalizeRoot executable with
      | ok root => exact ⟨root, rfl⟩
      | error issue => simp [hroot, Except.isOk, Except.toBool] at hexecutable
    obtain ⟨hquote, hzero, hlast⟩ := plain_of_normalizeRoot hroot
    refine ⟨rfl, ?_, split_joined executable arguments,
      programArguments_joined hquote hlast arguments⟩
    intro hmem
    rcases mem_append.mp hmem with hfirst | hrest
    · exact nul_quoted hzero hfirst
    · obtain ⟨argument, hargument, hmem⟩ := mem_flatMap.mp hrest
      rcases mem_cons.mp hmem with hspace | hmem
      · exact absurd hspace (by decide)
      · exact nul_quoted (hnul argument hargument) hmem
  · intro value
    refine ⟨by rw [quote_eq, quoteWindowsArgument_eq], ?_⟩
    have hone : split doubled (joined value []) = [value] := split_joined value []
    rwa [joined, flatMap_nil, append_nil, ← quote_eq] at hone

/-- A path with a space, an argument that ends in a backslash, one with a quote and an empty one. -/
theorem arguments_split_back_folder : ∃ command,
    ownedCommand (u "C:\\My Games\\mcla.exe") (u "C:\\My Games") true
        [u "--root=D:\\my saves\\", u "say \"hi\"", []] = .ok command ∧
      split true command =
        [u "C:\\My Games\\mcla.exe", u "--root=D:\\my saves\\", u "say \"hi\"", []] := by
  obtain ⟨-, hbuilt, hread, -⟩ := arguments_split_back true (u "C:\\My Games\\mcla.exe")
    (u "C:\\My Games") true [u "--root=D:\\my saves\\", u "say \"hi\"", []]
  have hcommand := (hbuilt _).mpr ⟨by decide +kernel, by decide +kernel, rfl, by decide +kernel,
    by decide +kernel, rfl⟩
  exact ⟨_, hcommand, (hread _ hcommand).2.2.1⟩

end Mcla.Launcher.CommandLine
