import Mcla.Launcher.ProfilePolicy

/-! # Normal forms of roots

Two paths mean one root if they differ in the case of ASCII letters and in the direction of
slashes only.  `normalizeRoot` gives such paths one form, which it leaves as it is, and
`rootsOverlap` on these forms compares the paths component by component.
-/
namespace Mcla.Launcher
open List

/-! ### What a path means -/

variable (c : UInt16)

/-- A slash of either kind. -/
def separator : Bool := c == 47 || c == 92

/-- `A` to `Z`. -/
def upper : Prop := 65 ≤ c.toNat ∧ c.toNat ≤ 90

/-- One unit, up to ASCII case and the direction of a slash. -/
def SameUnit (c d : UInt16) : Prop :=
  c = d ∨ (separator c = true ∧ separator d = true) ∨
    (upper c ∧ d.toNat = c.toNat + 32) ∨ (upper d ∧ c.toNat = d.toNat + 32)

/-- The components between the separators of a path as it is given. -/
def rawComponents (path : Utf16) : List Utf16 := path.splitOnP separator

/-- The components differ in the case of letters alone. -/
def SameComponent : Utf16 → Utf16 → Prop := Forall₂ SameUnit

/-- The components of one path begin those of the other. -/
def ComponentsBegin (a b : Utf16) : Prop :=
  ∃ head tail, rawComponents b = head ++ tail ∧ Forall₂ SameComponent (rawComponents a) head

/-! ### Units -/

theorem toNat_foldAscii :
    (foldAscii c).toNat = if 65 ≤ c.toNat ∧ c.toNat ≤ 90 then c.toNat + 32 else c.toNat := by
  unfold foldAscii
  split
  · rw [UInt16.toNat_add]
    have : (32 : UInt16).toNat = 32 := rfl
    omega
  · rfl

theorem toNat_normalUnit :
    (normalUnit c).toNat = if c.toNat = 92 then 47
      else if 65 ≤ c.toNat ∧ c.toNat ≤ 90 then c.toNat + 32 else c.toNat := by
  unfold normalUnit
  by_cases hslash : c = 92
  · subst hslash
    rfl
  · have hne : c.toNat ≠ 92 := fun h => hslash (UInt16.toNat_inj.mp h)
    rw [if_neg hslash, if_neg hne, toNat_foldAscii]

theorem separator_iff {c : UInt16} : separator c = true ↔ c.toNat = 47 ∨ c.toNat = 92 := by
  unfold separator
  rw [Bool.or_eq_true, beq_iff_eq, beq_iff_eq, ← UInt16.toNat_inj, ← UInt16.toNat_inj]
  rfl

theorem normalUnit_eq_iff {c d : UInt16} : normalUnit c = normalUnit d ↔ SameUnit c d := by
  unfold SameUnit upper
  rw [← UInt16.toNat_inj, ← UInt16.toNat_inj, toNat_normalUnit, toNat_normalUnit, separator_iff,
    separator_iff]
  split_ifs <;> omega

theorem normalUnit_idem : normalUnit (normalUnit c) = normalUnit c := by
  rw [← UInt16.toNat_inj]
  rw [toNat_normalUnit, toNat_normalUnit]
  split_ifs <;> omega

/-- The separators are the units whose normal form is a slash. -/
theorem normalUnit_slash : (normalUnit c == 47) = separator c := by
  rw [Bool.eq_iff_iff, beq_iff_eq, separator_iff, ← UInt16.toNat_inj, toNat_normalUnit]
  have : (47 : UInt16).toNat = 47 := rfl
  split_ifs <;> omega

/-! ### Paths -/

theorem map_normalUnit_eq_iff {a b : Utf16} :
    a.map normalUnit = b.map normalUnit ↔ Forall₂ SameUnit a b := by
  rw [← forall₂_eq_eq_eq, forall₂_map_left_iff, forall₂_map_right_iff]
  constructor
  · exact Forall₂.imp fun _ _ => normalUnit_eq_iff.mp
  · exact Forall₂.imp fun _ _ => normalUnit_eq_iff.mpr

/-- A normal form is split where the path is. -/
theorem splitOn_map_normalUnit (path : Utf16) :
    (path.map normalUnit).splitOn 47 = (rawComponents path).map (List.map normalUnit) := by
  unfold rawComponents
  rw [splitOn_eq_splitOnP]
  induction path with
  | nil => rfl
  | cons c path ih =>
    rw [map_cons, splitOnP_cons_eq_if_modifyHead, splitOnP_cons_eq_if_modifyHead,
      normalUnit_slash, ih]
    split
    · rfl
    · cases List.splitOnP separator path <;> rfl

theorem prefix_iff_begin {a b : Utf16} :
    (a.map normalUnit).splitOn 47 <+: (b.map normalUnit).splitOn 47 ↔ ComponentsBegin a b := by
  have hsame : ∀ xs ys : List Utf16, xs.map (List.map normalUnit) = ys.map (List.map normalUnit) ↔
      Forall₂ SameComponent xs ys := by
    intro xs ys
    rw [← forall₂_eq_eq_eq, forall₂_map_left_iff, forall₂_map_right_iff]
    constructor
    · exact Forall₂.imp fun _ _ => map_normalUnit_eq_iff.mp
    · exact Forall₂.imp fun _ _ => map_normalUnit_eq_iff.mpr
  rw [splitOn_map_normalUnit, splitOn_map_normalUnit]
  constructor
  · rintro ⟨rest, hrest⟩
    obtain ⟨head, tail, hsplit, hhead, -⟩ := map_eq_append_iff.mp hrest.symm
    exact ⟨head, tail, hsplit, (hsame _ _).mp hhead.symm⟩
  · rintro ⟨head, tail, hsplit, hhead⟩
    rw [hsplit, map_append, (hsame _ _).mpr hhead]
    exact prefix_append _ _

/-! ### Normal forms of accepted paths -/

theorem unsafeUnit_normalUnit : unsafeUnit (normalUnit c) = unsafeUnit c := by
  unfold unsafeUnit
  rw [toNat_normalUnit]
  rw [Bool.eq_iff_iff]
  simp only [Bool.or_eq_true, Bool.and_eq_true, decide_eq_true_eq, beq_iff_eq]
  split
  · omega
  · split <;> omega

theorem surrogate_normalUnit :
    highSurrogate (normalUnit c) = highSurrogate c ∧ lowSurrogate (normalUnit c) = lowSurrogate c := by
  unfold highSurrogate lowSurrogate
  rw [toNat_normalUnit]
  constructor
  · rw [Bool.eq_iff_iff]
    simp only [Bool.and_eq_true, decide_eq_true_eq]
    split_ifs <;> omega
  · rw [Bool.eq_iff_iff]
    simp only [Bool.and_eq_true, decide_eq_true_eq]
    split_ifs <;> omega

theorem safeUnicode_cons (rest : Utf16) : safeUnicode (c :: rest) = if unsafeUnit c then false
    else if highSurrogate c then
      match rest with
      | [] => false
      | d :: rest => lowSurrogate d && safeUnicode rest
    else !lowSurrogate c && safeUnicode rest := by
  rw [safeUnicode.eq_def]
  rfl

theorem safeUnicode_map (path : Utf16) : safeUnicode (path.map normalUnit) = safeUnicode path := by
  induction path using safeUnicode.induct with
  | case1 => rfl
  | case2 c rest hunsafe =>
    rw [map_cons, safeUnicode_cons, safeUnicode_cons, unsafeUnit_normalUnit, if_pos hunsafe,
      if_pos hunsafe]
  | case3 c hsafe hhigh =>
    rw [map_cons, safeUnicode_cons, safeUnicode_cons, unsafeUnit_normalUnit,
      (surrogate_normalUnit c).1, if_neg hsafe, if_neg hsafe, if_pos hhigh, if_pos hhigh]
    rfl
  | case4 c hsafe hhigh d rest ih =>
    rw [map_cons, safeUnicode_cons, safeUnicode_cons, unsafeUnit_normalUnit,
      (surrogate_normalUnit c).1, if_neg hsafe, if_neg hsafe, if_pos hhigh, if_pos hhigh]
    show (lowSurrogate (normalUnit d) && safeUnicode (rest.map normalUnit)) = _
    rw [(surrogate_normalUnit d).2, ih]
  | case5 c rest hsafe hhigh ih =>
    rw [map_cons, safeUnicode_cons, safeUnicode_cons, unsafeUnit_normalUnit,
      (surrogate_normalUnit c).1, if_neg hsafe, if_neg hsafe, if_neg hhigh, if_neg hhigh,
      (surrogate_normalUnit c).2, ih]

theorem driveRooted_map {path : Utf16} (h : driveRooted path = true) :
    driveRooted (path.map normalUnit) = true := by
  match path, h with
  | drive :: colon :: slash :: rest, h =>
    unfold driveRooted asciiLetter at h ⊢
    simp only [map_cons, Bool.and_eq_true, Bool.or_eq_true, decide_eq_true_eq, beq_iff_eq] at h ⊢
    obtain ⟨⟨hletter, hcolon⟩, hslash⟩ := h
    subst hcolon
    refine ⟨⟨?_, rfl⟩, Or.inl ?_⟩
    · rw [toNat_normalUnit]
      split_ifs <;> omega
    · rcases hslash with rfl | rfl <;> rfl

/-- The normal form of a path is one that `normalizeRoot` leaves as it is. -/
theorem normalizeRoot_again {path root : Utf16} (h : normalizeRoot path = .ok root) :
    normalizeRoot root = .ok root := by
  have hidem : (path.map normalUnit).map normalUnit = path.map normalUnit := by
    rw [map_map]
    exact map_congr_left fun c _ => normalUnit_idem c
  unfold normalizeRoot at h
  split at h
  · cases h
  · rename_i hshape
    split at h
    · cases h
    · rename_i hcomponents
      cases h
      simp only [Bool.or_eq_true, decide_eq_true_eq, not_or, Bool.not_eq_true', Bool.not_eq_false]
        at hshape
      obtain ⟨⟨⟨hshort, hlong⟩, hsafe⟩, hdrive⟩ := hshape
      unfold normalizeRoot
      rw [hidem, if_neg hcomponents, length_map, safeUnicode_map, hsafe, driveRooted_map hdrive]
      rw [if_neg]
      simp [hshort, hlong]

/-- **Normal forms**: the form of an accepted path is its own form, two forms are one exactly if
the paths are up to ASCII case and the direction of slashes, and two forms overlap exactly if the
components of one path begin those of the other. -/
theorem normalForms_compare {a b na nb : Utf16} (ha : normalizeRoot a = .ok na)
    (hb : normalizeRoot b = .ok nb) :
    normalizeRoot na = .ok na ∧ normalizeRoot nb = .ok nb ∧ (na = nb ↔ Forall₂ SameUnit a b) ∧
      (rootsOverlap na nb = true ↔ ComponentsBegin a b ∨ ComponentsBegin b a) := by
  have hform : ∀ {path root : Utf16}, normalizeRoot path = .ok root → root = path.map normalUnit := by
    intro path root h
    unfold normalizeRoot at h
    split at h
    · cases h
    · split at h
      · cases h
      · cases h
        rfl
  refine ⟨normalizeRoot_again ha, normalizeRoot_again hb, ?_, ?_⟩
  · rw [hform ha, hform hb]
    exact map_normalUnit_eq_iff
  · rw [rootsOverlap_iff, hform ha, hform hb, prefix_iff_begin, prefix_iff_begin]

/-- A common beginning of the last components is no overlap. -/
theorem normalForms_compare_sample :
    rootsOverlap (u "c:/games/midnight") (u "c:/games/midnightclub") = false ∧
      rootsOverlap (u "c:/games") (u "c:/games/midnight") = true ∧
      (rootsOverlap (u "c:/games") (u "c:/games/midnight") = true ↔
        ComponentsBegin (u "C:\\Games") (u "c:/GAMES\\Midnight") ∨
          ComponentsBegin (u "c:/GAMES\\Midnight") (u "C:\\Games")) :=
  ⟨by decide +kernel, by decide +kernel,
    (normalForms_compare (a := u "C:\\Games") (b := u "c:/GAMES\\Midnight") (by decide +kernel)
      (by decide +kernel)).2.2.2⟩

end Mcla.Launcher
