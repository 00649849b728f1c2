import Mathlib

/-! # One-to-one correspondence by a scan

A scan goes over what is there, and refuses what is barred, what it has seen before under another
spelling and what is not among the things expected; at the end the count decides that nothing is
missing.  Where no two things expected have one key, what passes corresponds to them one to one.
-/
namespace Correspondence
open List

/-! ### The count -/

section Keys
variable {κ : Type}

theorem perm_iff {keys expected : List κ} (h : expected.Nodup) : keys.Perm expected ↔
    keys.Nodup ∧ (∀ k ∈ keys, k ∈ expected) ∧ keys.length = expected.length := by
  constructor
  · intro hperm
    exact ⟨hperm.nodup_iff.mpr h, fun k hk => hperm.mem_iff.mp hk, hperm.length_eq⟩
  · rintro ⟨hnodup, hmem, hlength⟩
    exact (hnodup.subperm hmem).perm_of_length_le hlength.ge

/-- The parts of a list, by a key that each element has once, are the list. -/
theorem parts_perm {α β : Type} [DecidableEq κ] {of : α → κ} {key : β → κ} {parts : List β}
    (hparts : (parts.map key).Nodup) {l : List α} (hl : ∀ a ∈ l, of a ∈ parts.map key) :
    (parts.flatMap fun part => l.filter fun a => of a = key part).Perm l := by
  induction parts generalizing l with
  | nil =>
    cases l with
    | nil => exact .refl _
    | cons a l => exact absurd (hl a mem_cons_self) not_mem_nil
  | cons part rest ih =>
    rw [map_cons, nodup_cons] at hparts
    have hsplit := filter_append_perm (fun a => decide (of a = key part)) l
    have hothers : ∀ a ∈ l.filter fun a => !decide (of a = key part), of a ∈ rest.map key := by
      intro a ha
      rw [mem_filter, Bool.not_eq_true', decide_eq_false_iff_not] at ha
      rcases mem_cons.mp (hl a ha.1) with heq | hmem
      · exact absurd heq ha.2
      · exact hmem
    have hrest := ih hparts.2 hothers
    rw [flatMap_cons]
    refine .trans (List.Perm.append_left _ ?_) hsplit
    -- the parts of the rest lose nothing with the first part
    have hsame : (rest.flatMap fun other => l.filter fun a => of a = key other) =
        rest.flatMap fun other => (l.filter fun a => !decide (of a = key part)).filter fun a =>
          of a = key other := by
      apply flatMap_congr
      intro other hother
      rw [filter_filter]
      apply filter_congr
      intro a _
      by_cases heq : of a = key other
      · have hne : of a ≠ key part := by
          intro hpart
          exact hparts.1 (mem_map.mpr ⟨other, hother, heq.symm.trans hpart⟩)
        rw [decide_eq_true heq, decide_eq_false hne]
        rfl
      · rw [decide_eq_false heq]
        rfl
    rw [hsame]
    exact hrest

end Keys

/-! ### The scan -/

/-- What a scan goes by, and what it says. -/
structure Rules (ι ν ε : Type) where
  name : ι → ν
  alike : ν → ν → Bool
  limit : Nat
  (barred allowed : ι → Bool)
  excessive : ε
  aliased : ε
  unexpected : ι → ε

section Scan
variable {ι ν ε κ : Type} (r : Rules ι ν ε)

/-- The items are told apart, one by one. -/
def scan (seen : List ν) : List ι → Except ε (List ν)
  | [] => .ok seen
  | item :: rest =>
    if r.limit ≤ seen.length ∨ r.barred item = true then .error r.excessive
    else if seen.any (r.alike · (r.name item)) then .error r.aliased
    else if r.allowed item = false then .error (r.unexpected item)
    else scan (seen ++ [r.name item]) rest

variable {r}

theorem scan_append {seen seen' : List ν} {a b : List ι} :
    scan r seen (a ++ b) = .ok seen' ↔
      ∃ next, scan r seen a = .ok next ∧ scan r next b = .ok seen' := by
  induction a generalizing seen with
  | nil => simp [scan]
  | cons item rest ih =>
    rw [cons_append, scan, scan]
    split_ifs <;> simp [ih]

theorem scan_cons {key : ν → κ} (halike : ∀ a b, r.alike a b = true ↔ key a = key b)
    {seen seen' : List ν} {item : ι} {rest : List ι} :
    scan r seen (item :: rest) = .ok seen' ↔
      (seen.length < r.limit ∧ key (r.name item) ∉ seen.map key ∧ r.barred item = false ∧
        r.allowed item = true) ∧ scan r (seen ++ [r.name item]) rest = .ok seen' := by
  have hany : seen.any (r.alike · (r.name item)) = true ↔ key (r.name item) ∈ seen.map key := by
    rw [any_eq_true, mem_map]
    constructor
    · rintro ⟨a, ha, h⟩
      exact ⟨a, ha, (halike _ _).mp h⟩
    · rintro ⟨a, ha, h⟩
      exact ⟨a, ha, (halike _ _).mpr h⟩
  rw [scan]
  by_cases hroom : r.limit ≤ seen.length ∨ r.barred item = true
  · rw [if_pos hroom]
    constructor
    · exact fun h => nomatch h
    · rintro ⟨⟨hlimit, -, hbarred, -⟩, -⟩
      rcases hroom with hfull | hbar
      · omega
      · rw [hbar] at hbarred
        cases hbarred
  · rw [if_neg hroom]
    rw [not_or, Nat.not_le, Bool.not_eq_true] at hroom
    by_cases hold : key (r.name item) ∈ seen.map key
    · rw [if_pos (hany.mpr hold)]
      constructor
      · exact fun h => nomatch h
      · exact fun h => absurd hold h.1.2.1
    · rw [if_neg (fun h => hold (hany.mp h))]
      by_cases hallowed : r.allowed item = false
      · rw [if_pos hallowed]
        constructor
        · exact fun h => nomatch h
        · intro h
          rw [hallowed] at h
          exact nomatch h.1.2.2.2
      · rw [if_neg hallowed]
        rw [Bool.not_eq_false] at hallowed
        exact ⟨fun h => ⟨⟨hroom.1, hold, hroom.2, hallowed⟩, h⟩, And.right⟩

/-- What a scan accepts: nothing barred, everything expected, no key twice, and not too much. -/
theorem scan_ok {key : ν → κ} (halike : ∀ a b, r.alike a b = true ↔ key a = key b)
    {seen seen' : List ν} (hseen : (seen.map key).Nodup) {items : List ι} :
    scan r seen items = .ok seen' ↔ seen' = seen ++ items.map r.name ∧
      ((seen ++ items.map r.name).map key).Nodup ∧
      (∀ item ∈ items, r.barred item = false ∧ r.allowed item = true) ∧
      (items = [] ∨ seen.length + items.length ≤ r.limit) := by
  induction items generalizing seen with
  | nil =>
    rw [scan, Except.ok.injEq, map_nil, append_nil]
    constructor
    · rintro rfl
      exact ⟨rfl, hseen, forall_mem_nil _, .inl rfl⟩
    · exact fun h => h.1.symm
  | cons item rest ih =>
    have hsnoc : ((seen ++ [r.name item]).map key).Nodup ↔ key (r.name item) ∉ seen.map key := by
      rw [map_append, map_singleton, ← concat_eq_append, nodup_concat]
      exact and_iff_left hseen
    have hassoc : seen ++ (item :: rest).map r.name =
        (seen ++ [r.name item]) ++ rest.map r.name := by simp
    have hlimit : seen.length < r.limit ∧ (rest = [] ∨
        (seen ++ [r.name item]).length + rest.length ≤ r.limit) ↔
          seen.length + (item :: rest).length ≤ r.limit := by
      rw [length_append, length_singleton, length_cons]
      cases rest with
      | nil => simp
      | cons _ _ => simp; omega
    rw [scan_cons halike, hassoc, forall_mem_cons]
    constructor
    · rintro ⟨⟨hfull, hnew, hbarred, hallowed⟩, h⟩
      obtain ⟨heq, hnodup, hrest, hroom⟩ := (ih (hsnoc.mpr hnew)).mp h
      exact ⟨heq, hnodup, ⟨⟨hbarred, hallowed⟩, hrest⟩, .inr (hlimit.mp ⟨hfull, hroom⟩)⟩
    · rintro ⟨heq, hnodup, ⟨⟨hbarred, hallowed⟩, hrest⟩, hroom⟩
      have hnew : ((seen ++ [r.name item]).map key).Nodup := by
        rw [map_append] at hnodup
        exact hnodup.of_append_left
      obtain ⟨hfull, hroom⟩ := hlimit.mpr (hroom.resolve_left (cons_ne_nil _ _))
      exact ⟨⟨hfull, hsnoc.mp hnew, hbarred, hallowed⟩, (ih hnew).mpr ⟨heq, hnodup, hrest, hroom⟩⟩

end Scan

end Correspondence
