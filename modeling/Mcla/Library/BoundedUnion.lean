import Mathlib

/-! # The union of lists, under a bound

Items with a key and a size are taken in one by one: an item whose key is there already is
passed over, and so is an item for which there is no room left.  Nothing taken in is ever
given up.  So an item that was passed over once would be passed over again later, and to
take in the same items once more changes nothing.
-/
namespace BoundedUnion
open List
variable {α κ : Type} [DecidableEq κ] (key : α → κ) (size : α → Nat) (used bound : Nat)

/-- What becomes of an item. -/
inductive Fate where
  | known | unfit | taken
  deriving DecidableEq

/-- The room that the items take, after `used`. -/
def room (kept : List α) : Nat := used + (kept.map size).sum

/-- What becomes of a record. -/
def fate (kept : List α) (a : α) : Fate :=
  if key a ∈ kept.map key then .known
  else if room size used kept + size a > bound then .unfit
  else .taken

/-- A record is taken, if there is room. -/
def absorb (kept : List α) (a : α) : List α :=
  if fate key size used bound kept a = .taken then kept ++ [a] else kept

/-- The records are taken one by one. -/
def absorbAll (kept : List α) (as : List α) : List α := as.foldl (absorb key size used bound) kept

/-- How many of the items meet a fate on the way. -/
def count (f : Fate) : List α → List α → Nat
  | _, [] => 0
  | kept, a :: as =>
    (if fate key size used bound kept a = f then 1 else 0) +
      count f (absorb key size used bound kept a) as

variable {key size used bound} {kept : List α} {as : List α} {a : α}

theorem fate_known : fate key size used bound kept a = .known ↔ key a ∈ kept.map key := by
  unfold fate
  split_ifs with hknown hunfit <;> simp [hknown]

theorem fate_taken : fate key size used bound kept a = .taken ↔
    key a ∉ kept.map key ∧ room size used kept + size a ≤ bound := by
  unfold fate
  split_ifs with hknown hunfit
  · simp [hknown]
  · simp only [false_iff, not_and, Nat.not_le]
    exact fun _ => hunfit
  · simp only [true_iff]
    exact ⟨hknown, Nat.not_lt.mp hunfit⟩

theorem fate_unfit : fate key size used bound kept a = .unfit ↔
    key a ∉ kept.map key ∧ bound < room size used kept + size a := by
  unfold fate
  split_ifs with hknown hunfit
  · simp [hknown]
  · simp [hknown, hunfit]
  · simp [hunfit]

theorem absorb_taken (h : fate key size used bound kept a = .taken) :
    absorb key size used bound kept a = kept ++ [a] := if_pos h

theorem absorb_not_taken (h : fate key size used bound kept a ≠ .taken) :
    absorb key size used bound kept a = kept := if_neg h

theorem absorbAll_nil : absorbAll key size used bound kept [] = kept := rfl

theorem absorbAll_cons : absorbAll key size used bound kept (a :: as) =
    absorbAll key size used bound (absorb key size used bound kept a) as := rfl

theorem absorbAll_append (as' : List α) : absorbAll key size used bound kept (as ++ as') =
    absorbAll key size used bound (absorbAll key size used bound kept as) as' :=
  foldl_append

theorem prefix_absorb (kept : List α) (a : α) : kept <+: absorb key size used bound kept a := by
  unfold absorb
  split
  · exact prefix_append _ _
  · exact prefix_rfl

/-- Nothing taken in is given up. -/
theorem prefix_absorbAll (kept as : List α) : kept <+: absorbAll key size used bound kept as := by
  induction as generalizing kept with
  | nil => exact prefix_rfl
  | cons a as ih => exact (prefix_absorb kept a).trans (ih _)

/-- What is taken in are items of the list, in its order. -/
theorem absorbAll_sublist (kept as : List α) :
    (absorbAll key size used bound kept as).Sublist (kept ++ as) := by
  induction as generalizing kept with
  | nil => rw [append_nil]; exact List.Sublist.refl _
  | cons a as ih =>
    refine (ih _).trans ?_
    unfold absorb
    split
    · rw [append_assoc]
      exact List.Sublist.refl _
    · exact List.Sublist.append_left (sublist_cons_self a as) kept

theorem absorb_nodup (h : (kept.map key).Nodup) (a : α) :
    ((absorb key size used bound kept a).map key).Nodup := by
  by_cases htaken : fate key size used bound kept a = .taken
  · have hnew : key a ∉ kept.map key := (fate_taken.mp htaken).1
    rw [absorb_taken htaken, map_append, map_singleton, ← concat_eq_append]
    exact List.Nodup.concat hnew h
  · rwa [absorb_not_taken htaken]

theorem absorbAll_nodup (h : (kept.map key).Nodup) (as : List α) :
    ((absorbAll key size used bound kept as).map key).Nodup := by
  induction as generalizing kept with
  | nil => exact h
  | cons a as ih => exact ih (absorb_nodup h a)

theorem room_append (kept as : List α) :
    room size used (kept ++ as) = room size used kept + (as.map size).sum := by
  unfold room
  rw [map_append, sum_append, Nat.add_assoc]

theorem room_absorb_le (h : room size used kept ≤ max used bound) (a : α) :
    room size used (absorb key size used bound kept a) ≤ max used bound := by
  by_cases htaken : fate key size used bound kept a = .taken
  · rw [absorb_taken htaken, room_append, map_singleton, sum_singleton]
    exact (fate_taken.mp htaken).2.trans (le_max_right _ _)
  · rwa [absorb_not_taken htaken]

theorem room_absorbAll_le (h : room size used kept ≤ max used bound) (as : List α) :
    room size used (absorbAll key size used bound kept as) ≤ max used bound := by
  induction as generalizing kept with
  | nil => exact h
  | cons a as ih => exact ih (room_absorb_le h a)

/-- Where an item was taken in, the bound holds. -/
theorem room_of_ne (h : absorbAll key size used bound kept as ≠ kept) :
    room size used (absorbAll key size used bound kept as) ≤ bound := by
  induction as generalizing kept with
  | nil => exact absurd rfl h
  | cons a as ih =>
    rw [absorbAll_cons] at h ⊢
    by_cases htaken : fate key size used bound kept a = .taken
    · by_cases hsame : absorbAll key size used bound (absorb key size used bound kept a) as =
          absorb key size used bound kept a
      · rw [hsame, absorb_taken htaken, room_append, map_singleton, sum_singleton]
        exact (fate_taken.mp htaken).2
      · exact ih hsame
    · rw [absorb_not_taken htaken] at h ⊢
      exact ih h

/-- An item that would not be taken in. -/
def Settled (key : α → κ) (size : α → Nat) (used bound : Nat) (kept : List α) (a : α) : Prop :=
  fate key size used bound kept a ≠ .taken

theorem Settled.mono {kept' : List α} (h : Settled key size used bound kept a)
    (hpre : kept <+: kept') : Settled key size used bound kept' a := by
  obtain ⟨more, rfl⟩ := hpre
  intro htaken
  obtain ⟨hknown, hfit⟩ := fate_taken.mp htaken
  rw [map_append, mem_append, not_or] at hknown
  rw [room_append] at hfit
  exact h (fate_taken.mpr ⟨hknown.1, by omega⟩)

theorem settled_absorb (kept : List α) (a : α) :
    Settled key size used bound (absorb key size used bound kept a) a := by
  by_cases htaken : fate key size used bound kept a = .taken
  · rw [absorb_taken htaken]
    intro hagain
    refine (fate_taken.mp hagain).1 ?_
    rw [map_append]
    exact mem_append_right _ (mem_singleton.mpr rfl)
  · rwa [absorb_not_taken htaken]

/-- Once the items are taken in, none of them would be again. -/
theorem settled_absorbAll (kept as : List α) :
    ∀ a ∈ as, Settled key size used bound (absorbAll key size used bound kept as) a := by
  induction as generalizing kept with
  | nil => exact fun a ha => (not_mem_nil ha).elim
  | cons b as ih =>
    refine forall_mem_cons.mpr ⟨?_, fun a ha => ih _ a ha⟩
    exact (settled_absorb kept b).mono (prefix_absorbAll _ _)

theorem absorbAll_settled (h : ∀ a ∈ as, Settled key size used bound kept a) :
    absorbAll key size used bound kept as = kept := by
  induction as with
  | nil => rfl
  | cons a as ih =>
    obtain ⟨ha, has⟩ := forall_mem_cons.mp h
    rw [absorbAll_cons, absorb_not_taken ha]
    exact ih has

/-- To take in what was kept, from the start, keeps it. -/
theorem absorbAll_self (hnodup : (as.map key).Nodup) (hroom : as ≠ [] → room size used as ≤ bound) :
    absorbAll key size used bound [] as = as := by
  have haux : ∀ before after, before ++ after = as →
      absorbAll key size used bound before after = as := by
    intro before after
    induction after generalizing before with
    | nil =>
      intro heq
      rwa [append_nil] at heq
    | cons a after ih =>
      intro heq
      have htaken : fate key size used bound before a = .taken := by
        rw [fate_taken]
        have hfull := hroom (by rw [← heq]; exact append_ne_nil_of_right_ne_nil _ (by simp))
        rw [← heq, room_append, map_cons, sum_cons] at hfull
        rw [← heq, map_append, map_cons, nodup_append] at hnodup
        refine ⟨fun hmem => ?_, by omega⟩
        exact hnodup.2.2 _ hmem _ mem_cons_self rfl
      rw [absorbAll_cons, absorb_taken htaken]
      exact ih (before ++ [a]) (by rw [append_assoc]; exact heq)
  exact haux [] as rfl

/-- Every item is known, unfit or taken in. -/
theorem count_total (kept as : List α) :
    count key size used bound .taken kept as + count key size used bound .known kept as +
      count key size used bound .unfit kept as = as.length := by
  induction as generalizing kept with
  | nil => rfl
  | cons a as ih =>
    have hrest := ih (absorb key size used bound kept a)
    simp only [count, length_cons]
    cases fate key size used bound kept a <;> simp only [reduceCtorEq, if_true, if_false] <;> omega

theorem count_taken (kept as : List α) :
    (absorbAll key size used bound kept as).length =
      kept.length + count key size used bound .taken kept as := by
  induction as generalizing kept with
  | nil => rfl
  | cons a as ih =>
    rw [absorbAll_cons, ih, count]
    by_cases htaken : fate key size used bound kept a = .taken
    · rw [absorb_taken htaken, if_pos htaken, length_append, length_singleton]
      omega
    · rw [absorb_not_taken htaken, if_neg htaken]
      omega

theorem count_append (f : Fate) (kept as as' : List α) :
    count key size used bound f kept (as ++ as') = count key size used bound f kept as +
      count key size used bound f (absorbAll key size used bound kept as) as' := by
  induction as generalizing kept with
  | nil => simp [count, absorbAll_nil]
  | cons a as ih =>
    rw [cons_append, count, count, ih, absorbAll_cons, Nat.add_assoc]

/-- Every item of the list was taken in after those taken in before it, or had the key of one
of them, or found no room after them. -/
theorem absorbAll_split (before : List α) (a : α) (after : List α) :
    absorbAll key size used bound kept before <+:
        absorbAll key size used bound kept (before ++ a :: after) ∧
      (absorbAll key size used bound kept before ++ [a] <+:
          absorbAll key size used bound kept (before ++ a :: after) ∨
        key a ∈ (absorbAll key size used bound kept before).map key ∨
        bound < room size used (absorbAll key size used bound kept before) + size a) := by
  rw [absorbAll_append, absorbAll_cons]
  refine ⟨(prefix_absorb _ a).trans (prefix_absorbAll _ _), ?_⟩
  cases hfate : fate key size used bound (absorbAll key size used bound kept before) a with
  | known => exact .inr (.inl (fate_known.mp hfate))
  | unfit => exact .inr (.inr (fate_unfit.mp hfate).2)
  | taken =>
    left
    rw [absorb_taken hfate]
    exact prefix_absorbAll _ _

/-- Where every item found room, the keys are those there and those of the items. -/
theorem mem_keys_of_fit (h : count key size used bound .unfit kept as = 0) (k : κ) :
    k ∈ (absorbAll key size used bound kept as).map key ↔ k ∈ kept.map key ∨ k ∈ as.map key := by
  induction as generalizing kept with
  | nil => simp [absorbAll_nil]
  | cons a as ih =>
    rw [count, Nat.add_eq_zero_iff] at h
    obtain ⟨hfit, hrest⟩ := h
    rw [absorbAll_cons, ih hrest, map_cons, mem_cons]
    cases hfate : fate key size used bound kept a with
    | known =>
      have hknown := fate_known.mp hfate
      rw [absorb_not_taken (by rw [hfate]; decide)]
      constructor
      · rintro (hk | hk)
        · exact .inl hk
        · exact .inr (.inr hk)
      · rintro (hk | rfl | hk)
        · exact .inl hk
        · exact .inl hknown
        · exact .inr hk
    | unfit => simp [hfate] at hfit
    | taken =>
      rw [absorb_taken hfate, map_append, mem_append, map_singleton, mem_singleton]
      exact or_assoc

end BoundedUnion
