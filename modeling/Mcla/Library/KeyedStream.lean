import Mathlib

/-! # Streams whose keys never fall

A pass over a stream that keeps only the element before.  Where no key falls, equal keys stand
side by side: what agrees between neighbours of one key agrees between any two elements of that
key, and the elements that differ from the one before are as many as the keys.
-/
namespace KeyedStream
open List

/-! ### Agreement -/

section Agreement
variable {α κ γ : Type} [PartialOrder κ] (key : α → κ) (content : α → γ)

/-- One element after another: the key does not fall, and with the key the content stays. -/
def Follows (a b : α) : Prop := key a ≤ key b ∧ (key a = key b → content a = content b)

variable {key content}

/-- Equal keys at the ends leave no other key between. -/
theorem Follows.trans {a b c : α} (hab : Follows key content a b) (hbc : Follows key content b c) :
    Follows key content a c := by
  refine ⟨hab.1.trans hbc.1, fun heq => ?_⟩
  have hb : key a = key b := le_antisymm hab.1 (hbc.1.trans heq.ge)
  rw [hab.2 hb, hbc.2 (hb.symm.trans heq)]

instance : IsTrans α (Follows key content) := ⟨fun _ _ _ => Follows.trans⟩

theorem agrees {l : List α} (h : l.IsChain (Follows key content)) {a b : α} (ha : a ∈ l)
    (hb : b ∈ l) (heq : key a = key b) : content a = content b := by
  have hpairs : l.Pairwise fun a b => key a = key b → content a = content b :=
    (isChain_iff_pairwise.mp h).imp And.right
  have hflip : l.Pairwise (flip fun a b => key a = key b → content a = content b) :=
    hpairs.imp fun hab heq => (hab heq.symm).symm
  exact hpairs.forall_of_forall_of_flip (fun _ _ _ => rfl) hflip ha hb heq

theorem keys_chain {l : List α} (h : l.IsChain (Follows key content)) :
    (l.map key).IsChain (· ≤ ·) :=
  isChain_map_of_isChain key (fun _ _ => And.left) h

end Agreement

/-! ### Counting -/

section Counting
variable {κ : Type} [DecidableEq κ]

/-- How many differ from the one before. -/
def fresh : Option κ → List κ → Nat
  | _, [] => 0
  | previous, k :: rest => (if previous = some k then 0 else 1) + fresh (some k) rest

theorem fresh_map {ι : Type} [DecidableEq ι] {f : ι → κ} (hf : Function.Injective f)
    (previous : Option ι) (l : List ι) : fresh (previous.map f) (l.map f) = fresh previous l := by
  induction l generalizing previous with
  | nil => rfl
  | cons k rest ih =>
    have hsome : previous.map f = some (f k) ↔ previous = some k :=
      (Option.map_injective hf).eq_iff' rfl
    rw [map_cons, fresh, fresh, ← ih, Option.map_some]
    simp only [hsome]

/-- After the first element, one for each further key. -/
theorem fresh_some [PartialOrder κ] {k : κ} {l : List κ} (h : (k :: l).IsChain (· ≤ ·)) :
    fresh (some k) l + 1 = (k :: l).dedup.length := by
  induction l generalizing k with
  | nil => rfl
  | cons next rest ih =>
    have hrest : (next :: rest).IsChain (· ≤ ·) := h.tail
    by_cases heq : k = next
    · subst heq
      rw [fresh, if_pos rfl, dedup_cons_of_mem mem_cons_self, ← ih hrest, Nat.zero_add]
    · -- the key has risen, so it does not come back
      have hnot : k ∉ next :: rest := by
        intro hmem
        have hle : ∀ a ∈ next :: rest, next ≤ a := by
          intro a ha
          rcases mem_cons.mp ha with rfl | ha
          · exact le_refl a
          · exact hrest.rel_cons ha
        exact heq (le_antisymm (isChain_cons_cons.mp h).1 (hle k hmem))
      rw [fresh, if_neg (by simpa using heq), dedup_cons_of_notMem hnot, length_cons, ← ih hrest]
      omega

theorem fresh_first (k : κ) (l : List κ) : fresh none (k :: l) = 1 + fresh (some k) l := rfl

theorem fresh_none [PartialOrder κ] {l : List κ} (h : l.IsChain (· ≤ ·)) :
    fresh none l = l.dedup.length := by
  cases l with
  | nil => rfl
  | cons k rest => rw [← fresh_some h, fresh_first, Nat.add_comm]

end Counting

/-! ### What was left out -/

/-- The numbers that a stream of numbers steps over. -/
def skipped : Option Nat → List Nat → Int
  | _, [] => 0
  | previous, k :: rest =>
    previous.elim 0 (fun p => if k = p then 0 else (k : Int) - p - 1) + skipped (some k) rest

/-- Each step to another number takes one, and the rest of the way is stepped over. -/
theorem skipped_some (p : Nat) (l : List Nat) :
    skipped (some p) l + fresh (some p) l = (l.getLastD p : Int) - p := by
  induction l generalizing p with
  | nil => simp [skipped, fresh]
  | cons k rest ih =>
    have := ih k
    rw [skipped, fresh, getLastD_cons, Option.elim_some]
    by_cases heq : k = p
    · subst heq
      rw [if_pos rfl, if_pos rfl]
      push_cast
      omega
    · have hne : some p ≠ some k := fun h => heq (Option.some.inj h).symm
      rw [if_neg heq, if_neg hne]
      push_cast
      omega

theorem skipped_none (k : Nat) (l : List Nat) :
    skipped none (k :: l) + fresh none (k :: l) = (l.getLastD k : Int) - k + 1 := by
  have := skipped_some k l
  rw [skipped, fresh_first, Option.elim_none]
  push_cast
  omega

end KeyedStream
