import Mathlib.Algebra.BigOperators.Group.Finset.Basic
import Mathlib.Algebra.BigOperators.Ring.Finset
import Mathlib.Algebra.Order.BigOperators.Group.Finset
import Mathlib.Data.Int.Basic
import Mathlib.Logic.Function.Basic
import Mathlib.Tactic.Ring

/-! # Reference counts that propagate along a graph

Each node has at most one node above it, `up`, and a count; a node is live when
its count is not zero.  A live node holds one reference to the node above it, so
a change of a count that changes whether the node is live passes the same change
upwards.  The module proves the law such counts keep: the count of a node is what
it was given from outside, plus one for each live node below it.

The invariant inside a walk is the same law with one change still owed, to the
node the walk is about to visit.
-/
namespace ReferenceGraph

variable {α : Type*} [DecidableEq α] (up : α → Option α)

/-- One if live, else zero. -/
def live (n : ℕ) : ℤ := if n = 0 then 0 else 1

/-- The references that the live nodes of `objs` hold to `q`. -/
def held (objs : Finset α) (c : α → ℕ) (q : α) : ℤ :=
  ∑ x ∈ objs, if up x = some q then live (c x) else 0

/-- **A walk from `p` with change `d`**: the count of `p` changes by `d`, and
where that changes whether `p` is live, the walk goes on to the node above. -/
inductive Walks (d : ℤ) : (α → ℕ) → α → (α → ℕ) → Prop where
  | stop {c : α → ℕ} {p : α} {n : ℕ} (step : (n : ℤ) = c p + d)
      (stays : live n ≠ live (c p) → up p = none) : Walks d c p (Function.update c p n)
  | climb {c c' : α → ℕ} {p q : α} {n : ℕ} (step : (n : ℤ) = c p + d)
      (flips : live n ≠ live (c p)) (above : up p = some q)
      (rest : Walks d (Function.update c p n) q c') : Walks d c p c'

/-- **The law of the counts**: `net` counts the references given from outside. -/
def Balanced (objs : Finset α) (net : α → ℤ) (c : α → ℕ) : Prop :=
  ∀ q ∈ objs, (c q : ℤ) = net q + held up objs c q

/-- The law with a change `d` of the count of `p` still owed. -/
def Owed (objs : Finset α) (net : α → ℤ) (d : ℤ) (p : α) (c : α → ℕ) : Prop :=
  ∀ q ∈ objs, (c q : ℤ) + (if q = p then d else 0) = net q + held up objs c q

variable {up} {objs : Finset α} {net : α → ℤ} {d : ℤ} {c c' : α → ℕ} {p : α}

/-- Changing one count changes what is held of the node above it only. -/
theorem held_update (hp : p ∈ objs) (n : ℕ) (q : α) :
    held up objs (Function.update c p n) q =
      held up objs c q + if up p = some q then live n - live (c p) else 0 := by
  have hrest : ∑ x ∈ objs.erase p, (if up x = some q then live (Function.update c p n x) else 0) =
      ∑ x ∈ objs.erase p, if up x = some q then live (c x) else 0 := by
    refine Finset.sum_congr rfl fun x hx => ?_
    rw [Function.update_of_ne (Finset.ne_of_mem_erase hx)]
  rw [held, held, ← Finset.add_sum_erase _ _ hp, ← Finset.add_sum_erase objs _ hp, hrest,
    Function.update_self]
  split_ifs <;> ring

/-- A change by one that flips whether a node is live is the flip itself. -/
theorem live_flip {n k : ℕ} (hd : d = 1 ∨ d = -1) (step : (n : ℤ) = k + d)
    (flips : live n ≠ live k) : live n - live k = d := by
  unfold live at *
  split_ifs at * <;> omega

/-- **The step lemma**: paying a change at `p` settles it, or owes it to the node
above. -/
theorem Owed.pay {n : ℕ} (hd : d = 1 ∨ d = -1) (hp : p ∈ objs) (step : (n : ℤ) = c p + d)
    (h : Owed up objs net d p c) (q : α) (hq : q ∈ objs) :
    (Function.update c p n q : ℤ) + (if live n ≠ live (c p) ∧ up p = some q then d else 0) =
      net q + held up objs (Function.update c p n) q := by
  have howed := h q hq
  have hcount : ((Function.update c p n q : ℕ) : ℤ) = c q + if q = p then d else 0 := by
    by_cases hqp : q = p
    · subst hqp
      rw [Function.update_self, if_pos rfl, step]
    · rw [Function.update_of_ne hqp, if_neg hqp, add_zero]
  rw [held_update hp, hcount, howed, add_assoc]
  congr 2
  by_cases hflip : live n = live (c p)
  · simp [hflip]
  · rw [live_flip hd step hflip]
    simp [hflip]

/-- **The run lemma**: a walk that starts by owing its change to `p` ends with
every count settled. -/
theorem Walks.balanced (hd : d = 1 ∨ d = -1) (hclosed : ∀ p ∈ objs, ∀ q, up p = some q → q ∈ objs)
    (h : Walks up d c p c') : p ∈ objs → Owed up objs net d p c → Balanced up objs net c' := by
  induction h with
  | stop step stays =>
    intro hp howed q hq
    have hpay := howed.pay hd hp step q hq
    rwa [if_neg (by rintro ⟨hflip, hup⟩; rw [stays hflip] at hup; cases hup), add_zero] at hpay
  | climb step flips above rest ih =>
    intro hp howed
    refine ih (hclosed _ hp _ above) fun q hq => ?_
    have hpay := howed.pay hd hp step q hq
    rw [above] at hpay
    simpa [flips, eq_comm] using hpay

/-- A walk asked for from outside keeps the law. -/
theorem Walks.keeps (hd : d = 1 ∨ d = -1) (hclosed : ∀ p ∈ objs, ∀ q, up p = some q → q ∈ objs)
    (h : Walks up d c p c') (hp : p ∈ objs) (hbal : Balanced up objs net c) :
    Balanced up objs (Function.update net p (net p + d)) c' := by
  refine h.balanced hd hclosed hp fun q hq => ?_
  rw [hbal q hq]
  by_cases hqp : q = p
  · subst hqp
    rw [Function.update_self, if_pos rfl]
    ring
  · rw [Function.update_of_ne hqp, if_neg hqp, add_zero]

/-- Counts that are all zero keep the law, with nothing given. -/
theorem balanced_zero (h : ∀ q ∈ objs, c q = 0) : Balanced up objs (fun _ => 0) c := by
  intro q hq
  have hnone : held up objs c q = 0 := by
    refine Finset.sum_eq_zero fun x hx => ?_
    rw [h x hx]
    simp [live]
  rw [h q hq, hnone]
  rfl

/-- What is held is the number of live nodes below. -/
theorem held_eq_card (objs : Finset α) (c : α → ℕ) (q : α) :
    held up objs c q = (objs.filter fun x => up x = some q ∧ c x ≠ 0).card := by
  rw [held, Finset.card_filter, Nat.cast_sum]
  refine Finset.sum_congr rfl fun x _ => ?_
  by_cases hup : up x = some q <;> by_cases hx : c x = 0 <;> simp [live, hup, hx]

end ReferenceGraph
