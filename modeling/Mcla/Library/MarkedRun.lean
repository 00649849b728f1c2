import Mathlib

/-! # Runs that mark what they pass

A partial step function, run for at most `n` states.  Each state has a key, and a step marks the key
of the state it leaves for the rest of the run, which only states whose key is not marked can take.
Then no key is left twice, and a run over finitely many keys ends: a set of states already seen is
not needed.
-/
namespace MarkedRun
open List

section Run
variable {α : Type*} (step : α → Option α)

/-- The first `n` states from `s`. -/
def run : Nat → α → List α
  | 0, _ => []
  | n + 1, s => s :: match step s with
    | none => []
    | some t => run n t

variable {step} {n : Nat} {s t : α}

theorem run_succ_of_none (h : step s = none) : run step (n + 1) s = [s] := by
  rw [run, h]

theorem run_succ_of_some (h : step s = some t) : run step (n + 1) s = s :: run step n t := by
  rw [run, h]

theorem self_mem_run : s ∈ run step (n + 1) s := mem_cons_self

theorem run_ne_nil : run step (n + 1) s ≠ [] := cons_ne_nil _ _

/-- A function that recurses as the step does returns, once its fuel is past the end of the run. -/
theorem isSome_of_run_eq {γ : Type*} {good : α → Prop} {f : Nat → α → Option γ} {done : α → γ}
    {leave : γ → γ}
    (hf : ∀ n s, good s → f (n + 1) s = (step s).elim (some (done s)) fun t => (f n t).map leave)
    (hgood : ∀ t ∈ run step n s, good t) (hpos : 0 < n)
    (hend : run step (n + 1) s = run step n s) : (f n s).isSome = true := by
  induction n generalizing s with
  | zero => exact absurd hpos (Nat.lt_irrefl 0)
  | succ n ih =>
    rw [hf n s (hgood s self_mem_run)]
    rcases hstep : step s with _ | t
    · rfl
    · rw [run_succ_of_some hstep, run_succ_of_some hstep] at hend
      rw [run_succ_of_some hstep] at hgood
      have htail := (cons_inj_right s).mp hend
      have hn : 0 < n := by
        rcases n with _ | n
        · exact absurd htail run_ne_nil
        · exact Nat.succ_pos n
      rw [Option.elim_some, Option.isSome_map]
      exact ih (forall_mem_cons.mp hgood).2 hn htail

end Run

section Marking
variable {α β : Type*} {step : α → Option α} {good : α → Prop} {key : α → β}
  {marked : β → α → Prop} {n : Nat} {s t : α} {k : β}

/-- What the steps between good states do to the marks. -/
structure Marking (step : α → Option α) (good : α → Prop) (key : α → β)
    (marked : β → α → Prop) : Prop where
  fresh : ∀ {s t}, good s → step s = some t → ¬ marked (key s) s
  marks : ∀ {s t}, good s → good t → step s = some t → marked (key s) t
  keeps : ∀ {s t k}, good s → good t → step s = some t → marked k s → marked k t

/-- A mark stays. -/
theorem Marking.kept (h : Marking step good key marked) (hgood : ∀ t ∈ run step n s, good t)
    (hk : marked k s) : ∀ t ∈ run step n s, marked k t := by
  induction n generalizing s with
  | zero => exact fun t ht => absurd ht not_mem_nil
  | succ n ih =>
    rcases hstep : step s with _ | u
    · rw [run_succ_of_none hstep]
      exact forall_mem_singleton.mpr hk
    · rw [run_succ_of_some hstep] at hgood ⊢
      obtain ⟨hs, hrest⟩ := forall_mem_cons.mp hgood
      refine forall_mem_cons.mpr ⟨hk, ?_⟩
      rcases n with _ | n
      · exact fun t ht => absurd ht not_mem_nil
      · exact ih hrest (h.keeps hs (hrest u self_mem_run) hstep hk)

/-- Later in the run the keys of the states before are marked. -/
theorem Marking.pairwise (h : Marking step good key marked) (hgood : ∀ t ∈ run step n s, good t) :
    (run step n s).Pairwise fun s t => marked (key s) t := by
  induction n generalizing s with
  | zero => exact .nil
  | succ n ih =>
    rcases hstep : step s with _ | u
    · rw [run_succ_of_none hstep]
      exact pairwise_singleton _ _
    · rw [run_succ_of_some hstep] at hgood ⊢
      obtain ⟨hs, hrest⟩ := forall_mem_cons.mp hgood
      refine pairwise_cons.mpr ⟨?_, ih hrest⟩
      rcases n with _ | n
      · exact fun t ht => absurd ht not_mem_nil
      · exact h.kept hrest (h.marks hs (hrest u self_mem_run) hstep)

/-- All states but the last take a step. -/
theorem step_of_mem_dropLast (ht : t ∈ (run step n s).dropLast) : ∃ u, step t = some u := by
  induction n generalizing s with
  | zero => exact absurd ht not_mem_nil
  | succ n ih =>
    rcases hstep : step s with _ | u
    · rw [run_succ_of_none hstep] at ht
      exact absurd ht not_mem_nil
    · rw [run_succ_of_some hstep] at ht
      rcases n with _ | n
      · exact absurd ht not_mem_nil
      · rw [dropLast_cons_of_ne_nil run_ne_nil, mem_cons] at ht
        rcases ht with rfl | ht
        · exact ⟨u, hstep⟩
        · exact ih ht

/-- **No key is left twice.** -/
theorem Marking.nodup (h : Marking step good key marked) (hgood : ∀ t ∈ run step n s, good t) :
    ((run step n s).dropLast.map key).Nodup := by
  have hpairs := (h.pairwise hgood).sublist (dropLast_sublist _)
  refine pairwise_map.mpr (hpairs.imp_of_mem fun {a b} _ hb hmarked heq => ?_)
  obtain ⟨u, hstep⟩ := step_of_mem_dropLast hb
  exact h.fresh (hgood b (mem_of_mem_dropLast hb)) hstep (heq ▸ hmarked)

/-- **A run over finitely many keys ends**, however it goes round. -/
theorem Marking.ends (h : Marking step good key marked) [DecidableEq β] {keys visited : Finset β}
    (hvisited : visited ⊆ keys) (hmarked : ∀ k ∈ visited, marked k s)
    (hgood : ∀ t ∈ run step n s, good t ∧ key t ∈ keys)
    (hn : keys.card < n + visited.card) (m : Nat) : run step (n + m) s = run step n s := by
  induction n generalizing s visited with
  | zero =>
    rw [Nat.zero_add] at hn
    exact absurd (Finset.card_le_card hvisited) (Nat.not_le.mpr hn)
  | succ n ih =>
    rw [Nat.succ_add]
    rcases hstep : step s with _ | t
    · rw [run_succ_of_none hstep, run_succ_of_none hstep]
    · have hs := hgood s self_mem_run
      have hnew : key s ∉ visited := fun hmem => h.fresh hs.1 hstep (hmarked _ hmem)
      have hsub : insert (key s) visited ⊆ keys := Finset.insert_subset hs.2 hvisited
      have hcard := Finset.card_insert_of_notMem hnew
      have hle := Finset.card_le_card hsub
      rw [run_succ_of_some hstep] at hgood
      have hrest := (forall_mem_cons.mp hgood).2
      rw [run_succ_of_some hstep, run_succ_of_some hstep]
      refine congrArg (s :: ·) (ih hsub (fun k hk => ?_) hrest (by omega))
      have ht : good t := by
        rcases n with _ | n
        · omega
        · exact (hrest t self_mem_run).1
      rcases Finset.mem_insert.mp hk with rfl | hk
      · exact h.marks hs.1 ht hstep
      · exact h.keeps hs.1 ht hstep (hmarked k hk)

end Marking

end MarkedRun
