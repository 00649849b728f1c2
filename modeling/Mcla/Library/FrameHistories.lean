import Mcla.Library.NestedRecorder

/-! # Histories of frames

The events of a recorder belong to frames, an event to the frame that was the innermost one.  The
events of one frame are its history; where each call extends the history of the innermost frame
only, what holds of the histories of open and of closed frames holds of every run.
-/
namespace NestedRecorder
open List
section Histories
variable {φ ε ι : Type} [DecidableEq ι]

/-- The events of one frame. -/
def historyOf (owner : ε → ι) (i : ι) (events : List ε) : List ε :=
  events.filter fun e => owner e = i

variable {tag : φ → ι} {owner : ε → ι} {Open : φ → List ε → Prop} {Closed : List ε → Prop}
  {stack rest : List φ} {events : List ε} {f f' : φ} {e : ε} {i : ι}

theorem historyOf_own (h : owner e = i) :
    historyOf owner i (events ++ [e]) = historyOf owner i events ++ [e] := by
  unfold historyOf
  rw [filter_append, filter_singleton, decide_eq_true h]
  rfl

theorem historyOf_other (h : owner e ≠ i) :
    historyOf owner i (events ++ [e]) = historyOf owner i events := by
  unfold historyOf
  rw [filter_append, filter_singleton, decide_eq_false h]
  exact append_nil _

theorem historyOf_eq_nil (h : ∀ e ∈ events, owner e ≠ i) : historyOf owner i events = [] := by
  unfold historyOf
  apply filter_eq_nil_iff.mpr
  intro e he
  simpa using h e he

/-- What the histories of the open frames are like, and those of the closed ones. -/
structure Histories (tag : φ → ι) (owner : ε → ι) (Open : φ → List ε → Prop)
    (Closed : List ε → Prop) (stack : List φ) (events : List ε) : Prop where
  nodup : (stack.map tag).Nodup
  opens : ∀ f ∈ stack, Open f (historyOf owner (tag f) events)
  closed : ∀ i, i ∉ stack.map tag →
    historyOf owner i events = [] ∨ Closed (historyOf owner i events)

theorem histories_nil : Histories tag owner Open Closed [] [] :=
  ⟨nodup_nil, fun _ hf => (by cases hf), fun _ _ => Or.inl rfl⟩

/-- A frame over the others, whose first event this is. -/
theorem Histories.opened (h : Histories tag owner Open Closed stack events)
    (hfresh : ∀ e ∈ events, owner e ≠ tag f) (hnew : tag f ∉ stack.map tag) (hown : owner e = tag f)
    (hopen : Open f [e]) : Histories tag owner Open Closed (f :: stack) (events ++ [e]) := by
  have hother : ∀ i, i ≠ tag f → historyOf owner i (events ++ [e]) = historyOf owner i events :=
    fun i hi => historyOf_other fun heq => hi (heq.symm.trans hown)
  constructor
  · exact nodup_cons.mpr ⟨hnew, h.nodup⟩
  · intro g hg
    rcases mem_cons.mp hg with rfl | hold
    · rw [historyOf_own hown, historyOf_eq_nil hfresh]
      exact hopen
    · have hne : tag g ≠ tag f := fun heq => hnew (heq ▸ mem_map_of_mem hold)
      rw [hother _ hne]
      exact h.opens g hold
  · intro i hi
    rw [map_cons, mem_cons, not_or] at hi
    rw [hother _ hi.1]
    exact h.closed i hi.2

/-- A call on the innermost frame, which stays open. -/
theorem Histories.changed (h : Histories tag owner Open Closed (f :: rest) events)
    (htag : tag f' = tag f) (hown : owner e = tag f)
    (hopen : ∀ es, Open f es → Open f' (es ++ [e])) :
    Histories tag owner Open Closed (f' :: rest) (events ++ [e]) := by
  obtain ⟨hnew, hnodup⟩ := nodup_cons.mp h.nodup
  have hother : ∀ i, i ≠ tag f → historyOf owner i (events ++ [e]) = historyOf owner i events :=
    fun i hi => historyOf_other fun heq => hi (heq.symm.trans hown)
  constructor
  · rw [map_cons, htag]
    exact h.nodup
  · intro g hg
    rcases mem_cons.mp hg with rfl | hold
    · rw [htag, historyOf_own hown]
      exact hopen _ (h.opens f mem_cons_self)
    · have hne : tag g ≠ tag f := fun heq => hnew (heq ▸ mem_map_of_mem hold)
      rw [hother _ hne]
      exact h.opens g (mem_cons_of_mem _ hold)
  · intro i hi
    rw [map_cons, htag] at hi
    have hne : i ≠ tag f := fun heq => hi (heq ▸ mem_cons_self)
    rw [hother _ hne]
    exact h.closed i hi

/-- A call on the innermost frame that closes it. -/
theorem Histories.ended (h : Histories tag owner Open Closed (f :: rest) events)
    (hown : owner e = tag f) (hclose : ∀ es, Open f es → Closed (es ++ [e])) :
    Histories tag owner Open Closed rest (events ++ [e]) := by
  obtain ⟨hnew, hnodup⟩ := nodup_cons.mp h.nodup
  have hother : ∀ i, i ≠ tag f → historyOf owner i (events ++ [e]) = historyOf owner i events :=
    fun i hi => historyOf_other fun heq => hi (heq.symm.trans hown)
  constructor
  · exact hnodup
  · intro g hg
    have hne : tag g ≠ tag f := fun heq => hnew (heq ▸ mem_map_of_mem hg)
    rw [hother _ hne]
    exact h.opens g (mem_cons_of_mem _ hg)
  · intro i hi
    by_cases heq : i = tag f
    · subst heq
      right
      rw [historyOf_own hown]
      exact hclose _ (h.opens f mem_cons_self)
    · rw [hother _ heq]
      refine h.closed i ?_
      rw [map_cons, mem_cons, not_or]
      exact ⟨heq, hi⟩

end Histories
end NestedRecorder
