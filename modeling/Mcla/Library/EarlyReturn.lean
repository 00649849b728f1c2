import Mcla.Library.NestedRecorder

/-! # Methods that return early

A method of a recorder runs statement by statement and may return early with the answer false;
what it changed before then stays changed.  A method that makes all its checks before its first
change is an attempt: it succeeds as a whole, or leaves nothing but a fault.

`Sim m x y` says so of a method `x` on a recorder `m` that takes calls: the checks of `x` are
those of `y` in their order, and its changes lead to the recorder that `y` ends with.
-/
namespace EarlyReturn
open NestedRecorder (Recorder need)

/-- The statements of a method; an early return has no value. -/
abbrev Method (α φ ε ζ β : Type) := OptionT (StateM (Recorder α φ ε ζ)) β

namespace Method
variable {α φ ε ζ : Type}

/-- A call of a method: the recorder after it, and its answer. -/
def call (x : Method α φ ε ζ Unit) (m : Recorder α φ ε ζ) : Recorder α φ ε ζ × Bool :=
  match x.run.run m with
  | (some (), m') => (m', true)
  | (none, m') => (m', false)

/-! ### Statements -/

/-- Nothing is written after a fault or a freeze. -/
def Writable : Method α φ ε ζ Unit := do
  if (← get).writable then pure () else failure

/-- The first fault is kept, and the answer is false. -/
def Fail (fault : ζ) : Method α φ ε ζ Unit := do
  modify fun m => if m.writable then { m with fault := some fault } else m
  failure

/-- A check, and the fault of a recorder that does not pass it. -/
def check (p : Prop) [Decidable p] (fault : ζ) : Method α φ ε ζ Unit :=
  if p then pure () else Fail fault

/-- There is room for one more event. -/
def room (capacity : Nat) (full : ζ) : Method α φ ε ζ Unit := do
  check ((← get).events.length < capacity) full

/-- A call on the innermost frame asks whose frame it is. -/
def onTop (isTop : Recorder α φ ε ζ → φ → Bool) (identity : ζ) : Method α φ ε ζ Unit := do
  Writable
  let m ← get
  check (m.stack.head?.any (isTop m) = true) identity

/-- The innermost frame. -/
def top (absent : φ) : Method α φ ε ζ φ := return (← get).stack.headD absent

/-- A change of the innermost frame in its place. -/
def setTop (change : φ → φ) : Method α φ ε ζ Unit :=
  modify fun m => { m with stack := m.stack.modifyHead change }

/-- A frame is opened. -/
def push (f : φ) : Method α φ ε ζ Unit := modify fun m => { m with stack := f :: m.stack }

/-- The innermost frame is closed. -/
def pop : Method α φ ε ζ Unit := modify fun m => { m with stack := m.stack.tail }

def setAdmission (change : α → α) : Method α φ ε ζ Unit :=
  modify fun m => { m with admission := change m.admission }

/-- An event is written. -/
def append (e : ε) : Method α φ ε ζ Unit := modify fun m => { m with events := m.events ++ [e] }

/-- Returns nothing, and so never refuses. -/
def freeze : Method α φ ε ζ Unit := modify fun m => { m with frozen := true }

end Method

/-! ### Methods that are attempts -/

section Sim
variable {α φ ε ζ : Type} {m : Recorder α φ ε ζ} {x x' : Method α φ ε ζ Unit}
  {y y' : Except ζ Unit}

variable {m' : Recorder α φ ε ζ}

theorem run_next {k : Unit → Method α φ ε ζ Unit} (h : x.run.run m = (some (), m')) :
    (x >>= k).run.run m = (k ()).run.run m' := by
  rw [OptionT.run_bind, Option.elimM, StateT.run_bind, h]
  rfl

theorem run_returned {k : Unit → Method α φ ε ζ Unit} (h : x.run.run m = (none, m')) :
    (x >>= k).run.run m = (none, m') := by
  rw [OptionT.run_bind, Option.elimM, StateT.run_bind, h]
  rfl

/-- One check in place of another. -/
theorem need_congr {p q : Prop} [Decidable p] [Decidable q] (h : p ↔ q) (fault : ζ) :
    need p fault = need q fault := by
  unfold need
  simp only [h]

/-- Two checks with one fault. -/
theorem need_both {β : Type} {p q r : Prop} [Decidable p] [Decidable q] [Decidable r]
    (h : r ↔ p ∧ q) (fault : ζ) (rest : Unit → Except ζ β) :
    (need p fault >>= fun _ => need q fault >>= rest) = need r fault >>= rest := by
  unfold need
  by_cases hp : p
  · simp only [hp, h, true_and, if_true]
    rfl
  · simp only [hp, h, false_and, if_false]
    rfl

/-- Statements that only check: they leave the recorder, or the first fault in it. -/
def Checks (m : Recorder α φ ε ζ) (x : Method α φ ε ζ Unit) (y : Except ζ Unit) : Prop :=
  x.run.run m = match y with
    | .ok _ => (some (), m)
    | .error fault => (none, { m with fault := some fault })

theorem Checks.need (hw : m.writable = true) (p : Prop) [Decidable p] (fault : ζ) :
    Checks m (Method.check p fault) (need p fault) := by
  unfold Method.check NestedRecorder.need
  by_cases hp : p
  · rw [if_pos hp, if_pos hp]
    rfl
  · rw [if_neg hp, if_neg hp]
    show (none, if m.writable then { m with fault := some fault } else m) = _
    rw [if_pos hw]

theorem Checks.room (hw : m.writable = true) (capacity : Nat) (full : ζ) :
    Checks m (Method.room capacity full) (m.room capacity full) :=
  Checks.need hw (m.events.length < capacity) full

/-- The innermost frame is looked at first. -/
theorem Checks.top {f absent : φ} {rest : List φ} {k : φ → Method α φ ε ζ Unit}
    (h : Checks { m with stack := f :: rest } (k f) y) :
    Checks { m with stack := f :: rest } (Method.top absent >>= k) y := h

theorem Checks.seq (h : Checks m x y) (h' : Checks m x' y') :
    Checks m (x >>= fun _ => x') (y >>= fun _ => y') := by
  cases y with
  | ok u => exact (run_next h).trans h'
  | error fault => exact run_returned h

/-- The method, run on the recorder, comes to the same. -/
def Sim (m : Recorder α φ ε ζ) (x : Method α φ ε ζ Unit) (y : Except ζ (Recorder α φ ε ζ)) : Prop :=
  x.run.run m = match y with
    | .ok m' => (some (), m')
    | .error fault => (none, { m with fault := some fault })

/-- All checks are passed. -/
theorem Sim.done (h : x.run.run m = (some (), m')) : Sim m x (pure m') := h

theorem Sim.get {f : Recorder α φ ε ζ → Method α φ ε ζ Unit} {z : Except ζ (Recorder α φ ε ζ)}
    (h : Sim m (f m) z) : Sim m (MonadState.get >>= f) z := h

theorem Sim.top {f absent : φ} {rest : List φ} {k : φ → Method α φ ε ζ Unit}
    {z : Except ζ (Recorder α φ ε ζ)} (h : Sim { m with stack := f :: rest } (k f) z) :
    Sim { m with stack := f :: rest } (Method.top absent >>= k) z := h

/-- Checks first, and then the rest. -/
theorem Checks.before {rest : Unit → Method α φ ε ζ Unit}
    {rest' : Unit → Except ζ (Recorder α φ ε ζ)} (h : Checks m x y)
    (hrest : Sim m (rest ()) (rest' ())) : Sim m (x >>= rest) (y >>= rest') := by
  cases y with
  | ok u => exact (run_next h).trans hrest
  | error fault => exact run_returned h

/-- Checks first, where what follows them is part of the rest. -/
theorem Checks.inside {β : Type} {rest : Unit → Method α φ ε ζ Unit}
    {rest' : Unit → Except ζ β} {k : β → Except ζ (Recorder α φ ε ζ)} (h : Checks m x y)
    (hrest : Sim m (rest ()) (rest' () >>= k)) : Sim m (x >>= rest) ((y >>= rest') >>= k) := by
  rw [bind_assoc]
  exact h.before hrest

theorem writable_bind (x : Method α φ ε ζ Unit) :
    (Method.Writable >>= fun _ => x).run.run m = if m.writable then x.run.run m else (none, m) := by
  show ((if m.writable then (pure () : Method α φ ε ζ Unit) else failure) >>= fun _ =>
    x).run.run m = _
  by_cases hw : m.writable = true
  · rw [if_pos hw, if_pos hw]
    rfl
  · rw [if_neg hw, if_neg hw]
    rfl

/-- **A method is an attempt** where its statements are, on the recorders that take calls. -/
theorem call_attempt {x : Method α φ ε ζ Unit} {y : Except ζ (Recorder α φ ε ζ)}
    (h : m.writable = true → Sim m x y) :
    (Method.Writable >>= fun _ => x).call m = m.attempt y := by
  unfold Method.call Recorder.attempt
  rw [writable_bind]
  by_cases hw : m.writable = true
  · rw [if_pos hw, if_pos hw, h hw]
    cases y with
    | ok m' => rfl
    | error fault => rfl
  · rw [if_neg hw, if_neg hw]

/-- **A method on the innermost frame is an attempt** where its statements are, on the
recorders with such a frame. -/
theorem call_onTop {isTop : Recorder α φ ε ζ → φ → Bool} {identity : ζ}
    {x : Method α φ ε ζ Unit} {body : φ → Except ζ (Option φ × ε)}
    (h : ∀ f rest, ({ m with stack := f :: rest } : Recorder α φ ε ζ).writable = true →
      Sim { m with stack := f :: rest } x (body f >>= fun left =>
        pure { m with stack := left.1.toList ++ rest, events := m.events ++ [left.2] })) :
    (Method.onTop isTop identity >>= fun _ => x).call m = m.onTop (isTop m) identity body := by
  unfold Method.onTop
  rw [bind_assoc]
  refine call_attempt fun hw => ?_
  rw [bind_assoc]
  refine Sim.get ?_
  obtain ⟨a, stack, events, fault, frozen⟩ := m
  cases stack with
  | nil =>
    have hnone : Checks (⟨a, [], events, fault, frozen⟩ : Recorder α φ ε ζ)
        (Method.check (([] : List φ).head?.any (isTop ⟨a, [], events, fault, frozen⟩) = true) identity)
        (.error identity) := Checks.need hw _ identity
    exact run_returned hnone
  | cons f rest =>
    exact (Checks.need hw _ _).before (h f rest hw)

end Sim

/-! ### Atomic calls -/

section Atomic
variable {α φ ε ζ κ : Type} {body : κ → Method α φ ε ζ Unit} {stop : κ} {m : Recorder α φ ε ζ}

/-- The recorder after a run of calls. -/
def run (body : κ → Method α φ ε ζ Unit) (m : Recorder α φ ε ζ) (calls : List κ) :
    Recorder α φ ε ζ := calls.foldl (fun m call => ((body call).call m).1) m

/-- **The calls on a recorder are atomic.**  One that answers false leaves a first fault and all
else as it was; a recorder with a fault, or a frozen one, refuses every call but the one that
freezes, and stays as it is over all later calls. -/
structure Atomic (body : κ → Method α φ ε ζ Unit) (stop : κ) (m : Recorder α φ ε ζ) : Prop where
  rejected : ∀ call, ((body call).call m).2 = false → m.frozen = false → m.fault = none →
    ∃ fault, ((body call).call m).1 = { m with fault := some fault }
  closed : m.frozen = true ∨ m.fault ≠ none → ∀ call, call ≠ stop → (body call).call m = (m, false)
  later : m.frozen = true ∨ m.fault ≠ none → ∀ calls, stop ∉ calls → run body m calls = m

theorem not_writable (h : m.frozen = true ∨ m.fault ≠ none) : ¬m.writable = true := by
  rw [Recorder.writable_iff]
  rintro ⟨hfrozen, hfault⟩
  rcases h with h | h
  · rw [hfrozen] at h
    cases h
  · exact h hfault

theorem attempt_refused {y : Except ζ (Recorder α φ ε ζ)} (h : ¬m.writable = true) :
    m.attempt y = (m, false) := by
  unfold Recorder.attempt
  rw [if_neg h]

/-- Calls that are attempts are atomic. -/
theorem atomic_of_attempts (hattempt : ∀ call, call ≠ stop → ∃ y, (body call).call m = m.attempt y)
    (hstop : ((body stop).call m).2 = true) : Atomic body stop m := by
  have hclosed : m.frozen = true ∨ m.fault ≠ none → ∀ call, call ≠ stop →
      (body call).call m = (m, false) := by
    intro hclosed call hcall
    obtain ⟨y, hy⟩ := hattempt call hcall
    rw [hy, attempt_refused (not_writable hclosed)]
  refine ⟨?_, hclosed, ?_⟩
  · intro call hanswer hfrozen hfault
    have hcall : call ≠ stop := by
      rintro rfl
      rw [hstop] at hanswer
      cases hanswer
    obtain ⟨y, hy⟩ := hattempt call hcall
    have hw : m.writable = true := Recorder.writable_iff.mpr ⟨hfrozen, hfault⟩
    rw [hy] at hanswer ⊢
    unfold Recorder.attempt at hanswer ⊢
    rw [if_pos hw] at hanswer ⊢
    cases y with
    | ok m' => cases hanswer
    | error fault => exact ⟨fault, rfl⟩
  · intro h calls hcalls
    induction calls with
    | nil => rfl
    | cons call calls ih =>
      rw [List.mem_cons, not_or] at hcalls
      unfold run at ih ⊢
      rw [List.foldl_cons, hclosed h call (Ne.symm hcalls.1)]
      exact ih hcalls.2

end Atomic

end EarlyReturn
