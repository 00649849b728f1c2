import Mathlib

/-! # Programs that can be interrupted

A program changes a state in steps.  A script says what becomes of each step of a run: it
is made, it is refused with an error, or the program is killed before it.

`Ends P t Q X` is a triple over every script: from a state in `P`, a run that returns
leaves a state in `Q`, and a run that fails or is killed leaves one in `X`.
-/
namespace Interruptible

/-- What becomes of one effect. -/
inductive Fate (ε : Type) where
  | made
  | refused (error : ε)
  | killed

/-- How a program ends. -/
inductive Outcome (ε α : Type) where
  | done (value : α)
  | failed (error : ε)
  | killed
deriving DecidableEq

/-- The outcome of a run, the position it reached in the script, and the state. -/
def Program (σ ε α : Type) : Type := (Nat → Fate ε) → Nat → σ → Outcome ε α × Nat × σ

namespace Program
variable {σ ε α β : Type}

instance : Monad (Program σ ε) where
  pure a := fun _ position s => (.done a, position, s)
  bind t f := fun script position s =>
    match t script position s with
    | (.done a, position, s) => f a script position s
    | (.failed e, position, s) => (.failed e, position, s)
    | (.killed, position, s) => (.killed, position, s)

/-- An error of the program's own. -/
def fail (e : ε) : Program σ ε α := fun _ position s => (.failed e, position, s)

/-- The state, looked at without a step. -/
def get : Program σ ε σ := fun _ position s => (.done s, position, s)

/-- A change of what only the program sees, made without a step. -/
def assign (f : σ → σ) : Program σ ε Unit := fun _ position s => (.done (), position, f s)

/-- A step: what it does where it is made may be an error too. -/
def act (f : σ → Except ε α × σ) : Program σ ε α := fun script position s =>
  match script position with
  | .killed => (.killed, position + 1, s)
  | .refused e => (.failed e, position + 1, s)
  | .made =>
      match f s with
      | (.error e, s) => (.failed e, position + 1, s)
      | (.ok a, s) => (.done a, position + 1, s)

/-- A step that only looks. -/
def look (f : σ → Except ε α) : Program σ ε α := act fun s => (f s, s)

/-- A step that only changes the state. -/
def change (f : σ → σ) : Program σ ε Unit := act fun s => (.ok (), f s)

/-- A look at what cannot be refused: its failure is one of its values. -/
def observe (f : σ → α × σ) : Program σ ε α := fun script position s =>
  match script position with
  | .killed => (.killed, position + 1, s)
  | _ => (.done (f s).1, position + 1, (f s).2)

/-- An error where a test holds. -/
def refuseIf (p : Prop) [Decidable p] (e : ε) : Program σ ε Unit := if p then fail e else pure ()

/-- The error of a failed read, as another one. -/
def orElse (t : Program σ ε α) (e : ε) : Program σ ε α := fun script position s =>
  match t script position s with
  | (.done a, position, s) => (.done a, position, s)
  | (.failed _, position, s) => (.failed e, position, s)
  | (.killed, position, s) => (.killed, position, s)

/-- What to do about an error. -/
def handle (t : Program σ ε α) (h : ε → Program σ ε α) : Program σ ε α := fun script position s =>
  match t script position s with
  | (.done a, position, s) => (.done a, position, s)
  | (.failed e, position, s) => h e script position s
  | (.killed, position, s) => (.killed, position, s)

/-- A program whose error is ignored. -/
def attempt (t : Program σ ε α) : Program σ ε (Option α) := fun script position s =>
  match t script position s with
  | (.done a, position, s) => (.done (some a), position, s)
  | (.failed _, position, s) => (.done none, position, s)
  | (.killed, position, s) => (.killed, position, s)

end Program

open Program

variable {σ ε α β : Type}

/-- What a run leaves. -/
def After (Q : α → σ → Prop) (X : σ → Prop) : Outcome ε α × Nat × σ → Prop
  | (.done a, _, s) => Q a s
  | (.failed _, _, s) => X s
  | (.killed, _, s) => X s

/-- From `P`, a run that returns leaves `Q`, and one that does not leaves `X`. -/
def Ends (P : σ → Prop) (t : Program σ ε α) (Q : α → σ → Prop) (X : σ → Prop) : Prop :=
  ∀ (script : Nat → Fate ε) (position : Nat) (s : σ), P s → After Q X (t script position s)

namespace Ends
variable {P P' : σ → Prop} {Q Q' : α → σ → Prop} {R : β → σ → Prop} {X X' : σ → Prop}

variable {t : Program σ ε α}

theorem mono (h : Ends P t Q X) (hP : ∀ s, P' s → P s) (hQ : ∀ a s, Q a s → Q' a s)
    (hX : ∀ s, X s → X' s) : Ends P' t Q' X' := by
  intro script position s hs
  have hrun := h script position s (hP s hs)
  revert hrun
  generalize t script position s = run
  rcases run with ⟨a | e | -, after, s'⟩
  · exact hQ a s'
  · exact hX s'
  · exact hX s'

/-- A run ends somehow. -/
theorem trivial : Ends P t (fun _ _ => True) fun _ => True := by
  intro script position s _
  generalize t script position s = run
  rcases run with ⟨a | e | -, after, s'⟩ <;> exact True.intro

/-- What does not depend on the state may be assumed. -/
theorem given {p : Prop} (h : p → Ends P t Q X) : Ends (fun s => p ∧ P s) t Q X :=
  fun script position s hs => h hs.1 script position s hs.2

theorem pure (a : α) (h : ∀ s, P s → Q a s) : Ends P (Pure.pure a : Program σ ε α) Q X :=
  fun _ _ s hs => h s hs

theorem fail (e : ε) (h : ∀ s, P s → X s) : Ends P (Program.fail e : Program σ ε α) Q X :=
  fun _ _ s hs => h s hs

theorem get {Q : σ → σ → Prop} (h : ∀ s, P s → Q s s) : Ends P (Program.get : Program σ ε σ) Q X :=
  fun _ _ s hs => h s hs

theorem assign {f : σ → σ} {Q : Unit → σ → Prop} (h : ∀ s, P s → Q () (f s)) :
    Ends P (Program.assign f : Program σ ε Unit) Q X :=
  fun _ _ s hs => h s hs

theorem bind {f : α → Program σ ε β} (ht : Ends P t Q X) (hf : ∀ a, Ends (Q a) (f a) R X) :
    Ends P (t >>= f) R X := by
  intro script position s hs
  have hrun := ht script position s hs
  show After R X (Bind.bind t f script position s)
  simp only [Bind.bind]
  revert hrun
  generalize t script position s = run
  rcases run with ⟨a | e | -, after, s'⟩
  · exact hf a script after s'
  · exact id
  · exact id

/-- A step; before it the program may be stopped. -/
theorem act {f : σ → Except ε α × σ} (hX : ∀ s, P s → X s)
    (hok : ∀ s a s', P s → f s = (.ok a, s') → Q a s')
    (herror : ∀ s e s', P s → f s = (.error e, s') → X s') : Ends P (Program.act f) Q X := by
  intro script position s hs
  unfold Program.act
  cases script position with
  | killed => exact hX s hs
  | refused e => exact hX s hs
  | made =>
    simp only
    cases hf : f s with
    | mk result s' =>
      cases result with
      | error e => exact herror s e s' hs hf
      | ok a => exact hok s a s' hs hf

theorem look {f : σ → Except ε α} (hX : ∀ s, P s → X s)
    (hok : ∀ s a, P s → f s = .ok a → Q a s) : Ends P (Program.look f) Q X := by
  refine act hX (fun s a s' hs h => ?_) fun s e s' hs h => ?_
  · obtain ⟨hf, rfl⟩ := Prod.mk.inj h
    exact hok s a hs hf
  · obtain ⟨-, rfl⟩ := Prod.mk.inj h
    exact hX s hs

theorem change {f : σ → σ} {Q : Unit → σ → Prop} (hX : ∀ s, P s → X s)
    (hok : ∀ s, P s → Q () (f s)) : Ends P (Program.change f : Program σ ε Unit) Q X := by
  refine act hX (fun s a s' hs h => ?_) fun s e s' hs h => ?_
  · cases h
    exact hok s hs
  · cases h

theorem refuseIf {p : Prop} [Decidable p] {e : ε} (hX : ∀ s, P s → X s) :
    Ends P (Program.refuseIf p e : Program σ ε Unit) (fun _ s => P s ∧ ¬ p) X := by
  unfold Program.refuseIf
  split_ifs with hp
  · exact fail e hX
  · exact pure () fun s hs => ⟨hs, hp⟩

theorem observe {f : σ → α × σ} (hX : ∀ s, P s → X s) (hok : ∀ s, P s → Q (f s).1 (f s).2) :
    Ends P (Program.observe f : Program σ ε α) Q X := by
  intro script position s hs
  unfold Program.observe
  cases script position with
  | killed => exact hX s hs
  | refused e => exact hok s hs
  | made => exact hok s hs

theorem handle {h : ε → Program σ ε α} (ht : Ends P t Q X) (hh : ∀ e, Ends X (h e) Q X) :
    Ends P (Program.handle t h) Q X := by
  intro script position s hs
  have hrun := ht script position s hs
  unfold Program.handle
  revert hrun
  generalize t script position s = run
  rcases run with ⟨a | e | -, after, s'⟩
  · exact id
  · exact hh e script after s'
  · exact id

theorem attempt {Q : Option α → σ → Prop} (ht : Ends P t (fun a => Q (some a)) X)
    (hQ : ∀ s, X s → Q none s) : Ends P (Program.attempt t) Q X := by
  intro script position s hs
  have hrun := ht script position s hs
  unfold Program.attempt
  revert hrun
  generalize t script position s = run
  rcases run with ⟨a | e | -, after, s'⟩
  · exact id
  · exact hQ s'
  · exact id

end Ends

/-- The program leaves `P` as it finds it, wherever it stops. -/
def Keeps (P : σ → Prop) (t : Program σ ε α) : Prop := Ends P t (fun _ => P) P

namespace Keeps
variable {P : σ → Prop}

theorem pure (a : α) : Keeps P (Pure.pure a : Program σ ε α) := Ends.pure a fun _ => id

theorem get : Keeps P (Program.get : Program σ ε σ) := Ends.get fun _ => id

theorem bind {t : Program σ ε α} {f : α → Program σ ε β} (ht : Keeps P t)
    (hf : ∀ a, Keeps P (f a)) : Keeps P (t >>= f) :=
  Ends.bind ht hf

theorem act {f : σ → Except ε α × σ} (h : ∀ s, P s → P (f s).2) : Keeps P (Program.act f) :=
  Ends.act (fun _ => id) (fun s _ s' hs hf => by simpa [hf] using h s hs)
    fun s _ s' hs hf => by simpa [hf] using h s hs

theorem attempt {t : Program σ ε α} (ht : Keeps P t) : Keeps P (Program.attempt t) :=
  Ends.attempt ht fun _ => id

end Keeps

end Interruptible
