import Mathlib

/-! # Runs of parties that move by turns

A system of parties: every move is a party's own, or one that no party owes.  An execution is an
infinite sequence of states; where nobody moves the state stays, so that a finite run is an
execution too.

`Execution.invariant` is the rule for what holds in every state.  `Execution.leads` is the rule for
what comes about under fairness: a party that could move, and whose every move gives the result,
will move.
-/
namespace FairRuns
open List

/-- A system: what it starts in, what each move does where it can be made, and whose it is. -/
structure System (State Move Party : Type) where
  start : State → Prop
  step : Move → State → Option State
  party : Move → Option Party

variable {State Move Party : Type} {S : System State Move Party}

/-- One instant: nobody moves, or one move is made. -/
def System.Next (S : System State Move Party) : Option Move → State → State → Prop
  | none, s, s' => s' = s
  | some m, s, s' => S.step m s = some s'

/-- A party that could move. -/
def System.Enabled (S : System State Move Party) (p : Party) (s : State) : Prop :=
  ∃ m, S.party m = some p ∧ (S.step m s).isSome = true

/-- An infinite run, in which a party may stand still. -/
structure Execution (S : System State Move Party) where
  state : ℕ → State
  move : ℕ → Option Move
  first : S.start (state 0)
  next : ∀ t, S.Next (move t) (state t) (state (t + 1))

/-- Again and again every party moves or cannot. -/
def Execution.Fair (e : Execution S) : Prop :=
  ∀ p t, ∃ later ≥ t, ¬ S.Enabled p (e.state later) ∨
    ∃ m, e.move later = some m ∧ S.party m = some p

/-! ### Rules -/

/-- What holds at the start and is kept by every move that is made. -/
theorem Execution.kept (e : Execution S) {inv : State → Prop} (hstart : inv (e.state 0))
    (hstep : ∀ t m, e.move t = some m → S.step m (e.state t) = some (e.state (t + 1)) →
      inv (e.state t) → inv (e.state (t + 1))) (t : ℕ) : inv (e.state t) := by
  induction t with
  | zero => exact hstart
  | succ t ih =>
    have hnext := e.next t
    cases hmove : e.move t with
    | none =>
      rw [hmove] at hnext
      rw [show e.state (t + 1) = e.state t from hnext]
      exact ih
    | some m =>
      rw [hmove] at hnext
      exact hstep t m hmove hnext ih

/-- The rule for invariants. -/
theorem Execution.invariant (e : Execution S) {inv : State → Prop} (hstart : ∀ s, S.start s → inv s)
    (hstep : ∀ m s s', inv s → S.step m s = some s' → inv s') (t : ℕ) : inv (e.state t) :=
  e.kept (hstart _ e.first) (fun _ m _ hnext hinv => hstep m _ _ hinv hnext) t

/-- **The rule for progress**: a state of `waiting` stays one until the result is there, the party
can move in it, and its moves give the result. -/
theorem Execution.leads (e : Execution S) (hfair : e.Fair) (p : Party)
    (waiting result : State → Prop)
    (hstep : ∀ t m s', waiting (e.state t) → S.step m (e.state t) = some s' →
      result s' ∨ (waiting s' ∧ S.party m ≠ some p))
    (henabled : ∀ t, waiting (e.state t) → S.Enabled p (e.state t))
    {t : ℕ} (hwaiting : waiting (e.state t)) : ∃ later ≥ t, result (e.state later) := by
  by_contra hnever
  have hnot : ∀ later ≥ t, ¬ result (e.state later) :=
    fun later hlater hresult => hnever ⟨later, hlater, hresult⟩
  have hstays : ∀ n, waiting (e.state (t + n)) := by
    intro n
    induction n with
    | zero => exact hwaiting
    | succ n ih =>
      have hnext := e.next (t + n)
      cases hmove : e.move (t + n) with
      | none =>
        rw [hmove] at hnext
        rw [← Nat.add_assoc, show e.state (t + n + 1) = e.state (t + n) from hnext]
        exact ih
      | some m =>
        rw [hmove] at hnext
        rcases hstep _ m _ ih hnext with hresult | ⟨hstill, -⟩
        · exact absurd hresult (hnot _ (by omega))
        · exact hstill
  obtain ⟨later, hlater, hturn⟩ := hfair p t
  obtain ⟨n, rfl⟩ := Nat.exists_eq_add_of_le hlater
  rcases hturn with hcannot | ⟨m, hmove, hparty⟩
  · exact hcannot (henabled _ (hstays n))
  · have hnext := e.next (t + n)
    rw [hmove] at hnext
    rcases hstep _ m _ (hstays n) hnext with hresult | ⟨-, hother⟩
    · exact hnot _ (by omega) hresult
    · exact hother hparty

/-! ### Finite runs -/

/-- The state after some moves. -/
def System.run (S : System State Move Party) : State → List Move → Option State
  | s, [] => some s
  | s, m :: moves => (S.step m s).bind fun s' => S.run s' moves

theorem System.run_cons (S : System State Move Party) (s : State) (m : Move) (moves : List Move) :
    S.run s (m :: moves) = (S.step m s).bind fun s' => S.run s' moves := rfl

theorem System.run_append (S : System State Move Party) (s : State) (moves more : List Move) :
    S.run s (moves ++ more) = (S.run s moves).bind fun s' => S.run s' more := by
  induction moves generalizing s with
  | nil => rfl
  | cons m moves ih =>
    rw [cons_append, S.run_cons, S.run_cons, Option.bind_assoc]
    congr 1
    funext s'
    exact ih s'

/-- A finite run as an execution: after the last move nobody moves. -/
def Execution.ofMoves (s : State) (hstart : S.start s) (moves : List Move)
    (hruns : (S.run s moves).isSome = true) : Execution S where
  state t := (S.run s (moves.take t)).getD s
  move t := moves[t]?
  first := hstart
  next t := by
    obtain ⟨last, hlast⟩ := Option.isSome_iff_exists.mp hruns
    have hsplit := S.run_append s (moves.take t) (moves.drop t)
    rw [take_append_drop, hlast] at hsplit
    obtain ⟨now, hnow, hrest⟩ := Option.bind_eq_some_iff.mp hsplit.symm
    rcases Nat.lt_or_ge t moves.length with hlt | hge
    · rw [getElem?_eq_getElem hlt, take_succ_eq_append_getElem hlt, S.run_append, hnow]
      rw [drop_eq_getElem_cons hlt] at hrest
      obtain ⟨then', hthen, -⟩ := Option.bind_eq_some_iff.mp hrest
      have hone : S.run now [moves[t]] = some then' := by
        rw [S.run_cons, hthen]
        rfl
      rw [Option.bind_some, hone]
      exact hthen
    · rw [getElem?_eq_none hge, take_of_length_le hge, take_of_length_le (Nat.le_succ_of_le hge)]
      rfl

end FairRuns
