import Mcla.Observers.DispatchStatements
import Mcla.Observers.EmissionStatements

/-! # Rejected calls

The recorders check a call in many places, some of them after others have passed.  Wherever a call
is rejected, none of its changes has been made: what it leaves is a first fault.
-/
namespace Mcla.ErrorAtomicity
open NestedRecorder (Recorder)
open EarlyReturn (Atomic atomic_of_attempts run)

theorem router_attempts {capacity depth : Nat} {m : RouterDispatch.Model}
    (call : RouterDispatch.Call) (hcall : call ≠ .Freeze) :
    ∃ y, m.call capacity depth call = m.attempt y := by
  cases call with
  | Freeze => exact absurd rfl hcall
  | _ => exact ⟨_, rfl⟩

theorem consumer_attempts {capacity depth : Nat} {m : ConsumerDetail.Model}
    (call : ConsumerDetail.Call) (hcall : call ≠ .Freeze) :
    ∃ y, m.call capacity depth call = m.attempt y := by
  cases call with
  | Freeze => exact absurd rfl hcall
  | _ => exact ⟨_, rfl⟩

theorem target_attempts {entries events depth : Nat} {m : VectorTarget.Model}
    (call : VectorTarget.Call) (hcall : call ≠ .Freeze) :
    ∃ y, m.call entries events depth call = m.attempt y := by
  cases call with
  | Freeze => exact absurd rfl hcall
  | _ => exact ⟨_, rfl⟩

theorem work_attempts {entries events depth : Nat} {m : WorkEmission.Model}
    (call : WorkEmission.Call) (hcall : call ≠ .Freeze) :
    ∃ y, m.call entries events depth call = m.attempt y := by
  cases call with
  | Freeze => exact absurd rfl hcall
  | _ => exact ⟨_, rfl⟩

/-- **Error atomicity.**  After any calls on a new recorder of any bounds, the statements of every
further call are atomic. -/
theorem recorders_atomic :
    (∀ capacity depth epoch calls, Atomic (RouterDispatch.Statements.body capacity depth) .Freeze
      (run (RouterDispatch.Statements.body capacity depth) (RouterDispatch.Model.new epoch)
        calls)) ∧
    (∀ capacity depth epoch router_epoch calls,
      Atomic (ConsumerDetail.Statements.body capacity depth) .Freeze
        (run (ConsumerDetail.Statements.body capacity depth)
          (ConsumerDetail.Model.new epoch router_epoch) calls)) ∧
    (∀ entries events depth epoch work_epoch calls,
      Atomic (VectorTarget.Statements.body entries events depth) .Freeze
        (run (VectorTarget.Statements.body entries events depth)
          (VectorTarget.Model.new epoch work_epoch) calls)) ∧
    (∀ entries events depth epoch virtual_epoch calls,
      Atomic (WorkEmission.Statements.body entries events depth) .Freeze
        (run (WorkEmission.Statements.body entries events depth)
          (WorkEmission.Model.new epoch virtual_epoch) calls)) := by
  refine ⟨?_, ?_, ?_, ?_⟩
  · intro capacity depth epoch calls
    refine atomic_of_attempts (fun call hcall => ?_) rfl
    rw [RouterDispatch.Statements.body_call]
    exact router_attempts call hcall
  · intro capacity depth epoch router_epoch calls
    refine atomic_of_attempts (fun call hcall => ?_) rfl
    rw [ConsumerDetail.Statements.body_call]
    exact consumer_attempts call hcall
  · intro entries events depth epoch work_epoch calls
    refine atomic_of_attempts (fun call hcall => ?_) rfl
    rw [VectorTarget.Statements.body_call]
    exact target_attempts call hcall
  · intro entries events depth epoch virtual_epoch calls
    refine atomic_of_attempts (fun call hcall => ?_) rfl
    rw [WorkEmission.Statements.body_call]
    exact work_attempts call hcall

end Mcla.ErrorAtomicity
