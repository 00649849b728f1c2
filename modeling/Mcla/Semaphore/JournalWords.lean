import Mcla.Semaphore.JournalRows

/-! # The semaphore observer: the words of its rows

A number of a row is a value of its type because the argument was that it comes from.
-/
namespace Mcla.Semaphore
open NumberedTable List

def FrameId.typed (id : FrameId) : Bool := id.thread_epoch < 2 ^ 64 ∧ id.serial < 2 ^ 64

/-- The numbers among the arguments of a call are values of their types. -/
def Call.typed : Call → Bool
  | .create cookie qpc initial maximum _ =>
    cookie < 2 ^ 64 ∧ qpc < 2 ^ 64 ∧ initial < 2 ^ 32 ∧ maximum < 2 ^ 32
  | .destroy cookie qpc => cookie < 2 ^ 64 ∧ qpc < 2 ^ 64
  | .begin_release cookie tid handle qpc count context =>
    cookie < 2 ^ 64 ∧ tid < 2 ^ 32 ∧ (handle.all fun h => h < 2 ^ 32) ∧ qpc < 2 ^ 64 ∧
      count < 2 ^ 32 ∧ context.generation.typed
  | .begin_wait cookie tid handle qpc _ =>
    cookie < 2 ^ 64 ∧ tid < 2 ^ 32 ∧ (handle.all fun h => h < 2 ^ 32) ∧ qpc < 2 ^ 64
  | .begin_unsupported cookie tid handle qpc _ =>
    cookie < 2 ^ 64 ∧ tid < 2 ^ 32 ∧ (handle.all fun h => h < 2 ^ 32) ∧ qpc < 2 ^ 64
  | .end_release _ qpc _ previous =>
    qpc < 2 ^ 64 ∧ previous.all fun n => -2 ^ 31 ≤ n ∧ n < 2 ^ 31
  | .end_wait _ qpc _ => qpc < 2 ^ 64
  | .end_unsupported _ qpc => qpc < 2 ^ 64
  | .fail => true
  | .stop_admissions qpc => qpc < 2 ^ 64

/-- The numbers of an operation that no check bounds. -/
structure Operation.Typed (o : Operation) : Prop where
  native_thread_id : o.native_thread_id < 2 ^ 32
  guest_handle : o.guest_handle.all (fun h => h < 2 ^ 32) = true
  generation : o.context.generation.typed = true

namespace Journal
variable {j j' : Journal}

/-- What the journal stores are words of the source. -/
structure Typed (j : Journal) : Prop where
  epochs : ∀ e ∈ j.epochs, e.object_cookie < 2 ^ 64
  operations : ∀ o ∈ j.operations, o.Typed

theorem Noted.typed (h : Noted j j') (hj : j.Typed) : j'.Typed where
  epochs := by rw [h.epochs]; exact hj.epochs
  operations := by rw [h.operations]; exact hj.operations

theorem Typed.setEpoch (hj : j.Typed) (id : Nat) {f : Epoch → Epoch}
    (hf : ∀ e, (f e).object_cookie = e.object_cookie) : (j.setEpoch id f).Typed where
  epochs := by
    intro e he
    rcases mem_modify he with he | ⟨a, ha, rfl⟩
    · exact hj.epochs e he
    · rw [hf]
      exact hj.epochs a (mem_of_getElem? ha)
  operations := hj.operations

theorem Typed.setOperation (hj : j.Typed) (id : Nat) {g : Operation → Operation}
    (hg : ∀ o, o.Typed → (g o).Typed) : (j.setOperation id g).Typed where
  epochs := hj.epochs
  operations := by
    intro o ho
    rcases mem_modify ho with ho | ⟨a, ha, rfl⟩
    · exact hj.operations o ho
    · exact hg a (hj.operations a (mem_of_getElem? ha))

theorem SameOperation.typed {o o' : Operation} (h : SameOperation o o') (ho : o.Typed) :
    o'.Typed where
  native_thread_id := by rw [h.native_thread_id]; exact ho.native_thread_id
  guest_handle := by rw [h.guest_handle]; exact ho.guest_handle
  generation := by rw [h.context]; exact ho.generation

theorem create_typed (hj : j.Typed) (cookie qpc initial maximum : Nat) (origin : Origin)
    (hcookie : cookie < 2 ^ 64) : (j.create cookie qpc initial maximum origin).1.Typed := by
  unfold create
  have hk := (noted_note_mutation j).typed hj
  generalize j.note_mutation = k at hk
  dsimp only
  cases hadmission : k.admission qpc with
  | mk k₁ rejected =>
    have hnoted := noted_admission k qpc
    rw [hadmission] at hnoted
    have hk₁ := hnoted.typed hk
    cases rejected with
    | some disposition => exact hk₁
    | none =>
      dsimp only
      split
      · exact (noted_reject_argument _).typed hk₁
      cases k₁.reuse cookie qpc with
      | some issue => exact (noted_mark _ _).typed hk₁
      | none =>
        dsimp only
        split
        · exact (noted_mark _ _).typed hk₁
        have hclock := (noted_clock k₁ qpc).typed hk₁
        let row : Epoch := {
          epoch_id := (k₁.clock qpc).1.epochs.length + 1, object_cookie := cookie,
          creation_qpc := qpc, initial_count := initial, maximum_count := maximum, origin,
          history_complete := (k₁.clock qpc).2 ∧ origin = .kFresh }
        have hadded : ({ (k₁.clock qpc).1 with
            epochs := (k₁.clock qpc).1.epochs ++ [row] } : Journal).Typed :=
          ⟨forall_mem_append.mpr ⟨hclock.epochs, forall_mem_singleton.mpr hcookie⟩,
            hclock.operations⟩
        exact (((Noted.refl _).ite (noted_mark _ _)).ite (noted_mark _ _)).typed hadded

theorem destroy_typed (hj : j.Typed) (cookie qpc : Nat) : (j.destroy cookie qpc).1.Typed := by
  unfold destroy
  have hk := (noted_note_mutation j).typed hj
  generalize j.note_mutation = k at hk
  dsimp only
  cases hadmission : k.admission qpc with
  | mk k₁ rejected =>
    have hnoted := noted_admission k qpc
    rw [hadmission] at hnoted
    have hk₁ := hnoted.typed hk
    cases rejected with
    | some disposition => exact hk₁
    | none =>
      dsimp only
      cases k₁.find cookie with
      | none => exact (noted_unknown _).typed hk₁
      | some e =>
        dsimp only
        have hset := hk₁.setEpoch e.epoch_id (f := fun e => { e with destroy_qpc := some qpc })
          fun _ => rfl
        have hclock := (noted_clock _ qpc).typed hset
        split
        · exact (noted_mark _ _).typed (hclock.setEpoch e.epoch_id fun _ => rfl)
        · exact hclock

theorem beginOperation_typed (hj : j.Typed) (cookie : Nat) {tid : Nat} {handle : Option Nat}
    (qpc : Nat) (kind : Kind) (htid : tid < 2 ^ 32)
    (hhandle : handle.all (fun h => h < 2 ^ 32) = true) :
    (j.beginOperation cookie tid handle qpc kind).1.Typed := by
  unfold beginOperation
  cases hadmission : j.admission qpc with
  | mk j₁ rejected =>
    have hnoted := noted_admission j qpc
    rw [hadmission] at hnoted
    have hj₁ := hnoted.typed hj
    cases rejected with
    | some disposition => exact hj₁
    | none =>
      dsimp only
      cases j₁.find cookie with
      | none => exact (noted_unknown _).typed hj₁
      | some e =>
        dsimp only
        split
        · exact (noted_mark _ _).typed hj₁
        split
        · have hcounted : ({ j₁ with counts := { j₁.counts with
              observed_operations := (j₁.counts.observed_operations + 1) % 2 ^ 64
              overflow_operations := (j₁.counts.overflow_operations + 1) % 2 ^ 64 } } :
                Journal).Typed := ⟨hj₁.epochs, hj₁.operations⟩
          exact (noted_mark _ _).typed (hcounted.setEpoch e.epoch_id fun _ => rfl)
        · let counted : Journal := { j₁ with
            counts.observed_operations := (j₁.counts.observed_operations + 1) % 2 ^ 64 }
          let row : Operation := {
            op_id := (j₁.counts.observed_operations + 1) % 2 ^ 64, epoch_id := e.epoch_id, kind,
            native_thread_id := tid, guest_handle := handle, entry_qpc := qpc }
          have hrow : row.Typed := ⟨htid, hhandle, rfl⟩
          have hadded : (counted.addOperation row).Typed :=
            ⟨hj₁.epochs, forall_mem_append.mpr
              ⟨hj₁.operations, forall_mem_singleton.mpr hrow⟩⟩
          have hargument := ((Noted.refl _).ite (noted_reject_argument _)
            (p := tid = 0 ∨ handle = some 0)).typed hadded
          obtain ⟨f, hf, hentry, -⟩ := noteEntry_noted
            (if tid = 0 ∨ handle = some 0 then (counted.addOperation row).reject_argument
              else counted.addOperation row) e qpc
          have hnoted := hentry.typed (hargument.setEpoch e.epoch_id fun a => (hf a).1.object_cookie)
          have hpending := hnoted.setEpoch e.epoch_id (f := fun e =>
            { e with pending_operations := (e.pending_operations + 1) % 2 ^ 32 }) fun _ => rfl
          exact ⟨hpending.epochs, hpending.operations⟩

theorem begin_release_typed (hj : j.Typed) (cookie : Nat) {tid : Nat} {handle : Option Nat}
    (qpc count : Nat) {context : ReleaseContext} (htid : tid < 2 ^ 32)
    (hhandle : handle.all (fun h => h < 2 ^ 32) = true)
    (hcontext : context.generation.typed = true) :
    (j.begin_release cookie tid handle qpc count context).1.Typed := by
  unfold begin_release
  have hk := (noted_note_mutation j).typed hj
  generalize j.note_mutation = k at hk
  have hbegun := beginOperation_typed hk cookie qpc .kRelease htid hhandle
  dsimp only
  generalize k.beginOperation cookie tid handle qpc .kRelease = run at hbegun
  split
  · have hfilled := hbegun.setOperation run.2.ticket.op_id
      (g := fun row => { row with release_count := count, context })
      fun o ho => ⟨ho.native_thread_id, ho.guest_handle, hcontext⟩
    exact ((Noted.refl _).ite (noted_reject_argument _)).typed hfilled
  · exact hbegun

theorem begin_wait_typed (hj : j.Typed) (cookie : Nat) {tid : Nat} {handle : Option Nat}
    (qpc : Nat) (timeout : TimeoutKind) (htid : tid < 2 ^ 32)
    (hhandle : handle.all (fun h => h < 2 ^ 32) = true) :
    (j.begin_wait cookie tid handle qpc timeout).1.Typed := by
  unfold begin_wait
  have hk := (noted_note_mutation j).typed hj
  generalize j.note_mutation = k at hk
  have hbegun := beginOperation_typed hk cookie qpc .kWait htid hhandle
  dsimp only
  generalize k.beginOperation cookie tid handle qpc .kWait = run at hbegun
  split
  · have hfilled := hbegun.setOperation run.2.ticket.op_id
      (g := fun row => { row with timeout_kind := timeout })
      fun o ho => ⟨ho.native_thread_id, ho.guest_handle, ho.generation⟩
    exact ((Noted.refl _).ite (noted_reject_argument _)).typed hfilled
  · exact hbegun

theorem begin_unsupported_typed (hj : j.Typed) (cookie : Nat) {tid : Nat} {handle : Option Nat}
    (qpc : Nat) (kind : Kind) (htid : tid < 2 ^ 32)
    (hhandle : handle.all (fun h => h < 2 ^ 32) = true) :
    (j.begin_unsupported cookie tid handle qpc kind).1.Typed := by
  unfold begin_unsupported
  have hk := (noted_note_mutation j).typed hj
  generalize j.note_mutation = k at hk
  have hbegun := beginOperation_typed hk cookie qpc kind htid hhandle
  dsimp only
  split
  · exact hk
  split
  · exact (noted_reject_argument k).typed hk
  generalize k.beginOperation cookie tid handle qpc kind = run at hbegun
  split
  · exact (noted_mark _ _).typed (hbegun.setEpoch run.2.ticket.epoch_id fun _ => rfl)
  · exact hbegun

theorem Ended.typed {ticket : Ticket} {d : Disposition} (h : Ended j ticket j' d) (hj : j.Typed) :
    j'.Typed := by
  cases h with
  | refused h hd => exact h.typed hj
  | recorded e qpc f g howns h =>
    refine h.noted.typed ⟨?_, ?_⟩
    · exact (hj.setEpoch e.epoch_id fun a => (h.epoch a).1.object_cookie).epochs
    · exact (hj.setOperation (j.operation ticket.op_id).op_id
        fun o ho => (h.operation o).1.typed ho).operations

theorem call_typed (hj : j.Inv) (hwords : j.Typed) {c : Call} (hc : c.typed = true) :
    (j.call c).Typed := by
  have hnoted := (noted_note_mutation j).typed hwords
  cases c with
  | create cookie qpc initial maximum origin =>
    exact create_typed hwords cookie qpc initial maximum origin (of_decide_eq_true hc).1
  | destroy cookie qpc => exact destroy_typed hwords cookie qpc
  | begin_release cookie tid handle qpc count context =>
    obtain ⟨-, htid, hhandle, -, -, hcontext⟩ := of_decide_eq_true hc
    exact begin_release_typed hwords cookie qpc count htid hhandle hcontext
  | begin_wait cookie tid handle qpc timeout =>
    obtain ⟨-, htid, hhandle, -⟩ := of_decide_eq_true hc
    exact begin_wait_typed hwords cookie qpc timeout htid hhandle
  | begin_unsupported cookie tid handle qpc kind =>
    obtain ⟨-, htid, hhandle, -⟩ := of_decide_eq_true hc
    exact begin_unsupported_typed hwords cookie qpc kind htid hhandle
  | end_release ticket qpc success previous =>
    exact (end_release_ended hj ticket qpc success previous).typed hnoted
  | end_wait ticket qpc result => exact (end_wait_ended hj ticket qpc result).typed hnoted
  | end_unsupported ticket qpc => exact (end_unsupported_ended hj ticket qpc).typed hnoted
  | fail => exact (noted_fail j).typed hnoted
  | stop_admissions qpc =>
    rcases stop_cases j qpc with heq | ⟨-, -, hstopped⟩
    · show (j.stop_admissions qpc).Typed
      rwa [heq]
    · exact hstopped.typed ⟨hwords.epochs, hwords.operations⟩

theorem calls_typed (hj : j.Inv) (hwords : j.Typed) {cs : List Call}
    (hcs : ∀ c ∈ cs, c.typed = true) : (j.calls cs).Typed := by
  induction cs generalizing j with
  | nil => exact hwords
  | cons c cs ih =>
    obtain ⟨hc, hcs⟩ := forall_mem_cons.mp hcs
    exact ih (call_inv hj c) (call_typed hj hwords hc) hcs

theorem run_typed (self : Nat) (window : Window) (enabled : Bool) (last : Nat) {cs : List Call}
    (hcs : ∀ c ∈ cs, c.typed = true) : ((init self window enabled last).calls cs).Typed := by
  obtain ⟨hepochs, hoperations, -⟩ := init_rows self window enabled last
  exact calls_typed (init_inv self window enabled last)
    ⟨by rw [hepochs]; simp, by rw [hoperations]; simp⟩ hcs

end Journal
end Mcla.Semaphore
