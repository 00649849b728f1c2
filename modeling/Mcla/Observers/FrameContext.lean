import Mcla.Library.AnsweredRun

/-! # Frame contexts

One tracker goes with one native thread and keeps the scopes that are open on it.  An update
that completes is handed to the next coordinator; a wait that succeeds gives a credit, which the
next worker render takes; a render inside a coordinator has the coordinator's update.  A call
that does not fit poisons the tracker for good.  Identifiers, clocks and addresses are numbers.
-/
namespace Mcla.FrameContext
open AnsweredRun
open List

/-! ### The tracker -/

/-- The number of a scope, within its thread epoch. -/
structure Id where
  (thread_epoch serial : Nat := 0)
  deriving DecidableEq

/-- Both numbers are positive. -/
def Id.valid (id : Id) : Bool := id.thread_epoch ≠ 0 && id.serial ≠ 0

/-- The lane that a call belongs to. -/
structure Lane where
  (context base : Nat := 0)
  deriving DecidableEq

/-- The kinds of scopes. -/
inductive Kind where
  | kUpdate | kCoordinator | kSyncRender | kWorkerRender
  deriving DecidableEq

/-- What a scope inherits and carries. -/
structure Context where
  (invocation update : Id := {})
  (wait_operation coordinator_epoch : Nat := 0)
  kind : Kind := .kUpdate
  deriving DecidableEq

/-- What the caller of a scope returns at its end. -/
structure Lease where
  id : Id := {}
  (begin depth : Nat := 0)
  deriving DecidableEq

/-- A scope on the stack. -/
structure Entry where
  context : Context := {}
  begin : Nat := 0

/-- The stack has its top first. -/
structure Tracker where
  epoch : Nat := 0
  lane : Lane := {}
  (next last_qpc : Nat := 0)
  update : Id := {}
  (wait wait_coordinator last_wait : Nat := 0)
  stack : List Entry := []
  failed : Bool := false

def kMaxQpc : Nat := 2 ^ 63 - 1
def kMaxSerial : Nat := 2 ^ 64 - 1
def kStackSize : Nat := 2

namespace Tracker

/-- A fresh tracker. -/
def new (thread_epoch : Nat) (lane : Lane) (initial_serial : Nat) : Tracker :=
  { epoch := thread_epoch, lane := lane, next := initial_serial
    failed := thread_epoch = 0 || lane.context = 0 || lane.base = 0 }

variable (t : Tracker)

/-- The context of the innermost scope. -/
def current : Context := if t.failed then {} else (t.stack.head?.map (·.context)).getD {}

/-- The tracker fails, for good. -/
def poison : Tracker :=
  { t with failed := true, update := {}, wait := 0, wait_coordinator := 0 }

/-- `worker_credit`: the wait `operation` succeeded. -/
def workerCredit (lane : Lane) (operation coordinator_epoch : Nat) (expected_success : Bool) :
    Tracker × Bool :=
  if t.failed || lane ≠ t.lane || t.stack ≠ [] || t.update.valid || !expected_success ||
      operation ≤ t.last_wait || coordinator_epoch = 0 || t.wait ≠ 0 then (t.poison, false)
  else
    ({ t with wait := operation, last_wait := operation, wait_coordinator := coordinator_epoch },
      true)

/-- The context that a scope of this kind has, and what it takes from the tracker. -/
def opened (kind : Kind) (coordinator_epoch : Nat) : Option (Tracker × Context) :=
  match kind with
  | .kUpdate =>
    if t.stack ≠ [] || t.update.valid || t.wait ≠ 0 || coordinator_epoch ≠ 0 then none
    else some (t, { kind := .kUpdate })
  | .kCoordinator =>
    if t.stack ≠ [] || !t.update.valid || t.wait ≠ 0 || coordinator_epoch = 0 then none
    else
      some ({ t with update := {} },
        { kind := .kCoordinator, update := t.update, coordinator_epoch := coordinator_epoch })
  | .kSyncRender =>
    match t.stack with
    | [entry] =>
      if entry.context.kind ≠ .kCoordinator || coordinator_epoch = 0 ||
          coordinator_epoch ≠ entry.context.coordinator_epoch then none
      else
        some (t, { kind := .kSyncRender, update := entry.context.update
                   coordinator_epoch := coordinator_epoch })
    | _ => none
  | .kWorkerRender =>
    if t.stack ≠ [] || t.update.valid || t.wait = 0 || coordinator_epoch = 0 ||
        coordinator_epoch ≠ t.wait_coordinator then none
    else
      some ({ t with wait := 0, wait_coordinator := 0 },
        { kind := .kWorkerRender, wait_operation := t.wait
          coordinator_epoch := t.wait_coordinator })

/-- A scope is entered. -/
def enter (lane : Lane) (kind : Kind) (expected_caller : Bool) (qpc coordinator_epoch : Nat) :
    Tracker × Lease :=
  if t.failed || lane ≠ t.lane || !expected_caller || qpc = 0 || qpc > kMaxQpc ||
      qpc < t.last_qpc || t.stack.length = kStackSize || t.next = kMaxSerial then (t.poison, {})
  else
    match t.opened kind coordinator_epoch with
    | none => (t.poison, {})
    | some (t, context) =>
      let context := { context with invocation := ⟨t.epoch, t.next + 1⟩ }
      ({ t with next := t.next + 1, stack := ⟨context, qpc⟩ :: t.stack, last_qpc := qpc },
        ⟨context.invocation, qpc, t.stack.length + 1⟩)

/-- A scope is left. -/
def leave (lane : Lane) (lease : Lease) (qpc : Nat) (completed : Bool) : Tracker × Bool :=
  if t.failed || lane ≠ t.lane || !lease.id.valid then (t.poison, false)
  else
    match t.stack with
    | [] => (t.poison, false)
    | entry :: rest =>
      if lease.depth ≠ rest.length + 1 || lease.id ≠ entry.context.invocation ||
          lease.begin ≠ entry.begin || qpc < t.last_qpc || qpc > kMaxQpc then (t.poison, false)
      else
        let t := { t with stack := rest, last_qpc := qpc }
        if !completed then (t.poison, false)
        else if entry.context.kind = .kUpdate then
          ({ t with update := entry.context.invocation }, true)
        else (t, true)

end Tracker

/-! ### Runs -/

/-- The calls of a tracker. -/
inductive Call where
  | workerCredit (lane : Lane) (operation coordinator_epoch : Nat) (expected_success : Bool)
  | enter (lane : Lane) (kind : Kind) (expected_caller : Bool) (qpc coordinator_epoch : Nat)
  | leave (lane : Lane) (lease : Lease) (qpc : Nat) (completed : Bool)

/-- What a tracker answers. -/
inductive Answer where
  | credited (ok : Bool)
  | entered (lease : Lease)
  | left (ok : Bool)
  deriving DecidableEq

def Tracker.call (t : Tracker) : Call → Tracker × Answer
  | .workerCredit lane operation coordinator expected =>
    let done := t.workerCredit lane operation coordinator expected
    (done.1, .credited done.2)
  | .enter lane kind expected qpc coordinator =>
    let done := t.enter lane kind expected qpc coordinator
    (done.1, .entered done.2)
  | .leave lane lease qpc completed =>
    let done := t.leave lane lease qpc completed
    (done.1, .left done.2)

/-- A call, the answer to it, and the context that is current afterwards. -/
structure Item where
  call : Call
  answer : Answer
  current : Context

/-- The calls of a run, with their answers. -/
abbrev Log := List Item

/-- The answer, and the item of the log. -/
def Tracker.told (t : Tracker) (call : Call) : Tracker × Item :=
  ((t.call call).1, ⟨call, (t.call call).2, (t.call call).1.current⟩)

/-- A new tracker after some calls. -/
def run (thread_epoch : Nat) (lane : Lane) (initial_serial : Nat) (calls : List Call) :
    Tracker × Log :=
  AnsweredRun.run Tracker.told (.new thread_epoch lane initial_serial) calls

/-- The answer hands nothing out. -/
def Answer.refused : Answer → Bool
  | .credited ok => !ok
  | .entered lease => lease = {}
  | .left ok => !ok

/-! ### What one call does -/

namespace Tracker

/-- The leases of the open scopes, the innermost first. -/
def leases : List Entry → List Lease
  | [] => []
  | entry :: rest => ⟨entry.context.invocation, entry.begin, rest.length + 1⟩ :: leases rest

/-- What a call can do, with its answer. -/
inductive Effect (t : Tracker) : Tracker → Call → Answer → Prop where
  | refused (stack : List Entry) (qpc : Nat) (call : Call) (answer : Answer) :
      answer.refused = true → Effect t { t.poison with stack := stack, last_qpc := qpc } call answer
  | credited (lane : Lane) (operation coordinator : Nat) (expected : Bool) :
      t.failed = false → t.stack = [] → t.update.valid = false → t.wait = 0 →
      t.last_wait < operation →
      Effect t
        { t with wait := operation, last_wait := operation, wait_coordinator := coordinator }
        (.workerCredit lane operation coordinator expected) (.credited true)
  | entered (lane : Lane) (kind : Kind) (expected : Bool) (qpc coordinator : Nat) (t' : Tracker)
      (context : Context) : t.failed = false → t.opened kind coordinator = some (t', context) →
      Effect t
        { t' with
          next := t.next + 1
          stack := ⟨{ context with invocation := ⟨t.epoch, t.next + 1⟩ }, qpc⟩ :: t.stack
          last_qpc := qpc }
        (.enter lane kind expected qpc coordinator)
        (.entered ⟨⟨t.epoch, t.next + 1⟩, qpc, t.stack.length + 1⟩)
  | left (lane : Lane) (entry : Entry) (rest : List Entry) (qpc : Nat) (update : Id) :
      t.failed = false → t.stack = entry :: rest →
      update = (if entry.context.kind = .kUpdate then entry.context.invocation else t.update) →
      Effect t { t with stack := rest, last_qpc := qpc, update := update }
        (.leave lane ⟨entry.context.invocation, entry.begin, rest.length + 1⟩ qpc true)
        (.left true)

variable {t t' : Tracker}

/-- A scope takes nothing from the tracker but the update or the credit. -/
theorem opened_kept {kind : Kind} {coordinator : Nat} {context : Context}
    (h : t.opened kind coordinator = some (t', context)) :
    t'.epoch = t.epoch ∧ t'.lane = t.lane ∧ t'.next = t.next ∧ t'.last_wait = t.last_wait ∧
      t'.stack = t.stack ∧ t'.failed = t.failed ∧ context.kind = kind := by
  unfold opened at h
  cases kind with
  | kSyncRender =>
    dsimp only at h
    split at h
    · split at h
      · cases h
      · cases h
        exact ⟨rfl, rfl, rfl, rfl, rfl, rfl, rfl⟩
    · cases h
  | _ =>
    dsimp only at h
    split at h
    · cases h
    · cases h
      exact ⟨rfl, rfl, rfl, rfl, rfl, rfl, rfl⟩

/-- What the scope of a kind asks for and takes. -/
structure Opens (t t' : Tracker) (kind : Kind) (coordinator : Nat) (context : Context) : Prop where
  coordinator_eq : context.coordinator_epoch = coordinator
  within : ∀ entry ∈ t.stack, entry.context.kind = .kCoordinator
  update_kept : t'.update.valid = true → t'.update = t.update ∧ t.stack ≠ []
  wait_kept : t'.wait ≠ 0 →
    t'.wait = t.wait ∧ t'.wait_coordinator = t.wait_coordinator ∧ kind ≠ .kWorkerRender
  update : kind = .kUpdate → t.stack = []
  coordinated : kind = .kCoordinator → t.update.valid = true ∧ context.update = t.update
  rendered : kind = .kWorkerRender → t.wait ≠ 0 ∧ context.wait_operation = t.wait ∧
    context.coordinator_epoch = t.wait_coordinator

theorem opened_opens {kind : Kind} {coordinator : Nat} {context : Context}
    (h : t.opened kind coordinator = some (t', context)) : t.Opens t' kind coordinator context := by
  unfold opened at h
  cases kind with
  | kUpdate =>
    dsimp only at h
    split at h
    · cases h
    · rename_i hguard
      simp only [Bool.or_eq_true, decide_eq_true_eq, not_or, ne_eq, not_not,
        Bool.not_eq_true] at hguard
      obtain ⟨⟨⟨hstack, hupdate⟩, hwait⟩, hcoordinator⟩ := hguard
      cases h
      exact {
        coordinator_eq := hcoordinator.symm
        within := by simp [hstack]
        update_kept := by simp [hupdate]
        wait_kept := by simp [hwait]
        update := fun _ => hstack
        coordinated := by simp
        rendered := by simp }
  | kCoordinator =>
    dsimp only at h
    split at h
    · cases h
    · rename_i hguard
      simp only [Bool.or_eq_true, decide_eq_true_eq, not_or, ne_eq, not_not, Bool.not_eq_true',
        Bool.not_eq_false] at hguard
      obtain ⟨⟨⟨hstack, hupdate⟩, hwait⟩, -⟩ := hguard
      cases h
      exact {
        coordinator_eq := rfl
        within := by simp [hstack]
        update_kept := by intro hvalid; cases hvalid
        wait_kept := by simp [hwait]
        update := by simp
        coordinated := fun _ => ⟨hupdate, rfl⟩
        rendered := by simp }
  | kSyncRender =>
    dsimp only at h
    split at h
    · rename_i entry hstack
      split at h
      · cases h
      · rename_i hguard
        simp only [Bool.or_eq_true, decide_eq_true_eq, not_or, ne_eq, not_not] at hguard
        cases h
        exact {
          coordinator_eq := rfl
          within := by simp [hstack, hguard.1.1]
          update_kept := by simp [hstack]
          wait_kept := by simp
          update := by simp
          coordinated := by simp
          rendered := by simp }
    · cases h
  | kWorkerRender =>
    dsimp only at h
    split at h
    · cases h
    · rename_i hguard
      simp only [Bool.or_eq_true, decide_eq_true_eq, not_or, ne_eq, not_not,
        Bool.not_eq_true] at hguard
      obtain ⟨⟨⟨⟨hstack, hupdate⟩, hwait⟩, -⟩, hcoordinator⟩ := hguard
      cases h
      exact {
        coordinator_eq := hcoordinator.symm
        within := by simp [hstack]
        update_kept := by simp [hupdate]
        wait_kept := by simp
        update := by simp
        coordinated := by simp
        rendered := fun _ => ⟨hwait, rfl, rfl⟩ }

theorem effect_refused (call : Call) {answer : Answer} (h : answer.refused = true) :
    t.Effect t.poison call answer := Effect.refused t.stack t.last_qpc call answer h

/-- **One call** does one of the things listed. -/
theorem call_effect (t : Tracker) (call : Call) :
    t.Effect (t.call call).1 call (t.call call).2 := by
  cases call with
  | workerCredit lane operation coordinator expected =>
    unfold Tracker.call workerCredit
    dsimp only
    split
    · exact effect_refused _ rfl
    · rename_i h
      simp only [Bool.or_eq_true, decide_eq_true_eq, not_or, not_le, Bool.not_eq_true',
        ne_eq, not_not, Bool.not_eq_false, Bool.not_eq_true] at h
      obtain ⟨⟨⟨⟨⟨⟨⟨hfailed, -⟩, hstack⟩, hupdate⟩, -⟩, hlast⟩, -⟩, hwait⟩ := h
      exact Effect.credited lane operation coordinator expected hfailed hstack hupdate hwait hlast
  | enter lane kind expected qpc coordinator =>
    unfold Tracker.call enter
    dsimp only
    split
    · exact effect_refused _ rfl
    · rename_i h
      have hfailed : t.failed = false := by
        by_contra hnot
        exact h (by simp [hnot])
      cases hopened : t.opened kind coordinator with
      | none => exact effect_refused _ rfl
      | some pair =>
        obtain ⟨t₁, context⟩ := pair
        obtain ⟨hepoch, -, hnext, -, hstack, -, -⟩ := opened_kept hopened
        have heffect := Effect.entered lane kind expected qpc coordinator t₁ context hfailed hopened
        simp only [hepoch, hnext, hstack] at heffect ⊢
        exact heffect
  | leave lane lease qpc completed =>
    unfold Tracker.call leave
    dsimp only
    split
    · exact effect_refused _ rfl
    · rename_i h
      have hfailed : t.failed = false := by
        by_contra hnot
        exact h (by simp [hnot])
      cases hstack : t.stack with
      | nil => exact effect_refused _ rfl
      | cons entry rest =>
        dsimp only
        split
        · exact effect_refused _ rfl
        · rename_i hlease
          simp only [Bool.or_eq_true, decide_eq_true_eq, not_or, ne_eq, not_not] at hlease
          obtain ⟨⟨⟨⟨hdepth, hid⟩, hbegin⟩, -⟩, -⟩ := hlease
          have heq : lease = ⟨entry.context.invocation, entry.begin, rest.length + 1⟩ := by
            rw [← hid, ← hbegin, ← hdepth]
          subst heq
          cases completed with
          | false => exact Effect.refused rest qpc _ _ rfl
          | true =>
            have hleft := Effect.left lane entry rest qpc _ hfailed hstack rfl
            by_cases hkind : entry.context.kind = .kUpdate
            · simp only [hkind, if_true] at hleft ⊢
              exact hleft
            · simp only [hkind, if_false] at hleft ⊢
              exact hleft

end Tracker

/-! ### What a run keeps -/

/-- The call opened a scope with this lease and context. -/
structure Item.Enters (item : Item) (lease : Lease) (context : Context) : Prop where
  answer : item.answer = .entered lease
  current : item.current = context
  id : lease.id = context.invocation
  valid : lease.id.valid = true
  call : ∃ lane expected qpc, item.call =
    .enter lane context.kind expected qpc context.coordinator_epoch

/-- The call closed the scope of this lease. -/
structure Item.Leaves (item : Item) (lease : Lease) : Prop where
  answer : item.answer = .left true
  call : ∃ lane qpc completed, item.call = .leave lane lease qpc completed

/-- The call gave a credit for this wait. -/
structure Item.Credits (item : Item) (operation coordinator : Nat) : Prop where
  answer : item.answer = .credited true
  call : ∃ lane expected, item.call = .workerCredit lane operation coordinator expected

/-- Call `n` enters the scope of the lease. -/
def Entered (log : Log) (n : Nat) (lease : Lease) (context : Context) : Prop :=
  At (·.Enters lease context) log n

/-- Call `n` leaves the scope of the lease. -/
def Left (log : Log) (n : Nat) (lease : Lease) : Prop := At (·.Leaves lease) log n

/-- Call `n` gives the credit of the operation. -/
def Credited (log : Log) (n operation coordinator : Nat) : Prop :=
  At (·.Credits operation coordinator) log n

/-- An update with this invocation was entered and completed before the `n`th call. -/
def Completed (log : Log) (n : Nat) (update : Id) : Prop :=
  ∃ i j lease context, i < j ∧ j < n ∧ Entered log i lease context ∧ Left log j lease ∧
    context.kind = .kUpdate ∧ context.invocation = update

/-- The leases that are open after the calls of the log, the last one first. -/
def openAfter (opened : List Lease) (item : Item) : List Lease :=
  match item.answer with
  | .entered lease => if lease = {} then opened else lease :: opened
  | .left true => opened.tail
  | _ => opened

/-- The scopes that a log leaves open. -/
def openScopes (log : Log) : List Lease := log.foldl openAfter []

theorem openScopes_snoc (log : Log) (item : Item) :
    openScopes (log ++ [item]) = openAfter (openScopes log) item := by
  simp [openScopes]

/-! The numbers that only grow: of the scopes, of the updates that coordinators take, of the
waits that are credited and of the waits that renders take. -/

/-- The item enters the scope of this serial. -/
def Item.serial (item : Item) (n : Nat) : Prop :=
  ∃ lease context, item.Enters lease context ∧ lease.id.serial = n

/-- The item enters a coordinator of this update. -/
def Item.coordinates (item : Item) (n : Nat) : Prop :=
  ∃ lease context, item.Enters lease context ∧ context.kind = .kCoordinator ∧
    context.update.serial = n

/-- The item gives the credit of this operation. -/
def Item.credits (item : Item) (n : Nat) : Prop := ∃ coordinator, item.Credits n coordinator

/-- The item renders for this operation. -/
def Item.renders (item : Item) (n : Nat) : Prop :=
  ∃ lease context, item.Enters lease context ∧ context.kind = .kWorkerRender ∧
    context.wait_operation = n

/-- What the log of a run and the tracker have in common. -/
structure Inv (epoch : Nat) (t : Tracker) (log : Log) : Prop where
  same_epoch : t.epoch = epoch
  positive : t.failed = false → epoch ≠ 0
  open_eq : t.failed = false → openScopes log = Tracker.leases t.stack
  poisoned : t.failed = true → t.update = {} ∧ t.wait = 0
  on_stack : t.failed = false → ∀ entry rest, entry :: rest <:+ t.stack → ∃ n,
    Entered log n ⟨entry.context.invocation, entry.begin, rest.length + 1⟩ entry.context
  updating : t.failed = false → ∀ entry ∈ t.stack, entry.context.kind = .kUpdate →
    t.stack = [entry] ∧ entry.context.invocation.serial = t.next
  pending : t.update.valid = true → t.update.serial = t.next ∧ t.stack = [] ∧
    t.update.thread_epoch = epoch ∧ Completed log log.length t.update
  credit : t.wait ≠ 0 → t.wait = t.last_wait ∧ (∃ n, Credited log n t.wait t.wait_coordinator) ∧
    ∀ n i, At (·.renders i) log n → i < t.wait
  numbered : ∀ n lease context, Entered log n lease context →
    lease.id.thread_epoch = epoch ∧ lease.id.serial ≤ t.next
  increasing : Rises Item.serial log
  coordinated : ∀ n lease context, Entered log n lease context → context.kind = .kCoordinator →
    context.update.thread_epoch = epoch ∧
      context.update.serial < context.invocation.serial ∧ Completed log n context.update
  coordinated_once : Rises Item.coordinates log
  credited : ∀ n operation coordinator, Credited log n operation coordinator →
    operation ≤ t.last_wait
  credits_increasing : Rises Item.credits log
  rendered : ∀ n lease context, Entered log n lease context → context.kind = .kWorkerRender →
    context.wait_operation ≤ t.last_wait ∧
      ∃ m, m < n ∧ Credited log m context.wait_operation context.coordinator_epoch
  rendered_once : Rises Item.renders log
  nested : ∀ n lease, Left log n lease → (openScopes (log.take n)).head? = some lease

theorem inv_new (epoch : Nat) (lane : Lane) (serial : Nat) :
    Inv epoch (.new epoch lane serial) [] where
  same_epoch := rfl
  positive := by
    intro h
    simp only [Tracker.new, Bool.or_eq_false_iff, decide_eq_false_iff_not] at h
    exact h.1.1
  open_eq := by intro; rfl
  poisoned := by intro; exact ⟨rfl, rfl⟩
  on_stack := by
    intro _ entry rest h
    exact absurd (eq_nil_of_suffix_nil h) (by simp)
  updating := by intro _ entry h; cases h
  pending := by intro h; cases h
  credit := by intro h; exact absurd rfl h
  numbered := by intro n lease context h; exact absurd h not_at_nil
  increasing := rises_nil _
  coordinated := by intro n lease context h; exact absurd h not_at_nil
  coordinated_once := rises_nil _
  credited := by intro n operation coordinator h; exact absurd h not_at_nil
  credits_increasing := rises_nil _
  rendered := by intro n lease context h; exact absurd h not_at_nil
  rendered_once := rises_nil _
  nested := by intro n lease h; exact absurd h not_at_nil

section Step
variable {epoch : Nat} {t t' : Tracker} {log : Log} {item : Item}

theorem Completed.before {n : Nat} {update : Id} (h : Completed log n update) (item : Item) :
    Completed (log ++ [item]) n update := by
  obtain ⟨i, j, lease, context, hij, hjn, hentered, hleft, hrest⟩ := h
  exact ⟨i, j, lease, context, hij, hjn, hentered.before item, hleft.before item, hrest⟩

theorem take_snoc {n : Nat} (hn : n ≤ log.length) (item : Item) :
    (log ++ [item]).take n = log.take n := take_append_of_le_length hn

/-- What the log says of a call that opened no scope. -/
theorem Inv.unentered (h : Inv epoch t log) (hitem : ∀ lease context, ¬item.Enters lease context) :
    Rises Item.serial (log ++ [item]) ∧ Rises Item.coordinates (log ++ [item]) ∧
      Rises Item.renders (log ++ [item]) := by
  refine ⟨h.increasing.snoc ?_, h.coordinated_once.snoc ?_, h.rendered_once.snoc ?_⟩
  · rintro j ⟨lease, context, henters, -⟩
    exact absurd henters (hitem lease context)
  · rintro j ⟨lease, context, henters, -⟩
    exact absurd henters (hitem lease context)
  · rintro j ⟨lease, context, henters, -⟩
    exact absurd henters (hitem lease context)

/-- What the log says of a call that opened no scope and closed none. -/
theorem Inv.nested_snoc (h : Inv epoch t log) (hitem : ∀ lease, ¬item.Leaves lease) :
    ∀ n lease, Left (log ++ [item]) n lease →
      (openScopes ((log ++ [item]).take n)).head? = some lease := by
  intro n lease hleft
  have hold : Left log n lease := hleft.of_snoc (hitem lease)
  rw [take_snoc hold.lt.le]
  exact h.nested n lease hold

theorem Inv.numbered_snoc (h : Inv epoch t log)
    (hitem : ∀ lease context, ¬item.Enters lease context) :
    ∀ n lease context, Entered (log ++ [item]) n lease context →
      lease.id.thread_epoch = epoch ∧ lease.id.serial ≤ t.next := by
  intro n lease context hentered
  exact h.numbered n lease context (hentered.of_snoc (hitem lease context))

theorem Inv.coordinated_snoc (h : Inv epoch t log)
    (hitem : ∀ lease context, item.Enters lease context → context.kind ≠ .kCoordinator) :
    ∀ n lease context, Entered (log ++ [item]) n lease context → context.kind = .kCoordinator →
      context.update.thread_epoch = epoch ∧ context.update.serial < context.invocation.serial ∧
        Completed (log ++ [item]) n context.update := by
  intro n lease context hentered hkind
  have hold : Entered log n lease context :=
    hentered.of_snoc fun henters => hitem lease context henters hkind
  obtain ⟨hepoch, hlt, hcompleted⟩ := h.coordinated n lease context hold hkind
  exact ⟨hepoch, hlt, hcompleted.before item⟩

theorem Inv.rendered_snoc (h : Inv epoch t log)
    (hitem : ∀ lease context, item.Enters lease context → context.kind ≠ .kWorkerRender) :
    ∀ n lease context, Entered (log ++ [item]) n lease context →
      context.kind = .kWorkerRender → context.wait_operation ≤ t.last_wait ∧
        ∃ m, m < n ∧ Credited (log ++ [item]) m context.wait_operation
          context.coordinator_epoch := by
  intro n lease context hentered hkind
  have hold : Entered log n lease context :=
    hentered.of_snoc fun henters => hitem lease context henters hkind
  obtain ⟨hle, m, hlt, hcredited⟩ := h.rendered n lease context hold hkind
  exact ⟨hle, m, hlt, hcredited.before item⟩

theorem Inv.credited_snoc (h : Inv epoch t log)
    (hitem : ∀ operation coordinator, ¬item.Credits operation coordinator) :
    (∀ n operation coordinator, Credited (log ++ [item]) n operation coordinator →
      operation ≤ t.last_wait) ∧ Rises Item.credits (log ++ [item]) := by
  constructor
  · intro n operation coordinator hcredited
    exact h.credited n operation coordinator (hcredited.of_snoc (hitem operation coordinator))
  · apply h.credits_increasing.snoc
    rintro j ⟨coordinator, hcredits⟩
    exact absurd hcredits (hitem j coordinator)

theorem Inv.on_stack_snoc (h : Inv epoch t log) (hok : t.failed = false) {stack : List Entry}
    (hstack : stack <:+ t.stack) (item : Item) :
    ∀ entry rest, entry :: rest <:+ stack → ∃ n, Entered (log ++ [item]) n
      ⟨entry.context.invocation, entry.begin, rest.length + 1⟩ entry.context := by
  intro entry rest hsuffix
  obtain ⟨n, hentered⟩ := h.on_stack hok entry rest (hsuffix.trans hstack)
  exact ⟨n, hentered.before item⟩

/-- A refusal. -/
theorem Inv.refused (h : Inv epoch t log) (hanswer : item.answer.refused = true)
    (stack : List Entry) (qpc : Nat) :
    Inv epoch { t.poison with stack := stack, last_qpc := qpc } (log ++ [item]) := by
  have henters : ∀ lease context, ¬item.Enters lease context := by
    intro lease context henters
    rw [henters.answer] at hanswer
    have hlease : lease = {} := by simpa [Answer.refused] using hanswer
    have hvalid := henters.valid
    rw [hlease] at hvalid
    exact absurd hvalid (by decide)
  have hleaves : ∀ lease, ¬item.Leaves lease := by
    intro lease hleaves
    rw [hleaves.answer] at hanswer
    exact absurd hanswer (by decide)
  have hcredits : ∀ operation coordinator, ¬item.Credits operation coordinator := by
    intro operation coordinator hcredits
    rw [hcredits.answer] at hanswer
    exact absurd hanswer (by decide)
  obtain ⟨hserial, hcoordinates, hrenders⟩ := h.unentered henters
  obtain ⟨hcredited, hincreasing⟩ := h.credited_snoc hcredits
  exact {
    same_epoch := h.same_epoch
    positive := by intro hok; cases hok
    open_eq := by intro hok; cases hok
    poisoned := by intro; exact ⟨rfl, rfl⟩
    on_stack := by intro hok; cases hok
    updating := by intro hok; cases hok
    pending := by intro hvalid; cases hvalid
    credit := by intro hwait; exact absurd rfl hwait
    numbered := h.numbered_snoc henters
    increasing := hserial
    coordinated := h.coordinated_snoc fun lease context hitem => absurd hitem (henters lease context)
    coordinated_once := hcoordinates
    credited := hcredited
    credits_increasing := hincreasing
    rendered := h.rendered_snoc fun lease context hitem => absurd hitem (henters lease context)
    rendered_once := hrenders
    nested := h.nested_snoc hleaves }

/-- A credit. -/
theorem Inv.credit_given (h : Inv epoch t log) {operation coordinator : Nat}
    (hok : t.failed = false) (hupdate : t.update.valid = false)
    (hlast : t.last_wait < operation) (hanswer : item.answer = .credited true)
    (hcall : ∃ lane expected, item.call = .workerCredit lane operation coordinator expected) :
    Inv epoch { t with wait := operation, last_wait := operation, wait_coordinator := coordinator }
      (log ++ [item]) := by
  have henters : ∀ lease context, ¬item.Enters lease context := by
    intro lease context henters
    exact absurd (hanswer.symm.trans henters.answer) (by simp)
  have hleaves : ∀ lease, ¬item.Leaves lease := by
    intro lease hleaves
    exact absurd (hanswer.symm.trans hleaves.answer) (by simp)
  have hitem : ∀ operation' coordinator', item.Credits operation' coordinator' →
      operation' = operation := by
    intro operation' coordinator' hcredits
    obtain ⟨_, _, hcall'⟩ := hcredits.call
    obtain ⟨_, _, hcall⟩ := hcall
    have := hcall'.symm.trans hcall
    simp only [Call.workerCredit.injEq] at this
    exact this.2.1
  obtain ⟨hserial, hcoordinates, hrenders⟩ := h.unentered henters
  exact {
    same_epoch := h.same_epoch
    positive := h.positive
    open_eq := by
      intro hok'
      rw [openScopes_snoc, h.open_eq hok]
      simp [openAfter, hanswer]
    poisoned := by
      intro hfailed
      exact absurd (hfailed.symm.trans hok) (by decide)
    on_stack := fun hok' => h.on_stack_snoc hok suffix_rfl item
    updating := h.updating
    pending := by
      intro hvalid
      exact absurd (hvalid.symm.trans hupdate) (by decide)
    credit := by
      intro _
      refine ⟨rfl, ⟨log.length, At.last log ⟨hanswer, hcall⟩⟩, ?_⟩
      intro n i hrendered
      have hold : At (·.renders i) log n := by
        apply hrendered.of_snoc
        rintro ⟨lease, context, hitem, -⟩
        exact henters lease context hitem
      obtain ⟨a, ha, lease, context, henters', hkind, hop⟩ := hold
      have := (h.rendered n lease context ⟨a, ha, henters'⟩ hkind).1
      dsimp only
      omega
    numbered := h.numbered_snoc henters
    increasing := hserial
    coordinated := h.coordinated_snoc fun lease context hitem => absurd hitem (henters lease context)
    coordinated_once := hcoordinates
    credited := by
      intro n operation' coordinator' hcredited
      rcases hcredited.snoc with hold | ⟨-, hnew⟩
      · have := h.credited n operation' coordinator' hold
        dsimp only
        omega
      · exact (hitem operation' coordinator' hnew).le
    credits_increasing := by
      apply h.credits_increasing.snoc
      rintro j ⟨coordinator', hnew⟩ m i ⟨a, ha, coordinator'', hcredits⟩
      have hle := h.credited m i coordinator'' ⟨a, ha, hcredits⟩
      have := hitem j coordinator' hnew
      omega
    rendered := by
      intro n lease context hentered hkind
      obtain ⟨hle, hcredited⟩ := h.rendered_snoc
        (fun lease context hitem => absurd hitem (henters lease context)) n lease context hentered
        hkind
      dsimp only
      exact ⟨by omega, hcredited⟩
    rendered_once := hrenders
    nested := h.nested_snoc hleaves }

/-- A scope is closed. -/
theorem Inv.left (h : Inv epoch t log) {entry : Entry} {rest : List Entry} {update : Id}
    (hok : t.failed = false) (hstack : t.stack = entry :: rest) (hupdate : update =
      if entry.context.kind = .kUpdate then entry.context.invocation else t.update)
    (hitem : item.Leaves ⟨entry.context.invocation, entry.begin, rest.length + 1⟩) (qpc : Nat) :
    Inv epoch { t with stack := rest, last_qpc := qpc, update := update } (log ++ [item]) := by
  have henters : ∀ lease context, ¬item.Enters lease context := by
    intro lease context henters
    exact absurd (hitem.answer.symm.trans henters.answer) (by simp)
  have hcredits : ∀ operation coordinator, ¬item.Credits operation coordinator := by
    intro operation coordinator hcredits
    exact absurd (hitem.answer.symm.trans hcredits.answer) (by simp)
  obtain ⟨hserial, hcoordinates, hrenders⟩ := h.unentered henters
  obtain ⟨hcredited, hincreasing⟩ := h.credited_snoc hcredits
  have hmem : entry ∈ t.stack := by simp [hstack]
  have hsuffix : rest <:+ t.stack := by
    rw [hstack]
    exact suffix_cons entry rest
  -- no completed update waits while a scope is open
  have hnone : t.update.valid = false := by
    by_contra hvalid
    have := (h.pending (by simpa using hvalid)).2.1
    rw [hstack] at this
    cases this
  exact {
    same_epoch := h.same_epoch
    positive := h.positive
    open_eq := by
      intro _
      rw [openScopes_snoc, h.open_eq hok, hstack]
      simp [openAfter, hitem.answer, Tracker.leases]
    poisoned := by
      intro hfailed
      exact absurd (hfailed.symm.trans hok) (by decide)
    on_stack := fun _ => h.on_stack_snoc hok hsuffix item
    updating := by
      intro _ entry' hentry' hkind
      have heq := (h.updating hok entry' (hsuffix.subset hentry') hkind).1
      rw [hstack] at heq
      simp only [List.cons.injEq] at heq
      rw [heq.2] at hentry'
      cases hentry'
    pending := by
      intro hvalid
      by_cases hkind : entry.context.kind = .kUpdate
      · rw [if_pos hkind] at hupdate
        subst hupdate
        obtain ⟨heq, hnext⟩ := h.updating hok entry hmem hkind
        obtain ⟨n, hentered⟩ := h.on_stack hok entry rest (by rw [hstack])
        have hrest : rest = [] := by
          rw [hstack] at heq
          simpa using heq
        refine ⟨hnext, hrest, (h.numbered n _ _ hentered).1, ?_⟩
        exact ⟨n, log.length, _, entry.context, hentered.lt, by simp, hentered.before item,
          At.last log hitem, hkind, rfl⟩
      · rw [if_neg hkind] at hupdate
        subst hupdate
        exact absurd (hvalid.symm.trans hnone) (by decide)
    credit := by
      intro hwait
      obtain ⟨heq, ⟨n, hcredit⟩, hbelow⟩ := h.credit hwait
      refine ⟨heq, ⟨n, hcredit.before item⟩, ?_⟩
      intro n i hrendered
      apply hbelow n i
      apply hrendered.of_snoc
      rintro ⟨lease, context, hentered, -⟩
      exact henters lease context hentered
    numbered := h.numbered_snoc henters
    increasing := hserial
    coordinated := h.coordinated_snoc fun lease context hitem => absurd hitem (henters lease context)
    coordinated_once := hcoordinates
    credited := hcredited
    credits_increasing := hincreasing
    rendered := h.rendered_snoc fun lease context hitem => absurd hitem (henters lease context)
    rendered_once := hrenders
    nested := by
      intro n lease hleft
      rcases hleft.snoc with hold | ⟨rfl, hnew⟩
      · rw [take_snoc hold.lt.le]
        exact h.nested n lease hold
      · obtain ⟨lane, qpc', completed, hcall⟩ := hnew.call
        obtain ⟨lane', qpc'', completed', hcall'⟩ := hitem.call
        have := hcall.symm.trans hcall'
        simp only [Call.leave.injEq] at this
        rw [take_snoc le_rfl, take_length, h.open_eq hok, hstack, this.2.1]
        rfl }

/-- A scope is opened. -/
theorem Inv.entered (h : Inv epoch t log) {kind : Kind} {coordinator qpc : Nat} {t' : Tracker}
    {context : Context} (hok : t.failed = false)
    (hopened : t.opened kind coordinator = some (t', context))
    (hitem : item.Enters ⟨⟨t.epoch, t.next + 1⟩, qpc, t.stack.length + 1⟩
      { context with invocation := ⟨t.epoch, t.next + 1⟩ }) :
    Inv epoch
      { t' with
        next := t.next + 1
        stack := ⟨{ context with invocation := ⟨t.epoch, t.next + 1⟩ }, qpc⟩ :: t.stack
        last_qpc := qpc } (log ++ [item]) := by
  obtain ⟨hepoch, -, -, hlast, -, hfailed, hkind⟩ := Tracker.opened_kept hopened
  have hopens := Tracker.opened_opens hopened
  have hleaves : ∀ lease, ¬item.Leaves lease := by
    intro lease hleaves
    exact absurd (hitem.answer.symm.trans hleaves.answer) (by simp)
  have hcredits : ∀ operation coordinator, ¬item.Credits operation coordinator := by
    intro operation coordinator hcredits
    exact absurd (hitem.answer.symm.trans hcredits.answer) (by simp)
  have hunique : ∀ lease context', item.Enters lease context' →
      lease = ⟨⟨t.epoch, t.next + 1⟩, qpc, t.stack.length + 1⟩ ∧
        context' = { context with invocation := ⟨t.epoch, t.next + 1⟩ } := by
    intro lease context' henters
    exact ⟨by simpa using henters.answer.symm.trans hitem.answer,
      henters.current.symm.trans hitem.current⟩
  obtain ⟨hcredited, hincreasing⟩ := h.credited_snoc hcredits
  -- with an update waiting the stack is empty, so none waits once a scope is open
  have hnone : t'.update.valid = false := by
    by_contra hvalid
    obtain ⟨heq, hne⟩ := hopens.update_kept (by simpa using hvalid)
    exact hne (h.pending (by rw [← heq]; simpa using hvalid)).2.1
  exact {
    same_epoch := hepoch.trans h.same_epoch
    positive := fun _ => h.positive hok
    open_eq := by
      intro _
      rw [openScopes_snoc, h.open_eq hok]
      simp [openAfter, hitem.answer, Tracker.leases]
    poisoned := by
      intro hbad
      exact absurd (hbad.symm.trans (hfailed.trans hok)) (by decide)
    on_stack := by
      intro _ entry rest hsuffix
      rcases suffix_cons_iff.mp hsuffix with heq | hold
      · simp only [List.cons.injEq] at heq
        obtain ⟨rfl, rfl⟩ := heq
        exact ⟨log.length, At.last log hitem⟩
      · exact h.on_stack_snoc hok suffix_rfl item entry rest hold
    updating := by
      intro _ entry hentry hupdating
      rcases mem_cons.mp hentry with rfl | hold
      · have hempty := hopens.update (hkind.symm.trans hupdating)
        exact ⟨by simp [hempty], rfl⟩
      · exact absurd ((hopens.within entry hold).symm.trans hupdating) (by decide)
    pending := by
      intro hvalid
      exact absurd (hvalid.symm.trans hnone) (by decide)
    credit := by
      intro hwait
      obtain ⟨heq, hwho, hnot⟩ := hopens.wait_kept hwait
      rw [heq] at hwait
      obtain ⟨hwl, ⟨n, hcredit⟩, hbelow⟩ := h.credit hwait
      dsimp only
      rw [heq, hwho, hlast]
      refine ⟨hwl, ⟨n, hcredit.before item⟩, ?_⟩
      intro n i hrendered
      apply hbelow n i
      apply hrendered.of_snoc
      rintro ⟨lease, context', henters, hrender, -⟩
      rw [(hunique lease context' henters).2] at hrender
      exact hnot (hkind.symm.trans hrender)
    numbered := by
      intro n lease context' hentered
      rcases hentered.snoc with hold | ⟨-, hnew⟩
      · obtain ⟨heq, hle⟩ := h.numbered n lease context' hold
        dsimp only
        exact ⟨heq, by omega⟩
      · rw [(hunique lease context' hnew).1]
        exact ⟨h.same_epoch, le_rfl⟩
    increasing := by
      apply h.increasing.snoc
      rintro j ⟨lease, context', hnew, rfl⟩ m i ⟨a, ha, lease', context'', hold, rfl⟩
      rw [(hunique lease context' hnew).1]
      have := (h.numbered m lease' context'' ⟨a, ha, hold⟩).2
      dsimp only
      omega
    coordinated := by
      intro n lease context' hentered hcoordinator
      rcases hentered.snoc with hold | ⟨rfl, hnew⟩
      · obtain ⟨hepoch', hlt, hcompleted⟩ := h.coordinated n lease context' hold hcoordinator
        exact ⟨hepoch', hlt, hcompleted.before item⟩
      · obtain ⟨-, rfl⟩ := hunique lease context' hnew
        obtain ⟨hvalid, hupdate⟩ := hopens.coordinated (hkind.symm.trans hcoordinator)
        obtain ⟨hserial, -, hepoch', hcompleted⟩ := h.pending hvalid
        dsimp only
        rw [hupdate]
        exact ⟨hepoch', by omega, hcompleted.before item⟩
    coordinated_once := by
      apply h.coordinated_once.snoc
      rintro j ⟨lease, context', hnew, hcoordinator, rfl⟩ m i
        ⟨a, ha, lease', context'', hold, hcoordinator', rfl⟩
      obtain ⟨-, rfl⟩ := hunique lease context' hnew
      obtain ⟨hvalid, hupdate⟩ := hopens.coordinated (hkind.symm.trans hcoordinator)
      have hserial := (h.pending hvalid).1
      have hlt := (h.coordinated m lease' context'' ⟨a, ha, hold⟩ hcoordinator').2.1
      have hle := (h.numbered m lease' context'' ⟨a, ha, hold⟩).2
      rw [hold.id] at hle
      dsimp only
      rw [hupdate]
      omega
    credited := by
      dsimp only
      rw [hlast]
      exact hcredited
    credits_increasing := hincreasing
    rendered := by
      intro n lease context' hentered hrender
      dsimp only
      rw [hlast]
      rcases hentered.snoc with hold | ⟨rfl, hnew⟩
      · obtain ⟨hle, m, hlt, hcredit⟩ := h.rendered n lease context' hold hrender
        exact ⟨hle, m, hlt, hcredit.before item⟩
      · obtain ⟨-, rfl⟩ := hunique lease context' hnew
        obtain ⟨hwait, hop, hwho⟩ := hopens.rendered (hkind.symm.trans hrender)
        obtain ⟨heq, ⟨m, hcredit⟩, -⟩ := h.credit hwait
        dsimp only
        rw [hop, hwho]
        exact ⟨heq.le, m, hcredit.lt, hcredit.before item⟩
    rendered_once := by
      apply h.rendered_once.snoc
      rintro j ⟨lease, context', hnew, hrender, rfl⟩ m i hold
      obtain ⟨-, rfl⟩ := hunique lease context' hnew
      obtain ⟨hwait, hop, -⟩ := hopens.rendered (hkind.symm.trans hrender)
      dsimp only
      rw [hop]
      exact (h.credit hwait).2.2 m i hold
    nested := h.nested_snoc hleaves }

/-- **Every call** keeps what holds of the tracker and its log. -/
theorem Inv.told (h : Inv epoch t log) (call : Call) :
    Inv epoch (t.told call).1 (log ++ [(t.told call).2]) := by
  have heffect := t.call_effect call
  unfold Tracker.told
  dsimp only
  generalize (t.call call).1 = t', (t.call call).2 = answer at heffect ⊢
  cases heffect with
  | refused stack qpc call answer hanswer => exact h.refused hanswer stack qpc
  | credited lane operation coordinator expected hok hstack hupdate hwait hlast =>
    exact h.credit_given hok hupdate hlast rfl ⟨lane, expected, rfl⟩
  | entered lane kind expected qpc coordinator t₁ context hok hopened =>
    obtain ⟨-, -, -, -, -, hfailed, hkind⟩ := Tracker.opened_kept hopened
    have hcoordinator := (Tracker.opened_opens hopened).coordinator_eq
    apply h.entered hok hopened
    exact {
      answer := rfl
      current := by simp [Tracker.current, hfailed, hok]
      id := rfl
      valid := by
        have := h.positive hok
        simp [Id.valid, h.same_epoch, this]
      call := ⟨lane, expected, qpc, by simp [hkind, hcoordinator]⟩ }
  | left lane entry rest qpc update hok hstack hupdate =>
    exact h.left hok hstack hupdate ⟨rfl, lane, qpc, true, rfl⟩ qpc

end Step

theorem run_inv (thread_epoch : Nat) (lane : Lane) (initial_serial : Nat) (calls : List Call) :
    Inv thread_epoch (run thread_epoch lane initial_serial calls).1
      (run thread_epoch lane initial_serial calls).2 :=
  AnsweredRun.run_induction (inv_new thread_epoch lane initial_serial)
    (fun _ _ call h => h.told call) calls

/-! ### A poisoned tracker -/

theorem Tracker.call_failed {t : Tracker} (h : t.failed = true) (call : Call) :
    (t.call call).1.failed = true ∧ (t.call call).2.refused = true := by
  have heffect := t.call_effect call
  generalize (t.call call).1 = t', (t.call call).2 = answer at heffect ⊢
  cases heffect with
  | refused stack qpc call answer hanswer => exact ⟨rfl, hanswer⟩
  | _ => simp_all

/-- After the calls that poisoned it, a tracker refuses every other call and has no context. -/
theorem run_poisoned {thread_epoch : Nat} {lane : Lane} {initial_serial : Nat} {calls : List Call}
    (h : (run thread_epoch lane initial_serial calls).1.failed = true) (more : List Call) :
    (run thread_epoch lane initial_serial (calls ++ more)).1.failed = true ∧
      ∀ (n : Nat) (item : Item), calls.length ≤ n →
        (run thread_epoch lane initial_serial (calls ++ more)).2[n]? = some item →
        item.answer.refused = true ∧ item.current = {} := by
  induction more using reverseRecOn with
  | nil =>
    rw [append_nil]
    refine ⟨h, ?_⟩
    intro n item hn hitem
    have hlt := AnsweredRun.lt_length hitem
    have hlength : (run thread_epoch lane initial_serial calls).2.length = calls.length :=
      AnsweredRun.length_run calls
    omega
  | append_singleton more call ih =>
    obtain ⟨hfailed, hrefused⟩ := ih
    have hcall := Tracker.call_failed hfailed call
    rw [← append_assoc]
    unfold run at hrefused hcall ⊢
    rw [AnsweredRun.run_append]
    refine ⟨hcall.1, ?_⟩
    intro n item hn hitem
    rcases AnsweredRun.getElem?_snoc hitem with hold | ⟨-, rfl⟩
    · exact hrefused n item hn hold
    · exact ⟨hcall.2, by simp [Tracker.told, Tracker.current, hcall.1]⟩

/-- **What the tracker hands over.**  In every sequence of calls: a coordinator has an update
that was entered and completed before, and no other coordinator has it; a worker render has a
credit that was given before for the coordinator epoch it was entered with, no other render has
it, and no two credits are of one wait; a scope that is closed is the innermost of those that
are open; the identifiers of the scopes are of the thread's epoch and grow; and once the tracker
is poisoned it stays so, every other call is refused and there is no current context. -/
theorem tracker_hands_over (thread_epoch : Nat) (lane : Lane) (initial_serial : Nat)
    (calls : List Call) :
    (∀ n lease context, Entered (run thread_epoch lane initial_serial calls).2 n lease context →
      context.kind = .kCoordinator →
      Completed (run thread_epoch lane initial_serial calls).2 n context.update ∧
      ∀ m lease' context',
        Entered (run thread_epoch lane initial_serial calls).2 m lease' context' →
        context'.kind = .kCoordinator → context'.update = context.update → m = n) ∧
    (∀ n lease context, Entered (run thread_epoch lane initial_serial calls).2 n lease context →
      context.kind = .kWorkerRender →
      (∃ m, m < n ∧ Credited (run thread_epoch lane initial_serial calls).2 m
        context.wait_operation context.coordinator_epoch) ∧
      ∀ m lease' context',
        Entered (run thread_epoch lane initial_serial calls).2 m lease' context' →
        context'.kind = .kWorkerRender → context'.wait_operation = context.wait_operation → m = n) ∧
    (∀ m n operation coordinator coordinator',
      Credited (run thread_epoch lane initial_serial calls).2 m operation coordinator →
      Credited (run thread_epoch lane initial_serial calls).2 n operation coordinator' → m = n) ∧
    (∀ n lease, Left (run thread_epoch lane initial_serial calls).2 n lease →
      (openScopes ((run thread_epoch lane initial_serial calls).2.take n)).head? = some lease) ∧
    (∀ m n lease context lease' context',
      Entered (run thread_epoch lane initial_serial calls).2 m lease context →
      Entered (run thread_epoch lane initial_serial calls).2 n lease' context' → m < n →
        lease.id.thread_epoch = thread_epoch ∧ lease'.id.thread_epoch = thread_epoch ∧
          lease.id.serial < lease'.id.serial) ∧
    ((run thread_epoch lane initial_serial calls).1.failed = true → ∀ more,
      (run thread_epoch lane initial_serial (calls ++ more)).1.failed = true ∧
      ∀ (n : Nat) (item : Item), calls.length ≤ n →
        (run thread_epoch lane initial_serial (calls ++ more)).2[n]? = some item →
        item.answer.refused = true ∧ item.current = {}) := by
  have h := run_inv thread_epoch lane initial_serial calls
  refine ⟨?_, ?_, ?_, h.nested, ?_, fun hfailed more => run_poisoned hfailed more⟩
  · intro n lease context hentered hkind
    refine ⟨(h.coordinated n lease context hentered hkind).2.2, ?_⟩
    rintro m lease' context' ⟨a, ha, henters⟩ hkind' heq
    obtain ⟨b, hb, henters'⟩ := hentered
    apply h.coordinated_once.once (i := context.update.serial)
    · exact ⟨a, ha, lease', context', henters, hkind', by rw [heq]⟩
    · exact ⟨b, hb, lease, context, henters', hkind, rfl⟩
  · intro n lease context hentered hkind
    refine ⟨(h.rendered n lease context hentered hkind).2, ?_⟩
    rintro m lease' context' ⟨a, ha, henters⟩ hkind' heq
    obtain ⟨b, hb, henters'⟩ := hentered
    apply h.rendered_once.once (i := context.wait_operation)
    · exact ⟨a, ha, lease', context', henters, hkind', heq⟩
    · exact ⟨b, hb, lease, context, henters', hkind, rfl⟩
  · rintro m n operation coordinator coordinator' ⟨a, ha, hcredits⟩ ⟨b, hb, hcredits'⟩
    exact h.credits_increasing.once (i := operation) ⟨a, ha, coordinator, hcredits⟩
      ⟨b, hb, coordinator', hcredits'⟩
  · rintro m n lease context lease' context' ⟨a, ha, henters⟩ ⟨b, hb, henters'⟩ hlt
    refine ⟨(h.numbered m lease context ⟨a, ha, henters⟩).1,
      (h.numbered n lease' context' ⟨b, hb, henters'⟩).1, ?_⟩
    exact h.increasing m n _ _ ⟨a, ha, lease, context, henters, rfl⟩
      ⟨b, hb, lease', context', henters', rfl⟩ hlt

end Mcla.FrameContext
