import Mcla.Fixture.Session
import Mcla.Library.LatestRecord

/-! # A timed sequence of publications

`SequenceOracle` of `mcla_content_sequence_v2`: one warmup and ninety timed samples on a fixed
schedule, each of which a `FixtureModel` consumes.  A call that raises keeps what it did to the
oracle before, and the oracle is terminal from then on.
-/
namespace Mcla.Fixture.Sequence
open NestedRecorder List

def TIMED_SAMPLES : Nat := 90
def TOTAL_SAMPLES : Nat := 1 + TIMED_SAMPLES
def HZ : Int := 10

/-- A sample, whose fields may hold anything: none where it is not an `int`, or not exactly a
record of its class. -/
structure Sample where
  (slot frequency arm_qpc issue_before_qpc issue_after_qpc : Option Int)
  publication : Option Publication
  observation : Option Observation

/-- The oracle of a sequence, between two of its calls. -/
structure SequenceOracle where
  (frequency begin_qpc origin : Int)
  model : FixtureModel
  count : Nat := 0
  terminal : Bool := false
  (previous_end previous_timed_lower : Option Int := none)
  (max_window max_gap : Int := 0)

/-- A value of type `int` with a property. -/
def integer (value : Option Int) (p : Int → Prop) [DecidablePred p] (reason : String) :
    Except Fault Int :=
  match value with
  | some n => if p n then .ok n else .error (.value reason)
  | none => .error (.value reason)

/-- `uint` of any value. -/
def tick (value : Option Int) : Except Fault Int :=
  integer value IsUint "unsigned nonwrapping integer required"

/-- A tick above zero. -/
def positiveTick (value : Option Int) : Except Fault Int :=
  integer value (fun n => 1 ≤ n ∧ n ≤ U64_MAX) "unsigned nonwrapping integer required"

/-- `__init__` -/
def SequenceOracle.make (session : List UInt8) (frequency begin_qpc schedule_origin : Option Int) :
    Except Fault SequenceOracle := do
  let _ ← raising (Identity.make session 1 1)
  let frequency ← integer frequency (fun n => HZ ≤ n ∧ n ≤ 1000000000) "bounded sequence frequency"
  let begin_qpc ← positiveTick begin_qpc
  let origin ← positiveTick schedule_origin
  require (begin_qpc ≤ origin ∧ origin ≤ begin_qpc + 5 * frequency)
    "schedule origin after begin and bounded warmup"
  uint (begin_qpc + 15 * frequency)
  uint (origin + 12 * frequency)
  let model ← FixtureModel.make session
  return { frequency, begin_qpc, origin, model }

/-! ### Accepting a sample -/

/-- The methods: what they raise keeps the oracle as it is then. -/
abbrev Method := EStateM Fault SequenceOracle

/-- An error leaves the state as it is. -/
def raised {α : Type} (x : Except Fault α) : Method α := fun s =>
  match x with
  | .ok a => .ok a s
  | .error fault => .error fault s

def check (p : Prop) [Decidable p] (reason : String) : Method Unit := raised (require p reason)

/-- An operation of the nested model. -/
def nested {α : Type} (operation : FixtureModel → Except Fault α × FixtureModel) : Method α :=
  fun s =>
    match operation s.model with
    | (.ok a, model) => .ok a { s with model }
    | (.error fault, model) => .error fault { s with model }

/-- A sample whose fields hold what they should. -/
structure Accepted where
  slot : Nat
  (arm_qpc issue_before_qpc issue_after_qpc : Int)
  publication : Publication
  observation : Observation

/-- The sample it was. -/
def Accepted.sample (frequency : Int) (a : Accepted) : Sample :=
  ⟨some a.slot, some frequency, some a.arm_qpc, some a.issue_before_qpc, some a.issue_after_qpc,
    some a.publication, some a.observation⟩

/-- An object of exactly one class. -/
def exactly {α : Type} (value : Option α) (reason : String) : Except Fault α :=
  match value with
  | some a => .ok a
  | none => .error (.value reason)

namespace SequenceOracle

/-- What `accept` checks of any sample. -/
def checked (s : SequenceOracle) (value : Option Sample) : Except Fault Accepted := do
  let value ← exactly value "exact sequence sample required"
  let _ ← integer value.slot (fun slot => slot = s.count ∧ s.count < TOTAL_SAMPLES)
    "consecutive bounded slots including warmup"
  let _ ← integer value.frequency (· = s.frequency) "sequence frequency drift"
  let arm_qpc ← tick value.arm_qpc
  let issue_before_qpc ← tick value.issue_before_qpc
  let issue_after_qpc ← tick value.issue_after_qpc
  let pub ← exactly value.publication "exact publication and observation records required"
  let obs ← exactly value.observation "exact publication and observation records required"
  require (s.begin_qpc ≤ arm_qpc) "arm before helper begin"
  require (∀ last ∈ s.previous_end, last ≤ arm_qpc) "sequential sample overlap"
  require (pub.cleanup_after_qpc ≤ issue_after_qpc) "producer cleanup after synchronous ack"
  require (obs.after_qpc < s.begin_qpc + 15 * s.frequency) "overall sequence deadline"
  return ⟨s.count, arm_qpc, issue_before_qpc, issue_after_qpc, pub, obs⟩

/-- From the draw to the observation. -/
def window (a : Accepted) : Int := a.observation.after_qpc - a.publication.draw_before_qpc

/-- What `accept` checks of the warmup, or of a timed sample. -/
def timed (a : Accepted) : Method Unit := do
  let s ← get
  if a.slot = 0 then
    check (a.observation.after_qpc ≤ s.origin ∧
      a.observation.after_qpc - a.arm_qpc < 5 * s.frequency)
      "warmup must complete before schedule origin within budget"
  else do
    let scheduled := s.origin + (a.slot - 1 : Int) * s.frequency / HZ
    let next_scheduled := s.origin + a.slot * s.frequency / HZ
    check (scheduled ≤ a.arm_qpc ∧ a.arm_qpc < next_scheduled) "fixed schedule violation"
    check (a.observation.after_qpc < s.origin + 12 * s.frequency) "timed sequence deadline"
    check (0 ≤ window a ∧ window a * 5 < s.frequency) "source window must be below 200ms"
    modify fun s => { s with max_window := max s.max_window (window a) }
    match s.previous_timed_lower with
    | none => pure ()
    | some lower => do
      let gap := a.observation.after_qpc - lower
      check (0 ≤ gap ∧ gap * 5 < s.frequency) "conservative gap must be below 200ms"
      modify fun s => { s with max_gap := max s.max_gap gap }

/-- What an accepted sample leaves. -/
def credited (a : Accepted) (s : SequenceOracle) : SequenceOracle :=
  { s with
    previous_end := some a.observation.after_qpc
    previous_timed_lower :=
      if a.slot = 0 then s.previous_timed_lower else some a.publication.draw_before_qpc
    count := s.count + 1
    terminal := false }

variable (crc32 : List UInt8 → UInt32)

/-- The validations of `accept`. -/
def validated (value : Option Sample) : Method Accepted := do
  let s ← get
  let a ← raised (s.checked value)
  timed a
  let _ ← nested fun m => m.arm a.arm_qpc a.issue_before_qpc a.issue_after_qpc
  nested fun m => m.complete a.publication
  let _ ← nested fun m => m.observe crc32 a.observation
  return a

/-- `accept` -/
def accept (value : Option Sample) : Method Unit := do
  let s ← get
  check (s.terminal = false) "terminal sequence; no retry or extra records"
  modify fun s => { s with terminal := true }
  let a ← validated crc32 value
  modify (credited a)

end SequenceOracle

/-- What a finished sequence states. -/
structure Receipt where
  schema : String := "mcla-fixture-sequence-model-v2"
  publications : Nat
  timed_publications : Nat := TIMED_SAMPLES
  (frequency max_source_window_ticks max_conservative_gap_ticks : Int)
  (fixture_content_sequence_pass synthetic_transport_budget_pass : Bool := true)
  (native_admitted cadence_admitted compositor_time_proven game_timing_proven
    fps_proven : Bool := false)

/-- The receipt of a finished sequence. -/
def SequenceOracle.receipt (s : SequenceOracle) : Receipt where
  publications := s.count
  frequency := s.frequency
  max_source_window_ticks := s.max_window
  max_conservative_gap_ticks := s.max_gap

/-- `finish`; the argument is none where it is not a `bool`. -/
def SequenceOracle.finish (normal_cleanup : Option Bool) : Method Receipt := do
  let s ← get
  check (s.terminal = false) "terminal sequence; no retry or repeated finish"
  modify fun s => { s with terminal := true }
  check (s.count = TOTAL_SAMPLES) "complete warmup plus 90 timed samples required"
  check (normal_cleanup = some true) "normal cleanup must be reported"
  return s.receipt

/-! ### Methods that return and methods that raise -/

section Methods
variable {α β : Type} {s s' : SequenceOracle} {a : α} {b : β}

variable {f : α → Method β}

theorem bind_returns {x : Method α} :
    (x >>= f) s = .ok b s' ↔ ∃ a t, x s = .ok a t ∧ f a t = .ok b s' := by
  change EStateM.bind x f s = _ ↔ _
  unfold EStateM.bind
  cases x s with
  | ok a t =>
    constructor
    · exact fun h => ⟨a, t, rfl, h⟩
    · rintro ⟨_, _, heq, h⟩
      cases heq
      exact h
  | error fault t =>
    constructor
    · intro h
      cases h
    · rintro ⟨_, _, heq, -⟩
      cases heq

theorem bind_raises {x : Method α} {fault : Fault} :
    (x >>= f) s = .error fault s' ↔
      x s = .error fault s' ∨ ∃ a t, x s = .ok a t ∧ f a t = .error fault s' := by
  change EStateM.bind x f s = _ ↔ _
  unfold EStateM.bind
  cases x s with
  | ok a t =>
    constructor
    · exact fun h => .inr ⟨a, t, rfl, h⟩
    · rintro (h | ⟨_, _, heq, h⟩)
      · cases h
      · cases heq
        exact h
  | error fault' t =>
    constructor
    · intro h
      cases h
      exact .inl rfl
    · rintro (h | ⟨_, _, heq, -⟩)
      · cases h
        rfl
      · cases heq

theorem raised_returns {x : Except Fault α} : raised x s = .ok a s' ↔ x = .ok a ∧ s' = s := by
  unfold raised
  cases x with
  | ok b =>
    constructor
    · intro h
      cases h
      exact ⟨rfl, rfl⟩
    · rintro ⟨h, rfl⟩
      cases h
      rfl
  | error fault =>
    constructor
    · intro h
      cases h
    · rintro ⟨h, -⟩
      cases h

theorem check_returns {p : Prop} [Decidable p] {reason : String} {u : Unit} :
    check p reason s = .ok u s' ↔ p ∧ s' = s := by
  rw [check, raised_returns, require_ok]

theorem nested_returns {operation : FixtureModel → Except Fault α × FixtureModel} :
    nested operation s = .ok a s' ↔
      ∃ model, operation s.model = (.ok a, model) ∧ s' = { s with model } := by
  unfold nested
  rcases operation s.model with ⟨_ | b, model⟩
  · constructor
    · intro h
      cases h
    · rintro ⟨_, h, -⟩
      cases h
  · constructor
    · intro h
      cases h
      exact ⟨model, rfl, rfl⟩
    · rintro ⟨_, h, rfl⟩
      cases h
      rfl

/-- The oracle after a method, whatever came of it. -/
def state : EStateM.Result Fault SequenceOracle α → SequenceOracle
  | .ok _ s => s
  | .error _ s => s

/-- A method that leaves a terminal oracle terminal. -/
def Keeps (x : Method α) : Prop := ∀ s, s.terminal = true → (state (x s)).terminal = true

theorem keeps_bind {x : Method α} (hx : Keeps x) (hf : ∀ a, Keeps (f a)) : Keeps (x >>= f) := by
  intro s hs
  change (state (EStateM.bind x f s)).terminal = true
  have hfirst := hx s hs
  unfold EStateM.bind
  cases hrun : x s with
  | ok a t =>
    rw [hrun] at hfirst
    exact hf a t hfirst
  | error fault t =>
    rw [hrun] at hfirst
    exact hfirst

theorem keeps_get : Keeps (get : Method SequenceOracle) := fun _ hs => hs

theorem keeps_pure (a : α) : Keeps (pure a) := fun _ hs => hs

theorem keeps_raised (x : Except Fault α) : Keeps (raised x) := by
  intro s hs
  cases x with
  | ok a => exact hs
  | error fault => exact hs

theorem keeps_check (p : Prop) [Decidable p] (reason : String) : Keeps (check p reason) :=
  keeps_raised _

theorem keeps_modify {f : SequenceOracle → SequenceOracle}
    (hf : ∀ s, (f s).terminal = s.terminal) : Keeps (modify f) :=
  fun s hs => (hf s).trans hs

theorem keeps_nested (operation : FixtureModel → Except Fault α × FixtureModel) :
    Keeps (nested operation) := by
  intro s hs
  unfold nested
  rcases operation s.model with ⟨_ | b, model⟩
  · exact hs
  · exact hs

end Methods

/-! ### A rejected call is the last -/

section Terminal
variable {crc32 : List UInt8 → UInt32} {s : SequenceOracle}

theorem keeps_timed (a : Accepted) : Keeps (SequenceOracle.timed a) := by
  refine keeps_bind keeps_get fun s => ?_
  by_cases hslot : a.slot = 0
  · rw [if_pos hslot]
    exact keeps_check _ _
  · rw [if_neg hslot]
    refine keeps_bind (keeps_check _ _) fun _ => keeps_bind (keeps_check _ _) fun _ =>
      keeps_bind (keeps_check _ _) fun _ => keeps_bind (keeps_modify fun _ => rfl) fun _ => ?_
    cases s.previous_timed_lower with
    | none => exact keeps_pure ()
    | some lower =>
      exact keeps_bind (keeps_check _ _) fun _ => keeps_modify fun _ => rfl

theorem keeps_validated (value : Option Sample) : Keeps (SequenceOracle.validated crc32 value) :=
  keeps_bind keeps_get fun _ => keeps_bind (keeps_raised _) fun a => keeps_bind (keeps_timed a)
    fun _ => keeps_bind (keeps_nested _) fun _ => keeps_bind (keeps_nested _) fun _ =>
      keeps_bind (keeps_nested _) fun _ => keeps_pure a

/-- A call of a user of the oracle. -/
inductive Call where
  | accept (value : Option Sample)
  | finish (normal_cleanup : Option Bool)

variable (crc32) in
/-- What a call does: the receipt, if it returns one. -/
def perform : Call → Method (Option Receipt)
  | .accept value => do
    SequenceOracle.accept crc32 value
    return none
  | .finish normal_cleanup => do
    let receipt ← SequenceOracle.finish normal_cleanup
    return some receipt

variable (crc32) in
/-- The call raises an error, whatever it has changed. -/
def Rejected (s : SequenceOracle) (call : Call) : Prop :=
  ∃ fault s', perform crc32 call s = .error fault s'

/-- A terminal oracle rejects every call, and stays as it is. -/
theorem perform_of_terminal (hs : s.terminal = true) (call : Call) :
    ∃ fault, perform crc32 call s = .error fault s := by
  have hguard : ∀ reason, check (s.terminal = false) reason s = .error (.value reason) s := by
    intro reason
    have hneed : require (s.terminal = false) reason = .error (.value reason) :=
      if_neg (by rw [hs]; decide)
    rw [check, hneed]
    rfl
  cases call with
  | accept value =>
    refine ⟨.value "terminal sequence; no retry or extra records", ?_⟩
    change EStateM.bind (EStateM.bind (check (s.terminal = false) _) _) _ s = _
    unfold EStateM.bind
    rw [hguard]
  | finish normal_cleanup =>
    refine ⟨.value "terminal sequence; no retry or repeated finish", ?_⟩
    change EStateM.bind (EStateM.bind (check (s.terminal = false) _) _) _ s = _
    unfold EStateM.bind
    rw [hguard]

variable {s' : SequenceOracle}

theorem Keeps.terminal_of_raises {α : Type} {x : Method α} (hx : Keeps x) {fault : Fault}
    (hs : s.terminal = true) (h : x s = .error fault s') : s'.terminal = true := by
  have hkept := hx s hs
  rwa [h] at hkept

/-- A call that fails on an oracle that is not terminal has entered, and fails in its body. -/
theorem entered_raises {α : Type} {reason : String} {body : Method α} {fault : Fault}
    (hs : ¬s.terminal = true) (h : (do
      let s ← get
      check (s.terminal = false) reason
      modify fun s => { s with terminal := true }
      body : Method α) s = .error fault s') :
    body { s with terminal := true } = .error fault s' := by
  have hneed : require (s.terminal = false) reason = .ok () := if_pos (Bool.not_eq_true _ ▸ hs)
  rcases bind_raises.mp h with hget | ⟨_, _, hget, hguarded⟩
  · cases hget
  · cases hget
    rcases bind_raises.mp hguarded with hcheck | ⟨_, t, hcheck, hmarked⟩
    · rw [check, hneed] at hcheck
      cases hcheck
    · rw [(check_returns.mp hcheck).2] at hmarked
      rcases bind_raises.mp hmarked with hmodify | ⟨_, _, hmodify, hbody⟩
      · cases hmodify
      · cases hmodify
        exact hbody

/-- **Every failing path** of a call leaves the oracle terminal. -/
theorem terminal_of_raises {call : Call} {fault : Fault}
    (h : perform crc32 call s = .error fault s') : s'.terminal = true := by
  by_cases hs : s.terminal = true
  · obtain ⟨fault', heq⟩ := @perform_of_terminal crc32 s hs call
    rw [heq] at h
    cases h
    exact hs
  · cases call with
    | accept value =>
      rw [perform, SequenceOracle.accept] at h
      rcases bind_raises.mp h with haccept | ⟨_, _, _, hpure⟩
      · rcases bind_raises.mp (entered_raises hs haccept) with hvalidated | ⟨_, _, _, hcredited⟩
        · exact (keeps_validated value).terminal_of_raises rfl hvalidated
        · cases hcredited
      · cases hpure
    | finish normal_cleanup =>
      rw [perform, SequenceOracle.finish] at h
      rcases bind_raises.mp h with hfinish | ⟨_, _, _, hpure⟩
      · have hbody := entered_raises hs hfinish
        exact Keeps.terminal_of_raises (keeps_bind (keeps_check _ _) fun _ =>
          keeps_bind (keeps_check _ _) fun _ => keeps_pure _) rfl hbody
      · cases hpure

variable (crc32) in
/-- After some calls, each of them returning or not. -/
def reach (s : SequenceOracle) (calls : List Call) : SequenceOracle :=
  calls.foldl (fun s call => state (perform crc32 call s)) s

theorem reach_of_terminal (hs : s.terminal = true) (calls : List Call) :
    reach crc32 s calls = s := by
  induction calls with
  | nil => rfl
  | cons call calls ih =>
    obtain ⟨fault, h⟩ := @perform_of_terminal crc32 s hs call
    rw [reach, foldl_cons, h]
    exact ih

theorem reach_append (calls more : List Call) :
    reach crc32 s (calls ++ more) = reach crc32 (reach crc32 s calls) more := foldl_append

/-- After a rejected call every later call is rejected. -/
theorem rejected_forever {calls more : List Call} {call : Call}
    (h : Rejected crc32 (reach crc32 s calls) call) (later : Call) :
    Rejected crc32 (reach crc32 s (calls ++ call :: more)) later := by
  obtain ⟨fault, s', hraise⟩ := h
  have hterminal : s'.terminal = true := terminal_of_raises hraise
  have hstate : reach crc32 s (calls ++ call :: more) = s' := by
    rw [reach_append, reach, foldl_cons, hraise]
    exact reach_of_terminal hterminal more
  rw [hstate]
  obtain ⟨fault', hrejects⟩ := @perform_of_terminal crc32 s' hterminal later
  exact ⟨fault', s', hrejects⟩

end Terminal

/-! ### What an accepted sample says -/

section Accepting
variable {crc32 : List UInt8 → UInt32} {s s' : SequenceOracle} {value : Option Sample}
  {a : Accepted}

variable {reason : String}

theorem integer_ok {value : Option Int} {p : Int → Prop} [DecidablePred p] {n : Int} :
    integer value p reason = .ok n ↔ value = some n ∧ p n := by
  unfold integer
  cases value with
  | none => simp
  | some k =>
    by_cases hp : p k
    · dsimp only
      rw [if_pos hp, Except.ok.injEq, Option.some.injEq]
      constructor
      · rintro rfl
        exact ⟨rfl, hp⟩
      · exact fun h => h.1
    · dsimp only
      rw [if_neg hp, Option.some.injEq]
      constructor
      · intro h
        cases h
      · rintro ⟨rfl, h⟩
        exact absurd h hp

theorem exactly_ok {α : Type} {value : Option α} {b : α} :
    exactly value reason = .ok b ↔ value = some b := by
  cases value with
  | none => simp [exactly]
  | some c => simp [exactly]

/-- What `accept` asks of any sample. -/
structure Checks (s : SequenceOracle) (a : Accepted) : Prop where
  slot : a.slot = s.count
  count : s.count < TOTAL_SAMPLES
  uints : IsUint a.arm_qpc ∧ IsUint a.issue_before_qpc ∧ IsUint a.issue_after_qpc
  begun : s.begin_qpc ≤ a.arm_qpc
  sequential : ∀ last ∈ s.previous_end, last ≤ a.arm_qpc
  cleanup : a.publication.cleanup_after_qpc ≤ a.issue_after_qpc
  deadline : a.observation.after_qpc < s.begin_qpc + 15 * s.frequency

theorem checked_ok : s.checked value = .ok a ↔
    value = some (a.sample s.frequency) ∧ Checks s a := by
  unfold SequenceOracle.checked
  simp only [bind_ok, require_ok, pure_ok, exactly_ok, integer_ok, tick]
  constructor
  · rintro ⟨⟨slot, frequency, arm, before, after, pub, obs⟩, rfl, k, ⟨rfl, rfl, hcount⟩, f,
      ⟨rfl, rfl⟩, _, ⟨rfl, harm⟩, _, ⟨rfl, hbefore⟩, _, ⟨rfl, hafter⟩, _, rfl, _, rfl, _,
      hbegun, _, hsequential, _, hcleanup, _, hdeadline, rfl⟩
    exact ⟨rfl, rfl, hcount, ⟨harm, hbefore, hafter⟩, hbegun, hsequential, hcleanup, hdeadline⟩
  · rintro ⟨rfl, h⟩
    have hslot : (a.slot : Int) = s.count := by rw [h.slot]
    refine ⟨_, rfl, _, ⟨rfl, hslot, h.count⟩, _, ⟨rfl, rfl⟩, _, ⟨rfl, h.uints.1⟩, _,
      ⟨rfl, h.uints.2.1⟩, _, ⟨rfl, h.uints.2.2⟩, _, rfl, _, rfl, (), h.begun, (), h.sequential, (),
      h.cleanup, (), h.deadline, ?_⟩
    rw [← h.slot]

/-- What `accept` asks of the time of a sample. -/
structure Timely (s : SequenceOracle) (a : Accepted) : Prop where
  warmup : a.slot = 0 → a.observation.after_qpc ≤ s.origin ∧
    a.observation.after_qpc - a.arm_qpc < 5 * s.frequency
  scheduled : a.slot ≠ 0 → s.origin + (a.slot - 1 : Int) * s.frequency / HZ ≤ a.arm_qpc ∧
    a.arm_qpc < s.origin + a.slot * s.frequency / HZ
  deadline : a.slot ≠ 0 → a.observation.after_qpc < s.origin + 12 * s.frequency
  window : a.slot ≠ 0 → 0 ≤ SequenceOracle.window a ∧ SequenceOracle.window a * 5 < s.frequency
  gap : a.slot ≠ 0 → ∀ lower ∈ s.previous_timed_lower,
    0 ≤ a.observation.after_qpc - lower ∧ (a.observation.after_qpc - lower) * 5 < s.frequency

/-- What is measured of a sample. -/
def measured (a : Accepted) (s : SequenceOracle) : SequenceOracle :=
  if a.slot = 0 then s
  else
    { s with
      max_window := max s.max_window (SequenceOracle.window a)
      max_gap := s.previous_timed_lower.elim s.max_gap fun lower =>
        max s.max_gap (a.observation.after_qpc - lower) }

theorem modify_returns {f : SequenceOracle → SequenceOracle} {u : Unit} :
    (modify f : Method Unit) s = .ok u s' ↔ s' = f s := by
  constructor
  · intro h
    cases h
    rfl
  · rintro rfl
    rfl

theorem get_bind_returns {β : Type} {f : SequenceOracle → Method β} {b : β} :
    (get >>= f) s = .ok b s' ↔ f s s = .ok b s' := Iff.rfl

theorem check_bind_returns {β : Type} {p : Prop} [Decidable p] {f : Unit → Method β} {b : β} :
    (check p reason >>= f) s = .ok b s' ↔ p ∧ f () s = .ok b s' := by
  rw [bind_returns]
  constructor
  · rintro ⟨_, t, hcheck, h⟩
    obtain ⟨hp, rfl⟩ := check_returns.mp hcheck
    exact ⟨hp, h⟩
  · rintro ⟨hp, h⟩
    exact ⟨(), s, check_returns.mpr ⟨hp, rfl⟩, h⟩

theorem modify_bind_returns {β : Type} {g : SequenceOracle → SequenceOracle} {f : Unit → Method β}
    {b : β} : (modify g >>= f) s = .ok b s' ↔ f () (g s) = .ok b s' := Iff.rfl

theorem timed_returns {u : Unit} : SequenceOracle.timed a s = .ok u s' ↔
    Timely s a ∧ s' = measured a s := by
  unfold SequenceOracle.timed
  rw [get_bind_returns]
  by_cases hslot : a.slot = 0
  · rw [if_pos hslot, check_returns, measured, if_pos hslot]
    constructor
    · rintro ⟨h, rfl⟩
      exact ⟨⟨fun _ => h, fun hne => absurd hslot hne, fun hne => absurd hslot hne,
        fun hne => absurd hslot hne, fun hne => absurd hslot hne⟩, rfl⟩
    · rintro ⟨h, rfl⟩
      exact ⟨h.warmup hslot, rfl⟩
  · rw [if_neg hslot, check_bind_returns, check_bind_returns, check_bind_returns,
      modify_bind_returns, measured, if_neg hslot]
    cases hlower : s.previous_timed_lower with
    | none =>
      constructor
      · -- the first timed sample has no gap before it
        rintro ⟨hscheduled, hdeadline, hwindow, h⟩
        cases h
        refine ⟨⟨fun hzero => absurd hzero hslot, fun _ => hscheduled, fun _ => hdeadline,
          fun _ => hwindow, ?_⟩, ?_⟩
        · rw [hlower]
          rintro _ _ ⟨⟩
        · rfl
      · rintro ⟨h, rfl⟩
        exact ⟨h.scheduled hslot, h.deadline hslot, h.window hslot, rfl⟩
    | some lower =>
      dsimp only
      rw [check_bind_returns, modify_returns]
      constructor
      · rintro ⟨hscheduled, hdeadline, hwindow, hgap, rfl⟩
        refine ⟨⟨fun hzero => absurd hzero hslot, fun _ => hscheduled, fun _ => hdeadline,
          fun _ => hwindow, ?_⟩, rfl⟩
        rw [hlower]
        rintro _ _ ⟨⟩
        exact hgap
      · rintro ⟨h, rfl⟩
        exact ⟨h.scheduled hslot, h.deadline hslot, h.window hslot, h.gap hslot lower hlower, rfl⟩

/-! The nested model -/

theorem run_eq_ok {α : Type} {m m' : FixtureModel}
    {operation : FixtureModel → Except Fault (α × FixtureModel)} {result : α} :
    m.run operation = (.ok result, m') ↔ m.failed = false ∧ operation m = .ok (result, m') := by
  unfold FixtureModel.run
  by_cases hfailed : m.failed = true
  · rw [if_pos hfailed, hfailed]
    constructor
    · intro h
      cases h
    · rintro ⟨h, -⟩
      cases h
  · rw [if_neg hfailed]
    rw [Bool.not_eq_true] at hfailed
    cases hrun : operation m with
    | ok pair =>
      constructor
      · intro h
        cases h
        exact ⟨hfailed, rfl⟩
      · rintro ⟨-, h⟩
        cases h
        rfl
    | error fault =>
      constructor
      · intro h
        cases h
      · rintro ⟨-, h⟩
        cases h

/-- A model between two samples. -/
structure Idle (m : FixtureModel) : Prop where
  challenge : m.challenge = none
  publication : m.publication = none

/-- A model that has consumed a sample. -/
structure Consumed (m : FixtureModel) (a : Accepted) (m' : FixtureModel) : Prop where
  idle : Idle m'
  count : m'.count = m.count + 1
  identity : a.publication.identity.challenge = m.count + 1
  armed : a.arm_qpc < a.issue_before_qpc
  issued : a.issue_before_qpc ≤ a.issue_after_qpc
  observed : a.issue_after_qpc ≤ a.observation.before_qpc
  cleaned : a.publication.cleanup_after_qpc ≤ a.observation.before_qpc

theorem challenge_make_ok {identity : Identity} {arm before after : Int} {challenge : Challenge}
    (h : Challenge.make identity arm before after = .ok challenge) :
    challenge.identity = identity ∧ challenge.issue_after_qpc = after ∧ arm < before ∧
      before ≤ after := by
  unfold Challenge.make at h
  split_ifs at h with huints hafter
  cases h
  exact ⟨rfl, rfl, hafter⟩

/-- The three operations, one after the other. -/
theorem consumed {m m₁ m₂ m₃ : FixtureModel} {challenge : Challenge} {u : Unit} {credit : Credit}
    (hidle : Idle m)
    (harm : m.arm a.arm_qpc a.issue_before_qpc a.issue_after_qpc = (.ok challenge, m₁))
    (hcomplete : m₁.complete a.publication = (.ok u, m₂))
    (hobserve : m₂.observe crc32 a.observation = (.ok credit, m₃)) : Consumed m a m₃ := by
  obtain ⟨-, harmed⟩ := run_eq_ok.mp harm
  simp only [FixtureModel.armed, bind_ok, require_ok, raising_ok, pure_ok, Prod.mk.injEq] at harmed
  obtain ⟨_, -, _, -, _, -, identity, hidentity, _, hmake, rfl, rfl⟩ := harmed
  obtain ⟨hown, hissue, hissued⟩ := challenge_make_ok hmake
  obtain ⟨-, hcompleted⟩ := run_eq_ok.mp hcomplete
  rw [FixtureModel.completed] at hcompleted
  dsimp only at hcompleted
  -- no publication is pending, so that the one that completes is this sample's
  rw [hidle.publication] at hcompleted
  simp only [bind_ok, require_ok, pure_ok, Prod.mk.injEq] at hcompleted
  obtain ⟨_, hsame, _, -, _, -, -, rfl⟩ := hcompleted
  obtain ⟨-, hobserved⟩ := run_eq_ok.mp hobserve
  rw [FixtureModel.observed] at hobserved
  simp only [bind_ok, require_ok, pure_ok, Prod.mk.injEq] at hobserved
  obtain ⟨_, -, _, hclock, _, -, _, -, -, rfl⟩ := hobserved
  -- the observation comes after the issue and after the producer's cleanup
  rw [hissue, max_le_iff] at hclock
  obtain ⟨-, hchallenge, -⟩ := make_ok.mp hidentity
  exact ⟨⟨rfl, rfl⟩, rfl, by rw [hsame, hown, hchallenge], hissued.1, hissued.2, hclock.1, hclock.2⟩

/-- **What an accepted sample says**, and what it leaves. -/
structure Takes (s : SequenceOracle) (a : Accepted) (s' : SequenceOracle) : Prop where
  checks : Checks s a
  timely : Timely s a
  consumed : Idle s.model → Consumed s.model a s'.model
  state : ∃ model, s' = SequenceOracle.credited a { measured a s with model }

theorem measured_model : (measured a s).model = s.model := by
  unfold measured
  split
  · rfl
  · rfl

theorem accept_returns {u : Unit} (h : SequenceOracle.accept crc32 value s = .ok u s') :
    s.terminal = false ∧ ∃ a, value = some (a.sample s.frequency) ∧ Takes s a s' := by
  rw [SequenceOracle.accept, get_bind_returns, check_bind_returns, modify_bind_returns,
    bind_returns] at h
  obtain ⟨hopen, a, t, hvalidated, hcredited⟩ := h
  refine ⟨hopen, ?_⟩
  rw [modify_returns] at hcredited
  rw [SequenceOracle.validated, get_bind_returns, bind_returns] at hvalidated
  obtain ⟨a', _, hraised, hvalidated⟩ := hvalidated
  obtain ⟨hchecked, rfl⟩ := raised_returns.mp hraised
  rw [bind_returns] at hvalidated
  obtain ⟨_, _, htimed, hvalidated⟩ := hvalidated
  obtain ⟨htimely, rfl⟩ := timed_returns.mp htimed
  simp only [bind_returns, nested_returns] at hvalidated
  obtain ⟨_, _, ⟨m₁, harm, rfl⟩, _, _, ⟨m₂, hcomplete, rfl⟩, _, _, ⟨m₃, hobserve, rfl⟩, hpure⟩ :=
    hvalidated
  cases hpure
  obtain ⟨hvalue, hchecks⟩ := checked_ok.mp hchecked
  -- measuring does not touch the nested model
  rw [measured_model] at harm
  refine ⟨a, hvalue, ?_, ?_, ?_, ?_⟩
  · exact ⟨hchecks.slot, hchecks.count, hchecks.uints, hchecks.begun, hchecks.sequential,
      hchecks.cleanup, hchecks.deadline⟩
  · exact ⟨htimely.warmup, htimely.scheduled, htimely.deadline, htimely.window, htimely.gap⟩
  · intro hidle
    rw [hcredited]
    exact consumed hidle harm hcomplete hobserve
  · refine ⟨m₃, ?_⟩
    rw [hcredited]
    unfold measured
    split
    · rfl
    · rfl

end Accepting

/-! ### A run of accepted samples -/

section Runs
variable {crc32 : List UInt8 → UInt32} {s s' : SequenceOracle} {frequency : Int}
  {taken : List Accepted}

/-- An oracle that has taken some samples, with what is known of them. -/
structure Ran (frequency : Int) (taken : List Accepted) (s : SequenceOracle) : Prop where
  setting : s.frequency = frequency
  idle : Idle s.model
  model_count : s.model.count = taken.length
  count : s.count = taken.length
  previous_end : s.previous_end = taken.getLast?.map (·.observation.after_qpc)
  previous_lower : s.previous_timed_lower = taken.tail.getLast?.map (·.publication.draw_before_qpc)
  ordered : taken.Pairwise fun a b => a.observation.after_qpc < b.observation.before_qpc
  identities : taken.map (·.publication.identity.challenge) = List.range' 1 taken.length
  drawn : ∀ a ∈ taken, a.publication.cleanup_after_qpc ≤ a.observation.before_qpc
  windows : ∀ a ∈ taken.tail, SequenceOracle.window a * 5 < frequency
  gaps : taken.tail.IsChain fun a b =>
    (b.observation.after_qpc - a.publication.draw_before_qpc) * 5 < frequency

theorem measured_eq (a : Accepted) (s : SequenceOracle) :
    ∃ w g, measured a s = { s with max_window := w, max_gap := g } := by
  unfold measured
  split
  · exact ⟨s.max_window, s.max_gap, rfl⟩
  · exact ⟨_, _, rfl⟩

/-- Every sample taken before ends before the arm of the next. -/
theorem Ran.ends_before (h : Ran frequency taken s) {a : Accepted} (hchecks : Checks s a) :
    ∀ x ∈ taken, x.observation.after_qpc ≤ a.arm_qpc := by
  intro x hx
  have hsequential := hchecks.sequential
  rw [h.previous_end] at hsequential
  obtain ⟨init, last, rfl⟩ : ∃ init last, taken = init ++ [last] :=
    (eq_nil_or_concat' taken).resolve_left (ne_nil_of_mem hx)
  have hlast : last.observation.after_qpc ≤ a.arm_qpc := by
    apply hsequential
    rw [getLast?_concat]
    rfl
  rcases mem_append.mp hx with hinit | hlast'
  · have hbefore := (pairwise_append.mp h.ordered).2.2 x hinit last mem_cons_self
    have hbracket := last.observation.bracket
    omega
  · rw [mem_singleton.mp hlast']
    exact hlast

/-- **One more sample.** -/
theorem Ran.step (h : Ran frequency taken s) {a : Accepted} (htakes : Takes s a s') :
    Ran frequency (taken ++ [a]) s' := by
  obtain ⟨model, hstate⟩ := htakes.state
  obtain ⟨w, g, hmeasured⟩ := measured_eq a s
  rw [hmeasured] at hstate
  have hconsumed := htakes.consumed h.idle
  have hslot : a.slot = taken.length := htakes.checks.slot.trans h.count
  have hordered : (taken ++ [a]).Pairwise
      fun a b => a.observation.after_qpc < b.observation.before_qpc := by
    refine pairwise_append.mpr ⟨h.ordered, pairwise_singleton _ _, ?_⟩
    intro x hx b hb
    rw [mem_singleton.mp hb]
    have hends := h.ends_before htakes.checks x hx
    have harmed := hconsumed.armed
    have hissued := hconsumed.issued
    have hobserved := hconsumed.observed
    omega
  have hidentities : (taken ++ [a]).map (·.publication.identity.challenge) =
      List.range' 1 (taken ++ [a]).length := by
    rw [map_append, h.identities, map_singleton, hconsumed.identity, h.model_count,
      length_append, length_singleton, range'_concat]
    congr 2
    omega
  have hdrawn : ∀ x ∈ taken ++ [a], x.publication.cleanup_after_qpc ≤ x.observation.before_qpc := by
    rw [forall_mem_append, forall_mem_singleton]
    exact ⟨h.drawn, hconsumed.cleaned⟩
  have hcount : s'.count = (taken ++ [a]).length := by
    rw [hstate, length_append, ← h.count]
    rfl
  have hmodel : s'.model.count = (taken ++ [a]).length := by
    rw [hconsumed.count, h.model_count, length_append]
    rfl
  have hend : s'.previous_end = (taken ++ [a]).getLast?.map (·.observation.after_qpc) := by
    rw [hstate, getLast?_concat]
    rfl
  have hsetting : s'.frequency = frequency := by
    rw [hstate]
    exact h.setting
  have hprevious := h.previous_lower
  have hwindows := h.windows
  have hgaps := h.gaps
  cases taken with
  | nil =>
    refine ⟨hsetting, hconsumed.idle, hmodel, hcount, hend, ?_, hordered, hidentities, hdrawn,
      forall_mem_nil _, isChain_nil⟩
    rw [hstate]
    change (if a.slot = 0 then s.previous_timed_lower else _) = none
    rw [if_pos (by simpa using hslot)]
    exact hprevious
  | cons first rest =>
    have hne : a.slot ≠ 0 := by
      rw [hslot, length_cons]
      exact Nat.succ_ne_zero _
    refine ⟨hsetting, hconsumed.idle, hmodel, hcount, hend, ?_, hordered, hidentities, hdrawn,
      ?_, ?_⟩
    · rw [hstate, cons_append, tail_cons, getLast?_concat]
      exact if_neg hne
    · rw [cons_append, tail_cons, forall_mem_append, forall_mem_singleton, ← h.setting]
      rw [← h.setting] at hwindows
      exact ⟨hwindows, (htakes.timely.window hne).2⟩
    · rw [cons_append, tail_cons]
      refine isChain_append.mpr ⟨hgaps, isChain_singleton _, ?_⟩
      intro x hx b hb
      cases hb
      have hlower : x.publication.draw_before_qpc ∈ s.previous_timed_lower := by
        rw [hprevious, tail_cons, Option.mem_def.mp hx]
        rfl
      rw [← h.setting]
      exact (htakes.timely.gap hne _ hlower).2

theorem state_of_returns {α : Type} {x : Method α} {a : α} (h : x s = .ok a s') :
    state (x s) = s' := by
  rw [h]
  rfl

/-- An oracle that is not terminal has taken every sample it was given. -/
theorem Ran.accepts (h : Ran frequency taken s) {values : List (Option Sample)}
    (hopen : (reach crc32 s (values.map .accept)).terminal = false) :
    ∃ more : List Accepted, values = more.map (fun a => some (a.sample frequency)) ∧
      Ran frequency (taken ++ more) (reach crc32 s (values.map .accept)) := by
  induction values generalizing s taken with
  | nil =>
    refine ⟨[], rfl, ?_⟩
    rw [append_nil]
    exact h
  | cons value values ih =>
    rw [map_cons, reach, foldl_cons, ← reach] at hopen ⊢
    cases hrun : perform crc32 (.accept value) s with
    | error fault t =>
      have hterminal := terminal_of_raises hrun
      rw [hrun] at hopen
      change (reach crc32 t _).terminal = false at hopen
      rw [reach_of_terminal hterminal, hterminal] at hopen
      cases hopen
    | ok result t =>
      rw [hrun] at hopen
      obtain ⟨_, t', haccept, hpure⟩ := bind_returns.mp hrun
      cases hpure
      obtain ⟨-, a, hvalue, htakes⟩ := accept_returns haccept
      obtain ⟨more, hvalues, hran⟩ := ih (h.step htakes) hopen
      refine ⟨a :: more, ?_, ?_⟩
      · rw [map_cons, hvalue, hvalues, h.setting]
      · rw [append_cons]
        exact hran

theorem finish_returns {normal_cleanup : Option Bool} {receipt : Receipt}
    (h : SequenceOracle.finish normal_cleanup s = .ok receipt s') :
    s.terminal = false ∧ s.count = TOTAL_SAMPLES := by
  rw [SequenceOracle.finish, get_bind_returns, check_bind_returns, modify_bind_returns,
    check_bind_returns] at h
  exact ⟨h.1, h.2.1⟩

/-- A new oracle has taken nothing. -/
theorem ran_make {session : List UInt8} {f begin_qpc origin : Option Int}
    (h : SequenceOracle.make session f begin_qpc origin = .ok s) : Ran s.frequency [] s := by
  simp only [SequenceOracle.make, FixtureModel.make, bind_ok, pure_ok] at h
  obtain ⟨_, -, n, -, b, -, o, -, _, -, _, -, _, -, model, ⟨_, -, rfl⟩, rfl⟩ := h
  exact ⟨rfl, ⟨rfl, rfl⟩, rfl, rfl, rfl, rfl, .nil, rfl, forall_mem_nil _,
    forall_mem_nil _, isChain_nil⟩

/-- At every time between the ends of the timed samples, the latest sample was drawn less than
200 ms before. -/
theorem Ran.fresh {first : Accepted} {timed : List Accepted} (h : Ran frequency (first :: timed) s)
    {t : Int} (hstart : ∃ a ∈ timed.head?, a.observation.after_qpc ≤ t)
    (hend : ∀ a ∈ timed.getLast?, t ≤ a.observation.after_qpc) :
    ∃ latest ∈ timed, latest.observation.after_qpc ≤ t ∧
      (∀ a ∈ first :: timed, a.observation.after_qpc ≤ t →
        a.observation.after_qpc ≤ latest.observation.after_qpc) ∧
      latest.publication.draw_after_qpc ≤ t ∧
      (t - latest.publication.draw_before_qpc) * 5 < frequency := by
  have hends : (first :: timed).Pairwise
      fun a b => a.observation.after_qpc ≤ b.observation.after_qpc := by
    refine h.ordered.imp fun {a b} hab => ?_
    have hbracket := b.observation.bracket
    omega
  cases timed with
  | nil =>
    obtain ⟨_, hnone, -⟩ := hstart
    cases hnone
  | cons second timed =>
    obtain ⟨_, hhead, hstart⟩ := hstart
    cases hhead
    obtain ⟨before, latest, after, hsplit, hlatest, hafter⟩ :=
      LatestRecord.exists_latest (fun a : Accepted => a.observation.after_qpc) hstart
    have hmem : latest ∈ second :: timed := by
      rw [hsplit]
      exact mem_append_right before mem_cons_self
    refine ⟨latest, hmem, hlatest, ?_, ?_, ?_⟩
    · intro a ha hended
      rw [hsplit, ← cons_append] at ha hends
      exact LatestRecord.le_latest _ hends hafter ha hended
    · have hdrawn := h.drawn latest (mem_cons_of_mem first hmem)
      have hbracket := latest.publication.bracket
      have hobserved := latest.observation.bracket
      omega
    · have hgaps := h.gaps
      rw [tail_cons] at hgaps
      rw [hsplit] at hgaps hend
      refine LatestRecord.latest_bound (fun a : Accepted => a.observation.after_qpc)
        (fun a t => (t - a.publication.draw_before_qpc) * 5 < frequency) ?_
        (h.windows latest hmem) hgaps hafter hend
      intro a t t' hle hbound
      omega

/-- **Sequences**: a finished sequence has its observations one after the other, each publication
once, and content that is never older than 200 ms; nothing follows a rejected call. -/
theorem finished_sequence (crc32 : List UInt8 → UInt32) (session : List UInt8)
    (f begin_qpc origin : Option Int) (o : SequenceOracle)
    (hmake : SequenceOracle.make session f begin_qpc origin = .ok o) :
    (∀ (values : List (Option Sample)) (normal_cleanup : Option Bool) (receipt : Receipt)
        (s : SequenceOracle),
      SequenceOracle.finish normal_cleanup (reach crc32 o (values.map .accept)) = .ok receipt s →
      ∃ (first : Accepted) (timed : List Accepted),
        values = (first :: timed).map (fun a => some (a.sample o.frequency)) ∧
        timed.length = TIMED_SAMPLES ∧
        (first :: timed).Pairwise
          (fun a b => a.observation.after_qpc < b.observation.before_qpc) ∧
        ((first :: timed).map (·.publication.identity)).Nodup ∧
        ∀ t, (∃ a ∈ timed.head?, a.observation.after_qpc ≤ t) →
          (∀ a ∈ timed.getLast?, t ≤ a.observation.after_qpc) →
          ∃ latest ∈ timed, latest.observation.after_qpc ≤ t ∧
            (∀ a ∈ first :: timed, a.observation.after_qpc ≤ t →
              a.observation.after_qpc ≤ latest.observation.after_qpc) ∧
            latest.publication.draw_after_qpc ≤ t ∧
            (t - latest.publication.draw_before_qpc) * 5 < o.frequency) ∧
    ∀ (calls : List Call) (call : Call) (more : List Call),
      Rejected crc32 (reach crc32 o calls) call →
      ∀ later, Rejected crc32 (reach crc32 o (calls ++ call :: more)) later := by
  refine ⟨?_, fun calls call more h later => rejected_forever h later⟩
  intro values normal_cleanup receipt s hfinish
  obtain ⟨hopen, hcount⟩ := finish_returns hfinish
  obtain ⟨taken, hvalues, hran⟩ := (ran_make hmake).accepts hopen
  rw [nil_append] at hran
  rw [hran.count] at hcount
  cases taken with
  | nil => cases hcount
  | cons first timed =>
    refine ⟨first, timed, hvalues, ?_, hran.ordered, ?_, fun t => hran.fresh⟩
    · rw [length_cons, TOTAL_SAMPLES] at hcount
      omega
    · apply List.Nodup.of_map (·.challenge)
      rw [map_map]
      have hidentities := hran.identities
      change ((first :: timed).map (·.publication.identity.challenge)).Nodup
      rw [hidentities]
      exact nodup_range'

end Runs

/-! ### A run that finishes -/

section Steady
variable (crc32 : List UInt8 → UInt32)

/-- The session of the example. -/
def nonce : List UInt8 := 1 :: replicate 15 0

/-- The identity of sample `k`. -/
def steadyIdentity (k : Nat) : Identity where
  session := nonce
  challenge := min k 1000 + 1
  paint := min k 1000 + 1
  session_nonce := by decide
  challenge_uint := by
    unfold U64_MAX
    omega
  paint_uint := by
    unfold U64_MAX
    omega

/-- When the sample of a slot is armed, at a thousand ticks a second. -/
def steadyArm (k : Nat) : Int := 1900 + 100 * (min k 1000 : Nat)

theorem steadyArm_bounds (k : Nat) : 1900 ≤ steadyArm k ∧ steadyArm k ≤ 101900 := by
  unfold steadyArm
  omega

theorem isUint_steady {k : Nat} {n : Int} (h : 0 ≤ n ∧ n ≤ 2) : IsUint (steadyArm k + n) := by
  have hbounds := steadyArm_bounds k
  unfold IsUint U64_MAX
  omega

/-- Drawn one tick after the arm, and observed one tick later. -/
def steady (k : Nat) : Accepted where
  slot := k
  arm_qpc := steadyArm k
  issue_before_qpc := steadyArm k + 1
  issue_after_qpc := steadyArm k + 1
  publication :=
    { identity := steadyIdentity k
      draw_before_qpc := steadyArm k + 1
      draw_after_qpc := steadyArm k + 1
      cleanup_after_qpc := steadyArm k + 1
      draw_ok := true
      cleanup_ok := true
      uints := ⟨isUint_steady (by decide), isUint_steady (by decide), isUint_steady (by decide)⟩
      bracket := ⟨le_refl _, le_refl _⟩ }
  observation :=
    { index := 1
      before_qpc := steadyArm k + 2
      after_qpc := steadyArm k + 2
      pixels := encode crc32 (steadyIdentity k)
      raw_wgc_100ns := none
      index_uint := by decide
      uints := ⟨isUint_steady (by decide), isUint_steady (by decide)⟩
      bracket := le_refl _
      raw_label := by rintro _ ⟨⟩ }

/-- An oracle that has taken the first samples. -/
structure Steady (k : Nat) (s : SequenceOracle) : Prop where
  settings : s.frequency = 1000 ∧ s.begin_qpc = 1000 ∧ s.origin = 2000
  session : s.model.session = nonce
  idle : Idle s.model
  model_count : s.model.count = k
  intact : s.model.failed = false
  last : ∀ last ∈ s.model.last_after_qpc, last < steadyArm k
  count : s.count = k
  going : s.terminal = false
  previous_end : ∀ last ∈ s.previous_end, last ≤ steadyArm k
  previous_lower : ∀ lower ∈ s.previous_timed_lower, 2 ≤ k ∧ lower + 99 = steadyArm k

theorem steadyArm_of_le {k : Nat} (hk : k ≤ 1000) : steadyArm k = 1900 + 100 * k := by
  rw [steadyArm, min_eq_left hk]

theorem nested_accepts {m : FixtureModel} {k : Nat} (hk : k ≤ 1000)
    (hsession : m.session = nonce) (hidle : Idle m) (hcount : m.count = k)
    (hintact : m.failed = false) (hlast : ∀ last ∈ m.last_after_qpc, last < steadyArm k) :
    ∃ challenge m₁ m₂ credit,
      m.arm (steadyArm k) (steadyArm k + 1) (steadyArm k + 1) = (.ok challenge, m₁) ∧
      m₁.complete (steady crc32 k).publication = (.ok (), m₂) ∧
      m₂.observe crc32 (steady crc32 k).observation = (.ok credit,
        { m with count := k + 1, last_after_qpc := some (steadyArm k + 2) }) := by
  have hidentity : Identity.make m.session (m.count + 1) (m.count + 1) =
      .ok (steadyIdentity k) := by
    rw [make_ok, hsession, hcount]
    refine ⟨rfl, ?_, ?_⟩
    · change min k 1000 + 1 = k + 1
      rw [min_eq_left hk]
    · change min k 1000 + 1 = k + 1
      rw [min_eq_left hk]
  have harm : IsUint (steadyArm k) := by
    have := isUint_steady (k := k) (n := 0) (by decide)
    rwa [add_zero] at this
  have hissue : IsUint (steadyArm k + 1) := isUint_steady (by decide)
  have hafter : steadyArm k < steadyArm k + 1 ∧ steadyArm k + 1 ≤ steadyArm k + 1 := by omega
  have hmake : Challenge.make (steadyIdentity k) (steadyArm k) (steadyArm k + 1)
      (steadyArm k + 1) = .ok ⟨steadyIdentity k, steadyArm k, steadyArm k + 1, steadyArm k + 1,
        ⟨harm, hissue, hissue⟩, hafter⟩ := by
    rw [Challenge.make, dif_pos ⟨harm, hissue, hissue⟩, dif_pos hafter]
  have hroom : m.count < MAX_PUBLICATIONS := by
    rw [hcount]
    unfold MAX_PUBLICATIONS
    omega
  have harmed := FixtureModel.armed_ok hidle.challenge hroom hlast hidentity hmake
  obtain ⟨session, count, last, challenge, publication, failed⟩ := m
  obtain rfl : challenge = none := hidle.challenge
  obtain rfl : publication = none := hidle.publication
  obtain rfl : count = k := hcount
  refine ⟨_, _, _, ⟨steadyIdentity count, none⟩, FixtureModel.run_ok hintact harmed,
    FixtureModel.run_ok hintact (FixtureModel.completed_ok rfl rfl rfl (le_refl _) ⟨rfl, rfl⟩),
    FixtureModel.run_ok hintact ?_⟩
  rw [FixtureModel.observed_eq rfl rfl rfl, content_ok.mpr rfl]
  · rfl
  · change max (steadyArm count + 1) (steadyArm count + 1) ≤ steadyArm count + 2
    omega

/-- The next sample is accepted. -/
theorem Steady.step {k : Nat} {s : SequenceOracle} (h : Steady k s) (hk : k ≤ TIMED_SAMPLES) :
    ∃ s', SequenceOracle.accept crc32 (some ((steady crc32 k).sample 1000)) s = .ok () s' ∧
      Steady (k + 1) s' := by
  rw [TIMED_SAMPLES] at hk
  have hle : k ≤ 1000 := by omega
  obtain ⟨challenge, m₁, m₂, credit, harm, hcomplete, hobserve⟩ := nested_accepts crc32 hle
    h.session h.idle h.model_count h.intact h.last
  obtain ⟨hfrequency, hbegin, horigin⟩ := h.settings
  have hbounds := steadyArm_bounds k
  have harm_eq := steadyArm_of_le hle
  have hnext : steadyArm (k + 1) = steadyArm k + 100 := by
    rw [harm_eq, steadyArm_of_le (by omega)]
    omega
  have hchecks : Checks { s with terminal := true } (steady crc32 k) := by
    refine ⟨h.count.symm, ?_, ⟨?_, isUint_steady (by decide), isUint_steady (by decide)⟩, ?_,
      h.previous_end, le_refl _, ?_⟩
    · change s.count < TOTAL_SAMPLES
      rw [h.count, TOTAL_SAMPLES, TIMED_SAMPLES]
      omega
    · have := isUint_steady (k := k) (n := 0) (by decide)
      rwa [add_zero] at this
    · change s.begin_qpc ≤ steadyArm k
      omega
    · change steadyArm k + 2 < s.begin_qpc + 15 * s.frequency
      omega
  have htimely : Timely { s with terminal := true } (steady crc32 k) := by
    constructor
    · rintro hzero
      change steadyArm k + 2 ≤ s.origin ∧ steadyArm k + 2 - steadyArm k < 5 * s.frequency
      have : k = 0 := hzero
      omega
    · intro hne
      change s.origin + ((k : Int) - 1) * s.frequency / HZ ≤ steadyArm k ∧
        steadyArm k < s.origin + k * s.frequency / HZ
      rw [hfrequency, HZ]
      omega
    · intro hne
      change steadyArm k + 2 < s.origin + 12 * s.frequency
      omega
    · intro hne
      change 0 ≤ steadyArm k + 2 - (steadyArm k + 1) ∧
        (steadyArm k + 2 - (steadyArm k + 1)) * 5 < s.frequency
      omega
    · intro hne lower hlower
      have hgap := (h.previous_lower lower hlower).2
      change 0 ≤ steadyArm k + 2 - lower ∧ (steadyArm k + 2 - lower) * 5 < s.frequency
      omega
  obtain ⟨w, g, hmeasured⟩ := measured_eq (steady crc32 k) { s with terminal := true }
  have hchecked : SequenceOracle.checked { s with terminal := true }
      (some ((steady crc32 k).sample 1000)) = .ok (steady crc32 k) := by
    rw [checked_ok]
    exact ⟨by rw [hfrequency], hchecks⟩
  refine ⟨SequenceOracle.credited (steady crc32 k)
    { measured (steady crc32 k) { s with terminal := true } with
      model := { s.model with count := k + 1, last_after_qpc := some (steadyArm k + 2) } }, ?_, ?_⟩
  · rw [SequenceOracle.accept, get_bind_returns, check_bind_returns, modify_bind_returns,
      bind_returns]
    refine ⟨h.going, steady crc32 k, _, ?_, modify_returns.mpr rfl⟩
    rw [SequenceOracle.validated, get_bind_returns, bind_returns]
    refine ⟨_, _, raised_returns.mpr ⟨hchecked, rfl⟩, ?_⟩
    rw [bind_returns]
    refine ⟨(), _, timed_returns.mpr ⟨htimely, rfl⟩, ?_⟩
    simp only [bind_returns, nested_returns, measured_model]
    exact ⟨_, _, ⟨m₁, harm, rfl⟩, _, _, ⟨m₂, hcomplete, rfl⟩, _, _, ⟨_, hobserve, rfl⟩, rfl⟩
  · rw [hmeasured]
    refine ⟨h.settings, h.session, ⟨h.idle.challenge, h.idle.publication⟩, rfl, h.intact, ?_, ?_,
      rfl, ?_, ?_⟩
    · rintro _ ⟨⟩
      omega
    · change s.count + 1 = k + 1
      rw [h.count]
    · rintro _ ⟨⟩
      change steadyArm k + 2 ≤ steadyArm (k + 1)
      omega
    · intro lower hlower
      change lower ∈ (if k = 0 then s.previous_timed_lower else some (steadyArm k + 1)) at hlower
      by_cases hzero : k = 0
      · rw [if_pos hzero] at hlower
        have hlate := (h.previous_lower lower hlower).1
        omega
      · rw [if_neg hzero] at hlower
        cases hlower
        omega

theorem steady_reach {k : Nat} (hk : k ≤ TOTAL_SAMPLES) {s : SequenceOracle} (h : Steady 0 s) :
    Steady k (reach crc32 s
      (((List.range k).map fun i => some ((steady crc32 i).sample 1000)).map .accept)) := by
  induction k with
  | zero => exact h
  | succ k ih =>
    rw [TOTAL_SAMPLES] at hk ih
    obtain ⟨s', haccept, hnext⟩ := (ih (by omega)).step crc32 (by omega)
    rw [range_succ, map_append, map_append, reach_append]
    have hperform : perform crc32 (.accept (some ((steady crc32 k).sample 1000)))
        (reach crc32 s (((List.range k).map fun i =>
          some ((steady crc32 i).sample 1000)).map .accept)) = .ok none s' :=
      bind_returns.mpr ⟨(), s', haccept, rfl⟩
    have hstate := state_of_returns hperform
    rw [← hstate] at hnext
    exact hnext

theorem finish_accepts {s : SequenceOracle} (hopen : s.terminal = false)
    (hcount : s.count = TOTAL_SAMPLES) :
    ∃ receipt s', SequenceOracle.finish (some true) s = .ok receipt s' := by
  refine ⟨s.receipt, { s with terminal := true }, ?_⟩
  rw [SequenceOracle.finish, get_bind_returns, check_bind_returns, modify_bind_returns,
    check_bind_returns, check_bind_returns]
  exact ⟨hopen, hcount, rfl, rfl⟩

/-- Ninety-one samples, a tenth of a second apart. -/
theorem finished_sequence_steady :
    let o : SequenceOracle :=
      { frequency := 1000, begin_qpc := 1000, origin := 2000, model := { session := nonce } }
    ∃ values receipt s,
      SequenceOracle.finish (some true) (reach (fun _ => 0) o (values.map .accept)) =
        .ok receipt s ∧
      (∃ (first : Accepted) (timed : List Accepted),
        values = (first :: timed).map (fun a => some (a.sample 1000)) ∧
        ((first :: timed).map (·.publication.identity)).Nodup) ∧
      ∀ later, Rejected (fun _ => 0) (reach (fun _ => 0) o [.finish none, .accept none]) later := by
  intro o
  have hmake : SequenceOracle.make nonce (some 1000) (some 1000) (some 2000) = .ok o := rfl
  have hstart : Steady 0 o := by
    refine ⟨⟨rfl, rfl, rfl⟩, rfl, ⟨rfl, rfl⟩, rfl, rfl, ?_, rfl, rfl, ?_, ?_⟩
    · rintro _ ⟨⟩
    · rintro _ ⟨⟩
    · rintro _ ⟨⟩
  have hsteady := steady_reach (fun _ => 0) (le_refl TOTAL_SAMPLES) hstart
  obtain ⟨hfinished, hrejected⟩ :=
    finished_sequence (fun _ => 0) nonce (some 1000) (some 1000) (some 2000) o hmake
  obtain ⟨receipt, s, hfinish⟩ := finish_accepts hsteady.going hsteady.count
  obtain ⟨first, timed, hvalues, -, -, hnodup, -⟩ := hfinished _ (some true) receipt s hfinish
  refine ⟨_, receipt, s, hfinish, ⟨first, timed, hvalues, hnodup⟩, ?_⟩
  exact hrejected [] (.finish none) [.accept none] ⟨_, _, rfl⟩

end Steady

end Mcla.Fixture.Sequence
