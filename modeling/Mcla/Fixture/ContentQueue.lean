import Mcla.Fixture.Session

/-! # The content queue

`mcla_content_queue_v2`: a journal of three publications, each armed, acknowledged, polled until a
frame is checked out, read and released, and one sample for each.  Journal and clocks are checked
before any pixel is looked at; then the samples are replayed through a session.

Once the checks pass, the replay says nothing that is not about pixels (`validate_exact`).
-/
namespace Mcla.Fixture
open NestedRecorder List

def PUBLICATIONS : Nat := 3
def MAX_POLLS : Nat := 1000

/-- One line of the checkout journal. -/
structure Event where
  kind : String
  (tick slot checkout session pool : Int)
  owner : List Int

/-- `Sample` of `mcla_content_sequence_v2` -/
structure Sample where
  (slot frequency arm_qpc issue_before_qpc issue_after_qpc : Int)
  publication : Publication
  observation : Observation

/-! ### The journal -/

/-- How far the journal has come. -/
inductive State where
  | create | arm | ack | poll | read | release | close | done
deriving DecidableEq

/-- The ticks of one slot.  Each is set before a later state reads it. -/
structure Record where
  (arm ack checkout read release : Int := 0)

/-- The journal while it is read. -/
structure Journal where
  previous_tick : Option Int := none
  slot : Nat := 0
  state : State := .create
  polls : Nat := 0
  records : List Record := []
  current : Record := {}

namespace Journal

/-- An event that has passed the checks of every event. -/
def step (event : Event) (j : Journal) : Except Fault Journal :=
  match j.state with
  | .create => do
    require (event.kind = "create" ∧ event.checkout = 0) "one create required"
    return { j with state := .arm }
  | .arm => do
    require (event.kind = "arm" ∧ event.checkout = 0) "one arm per slot required"
    return { j with current := { arm := event.tick }, polls := 0, state := .ack }
  | .ack => do
    require (event.kind = "ack" ∧ event.checkout = 0) "publication ack required"
    return { j with current := { j.current with ack := event.tick }, state := .poll }
  | .poll => do
    require (event.kind = "null" ∨ event.kind = "checkout") "first non-null checkout required"
    require (j.polls + 1 ≤ MAX_POLLS) "bounded polls; null never resets budget"
    if event.kind = "null" then
      require (event.checkout = 0) "null cannot carry a frame"
      return { j with polls := j.polls + 1 }
    else
      require (event.checkout = j.slot + 1) "unique checkout ordinal required"
      return { j with
        polls := j.polls + 1
        current := { j.current with checkout := event.tick }
        state := .read }
  | .read => do
    require (event.kind = "read" ∧ event.checkout = j.slot + 1) "one first-frame read required"
    return { j with current := { j.current with read := event.tick }, state := .release }
  | .release => do
    require (event.kind = "release" ∧ event.checkout = j.slot + 1) "frame release required"
    return { j with
      current := { j.current with release := event.tick }
      records := j.records ++ [{ j.current with release := event.tick }]
      slot := j.slot + 1
      state := if j.slot + 1 = PUBLICATIONS then .close else .arm }
  | .close => do
    require (event.kind = "close" ∧ event.checkout = 0) "one final normal close required"
    return { j with state := .done }
  | .done => .error (.value "extra journal event after close")

/-- One line of the journal. -/
def accept (first : Event) (j : Journal) (event : Event) : Except Fault Journal := do
  positiveUint event.tick
  uint event.slot
  uint event.checkout
  require ((event.session, event.pool, event.owner) = (first.session, first.pool, first.owner))
    "persistent resource or ownership drift"
  event.owner.forM positiveUint
  require (∀ previous ∈ j.previous_tick, previous < event.tick) "strict journal ordering"
  require (event.slot = j.slot) "consecutive journal slots"
  step event { j with previous_tick := some event.tick }

/-- The records of a whole journal. -/
def recordsOf : List Event → Except Fault (List Record)
  | [] => .error (.value "bounded immutable journal required")
  | first :: rest => do
    require (first.kind = "create") "single initial create required"
    positiveUint first.session
    positiveUint first.pool
    require (first.owner.length = 3) "owner identity required"
    first.owner.forM positiveUint
    let j ← (first :: rest).foldlM (accept first) {}
    require (j.state = .done) "incomplete resource journal"
    return j.records

end Journal

/-! ### The samples -/

/-- A sample against its record.  The frequency is that of the first sample. -/
def bindSample (nonce : List UInt8) (index : Nat) (frequency : Option Int) (record : Record)
    (sample : Sample) : Except Fault Int := do
  require (sample.slot = index) "consecutive content slots"
  uint sample.arm_qpc
  uint sample.issue_before_qpc
  uint sample.issue_after_qpc
  let own ← raising (Identity.make nonce (index + 1) (index + 1))
  require (sample.publication.identity = own) "consecutive publication identity required"
  require (10 ≤ sample.frequency ∧ sample.frequency ≤ 1000000000) "bounded frequency required"
  require (sample.frequency = frequency.getD sample.frequency) "frequency drift"
  require (sample.arm_qpc = record.arm ∧ sample.issue_after_qpc = record.ack)
    "sample and journal arm ack mismatch"
  require (record.ack < record.checkout ∧ record.checkout ≤ sample.observation.before_qpc ∧
    sample.observation.before_qpc ≤ sample.observation.after_qpc ∧
    sample.observation.after_qpc ≤ record.read ∧ record.read < record.release)
    "readback must belong to selected checkout"
  require (sample.publication.cleanup_after_qpc ≤ record.ack) "cleanup after ack"
  require (record.release - record.arm < 5 * frequency.getD sample.frequency)
    "fixed slot deadline; null never resets deadline"
  require (record.arm < sample.issue_before_qpc ∧ sample.issue_before_qpc ≤ record.ack)
    "ordered issue bracket"
  require (sample.issue_before_qpc ≤ sample.publication.draw_before_qpc ∧
    sample.publication.draw_ok = true ∧ sample.publication.cleanup_ok = true)
    "successful ordered publication required"
  require (sample.observation.index = 1) "first observation only"
  return frequency.getD sample.frequency

/-- Each record is bound to its sample. -/
def bindSamples (nonce : List UInt8) (index : Nat) (frequency : Option Int) :
    List (Record × Sample) → Except Fault (Option Int)
  | [] => .ok frequency
  | (record, sample) :: rest => do
    let frequency ← bindSample nonce index frequency record sample
    bindSamples nonce (index + 1) (some frequency) rest

/-- `events[-1].tick - events[0].tick` -/
def ticks (events : List Event) : Int :=
  (events.getLast?.map (·.tick)).getD 0 - (events.head?.map (·.tick)).getD 0

/-- All that `validate` checks before it looks at content. -/
def metadata (events : List Event) (samples : List Sample) (nonce : List UInt8)
    (normal_cleanup : Bool) : Except Fault Unit := do
  require (17 ≤ events.length ∧ events.length ≤ 17 + 3 * MAX_POLLS)
    "bounded immutable journal required"
  require (normal_cleanup = true) "normal cleanup required"
  let records ← Journal.recordsOf events
  require (samples.length = PUBLICATIONS) "three immutable samples required"
  let frequency ← bindSamples nonce 0 none (records.zip samples)
  require (ticks events < 20 * frequency.getD 0) "fixed whole-run deadline"

section Replay
variable (crc32 : List UInt8 → UInt32)

/-- The samples through the model, up to the first fault. -/
def replay (m : FixtureModel) : List Sample → Except Fault Unit
  | [] => .ok ()
  | sample :: rest => do
    let armed := m.arm sample.arm_qpc sample.issue_before_qpc sample.issue_after_qpc
    discard armed.1
    let completed := armed.2.complete sample.publication
    completed.1
    let observed := completed.2.observe crc32 sample.observation
    discard observed.1
    replay observed.2 rest

/-- What `validate` returns. -/
structure Approval where
  schema : String := "mcla-content-queue-model-v2"
  publications : Nat := PUBLICATIONS
  (checkout_journal_pass fixture_content_pass : Bool := true)
  (native_admitted cadence_admitted fps_proven : Bool := false)

/-- The journal and the samples are approved. -/
def validate (events : List Event) (samples : List Sample) (nonce : List UInt8)
    (normal_cleanup : Bool) : Except Fault Approval := do
  metadata events samples nonce normal_cleanup
  let model ← FixtureModel.make nonce
  replay crc32 model samples
  return {}

/-- Only the content: the pixels of each sample decode, and to the identity of its slot. -/
def contents (nonce : List UInt8) (index : Nat) : List Sample → Except Fault Unit
  | [] => .ok ()
  | sample :: rest => do
    let own ← raising (Identity.make nonce (index + 1) (index + 1))
    content crc32 index own sample.observation
    contents nonce (index + 1) rest

end Replay

/-! ### What an accepted journal has -/

section Journals
variable {first event : Event} {events : List Event} {j j' : Journal} {records : List Record}

/-- Between the arming of a slot and its release. -/
def State.open_ : State → Bool
  | .ack | .poll | .read | .release => true
  | _ => false

/-- What a step can do. -/
inductive Stepped (event : Event) (j : Journal) : Journal → Prop where
  | created (h : j.state = .create) : Stepped event j { j with state := .arm }
  | armed (h : j.state = .arm) :
      Stepped event j { j with current := { arm := event.tick }, polls := 0, state := .ack }
  | opened (h : j.state.open_ = true) (current : Record) (polls : Nat) (state : State)
      (hopen : state.open_ = true) (harm : current.arm = j.current.arm) :
      Stepped event j { j with current := current, polls := polls, state := state }
  | released (h : j.state = .release) :
      Stepped event j
        { j with
          current := { j.current with release := event.tick }
          records := j.records ++ [{ j.current with release := event.tick }]
          slot := j.slot + 1
          state := if j.slot + 1 = PUBLICATIONS then .close else .arm }
  | closed (h : j.state = .close) : Stepped event j { j with state := .done }

theorem Journal.step_ok (h : j.step event = .ok j') : Stepped event j j' := by
  rw [Journal.step] at h
  rcases hstate : j.state with _ | _ | _ | _ | _ | _ | _ | _
  all_goals
    rw [hstate] at h
    dsimp only at h
  case create =>
    obtain ⟨_, -, h⟩ := bind_ok.mp h
    exact pure_ok.mp h ▸ .created hstate
  case arm =>
    obtain ⟨_, -, h⟩ := bind_ok.mp h
    exact pure_ok.mp h ▸ .armed hstate
  case ack =>
    obtain ⟨_, -, h⟩ := bind_ok.mp h
    exact pure_ok.mp h ▸ .opened (by rw [hstate]; rfl) _ _ _ rfl rfl
  case poll =>
    obtain ⟨_, -, h⟩ := bind_ok.mp h
    obtain ⟨_, -, h⟩ := bind_ok.mp h
    have hopen : j.state.open_ = true := by rw [hstate]; rfl
    by_cases hnull : event.kind = "null"
    · rw [if_pos hnull] at h
      obtain ⟨_, -, h⟩ := bind_ok.mp h
      exact pure_ok.mp h ▸ .opened hopen _ _ _ rfl rfl
    · rw [if_neg hnull] at h
      obtain ⟨_, -, h⟩ := bind_ok.mp h
      exact pure_ok.mp h ▸ .opened hopen _ _ _ rfl rfl
  case read =>
    obtain ⟨_, -, h⟩ := bind_ok.mp h
    exact pure_ok.mp h ▸ .opened (by rw [hstate]; rfl) _ _ _ rfl rfl
  case release =>
    obtain ⟨_, -, h⟩ := bind_ok.mp h
    exact pure_ok.mp h ▸ .released hstate
  case close =>
    obtain ⟨_, -, h⟩ := bind_ok.mp h
    exact pure_ok.mp h ▸ .closed hstate
  case done => cases h

theorem Journal.accept_ok (h : j.accept first event = .ok j') :
    (∀ previous ∈ j.previous_tick, previous < event.tick) ∧
      Stepped event { j with previous_tick := some event.tick } j' := by
  rw [Journal.accept] at h
  obtain ⟨_, -, h⟩ := bind_ok.mp h
  obtain ⟨_, -, h⟩ := bind_ok.mp h
  obtain ⟨_, -, h⟩ := bind_ok.mp h
  obtain ⟨_, -, h⟩ := bind_ok.mp h
  obtain ⟨_, -, h⟩ := bind_ok.mp h
  obtain ⟨_, hticks, h⟩ := bind_ok.mp h
  obtain ⟨_, -, h⟩ := bind_ok.mp h
  exact ⟨require_ok.mp hticks, Journal.step_ok h⟩

/-- Slots follow one another: each is armed after the release of those before. -/
structure Journal.Ordered (j : Journal) : Prop where
  pairwise : j.records.Pairwise fun r later => r.release < later.arm
  past : ∀ r ∈ j.records, ∃ tick ∈ j.previous_tick, r.release ≤ tick
  current : j.state.open_ = true → ∀ r ∈ j.records, r.release < j.current.arm
  length : j.records.length = j.slot
  full : j.state = .close ∨ j.state = .done → j.slot = PUBLICATIONS

theorem Journal.Ordered.accept (h : j.Ordered) (haccept : j.accept first event = .ok j') :
    j'.Ordered := by
  obtain ⟨hticks, hstep⟩ := Journal.accept_ok haccept
  obtain ⟨hpairwise, hpast, hcurrent, hlength, hfull⟩ := h
  have hbefore : ∀ r ∈ j.records, r.release < event.tick := by
    intro r hr
    obtain ⟨tick, htick, hle⟩ := hpast r hr
    exact hle.trans_lt (hticks tick htick)
  have hpast' : ∀ r ∈ j.records, ∃ tick ∈ some event.tick, r.release ≤ tick :=
    fun r hr => ⟨_, rfl, (hbefore r hr).le⟩
  cases hstep with
  | created hstate =>
    exact ⟨hpairwise, hpast', by rintro ⟨⟩, hlength, by rintro (h | h) <;> cases h⟩
  | armed hstate =>
    exact ⟨hpairwise, hpast', fun _ => hbefore, hlength, by rintro (h | h) <;> cases h⟩
  | opened hopen current polls state hstill harm =>
    refine ⟨hpairwise, hpast', fun _ r hr => harm ▸ hcurrent hopen r hr, hlength, ?_⟩
    rintro (h | h)
    · dsimp only at h
      rw [h] at hstill
      cases hstill
    · dsimp only at h
      rw [h] at hstill
      cases hstill
  | released hstate =>
    have hopen : j.state.open_ = true := by
      have hstate : j.state = .release := hstate
      rw [hstate]
      rfl
    refine ⟨?_, ?_, ?_, ?_, ?_⟩
    · exact pairwise_append.mpr ⟨hpairwise, pairwise_singleton _ _,
        fun r hr later hlater => by
          rw [mem_singleton.mp hlater]
          exact hcurrent hopen r hr⟩
    · intro r hr
      rcases mem_append.mp hr with hr | hr
      · exact hpast' r hr
      · rw [mem_singleton.mp hr]
        exact ⟨_, rfl, le_rfl⟩
    · intro h
      dsimp only at h
      split_ifs at h <;> cases h
    · exact (length_append ..).trans (congrArg (· + 1) hlength)
    · intro h
      dsimp only at h
      split_ifs at h with hslot
      · exact hslot
      · rcases h with h | h <;> cases h
  | closed hstate =>
    exact ⟨hpairwise, hpast', by rintro ⟨⟩, hlength, fun _ => hfull (.inl hstate)⟩

theorem Journal.Ordered.fold (h : j.Ordered)
    (hfold : events.foldlM (Journal.accept first) j = .ok j') : j'.Ordered := by
  induction events generalizing j with
  | nil => exact pure_ok.mp hfold ▸ h
  | cons event events ih =>
    rw [foldlM_cons] at hfold
    obtain ⟨next, hnext, hrest⟩ := bind_ok.mp hfold
    exact ih (h.accept hnext) hrest

theorem Journal.recordsOf_ok (h : recordsOf events = .ok records) :
    records.length = PUBLICATIONS ∧ records.Pairwise fun r later => r.release < later.arm := by
  rcases events with _ | ⟨first, rest⟩
  · cases h
  · rw [recordsOf] at h
    obtain ⟨_, -, h⟩ := bind_ok.mp h
    obtain ⟨_, -, h⟩ := bind_ok.mp h
    obtain ⟨_, -, h⟩ := bind_ok.mp h
    obtain ⟨_, -, h⟩ := bind_ok.mp h
    obtain ⟨_, -, h⟩ := bind_ok.mp h
    obtain ⟨j, hfold, h⟩ := bind_ok.mp h
    obtain ⟨_, hdone, h⟩ := bind_ok.mp h
    have hstart : Journal.Ordered {} :=
      ⟨.nil, fun r hr => absurd hr not_mem_nil, fun _ r hr => absurd hr not_mem_nil, rfl,
        by rintro (h | h) <;> cases h⟩
    have hend := hstart.fold hfold
    rw [← pure_ok.mp h]
    exact ⟨hend.length.trans (hend.full (.inr (require_ok.mp hdone))), hend.pairwise⟩

end Journals

/-! ### What accepted samples have -/

section Samples
variable {crc32 : List UInt8 → UInt32} {nonce : List UInt8} {index : Nat}
  {frequency frequency' : Option Int} {record : Record} {sample : Sample} {samples : List Sample}
  {records : List Record} {last : Option Int}

/-- What the replay needs of a sample. -/
structure Bound (nonce : List UInt8) (index : Nat) (record : Record) (sample : Sample) : Prop where
  own : Identity.make nonce (index + 1) (index + 1) = .ok sample.publication.identity
  uints : IsUint sample.arm_qpc ∧ IsUint sample.issue_before_qpc ∧ IsUint sample.issue_after_qpc
  arm : sample.arm_qpc = record.arm
  issue : sample.arm_qpc < sample.issue_before_qpc ∧
    sample.issue_before_qpc ≤ sample.issue_after_qpc
  ready : max sample.issue_after_qpc sample.publication.cleanup_after_qpc ≤
    sample.observation.before_qpc
  release : sample.observation.after_qpc < record.release
  drawn : sample.issue_before_qpc ≤ sample.publication.draw_before_qpc
  outcomes : sample.publication.draw_ok = true ∧ sample.publication.cleanup_ok = true
  first : sample.observation.index = 1

theorem bindSample_ok {used : Int} (h : bindSample nonce index frequency record sample = .ok used) :
    Bound nonce index record sample := by
  rw [bindSample] at h
  obtain ⟨_, -, h⟩ := bind_ok.mp h
  obtain ⟨_, harm, h⟩ := bind_ok.mp h
  obtain ⟨_, hbefore, h⟩ := bind_ok.mp h
  obtain ⟨_, hafter, h⟩ := bind_ok.mp h
  obtain ⟨own, hown, h⟩ := bind_ok.mp h
  obtain ⟨_, hidentity, h⟩ := bind_ok.mp h
  obtain ⟨_, -, h⟩ := bind_ok.mp h
  obtain ⟨_, -, h⟩ := bind_ok.mp h
  obtain ⟨_, hticks, h⟩ := bind_ok.mp h
  obtain ⟨_, hread, h⟩ := bind_ok.mp h
  obtain ⟨_, hcleanup, h⟩ := bind_ok.mp h
  obtain ⟨_, -, h⟩ := bind_ok.mp h
  obtain ⟨_, hissue, h⟩ := bind_ok.mp h
  obtain ⟨_, hdrawn, h⟩ := bind_ok.mp h
  obtain ⟨_, hfirst, -⟩ := bind_ok.mp h
  obtain ⟨harmed, hacked⟩ := require_ok.mp hticks
  obtain ⟨hack, hcheckout, -, hend, hrelease⟩ := require_ok.mp hread
  have hcleanup := require_ok.mp hcleanup
  obtain ⟨hstart, hack'⟩ := require_ok.mp hissue
  obtain ⟨hbrackets, houtcomes⟩ := require_ok.mp hdrawn
  have hready : record.ack ≤ sample.observation.before_qpc := hack.le.trans hcheckout
  exact {
    own := (require_ok.mp hidentity) ▸ raising_ok.mp hown
    uints := ⟨require_ok.mp harm, require_ok.mp hbefore, require_ok.mp hafter⟩
    arm := harmed
    issue := ⟨harmed ▸ hstart, hacked ▸ hack'⟩
    ready := max_le (hacked ▸ hready) (hcleanup.trans hready)
    release := hend.trans_lt hrelease
    drawn := hbrackets
    outcomes := houtcomes
    first := require_ok.mp hfirst }

/-- The model between two samples. -/
def between (nonce : List UInt8) (index : Nat) (last : Option Int) : FixtureModel where
  session := nonce
  count := index
  last_after_qpc := last

/-- The replay of a sample that passed the checks is its content. -/
theorem replay_bound (h : Bound nonce index record sample) (hindex : index < MAX_PUBLICATIONS)
    (hlast : ∀ tick ∈ last, tick < sample.arm_qpc) :
    replay crc32 (between nonce index last) (sample :: samples) =
      (content crc32 index sample.publication.identity sample.observation).bind fun _ =>
        replay crc32 (between nonce (index + 1) (some sample.observation.after_qpc)) samples := by
  obtain ⟨challenge, hmake, hidentity, hbefore, hafter⟩ : ∃ challenge,
      Challenge.make sample.publication.identity sample.arm_qpc sample.issue_before_qpc
        sample.issue_after_qpc = .ok challenge ∧
      challenge.identity = sample.publication.identity ∧
      challenge.issue_before_qpc = sample.issue_before_qpc ∧
      challenge.issue_after_qpc = sample.issue_after_qpc := by
    rw [Challenge.make, dif_pos h.uints, dif_pos h.issue]
    exact ⟨_, rfl, rfl, rfl, rfl⟩
  have harm : (between nonce index last).arm sample.arm_qpc sample.issue_before_qpc
      sample.issue_after_qpc =
      (.ok challenge, ⟨nonce, index + 1, last, some challenge, none, false⟩) :=
    FixtureModel.run_ok rfl (FixtureModel.armed_ok rfl hindex hlast h.own hmake)
  have hcomplete : FixtureModel.complete ⟨nonce, index + 1, last, some challenge, none, false⟩
      sample.publication =
      (.ok (), ⟨nonce, index + 1, last, some challenge, some sample.publication, false⟩) :=
    FixtureModel.run_ok rfl
      (FixtureModel.completed_ok rfl rfl hidentity.symm (hbefore ▸ h.drawn) h.outcomes)
  have hobserve : FixtureModel.observed crc32 sample.observation
      ⟨nonce, index + 1, last, some challenge, some sample.publication, false⟩ =
      (content crc32 index challenge.identity sample.observation).map fun _ =>
        (⟨challenge.identity, sample.observation.raw_wgc_100ns⟩,
          between nonce (index + 1) (some sample.observation.after_qpc)) :=
    FixtureModel.observed_eq rfl rfl h.first (hafter ▸ h.ready)
  rw [hidentity] at hobserve
  rw [replay]
  dsimp only
  rw [harm]
  dsimp only
  rw [hcomplete, FixtureModel.observe, FixtureModel.run, hobserve]
  cases content crc32 index sample.publication.identity sample.observation with
  | error fault => rfl
  | ok _ => rfl

/-- The replay of all of them is their content. -/
theorem replay_bindSamples {used : Option Int}
    (hbind : bindSamples nonce index frequency (records.zip samples) = .ok used)
    (hlength : records.length = samples.length) (hroom : index + samples.length ≤ MAX_PUBLICATIONS)
    (hpairwise : records.Pairwise fun r later => r.release < later.arm)
    (hlast : ∀ tick ∈ last, ∀ r ∈ records, tick < r.arm) :
    replay crc32 (between nonce index last) samples = contents crc32 nonce index samples := by
  induction samples generalizing records index frequency last with
  | nil => rfl
  | cons sample samples ih =>
    rcases records with _ | ⟨record, records⟩
    · cases hlength
    · obtain ⟨used', hfirst, hrest⟩ := bind_ok.mp hbind
      have hbound := bindSample_ok hfirst
      obtain ⟨hhead, htail⟩ := pairwise_cons.mp hpairwise
      rw [length_cons] at hroom
      have hlast' : ∀ tick ∈ some sample.observation.after_qpc, ∀ r ∈ records, tick < r.arm := by
        intro tick htick r hr
        rw [← Option.mem_some.mp htick]
        exact hbound.release.trans (hhead r hr)
      have hrun := ih hrest (Nat.succ.inj hlength) (by omega) htail hlast'
      have hown : raising (Identity.make nonce (index + 1) (index + 1)) =
          .ok sample.publication.identity := raising_ok.mpr hbound.own
      rw [replay_bound hbound (by omega) fun tick htick =>
        hbound.arm ▸ hlast tick htick record mem_cons_self, contents, hown, hrun]
      rfl

/-- A sample whose pixels are the identity of its slot. -/
def OwnPixels (crc32 : List UInt8 → UInt32) (nonce : List UInt8) (index : Nat) (sample : Sample) :
    Prop :=
  ∃ own, Identity.make nonce (index + 1) (index + 1) = .ok own ∧
    sample.observation.pixels = encode crc32 own

theorem contents_ok {u : Unit} : contents crc32 nonce index samples = .ok u ↔
    ∀ i s, samples[i]? = some s → OwnPixels crc32 nonce (index + i) s := by
  induction samples generalizing index with
  | nil => exact iff_of_true rfl fun i s h => by simp at h
  | cons sample samples ih =>
    rw [contents]
    constructor
    · intro h
      obtain ⟨own, hown, h⟩ := bind_ok.mp h
      obtain ⟨_, hcontent, hrest⟩ := bind_ok.mp h
      intro i s hs
      rcases i with _ | i
      · cases Option.some.inj hs
        exact ⟨own, raising_ok.mp hown, content_ok.mp hcontent⟩
      · have hnext := ih.mp hrest i s hs
        rwa [Nat.add_right_comm, Nat.add_assoc] at hnext
    · intro h
      obtain ⟨own, hown, hpixels⟩ := h 0 sample rfl
      refine bind_ok.mpr ⟨own, raising_ok.mpr hown, bind_ok.mpr ⟨(),
        content_ok.mpr hpixels, ih.mpr fun i s hs => ?_⟩⟩
      have hnext := h (i + 1) s hs
      rwa [← Nat.add_assoc, Nat.add_right_comm] at hnext

end Samples

/-! ### The whole -/

section Validate
variable {events : List Event} {samples : List Sample} {nonce : List UInt8}
  {normal_cleanup : Bool}

theorem metadata_ok {u : Unit} (h : metadata events samples nonce normal_cleanup = .ok u) :
    ∃ (records : List Record) (used : Option Int),
      bindSamples nonce 0 none (records.zip samples) = .ok used ∧
      records.length = samples.length ∧ samples.length = PUBLICATIONS ∧
      records.Pairwise fun r later => r.release < later.arm := by
  rw [metadata] at h
  obtain ⟨_, -, h⟩ := bind_ok.mp h
  obtain ⟨_, -, h⟩ := bind_ok.mp h
  obtain ⟨records, hrecords, h⟩ := bind_ok.mp h
  obtain ⟨_, hlength, h⟩ := bind_ok.mp h
  obtain ⟨used, hbind, -⟩ := bind_ok.mp h
  obtain ⟨hcount, hpairwise⟩ := Journal.recordsOf_ok hrecords
  have hlength := require_ok.mp hlength
  exact ⟨records, used, hbind, hcount.trans hlength.symm, hlength, hpairwise⟩

/-- The session of a nonce that the samples' identities were made of. -/
theorem make_of_bindSamples {records : List Record} {used : Option Int}
    (hbind : bindSamples nonce 0 none (records.zip samples) = .ok used)
    (hlength : records.length = samples.length) (hcount : samples.length = PUBLICATIONS) :
    FixtureModel.make nonce = .ok (between nonce 0 none) := by
  rcases samples with _ | ⟨sample, samples⟩
  · cases hcount
  · rcases records with _ | ⟨record, records⟩
    · cases hlength
    · obtain ⟨_, hfirst, -⟩ := bind_ok.mp hbind
      have hown := (bindSample_ok hfirst).own
      rw [FixtureModel.make, raising_ok.mpr hown]
      rfl

theorem validate_eq (crc32 : List UInt8 → UInt32) :
    validate crc32 events samples nonce normal_cleanup = do
      metadata events samples nonce normal_cleanup
      contents crc32 nonce 0 samples
      return {} := by
  rw [validate]
  cases hmetadata : metadata events samples nonce normal_cleanup with
  | error fault => rfl
  | ok _ =>
    obtain ⟨records, used, hbind, hlength, hcount, hpairwise⟩ := metadata_ok hmetadata
    have hroom : 0 + samples.length ≤ MAX_PUBLICATIONS := by
      rw [hcount]
      decide
    have hreplay : replay crc32 (between nonce 0 none) samples = contents crc32 nonce 0 samples :=
      replay_bindSamples hbind hlength hroom hpairwise fun tick htick => by cases htick
    rw [make_of_bindSamples hbind hlength hcount]
    change (replay crc32 (between nonce 0 none) samples >>= fun _ => pure (Approval.mk ..)) = _
    rw [hreplay]
    rfl

end Validate

/-- **After its checks the queue is about content alone.**  The replay ends as the decoding and the
comparison of the samples' pixels do, so a journal and samples that pass the checks are accepted
exactly when each sample shows the identity of its slot. -/
theorem validate_exact (crc32 : List UInt8 → UInt32) (events : List Event)
    (samples : List Sample) (nonce : List UInt8) (normal_cleanup : Bool) :
    (validate crc32 events samples nonce normal_cleanup = do
      metadata events samples nonce normal_cleanup
      contents crc32 nonce 0 samples
      return {}) ∧
    ((∃ approval, validate crc32 events samples nonce normal_cleanup = .ok approval) ↔
      metadata events samples nonce normal_cleanup = .ok () ∧
        ∀ i s, samples[i]? = some s → OwnPixels crc32 nonce i s) := by
  refine ⟨validate_eq crc32, ?_⟩
  rw [validate_eq]
  constructor
  · rintro ⟨approval, h⟩
    obtain ⟨_, hmetadata, h⟩ := bind_ok.mp h
    obtain ⟨_, hcontents, -⟩ := bind_ok.mp h
    refine ⟨hmetadata, fun i s hs => ?_⟩
    have hown := contents_ok.mp hcontents i s hs
    rwa [Nat.zero_add] at hown
  · rintro ⟨hmetadata, hpixels⟩
    refine ⟨{}, bind_ok.mpr ⟨(), hmetadata, bind_ok.mpr ⟨(), ?_, rfl⟩⟩⟩
    refine contents_ok.mpr fun i s hs => ?_
    rw [Nat.zero_add]
    exact hpixels i s hs

end Mcla.Fixture
