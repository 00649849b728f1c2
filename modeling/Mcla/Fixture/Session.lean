import Mcla.Fixture.Identity

/-! # One fixture session

`FixtureModel` of `mcla_fixture_identity_v2`: a challenge is armed, one publication completes it,
and one observation consumes both.  A rejected operation poisons the run.
-/
namespace Mcla.Fixture
open NestedRecorder

def MAX_PUBLICATIONS : Nat := 1024

/-- What is raised: a `ValueError`, or a `PixelIdentityError` with its diagnostic. -/
inductive Fault where
  | value (reason : String)
  | pixelIdentity (slot : Nat) (expected observed : Identity)
deriving DecidableEq

/-- `need` with a `ValueError`. -/
def require (p : Prop) [Decidable p] (reason : String) : Except Fault Unit := need p (.value reason)

/-- A check that raises `ValueError`. -/
def raising {α : Type} (x : Except String α) : Except Fault α := x.mapError .value

/-- What `uint` lets through. -/
def IsUint (value : Int) : Prop := 0 ≤ value ∧ value ≤ U64_MAX

instance : DecidablePred IsUint := fun _ => inferInstanceAs (Decidable (_ ∧ _))

/-- An unsigned number. -/
def uint (value : Int) : Except Fault Unit :=
  require (IsUint value) "unsigned nonwrapping integer required"

/-- `uint` with `positive=True`. -/
def positiveUint (value : Int) : Except Fault Unit :=
  require (1 ≤ value ∧ value ≤ U64_MAX) "unsigned nonwrapping integer required"

/-! ### The records, with what `__post_init__` checks -/

/-- A challenge, with the clocks of its issue. -/
structure Challenge where
  identity : Identity
  (arm_qpc issue_before_qpc issue_after_qpc : Int)
  uints : IsUint arm_qpc ∧ IsUint issue_before_qpc ∧ IsUint issue_after_qpc
  after_arm : arm_qpc < issue_before_qpc ∧ issue_before_qpc ≤ issue_after_qpc

/-- A drawn frame, with its clocks. -/
structure Publication where
  identity : Identity
  (draw_before_qpc draw_after_qpc cleanup_after_qpc : Int)
  (draw_ok cleanup_ok : Bool)
  uints : IsUint draw_before_qpc ∧ IsUint draw_after_qpc ∧ IsUint cleanup_after_qpc
  bracket : draw_before_qpc ≤ draw_after_qpc ∧ draw_after_qpc ≤ cleanup_after_qpc

/-- One sample of the window, with its clocks. -/
structure Observation where
  (index before_qpc after_qpc : Int)
  pixels : List UInt8
  raw_wgc_100ns : Option Int
  index_uint : 1 ≤ index ∧ index ≤ U64_MAX
  uints : IsUint before_qpc ∧ IsUint after_qpc
  bracket : before_qpc ≤ after_qpc
  raw_label : ∀ label ∈ raw_wgc_100ns, -2 ^ 63 ≤ label ∧ label < 2 ^ 63

/-- The constructor of a challenge. -/
def Challenge.make (identity : Identity) (arm_qpc issue_before_qpc issue_after_qpc : Int) :
    Except Fault Challenge :=
  if huints : IsUint arm_qpc ∧ IsUint issue_before_qpc ∧ IsUint issue_after_qpc then
    if hafter : arm_qpc < issue_before_qpc ∧ issue_before_qpc ≤ issue_after_qpc then
      .ok ⟨identity, arm_qpc, issue_before_qpc, issue_after_qpc, huints, hafter⟩
    else .error (.value "challenge must be issued strictly after arm")
  else .error (.value "unsigned nonwrapping integer required")

/-! ### The model -/

/-- What a session holds between two of its calls. -/
structure FixtureModel where
  session : List UInt8
  count : Nat := 0
  last_after_qpc : Option Int := none
  challenge : Option Challenge := none
  publication : Option Publication := none
  failed : Bool := false

/-- `__init__` -/
def FixtureModel.make (session : List UInt8) : Except Fault FixtureModel := do
  discard (raising (Identity.make session 1 1))
  return { session }

/-- What an accepted observation gives, but for the constants. -/
structure Credit where
  identity : Identity
  raw_wgc_100ns : Option Int

namespace FixtureModel

/-- `_run`: the result, and the model after it. -/
def run {α : Type} (m : FixtureModel) (operation : FixtureModel → Except Fault (α × FixtureModel)) :
    Except Fault α × FixtureModel :=
  if m.failed then
    (.error (.value "run already failed; no retry or favorable-frame selection"), m)
  else match operation m with
    | .ok (result, m') => (.ok result, m')
    | .error fault => (.error fault, { m with failed := true })

/-- `arm`, if it succeeds. -/
def armed (arm_qpc issue_before_qpc issue_after_qpc : Int) (m : FixtureModel) :
    Except Fault (Challenge × FixtureModel) := do
  require (m.challenge.isNone = true) "previous challenge not consumed"
  require (m.count < MAX_PUBLICATIONS) "publication budget exhausted; no wrap"
  require (∀ last ∈ m.last_after_qpc, last < arm_qpc) "reordered host records"
  let identity ← raising (Identity.make m.session (m.count + 1) (m.count + 1))
  let challenge ← Challenge.make identity arm_qpc issue_before_qpc issue_after_qpc
  return (challenge, { m with count := m.count + 1, challenge := some challenge })

/-- A challenge is issued. -/
def arm (m : FixtureModel) (arm_qpc issue_before_qpc issue_after_qpc : Int) :
    Except Fault Challenge × FixtureModel :=
  m.run (armed arm_qpc issue_before_qpc issue_after_qpc)

/-- `complete`, if it succeeds. -/
def completed (publication : Publication) (m : FixtureModel) : Except Fault (Unit × FixtureModel) :=
  match m.challenge, m.publication with
  | some challenge, none => do
    require (publication.identity = challenge.identity) "wrong or stale publication identity"
    require (challenge.issue_before_qpc ≤ publication.draw_before_qpc)
      "producer predates challenge issue"
    require (publication.draw_ok = true ∧ publication.cleanup_ok = true)
      "drawing or cleanup failed"
    return ((), { m with publication := some publication })
  | _, _ => .error (.value "exactly one pending producer record required")

/-- The challenge is drawn. -/
def complete (m : FixtureModel) (publication : Publication) : Except Fault Unit × FixtureModel :=
  m.run (completed publication)

variable (crc32 : List UInt8 → UInt32)

/-- `observe`, if it succeeds. -/
def observed (observation : Observation) (m : FixtureModel) :
    Except Fault (Credit × FixtureModel) :=
  match m.challenge, m.publication with
  | some challenge, some publication => do
    require (observation.index = 1) "first eligible frame only; no frame skipping"
    require (max challenge.issue_after_qpc publication.cleanup_after_qpc ≤ observation.before_qpc)
      "observation predates completed producer/host issue"
    let identity ← raising (decode crc32 observation.pixels)
    need (identity = challenge.identity)
      (Fault.pixelIdentity (m.count - 1) challenge.identity identity)
    return (⟨identity, observation.raw_wgc_100ns⟩,
      { m with
        last_after_qpc := some observation.after_qpc, challenge := none, publication := none })
  | _, _ => .error (.value "completed producer record required before content credit")

/-- The drawn frame is seen. -/
def observe (m : FixtureModel) (observation : Observation) : Except Fault Credit × FixtureModel :=
  m.run (observed crc32 observation)

end FixtureModel

/-! ### What the operations do -/

section Operations
variable {crc32 : List UInt8 → UInt32} {m m' : FixtureModel} {identity : Identity}

@[simp] theorem require_ok {p : Prop} [Decidable p] {reason : String} {u : Unit} :
    require p reason = .ok u ↔ p := need_ok

@[simp] theorem raising_ok {α : Type} {x : Except String α} {a : α} :
    raising x = .ok a ↔ x = .ok a := by
  cases x with
  | error reason => exact iff_of_false (by rintro ⟨⟩) (by rintro ⟨⟩)
  | ok b => exact ⟨fun h => congrArg _ (Except.ok.inj h), fun h => congrArg _ (Except.ok.inj h)⟩

theorem FixtureModel.run_ok {α : Type} {operation : FixtureModel → Except Fault (α × FixtureModel)}
    {result : α} (hfailed : m.failed = false) (h : operation m = .ok (result, m')) :
    m.run operation = (.ok result, m') := by
  rw [run, if_neg (by rw [hfailed]; exact Bool.false_ne_true), h]

variable {challenge : Challenge}

theorem FixtureModel.armed_ok {arm before after : Int} (hnone : m.challenge = none)
    (hcount : m.count < MAX_PUBLICATIONS) (hlast : ∀ last ∈ m.last_after_qpc, last < arm)
    (hidentity : Identity.make m.session (m.count + 1) (m.count + 1) = .ok identity)
    (hmake : Challenge.make identity arm before after = .ok challenge) :
    armed arm before after m =
      .ok (challenge, { m with count := m.count + 1, challenge := some challenge }) := by
  have hisNone : m.challenge.isNone = true := by rw [hnone]; rfl
  exact bind_ok.mpr ⟨(), require_ok.mpr hisNone, bind_ok.mpr ⟨(), require_ok.mpr hcount,
    bind_ok.mpr ⟨(), require_ok.mpr hlast, bind_ok.mpr ⟨_, raising_ok.mpr hidentity,
      bind_ok.mpr ⟨_, hmake, rfl⟩⟩⟩⟩⟩

theorem FixtureModel.completed_ok {publication : Publication}
    (hchallenge : m.challenge = some challenge) (hnone : m.publication = none)
    (hidentity : publication.identity = challenge.identity)
    (hissue : challenge.issue_before_qpc ≤ publication.draw_before_qpc)
    (hok : publication.draw_ok = true ∧ publication.cleanup_ok = true) :
    completed publication m = .ok ((), { m with publication := some publication }) := by
  rw [completed, hchallenge, hnone]
  exact bind_ok.mpr ⟨(), require_ok.mpr hidentity, bind_ok.mpr ⟨(),
    require_ok.mpr hissue, bind_ok.mpr ⟨(), require_ok.mpr hok, rfl⟩⟩⟩

/-- What of an observation is about its pixels: they decode, and to the own identity. -/
def content (crc32 : List UInt8 → UInt32) (slot : Nat) (own : Identity)
    (observation : Observation) : Except Fault Unit := do
  let identity ← raising (decode crc32 observation.pixels)
  need (identity = own) (Fault.pixelIdentity slot own identity)

theorem content_ok {slot : Nat} {own : Identity} {observation : Observation} :
    content crc32 slot own observation = .ok () ↔ observation.pixels = encode crc32 own := by
  rw [← decode_ok]
  constructor
  · intro h
    obtain ⟨read, hread, hsame⟩ := bind_ok.mp h
    exact need_ok.mp hsame ▸ raising_ok.mp hread
  · exact fun h => bind_ok.mpr ⟨own, raising_ok.mpr h, need_ok.mpr rfl⟩

/-- With the clocks in order, an observation is its content. -/
theorem FixtureModel.observed_eq {publication : Publication} {observation : Observation}
    (hchallenge : m.challenge = some challenge) (hpublication : m.publication = some publication)
    (hindex : observation.index = 1)
    (hclock : max challenge.issue_after_qpc publication.cleanup_after_qpc ≤
      observation.before_qpc) :
    observed crc32 observation m =
      (content crc32 (m.count - 1) challenge.identity observation).map fun _ =>
        (⟨challenge.identity, observation.raw_wgc_100ns⟩,
          { m with
            last_after_qpc := some observation.after_qpc
            challenge := none
            publication := none }) := by
  have hfirst : require (observation.index = 1)
      "first eligible frame only; no frame skipping" = .ok () := require_ok.mpr hindex
  have hafter : require (max challenge.issue_after_qpc publication.cleanup_after_qpc ≤
      observation.before_qpc) "observation predates completed producer/host issue" = .ok () :=
    require_ok.mpr hclock
  rw [observed, hchallenge, hpublication, content]
  dsimp only
  rw [hfirst, hafter]
  rcases raising (decode crc32 observation.pixels) with fault | identity
  · rfl
  · by_cases hown : identity = challenge.identity
    · subst hown
      have hneed : need (challenge.identity = challenge.identity) (Fault.pixelIdentity (m.count - 1)
          challenge.identity challenge.identity) = .ok () := need_ok.mpr rfl
      change (need _ _ >>= _) = (need _ _).map _
      rw [hneed]
      rfl
    · have hneed : need (identity = challenge.identity) (Fault.pixelIdentity (m.count - 1)
          challenge.identity identity) = .error _ := if_neg hown
      change (need _ _ >>= _) = (need _ _).map _
      rw [hneed]
      rfl

end Operations
end Mcla.Fixture
