import Mcla.Library.Decimal
import Mcla.Library.MachineArith

/-! # The build lease policy

`mcla_build_lease_policy`: a signed ticket admits a test build for a time after
its creation, and signed lists of grants extend that time (V1) or confirm the
build online (V2, the kill switch).  The evaluations are written over an
arithmetic, so that the same text runs as the machine runs it and as the exact
computation it is meant to be.

`evaluate_eq` and `evaluateKillSwitch_eq` say that the two never differ: every
sum and difference stays in 64 bits, because each is taken after the test that
bounds its operands.
-/
namespace Mcla.Lease
open MachineArith

/-- A `std::string` or `std::string_view`. -/
abbrev Bytes := Decimal.Bytes

/-- The bytes of an ASCII literal. -/
def ascii (s : String) : Bytes := s.toList.map fun c => UInt8.ofNat c.toNat

def kMinimumUtc : Nat := 1577836800
def kMaximumUtc : Nat := 4102444800
def kGraceSeconds : Nat := 1209600
def kMaximumEnvelopeBytes : Nat := 64 * 1024
def kMaximumGrants : Nat := 256
def kKillSwitchOfflineSeconds : Nat := 259200
def kKillSwitchCheckSeconds : Nat := 86400

def kGrant1080p : BitVec 8 := 1
def kGrant1440p : BitVec 8 := 2
def kGrant2160p : BitVec 8 := 4
def kGrantUnlocked : BitVec 8 := 8

/-- A build ticket that is verified. -/
structure Ticket where
  hostSha256 : Bytes
  createdUtc : Nat
  killSwitch : Bool
  capabilities : BitVec 8
deriving DecidableEq

/-- The extension of one host. -/
structure Grant where
  hostSha256 : Bytes
  validUntil : Nat
deriving DecidableEq

/-- A verified list of extensions. -/
structure Leases where
  issuedUtc : Nat
  grants : List Grant
deriving DecidableEq

/-- The value of an uppercase hex digit. -/
def nibble (c : UInt8) : Option Nat :=
  if 48 ≤ c.toNat ∧ c.toNat ≤ 57 then some (c.toNat - 48)
  else if 65 ≤ c.toNat ∧ c.toNat ≤ 70 then some (c.toNat - 65 + 10)
  else none

/-- 64 digits of a hash. -/
def hashValid (hash : Bytes) : Bool := hash.length == 64 && hash.all fun c => (nibble c).isSome

/-- A date in the range of the source. -/
def dateValid (value : Nat) : Bool := kMinimumUtc ≤ value && value ≤ kMaximumUtc

/-- The loop of `ModelValid`, after the host `previous`. -/
def modelValidFrom (previous : Bytes) : List Grant → Bool
  | [] => true
  | grant :: rest =>
      hashValid grant.hostSha256 && dateValid grant.validUntil &&
        (previous.isEmpty || decide (previous < grant.hostSha256)) &&
        modelValidFrom grant.hostSha256 rest

/-- Whether a list is well formed. -/
def modelValid (leases : Leases) : Bool :=
  dateValid leases.issuedUtc && leases.grants.length ≤ kMaximumGrants &&
    modelValidFrom [] leases.grants

/-- The identity and clock tests that both evaluations begin with. -/
def identityError (ticket : Ticket) (actualHash : Bytes) (now : Nat) : Option String :=
  if !(hashValid ticket.hostSha256 && dateValid ticket.createdUtc && hashValid actualHash) then
    some "Malformed build ticket or measured host hash"
  else if ticket.hostSha256 ≠ actualHash then
    some "Build ticket does not match the measured host"
  else if !dateValid now then
    some "Clock error: current UTC is outside the admitted range"
  else if now < ticket.createdUtc then
    some "Clock error: current UTC precedes build creation"
  else none

/-- The text of a build that was withdrawn. -/
def withdrawn : String :=
  "This test build was withdrawn. Your saves are unchanged. Get the current build from the owner."

/-- The text of a check that is due. -/
def buildCheckNeeded : String :=
  "BUILD CHECK NEEDED - connect to the internet once and start again. Your saves are unchanged."

/-- What becomes of the recorded check. -/
inductive KillSwitchCache where
  | keep | refresh | revoke
deriving DecidableEq

/-- A verified list, and when it was checked. -/
structure CachedCheck where
  leases : Leases
  checkedUtc : Nat

/-- What the kill switch answers. -/
structure KillSwitchDecision where
  allowed : Bool
  expiresUtc : Nat
  cache : KillSwitchCache
  reason : String

section Evaluations
variable {m : Type → Type} [Monad m] (A : Arith m)

/-- `issued_utc > now && issued_utc - now > 300`. -/
def issuedInFuture (leases : Leases) (now : Nat) : m Bool :=
  if leases.issuedUtc > now then do
    let ahead ← A.sub leases.issuedUtc now
    pure (decide (ahead > 300))
  else pure false

/-- The deadline after the grants of a list for the host. -/
def extended (actualHash : Bytes) (expiry : Nat) (grants : List Grant) : Nat :=
  grants.foldl (fun expiry grant =>
    if grant.hostSha256 = actualHash then max expiry grant.validUntil else expiry) expiry

/-- The last test of `Evaluate`. -/
def admitBefore (now expiry : Nat) : Except String Nat :=
  if now ≥ expiry then
    .error "BUILD EXPIRED: obtain a newer test build or a signed extension."
  else .ok expiry

/-- `Evaluate`. -/
def evaluate (ticket : Ticket) (actualHash : Bytes) (now : Nat) (leases : Option Leases) :
    m (Except String Nat) :=
  if ticket.killSwitch then
    pure (.error "Kill-switch build ticket requires kill-switch admission")
  else
    match identityError ticket actualHash now with
    | some error => pure (.error error)
    | none => do
        let expiry ← A.add ticket.createdUtc kGraceSeconds
        match leases with
        | none => pure (admitBefore now expiry)
        | some leases =>
            if !modelValid leases then pure (.error "Malformed supplied build leases")
            else do
              let future ← issuedInFuture A leases now
              if future then
                pure (.error "Clock error: signed build leases were issued more than 300 seconds in the future")
              else pure (admitBefore now (extended actualHash expiry leases.grants))

/-- The grant of the host in a list, if any. -/
def listed (leases : Leases) (actualHash : Bytes) : Option Grant :=
  leases.grants.find? fun grant => grant.hostSha256 == actualHash

/-- The online list if it is an answer: a malformed or future-issued list is
treated as none. -/
def onlineAnswer (now : Nat) : Option Leases → m (Option Leases)
  | none => pure none
  | some online =>
      if modelValid online then do
        let future ← issuedInFuture A online now
        pure (if future then none else some online)
      else pure none

/-- The offline deadline after the cached check. -/
def cachedExpiry (actualHash : Bytes) (now expiry : Nat) : Option CachedCheck → m Nat
  | none => pure expiry
  | some cached =>
      if modelValid cached.leases && dateValid cached.checkedUtc && cached.checkedUtc ≤ now then
        match listed cached.leases actualHash with
        | none => pure expiry
        | some grant => do
            let fresh ← A.add cached.checkedUtc kKillSwitchCheckSeconds
            pure (max expiry (min fresh grant.validUntil))
      else pure expiry

/-- The decision of a list that answers. -/
def onlineDecision (actualHash : Bytes) (now : Nat) (online : Leases) : m KillSwitchDecision :=
  match listed online actualHash with
  | none => pure ⟨false, 0, .revoke, withdrawn⟩
  | some grant =>
      if grant.validUntil > now then do
        let fresh ← A.add now kKillSwitchCheckSeconds
        pure ⟨true, min fresh grant.validUntil, .refresh, ""⟩
      else pure ⟨false, 0, .revoke, withdrawn⟩

/-- The decision without an answer. -/
def offlineDecision (ticket : Ticket) (actualHash : Bytes) (now : Nat)
    (cached : Option CachedCheck) (revoked : Bool) : m KillSwitchDecision :=
  if revoked then pure ⟨false, 0, .keep, withdrawn⟩
  else do
    let expiry ← A.add ticket.createdUtc kKillSwitchOfflineSeconds
    let expiry ← cachedExpiry A actualHash now expiry cached
    pure (if now ≥ expiry then ⟨false, 0, .keep, buildCheckNeeded⟩ else ⟨true, expiry, .keep, ""⟩)

/-- `EvaluateKillSwitch`. -/
def evaluateKillSwitch (ticket : Ticket) (actualHash : Bytes) (now : Nat) (online : Option Leases)
    (cached : Option CachedCheck) (revoked : Bool) : m (Except String KillSwitchDecision) :=
  if !ticket.killSwitch then pure (.error "Kill-switch admission requires a V2 build ticket")
  else
    match identityError ticket actualHash now with
    | some error => pure (.error error)
    | none => do
        match ← onlineAnswer A now online with
        | some list => .ok <$> onlineDecision A actualHash now list
        | none => .ok <$> offlineDecision A ticket actualHash now cached revoked

end Evaluations

/-! ## What the tests give -/

theorem dateValid_iff {value : Nat} :
    dateValid value = true ↔ kMinimumUtc ≤ value ∧ value ≤ kMaximumUtc := by
  simp [dateValid]

theorem dateValid_lt {value : Nat} (h : dateValid value = true) : value + 2 ^ 32 < 2 ^ 64 := by
  have hmax := (dateValid_iff.mp h).2
  unfold kMaximumUtc at hmax
  omega

theorem modelValid_iff {leases : Leases} :
    modelValid leases = true ↔ dateValid leases.issuedUtc = true ∧
      leases.grants.length ≤ kMaximumGrants ∧ modelValidFrom [] leases.grants = true := by
  simp [modelValid, and_assoc]

theorem identityError_eq_none {ticket : Ticket} {actualHash : Bytes} {now : Nat} :
    identityError ticket actualHash now = none ↔
      hashValid ticket.hostSha256 = true ∧ dateValid ticket.createdUtc = true ∧
        ticket.hostSha256 = actualHash ∧ dateValid now = true ∧ ticket.createdUtc ≤ now := by
  unfold identityError
  constructor
  · intro h
    split_ifs at h with h₁ h₂ h₃ h₄
    simp only [Bool.not_eq_true', Bool.not_eq_false, Bool.and_eq_true] at h₁ h₃
    exact ⟨h₁.1.1, h₁.1.2, not_not.mp h₂, h₃, Nat.le_of_not_lt h₄⟩
  · rintro ⟨h₁, h₂, rfl, h₄, h₅⟩
    simp [h₁, h₂, h₄, h₅]

theorem listed_eq_some {leases : Leases} {actualHash : Bytes} {grant : Grant}
    (h : listed leases actualHash = some grant) :
    grant ∈ leases.grants ∧ grant.hostSha256 = actualHash :=
  ⟨List.mem_of_find?_eq_some h, by simpa using List.find?_some h⟩

/-! ## No operation wraps -/

section Faithful
variable {m : Type → Type} [Monad m] [LawfulMonad m] {A : Arith m}

theorem issuedInFuture_eq (hA : Faithful 64 A) {leases : Leases} (now : Nat)
    (h : dateValid leases.issuedUtc = true) :
    issuedInFuture A leases now = pure (decide (leases.issuedUtc > now + 300)) := by
  unfold issuedInFuture
  have hlt := dateValid_lt h
  split_ifs with hnow
  · rw [hA.sub (by omega) (by omega), pure_bind]
    congr 1
    exact decide_eq_decide.mpr (by omega)
  · congr 1
    rw [eq_comm, decide_eq_false_iff_not]
    omega

/-- Whether a list is an answer at `now`. -/
def Current (leases : Leases) (now : Nat) : Prop :=
  modelValid leases = true ∧ leases.issuedUtc ≤ now + 300

instance (leases : Leases) (now : Nat) : Decidable (Current leases now) :=
  inferInstanceAs (Decidable (_ ∧ _))

theorem onlineAnswer_eq (hA : Faithful 64 A) (now : Nat) (online : Option Leases) :
    onlineAnswer A now online = pure (online.filter fun list => decide (Current list now)) := by
  cases online with
  | none => rfl
  | some list =>
    by_cases hmodel : modelValid list = true
    · simp only [onlineAnswer, hmodel, if_true]
      rw [issuedInFuture_eq hA now (modelValid_iff.mp hmodel).1, pure_bind, Option.filter]
      congr 1
      by_cases hissued : list.issuedUtc > now + 300
      · have hcur : ¬ Current list now := fun h => by have := h.2; omega
        simp [hissued, hcur]
      · have hcur : Current list now := ⟨hmodel, by omega⟩
        simp [hissued, hcur]
    · have hcur : ¬ Current list now := fun h => hmodel h.1
      simp [onlineAnswer, hmodel, Option.filter, hcur]

theorem onlineDecision_eq (hA : Faithful 64 A) {actualHash : Bytes} {now : Nat}
    (hnow : dateValid now = true) (online : Leases) :
    onlineDecision A actualHash now online = pure (onlineDecision exact actualHash now online) := by
  have hlt := dateValid_lt hnow
  unfold onlineDecision
  cases listed online actualHash with
  | none => rfl
  | some grant =>
    by_cases hvalid : grant.validUntil > now
    · simp only [hvalid, if_true]
      rw [hA.add (by unfold kKillSwitchCheckSeconds; omega), pure_bind]
      rfl
    · simp only [hvalid, if_false]
      rfl

theorem cachedExpiry_eq (hA : Faithful 64 A) (actualHash : Bytes) (now expiry : Nat)
    (cached : Option CachedCheck) :
    cachedExpiry A actualHash now expiry cached =
      pure (cachedExpiry exact actualHash now expiry cached) := by
  cases cached with
  | none => rfl
  | some cached =>
    by_cases hcached : (modelValid cached.leases && dateValid cached.checkedUtc &&
        decide (cached.checkedUtc ≤ now)) = true
    · have hchecked := hcached
      simp only [Bool.and_eq_true] at hchecked
      have hlt := dateValid_lt hchecked.1.2
      simp only [cachedExpiry, hcached, if_true]
      cases listed cached.leases actualHash with
      | none => rfl
      | some grant =>
        show A.add _ _ >>= _ = _
        rw [hA.add (by unfold kKillSwitchCheckSeconds; omega), pure_bind]
        rfl
    · simp only [cachedExpiry, hcached]
      rfl

theorem offlineDecision_eq (hA : Faithful 64 A) {ticket : Ticket} {actualHash : Bytes} {now : Nat}
    (hcreated : dateValid ticket.createdUtc = true) (cached : Option CachedCheck) (revoked : Bool) :
    offlineDecision A ticket actualHash now cached revoked =
      pure (offlineDecision exact ticket actualHash now cached revoked) := by
  have hlt := dateValid_lt hcreated
  unfold offlineDecision
  split_ifs with hrevoked
  · rfl
  · rw [hA.add (by unfold kKillSwitchOfflineSeconds; omega), pure_bind, cachedExpiry_eq hA,
      pure_bind]
    rfl

/-- **No operation of `EvaluateKillSwitch` wraps.** -/
theorem evaluateKillSwitch_eq (hA : Faithful 64 A) (ticket : Ticket) (actualHash : Bytes)
    (now : Nat) (online : Option Leases) (cached : Option CachedCheck) (revoked : Bool) :
    evaluateKillSwitch A ticket actualHash now online cached revoked =
      pure (evaluateKillSwitch exact ticket actualHash now online cached revoked) := by
  have hexact := exact_faithful 64
  unfold evaluateKillSwitch
  split_ifs with hkind
  · rfl
  · cases hid : identityError ticket actualHash now with
    | some error => rfl
    | none =>
      obtain ⟨-, hcreated, -, hnow, -⟩ := identityError_eq_none.mp hid
      simp only [onlineAnswer_eq hA, onlineAnswer_eq hexact, pure_bind]
      cases online.filter fun list => decide (Current list now) with
      | some list =>
        simp only [onlineDecision_eq hA hnow, map_pure]
        rfl
      | none =>
        simp only [offlineDecision_eq hA hcreated, map_pure]
        rfl

/-- **No operation of `Evaluate` wraps.** -/
theorem evaluate_eq (hA : Faithful 64 A) (ticket : Ticket) (actualHash : Bytes) (now : Nat)
    (leases : Option Leases) :
    evaluate A ticket actualHash now leases =
      pure (evaluate exact ticket actualHash now leases) := by
  have hexact := exact_faithful 64
  unfold evaluate
  split_ifs with hkind
  · rfl
  · cases hid : identityError ticket actualHash now with
    | some error => rfl
    | none =>
      obtain ⟨-, hcreated, -, -, -⟩ := identityError_eq_none.mp hid
      have hlt := dateValid_lt hcreated
      have hsum : ticket.createdUtc + kGraceSeconds < 2 ^ 64 := by unfold kGraceSeconds; omega
      simp only [hA.add hsum, hexact.add hsum, pure_bind]
      cases leases with
      | none => rfl
      | some list =>
        by_cases hmodel : modelValid list = true
        · have hissued := (modelValid_iff.mp hmodel).1
          simp only [hmodel, issuedInFuture_eq hA now hissued, issuedInFuture_eq hexact now hissued,
            pure_bind]
          split_ifs <;> rfl
        · simp only [hmodel]
          rfl

end Faithful

/-! ## What the kill switch decides -/

section Decisions
variable {ticket : Ticket} {actualHash : Bytes} {now : Nat} {online : Option Leases}
  {cached : Option CachedCheck} {revoked : Bool}

/-- The deadline without an answer. -/
def offlineExpiry (ticket : Ticket) (actualHash : Bytes) (now : Nat)
    (cached : Option CachedCheck) : Nat :=
  cachedExpiry exact actualHash now (ticket.createdUtc + kKillSwitchOfflineSeconds) cached

/-- **The decision, case by case**: a list that answers decides, and without one the
offline rule does. -/
theorem evaluateKillSwitch_exact (hkind : ticket.killSwitch = true)
    (hid : identityError ticket actualHash now = none) :
    evaluateKillSwitch exact ticket actualHash now online cached revoked =
      match online.filter fun list => decide (Current list now) with
      | some list => .ok (onlineDecision exact actualHash now list)
      | none => .ok (offlineDecision exact ticket actualHash now cached revoked) := by
  simp only [evaluateKillSwitch, hkind, hid, onlineAnswer_eq (exact_faithful 64)]
  cases online.filter fun list => decide (Current list now) <;> rfl

theorem onlineDecision_cases (actualHash : Bytes) (now : Nat) (list : Leases) :
    (∃ grant, listed list actualHash = some grant ∧ now < grant.validUntil ∧
      onlineDecision exact actualHash now list =
        ⟨true, min (now + kKillSwitchCheckSeconds) grant.validUntil, .refresh, ""⟩) ∨
    ((∀ grant, listed list actualHash = some grant → grant.validUntil ≤ now) ∧
      onlineDecision exact actualHash now list = ⟨false, 0, .revoke, withdrawn⟩) := by
  unfold onlineDecision
  cases listed list actualHash with
  | none => exact .inr ⟨fun _ h => (by cases h), rfl⟩
  | some grant =>
    by_cases hvalid : grant.validUntil > now
    · exact .inl ⟨grant, rfl, hvalid, by simp only [hvalid, if_true]; rfl⟩
    · refine .inr ⟨fun _ h => ?_, by simp only [hvalid, if_false]; rfl⟩
      cases h
      exact Nat.le_of_not_lt hvalid

theorem offlineDecision_cases (ticket : Ticket) (actualHash : Bytes) (now : Nat)
    (cached : Option CachedCheck) (revoked : Bool) :
    (revoked = true ∧ offlineDecision exact ticket actualHash now cached revoked =
      ⟨false, 0, .keep, withdrawn⟩) ∨
    (revoked = false ∧ now < offlineExpiry ticket actualHash now cached ∧
      offlineDecision exact ticket actualHash now cached revoked =
        ⟨true, offlineExpiry ticket actualHash now cached, .keep, ""⟩) ∨
    (revoked = false ∧ offlineExpiry ticket actualHash now cached ≤ now ∧
      offlineDecision exact ticket actualHash now cached revoked =
        ⟨false, 0, .keep, buildCheckNeeded⟩) := by
  cases revoked with
  | true => exact .inl ⟨rfl, rfl⟩
  | false =>
    have hrun : offlineDecision exact ticket actualHash now cached false =
        if now ≥ offlineExpiry ticket actualHash now cached then
          ⟨false, 0, .keep, buildCheckNeeded⟩
        else ⟨true, offlineExpiry ticket actualHash now cached, .keep, ""⟩ := rfl
    right
    rcases Nat.lt_or_ge now (offlineExpiry ticket actualHash now cached) with h | h
    · exact .inl ⟨rfl, h, by rw [hrun, if_neg (Nat.not_le_of_lt h)]⟩
    · exact .inr ⟨rfl, h, by rw [hrun, if_pos h]⟩

/-- The cached check extends the deadline by at most a day from now. -/
theorem offlineExpiry_le (ticket : Ticket) (actualHash : Bytes) (now : Nat)
    (cached : Option CachedCheck) :
    offlineExpiry ticket actualHash now cached ≤
      max (ticket.createdUtc + kKillSwitchOfflineSeconds) (now + kKillSwitchCheckSeconds) := by
  unfold offlineExpiry
  cases cached with
  | none => exact Nat.le_max_left _ _
  | some cached =>
    by_cases hcached : (modelValid cached.leases && dateValid cached.checkedUtc &&
        decide (cached.checkedUtc ≤ now)) = true
    · have hchecked := hcached
      simp only [Bool.and_eq_true, decide_eq_true_eq] at hchecked
      simp only [cachedExpiry, hcached, if_true]
      cases listed cached.leases actualHash with
      | none => exact Nat.le_max_left _ _
      | some grant =>
        show max _ (min (cached.checkedUtc + kKillSwitchCheckSeconds) grant.validUntil) ≤ _
        have := hchecked.2
        omega
    · simp only [cachedExpiry, hcached]
      exact Nat.le_max_left _ _

/-- A list that does not answer decides as no list. -/
theorem evaluateKillSwitch_of_not_current {list : Leases} (h : ¬ Current list now) :
    evaluateKillSwitch exact ticket actualHash now (some list) cached revoked =
      evaluateKillSwitch exact ticket actualHash now none cached revoked := by
  have hnone : (some list).filter (fun list => decide (Current list now)) = none := by
    simp [Option.filter, h]
  simp only [evaluateKillSwitch, onlineAnswer_eq (exact_faithful 64), hnone]
  rfl

/-- Where the kill switch decides at all, the identity and the clock are in order. -/
theorem identity_of_evaluateKillSwitch {d : KillSwitchDecision}
    (h : evaluateKillSwitch exact ticket actualHash now online cached revoked = .ok d) :
    ticket.killSwitch = true ∧ identityError ticket actualHash now = none := by
  unfold evaluateKillSwitch at h
  split_ifs at h with hkind
  · cases hid : identityError ticket actualHash now with
    | some error =>
      rw [hid] at h
      cases h
    | none => exact ⟨by simpa using hkind, rfl⟩

/-- **What an admission is worth.**  As the machine computes it, `EvaluateKillSwitch`
admits only before a deadline that is at most three days after creation or one day
from now, and at most the host's grant where an online list decided; a malformed or
future-issued list decides as none does; and no operation wraps. -/
theorem evaluateKillSwitch_sound (ticket : Ticket) (actualHash : Bytes) (now : Nat)
    (online : Option Leases) (cached : Option CachedCheck) (revoked : Bool) :
    (∀ d : KillSwitchDecision,
      evaluateKillSwitch (wrapping 64) ticket actualHash now online cached revoked =
        Except.ok d → d.allowed = true →
      now < d.expiresUtc ∧ d.expiresUtc ≤ max (ticket.createdUtc + 259200) (now + 86400) ∧
        ∀ list, online = some list → modelValid list = true → list.issuedUtc ≤ now + 300 →
          ∃ grant ∈ list.grants, grant.hostSha256 = actualHash ∧ d.expiresUtc ≤ grant.validUntil) ∧
    (∀ list, modelValid list = false ∨ list.issuedUtc > now + 300 →
      evaluateKillSwitch (wrapping 64) ticket actualHash now (some list) cached revoked =
        evaluateKillSwitch (wrapping 64) ticket actualHash now none cached revoked) ∧
    evaluateKillSwitch (checked 64) ticket actualHash now online cached revoked =
      some (evaluateKillSwitch (wrapping 64) ticket actualHash now online cached revoked) ∧
    ∀ leases, evaluate (checked 64) ticket actualHash now leases =
      some (evaluate (wrapping 64) ticket actualHash now leases) := by
  have hwrap := fun online => evaluateKillSwitch_eq (wrapping_faithful 64) ticket actualHash now
    online cached revoked
  have hcheck := evaluateKillSwitch_eq (checked_faithful 64) ticket actualHash now online cached
    revoked
  refine ⟨fun d hd hallowed => ?_, fun list hlist => ?_, ?_, fun leases => ?_⟩
  · rw [hwrap online] at hd
    obtain ⟨hkind, hid⟩ := identity_of_evaluateKillSwitch hd
    have hrun : evaluateKillSwitch exact ticket actualHash now online cached revoked =
      Except.ok d := hd
    rw [evaluateKillSwitch_exact hkind hid] at hrun
    cases hanswer : online.filter fun list => decide (Current list now) with
    | some list =>
      simp only [hanswer] at hrun
      obtain ⟨honline, hcur⟩ := Option.filter_eq_some_iff.mp hanswer
      rcases onlineDecision_cases actualHash now list with ⟨grant, hlisted, hvalid, hdec⟩ |
        ⟨-, hdec⟩
      · rw [hdec] at hrun
        cases hrun
        obtain ⟨hmem, hhost⟩ := listed_eq_some hlisted
        refine ⟨by simp only [kKillSwitchCheckSeconds]; omega,
          by simp only [kKillSwitchCheckSeconds]; omega, fun list' hlist' _ _ => ?_⟩
        rw [honline, Option.some.injEq] at hlist'
        subst hlist'
        exact ⟨grant, hmem, hhost, Nat.min_le_right _ _⟩
      · rw [hdec] at hrun
        cases hrun
        cases hallowed
    | none =>
      simp only [hanswer] at hrun
      have hbound := offlineExpiry_le ticket actualHash now cached
      have hnone : ∀ list, online = some list → modelValid list = true →
          list.issuedUtc ≤ now + 300 → ∃ grant ∈ list.grants,
            grant.hostSha256 = actualHash ∧ d.expiresUtc ≤ grant.validUntil := by
        intro list hlist hmodel hissued
        have hcur : Current list now := ⟨hmodel, hissued⟩
        rw [hlist] at hanswer
        simp [Option.filter, hcur] at hanswer
      rcases offlineDecision_cases ticket actualHash now cached revoked with ⟨-, hdec⟩ |
        ⟨-, hlt, hdec⟩ | ⟨-, -, hdec⟩
      · rw [hdec] at hrun
        cases hrun
        cases hallowed
      · rw [hdec] at hrun
        cases hrun
        exact ⟨hlt, hbound, hnone⟩
      · rw [hdec] at hrun
        cases hrun
        cases hallowed
  · have hcur : ¬ Current list now := by
      rintro ⟨hmodel, hissued⟩
      rcases hlist with h | h
      · rw [h] at hmodel
        cases hmodel
      · omega
    rw [hwrap, hwrap, evaluateKillSwitch_of_not_current hcur]
  · rw [hcheck, hwrap online]
    rfl
  · rw [evaluate_eq (checked_faithful 64), evaluate_eq (wrapping_faithful 64)]
    rfl

end Decisions

end Mcla.Lease
