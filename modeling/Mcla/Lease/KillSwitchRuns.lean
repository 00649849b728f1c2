import Mcla.Lease.Check

/-! # The kill switch over a run of checks

`check_file` says once what a check can do to the record of a host: nothing, or
replace it by what a verified current list says of the host.  The rest follows from
it: a recorded withdrawal lasts until a list names the host again
(`killSwitch_sticky`), and a host that reads the launcher's record agrees with it
(`host_follows_launcher`).
-/
namespace Mcla.Lease
open MachineArith Option

section Runs
variable {crypto : Crypto} {publicKey : Bytes}

variable {ticket : Ticket} {input : CheckInput} {cache : Cache}

theorem clock_of_identity {hash : Bytes} {now : Nat} (h : identityInvalid ticket hash now = false) :
    ticket.hostSha256 = hash ∧ ticket.createdUtc ≤ now ∧ dateValid now = true := by
  simp only [identityInvalid, Bool.or_eq_false_iff, bne_eq_false_iff_eq,
    decide_eq_false_iff_not, Nat.not_lt] at h
  obtain ⟨⟨⟨hhost, hcreated⟩, hmin⟩, hmax⟩ := h
  exact ⟨hhost, hcreated, dateValid_iff.mpr ⟨hmin, hmax⟩⟩

theorem fields_of_parseTicket {envelope : Bytes}
    (h : parseTicket crypto envelope publicKey = .ok ticket) :
    hashValid ticket.hostSha256 = true ∧ dateValid ticket.createdUtc = true := by
  obtain ⟨payload, -, hticket⟩ := bind_ok.mp h
  obtain ⟨hhash, hdate, -⟩ := ticketOfPayload_iff.mp hticket
  exact ⟨hhash, hdate⟩

/-- A parsed ticket that passes the first tests passes those of the evaluation. -/
theorem identityError_of_identity {envelope : Bytes} {hash : Bytes} {now : Nat}
    (hparse : parseTicket crypto envelope publicKey = .ok ticket)
    (h : identityInvalid ticket hash now = false) : identityError ticket hash now = none := by
  obtain ⟨hhash, hdate⟩ := fields_of_parseTicket hparse
  obtain ⟨hhost, hcreated, hnow⟩ := clock_of_identity h
  exact identityError_eq_none.mpr ⟨hhash, hdate, hhost, hnow, hcreated⟩

theorem now_lt {hash : Bytes} {now : Nat} (h : identityInvalid ticket hash now = false) :
    now < 2 ^ 64 := by
  have := dateValid_lt (clock_of_identity h).2.2
  omega

/-- The check of a host with a kill switch that gets past the ticket. -/
structure Admitted (crypto : Crypto) (publicKey : Bytes) (ticket : Ticket)
    (input : CheckInput) : Prop where
  parsed : parseTicket crypto input.envelope publicKey = .ok ticket
  killSwitch : ticket.killSwitch = true
  identity : identityInvalid ticket input.hash input.now = false

theorem check_eq (h : Admitted crypto publicKey ticket input) (cache : Cache) :
    check crypto publicKey input cache = checkKillSwitch crypto publicKey ticket input cache := by
  unfold check
  simp only [h.parsed, h.killSwitch, h.identity, if_true, if_neg Bool.false_ne_true]

/-- The list that answers, if the check received one. -/
def answered (crypto : Crypto) (publicKey : Bytes) (input : CheckInput) (cache : Cache) :
    Option (Leases × Bytes) :=
  (received crypto publicKey input cache).filter fun answer => decide (Current answer.1 input.now)

/-- The decision of a check. -/
def decision (crypto : Crypto) (publicKey : Bytes) (ticket : Ticket) (input : CheckInput)
    (cache : Cache) : KillSwitchDecision :=
  match answered crypto publicKey input cache with
  | some answer => onlineDecision exact input.hash input.now answer.1
  | none =>
      let state := seenState crypto publicKey input cache
      offlineDecision exact ticket input.hash input.now state.check state.revoked

theorem answered_eq_some {answer : Leases × Bytes}
    (h : answered crypto publicKey input cache = some answer) :
    received crypto publicKey input cache = some answer ∧ Current answer.1 input.now := by
  obtain ⟨hreceived, hcurrent⟩ := filter_eq_some_iff.mp h
  exact ⟨hreceived, by simpa using hcurrent⟩

/-- **A check in closed form.** -/
theorem check_run (h : Admitted crypto publicKey ticket input) (cache : Cache) :
    check crypto publicKey input cache =
      ⟨finishKillSwitch crypto publicKey ticket input (asksServer crypto publicKey input cache)
          (decision crypto publicKey ticket input cache),
        recordDecision input cache (received crypto publicKey input cache)
          (decision crypto publicKey ticket input cache),
        asksServer crypto publicKey input cache⟩ := by
  have hid := identityError_of_identity h.parsed h.identity
  have hrun : evaluateKillSwitch (wrapping 64) ticket input.hash input.now
      ((received crypto publicKey input cache).map Prod.fst)
      (seenState crypto publicKey input cache).check
      (seenState crypto publicKey input cache).revoked =
        Except.ok (decision crypto publicKey ticket input cache) := by
    rw [evaluateKillSwitch_eq (wrapping_faithful 64)]
    show evaluateKillSwitch exact _ _ _ _ _ _ = _
    rw [evaluateKillSwitch_exact h.killSwitch hid]
    unfold decision answered
    cases received crypto publicKey input cache with
    | none => rfl
    | some answer =>
      rw [map_some, filter_some, filter_some]
      by_cases hcurrent : Current answer.1 input.now
      · rw [if_pos (decide_eq_true hcurrent)]
        simp only [if_pos (decide_eq_true hcurrent)]
      · rw [if_neg (by simpa using hcurrent)]
        simp only [if_neg (show ¬ decide (Current answer.1 input.now) = true by simpa using hcurrent)]
  rw [check_eq h]
  unfold checkKillSwitch
  simp only [hrun]

/-! ## What a check does to a record -/

theorem checkLease_killSwitchFile (ticket : Ticket) (input : CheckInput) (cache : Cache)
    (host : Bytes) :
    (checkLease crypto publicKey ticket input cache).cache (killSwitchFile host) =
      cache (killSwitchFile host) := by
  unfold checkLease
  by_cases hid : identityInvalid ticket input.hash input.now = true
  · rw [if_pos hid]
    cases evaluate (wrapping 64) ticket input.hash input.now none <;> rfl
  · rw [if_neg hid]
    cases leaseAnswer crypto publicKey ticket input cache with
    | none => rfl
    | some bytes =>
      simp only
      split_ifs
      · exact atomicWrite_other (leaseFile_ne_killSwitchFile _ _).symm
      · rfl

theorem recordDecision_cases (input : CheckInput) (cache : Cache)
    (answer : Option (Leases × Bytes)) (d : KillSwitchDecision) (host : Bytes) :
    recordDecision input cache answer d (killSwitchFile host) = cache (killSwitchFile host) ∨
      (input.hash = host ∧ input.locked = true ∧ input.writable = true ∧ d.cache ≠ .keep ∧
        recordDecision input cache answer d (killSwitchFile host) =
          some (killSwitchCacheRecord (d.cache = .revoke) input.now
            ((answer.map Prod.snd).getD []))) := by
  unfold recordDecision
  by_cases hwrite : (input.locked && decide (d.cache ≠ .keep)) = true
  · rw [if_pos hwrite]
    rw [Bool.and_eq_true, decide_eq_true_eq] at hwrite
    by_cases hhost : input.hash = host
    · subst hhost
      cases hwritable : input.writable with
      | false =>
        left
        rw [atomicWrite, hwritable, if_neg Bool.false_ne_true]
      | true =>
        refine .inr ⟨rfl, hwrite.1, rfl, hwrite.2, ?_⟩
        rw [atomicWrite, hwritable, if_pos rfl, Function.update_self]
    · exact .inl (atomicWrite_other fun h => hhost (killSwitchFile_inj h).symm)
  · rw [if_neg hwrite]
    exact .inl rfl

/-- What a check of a host may leave in its record: the answer, if the list grants the
host, or the withdrawal, if it does not. -/
inductive Recorded (input : CheckInput) (answer : Leases × Bytes) : Option Bytes → Prop where
  | confirmed {grant : Grant} (hlisted : listed answer.1 input.hash = some grant)
      (hvalid : input.now < grant.validUntil) :
      Recorded input answer (some (killSwitchCacheRecord false input.now answer.2))
  | withdrawn
      (hmissing : ∀ grant, listed answer.1 input.hash = some grant → grant.validUntil ≤ input.now) :
      Recorded input answer (some (killSwitchCacheRecord true input.now answer.2))

/-- **What a check can do to the record of a host.** -/
theorem check_file (input : CheckInput) (cache : Cache) (host : Bytes) :
    (check crypto publicKey input cache).cache (killSwitchFile host) = cache (killSwitchFile host) ∨
      ∃ ticket answer, Admitted crypto publicKey ticket input ∧ input.hash = host ∧
        answered crypto publicKey input cache = some answer ∧
        Recorded input answer
          ((check crypto publicKey input cache).cache (killSwitchFile host)) := by
  cases hparse : parseTicket crypto input.envelope publicKey with
  | error error =>
    left
    unfold check
    rw [hparse]
  | ok ticket =>
    by_cases hkind : ticket.killSwitch = true
    · by_cases hid : identityInvalid ticket input.hash input.now = true
      · left
        unfold check
        simp only [hparse, hkind, hid, if_true]
      · have hadmitted : Admitted crypto publicKey ticket input :=
          ⟨hparse, hkind, by simpa using hid⟩
        rw [check_run hadmitted]
        rcases recordDecision_cases input cache (received crypto publicKey input cache)
          (decision crypto publicKey ticket input cache) host with hkeep | ⟨rfl, -, -, hcache, hrec⟩
        · exact .inl hkeep
        · right
          refine ⟨ticket, ?_⟩
          cases hanswered : answered crypto publicKey input cache with
          | none =>
            -- without an answer the cache is kept
            exfalso
            apply hcache
            simp only [decision, hanswered]
            rcases offlineDecision_cases ticket input.hash input.now
              (seenState crypto publicKey input cache).check
              (seenState crypto publicKey input cache).revoked with
                ⟨-, h⟩ | ⟨-, -, h⟩ | ⟨-, -, h⟩ <;>
              rw [h]
          | some answer =>
            refine ⟨answer, hadmitted, rfl, rfl, ?_⟩
            show Recorded input answer (recordDecision _ _ _ _ _)
            rw [hrec, (answered_eq_some hanswered).1]
            have hdecision : decision crypto publicKey ticket input cache =
                onlineDecision exact input.hash input.now answer.1 := by
              simp only [decision, hanswered]
            rw [hdecision]
            rcases onlineDecision_cases input.hash input.now answer.1 with
              ⟨grant, hlisted, hvalid, hdec⟩ | ⟨hmissing, hdec⟩
            · rw [hdec]
              exact .confirmed hlisted hvalid
            · rw [hdec]
              exact .withdrawn hmissing
    · left
      unfold check
      simp only [hparse, if_neg hkind]
      exact checkLease_killSwitchFile ticket input cache host

/-! ## A withdrawal lasts -/

/-- The record of the host says that it was withdrawn. -/
def Withdrawn (host : Bytes) (cache : Cache) : Prop :=
  ∃ utc envelope, utc < 2 ^ 64 ∧
    cache (killSwitchFile host) = some (killSwitchCacheRecord true utc envelope)

/-- The check receives a verified list that names its host. -/
def Names (crypto : Crypto) (publicKey : Bytes) (input : CheckInput) (cache : Cache) : Prop :=
  ∃ ticket answer, Admitted crypto publicKey ticket input ∧
    received crypto publicKey input cache = some answer ∧
    ∃ grant ∈ answer.1.grants, grant.hostSha256 = input.hash

theorem withdrawn_step {host : Bytes} (h : Withdrawn host cache)
    (hnames : input.hash = host → ¬ Names crypto publicKey input cache) :
    Withdrawn host (check crypto publicKey input cache).cache := by
  rcases @check_file crypto publicKey input cache host with
    hsame | ⟨ticket, answer, hadmitted, hhost, hanswered, hrec⟩
  · unfold Withdrawn
    rwa [hsame]
  · have hnow := now_lt hadmitted.identity
    unfold Withdrawn
    generalize (check crypto publicKey input cache).cache (killSwitchFile host) = file at hrec ⊢
    cases hrec with
    | confirmed hlisted _ =>
      obtain ⟨hmem, hname⟩ := listed_eq_some hlisted
      exact absurd ⟨ticket, answer, hadmitted, (answered_eq_some hanswered).1, _, hmem, hname⟩
        (hnames hhost)
    | withdrawn _ => exact ⟨input.now, answer.2, hnow, rfl⟩

/-- The withdrawal lasts through every run without a list that names the host. -/
theorem withdrawn_run {host : Bytes} {inputs : List CheckInput} (h : Withdrawn host cache)
    (hnames : ∀ before input after, inputs = before ++ input :: after → input.hash = host →
      ¬ Names crypto publicKey input (runChecks crypto publicKey cache before)) :
    Withdrawn host (runChecks crypto publicKey cache inputs) := by
  induction inputs generalizing cache with
  | nil => exact h
  | cons input rest ih =>
    refine ih (withdrawn_step h fun hhost => ?_) fun before next after heq hhost => ?_
    · exact hnames [] input rest rfl hhost
    · exact hnames (input :: before) next after (by rw [heq]; rfl) hhost

theorem record_parts {crypto : Crypto} {publicKey : Bytes} {answer : Leases × Bytes}
    (h : received crypto publicKey input cache = some answer) :
    parseLeases crypto answer.2 publicKey = .ok answer.1 := by
  unfold received download at h
  split_ifs at h
  cases hanswer : input.answer with
  | none =>
    rw [hanswer] at h
    cases h
  | some bytes =>
    simp only [hanswer] at h
    cases hleases : parseLeases crypto bytes publicKey with
    | error error =>
      rw [hleases] at h
      cases h
    | ok leases =>
      simp only [hleases] at h
      cases h
      exact hleases

theorem killSwitchCacheRecord_revoked (utc : Nat) (envelope other : Bytes) :
    killSwitchCacheRecord true utc envelope = killSwitchCacheRecord true utc other := rfl

/-- A check that reads the cache sees the withdrawal. -/
theorem seenState_withdrawn (h : Withdrawn input.hash cache) (hreads : input.reads = true)
    (hreadable : input.readable = true) :
    seenState crypto publicKey input cache = ⟨none, true⟩ := by
  obtain ⟨utc, envelope, hutc, hfile⟩ := h
  rw [killSwitchCacheRecord_revoked utc envelope []] at hfile
  have hlength := @killSwitchCacheRecord_length true utc hutc [] (Nat.zero_le _)
  unfold seenState readKillSwitchCache readFile
  rw [if_pos hreads, if_pos hreadable, hfile, filter_some, if_pos (decide_eq_true hlength)]
  exact killSwitchCacheState_revoked hutc []

/-- **The kill switch is sticky.**  Once a check that holds the writer lock and can
write received a current list that does not grant the host, every later check of the
host that reads the cache and gets no verified list is refused, until a check of the
host receives a verified list that names it. -/
theorem killSwitch_sticky {first later : CheckInput} {between : List CheckInput} {cache : Cache}
    {ticket laterTicket : Ticket} {answer : Leases × Bytes}
    (hfirst : Admitted crypto publicKey ticket first)
    (hanswer : received crypto publicKey first cache = some answer)
    (hcurrent : Current answer.1 first.now)
    (hmissing : ∀ grant, listed answer.1 first.hash = some grant → grant.validUntil ≤ first.now)
    (hlocked : first.locked = true) (hwritable : first.writable = true)
    (hbetween : ∀ before input after, between = before ++ input :: after →
      input.hash = first.hash → ¬ Names crypto publicKey input
        (runChecks crypto publicKey (check crypto publicKey first cache).cache before))
    (hlater : parseTicket crypto later.envelope publicKey = .ok laterTicket)
    (hkind : laterTicket.killSwitch = true) (hhost : later.hash = first.hash)
    (hreads : later.reads = true) (hreadable : later.readable = true)
    (huntrusted : download crypto publicKey later = none) :
    ∃ error, (check crypto publicKey later
      (runChecks crypto publicKey (check crypto publicKey first cache).cache between)).result =
        .error error := by
  have hdecision : decision crypto publicKey ticket first cache =
      ⟨false, 0, .revoke, withdrawn⟩ := by
    have hanswered : answered crypto publicKey first cache = some answer := by
      rw [answered, hanswer, filter_some, if_pos (decide_eq_true hcurrent)]
    simp only [decision, hanswered]
    rcases onlineDecision_cases first.hash first.now answer.1 with
      ⟨grant, hlisted, hvalid, -⟩ | ⟨-, hdec⟩
    · exact absurd (hmissing grant hlisted) (Nat.not_le_of_lt hvalid)
    · exact hdec
  have hrecorded : Withdrawn first.hash (check crypto publicKey first cache).cache := by
    refine ⟨first.now, answer.2, now_lt hfirst.identity, ?_⟩
    rw [check_run hfirst, hdecision, hanswer]
    unfold recordDecision atomicWrite
    simp [hlocked, hwritable]
  have hsticky := withdrawn_run hrecorded hbetween
  generalize runChecks crypto publicKey _ between = after at hsticky ⊢
  cases hid : identityInvalid laterTicket later.hash later.now with
  | true =>
    unfold check
    simp only [hlater, hkind, hid, if_true]
    exact ⟨_, rfl⟩
  | false =>
    have hadmitted : Admitted crypto publicKey laterTicket later := ⟨hlater, hkind, hid⟩
    have hnone : answered crypto publicKey later after = none := by
      rw [answered, received, huntrusted, ite_self, filter_none]
    have hstate : seenState crypto publicKey later after = ⟨none, true⟩ :=
      seenState_withdrawn (hhost ▸ hsticky) hreads hreadable
    have hrefused : decision crypto publicKey laterTicket later after =
        ⟨false, 0, .keep, withdrawn⟩ := by
      simp only [decision, hnone, hstate]
      rfl
    rw [check_run hadmitted, hrefused]
    unfold finishKillSwitch
    by_cases hclock : (later.completed < later.now || later.completed > 4102444800) = true
    · exact ⟨clockChanged, if_pos hclock⟩
    · exact ⟨withdrawn, if_neg hclock⟩

end Runs

/-- A check without an answer receives no list. -/
theorem not_names_of_answer_eq_none {crypto : Crypto} {publicKey : Bytes} {input : CheckInput}
    {cache : Cache} (h : input.answer = none) : ¬ Names crypto publicKey input cache := by
  rintro ⟨ticket, answer, -, hreceived, -⟩
  unfold received download at hreceived
  rw [h, ite_self] at hreceived
  cases hreceived

/-- The recorded withdrawal of the sample host outlasts a check that finds the cache busy. -/
theorem killSwitch_sticky_sample :
    ∃ error, (check acceptingCrypto sampleKey (sampleCheck true 1600000200 none)
      (runChecks acceptingCrypto sampleKey
        (check acceptingCrypto sampleKey (sampleCheck true 1600000100 (some (sampleLeases [])))
          fun _ => none).cache
        [{ sampleCheck true 1600000150 none with lockFree := false }])).result = .error error := by
  refine @killSwitch_sticky acceptingCrypto sampleKey _ _ _ _ ⟨sampleHash, 1600000000, true, 0⟩
    ⟨sampleHash, 1600000000, true, 0⟩ (⟨1600000000, []⟩, sampleLeases [])
    ⟨by decide +kernel, rfl, by decide +kernel⟩ (by decide +kernel) (by decide +kernel)
    (fun grant h => by cases h) (by decide +kernel) rfl (fun before input after heq _ => ?_)
    (by decide +kernel) rfl rfl (by decide +kernel) rfl rfl
  apply not_names_of_answer_eq_none
  cases before with
  | nil =>
    cases heq
    rfl
  | cons first rest =>
    have hlength := congrArg List.length heq
    simp at hlength

/-- A withdrawal that finds the writer lock busy is not recorded, and the next check
without a network admits the build on its offline allowance. -/
theorem withdrawal_lost :
    let first := { sampleCheck true 1600000100 (some (sampleLeases [])) with lockFree := false }
    let after := (check acceptingCrypto sampleKey first fun _ => none).cache
    received acceptingCrypto sampleKey first (fun _ => none) =
        some (⟨1600000000, []⟩, sampleLeases []) ∧
      Current ⟨1600000000, []⟩ 1600000100 ∧
      (check acceptingCrypto sampleKey first fun _ => none).result = .error withdrawn ∧
      (check acceptingCrypto sampleKey (sampleCheck true 1600000200 none) after).result.isOk =
        true := by
  decide +kernel

/-! ## When a check asks the server -/

section Asking
variable {crypto : Crypto} {publicKey : Bytes}

/-- Neither the ticket's allowance nor the cached check reaches past `completed`. -/
def Lapsed (ticket : Ticket) (hash : Bytes) (completed : Nat) (check : CachedCheck) : Prop :=
  ticket.createdUtc + 259200 ≤ completed ∧
    ∀ grant, listed check.leases hash = some grant → dateValid check.checkedUtc = true →
      completed < check.checkedUtc + 86400 → grant.validUntil ≤ completed

/-- A host follows a cached check that is recent and yet confirms nothing any more. -/
structure FollowsLapsed (crypto : Crypto) (publicKey : Bytes) (ticket : Ticket)
    (input : CheckInput) (cache : Cache) : Prop where
  preferCached : input.preferCached = true
  identity : identityInvalid ticket input.hash input.now = false
  clock : input.now ≤ input.completed ∧ input.completed ≤ 4102444800
  lapsed : ∃ check, seenState crypto publicKey input cache = ⟨some check, false⟩ ∧
    check.checkedUtc ≤ input.now ∧ input.now < check.checkedUtc + 86400 ∧
    Lapsed ticket input.hash input.completed check

theorem killSwitchCacheState_valid {text : Bytes} {check : CachedCheck}
    (h : (killSwitchCacheState crypto publicKey text).check = some check) :
    modelValid check.leases = true := by
  unfold killSwitchCacheState at h
  split_ifs at h with hheader
  cases hline : line (text.drop kKillSwitchCacheHeader.length) with
  | none =>
    rw [hline] at h
    cases h
  | some lines =>
    obtain ⟨first, rest⟩ := lines
    simp only [hline] at h
    split_ifs at h
    cases hutc : decimal (first.drop 8) with
    | none =>
      rw [hutc] at h
      cases h
    | some utc =>
      cases hleases : parseLeases crypto rest publicKey with
      | error error =>
        rw [hutc, hleases] at h
        cases h
      | ok leases =>
        rw [hutc, hleases] at h
        cases h
        exact modelValid_of_parseLeases hleases

theorem seenState_valid {input : CheckInput} {cache : Cache} {check : CachedCheck}
    (h : (seenState crypto publicKey input cache).check = some check) :
    modelValid check.leases = true := by
  unfold seenState readKillSwitchCache at h
  split_ifs at h
  cases hfile : readFile input cache (killSwitchFile input.hash) (kMaximumEnvelopeBytes + 128) with
  | none =>
    rw [hfile] at h
    cases h
  | some bytes =>
    simp only [hfile] at h
    exact killSwitchCacheState_valid h

theorem offlineExpiry_le_iff {ticket : Ticket} {hash : Bytes} {now completed : Nat}
    {check : CachedCheck} (hmodel : modelValid check.leases = true)
    (hchecked : check.checkedUtc ≤ now) :
    offlineExpiry ticket hash now (some check) ≤ completed ↔
      Lapsed ticket hash completed check := by
  have hcached : cachedExpiry exact hash now (ticket.createdUtc + 259200) (some check) =
      offlineExpiry ticket hash now (some check) := rfl
  rw [← hcached]
  unfold Lapsed cachedExpiry
  simp only [hmodel, hchecked, decide_true, Bool.true_and, Bool.and_true]
  by_cases hdate : dateValid check.checkedUtc = true
  · rw [if_pos hdate]
    cases listed check.leases hash with
    | none => simp [pure]
    | some grant =>
      show max (ticket.createdUtc + 259200) (min (check.checkedUtc + 86400) grant.validUntil) ≤
        completed ↔ _
      simp only [Option.some.injEq, forall_eq', hdate, true_implies]
      omega
  · rw [if_neg hdate]
    simp [hdate, pure]

theorem fresh_iff {state : KillSwitchCacheState} {now : Nat} :
    fresh state now = true ↔ ∃ check, state = ⟨some check, false⟩ ∧ check.checkedUtc ≤ now ∧
      now < check.checkedUtc + 86400 := by
  obtain ⟨cached, revoked⟩ := state
  cases cached with
  | none => simp [fresh]
  | some check =>
    simp only [fresh, kKillSwitchCheckSeconds, Bool.and_eq_true, Bool.not_eq_true',
      decide_eq_true_eq, KillSwitchCacheState.mk.injEq, Option.some.injEq]
    constructor
    · rintro ⟨⟨hrevoked, hle⟩, hlt⟩
      have hage := of_decide_eq_true hlt
      exact ⟨check, ⟨rfl, hrevoked⟩, hle, by omega⟩
    · rintro ⟨_, ⟨rfl, hrevoked⟩, hle, hlt⟩
      have hage : now - check.checkedUtc < 86400 := by omega
      exact ⟨⟨hrevoked, hle⟩, decide_eq_true hage⟩

/-- The end of a check without an answer and with an unrevoked state. -/
theorem finish_offline {ticket : Ticket} {input : CheckInput} {fetched : Bool}
    {cached : Option CachedCheck} :
    finishKillSwitch crypto publicKey ticket input fetched
        (offlineDecision exact ticket input.hash input.now cached false) = .error buildCheckNeeded ↔
      (input.now ≤ input.completed ∧ input.completed ≤ 4102444800) ∧
        offlineExpiry ticket input.hash input.now cached ≤ input.completed := by
  have hclockText : clockChanged ≠ buildCheckNeeded := by decide
  unfold finishKillSwitch
  by_cases hclock : (input.completed < input.now || input.completed > 4102444800) = true
  · rw [if_pos hclock]
    rw [Bool.or_eq_true, decide_eq_true_eq, decide_eq_true_eq] at hclock
    constructor
    · intro h
      exact absurd (Except.error.inj h) hclockText
    · rintro ⟨⟨h₁, h₂⟩, -⟩
      omega
  · rw [if_neg hclock]
    rw [Bool.or_eq_true, decide_eq_true_eq, decide_eq_true_eq] at hclock
    rcases offlineDecision_cases ticket input.hash input.now cached false with
      ⟨h, -⟩ | ⟨-, hlt, hdec⟩ | ⟨-, hle, hdec⟩
    · cases h
    · rw [hdec]
      simp only [Bool.not_true, if_neg Bool.false_ne_true]
      split_ifs with hexpired
      · exact iff_of_true rfl ⟨by omega, hexpired⟩
      · refine iff_of_false (fun h => by cases h) fun h => hexpired h.2
    · rw [hdec]
      exact iff_of_true rfl ⟨by omega, by omega⟩

/-- **When a refusal for want of a confirmation has asked the server**: always, but for
a host that follows a recent cached check whose grant has lapsed. -/
theorem asks_server_iff {ticket : Ticket} {input : CheckInput} (cache : Cache)
    (hparse : parseTicket crypto input.envelope publicKey = .ok ticket)
    (hkind : ticket.killSwitch = true) :
    ((check crypto publicKey input cache).result = .error buildCheckNeeded →
        (check crypto publicKey input cache).fetched = true) ↔
      ¬ FollowsLapsed crypto publicKey ticket input cache := by
  cases hid : identityInvalid ticket input.hash input.now with
  | true =>
    refine iff_of_true (fun h => ?_) fun h => ?_
    · unfold check at h
      simp only [hparse, hkind, hid, if_true] at h
      exact absurd (Except.error.inj h) (by decide)
    · rw [h.identity] at hid
      cases hid
  | false =>
    rw [check_run ⟨hparse, hkind, hid⟩]
    cases hasks : asksServer crypto publicKey input cache with
    | true =>
      refine iff_of_true (fun _ => rfl) fun h => ?_
      obtain ⟨check, hstate, hle, hlt, -⟩ := h.lapsed
      have hfresh := fresh_iff.mpr ⟨check, hstate, hle, hlt⟩
      rw [asksServer, h.preferCached, hfresh] at hasks
      cases hasks
    | false =>
      have hboth : input.preferCached = true ∧
          fresh (seenState crypto publicKey input cache) input.now = true := by
        simpa [asksServer] using hasks
      obtain ⟨check, hstate, hle, hlt⟩ := fresh_iff.mp hboth.2
      have hvalid : modelValid check.leases = true := seenState_valid (by rw [hstate])
      have hnone : answered crypto publicKey input cache = none := by
        rw [answered, received, hasks, if_neg Bool.false_ne_true, filter_none]
      have hdecision : decision crypto publicKey ticket input cache =
          offlineDecision exact ticket input.hash input.now (some check) false := by
        simp only [decision, hnone, hstate]
      have hlapsed : finishKillSwitch crypto publicKey ticket input false
          (offlineDecision exact ticket input.hash input.now (some check) false) =
            .error buildCheckNeeded ↔
          (input.now ≤ input.completed ∧ input.completed ≤ 4102444800) ∧
            Lapsed ticket input.hash input.completed check :=
        finish_offline.trans (and_congr_right fun _ => offlineExpiry_le_iff hvalid hle)
      rw [hdecision]
      constructor
      · intro h hfollows
        obtain ⟨check', hstate', -, -, hlapsed'⟩ := hfollows.lapsed
        rw [hstate] at hstate'
        cases hstate'
        exact Bool.false_ne_true (h (hlapsed.mpr ⟨hfollows.clock, hlapsed'⟩))
      · intro h hrefused
        obtain ⟨hclock, hlapsed'⟩ := hlapsed.mp hrefused
        exact absurd ⟨hboth.1, hid, hclock, check, hstate, hle, hlt, hlapsed'⟩ h

end Asking

/-- The cache of the sample host with a check at 1600290000. -/
def sampleCache (untils : List Nat) : Cache := fun filename =>
  if filename = killSwitchFile sampleHash then
    some (killSwitchCacheRecord false 1600290000 (sampleLeases untils))
  else none

/-- The sample host is refused for want of a confirmation, and has asked: its cached grant has
ended, and it does not follow the cache. -/
theorem asks_server_iff_sample :
    let asking := sampleCheck true 1600300100 none
    let cache := sampleCache [1600300000]
    (check acceptingCrypto sampleKey asking cache).result = .error buildCheckNeeded ∧
      (check acceptingCrypto sampleKey asking cache).fetched = true := by
  intro asking cache
  have hrefused : (check acceptingCrypto sampleKey asking cache).result =
      .error buildCheckNeeded := by
    decide +kernel
  have hasks := @asks_server_iff acceptingCrypto sampleKey ⟨sampleHash, 1600000000, true, 0⟩
    asking cache (by decide +kernel) rfl
  exact ⟨hrefused, hasks.mpr (fun h => absurd h.preferCached (by decide)) hrefused⟩

/-- A host follows a check of three hours ago whose grant ended a moment ago: it is
refused without asking, while a check that asks is admitted. -/
theorem refused_without_asking :
    let asking := sampleCheck true 1600300100 (some (sampleLeases [1600400000]))
    let following := { asking with preferCached := true }
    let cache := sampleCache [1600300000]
    (check acceptingCrypto sampleKey following cache).result = .error buildCheckNeeded ∧
      (check acceptingCrypto sampleKey following cache).fetched = false ∧
      (check acceptingCrypto sampleKey asking cache).result.isOk = true := by
  decide +kernel

/-! ## The host follows the launcher -/

section Following
variable {crypto : Crypto} {publicKey : Bytes}

theorem dateValid_of_mem {previous : Bytes} {grants : List Grant}
    (h : modelValidFrom previous grants = true) {grant : Grant} (hmem : grant ∈ grants) :
    dateValid grant.validUntil = true := by
  induction grants generalizing previous with
  | nil => cases hmem
  | cons first rest ih =>
    obtain ⟨-, hdate, -, hrest⟩ := modelValidFrom_cons.mp h
    rcases List.mem_cons.mp hmem with rfl | hmem
    · exact hdate
    · exact ih hrest hmem

/-- What an admission by a list is worth, and what it leaves in the cache. -/
theorem admitted_by_list {ticket : Ticket} {input : CheckInput} {cache : Cache}
    {answer : Leases × Bytes} {admission : Admission} (h : Admitted crypto publicKey ticket input)
    (hanswer : answered crypto publicKey input cache = some answer) (hlocked : input.locked = true)
    (hwritable : input.writable = true)
    (hresult : (check crypto publicKey input cache).result = .ok admission) :
    ∃ grant, listed answer.1 input.hash = some grant ∧
      admission.expiresUtc = min (input.now + 86400) grant.validUntil ∧
      (check crypto publicKey input cache).cache (killSwitchFile input.hash) =
        some (killSwitchCacheRecord false input.now answer.2) := by
  have hdecision : decision crypto publicKey ticket input cache =
      onlineDecision exact input.hash input.now answer.1 := by
    simp only [decision, hanswer]
  rw [check_run h, hdecision] at hresult ⊢
  rw [(answered_eq_some hanswer).1]
  rcases onlineDecision_cases input.hash input.now answer.1 with
    ⟨grant, hlisted, -, hdec⟩ | ⟨-, hdec⟩
  · rw [hdec] at hresult ⊢
    refine ⟨grant, hlisted, ?_, ?_⟩
    · simp only [finishKillSwitch] at hresult
      split_ifs at hresult
      cases hresult
      rfl
    · unfold recordDecision atomicWrite
      simp [hlocked, hwritable]
  · rw [hdec] at hresult
    simp only [finishKillSwitch, Bool.not_false, if_true] at hresult
    split_ifs at hresult

/-- **The host follows the launcher.**  After a check that was admitted by a list and
stored it, a host that reads the record and finishes before the reported expiry is
admitted without a network, for at least as long. -/
theorem host_follows_launcher {launcher host : CheckInput} {cache later : Cache}
    {ticket : Ticket} {answer : Leases × Bytes} {admission : Admission}
    (hlauncher : Admitted crypto publicKey ticket launcher)
    (hanswer : answered crypto publicKey launcher cache = some answer)
    (hlocked : launcher.locked = true) (hwritable : launcher.writable = true)
    (hresult : (check crypto publicKey launcher cache).result = .ok admission)
    (henvelope : host.envelope = launcher.envelope) (hhash : host.hash = launcher.hash)
    (hoffline : host.answer = none)
    (hfile : later (killSwitchFile host.hash) =
      (check crypto publicKey launcher cache).cache (killSwitchFile host.hash))
    (hreads : host.reads = true) (hreadable : host.readable = true)
    (hnow : launcher.now ≤ host.now) (hclock : host.now ≤ host.completed)
    (hcompleted : host.completed < admission.expiresUtc) :
    ∃ again, (check crypto publicKey host later).result = .ok again ∧
      admission.expiresUtc ≤ again.expiresUtc := by
  obtain ⟨grant, hlisted, hexpires, hrecord⟩ :=
    admitted_by_list hlauncher hanswer hlocked hwritable hresult
  obtain ⟨hreceived, hcurrent⟩ := answered_eq_some hanswer
  obtain ⟨hhost, hcreated, hlaunched⟩ := clock_of_identity hlauncher.identity
  have hmodel := hcurrent.1
  have huntil := (dateValid_iff.mp (dateValid_of_mem (modelValid_iff.mp hmodel).2.2
    (listed_eq_some hlisted).1)).2
  have hmin := (dateValid_iff.mp hlaunched).1
  unfold kMaximumUtc at huntil
  unfold kMinimumUtc at hmin
  have hidentity : identityInvalid ticket host.hash host.now = false := by
    simp only [identityInvalid, hhash, hhost, bne_self_eq_false, Bool.false_or,
      Bool.or_eq_false_iff, decide_eq_false_iff_not]
    omega
  have hadmitted : Admitted crypto publicKey ticket host :=
    ⟨henvelope ▸ hlauncher.parsed, hlauncher.killSwitch, hidentity⟩
  -- the record is read back as the launcher's check
  have hparts := record_parts hreceived
  have hstate : seenState crypto publicKey host later = ⟨some ⟨answer.1, launcher.now⟩, false⟩ := by
    have hutc := now_lt hlauncher.identity
    have hlength := killSwitchCacheRecord_length false hutc (length_le_of_parseLeases hparts)
    rw [hhash, hrecord] at hfile
    unfold seenState readKillSwitchCache readFile
    rw [if_pos hreads, if_pos hreadable, hhash, hfile, filter_some,
      if_pos (decide_eq_true hlength)]
    exact killSwitchCacheState_checked hutc hparts
  have hnone : answered crypto publicKey host later = none := by
    unfold answered received download
    rw [hoffline, ite_self, filter_none]
  have hdecision : decision crypto publicKey ticket host later =
      offlineDecision exact ticket host.hash host.now (some ⟨answer.1, launcher.now⟩) false := by
    simp only [decision, hnone, hstate]
  -- its deadline is not before the launcher's
  have hdeadline : admission.expiresUtc ≤
      offlineExpiry ticket host.hash host.now (some ⟨answer.1, launcher.now⟩) := by
    by_contra hlt
    have hlapsed : Lapsed ticket host.hash (admission.expiresUtc - 1) ⟨answer.1, launcher.now⟩ :=
      (offlineExpiry_le_iff hmodel hnow).mp (Nat.le_sub_one_of_lt (Nat.lt_of_not_le hlt))
    have hday : admission.expiresUtc - 1 < launcher.now + 86400 := by omega
    have := hlapsed.2 grant (hhash ▸ hlisted) hlaunched hday
    omega
  rw [check_run hadmitted, hdecision]
  rcases offlineDecision_cases ticket host.hash host.now (some ⟨answer.1, launcher.now⟩) false with
    ⟨h, -⟩ | ⟨-, -, hdec⟩ | ⟨-, hle, -⟩
  · cases h
  · rw [hdec]
    have hopen : (host.completed < host.now || host.completed > 4102444800) = false := by
      simp only [Bool.or_eq_false_iff, decide_eq_false_iff_not]
      omega
    have hbefore : ¬ host.completed ≥
        offlineExpiry ticket host.hash host.now (some ⟨answer.1, launcher.now⟩) := by
      omega
    simp only [finishKillSwitch, hopen, Bool.not_true, if_neg Bool.false_ne_true, if_neg hbefore]
    exact ⟨_, rfl, hdeadline⟩
  · omega

end Following

/-- The launcher's check of the sample host at 1600300000, with a network. -/
def sampleLauncher : CheckInput := sampleCheck true 1600300000 (some (sampleLeases [1600400000]))

/-- The sample host eight minutes later, without one. -/
def sampleHost : CheckInput := { sampleCheck true 1600300500 none with preferCached := true }

/-- The sample host follows the launcher. -/
theorem host_follows_launcher_sample :
    ∃ again, (check acceptingCrypto sampleKey sampleHost
        (check acceptingCrypto sampleKey sampleLauncher fun _ => none).cache).result = .ok again ∧
      1600386400 ≤ again.expiresUtc :=
  @host_follows_launcher acceptingCrypto sampleKey sampleLauncher sampleHost _ _
    ⟨sampleHash, 1600000000, true, 0⟩
    (⟨1600000000, [⟨sampleHash, 1600400000⟩]⟩, sampleLeases [1600400000]) ⟨1600386400, true, ""⟩
    ⟨by decide +kernel, rfl, by decide +kernel⟩ (by decide +kernel) rfl rfl (by decide +kernel)
    rfl rfl rfl rfl rfl rfl (by decide +kernel) (by decide +kernel) (by decide +kernel)

/-- The same host refuses where it finds the cache busy. -/
theorem host_refuses_busy :
    let after := (check acceptingCrypto sampleKey sampleLauncher fun _ => none).cache
    (check acceptingCrypto sampleKey sampleLauncher fun _ => none).result =
        .ok ⟨1600386400, true, ""⟩ ∧
      after (killSwitchFile sampleHash) =
        some (killSwitchCacheRecord false 1600300000 (sampleLeases [1600400000])) ∧
      (check acceptingCrypto sampleKey { sampleHost with lockFree := false } after).result =
        .error buildCheckNeeded := by
  decide +kernel

end Mcla.Lease
