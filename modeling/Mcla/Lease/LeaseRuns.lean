import Mcla.Lease.KillSwitchRuns

/-! # Lease extensions over a run of checks

A check without a kill switch keeps the best expiry it knows: its admission is worth
the largest of the built-in, the cached and the downloaded expiry, and it replaces the
cached list only by one that is worth more (`lease_file`).  Over a run whose clock does not go back the cached expiry
therefore only grows (`held_run`).
-/
namespace Mcla.Lease
open MachineArith List Option

section Expiry
variable {crypto : Crypto} {publicKey : Bytes} {ticket : Ticket} {hash : Bytes} {now : Nat}

theorem better_eq (best : Nat) (candidate : Option Nat) :
    better best candidate = max best (candidate.getD 0) := by
  cases candidate with
  | none => exact (Nat.max_eq_left (Nat.zero_le best)).symm
  | some valid =>
    show (if valid > best then valid else best) = max best valid
    split_ifs <;> omega

theorem extended_eq (actualHash : Bytes) (expiry : Nat) (grants : List Grant) :
    extended actualHash expiry grants = max expiry (extended actualHash 0 grants) := by
  induction grants generalizing expiry with
  | nil => exact (Nat.max_eq_left (Nat.zero_le expiry)).symm
  | cons grant rest ih =>
    show extended actualHash (if grant.hostSha256 = actualHash then _ else _) rest =
      max expiry (extended actualHash (if grant.hostSha256 = actualHash then _ else _) rest)
    rw [ih, ih (if grant.hostSha256 = actualHash then max 0 grant.validUntil else 0)]
    split_ifs <;> omega

theorem builtIn_eq (h : dateValid ticket.createdUtc = true) :
    builtIn ticket = ticket.createdUtc + 1209600 := by
  have := dateValid_lt h
  unfold builtIn
  omega

/-- The evaluation of a valid list. -/
theorem evaluate_exact {leases : Leases} (hkind : ticket.killSwitch = false)
    (hid : identityError ticket hash now = none) (hmodel : modelValid leases = true) :
    evaluate exact ticket hash now (some leases) =
      if leases.issuedUtc > now + 300 then
        Except.error "Clock error: signed build leases were issued more than 300 seconds in the future"
      else admitBefore now (extended hash (ticket.createdUtc + 1209600) leases.grants) := by
  simp only [evaluate, hkind, hid, hmodel, if_neg Bool.false_ne_true, Bool.not_true,
    issuedInFuture_eq (exact_faithful 64) now (modelValid_iff.mp hmodel).1, pure_bind,
    decide_eq_true_eq]
  rfl

/-- **What a signed text is good for.** -/
theorem usable_iff {bytes : Bytes} {value : Nat} :
    usable crypto publicKey ticket hash now bytes = some value ↔
      ∃ leases, parseLeases crypto bytes publicKey = .ok leases ∧ ticket.killSwitch = false ∧
        identityError ticket hash now = none ∧ leases.issuedUtc ≤ now + 300 ∧
        value = max (ticket.createdUtc + 1209600) (extended hash 0 leases.grants) ∧
        now < value := by
  unfold usable
  cases hparse : parseLeases crypto bytes publicKey with
  | error error => simp
  | ok leases =>
    have hmodel := modelValid_of_parseLeases hparse
    have hrun : evaluate (wrapping 64) ticket hash now (some leases) =
        evaluate exact ticket hash now (some leases) :=
      evaluate_eq (wrapping_faithful 64) ticket hash now (some leases)
    simp only [Except.ok.injEq, exists_eq_left']
    rw [hrun]
    cases hkind : ticket.killSwitch with
    | true =>
      have herror : evaluate exact ticket hash now (some leases) =
          Except.error "Kill-switch build ticket requires kill-switch admission" := by
        simp only [evaluate, hkind, if_true]
        rfl
      rw [herror]
      simp [Except.toOption]
    | false =>
      cases hid : identityError ticket hash now with
      | some error =>
        have herror : evaluate exact ticket hash now (some leases) = Except.error error := by
          simp only [evaluate, hkind, hid, if_neg Bool.false_ne_true]
          rfl
        rw [herror]
        simp [Except.toOption]
      | none =>
        rw [evaluate_exact hkind hid hmodel, extended_eq]
        unfold admitBefore
        split_ifs with hlate hexpired
        · simp only [Except.toOption, reduceCtorEq, false_iff]
          rintro ⟨-, -, hissued, -⟩
          omega
        · simp only [Except.toOption, reduceCtorEq, false_iff]
          rintro ⟨-, -, -, rfl, hlt⟩
          omega
        · simp only [Except.toOption, Option.some.injEq, true_and]
          constructor
          · rintro rfl
            exact ⟨by omega, rfl, by omega⟩
          · rintro ⟨-, rfl, -⟩
            rfl

end Expiry

/-! ## One check -/

section Step
variable {crypto : Crypto} {publicKey : Bytes}

/-- The check of a host without a kill switch that gets past the ticket. -/
structure Leased (crypto : Crypto) (publicKey : Bytes) (ticket : Ticket)
    (input : CheckInput) : Prop where
  parsed : parseTicket crypto input.envelope publicKey = .ok ticket
  lease : ticket.killSwitch = false
  identity : identityInvalid ticket input.hash input.now = false

/-- The expiry of the downloaded text. -/
def downloadedUsable (crypto : Crypto) (publicKey : Bytes) (ticket : Ticket) (input : CheckInput)
    (cache : Cache) : Option Nat :=
  (leaseAnswer crypto publicKey ticket input cache).bind
    (usable crypto publicKey ticket input.hash input.now)

/-- The best expiry that a check knows. -/
def bestExpiry (crypto : Crypto) (publicKey : Bytes) (ticket : Ticket) (input : CheckInput)
    (cache : Cache) : Nat :=
  max (max (builtIn ticket) ((cachedUsable crypto publicKey ticket input cache).getD 0))
    ((downloadedUsable crypto publicKey ticket input cache).getD 0)

variable {input : CheckInput} {ticket : Ticket} {cache : Cache} {host : Bytes}

theorem checkLease_result (h : Leased crypto publicKey ticket input) (cache : Cache) :
    (check crypto publicKey input cache).result =
      finishLease ticket input (bestExpiry crypto publicKey ticket input cache)
        (leaseNote crypto publicKey ticket input cache) := by
  have hlocal : localBest crypto publicKey ticket input cache =
      max (builtIn ticket) ((cachedUsable crypto publicKey ticket input cache).getD 0) :=
    better_eq _ _
  unfold check checkLease bestExpiry downloadedUsable
  simp only [h.parsed, h.lease, h.identity, if_neg Bool.false_ne_true, better_eq, ← hlocal]
  cases leaseAnswer crypto publicKey ticket input cache with
  | none => simp
  | some bytes => rfl

theorem recordDecision_leaseFile (input : CheckInput) (cache : Cache)
    (answer : Option (Leases × Bytes)) (d : KillSwitchDecision) (host : Bytes) :
    recordDecision input cache answer d (leaseFile host) = cache (leaseFile host) := by
  unfold recordDecision
  split_ifs
  · exact atomicWrite_other (leaseFile_ne_killSwitchFile _ _)
  · rfl

/-- **What a check can do to the cached list of a host**: nothing, or replace it by one
that is worth more than all the check knew. -/
theorem lease_file (input : CheckInput) (cache : Cache) (host : Bytes) :
    (check crypto publicKey input cache).cache (leaseFile host) = cache (leaseFile host) ∨
      ∃ ticket bytes value, Leased crypto publicKey ticket input ∧ input.hash = host ∧
        input.locked = true ∧
        usable crypto publicKey ticket host input.now bytes = some value ∧
        localBest crypto publicKey ticket input cache < value ∧
        (check crypto publicKey input cache).cache (leaseFile host) = some bytes := by
  cases hparse : parseTicket crypto input.envelope publicKey with
  | error error =>
    left
    unfold check
    rw [hparse]
  | ok ticket =>
    cases hkind : ticket.killSwitch with
    | true =>
      left
      cases hid : identityInvalid ticket input.hash input.now with
      | true =>
        unfold check
        simp only [hparse, hkind, hid, if_true]
      | false =>
        rw [check_run ⟨hparse, hkind, hid⟩]
        exact recordDecision_leaseFile _ _ _ _ _
    | false =>
      cases hid : identityInvalid ticket input.hash input.now with
      | true =>
        left
        unfold check checkLease
        simp only [hparse, hkind, hid, if_true, if_neg Bool.false_ne_true]
        cases evaluate (wrapping 64) ticket input.hash input.now none <;> rfl
      | false =>
        have hcheck : check crypto publicKey input cache =
            checkLease crypto publicKey ticket input cache := by
          unfold check
          simp only [hparse, hkind, if_neg Bool.false_ne_true]
        rw [hcheck]
        unfold checkLease
        simp only [hid, if_neg Bool.false_ne_true]
        cases leaseAnswer crypto publicKey ticket input cache with
        | none => exact .inl rfl
        | some bytes =>
          simp only
          split_ifs with hmore
          · rw [Bool.and_eq_true, decide_eq_true_eq, better_eq] at hmore
            obtain ⟨hmore, hlocked⟩ := hmore
            by_cases hhost : input.hash = host
            · subst hhost
              cases hwritable : input.writable with
              | false =>
                left
                rw [atomicWrite, hwritable, if_neg Bool.false_ne_true]
              | true =>
                right
                cases husable : usable crypto publicKey ticket input.hash input.now bytes with
                | none =>
                  rw [husable] at hmore
                  simp at hmore
                | some value =>
                  rw [husable, getD_some] at hmore
                  refine ⟨ticket, bytes, value, ⟨hparse, hkind, hid⟩, rfl, hlocked, husable,
                    by omega, ?_⟩
                  rw [atomicWrite, hwritable, if_pos rfl, Function.update_self]
            · exact .inl (atomicWrite_other fun h => hhost (leaseFile_inj h).symm)
          · exact .inl rfl

/-- The expiry that the cached list of a host is good for. -/
def held (crypto : Crypto) (publicKey : Bytes) (ticket : Ticket) (host : Bytes) (now : Nat)
    (cache : Cache) : Nat :=
  ((cache (leaseFile host)).bind (usable crypto publicKey ticket host now)).getD 0

/-- The cached list of a host, if it is one, was not issued after the clock. -/
def Timely (crypto : Crypto) (publicKey : Bytes) (host : Bytes) (clock : Nat)
    (cache : Cache) : Prop :=
  ∀ bytes leases, cache (leaseFile host) = some bytes →
    parseLeases crypto bytes publicKey = .ok leases → leases.issuedUtc ≤ clock + 300

theorem Timely.mono {clock later : Nat} (h : Timely crypto publicKey host clock cache)
    (hle : clock ≤ later) : Timely crypto publicKey host later cache := by
  intro bytes leases hfile hparse
  have := h bytes leases hfile hparse
  omega

/-- A cached list whose grant is still open counts for a check that reads it. -/
theorem le_localBest {bytes : Bytes} {leases : Leases} (h : Leased crypto publicKey ticket input)
    (hlocked : input.locked = true) (hreadable : input.readable = true)
    (hfile : cache (leaseFile input.hash) = some bytes)
    (hparse : parseLeases crypto bytes publicKey = .ok leases)
    (hissued : leases.issuedUtc ≤ input.now + 300)
    (hopen : input.now < extended input.hash 0 leases.grants) :
    extended input.hash 0 leases.grants ≤ localBest crypto publicKey ticket input cache := by
  have hreads : input.reads = true := by
    unfold CheckInput.locked at hlocked
    simp only [Bool.and_eq_true] at hlocked
    simp [CheckInput.reads, CheckInput.locked, hlocked]
  have hlength := length_le_of_parseLeases hparse
  have husable : usable crypto publicKey ticket input.hash input.now bytes =
      some (max (ticket.createdUtc + 1209600) (extended input.hash 0 leases.grants)) :=
    usable_iff.mpr ⟨leases, hparse, h.lease, identityError_of_identity h.parsed h.identity, hissued,
      rfl, by omega⟩
  unfold localBest cachedUsable readFile
  rw [if_pos hreads, if_pos hreadable, hfile, filter_some,
    if_pos (decide_eq_true (show bytes.length ≤ 65536 from hlength)), bind_some, husable,
    better_eq, getD_some]
  omega

/-- A grant that is still open beside the built-in expiry is not shortened by a longer one. -/
theorem max_le_max_of_grant {builtIn grant longer now : Nat} (h : grant ≤ now ∨ grant ≤ longer)
    (hopen : now < max builtIn grant) : max builtIn grant ≤ max builtIn longer := by
  omega

/-- A value above the built-in expiry and a maximum with it is the other operand. -/
theorem lt_of_lt_max {builtIn grant best value : Nat} (hvalue : value = max builtIn grant)
    (hbuilt : builtIn ≤ best) (hmore : best < value) : best < grant := by
  omega

/-- **One check does not lower what the cache holds**, at any time not before it. -/
theorem held_step {now : Nat} (viewer : Ticket)
    (htimely : Timely crypto publicKey host input.now cache)
    (hreadable : input.locked = true → input.readable = true) (hnow : input.now ≤ now) :
    held crypto publicKey viewer host now cache ≤
      held crypto publicKey viewer host now (check crypto publicKey input cache).cache := by
  rcases @lease_file crypto publicKey input cache host with
    hsame | ⟨ticket, bytes, value, hleased, rfl, hlocked, husable, hmore, hfile⟩
  · unfold held
    rw [hsame]
  · obtain ⟨leases, hparse, -, -, hissued, hvalue, hopen⟩ := usable_iff.mp husable
    have hcreated := builtIn_eq (fields_of_parseTicket hleased.parsed).2
    have hbuilt : builtIn ticket ≤ localBest crypto publicKey ticket input cache := by
      unfold localBest
      rw [better_eq]
      exact Nat.le_max_left _ _
    unfold held
    rw [hfile, bind_some]
    cases hold : (cache (leaseFile input.hash)).bind
        (usable crypto publicKey viewer input.hash now) with
    | none => exact Nat.zero_le _
    | some old =>
      obtain ⟨oldBytes, holdFile, holdUsable⟩ := bind_eq_some_iff.mp hold
      obtain ⟨oldLeases, holdParse, hkind, hid, -, holdValue, holdOpen⟩ := usable_iff.mp holdUsable
      -- the grant of the old list is below the new one unless it has already ended
      have hgrant : extended input.hash 0 oldLeases.grants ≤ now ∨
          extended input.hash 0 oldLeases.grants ≤ extended input.hash 0 leases.grants := by
        rcases Nat.lt_or_ge input.now (extended input.hash 0 oldLeases.grants) with hlt | hge
        · have hknown := le_localBest hleased hlocked (hreadable hlocked) holdFile holdParse
            (htimely _ _ holdFile holdParse) hlt
          rw [← hcreated] at hvalue
          exact .inr (hknown.trans (lt_of_lt_max hvalue hbuilt hmore).le)
        · exact .inl (hge.trans hnow)
      rw [holdValue] at holdOpen
      have hlonger := max_le_max_of_grant hgrant holdOpen
      have hnew : usable crypto publicKey viewer input.hash now bytes =
          some (max (viewer.createdUtc + 1209600) (extended input.hash 0 leases.grants)) :=
        usable_iff.mpr ⟨leases, hparse, hkind, hid, hissued.trans (Nat.add_le_add_right hnow 300),
          rfl, holdOpen.trans_le hlonger⟩
      rw [hnew, getD_some, getD_some, holdValue]
      exact hlonger

theorem timely_step (h : Timely crypto publicKey host input.now cache) :
    Timely crypto publicKey host input.now (check crypto publicKey input cache).cache := by
  rcases @lease_file crypto publicKey input cache host with
    hsame | ⟨ticket, bytes, value, -, -, -, husable, -, hfile⟩
  · unfold Timely
    rwa [hsame]
  · intro other leases hother hparse
    obtain ⟨leases', hparse', -, -, hissued, -⟩ := usable_iff.mp husable
    rw [hfile, Option.some.injEq] at hother
    subst hother
    rw [hparse] at hparse'
    cases hparse'
    exact hissued

/-- What the checks of a run have in common: the clock does not go back, and a check
that holds the lock can read the cache. -/
structure Orderly (clock now : Nat) (inputs : List CheckInput) : Prop where
  ordered : (clock :: inputs.map CheckInput.now).Pairwise (· ≤ ·)
  bounded : ∀ input ∈ inputs, input.now ≤ now
  readable : ∀ input ∈ inputs, input.locked = true → input.readable = true

theorem Orderly.cons {clock now : Nat} {input : CheckInput} {rest : List CheckInput}
    (h : Orderly clock now (input :: rest)) : clock ≤ input.now ∧ Orderly input.now now rest := by
  obtain ⟨hfirst, hrest⟩ := pairwise_cons.mp h.ordered
  exact ⟨hfirst _ mem_cons_self, hrest, fun i hi => h.bounded i (mem_cons_of_mem _ hi),
    fun i hi => h.readable i (mem_cons_of_mem _ hi)⟩

/-- **A run does not lower what the cache holds.** -/
theorem held_run {clock now : Nat} {inputs : List CheckInput} (viewer : Ticket)
    (htimely : Timely crypto publicKey host clock cache) (h : Orderly clock now inputs) :
    held crypto publicKey viewer host now cache ≤
      held crypto publicKey viewer host now (runChecks crypto publicKey cache inputs) := by
  induction inputs generalizing clock cache with
  | nil => exact le_refl _
  | cons input rest ih =>
    obtain ⟨hclock, hrest⟩ := h.cons
    have hinput := htimely.mono hclock
    calc held crypto publicKey viewer host now cache
        ≤ held crypto publicKey viewer host now (check crypto publicKey input cache).cache :=
          held_step viewer hinput (h.readable input mem_cons_self)
            (h.bounded input mem_cons_self)
      _ ≤ held crypto publicKey viewer host now (runChecks crypto publicKey cache (input :: rest)) :=
          ih (timely_step hinput) hrest

/-- A run leaves a timely cache at its last clock. -/
theorem timely_run {clock now : Nat} {before after : List CheckInput}
    (htimely : Timely crypto publicKey host clock cache) (h : Orderly clock now (before ++ after)) :
    ∃ last, Timely crypto publicKey host last (runChecks crypto publicKey cache before) ∧
      Orderly last now after := by
  induction before generalizing clock cache with
  | nil => exact ⟨clock, htimely, h⟩
  | cons input rest ih =>
    obtain ⟨hclock, hrest⟩ := h.cons
    exact ih (timely_step (htimely.mono hclock)) hrest

theorem finishLease_ok {best : Nat} {note : String} {admission : Admission} :
    finishLease ticket input best note = .ok admission ↔
      (input.now ≤ input.completed ∧ input.completed ≤ 4102444800) ∧ input.completed < best ∧
        admission = ⟨best, decide (best > builtIn ticket), note⟩ := by
  unfold finishLease
  by_cases hclock : (input.completed < input.now || input.completed > 4102444800) = true
  · rw [if_pos hclock]
    rw [Bool.or_eq_true, decide_eq_true_eq, decide_eq_true_eq] at hclock
    refine iff_of_false (fun h => by cases h) ?_
    rintro ⟨⟨h₁, h₂⟩, -⟩
    omega
  · rw [if_neg hclock]
    rw [Bool.or_eq_true, decide_eq_true_eq, decide_eq_true_eq] at hclock
    by_cases hexpired : input.completed ≥ best
    · rw [if_pos hexpired]
      exact iff_of_false (fun h => by cases h) fun h => by omega
    · rw [if_neg hexpired, Except.ok.injEq, eq_comm]
      constructor
      · intro h
        exact ⟨by omega, by omega, h⟩
      · intro h
        exact h.2.2

/-- With the same clock and no earlier deadline an admission stays one. -/
theorem finishLease_mono {input other : CheckInput} {best longer : Nat} {note otherNote : String}
    {admission : Admission} (hnow : other.now = input.now)
    (hcompleted : other.completed = input.completed) (hle : best ≤ longer)
    (h : finishLease ticket input best note = .ok admission) :
    ∃ again, finishLease ticket other longer otherNote = .ok again ∧
      admission.expiresUtc ≤ again.expiresUtc := by
  obtain ⟨hclock, hbefore, rfl⟩ := finishLease_ok.mp h
  refine ⟨⟨longer, decide (longer > builtIn ticket), otherNote⟩, ?_, hle⟩
  rw [finishLease_ok, hnow, hcompleted]
  exact ⟨hclock, Nat.lt_of_lt_of_le hbefore hle, rfl⟩

/-- What the network may return does not enter what the check knows without it. -/
theorem bestExpiry_le (ticket : Ticket) (input : CheckInput) (cache : Cache)
    (answer : Option Bytes) :
    bestExpiry crypto publicKey ticket { input with answer := none } cache ≤
      bestExpiry crypto publicKey ticket { input with answer := answer } cache := by
  have hdownloaded :
      downloadedUsable crypto publicKey ticket { input with answer := none } cache = none := by
    unfold downloadedUsable leaseAnswer
    rw [ite_self]
    rfl
  unfold bestExpiry
  rw [hdownloaded, getD_none, Nat.max_zero]
  exact Nat.le_max_left _ _

/-- **Lease extensions only help.**  Over an orderly run the cached expiry of a host
never decreases, whoever looks at it; an admission is worth the largest of the
built-in, the cached and the downloaded expiry; and what the network returns never
turns an admission into a refusal. -/
theorem lease_extensions (crypto : Crypto) (publicKey : Bytes) :
    (∀ (viewer : Ticket) (host : Bytes) (clock now : Nat) (cache : Cache)
        (before after : List CheckInput),
      Timely crypto publicKey host clock cache → Orderly clock now (before ++ after) →
      held crypto publicKey viewer host now (runChecks crypto publicKey cache before) ≤
        held crypto publicKey viewer host now
          (runChecks crypto publicKey cache (before ++ after))) ∧
    (∀ (ticket : Ticket) (input : CheckInput) (cache : Cache) (admission : Admission),
      Leased crypto publicKey ticket input →
      (check crypto publicKey input cache).result = .ok admission →
      admission.expiresUtc =
        max (max (builtIn ticket) ((cachedUsable crypto publicKey ticket input cache).getD 0))
          ((downloadedUsable crypto publicKey ticket input cache).getD 0)) ∧
    (∀ (ticket : Ticket) (input : CheckInput) (cache : Cache) (admission : Admission)
        (answer : Option Bytes),
      Leased crypto publicKey ticket input →
      (check crypto publicKey { input with answer := none } cache).result = .ok admission →
      ∃ again, (check crypto publicKey { input with answer := answer } cache).result = .ok again ∧
        admission.expiresUtc ≤ again.expiresUtc) := by
  refine ⟨?_, ?_, ?_⟩
  · intro viewer host clock now cache before after htimely horderly
    obtain ⟨last, htimely', hafter⟩ := timely_run htimely horderly
    rw [runChecks, runChecks, foldl_append]
    exact held_run viewer htimely' hafter
  · intro ticket input cache admission hleased hresult
    rw [checkLease_result hleased, finishLease_ok] at hresult
    rw [hresult.2.2, bestExpiry]
  · intro ticket input cache admission answer hleased hresult
    have hnone : Leased crypto publicKey ticket { input with answer := none } :=
      ⟨hleased.parsed, hleased.lease, hleased.identity⟩
    have hsome : Leased crypto publicKey ticket { input with answer := answer } :=
      ⟨hleased.parsed, hleased.lease, hleased.identity⟩
    rw [checkLease_result hnone] at hresult
    rw [checkLease_result hsome]
    exact finishLease_mono rfl rfl (bestExpiry_le ticket input cache answer) hresult

end Step

/-- A long extension of the sample host. -/
def sampleExtension : Bytes := sampleEnvelope (leasesText ⟨1600100000, [⟨sampleHash, 1602000000⟩]⟩)

/-- A shorter list does not replace the extension. -/
theorem lease_extensions_sample :
    held acceptingCrypto sampleKey ⟨sampleHash, 1600000000, false, 0⟩ sampleHash 1600300000
        (runChecks acceptingCrypto sampleKey (fun _ => none)
          [sampleCheck false 1600100000 (some sampleExtension)]) ≤
      held acceptingCrypto sampleKey ⟨sampleHash, 1600000000, false, 0⟩ sampleHash 1600300000
        (runChecks acceptingCrypto sampleKey (fun _ => none)
          ([sampleCheck false 1600100000 (some sampleExtension)] ++
            [sampleCheck false 1600200000 (some (sampleLeases [1601500000]))])) :=
  (lease_extensions acceptingCrypto sampleKey).1 _ _ 1600000000 _ _ _ _
    (fun _ _ h => by cases h) ⟨by decide, by decide, by decide⟩

/-- What a busy cache, an unreadable one and a clock that goes back do to the extension:
it does not count, and a shorter one replaces it. -/
theorem extension_lost :
    let ticket : Ticket := ⟨sampleHash, 1600000000, false, 0⟩
    let shorter := some (sampleLeases [1601500000])
    let cache := (check acceptingCrypto sampleKey
      (sampleCheck false 1600100000 (some sampleExtension)) fun _ => none).cache
    let busy := { sampleCheck false 1600200000 none with lockFree := false }
    let unreadable := { sampleCheck false 1600200000 shorter with readable := false }
    let back := sampleCheck false 1600000100 shorter
    let heldBy := held acceptingCrypto sampleKey ticket sampleHash 1600300000
    heldBy cache = 1602000000 ∧
      (check acceptingCrypto sampleKey busy cache).result.toOption.map Admission.expiresUtc =
        some 1601209600 ∧
      heldBy (check acceptingCrypto sampleKey unreadable cache).cache = 1601500000 ∧
      heldBy (check acceptingCrypto sampleKey back cache).cache = 1601500000 := by
  decide +kernel

end Mcla.Lease
