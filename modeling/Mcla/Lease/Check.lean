import Mcla.Lease.Parser
import Mathlib.Logic.Function.Basic

/-! # Checking a build lease

`Check` of `mcla_build_lease_runtime_win`: one check reads the cache of the host it
is for, may ask the server, evaluates what it got, and may replace the cache.  A
`CheckInput` fixes everything outside the code: which file operations succeed, what
the server answers and what the clock shows before and after.

The kill-switch cache is a small text of its own (`killSwitchCacheRecord`).
-/
namespace Mcla.Lease
open MachineArith List

/-- The files of the cache directory. -/
abbrev Cache := Bytes → Option Bytes

/-- What a check meets. -/
structure CheckInput where
  /-- The ticket file. -/
  envelope : Bytes
  /-- The measured hash of the host. -/
  hash : Bytes
  /-- The clock when the check begins. -/
  now : Nat
  (cacheOpen lockFree readable writable readOnly preferCached : Bool)
  /-- What `fetch` would return. -/
  answer : Option Bytes
  /-- The clock when the check ends, if it is read again. -/
  afterClock : Option Nat

/-- An admission, with its end. -/
structure Admission where
  expiresUtc : Nat
  extended : Bool
  note : String
deriving DecidableEq

/-- What a check answers and leaves. -/
structure Outcome where
  result : Except String Admission
  cache : Cache
  /-- Whether the check called `fetch`. -/
  fetched : Bool

namespace CheckInput

/-- The check holds the writer lock of the cache. -/
def locked (input : CheckInput) : Bool := input.cacheOpen && !input.readOnly && input.lockFree

/-- `cache && (lock || read_only)`. -/
def reads (input : CheckInput) : Bool := input.cacheOpen && (input.locked || input.readOnly)

/-- The clock at the end of a check. -/
def completed (input : CheckInput) : Nat := input.afterClock.getD input.now

end CheckInput

/-- `ReadFile` of the cache, within a size. -/
def readFile (input : CheckInput) (cache : Cache) (filename : Bytes) (maximum : Nat) :
    Option Bytes :=
  if input.readable then (cache filename).filter fun bytes => decide (bytes.length ≤ maximum)
  else none

/-- `AtomicWrite` to the cache: all of the new bytes, or the old file. -/
def atomicWrite (input : CheckInput) (cache : Cache) (filename bytes : Bytes) : Cache :=
  if input.writable then Function.update cache filename (some bytes) else cache

/-- The tests of `Check` before anything is read. -/
def identityInvalid (ticket : Ticket) (hash : Bytes) (now : Nat) : Bool :=
  ticket.hostSha256 != hash || now < ticket.createdUtc || now < 1577836800 || now > 4102444800

/-- The text of a clock that went back. -/
def clockChanged : String :=
  "System UTC clock changed backwards or is invalid; launch stopped before save initialization."

/-- The text of a build that has expired. -/
def buildExpired : String :=
  "BUILD EXPIRED - GET THE NEW ONE. Your saves are unchanged. Connect to check for a signed extension or obtain a new test build."

/-! ## The kill-switch cache -/

def kKillSwitchCacheHeader : Bytes := ascii "MCLA-KILLSWITCH-CACHE-V1\n"

/-- What the record of the last check says. -/
structure KillSwitchCacheState where
  check : Option CachedCheck
  revoked : Bool

/-- `Decimal`. -/
def decimal (text : Bytes) : Option Nat :=
  if noncanonical text then none else decimalDigits (wrapping 64) 0 text

section Checks
variable (crypto : Crypto) (publicKey : Bytes)

/-- What `ReadKillSwitchCache` makes of the file. -/
def killSwitchCacheState (text : Bytes) : KillSwitchCacheState :=
  if !kKillSwitchCacheHeader.isPrefixOf text then ⟨none, false⟩
  else
    match line (text.drop kKillSwitchCacheHeader.length) with
    | none => ⟨none, false⟩
    | some (first, text) =>
        if (ascii "revoked ").isPrefixOf first && (decimal (first.drop 8)).isSome &&
            text.isEmpty then ⟨none, true⟩
        else if !(ascii "checked ").isPrefixOf first then ⟨none, false⟩
        else
          match decimal (first.drop 8), parseLeases crypto text publicKey with
          | some checkedUtc, .ok leases => ⟨some ⟨leases, checkedUtc⟩, false⟩
          | _, _ => ⟨none, false⟩

/-- `ReadKillSwitchCache`. -/
def readKillSwitchCache (input : CheckInput) (cache : Cache) (filename : Bytes) :
    KillSwitchCacheState :=
  match readFile input cache filename (kMaximumEnvelopeBytes + 128) with
  | none => ⟨none, false⟩
  | some bytes => killSwitchCacheState crypto publicKey bytes

/-- `KillSwitchCacheRecord`. -/
def killSwitchCacheRecord (revoked : Bool) (utc : Nat) (envelope : Bytes) : Bytes :=
  kKillSwitchCacheHeader ++ ((if revoked then ascii "revoked " else ascii "checked ") ++
    Decimal.text utc ++ 10 :: if revoked then [] else envelope)

/-! ## The check with a kill switch -/

/-- The file of the last check. -/
def killSwitchFile (hash : Bytes) : Bytes := hash ++ ascii ".killswitch"

/-- The cached state that the check sees. -/
def seenState (input : CheckInput) (cache : Cache) : KillSwitchCacheState :=
  if input.reads then readKillSwitchCache crypto publicKey input cache (killSwitchFile input.hash)
  else ⟨none, false⟩

/-- `fresh`; the age is taken only of a check that is not after `now`. -/
def fresh (state : KillSwitchCacheState) (now : Nat) : Bool :=
  match state.check with
  | none => false
  | some check =>
      !state.revoked && check.checkedUtc ≤ now && now - check.checkedUtc < kKillSwitchCheckSeconds

/-- The verified list of an answer, with its text. -/
def download (input : CheckInput) : Option (Leases × Bytes) :=
  match input.answer with
  | none => none
  | some bytes =>
      match parseLeases crypto bytes publicKey with
      | .error _ => none
      | .ok leases => some (leases, bytes)

/-- What a check says beside its answer. -/
def killSwitchNote (input : CheckInput) (fetched : Bool) (cache : KillSwitchCache) : String :=
  (if input.cacheOpen && !input.readOnly && !input.lockFree then
    "Build check cache busy/unavailable; this launch uses the online answer only. " else "") ++
  (if !fetched then ""
    else if input.answer.isNone then
      "Online build check unavailable; using the offline allowance. "
    else if (download crypto publicKey input).isNone then "Untrusted online response ignored. "
    else "") ++
  (if input.locked then
    if cache = .keep || input.writable then ""
    else if cache = .revoke then "Could not record the withdrawal locally. "
    else "Build check valid for this launch; offline cache write failed. "
  else if cache = .refresh then
    if input.readOnly then "Build check valid; not cached by this read-only check. "
    else "Build check valid for this launch; offline cache unavailable. "
  else "")

/-- The end of `CheckKillSwitch`: the clock, the decision, the deadline. -/
def finishKillSwitch (ticket : Ticket) (input : CheckInput) (fetched : Bool)
    (decision : KillSwitchDecision) : Except String Admission :=
  if input.completed < input.now || input.completed > 4102444800 then .error clockChanged
  else if !decision.allowed then .error decision.reason
  else if input.completed ≥ decision.expiresUtc then .error buildCheckNeeded
  else
    .ok ⟨decision.expiresUtc,
      decide (decision.expiresUtc > (ticket.createdUtc + kKillSwitchOfflineSeconds) % 2 ^ 64),
      killSwitchNote crypto publicKey input fetched decision.cache⟩

/-- Whether the check asks the server. -/
def asksServer (input : CheckInput) (cache : Cache) : Bool :=
  !(input.preferCached && fresh (seenState crypto publicKey input cache) input.now)

/-- The verified list that the check receives, with its text. -/
def received (input : CheckInput) (cache : Cache) : Option (Leases × Bytes) :=
  if asksServer crypto publicKey input cache then download crypto publicKey input else none

/-- The cache after a decision. -/
def recordDecision (input : CheckInput) (cache : Cache) (answer : Option (Leases × Bytes))
    (decision : KillSwitchDecision) : Cache :=
  if input.locked && decision.cache ≠ .keep then
    atomicWrite input cache (killSwitchFile input.hash)
      (killSwitchCacheRecord (decision.cache = .revoke) input.now
        ((answer.map Prod.snd).getD []))
  else cache

/-- `CheckKillSwitch`. -/
def checkKillSwitch (ticket : Ticket) (input : CheckInput) (cache : Cache) : Outcome :=
  let state := seenState crypto publicKey input cache
  let fetched := asksServer crypto publicKey input cache
  let answer := received crypto publicKey input cache
  match evaluateKillSwitch (wrapping 64) ticket input.hash input.now (answer.map Prod.fst)
      state.check state.revoked with
  | .error error => ⟨.error error, cache, fetched⟩
  | .ok decision =>
      ⟨finishKillSwitch crypto publicKey ticket input fetched decision,
        recordDecision input cache answer decision, fetched⟩

/-! ## The check of a lease -/

/-- The file of the cached list. -/
def leaseFile (hash : Bytes) : Bytes := hash ++ ascii ".lease"

/-- The expiry that a signed text is good for now. -/
def usable (ticket : Ticket) (hash : Bytes) (now : Nat) (bytes : Bytes) : Option Nat :=
  match parseLeases crypto bytes publicKey with
  | .error _ => none
  | .ok leases => (evaluate (wrapping 64) ticket hash now (some leases)).toOption

/-- `if(valid && *valid>best) best=*valid`. -/
def better (best : Nat) : Option Nat → Nat
  | none => best
  | some valid => if valid > best then valid else best

/-- The end that a ticket has on its own. -/
def builtIn (ticket : Ticket) : Nat := (ticket.createdUtc + 1209600) % 2 ^ 64

/-- The expiry of the cached text. -/
def cachedUsable (ticket : Ticket) (input : CheckInput) (cache : Cache) : Option Nat :=
  if input.reads then
    (readFile input cache (leaseFile input.hash) 65536).bind
      (usable crypto publicKey ticket input.hash input.now)
  else none

/-- The latest end that is known offline. -/
def localBest (ticket : Ticket) (input : CheckInput) (cache : Cache) : Nat :=
  better (builtIn ticket) (cachedUsable crypto publicKey ticket input cache)

/-- The answer of a fetch that is not suppressed. -/
def leaseAnswer (ticket : Ticket) (input : CheckInput) (cache : Cache) : Option Bytes :=
  if input.preferCached && input.now < localBest crypto publicKey ticket input cache then none
  else input.answer

/-- What a check says beside its answer. -/
def leaseNote (ticket : Ticket) (input : CheckInput) (cache : Cache) : String :=
  let best := localBest crypto publicKey ticket input cache
  (if input.cacheOpen && !input.readOnly && !input.lockFree then
    "Lease cache busy/unavailable; online proof can still authorize this launch. " else "") ++
  match leaseAnswer crypto publicKey ticket input cache with
  | none => "Online extension unavailable; checking local allowance. "
  | some bytes =>
      if better best (usable crypto publicKey ticket input.hash input.now bytes) > best then
        if input.locked then
          if input.writable then "" else
            "Signed extension valid for this launch; offline cache write failed. "
        else if input.readOnly then "Signed extension valid for this check; not cached. "
        else "Signed extension valid for this launch; offline cache unavailable. "
      else
        match parseLeases crypto bytes publicKey with
        | .error _ => "Untrusted online response ignored. "
        | .ok _ => ""

/-- The end of `Check`: the clock and the deadline. -/
def finishLease (ticket : Ticket) (input : CheckInput) (best : Nat) (note : String) :
    Except String Admission :=
  if input.completed < input.now || input.completed > 4102444800 then .error clockChanged
  else if input.completed ≥ best then .error buildExpired
  else .ok ⟨best, decide (best > builtIn ticket), note⟩

/-- `Check` of a ticket without a kill switch. -/
def checkLease (ticket : Ticket) (input : CheckInput) (cache : Cache) : Outcome :=
  if identityInvalid ticket input.hash input.now then
    match evaluate (wrapping 64) ticket input.hash input.now none with
    | .ok _ => ⟨.error "Invalid test-build identity or clock", cache, false⟩
    | .error error => ⟨.error error, cache, false⟩
  else
    let best := localBest crypto publicKey ticket input cache
    let note := leaseNote crypto publicKey ticket input cache
    let fetched := !(input.preferCached && input.now < best)
    match leaseAnswer crypto publicKey ticket input cache with
    | none => ⟨finishLease ticket input best note, cache, fetched⟩
    | some bytes =>
        let extendedBest := better best (usable crypto publicKey ticket input.hash input.now bytes)
        let cache' := if extendedBest > best && input.locked then
            atomicWrite input cache (leaseFile input.hash) bytes
          else cache
        ⟨finishLease ticket input extendedBest note, cache', fetched⟩

/-- `Check`. -/
def check (input : CheckInput) (cache : Cache) : Outcome :=
  match parseTicket crypto input.envelope publicKey with
  | .error error => ⟨.error error, cache, false⟩
  | .ok ticket =>
      if ticket.killSwitch then
        if identityInvalid ticket input.hash input.now then
          ⟨.error "Invalid test-build identity or clock", cache, false⟩
        else checkKillSwitch crypto publicKey ticket input cache
      else checkLease crypto publicKey ticket input cache

/-- The cache after a sequence of checks. -/
def runChecks (cache : Cache) (inputs : List CheckInput) : Cache :=
  inputs.foldl (fun cache input => (check crypto publicKey input cache).cache) cache

end Checks

/-! ## The files -/

theorem killSwitchFile_inj {hash other : Bytes} (h : killSwitchFile hash = killSwitchFile other) :
    hash = other :=
  append_cancel_right h

theorem leaseFile_inj {hash other : Bytes} (h : leaseFile hash = leaseFile other) : hash = other :=
  append_cancel_right h

theorem leaseFile_ne_killSwitchFile (hash other : Bytes) : leaseFile hash ≠ killSwitchFile other := by
  intro h
  have hlast := congrArg List.getLast? h
  rw [leaseFile, killSwitchFile, getLast?_append_of_ne_nil _ (by decide),
    getLast?_append_of_ne_nil _ (by decide)] at hlast
  revert hlast
  decide

theorem atomicWrite_other {input : CheckInput} {cache : Cache} {name filename bytes : Bytes}
    (h : filename ≠ name) : atomicWrite input cache name bytes filename = cache filename := by
  unfold atomicWrite
  split_ifs
  · exact Function.update_of_ne h _ _
  · rfl

/-! ## Records -/

section Records
variable {crypto : Crypto} {publicKey : Bytes}

theorem decimal_text {n : Nat} (hn : n < 2 ^ 64) : decimal (Decimal.text n) = some n := by
  have hform := noncanonical_text hn
  rw [decimal, hform, if_neg Bool.false_ne_true]
  exact (decimalDigits_iff hform).mpr ⟨rfl, hn⟩

variable {envelope : Bytes} {leases : Leases}

theorem length_le_of_parseLeases (h : parseLeases crypto envelope publicKey = .ok leases) :
    envelope.length ≤ kMaximumEnvelopeBytes := by
  obtain ⟨payload, hpayload, -⟩ := bind_ok.mp h
  unfold authenticatedPayload at hpayload
  by_cases hbound : (envelope.isEmpty || envelope.length > kMaximumEnvelopeBytes) = true
  · rw [if_pos hbound] at hpayload
    cases hpayload
  · rw [Bool.or_eq_true, decide_eq_true_eq, not_or] at hbound
    exact Nat.not_lt.mp hbound.2

theorem modelValid_of_parseLeases (h : parseLeases crypto envelope publicKey = .ok leases) :
    modelValid leases = true := by
  obtain ⟨payload, -, hleases⟩ := bind_ok.mp h
  exact (leasesOfPayload_iff.mp hleases).2

theorem not_mem_keyword {word : Bytes} (h : 10 ∉ word) (n : Nat) : 10 ∉ word ++ Decimal.text n := by
  rw [mem_append, not_or]
  exact ⟨h, not_mem_text n⟩

/-- A withdrawal is read back. -/
theorem killSwitchCacheState_revoked {utc : Nat} (hutc : utc < 2 ^ 64) (envelope : Bytes) :
    killSwitchCacheState crypto publicKey (killSwitchCacheRecord true utc envelope) =
      ⟨none, true⟩ := by
  unfold killSwitchCacheState killSwitchCacheRecord
  have hline : line (ascii "revoked " ++ Decimal.text utc ++ 10 :: []) =
      some (ascii "revoked " ++ Decimal.text utc, []) :=
    line_append (not_mem_keyword (by decide) utc) []
  have hdrop : (ascii "revoked " ++ Decimal.text utc).drop 8 = Decimal.text utc :=
    drop_left' (by decide)
  rw [isPrefixOf_append, drop_left, if_pos rfl, if_pos rfl, hline]
  simp only [isPrefixOf_append, hdrop, decimal_text hutc, Option.isSome_some, isEmpty_nil,
    Bool.and_self, Bool.not_true, if_pos, if_neg Bool.false_ne_true]

/-- A confirmed check is read back. -/
theorem killSwitchCacheState_checked {utc : Nat} (hutc : utc < 2 ^ 64)
    (h : parseLeases crypto envelope publicKey = .ok leases) :
    killSwitchCacheState crypto publicKey (killSwitchCacheRecord false utc envelope) =
      ⟨some ⟨leases, utc⟩, false⟩ := by
  unfold killSwitchCacheState killSwitchCacheRecord
  have hline : line (ascii "checked " ++ Decimal.text utc ++ 10 :: envelope) =
      some (ascii "checked " ++ Decimal.text utc, envelope) :=
    line_append (not_mem_keyword (by decide) utc) envelope
  have hdrop : (ascii "checked " ++ Decimal.text utc).drop 8 = Decimal.text utc :=
    drop_left' (by decide)
  have hother : (ascii "revoked ").isPrefixOf (ascii "checked " ++ Decimal.text utc) = false := by
    rw [Bool.eq_false_iff]
    intro hpre
    exact absurd (prefix_of_prefix_length_le (List.isPrefixOf_iff_prefix.mp hpre)
      (prefix_append _ _) (by decide)) (by decide)
  rw [isPrefixOf_append, drop_left, if_neg Bool.false_ne_true, if_neg Bool.false_ne_true, hline]
  simp only [hother, isPrefixOf_append, hdrop, decimal_text hutc, h, Bool.false_and, Bool.not_true,
    if_neg Bool.false_ne_true]

/-- A record of a verified envelope fits the reader's bound. -/
theorem killSwitchCacheRecord_length (revoked : Bool) {utc : Nat} (hutc : utc < 2 ^ 64)
    {envelope : Bytes} (h : envelope.length ≤ kMaximumEnvelopeBytes) :
    (killSwitchCacheRecord revoked utc envelope).length ≤ kMaximumEnvelopeBytes + 128 := by
  have hheader : kKillSwitchCacheHeader.length = 25 := by decide
  have hrevoked : (ascii "revoked ").length = 8 := by decide
  have hchecked : (ascii "checked ").length = 8 := by decide
  have htext : (Decimal.text utc).length ≤ 20 :=
    Decimal.text_length_le (by decide) (hutc.trans (by decide))
  cases revoked <;>
    simp only [killSwitchCacheRecord, length_append, length_cons, length_nil, hheader,
      hrevoked, hchecked, if_true, if_neg Bool.false_ne_true] <;>
    omega

end Records

/-! ## Sample texts -/

/-- Cryptography that accepts every well-formed envelope. -/
def acceptingCrypto : Crypto := ⟨true, fun _ => some [], fun _ => true, fun _ _ _ => true⟩

/-- A well-formed RSA-2048 key blob. -/
def sampleKey : Bytes :=
  [0x52, 0x53, 0x41, 0x31, 0, 8, 0, 0, 3, 0, 0, 0, 0, 1, 0, 0, 0, 0, 0, 0, 0, 0, 0, 0, 1, 0, 1,
    0x80] ++ replicate 254 0 ++ [1]

def sampleHash : Bytes := replicate 64 48

/-- A payload with a signature. -/
def sampleEnvelope (payload : Bytes) : Bytes :=
  payload ++ kSignatureMarker ++ replicate 512 48 ++ [10]

/-- The ticket of the sample host, created at 1600000000. -/
def sampleTicket (killSwitch : Bool) : Bytes :=
  sampleEnvelope (ticketText ⟨sampleHash, 1600000000, killSwitch, 0⟩ [])

/-- A list issued at 1600000000 that grants the sample host until the given times. -/
def sampleLeases (untils : List Nat) : Bytes :=
  sampleEnvelope (leasesText ⟨1600000000, untils.map fun utc => ⟨sampleHash, utc⟩⟩)

/-- A check of the sample host with everything available. -/
def sampleCheck (killSwitch : Bool) (now : Nat) (answer : Option Bytes) : CheckInput :=
  ⟨sampleTicket killSwitch, sampleHash, now, true, true, true, true, false, false, answer, none⟩

end Mcla.Lease
