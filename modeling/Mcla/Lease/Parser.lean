import Mcla.Lease.Policy

/-! # The signed texts

The ticket and the list of grants travel as signed text.  `AuthenticatedPayload`
cuts the envelope at its signature marker and has the operating system verify the
signature; the readers then take the payload apart line by line.

The operating system's cryptography is a parameter.  Whatever it accepts, the
readers accept a payload only if it is the text of the value they return
(`ticketOfPayload_iff`, `leasesOfPayload_iff`): the text leaves no choice but the
order of the capability names.
-/
namespace Mcla.Lease
open MachineArith List

def kTicketHeader : Bytes := ascii "MCLA-TEST-BUILD-V1\n"
def kKillSwitchTicketHeader : Bytes := ascii "MCLA-TEST-BUILD-V2\n"
def kLeasesHeader : Bytes := ascii "MCLA-TEST-LEASES-V1\n"
def kSignatureMarker : Bytes := ascii "--SIGNATURE--\n"
def kCapabilitiesPrefix : Bytes := ascii "capabilities "

/-- `capabilities` tokens and their bits. -/
def kCapabilityTokens : List (Bytes × BitVec 8) :=
  [(ascii "1080p", kGrant1080p), (ascii "1440p", kGrant1440p), (ascii "2160p", kGrant2160p),
    (ascii "unlocked", kGrantUnlocked)]

/-! ## Readers of fields -/

section Digits
variable {m : Type → Type} [Monad m] (A : Arith m)

/-- The digit loop of `Date` and of the cache's `Decimal`. -/
def decimalDigits (value : Nat) : Bytes → m (Option Nat)
  | [] => pure (some value)
  | c :: rest =>
      if c.toNat < 48 || c.toNat > 57 then pure none
      else do
        let room ← A.sub (2 ^ 64 - 1) (c.toNat - 48)
        if value > room / 10 then pure none
        else do
          let scaled ← A.mul value 10
          let next ← A.add scaled (c.toNat - 48)
          decimalDigits next rest

/-- Empty, too long for 64 bits, or with a leading zero. -/
def noncanonical (text : Bytes) : Bool :=
  text.isEmpty || text.length > 20 || (text.length > 1 && text.head? == some 48)

/-- `Date`. -/
def date (text : Bytes) : m (Except String Nat) :=
  if noncanonical text then pure (.error "Malformed build lease: noncanonical timestamp")
  else do
    match ← decimalDigits A 0 text with
    | none => pure (.error "Malformed build lease: timestamp digit or overflow")
    | some value =>
        pure (if !dateValid value then
          .error "Malformed build lease: timestamp outside admitted range"
        else .ok value)

end Digits

/-- `Line`: the text before the first line feed and the text after it. -/
def line : Bytes → Option (Bytes × Bytes)
  | [] => none
  | c :: rest =>
      if c = 10 then some ([], rest)
      else (line rest).map fun (before, after) => (c :: before, after)

/-- `Row`. -/
def row (text : Bytes) : Except String Grant :=
  if text.length < 66 || text[64]? != some 32 || !hashValid (text.take 64) then
    .error "Malformed build lease: expected canonical host-hash timestamp row"
  else
    match date (wrapping 64) (text.drop 65) with
    | .error error => .error error
    | .ok timestamp => .ok ⟨text.take 64, timestamp⟩

/-- The bit of a token, zero for an unknown one. -/
def capabilityBit (token : Bytes) : BitVec 8 :=
  kCapabilityTokens.foldl (fun bit known => if token = known.1 then known.2 else bit) 0

/-- The loop of `ParseTicketCapabilities` over the tokens between the commas. -/
def capabilitiesFrom (result : BitVec 8) : List Bytes → Except String (BitVec 8)
  | [] => .ok result
  | token :: rest =>
      if capabilityBit token = 0 then
        .error "Malformed build ticket: unknown or empty capability token"
      else if result &&& capabilityBit token ≠ 0 then
        .error "Malformed build ticket: duplicate capability token"
      else capabilitiesFrom (result ||| capabilityBit token) rest

/-- `ParseTicketCapabilities`. -/
def parseTicketCapabilities (tokens : Bytes) : Except String (BitVec 8) :=
  if tokens.isEmpty then .error "Malformed build ticket: empty capabilities list"
  else capabilitiesFrom 0 (tokens.splitOn 44)

/-! ## The payloads -/

/-- The lines after the header of a ticket. -/
def ticketOfLines (killSwitch : Bool) (payload : Bytes) : Except String Ticket :=
  match line payload with
  | none => .error "Malformed build ticket: exactly one row required"
  | some (first, payload) =>
      match row first with
      | .error error => .error error
      | .ok grant =>
          if payload.isEmpty then .ok ⟨grant.hostSha256, grant.validUntil, killSwitch, 0⟩
          else
            match line payload with
            | some (extra, []) =>
                if !kCapabilitiesPrefix.isPrefixOf extra then
                  .error "Malformed build ticket: only one optional capabilities line may follow the row"
                else
                  match parseTicketCapabilities (extra.drop kCapabilitiesPrefix.length) with
                  | .error error => .error error
                  | .ok capabilities =>
                      .ok ⟨grant.hostSha256, grant.validUntil, killSwitch, capabilities⟩
            | _ =>
                .error "Malformed build ticket: only one optional capabilities line may follow the row"

/-- What `ParseTicket` does with an authenticated payload. -/
def ticketOfPayload (payload : Bytes) : Except String Ticket :=
  if kKillSwitchTicketHeader.isPrefixOf payload then
    ticketOfLines true (payload.drop kKillSwitchTicketHeader.length)
  else if kTicketHeader.isPrefixOf payload then
    ticketOfLines false (payload.drop kTicketHeader.length)
  else .error "Malformed build ticket: unknown schema"

/-- The loop of `ParseLeases`: `slots` is the room left in the list and `last` the
host of its last grant. -/
def grantsFrom : Nat → Option Bytes → Bytes → Except String (List Grant)
  | slots, last, payload =>
      if payload.isEmpty then .ok []
      else
        match slots with
        | 0 => .error "Malformed build leases: too many grants"
        | slots + 1 =>
            match line payload with
            | none => .error "Malformed build leases: final LF required"
            | some (first, payload) =>
                match row first with
                | .error error => .error error
                | .ok grant =>
                    if last.any fun host => decide (grant.hostSha256 ≤ host) then
                      .error "Malformed build leases: hosts must be strictly sorted and unique"
                    else (grant :: ·) <$> grantsFrom slots (some grant.hostSha256) payload

/-- What `ParseLeases` does with an authenticated payload. -/
def leasesOfPayload (payload : Bytes) : Except String Leases :=
  if !kLeasesHeader.isPrefixOf payload then .error "Malformed build leases: unknown schema"
  else
    match line (payload.drop kLeasesHeader.length) with
    | none => .error "Malformed build leases: missing issued timestamp"
    | some (first, payload) =>
        match date (wrapping 64) first with
        | .error error => .error error
        | .ok issued => (Leases.mk issued ·) <$> grantsFrom kMaximumGrants none payload

/-! ## Authentication -/

/-- What the operating system's cryptography answers: whether the providers open,
a key imports, a text hashes, a signature of a digest verifies. -/
structure Crypto where
  opensSha256 : Bool
  sha256 : Bytes → Option Bytes
  importsKey : Bytes → Bool
  verifies : Bytes → Bytes → Bytes → Bool

/-- `Digest`. -/
def digest (crypto : Crypto) (bytes : Bytes) : Except String Bytes :=
  if bytes.length > 2 ^ 32 - 1 then .error "SHA256 input exceeds API byte bound"
  else if !crypto.opensSha256 then .error "Cannot initialize SHA256"
  else
    match crypto.sha256 bytes with
    | none => .error "Cannot compute SHA256"
    | some digest => .ok digest

/-- The first place where the pattern occurs. -/
def find (pattern : Bytes) : Bytes → Option Nat
  | [] => if pattern.isEmpty then some 0 else none
  | c :: rest =>
      if pattern.isPrefixOf (c :: rest) then some 0 else (find pattern rest).map (· + 1)

/-- The last place where the pattern occurs. -/
def rfind (pattern : Bytes) : Bytes → Option Nat
  | [] => if pattern.isEmpty then some 0 else none
  | c :: rest =>
      match rfind pattern rest with
      | some i => some (i + 1)
      | none => if pattern.isPrefixOf (c :: rest) then some 0 else none

/-- The bytes of uppercase hex text. -/
def fromHex : Bytes → Option Bytes
  | [] => some []
  | [_] => none
  | hi :: lo :: rest =>
      match nibble hi, nibble lo with
      | some hi, some lo => (UInt8.ofNat (hi * 16 + lo) :: ·) <$> fromHex rest
      | _, _ => none

/-- The little-endian word at an offset of the key blob. -/
def keyWord (publicKey : Bytes) (offset : Nat) : Nat :=
  Nat.ofDigits 256 (((publicKey.drop offset).take 4).map UInt8.toNat)

/-- The tests of the key blob: `BCRYPT_RSAKEY_BLOB`, the exponent, the modulus. -/
def keyError (publicKey : Bytes) : Option String :=
  let cbPublicExp := keyWord publicKey 8
  let cbModulus := keyWord publicKey 12
  let exponent : Bytes := (publicKey.drop 24).take cbPublicExp
  let modulus : Bytes := publicKey.drop (24 + cbPublicExp)
  let e : Nat := exponent.foldl (fun e byte => (e * 256 + byte.toNat) % 2 ^ 64) 0
  if publicKey.length < 24 then some "Invalid build lease verification key"
  else if keyWord publicKey 0 ≠ 0x31415352 ∨ keyWord publicKey 4 ≠ 2048 ∨ cbModulus ≠ 256 ∨
      keyWord publicKey 16 ≠ 0 ∨ keyWord publicKey 20 ≠ 0 ∨ cbPublicExp = 0 ∨ cbPublicExp > 8 ∨
      publicKey.length ≠ 24 + cbPublicExp + cbModulus then
    some "Invalid build lease verification key: exact RSA-2048 public blob required"
  else if exponent.head? = some 0 ∨ e < 3 ∨ e % 2 = 0 ∨
      (modulus.headD 0).toNat < 128 ∨ (modulus.getLastD 0).toNat % 2 = 0 then
    some "Invalid build lease verification key: noncanonical RSA parameters"
  else none

/-- `AuthenticatedPayload`. -/
def authenticatedPayload (crypto : Crypto) (envelope publicKey : Bytes) : Except String Bytes :=
  if envelope.isEmpty || envelope.length > kMaximumEnvelopeBytes then
    .error "Malformed build lease: envelope byte bound"
  else if envelope.any fun c => c != 10 && (c.toNat < 0x20 || c.toNat > 0x7E) then
    .error "Malformed build lease: only canonical ASCII and LF are admitted"
  else
    match find kSignatureMarker envelope with
    | none => .error "Malformed build lease: signature delimiter"
    | some marker =>
        if marker = 0 ∨ envelope[marker - 1]? ≠ some 10 ∨
            rfind kSignatureMarker envelope ≠ some marker then
          .error "Malformed build lease: signature delimiter"
        else
          let encoded := envelope.drop (marker + kSignatureMarker.length)
          if encoded.length ≠ 513 ∨ encoded.getLast? ≠ some 10 then
            .error "Malformed build lease: exact RSA-2048 signature required"
          else
            match fromHex (encoded.take 512) with
            | none => .error "Malformed build lease: signature must be uppercase hex"
            | some signature =>
                match keyError publicKey with
                | some error => .error error
                | none =>
                    if !crypto.importsKey publicKey then
                      .error "Cannot import build lease verification key"
                    else
                      let payload := envelope.take marker
                      match digest crypto payload with
                      | .error error => .error error
                      | .ok digest =>
                          if !crypto.verifies publicKey digest signature then
                            .error "Build lease signature verification failed"
                          else .ok payload

/-- `ParseTicket`. -/
def parseTicket (crypto : Crypto) (envelope publicKey : Bytes) : Except String Ticket :=
  authenticatedPayload crypto envelope publicKey >>= ticketOfPayload

/-- `ParseLeases`. -/
def parseLeases (crypto : Crypto) (envelope publicKey : Bytes) : Except String Leases :=
  authenticatedPayload crypto envelope publicKey >>= leasesOfPayload

/-! ## Numbers -/

section DigitLaws
variable {m : Type → Type} [Monad m] [LawfulMonad m] {A : Arith m}

/-- **The digit loop reads exactly the numbers of 64 bits**, and none of its operations
leaves them, whatever the length of the text. -/
theorem decimalDigits_eq (hA : Faithful 64 A) {value : Nat} (hvalue : value < 2 ^ 64)
    (text : Bytes) :
    decimalDigits A value text =
      pure ((Decimal.valueFrom value text).filter fun n => decide (n < 2 ^ 64)) := by
  induction text generalizing value with
  | nil =>
    rw [decimalDigits, Decimal.valueFrom, Option.filter_some, if_pos (decide_eq_true hvalue)]
  | cons c rest ih =>
    unfold decimalDigits Decimal.valueFrom Decimal.digit?
    by_cases hdigit : 48 ≤ c.toNat ∧ c.toNat ≤ 57
    · have hin : (c.toNat < 48 || c.toNat > 57) = false := by
        rw [Bool.or_eq_false_iff, decide_eq_false_iff_not, decide_eq_false_iff_not]
        omega
      rw [hin, if_pos hdigit, Option.bind_some, if_neg Bool.false_ne_true,
        hA.sub (by omega) (by omega), pure_bind]
      by_cases hroom : value > (2 ^ 64 - 1 - (c.toNat - 48)) / 10
      · -- the next value would not fit, and the following digits only increase it
        rw [if_pos hroom]
        have hlarge : 2 ^ 64 ≤ value * 10 + (c.toNat - 48) := by omega
        cases hvalueFrom : Decimal.valueFrom (value * 10 + (c.toNat - 48)) rest with
        | none => rfl
        | some n =>
          have hle := Decimal.le_of_valueFrom hvalueFrom
          have hnot : ¬ n < 2 ^ 64 := by omega
          rw [Option.filter_some, decide_eq_false hnot]
          rfl
      · have hfits : value * 10 + (c.toNat - 48) < 2 ^ 64 := by omega
        rw [if_neg hroom, hA.mul (by omega), pure_bind, hA.add hfits, pure_bind, ih hfits]
    · have hout : (c.toNat < 48 || c.toNat > 57) = true := by
        rw [Bool.or_eq_true, decide_eq_true_eq, decide_eq_true_eq]
        omega
      rw [hout, if_neg hdigit]
      rfl

theorem date_eq (hA : Faithful 64 A) (text : Bytes) : date A text = pure (date exact text) := by
  unfold date
  split_ifs
  · rfl
  · rw [decimalDigits_eq hA (by decide), decimalDigits_eq (exact_faithful 64) (by decide),
      pure_bind]
    cases (Decimal.valueFrom 0 text).filter fun n => decide (n < 2 ^ 64) <;> rfl

end DigitLaws

theorem noncanonical_eq_false {text : Bytes} :
    noncanonical text = false ↔ Decimal.Canonical text ∧ text.length ≤ 20 := by
  simp only [noncanonical, Bool.or_eq_false_iff, Bool.and_eq_false_iff, isEmpty_eq_false_iff,
    decide_eq_false_iff_not, Nat.not_lt, beq_eq_false_iff_ne, Decimal.Canonical]
  constructor
  · rintro ⟨⟨hne, hlength⟩, hzero⟩
    exact ⟨⟨hne, fun hlong => hzero.resolve_left (Nat.not_le_of_lt hlong)⟩, hlength⟩
  · rintro ⟨⟨hne, hzero⟩, hlength⟩
    exact ⟨⟨hne, hlength⟩, (Nat.lt_or_ge 1 text.length).symm.imp id hzero⟩

/-- What the digit loop returns on a canonical text. -/
theorem decimalDigits_iff {text : Bytes} {n : Nat} (htext : noncanonical text = false) :
    decimalDigits (wrapping 64) 0 text = some n ↔ text = Decimal.text n ∧ n < 2 ^ 64 := by
  obtain ⟨hcanonical, -⟩ := noncanonical_eq_false.mp htext
  have heq : decimalDigits (wrapping 64) 0 text =
      (Decimal.valueFrom 0 text).filter fun n => decide (n < 2 ^ 64) :=
    decimalDigits_eq (wrapping_faithful 64) (by decide) text
  rw [heq, Option.filter_eq_some_iff, decide_eq_true_eq]
  constructor
  · rintro ⟨hvalue, hlt⟩
    exact ⟨(Decimal.text_of_valueFrom hcanonical hvalue).symm, hlt⟩
  · rintro ⟨rfl, hlt⟩
    exact ⟨Decimal.valueFrom_text n, hlt⟩

theorem noncanonical_text {n : Nat} (hn : n < 2 ^ 64) : noncanonical (Decimal.text n) = false :=
  noncanonical_eq_false.mpr ⟨Decimal.text_canonical n,
    Decimal.text_length_le (by decide) (hn.trans (by decide))⟩

/-- **`Date` accepts exactly the text of the admitted dates.** -/
theorem date_iff {text : Bytes} {value : Nat} :
    date (wrapping 64) text = Except.ok value ↔
      text = Decimal.text value ∧ dateValid value = true := by
  have hrun : date (wrapping 64) text =
      if noncanonical text then .error "Malformed build lease: noncanonical timestamp"
      else
        match decimalDigits (wrapping 64) 0 text with
        | none => .error "Malformed build lease: timestamp digit or overflow"
        | some value =>
            if !dateValid value then .error "Malformed build lease: timestamp outside admitted range"
            else .ok value := rfl
  rw [hrun]
  constructor
  · intro h
    split_ifs at h with hform
    rw [Bool.not_eq_true] at hform
    cases hdigits : decimalDigits (wrapping 64) 0 text with
    | none =>
      rw [hdigits] at h
      cases h
    | some n =>
      simp only [hdigits] at h
      split_ifs at h with hvalid
      cases h
      exact ⟨((decimalDigits_iff hform).mp hdigits).1, by simpa using hvalid⟩
  · rintro ⟨rfl, hvalid⟩
    have hlt : value < 2 ^ 64 := by
      have := dateValid_lt hvalid
      omega
    have hform := noncanonical_text hlt
    simp [hform, (decimalDigits_iff hform).mpr ⟨rfl, hlt⟩, hvalid]

/-! ## Lines and rows -/

theorem line_eq_some {text before after : Bytes} :
    line text = some (before, after) ↔ text = before ++ 10 :: after ∧ 10 ∉ before := by
  induction text generalizing before with
  | nil => simp [line]
  | cons c rest ih =>
    rw [line]
    split_ifs with hc
    · subst hc
      constructor
      · intro h
        cases h
        exact ⟨rfl, not_mem_nil⟩
      · rintro ⟨htext, hbefore⟩
        cases before with
        | nil =>
          rw [nil_append, List.cons.injEq] at htext
          rw [htext.2]
        | cons b before =>
          rw [cons_append, List.cons.injEq] at htext
          exact absurd (htext.1 ▸ mem_cons_self) hbefore
    · constructor
      · intro h
        obtain ⟨⟨inner, tail⟩, hrest, hpair⟩ := Option.map_eq_some_iff.mp h
        cases hpair
        obtain ⟨rfl, hinner⟩ := ih.mp hrest
        exact ⟨rfl, by simp [Ne.symm hc, hinner]⟩
      · rintro ⟨htext, hbefore⟩
        cases before with
        | nil =>
          rw [nil_append, List.cons.injEq] at htext
          exact absurd htext.1 hc
        | cons b before =>
          rw [cons_append, List.cons.injEq] at htext
          obtain ⟨rfl, rfl⟩ := htext
          rw [ih.mpr ⟨rfl, fun h => hbefore (mem_cons_of_mem c h)⟩]
          rfl

theorem line_append {before : Bytes} (h : 10 ∉ before) (after : Bytes) :
    line (before ++ 10 :: after) = some (before, after) :=
  line_eq_some.mpr ⟨rfl, h⟩

/-- The line of a grant. -/
def rowText (grant : Grant) : Bytes := grant.hostSha256 ++ 32 :: Decimal.text grant.validUntil

theorem hashValid_iff {hash : Bytes} :
    hashValid hash = true ↔ hash.length = 64 ∧ ∀ c ∈ hash, (nibble c).isSome = true := by
  simp [hashValid]

theorem hashValid_ne_nil {hash : Bytes} (h : hashValid hash = true) : hash ≠ [] := by
  rintro rfl
  cases (hashValid_iff.mp h).1

/-- **`Row` accepts exactly the line of a valid grant.** -/
theorem row_iff {text : Bytes} {grant : Grant} :
    row text = .ok grant ↔
      text = rowText grant ∧ hashValid grant.hostSha256 = true ∧
        dateValid grant.validUntil = true := by
  unfold row
  constructor
  · intro h
    split_ifs at h with hform
    simp only [Bool.or_eq_true, decide_eq_true_eq, bne_iff_ne, Bool.not_eq_true', not_or, Nat.not_lt,
      not_not, Bool.not_eq_false] at hform
    obtain ⟨⟨hlength, hspace⟩, hhash⟩ := hform
    cases hdate : date (wrapping 64) (text.drop 65) with
    | error error =>
      rw [hdate] at h
      cases h
    | ok timestamp =>
      simp only [hdate] at h
      cases h
      obtain ⟨htext, hvalid⟩ := date_iff.mp hdate
      refine ⟨?_, hhash, hvalid⟩
      have hlt : 64 < text.length := by omega
      have hchar : text[64] = 32 := Option.some.inj ((getElem?_eq_getElem hlt).symm.trans hspace)
      calc text = text.take 64 ++ text.drop 64 := (take_append_drop 64 text).symm
        _ = text.take 64 ++ 32 :: Decimal.text timestamp := by
          rw [drop_eq_getElem_cons hlt, hchar, htext]
  · rintro ⟨rfl, hhash, hvalid⟩
    have hlength : grant.hostSha256.length = 64 := (hashValid_iff.mp hhash).1
    have hpos : 0 < (Decimal.text grant.validUntil).length :=
      length_pos_iff.mpr (Decimal.text_canonical _).1
    have htake : (rowText grant).take 64 = grant.hostSha256 := take_left' hlength
    have hdrop : (rowText grant).drop 65 = Decimal.text grant.validUntil := by
      rw [rowText, append_cons]
      exact drop_left' (by simp [hlength])
    have hspace : (rowText grant)[64]? = some 32 := by
      rw [rowText, getElem?_append_right (by omega), hlength]
      rfl
    have hlong : 66 ≤ (rowText grant).length := by
      simp only [rowText, length_append, length_cons]
      omega
    rw [htake, hdrop, hspace, date_iff.mpr ⟨rfl, hvalid⟩, hhash]
    simp [Nat.not_lt.mpr hlong]

theorem not_mem_hash {hash : Bytes} (h : hashValid hash = true) : 10 ∉ hash := by
  intro hmem
  exact absurd ((hashValid_iff.mp h).2 10 hmem) (by decide)

theorem not_mem_text (n : Nat) : 10 ∉ Decimal.text n := by
  intro hmem
  exact absurd (Decimal.isDigit_of_mem_text hmem).1 (by decide)

theorem not_mem_rowText {grant : Grant} (h : hashValid grant.hostSha256 = true) :
    10 ∉ rowText grant := by
  have hhash := not_mem_hash h
  have htext := not_mem_text grant.validUntil
  simp [rowText, hhash, htext]

/-! ## Capabilities -/

/-- The names of a set of capabilities, in the order of the table. -/
def capabilityNames (capabilities : BitVec 8) : List Bytes :=
  (kCapabilityTokens.filter fun known => capabilities &&& known.2 ≠ 0).map Prod.fst

/-- The union of the bits of some tokens. -/
def capabilityBits (tokens : List Bytes) : BitVec 8 :=
  tokens.foldr (fun token bits => capabilityBit token ||| bits) 0

theorem capabilityBit_table : ∀ known ∈ kCapabilityTokens, capabilityBit known.1 = known.2 := by
  decide

/-- Different entries have disjoint, nonzero bits. -/
theorem capability_disjoint : ∀ known ∈ kCapabilityTokens, ∀ other ∈ kCapabilityTokens,
    known.2 &&& other.2 ≠ 0 ↔ known.1 = other.1 := by
  decide

theorem capabilityBit_ne_zero {token : Bytes} :
    capabilityBit token ≠ 0 ↔ ∃ known ∈ kCapabilityTokens, known.1 = token := by
  constructor
  · intro h
    by_contra hnone
    push Not at hnone
    have hne : ∀ known ∈ kCapabilityTokens, token ≠ known.1 := fun known hk => (hnone known hk).symm
    simp only [kCapabilityTokens, forall_mem_cons] at hne
    obtain ⟨h₁, h₂, h₃, h₄, -⟩ := hne
    exact h (by simp [capabilityBit, kCapabilityTokens, h₁, h₂, h₃, h₄])
  · rintro ⟨known, hmem, rfl⟩
    rw [capabilityBit_table known hmem]
    intro hzero
    have := (capability_disjoint known hmem known hmem).mpr rfl
    exact this (by rw [hzero]; rfl)

theorem or_and_ne_zero {a b k : BitVec 8} : (a ||| b) &&& k ≠ 0 ↔ a &&& k ≠ 0 ∨ b &&& k ≠ 0 := by
  have hzero : ((a ||| b) &&& k = 0#8) ↔ (a &&& k = 0#8) ∧ (b &&& k = 0#8) := by
    rw [BitVec.and_or_distrib_right, BitVec.or_eq_zero_iff]
  exact (not_congr hzero).trans not_and_or

theorem capabilityBit_and {t u : Bytes} (ht : capabilityBit t ≠ 0) (hu : capabilityBit u ≠ 0) :
    capabilityBit t &&& capabilityBit u ≠ 0 ↔ t = u := by
  obtain ⟨known, hknown, rfl⟩ := capabilityBit_ne_zero.mp ht
  obtain ⟨other, hother, rfl⟩ := capabilityBit_ne_zero.mp hu
  rw [capabilityBit_table known hknown, capabilityBit_table other hother]
  exact capability_disjoint known hknown other hother

theorem capabilityBits_and {tokens : List Bytes} (h : ∀ t ∈ tokens, capabilityBit t ≠ 0) {u : Bytes}
    (hu : capabilityBit u ≠ 0) : capabilityBits tokens &&& capabilityBit u ≠ 0 ↔ u ∈ tokens := by
  induction tokens with
  | nil => simp [capabilityBits]
  | cons t rest ih =>
    have hrest := ih fun t ht => h t (mem_cons_of_mem _ ht)
    rw [capabilityBits, foldr_cons, or_and_ne_zero, mem_cons,
      capabilityBit_and (h t mem_cons_self) hu, eq_comm]
    exact or_congr_right hrest

theorem capabilityBits_lt (tokens : List Bytes) : (capabilityBits tokens).toNat < 16 := by
  induction tokens with
  | nil => decide
  | cons t rest ih =>
    have hbit : (capabilityBit t).toNat < 2 ^ 4 := by
      by_cases hzero : capabilityBit t = 0
      · rw [hzero]
        decide
      · obtain ⟨known, hknown, rfl⟩ := capabilityBit_ne_zero.mp hzero
        have htable : ∀ known ∈ kCapabilityTokens, known.2.toNat < 2 ^ 4 := by decide
        rw [capabilityBit_table known hknown]
        exact htable known hknown
    show (capabilityBit t ||| capabilityBits rest).toNat < 2 ^ 4
    rw [BitVec.toNat_or]
    exact Nat.or_lt_two_pow hbit ih

theorem capabilityBits_perm {t u : List Bytes} (h : t.Perm u) :
    capabilityBits t = capabilityBits u := by
  refine h.foldr_eq' (fun x _ y _ z => ?_) 0
  rw [← BitVec.or_assoc, BitVec.or_comm (capabilityBit y) (capabilityBit x), BitVec.or_assoc]

variable {capabilities : BitVec 8} {payload : Bytes}

theorem capabilityBits_names (h : capabilities.toNat < 16) :
    capabilityBits (capabilityNames capabilities) = capabilities := by
  have hall : ∀ n < 16, capabilityBits (capabilityNames (BitVec.ofNat 8 n)) = BitVec.ofNat 8 n := by
    decide
  have := hall capabilities.toNat h
  rwa [BitVec.ofNat_toNat, BitVec.setWidth_eq] at this

theorem mem_capabilityNames {u : Bytes} :
    u ∈ capabilityNames capabilities ↔
      capabilityBit u ≠ 0 ∧ capabilities &&& capabilityBit u ≠ 0 := by
  simp only [capabilityNames, mem_map, mem_filter, decide_eq_true_eq]
  constructor
  · rintro ⟨known, ⟨hmem, hbit⟩, rfl⟩
    refine ⟨capabilityBit_ne_zero.mpr ⟨known, hmem, rfl⟩, ?_⟩
    rwa [capabilityBit_table known hmem]
  · rintro ⟨hu, hbit⟩
    obtain ⟨known, hmem, rfl⟩ := capabilityBit_ne_zero.mp hu
    rw [capabilityBit_table known hmem] at hbit
    exact ⟨known, ⟨hmem, hbit⟩, rfl⟩

theorem capabilityNames_nodup (capabilities : BitVec 8) : (capabilityNames capabilities).Nodup := by
  have htable : (kCapabilityTokens.map Prod.fst).Nodup := by decide
  exact htable.sublist (filter_sublist.map Prod.fst)

/-- What the loop accepts after the bits `result`. -/
theorem capabilitiesFrom_iff {result capabilities : BitVec 8} {tokens : List Bytes} :
    capabilitiesFrom result tokens = .ok capabilities ↔
      tokens.Nodup ∧ (∀ t ∈ tokens, capabilityBit t ≠ 0 ∧ result &&& capabilityBit t = 0) ∧
        capabilities = result ||| capabilityBits tokens := by
  induction tokens generalizing result with
  | nil =>
    simp only [capabilitiesFrom, Except.ok.injEq, nodup_nil, not_mem_nil, false_implies,
      implies_true, true_and, capabilityBits, foldr_nil]
    rw [show result ||| (0 : BitVec 8) = result from BitVec.or_zero, eq_comm]
  | cons token rest ih =>
    have hbits : (result ||| capabilityBit token) ||| capabilityBits rest =
        result ||| capabilityBits (token :: rest) := BitVec.or_assoc _ _ _
    rw [capabilitiesFrom]
    constructor
    · intro h
      split_ifs at h with hzero hdup
      obtain ⟨hnodup, hall, hvalue⟩ := ih.mp h
      have hfresh : ∀ t ∈ rest, result &&& capabilityBit t = 0 ∧ token ≠ t := by
        intro t ht
        obtain ⟨hbit, hand⟩ := hall t ht
        have hnot := mt or_and_ne_zero.mpr (not_not.mpr hand)
        rw [not_or, not_not, capabilityBit_and hzero hbit] at hnot
        exact hnot
      refine ⟨nodup_cons.mpr ⟨fun hmem => (hfresh token hmem).2 rfl, hnodup⟩, ?_, ?_⟩
      · intro t ht
        rcases mem_cons.mp ht with rfl | ht
        · exact ⟨hzero, not_not.mp hdup⟩
        · exact ⟨(hall t ht).1, (hfresh t ht).1⟩
      · rw [hvalue, hbits]
    · rintro ⟨hnodup, hall, rfl⟩
      obtain ⟨hnot, hnodup⟩ := nodup_cons.mp hnodup
      obtain ⟨hzero, hdup⟩ := hall token mem_cons_self
      rw [if_neg hzero, if_neg (not_not.mpr hdup), ih]
      refine ⟨hnodup, fun t ht => ?_, hbits.symm⟩
      obtain ⟨hbit, hand⟩ := hall t (mem_cons_of_mem _ ht)
      refine ⟨hbit, not_not.mp fun hne => ?_⟩
      rcases or_and_ne_zero.mp hne with hne | hne
      · exact hne hand
      · exact hnot ((capabilityBit_and hzero hbit).mp hne ▸ ht)

/-- **The tokens of a set are its names, in any order.** -/
theorem capabilitiesFrom_zero_iff {tokens : List Bytes} :
    capabilitiesFrom 0 tokens = .ok capabilities ↔
      tokens.Perm (capabilityNames capabilities) ∧ capabilities.toNat < 16 := by
  have hzero : ∀ b : BitVec 8, (0 : BitVec 8) ||| b = b := fun b => BitVec.zero_or
  rw [capabilitiesFrom_iff]
  constructor
  · rintro ⟨hnodup, hall, rfl⟩
    rw [hzero]
    refine ⟨(perm_ext_iff_of_nodup hnodup (capabilityNames_nodup _)).mpr fun u => ?_,
      capabilityBits_lt tokens⟩
    have hbits : ∀ t ∈ tokens, capabilityBit t ≠ 0 := fun t ht => (hall t ht).1
    rw [mem_capabilityNames]
    constructor
    · intro hu
      exact ⟨hbits u hu, (capabilityBits_and hbits (hbits u hu)).mpr hu⟩
    · rintro ⟨hu, hbit⟩
      exact (capabilityBits_and hbits hu).mp hbit
  · rintro ⟨hperm, hlt⟩
    refine ⟨hperm.nodup_iff.mpr (capabilityNames_nodup _), fun t ht => ⟨?_, BitVec.zero_and⟩, ?_⟩
    · exact (mem_capabilityNames.mp (hperm.mem_iff.mp ht)).1
    · rw [hzero, capabilityBits_perm hperm, capabilityBits_names hlt]

/-- **`ParseTicketCapabilities` accepts exactly the names, in any order, of a set.** -/
theorem parseTicketCapabilities_iff {text : Bytes} :
    parseTicketCapabilities text = .ok capabilities ↔
      capabilities ≠ 0 ∧ capabilities.toNat < 16 ∧
        ∃ tokens : List Bytes, tokens.Perm (capabilityNames capabilities) ∧
          text = [44].intercalate tokens := by
  have hnames : ∀ t ∈ kCapabilityTokens.map Prod.fst, t ≠ [] ∧ 44 ∉ t := by decide
  have hname : ∀ t, capabilityBit t ≠ 0 → t ≠ [] ∧ 44 ∉ t := by
    intro t ht
    obtain ⟨known, hmem, rfl⟩ := capabilityBit_ne_zero.mp ht
    exact hnames _ (mem_map_of_mem hmem)
  unfold parseTicketCapabilities
  constructor
  · intro h
    split_ifs at h with hempty
    obtain ⟨hperm, hlt⟩ := capabilitiesFrom_zero_iff.mp h
    refine ⟨?_, hlt, text.splitOn 44, hperm, (intercalate_splitOn 44).symm⟩
    rintro rfl
    exact splitOnP_ne_nil _ _ hperm.eq_nil
  · rintro ⟨hne, hlt, tokens, hperm, rfl⟩
    have htokens : ∀ t ∈ tokens, t ≠ [] ∧ 44 ∉ t := fun t ht =>
      hname t (mem_capabilityNames.mp (hperm.mem_iff.mp ht)).1
    have hsome : tokens ≠ [] := by
      rintro rfl
      rw [← capabilityBits_names hlt, ← capabilityBits_perm hperm] at hne
      exact hne rfl
    have hsplit : ([44].intercalate tokens).splitOn 44 = tokens :=
      splitOn_intercalate 44 (fun t ht => (htokens t ht).2) hsome
    have hnonempty : ([44].intercalate tokens).isEmpty = false := by
      rw [isEmpty_eq_false_iff]
      intro hnil
      rw [hnil] at hsplit
      have hmem : ([] : Bytes) ∈ tokens := hsplit ▸ mem_singleton_self _
      exact (htokens [] hmem).1 rfl
    rw [hnonempty, hsplit, if_neg Bool.false_ne_true]
    exact capabilitiesFrom_zero_iff.mpr ⟨hperm, hlt⟩

/-! ## Tickets -/

/-- The lines of a ticket, with its capabilities named in the order of `tokens`. -/
def ticketLines (ticket : Ticket) (tokens : List Bytes) : Bytes :=
  rowText ⟨ticket.hostSha256, ticket.createdUtc⟩ ++ 10 ::
    if ticket.capabilities = 0 then [] else kCapabilitiesPrefix ++ [44].intercalate tokens ++ [10]

/-- The text of a ticket. -/
def ticketText (ticket : Ticket) (tokens : List Bytes) : Bytes :=
  (if ticket.killSwitch then kKillSwitchTicketHeader else kTicketHeader) ++
    ticketLines ticket tokens

theorem not_mem_intercalate {tokens : List Bytes} (h : ∀ t ∈ tokens, 10 ∉ t) :
    10 ∉ [44].intercalate tokens := by
  induction tokens with
  | nil => simp
  | cons t rest ih =>
    have hrest := ih fun t ht => h t (mem_cons_of_mem _ ht)
    have ht := h t mem_cons_self
    cases rest with
    | nil => simpa [List.intercalate] using ht
    | cons u rest =>
      rw [intercalate_cons_cons]
      simp [ht, hrest]

theorem capabilityNames_zero : capabilityNames 0 = [] := by decide

/-- A byte string begins with a prefix and ends with the rest. -/
theorem eq_append_drop {pre text : Bytes} (h : pre.isPrefixOf text = true) :
    text = pre ++ text.drop pre.length := by
  obtain ⟨rest, rfl⟩ := isPrefixOf_iff_prefix.mp h
  rw [drop_left]

theorem isPrefixOf_append (pre text : Bytes) : pre.isPrefixOf (pre ++ text) = true :=
  isPrefixOf_iff_prefix.mpr (prefix_append _ _)

theorem ticketOfLines_iff {killSwitch : Bool} {ticket : Ticket} :
    ticketOfLines killSwitch payload = .ok ticket ↔
      ticket.killSwitch = killSwitch ∧ hashValid ticket.hostSha256 = true ∧
        dateValid ticket.createdUtc = true ∧ ticket.capabilities.toNat < 16 ∧
        ∃ tokens : List Bytes, tokens.Perm (capabilityNames ticket.capabilities) ∧
          payload = ticketLines ticket tokens := by
  constructor
  · intro h
    unfold ticketOfLines at h
    cases hline : line payload with
    | none =>
      rw [hline] at h
      cases h
    | some lines =>
      obtain ⟨first, rest⟩ := lines
      obtain ⟨rfl, -⟩ := line_eq_some.mp hline
      simp only [hline] at h
      cases hrow : row first with
      | error error =>
        rw [hrow] at h
        cases h
      | ok grant =>
        obtain ⟨rfl, hhash, hdate⟩ := row_iff.mp hrow
        simp only [hrow] at h
        by_cases hempty : rest.isEmpty = true
        · rw [if_pos hempty] at h
          cases h
          refine ⟨rfl, hhash, hdate, show (0 : BitVec 8).toNat < 16 by decide, [],
            by rw [capabilityNames_zero], ?_⟩
          rw [List.isEmpty_iff.mp hempty]
          rfl
        · rw [if_neg hempty] at h
          cases hextra : line rest with
          | none =>
            rw [hextra] at h
            cases h
          | some lines =>
            obtain ⟨extra, tail⟩ := lines
            cases tail with
            | cons c tail =>
              rw [hextra] at h
              cases h
            | nil =>
              obtain ⟨rfl, -⟩ := line_eq_some.mp hextra
              simp only [hextra] at h
              split_ifs at h with hpre
              rw [Bool.not_eq_true, Bool.not_eq_false'] at hpre
              cases hcaps : parseTicketCapabilities (extra.drop kCapabilitiesPrefix.length) with
              | error error =>
                rw [hcaps] at h
                cases h
              | ok capabilities =>
                simp only [hcaps] at h
                cases h
                obtain ⟨hne, hlt, tokens, hperm, htext⟩ := parseTicketCapabilities_iff.mp hcaps
                refine ⟨rfl, hhash, hdate, hlt, tokens, hperm, ?_⟩
                rw [ticketLines, if_neg hne, ← htext, ← eq_append_drop hpre]
  · rintro ⟨rfl, hhash, hdate, hlt, tokens, hperm, rfl⟩
    have hrow : row (rowText ⟨ticket.hostSha256, ticket.createdUtc⟩) =
        .ok ⟨ticket.hostSha256, ticket.createdUtc⟩ := row_iff.mpr ⟨rfl, hhash, hdate⟩
    unfold ticketOfLines ticketLines
    rw [line_append (not_mem_rowText hhash)]
    simp only [hrow]
    by_cases hzero : ticket.capabilities = 0
    · rw [if_pos hzero, isEmpty_nil, if_pos rfl, ← hzero]
    · have hnames : ∀ t ∈ kCapabilityTokens.map Prod.fst, 10 ∉ t := by decide
      have hnot : 10 ∉ kCapabilitiesPrefix ++ [44].intercalate tokens := by
        rw [mem_append, not_or]
        refine ⟨by decide, not_mem_intercalate fun t ht => ?_⟩
        obtain ⟨known, hmem, rfl⟩ :=
          capabilityBit_ne_zero.mp (mem_capabilityNames.mp (hperm.mem_iff.mp ht)).1
        exact hnames _ (mem_map_of_mem hmem)
      have hextra := line_append hnot []
      have hcaps : parseTicketCapabilities ([44].intercalate tokens) = .ok ticket.capabilities :=
        parseTicketCapabilities_iff.mpr ⟨hzero, hlt, tokens, hperm, rfl⟩
      have hpre := isPrefixOf_append kCapabilitiesPrefix ([44].intercalate tokens)
      rw [if_neg hzero, if_neg (by simp), hextra]
      simp only [hpre, drop_left, hcaps, Bool.not_true, if_neg Bool.false_ne_true]

/-- **A ticket is read from its text alone.** -/
theorem ticketOfPayload_iff {ticket : Ticket} :
    ticketOfPayload payload = .ok ticket ↔
      hashValid ticket.hostSha256 = true ∧ dateValid ticket.createdUtc = true ∧
        ticket.capabilities.toNat < 16 ∧
        ∃ tokens : List Bytes, tokens.Perm (capabilityNames ticket.capabilities) ∧
          payload = ticketText ticket tokens := by
  unfold ticketOfPayload
  constructor
  · intro h
    split_ifs at h with hkill hplain
    · obtain ⟨hswitch, hhash, hdate, hlt, tokens, hperm, hlines⟩ := ticketOfLines_iff.mp h
      refine ⟨hhash, hdate, hlt, tokens, hperm, ?_⟩
      rw [ticketText, if_pos hswitch, ← hlines]
      exact eq_append_drop hkill
    · obtain ⟨hswitch, hhash, hdate, hlt, tokens, hperm, hlines⟩ := ticketOfLines_iff.mp h
      refine ⟨hhash, hdate, hlt, tokens, hperm, ?_⟩
      rw [ticketText, hswitch, if_neg Bool.false_ne_true, ← hlines]
      exact eq_append_drop hplain
  · rintro ⟨hhash, hdate, hlt, tokens, hperm, rfl⟩
    have hlines : ticketOfLines ticket.killSwitch (ticketLines ticket tokens) = .ok ticket :=
      ticketOfLines_iff.mpr ⟨rfl, hhash, hdate, hlt, tokens, hperm, rfl⟩
    cases hswitch : ticket.killSwitch with
    | true =>
      rw [ticketText, if_pos hswitch, if_pos (isPrefixOf_append _ _), drop_left, ← hswitch]
      exact hlines
    | false =>
      -- the two headers have one length and differ in their version
      have hother : kKillSwitchTicketHeader.isPrefixOf (kTicketHeader ++ ticketLines ticket tokens) =
          false := by
        rw [Bool.eq_false_iff]
        intro h
        have hpre := isPrefixOf_iff_prefix.mp h
        exact absurd (prefix_of_prefix_length_le hpre (prefix_append _ _)
          (by decide)) (by decide)
      rw [ticketText, hswitch, if_neg Bool.false_ne_true, hother, if_neg Bool.false_ne_true,
        if_pos (isPrefixOf_append _ _), drop_left, ← hswitch]
      exact hlines

/-! ## Lists of grants -/

/-- The lines of some grants. -/
def grantsText : List Grant → Bytes
  | [] => []
  | grant :: rest => rowText grant ++ 10 :: grantsText rest

/-- The text of a list of grants. -/
def leasesText (leases : Leases) : Bytes :=
  kLeasesHeader ++ (Decimal.text leases.issuedUtc ++ 10 :: grantsText leases.grants)

theorem modelValidFrom_cons {previous : Bytes} {grant : Grant} {rest : List Grant} :
    modelValidFrom previous (grant :: rest) = true ↔
      hashValid grant.hostSha256 = true ∧ dateValid grant.validUntil = true ∧
        (previous = [] ∨ previous < grant.hostSha256) ∧
        modelValidFrom grant.hostSha256 rest = true := by
  simp [modelValidFrom, and_assoc]

theorem sorted_iff {last : Option Bytes} (hlast : ∀ host ∈ last, host ≠ []) (grant : Grant) :
    (last.any fun host => decide (grant.hostSha256 ≤ host)) = false ↔
      last.getD [] = [] ∨ last.getD [] < grant.hostSha256 := by
  cases last with
  | none => simp
  | some host =>
    rw [Option.any_some, decide_eq_false_iff_not, Option.getD_some, List.not_le]
    exact (or_iff_right (hlast host rfl)).symm

/-- The loop accepts exactly the lines of valid, strictly sorted grants that fit. -/
theorem grantsFrom_iff {slots : Nat} {last : Option Bytes} {grants : List Grant}
    (hlast : ∀ host ∈ last, host ≠ []) :
    grantsFrom slots last payload = .ok grants ↔
      payload = grantsText grants ∧ grants.length ≤ slots ∧
        modelValidFrom (last.getD []) grants = true := by
  induction slots generalizing last payload grants with
  | zero =>
    unfold grantsFrom
    constructor
    · intro h
      split_ifs at h with hempty
      cases h
      exact ⟨List.isEmpty_iff.mp hempty, le_refl _, rfl⟩
    · rintro ⟨rfl, hlength, -⟩
      rw [length_eq_zero_iff.mp (Nat.le_zero.mp hlength)]
      rfl
  | succ slots ih =>
    unfold grantsFrom
    constructor
    · intro h
      split_ifs at h with hempty
      · cases h
        exact ⟨List.isEmpty_iff.mp hempty, Nat.zero_le _, rfl⟩
      · cases hline : line payload with
        | none =>
          simp only [hline] at h
          cases h
        | some lines =>
          obtain ⟨first, rest⟩ := lines
          obtain ⟨rfl, -⟩ := line_eq_some.mp hline
          simp only [hline] at h
          cases hrow : row first with
          | error error =>
            simp only [hrow] at h
            cases h
          | ok grant =>
            obtain ⟨rfl, hhash, hdate⟩ := row_iff.mp hrow
            simp only [hrow] at h
            split_ifs at h with hsorted
            have hnext : ∀ host ∈ some grant.hostSha256, host ≠ [] := by
              rintro host ⟨⟩
              exact hashValid_ne_nil hhash
            cases hrec : grantsFrom slots (some grant.hostSha256) rest with
            | error error =>
              rw [hrec] at h
              cases h
            | ok tail =>
              rw [hrec] at h
              cases h
              obtain ⟨rfl, hlength, hvalid⟩ := (ih hnext).mp hrec
              refine ⟨rfl, Nat.succ_le_succ hlength, modelValidFrom_cons.mpr ⟨hhash, hdate, ?_, hvalid⟩⟩
              exact (sorted_iff hlast grant).mp (Bool.not_eq_true _ ▸ hsorted)
    · rintro ⟨rfl, hlength, hvalid⟩
      cases grants with
      | nil => rfl
      | cons grant rest =>
        obtain ⟨hhash, hdate, hsorted, hrest⟩ := modelValidFrom_cons.mp hvalid
        have hnext : ∀ host ∈ some grant.hostSha256, host ≠ [] := by
          rintro host ⟨⟩
          exact hashValid_ne_nil hhash
        have hrec : grantsFrom slots (some grant.hostSha256) (grantsText rest) = .ok rest :=
          (ih hnext).mpr ⟨rfl, Nat.le_of_succ_le_succ hlength, hrest⟩
        have hne : (grantsText (grant :: rest)).isEmpty = false := by
          rw [isEmpty_eq_false_iff]
          exact append_ne_nil_of_right_ne_nil _ (cons_ne_nil _ _)
        rw [hne, if_neg Bool.false_ne_true, grantsText, line_append (not_mem_rowText hhash)]
        simp only [row_iff.mpr ⟨rfl, hhash, hdate⟩, (sorted_iff hlast grant).mpr hsorted,
          if_neg Bool.false_ne_true, hrec]
        rfl

/-- **A list of grants is read from its text alone.** -/
theorem leasesOfPayload_iff {leases : Leases} :
    leasesOfPayload payload = .ok leases ↔
      payload = leasesText leases ∧ modelValid leases = true := by
  have hnone : ∀ host ∈ (none : Option Bytes), host ≠ [] := by
    rintro host ⟨⟩
  unfold leasesOfPayload
  constructor
  · intro h
    split_ifs at h with hpre
    rw [Bool.not_eq_true, Bool.not_eq_false'] at hpre
    have hpayload := eq_append_drop hpre
    cases hline : line (payload.drop kLeasesHeader.length) with
    | none =>
      rw [hline] at h
      cases h
    | some lines =>
      obtain ⟨first, rest⟩ := lines
      rw [(line_eq_some.mp hline).1] at hpayload
      simp only [hline] at h
      cases hdate : date (wrapping 64) first with
      | error error =>
        rw [hdate] at h
        cases h
      | ok issued =>
        obtain ⟨rfl, hvalid⟩ := date_iff.mp hdate
        simp only [hdate] at h
        cases hgrants : grantsFrom kMaximumGrants none rest with
        | error error =>
          rw [hgrants] at h
          cases h
        | ok grants =>
          rw [hgrants] at h
          cases h
          obtain ⟨rfl, hlength, hmodel⟩ := (grantsFrom_iff hnone).mp hgrants
          exact ⟨hpayload, modelValid_iff.mpr ⟨hvalid, hlength, hmodel⟩⟩
  · rintro ⟨rfl, hmodel⟩
    obtain ⟨hvalid, hlength, hgrants⟩ := modelValid_iff.mp hmodel
    have hrec : grantsFrom kMaximumGrants none (grantsText leases.grants) = .ok leases.grants :=
      (grantsFrom_iff hnone).mpr ⟨rfl, hlength, hgrants⟩
    have hdate : date (wrapping 64) (Decimal.text leases.issuedUtc) = Except.ok leases.issuedUtc :=
      date_iff.mpr ⟨rfl, hvalid⟩
    rw [leasesText, isPrefixOf_append, drop_left, line_append (not_mem_text _)]
    simp only [hdate, hrec, Bool.not_true, if_neg Bool.false_ne_true]
    rfl

/-! ## The readers of envelopes -/

theorem eq_of_find {pattern text : Bytes} {i : Nat} (h : find pattern text = some i) :
    text = text.take i ++ (pattern ++ text.drop (i + pattern.length)) := by
  induction text generalizing i with
  | nil =>
    unfold find at h
    split_ifs at h with hempty
    cases h
    rw [List.isEmpty_iff.mp hempty]
    rfl
  | cons c rest ih =>
    rw [find] at h
    split_ifs at h with hpre
    · cases h
      rw [Nat.zero_add, take_zero, nil_append]
      exact eq_append_drop hpre
    · obtain ⟨j, hj, rfl⟩ := Option.map_eq_some_iff.mp h
      rw [Nat.add_right_comm, take_succ_cons, drop_succ_cons, cons_append, ← ih hj]

/-- The parts of an authenticated envelope. -/
theorem eq_of_authenticatedPayload {crypto : Crypto} {envelope publicKey payload : Bytes}
    (h : authenticatedPayload crypto envelope publicKey = .ok payload) :
    ∃ encoded signature hash, envelope = payload ++ (kSignatureMarker ++ (encoded ++ [10])) ∧
      encoded.length = 512 ∧ fromHex encoded = some signature ∧
      digest crypto payload = .ok hash ∧ crypto.verifies publicKey hash signature = true := by
  unfold authenticatedPayload at h
  by_cases hbound : (envelope.isEmpty || envelope.length > kMaximumEnvelopeBytes) = true
  · rw [if_pos hbound] at h
    cases h
  rw [if_neg hbound] at h
  by_cases hascii : (envelope.any fun c =>
      c != 10 && (c.toNat < 0x20 || c.toNat > 0x7E)) = true
  · rw [if_pos hascii] at h
    cases h
  rw [if_neg hascii] at h
  cases hfind : find kSignatureMarker envelope with
  | none =>
    rw [hfind] at h
    cases h
  | some marker =>
    have hcut := eq_of_find hfind
    simp only [hfind] at h
    by_cases hplace : marker = 0 ∨ envelope[marker - 1]? ≠ some 10 ∨
        rfind kSignatureMarker envelope ≠ some marker
    · rw [if_pos hplace] at h
      cases h
    rw [if_neg hplace] at h
    generalize envelope.drop (marker + kSignatureMarker.length) = encoded at h hcut
    by_cases hlength : encoded.length ≠ 513 ∨ encoded.getLast? ≠ some 10
    · rw [if_pos hlength] at h
      cases h
    rw [if_neg hlength] at h
    push Not at hlength
    cases hhex : fromHex (encoded.take 512) with
    | none =>
      rw [hhex] at h
      cases h
    | some signature =>
      simp only [hhex] at h
      cases hkey : keyError publicKey with
      | some error =>
        rw [hkey] at h
        cases h
      | none =>
        simp only [hkey] at h
        split_ifs at h with himport
        cases hdigest : digest crypto (envelope.take marker) with
        | error error =>
          rw [hdigest] at h
          cases h
        | ok hash =>
          simp only [hdigest] at h
          split_ifs at h with hverify
          cases h
          rw [Bool.not_eq_true, Bool.not_eq_false'] at hverify
          refine ⟨encoded.take 512, signature, hash, ?_, by simp [hlength.1], hhex, hdigest, hverify⟩
          have hlast : encoded = encoded.take 512 ++ [10] := by
            obtain ⟨front, heq⟩ := getLast?_eq_some_iff.mp hlength.2
            have hfront : front.length = 512 := by
              have := hlength.1
              rw [heq, length_append, length_singleton] at this
              omega
            rw [heq, take_left' hfront]
          rw [← hlast]
          exact hcut

theorem bind_ok {α β : Type} {x : Except String α} {f : α → Except String β} {b : β} :
    x >>= f = .ok b ↔ ∃ a, x = .ok a ∧ f a = .ok b := by
  cases x with
  | error error => exact ⟨fun h => (by cases h), fun ⟨_, h, _⟩ => (by cases h)⟩
  | ok a =>
    constructor
    · intro h
      exact ⟨a, rfl, h⟩
    · rintro ⟨_, ⟨⟩, h⟩
      exact h

/-- **Signed text has one meaning.**  Whatever the cryptography accepts, the readers
return a value exactly for the text of that value, with its fields valid; the date
reader accepts exactly the canonical dates; and the digit loop never wraps. -/
theorem parse_canonical (crypto : Crypto) (envelope publicKey : Bytes) :
    (∀ ticket, parseTicket crypto envelope publicKey = .ok ticket ↔
      ∃ payload, authenticatedPayload crypto envelope publicKey = .ok payload ∧
        hashValid ticket.hostSha256 = true ∧ dateValid ticket.createdUtc = true ∧
        ticket.capabilities.toNat < 16 ∧
        ∃ tokens : List Bytes, tokens.Perm (capabilityNames ticket.capabilities) ∧
          payload = ticketText ticket tokens) ∧
    (∀ leases, parseLeases crypto envelope publicKey = .ok leases ↔
      ∃ payload, authenticatedPayload crypto envelope publicKey = .ok payload ∧
        payload = leasesText leases ∧ modelValid leases = true) ∧
    (∀ payload, authenticatedPayload crypto envelope publicKey = .ok payload →
      ∃ encoded signature hash, envelope = payload ++ (kSignatureMarker ++ (encoded ++ [10])) ∧
        encoded.length = 512 ∧ fromHex encoded = some signature ∧
        digest crypto payload = .ok hash ∧ crypto.verifies publicKey hash signature = true) ∧
    (∀ text value, date (wrapping 64) text = Except.ok value ↔
      text = Decimal.text value ∧ dateValid value = true) ∧
    (∀ text, date (checked 64) text = some (date (wrapping 64) text)) ∧
    (∀ text, decimalDigits (checked 64) 0 text = some (decimalDigits (wrapping 64) 0 text)) := by
  refine ⟨fun ticket => ?_, fun leases => ?_, fun payload => eq_of_authenticatedPayload,
    fun text value => date_iff, fun text => ?_, fun text => ?_⟩
  · rw [parseTicket, bind_ok]
    exact exists_congr fun payload => and_congr_right fun _ => ticketOfPayload_iff
  · rw [parseLeases, bind_ok]
    exact exists_congr fun payload => and_congr_right fun _ => leasesOfPayload_iff
  · rw [date_eq (checked_faithful 64), date_eq (wrapping_faithful 64)]
    rfl
  · rw [decimalDigits_eq (checked_faithful 64) (by decide),
      decimalDigits_eq (wrapping_faithful 64) (by decide)]
    rfl

end Mcla.Lease
