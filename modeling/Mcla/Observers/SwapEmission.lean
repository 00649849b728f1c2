import Mcla.Library.AnsweredRun

/-! # The swap ledger

A swap packet of four stock words may carry seven words more: a tag, a version, a length and a
token of two 64-bit fields.  The ledger gives out tokens, one for each swap, and keeps the
stock and fetch words of the swap with a snapshot; whoever brings a token back in a packet gets
the snapshot, once, against the same words.  The calls on a ledger come one after another,
since the caller synchronises them.
-/
namespace Mcla.SwapEmission
open AnsweredRun
open List

/-! ### Words and tokens -/

abbrev Word := BitVec 32

def kStockWords : Nat := 4
def kFetchWords : Nat := 6
def kExtendedWords : Nat := 11
def kMaximumPayloadWords : Nat := 56
def kMagic : Word := 0x4D535750
def kVersion : Word := 1
def kMaxQpc : Nat := 2 ^ 63 - 1

/-- What a call of the ledger answers. -/
inductive Result where
  | kLegacyDisabled | kLegacyPacket | kExtendedPacket | kTokenIssued | kTokenMatched
  | kInvalidStockWordCount | kInvalidFetchWordCount | kPayloadTooLong
  | kUnsupportedPayloadLength | kUnknownMagic | kUnknownVersion
  | kDeclaredLengthMismatch | kZeroToken | kInvalidEpoch
  | kCapacityExhausted | kUnissuedToken | kTokenEpochMismatch
  | kReplay | kStockMismatch | kFetchMismatch
  deriving DecidableEq

/-- What became of the snapshot of an emission. -/
inductive SnapshotResult where
  | kAvailable | kUnavailable | kInvalidQpc | kMissingIdentity
  deriving DecidableEq

/-- The number of a swap, within its epoch. -/
structure Token where
  (epoch serial : BitVec 64 := 0)
  deriving DecidableEq

/-- What is observed at a swap. -/
structure Snapshot where
  (qpc_before qpc_after native_thread_id guest_caller_lr timer_address timer_counter
    timer_delta_bits : Nat := 0)
  snapshot_available : Bool := false
  callback_id : Nat := 0
  deriving DecidableEq

/-- What a payload says. -/
structure Decoded where
  stock : List Word := replicate kStockWords 0
  token : Token := {}
  extended : Bool := false

/-- What an emission returns. -/
structure Emission where
  payload : List Word := []
  token : Token := {}
  snapshot : Snapshot := {}
  snapshot_result : SnapshotResult := .kUnavailable
  deriving DecidableEq

/-- What a consumed payload is matched to. -/
structure Match where
  token : Token := {}
  snapshot : Snapshot := {}
  snapshot_result : SnapshotResult := .kUnavailable
  deriving DecidableEq

/-- `NormalizeSnapshot`: what is kept of a snapshot, and why. -/
def normalizeSnapshot (frozen : Snapshot) : SnapshotResult × Snapshot :=
  if !frozen.snapshot_available then (.kUnavailable, {})
  else if frozen.qpc_before = 0 || frozen.qpc_before > frozen.qpc_after ||
      frozen.qpc_after > kMaxQpc then (.kInvalidQpc, {})
  else if frozen.native_thread_id = 0 || frozen.guest_caller_lr = 0 ||
      frozen.timer_address = 0 then (.kMissingIdentity, {})
  else (.kAvailable, frozen)

/-! ### Packets -/

/-- The seven words of a token. -/
def extension (token : Token) : List Word :=
  [kMagic, kVersion, BitVec.ofNat 32 kExtendedWords,
    (token.epoch >>> 32).setWidth 32, token.epoch.setWidth 32,
    (token.serial >>> 32).setWidth 32, token.serial.setWidth 32]

/-- The packet of a swap. -/
def encode (stock : List Word) (token : Token) (enabled : Bool) : Result × List Word :=
  if stock.length ≠ kStockWords then (.kInvalidStockWordCount, [])
  else if enabled && (token.epoch = 0 || token.serial = 0) then (.kZeroToken, [])
  else if !enabled then (.kLegacyDisabled, stock)
  else (.kTokenIssued, stock ++ extension token)

/-- A 64-bit field from its two words. -/
def joined (high low : Word) : BitVec 64 := high.setWidth 64 <<< 32 ||| low.setWidth 64

/-- What a packet says. -/
def decode (payload : List Word) : Result × Decoded :=
  if payload.length > kMaximumPayloadWords then (.kPayloadTooLong, {})
  else if payload.length ≠ kStockWords && payload.length ≠ kExtendedWords then
    (.kUnsupportedPayloadLength, {})
  else if payload.length = kStockWords then (.kLegacyPacket, { stock := payload })
  else
    let frozen := fun i => payload.getD i 0
    if frozen 4 ≠ kMagic then (.kUnknownMagic, {})
    else if frozen 5 ≠ kVersion then (.kUnknownVersion, {})
    else if frozen 6 ≠ BitVec.ofNat 32 kExtendedWords then (.kDeclaredLengthMismatch, {})
    else
      let token : Token := ⟨joined (frozen 7) (frozen 8), joined (frozen 9) (frozen 10)⟩
      if token.epoch = 0 || token.serial = 0 then (.kZeroToken, {})
      else
        (.kExtendedPacket, { stock := payload.take kStockWords, token := token, extended := true })

theorem decode_ne_matched (payload : List Word) : (decode payload).1 ≠ .kTokenMatched := by
  unfold decode
  dsimp only
  split
  · simp
  · split
    · simp
    · split
      · simp
      · split
        · simp
        · split
          · simp
          · split
            · simp
            · split <;> simp

theorem joined_split (x : BitVec 64) : joined ((x >>> 32).setWidth 32) (x.setWidth 32) = x := by
  unfold joined
  ext i hi
  simp
  grind

/-- **The round trip**: a packet gives back the stock words and the token it was made of. -/
theorem decode_encode {stock : List Word} {token : Token} (hstock : stock.length = kStockWords)
    (hepoch : token.epoch ≠ 0) (hserial : token.serial ≠ 0) :
    (encode stock token true).1 = .kTokenIssued ∧
      decode (encode stock token true).2 =
        (.kExtendedPacket, { stock := stock, token := token, extended := true }) := by
  obtain ⟨a, b, c, d, rfl⟩ : ∃ a b c d, stock = [a, b, c, d] := by
    match stock, hstock with
    | [a, b, c, d], _ => exact ⟨a, b, c, d, rfl⟩
  have hepoch' : ¬token.epoch = 0#64 := hepoch
  have hserial' : ¬token.serial = 0#64 := hserial
  have hencode : encode [a, b, c, d] token true =
      (.kTokenIssued, [a, b, c, d] ++ extension token) := by
    simp [encode, kStockWords, hepoch', hserial']
  rw [hencode]
  refine ⟨rfl, ?_⟩
  simp [decode, extension, kStockWords, kExtendedWords, kMaximumPayloadWords, joined_split,
    hepoch', hserial']

/-! ### The ledger -/

/-- A slot of the ledger. -/
structure Entry where
  (stock fetch : List Word)
  snapshot : Snapshot := {}
  snapshot_result : SnapshotResult := .kUnavailable
  (issued consumed : Bool := false)

/-- The entries are those in use, in the order of their issue. -/
structure Ledger where
  epoch : BitVec 64 := 0
  enabled : Bool := false
  entries : List Entry := []

/-- The token of the next issue. -/
def Ledger.next (l : Ledger) : Token := ⟨l.epoch, BitVec.ofNat 64 (l.entries.length + 1)⟩

/-- `issue`, for a ledger of `capacity` entries. -/
def Ledger.issue (capacity : Nat) (l : Ledger) (stock fetch : List Word) (snapshot : Snapshot) :
    Ledger × Result × Emission :=
  if stock.length ≠ kStockWords then (l, .kInvalidStockWordCount, {})
  else if !l.enabled then
    (l, (encode stock {} false).1, { payload := (encode stock {} false).2 })
  else if fetch.length ≠ kFetchWords then (l, .kInvalidFetchWordCount, {})
  else if l.epoch = 0 then (l, .kInvalidEpoch, {})
  else if l.entries.length = capacity then (l, .kCapacityExhausted, {})
  else
    let normal := normalizeSnapshot snapshot
    let entry : Entry := ⟨stock, fetch, normal.2, normal.1, true, false⟩
    ({ l with entries := l.entries ++ [entry] }, .kTokenIssued,
      ⟨(encode stock l.next true).2, l.next, normal.2, normal.1⟩)

/-- What a recognised token is compared with. -/
def Entry.admits (entry : Entry) (stock fetch : List Word) : Result :=
  if fetch.length ≠ kFetchWords then .kInvalidFetchWordCount
  else if stock ≠ entry.stock then .kStockMismatch
  else if fetch ≠ entry.fetch then .kFetchMismatch
  else .kTokenMatched

/-- A packet is matched to what was issued. -/
def Ledger.consume (l : Ledger) (payload fetch : List Word) : Ledger × Result × Match :=
  let packet := (decode payload).2
  if (decode payload).1 ≠ .kExtendedPacket then (l, (decode payload).1, {})
  else if !l.enabled || packet.token.epoch ≠ l.epoch then (l, .kTokenEpochMismatch, {})
  else if packet.token.serial = 0 || packet.token.serial.toNat > l.entries.length then
    (l, .kUnissuedToken, {})
  else
    let slot := packet.token.serial.toNat - 1
    match l.entries[slot]? with
    | none => (l, .kUnissuedToken, {})
    | some entry =>
      if !entry.issued then (l, .kUnissuedToken, {})
      else if entry.consumed then (l, .kReplay, {})
      else
        -- the one attempt there is, whatever comes of it
        let l := { l with entries := l.entries.set slot { entry with consumed := true } }
        if entry.admits packet.stock fetch ≠ .kTokenMatched then
          (l, entry.admits packet.stock fetch, {})
        else (l, .kTokenMatched, ⟨packet.token, entry.snapshot, entry.snapshot_result⟩)

/-! ### Runs -/

/-- The calls of a ledger. -/
inductive Call where
  | issue (stock fetch : List Word) (snapshot : Snapshot)
  | consume (payload fetch : List Word)
  deriving DecidableEq

/-- What a ledger answers. -/
inductive Answer where
  | issued (result : Result) (output : Emission)
  | consumed (result : Result) (output : Match)
  deriving DecidableEq

/-- One call. -/
def Ledger.call (capacity : Nat) (l : Ledger) : Call → Ledger × Answer
  | .issue stock fetch snapshot =>
    let done := l.issue capacity stock fetch snapshot
    (done.1, .issued done.2.1 done.2.2)
  | .consume payload fetch =>
    let done := l.consume payload fetch
    (done.1, .consumed done.2.1 done.2.2)

/-- A call with the answer to it. -/
def Ledger.told (capacity : Nat) (l : Ledger) (call : Call) : Ledger × (Call × Answer) :=
  ((l.call capacity call).1, (call, (l.call capacity call).2))

/-- A new ledger after some calls, and the calls with their answers. -/
def run (capacity : Nat) (epoch : BitVec 64) (enabled : Bool) (calls : List Call) :
    Ledger × List (Call × Answer) :=
  AnsweredRun.run (Ledger.told capacity) { epoch, enabled } calls

/-! ### What one call does -/

namespace Ledger
variable {capacity : Nat} {l : Ledger}

/-- The packet names the entry at `slot` of this ledger. -/
structure Names (l : Ledger) (payload : List Word) (slot : Nat) (entry : Entry) : Prop where
  extended : (decode payload).1 = .kExtendedPacket
  enabled : l.enabled = true
  epoch : (decode payload).2.token.epoch = l.epoch
  serial : (decode payload).2.token.serial.toNat = slot + 1
  found : l.entries[slot]? = some entry

/-- An issue changes nothing, or hands out the next token for a new entry. -/
theorem issue_cases (l : Ledger) (stock fetch : List Word) (snapshot : Snapshot) :
    ((l.issue capacity stock fetch snapshot).1 = l ∧
        (l.issue capacity stock fetch snapshot).2.1 ≠ .kTokenIssued) ∨
      (l.entries.length ≠ capacity ∧ l.enabled = true ∧ l.epoch ≠ 0 ∧
        l.issue capacity stock fetch snapshot =
          ({ l with entries := l.entries ++ [⟨stock, fetch, (normalizeSnapshot snapshot).2,
              (normalizeSnapshot snapshot).1, true, false⟩] },
            .kTokenIssued, ⟨(encode stock l.next true).2, l.next, (normalizeSnapshot snapshot).2,
              (normalizeSnapshot snapshot).1⟩)) := by
  unfold issue
  split
  · exact Or.inl ⟨rfl, by simp⟩
  · rename_i hstock
    split
    · exact Or.inl ⟨rfl, by simp [encode, hstock]⟩
    · split
      · exact Or.inl ⟨rfl, by simp⟩
      · split
        · exact Or.inl ⟨rfl, by simp⟩
        · split
          · exact Or.inl ⟨rfl, by simp⟩
          · rename_i henabled hfetch hepoch hcapacity
            exact Or.inr ⟨hcapacity, by simpa using henabled, hepoch, rfl⟩

/-- A consumption names no entry and changes nothing, finds its entry consumed, or takes the
one attempt at it. -/
theorem consume_cases (hissued : ∀ entry ∈ l.entries, entry.issued = true)
    (payload fetch : List Word) :
    ((∀ slot entry, ¬l.Names payload slot entry) ∧ (l.consume payload fetch).1 = l ∧
        (l.consume payload fetch).2.1 ≠ .kTokenMatched) ∨
      ∃ slot entry, l.Names payload slot entry ∧
        ((entry.consumed = true ∧ l.consume payload fetch = (l, .kReplay, {})) ∨
          (entry.consumed = false ∧
            (l.consume payload fetch).1 =
              { l with entries := l.entries.set slot { entry with consumed := true } } ∧
            (l.consume payload fetch).2.1 = entry.admits (decode payload).2.stock fetch ∧
            ((l.consume payload fetch).2.1 = .kTokenMatched →
              (l.consume payload fetch).2.2 =
                ⟨(decode payload).2.token, entry.snapshot, entry.snapshot_result⟩))) := by
  unfold consume
  dsimp only
  split
  · rename_i hdecode
    exact Or.inl ⟨fun _ _ h => hdecode h.extended, rfl, decode_ne_matched payload⟩
  · rename_i hdecode
    have hextended : (decode payload).1 = .kExtendedPacket := by simpa using hdecode
    split
    · rename_i hforeign
      refine Or.inl ⟨?_, rfl, by simp⟩
      intro slot entry h
      simp [h.enabled, h.epoch] at hforeign
    · rename_i hown
      simp only [Bool.or_eq_true, not_or] at hown
      have henabled : l.enabled = true := by simpa using hown.1
      have hepoch : (decode payload).2.token.epoch = l.epoch := by simpa using hown.2
      split
      · rename_i hrange
        refine Or.inl ⟨?_, rfl, by simp⟩
        intro slot entry h
        have hlt := (List.getElem?_eq_some_iff.mp h.found).1
        simp only [Bool.or_eq_true, decide_eq_true_eq] at hrange
        rcases hrange with hzero | hbig
        · have := h.serial
          rw [hzero] at this
          simp at this
        · have := h.serial
          omega
      · rename_i hrange
        simp only [Bool.or_eq_true, decide_eq_true_eq, not_or, not_lt] at hrange
        have hpos : 0 < (decode payload).2.token.serial.toNat := by
          rw [Nat.pos_iff_ne_zero]
          intro hzero
          exact hrange.1 (BitVec.eq_of_toNat_eq (by simpa using hzero))
        have hslot : (decode payload).2.token.serial.toNat - 1 < l.entries.length := by omega
        rw [getElem?_eq_getElem hslot]
        generalize hentry : l.entries[(decode payload).2.token.serial.toNat - 1] = entry
        have hnames : l.Names payload ((decode payload).2.token.serial.toNat - 1) entry :=
          ⟨hextended, henabled, hepoch, by omega, by
            rw [getElem?_eq_getElem hslot, hentry]⟩
        have hmem : entry ∈ l.entries := hentry ▸ getElem_mem hslot
        refine Or.inr ⟨_, entry, hnames, ?_⟩
        dsimp only
        rw [if_neg (by simp [hissued entry hmem])]
        cases hconsumed : entry.consumed with
        | true => exact Or.inl ⟨rfl, by simp⟩
        | false =>
          refine Or.inr ⟨rfl, ?_⟩
          simp only [Bool.false_eq_true, if_false]
          split
          · rename_i hadmits
            exact ⟨rfl, rfl, fun h => absurd h hadmits⟩
          · rename_i hadmits
            simp only [ne_eq, not_not] at hadmits
            exact ⟨rfl, hadmits.symm, fun _ => rfl⟩

end Ledger

/-! ### What a run keeps -/

/-- The calls of a run, with their answers. -/
abbrev Log := List (Call × Answer)

/-- The `n`th call consumed a packet, with this outcome. -/
def Tried (log : Log) (n : Nat) (payload fetch : List Word) (result : Result) (out : Match) :
    Prop := log[n]? = some (.consume payload fetch, .consumed result out)

/-- The `m`th call was answered with a token. -/
def Given (log : Log) (m : Nat) (stock fetch : List Word) (snapshot : Snapshot)
    (em : Emission) : Prop :=
  log[m]? = some (.issue stock fetch snapshot, .issued .kTokenIssued em)

/-- The packet carries a token that was given out before the `n`th call. -/
def Recognised (log : Log) (n : Nat) (payload : List Word) : Prop :=
  (decode payload).1 = .kExtendedPacket ∧ ∃ m stock fetch snapshot em, m < n ∧
    Given log m stock fetch snapshot em ∧ em.token = (decode payload).2.token

/-- What the `n`th call got was given out before, for the same stock and fetch words and with
the same snapshot. -/
def Own (log : Log) (n : Nat) (payload fetch : List Word) (out : Match) : Prop :=
  (decode payload).1 = .kExtendedPacket ∧ (decode payload).2.token = out.token ∧
    ∃ m snapshot em, m < n ∧ Given log m (decode payload).2.stock fetch snapshot em ∧
      em.token = out.token ∧ em.snapshot = out.snapshot ∧
      em.snapshot_result = out.snapshot_result ∧
      (em.snapshot_result, em.snapshot) = normalizeSnapshot snapshot

/-- The entry that a token names, if it has been tried. -/
def Spent (l : Ledger) (token : Token) : Prop :=
  ∃ entry, l.entries[token.serial.toNat - 1]? = some entry ∧ entry.consumed = true

/-- What the log of a run and the ledger have in common. -/
structure Inv (capacity : Nat) (l : Ledger) (log : Log) : Prop where
  length_le : l.entries.length ≤ capacity
  all_issued : ∀ entry ∈ l.entries, entry.issued = true
  origin : ∀ slot entry, l.entries[slot]? = some entry → ∃ m snapshot em,
    Given log m entry.stock entry.fetch snapshot em ∧
      em.token = ⟨l.epoch, BitVec.ofNat 64 (slot + 1)⟩ ∧ em.snapshot = entry.snapshot ∧
      em.snapshot_result = entry.snapshot_result ∧
      (em.snapshot_result, em.snapshot) = normalizeSnapshot snapshot
  numbered : ∀ m stock fetch snapshot em, Given log m stock fetch snapshot em →
    l.enabled = true ∧ em.token.epoch = l.epoch ∧
      ∃ slot, slot < l.entries.length ∧ em.token.serial.toNat = slot + 1
  fresh : ∀ m n stock fetch snapshot em stock' fetch' snapshot' em',
    Given log m stock fetch snapshot em → Given log n stock' fetch' snapshot' em' → m < n →
      em.token.serial.toNat < em'.token.serial.toNat
  spent : ∀ n payload fetch result out, Tried log n payload fetch result out →
    Recognised log n payload → Spent l (decode payload).2.token
  own : ∀ n payload fetch out, Tried log n payload fetch .kTokenMatched out →
    Own log n payload fetch out
  burned : ∀ n n' payload fetch result out payload' fetch' result' out',
    Tried log n payload fetch result out → Recognised log n payload →
    Tried log n' payload' fetch' result' out' → n < n' → (decode payload').1 = .kExtendedPacket →
    (decode payload').2.token = (decode payload).2.token → result' = .kReplay

section Step
variable {capacity : Nat} {l l' : Ledger} {log : Log} {item : Call × Answer}

theorem Given.before {m : Nat} {stock fetch : List Word} {snapshot : Snapshot} {em : Emission}
    (h : Given log m stock fetch snapshot em) :
    Given (log ++ [item]) m stock fetch snapshot em := getElem?_before h

theorem Own.before {n : Nat} {payload fetch : List Word} {out : Match}
    (h : Own log n payload fetch out) : Own (log ++ [item]) n payload fetch out := by
  obtain ⟨hext, htoken, m, snapshot, em, hlt, hgiven, hrest⟩ := h
  exact ⟨hext, htoken, m, snapshot, em, hlt, hgiven.before, hrest⟩

variable {payload : List Word}

/-- A call is recognised by what stands before it. -/
theorem Recognised.before {n : Nat} (hn : n ≤ log.length)
    (h : Recognised (log ++ [item]) n payload) : Recognised log n payload := by
  obtain ⟨hext, m, stock, fetch, snapshot, em, hlt, hgiven, htoken⟩ := h
  refine ⟨hext, m, stock, fetch, snapshot, em, hlt, ?_, htoken⟩
  rcases getElem?_snoc hgiven with hold | ⟨heq, -⟩
  · exact hold
  · omega

theorem inv_new (capacity : Nat) (epoch : BitVec 64) (enabled : Bool) :
    Inv capacity { epoch, enabled } [] where
  length_le := Nat.zero_le _
  all_issued := by intro entry h; cases h
  origin := by intro slot entry h; simp at h
  numbered := by intro m stock fetch snapshot em h; simp [Given] at h
  fresh := by intro m n stock fetch snapshot em stock' fetch' snapshot' em' h; simp [Given] at h
  spent := by intro n payload fetch result out h; simp [Tried] at h
  own := by intro n payload fetch out h; simp [Tried] at h
  burned := by
    intro n n' payload fetch result out payload' fetch' result' out' h
    simp [Tried] at h

/-- Entries stay in their places, and a consumed one stays consumed. -/
theorem Spent.mono {token : Token} (h : Spent l token)
    (hkept : ∀ (slot : Nat) (entry : Entry), l.entries[slot]? = some entry →
      entry.consumed = true → ∃ entry' : Entry, l'.entries[slot]? = some entry' ∧
        entry'.consumed = true) : Spent l' token := by
  obtain ⟨entry, hentry, hconsumed⟩ := h
  exact hkept _ entry hentry hconsumed

/-- A recognised packet names an entry that is in use. -/
theorem Inv.names (h : Inv capacity l log) {n : Nat} (hrec : Recognised log n payload) :
    ∃ slot entry, l.Names payload slot entry := by
  obtain ⟨hext, m, stock, fetch, snapshot, em, -, hgiven, htoken⟩ := hrec
  obtain ⟨henabled, hepoch, slot, hslot, hserial⟩ := h.numbered m stock fetch snapshot em hgiven
  exact ⟨slot, l.entries[slot], hext, henabled, htoken ▸ hepoch, htoken ▸ hserial,
    getElem?_eq_getElem hslot⟩

theorem Ledger.Names.entry_eq {slot : Nat} {entry : Entry} (h : l.Names payload slot entry) :
    l.entries[(decode payload).2.token.serial.toNat - 1]? = some entry := by
  rw [h.serial]
  exact h.found

/-- A call that leaves the ledger alone and gives nothing out. -/
theorem Inv.quiet (h : Inv capacity l log) (call : Call) (answer : Answer)
    (hissue : ∀ em, answer ≠ .issued .kTokenIssued em)
    (hconsume : ∀ payload fetch result out, call = .consume payload fetch →
      answer = .consumed result out → result ≠ .kTokenMatched ∧
        ∀ slot entry, l.Names payload slot entry → entry.consumed = true ∧ result = .kReplay) :
    Inv capacity l (log ++ [(call, answer)]) where
  length_le := h.length_le
  all_issued := h.all_issued
  origin := by
    intro slot entry hentry
    obtain ⟨m, snapshot, em, hgiven, hrest⟩ := h.origin slot entry hentry
    exact ⟨m, snapshot, em, hgiven.before, hrest⟩
  numbered := by
    intro m stock fetch snapshot em hgiven
    rcases getElem?_snoc hgiven with hold | ⟨-, heq⟩
    · exact h.numbered m stock fetch snapshot em hold
    · exact absurd (Prod.mk.inj heq).2.symm (hissue em)
  fresh := by
    intro m n stock fetch snapshot em stock' fetch' snapshot' em' hm hn
    rcases getElem?_snoc hm with hm | ⟨-, heq⟩
    · rcases getElem?_snoc hn with hn | ⟨-, heq⟩
      · exact h.fresh m n stock fetch snapshot em stock' fetch' snapshot' em' hm hn
      · exact absurd (Prod.mk.inj heq).2.symm (hissue em')
    · exact absurd (Prod.mk.inj heq).2.symm (hissue em)
  spent := by
    intro n payload fetch result out htried hrec
    rcases getElem?_snoc htried with hold | ⟨hn, heq⟩
    · exact h.spent n payload fetch result out hold (hrec.before (lt_length hold).le)
    · obtain ⟨slot, entry, hnames⟩ := h.names (hrec.before hn.le)
      obtain ⟨hcall, hanswer⟩ := Prod.mk.inj heq
      have hconsumed := ((hconsume payload fetch result out hcall.symm hanswer.symm).2 slot entry
        hnames).1
      exact ⟨entry, hnames.entry_eq, hconsumed⟩
  own := by
    intro n payload fetch out htried
    rcases getElem?_snoc htried with hold | ⟨-, heq⟩
    · exact (h.own n payload fetch out hold).before
    · obtain ⟨hcall, hanswer⟩ := Prod.mk.inj heq
      exact absurd rfl (hconsume payload fetch _ out hcall.symm hanswer.symm).1
  burned := by
    intro n n' payload fetch result out payload' fetch' result' out' htried hrec htried' hlt hext
      htoken
    have hn : n < log.length := by
      have := lt_length htried'
      rw [length_append, length_singleton] at this
      omega
    have hrec' := hrec.before hn.le
    have htried'' : Tried log n payload fetch result out := by
      rcases getElem?_snoc htried with hold | ⟨heq, -⟩
      · exact hold
      · omega
    rcases getElem?_snoc htried' with hold | ⟨-, heq⟩
    · exact h.burned n n' payload fetch result out payload' fetch' result' out' htried'' hrec'
        hold hlt hext htoken
    · obtain ⟨hcall, hanswer⟩ := Prod.mk.inj heq
      obtain ⟨slot, entry, hnames⟩ := h.names hrec'
      have hnames' : l.Names payload' slot entry :=
        ⟨hext, hnames.enabled, htoken ▸ hnames.epoch, htoken ▸ hnames.serial, hnames.found⟩
      exact ((hconsume payload' fetch' result' out' hcall.symm hanswer.symm).2 slot entry
        hnames').2

/-- An issue gives out the next token. -/
theorem Inv.issued (h : Inv capacity l log) (hcap : capacity ≤ 4096)
    (hroom : l.entries.length ≠ capacity) (henabled : l.enabled = true)
    (stock fetch : List Word) (snapshot : Snapshot) (payload : List Word) :
    Inv capacity
      { l with entries := l.entries ++ [⟨stock, fetch, (normalizeSnapshot snapshot).2,
          (normalizeSnapshot snapshot).1, true, false⟩] }
      (log ++ [(.issue stock fetch snapshot, .issued .kTokenIssued
        ⟨payload, l.next, (normalizeSnapshot snapshot).2, (normalizeSnapshot snapshot).1⟩)]) where
  length_le := by
    have := h.length_le
    simp only [length_append, length_singleton]
    omega
  all_issued := by
    intro entry hentry
    rcases mem_append.mp hentry with hold | hnew
    · exact h.all_issued entry hold
    · rw [mem_singleton.mp hnew]
  origin := by
    intro slot entry hentry
    rcases getElem?_snoc hentry with hold | ⟨rfl, rfl⟩
    · obtain ⟨m, snapshot', em, hgiven, hrest⟩ := h.origin slot entry hold
      exact ⟨m, snapshot', em, hgiven.before, hrest⟩
    · exact ⟨log.length, snapshot, _, AnsweredRun.getElem?_last _ _, rfl, rfl, rfl, rfl⟩
  numbered := by
    intro m stock' fetch' snapshot' em hgiven
    simp only [length_append, length_singleton]
    rcases getElem?_snoc hgiven with hold | ⟨-, heq⟩
    · obtain ⟨hon, hepoch, slot, hslot, hserial⟩ := h.numbered m stock' fetch' snapshot' em hold
      exact ⟨hon, hepoch, slot, by omega, hserial⟩
    · obtain ⟨-, hanswer⟩ := Prod.mk.inj heq
      obtain rfl := (Answer.issued.inj hanswer).2
      refine ⟨henabled, rfl, l.entries.length, by omega, ?_⟩
      have := h.length_le
      simp only [Ledger.next, BitVec.toNat_ofNat]
      omega
  fresh := by
    intro m n stock' fetch' snapshot' em stock'' fetch'' snapshot'' em' hm hn hlt
    have hm' : Given log m stock' fetch' snapshot' em := by
      rcases getElem?_snoc hm with hold | ⟨heq, -⟩
      · exact hold
      · have := lt_length hn
        rw [length_append, length_singleton] at this
        omega
    rcases getElem?_snoc hn with hold | ⟨-, heq⟩
    · exact h.fresh m n stock' fetch' snapshot' em stock'' fetch'' snapshot'' em' hm' hold hlt
    · obtain ⟨-, -, slot, hslot, hserial⟩ := h.numbered m stock' fetch' snapshot' em hm'
      obtain ⟨-, hanswer⟩ := Prod.mk.inj heq
      obtain rfl := (Answer.issued.inj hanswer).2
      have := h.length_le
      simp only [Ledger.next, BitVec.toNat_ofNat]
      omega
  spent := by
    intro n payload fetch' result out htried hrec
    rcases getElem?_snoc htried with hold | ⟨-, heq⟩
    · apply (h.spent n payload fetch' result out hold (hrec.before (lt_length hold).le)).mono
      intro slot entry hentry hconsumed
      exact ⟨entry, getElem?_before hentry, hconsumed⟩
    · cases heq
  own := by
    intro n payload fetch' out htried
    rcases getElem?_snoc htried with hold | ⟨-, heq⟩
    · exact (h.own n payload fetch' out hold).before
    · cases heq
  burned := by
    intro n n' payload fetch' result out payload' fetch'' result' out' htried hrec htried' hlt
    rcases getElem?_snoc htried' with hold' | ⟨-, heq⟩
    · rcases getElem?_snoc htried with hold | ⟨heq, -⟩
      · exact h.burned n n' payload fetch' result out payload' fetch'' result' out' hold
          (hrec.before (lt_length hold).le) hold' hlt
      · have := lt_length hold'
        omega
    · cases heq

theorem Entry.admits_matched {entry : Entry} {stock fetch : List Word}
    (h : entry.admits stock fetch = .kTokenMatched) : stock = entry.stock ∧ fetch = entry.fetch := by
  unfold Entry.admits at h
  split at h
  · cases h
  · split at h
    · cases h
    · split at h
      · cases h
      · rename_i hstock hfetch
        exact ⟨by simpa using hstock, by simpa using hfetch⟩

/-- The one attempt at an entry. -/
theorem Inv.consumed (h : Inv capacity l log) {payload fetch : List Word} {slot : Nat}
    {entry : Entry} {out : Match} (hnames : l.Names payload slot entry)
    (hfirst : entry.consumed = false)
    (hout : entry.admits (decode payload).2.stock fetch = .kTokenMatched →
      out = ⟨(decode payload).2.token, entry.snapshot, entry.snapshot_result⟩) :
    Inv capacity { l with entries := l.entries.set slot { entry with consumed := true } }
      (log ++ [(.consume payload fetch,
        .consumed (entry.admits (decode payload).2.stock fetch) out)]) := by
  have hslot := lt_length hnames.found
  -- an entry of the new list is an entry of the old one but for the mark
  have hset : ∀ (i : Nat) (e : Entry),
      (l.entries.set slot { entry with consumed := true })[i]? = some e →
      l.entries[i]? = some e ∨ i = slot ∧ e = { entry with consumed := true } := by
    intro i e he
    rw [getElem?_set] at he
    by_cases heq : slot = i
    · simp only [heq, if_true] at he
      split at he
      · exact Or.inr ⟨heq.symm, (Option.some.inj he).symm⟩
      · cases he
    · rw [if_neg heq] at he
      exact Or.inl he
  have hkept : ∀ (i : Nat) (e : Entry), l.entries[i]? = some e → e.consumed = true →
      ∃ e' : Entry, (l.entries.set slot { entry with consumed := true })[i]? = some e' ∧
        e'.consumed = true := by
    intro i e he hconsumed
    by_cases heq : i = slot
    · subst heq
      exact ⟨_, getElem?_set_self hslot, rfl⟩
    · exact ⟨e, by rw [getElem?_set_ne (Ne.symm heq)]; exact he, hconsumed⟩
  have hspent : Spent { l with entries := l.entries.set slot { entry with consumed := true } }
      (decode payload).2.token := by
    refine ⟨{ entry with consumed := true }, ?_, rfl⟩
    rw [hnames.serial]
    exact getElem?_set_self hslot
  exact {
    length_le := by
      rw [length_set]
      exact h.length_le
    all_issued := by
      intro e he
      rcases mem_or_eq_of_mem_set he with hold | rfl
      · exact h.all_issued e hold
      · exact h.all_issued entry (mem_of_getElem? hnames.found)
    origin := by
      intro i e he
      have horigin : ∃ e₀ : Entry, l.entries[i]? = some e₀ ∧ e.stock = e₀.stock ∧
          e.fetch = e₀.fetch ∧ e.snapshot = e₀.snapshot ∧
          e.snapshot_result = e₀.snapshot_result := by
        rcases hset i e he with hold | ⟨rfl, rfl⟩
        · exact ⟨e, hold, rfl, rfl, rfl, rfl⟩
        · exact ⟨entry, hnames.found, rfl, rfl, rfl, rfl⟩
      obtain ⟨e₀, he₀, hs, hf, hsn, hsr⟩ := horigin
      obtain ⟨m, snapshot, em, hgiven, hrest⟩ := h.origin i e₀ he₀
      rw [hs, hf, hsn, hsr]
      exact ⟨m, snapshot, em, hgiven.before, hrest⟩
    numbered := by
      intro m stock' fetch' snapshot em hgiven
      rw [length_set]
      rcases getElem?_snoc hgiven with hold | ⟨-, heq⟩
      · exact h.numbered m stock' fetch' snapshot em hold
      · cases heq
    fresh := by
      intro m n stock' fetch' snapshot em stock'' fetch'' snapshot' em' hm hn
      rcases getElem?_snoc hm with hm | ⟨-, heq⟩
      · rcases getElem?_snoc hn with hn | ⟨-, heq⟩
        · exact h.fresh m n stock' fetch' snapshot em stock'' fetch'' snapshot' em' hm hn
        · cases heq
      · cases heq
    spent := by
      intro n payload' fetch' result out' htried hrec
      rcases getElem?_snoc htried with hold | ⟨-, heq⟩
      · exact (h.spent n payload' fetch' result out' hold
          (hrec.before (lt_length hold).le)).mono hkept
      · obtain ⟨hcall, -⟩ := Prod.mk.inj heq
        obtain ⟨rfl, -⟩ := Call.consume.inj hcall
        exact hspent
    own := by
      intro n payload' fetch' out' htried
      rcases getElem?_snoc htried with hold | ⟨rfl, heq⟩
      · exact (h.own n payload' fetch' out' hold).before
      · obtain ⟨hcall, hanswer⟩ := Prod.mk.inj heq
        obtain ⟨rfl, rfl⟩ := Call.consume.inj hcall
        obtain ⟨hresult, rfl⟩ := Answer.consumed.inj hanswer
        obtain ⟨hstock, hfetch⟩ := Entry.admits_matched hresult.symm
        obtain ⟨m, snapshot, em, hgiven, htoken, hsn, hsr, hnormal⟩ :=
          h.origin slot entry hnames.found
        have htoken' : em.token = (decode payload').2.token := by
          have hserial : (decode payload').2.token.serial = BitVec.ofNat 64 (slot + 1) := by
            rw [← hnames.serial, BitVec.ofNat_toNat, BitVec.setWidth_eq]
          rw [htoken, ← hnames.epoch, ← hserial]
        rw [hout hresult.symm]
        refine ⟨hnames.extended, rfl, m, snapshot, em, lt_length hgiven, ?_, htoken', hsn, hsr,
          hnormal⟩
        rw [hstock, hfetch]
        exact hgiven.before
    burned := by
      intro n n' payload' fetch' result out' payload'' fetch'' result' out'' htried hrec htried'
        hlt hext htoken
      have hn : n < log.length := by
        have := lt_length htried'
        rw [length_append, length_singleton] at this
        omega
      have hrec' := hrec.before hn.le
      have htried'' : Tried log n payload' fetch' result out' := by
        rcases getElem?_snoc htried with hold | ⟨heq, -⟩
        · exact hold
        · omega
      rcases getElem?_snoc htried' with hold | ⟨-, heq⟩
      · exact h.burned n n' payload' fetch' result out' payload'' fetch'' result' out'' htried''
          hrec' hold hlt hext htoken
      · -- an earlier attempt at the same token would have left its mark
        obtain ⟨hcall, -⟩ := Prod.mk.inj heq
        obtain ⟨rfl, -⟩ := Call.consume.inj hcall
        obtain ⟨e, he, hconsumed⟩ := h.spent n payload' fetch' result out' htried'' hrec'
        rw [← htoken, hnames.entry_eq] at he
        obtain rfl := Option.some.inj he
        exact absurd (hconsumed.symm.trans hfirst) (by decide) }

/-- **Every call** keeps what holds of the ledger and its log. -/
theorem Inv.told (h : Inv capacity l log) (hcap : capacity ≤ 4096) (call : Call) :
    Inv capacity (l.told capacity call).1 (log ++ [(l.told capacity call).2]) := by
  cases call with
  | issue stock fetch snapshot =>
    unfold Ledger.told Ledger.call
    dsimp only
    rcases @Ledger.issue_cases capacity l stock fetch snapshot with
      ⟨hsame, hresult⟩ | ⟨hroom, henabled, -, heq⟩
    · rw [hsame]
      apply h.quiet
      · intro em heq
        exact hresult (Answer.issued.inj heq).1
      · intro payload fetch' result out hcall
        cases hcall
    · rw [heq]
      exact h.issued hcap hroom henabled stock fetch snapshot _
  | consume payload fetch =>
    unfold Ledger.told Ledger.call
    dsimp only
    rcases Ledger.consume_cases h.all_issued payload fetch with
      ⟨hnone, hsame, hresult⟩ | ⟨slot, entry, hnames, ⟨hconsumed, heq⟩ |
        ⟨hfirst, hledger, hresult, hout⟩⟩
    · rw [hsame]
      apply h.quiet
      · intro em heq
        cases heq
      · intro payload' fetch' result out hcall hanswer
        obtain ⟨rfl, -⟩ := Call.consume.inj hcall
        obtain ⟨rfl, -⟩ := Answer.consumed.inj hanswer
        exact ⟨hresult, fun slot entry hnames => absurd hnames (hnone slot entry)⟩
    · rw [heq]
      apply h.quiet
      · intro em heq
        cases heq
      · intro payload' fetch' result out hcall hanswer
        obtain ⟨rfl, -⟩ := Call.consume.inj hcall
        obtain ⟨rfl, -⟩ := Answer.consumed.inj hanswer
        refine ⟨by simp, ?_⟩
        intro slot' entry' hnames'
        have heq := hnames.entry_eq.symm.trans hnames'.entry_eq
        obtain rfl := Option.some.inj heq
        exact ⟨hconsumed, rfl⟩
    · rw [hledger, hresult]
      exact h.consumed hnames hfirst (fun hmatched => hout (hresult.trans hmatched))

end Step

theorem run_inv {capacity : Nat} (hcap : capacity ≤ 4096) (epoch : BitVec 64) (enabled : Bool)
    (calls : List Call) :
    Inv capacity (run capacity epoch enabled calls).1 (run capacity epoch enabled calls).2 :=
  AnsweredRun.run_induction (inv_new capacity epoch enabled)
    (fun _ _ call h => h.told hcap call) calls

/-- A match is an attempt at a token that was given out before. -/
theorem Own.recognised {log : Log} {n : Nat} {payload fetch : List Word} {out : Match}
    (h : Own log n payload fetch out) : Recognised log n payload := by
  obtain ⟨hext, htoken, m, snapshot, em, hlt, hgiven, hem, -⟩ := h
  exact ⟨hext, m, _, _, snapshot, em, hlt, hgiven, hem.trans htoken.symm⟩

/-- **The swap ledger.**  In every sequence of issues and consumptions, on a ledger of at most
4096 entries: no token is given out twice; what a match returns was given out before for the
same token, stock words, fetch words and snapshot; no token is matched twice; after a failed
attempt at a token that was given out, every other attempt at it is a replay; and a packet
decodes to the stock words and the token that it was made of. -/
theorem ledger_matches_once (capacity : Nat) (hcap : capacity ≤ 4096) (epoch : BitVec 64)
    (enabled : Bool) (calls : List Call) :
    (∀ m n stock fetch snapshot em stock' fetch' snapshot' em',
      Given (run capacity epoch enabled calls).2 m stock fetch snapshot em →
      Given (run capacity epoch enabled calls).2 n stock' fetch' snapshot' em' →
      em.token = em'.token → m = n) ∧
    (∀ n payload fetch out,
      Tried (run capacity epoch enabled calls).2 n payload fetch .kTokenMatched out →
      Own (run capacity epoch enabled calls).2 n payload fetch out) ∧
    (∀ n n' payload fetch out payload' fetch' out',
      Tried (run capacity epoch enabled calls).2 n payload fetch .kTokenMatched out →
      Tried (run capacity epoch enabled calls).2 n' payload' fetch' .kTokenMatched out' →
      out.token = out'.token → n = n') ∧
    (∀ n n' payload fetch result out payload' fetch' result' out',
      Tried (run capacity epoch enabled calls).2 n payload fetch result out →
      Recognised (run capacity epoch enabled calls).2 n payload → result ≠ .kTokenMatched →
      Tried (run capacity epoch enabled calls).2 n' payload' fetch' result' out' → n < n' →
      (decode payload').1 = .kExtendedPacket →
      (decode payload').2.token = (decode payload).2.token → result' = .kReplay) ∧
    (∀ (stock : List Word) (token : Token), stock.length = kStockWords → token.epoch ≠ 0 →
      token.serial ≠ 0 → (encode stock token true).1 = .kTokenIssued ∧
        decode (encode stock token true).2 =
          (.kExtendedPacket, { stock := stock, token := token, extended := true })) := by
  have h := run_inv hcap epoch enabled calls
  refine ⟨?_, h.own, ?_, ?_, ?_⟩
  · intro m n stock fetch snapshot em stock' fetch' snapshot' em' hm hn heq
    rcases Nat.lt_trichotomy m n with hlt | rfl | hlt
    · have := h.fresh m n _ _ _ _ _ _ _ _ hm hn hlt
      rw [heq] at this
      omega
    · rfl
    · have := h.fresh n m _ _ _ _ _ _ _ _ hn hm hlt
      rw [heq] at this
      omega
  · have hordered : ∀ n n' payload fetch out payload' fetch' out',
        Tried (run capacity epoch enabled calls).2 n payload fetch .kTokenMatched out →
        Tried (run capacity epoch enabled calls).2 n' payload' fetch' .kTokenMatched out' →
        out.token = out'.token → ¬n < n' := by
      intro n n' payload fetch out payload' fetch' out' htried htried' htoken hlt
      have hown := h.own n payload fetch out htried
      have hown' := h.own n' payload' fetch' out' htried'
      have hreplay := h.burned n n' payload fetch _ out payload' fetch' _ out' htried
        hown.recognised htried' hlt hown'.1 (hown'.2.1.trans (htoken.symm.trans hown.2.1.symm))
      cases hreplay
    intro n n' payload fetch out payload' fetch' out' htried htried' htoken
    have h1 := hordered n n' payload fetch out payload' fetch' out' htried htried' htoken
    have h2 := hordered n' n payload' fetch' out' payload fetch out htried' htried htoken.symm
    omega
  · intro n n' payload fetch result out payload' fetch' result' out' htried hrec _ htried' hlt
      hext htoken
    exact h.burned n n' payload fetch result out payload' fetch' result' out' htried hrec htried'
      hlt hext htoken
  · intro stock token hstock hepoch hserial
    exact decode_encode hstock hepoch hserial

theorem ledger_matches_once_pair :
    Own (run 2 7 true [.issue [1, 2, 3, 4] [1, 2, 3, 4, 5, 6] {},
        .consume (encode [1, 2, 3, 4] ⟨7, 1⟩ true).2 [1, 2, 3, 4, 5, 6]]).2 1
      (encode [1, 2, 3, 4] ⟨7, 1⟩ true).2 [1, 2, 3, 4, 5, 6] ⟨⟨7, 1⟩, {}, .kUnavailable⟩ :=
  (ledger_matches_once 2 (by decide) 7 true _).2.1 1 _ _ _ (by unfold Tried; decide)

/-- A token that is tried before it is given out is not burned: the attempt fails, and once the
token is given out it matches. -/
theorem ledger_unissued_attempt :
    ¬ ∀ (capacity : Nat) (epoch : BitVec 64) (enabled : Bool) (calls : List Call)
      (n n' : Nat) (payload fetch : List Word) (result : Result) (out : Match)
      (payload' fetch' : List Word) (out' : Match), capacity ≤ 4096 →
      Tried (run capacity epoch enabled calls).2 n payload fetch result out →
      result ≠ .kTokenMatched → n < n' →
      (decode payload').2.token = (decode payload).2.token →
      ¬ Tried (run capacity epoch enabled calls).2 n' payload' fetch' .kTokenMatched out' := by
  intro h
  exact h 2 7 true
    [.consume (encode [1, 2, 3, 4] ⟨7, 1⟩ true).2 [1, 2, 3, 4, 5, 6],
      .issue [1, 2, 3, 4] [1, 2, 3, 4, 5, 6] {},
      .consume (encode [1, 2, 3, 4] ⟨7, 1⟩ true).2 [1, 2, 3, 4, 5, 6]]
    0 2 (encode [1, 2, 3, 4] ⟨7, 1⟩ true).2 [1, 2, 3, 4, 5, 6] .kUnissuedToken {}
    (encode [1, 2, 3, 4] ⟨7, 1⟩ true).2 [1, 2, 3, 4, 5, 6] ⟨⟨7, 1⟩, {}, .kUnavailable⟩
    (by decide) (by unfold Tried; decide) (by decide) (by decide) rfl
    (by unfold Tried; decide)

end Mcla.SwapEmission
