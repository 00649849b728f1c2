import Mcla.Library.BoundedUnion
import Mcla.ShaderStore.Parse

/-! # The shader stores: merging

A `Merger` holds the bytes of the store it builds and an index from the hashes of its
records to their offsets.  The target's records go in first, then those of the sources.
It is shown to keep the bounded union of the records: what it finds in its index is what
is known, and its counters count what became of the records.
-/
namespace Mcla.ShaderStore
open List

/-- The store that a merge builds. -/
structure Merger where
  family : Family
  max_bytes : Nat
  bytes : Bytes
  index : List (Nat × Nat) := []
  (records target_records added : Nat := 0)
  foreign : Bool := false
  target_header : HeaderStatus := .kEmpty

/-- What adding a file answers. -/
structure AddResult where
  header : HeaderStatus := .kEmpty
  (records added duplicates over_bound : Nat := 0)
  stopped : Bool := false

/-- A new merger. -/
def merger (family : Family) (max_bytes : Nat) : Merger :=
  { family, max_bytes, bytes := header family }

/-- Whether one of the entries names bytes equal to these. -/
def equalAt (stored bytes : Bytes) : List (Nat × Nat) → Option Bool
  | [] => some false
  | (_, at_) :: entries => do
    if (← subspan stored at_ bytes.length) = bytes then return true
    equalAt stored bytes entries

namespace Merger

/-- Whether the record is there already. -/
def known (m : Merger) (hash : Nat) (bytes : Bytes) : Option Bool :=
  let range := m.index.filter (·.1 = hash)
  if m.family = .kShaders then some (range ≠ []) else equalAt m.bytes bytes range

/-- The body of the loop of `Add`.  A vector never holds 2^63 bytes, so the sum of the
sizes does not wrap. -/
def addRecord (file : Bytes) (state : Merger × AddResult) (record : Record) :
    Option (Merger × AddResult) := do
  let (m, result) := state
  let bytes ← subspan file record.offset record.size
  if ← m.known record.hash bytes then
    return (m, { result with duplicates := result.duplicates + 1 })
  if m.bytes.length + record.size > m.max_bytes then
    return (m, { result with over_bound := result.over_bound + 1 })
  let m' := { m with
    index := m.index ++ [(record.hash, m.bytes.length)]
    bytes := m.bytes ++ bytes
    records := m.records + 1 }
  return (m', { result with added := result.added + 1 })

/-- The records of a file are taken. -/
def add (hash : Hash) (m : Merger) (file : Span) : Option (Merger × AddResult) := do
  let parsed ← parse hash m.family file
  let result : AddResult := { header := parsed.header, stopped := parsed.stopped }
  if parsed.header ≠ .kValid then return (m, result)
  parsed.records.foldlM (addRecord file.1) (m, { result with records := parsed.records.length })

/-- The store that is there already. -/
def setTarget (hash : Hash) (m : Merger) (file : Span) : Option (Merger × AddResult) := do
  let (m, result) ← m.add hash file
  let foreign : Bool := result.header ≠ .kValid ∧ result.header ≠ .kEmpty
  return ({ m with target_header := result.header, foreign, target_records := m.records }, result)

/-- The store cannot be read. -/
def setTargetUnreadable (m : Merger) : Merger := { m with target_header := .kShort, foreign := true }

/-- A store that is merged in. -/
def addSource (hash : Hash) (m : Merger) (file : Span) : Option (Merger × AddResult) := do
  if m.foreign then return (m, {})
  let (m, result) ← m.add hash file
  return ({ m with added := m.added + result.added }, result)

/-- `records()` -/
def recordCount (m : Merger) : Nat := if m.foreign then m.target_records else m.records

/-- The store has to be written. -/
def needsWrite (m : Merger) : Bool := !m.foreign && m.added != 0

end Merger

/-- The build's own store: its content (none when absent), or that it could not be read. -/
inductive Target where
  | file (content : Span)
  | unreadable

/-- The merge begins. -/
def openTarget (hash : Hash) (m : Merger) : Target → Option Merger
  | .file content => do
    let (m, _) ← m.setTarget hash content
    return m
  | .unreadable => some m.setTargetUnreadable

/-- The calls of `AddSource` for the sources, with what each returns. -/
def addSources (hash : Hash) (m : Merger) : List Span → Option (Merger × List AddResult)
  | [] => some (m, [])
  | source :: sources => do
    let (m, result) ← m.addSource hash source
    let (m, results) ← addSources hash m sources
    return (m, result :: results)

/-- One pass over a store: the target, then the sources. -/
def seed (hash : Hash) (family : Family) (max_bytes : Nat) (target : Target)
    (sources : List Span) : Option (Merger × List AddResult) := do
  let m ← openTarget hash (merger family max_bytes) target
  addSources hash m sources

/-! ### The records of a store, and their keys -/

/-- What a record is known by: a shader by the hash of its ucode, a description by its bytes. -/
inductive RecordKey where
  | ucode (hash : Nat)
  | description (bytes : Bytes)
  deriving DecidableEq

/-- What two records are told apart by. -/
def recordKey (family : Family) (r : Bytes) : RecordKey :=
  if family = .kShaders then .ucode (le64 r) else .description r

/-- The records that a file adds to a store of the family, in order. -/
def fileRecords (hash : Hash) (family : Family) (b : Bytes) : List Bytes :=
  if headerStatus family b = .kValid then storedRecords hash family b else []

variable {family : Family} {hash : Hash} {rs : List Bytes} {kept : List Bytes} {m : Merger}

theorem fileRecords_stored {b r : Bytes} (h : r ∈ fileRecords hash family b) :
    Stored hash family r := by
  unfold fileRecords at h
  split at h
  · exact (storedRecords_maximal hash family b).1.1 r h
  · cases h

/-- A store written from its records. -/
def store (family : Family) (rs : List Bytes) : Bytes := header family ++ rs.flatten

theorem headerStatus_store (family : Family) (rs : List Bytes) :
    headerStatus family (store family rs) = .kValid :=
  headerStatus_valid.mpr (prefix_append _ _)

theorem storedRecords_store (h : ∀ r ∈ rs, Stored hash family r) :
    storedRecords hash family (store family rs) = rs := by
  unfold storedRecords store
  rw [drop_left]
  exact RecordLog.Framing.read_flatten fun r hr => isRecord_iff.mpr (h r hr)

theorem fileRecords_store (h : ∀ r ∈ rs, Stored hash family r) :
    fileRecords hash family (store family rs) = rs := by
  unfold fileRecords
  rw [if_pos (headerStatus_store family rs), storedRecords_store h]

theorem length_store (family : Family) (rs : List Bytes) :
    (store family rs).length = BoundedUnion.room List.length (header family).length rs := by
  rw [store, length_append, length_flatten, BoundedUnion.room]

/-- The records of a store after those of a file are taken in. -/
abbrev takeIn (family : Family) (bound : Nat) (kept rs : List Bytes) : List Bytes :=
  BoundedUnion.absorbAll (recordKey family) List.length (header family).length bound kept rs

theorem takeIn_append (family : Family) (bound : Nat) (kept rs rs' : List Bytes) :
    takeIn family bound kept (rs ++ rs') = takeIn family bound (takeIn family bound kept rs) rs' :=
  BoundedUnion.absorbAll_append rs'

/-- How many of the records of a file meet a fate. -/
abbrev fates (family : Family) (bound : Nat) (f : BoundedUnion.Fate) (kept rs : List Bytes) : Nat :=
  BoundedUnion.count (recordKey family) List.length (header family).length bound f kept rs

/-- The counters after the records of a file. -/
def AddResult.tally (result : AddResult) (family : Family) (bound : Nat) (kept rs : List Bytes) :
    AddResult :=
  { result with
    added := result.added + fates family bound .taken kept rs
    duplicates := result.duplicates + fates family bound .known kept rs
    over_bound := result.over_bound + fates family bound .unfit kept rs }

/-! ### What a merger holds -/

/-- The records that a merger holds. -/
structure Merger.Holds (hash : Hash) (m : Merger) (kept : List Bytes) : Prop where
  stored : ∀ r ∈ kept, Stored hash m.family r
  bytes : m.bytes = store m.family kept
  records : m.records = kept.length
  index : m.index = (layout (header m.family).length kept).map fun r => (r.hash, r.offset)

theorem merger_holds (hash : Hash) (family : Family) (max_bytes : Nat) :
    (merger family max_bytes).Holds hash [] where
  stored _ h := (not_mem_nil h).elim
  bytes := by
    show header family = header family ++ [].flatten
    rw [flatten_nil, append_nil]
  records := rfl
  index := rfl

theorem layout_append (offset : Nat) (rs rs' : List Bytes) :
    layout offset (rs ++ rs') = layout offset rs ++ layout (offset + rs.flatten.length) rs' := by
  induction rs generalizing offset with
  | nil => rfl
  | cons r rs ih =>
    rw [cons_append, layout, ih, layout, cons_append, flatten_cons, length_append, Nat.add_assoc]

theorem map_hash_layout (offset : Nat) (rs : List Bytes) :
    (layout offset rs).map Record.hash = rs.map le64 := by
  induction rs generalizing offset with
  | nil => rfl
  | cons r rs ih => rw [layout, map_cons, map_cons, ih]

/-- The index entries of a hash lead to the records with that hash. -/
theorem equalAt_layout {stored rest r : Bytes} {offset : Nat} (hoffset : offset ≤ stored.length)
    (hcut : stored.drop offset = rs.flatten ++ rest) (hlength : ∀ r' ∈ rs, r'.length = r.length) :
    equalAt stored r (((layout offset rs).map fun e => (e.hash, e.offset)).filter
      (·.1 = le64 r)) = some (decide (r ∈ rs)) := by
  induction rs generalizing offset with
  | nil => rfl
  | cons r' rs ih =>
    obtain ⟨hr', hrs⟩ := forall_mem_cons.mp hlength
    rw [flatten_cons, append_assoc] at hcut
    have hroom := congrArg List.length hcut
    rw [length_drop, length_append] at hroom
    have hnext : stored.drop (offset + r'.length) = rs.flatten ++ rest := by
      rw [← drop_drop, hcut, drop_left]
    have hin : offset + r'.length ≤ stored.length := by omega
    have hrest := ih hin hnext hrs
    rw [layout, map_cons]
    by_cases hhash : le64 r' = le64 r
    · have hread : subspan stored offset r'.length = some r' := by
        rw [subspan_eq (by omega), hcut, take_left]
      rw [filter_cons_of_pos (by simpa using hhash), equalAt, ← hr', hread]
      by_cases heq : r' = r
      · simp [heq]
      · have hne : ¬ r = r' := fun h => heq h.symm
        simp only [Option.bind_eq_bind, Option.bind_some, if_neg heq, hrest, mem_cons, hne,
          false_or]
    · have hne : ¬ r = r' := fun h => hhash (by rw [h])
      rw [filter_cons_of_neg (by simpa using hhash), hrest]
      simp only [mem_cons, hne, false_or]

/-- The index finds the records that are known. -/
theorem Merger.Holds.known {r : Bytes} (h : m.Holds hash kept) (hr : Stored hash m.family r) :
    m.known (le64 r) r = some (decide (recordKey m.family r ∈ kept.map (recordKey m.family))) := by
  unfold Merger.known
  by_cases hfamily : m.family = .kShaders
  · have hkey : recordKey m.family = fun r => .ucode (le64 r) := by
      funext r
      exact if_pos hfamily
    have hiff : m.index.filter (·.1 = le64 r) ≠ [] ↔
        recordKey m.family r ∈ kept.map (recordKey m.family) := by
      have hhashes : (m.index.map Prod.fst) = kept.map le64 := by
        rw [h.index, map_map, ← map_hash_layout (header m.family).length]
        rfl
      have hmem : le64 r ∈ m.index.map Prod.fst ↔ m.index.filter (·.1 = le64 r) ≠ [] := by
        rw [Ne, filter_eq_nil_iff, mem_map]
        push Not
        simp
      rw [← hmem, hhashes, hkey]
      simp [mem_map]
    rw [if_pos hfamily]
    exact congrArg some (decide_eq_decide.mpr hiff)
  · have hkey : recordKey m.family = RecordKey.description := by
      funext r
      exact if_neg hfamily
    have hlength : ∀ {r : Bytes}, Stored hash m.family r →
        r.length = (info m.family).record_bytes := by
      intro r hr
      unfold Stored at hr
      rw [if_neg hfamily] at hr
      exact hr.1
    have hcut : m.bytes.drop (header m.family).length = kept.flatten ++ [] := by
      rw [h.bytes, store, drop_left, append_nil]
    have hheader : (header m.family).length ≤ m.bytes.length := by
      rw [h.bytes, store, length_append]
      exact Nat.le_add_right _ _
    have hequal := equalAt_layout hheader hcut
      (fun r' hr' => (hlength (h.stored r' hr')).trans (hlength hr).symm)
    rw [if_neg hfamily, h.index, hequal, hkey]
    congr 1
    rw [decide_eq_decide, mem_map]
    simp

/-- What a call may change of a merger. -/
structure Merger.SameStore (m m' : Merger) : Prop where
  family : m'.family = m.family
  max_bytes : m'.max_bytes = m.max_bytes
  target_records : m'.target_records = m.target_records
  added : m'.added = m.added
  foreign : m'.foreign = m.foreign
  target_header : m'.target_header = m.target_header

theorem Merger.SameStore.refl (m : Merger) : m.SameStore m := ⟨rfl, rfl, rfl, rfl, rfl, rfl⟩

theorem Merger.SameStore.trans {m m' m'' : Merger} (h : m.SameStore m') (h' : m'.SameStore m'') :
    m.SameStore m'' where
  family := h'.family.trans h.family
  max_bytes := h'.max_bytes.trans h.max_bytes
  target_records := h'.target_records.trans h.target_records
  added := h'.added.trans h.added
  foreign := h'.foreign.trans h.foreign
  target_header := h'.target_header.trans h.target_header

/-- One record: it is known, or there is no room for it, or it is taken in. -/
theorem addRecord_eq {file r : Bytes} (result : AddResult) (offset : Nat) (h : m.Holds hash kept)
    (hr : Stored hash m.family r) (hcut : subspan file offset r.length = some r) :
    ∃ m', m'.Holds hash (BoundedUnion.absorb (recordKey m.family) List.length
        (header m.family).length m.max_bytes kept r) ∧ m.SameStore m' ∧
      Merger.addRecord file (m, result) ⟨offset, r.length, le64 r⟩ =
        some (m', result.tally m.family m.max_bytes kept [r]) := by
  have hroom : m.bytes.length = BoundedUnion.room List.length (header m.family).length kept := by
    rw [h.bytes, length_store]
  have hcall : Merger.addRecord file (m, result) ⟨offset, r.length, le64 r⟩ =
      (do if decide (recordKey m.family r ∈ kept.map (recordKey m.family)) then
            return (m, { result with duplicates := result.duplicates + 1 })
          if m.bytes.length + r.length > m.max_bytes then
            return (m, { result with over_bound := result.over_bound + 1 })
          return ({ m with
            index := m.index ++ [(le64 r, m.bytes.length)]
            bytes := m.bytes ++ r
            records := m.records + 1 }, { result with added := result.added + 1 }) :
        Option (Merger × AddResult)) := by
    unfold Merger.addRecord
    simp only [hcut, h.known hr, Option.bind_eq_bind, Option.bind_some]
  rw [hcall]
  unfold AddResult.tally
  cases hfate : BoundedUnion.fate (recordKey m.family) List.length (header m.family).length
      m.max_bytes kept r with
  | known =>
    have hmem := BoundedUnion.fate_known.mp hfate
    refine ⟨m, ?_, .refl m, ?_⟩
    · rwa [BoundedUnion.absorb_not_taken (by rw [hfate]; decide)]
    · simp only [BoundedUnion.count, hfate, hmem, decide_true, if_true]
      rfl
  | unfit =>
    obtain ⟨hmem, hfull⟩ := BoundedUnion.fate_unfit.mp hfate
    rw [← hroom] at hfull
    refine ⟨m, ?_, .refl m, ?_⟩
    · rwa [BoundedUnion.absorb_not_taken (by rw [hfate]; decide)]
    · simp only [BoundedUnion.count, hfate, hmem, decide_false, Bool.false_eq_true, if_false,
        if_pos hfull]
      rfl
  | taken =>
    obtain ⟨hmem, hfit⟩ := BoundedUnion.fate_taken.mp hfate
    rw [← hroom] at hfit
    refine ⟨{ m with
      index := m.index ++ [(le64 r, m.bytes.length)]
      bytes := m.bytes ++ r
      records := m.records + 1 }, ?_, ⟨rfl, rfl, rfl, rfl, rfl, rfl⟩, ?_⟩
    · rw [BoundedUnion.absorb_taken hfate]
      constructor
      · exact forall_mem_append.mpr ⟨h.stored, forall_mem_singleton.mpr hr⟩
      · show m.bytes ++ r = store m.family (kept ++ [r])
        rw [h.bytes, store, store, append_assoc, flatten_append, flatten_singleton]
      · show m.records + 1 = (kept ++ [r]).length
        rw [h.records, length_append, length_singleton]
      · show m.index ++ [(le64 r, m.bytes.length)] =
          (layout (header m.family).length (kept ++ [r])).map fun e => (e.hash, e.offset)
        rw [layout_append, map_append, ← h.index, h.bytes, store, length_append]
        rfl
    · simp only [BoundedUnion.count, hfate, hmem, decide_false, Bool.false_eq_true, if_false,
        if_neg (Nat.not_lt.mpr hfit)]
      rfl

/-- The loop over the records of a file. -/
theorem addRecords_eq {file rest : Bytes} {offset : Nat} (result : AddResult)
    (h : m.Holds hash kept) (hstored : ∀ r ∈ rs, Stored hash m.family r)
    (hoffset : offset ≤ file.length) (hcut : file.drop offset = rs.flatten ++ rest) :
    ∃ m', m'.Holds hash (takeIn m.family m.max_bytes kept rs) ∧ m.SameStore m' ∧
      (layout offset rs).foldlM (Merger.addRecord file) (m, result) =
        some (m', result.tally m.family m.max_bytes kept rs) := by
  induction rs generalizing offset m kept result with
  | nil => exact ⟨m, h, .refl m, rfl⟩
  | cons r rs ih =>
    obtain ⟨hr, hrs⟩ := forall_mem_cons.mp hstored
    rw [flatten_cons, append_assoc] at hcut
    have hroom := congrArg List.length hcut
    rw [length_drop, length_append] at hroom
    have hnext : file.drop (offset + r.length) = rs.flatten ++ rest := by
      rw [← drop_drop, hcut, drop_left]
    have htake : subspan file offset r.length = some r := by
      rw [subspan_eq (by omega), hcut, take_left]
    have hin : offset + r.length ≤ file.length := by omega
    obtain ⟨m₁, hholds₁, hsame₁, heq₁⟩ := addRecord_eq result offset h hr htake
    obtain ⟨m₂, hholds₂, hsame₂, heq₂⟩ := ih _ hholds₁ (by rwa [hsame₁.family]) hin hnext
    refine ⟨m₂, ?_, hsame₁.trans hsame₂, ?_⟩
    · rw [hsame₁.family, hsame₁.max_bytes] at hholds₂
      exact hholds₂
    · rw [layout, foldlM_cons, heq₁]
      simp only [Option.bind_eq_bind, Option.bind_some]
      rw [heq₂, hsame₁.family, hsame₁.max_bytes]
      simp only [AddResult.tally, fates, BoundedUnion.count, Nat.add_zero, Nat.add_assoc]

/-- `Add` takes in the records of the file. -/
theorem Merger.Holds.add (h : m.Holds hash kept) (file : Span) :
    ∃ m' result, m.add hash file = some (m', result) ∧
      m'.Holds hash (takeIn m.family m.max_bytes kept (fileRecords hash m.family file.1)) ∧
      m.SameStore m' ∧ result.header = headerStatus m.family file.1 ∧
      result.records = (fileRecords hash m.family file.1).length ∧
      result.added = fates m.family m.max_bytes .taken kept (fileRecords hash m.family file.1) ∧
      result.duplicates =
        fates m.family m.max_bytes .known kept (fileRecords hash m.family file.1) ∧
      result.over_bound =
        fates m.family m.max_bytes .unfit kept (fileRecords hash m.family file.1) := by
  unfold Merger.add fileRecords
  rw [parse_eq hash m.family file]
  simp only [Option.bind_eq_bind, Option.bind_some]
  by_cases hvalid : headerStatus m.family file.1 = .kValid
  · simp only [if_pos hvalid]
    have hcut : file.1.drop (header m.family).length =
        (storedRecords hash m.family file.1).flatten ++
          (file.1.drop (header m.family).length).drop
            (storedRecords hash m.family file.1).flatten.length := by
      obtain ⟨rest, hrest⟩ := (storedRecords_maximal hash m.family file.1).1.2
      rw [← hrest, drop_left]
    obtain ⟨m', hholds, hsame, heq⟩ := addRecords_eq
      ⟨.kValid, (storedRecords hash m.family file.1).length, 0, 0, 0,
        decide ((header m.family).length +
          (storedRecords hash m.family file.1).flatten.length ≠ file.1.length)⟩ h
      (storedRecords_maximal hash m.family file.1).1.1 (headerStatus_valid.mp hvalid).length_le hcut
    refine ⟨m', AddResult.tally ⟨.kValid, (storedRecords hash m.family file.1).length, 0, 0, 0,
        decide ((header m.family).length +
          (storedRecords hash m.family file.1).flatten.length ≠ file.1.length)⟩
        m.family m.max_bytes kept (storedRecords hash m.family file.1), ?_, hholds, hsame, ?_⟩
    · rw [if_neg (not_not.mpr rfl), length_layout]
      exact heq
    · exact ⟨hvalid.symm, rfl, Nat.zero_add _, Nat.zero_add _, Nat.zero_add _⟩
  · simp only [if_neg hvalid]
    rw [if_pos hvalid]
    exact ⟨m, _, rfl, h, .refl m, rfl, rfl, rfl, rfl, rfl⟩

end Mcla.ShaderStore
