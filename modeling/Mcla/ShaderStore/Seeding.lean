import Mcla.ShaderStore.Merger

/-! # The shader stores: a pass over a store

What a pass leaves: the output re-parses to exactly the records that were kept, a target
that is not understood is never written, and a second pass over the output adds nothing.
-/
namespace Mcla.ShaderStore
open List

/-- A target that is there but is not a store of the family. -/
def Target.foreign (family : Family) : Target → Bool
  | .file content =>
    decide (headerStatus family content.1 ≠ .kValid ∧ headerStatus family content.1 ≠ .kEmpty)
  | .unreadable => true

/-- The records of the store. -/
def Target.records (hash : Hash) (family : Family) : Target → List Bytes
  | .file content => fileRecords hash family content.1
  | .unreadable => []

theorem Target.records_foreign {hash : Hash} {family : Family} {target : Target}
    (h : target.foreign family = true) : target.records hash family = [] := by
  cases target with
  | unreadable => rfl
  | file content =>
    exact if_neg (of_decide_eq_true h).1

/-- The records that the sources offer. -/
def sourceRecords (hash : Hash) (family : Family) (sources : List Span) : List Bytes :=
  sources.flatMap fun source => fileRecords hash family source.1

section
variable {hash : Hash} {family : Family} {bound : Nat}

theorem openTarget_eq (hash : Hash) (family : Family) (bound : Nat) (target : Target) :
    ∃ m, openTarget hash (merger family bound) target = some m ∧
      m.Holds hash (takeIn family bound [] (target.records hash family)) ∧
      m.family = family ∧ m.max_bytes = bound ∧ m.added = 0 ∧
      m.foreign = target.foreign family ∧ (m.foreign = true → m.target_records = 0) := by
  cases target with
  | unreadable =>
    have hholds := merger_holds hash family bound
    exact ⟨_, rfl, ⟨hholds.stored, hholds.bytes, hholds.records, hholds.index⟩, rfl, rfl, rfl, rfl,
      fun _ => rfl⟩
  | file content =>
    obtain ⟨m, result, heq, hholds, hsame, hheader, -⟩ :=
      (merger_holds hash family bound).add content
    have hforeign : Target.foreign family (.file content) =
        decide (result.header ≠ .kValid ∧ result.header ≠ .kEmpty) := by
      rw [hheader]
      rfl
    refine ⟨{ m with
      target_header := result.header
      foreign := result.header ≠ .kValid ∧ result.header ≠ .kEmpty
      target_records := m.records }, ?_, ⟨?_, ?_, ?_, ?_⟩, hsame.family, hsame.max_bytes,
      hsame.added, hforeign.symm, ?_⟩
    · simp only [openTarget, Merger.setTarget, heq, Option.bind_eq_bind, Option.bind_some]
      rfl
    · exact hholds.stored
    · exact hholds.bytes
    · exact hholds.records
    · exact hholds.index
    · intro h
      have hnone : Target.records hash family (.file content) = [] :=
        Target.records_foreign (hforeign.trans h)
      show m.records = 0
      have hkept : takeIn family bound [] (Target.records hash family (.file content)) = [] := by
        rw [hnone]
        rfl
      rw [hholds.records]
      exact length_eq_zero_iff.mpr hkept

/-- What the results of the calls say. -/
def Counted (hash : Hash) (family : Family) (foreign : Bool) (source : Span) (result : AddResult) :
    Prop :=
  result.records = (if foreign then 0 else (fileRecords hash family source.1).length) ∧
    result.records = result.added + result.duplicates + result.over_bound

variable {m : Merger} {sources : List Span} {target : Target}

theorem addSources_eq {kept : List Bytes} (h : m.Holds hash kept) (hforeign : m.foreign = false)
    (sources : List Span) :
    ∃ m' results, addSources hash m sources = some (m', results) ∧
      m'.Holds hash (takeIn m.family m.max_bytes kept (sourceRecords hash m.family sources)) ∧
      m'.family = m.family ∧ m'.max_bytes = m.max_bytes ∧ m'.foreign = false ∧
      m'.added = m.added +
        fates m.family m.max_bytes .taken kept (sourceRecords hash m.family sources) ∧
      (results.map AddResult.added).sum =
        fates m.family m.max_bytes .taken kept (sourceRecords hash m.family sources) ∧
      (results.map AddResult.over_bound).sum =
        fates m.family m.max_bytes .unfit kept (sourceRecords hash m.family sources) ∧
      Forall₂ (Counted hash m.family false) sources results := by
  induction sources generalizing m kept with
  | nil => exact ⟨m, [], rfl, h, rfl, rfl, hforeign, rfl, rfl, rfl, .nil⟩
  | cons source sources ih =>
    obtain ⟨m₁, result, heq, hholds, hsame, -, hrecords, hadded, hduplicates, hover⟩ := h.add source
    let m₂ : Merger := { m₁ with added := m₁.added + result.added }
    have hholds₂ : m₂.Holds hash
        (takeIn m.family m.max_bytes kept (fileRecords hash m.family source.1)) :=
      ⟨hholds.stored, hholds.bytes, hholds.records, hholds.index⟩
    obtain ⟨m', results, heq', hholds', hfamily', hmax', hforeign', hadded', hsum', hover', hall⟩ :=
      ih hholds₂ (hsame.foreign.trans hforeign)
    have hfamily₂ : m₂.family = m.family := hsame.family
    have hmax₂ : m₂.max_bytes = m.max_bytes := hsame.max_bytes
    rw [hfamily₂, hmax₂] at hholds' hadded' hsum' hover'
    rw [hfamily₂] at hall
    have hsplit : ∀ f, fates m.family m.max_bytes f kept
        (sourceRecords hash m.family (source :: sources)) =
          fates m.family m.max_bytes f kept (fileRecords hash m.family source.1) +
            fates m.family m.max_bytes f
              (takeIn m.family m.max_bytes kept (fileRecords hash m.family source.1))
              (sourceRecords hash m.family sources) := by
      intro f
      rw [sourceRecords, flatMap_cons]
      exact BoundedUnion.count_append f _ _ _
    refine ⟨m', result :: results, ?_, ?_, hfamily'.trans hfamily₂, hmax'.trans hmax₂, hforeign',
      ?_, ?_, ?_, .cons ⟨hrecords, ?_⟩ hall⟩
    · simp only [addSources, Merger.addSource, hforeign, Bool.false_eq_true, if_false, heq,
        Option.bind_eq_bind, Option.bind_some, pure]
      rw [show ({ m₁ with added := m₁.added + result.added } : Merger) = m₂ from rfl, heq']
      rfl
    · rw [sourceRecords, flatMap_cons, takeIn_append]
      exact hholds'
    · rw [hadded', hsplit]
      show m₁.added + result.added + _ = _
      rw [hsame.added, hadded]
      omega
    · rw [map_cons, sum_cons, hsum', hsplit, hadded]
    · rw [map_cons, sum_cons, hover', hsplit, hover]
    · rw [hrecords, hadded, hduplicates, hover]
      exact (BoundedUnion.count_total _ _).symm

/-- A merger whose target is not understood takes nothing in. -/
theorem addSources_foreign (hforeign : m.foreign = true) (sources : List Span) :
    addSources hash m sources = some (m, sources.map fun _ => {}) := by
  induction sources with
  | nil => rfl
  | cons source sources ih =>
    simp only [addSources, Merger.addSource, hforeign, if_true, Option.bind_eq_bind, pure,
      Option.bind_some, ih]
    rfl

/-- The records offered to a target: none where it is not understood. -/
def offered (hash : Hash) (family : Family) (target : Target) (sources : List Span) : List Bytes :=
  if target.foreign family then [] else sourceRecords hash family sources

/-- The records that a pass keeps. -/
def keptRecords (hash : Hash) (family : Family) (bound : Nat) (target : Target)
    (sources : List Span) : List Bytes :=
  takeIn family bound (takeIn family bound [] (target.records hash family))
    (offered hash family target sources)

/-- A pass keeps the bounded union of the records of the target and of the sources. -/
theorem seed_eq (hash : Hash) (family : Family) (bound : Nat) (target : Target)
    (sources : List Span) :
    ∃ m results, seed hash family bound target sources = some (m, results) ∧
      m.Holds hash (keptRecords hash family bound target sources) ∧ m.family = family ∧
      m.foreign = target.foreign family ∧
      m.recordCount = (keptRecords hash family bound target sources).length ∧
      m.added = fates family bound .taken (takeIn family bound [] (target.records hash family))
        (offered hash family target sources) ∧
      (results.map AddResult.added).sum = m.added ∧
      (results.map AddResult.over_bound).sum =
        fates family bound .unfit (takeIn family bound [] (target.records hash family))
          (offered hash family target sources) ∧
      Forall₂ (Counted hash family (target.foreign family)) sources results := by
  obtain ⟨m, heq, hholds, rfl, rfl, hadded, hforeign, hnone⟩ := openTarget_eq hash family bound target
  unfold seed keptRecords offered
  rw [heq]
  simp only [Option.bind_eq_bind, Option.bind_some]
  cases htarget : target.foreign m.family with
  | true =>
    rw [htarget] at hforeign
    have hrecords : target.records hash m.family = [] := Target.records_foreign htarget
    refine ⟨m, _, addSources_foreign hforeign sources, hholds, rfl, hforeign, ?_, hadded, ?_, ?_, ?_⟩
    · rw [Merger.recordCount, if_pos hforeign, hnone hforeign, hrecords]
      rfl
    · rw [hadded, sum_eq_zero]
      simp
    · rw [if_pos rfl, sum_eq_zero]
      · rfl
      · simp
    · rw [forall₂_map_right_iff, forall₂_same]
      exact fun _ _ => ⟨rfl, rfl⟩
  | false =>
    rw [htarget] at hforeign
    obtain ⟨m', results, heq', hholds', hfamily', hmax', hforeign', hadded', hsum', hover', hall⟩ :=
      addSources_eq hholds hforeign sources
    rw [hadded, Nat.zero_add] at hadded'
    refine ⟨m', results, heq', hholds', hfamily', hforeign', ?_, hadded', ?_, hover', hall⟩
    · rw [Merger.recordCount, hforeign', if_neg Bool.false_ne_true]
      exact hholds'.records
    · rw [hadded', hsum']

theorem keptRecords_eq (hash : Hash) (family : Family) (bound : Nat) (target : Target)
    (sources : List Span) : keptRecords hash family bound target sources =
      takeIn family bound [] (target.records hash family ++ offered hash family target sources) :=
  (takeIn_append family bound _ _ _).symm

theorem keptRecords_nodup (hash : Hash) (family : Family) (bound : Nat) (target : Target)
    (sources : List Span) :
    ((keptRecords hash family bound target sources).map (recordKey family)).Nodup := by
  rw [keptRecords_eq]
  exact BoundedUnion.absorbAll_nodup (by simp) _

theorem length_store_keptRecords_le (hash : Hash) (family : Family) (bound : Nat) (target : Target)
    (sources : List Span) : (store family (keptRecords hash family bound target sources)).length ≤
      max (header family).length bound := by
  rw [length_store, keptRecords_eq]
  exact BoundedUnion.room_absorbAll_le (le_max_left _ _) _

theorem length_store_keptRecords_le_of_ne (h : keptRecords hash family bound target sources ≠ []) :
    (store family (keptRecords hash family bound target sources)).length ≤ bound := by
  rw [keptRecords_eq] at h ⊢
  rw [length_store]
  exact BoundedUnion.room_of_ne h

theorem keptRecords_ne_of_added
    (h : fates family bound .taken (takeIn family bound [] (target.records hash family))
      (offered hash family target sources) ≠ 0) :
    keptRecords hash family bound target sources ≠ [] := by
  intro hnil
  have hlength : (keptRecords hash family bound target sources).length =
      (takeIn family bound [] (target.records hash family)).length +
        fates family bound .taken (takeIn family bound [] (target.records hash family))
          (offered hash family target sources) := BoundedUnion.count_taken _ _
  rw [hnil, length_nil] at hlength
  omega

theorem parse_store {rs : List Bytes} (hstored : ∀ r ∈ rs, Stored hash family r)
    (h : (store family rs).length < 2 ^ 64) :
    parse hash family ⟨store family rs, h⟩ =
      some ⟨.kValid, layout (header family).length rs, (store family rs).length, false⟩ := by
  have hlength : (header family).length + rs.flatten.length = (store family rs).length :=
    length_append.symm
  rw [parse_eq]
  simp only [headerStatus_store, if_true, storedRecords_store hstored, hlength]
  simp

theorem keptRecords_stored {r : Bytes} (h : r ∈ keptRecords hash family bound target sources) :
    Stored hash family r := by
  rw [keptRecords_eq] at h
  have hmem := (BoundedUnion.absorbAll_sublist _ _).subset h
  rw [nil_append, mem_append] at hmem
  rcases hmem with hmem | hmem
  · cases target with
    | file content => exact fileRecords_stored hmem
    | unreadable => cases hmem
  · unfold offered at hmem
    split at hmem
    · cases hmem
    · obtain ⟨source, -, hr⟩ := mem_flatMap.mp hmem
      exact fileRecords_stored hr

/-- What a pass puts out.  It re-parses completely to the records that the merger counts, no
two with one key.  Those of the target come first, in order: each is kept after those kept
from before it, or is repeated, or finds no room.  Of the records of each source none is
lost from the counts.  The bound holds unless not even the header fits, and it holds of
whatever is written; a target that is not understood is not written. -/
theorem seed_output (hash : Hash) (family : Family) (bound : UInt64) (target : Target)
    (sources : List Span) :
    ∃ m results rs, seed hash family bound.toNat target sources = some (m, results) ∧
      m.bytes = store family rs ∧
      (∃ (h : m.bytes.length < 2 ^ 64) (parsed : Parsed),
        parse hash family ⟨m.bytes, h⟩ = some parsed ∧ parsed.header = .kValid ∧
          parsed.stopped = false ∧ parsed.records = layout (header family).length rs ∧
          parsed.records.length = m.recordCount) ∧
      (rs.map (recordKey family)).Nodup ∧
      (∃ kept rest, rs = kept ++ rest ∧ kept.Sublist (target.records hash family) ∧
        rest.Sublist (sourceRecords hash family sources) ∧
        ∀ before r after, target.records hash family = before ++ r :: after →
          ∃ had, had.Sublist before ∧ had <+: kept ∧
            (had ++ [r] <+: kept ∨ recordKey family r ∈ had.map (recordKey family) ∨
              bound.toNat < (store family had).length + r.length)) ∧
      Forall₂ (Counted hash family (target.foreign family)) sources results ∧
      m.bytes.length ≤ max (header family).length bound.toNat ∧
      (m.needsWrite = true → m.bytes.length ≤ bound.toNat) ∧
      (target.foreign family = true → m.needsWrite = false) := by
  obtain ⟨m, results, heq, hholds, rfl, hforeign, hcount, hadded, -, -, hall⟩ :=
    seed_eq hash family bound.toNat target sources
  have hbytes := hholds.bytes
  have hsize := length_store_keptRecords_le hash m.family bound.toNat target sources
  have hword : (store m.family (keptRecords hash m.family bound.toNat target sources)).length <
      2 ^ 64 := by
    have hheader := (header_bytes_bounds m.family).2
    have hbound := bound.toNat_lt
    omega
  refine ⟨m, results, keptRecords hash m.family bound.toNat target sources, heq, hbytes, ?_,
    keptRecords_nodup hash m.family bound.toNat target sources, ?_, hall, ?_, ?_, ?_⟩
  · have hparse := parse_store (fun r hr => keptRecords_stored hr) hword
    simp only [hbytes]
    refine ⟨hword, _, hparse, rfl, rfl, rfl, ?_⟩
    rw [hcount, length_layout]
  · obtain ⟨rest, hrest⟩ : takeIn m.family bound.toNat [] (target.records hash m.family) <+:
        keptRecords hash m.family bound.toNat target sources :=
      BoundedUnion.prefix_absorbAll _ _
    refine ⟨_, rest, hrest.symm, ?_, ?_, ?_⟩
    · have hsublist : (takeIn m.family bound.toNat [] (target.records hash m.family)).Sublist
          ([] ++ target.records hash m.family) := BoundedUnion.absorbAll_sublist _ _
      rwa [nil_append] at hsublist
    · have hsublist : (keptRecords hash m.family bound.toNat target sources).Sublist
          (takeIn m.family bound.toNat [] (target.records hash m.family) ++
            offered hash m.family target sources) := BoundedUnion.absorbAll_sublist _ _
      rw [← hrest] at hsublist
      refine ((append_sublist_append_left _).mp hsublist).trans ?_
      unfold offered
      split
      · exact nil_sublist _
      · exact List.Sublist.refl _
    · intro before r after hsplit
      have hsublist : (takeIn m.family bound.toNat [] before).Sublist ([] ++ before) :=
        BoundedUnion.absorbAll_sublist _ _
      rw [nil_append] at hsublist
      obtain ⟨hpre, hcases⟩ : takeIn m.family bound.toNat [] before <+: _ ∧ _ :=
        BoundedUnion.absorbAll_split before r after
      rw [hsplit]
      refine ⟨takeIn m.family bound.toNat [] before, hsublist, hpre, ?_⟩
      rw [length_store]
      exact hcases
  · rw [hbytes]
    exact hsize
  · intro hwrite
    have hne : m.added ≠ 0 := by
      have hboth := (Bool.and_eq_true _ _).mp hwrite
      simpa using hboth.2
    rw [hbytes]
    rw [hadded] at hne
    exact length_store_keptRecords_le_of_ne (keptRecords_ne_of_added hne)
  · intro htarget
    rw [Merger.needsWrite, hforeign, htarget]
    rfl

/-- A bound below the header: what the merger holds is larger, though nothing is written. -/
theorem header_over_bound :
    ¬ ∀ (hash : Hash) (family : Family) (bound : UInt64) (target : Target) (sources : List Span)
      (m : Merger) (results : List AddResult),
      seed hash family bound.toNat target sources = some (m, results) →
        m.bytes.length ≤ bound.toNat := by
  intro h
  have hle := h (fun _ => 0) .kShaders 0 (.file ⟨[], by decide⟩) [] _ _ rfl
  revert hle
  decide

/-! ### A second pass -/

/-- A pass over its own output adds nothing. -/
theorem seed_output_again (htarget : target.foreign family = false)
    (h : (store family (keptRecords hash family bound target sources)).length < 2 ^ 64) :
    ∃ m results, seed hash family bound
        (.file ⟨store family (keptRecords hash family bound target sources), h⟩) sources =
          some (m, results) ∧ m.added = 0 := by
  obtain ⟨m, results, heq, -, -, -, -, hadded, -⟩ := seed_eq hash family bound
    (.file ⟨store family (keptRecords hash family bound target sources), h⟩) sources
  have hown : Target.records hash family
      (.file ⟨store family (keptRecords hash family bound target sources), h⟩) =
        keptRecords hash family bound target sources :=
    fileRecords_store fun r hr => keptRecords_stored hr
  have hkept : takeIn family bound [] (keptRecords hash family bound target sources) =
      keptRecords hash family bound target sources := by
    refine BoundedUnion.absorbAll_self (keptRecords_nodup hash family bound target sources) ?_
    intro hne
    rw [← length_store]
    exact length_store_keptRecords_le_of_ne hne
  have hoffered : offered hash family
      (.file ⟨store family (keptRecords hash family bound target sources), h⟩) sources =
        offered hash family target sources := by
    have hvalid : Target.foreign family
        (.file ⟨store family (keptRecords hash family bound target sources), h⟩) = false := by
      simp only [Target.foreign, headerStatus_store]
      rfl
    rw [offered, offered, hvalid, htarget]
  refine ⟨m, results, heq, ?_⟩
  rw [hadded, hown, hkept, hoffered]
  have hlength : (takeIn family bound (keptRecords hash family bound target sources)
      (offered hash family target sources)).length =
        (keptRecords hash family bound target sources).length +
          fates family bound .taken (keptRecords hash family bound target sources)
            (offered hash family target sources) := BoundedUnion.count_taken _ _
  have hsame : takeIn family bound (keptRecords hash family bound target sources)
      (offered hash family target sources) = keptRecords hash family bound target sources :=
    BoundedUnion.absorbAll_settled (BoundedUnion.settled_absorbAll _ _)
  rw [hsame] at hlength
  omega

/-- What lies where the target was after a pass: the output where it is written. -/
def Target.after (target : Target) (m : Merger) (h : m.bytes.length < 2 ^ 64) : Target :=
  if m.needsWrite then .file ⟨m.bytes, h⟩ else target

/-- The keys of the records of an output. -/
def Merger.keys (hash : Hash) (m : Merger) : List RecordKey :=
  (fileRecords hash m.family m.bytes).map (recordKey m.family)

theorem keys_eq {kept : List Bytes} (h : m.Holds hash kept) :
    m.keys hash = kept.map (recordKey m.family) := by
  rw [Merger.keys, h.bytes, fileRecords_store h.stored]

theorem mem_sourceRecords_perm {sources sources' : List Span} (h : sources.Perm sources')
    (k : RecordKey) : k ∈ (sourceRecords hash family sources).map (recordKey family) ↔
      k ∈ (sourceRecords hash family sources').map (recordKey family) :=
  ((h.flatMap_right _).map _).mem_iff

/-- Where every record of the sources finds room, the keys are those of the target's kept
records and those of the sources. -/
theorem mem_keys_seed {results : List AddResult}
    (hrun : seed hash family bound target sources = some (m, results))
    (hfit : ∀ result ∈ results, result.over_bound = 0) (k : RecordKey) :
    k ∈ m.keys hash ↔
      k ∈ (takeIn family bound [] (target.records hash family)).map (recordKey family) ∨
        k ∈ (offered hash family target sources).map (recordKey family) := by
  obtain ⟨m', results', heq, hholds, hfamily, -, -, -, -, hover, -⟩ :=
    seed_eq hash family bound target sources
  rw [hrun] at heq
  obtain ⟨rfl, rfl⟩ := Prod.mk.inj (Option.some.inj heq)
  have hzero : (results.map AddResult.over_bound).sum = 0 := by
    rw [sum_eq_zero]
    intro n hn
    obtain ⟨result, hresult, rfl⟩ := mem_map.mp hn
    exact hfit result hresult
  rw [hover] at hzero
  rw [keys_eq hholds, hfamily]
  exact BoundedUnion.mem_keys_of_fit hzero k

/-- To seed again changes nothing: with what the first pass left in the target's place, or
with the first pass's output wherever the target was understood, a second pass over the
same sources adds nothing and needs no write.  And where two orders of the sources leave no
record over the bound, they give the same records. -/
theorem seed_idempotent (hash : Hash) (family : Family) (bound : UInt64) (target : Target)
    (sources : List Span) :
    ∃ m results, seed hash family bound.toNat target sources = some (m, results) ∧
      (∃ h : m.bytes.length < 2 ^ 64,
        (∃ m' results', seed hash family bound.toNat (target.after m h) sources =
            some (m', results') ∧ m'.added = 0 ∧ m'.needsWrite = false) ∧
        (m.foreign = false → ∃ m' results',
          seed hash family bound.toNat (.file ⟨m.bytes, h⟩) sources = some (m', results') ∧
            m'.added = 0 ∧ m'.needsWrite = false)) ∧
      ∀ sources', sources.Perm sources' → (∀ result ∈ results, result.over_bound = 0) →
        ∀ m' results', seed hash family bound.toNat target sources' = some (m', results') →
          (∀ result ∈ results', result.over_bound = 0) →
            ∀ k, k ∈ m.keys hash ↔ k ∈ m'.keys hash := by
  obtain ⟨m, results, heq, hholds, hfamily, hforeign, -, hadded, -⟩ :=
    seed_eq hash family bound.toNat target sources
  have hbytes : m.bytes = store family (keptRecords hash family bound.toNat target sources) := by
    rw [hholds.bytes, hfamily]
  have hsize := length_store_keptRecords_le hash family bound.toNat target sources
  have hword : m.bytes.length < 2 ^ 64 := by
    have hheader := (header_bytes_bounds family).2
    have hbound := bound.toNat_lt
    rw [hbytes]
    omega
  have hquiet : ∀ {m' : Merger}, m'.added = 0 → m'.needsWrite = false := by
    intro m' hzero
    rw [Merger.needsWrite, hzero]
    exact Bool.and_false _
  have hagain : m.foreign = false → ∃ m' results',
      seed hash family bound.toNat (.file ⟨m.bytes, hword⟩) sources = some (m', results') ∧
        m'.added = 0 ∧ m'.needsWrite = false := by
    intro hvalid
    have hsecond := seed_output_again (hforeign.symm.trans hvalid) (by rw [← hbytes]; exact hword)
    simp only [hbytes]
    obtain ⟨m', results', heq', hzero⟩ := hsecond
    exact ⟨m', results', heq', hzero, hquiet hzero⟩
  refine ⟨m, results, heq, ⟨hword, ?_, hagain⟩, ?_⟩
  · unfold Target.after
    by_cases hwrite : m.needsWrite = true
    · rw [if_pos hwrite]
      refine hagain ?_
      have hboth := (Bool.and_eq_true _ _).mp hwrite
      simpa using hboth.1
    · rw [if_neg hwrite]
      refine ⟨m, results, heq, ?_, by simpa using hwrite⟩
      by_cases htarget : target.foreign family = true
      · rw [hadded, offered, if_pos htarget]
        rfl
      · have hvalid := Bool.eq_false_iff.mpr htarget
        rw [Merger.needsWrite, hforeign, hvalid] at hwrite
        simpa using hwrite
  · intro sources' hperm hfit m' results' hrun' hfit' k
    rw [mem_keys_seed heq hfit k, mem_keys_seed hrun' hfit' k]
    unfold offered
    split
    · rfl
    · rw [mem_sourceRecords_perm hperm]

end
end Mcla.ShaderStore
