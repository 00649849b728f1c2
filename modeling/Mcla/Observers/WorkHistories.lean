import Mcla.Library.FrameHistories
import Mcla.Observers.WorkEmission

/-! # What a body that ends normally sends out

A body whose gate is zero sends nothing.  Otherwise it sends scalar items, each with an index below
the one before and the first below their count, and then, if its mode is not zero, as many vector
items as their count says, the last one first; if it is zero, jobs from the first on, as long as
the bound that is loaded before each asks for them, and one wait with the last bound.
-/
namespace Mcla.WorkEmission
open NestedRecorder (Recorder Histories historyOf)
open BitVec

/-- The kind and the operands of an event. -/
abbrev Row := EventKind × Payload

/-- An event without its place. -/
def Event.row (e : Event) : Row := (e.kind, e.payload)

/-! ### What is promised -/

/-- A scalar item, with what it returns and the cleanup after it. -/
structure Scalar where
  (index r3 f1 f2 ctr returned : BitVec 64)
  cleanup : Option (BitVec 64 × BitVec 64)

/-- The row of its call. -/
def Scalar.pre (s : Scalar) : Row :=
  (.kScalarPre, Payload.of [kScalarLr, s.index, s.r3, s.f1, s.f2, s.ctr])

/-- The rows of one scalar call. -/
def Scalar.rows (s : Scalar) : List Row :=
  [s.pre, (.kScalarReturn, One s.returned)] ++ match s.cleanup with
    | none => []
    | some (r3, ctr) => [(.kCleanupPre, Payload.of [kCleanupLr, r3, ctr]), (.kCleanupReturn, {})]

/-- The indices of scalar items fall, from below the count on, and an item is cleaned up after
if the low byte of what it returns is zero. -/
structure Falling (count : BitVec 64) (ss : List Scalar) : Prop where
  below : (count :: ss.map Scalar.index).Pairwise fun x y => y < x
  cleaned : ∀ s ∈ ss, s.cleanup.isSome ↔ s.returned.setWidth 8 = (0 : BitVec 8)

/-- The events up to the scalar items. -/
def front (gate count : BitVec 64) (ss : List Scalar) : List Row :=
  (.kMainGate, One gate) :: (.kScalarCount, One count) :: ss.flatMap Scalar.rows

/-- The operands of one vector call. -/
structure VectorItem where
  (r3 f1 ctr : BitVec 64)
  v1 : Vector (BitVec 32) 4

/-- The row of its call. -/
def VectorItem.pre (v : VectorItem) (index : BitVec 64) : Row :=
  (.kVectorPre, { Payload.of [kVectorLr, index, v.r3, v.f1, v.ctr] with vector := v.v1.toList })

/-- Vector items from the last of `count` to the first. -/
def vectorRows (count : Nat) (vs : List VectorItem) : List Row :=
  vs.zipIdx.flatMap fun v =>
    [v.1.pre (BitVec.ofNat 64 (count - 1 - v.2)), (.kVectorReturn, {})]

/-- A job, with what it returns and the bound that is loaded after it. -/
structure Job where
  r3_to_r8 : Vector (BitVec 64) 6
  descriptor_f32_bits : BitVec 32
  (returned reload : BitVec 64)

/-- The row of its call. -/
def Job.pre (j : Job) (index : BitVec 64) : Row :=
  (.kJobPre, Payload.of (kJobLr :: index ::
    (j.r3_to_r8.toList ++ [j.descriptor_f32_bits.setWidth 64])))

/-- Jobs from the first on. -/
def jobRows (js : List Job) : List Row :=
  js.zipIdx.flatMap fun j =>
    [j.1.pre (BitVec.ofNat 64 j.2), (.kJobReturn, One j.1.returned),
      (.kJobReloadBound, One j.1.reload)]

/-- The bounds that are loaded, before the first job and after each. -/
def bounds (initial : BitVec 64) (js : List Job) : List (BitVec 64) := initial :: js.map Job.reload

/-- The bound that job `k` is compared with. -/
def boundAt (initial : BitVec 64) (js : List Job) (k : Nat) : BitVec 64 :=
  (bounds initial js).getD k 0

/-- The bound, a signed word, asks for a job of that number. -/
def Asks (bound : BitVec 64) (job : Nat) : Prop := (job : Int) < (bound.setWidth 32).toInt

/-- Each job is one that its bound asks for. -/
structure Asked (initial : BitVec 64) (js : List Job) : Prop where
  word : ∀ b ∈ bounds initial js, b ≤ UINT32_MAX
  more : ∀ k < js.length, Asks (boundAt initial js k) k

/-- The events of a body that ends normally, between its entry and its exit. -/
inductive Promised : List Row → Prop where
  | nothing : Promised [(.kMainGate, One 0)]
  | vectors {gate count mode n : BitVec 64} {ss : List Scalar} {vs : List VectorItem}
      (hgate : gate ≠ 0) (hss : Falling count ss) (hmode : mode ≠ 0) (hall : vs.length = n.toNat) :
    Promised (front gate count ss ++
      (.kModeGate, One mode) :: (.kVectorCount, One n) :: vectorRows n.toNat vs)
  | jobs {gate count initial : BitVec 64} {ss : List Scalar} {js : List Job}
      (hgate : gate ≠ 0) (hss : Falling count ss) (hjs : Asked initial js)
      (hdone : ¬ Asks (boundAt initial js js.length) js.length) (r4 : BitVec 64) :
    Promised (front gate count ss ++
      (.kModeGate, One 0) :: (.kJobInitialBound, One initial) :: (jobRows js ++
        [(.kWaitPre, Payload.of [kWaitLr, boundAt initial js js.length, r4, 1]),
          (.kWaitReturn, {})]))

/-! ### One item more -/

theorem front_snoc (gate count : BitVec 64) (ss : List Scalar) (s : Scalar) :
    front gate count (ss ++ [s]) = front gate count ss ++ s.rows := by
  unfold front
  rw [List.flatMap_append, List.flatMap_singleton]
  rfl

/-- The index that the next one has to be below. -/
def upperOf (count : BitVec 64) (ss : List Scalar) : BitVec 64 :=
  (ss.getLast?.map Scalar.index).getD count

theorem Falling.snoc {count : BitVec 64} {ss : List Scalar} {s : Scalar} (h : Falling count ss)
    (hindex : s.index < upperOf count ss)
    (hcleaned : s.cleanup.isSome ↔ s.returned.setWidth 8 = (0 : BitVec 8)) :
    Falling count (ss ++ [s]) := by
  constructor
  · rw [List.map_append, List.map_singleton, ← List.cons_append, List.pairwise_append]
    refine ⟨h.below, List.pairwise_singleton _ _, fun x hx y hy => ?_⟩
    obtain rfl := List.mem_singleton.mp hy
    cases ss using List.reverseRecOn with
    | nil =>
      obtain rfl := List.mem_singleton.mp hx
      exact hindex
    | append_singleton ss last =>
      have hlast : s.index < last.index := by
        simpa [upperOf] using hindex
      have hbelow := h.below
      rw [List.map_append, List.map_singleton, ← List.cons_append] at hbelow hx
      rcases List.mem_append.mp hx with hold | hnew
      · exact BitVec.lt_trans hlast ((List.pairwise_append.mp hbelow).2.2 x hold last.index
          (List.mem_singleton_self _))
      · obtain rfl := List.mem_singleton.mp hnew
        exact hlast
  · intro item hitem
    rcases List.mem_append.mp hitem with hold | hnew
    · exact h.cleaned item hold
    · obtain rfl := List.mem_singleton.mp hnew
      exact hcleaned

theorem falling_nil (count : BitVec 64) : Falling count [] :=
  ⟨List.pairwise_singleton _ _, fun s hs => by cases hs⟩

theorem upperOf_snoc (count : BitVec 64) (ss : List Scalar) (s : Scalar) :
    upperOf count (ss ++ [s]) = s.index := by
  unfold upperOf
  rw [List.getLast?_append, List.getLast?_singleton]
  rfl

theorem vectorRows_snoc (count : Nat) (vs : List VectorItem) (v : VectorItem) :
    vectorRows count (vs ++ [v]) = vectorRows count vs ++
      [v.pre (BitVec.ofNat 64 (count - 1 - vs.length)), (.kVectorReturn, {})] := by
  unfold vectorRows
  rw [List.zipIdx_append, List.flatMap_append]
  simp

theorem jobRows_snoc (js : List Job) (j : Job) :
    jobRows (js ++ [j]) = jobRows js ++
      [j.pre (BitVec.ofNat 64 js.length), (.kJobReturn, One j.returned),
        (.kJobReloadBound, One j.reload)] := by
  unfold jobRows
  rw [List.zipIdx_append, List.flatMap_append]
  simp

theorem boundAt_snoc {initial : BitVec 64} {js : List Job} {j : Job} {k : Nat}
    (hk : k ≤ js.length) : boundAt initial (js ++ [j]) k = boundAt initial js k := by
  unfold boundAt bounds
  rw [List.map_append, ← List.cons_append, List.getD_append _ _ _ _ (by simpa using hk)]

theorem boundAt_last (initial : BitVec 64) (js : List Job) (j : Job) :
    boundAt initial (js ++ [j]) (js ++ [j]).length = j.reload := by
  unfold boundAt bounds
  simp

theorem Asked.snoc {initial : BitVec 64} {js : List Job} {j : Job} (h : Asked initial js)
    (hmore : Asks (boundAt initial js js.length) js.length)
    (hword : j.reload ≤ UINT32_MAX) : Asked initial (js ++ [j]) := by
  constructor
  · intro b hb
    unfold bounds at hb
    rw [List.map_append, ← List.cons_append] at hb
    rcases List.mem_append.mp hb with hold | hnew
    · exact h.word b hold
    · obtain rfl : b = j.reload := by simpa using hnew
      exact hword
  · intro k hk
    rw [List.length_append, List.length_singleton] at hk
    rw [boundAt_snoc (by omega)]
    by_cases hlast : k = js.length
    · subst hlast
      exact hmore
    · exact h.more k (by omega)

/-- A bound is a word, so what it asks for is small. -/
theorem Asks.small {bound : BitVec 64} {job : Nat} (h : Asks bound job) : job < 2 ^ 31 := by
  unfold Asks at h
  have hword := toInt_lt (x := bound.setWidth 32)
  omega

/-- The test of the source: the next job is below the bound as a signed word. -/
theorem moreJobs_iff_asks {raw : BitVec 64} (hraw : raw ≤ UINT32_MAX) {job : Nat}
    (hjob : job < 2 ^ 64) : moreJobs raw (BitVec.ofNat 64 job) = true ↔ Asks raw job := by
  have hle : raw.toNat ≤ 0xffffffff := hraw
  rw [moreJobs_iff hraw, toNat_ofNat, Nat.mod_eq_of_lt hjob]
  unfold Asks
  rw [toInt_eq_toNat_cond, toNat_setWidth]
  have hmod : raw.toNat % 2 ^ 32 = raw.toNat := Nat.mod_eq_of_lt (by omega)
  rw [hmod]
  split
  · omega
  · omega

/-! ### What an open frame has sent -/

/-- The scalar items are under way: the gate and the count, and the items so far. -/
structure Scalars (f : Frame) (gate count : BitVec 64) (ss : List Scalar) : Prop where
  gate : gate ≠ 0
  falling : Falling count ss
  next_job : f.next_job = 0

/-- The jobs are under way: the mode and the first bound, and the jobs so far. -/
structure Jobs (gate count initial : BitVec 64) (ss : List Scalar) (js : List Job) : Prop where
  gate : gate ≠ 0
  falling : Falling count ss
  asked : Asked initial js

/-- The rows up to the last job. -/
def jobFront (gate count initial : BitVec 64) (ss : List Scalar) (js : List Job) : List Row :=
  front gate count ss ++ (.kModeGate, One 0) :: (.kJobInitialBound, One initial) :: jobRows js

/-- The rows up to the last vector. -/
def vectorFront (gate count mode n : BitVec 64) (ss : List Scalar) (vs : List VectorItem) :
    List Row :=
  front gate count ss ++ (.kModeGate, One mode) :: (.kVectorCount, One n) :: vectorRows n.toNat vs

/-- The vector items are under way. -/
structure Vectors (gate count mode n : BitVec 64) (ss : List Scalar) (vs : List VectorItem) :
    Prop where
  gate : gate ≠ 0
  falling : Falling count ss
  mode : mode ≠ 0
  left : vs.length < n.toNat

/-- What a frame has sent since its entry, by its stage. -/
def Underway (f : Frame) (rows : List Row) : Prop :=
  match f.stage with
  | .kEntered => f.next_job = 0 ∧ rows = []
  | .kScalarCount => ∃ gate, gate ≠ 0 ∧ f.next_job = 0 ∧ rows = [(.kMainGate, One gate)]
  | .kScalarReady => ∃ gate count ss, Scalars f gate count ss ∧ f.scalar_upper = upperOf count ss ∧
      rows = front gate count ss
  | .kScalarActive => ∃ gate count ss, ∃ s : Scalar, Scalars f gate count ss ∧
      s.index < upperOf count ss ∧ f.scalar_upper = s.index ∧ rows = front gate count ss ++ [s.pre]
  | .kCleanupRequired => ∃ gate count ss, ∃ s : Scalar, Scalars f gate count ss ∧
      s.index < upperOf count ss ∧ f.scalar_upper = s.index ∧ s.returned.setWidth 8 = (0 : BitVec 8) ∧
      rows = front gate count ss ++ [s.pre, (.kScalarReturn, One s.returned)]
  | .kCleanupActive => ∃ gate count ss, ∃ s : Scalar, ∃ r3 ctr, Scalars f gate count ss ∧
      s.index < upperOf count ss ∧ f.scalar_upper = s.index ∧ s.returned.setWidth 8 = (0 : BitVec 8) ∧
      rows = front gate count ss ++ [s.pre, (.kScalarReturn, One s.returned),
        (.kCleanupPre, Payload.of [kCleanupLr, r3, ctr])]
  | .kJobInitialBound => ∃ gate count ss, Scalars f gate count ss ∧
      rows = front gate count ss ++ [(.kModeGate, One 0)]
  | .kJobReady => ∃ gate count initial ss js, Jobs gate count initial ss js ∧
      f.next_job = BitVec.ofNat 64 js.length ∧ Asks (boundAt initial js js.length) js.length ∧
      rows = jobFront gate count initial ss js
  | .kJobActive => ∃ gate count initial ss js, ∃ j : Job, Jobs gate count initial ss js ∧
      f.next_job = BitVec.ofNat 64 js.length ∧ Asks (boundAt initial js js.length) js.length ∧
      rows = jobFront gate count initial ss js ++ [j.pre f.next_job]
  | .kJobReloadBound => ∃ gate count initial ss js, ∃ j : Job, Jobs gate count initial ss js ∧
      f.next_job = BitVec.ofNat 64 (js.length + 1) ∧
      Asks (boundAt initial js js.length) js.length ∧
      rows = jobFront gate count initial ss js ++
        [j.pre (BitVec.ofNat 64 js.length), (.kJobReturn, One j.returned)]
  | .kWaitRequired => ∃ gate count initial ss js, Jobs gate count initial ss js ∧
      ¬ Asks (boundAt initial js js.length) js.length ∧
      f.job_bound = boundAt initial js js.length ∧ rows = jobFront gate count initial ss js
  | .kWaitActive => ∃ gate count initial ss js r4, Jobs gate count initial ss js ∧
      ¬ Asks (boundAt initial js js.length) js.length ∧
      rows = jobFront gate count initial ss js ++
        [(.kWaitPre, Payload.of [kWaitLr, boundAt initial js js.length, r4, 1])]
  | .kVectorCount => ∃ gate count ss, ∃ mode : BitVec 64, Scalars f gate count ss ∧ mode ≠ 0 ∧
      rows = front gate count ss ++ [(.kModeGate, One mode)]
  | .kVectorReady => ∃ gate count mode n ss vs, Vectors gate count mode n ss vs ∧
      f.next_vector = BitVec.ofNat 64 (n.toNat - 1 - vs.length) ∧
      rows = vectorFront gate count mode n ss vs
  | .kVectorActive => ∃ gate count mode n ss vs, ∃ v : VectorItem, Vectors gate count mode n ss vs ∧
      f.next_vector = BitVec.ofNat 64 (n.toNat - 1 - vs.length) ∧
      rows = vectorFront gate count mode n ss vs ++ [v.pre f.next_vector]
  | .kComplete => Promised rows
  | .kEmissionException => True

/-! ### Every move keeps it -/

section Moves
variable {f f' : Frame} {rows : List Row} {kind : EventKind} {p : Payload}

theorem underway_mainGate (h : Underway f rows) (hstage : f.stage = .kEntered) (r7 : BitVec 64) :
    Underway { f with
      main_observed := true, main_raw := r7
      stage := if r7 ≠ 0 then .kScalarCount else .kComplete } (rows ++ [(.kMainGate, One r7)]) := by
  unfold Underway at h
  rw [hstage] at h
  obtain ⟨hjob, rfl⟩ := h
  by_cases hgate : r7 = 0
  · subst hgate
    exact .nothing
  · unfold Underway
    dsimp only
    rw [if_pos hgate]
    exact ⟨r7, hgate, hjob, rfl⟩

theorem underway_scalarCount (h : Underway f rows) (hstage : f.stage = .kScalarCount)
    (r9 : BitVec 64) :
    Underway { f with
      scalar_count_observed := true, scalar_count := r9, scalar_upper := r9
      stage := .kScalarReady } (rows ++ [(.kScalarCount, One r9)]) := by
  unfold Underway at h
  rw [hstage] at h
  obtain ⟨gate, hgate, hjob, rfl⟩ := h
  exact ⟨gate, r9, [], ⟨hgate, falling_nil r9, hjob⟩, rfl, rfl⟩

theorem underway_scalarPre (h : Underway f rows) (hstage : f.stage = .kScalarReady)
    {index : BitVec 64} (hindex : index < f.scalar_upper) (r3 f1 f2 ctr : BitVec 64) :
    Underway { f with
      scalar_index := index, scalar_upper := index, scalar_emissions := f.scalar_emissions + 1
      stage := .kScalarActive }
      (rows ++ [(.kScalarPre, Payload.of [kScalarLr, index, r3, f1, f2, ctr])]) := by
  unfold Underway at h
  rw [hstage] at h
  obtain ⟨gate, count, ss, hss, hupper, rfl⟩ := h
  rw [hupper] at hindex
  exact ⟨gate, count, ss, ⟨index, r3, f1, f2, ctr, 0, none⟩, ⟨hss.gate, hss.falling, hss.next_job⟩,
    hindex, rfl, rfl⟩

theorem underway_scalarReturn (h : Underway f rows) (hstage : f.stage = .kScalarActive)
    (raw_r3 : BitVec 64) :
    Underway { f with
      scalar_return := raw_r3
      stage := if raw_r3.setWidth 8 = 0 then .kCleanupRequired else .kScalarReady }
      (rows ++ [(.kScalarReturn, One raw_r3)]) := by
  unfold Underway at h
  rw [hstage] at h
  obtain ⟨gate, count, ss, s, hss, hindex, hupper, rfl⟩ := h
  by_cases hclean : raw_r3.setWidth 8 = (0 : BitVec 8)
  · unfold Underway
    dsimp only
    rw [if_pos hclean]
    refine ⟨gate, count, ss, { s with returned := raw_r3 }, ⟨hss.gate, hss.falling, hss.next_job⟩,
      hindex, hupper, hclean, ?_⟩
    rw [List.append_assoc]
    rfl
  · unfold Underway
    dsimp only
    rw [if_neg hclean]
    refine ⟨gate, count, ss ++ [{ s with returned := raw_r3, cleanup := none }],
      ⟨hss.gate, hss.falling.snoc hindex ?_, hss.next_job⟩, ?_, ?_⟩
    · simpa using hclean
    · rw [upperOf_snoc]
      exact hupper
    · rw [front_snoc, List.append_assoc]
      rfl

theorem underway_cleanupPre (h : Underway f rows) (hstage : f.stage = .kCleanupRequired)
    (r3 ctr : BitVec 64) :
    Underway { f with cleanup_emissions := f.cleanup_emissions + 1, stage := .kCleanupActive }
      (rows ++ [(.kCleanupPre, Payload.of [kCleanupLr, r3, ctr])]) := by
  unfold Underway at h
  rw [hstage] at h
  obtain ⟨gate, count, ss, s, hss, hindex, hupper, hclean, rfl⟩ := h
  refine ⟨gate, count, ss, s, r3, ctr, ⟨hss.gate, hss.falling, hss.next_job⟩, hindex, hupper, hclean,
    ?_⟩
  rw [List.append_assoc]
  rfl

theorem underway_cleanupReturn (h : Underway f rows) (hstage : f.stage = .kCleanupActive) :
    Underway { f with stage := .kScalarReady } (rows ++ [(.kCleanupReturn, ({} : Payload))]) := by
  unfold Underway at h
  rw [hstage] at h
  obtain ⟨gate, count, ss, s, r3, ctr, hss, hindex, hupper, hclean, rfl⟩ := h
  refine ⟨gate, count, ss ++ [{ s with cleanup := some (r3, ctr) }],
    ⟨hss.gate, hss.falling.snoc hindex ?_, hss.next_job⟩, ?_, ?_⟩
  · simpa using hclean
  · rw [upperOf_snoc]
    exact hupper
  · rw [front_snoc, List.append_assoc]
    rfl

theorem underway_modeGate (h : Underway f rows) (hstage : f.stage = .kScalarReady)
    (r10 : BitVec 64) :
    Underway { f with
      mode_observed := true, mode_raw := r10
      stage := if r10 ≠ 0 then .kVectorCount else .kJobInitialBound }
      (rows ++ [(.kModeGate, One r10)]) := by
  unfold Underway at h
  rw [hstage] at h
  obtain ⟨gate, count, ss, hss, -, rfl⟩ := h
  by_cases hmode : r10 = 0
  · subst hmode
    exact ⟨gate, count, ss, ⟨hss.gate, hss.falling, hss.next_job⟩, rfl⟩
  · unfold Underway
    dsimp only
    rw [if_pos hmode]
    exact ⟨gate, count, ss, r10, ⟨hss.gate, hss.falling, hss.next_job⟩, hmode, rfl⟩

/-- A bound that was loaded, for the jobs so far. -/
theorem underway_bound {gate count initial bound : BitVec 64} {ss : List Scalar} {js : List Job}
    (hjs : Jobs gate count initial ss js) (hword : bound ≤ UINT32_MAX)
    (hbound : boundAt initial js js.length = bound) (hsmall : js.length < 2 ^ 64)
    (hnext : f.next_job = BitVec.ofNat 64 js.length) :
    Underway { f with
      job_bound_observed := true, job_bound := bound
      stage := if moreJobs bound f.next_job then .kJobReady else .kWaitRequired }
      (jobFront gate count initial ss js) := by
  unfold Underway
  dsimp only
  have hasks := moreJobs_iff_asks hword hsmall
  rw [← hnext] at hasks
  by_cases hmore : moreJobs bound f.next_job = true
  · rw [if_pos hmore]
    exact ⟨gate, count, initial, ss, js, hjs, hnext, hbound ▸ hasks.mp hmore, rfl⟩
  · rw [if_neg hmore]
    exact ⟨gate, count, initial, ss, js, hjs, hbound ▸ mt hasks.mpr hmore, hbound.symm, rfl⟩

theorem underway_initialBound (h : Underway f rows) (hstage : f.stage = .kJobInitialBound)
    {raw_r11 : BitVec 64} (hword : raw_r11 ≤ UINT32_MAX) :
    Underway { f with
      job_bound_observed := true, job_bound := raw_r11
      stage := if moreJobs raw_r11 f.next_job then .kJobReady else .kWaitRequired }
      (rows ++ [(.kJobInitialBound, One raw_r11)]) := by
  unfold Underway at h
  rw [hstage] at h
  obtain ⟨gate, count, ss, hss, rfl⟩ := h
  have hasked : Asked raw_r11 [] := by
    constructor
    · intro b hb
      obtain rfl := List.mem_singleton.mp hb
      exact hword
    · intro k hk
      exact absurd hk (Nat.not_lt_zero k)
  have hrows : front gate count ss ++ [(.kModeGate, One 0)] ++ [(.kJobInitialBound, One raw_r11)] =
      jobFront gate count raw_r11 ss [] := by
    unfold jobFront
    rw [List.append_assoc]
    rfl
  rw [hrows]
  exact underway_bound ⟨hss.gate, hss.falling, hasked⟩ hword rfl (by decide) hss.next_job

theorem underway_reloadBound (h : Underway f rows) (hstage : f.stage = .kJobReloadBound)
    {raw_r11 : BitVec 64} (hword : raw_r11 ≤ UINT32_MAX) :
    Underway { f with
      job_bound_observed := true, job_bound := raw_r11
      stage := if moreJobs raw_r11 f.next_job then .kJobReady else .kWaitRequired }
      (rows ++ [(.kJobReloadBound, One raw_r11)]) := by
  unfold Underway at h
  rw [hstage] at h
  obtain ⟨gate, count, initial, ss, js, j, hjs, hnext, hasks, rfl⟩ := h
  have hmore := hjs.asked.snoc (j := { j with reload := raw_r11 }) hasks hword
  have hrows : jobFront gate count initial ss js ++
      [j.pre (BitVec.ofNat 64 js.length), (.kJobReturn, One j.returned)] ++
        [(.kJobReloadBound, One raw_r11)] =
      jobFront gate count initial ss (js ++ [{ j with reload := raw_r11 }]) := by
    unfold jobFront
    rw [jobRows_snoc]
    simp only [List.append_assoc, List.cons_append, List.nil_append]
    rfl
  have hlength : (js ++ [{ j with reload := raw_r11 }]).length = js.length + 1 := by
    rw [List.length_append, List.length_singleton]
  have hsmall := hasks.small
  rw [hrows]
  refine underway_bound ⟨hjs.gate, hjs.falling, hmore⟩ hword (boundAt_last _ _ _) ?_ ?_
  · omega
  · rw [hnext, hlength]

theorem underway_jobPre (h : Underway f rows) (hstage : f.stage = .kJobReady)
    (r3_to_r8 : Vector (BitVec 64) 6) (descriptor_f32_bits : BitVec 32) :
    Underway { f with job_emissions := f.job_emissions + 1, stage := .kJobActive }
      (rows ++ [(.kJobPre, Payload.of (kJobLr :: f.next_job ::
        (r3_to_r8.toList ++ [descriptor_f32_bits.setWidth 64])))]) := by
  unfold Underway at h
  rw [hstage] at h
  obtain ⟨gate, count, initial, ss, js, hjs, hnext, hasks, rfl⟩ := h
  exact ⟨gate, count, initial, ss, js, ⟨r3_to_r8, descriptor_f32_bits, 0, 0⟩, hjs, hnext, hasks, rfl⟩

theorem underway_jobReturn (h : Underway f rows) (hstage : f.stage = .kJobActive)
    (raw_r3 : BitVec 64) :
    Underway { f with
      job_return := raw_r3, next_job := f.next_job + 1, stage := .kJobReloadBound }
      (rows ++ [(.kJobReturn, One raw_r3)]) := by
  unfold Underway at h
  rw [hstage] at h
  obtain ⟨gate, count, initial, ss, js, j, hjs, hnext, hasks, rfl⟩ := h
  refine ⟨gate, count, initial, ss, js, { j with returned := raw_r3 }, hjs, ?_, hasks, ?_⟩
  · show f.next_job + 1 = _
    rw [hnext, ofNat_add]
    rfl
  · rw [hnext, List.append_assoc]
    rfl

theorem underway_waitPre (h : Underway f rows) (hstage : f.stage = .kWaitRequired)
    (r4 : BitVec 64) :
    Underway { f with wait_emissions := f.wait_emissions + 1, stage := .kWaitActive }
      (rows ++ [(.kWaitPre, Payload.of [kWaitLr, f.job_bound, r4, 1])]) := by
  unfold Underway at h
  rw [hstage] at h
  obtain ⟨gate, count, initial, ss, js, hjs, hdone, hbound, rfl⟩ := h
  rw [hbound]
  exact ⟨gate, count, initial, ss, js, r4, hjs, hdone, rfl⟩

theorem underway_waitReturn (h : Underway f rows) (hstage : f.stage = .kWaitActive) :
    Underway { f with stage := .kComplete } (rows ++ [(.kWaitReturn, ({} : Payload))]) := by
  unfold Underway at h
  rw [hstage] at h
  obtain ⟨gate, count, initial, ss, js, r4, hjs, hdone, rfl⟩ := h
  have hpromised := Promised.jobs hjs.gate hjs.falling hjs.asked hdone r4
  unfold Underway jobFront
  simpa only [List.append_assoc, List.cons_append, List.nil_append] using hpromised

theorem underway_vectorCount (h : Underway f rows) (hstage : f.stage = .kVectorCount)
    (r10 : BitVec 64) :
    Underway { f with
      vector_count_observed := true, vector_count := r10
      next_vector := if r10 ≠ 0 then r10 - 1 else 0
      stage := if r10 ≠ 0 then .kVectorReady else .kComplete }
      (rows ++ [(.kVectorCount, One r10)]) := by
  unfold Underway at h
  rw [hstage] at h
  obtain ⟨gate, count, ss, mode, hss, hmode, rfl⟩ := h
  by_cases hcount : r10 = 0
  · subst hcount
    have hpromised := @Promised.vectors gate count mode 0 ss [] hss.gate hss.falling hmode rfl
    have hrows : front gate count ss ++ [(.kModeGate, One mode)] ++ [(.kVectorCount, One 0)] =
        front gate count ss ++
          (.kModeGate, One mode) :: (.kVectorCount, One 0) :: vectorRows 0 [] := by
      rw [List.append_assoc]
      rfl
    rw [hrows]
    exact hpromised
  · have hpos : 0 < r10.toNat := by
      rw [Nat.pos_iff_ne_zero]
      exact fun hzero => hcount (eq_of_toNat_eq hzero)
    unfold Underway
    dsimp only
    rw [if_pos hcount, if_pos hcount]
    refine ⟨gate, count, mode, r10, ss, [], ⟨hss.gate, hss.falling, hmode, hpos⟩, ?_, ?_⟩
    · apply eq_of_toNat_eq
      have hlt := r10.isLt
      rw [toNat_sub, toNat_ofNat, List.length_nil]
      have hone : (1 : BitVec 64).toNat = 1 := rfl
      omega
    · unfold vectorFront
      rw [List.append_assoc]
      rfl

theorem underway_vectorPre (h : Underway f rows) (hstage : f.stage = .kVectorReady)
    (r3 f1 ctr : BitVec 64) (v1 : Vector (BitVec 32) 4) :
    Underway { f with vector_emissions := f.vector_emissions + 1, stage := .kVectorActive }
      (rows ++ [(.kVectorPre,
        { Payload.of [kVectorLr, f.next_vector, r3, f1, ctr] with vector := v1.toList })]) := by
  unfold Underway at h
  rw [hstage] at h
  obtain ⟨gate, count, mode, n, ss, vs, hvs, hnext, rfl⟩ := h
  exact ⟨gate, count, mode, n, ss, vs, ⟨r3, f1, ctr, v1⟩, hvs, hnext, rfl⟩

theorem underway_vectorReturn (h : Underway f rows) (hstage : f.stage = .kVectorActive) :
    Underway { f with
      next_vector := if f.next_vector ≠ 0 then f.next_vector - 1 else f.next_vector
      stage := if f.next_vector ≠ 0 then .kVectorReady else .kComplete }
      (rows ++ [(.kVectorReturn, ({} : Payload))]) := by
  unfold Underway at h
  rw [hstage] at h
  obtain ⟨gate, count, mode, n, ss, vs, v, hvs, hnext, rfl⟩ := h
  have hlt := n.isLt
  have hleft := hvs.left
  have hrows : vectorFront gate count mode n ss vs ++ [v.pre f.next_vector] ++
      [(.kVectorReturn, ({} : Payload))] = vectorFront gate count mode n ss (vs ++ [v]) := by
    unfold vectorFront
    rw [vectorRows_snoc, hnext]
    simp only [List.append_assoc, List.cons_append, List.nil_append]
  have hlength : (vs ++ [v]).length = vs.length + 1 := by
    rw [List.length_append, List.length_singleton]
  have hnat : f.next_vector.toNat = n.toNat - 1 - vs.length := by
    rw [hnext, toNat_ofNat, Nat.mod_eq_of_lt (by omega)]
  rw [hrows]
  by_cases hzero : f.next_vector = 0
  · have hlast : n.toNat - 1 - vs.length = 0 := by
      rw [← hnat, hzero]
      rfl
    have hpromised := @Promised.vectors gate count mode n ss (vs ++ [v]) hvs.gate hvs.falling
      hvs.mode (by omega)
    unfold Underway
    dsimp only
    rw [if_neg (not_not.mpr hzero)]
    exact hpromised
  · have hmore : n.toNat - 1 - vs.length ≠ 0 := by
      intro heq
      exact hzero (eq_of_toNat_eq (hnat.trans heq))
    unfold Underway
    dsimp only
    rw [if_pos hzero, if_pos hzero]
    refine ⟨gate, count, mode, n, ss, vs ++ [v], ⟨hvs.gate, hvs.falling, hvs.mode, ?_⟩, ?_, rfl⟩
    · omega
    · apply eq_of_toNat_eq
      rw [toNat_sub, toNat_ofNat, hlength, hnat]
      have hone : (1 : BitVec 64).toNat = 1 := rfl
      omega

/-- **One move** of a frame. -/
theorem moves_underway (h : Underway f rows) (hmoves : Moves f kind p f') :
    Underway f' (rows ++ [(kind, p)]) := by
  cases hmoves with
  | mainGate hstage hgate => exact underway_mainGate h hstage _
  | scalarCount hstage hcount => exact underway_scalarCount h hstage _
  | scalarPre hstage hindex r3 f1 f2 ctr => exact underway_scalarPre h hstage hindex r3 f1 f2 ctr
  | scalarReturn hstage raw_r3 => exact underway_scalarReturn h hstage raw_r3
  | cleanupPre hstage r3 ctr => exact underway_cleanupPre h hstage r3 ctr
  | cleanupReturn hstage => exact underway_cleanupReturn h hstage
  | modeGate hstage hgate => exact underway_modeGate h hstage _
  | initialBound hstage hbound => exact underway_initialBound h hstage hbound
  | reloadBound hstage hbound => exact underway_reloadBound h hstage hbound
  | jobPre hstage r3_to_r8 descriptor => exact underway_jobPre h hstage r3_to_r8 descriptor
  | jobReturn hstage raw_r3 => exact underway_jobReturn h hstage raw_r3
  | waitPre hstage r4 => exact underway_waitPre h hstage r4
  | waitReturn hstage => exact underway_waitReturn h hstage
  | vectorCount hstage hcount => exact underway_vectorCount h hstage _
  | vectorPre hstage r3 f1 ctr v1 => exact underway_vectorPre h hstage r3 f1 ctr v1
  | vectorReturn hstage => exact underway_vectorReturn h hstage
  | scalarException hstage => exact trivial
  | cleanupException hstage => exact trivial
  | jobException hstage => exact trivial
  | waitException hstage => exact trivial
  | vectorException hstage => exact trivial

theorem moves_entry_index (hmoves : Moves f kind p f') : f'.entry_index = f.entry_index := by
  cases hmoves <;> rfl

end Moves

/-! ### Runs -/

/-- The events of an open frame: its entry, and what it has sent. -/
def Open (f : Frame) (es : List Event) : Prop :=
  ∃ rows, es.map Event.row = (.kEntry, {}) :: rows ∧ Underway f rows ∧
    ∀ row ∈ rows, row.1 ≠ .kNormalExit

/-- The events of a frame that has ended: what was promised, if the end was a normal one. -/
def Closed (es : List Event) : Prop :=
  (∃ rows, es.map Event.row = (.kEntry, ({} : Payload)) :: (rows ++ [(.kNormalExit, ({} : Payload))]) ∧ Promised rows) ∨
    ∀ e ∈ es, e.kind ≠ .kNormalExit

/-- What holds of a model in a run. -/
structure Sound (m : Model) : Prop where
  histories : Histories Frame.entry_index Event.entry_index Open Closed m.stack m.events
  frames : ∀ f ∈ m.stack, f.entry_index < m.admission.entries.length
  events : ∀ e ∈ m.events, e.entry_index < m.admission.entries.length

section Runs
variable {entries events depth : Nat} {m m' : Model}

theorem open_moved {f f' : Frame} {es : List Event} {e : Event} (hmoves : Moves f e.kind e.payload f')
    (h : Open f es) : Open f' (es ++ [e]) := by
  obtain ⟨rows, hrows, hunderway, hnone⟩ := h
  refine ⟨rows ++ [(e.kind, e.payload)], ?_, moves_underway hunderway hmoves, ?_⟩
  · rw [List.map_append, hrows]
    rfl
  · intro row hrow
    rcases List.mem_append.mp hrow with hold | hnew
    · exact hnone row hold
    · rw [List.mem_singleton.mp hnew]
      exact (moves_kind hmoves).2.1

theorem closed_ended {f : Frame} {es : List Event} {e : Event} {normal : Bool}
    (hkind : e.kind = if normal then .kNormalExit else .kExceptionalExit)
    (hpayload : e.payload = ({} : Payload))
    (hnormal : normal = true → f.stage = .kComplete) (h : Open f es) : Closed (es ++ [e]) := by
  obtain ⟨rows, hrows, hunderway, hnone⟩ := h
  have hrow : e.row = (if normal then .kNormalExit else .kExceptionalExit, ({} : Payload)) :=
    Prod.ext hkind hpayload
  cases normal with
  | true =>
    refine Or.inl ⟨rows, ?_, ?_⟩
    · rw [List.map_append, hrows, List.map_singleton, hrow]
      rfl
    · unfold Underway at hunderway
      rw [hnormal rfl] at hunderway
      exact hunderway
  | false =>
    refine Or.inr fun e' he' => ?_
    have hmem : e'.row ∈ (es ++ [e]).map Event.row := List.mem_map_of_mem he'
    rw [List.map_append, hrows, List.map_singleton, hrow] at hmem
    rcases List.mem_append.mp hmem with hold | hnew
    · rcases List.mem_cons.mp hold with hentry | hrest
      · exact fun hexit => by simp [Event.row, hexit] at hentry
      · exact hnone _ hrest
    · exact fun hexit => by simp [Event.row, hexit] at hnew

theorem sound_entered (h : Sound m) (e : Entry) : Sound (m.entered e) := by
  have hlength : (m.entered e).admission.entries.length = m.admission.entries.length + 1 :=
    List.length_append
  constructor
  · refine h.histories.opened (f := m.frame) ?_ ?_ rfl ?_
    · intro event hevent
      exact Nat.ne_of_lt (h.events event hevent)
    · intro hmem
      obtain ⟨f, hf, hindex⟩ := List.mem_map.mp hmem
      exact Nat.ne_of_lt (h.frames f hf) hindex
    · exact ⟨[], rfl, ⟨rfl, rfl⟩, by simp⟩
  · intro f hf
    rw [hlength]
    rcases List.mem_cons.mp hf with rfl | hold
    · exact Nat.lt_succ_self _
    · exact Nat.lt_succ_of_lt (h.frames f hold)
  · intro event hevent
    rw [hlength]
    rcases List.mem_append.mp hevent with hold | hnew
    · exact Nat.lt_succ_of_lt (h.events event hold)
    · rw [List.mem_singleton.mp hnew]
      exact Nat.lt_succ_self _

/-- **Every effect** of a call keeps what holds in a run. -/
theorem effect_sound {answer : Bool} (h : Sound m)
    (heffect : Effect entries events depth m m' answer) : Sound m' := by
  cases heffect with
  | refused hw => exact h
  | faults hw fault => exact ⟨h.histories, h.frames, h.events⟩
  | enters hw hadmits hdepth hentries hroom => exact sound_entered h _
  | moves hw hstack hroom hmoves =>
    rename_i f rest kind p f'
    obtain ⟨hhistories, hframes, hevents⟩ := h
    rw [hstack] at hhistories hframes
    have hindex := moves_entry_index hmoves
    refine ⟨hhistories.changed hindex rfl fun es hopen => open_moved hmoves hopen, ?_, ?_⟩
    · intro g hg
      rcases List.mem_cons.mp hg with rfl | hold
      · rw [hindex]
        exact hframes f List.mem_cons_self
      · exact hframes g (List.mem_cons_of_mem _ hold)
    · intro event hevent
      rcases List.mem_append.mp hevent with hold | hnew
      · exact hevents event hold
      · rw [List.mem_singleton.mp hnew]
        exact hframes f List.mem_cons_self
  | exits hw hstack hroom hnormal =>
    rename_i f rest normal
    obtain ⟨hhistories, hframes, hevents⟩ := h
    rw [hstack] at hhistories hframes
    refine ⟨hhistories.ended rfl fun es hopen => closed_ended rfl rfl hnormal hopen, ?_, ?_⟩
    · exact fun g hg => hframes g (List.mem_cons_of_mem _ hg)
    · intro event hevent
      rcases List.mem_append.mp hevent with hold | hnew
      · exact hevents event hold
      · rw [List.mem_singleton.mp hnew]
        exact hframes f List.mem_cons_self

theorem call_sound (h : Sound m) (call : Call) : Sound (m.call entries events depth call).1 := by
  by_cases hfreeze : call = .Freeze
  · subst hfreeze
    exact ⟨h.histories, h.frames, h.events⟩
  · exact effect_sound h (call_effect call hfreeze)

theorem run_sound (entries events depth : Nat) (own_epoch parent_virtual_epoch : BitVec 64)
    (calls : List Call) : Sound (run entries events depth own_epoch parent_virtual_epoch calls) := by
  induction calls using List.reverseRecOn with
  | nil => exact ⟨NestedRecorder.histories_nil, fun f hf => (by cases hf), fun e he => (by cases he)⟩
  | append_singleton calls call ih =>
    unfold run at ih ⊢
    rw [List.foldl_append]
    exact call_sound ih call

end Runs

end Mcla.WorkEmission
