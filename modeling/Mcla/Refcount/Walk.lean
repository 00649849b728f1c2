import Mcla.Refcount.Context

/-! # The parent walk

What AddRef and Release do to the counters, with no registers and no stack: a
walk counts its object and, when the count makes the 0 to 1 (AddRef) or 1 to 0
(Release) transition and the header follows the parent rule, goes on to the
parent.  A walk is described by the list of its visits, each with the words it
reads, cut off after `n` of them.
-/
namespace Mcla.Refcount
open ByteMemory ByteMemory.Memory

/-- The two walks. -/
inductive Walk where
  | addRef | release
deriving DecidableEq

namespace Walk

/-- What a visit adds to the counter. -/
def delta : Walk → BitVec 32
  | addRef => 1
  | release => -1

/-- The new count on which a walk looks at the parent. -/
def edge : Walk → BitVec 32
  | addRef => 1
  | release => 0

end Walk

/-- The parent rule: type nibble 4 and flag 0x40000000 in the header. -/
def ParentRule (header : BitVec 32) : Prop := header &&& 0xF = 4 ∧ header &&& 0x40000000 ≠ 0

instance (header : BitVec 32) : Decidable (ParentRule header) := inferInstanceAs (Decidable (_ ∧ _))

variable (w : Walk) (m : Memory) (p : Addr)

/-- The new count of a visit to `p`. -/
def newCount : BitVec 32 := m.load32 (p + 4) + w.delta

/-- The memory after a visit to `p`. -/
def counted : Memory := m.store32 (p + 4) (newCount w m p)

/-- The parent a visit to `p` leads to. -/
def parent? : Option Addr :=
  if newCount w m p = w.edge ∧ ParentRule ((counted w m p).load32 p) then
    some ((counted w m p).load32 (p + 24))
  else none

/-- The addresses of the words a visit to `p` reads. -/
def wordsRead : List Addr :=
  if newCount w m p = w.edge then
    if ParentRule ((counted w m p).load32 p) then [p + 4, p, p + 24] else [p + 4, p]
  else [p + 4]

/-- One visit: the object, its counter before, and the words read. -/
structure Visit where
  object : Addr
  old : BitVec 32
  reads : List Addr

/-- The first `n` visits of the walk from `p`. -/
def visits (w : Walk) : Nat → Memory → Addr → List Visit
  | 0, _, _ => []
  | n + 1, m, p =>
      ⟨p, m.load32 (p + 4), wordsRead w m p⟩ ::
        match parent? w m p with
        | none => []
        | some q => visits w n (counted w m p) q

/-- The walk from `p` ends, and leaves the memory `m'`. -/
inductive Walked (w : Walk) : Memory → Addr → Memory → Prop where
  | stop {m : Memory} {p : Addr} (h : parent? w m p = none) : Walked w m p (counted w m p)
  | climb {m m' : Memory} {p q : Addr} (h : parent? w m p = some q)
      (rest : Walked w (counted w m p) q m') : Walked w m p m'

variable {w m p}

theorem visits_succ_none {n : Nat} (h : parent? w m p = none) :
    visits w (n + 1) m p = [⟨p, m.load32 (p + 4), wordsRead w m p⟩] := by
  simp [visits, h]

theorem visits_succ_some {n : Nat} {q : Addr} (h : parent? w m p = some q) :
    visits w (n + 1) m p =
      ⟨p, m.load32 (p + 4), wordsRead w m p⟩ :: visits w n (counted w m p) q := by
  simp [visits, h]

theorem head_mem_visits (n : Nat) : ⟨p, m.load32 (p + 4), wordsRead w m p⟩ ∈ visits w (n + 1) m p :=
  List.mem_cons_self

theorem counter_mem_wordsRead : p + 4 ∈ wordsRead w m p := by
  unfold wordsRead
  split_ifs <;> simp

theorem header_mem_wordsRead (h : newCount w m p = w.edge) : p ∈ wordsRead w m p := by
  rw [wordsRead, if_pos h]
  split_ifs <;> simp

/-- A visit depends only on the words it reads. -/
theorem visit_congr {m' : Memory} {R : Set Addr} (hm : AgreeOff R m m')
    (hclear : ∀ a ∈ wordsRead w m p, Disjoint (wordAt a) R) :
    m.load32 (p + 4) = m'.load32 (p + 4) ∧ AgreeOff R (counted w m p) (counted w m' p) ∧
      parent? w m p = parent? w m' p ∧ wordsRead w m p = wordsRead w m' p := by
  have hcounter : m.load32 (p + 4) = m'.load32 (p + 4) := hm.load32 (hclear _ counter_mem_wordsRead)
  have hnew : newCount w m p = newCount w m' p := by rw [newCount, newCount, hcounter]
  have hcounted : AgreeOff R (counted w m p) (counted w m' p) := by
    rw [counted, counted, ← hnew]
    exact hm.store32 _ _
  refine ⟨hcounter, hcounted, ?_⟩
  by_cases hedge : newCount w m p = w.edge
  · have hhead : (counted w m p).load32 p = (counted w m' p).load32 p := by
      refine hcounted.load32 (hclear p ?_)
      rw [wordsRead, if_pos hedge]
      split_ifs <;> simp
    by_cases hrule : ParentRule ((counted w m p).load32 p)
    · have hpar : (counted w m p).load32 (p + 24) = (counted w m' p).load32 (p + 24) := by
        refine hcounted.load32 (hclear (p + 24) ?_)
        simp [wordsRead, hedge, hrule]
      simp only [parent?, wordsRead, ← hnew, ← hhead, hpar, and_self]
    · simp only [parent?, wordsRead, ← hnew, ← hhead, hrule, and_false, if_false, and_self]
  · simp only [parent?, wordsRead, ← hnew, hedge, false_and, if_false, and_self]

/-! ## Walks that keep clear of the stack -/

/-- The words the walk from `p` reads are clear of the `room` bytes below `top`,
and those bytes hold one 96-byte frame for each visit. -/
structure StackClear (w : Walk) (m : Memory) (p top : Addr) (room : Nat) : Prop where
  clear : ∀ n, ∀ v ∈ visits w n m p, ∀ a ∈ v.reads, Disjoint (wordAt a) (below top room)
  fits : ∀ n, 96 * (visits w n m p).length ≤ room

theorem StackClear.room_pos {top : Addr} {room : Nat} (h : StackClear w m p top room) :
    96 ≤ room := by
  have h1 := h.fits 1
  simp only [visits, List.length_cons] at h1
  omega

theorem StackClear.head {top : Addr} {room : Nat} (h : StackClear w m p top room) :
    ∀ a ∈ wordsRead w m p, Disjoint (wordAt a) (below top room) :=
  h.clear 1 _ (head_mem_visits 0)

/-- The visits of a walk that stops at its object. -/
theorem mem_visits_of_stop (hstop : parent? w m p = none) {n : Nat} {v : Visit}
    (hv : v ∈ visits w n m p) : v = ⟨p, m.load32 (p + 4), wordsRead w m p⟩ := by
  cases n with
  | zero => simp [visits] at hv
  | succ n => rwa [visits_succ_none hstop, List.mem_singleton] at hv

/-- The visits of a walk that goes on to a parent and stops there. -/
theorem mem_visits_of_parent {q : Addr} (hq : parent? w m p = some q)
    (hstop : parent? w (counted w m p) q = none) {n : Nat} {v : Visit} (hv : v ∈ visits w n m p) :
    v = ⟨p, m.load32 (p + 4), wordsRead w m p⟩ ∨
      v = ⟨q, (counted w m p).load32 (q + 4), wordsRead w (counted w m p) q⟩ := by
  cases n with
  | zero => simp [visits] at hv
  | succ n =>
    rw [visits_succ_some hq, List.mem_cons] at hv
    exact hv.imp_right (mem_visits_of_stop hstop)

/-- A walk that stops at its object needs one frame. -/
theorem StackClear.of_stop {top : Addr} {room : Nat} (hstop : parent? w m p = none)
    (hclear : ∀ a ∈ wordsRead w m p, Disjoint (wordAt a) (below top room)) (hroom : 96 ≤ room) :
    StackClear w m p top room := by
  refine ⟨fun n v hv a ha => ?_, fun n => ?_⟩
  · rw [mem_visits_of_stop hstop hv] at ha
    exact hclear a ha
  · cases n with
    | zero => simp [visits]
    | succ n => simpa [visits_succ_none hstop] using hroom

/-- A walk that goes on to a parent and stops there needs two. -/
theorem StackClear.of_parent {top q : Addr} {room : Nat} (hq : parent? w m p = some q)
    (hstop : parent? w (counted w m p) q = none)
    (hclear : ∀ a ∈ wordsRead w m p ++ wordsRead w (counted w m p) q,
      Disjoint (wordAt a) (below top room)) (hroom : 192 ≤ room) : StackClear w m p top room := by
  refine ⟨fun n v hv a ha => ?_, fun n => ?_⟩
  · rcases mem_visits_of_parent hq hstop hv with rfl | rfl
    · exact hclear a (List.mem_append_left _ ha)
    · exact hclear a (List.mem_append_right _ ha)
  · match n with
    | 0 => simp [visits]
    | 1 => simp [visits, hq]; omega
    | n + 2 => simp [visits_succ_some hq, visits_succ_none hstop]; omega

/-- The visits do not see a change inside the dead area. -/
theorem visits_congr {R : Set Addr} : ∀ {n : Nat} {m m' : Memory} {p : Addr},
    AgreeOff R m m' → (∀ v ∈ visits w n m p, ∀ a ∈ v.reads, Disjoint (wordAt a) R) →
    visits w n m p = visits w n m' p
  | 0, _, _, _, _, _ => rfl
  | n + 1, m, m', p, hm, hclear => by
      obtain ⟨hold, hcounted, hpar, hreads⟩ := visit_congr hm
        (hclear _ (head_mem_visits n))
      cases hq : parent? w m p with
      | none => rw [visits_succ_none hq, visits_succ_none (hpar.symm.trans hq), hold, hreads]
      | some q =>
        rw [visits_succ_some hq] at hclear
        rw [visits_succ_some hq, visits_succ_some (hpar.symm.trans hq), hold, hreads,
          visits_congr hcounted fun v hv => hclear v (List.mem_cons_of_mem _ hv)]

/-- Nor does the memory they leave. -/
theorem Walked.congr {R : Set Addr} {m' t : Memory} (h : Walked w m p t) (hm : AgreeOff R m m')
    (hclear : ∀ n, ∀ v ∈ visits w n m p, ∀ a ∈ v.reads, Disjoint (wordAt a) R) :
    ∃ t', Walked w m' p t' ∧ AgreeOff R t t' := by
  induction h generalizing m' with
  | stop hstop =>
    obtain ⟨-, hcounted, hpar, -⟩ := visit_congr hm (hclear 1 _ (head_mem_visits 0))
    exact ⟨_, .stop (hpar.symm.trans hstop), hcounted⟩
  | climb hq _ ih =>
    obtain ⟨-, hcounted, hpar, -⟩ := visit_congr hm (hclear 1 _ (head_mem_visits 0))
    obtain ⟨t', ht, hagree⟩ := ih hcounted fun n v hv => hclear (n + 1) v (by
      rw [visits_succ_some hq]
      exact List.mem_cons_of_mem _ hv)
    exact ⟨t', .climb (hpar.symm.trans hq) ht, hagree⟩

/-- The words that the rest of a walk reads, once the frame of its first level has
been written. -/
theorem StackClear.enter_reads {top q : Addr} {room : Nat} {m' : Memory}
    (h : StackClear w m p top room) (hq : parent? w m p = some q)
    (hm : AgreeOff (below top 96) (counted w m p) m') (n : Nat) :
    ∀ v ∈ visits w n m' q, ∀ a ∈ v.reads, Disjoint (wordAt a) (below top room) := by
  have htail : ∀ v ∈ visits w n (counted w m p) q, ∀ a ∈ v.reads,
      Disjoint (wordAt a) (below top room) := fun v hv =>
    h.clear (n + 1) v (by rw [visits_succ_some hq]; exact List.mem_cons_of_mem _ hv)
  rw [← visits_congr hm fun v hv a ha => (htail v hv a ha).mono_right (below_mono top h.room_pos)]
  exact htail

/-- The rest of a clear walk is clear below the next frame, also once that frame
has been written. -/
theorem StackClear.next {top q : Addr} {room : Nat} {m' : Memory} (h : StackClear w m p top room)
    (hq : parent? w m p = some q) (hm : AgreeOff (below top 96) (counted w m p) m') :
    StackClear w m' q (top - 96) (room - 96) := by
  have hroom := h.room_pos
  have hsub : below (top - 96) (room - 96) ⊆ below top room :=
    below_sub_subset top 96 (by have : (96 : BitVec 32).toNat = 96 := rfl; omega)
  refine ⟨fun n v hv a ha => (h.enter_reads hq hm n v hv a ha).mono_right hsub, fun n => ?_⟩
  have hsame := visits_congr hm.symm fun v hv a ha =>
    (h.enter_reads hq hm n v hv a ha).mono_right (below_mono top hroom)
  have hlen := h.fits (n + 1)
  rw [visits_succ_some hq, List.length_cons, ← hsame] at hlen
  omega

end Mcla.Refcount
