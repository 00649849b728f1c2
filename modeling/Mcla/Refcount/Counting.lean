import Mcla.Library.ReferenceGraph
import Mcla.Refcount.Simulation

/-! # What the counters count

A fixed graph of objects, and any sequence of explicit AddRef and Release calls
from counters that are all zero.  Each call may find another context and another
memory, as long as the words of the graph are what the call before left.  After
each call the counter of an object is its net number of explicit references plus
the number of its live children that follow the parent rule.

The walks of the model are walks of a `ReferenceGraph`: this module shows it and
takes the law from there.
-/
namespace Mcla.Refcount
open ByteMemory ByteMemory.Memory

/-- **A graph of objects**: its headers and parents, closed under the parent rule,
with counter words that overlap neither one another nor what the rule reads. -/
structure ObjectGraph where
  objects : Finset Addr
  header : Addr → BitVec 32
  parent : Addr → Addr
  closed : ∀ p ∈ objects, ParentRule (header p) → parent p ∈ objects
  counters_apart : ∀ p ∈ objects, ∀ q ∈ objects, p ≠ q → Disjoint (wordAt (p + 4)) (wordAt (q + 4))
  header_apart : ∀ p ∈ objects, ∀ q ∈ objects, Disjoint (wordAt q) (wordAt (p + 4))
  parent_apart : ∀ p ∈ objects, ∀ q ∈ objects, ParentRule (header q) →
    Disjoint (wordAt (q + 24)) (wordAt (p + 4))

/-- A walk would take the counter through zero. -/
def Walk.Wraps : Walk → BitVec 32 → Prop
  | .addRef, old => old = 0xFFFFFFFF
  | .release, old => old = 0

/-- The change of a counter. -/
def Walk.sign : Walk → ℤ
  | .addRef => 1
  | .release => -1

namespace ObjectGraph
variable (g : ObjectGraph)

/-- The object above `p`. -/
def up (p : Addr) : Option Addr := if ParentRule (g.header p) then some (g.parent p) else none

/-- The words of the graph: counters, headers, and the parents the rule reads. -/
def words : Set Addr :=
  {x | ∃ p ∈ g.objects, x ∈ wordAt p ∨ x ∈ wordAt (p + 4) ∨
    ParentRule (g.header p) ∧ x ∈ wordAt (p + 24)}

/-- The graph is laid out in `m`. -/
def Holds (m : Memory) : Prop :=
  ∀ p ∈ g.objects, m.load32 p = g.header p ∧
    (ParentRule (g.header p) → m.load32 (p + 24) = g.parent p)

/-- The counters in `m`. -/
def count (m : Memory) (p : Addr) : ℕ := if p ∈ g.objects then (m.load32 (p + 4)).toNat else 0

variable {g} {m m' : Memory} {p q : Addr} {w : Walk}

theorem count_of_mem (hp : p ∈ g.objects) : g.count m p = (m.load32 (p + 4)).toNat := if_pos hp

theorem up_mem (hp : p ∈ g.objects) (h : g.up p = some q) : q ∈ g.objects := by
  rw [up] at h
  split_ifs at h with hrule
  rw [Option.some.injEq] at h
  exact h ▸ g.closed p hp hrule

theorem header_subset (hp : p ∈ g.objects) : wordAt p ⊆ g.words := fun _ hx => ⟨p, hp, .inl hx⟩

theorem counter_subset (hp : p ∈ g.objects) : wordAt (p + 4) ⊆ g.words :=
  fun _ hx => ⟨p, hp, .inr (.inl hx)⟩

theorem parent_subset (hp : p ∈ g.objects) (hrule : ParentRule (g.header p)) :
    wordAt (p + 24) ⊆ g.words :=
  fun _ hx => ⟨p, hp, .inr (.inr ⟨hrule, hx⟩)⟩

/-! ## Memories that agree on the graph -/

section Agree
variable {R : Set Addr} (hm : AgreeOff R m m') (hR : Disjoint g.words R)
include hm hR

theorem Holds.congr (h : g.Holds m) : g.Holds m' := by
  intro p hp
  obtain ⟨hhead, hpar⟩ := h p hp
  refine ⟨?_, fun hrule => ?_⟩
  · rw [← hm.load32 (hR.mono_left (header_subset hp)), hhead]
  · rw [← hm.load32 (hR.mono_left (parent_subset hp hrule)), hpar hrule]

theorem count_congr : g.count m = g.count m' := by
  funext p
  by_cases hp : p ∈ g.objects
  · rw [count_of_mem hp, count_of_mem hp, hm.load32 (hR.mono_left (counter_subset hp))]
  · rw [count, count, if_neg hp, if_neg hp]

end Agree

/-! ## One visit -/

/-- A visit changes no header and no parent. -/
theorem Holds.counted (h : g.Holds m) (hp : p ∈ g.objects) : g.Holds (counted w m p) := by
  intro q hq
  obtain ⟨hhead, hpar⟩ := h q hq
  refine ⟨?_, fun hrule => ?_⟩
  · rw [Refcount.counted, load32_store32_of_disjoint (g.header_apart p hp q hq), hhead]
  · rw [Refcount.counted, load32_store32_of_disjoint (g.parent_apart p hp q hq hrule), hpar hrule]

/-- A visit changes the count of its own object. -/
theorem count_counted (hp : p ∈ g.objects) :
    g.count (counted w m p) = Function.update (g.count m) p (newCount w m p).toNat := by
  funext q
  by_cases hqp : q = p
  · subst hqp
    rw [Function.update_self, count_of_mem hp, counted, load32_store32]
  · rw [Function.update_of_ne hqp]
    by_cases hq : q ∈ g.objects
    · rw [count_of_mem hq, count_of_mem hq, counted,
        load32_store32_of_disjoint (g.counters_apart q hq p hp hqp)]
    · rw [count, count, if_neg hq, if_neg hq]

/-- The parent a visit leads to is the object above, on the transition only. -/
theorem Holds.parent? (h : g.Holds m) (hp : p ∈ g.objects) :
    parent? w m p = if newCount w m p = w.edge then g.up p else none := by
  obtain ⟨hhead, hpar⟩ := h.counted (w := w) hp p hp
  by_cases hedge : newCount w m p = w.edge
  · by_cases hrule : ParentRule (g.header p)
    · rw [Refcount.parent?, hhead, if_pos ⟨hedge, hrule⟩, if_pos hedge, up, if_pos hrule,
        hpar hrule]
    · rw [Refcount.parent?, hhead, if_neg fun hc => hrule hc.2, if_pos hedge, up, if_neg hrule]
  · rw [Refcount.parent?, if_neg fun hc => hedge hc.1, if_neg hedge]

/-- A visit reads words of the graph. -/
theorem Holds.wordsRead_subset (h : g.Holds m) (hp : p ∈ g.objects) :
    ∀ a ∈ wordsRead w m p, wordAt a ⊆ g.words := by
  have hhead := (h.counted (w := w) hp p hp).1
  intro a ha
  rw [wordsRead, hhead] at ha
  split_ifs at ha with hedge hrule
  · simp only [List.mem_cons, List.not_mem_nil, or_false] at ha
    rcases ha with rfl | rfl | rfl
    · exact counter_subset hp
    · exact header_subset hp
    · exact parent_subset hp hrule
  · simp only [List.mem_cons, List.not_mem_nil, or_false] at ha
    rcases ha with rfl | rfl
    · exact counter_subset hp
    · exact header_subset hp
  · rw [List.mem_singleton] at ha
    exact ha ▸ counter_subset hp

theorem newCount_toNat (hw : ¬ w.Wraps (m.load32 (p + 4))) :
    ((newCount w m p).toNat : ℤ) = (m.load32 (p + 4)).toNat + w.sign := by
  cases w with
  | addRef =>
    simp only [newCount, Walk.Wraps, Walk.delta, Walk.sign] at hw ⊢
    bv_omega
  | release =>
    simp only [newCount, Walk.Wraps, Walk.delta, Walk.sign] at hw ⊢
    bv_omega

/-- The transition the code tests is the one that changes liveness. -/
theorem edge_iff_live (hw : ¬ w.Wraps (m.load32 (p + 4))) :
    newCount w m p = w.edge ↔
      ReferenceGraph.live (newCount w m p).toNat ≠
        ReferenceGraph.live (m.load32 (p + 4)).toNat := by
  have hstep := newCount_toNat hw
  have hedge : newCount w m p = w.edge ↔ (newCount w m p).toNat = w.edge.toNat :=
    BitVec.toNat_inj.symm
  rw [hedge]
  unfold ReferenceGraph.live
  cases w with
  | addRef =>
    simp only [Walk.edge, Walk.sign] at hstep ⊢
    have h1 : (1 : BitVec 32).toNat = 1 := rfl
    split_ifs <;> omega
  | release =>
    simp only [Walk.edge, Walk.sign] at hstep ⊢
    have h0 : (0 : BitVec 32).toNat = 0 := rfl
    split_ifs <;> omega

/-! ## A walk -/

theorem Holds.visits_subset (h : g.Holds m) (hp : p ∈ g.objects) (n : Nat) :
    ∀ v ∈ visits w n m p, ∀ a ∈ v.reads, wordAt a ⊆ g.words := by
  induction n generalizing m p with
  | zero => simp [visits]
  | succ n ih =>
    have hhead := h.wordsRead_subset (w := w) hp
    have hpar := h.parent? (w := w) hp
    cases hq : Refcount.parent? w m p with
    | none =>
      rw [visits_succ_none hq]
      simpa using hhead
    | some q =>
      rw [visits_succ_some hq]
      intro v hv
      rcases List.mem_cons.mp hv with rfl | hv
      · exact hhead
      · rw [hq] at hpar
        split_ifs at hpar with hedge
        exact ih (h.counted hp) (up_mem hp hpar.symm) v hv

/-- **A walk of the code is a walk of the reference graph.** -/
theorem Holds.walks (h : g.Holds m) (hp : p ∈ g.objects) (hwalk : Walked w m p m')
    (hwrap : ∀ n, ∀ v ∈ visits w n m p, ¬ w.Wraps v.old) :
    ReferenceGraph.Walks g.up w.sign (g.count m) p (g.count m') ∧ g.Holds m' := by
  induction hwalk with
  | @stop m p hstop =>
    have hw := hwrap 1 _ (head_mem_visits 0)
    have hstep : ((newCount w m p).toNat : ℤ) = g.count m p + w.sign := by
      rw [count_of_mem hp, newCount_toNat hw]
    refine ⟨?_, h.counted hp⟩
    rw [count_counted hp]
    refine .stop hstep fun hflip => ?_
    rw [count_of_mem hp] at hflip
    rw [← hstop, h.parent? hp, if_pos ((edge_iff_live hw).mpr hflip)]
  | @climb m m' p q hq hrest ih =>
    have hw := hwrap 1 _ (head_mem_visits 0)
    have hstep : ((newCount w m p).toNat : ℤ) = g.count m p + w.sign := by
      rw [count_of_mem hp, newCount_toNat hw]
    have hpar := h.parent? (w := w) hp
    rw [hq] at hpar
    split_ifs at hpar with hedge
    have hflip := (edge_iff_live hw).mp hedge
    rw [← count_of_mem hp] at hflip
    obtain ⟨hwalks, hholds⟩ := ih (h.counted hp) (up_mem hp hpar.symm) fun n v hv =>
      hwrap (n + 1) v (by
        rw [visits_succ_some hq]
        exact List.mem_cons_of_mem _ hv)
    rw [count_counted hp] at hwalks
    exact ⟨.climb hstep hflip hpar.symm hwalks, hholds⟩

end ObjectGraph

/-! ## Runs of explicit calls -/

/-- The hook of a walk. -/
def hook (wanted : Bool) (destroy : Destroy) : Walk → Nat → Machine → Option Machine
  | .addRef => sub_82422160 wanted
  | .release => sub_824221D8 wanted destroy

/-- What a graph is promised of the guest destroy, which uses `stack` bytes below
its stack pointer: it restores the pointer, and leaves the words of the graph
alone. -/
structure DestroyKeeps (g : ObjectGraph) (stack : Nat) (destroy : Destroy) : Prop where
  sp : ∀ c m, (destroy c m).1.r1 = c.r1
  words : ∀ c m, Disjoint g.words (below (u32 c.r1) stack) → AgreeOff g.wordsᶜ (destroy c m).2 m

/-- **The memories a sequence of explicit calls can leave.**  A call runs on any
context and on any memory that holds the words of the graph as they were left;
it has stack for its frames, clear of the graph, and no counter of its walk
wraps. -/
inductive Run (g : ObjectGraph) (stack : Nat) (wanted : Bool) (destroy : Destroy) :
    List (Walk × Addr) → Memory → Prop where
  | start {m : Memory} (holds : g.Holds m) (zero : ∀ p ∈ g.objects, m.load32 (p + 4) = 0) :
      Run g stack wanted destroy [] m
  | call {calls : List (Walk × Addr)} {m : Memory} {w : Walk} {s s' : Machine} {fuel room : Nat}
      (before : Run g stack wanted destroy calls m)
      (same : AgreeOff g.wordsᶜ m s.mem)
      (object : u32 s.ctx.r3 ∈ g.objects)
      (fits : ∀ n, 96 * (visits w n s.mem (u32 s.ctx.r3)).length ≤ room)
      (clear : Disjoint g.words (below (u32 s.ctx.r1) (room + stack)))
      (noWrap : ∀ n, ∀ v ∈ visits w n s.mem (u32 s.ctx.r3), ¬ w.Wraps v.old)
      (returned : hook wanted destroy w fuel s = some s') :
      Run g stack wanted destroy (calls ++ [(w, u32 s.ctx.r3)]) s'.mem

/-- The explicit AddRefs of `p` less its explicit Releases. -/
def netRefs (calls : List (Walk × Addr)) (p : Addr) : ℤ :=
  (calls.map fun call => if call.2 = p then call.1.sign else 0).sum

theorem netRefs_append (calls : List (Walk × Addr)) (w : Walk) (p : Addr) :
    netRefs (calls ++ [(w, p)]) = Function.update (netRefs calls) p (netRefs calls p + w.sign) := by
  funext q
  by_cases hqp : q = p
  · subst hqp
    simp [netRefs]
  · rw [Function.update_of_ne hqp]
    simp [netRefs, Ne.symm hqp]

section Runs
variable {g : ObjectGraph} {stack : Nat} {wanted : Bool} {destroy : Destroy}

/-- A call that returned walked the graph. -/
theorem hook_walked (hdestroy : DestroyKeeps g stack destroy) {w : Walk} {fuel room : Nat}
    {s s' : Machine} (hclear : StackClear w s.mem (u32 s.ctx.r3) (u32 s.ctx.r1) room)
    (hW : Disjoint g.words (below (u32 s.ctx.r1) (room + stack)))
    (hrun : hook wanted destroy w fuel s = some s') :
    ∃ m, Walked w s.mem (u32 s.ctx.r3) m ∧ AgreeOff g.wordsᶜ s'.mem m := by
  cases w with
  | addRef =>
    exact (walked_of_levels (W := g.words) (fun _ => rfl) leaves_addRefLeave.sp
      (fun s _ => AgreeOff.refl _ s.mem) (addRef_level stack wanted) fuel s s' room hclear hW hrun).2
  | release =>
    exact (walked_of_levels (W := g.words) (fun _ => rfl) (releaseFinish_r1 hdestroy.sp)
      (fun _ h => releaseFinish_mem hdestroy.words h)
      (release_level hdestroy.sp hdestroy.words wanted) fuel s s' room hclear hW hrun).2

/-- **The invariant of a run**: the graph stays laid out, and its counts keep the
law of the reference graph. -/
theorem Run.balanced (hdestroy : DestroyKeeps g stack destroy) {calls : List (Walk × Addr)}
    {m : Memory} (h : Run g stack wanted destroy calls m) :
    g.Holds m ∧ ReferenceGraph.Balanced g.up g.objects (netRefs calls) (g.count m) := by
  have hwords : Disjoint g.words g.wordsᶜ := disjoint_compl_right
  induction h with
  | start holds zero =>
    refine ⟨holds, ReferenceGraph.balanced_zero fun p hp => ?_⟩
    rw [ObjectGraph.count_of_mem hp, zero p hp]
    rfl
  | @call calls m w s s' fuel room before same object fits clear noWrap returned ih =>
    obtain ⟨hholds, hbal⟩ := ih
    have hholds' := hholds.congr same hwords
    rw [ObjectGraph.count_congr same hwords] at hbal
    have hclear : StackClear w s.mem (u32 s.ctx.r3) (u32 s.ctx.r1) room := by
      refine ⟨fun n v hv a ha => ?_, fits⟩
      exact (clear.mono_left (hholds'.visits_subset object n v hv a ha)).mono_right
        (below_mono _ (Nat.le_add_right room stack))
    obtain ⟨m', hwalked, hagree⟩ := hook_walked hdestroy hclear clear returned
    obtain ⟨hwalks, hholds''⟩ := hholds'.walks object hwalked noWrap
    have hsign : w.sign = 1 ∨ w.sign = -1 := by cases w <;> simp [Walk.sign]
    refine ⟨hholds''.congr hagree.symm hwords, ?_⟩
    rw [ObjectGraph.count_congr hagree hwords, netRefs_append]
    exact hwalks.keeps hsign (fun p hp q hq => ObjectGraph.up_mem hp hq) object hbal

/-- **What the counters count.**  After each call of a run, the counter of an
object is its net number of explicit references plus the number of its children
that follow the parent rule and whose own counter is not zero. -/
theorem counter_eq_references (hdestroy : DestroyKeeps g stack destroy)
    {calls : List (Walk × Addr)} {m : Memory} (h : Run g stack wanted destroy calls m)
    {p : Addr} (hp : p ∈ g.objects) :
    ((m.load32 (p + 4)).toNat : ℤ) = netRefs calls p +
      (g.objects.filter fun q =>
        ParentRule (m.load32 q) ∧ m.load32 (q + 24) = p ∧ m.load32 (q + 4) ≠ 0).card := by
  obtain ⟨hholds, hbal⟩ := h.balanced hdestroy
  have hlaw := hbal p hp
  rw [ObjectGraph.count_of_mem hp, ReferenceGraph.held_eq_card] at hlaw
  rw [hlaw]
  congr 3
  refine Finset.filter_congr fun q hq => ?_
  obtain ⟨hhead, hpar⟩ := hholds q hq
  rw [ObjectGraph.count_of_mem hq, hhead, ObjectGraph.up]
  have hzero : (m.load32 (q + 4)).toNat ≠ 0 ↔ m.load32 (q + 4) ≠ 0 :=
    not_congr (BitVec.toNat_eq (y := 0)).symm
  by_cases hrule : ParentRule (g.header q)
  · rw [if_pos hrule, ← hpar hrule, Option.some.injEq, hzero]
    exact ⟨fun h => ⟨hrule, h⟩, fun h => h.2⟩
  · rw [if_neg hrule]
    exact ⟨fun h => absurd h.1 (by simp), fun h => absurd h.1 hrule⟩

end Runs

/-- A child that follows the parent rule, and its parent. -/
def childOfParent : ObjectGraph where
  objects := {0x1000, 0x2000}
  header p := if p = 0x1000 then 0x40000004 else 0
  parent _ := 0x2000
  closed _ _ _ := Finset.mem_insert_of_mem (Finset.mem_singleton_self _)
  counters_apart p hp q hq hpq := by
    simp only [Finset.mem_insert, Finset.mem_singleton] at hp hq
    rcases hp with rfl | rfl <;> rcases hq with rfl | rfl
    · exact absurd rfl hpq
    · exact wordAt_disjoint (by decide) (by decide)
    · exact (wordAt_disjoint (by decide) (by decide)).symm
    · exact absurd rfl hpq
  header_apart p hp q hq := by
    simp only [Finset.mem_insert, Finset.mem_singleton] at hp hq
    rcases hp with rfl | rfl <;> rcases hq with rfl | rfl
    · exact wordAt_disjoint (by decide) (by decide)
    · exact (wordAt_disjoint (by decide) (by decide)).symm
    · exact wordAt_disjoint (by decide) (by decide)
    · exact wordAt_disjoint (by decide) (by decide)
  parent_apart p hp q hq hrule := by
    simp only [Finset.mem_insert, Finset.mem_singleton] at hp hq
    rcases hp with rfl | rfl <;> rcases hq with rfl | rfl
    · exact (wordAt_disjoint (by decide) (by decide)).symm
    · exact absurd hrule (by decide)
    · exact wordAt_disjoint (by decide) (by decide)
    · exact absurd hrule (by decide)

/-- That graph in memory, with no references yet. -/
def childMemory : Memory :=
  ((show Memory from fun _ => 0).store32 0x1000 0x40000004).store32 0x1018 0x2000

theorem childOfParent_clear : Disjoint childOfParent.words (below 0x10000 224) := by
  refine Set.disjoint_left.mpr ?_
  rintro x ⟨p, hp, hx⟩ hy
  simp only [childOfParent, Finset.mem_insert, Finset.mem_singleton] at hp
  rcases hx with hx | hx | ⟨-, hx⟩ <;> rcases hp with rfl | rfl <;>
    exact Set.disjoint_left.mp (wordAt_disjoint_of_le (by decide)) hx hy

theorem fakeDestroy_keeps (g : ObjectGraph) : DestroyKeeps g 32 fakeDestroy where
  sp _ _ := rfl
  words c m h := by
    refine (agreeOff_store32 ?_ _).mono (subset_refl _)
    exact (wordAt_subset_below _ 32 (by decide) (by decide)).trans h.subset_compl_left

theorem counter_eq_references_child :
    ∃ m, Run childOfParent 32 true fakeDestroy [(.addRef, 0x1000)] m ∧
      ((m.load32 (0x2000 + 4)).toNat : ℤ) = netRefs [(.addRef, 0x1000)] 0x2000 +
        (childOfParent.objects.filter fun q =>
          ParentRule (m.load32 q) ∧ m.load32 (q + 24) = 0x2000 ∧ m.load32 (q + 4) ≠ 0).card := by
  have hq : parent? .addRef childMemory 0x1000 = some 0x2000 := by decide
  have hstop : parent? .addRef (counted .addRef childMemory 0x1000) 0x2000 = none := by
    decide
  have hstack : StackClear .addRef childMemory 0x1000 0x10000 192 := by
    have hreads : wordsRead .addRef childMemory 0x1000 ++
        wordsRead .addRef (counted .addRef childMemory 0x1000) 0x2000 =
          [0x1004, 0x1000, 0x1018, 0x2004, 0x2000] := by decide
    refine .of_parent hq hstop (fun a ha => ?_) (by decide)
    rw [hreads] at ha
    simp only [List.mem_cons, List.not_mem_nil, or_false] at ha
    rcases ha with rfl | rfl | rfl | rfl | rfl <;> exact wordAt_disjoint_of_le (by decide)
  have hstart : Run childOfParent 32 true fakeDestroy [] childMemory := by
    refine .start ?_ ?_
    · intro p hp
      simp only [childOfParent, Finset.mem_insert, Finset.mem_singleton] at hp
      rcases hp with rfl | rfl
      · exact ⟨by decide, fun _ => by decide⟩
      · exact ⟨by decide, fun hrule => absurd hrule (by decide)⟩
    · intro p hp
      simp only [childOfParent, Finset.mem_insert, Finset.mem_singleton] at hp
      rcases hp with rfl | rfl <;> decide
  have hreturns : (hook true fakeDestroy .addRef 2
      (callOn 0x1000 0x10000 childMemory)).isSome = true := by decide
  obtain ⟨s', hs'⟩ := Option.isSome_iff_exists.mp hreturns
  have hobject : u32 (callOn 0x1000 0x10000 childMemory).ctx.r3 = 0x1000 := by decide
  have hwrap : ∀ n, ∀ v ∈ visits .addRef n childMemory 0x1000, ¬ Walk.addRef.Wraps v.old := by
    intro n v hv
    have hold : childMemory.load32 0x1004 ≠ 0xFFFFFFFF := by decide
    have hold' : (counted .addRef childMemory 0x1000).load32 0x2004 ≠ 0xFFFFFFFF := by
      decide
    rcases mem_visits_of_parent hq hstop hv with rfl | rfl
    · exact hold
    · exact hold'
  have hsp : u32 (callOn 0x1000 0x10000 childMemory).ctx.r1 = 0x10000 := by decide
  have hrun := @Run.call _ _ _ _ _ _ .addRef (callOn 0x1000 0x10000 childMemory) s' 2 192
    hstart (AgreeOff.refl _ childMemory)
    (by rw [hobject]; exact Finset.mem_insert_self _ _) (by rw [hobject]; exact hstack.fits)
    (by rw [hsp]; exact childOfParent_clear) (by rw [hobject]; exact hwrap) hs'
  rw [hobject] at hrun
  exact ⟨s'.mem, hrun, counter_eq_references (fakeDestroy_keeps childOfParent) hrun
    (Finset.mem_insert_of_mem (Finset.mem_singleton_self _))⟩

end Mcla.Refcount
