import Mcla.Library.HandleLog

/-! # The GPU performance reader

`GpuPerfReader` of `mcla_vram_census_win`: the D3DKMT adapter is opened at the start, queried once a
second, and closed at the stop or after repeated failures.  The calls of the interface are written
down beside the reader, with whether an open succeeded; what they answer is up to the interface.
-/
namespace Mcla.VramCensus
open HandleLog List

/-- What a node reports. -/
structure NodePerf where
  (frequency_hz max_frequency_hz : UInt64 := 0)

/-- What the adapter reports. -/
structure AdapterPerf where
  memory_frequency_hz : UInt64 := 0
  (power_tenth_pct temperature_deci_c fan_rpm : UInt32 := 0)

/-- `KmtApi`, with the state that its answers come from; a query that fails answers nothing. -/
structure KmtApi (σ : Type) where
  openAdapter : UInt32 → Int32 → σ → Bool × σ
  nodeIs3D : UInt32 → σ → Option Bool × σ
  queryNode : UInt32 → σ → Option NodePerf × σ
  queryAdapter : σ → Option AdapterPerf × σ
  close : σ → σ

/-- One sample, with what of it is known. -/
structure GpuPerfSample where
  (node_ok adapter_ok : Bool := false)
  node : NodePerf := {}
  adapter : AdapterPerf := {}

/-- The state of the reader. -/
inductive KmtState where
  | kOff | kWine | kOpenFailed | kOk | kFailed
deriving DecidableEq

/-- The calls that reach the driver. -/
inductive KmtCall where
  | openAdapter (luid_low : UInt32) (luid_high : Int32) (ok : Bool)
  | nodeIs3D (node : UInt32)
  | queryNode (node : UInt32)
  | queryAdapter
  | close
deriving DecidableEq

/-- What a call does with the adapter. -/
def KmtCall.event : KmtCall → Event
  | .openAdapter _ _ ok => .opened ok
  | .close => .closed
  | _ => .used

/-- The interface, and the calls made so far. -/
structure Kmt (σ : Type) where
  state : σ
  calls : List KmtCall := []

/-- The reader, with the driver that it asks. -/
structure GpuPerfReader (σ : Type) where
  /-- `api_` is not null. -/
  has_api : Bool
  kmt : Kmt σ
  state : KmtState := .kOff
  is_open : Bool := false
  (node failures : UInt32 := 0)

def kMaxNodes : Nat := 64

def GpuPerfReader.kMaxConsecutiveFailures : UInt32 := 5

section Kmt
variable {σ : Type} (api : KmtApi σ)

namespace Kmt

/-- The adapter is opened. -/
def openAdapter (k : Kmt σ) (luid_low : UInt32) (luid_high : Int32) : Bool × Kmt σ :=
  let (ok, state) := api.openAdapter luid_low luid_high k.state
  (ok, ⟨state, k.calls ++ [.openAdapter luid_low luid_high ok]⟩)

/-- Whether the node draws. -/
def nodeIs3D (k : Kmt σ) (node : UInt32) : Option Bool × Kmt σ :=
  let (is_3d, state) := api.nodeIs3D node k.state
  (is_3d, ⟨state, k.calls ++ [.nodeIs3D node]⟩)

/-- The node is read. -/
def queryNode (k : Kmt σ) (node : UInt32) : Option NodePerf × Kmt σ :=
  let (perf, state) := api.queryNode node k.state
  (perf, ⟨state, k.calls ++ [.queryNode node]⟩)

/-- The adapter is read. -/
def queryAdapter (k : Kmt σ) : Option AdapterPerf × Kmt σ :=
  let (perf, state) := api.queryAdapter k.state
  (perf, ⟨state, k.calls ++ [.queryAdapter]⟩)

/-- The adapter is closed. -/
def close (k : Kmt σ) : Kmt σ := ⟨api.close k.state, k.calls ++ [.close]⟩

/-- The loop of `Start` over the nodes from one on: the first 3D node, or 0. -/
def findNode (k : Kmt σ) (node : Nat) : Nat → UInt32 × Kmt σ
  | 0 => (0, k)
  | more + 1 =>
      match k.nodeIs3D api (.ofNat node) with
      | (none, k) => (0, k)
      | (some true, k) => (.ofNat node, k)
      | (some false, k) => findNode k (node + 1) more

end Kmt

namespace GpuPerfReader

/-- `Stop` -/
def stop (r : GpuPerfReader σ) : GpuPerfReader σ :=
  if r.is_open then { r with kmt := r.kmt.close api, is_open := false } else r

/-- `Start`, after its `Stop` -/
def begin (r : GpuPerfReader σ) (wine : Bool) (luid_low : UInt32) (luid_high : Int32) :
    GpuPerfReader σ :=
  if wine then { r with state := .kWine }
  else if r.has_api = false then { r with state := .kOff }
  else
    match r.kmt.openAdapter api luid_low luid_high with
    | (false, kmt) => { r with kmt, state := .kOpenFailed }
    | (true, kmt) =>
        let (node, kmt) := kmt.findNode api 0 kMaxNodes
        { r with kmt, is_open := true, node, failures := 0, state := .kOk }

/-- `Start` -/
def start (r : GpuPerfReader σ) (wine : Bool) (luid_low : UInt32) (luid_high : Int32) :
    GpuPerfReader σ :=
  (r.stop api).begin api wine luid_low luid_high

/-- `Sample` -/
def sample (r : GpuPerfReader σ) : GpuPerfSample × GpuPerfReader σ :=
  if r.state ≠ .kOk then ({}, r)
  else
    let node := r.kmt.queryNode api r.node
    let adapter := node.2.queryAdapter api
    let kmt := adapter.2
    let s : GpuPerfSample := 
      ⟨node.1.isSome, adapter.1.isSome, node.1.getD {}, adapter.1.getD {}⟩
    if s.node_ok || s.adapter_ok then (s, { r with kmt, failures := 0 })
    else if kMaxConsecutiveFailures ≤ r.failures + 1 then
      (s, { stop api { r with kmt, failures := r.failures + 1 } with state := .kFailed })
    else (s, { r with kmt, failures := r.failures + 1 })

end GpuPerfReader

/-- The arguments of `Start` -/
structure GpuStart where
  wine : Bool
  luid_low : UInt32
  luid_high : Int32

namespace GpuPerfReader

/-- One call. -/
def step (r : GpuPerfReader σ) : Call GpuStart → GpuPerfReader σ
  | .start s => r.start api s.wine s.luid_low s.luid_high
  | .sample => (r.sample api).2
  | .stop => r.stop api

/-- The reader after some calls. -/
def reach (has_api : Bool) (state : σ) (calls : List (Call GpuStart)) : GpuPerfReader σ :=
  calls.foldl (step api) { has_api, kmt := { state } }

/-- The adapter's handle. -/
def handle (r : GpuPerfReader σ) : Handle := ⟨r.kmt.calls.map KmtCall.event, r.is_open⟩

/-! ### What the calls do with the adapter -/

variable {r : GpuPerfReader σ}

theorem handle_stop (r : GpuPerfReader σ) : (r.stop api).handle = r.handle.stopped := by
  unfold stop
  rw [Handle.stopped]
  by_cases hopen : r.is_open = true
  · rw [if_pos hopen, if_pos (show r.handle.is_open = true from hopen)]
    rw [handle, Kmt.close, map_append]
    rfl
  · rw [if_neg hopen, if_neg (show ¬r.handle.is_open = true from hopen)]

/-- The handle of a reader that is open over an interface. -/
def opened (kmt : Kmt σ) : Handle := ⟨kmt.calls.map KmtCall.event, true⟩

/-- The nodes are asked for while the adapter is open. -/
theorem keeps_findNode (fuel node : Nat) (kmt : Kmt σ) :
    (opened kmt).Keeps (opened (kmt.findNode api node fuel).2) := by
  induction fuel generalizing node kmt with
  | zero => exact Handle.Keeps.refl _
  | succ fuel ih =>
    have hused : (opened kmt).Keeps (opened (kmt.nodeIs3D api (.ofNat node)).2) := by
      rw [opened, Kmt.nodeIs3D, opened, map_append]
      exact ⟨prefix_append _ _, Tracks.used⟩
    rw [Kmt.findNode]
    split
    · rename_i k heq
      rw [heq] at hused
      exact hused
    · rename_i k heq
      rw [heq] at hused
      exact hused
    · rename_i k heq
      rw [heq] at hused
      exact hused.trans (ih _ _)

/-- The start of a reader that is not open opens the adapter at most once, and is live only if it
has opened it. -/
theorem begin_spec (hshut : r.is_open = false) (wine : Bool) (luid_low : UInt32)
    (luid_high : Int32) :
    r.handle.Keeps (r.begin api wine luid_low luid_high).handle ∧
      ((r.begin api wine luid_low luid_high).state = .kOk →
        (r.begin api wine luid_low luid_high).is_open = true) := by
  unfold begin
  by_cases hwine : wine = true
  · rw [if_pos hwine]
    exact ⟨Handle.Keeps.refl _, fun heq => by cases heq⟩
  · rw [if_neg hwine]
    by_cases hnull : r.has_api = false
    · rw [if_pos hnull]
      exact ⟨Handle.Keeps.refl _, fun heq => by cases heq⟩
    · rw [if_neg hnull]
      have hopened := Handle.keeps_opened (h := r.handle) hshut
        (r.kmt.openAdapter api luid_low luid_high).1
      have hcalls : r.handle.opened (r.kmt.openAdapter api luid_low luid_high).1 =
          ⟨(r.kmt.openAdapter api luid_low luid_high).2.calls.map KmtCall.event,
            (r.kmt.openAdapter api luid_low luid_high).1⟩ := by
        rw [Handle.opened, Kmt.openAdapter, map_append]
        rfl
      rw [hcalls] at hopened
      split
      · rename_i k heq
        rw [heq] at hopened
        refine ⟨?_, fun heq => by cases heq⟩
        change r.handle.Keeps ⟨_, r.is_open⟩
        rw [hshut]
        exact hopened
      · rename_i k heq
        rw [heq] at hopened
        exact ⟨hopened.trans (keeps_findNode api kMaxNodes 0 k), fun _ => rfl⟩

theorem start_spec (r : GpuPerfReader σ) (wine : Bool) (luid_low : UInt32) (luid_high : Int32) :
    r.handle.Keeps (r.start api wine luid_low luid_high).handle ∧
      ((r.start api wine luid_low luid_high).state = .kOk →
        (r.start api wine luid_low luid_high).is_open = true) := by
  have hstop : r.handle.Keeps (r.stop api).handle := by
    rw [handle_stop]
    exact Handle.keeps_stopped _
  have hshut : (r.stop api).is_open = false := by
    change (r.stop api).handle.is_open = false
    rw [handle_stop]
    exact Handle.stopped_is_open _
  obtain ⟨hkeeps, hlive⟩ := begin_spec api hshut wine luid_low luid_high
  exact ⟨hstop.trans hkeeps, hlive⟩

theorem sample_quiet (h : r.state ≠ .kOk) : r.sample api = ({}, r) := if_pos h

/-- The interface after the two queries of a sample. -/
def queried (api : KmtApi σ) (r : GpuPerfReader σ) : Kmt σ :=
  ((r.kmt.queryNode api r.node).2.queryAdapter api).2

theorem handle_queried (failures : UInt32) :
    handle { r with kmt := r.queried api, failures } = r.handle.used.used := by
  rw [handle, queried, Kmt.queryAdapter, map_append, Kmt.queryNode, map_append]
  rfl

/-- What a sample leaves of the reader: it stays open, or it has failed and is stopped. -/
theorem sample_cases (h : r.state = .kOk) : ∃ failures,
    (r.sample api).2 = { r with kmt := r.queried api, failures } ∨
    (r.sample api).2 =
      { stop api { r with kmt := r.queried api, failures } with state := .kFailed } := by
  rw [sample, if_neg (not_not.mpr h)]
  dsimp only
  split
  · exact ⟨0, .inl rfl⟩
  · split
    · exact ⟨r.failures + 1, .inr rfl⟩
    · exact ⟨r.failures + 1, .inl rfl⟩

/-- A reader that is `kOk` queries the adapter at every sample, whether it is open or not. -/
theorem lifecycle (api : KmtApi σ) :
    Lifecycle (step api) handle (fun r => r.state = .kOk) (fun r => r.state = .kOk) := by
  have huses (r : GpuPerfReader σ) (failures : UInt32) :
      r.handle.Uses (handle { r with kmt := r.queried api, failures }) := by
    rw [handle_queried]
    exact (Handle.uses_used _).used rfl
  constructor
  case start_keeps => exact fun r s => (start_spec api r s.wine s.luid_low s.luid_high).1
  case start_live => exact fun r s => (start_spec api r s.wine s.luid_low s.luid_high).2
  case stop => exact handle_stop api
  case sample_uses =>
    intro r hok
    change r.handle.Uses (r.sample api).2.handle
    obtain ⟨failures, heq | heq⟩ := sample_cases api hok
    · rw [heq]
      exact huses r failures
    · rw [heq]
      refine (huses r failures).keeps ?_
      change Handle.Keeps _ (stop api { r with kmt := r.queried api, failures }).handle
      rw [handle_stop]
      exact Handle.keeps_stopped _
  case sample_other =>
    intro r hok
    change (r.sample api).2.handle = r.handle
    rw [sample_quiet api hok]
  case sample_opens =>
    intro r hopen
    change (r.sample api).2.handle.is_open = true at hopen
    by_cases hok : r.state = .kOk
    · obtain ⟨failures, heq | heq⟩ := sample_cases api hok
      · rw [heq] at hopen
        exact hopen
      · rw [heq] at hopen
        change (stop api { r with kmt := r.queried api, failures }).handle.is_open = true at hopen
        rw [handle_stop, Handle.stopped_is_open] at hopen
        cases hopen
    · rw [sample_quiet api hok] at hopen
      exact hopen
  case sample_live =>
    intro r hlive
    change (r.sample api).2.state = .kOk at hlive
    change _ ∧ (r.sample api).2.handle.is_open = r.handle.is_open
    by_cases hok : r.state = .kOk
    · obtain ⟨failures, heq | heq⟩ := sample_cases api hok
      · rw [heq]
        exact ⟨hok, rfl⟩
      · rw [heq] at hlive
        cases hlive
    · rw [sample_quiet api hok] at hlive
      exact absurd hlive hok
  case uses_live => exact fun r => id

/-- The adapter is queried only between an open and its close, is never opened twice, and is closed
once the reader is gone. -/
def Respects (api : KmtApi σ) (has_api : Bool) (state : σ) (calls : List (Call GpuStart)) : Prop :=
  Proper ((reach api has_api state calls).stop api).handle.log ∧
    ¬IsOpen ((reach api has_api state calls).stop api).handle.log

theorem respects_iff (api : KmtApi σ) (has_api : Bool) (state : σ) (calls : List (Call GpuStart)) :
    Respects api has_api state calls ↔
      ∀ before after, calls = before ++ .sample :: after → stoppedLast before = true →
        (reach api has_api state before).state ≠ .kOk :=
  (lifecycle api).released_iff _ rfl (fun heq => KmtState.noConfusion heq) calls

end GpuPerfReader

end Kmt

end Mcla.VramCensus
