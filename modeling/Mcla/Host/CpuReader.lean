import Mcla.Host.GpuPerfReader

/-! # The CPU reader

`CpuReader` of `mcla_vram_census_win`: the system times, the PDH counters, the power information and
the ACPI temperature, each disabled after repeated failures.  Two of the sources have a handle, the
PDH query and the WMI connection of the temperature; each follows the lifecycle of the GPU reader.
-/
namespace Mcla.VramCensus
open HandleLog List

/-- The clocks that a reading of the times returns. -/
structure CpuTimes where
  (idle kernel user process_kernel process_user wall : UInt64 := 0)

/-- The load between two readings. -/
structure CpuLoad where
  valid : Bool := false
  (system_pct process_pct process_cores : Float := 0)

/-- `ComputeCpuLoad` -/
def computeCpuLoad (prev cur : CpuTimes) (logical : UInt32) : CpuLoad :=
  if cur.idle < prev.idle ∨ cur.kernel < prev.kernel ∨ cur.user < prev.user ∨
      cur.process_kernel < prev.process_kernel ∨ cur.process_user < prev.process_user ∨
      cur.wall ≤ prev.wall ∨ logical = 0 then
    {}
  else
    let idle := cur.idle - prev.idle
    let total := (cur.kernel - prev.kernel) + (cur.user - prev.user)
    if total = 0 ∨ total < idle then {}
    else
      let process :=
        (cur.process_kernel - prev.process_kernel) + (cur.process_user - prev.process_user)
      let wall := (cur.wall - prev.wall).toFloat
      let process_cores := process.toFloat / wall
      { valid := true
        system_pct := 100 * (total - idle).toFloat / total.toFloat
        process_cores
        process_pct := 100 * process_cores / logical.toFloat }

def kNoTemperature : Float := -1000

/-- The frequencies of the processors. -/
structure PowerInfo where
  (current_mhz max_mhz limit_mhz : Float := 0)

/-- `CpuApi`, with the state that its answers come from; a query that fails answers nothing.  The
status of the temperature is handed over and may be overwritten. -/
structure CpuApi (σ : Type) where
  logicalProcessors : σ → UInt32 × σ
  times : σ → Option CpuTimes × σ
  openPdh : σ → Bool × σ
  queryPdh : σ → Option (Float × Float) × σ
  closePdh : σ → σ
  queryPower : σ → Option PowerInfo × σ
  openTemperature : UInt32 → σ → (Bool × UInt32) × σ
  queryTemperature : σ → Option Float × σ
  closeTemperature : σ → σ

/-- The state of one counter source. -/
inductive SourceState where
  | kOff | kUnavailable | kOk | kFailed
deriving DecidableEq

/-- The state of the reader. -/
inductive CpuState where
  | kOff | kWine | kOk
deriving DecidableEq

/-- One sample, with what of it is known. -/
structure CpuSample where
  load_ok : Bool := false
  load : CpuLoad := {}
  pdh_ok : Bool := false
  (performance_pct nominal_mhz : Float := 0)
  power_ok : Bool := false
  power : PowerInfo := {}
  temperature_ok : Bool := false
  temperature_c : Float := 0

/-- The calls that reach the system. -/
inductive CpuCall where
  | logicalProcessors
  | times
  | openPdh (ok : Bool)
  | queryPdh
  | closePdh
  | queryPower
  | openTemperature (ok : Bool)
  | queryTemperature
  | closeTemperature
deriving DecidableEq

/-- What a call does with the PDH query. -/
def CpuCall.pdh : CpuCall → Option Event
  | .openPdh ok => some (.opened ok)
  | .queryPdh => some .used
  | .closePdh => some .closed
  | _ => none

/-- What a call does with the WMI connection. -/
def CpuCall.temperature : CpuCall → Option Event
  | .openTemperature ok => some (.opened ok)
  | .queryTemperature => some .used
  | .closeTemperature => some .closed
  | _ => none

/-- The interface, and the calls made so far. -/
structure Cpu (σ : Type) where
  state : σ
  calls : List CpuCall := []

/-- The reader, with the system that it asks. -/
structure CpuReader (σ : Type) where
  /-- `api_` is not null. -/
  has_api : Bool
  cpu : Cpu σ
  state : CpuState := .kOff
  logical : UInt32 := 0
  prev : CpuTimes := {}
  (have_prev pdh_open temperature_open : Bool := false)
  (times pdh power temperature : SourceState := .kOff)
  (times_failures pdh_failures power_failures temperature_failures temperature_status : UInt32 := 0)
  ticks : UInt64 := 0

def CpuReader.kMaxConsecutiveFailures : UInt32 := 5

def CpuReader.kTemperatureEveryTicks : UInt64 := 10

section Cpu
variable {σ : Type} (api : CpuApi σ)

namespace Cpu

/-- One call, written down by what it answers. -/
def call {β : Type} (c : Cpu σ) (f : σ → β × σ) (name : β → CpuCall) : β × Cpu σ :=
  ((f c.state).1, ⟨(f c.state).2, c.calls ++ [name (f c.state).1]⟩)

/-- The number of processors. -/
def logicalProcessors (c : Cpu σ) : UInt32 × Cpu σ :=
  c.call api.logicalProcessors fun _ => .logicalProcessors

/-- The clocks of the system. -/
def times (c : Cpu σ) : Option CpuTimes × Cpu σ := c.call api.times fun _ => .times

/-- The performance counter is opened. -/
def openPdh (c : Cpu σ) : Bool × Cpu σ := c.call api.openPdh .openPdh

/-- The performance counter is read. -/
def queryPdh (c : Cpu σ) : Option (Float × Float) × Cpu σ := c.call api.queryPdh fun _ => .queryPdh

/-- The performance counter is closed. -/
def closePdh (c : Cpu σ) : Cpu σ := ⟨api.closePdh c.state, c.calls ++ [.closePdh]⟩

/-- The frequencies are read. -/
def queryPower (c : Cpu σ) : Option PowerInfo × Cpu σ := c.call api.queryPower fun _ => .queryPower

/-- The temperature is opened. -/
def openTemperature (c : Cpu σ) (status : UInt32) : (Bool × UInt32) × Cpu σ :=
  c.call (api.openTemperature status) fun answer => .openTemperature answer.1

/-- The temperature is read. -/
def queryTemperature (c : Cpu σ) : Option Float × Cpu σ :=
  c.call api.queryTemperature fun _ => .queryTemperature

/-- The temperature is closed. -/
def closeTemperature (c : Cpu σ) : Cpu σ :=
  ⟨api.closeTemperature c.state, c.calls ++ [.closeTemperature]⟩

end Cpu

namespace CpuReader

/-- `Fail`: whether the source was just disabled, its state and its failures. -/
def fail (state : SourceState) (failures : UInt32) : Bool × SourceState × UInt32 :=
  if kMaxConsecutiveFailures ≤ failures + 1 then (true, .kFailed, failures + 1)
  else (false, state, failures + 1)

/-- The performance counter is given up. -/
def stopPdh (r : CpuReader σ) : CpuReader σ :=
  if r.pdh_open then { r with cpu := r.cpu.closePdh api, pdh_open := false } else r

/-- The temperature is given up. -/
def stopTemperature (r : CpuReader σ) : CpuReader σ :=
  if r.temperature_open then { r with cpu := r.cpu.closeTemperature api, temperature_open := false }
  else r

/-- `Stop` -/
def stop (r : CpuReader σ) : CpuReader σ := (r.stopPdh api).stopTemperature api

/-- The state of a source after its first query or its open. -/
def available (ok : Bool) : SourceState := if ok then .kOk else .kUnavailable

/-- `Start`, the sources before the temperature -/
def beginSources (r : CpuReader σ) : CpuReader σ :=
  let logical := r.cpu.logicalProcessors api
  let times := logical.2.times api
  let pdh := times.2.openPdh api
  let probe := pdh.2.queryPower api
  { r with
    cpu := probe.2
    logical := logical.1
    prev := times.1.getD r.prev
    have_prev := times.1.isSome
    times := available times.1.isSome
    pdh_open := pdh.1
    pdh := available pdh.1
    power := available probe.1.isSome }

/-- A query of the temperature that answers one. -/
def isTemperature (c : Option Float) : Bool := c.any fun c => decide (c > kNoTemperature)

/-- `Start`, the temperature -/
def beginTemperature (r : CpuReader σ) : CpuReader σ :=
  let opened := r.cpu.openTemperature api 0
  let r := { r with temperature_status := opened.1.2, temperature := .kUnavailable }
  if opened.1.1 then
    let c := opened.2.queryTemperature api
    if isTemperature c.1 then
      { r with cpu := c.2, temperature_open := true, temperature := .kOk }
    else { r with cpu := c.2.closeTemperature api, temperature_open := false }
  else { r with cpu := opened.2 }

/-- `Start`, after its `Stop` -/
def begin (r : CpuReader σ) (wine : Bool) : CpuReader σ :=
  if wine then { r with state := .kWine }
  else if r.has_api = false then { r with state := .kOff }
  else
    { (r.beginSources api).beginTemperature api with
      times_failures := 0
      pdh_failures := 0
      power_failures := 0
      temperature_failures := 0
      ticks := 0
      state := .kOk }

/-- `Start` -/
def start (r : CpuReader σ) (wine : Bool) : CpuReader σ := (r.stop api).begin api wine

variable (s : CpuSample)

/-- The part of a sample that the clocks give. -/
def sampleTimes (r : CpuReader σ) : CpuSample × CpuReader σ :=
  if r.times = .kOk ∨ r.times = .kUnavailable then
    let cur := r.cpu.times api
    match cur.1 with
    | some times =>
        let load := computeCpuLoad r.prev times r.logical
        (if r.have_prev then { s with load, load_ok := load.valid } else s,
          { r with
            cpu := cur.2, prev := times, have_prev := true, times := .kOk, times_failures := 0 })
    | none =>
        let failed := fail r.times r.times_failures
        (s, { r with cpu := cur.2, times := failed.2.1, times_failures := failed.2.2 })
  else (s, r)

/-- The part that the counter gives. -/
def samplePdh (r : CpuReader σ) : CpuSample × CpuReader σ :=
  if r.pdh = .kOk then
    let answer := r.cpu.queryPdh api
    match answer.1 with
    | some (performance_pct, nominal_mhz) =>
        ({ s with performance_pct, nominal_mhz, pdh_ok := true },
          { r with cpu := answer.2, pdh_failures := 0 })
    | none =>
        let failed := fail r.pdh r.pdh_failures
        let r := { r with cpu := answer.2, pdh := failed.2.1, pdh_failures := failed.2.2 }
        ({ s with performance_pct := 0, nominal_mhz := 0 },
          if failed.1 then { r with cpu := r.cpu.closePdh api, pdh_open := false } else r)
  else (s, r)

/-- The part that the power gives. -/
def samplePower (r : CpuReader σ) : CpuSample × CpuReader σ :=
  if r.power = .kOk then
    let answer := r.cpu.queryPower api
    match answer.1 with
    | some power =>
        ({ s with power, power_ok := true }, { r with cpu := answer.2, power_failures := 0 })
    | none =>
        let failed := fail r.power r.power_failures
        ({ s with power := {} },
          { r with cpu := answer.2, power := failed.2.1, power_failures := failed.2.2 })
  else (s, r)

/-- The part that the temperature gives. -/
def sampleTemperature (r : CpuReader σ) : CpuSample × CpuReader σ :=
  if r.temperature = .kOk ∧ r.ticks % kTemperatureEveryTicks = 1 then
    let c := r.cpu.queryTemperature api
    if isTemperature c.1 then
      ({ s with temperature_ok := true, temperature_c := c.1.getD 0 },
        { r with cpu := c.2, temperature_failures := 0 })
    else
      let failed := fail r.temperature r.temperature_failures
      let r := { r with cpu := c.2, temperature := failed.2.1, temperature_failures := failed.2.2 }
      (s, if failed.1 then
          { r with cpu := r.cpu.closeTemperature api, temperature_open := false }
        else r)
  else (s, r)

/-- `Sample` -/
def sample (r : CpuReader σ) : CpuSample × CpuReader σ :=
  if r.state ≠ .kOk then ({}, r)
  else
    let times := sampleTimes api {} { r with ticks := r.ticks + 1 }
    let pdh := samplePdh api times.1 times.2
    let power := samplePower api pdh.1 pdh.2
    sampleTemperature api power.1 power.2

/-- The argument of a start says whether the game runs under Wine. -/
def step (r : CpuReader σ) : Call Bool → CpuReader σ
  | .start wine => r.start api wine
  | .sample => (r.sample api).2
  | .stop => r.stop api

/-- The reader after some calls. -/
def reach (has_api : Bool) (state : σ) (calls : List (Call Bool)) : CpuReader σ :=
  calls.foldl (step api) { has_api, cpu := { state } }

/-- What has happened to the counter's handle. -/
def pdhHandle (r : CpuReader σ) : Handle := ⟨r.cpu.calls.filterMap CpuCall.pdh, r.pdh_open⟩

/-- What has happened to the temperature's handle. -/
def temperatureHandle (r : CpuReader σ) : Handle :=
  ⟨r.cpu.calls.filterMap CpuCall.temperature, r.temperature_open⟩

/-! ### What the calls do with the two handles -/

variable {r : CpuReader σ}

/-- A handle beside the state of its source. -/
abbrev View : Type := Handle × SourceState

def pdhView (r : CpuReader σ) : View := (r.pdhHandle, r.pdh)

def temperatureView (r : CpuReader σ) : View := (r.temperatureHandle, r.temperature)

/-- The source was queried, and may have been disabled and closed for it. -/
def Sampled (v v' : View) : Prop := v' = (v.1.used, .kOk) ∨ v' = (v.1.used.closed, .kFailed)

/-- The source was opened if it could be, or closed again at once. -/
def Started (v v' : View) : Prop := v.1.Keeps v'.1 ∧ (v'.2 = .kOk → v'.1.is_open = true)

theorem stopPdh_pdh (r : CpuReader σ) : (r.stopPdh api).pdhView = (r.pdhHandle.stopped, r.pdh) := by
  unfold stopPdh
  rw [Handle.stopped]
  by_cases hopen : r.pdh_open = true
  · rw [if_pos hopen, if_pos (show r.pdhHandle.is_open = true from hopen)]
    rw [pdhView, pdhHandle, Cpu.closePdh, filterMap_append]
    rfl
  · rw [if_neg hopen, if_neg (show ¬r.pdhHandle.is_open = true from hopen), pdhView]

theorem stopPdh_temperature (r : CpuReader σ) :
    (r.stopPdh api).temperatureView = r.temperatureView := by
  unfold stopPdh
  split
  · simp [temperatureView, temperatureHandle, Cpu.closePdh, CpuCall.temperature]
  · rfl

theorem stopTemperature_temperature (r : CpuReader σ) :
    (r.stopTemperature api).temperatureView = (r.temperatureHandle.stopped, r.temperature) := by
  unfold stopTemperature
  rw [Handle.stopped]
  by_cases hopen : r.temperature_open = true
  · rw [if_pos hopen, if_pos (show r.temperatureHandle.is_open = true from hopen)]
    rw [temperatureView, temperatureHandle, Cpu.closeTemperature, filterMap_append]
    rfl
  · rw [if_neg hopen, if_neg (show ¬r.temperatureHandle.is_open = true from hopen), temperatureView]

theorem stopTemperature_pdh (r : CpuReader σ) : (r.stopTemperature api).pdhView = r.pdhView := by
  unfold stopTemperature
  split
  · simp [pdhView, pdhHandle, Cpu.closeTemperature, CpuCall.pdh]
  · rfl

theorem stop_pdh (r : CpuReader σ) : (r.stop api).pdhView = (r.pdhHandle.stopped, r.pdh) := by
  rw [stop, stopTemperature_pdh, stopPdh_pdh]

theorem stop_temperature (r : CpuReader σ) :
    (r.stop api).temperatureView = (r.temperatureHandle.stopped, r.temperature) := by
  obtain ⟨hhandle, hsource⟩ := Prod.ext_iff.mp (stopPdh_temperature api r)
  rw [stop, stopTemperature_temperature]
  exact Prod.ext (congrArg Handle.stopped hhandle) hsource

theorem beginSources_pdh (r : CpuReader σ) :
    ∃ ok, (r.beginSources api).pdhView = (r.pdhHandle.opened ok, available ok) := by
  refine ⟨(((r.cpu.logicalProcessors api).2.times api).2.openPdh api).1, ?_⟩
  simp [pdhView, pdhHandle, beginSources, Cpu.logicalProcessors, Cpu.times, Cpu.openPdh,
    Cpu.queryPower, Cpu.call, Handle.opened]
  rfl

theorem beginSources_temperature (r : CpuReader σ) :
    (r.beginSources api).temperatureView = r.temperatureView := by
  simp [temperatureView, temperatureHandle, beginSources, Cpu.logicalProcessors, Cpu.times,
    Cpu.openPdh, Cpu.queryPower, Cpu.call, CpuCall.temperature]

theorem beginTemperature_pdh (r : CpuReader σ) : (r.beginTemperature api).pdhView = r.pdhView := by
  unfold beginTemperature
  dsimp only
  split
  · split
    all_goals simp [pdhView, pdhHandle, Cpu.openTemperature, Cpu.queryTemperature,
      Cpu.closeTemperature, Cpu.call, CpuCall.pdh]
  · simp [pdhView, pdhHandle, Cpu.openTemperature, Cpu.call, CpuCall.pdh]

theorem beginTemperature_temperature (r : CpuReader σ) (hshut : r.temperature_open = false) :
    (r.beginTemperature api).temperatureView = (r.temperatureHandle.opened false, .kUnavailable) ∨
    (r.beginTemperature api).temperatureView = ((r.temperatureHandle.opened true).used, .kOk) ∨
    (r.beginTemperature api).temperatureView =
      ((r.temperatureHandle.opened true).used.closed, .kUnavailable) := by
  unfold beginTemperature
  dsimp only
  split
  · rename_i hopened
    split
    · refine .inr (.inl ?_)
      simp_all [temperatureView, temperatureHandle, Cpu.openTemperature, Cpu.queryTemperature,
        Cpu.call, CpuCall.temperature, Handle.opened, Handle.used]
    · refine .inr (.inr ?_)
      simp_all [temperatureView, temperatureHandle, Cpu.openTemperature, Cpu.queryTemperature,
        Cpu.closeTemperature, Cpu.call, CpuCall.temperature, Handle.opened, Handle.used,
        Handle.closed]
  · refine .inl ?_
    simp_all [temperatureView, temperatureHandle, Cpu.openTemperature, Cpu.call,
      CpuCall.temperature, Handle.opened]

theorem beginSources_started (hshut : r.pdh_open = false) :
    Started r.pdhView ((r.beginSources api).beginTemperature api).pdhView := by
  obtain ⟨ok, hopened⟩ := beginSources_pdh api r
  rw [beginTemperature_pdh, hopened]
  refine ⟨Handle.keeps_opened hshut ok, fun hok => ?_⟩
  cases ok with
  | false => cases hok
  | true => rfl

theorem beginTemperature_started (hshut : r.temperature_open = false) :
    Started r.temperatureView ((r.beginSources api).beginTemperature api).temperatureView := by
  obtain ⟨hhandle, -⟩ := Prod.ext_iff.mp (beginSources_temperature api r)
  have hshut' : (r.beginSources api).temperature_open = false :=
    (congrArg Handle.is_open hhandle).trans hshut
  have hopened (ok : Bool) := Handle.keeps_opened (h := r.temperatureHandle) hshut ok
  have hused := Handle.uses_used (r.temperatureHandle.opened true)
  obtain heq | heq | heq := beginTemperature_temperature api _ hshut'
  all_goals
    rw [heq, show (r.beginSources api).temperatureHandle = r.temperatureHandle from hhandle]
  · exact ⟨hopened false, fun hok => by cases hok⟩
  · exact ⟨(hopened true).trans (hused.keeps_of_open rfl), fun _ => rfl⟩
  · refine ⟨(hopened true).trans ?_, fun hok => by cases hok⟩
    exact (hused.closed rfl).keeps_of_open rfl

/-- The reader after a start that goes through. -/
def begun (api : CpuApi σ) (r : CpuReader σ) : CpuReader σ :=
  { (r.beginSources api).beginTemperature api with
    times_failures := 0
    pdh_failures := 0
    power_failures := 0
    temperature_failures := 0
    ticks := 0
    state := .kOk }

theorem begin_cases (r : CpuReader σ) (wine : Bool) :
    (∃ state, state ≠ CpuState.kOk ∧ r.begin api wine = { r with state }) ∨
      r.begin api wine = r.begun api := by
  unfold begin
  by_cases hwine : wine = true
  · rw [if_pos hwine]
    exact .inl ⟨.kWine, by decide, rfl⟩
  · rw [if_neg hwine]
    by_cases hnull : r.has_api = false
    · rw [if_pos hnull]
      exact .inl ⟨.kOff, by decide, rfl⟩
    · rw [if_neg hnull]
      exact .inr rfl

/-! ### The stages of a sample -/

theorem fail_cases (state : SourceState) (failures : UInt32) :
    (fail state failures).1 = true ∧ (fail state failures).2.1 = .kFailed ∨
      (fail state failures).1 = false ∧ (fail state failures).2.1 = state := by
  unfold fail
  by_cases hmax : kMaxConsecutiveFailures ≤ failures + 1
  · rw [if_pos hmax]
    exact .inl ⟨rfl, rfl⟩
  · rw [if_neg hmax]
    exact .inr ⟨rfl, rfl⟩

/-- What a stage leaves alone. -/
def clock (r : CpuReader σ) : CpuState × UInt64 := (r.state, r.ticks)

theorem sampleTimes_frame (r : CpuReader σ) :
    (sampleTimes api s r).2.pdhView = r.pdhView ∧
      (sampleTimes api s r).2.temperatureView = r.temperatureView ∧
      (sampleTimes api s r).2.clock = r.clock := by
  have hpdh : (r.cpu.times api).2.calls.filterMap CpuCall.pdh = r.cpu.calls.filterMap CpuCall.pdh :=
    by simp [Cpu.times, Cpu.call, CpuCall.pdh]
  have htemperature : (r.cpu.times api).2.calls.filterMap CpuCall.temperature =
      r.cpu.calls.filterMap CpuCall.temperature := by
    simp [Cpu.times, Cpu.call, CpuCall.temperature]
  unfold sampleTimes
  dsimp only
  split
  · split
    all_goals
      rw [pdhView, pdhHandle, hpdh, temperatureView, temperatureHandle, htemperature]
      exact ⟨rfl, rfl, rfl⟩
  · exact ⟨rfl, rfl, rfl⟩

theorem samplePower_frame (r : CpuReader σ) :
    (samplePower api s r).2.pdhView = r.pdhView ∧
      (samplePower api s r).2.temperatureView = r.temperatureView ∧
      (samplePower api s r).2.clock = r.clock := by
  have hpdh : (r.cpu.queryPower api).2.calls.filterMap CpuCall.pdh =
      r.cpu.calls.filterMap CpuCall.pdh := by
    simp [Cpu.queryPower, Cpu.call, CpuCall.pdh]
  have htemperature : (r.cpu.queryPower api).2.calls.filterMap CpuCall.temperature =
      r.cpu.calls.filterMap CpuCall.temperature := by
    simp [Cpu.queryPower, Cpu.call, CpuCall.temperature]
  unfold samplePower
  dsimp only
  split
  · split
    all_goals
      rw [pdhView, pdhHandle, hpdh, temperatureView, temperatureHandle, htemperature]
      exact ⟨rfl, rfl, rfl⟩
  · exact ⟨rfl, rfl, rfl⟩

theorem samplePdh_other (h : r.pdh ≠ .kOk) : samplePdh api s r = (s, r) := if_neg h

theorem samplePdh_frame (r : CpuReader σ) :
    (samplePdh api s r).2.temperatureView = r.temperatureView ∧
      (samplePdh api s r).2.clock = r.clock := by
  unfold samplePdh
  dsimp only
  split
  · split
    · refine ⟨?_, rfl⟩
      simp [temperatureView, temperatureHandle, Cpu.queryPdh, Cpu.call, CpuCall.temperature]
    · split
      · refine ⟨?_, rfl⟩
        simp [temperatureView, temperatureHandle, Cpu.queryPdh, Cpu.closePdh, Cpu.call,
          CpuCall.temperature]
      · refine ⟨?_, rfl⟩
        simp [temperatureView, temperatureHandle, Cpu.queryPdh, Cpu.call, CpuCall.temperature]
  · exact ⟨rfl, rfl⟩

theorem samplePdh_sampled (hok : r.pdh = .kOk) :
    Sampled r.pdhView (samplePdh api s r).2.pdhView := by
  have hused : (r.cpu.queryPdh api).2.calls.filterMap CpuCall.pdh =
      r.cpu.calls.filterMap CpuCall.pdh ++ [.used] := by
    rw [Cpu.queryPdh, Cpu.call, filterMap_append]
    rfl
  unfold samplePdh
  dsimp only
  rw [if_pos hok]
  split
  · refine .inl ?_
    rw [pdhView, pdhHandle, hused]
    exact Prod.ext rfl hok
  · obtain ⟨hfailed, hsource⟩ | ⟨hfailed, hsource⟩ := fail_cases r.pdh r.pdh_failures
    · refine .inr ?_
      rw [if_pos hfailed, pdhView, pdhHandle, Cpu.closePdh, filterMap_append, hused]
      exact Prod.ext rfl hsource
    · refine .inl ?_
      rw [if_neg (Bool.eq_false_iff.mp hfailed), pdhView, pdhHandle, hused]
      exact Prod.ext rfl (hsource.trans hok)

theorem sampleTemperature_other
    (h : ¬(r.temperature = .kOk ∧ r.ticks % kTemperatureEveryTicks = 1)) :
    sampleTemperature api s r = (s, r) := if_neg h

theorem sampleTemperature_frame (r : CpuReader σ) :
    (sampleTemperature api s r).2.pdhView = r.pdhView ∧
      (sampleTemperature api s r).2.clock = r.clock := by
  unfold sampleTemperature
  dsimp only
  split
  · split
    · refine ⟨?_, rfl⟩
      simp [pdhView, pdhHandle, Cpu.queryTemperature, Cpu.call, CpuCall.pdh]
    · split
      · refine ⟨?_, rfl⟩
        simp [pdhView, pdhHandle, Cpu.queryTemperature, Cpu.closeTemperature, Cpu.call, CpuCall.pdh]
      · refine ⟨?_, rfl⟩
        simp [pdhView, pdhHandle, Cpu.queryTemperature, Cpu.call, CpuCall.pdh]
  · exact ⟨rfl, rfl⟩

theorem sampleTemperature_sampled
    (hok : r.temperature = .kOk ∧ r.ticks % kTemperatureEveryTicks = 1) :
    Sampled r.temperatureView (sampleTemperature api s r).2.temperatureView := by
  have hused : (r.cpu.queryTemperature api).2.calls.filterMap CpuCall.temperature =
      r.cpu.calls.filterMap CpuCall.temperature ++ [.used] := by
    rw [Cpu.queryTemperature, Cpu.call, filterMap_append]
    rfl
  unfold sampleTemperature
  dsimp only
  rw [if_pos hok]
  split
  · refine .inl ?_
    rw [temperatureView, temperatureHandle, hused]
    exact Prod.ext rfl hok.1
  · obtain ⟨hfailed, hsource⟩ | ⟨hfailed, hsource⟩ :=
      fail_cases r.temperature r.temperature_failures
    · refine .inr ?_
      rw [if_pos hfailed, temperatureView, temperatureHandle, Cpu.closeTemperature,
        filterMap_append, hused]
      exact Prod.ext rfl hsource
    · refine .inl ?_
      rw [if_neg (Bool.eq_false_iff.mp hfailed), temperatureView, temperatureHandle, hused]
      exact Prod.ext rfl (hsource.trans hok.1)

/-! ### The two lifecycles -/

/-- The sample would query the PDH counters. -/
def UsesPdh (r : CpuReader σ) : Prop := r.state = .kOk ∧ r.pdh = .kOk

/-- The sample would query the temperature. -/
def UsesTemperature (r : CpuReader σ) : Prop :=
  r.state = .kOk ∧ r.temperature = .kOk ∧ (r.ticks + 1) % kTemperatureEveryTicks = 1

theorem sample_quiet (h : r.state ≠ .kOk) : r.sample api = ({}, r) := if_pos h

/-- A sample of a reader that is `kOk`, by its stages. -/
theorem sample_stages (h : r.state = .kOk) : ∃ s₁ s₂ r₁,
    r₁.pdhView = r.pdhView ∧ r₁.temperatureView = r.temperatureView ∧
      r₁.clock = (r.state, r.ticks + 1) ∧
    (r.sample api).2 =
      (sampleTemperature api s₂ (samplePower api (samplePdh api s₁ r₁).1
        (samplePdh api s₁ r₁).2).2).2 := by
  obtain ⟨hpdh, htemperature, hclock⟩ := sampleTimes_frame api {} { r with ticks := r.ticks + 1 }
  rw [sample, if_neg (not_not.mpr h)]
  exact ⟨_, _, _, hpdh, htemperature, hclock, rfl⟩

theorem sample_state (r : CpuReader σ) : (r.sample api).2.state = r.state := by
  by_cases hstate : r.state = .kOk
  · obtain ⟨s₁, s₂, r₁, -, -, hclock, heq⟩ := sample_stages api hstate
    have hall : (r.sample api).2.clock = (r.state, r.ticks + 1) := by
      rw [heq, (sampleTemperature_frame api _ _).2, (samplePower_frame api _ _).2.2,
        (samplePdh_frame api _ _).2, hclock]
    exact congrArg Prod.fst hall
  · rw [sample_quiet api hstate]

theorem sample_pdh (h : r.UsesPdh) : Sampled r.pdhView (r.sample api).2.pdhView := by
  obtain ⟨s₁, s₂, r₁, hpdh, -, -, heq⟩ := sample_stages api h.1
  rw [heq, (sampleTemperature_frame api _ _).1, (samplePower_frame api _ _).1, ← hpdh]
  exact samplePdh_sampled api s₁ ((congrArg Prod.snd hpdh).trans h.2)

theorem sample_pdh_other (h : ¬r.UsesPdh) : (r.sample api).2.pdhView = r.pdhView := by
  by_cases hstate : r.state = .kOk
  · obtain ⟨s₁, s₂, r₁, hpdh, -, -, heq⟩ := sample_stages api hstate
    have hother : r₁.pdh ≠ .kOk := fun hok => h ⟨hstate, (congrArg Prod.snd hpdh).symm.trans hok⟩
    rw [heq, (sampleTemperature_frame api _ _).1, (samplePower_frame api _ _).1,
      samplePdh_other api s₁ hother]
    exact hpdh
  · rw [sample_quiet api hstate]

/-- The stages before it leave the temperature to the last. -/
theorem samplePower_samplePdh (s₁ s₂ : CpuSample) (r : CpuReader σ) :
    (samplePower api s₂ (samplePdh api s₁ r).2).2.temperatureView = r.temperatureView ∧
      (samplePower api s₂ (samplePdh api s₁ r).2).2.clock = r.clock :=
  ⟨(samplePower_frame api _ _).2.1.trans (samplePdh_frame api _ _).1,
    (samplePower_frame api _ _).2.2.trans (samplePdh_frame api _ _).2⟩

theorem sample_temperature (h : r.UsesTemperature) :
    Sampled r.temperatureView (r.sample api).2.temperatureView := by
  obtain ⟨hstate, hok, htick⟩ := h
  obtain ⟨s₁, s₂, r₁, -, htemperature, hclock, heq⟩ := sample_stages api hstate
  obtain ⟨hview, hclock'⟩ := samplePower_samplePdh api s₁ (samplePdh api s₁ r₁).1 r₁
  rw [htemperature] at hview
  rw [hclock] at hclock'
  rw [heq, ← hview]
  refine sampleTemperature_sampled api s₂ ⟨(congrArg Prod.snd hview).trans hok, ?_⟩
  exact (congrArg (fun c : CpuState × UInt64 => c.2 % kTemperatureEveryTicks) hclock').trans htick

theorem sample_temperature_other (h : ¬r.UsesTemperature) :
    (r.sample api).2.temperatureView = r.temperatureView := by
  by_cases hstate : r.state = .kOk
  · obtain ⟨s₁, s₂, r₁, -, htemperature, hclock, heq⟩ := sample_stages api hstate
    obtain ⟨hview, hclock'⟩ := samplePower_samplePdh api s₁ (samplePdh api s₁ r₁).1 r₁
    rw [htemperature] at hview
    rw [hclock] at hclock'
    rw [heq, sampleTemperature_other api s₂ ?other]
    · exact hview
    · rintro ⟨hok, htick⟩
      refine h ⟨hstate, (congrArg Prod.snd hview).symm.trans hok, ?_⟩
      exact (congrArg (fun c : CpuState × UInt64 => c.2 % kTemperatureEveryTicks)
        hclock').symm.trans htick
  · rw [sample_quiet api hstate]

/-- Either source goes through its lifecycle, seen through its view of the reader. -/
theorem lifecycle_of_view (view : CpuReader σ → View) {uses : CpuReader σ → Prop}
    (hstate : ∀ r state, view { r with state } = view r)
    (hstop : ∀ r, view (r.stop api) = ((view r).1.stopped, (view r).2))
    (hbegun : ∀ r, (view r).1.is_open = false → Started (view r) (view (r.begun api)))
    (huses : ∀ r, uses r → r.state = .kOk ∧ (view r).2 = .kOk)
    (hsample : ∀ r, uses r → Sampled (view r) (view (r.sample api).2))
    (hother : ∀ r, ¬uses r → view (r.sample api).2 = view r) :
    Lifecycle (step api) (fun r => (view r).1) (fun r => r.state = .kOk ∧ (view r).2 = .kOk)
      uses := by
  have hstart (r : CpuReader σ) (wine : Bool) : (view r).1.Keeps (view (r.start api wine)).1 ∧
      ((r.start api wine).state = .kOk → (view (r.start api wine)).2 = .kOk →
        (view (r.start api wine)).1.is_open = true) := by
    have hstopped : (view r).1.Keeps (view (r.stop api)).1 := by
      rw [hstop]
      exact Handle.keeps_stopped _
    have hshut : (view (r.stop api)).1.is_open = false := by
      rw [hstop]
      exact Handle.stopped_is_open _
    rw [start]
    obtain ⟨state, hne, heq⟩ | heq := begin_cases api (r.stop api) wine
    · rw [heq, hstate (r.stop api) state]
      exact ⟨hstopped, fun hok => absurd hok hne⟩
    · rw [heq]
      obtain ⟨hkeeps, hopen⟩ := hbegun _ hshut
      exact ⟨hstopped.trans hkeeps, fun _ => hopen⟩
  constructor
  case start_keeps => exact fun r wine => (hstart r wine).1
  case start_live => exact fun r wine hlive => (hstart r wine).2 hlive.1 hlive.2
  case stop => exact fun r => congrArg Prod.fst (hstop r)
  case sample_uses =>
    intro r huse
    change (view r).1.Uses (view (r.sample api).2).1
    obtain heq | heq := hsample r huse
    · rw [heq]
      exact Handle.uses_used _
    · rw [heq]
      exact (Handle.uses_used _).closed rfl
  case sample_other =>
    intro r huse
    change (view (r.sample api).2).1 = (view r).1
    rw [hother r huse]
  case sample_opens =>
    intro r hopen
    change (view (r.sample api).2).1.is_open = true at hopen
    by_cases huse : uses r
    · obtain heq | heq := hsample r huse
      · rw [heq] at hopen
        exact hopen
      · rw [heq] at hopen
        cases hopen
    · rw [hother r huse] at hopen
      exact hopen
  case sample_live =>
    rintro r ⟨hok, hsource⟩
    change (r.sample api).2.state = .kOk at hok
    change (view (r.sample api).2).2 = .kOk at hsource
    change _ ∧ (view (r.sample api).2).1.is_open = (view r).1.is_open
    by_cases huse : uses r
    · obtain heq | heq := hsample r huse
      · rw [heq]
        exact ⟨huses r huse, rfl⟩
      · rw [heq] at hsource
        cases hsource
    · rw [hother r huse] at hsource ⊢
      rw [sample_state] at hok
      exact ⟨⟨hok, hsource⟩, rfl⟩
  case uses_live => exact huses

theorem lifecycle_pdh (api : CpuApi σ) :
    Lifecycle (step api) pdhHandle (fun r => r.state = .kOk ∧ r.pdh = .kOk) UsesPdh :=
  lifecycle_of_view api pdhView (fun _ _ => rfl) (stop_pdh api) (fun _ => beginSources_started api)
    (fun _ huse => huse) (fun _ => sample_pdh api) (fun _ => sample_pdh_other api)

theorem lifecycle_temperature (api : CpuApi σ) :
    Lifecycle (step api) temperatureHandle (fun r => r.state = .kOk ∧ r.temperature = .kOk)
      UsesTemperature :=
  lifecycle_of_view api temperatureView (fun _ _ => rfl) (stop_temperature api)
    (fun _ => beginTemperature_started api) (fun _ huse => ⟨huse.1, huse.2.1⟩)
    (fun _ => sample_temperature api) (fun _ => sample_temperature_other api)

/-- Both handles are queried only between an open and its close, are never opened twice, and are
closed once the reader is gone. -/
def Respects (api : CpuApi σ) (has_api : Bool) (state : σ) (calls : List (Call Bool)) : Prop :=
  (Proper ((reach api has_api state calls).stop api).pdhHandle.log ∧
      ¬IsOpen ((reach api has_api state calls).stop api).pdhHandle.log) ∧
    Proper ((reach api has_api state calls).stop api).temperatureHandle.log ∧
      ¬IsOpen ((reach api has_api state calls).stop api).temperatureHandle.log

theorem respects_iff (api : CpuApi σ) (has_api : Bool) (state : σ) (calls : List (Call Bool)) :
    Respects api has_api state calls ↔
      ∀ before after, calls = before ++ .sample :: after → stoppedLast before = true →
        ¬(reach api has_api state before).UsesPdh ∧
          ¬(reach api has_api state before).UsesTemperature := by
  have hpdh := (lifecycle_pdh api).released_iff { has_api, cpu := { state } } rfl
    (fun hlive => CpuState.noConfusion hlive.1) calls
  have htemperature := (lifecycle_temperature api).released_iff
    { has_api, cpu := { state } } rfl (fun hlive => CpuState.noConfusion hlive.1) calls
  constructor
  · rintro ⟨hfirst, hsecond⟩ before after heq hstopped
    exact ⟨hpdh.mp hfirst before after heq hstopped,
      htemperature.mp hsecond before after heq hstopped⟩
  · intro hall
    exact ⟨hpdh.mpr fun before after heq hstopped => (hall before after heq hstopped).1,
      htemperature.mpr fun before after heq hstopped => (hall before after heq hstopped).2⟩

end CpuReader

end Cpu

/-- **Both readers respect their handles** if and only if no sample after a stop, and before the
next start, finds a source that is still `kOk`. -/
theorem readers_respect_handles {σ τ : Type} (kmt : KmtApi σ) (cpu : CpuApi τ) (has_api : Bool)
    (adapter : σ) (sources : τ) (gpu_calls : List (Call GpuStart)) (cpu_calls : List (Call Bool)) :
    (GpuPerfReader.Respects kmt has_api adapter gpu_calls ↔
      ∀ before after, gpu_calls = before ++ .sample :: after → stoppedLast before = true →
        (GpuPerfReader.reach kmt has_api adapter before).state ≠ .kOk) ∧
    (CpuReader.Respects cpu has_api sources cpu_calls ↔
      ∀ before after, cpu_calls = before ++ .sample :: after → stoppedLast before = true →
        ¬(CpuReader.reach cpu has_api sources before).UsesPdh ∧
          ¬(CpuReader.reach cpu has_api sources before).UsesTemperature) :=
  ⟨GpuPerfReader.respects_iff kmt has_api adapter gpu_calls,
    CpuReader.respects_iff cpu has_api sources cpu_calls⟩

/-- An adapter whose every call succeeds. -/
def kmtWorks : KmtApi Unit where
  openAdapter _ _ _ := (true, ())
  nodeIs3D _ _ := (some true, ())
  queryNode _ _ := (some {}, ())
  queryAdapter _ := (some {}, ())
  close _ := ()

/-- A start, a stop and a sample: the adapter is queried after its close. -/
theorem sample_after_stop :
    ¬GpuPerfReader.Respects kmtWorks true () [.start ⟨false, 0, 0⟩, .stop, .sample] := by
  rintro ⟨hproper, -⟩
  have hlog : ((GpuPerfReader.reach kmtWorks true ()
      [.start ⟨false, 0, 0⟩, .stop, .sample]).stop kmtWorks).handle.log =
        [.opened true, .used] ++ [.closed] ++ .used :: [.used] := rfl
  exact not_isOpen_closed _ (hproper _ .used _ hlog)

end Mcla.VramCensus
