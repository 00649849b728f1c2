import Mcla.Launcher.ProfilePolicy
import Mcla.Lease.Policy

/-! # The capability record

`mcla_launcher_capabilities` and the check of `mcla_diagnostic_export_policy`: what a
launch may use of a build is resolved from the build, the owner's list and the signed
ticket, and written to a record.  The exporter sees only the receipt of the launch, so it
resolves the plan again and compares the record with what that plan would have written.

`exporter_agrees` says that the three agree.
-/
namespace Mcla.Launcher
open Lease (kGrant1080p kGrant1440p kGrant2160p kGrantUnlocked)
open List Option

def kCapabilityPolicyVersion : Nat := 1
def kStockGuestRefreshHz : Nat := 60
def kUnlockedGuestVblankHz : Nat := 240

def kRenderTargetTestedBuild : Bytes :=
  Lease.ascii "9C6BEA718046F1B22D7FB9C4BEB8E03CC52DD3F466CCFB926CC585059F580BAA"
def kCleanRenderTargetTestedBuild : Bytes :=
  Lease.ascii "FED35A361F4A4A10BB03A6BC45072C82924085A0D3ADB8A3298243066DB4A850"
def kUnlockedTestedBuilds : List Bytes :=
  [Lease.ascii "0789DBB5F8B59C698FC269B18E87D20A9EC6EB44913709A321829A0DF36DC105"]

def kStockTimingKey : Bytes := Lease.ascii "stock"
def kUnlockedTimingKey : Bytes := Lease.ascii "unlocked"
def kFixed60UnavailableReason : Bytes := Lease.ascii "not yet validated"
def kOwnerAdmissionKey : Bytes := Lease.ascii "owner-allowlist"
def kTicketGrantKey : Bytes := Lease.ascii "ticket-grant"

/-- The union of the four grants. -/
def kGrantAll : BitVec 8 :=
  kGrant1080p ||| kGrant1440p ||| kGrant2160p ||| kGrantUnlocked

/-- Why a plan is refused. -/
inductive CapabilityError where
  | invalidBuildIdentity | invalidGameIdentity | unverifiedTiming | unsupportedTiming
  | unsupportedVsync | unknownRenderTarget | untestedTargetBuild | inconsistentPlan
  | untestedUnlockedBuild
deriving DecidableEq

/-- One render target, with its sizes. -/
@[ext]
structure RenderTargetPlan where
  (id width height guestWidth guestHeight scale : Nat)
deriving DecidableEq

def kRenderTargets : List RenderTargetPlan :=
  [⟨720, 1280, 720, 1280, 720, 1⟩, ⟨1080, 1920, 1080, 960, 540, 2⟩,
    ⟨1440, 2560, 1440, 1280, 720, 2⟩, ⟨2160, 3840, 2160, 1280, 720, 3⟩]

variable (id : Nat)

/-- `FindRenderTarget`. -/
def findRenderTarget : Option RenderTargetPlan := kRenderTargets.find? (·.id == id)

/-- What a plan is asked for. -/
structure CapabilityRequest where
  (buildFingerprint gameFingerprint : Bytes)
  timing : TimingMode
  renderTarget : Nat
  (vsync ownerAdmitted : Bool)
  ticketGrant : BitVec 8

/-- What a request is answered with. -/
@[ext]
structure CapabilityPlan where
  (buildFingerprint gameFingerprint : Bytes)
  timing : TimingMode
  target : RenderTargetPlan
  (guestRefreshHz guestVblankHz : Nat)
  (vsync ownerAdmitted ticketGranted : Bool)
  ticketGrant : BitVec 8

/-- 64 uppercase hex digits. -/
def validCapabilityIdentity (value : Bytes) : Bool :=
  value.length == 64 &&
    value.all fun c => (48 ≤ c.toNat && c.toNat ≤ 57) || (65 ≤ c.toNat && c.toNat ≤ 70)

variable (timing : TimingMode)

/-- The timings that are supported. -/
def timingPolicySupported : Bool := timing == .stock || timing == .unlocked

def unlockedBuildTested (build : Bytes) : Bool := build ∈ kUnlockedTestedBuilds

/-- The timing is not tested on the build. -/
def gatedUnlocked (request : CapabilityRequest) : Bool :=
  request.timing == .unlocked && !unlockedBuildTested request.buildFingerprint

/-- The ticket grants the unlocked timing. -/
def grantedUnlocked (request : CapabilityRequest) : Bool :=
  request.ticketGrant &&& kGrantUnlocked != 0

/-- The target is not tested on the build. -/
def gatedTarget (request : CapabilityRequest) (target : RenderTargetPlan) : Bool :=
  (target.id == 1080 || target.id == 2160) &&
    request.buildFingerprint != kRenderTargetTestedBuild &&
    request.buildFingerprint != kCleanRenderTargetTestedBuild

/-- The bit of a ticket that grants the target. -/
def targetBit (target : RenderTargetPlan) : BitVec 8 :=
  if target.id = 1080 then kGrant1080p
  else if target.id = 2160 then kGrant2160p else 0

/-- The ticket grants the target. -/
def grantedTarget (request : CapabilityRequest) (target : RenderTargetPlan) : Bool :=
  targetBit target != 0 && request.ticketGrant &&& targetBit target != 0

/-- The end of `ResolveCapabilities`. -/
def planOf (request : CapabilityRequest) (target : RenderTargetPlan) : CapabilityPlan :=
  let gated := gatedUnlocked request || gatedTarget request target
  let owner := gated && request.ownerAdmitted
  ⟨request.buildFingerprint, request.gameFingerprint, request.timing, target,
    kStockGuestRefreshHz, if request.timing = .unlocked then kUnlockedGuestVblankHz else 0, true,
    owner, gated && !owner, request.ticketGrant⟩

/-- `ResolveCapabilities`. -/
def resolveCapabilities (request : CapabilityRequest) : Except CapabilityError CapabilityPlan :=
  if !validCapabilityIdentity request.buildFingerprint then .error .invalidBuildIdentity
  else if !validCapabilityIdentity request.gameFingerprint then .error .invalidGameIdentity
  else if request.timing = .fixed60 then .error .unverifiedTiming
  else if !timingPolicySupported request.timing then .error .unsupportedTiming
  else if !request.vsync then .error .unsupportedVsync
  else if gatedUnlocked request && !request.ownerAdmitted && !grantedUnlocked request then
    .error .untestedUnlockedBuild
  else
    match findRenderTarget request.renderTarget with
    | none => .error .unknownRenderTarget
    | some target =>
        if gatedTarget request target && !request.ownerAdmitted &&
            !grantedTarget request target then
          .error .untestedTargetBuild
        else .ok (planOf request target)

/-- What is known to be wrong at a target. -/
def renderTargetLimitation : Bytes :=
  if id = 1080 then Lease.ascii "experimental-960x540-guest-plus-2x;vinyl-KI-033-open"
  else if id = 2160 then Lease.ascii "world-sign-corruption-KI-032-open;vinyl-KI-033-open"
  else Lease.ascii "baseline-rendering-limitations-remain"

/-- The key of a timing. -/
def timingKey : Bytes := if timing = .unlocked then kUnlockedTimingKey else kStockTimingKey

/-- Two numbers with a cross between them. -/
def crossText (width height : Nat) : Bytes :=
  Decimal.text width ++ (Lease.ascii "x" ++ Decimal.text height)

/-- The lines of the record, up to the limitation. -/
def recordFields (plan : CapabilityPlan) : List (Bytes × Bytes) :=
  [(Lease.ascii "policy_version", Decimal.text kCapabilityPolicyVersion),
    (Lease.ascii "build", plan.buildFingerprint),
    (Lease.ascii "game", plan.gameFingerprint),
    (Lease.ascii "settings_scope", Lease.ascii "resolved-launch-arguments"),
    (Lease.ascii "timing", timingKey plan.timing),
    (Lease.ascii "guest_refresh_hz", Decimal.text plan.guestRefreshHz)] ++
  (if plan.guestVblankHz ≠ 0 then
    [(Lease.ascii "guest_vblank_hz", Decimal.text plan.guestVblankHz)] else []) ++
  [(Lease.ascii "vsync", Lease.ascii "on"),
    (Lease.ascii "render_target_id", Decimal.text plan.target.id),
    (Lease.ascii "render_target", crossText plan.target.width plan.target.height),
    (Lease.ascii "guest_mode", crossText plan.target.guestWidth plan.target.guestHeight),
    (Lease.ascii "draw_scale", crossText plan.target.scale plan.target.scale),
    (Lease.ascii "fixed60_available", Lease.ascii "false"),
    (Lease.ascii "fixed60_reason", kFixed60UnavailableReason),
    (Lease.ascii "host_state_observed", Lease.ascii "false"),
    (Lease.ascii "fps_measured", Lease.ascii "false"),
    (Lease.ascii "world_validation", Lease.ascii "not-certified-by-policy")]

/-- The limitation, and how a gated option was admitted. -/
def lastFields (ownerAdmitted ticketGranted : Bool) : List (Bytes × Bytes) :=
  (Lease.ascii "render_limitation", renderTargetLimitation id) ::
    if ownerAdmitted then [(Lease.ascii "admission", kOwnerAdmissionKey)]
    else if ticketGranted then [(Lease.ascii "admission", kTicketGrantKey)]
    else []

/-- A line, after the end of the line before it. -/
def recordLine (field : Bytes × Bytes) : Bytes := 10 :: (field.1 ++ 32 :: field.2)

/-- The end of the record. -/
def recordTail (ownerAdmitted ticketGranted : Bool) : Bytes :=
  (lastFields id ownerAdmitted ticketGranted).flatMap recordLine ++ [10]

/-- The text of `SerializeCapabilities`. -/
def recordText (plan : CapabilityPlan) : Bytes :=
  (Lease.ascii "MCLA-LAUNCHER-CAPABILITIES-V1" ++ (recordFields plan).flatMap recordLine) ++
    recordTail plan.target.id plan.ownerAdmitted plan.ticketGranted

/-- The request that `SerializeCapabilities` resolves again. -/
def CapabilityPlan.request (plan : CapabilityPlan) : CapabilityRequest :=
  ⟨plan.buildFingerprint, plan.gameFingerprint, plan.timing, plan.target.id, plan.vsync,
    plan.ownerAdmitted, plan.ticketGrant⟩

/-- `SerializeCapabilities`. -/
def serializeCapabilities (plan : CapabilityPlan) : Except CapabilityError Bytes :=
  match resolveCapabilities plan.request with
  | .error error => .error error
  | .ok resolved =>
      if plan.ownerAdmitted ≠ resolved.ownerAdmitted ∨ plan.ticketGranted ≠ resolved.ticketGranted ∨
          plan.guestRefreshHz ≠ resolved.guestRefreshHz ∨
          plan.guestVblankHz ≠ resolved.guestVblankHz ∨
          plan.target.width ≠ resolved.target.width ∨
          plan.target.height ≠ resolved.target.height ∨
          plan.target.guestWidth ≠ resolved.target.guestWidth ∨
          plan.target.guestHeight ≠ resolved.target.guestHeight ∨
          plan.target.scale ≠ resolved.target.scale then .error .inconsistentPlan
      else .ok (recordText plan)

/-! ## The exporter -/

/-- The fields of a session receipt, a `std::map`. -/
abbrev ReceiptFields := Bytes → Option Bytes

def kMaximumExportReceiptBytes : Nat := 16384

/-- The digit loop of `detail::Decimal`. -/
def exportDigits (value : Nat) : Bytes → Option Nat
  | [] => some value
  | c :: rest =>
      if c.toNat < 48 || c.toNat > 57 then none
      else if value * 10 + (c.toNat - 48) > 2 ^ 32 - 1 then none
      else exportDigits (value * 10 + (c.toNat - 48)) rest

/-- `detail::Decimal`. -/
def exportDecimal (text : Bytes) : Option Nat :=
  if text.isEmpty || text.length > 10 || (text.length > 1 && text.head? == some 48) then none
  else exportDigits 0 text

/-- The loop over the render targets: the last one that the fields name. -/
def receiptTarget (renderTarget guestMode : Bytes) (scale : Nat) : Option RenderTargetPlan :=
  (kRenderTargets.filter fun candidate =>
    renderTarget == crossText candidate.width candidate.height &&
      guestMode == crossText candidate.guestWidth candidate.guestHeight &&
      scale == candidate.scale).getLast?

/-- `ends_with`. -/
def endsWith (text suffix : Bytes) : Bool := suffix.isSuffixOf text

/-- The capability part of `ProjectLiveMetadata` for a target of the receipt: the guest
refresh rate of an accepted record. -/
def checkRecord (receipt : ReceiptFields) (target : Option RenderTargetPlan)
    (capabilities : Bytes) : Option Nat := do
  let build ← receipt (Lease.ascii "build")
  let game ← receipt (Lease.ascii "game")
  let timing ← receipt (Lease.ascii "timing")
  if (receipt (Lease.ascii "capability_policy")).isSome then do
    let target ← target
    let policy ← receipt (Lease.ascii "capability_policy")
    let record ← receipt (Lease.ascii "capability_record")
    if policy ≠ Lease.ascii "1" ∨ record ≠ Lease.ascii "capabilities.txt" ∨
        capabilities.length > kMaximumExportReceiptBytes then none
    else
      let owner := endsWith capabilities (Lease.ascii "\nadmission " ++ kOwnerAdmissionKey ++ [10])
      let ticket := endsWith capabilities (Lease.ascii "\nadmission " ++ kTicketGrantKey ++ [10])
      match resolveCapabilities ⟨build, game,
          if timing = kUnlockedTimingKey then .unlocked else .stock, target.id, true, owner,
          if ticket then kGrantAll else 0⟩ with
      | .error _ => none
      | .ok plan =>
          match serializeCapabilities plan with
          | .error _ => none
          | .ok canonical =>
              if canonical ≠ capabilities then none
              else some (if plan.guestVblankHz ≠ 0 then plan.guestVblankHz else plan.guestRefreshHz)
  else if capabilities.isEmpty then some 0 else none

/-- The checks of `ProjectLiveMetadata` on the build, the timing, the target and the
record. -/
def checkCapabilities (receipt : ReceiptFields) (capabilities : Bytes) : Option Nat := do
  let build ← receipt (Lease.ascii "build")
  let game ← receipt (Lease.ascii "game")
  let timing ← receipt (Lease.ascii "timing")
  let vsync ← receipt (Lease.ascii "vsync")
  if !validCapabilityIdentity build || !validCapabilityIdentity game ||
      (timing != kStockTimingKey && timing != kUnlockedTimingKey) ||
      vsync != Lease.ascii "1" then none
  else do
    let scaleText ← receipt (Lease.ascii "scale")
    let scale ← exportDecimal scaleText
    if scale < 1 ∨ 3 < scale then none
    else
      match receipt (Lease.ascii "render_target") with
      | some renderTarget => do
          let guestMode ← receipt (Lease.ascii "guest_mode")
          let target ← receiptTarget renderTarget guestMode scale
          checkRecord receipt (some target) capabilities
      | none => if scale > 2 then none else checkRecord receipt none capabilities

/-! ## Resolving and writing -/

/-- What `ResolveCapabilities` asks of a request, but for its target. -/
structure Admissible (request : CapabilityRequest) : Prop where
  build : validCapabilityIdentity request.buildFingerprint = true
  game : validCapabilityIdentity request.gameFingerprint = true
  timing : request.timing = .stock ∨ request.timing = .unlocked
  vsync : request.vsync = true
  unlocked : gatedUnlocked request = true →
    request.ownerAdmitted = true ∨ grantedUnlocked request = true

/-- The target of a request is known, and gated only if admitted. -/
structure AdmitsTarget (request : CapabilityRequest) (target : RenderTargetPlan) : Prop where
  found : findRenderTarget request.renderTarget = some target
  admitted : gatedTarget request target = true →
    request.ownerAdmitted = true ∨ grantedTarget request target = true

theorem gate_iff {gated owner granted : Bool} :
    (gated && !owner && !granted) = false ↔ (gated = true → owner = true ∨ granted = true) := by
  cases gated <;> cases owner <;> cases granted <;> decide

theorem timingPolicySupported_iff {timing : TimingMode} :
    timingPolicySupported timing = true ↔ timing = .stock ∨ timing = .unlocked := by
  rw [timingPolicySupported, Bool.or_eq_true, beq_iff_eq, beq_iff_eq]

variable {plan : CapabilityPlan} {target : RenderTargetPlan} {receipt : ReceiptFields}

/-- **What `ResolveCapabilities` admits.** -/
theorem resolveCapabilities_iff {request : CapabilityRequest} :
    resolveCapabilities request = .ok plan ↔
      Admissible request ∧ ∃ target, AdmitsTarget request target ∧ plan = planOf request target := by
  constructor
  · intro h
    unfold resolveCapabilities at h
    split_ifs at h with hbuild hgame hfixed htiming hvsync hunlocked
    rw [Bool.not_eq_true', Bool.not_eq_false] at hbuild hgame htiming hvsync
    rw [Bool.not_eq_true, gate_iff] at hunlocked
    refine ⟨⟨hbuild, hgame, timingPolicySupported_iff.mp htiming, hvsync, hunlocked⟩, ?_⟩
    cases hfind : findRenderTarget request.renderTarget with
    | none =>
      rw [hfind] at h
      cases h
    | some target =>
      simp only [hfind] at h
      split_ifs at h with htarget
      rw [Bool.not_eq_true, gate_iff] at htarget
      cases h
      exact ⟨target, ⟨hfind, htarget⟩, rfl⟩
  · rintro ⟨⟨hbuild, hgame, htiming, hvsync, hunlocked⟩, target, ⟨hfind, htarget⟩, rfl⟩
    have hfixed : request.timing ≠ .fixed60 := by
      rcases htiming with h | h <;> rw [h] <;> decide
    unfold resolveCapabilities
    rw [hbuild, hgame, timingPolicySupported_iff.mpr htiming, hvsync, gate_iff.mpr hunlocked, hfind]
    simp only [Bool.not_true, Bool.false_eq_true, if_false, if_neg hfixed]
    rw [gate_iff.mpr htarget]
    rfl

theorem findRenderTarget_eq_some {id : Nat} (h : findRenderTarget id = some target) :
    target ∈ kRenderTargets ∧ target.id = id :=
  ⟨mem_of_find?_eq_some h, by simpa using find?_some h⟩

theorem findRenderTarget_of_mem (h : target ∈ kRenderTargets) :
    findRenderTarget target.id = some target := by
  simp only [kRenderTargets, mem_cons, not_mem_nil, or_false] at h
  rcases h with rfl | rfl | rfl | rfl <;> rfl

/-- An admission is recorded only where it admits something, so it may be recorded again. -/
theorem planOf_request (request : CapabilityRequest) (target : RenderTargetPlan) :
    planOf (planOf request target).request target = planOf request target := by
  have hsame : ∀ gated owner : Bool, (gated && (gated && owner)) = (gated && owner) := by decide
  have howner := hsame (gatedUnlocked request || gatedTarget request target) request.ownerAdmitted
  refine CapabilityPlan.ext rfl rfl rfl rfl rfl rfl rfl howner ?_ rfl
  exact congrArg (fun owner => (gatedUnlocked request || gatedTarget request target) && !owner) howner

/-- The plan of a request resolves to itself. -/
theorem resolve_request {request : CapabilityRequest} (h : resolveCapabilities request = .ok plan) :
    resolveCapabilities plan.request = .ok plan := by
  obtain ⟨⟨hbuild, hgame, htiming, hvsync, hunlocked⟩, target, ⟨hfind, htarget⟩, rfl⟩ :=
    resolveCapabilities_iff.mp h
  have hmem := (findRenderTarget_eq_some hfind).1
  have howner : ∀ gated granted, (gated = true → request.ownerAdmitted = true ∨ granted = true) →
      (gated = true → gatedUnlocked request = true ∨ gatedTarget request target = true) →
      gated = true → (planOf request target).ownerAdmitted = true ∨ granted = true := by
    intro gated granted hadmit hone hgated
    rcases hadmit hgated with h | h
    · left
      show ((gatedUnlocked request || gatedTarget request target) && request.ownerAdmitted) = true
      rw [h, Bool.and_true, Bool.or_eq_true]
      exact hone hgated
    · exact .inr h
  refine resolveCapabilities_iff.mpr ⟨⟨hbuild, hgame, htiming, rfl, ?_⟩, target, ⟨?_, ?_⟩, ?_⟩
  · exact howner _ _ hunlocked .inl
  · exact findRenderTarget_of_mem hmem
  · exact howner _ _ htarget .inr
  · exact (planOf_request request target).symm

/-- **What `SerializeCapabilities` writes**: the record of a plan that resolves. -/
theorem serializeCapabilities_iff {record : Bytes} :
    serializeCapabilities plan = .ok record ↔
      (∃ request, resolveCapabilities request = .ok plan) ∧ record = recordText plan := by
  constructor
  · intro h
    unfold serializeCapabilities at h
    cases hresolve : resolveCapabilities plan.request with
    | error error =>
      rw [hresolve] at h
      cases h
    | ok resolved =>
      simp only [hresolve] at h
      split_ifs at h with hdiffers
      simp only [not_or, not_not] at hdiffers
      obtain ⟨howner, hticket, hrefresh, hvblank, hwidth, hheight, hguestWidth, hguestHeight,
        hscale⟩ := hdiffers
      obtain ⟨hadmissible, target, hadmits, rfl⟩ := resolveCapabilities_iff.mp hresolve
      have hid := (findRenderTarget_eq_some hadmits.found).2
      have hvsync := hadmissible.vsync
      have hsame : planOf plan.request target = plan :=
        CapabilityPlan.ext rfl rfl rfl (RenderTargetPlan.ext hid hwidth.symm hheight.symm
          hguestWidth.symm hguestHeight.symm hscale.symm) hrefresh.symm hvblank.symm hvsync.symm
          howner.symm hticket.symm rfl
      cases h
      exact ⟨⟨plan.request, hresolve.trans (congrArg Except.ok hsame)⟩, rfl⟩
  · rintro ⟨⟨request, h⟩, rfl⟩
    unfold serializeCapabilities
    rw [resolve_request h]
    simp

/-! ## Reading the receipt -/

theorem valueFrom_of_exportDigits {v n : Nat} {t : Bytes} (h : exportDigits v t = some n) :
    Decimal.valueFrom v t = some n := by
  induction t generalizing v with
  | nil => exact h
  | cons c rest ih =>
    unfold exportDigits at h
    split_ifs at h with hdigit hlarge
    simp only [Bool.or_eq_true, decide_eq_true_eq, not_or, Nat.not_lt] at hdigit
    rw [Decimal.valueFrom, Decimal.digit?, if_pos hdigit]
    exact ih h

/-- A number is read only from its own text. -/
theorem text_of_exportDecimal {n : Nat} {t : Bytes} (h : exportDecimal t = some n) :
    Decimal.text n = t := by
  unfold exportDecimal at h
  split_ifs at h with hshape
  simp only [Bool.or_eq_true, Bool.and_eq_true, decide_eq_true_eq, beq_iff_eq, not_or,
    List.isEmpty_iff] at hshape
  exact Decimal.text_of_valueFrom ⟨hshape.1.1, fun hlong hzero => hshape.2 ⟨hlong, hzero⟩⟩
    (valueFrom_of_exportDigits h)

theorem receiptTarget_iff {renderTarget guestMode : Bytes} {scale : Nat} :
    receiptTarget renderTarget guestMode scale = some target ↔
      target ∈ kRenderTargets ∧ renderTarget = crossText target.width target.height ∧
        guestMode = crossText target.guestWidth target.guestHeight ∧ scale = target.scale := by
  constructor
  · intro h
    have hmem := mem_of_getLast? h
    simpa only [mem_filter, Bool.and_eq_true, beq_iff_eq, and_assoc] using hmem
  · rintro ⟨hmem, rfl, rfl, rfl⟩
    simp only [kRenderTargets, mem_cons, not_mem_nil, or_false] at hmem
    rcases hmem with rfl | rfl | rfl | rfl <;> decide

/-! ## The admission line -/

theorem endsWith_append {before text suffix : Bytes} (h : suffix.length ≤ text.length) :
    endsWith (before ++ text) suffix = endsWith text suffix := by
  unfold endsWith
  rw [Bool.eq_iff_iff, isSuffixOf_iff_suffix, isSuffixOf_iff_suffix]
  constructor
  · intro hsuffix
    exact suffix_of_suffix_length_le hsuffix (suffix_append before text) h
  · intro hsuffix
    exact hsuffix.trans (suffix_append before text)

theorem renderTargetLimitation_cases :
    renderTargetLimitation id = Lease.ascii "experimental-960x540-guest-plus-2x;vinyl-KI-033-open" ∨
      renderTargetLimitation id =
        Lease.ascii "world-sign-corruption-KI-032-open;vinyl-KI-033-open" ∨
      renderTargetLimitation id = Lease.ascii "baseline-rendering-limitations-remain" := by
  unfold renderTargetLimitation
  split_ifs
  · exact .inl rfl
  · exact .inr (.inl rfl)
  · exact .inr (.inr rfl)

/-- The last line of the record of an owner's admission. -/
def ownerSuffix : Bytes := Lease.ascii "\nadmission " ++ kOwnerAdmissionKey ++ [10]

/-- The line of a ticket's grant. -/
def ticketSuffix : Bytes := Lease.ascii "\nadmission " ++ kTicketGrantKey ++ [10]

/-- The exporter reads the admission off the end of a record. -/
theorem endsWith_recordText (plan : CapabilityPlan) :
    endsWith (recordText plan) ownerSuffix = plan.ownerAdmitted ∧
      endsWith (recordText plan) ticketSuffix = (!plan.ownerAdmitted && plan.ticketGranted) := by
  have htail : ∀ (id : Nat) (owner ticket : Bool),
      (ownerSuffix.length ≤ (recordTail id owner ticket).length ∧
        ticketSuffix.length ≤ (recordTail id owner ticket).length) ∧
      endsWith (recordTail id owner ticket) ownerSuffix = owner ∧
      endsWith (recordTail id owner ticket) ticketSuffix = (!owner && ticket) := by
    intro id owner ticket
    unfold recordTail lastFields
    rcases renderTargetLimitation_cases id with h | h | h <;> rw [h] <;> cases owner <;>
      cases ticket <;> decide
  obtain ⟨⟨howner, hticket⟩, htail⟩ := htail plan.target.id plan.ownerAdmitted plan.ticketGranted
  unfold recordText
  rwa [endsWith_append howner, endsWith_append hticket]

theorem recordTail_length (owner ticket : Bool) : (recordTail id owner ticket).length ≤ 128 := by
  unfold recordTail lastFields
  rcases renderTargetLimitation_cases id with h | h | h <;> rw [h] <;> cases owner <;>
    cases ticket <;> decide

theorem numberText_length {n : Nat} (h : n < 10 ^ 10) : (Decimal.text n).length ≤ 10 :=
  Decimal.text_length_le (by decide) h

theorem crossText_length {width height : Nat} (hwidth : width < 10 ^ 10)
    (hheight : height < 10 ^ 10) : (crossText width height).length ≤ 21 := by
  have hw := numberText_length hwidth
  have hh := numberText_length hheight
  have hcross : (Lease.ascii "x").length = 1 := by decide
  simp only [crossText, length_append, hcross]
  omega

/-- The numbers of a target are small. -/
theorem target_lt (h : target ∈ kRenderTargets) :
    target.id < 10 ^ 10 ∧ target.width < 10 ^ 10 ∧ target.height < 10 ^ 10 ∧
      target.guestWidth < 10 ^ 10 ∧ target.guestHeight < 10 ^ 10 ∧ target.scale < 10 ^ 10 := by
  simp only [kRenderTargets, mem_cons, not_mem_nil, or_false] at h
  rcases h with rfl | rfl | rfl | rfl <;> decide

theorem flatMap_recordLine_length {fields : List (Bytes × Bytes)}
    (h : ∀ field ∈ fields, field.1.length ≤ 64 ∧ field.2.length ≤ 64) :
    (fields.flatMap recordLine).length ≤ fields.length * 130 := by
  induction fields with
  | nil => exact Nat.zero_le _
  | cons field rest ih =>
    have hfirst := h field mem_cons_self
    have hrest := ih fun f hf => h f (mem_cons_of_mem field hf)
    rw [flatMap_cons, length_append, length_cons]
    simp only [recordLine, length_cons, length_append]
    omega

/-- A record fits the bound of the exporter. -/
theorem recordText_length {request : CapabilityRequest} (h : resolveCapabilities request = .ok plan)
    :
    (recordText plan).length ≤ kMaximumExportReceiptBytes := by
  obtain ⟨hadmissible, target, hadmits, rfl⟩ := resolveCapabilities_iff.mp h
  obtain ⟨hid, hwidth, hheight, hguestWidth, hguestHeight, hscale⟩ :=
    target_lt (findRenderTarget_eq_some hadmits.found).1
  have hbuild := hadmissible.build
  have hgame := hadmissible.game
  simp only [validCapabilityIdentity, Bool.and_eq_true, beq_iff_eq] at hbuild hgame
  have hrefresh : kStockGuestRefreshHz < 10 ^ 10 := by decide
  have hvblank : (planOf request target).guestVblankHz < 10 ^ 10 := by
    show (if request.timing = .unlocked then kUnlockedGuestVblankHz else 0) < 10 ^ 10
    split_ifs <;> decide
  have hfields : ∀ field ∈ recordFields (planOf request target),
      field.1.length ≤ 64 ∧ field.2.length ≤ 64 := by
    have hnumber : ∀ {n : Nat}, n < 10 ^ 10 → (Decimal.text n).length ≤ 64 := fun hn =>
      Nat.le_trans (numberText_length hn) (by decide)
    have hcross : ∀ {n k : Nat}, n < 10 ^ 10 → k < 10 ^ 10 → (crossText n k).length ≤ 64 :=
      fun hn hk => Nat.le_trans (crossText_length hn hk) (by decide)
    have htiming : (timingKey request.timing).length ≤ 64 := by
      unfold timingKey
      split_ifs <;> decide
    unfold recordFields
    refine forall_mem_append.mpr ⟨forall_mem_append.mpr ⟨?_, ?_⟩, ?_⟩
    · simp only [forall_mem_cons]
      exact ⟨⟨by decide, hnumber (by decide)⟩, ⟨by decide, hbuild.1.le⟩, ⟨by decide, hgame.1.le⟩,
        ⟨by decide, by decide⟩, ⟨by decide, htiming⟩, ⟨by decide, hnumber hrefresh⟩, by simp⟩
    · split_ifs
      · simp only [forall_mem_cons]
        exact ⟨⟨by decide, hnumber hvblank⟩, by simp⟩
      · simp
    · simp only [forall_mem_cons]
      exact ⟨⟨by decide, by decide⟩, ⟨by decide, hnumber hid⟩, ⟨by decide, hcross hwidth hheight⟩,
        ⟨by decide, hcross hguestWidth hguestHeight⟩, ⟨by decide, hcross hscale hscale⟩,
        ⟨by decide, by decide⟩, ⟨by decide, by decide⟩, ⟨by decide, by decide⟩,
        ⟨by decide, by decide⟩, ⟨by decide, by decide⟩, by simp⟩
  have hcount : (recordFields (planOf request target)).length ≤ 17 := by
    unfold recordFields
    split_ifs <;> simp
  have hhead := flatMap_recordLine_length hfields
  have htail := recordTail_length target.id (planOf request target).ownerAdmitted
    (planOf request target).ticketGranted
  have hheader : (Lease.ascii "MCLA-LAUNCHER-CAPABILITIES-V1").length = 29 := by decide
  have hlines : (recordFields (planOf request target)).length * 130 ≤ 17 * 130 :=
    Nat.mul_le_mul_right 130 hcount
  unfold recordText
  rw [length_append, length_append, hheader]
  exact Nat.le_trans (Nat.add_le_add (Nat.add_le_add_left (hhead.trans hlines) 29) htail)
    (by decide)

/-- The receipt that a launch of the plan writes, so far as the exporter's check reads it. -/
structure ReceiptOf (plan : CapabilityPlan) (receipt : ReceiptFields) : Prop where
  build : receipt (Lease.ascii "build") = some plan.buildFingerprint
  game : receipt (Lease.ascii "game") = some plan.gameFingerprint
  timing : receipt (Lease.ascii "timing") = some (timingKey plan.timing)
  scale : receipt (Lease.ascii "scale") = some (Decimal.text plan.target.scale)
  renderTarget : receipt (Lease.ascii "render_target") =
    some (crossText plan.target.width plan.target.height)
  guestMode : receipt (Lease.ascii "guest_mode") =
    some (crossText plan.target.guestWidth plan.target.guestHeight)
  vsync : receipt (Lease.ascii "vsync") = some (Decimal.text (if plan.vsync then 1 else 0))
  policy : receipt (Lease.ascii "capability_policy") =
    some (Decimal.text kCapabilityPolicyVersion)
  record : receipt (Lease.ascii "capability_record") = some (Lease.ascii "capabilities.txt")

/-- The guest refresh rate that the exporter reports. -/
def reportedHz (plan : CapabilityPlan) : Nat :=
  if plan.guestVblankHz ≠ 0 then plan.guestVblankHz else plan.guestRefreshHz

/-- The plan that the exporter resolves for the fields and the record of another plan. -/
theorem resolve_reported {request : CapabilityRequest} (h : resolveCapabilities request = .ok plan)
    :
    resolveCapabilities ⟨plan.buildFingerprint, plan.gameFingerprint, plan.timing, plan.target.id,
        true, plan.ownerAdmitted, if plan.ticketGranted then kGrantAll else 0⟩ =
      .ok { plan with ticketGrant := if plan.ticketGranted then kGrantAll else 0 } := by
  obtain ⟨⟨hbuild, hgame, htiming, -, -⟩, target, ⟨hfind, -⟩, rfl⟩ := resolveCapabilities_iff.mp h
  have hmem := (findRenderTarget_eq_some hfind).1
  have hsame : ∀ gated owner : Bool, (gated && (gated && owner)) = (gated && owner) := by decide
  have howner := hsame (gatedUnlocked request || gatedTarget request target) request.ownerAdmitted
  -- what is gated was admitted by the owner, or the record claims every grant
  have hadmit : ∀ gated granted : Bool,
      (gated = true → gatedUnlocked request = true ∨ gatedTarget request target = true) →
      ((planOf request target).ticketGranted = true → granted = true) →
      gated = true → (planOf request target).ownerAdmitted = true ∨ granted = true := by
    intro gated granted hone hgranted hgated
    have hgate : (gatedUnlocked request || gatedTarget request target) = true := by
      rw [Bool.or_eq_true]
      exact hone hgated
    cases hadmitted : (planOf request target).ownerAdmitted with
    | true => exact .inl rfl
    | false =>
      refine .inr (hgranted ?_)
      show ((gatedUnlocked request || gatedTarget request target) &&
        !(planOf request target).ownerAdmitted) = true
      rw [hadmitted, hgate]
      rfl
  refine resolveCapabilities_iff.mpr ⟨⟨hbuild, hgame, htiming, rfl, ?_⟩, target,
    ⟨findRenderTarget_of_mem hmem, ?_⟩, ?_⟩
  · refine hadmit _ _ .inl fun hticket => ?_
    unfold grantedUnlocked
    simp only [hticket]
    decide
  · intro hgated
    refine hadmit _ _ .inr (fun hticket => ?_) hgated
    have hid : target.id = 1080 ∨ target.id = 2160 := by
      have hgated' : gatedTarget request target = true := hgated
      simp only [gatedTarget, Bool.and_eq_true, Bool.or_eq_true, beq_iff_eq] at hgated'
      exact hgated'.1.1
    unfold grantedTarget targetBit
    simp only [hticket]
    rcases hid with hid | hid <;> rw [hid] <;> decide
  · refine CapabilityPlan.ext rfl rfl rfl rfl rfl rfl rfl howner.symm ?_ rfl
    exact (congrArg (fun owner => (gatedUnlocked request || gatedTarget request target) && !owner)
      howner).symm

theorem timingKey_iff {timing : TimingMode} (h : timing = .stock ∨ timing = .unlocked)
    {key : Bytes} (hkey : key = kStockTimingKey ∨ key = kUnlockedTimingKey) :
    (if key = kUnlockedTimingKey then TimingMode.unlocked else .stock) = timing ↔
      key = timingKey timing := by
  have hne : kStockTimingKey ≠ kUnlockedTimingKey := by decide
  rcases h with rfl | rfl <;> rcases hkey with rfl | rfl <;> simp [timingKey, hne, hne.symm]

theorem timingKey_mem :
    timingKey timing = kStockTimingKey ∨ timingKey timing = kUnlockedTimingKey := by
  unfold timingKey
  split_ifs
  · exact .inr rfl
  · exact .inl rfl

/-- The request that the exporter resolves. -/
def reportedRequest (build game timing : Bytes) (target : RenderTargetPlan) (record : Bytes) :
    CapabilityRequest :=
  ⟨build, game, if timing = kUnlockedTimingKey then .unlocked else .stock, target.id, true,
    endsWith record ownerSuffix, if endsWith record ticketSuffix then kGrantAll else 0⟩

theorem checkRecord_iff {build game timing policy record : Bytes} {hz : Nat}
    (hbuild : receipt (Lease.ascii "build") = some build)
    (hgame : receipt (Lease.ascii "game") = some game)
    (htiming : receipt (Lease.ascii "timing") = some timing)
    (hpolicy : receipt (Lease.ascii "capability_policy") = some policy) :
    checkRecord receipt (some target) record = some hz ↔
      policy = Lease.ascii "1" ∧
        receipt (Lease.ascii "capability_record") = some (Lease.ascii "capabilities.txt") ∧
        record.length ≤ kMaximumExportReceiptBytes ∧
        ∃ plan, resolveCapabilities (reportedRequest build game timing target record) = .ok plan ∧
          serializeCapabilities plan = .ok record ∧ hz = reportedHz plan := by
  unfold checkRecord
  simp only [hbuild, hgame, htiming, hpolicy, bind_eq_bind, bind_some,
    isSome_some, if_true]
  cases hrecord : receipt (Lease.ascii "capability_record") with
  | none => simp
  | some name =>
    simp only [bind_some, Option.some.injEq]
    by_cases hshape : policy ≠ Lease.ascii "1" ∨ name ≠ Lease.ascii "capabilities.txt" ∨
        record.length > kMaximumExportReceiptBytes
    · rw [if_pos hshape]
      refine iff_of_false (by simp) ?_
      rintro ⟨hone, hname, hlength, -⟩
      rcases hshape with h | h | h
      · exact h hone
      · exact h hname
      · exact Nat.not_lt.mpr hlength h
    · rw [if_neg hshape]
      simp only [not_or, not_not, Nat.not_lt] at hshape
      obtain ⟨rfl, rfl, hlength⟩ := hshape
      simp only [true_and, hlength]
      show (match resolveCapabilities (reportedRequest build game timing target record) with
        | .error _ => none
        | .ok plan => _) = some hz ↔ _
      cases hresolve : resolveCapabilities (reportedRequest build game timing target record) with
      | error error => simp
      | ok plan =>
        simp only [Except.ok.injEq, exists_eq_left']
        cases hserialize : serializeCapabilities plan with
        | error error => simp
        | ok canonical =>
          simp only [Except.ok.injEq]
          by_cases hsame : canonical = record
          · rw [if_neg (not_not.mpr hsame), Option.some.injEq, eq_comm]
            exact (and_iff_right hsame).symm
          · rw [if_pos hsame]
            exact iff_of_false (by simp) fun h => hsame h.1

/-- **The exporter agrees**: with a capability policy in the receipt, it accepts exactly the
records that a launch could have written for the fields. -/
theorem checkCapabilities_iff {record : Bytes} {hz : Nat}
    (hpolicy : receipt (Lease.ascii "capability_policy") ≠ none) :
    checkCapabilities receipt record = some hz ↔
      ∃ request plan, resolveCapabilities request = .ok plan ∧
        serializeCapabilities plan = .ok record ∧ ReceiptOf plan receipt ∧ hz = reportedHz plan := by
  obtain ⟨policy, hpolicy⟩ := ne_none_iff_exists'.mp hpolicy
  constructor
  · intro h
    unfold checkCapabilities at h
    simp only [bind_eq_bind, bind_eq_some_iff] at h
    obtain ⟨build, hbuild, game, hgame, timing, htiming, vsync, hvsync, h⟩ := h
    split_ifs at h with hshape
    simp only [Bool.or_eq_true, Bool.and_eq_true, Bool.not_eq_true', bne_iff_ne, not_or, not_and_or,
      not_not, Bool.not_eq_false] at hshape
    obtain ⟨⟨⟨hbuild', hgame'⟩, hkey⟩, rfl⟩ := hshape
    simp only [bind_eq_some_iff] at h
    obtain ⟨scaleText, hscaleText, scale, hscale, h⟩ := h
    by_cases hrange : scale < 1 ∨ 3 < scale
    · rw [if_pos hrange] at h
      cases h
    rw [if_neg hrange] at h
    cases htarget : receipt (Lease.ascii "render_target") with
    | none =>
      have hnone : checkRecord receipt none record = none := by
        unfold checkRecord
        simp [hbuild, hgame, htiming, hpolicy]
      simp only [htarget, hnone, ite_self] at h
      cases h
    | some renderTarget =>
      simp only [htarget, bind_eq_some_iff] at h
      obtain ⟨guestMode, hguestMode, target, hfound, h⟩ := h
      obtain ⟨hmem, rfl, rfl, rfl⟩ := receiptTarget_iff.mp hfound
      obtain ⟨rfl, hrecord, -, plan, hresolve, hserialize, rfl⟩ :=
        (checkRecord_iff hbuild hgame htiming hpolicy).mp h
      refine ⟨_, plan, hresolve, hserialize, ?_, rfl⟩
      obtain ⟨hadmissible, target', hadmits, rfl⟩ := resolveCapabilities_iff.mp hresolve
      have hsame : target' = target :=
        some.inj (hadmits.found.symm.trans (findRenderTarget_of_mem hmem))
      subst hsame
      refine ⟨hbuild, hgame, ?_, ?_, htarget, hguestMode, hvsync, hpolicy, hrecord⟩
      · rw [htiming, Option.some.injEq]
        exact (timingKey_iff hadmissible.timing hkey).mp rfl
      · rw [hscaleText, Option.some.injEq]
        exact (text_of_exportDecimal hscale).symm
  · rintro ⟨request, plan, hresolve, hserialize, hreceipt, rfl⟩
    obtain ⟨-, rfl⟩ := serializeCapabilities_iff.mp hserialize
    have hreported := resolve_reported hresolve
    have hlength := recordText_length hresolve
    obtain ⟨hadmissible, target, hadmits, rfl⟩ := resolveCapabilities_iff.mp hresolve
    have hmem := (findRenderTarget_eq_some hadmits.found).1
    set plan := planOf request target with hplan
    have hticket : (!plan.ownerAdmitted && plan.ticketGranted) = plan.ticketGranted := by
      have hgate : ∀ gated owner : Bool, (!owner && (gated && !owner)) = (gated && !owner) := by
        decide
      exact hgate _ _
    have hends := endsWith_recordText plan
    rw [hticket] at hends
    have hkey : plan.timing = .stock ∨ plan.timing = .unlocked := hadmissible.timing
    have hrequest : reportedRequest plan.buildFingerprint plan.gameFingerprint
        (timingKey plan.timing) plan.target (recordText plan) =
        ⟨plan.buildFingerprint, plan.gameFingerprint, plan.timing, plan.target.id, true,
          plan.ownerAdmitted, if plan.ticketGranted then kGrantAll else 0⟩ := by
      unfold reportedRequest
      rw [hends.1, hends.2, (timingKey_iff hkey (timingKey_mem plan.timing)).mpr rfl]
    have hrecord : checkRecord _ (some plan.target) _ = some (reportedHz plan) :=
      (checkRecord_iff hreceipt.build hreceipt.game hreceipt.timing hreceipt.policy).mpr
        ⟨by decide, hreceipt.record, hlength, _,
        (congrArg resolveCapabilities hrequest).trans hreported,
        serializeCapabilities_iff.mpr ⟨⟨_, hreported⟩, rfl⟩, rfl⟩
    have htarget : receiptTarget (crossText plan.target.width plan.target.height)
        (crossText plan.target.guestWidth plan.target.guestHeight) plan.target.scale =
        some plan.target := receiptTarget_iff.mpr ⟨hmem, rfl, rfl, rfl⟩
    have hscale : exportDecimal (Decimal.text plan.target.scale) = some plan.target.scale ∧
        ¬ (plan.target.scale < 1 ∨ 3 < plan.target.scale) := by
      have hall : ∀ t ∈ kRenderTargets, exportDecimal (Decimal.text t.scale) = some t.scale ∧
          ¬ (t.scale < 1 ∨ 3 < t.scale) := by decide
      exact hall target hmem
    have hvsync : Decimal.text (if plan.vsync then 1 else 0) = Lease.ascii "1" := by
      show Decimal.text 1 = _
      decide
    have hshape : (!validCapabilityIdentity plan.buildFingerprint ||
        !validCapabilityIdentity plan.gameFingerprint ||
        (timingKey plan.timing != kStockTimingKey && timingKey plan.timing != kUnlockedTimingKey) ||
        Lease.ascii "1" != Lease.ascii "1") = false := by
      have hbuild : validCapabilityIdentity plan.buildFingerprint = true := hadmissible.build
      have hgame : validCapabilityIdentity plan.gameFingerprint = true := hadmissible.game
      rw [hbuild, hgame]
      rcases timingKey_mem plan.timing with h | h <;> rw [h] <;> decide
    unfold checkCapabilities
    simp only [hreceipt.build, hreceipt.game, hreceipt.timing, hreceipt.vsync, hreceipt.scale,
      hreceipt.renderTarget, hreceipt.guestMode, bind_eq_bind, bind_some, hvsync,
      hshape, Bool.false_eq_true, if_false, hscale.1, if_neg hscale.2]
    rw [htarget]
    exact hrecord

/-- Without a capability policy in the receipt, only a session without a record is accepted. -/
theorem checkCapabilities_legacy {record : Bytes} {hz : Nat}
    (hpolicy : receipt (Lease.ascii "capability_policy") = none)
    (h : checkCapabilities receipt record = some hz) : record = [] := by
  have hcheck : ∀ target, checkRecord receipt target record = some hz → record = [] := by
    intro target hrecord
    unfold checkRecord at hrecord
    simp only [hpolicy, bind_eq_bind, bind_eq_some_iff] at hrecord
    obtain ⟨_, _, _, _, _, _, hrecord⟩ := hrecord
    by_cases hempty : record.isEmpty
    · exact List.isEmpty_iff.mp hempty
    · simp [hempty] at hrecord
  unfold checkCapabilities at h
  simp only [bind_eq_bind, bind_eq_some_iff] at h
  obtain ⟨_, _, _, _, _, _, _, _, h⟩ := h
  split_ifs at h
  simp only [bind_eq_some_iff] at h
  obtain ⟨_, _, scale, _, h⟩ := h
  by_cases hrange : scale < 1 ∨ 3 < scale
  · rw [if_pos hrange] at h
    cases h
  rw [if_neg hrange] at h
  cases htarget : receipt (Lease.ascii "render_target") with
  | none =>
    simp only [htarget] at h
    split_ifs at h
    exact hcheck none h
  | some renderTarget =>
    simp only [htarget, bind_eq_some_iff] at h
    obtain ⟨_, _, target, _, h⟩ := h
    exact hcheck (some target) h

/-- **The three parties agree.**  Every resolved plan has a record, only resolved plans have
one, and the exporter accepts exactly the records that a launch could have written for the
fields of the receipt. -/
theorem exporter_agrees :
    (∀ request plan, resolveCapabilities request = .ok plan →
      ∃ record, serializeCapabilities plan = .ok record) ∧
    (∀ plan record, serializeCapabilities plan = .ok record →
      ∃ request, resolveCapabilities request = .ok plan) ∧
    (∀ (receipt : ReceiptFields) (record : Bytes) (hz : Nat),
      receipt (Lease.ascii "capability_policy") ≠ none →
      (checkCapabilities receipt record = some hz ↔
        ∃ request plan, resolveCapabilities request = .ok plan ∧
          serializeCapabilities plan = .ok record ∧ ReceiptOf plan receipt ∧
          hz = reportedHz plan)) ∧
    ∀ (receipt : ReceiptFields) (record : Bytes) (hz : Nat),
      receipt (Lease.ascii "capability_policy") = none →
      checkCapabilities receipt record = some hz → record = [] := by
  refine ⟨fun request plan h => ⟨_, serializeCapabilities_iff.mpr ⟨⟨request, h⟩, rfl⟩⟩,
    fun plan record h => (serializeCapabilities_iff.mp h).1,
    fun receipt record hz => checkCapabilities_iff,
    fun receipt record hz => checkCapabilities_legacy⟩


end Mcla.Launcher
