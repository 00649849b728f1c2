import Mcla.OwnerReady.Gate

/-! # The owner-ready handshake

Any interleaving of `Wait` with calls of `waiting` and `signal`.  Each program is followed by what
it has read at the place where it is; what one relies on of the other is in the events, which are
only ever set, and in the clock, which only goes forward.
-/
namespace Mcla.OwnerReady
open NestedRecorder List

/-! ### The window -/

/-- The computations of ticks on a window give what they would give on numbers. -/
structure NoWrap (w : Window) : Prop where
  length : (180 * w.frequency).toNat = 180 * w.frequency.toNat
  latest : (kMax - 180 * w.frequency).toNat + 180 * w.frequency.toNat = INT64_MAX
  end_ : (w.begin_ + 180 * w.frequency).toNat = w.begin_.toNat + 180 * w.frequency.toNat
  rest : (60 * w.frequency).toNat = 60 * w.frequency.toNat
  deadline : (w.end_ - 60 * w.frequency).toNat + 60 * w.frequency.toNat = w.end_.toNat

/-- What an accepted window is. -/
structure Horizon (w : Window) (d : Nat) : Prop where
  frequency : 10 ≤ w.frequency.toNat ∧ w.frequency.toNat ≤ 10 ^ 10
  begin_ : 0 < w.begin_.toNat
  end_ : w.end_.toNat = w.begin_.toNat + 180 * w.frequency.toNat
  deadline : d + 60 * w.frequency.toNat = w.end_.toNat
  fits : w.end_.toNat ≤ INT64_MAX

section Window
variable {w : Window} {d : UInt64}

theorem deadline_ok (h : deadline w = .ok d) : NoWrap w ∧ Horizon w d.toNat := by
  obtain ⟨_, hcheck, h⟩ := bind_ok.mp h
  obtain ⟨hlow, hhigh, hbegin, hlatest, hend⟩ := need_ok.mp hcheck
  have hmax : kMax.toNat = 2 ^ 63 - 1 := rfl
  have hlow : 10 ≤ w.frequency.toNat := UInt64.le_iff_toNat_le.mp hlow
  have hhigh : w.frequency.toNat ≤ 10000000000 := UInt64.le_iff_toNat_le.mp hhigh
  have hbegin : 0 < w.begin_.toNat := UInt64.lt_iff_toNat_lt.mp hbegin
  have hlatest := UInt64.le_iff_toNat_le.mp hlatest
  have h180 : (180 * w.frequency).toNat = 180 * w.frequency.toNat := by
    rw [UInt64.toNat_mul]
    exact Nat.mod_eq_of_lt (by change 180 * _ < _; omega)
  have h60 : (60 * w.frequency).toNat = 60 * w.frequency.toNat := by
    rw [UInt64.toNat_mul]
    exact Nat.mod_eq_of_lt (by change 60 * _ < _; omega)
  have hsub : (kMax - 180 * w.frequency).toNat = 2 ^ 63 - 1 - 180 * w.frequency.toNat := by
    rw [UInt64.toNat_sub_of_le _ _ (UInt64.le_iff_toNat_le.mpr (by rw [h180, hmax]; omega)), h180,
      hmax]
  rw [hsub] at hlatest
  have hadd : (w.begin_ + 180 * w.frequency).toNat = w.begin_.toNat + 180 * w.frequency.toNat := by
    rw [UInt64.toNat_add, h180]
    exact Nat.mod_eq_of_lt (by omega)
  have hend' : w.end_.toNat = w.begin_.toNat + 180 * w.frequency.toNat := hend ▸ hadd
  have hdeadline : (w.end_ - 60 * w.frequency).toNat = w.end_.toNat - 60 * w.frequency.toNat := by
    rw [UInt64.toNat_sub_of_le _ _ (UInt64.le_iff_toNat_le.mpr (by rw [h60]; omega)), h60]
  have hd : d = w.end_ - 60 * w.frequency := (pure_ok.mp h).symm
  have hint : INT64_MAX = 2 ^ 63 - 1 := rfl
  refine ⟨⟨h180, by rw [hsub, hint]; omega, hadd, h60, by rw [hdeadline]; omega⟩,
    ⟨⟨hlow, hhigh⟩, hbegin, hend', by rw [hd, hdeadline]; omega, by rw [hint]; omega⟩⟩

end Window

/-! ### What each has read -/

/-- `Wait` has not announced itself yet. -/
def Place.early : Place → Bool
  | .opened | .freshReady | .freshWaiting | .waiting_before | .announce => true
  | _ => false

/-- The readings up to the announcement. -/
structure Evidence.Opened (e : Evidence) : Prop where
  opened : e.window.begin_.toNat ≤ e.opened
  waiting_before : e.opened ≤ e.waiting_before

/-- All readings, in order and below the deadline. -/
structure Evidence.Ordered (e : Evidence) : Prop extends e.Opened where
  waiting_after : e.waiting_before ≤ e.waiting_after
  ready_before : e.waiting_after ≤ e.ready_before
  ready_after : e.ready_before ≤ e.ready_after
  deadline : e.ready_after < e.deadline

/-- What `Wait` has read, by the place where it is. -/
def Native.ReadAt (n : Native) : Place → Prop
  | .opened => n.previous = n.out.window.begin_.toNat
  | .freshReady | .freshWaiting | .waiting_before =>
      n.out.window.begin_.toNat ≤ n.out.opened ∧ n.out.opened = n.previous
  | .announce | .waiting_after => n.out.Opened ∧ n.out.waiting_before = n.previous
  | .ready_before | .pause =>
      n.out.Opened ∧ n.out.waiting_before ≤ n.out.waiting_after ∧ n.out.waiting_after ≤ n.previous
  | .ready | .ready_after _ =>
      n.out.Opened ∧ n.out.waiting_before ≤ n.out.waiting_after ∧
        n.out.waiting_after ≤ n.out.ready_before ∧ n.out.ready_before = n.previous
  | .returned => n.out.Ordered
  | .thrown _ => True

/-- Each happening has what must come before it. -/
def Justified : List Happening → Prop
  | [] => True
  | .announced :: earlier => Justified earlier
  | .set _ :: earlier => .announced ∈ earlier ∧ Justified earlier
  | .signalled signal :: earlier => .announced ∈ earlier ∧ .set signal.signal_before_qpc ∈ earlier ∧
      (∀ other, .signalled other ∉ earlier) ∧ Justified earlier
  | .returned _ :: earlier => (∃ before, .set before ∈ earlier) ∧ Justified earlier

/-- What holds of `Wait`. -/
structure Ours (w : Window) (d : UInt64) (s : Shared) (n : Native) : Prop where
  window : n.out.window = w
  deadline : n.out.deadline = d.toNat
  read : n.ReadAt n.place
  late : s.waiting = true → n.place.early = false
  begun : n.place = .announce ∨ s.waiting = true → n.out.waiting_before ≤ s.clock
  seen : n.place = .ready_after .kSignaled → s.ready = true
  woken : n.place = .returned → s.ready = true ∧ ∀ b, .set b ∈ s.trace → b ≤ n.out.ready_after
  evidence : ∀ e, .returned e ∈ s.trace → n.place = .returned ∧ e = n.out

/-- What a call of the supervisor has found, by the place where it is. -/
def NativeEvents.FoundAt (v : NativeEvents) (s : Shared) (waiting_before : Nat) : At → Prop
  | .idle => True
  | .asked _ => v.sent = false
  | .ready | .before => v.sent = false ∧ s.waiting = true
  | .set b => v.sent = false ∧ s.waiting = true ∧ waiting_before ≤ b ∧ b ≤ s.clock
  | .after b => v.sent = true ∧ .set b ∈ s.trace ∧ ∀ signal, .signalled signal ∉ s.trace

/-- What holds of the supervisor; `waiting_before` is the other's reading. -/
structure Theirs (s : Shared) (v : NativeEvents) (waiting_before : Nat) : Prop where
  sent : v.sent = s.ready
  found : v.FoundAt s waiting_before v.place
  announced : s.waiting = true → .announced ∈ s.trace
  was_set : s.ready = true → ∃ b, .set b ∈ s.trace
  set : ∀ b, .set b ∈ s.trace → s.ready = true ∧ s.waiting = true ∧ waiting_before ≤ b ∧ b ≤ s.clock
  unsent : s.ready = false → ∀ signal, .signalled signal ∉ s.trace
  signalled : ∀ signal, .signalled signal ∈ s.trace →
    .set signal.signal_before_qpc ∈ s.trace ∧ signal.signal_before_qpc ≤ signal.signal_after_qpc

/-- What every step keeps. -/
structure Sound (w : Window) (d : UInt64) (z : System) : Prop where
  ours : Ours w d z.shared z.native
  theirs : Theirs z.shared z.events z.native.out.waiting_before
  justified : Justified z.shared.trace

/-! ### Steps of `Wait` -/

section Wait
variable {w : Window} {d : UInt64} {s : Shared} {n : Native} {v : NativeEvents} {stop failed : Bool}

/-- A reading throws, or gives the time. -/
theorem Native.clock_cases (n : Native) (stop failed : Bool) (s : Shared) (next : Nat → Native) :
    (∃ error, n.clock stop (s.qpc failed) next = n.throw error) ∨
      n.previous ≤ s.clock ∧ s.clock < n.out.deadline ∧
        n.clock stop (s.qpc failed) next = next s.clock := by
  unfold Native.clock
  by_cases hstop : stop = true
  · rw [if_pos hstop]
    exact .inl ⟨_, rfl⟩
  · rw [if_neg hstop, Shared.qpc]
    by_cases hfailed : failed = true
    · rw [if_pos hfailed]
      exact .inl ⟨_, rfl⟩
    · rw [if_neg hfailed]
      by_cases hpositive : 0 < s.clock ∧ s.clock ≤ INT64_MAX
      · rw [if_pos hpositive]
        dsimp only
        by_cases hbounds : n.previous ≤ s.clock ∧ s.clock < n.out.deadline
        · rw [if_pos hbounds]
          exact .inr ⟨hbounds.1, hbounds.2, rfl⟩
        · rw [if_neg hbounds]
          exact .inl ⟨_, rfl⟩
      · rw [if_neg hpositive]
        exact .inl ⟨_, rfl⟩

theorem Ours.not_returned (h : Ours w d s n) (hplace : n.place ≠ .returned) (e : Evidence) :
    .returned e ∉ s.trace :=
  fun hmem => hplace (h.evidence e hmem).1

theorem Ours.throw (h : Ours w d s n) (hplace : n.place ≠ .returned) (error : String) :
    Ours w d s (n.throw error) where
  window := h.window
  deadline := h.deadline
  read := trivial
  late _ := rfl
  begun := by
    rintro (hannounce | hwaiting)
    · cases hannounce
    · exact h.begun (.inr hwaiting)
  seen hseen := by cases hseen
  woken hwoken := by cases hwoken
  evidence e hmem := absurd hmem (h.not_returned hplace e)

/-- A step that neither sets an event nor returns. -/
theorem Ours.move (h : Ours w d s n) (hplace : n.place ≠ .returned) {n' : Native}
    (hwindow : n'.out.window = n.out.window) (hdeadline : n'.out.deadline = n.out.deadline)
    (hread : n'.ReadAt n'.place) (hearly : n.place.early = false → n'.place.early = false)
    (hbegun : n'.place = .announce ∨ s.waiting = true → n'.out.waiting_before ≤ s.clock)
    (hseen : n'.place = .ready_after .kSignaled → s.ready = true)
    (hreturned : n'.place ≠ .returned) : Ours w d s n' where
  window := hwindow.trans h.window
  deadline := hdeadline.trans h.deadline
  read := hread
  late hwaiting := hearly (h.late hwaiting)
  begun := hbegun
  seen := hseen
  woken hwoken := absurd hwoken hreturned
  evidence e hmem := absurd hmem (h.not_returned hplace e)

theorem poll_eq_kSignaled {event : Bool} (h : poll event failed = .kSignaled) : event = true := by
  unfold poll at h
  split_ifs at h with hfailed hevent
  exact hevent

/-- A step that reads the clock. -/
theorem Ours.clock (h : Ours w d s n) (hplace : n.place ≠ .returned) {next : Nat → Native}
    (hnext : n.previous ≤ s.clock → s.clock < n.out.deadline → Ours w d s (next s.clock)) :
    Ours w d s (n.clock stop (s.qpc failed) next) := by
  rcases n.clock_cases stop failed s next with ⟨error, heq⟩ | ⟨hle, hlt, heq⟩
  · rw [heq]
    exact h.throw hplace error
  · rw [heq]
    exact hnext hle hlt

theorem Ours.step (h : Ours w d s n) (hset : ∀ b, .set b ∈ s.trace → b ≤ s.clock) :
    Ours w d (n.step stop failed s).1 (n.step stop failed s).2 := by
  have hread := h.read
  have hkept : ∀ {n' : Native}, n'.place ≠ .announce →
      n'.out.waiting_before = n.out.waiting_before →
      n'.place = .announce ∨ s.waiting = true → n'.out.waiting_before ≤ s.clock := by
    rintro n' hplace hsame (hannounce | hwaiting)
    · exact absurd hannounce hplace
    · exact hsame ▸ h.begun (.inr hwaiting)
  by_cases hne : n.place = .returned
  · rw [Native.step, hne]
    exact h
  rcases hplace : n.place with _ | _ | _ | _ | _ | _ | _ | _ | status | _ | _ | error
  all_goals
    unfold Native.step
    rw [hplace] at hread ⊢
    dsimp only
  case opened =>
    refine h.clock hne fun hle hlt => ?_
    exact h.move hne rfl rfl ⟨hread ▸ hle, rfl⟩ (by rw [hplace]; rintro ⟨⟩)
      (hkept (by rintro ⟨⟩) rfl) (by rintro ⟨⟩) (by rintro ⟨⟩)
  case freshReady =>
    by_cases hpoll : poll s.ready failed = .kEmpty
    · rw [if_pos hpoll]
      exact h.move hne rfl rfl hread (by rw [hplace]; rintro ⟨⟩) (hkept (by rintro ⟨⟩) rfl)
        (by rintro ⟨⟩) (by rintro ⟨⟩)
    · rw [if_neg hpoll]
      exact h.throw hne _
  case freshWaiting =>
    by_cases hpoll : poll s.waiting failed = .kEmpty
    · rw [if_pos hpoll]
      exact h.move hne rfl rfl hread (by rw [hplace]; rintro ⟨⟩) (hkept (by rintro ⟨⟩) rfl)
        (by rintro ⟨⟩) (by rintro ⟨⟩)
    · rw [if_neg hpoll]
      exact h.throw hne _
  case waiting_before =>
    refine h.clock hne fun hle hlt => ?_
    refine h.move hne rfl rfl ⟨⟨hread.1, hread.2.trans_le hle⟩, rfl⟩ (by rw [hplace]; rintro ⟨⟩)
      (fun _ => le_rfl) (by rintro ⟨⟩) (by rintro ⟨⟩)
  case announce =>
    by_cases hfailed : failed = true
    · rw [if_pos hfailed]
      exact h.throw hne _
    · rw [if_neg hfailed]
      exact {
        window := h.window
        deadline := h.deadline
        read := hread
        late := fun _ => rfl
        begun := fun _ => h.begun (.inl hplace)
        seen := by rintro ⟨⟩
        woken := by rintro ⟨⟩
        evidence := fun e hmem => by
          rcases mem_cons.mp hmem with heq | hmem
          · cases heq
          · exact absurd hmem (h.not_returned hne e) }
  case waiting_after =>
    refine h.clock hne fun hle hlt => ?_
    exact h.move hne rfl rfl ⟨⟨hread.1.1, hread.1.2⟩, hread.2.trans_le hle, le_rfl⟩ (fun _ => rfl)
      (hkept (by rintro ⟨⟩) rfl) (by rintro ⟨⟩) (by rintro ⟨⟩)
  case ready_before =>
    refine h.clock hne fun hle hlt => ?_
    obtain ⟨hopened, hwaiting, hprevious⟩ := hread
    exact h.move hne rfl rfl ⟨⟨hopened.1, hopened.2⟩, hwaiting, hprevious.trans hle, rfl⟩
      (fun _ => rfl) (hkept (by rintro ⟨⟩) rfl) (by rintro ⟨⟩) (by rintro ⟨⟩)
  case ready =>
    refine h.move hne rfl rfl hread (fun _ => rfl) (hkept (by rintro ⟨⟩) rfl) (fun hseen => ?_)
      (by rintro ⟨⟩)
    exact poll_eq_kSignaled (Place.ready_after.inj hseen)
  case ready_after =>
    obtain ⟨hopened, hwaiting, hbefore, hprevious⟩ := hread
    rcases n.clock_cases stop failed s _ with ⟨error, heq⟩ | ⟨hle, hlt, heq⟩
    · rw [heq, if_neg (by rintro ⟨⟩)]
      exact h.throw hne error
    · rw [heq]
      cases status with
      | kFailed =>
        rw [if_neg (by rintro ⟨⟩)]
        exact h.move hne rfl rfl trivial (fun _ => rfl) (hkept (by rintro ⟨⟩) rfl) (by rintro ⟨⟩)
          (by rintro ⟨⟩)
      | kEmpty =>
        rw [if_neg (by rintro ⟨⟩)]
        exact h.move hne rfl rfl
          ⟨⟨hopened.1, hopened.2⟩, hwaiting, (hbefore.trans_eq hprevious).trans hle⟩ (fun _ => rfl)
          (hkept (by rintro ⟨⟩) rfl) (by rintro ⟨⟩) (by rintro ⟨⟩)
      | kSignaled =>
        rw [if_pos rfl]
        exact {
          window := h.window
          deadline := h.deadline
          read := ⟨⟨hopened.1, hopened.2⟩, hwaiting, hbefore, hprevious.trans_le hle, hlt⟩
          late := fun _ => rfl
          begun := hkept (by rintro ⟨⟩) rfl
          seen := by rintro ⟨⟩
          woken := fun _ => ⟨h.seen hplace, fun b hmem => by
            rcases mem_cons.mp hmem with heq | hmem
            · cases heq
            · exact hset b hmem⟩
          evidence := fun e hmem => by
            rcases mem_cons.mp hmem with heq | hmem
            · exact ⟨rfl, Happening.returned.inj heq⟩
            · exact absurd hmem (h.not_returned hne e) }
  case pause =>
    exact h.move hne rfl rfl hread (fun _ => rfl) (hkept (by rintro ⟨⟩) rfl) (by rintro ⟨⟩)
      (by rintro ⟨⟩)
  case returned => exact absurd hplace hne
  case thrown => exact h

/-- What `Wait` may change under the supervisor. -/
structure Kept (s s' : Shared) (waiting_before waiting_before' : Nat) : Prop where
  clock : s.clock ≤ s'.clock
  ready : s'.ready = s.ready
  waiting : s.waiting = true → s'.waiting = true ∧ waiting_before' = waiting_before
  set : ∀ b, .set b ∈ s'.trace ↔ .set b ∈ s.trace
  signalled : ∀ signal, .signalled signal ∈ s'.trace ↔ .signalled signal ∈ s.trace
  announced : s'.waiting = true → .announced ∈ s'.trace

theorem Theirs.keep {s' : Shared} {before before' : Nat} (h : Theirs s v before)
    (hkept : Kept s s' before before') : Theirs s' v before' where
  sent := h.sent.trans hkept.ready.symm
  found := by
    have hfound := h.found
    rcases hplace : v.place with _ | _ | _ | _ | b | b
    all_goals rw [hplace] at hfound
    case idle => trivial
    case asked => exact hfound
    case ready => exact ⟨hfound.1, (hkept.waiting hfound.2).1⟩
    case before => exact ⟨hfound.1, (hkept.waiting hfound.2).1⟩
    case set =>
      obtain ⟨hsent, hwaiting, hle, hclock⟩ := hfound
      obtain ⟨hwaiting', heq⟩ := hkept.waiting hwaiting
      exact ⟨hsent, hwaiting', heq ▸ hle, hclock.trans hkept.clock⟩
    case after =>
      obtain ⟨hsent, hset, hnone⟩ := hfound
      exact ⟨hsent, (hkept.set b).mpr hset, fun signal hmem =>
        hnone signal ((hkept.signalled signal).mp hmem)⟩
  announced := hkept.announced
  was_set hready := by
    obtain ⟨b, hb⟩ := h.was_set (hkept.ready ▸ hready)
    exact ⟨b, (hkept.set b).mpr hb⟩
  set b hmem := by
    obtain ⟨hready, hwaiting, hle, hclock⟩ := h.set b ((hkept.set b).mp hmem)
    obtain ⟨hwaiting', heq⟩ := hkept.waiting hwaiting
    exact ⟨hkept.ready.trans hready, hwaiting', heq ▸ hle, hclock.trans hkept.clock⟩
  unsent hready signal hmem :=
    h.unsent (hkept.ready ▸ hready) signal ((hkept.signalled signal).mp hmem)
  signalled signal hmem := by
    obtain ⟨hset, hle⟩ := h.signalled signal ((hkept.signalled signal).mp hmem)
    exact ⟨(hkept.set _).mpr hset, hle⟩

/-- `Wait` sets its own event and returns, and after the announcement keeps its reading. -/
theorem Native.kept (h : Ours w d s n) (hannounced : s.waiting = true → .announced ∈ s.trace) :
    Kept s (n.step stop failed s).1 n.out.waiting_before
      (n.step stop failed s).2.out.waiting_before := by
  have hsame {before' : Nat} (hbefore : s.waiting = true → before' = n.out.waiting_before) :
      Kept s s n.out.waiting_before before' :=
    ⟨le_rfl, rfl, fun hw => ⟨hw, hbefore hw⟩, fun _ => Iff.rfl, fun _ => Iff.rfl, hannounced⟩
  rcases hplace : n.place with _ | _ | _ | _ | _ | _ | _ | _ | status | _ | _ | error
  all_goals
    unfold Native.step
    rw [hplace]
    dsimp only
  case waiting_before =>
    refine hsame fun hwaiting => ?_
    have hearly := h.late hwaiting
    rw [hplace] at hearly
    cases hearly
  case announce =>
    by_cases hfailed : failed = true
    · rw [if_pos hfailed]
      exact hsame fun _ => rfl
    · rw [if_neg hfailed]
      exact ⟨le_rfl, rfl, fun _ => ⟨rfl, rfl⟩, fun b => by simp, fun signal => by simp,
        fun _ => mem_cons_self⟩
  case ready_after =>
    rcases n.clock_cases stop failed s _ with ⟨error, heq⟩ | ⟨hle, hlt, heq⟩
    · rw [heq, if_neg (by rintro ⟨⟩)]
      exact hsame fun _ => rfl
    · rw [heq]
      split_ifs with hreturned
      · exact ⟨le_rfl, rfl, fun hw => ⟨hw, rfl⟩, fun b => by simp, fun signal => by simp,
          fun hw => mem_cons_of_mem _ (hannounced hw)⟩
      · exact hsame fun _ => rfl
  case freshReady => exact hsame fun _ => by split_ifs <;> rfl
  case freshWaiting => exact hsame fun _ => by split_ifs <;> rfl
  case ready => exact hsame fun _ => rfl
  case pause => exact hsame fun _ => rfl
  case returned => exact hsame fun _ => rfl
  case thrown => exact hsame fun _ => rfl
  all_goals
    rcases n.clock_cases stop failed s _ with ⟨error, heq⟩ | ⟨hle, hlt, heq⟩
    · rw [heq]
      exact hsame fun _ => rfl
    · rw [heq]
      exact hsame fun _ => rfl

theorem Justified.wait (hj : Justified s.trace) (h : Ours w d s n)
    (hset : s.ready = true → ∃ b, .set b ∈ s.trace) : Justified (n.step stop failed s).1.trace := by
  rcases hplace : n.place with _ | _ | _ | _ | _ | _ | _ | _ | status | _ | _ | error
  all_goals
    unfold Native.step
    rw [hplace]
    dsimp only
  case announce =>
    by_cases hfailed : failed = true
    · rw [if_pos hfailed]
      exact hj
    · rw [if_neg hfailed]
      exact hj
  case ready_after =>
    split_ifs with hreturned
    · -- only a poll that saw the event set ends the loop
      have hseen : status = .kSignaled := by
        rcases n.clock_cases stop failed s _ with ⟨error, heq⟩ | ⟨hle, hlt, heq⟩
        · rw [heq] at hreturned
          cases hreturned
        · rw [heq] at hreturned
          cases status <;> first | rfl | cases hreturned
      exact ⟨hset (h.seen (hseen ▸ hplace)), hj⟩
    · exact hj
  all_goals exact hj

end Wait

/-! ### Steps of the supervisor -/

section Supervisor
variable {w : Window} {d : UInt64} {s : Shared} {n : Native} {v : NativeEvents} {failed : Bool}
  {before : Nat}

theorem qpc_eq_some {reading : Nat} (h : s.qpc failed = some reading) : reading = s.clock := by
  unfold Shared.qpc at h
  split_ifs at h
  exact (Option.some.inj h).symm

theorem Theirs.enter (h : Theirs s v before) (call : Call) : Theirs s (v.enter call) before := by
  unfold NativeEvents.enter
  split_ifs with hsent
  · exact h
  · exact ⟨h.sent, Bool.eq_false_iff.mpr hsent, h.announced, h.was_set, h.set, h.unsent,
      h.signalled⟩

/-- A call that ends, with or without an answer. -/
theorem Theirs.idle (h : Theirs s v before) : Theirs s { v with place := .idle } before :=
  ⟨h.sent, trivial, h.announced, h.was_set, h.set, h.unsent, h.signalled⟩

theorem Theirs.step (h : Theirs s v before) (hbegun : s.waiting = true → before ≤ s.clock) :
    Theirs (v.step failed s).1 (v.step failed s).2 before := by
  have hfound := h.found
  rcases hplace : v.place with _ | call | _ | _ | b | b
  all_goals
    unfold NativeEvents.step
    rw [hplace] at hfound ⊢
  case idle => exact h
  case asked =>
    cases call with
    | waiting => exact h.idle
    | signal =>
      dsimp only
      by_cases hpoll : poll s.waiting failed = .kSignaled
      · rw [if_pos hpoll]
        exact ⟨h.sent, ⟨hfound, poll_eq_kSignaled hpoll⟩, h.announced, h.was_set, h.set, h.unsent,
          h.signalled⟩
      · rw [if_neg hpoll]
        exact h.idle
  case ready =>
    dsimp only
    by_cases hpoll : poll s.ready failed = .kEmpty
    · rw [if_pos hpoll]
      exact ⟨h.sent, hfound, h.announced, h.was_set, h.set, h.unsent, h.signalled⟩
    · rw [if_neg hpoll]
      exact h.idle
  case before =>
    dsimp only
    rcases hqpc : s.qpc failed with _ | reading
    · exact h.idle
    · have hreading := qpc_eq_some hqpc
      exact ⟨h.sent, ⟨hfound.1, hfound.2, hreading ▸ hbegun hfound.2, hreading.le⟩, h.announced,
        h.was_set, h.set, h.unsent, h.signalled⟩
  case set =>
    obtain ⟨hsent, hwaiting, hle, hclock⟩ := hfound
    dsimp only
    by_cases hfailed : failed = true
    · rw [if_pos hfailed]
      exact h.idle
    · rw [if_neg hfailed]
      have hnone := h.unsent (h.sent ▸ hsent)
      exact {
        sent := rfl
        found := ⟨rfl, mem_cons_self, fun signal hmem => by
          rcases mem_cons.mp hmem with heq | hmem
          · cases heq
          · exact hnone signal hmem⟩
        announced := fun hw => mem_cons_of_mem _ (h.announced hw)
        was_set := fun _ => ⟨b, mem_cons_self⟩
        set := fun b' hmem => by
          rcases mem_cons.mp hmem with heq | hmem
          · cases heq
            exact ⟨rfl, hwaiting, hle, hclock⟩
          · exact ⟨rfl, (h.set b' hmem).2⟩
        unsent := by rintro ⟨⟩
        signalled := fun signal hmem => by
          rcases mem_cons.mp hmem with heq | hmem
          · cases heq
          · exact absurd hmem (hnone signal) }
  case after =>
    obtain ⟨hsent, hset, hnone⟩ := hfound
    dsimp only
    rcases hqpc : s.qpc failed with _ | reading
    · exact h.idle
    · dsimp only
      by_cases hafter : b ≤ reading
      · rw [if_pos hafter]
        exact {
          sent := h.sent
          found := trivial
          announced := fun hw => mem_cons_of_mem _ (h.announced hw)
          was_set := fun _ => ⟨b, mem_cons_of_mem _ hset⟩
          set := fun b' hmem => by
            rcases mem_cons.mp hmem with heq | hmem
            · cases heq
            · exact h.set b' hmem
          unsent := fun hready => by
            have hready : s.ready = false := hready
            rw [← h.sent, hsent] at hready
            cases hready
          signalled := fun signal hmem => by
            rcases mem_cons.mp hmem with heq | hmem
            · cases heq
              exact ⟨mem_cons_of_mem _ hset, hafter⟩
            · exact absurd hmem (hnone signal) }
      · rw [if_neg hafter]
        exact h.idle

/-- What a step of the supervisor does to the shared state: nothing, or it sets the event, or it
writes the signal down. -/
theorem NativeEvents.shared_cases (failed : Bool) (s : Shared) (v : NativeEvents) :
    (v.step failed s).1 = s ∨
    (∃ b, v.place = .set b ∧
      (v.step failed s).1 = { s with ready := true, trace := .set b :: s.trace }) ∨
    ∃ b after, v.place = .after b ∧ b ≤ after ∧
      (v.step failed s).1 = { s with trace := .signalled ⟨b, after⟩ :: s.trace } := by
  rcases hplace : v.place with _ | call | _ | _ | b | b
  all_goals
    unfold NativeEvents.step
    rw [hplace]
  case idle => exact .inl rfl
  case asked => cases call <;> exact .inl rfl
  case ready => exact .inl rfl
  case before =>
    dsimp only
    cases s.qpc failed <;> exact .inl rfl
  case set =>
    dsimp only
    split_ifs
    · exact .inl rfl
    · exact .inr (.inl ⟨b, rfl, rfl⟩)
  case after =>
    dsimp only
    cases s.qpc failed with
    | none => exact .inl rfl
    | some after =>
      dsimp only
      split_ifs with hafter
      · exact .inr (.inr ⟨b, after, rfl, hafter, rfl⟩)
      · exact .inl rfl

/-- What the supervisor may change under `Wait`. -/
theorem Ours.supervise (h : Ours w d s n) (ht : Theirs s v before) :
    Ours w d (v.step failed s).1 n := by
  have hfound := ht.found
  obtain heq | ⟨b, hplace, heq⟩ | ⟨b, after, hplace, -, heq⟩ := v.shared_cases failed s
  · rw [heq]
    exact h
  · rw [heq]
    rw [hplace] at hfound
    -- a waiter that has returned saw the event set, and then nothing sets it again
    have hnot : n.place ≠ .returned := fun hreturned => by
      have hready := (h.woken hreturned).1
      rw [← ht.sent, hfound.1] at hready
      cases hready
    exact {
      window := h.window
      deadline := h.deadline
      read := h.read
      late := h.late
      begun := h.begun
      seen := fun _ => rfl
      woken := fun hreturned => absurd hreturned hnot
      evidence := fun e hmem => by
        rcases mem_cons.mp hmem with heq | hmem
        · cases heq
        · exact h.evidence e hmem }
  · rw [heq]
    exact {
      window := h.window
      deadline := h.deadline
      read := h.read
      late := h.late
      begun := h.begun
      seen := h.seen
      woken := fun hreturned => ⟨(h.woken hreturned).1, fun b' hmem => by
        rcases mem_cons.mp hmem with heq | hmem
        · cases heq
        · exact (h.woken hreturned).2 b' hmem⟩
      evidence := fun e hmem => by
        rcases mem_cons.mp hmem with heq | hmem
        · cases heq
        · exact h.evidence e hmem }

theorem Justified.supervise (hj : Justified s.trace) (h : Theirs s v before) :
    Justified (v.step failed s).1.trace := by
  have hfound := h.found
  obtain heq | ⟨b, hplace, heq⟩ | ⟨b, after, hplace, -, heq⟩ := v.shared_cases failed s
  · rw [heq]
    exact hj
  · rw [hplace] at hfound
    rw [heq]
    exact ⟨h.announced hfound.2.1, hj⟩
  · rw [hplace] at hfound
    obtain ⟨-, hset, hnone⟩ := hfound
    rw [heq]
    exact ⟨h.announced (h.set b hset).2.1, hset, hnone, hj⟩

end Supervisor

/-! ### Runs -/

section Runs
variable {w : Window} {d : UInt64} {z z' : System}

theorem sound_start (clock : Nat) : Sound w d ⟨{ clock := clock }, .start w d, {}⟩ where
  ours := {
    window := rfl
    deadline := rfl
    read := rfl
    late := by rintro ⟨⟩
    begun := by rintro (h | h) <;> cases h
    seen := by rintro ⟨⟩
    woken := by rintro ⟨⟩
    evidence := fun e hmem => absurd hmem not_mem_nil }
  theirs := {
    sent := rfl
    found := trivial
    announced := by rintro ⟨⟩
    was_set := by rintro ⟨⟩
    set := fun b hmem => absurd hmem not_mem_nil
    unsent := fun _ signal hmem => absurd hmem not_mem_nil
    signalled := fun signal hmem => absurd hmem not_mem_nil }
  justified := trivial

theorem Sound.step (h : Sound w d z) (hstep : Step z z') : Sound w d z' := by
  obtain ⟨hours, htheirs, hjustified⟩ := h
  have hbegun : z.shared.waiting = true → z.native.out.waiting_before ≤ z.shared.clock :=
    fun hw => hours.begun (.inr hw)
  cases hstep with
  | tick clock hle =>
    have hkept : Kept z.shared { z.shared with clock := clock } z.native.out.waiting_before
        z.native.out.waiting_before :=
      ⟨hle, rfl, fun hw => ⟨hw, rfl⟩, fun _ => Iff.rfl, fun _ => Iff.rfl, htheirs.announced⟩
    refine ⟨?_, htheirs.keep hkept, hjustified⟩
    exact ⟨hours.window, hours.deadline, hours.read, hours.late,
      fun hplace => (hours.begun hplace).trans hle, hours.seen, hours.woken, hours.evidence⟩
  | native stop failed =>
    exact ⟨hours.step fun b hmem => (htheirs.set b hmem).2.2.2,
      htheirs.keep (Native.kept hours htheirs.announced), hjustified.wait hours htheirs.was_set⟩
  | call call _ => exact ⟨hours, htheirs.enter call, hjustified⟩
  | events failed =>
    exact ⟨hours.supervise htheirs, htheirs.step hbegun, hjustified.supervise htheirs⟩

theorem Reachable.sound (h : Reachable w d z) : Sound w d z := by
  induction h with
  | start clock => exact sound_start clock
  | step _ hstep ih => exact ih.step hstep

/-- The clocks of a run, in the offline check. -/
theorem Sound.validateClocks (h : Sound w d z) (hd : deadline w = .ok d) {e : Evidence}
    {signal : Signal} {observation : Nat} (he : .returned e ∈ z.shared.trace)
    (hs : .signalled signal ∈ z.shared.trace) (hafter : signal.signal_after_qpc < d.toNat)
    (hsource : validateSource e observation = .ok ()) :
    validateClocks (sidecar e observation) signal.signal_before_qpc signal.signal_after_qpc =
      .ok () := by
  obtain ⟨hours, htheirs, -⟩ := h
  obtain ⟨-, hhorizon⟩ := deadline_ok hd
  obtain ⟨hplace, rfl⟩ := hours.evidence e he
  have hordered := hours.read
  rw [hplace] at hordered
  obtain ⟨hset, hbracket⟩ := htheirs.signalled signal hs
  have hwoken := (hours.woken hplace).2 _ hset
  have hwaited := (htheirs.set _ hset).2.2.1
  obtain ⟨hsource, hsource'⟩ := need_ok.mp hsource
  obtain ⟨hfrequency, hbegin, hend, hdeadline, hfits⟩ := hhorizon
  rw [← hours.window] at hfrequency hbegin hend hdeadline hfits
  rw [← hours.deadline] at hafter hdeadline
  obtain ⟨⟨hopened, hbefore⟩, hwaiting, hready, hread, hbelow⟩ := hordered
  refine check_ok.mpr ⟨need_ok.mpr ?_, check_ok.mpr ⟨need_ok.mpr ?_,
    check_ok.mpr ⟨need_ok.mpr ?_, need_ok.mpr ?_⟩⟩⟩
  · simp only [sidecar, Sidecar.numbers, forall_mem_cons]
    refine ⟨?_, ?_, ?_, ?_, ?_, ?_, ?_, ?_, ?_, ?_, fun x hx => absurd hx not_mem_nil⟩
    all_goals omega
  · simp only [sidecar]
    omega
  · simp only [sidecar, Sidecar.keys, tail_cons, zip_cons_cons, zip_nil_right, forall_mem_cons]
    refine ⟨⟨?_, ?_, ?_, ?_, ?_, ?_, fun x hx => absurd hx not_mem_nil⟩, ?_⟩
    all_goals omega
  · simp only [sidecar]
    omega

/-- And an accepted cut. -/
theorem Sound.validateFreeze (h : Sound w d z) (hd : deadline w = .ok d) {e : Evidence}
    {observation cut : Nat} (he : .returned e ∈ z.shared.trace)
    (hcut : validateCut e cut = .ok ()) : validateFreeze (sidecar e observation) cut = .ok () := by
  obtain ⟨hours, -, -⟩ := h
  obtain ⟨-, hhorizon⟩ := deadline_ok hd
  obtain ⟨hplace, rfl⟩ := hours.evidence e he
  have hordered := hours.read
  rw [hplace] at hordered
  obtain ⟨hcut, hcut'⟩ := need_ok.mp hcut
  obtain ⟨-, hbegin, -, -, hfits⟩ := hhorizon
  rw [← hours.window] at hbegin hfits
  obtain ⟨⟨hopened, hbefore⟩, hwaiting, hready, hread, -⟩ := hordered
  refine check_ok.mpr ⟨need_ok.mpr ?_, need_ok.mpr ?_⟩
  · omega
  · simp only [sidecar]
    omega

end Runs

/-- **The handshake.**  Whatever the interleaving, on a window that `Deadline` accepts: nothing
wraps; a signal succeeds once at most and after the announcement, and evidence is returned after an
event was set; the readings of the evidence are in order and below the deadline; and if the signal
ended below it too, evidence and signal pass the offline check of the clocks, as an accepted cut
passes its own. -/
theorem handshake (w : Window) (d : UInt64) (hd : deadline w = .ok d) (z : System)
    (h : Reachable w d z) :
    NoWrap w ∧ Justified z.shared.trace ∧
      (∀ e, .returned e ∈ z.shared.trace → e.window = w ∧ e.deadline = d.toNat ∧ e.Ordered) ∧
      (∀ e signal observation, .returned e ∈ z.shared.trace → .signalled signal ∈ z.shared.trace →
        signal.signal_after_qpc < d.toNat → validateSource e observation = .ok () →
        validateClocks (sidecar e observation) signal.signal_before_qpc signal.signal_after_qpc =
          .ok ()) ∧
      ∀ e observation cut, .returned e ∈ z.shared.trace → validateCut e cut = .ok () →
        validateFreeze (sidecar e observation) cut = .ok () := by
  have hsound := h.sound
  refine ⟨(deadline_ok hd).1, hsound.justified, fun e he => ?_,
    fun e signal observation he hs hafter hsource => hsound.validateClocks hd he hs hafter hsource,
    fun e observation cut he hcut => hsound.validateFreeze hd he hcut⟩
  obtain ⟨hplace, rfl⟩ := hsound.ours.evidence e he
  have hread := hsound.ours.read
  rw [hplace] at hread
  exact ⟨hsound.ours.window, hsound.ours.deadline, hread⟩

/-- A session in which the waiter wakes before the supervisor reads the clock again. -/
def wokenFirst : List Move :=
  [.native, .native, .native, .tick 2, .native, .native, .native, .native, .call .signal, .events,
    .events, .tick 3, .events, .events, .native, .tick 4, .native, .tick 5, .events]

theorem handshake_wokenFirst :
    validateClocks (sidecar ⟨⟨1, 1801, 10⟩, 1201, 1, 2, 2, 2, 4⟩ 4) 3 5 = .ok () :=
  (handshake ⟨1, 1801, 10⟩ 1201 (by decide) _ ((Reachable.start 1).moves wokenFirst)).2.2.2.1
    ⟨⟨1, 1801, 10⟩, 1201, 1, 2, 2, 2, 4⟩ ⟨3, 5⟩ 4 (by decide) (by decide) (by decide) (by decide)

end Mcla.OwnerReady
