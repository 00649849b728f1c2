import Mathlib

/-! # The log of a handle

What is done with a handle, in the order it is done.  A log is proper if every use and every close
comes while the handle is open, and every attempt to open it while it is not (`Proper`).  An
automaton with two states accepts the proper logs and knows whether the handle is open at the end
(`run_eq_some`), so that a component which keeps a flag for the handle is right as long as its flag
is the state of the automaton (`Tracks`).
-/
namespace HandleLog
open List

/-- What happens to a handle. -/
inductive Event where
  | opened (ok : Bool)
  | used
  | closed
deriving DecidableEq

/-- The handle was opened and has not been closed since. -/
def IsOpen (log : List Event) : Prop := ∃ l r, log = l ++ .opened true :: r ∧ .closed ∉ r

/-- What may be done after a log. -/
def Allowed (log : List Event) : Event → Prop
  | .opened _ => ¬IsOpen log
  | .used => IsOpen log
  | .closed => IsOpen log

/-- Each event is allowed after those before it. -/
def Proper (log : List Event) : Prop :=
  ∀ before e after, log = before ++ e :: after → Allowed before e

/-- The handle after an event, if the event is allowed. -/
def next : Bool → Event → Option Bool
  | false, .opened ok => some ok
  | true, .used => some true
  | true, .closed => some false
  | _, _ => none

/-- The handle after a log. -/
def run (log : List Event) : Option Bool := log.foldlM next false

/-- A flag that says whether the handle is open, after a proper log. -/
def Tracks (log : List Event) (flag : Bool) : Prop := run log = some flag

/-! ### One event more -/

theorem not_isOpen_nil : ¬IsOpen [] := by
  rintro ⟨l, r, heq, -⟩
  exact absurd heq.symm (append_ne_nil_of_right_ne_nil _ (cons_ne_nil _ _))

theorem isOpen_opened (log : List Event) : IsOpen (log ++ [.opened true]) :=
  ⟨log, [], rfl, not_mem_nil⟩

theorem not_isOpen_closed (log : List Event) : ¬IsOpen (log ++ [.closed]) := by
  rintro ⟨l, r, heq, hr⟩
  rcases eq_nil_or_concat' r with rfl | ⟨r, e, rfl⟩
  · obtain ⟨-, he⟩ := append_inj' heq rfl
    cases he
  · rw [← cons_append, ← append_assoc] at heq
    obtain ⟨-, he⟩ := append_inj' heq rfl
    cases he
    exact hr (mem_append_right _ (mem_singleton_self _))

variable {log : List Event}

theorem isOpen_other {e : Event} (hopened : e ≠ .opened true) (hclosed : e ≠ .closed) :
    IsOpen (log ++ [e]) ↔ IsOpen log := by
  constructor
  · rintro ⟨l, r, heq, hr⟩
    rcases eq_nil_or_concat' r with rfl | ⟨r, f, rfl⟩
    · obtain ⟨-, he⟩ := append_inj' heq rfl
      exact absurd (List.cons.inj he).1 hopened
    · rw [← cons_append, ← append_assoc] at heq
      obtain ⟨hlog, -⟩ := append_inj' heq rfl
      exact ⟨l, r, hlog, fun hmem => hr (mem_append_left _ hmem)⟩
  · rintro ⟨l, r, rfl, hr⟩
    refine ⟨l, r ++ [e], ?_, ?_⟩
    · rw [append_assoc, cons_append]
    · rw [mem_append, mem_singleton]
      exact fun hmem => hmem.elim hr fun heq => hclosed heq.symm

theorem proper_nil : Proper [] := by
  intro before e after heq
  exact absurd heq.symm (append_ne_nil_of_right_ne_nil _ (cons_ne_nil _ _))

theorem proper_snoc {e : Event} : Proper (log ++ [e]) ↔ Proper log ∧ Allowed log e := by
  constructor
  · intro h
    refine ⟨fun before f after heq => h before f (after ++ [e]) ?_, h log e [] rfl⟩
    rw [heq, append_assoc, cons_append]
  · rintro ⟨h, hlast⟩ before f after heq
    rcases eq_nil_or_concat' after with rfl | ⟨after, g, rfl⟩
    · obtain ⟨rfl, he⟩ := append_inj' heq rfl
      cases he
      exact hlast
    · rw [← cons_append, ← append_assoc] at heq
      obtain ⟨hlog, -⟩ := append_inj' heq rfl
      exact h before f after hlog

theorem run_snoc (log : List Event) (e : Event) : run (log ++ [e]) = (run log).bind (next · e) := by
  rw [run, foldlM_append]
  cases hrun : List.foldlM next false log with
  | none => rw [run, hrun]; rfl
  | some isOpen =>
    rw [run, hrun]
    change List.foldlM next isOpen [e] = next isOpen e
    cases hnext : next isOpen e with
    | none => simp [hnext]
    | some after => simp [hnext]

/-- **The automaton** accepts the proper logs, and knows whether the handle is open. -/
theorem run_eq_some (log : List Event) (flag : Bool) :
    run log = some flag ↔ Proper log ∧ (flag = true ↔ IsOpen log) := by
  induction log using reverseRecOn generalizing flag with
  | nil =>
    rw [iff_false_right not_isOpen_nil]
    cases flag with
    | false => exact ⟨fun _ => ⟨proper_nil, Bool.false_ne_true⟩, fun _ => rfl⟩
    | true => exact ⟨fun h => (by cases h), fun h => absurd rfl h.2⟩
  | append_singleton log e ih =>
    rw [run_snoc, proper_snoc, Option.bind_eq_some_iff]
    constructor
    · rintro ⟨isOpen, hrun, hnext⟩
      obtain ⟨hproper, hopen⟩ := (ih isOpen).mp hrun
      cases isOpen with
      | false =>
        have hshut : ¬IsOpen log := fun h => Bool.false_ne_true (hopen.mpr h)
        cases e with
        | opened ok =>
          cases hnext
          refine ⟨⟨hproper, hshut⟩, ?_⟩
          cases flag with
          | false => rw [isOpen_other (by decide) (by decide), iff_false_right hshut]; decide
          | true => exact iff_of_true rfl (isOpen_opened log)
        | used => cases hnext
        | closed => cases hnext
      | true =>
        have hopen' : IsOpen log := hopen.mp rfl
        cases e with
        | opened ok => cases hnext
        | used =>
          cases hnext
          refine ⟨⟨hproper, hopen'⟩, iff_of_true rfl ?_⟩
          exact (isOpen_other (by decide) (by decide)).mpr hopen'
        | closed =>
          cases hnext
          exact ⟨⟨hproper, hopen'⟩, iff_of_false Bool.false_ne_true (not_isOpen_closed log)⟩
    · rintro ⟨⟨hproper, hallowed⟩, hflag⟩
      cases e with
      | opened ok =>
        refine ⟨false, (ih false).mpr ⟨hproper, iff_of_false Bool.false_ne_true hallowed⟩, ?_⟩
        cases ok with
        | false =>
          rw [isOpen_other (by decide) (by decide)] at hflag
          rw [Bool.eq_false_iff.mpr fun h => hallowed (hflag.mp h)]
          rfl
        | true =>
          rw [hflag.mpr (isOpen_opened log)]
          rfl
      | used =>
        refine ⟨true, (ih true).mpr ⟨hproper, iff_of_true rfl hallowed⟩, ?_⟩
        rw [hflag.mpr ((isOpen_other (by decide) (by decide)).mpr hallowed)]
        rfl
      | closed =>
        refine ⟨true, (ih true).mpr ⟨hproper, iff_of_true rfl hallowed⟩, ?_⟩
        rw [Bool.eq_false_iff.mpr fun h => not_isOpen_closed log (hflag.mp h)]
        rfl

/-! ### The flag of a component -/

theorem Tracks.proper {flag : Bool} (h : Tracks log flag) : Proper log :=
  ((run_eq_some log flag).mp h).1

theorem Tracks.isOpen {flag : Bool} (h : Tracks log flag) :
    flag = true ↔ IsOpen log := ((run_eq_some log flag).mp h).2

theorem tracks_nil : Tracks [] false := rfl

theorem Tracks.opened (h : Tracks log false) (ok : Bool) : Tracks (log ++ [.opened ok]) ok := by
  rw [Tracks, run_snoc, h]
  rfl

theorem Tracks.used (h : Tracks log true) : Tracks (log ++ [.used]) true := by
  rw [Tracks, run_snoc, h]
  rfl

theorem Tracks.closed (h : Tracks log true) : Tracks (log ++ [.closed]) false := by
  rw [Tracks, run_snoc, h]
  rfl

/-- A use of a handle that is not open spoils the log. -/
theorem Tracks.not_proper_used {log longer : List Event} (h : Tracks log false)
    (hused : log ++ [.used] <+: longer) : ¬Proper longer := by
  obtain ⟨more, rfl⟩ := hused
  intro hproper
  have hopen : IsOpen log := hproper log .used more (append_assoc _ _ _)
  exact Bool.false_ne_true (h.isOpen.mpr hopen)

theorem Proper.of_longer {log longer : List Event} (h : Proper longer) (hlonger : log <+: longer) :
    Proper log := by
  obtain ⟨more, rfl⟩ := hlonger
  intro before e after heq
  refine h before e (after ++ more) ?_
  rw [heq, append_assoc, cons_append]

/-- A handle as its owner has it: what was done with it, and a flag. -/
structure Handle where
  log : List Event
  is_open : Bool

namespace Handle
variable {h h' h'' : Handle}

/-- The flag is right. -/
def Sound (h : Handle) : Prop := Tracks h.log h.is_open

/-- An attempt to open the handle. -/
def opened (h : Handle) (ok : Bool) : Handle := ⟨h.log ++ [.opened ok], ok⟩

/-- The handle is used. -/
def used (h : Handle) : Handle := ⟨h.log ++ [.used], h.is_open⟩

/-- The handle is closed. -/
def closed (h : Handle) : Handle := ⟨h.log ++ [.closed], false⟩

/-- A close that asks the flag first. -/
def stopped (h : Handle) : Handle := if h.is_open then h.closed else h

/-- The owner's call leaves a sound handle sound. -/
structure Keeps (h h' : Handle) : Prop where
  log : h.log <+: h'.log
  sound : h.Sound → h'.Sound

/-- The owner's call uses the handle before anything else, and leaves a sound and open handle
sound. -/
structure Uses (h h' : Handle) : Prop where
  log : h.used.log <+: h'.log
  sound : h.Sound → h.is_open = true → h'.Sound

theorem Keeps.refl (h : Handle) : h.Keeps h := ⟨prefix_refl _, id⟩

theorem Keeps.trans (hfirst : h.Keeps h') (hsecond : h'.Keeps h'') : h.Keeps h'' :=
  ⟨hfirst.log.trans hsecond.log, fun hsound => hsecond.sound (hfirst.sound hsound)⟩

theorem Uses.keeps (hfirst : h.Uses h') (hsecond : h'.Keeps h'') : h.Uses h'' :=
  ⟨hfirst.log.trans hsecond.log, fun hsound hopen => hsecond.sound (hfirst.sound hsound hopen)⟩

/-- A use is harmless while the handle is open. -/
theorem Uses.keeps_of_open (huses : h.Uses h') (hopen : h.is_open = true) : h.Keeps h' :=
  ⟨(prefix_append _ _).trans huses.log, fun hsound => huses.sound hsound hopen⟩

theorem Sound.used (hsound : h.Sound) (hopen : h.is_open = true) : h.used.Sound := by
  rw [Sound, hopen] at hsound
  rw [Sound, Handle.used, hopen]
  exact Tracks.used hsound

theorem Sound.closed (hsound : h.Sound) (hopen : h.is_open = true) : h.closed.Sound := by
  rw [Sound, hopen] at hsound
  exact Tracks.closed hsound

theorem uses_used (h : Handle) : h.Uses h.used :=
  ⟨prefix_refl _, fun hsound hopen => hsound.used hopen⟩

theorem Uses.used (huses : h.Uses h') (hopen : h'.is_open = h.is_open) : h.Uses h'.used :=
  ⟨huses.log.trans (prefix_append _ _),
    fun hsound hflag => (huses.sound hsound hflag).used (hopen.trans hflag)⟩

theorem Uses.closed (huses : h.Uses h') (hopen : h'.is_open = h.is_open) : h.Uses h'.closed :=
  ⟨huses.log.trans (prefix_append _ _),
    fun hsound hflag => (huses.sound hsound hflag).closed (hopen.trans hflag)⟩

theorem keeps_opened (hshut : h.is_open = false) (ok : Bool) : h.Keeps (h.opened ok) := by
  refine ⟨prefix_append _ _, fun hsound => ?_⟩
  rw [Sound, hshut] at hsound
  exact Tracks.opened hsound ok

theorem stopped_is_open (h : Handle) : h.stopped.is_open = false := by
  rw [stopped]
  by_cases hopen : h.is_open = true
  · rw [if_pos hopen]
    rfl
  · rw [if_neg hopen]
    exact Bool.eq_false_iff.mpr hopen

theorem keeps_stopped (h : Handle) : h.Keeps h.stopped := by
  rw [stopped]
  by_cases hopen : h.is_open = true
  · rw [if_pos hopen]
    exact ⟨prefix_append _ _, fun hsound => hsound.closed hopen⟩
  · rw [if_neg hopen]
    exact Keeps.refl h

/-- A proper log whose flag is right is closed by the last stop, and no log gets better by it. -/
theorem released_iff (hsound : Proper h.log → h.Sound) :
    Proper h.stopped.log ∧ ¬IsOpen h.stopped.log ↔ Proper h.log := by
  constructor
  · exact fun hreleased => hreleased.1.of_longer (keeps_stopped h).log
  · intro hproper
    have hstopped : Tracks h.stopped.log h.stopped.is_open :=
      (keeps_stopped h).sound (hsound hproper)
    rw [stopped_is_open] at hstopped
    exact ⟨hstopped.proper, fun hopen => Bool.false_ne_true (hstopped.isOpen.mpr hopen)⟩

end Handle

/-! ### Runs of a component -/

section Runs
variable {S C : Type} {step : S → C → S} {start : S} {P Sound : S → Prop} {bad : S → C → Prop}

/-- **A property of runs that a bad call spoils for good** holds of a run if and only if none of its
calls is bad. -/
theorem holds_iff_no_bad (hstart : Sound start) (hsound : ∀ {s}, Sound s → P s)
    (hback : ∀ {s} c, P (step s c) → P s) (hgood : ∀ {s c}, Sound s → ¬bad s c → Sound (step s c))
    (hbad : ∀ {s c}, Sound s → bad s c → ¬P (step s c)) (calls : List C) :
    (P (calls.foldl step start) ↔
      ∀ before c after, calls = before ++ c :: after → ¬bad (before.foldl step start) c) ∧
    (P (calls.foldl step start) → Sound (calls.foldl step start)) := by
  induction calls using reverseRecOn with
  | nil =>
    refine ⟨iff_of_true (hsound hstart) fun before c after heq => ?_, fun _ => hstart⟩
    exact absurd heq.symm (append_ne_nil_of_right_ne_nil _ (cons_ne_nil _ _))
  | append_singleton calls call ih =>
    obtain ⟨hiff, hkeeps⟩ := ih
    rw [foldl_append, foldl_cons, foldl_nil]
    refine ⟨⟨fun h before c after heq => ?_, fun h => ?_⟩, fun h => ?_⟩
    · rcases eq_nil_or_concat' after with rfl | ⟨after, d, rfl⟩
      · obtain ⟨rfl, hc⟩ := append_inj' heq rfl
        cases hc
        exact fun hcall => hbad (hkeeps (hback call h)) hcall h
      · rw [← cons_append, ← append_assoc] at heq
        obtain ⟨hcalls, -⟩ := append_inj' heq rfl
        exact hiff.mp (hback call h) before c after hcalls
    · have hbefore : P (calls.foldl step start) := hiff.mpr fun before c after heq =>
        h before c (after ++ [call]) (by rw [heq, append_assoc, cons_append])
      exact hsound (hgood (hkeeps hbefore) (h calls call [] rfl))
    · by_cases hcall : bad (calls.foldl step start) call
      · exact absurd h (hbad (hkeeps (hback call h)) hcall)
      · exact hgood (hkeeps (hback call h)) hcall

/-- **A component that either keeps its handle or uses it** has a proper log, closed by the last
stop, if and only if each of its uses finds the flag set. -/
theorem released_run_iff {handle : S → Handle} (uses : S → C → Prop) (hstart : (handle start).Sound)
    (hkeeps : ∀ s c, ¬uses s c → (handle s).Keeps (handle (step s c)))
    (huses : ∀ s c, uses s c → (handle s).Uses (handle (step s c))) (calls : List C) :
    Proper (handle (calls.foldl step start)).stopped.log ∧
        ¬IsOpen (handle (calls.foldl step start)).stopped.log ↔
      ∀ before c after, calls = before ++ c :: after → uses (before.foldl step start) c →
        (handle (before.foldl step start)).is_open = true := by
  have hrun := @holds_iff_no_bad S C step start (fun s => Proper (handle s).log)
    (fun s => (handle s).Sound) (fun s c => uses s c ∧ (handle s).is_open = false) hstart
    (fun hsound => Tracks.proper hsound) ?hback ?hgood ?hbad calls
  case hback =>
    intro s c hproper
    by_cases hcall : uses s c
    · exact hproper.of_longer ((prefix_append _ _).trans (huses s c hcall).log)
    · exact hproper.of_longer (hkeeps s c hcall).log
  case hgood =>
    intro s c hsound hcall
    by_cases huse : uses s c
    · exact (huses s c huse).sound hsound (Bool.not_eq_false _ ▸ fun hshut => hcall ⟨huse, hshut⟩)
    · exact (hkeeps s c huse).sound hsound
  case hbad =>
    rintro s c hsound ⟨huse, hshut⟩
    rw [Handle.Sound, hshut] at hsound
    exact hsound.not_proper_used (huses s c huse).log
  rw [Handle.released_iff hrun.2, hrun.1]
  constructor
  · intro hall before c after heq huse
    rw [← Bool.not_eq_false]
    exact fun hshut => hall before c after heq ⟨huse, hshut⟩
  · rintro hall before c after heq ⟨huse, hshut⟩
    rw [hall before c after heq huse] at hshut
    cases hshut

end Runs

/-! ### A sampled source -/

/-- A call of the owner of a source that is started, sampled and stopped. -/
inductive Call (α : Type) where
  | start (arguments : α)
  | sample
  | stop

/-- The last of the starts and stops is a stop. -/
def stoppedLast {α : Type} (calls : List (Call α)) : Bool :=
  calls.foldl (fun last call => match call with
    | .start _ => false
    | .sample => last
    | .stop => true) false

/-- What a source does with its handle.  A source that is live takes its handle to be open, and uses
it at some of the samples. -/
structure Lifecycle {S α : Type} (step : S → Call α → S) (handle : S → Handle)
    (live uses : S → Prop) : Prop where
  start_keeps : ∀ s a, (handle s).Keeps (handle (step s (.start a)))
  start_live : ∀ s a, live (step s (.start a)) → (handle (step s (.start a))).is_open = true
  stop : ∀ s, handle (step s .stop) = (handle s).stopped
  sample_uses : ∀ s, uses s → (handle s).Uses (handle (step s .sample))
  sample_other : ∀ s, ¬uses s → handle (step s .sample) = handle s
  sample_opens : ∀ s, (handle (step s .sample)).is_open = true → (handle s).is_open = true
  sample_live : ∀ s, live (step s .sample) →
    live s ∧ (handle (step s .sample)).is_open = (handle s).is_open
  uses_live : ∀ s, uses s → live s

namespace Lifecycle
variable {S α : Type} {step : S → Call α → S} {handle : S → Handle} {live uses : S → Prop}

/-- The flag of a live source is set exactly while it is not stopped. -/
theorem is_open_of_live (h : Lifecycle step handle live uses) {start : S}
    (hshut : (handle start).is_open = false) (hidle : ¬live start) (calls : List (Call α)) :
    (stoppedLast calls = true → (handle (calls.foldl step start)).is_open = false) ∧
      (stoppedLast calls = false → live (calls.foldl step start) →
        (handle (calls.foldl step start)).is_open = true) := by
  induction calls using reverseRecOn with
  | nil => exact ⟨fun _ => hshut, fun _ hlive => absurd hlive hidle⟩
  | append_singleton calls call ih =>
    rw [stoppedLast, foldl_append, foldl_append]
    change (_ = true → (handle (step _ call)).is_open = false) ∧
      (_ = false → live (step _ call) → (handle (step _ call)).is_open = true)
    cases call with
    | start a => exact ⟨fun hlast => absurd hlast Bool.false_ne_true, fun _ => h.start_live _ a⟩
    | stop =>
      refine ⟨fun _ => ?_, fun hlast _ => absurd hlast.symm Bool.false_ne_true⟩
      rw [h.stop]
      exact Handle.stopped_is_open _
    | sample =>
      -- a sample neither opens the handle nor brings a source to life
      refine ⟨fun hlast => ?_, fun hlast hlive => ?_⟩
      · rw [Bool.eq_false_iff]
        intro hopen
        have hbefore := h.sample_opens _ hopen
        rw [ih.1 hlast] at hbefore
        cases hbefore
      · obtain ⟨hbefore, hsame⟩ := h.sample_live _ hlive
        rw [hsame]
        exact ih.2 hlast hbefore

/-- **The handle of a sampled source** has a proper log, and is closed by the last stop, if and only
if no sample after a stop uses it. -/
theorem released_iff (h : Lifecycle step handle live uses) (start : S)
    (hstart : handle start = ⟨[], false⟩) (hidle : ¬live start) (calls : List (Call α)) :
    Proper (handle (step (calls.foldl step start) .stop)).log ∧
        ¬IsOpen (handle (step (calls.foldl step start) .stop)).log ↔
      ∀ before after, calls = before ++ .sample :: after → stoppedLast before = true →
        ¬uses (before.foldl step start) := by
  have hsound : (handle start).Sound := by
    rw [hstart]
    exact tracks_nil
  have hshut : (handle start).is_open = false := by rw [hstart]
  rw [h.stop, released_run_iff (fun s c => c = .sample ∧ uses s) hsound ?hkeeps ?huses]
  case hkeeps =>
    intro s c hother
    cases c with
    | start a => exact h.start_keeps s a
    | stop =>
      rw [h.stop]
      exact Handle.keeps_stopped _
    | sample =>
      rw [h.sample_other s fun huse => hother ⟨rfl, huse⟩]
      exact Handle.Keeps.refl _
  case huses =>
    rintro s c ⟨rfl, huse⟩
    exact h.sample_uses s huse
  constructor
  · intro hall before after heq hstopped huse
    have hopen := hall before .sample after heq ⟨rfl, huse⟩
    rw [(h.is_open_of_live hshut hidle before).1 hstopped] at hopen
    cases hopen
  · rintro hall before c after heq ⟨rfl, huse⟩
    refine (h.is_open_of_live hshut hidle before).2 ?_ (h.uses_live _ huse)
    exact Bool.eq_false_iff.mpr fun hstopped => hall before after heq hstopped huse

end Lifecycle

end HandleLog
