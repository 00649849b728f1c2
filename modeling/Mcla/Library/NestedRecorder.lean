import Mathlib

/-! # Recorders of nested calls

A recorder follows calls that nest.  An entry opens a frame over the others, a call changes the
innermost one, an exit closes it, and each success adds one event to a log of bounded length.
A check that fails is a fault, which stays; a recorder with a fault, or a frozen one, takes no
more calls.

A replay reads such a log back.  Where each success is an event that the replay accepts, and
each event it accepts is the success of some call, the two have one language.
-/
namespace NestedRecorder
open List

/-! ### Checks -/

section Checks
variable {α β ζ : Type}

/-- A check, and what it says when it fails. -/
def need (p : Prop) [Decidable p] (reason : ζ) : Except ζ Unit :=
  if p then .ok () else .error reason

@[simp] theorem need_ok {p : Prop} [Decidable p] {reason : ζ} {u : Unit} :
    need p reason = .ok u ↔ p := by
  unfold need
  split
  · simp [*]
  · simp [*]

theorem bind_ok {x : Except ζ α} {f : α → Except ζ β} {b : β} :
    (x >>= f) = .ok b ↔ ∃ a, x = .ok a ∧ f a = .ok b := by
  cases x with
  | error reason => simp [bind, Except.bind]
  | ok a => simp [bind, Except.bind]

@[simp] theorem pure_ok {a b : α} : (pure a : Except ζ α) = .ok b ↔ a = b :=
  ⟨fun h => by injection h, fun h => congrArg _ h⟩

/-- A check first, and then the rest. -/
@[simp] theorem check_ok {x : Except ζ Unit} {f : Unit → Except ζ β} {b : β} :
    (x >>= f) = .ok b ↔ x = .ok () ∧ f () = .ok b := by
  rw [bind_ok]
  constructor
  · rintro ⟨_, h⟩
    exact h
  · exact fun h => ⟨(), h⟩

/-- A check, and then an answer. -/
theorem need_pure_ok {p : Prop} [Decidable p] {reason : ζ} {a b : α} :
    (need p reason >>= fun _ => (pure a : Except ζ α)) = .ok b ↔ p ∧ a = b := by
  rw [check_ok, need_ok, pure_ok]

theorem forM_ok {f : α → Except ζ Unit} {l : List α} {u : Unit} :
    l.forM f = .ok u ↔ ∀ a ∈ l, f a = .ok () := by
  induction l with
  | nil => simp [List.forM, pure, Except.pure]
  | cons a l ih =>
    show (f a >>= fun _ => l.forM f) = .ok u ↔ _
    rw [check_ok, forall_mem_cons, ← ih]

/-- Rows that are each read. -/
theorem mapM_ok {f : α → Except ζ β} {g : α → β} {l : List α}
    (h : ∀ a ∈ l, f a = .ok (g a)) : l.mapM f = .ok (l.map g) := by
  induction l with
  | nil => rfl
  | cons a l ih =>
    obtain ⟨ha, hl⟩ := forall_mem_cons.mp h
    rw [mapM_cons, ha, ih hl]
    rfl

/-- Rows that are written and read back. -/
theorem mapM_map_ok {γ : Type} {write : α → β} {read : β → Except ζ γ} {g : α → γ} {l : List α}
    (h : ∀ a ∈ l, read (write a) = .ok (g a)) : (l.map write).mapM read = .ok (l.map g) := by
  rw [mapM_map]
  exact mapM_ok h

/-! The slots of a frame, each with its place. -/

variable {slots : List α}

theorem slots_ok {check : Nat → α → Except ζ Unit} {u : Unit} :
    (slots.zipIdx.forM fun slot => check slot.2 slot.1) = .ok u ↔
      ∀ i c, slots[i]? = some c → check i c = .ok () := by
  rw [forM_ok]
  constructor
  · intro h i c hc
    exact h (c, i) (mem_zipIdx_iff_getElem?.mpr hc)
  · rintro h ⟨c, i⟩ hmem
    exact h i c (mem_zipIdx_iff_getElem?.mp hmem)

/-- A slot filled anew. -/
theorem slots_set {p : Nat → α → Prop} {i : Nat} {c : α} (h : ∀ j d, slots[j]? = some d → p j d)
    (hc : p i c) : ∀ j d, (slots.set i c)[j]? = some d → p j d := by
  intro j d hd
  rw [getElem?_set] at hd
  by_cases heq : i = j
  · subst heq
    rw [if_pos rfl] at hd
    split at hd
    · exact Option.some.inj hd ▸ hc
    · cases hd
  · rw [if_neg heq] at hd
    exact h j d hd

theorem slot_eq {i : Nat} (hi : i < slots.length) (absent : α) :
    slots[i]? = some (slots.getD i absent) := by
  rw [getD_eq_getElem?_getD, getElem?_eq_getElem hi]
  rfl

theorem slot_set {i : Nat} (hi : i < slots.length) (c absent : α) :
    (slots.set i c).getD i absent = c := by
  rw [getD_eq_getElem?_getD, getElem?_set_self hi]
  rfl

end Checks

/-! ### The recorder -/

/-- What a recorder keeps: what entries are compared with, the open frames from the innermost
one, the log, and whether it still takes calls. -/
structure Recorder (α φ ε ζ : Type) where
  admission : α
  stack : List φ := []
  events : List ε := []
  fault : Option ζ := none
  frozen : Bool := false

namespace Recorder
variable {α φ ε ζ : Type} (m : Recorder α φ ε ζ)

/-- Neither frozen nor at fault. -/
def writable : Bool := !m.frozen && m.fault.isNone

/-- A call: it succeeds, or its first failing check becomes the fault. -/
def attempt (body : Except ζ (Recorder α φ ε ζ)) : Recorder α φ ε ζ × Bool :=
  if m.writable then
    match body with
    | .ok m' => (m', true)
    | .error fault => ({ m with fault := some fault }, false)
  else (m, false)

/-- Room for one more event. -/
def room (capacity : Nat) (full : ζ) : Except ζ Unit := need (m.events.length < capacity) full

/-- A frame over the others. -/
def opened (a : α) (f : φ) (e : ε) : Recorder α φ ε ζ :=
  { m with admission := a, stack := f :: m.stack, events := m.events ++ [e] }

/-- What a call on the innermost frame does, if all checks pass: the frame is changed or
closed. -/
def amended (isTop : φ → Bool) (identity : ζ) (body : φ → Except ζ (Option φ × ε)) :
    Except ζ (Recorder α φ ε ζ) :=
  match m.stack with
  | [] => .error identity
  | f :: rest => do
    need (isTop f = true) identity
    let (left, e) ← body f
    return { m with stack := left.toList ++ rest, events := m.events ++ [e] }

/-- A call on the innermost frame. -/
def onTop (isTop : φ → Bool) (identity : ζ) (body : φ → Except ζ (Option φ × ε)) :
    Recorder α φ ε ζ × Bool :=
  m.attempt (m.amended isTop identity body)

variable {m}

theorem writable_iff : m.writable = true ↔ m.frozen = false ∧ m.fault = none := by
  simp [writable]

variable {body : Except ζ (Recorder α φ ε ζ)} {identity : ζ} {isTop : φ → Bool}

/-- **Every attempt** is refused, leaves a fault and all else as it was, or does what its body
does. -/
theorem attempt_rec {P : Recorder α φ ε ζ → Bool → Prop} (hrefused : m.writable = false → P m false)
    (hfaults : m.writable = true → ∀ fault, P { m with fault := some fault } false)
    (hok : m.writable = true → ∀ m', body = .ok m' → P m' true) :
    P (m.attempt body).1 (m.attempt body).2 := by
  unfold attempt
  by_cases hw : m.writable = true
  · rw [if_pos hw]
    cases body with
    | ok m' => exact hok hw m' rfl
    | error fault => exact hfaults hw fault
  · rw [if_neg hw]
    exact hrefused (Bool.not_eq_true _ ▸ hw)

theorem attempt_true : (m.attempt body).2 = true → m.writable = true ∧ ∃ m', body = .ok m' :=
  attempt_rec (P := fun _ ok => ok = true → m.writable = true ∧ ∃ m', body = .ok m')
    (fun _ h => (by cases h)) (fun _ _ h => (by cases h)) (fun hw m' h _ => ⟨hw, m', h⟩)

/-- **Every call** on a recorder without a fault afterwards: the recorder was frozen, or all
checks passed. -/
theorem attempt_cases (h : (m.attempt body).1.fault = none) :
    m.frozen = true ∧ (m.attempt body).1 = m ∨
      m.writable = true ∧ body = .ok (m.attempt body).1 := by
  unfold attempt at h ⊢
  by_cases hw : m.writable = true
  · rw [if_pos hw] at h ⊢
    cases body with
    | ok m' => exact Or.inr ⟨hw, rfl⟩
    | error fault => cases h
  · rw [if_neg hw] at h ⊢
    have hsound : m.fault = none := h
    left
    refine ⟨?_, rfl⟩
    simpa [writable, hsound] using hw

theorem attempt_ok {m' : Recorder α φ ε ζ} (hw : m.writable = true) (h : body = .ok m') :
    m.attempt body = (m', true) := by
  unfold attempt
  rw [if_pos hw, h]

theorem room_ok {capacity : Nat} {full : ζ} {u : Unit} :
    m.room capacity full = .ok u ↔ m.events.length < capacity := need_ok

theorem amended_ok {body : φ → Except ζ (Option φ × ε)} {m' : Recorder α φ ε ζ} :
    m.amended isTop identity body = .ok m' ↔
      ∃ f rest left e, m.stack = f :: rest ∧ isTop f = true ∧ body f = .ok (left, e) ∧
        m' = { m with stack := left.toList ++ rest, events := m.events ++ [e] } := by
  unfold amended
  cases m.stack with
  | nil => simp
  | cons f rest =>
    rw [check_ok]
    simp only [need_ok, bind_ok, pure_ok]
    constructor
    · rintro ⟨htop, ⟨left, e⟩, hbody, rfl⟩
      exact ⟨f, rest, left, e, rfl, htop, hbody, rfl⟩
    · rintro ⟨f, rest, left, e, hstack, htop, hbody, rfl⟩
      obtain ⟨rfl, rfl⟩ := List.cons.inj hstack
      exact ⟨htop, (left, e), hbody, rfl⟩

/-- A call on the innermost frame, without a fault afterwards. -/
theorem onTop_cases {body : φ → Except ζ (Option φ × ε)}
    (h : (m.onTop isTop identity body).1.fault = none) :
    m.frozen = true ∧ (m.onTop isTop identity body).1 = m ∨
      m.writable = true ∧ ∃ f rest left e, m.stack = f :: rest ∧ isTop f = true ∧
        body f = .ok (left, e) ∧ (m.onTop isTop identity body).1 =
          { m with stack := left.toList ++ rest, events := m.events ++ [e] } := by
  rcases attempt_cases h with hfrozen | ⟨hw, hbody⟩
  · exact Or.inl hfrozen
  · exact Or.inr ⟨hw, amended_ok.mp hbody⟩

theorem onTop_ok {body : φ → Except ζ (Option φ × ε)} {f : φ} {rest : List φ} {left : Option φ}
    {e : ε} (hw : m.writable = true) (hstack : m.stack = f :: rest) (htop : isTop f = true)
    (hbody : body f = .ok (left, e)) :
    m.onTop isTop identity body =
      ({ m with stack := left.toList ++ rest, events := m.events ++ [e] }, true) :=
  attempt_ok hw (amended_ok.mpr ⟨f, rest, left, e, hstack, htop, hbody, rfl⟩)

theorem onTop_admission {body : φ → Except ζ (Option φ × ε)}
    (h : (m.onTop isTop identity body).1.fault = none) :
    (m.onTop isTop identity body).1.admission = m.admission := by
  rcases onTop_cases h with ⟨-, hsame⟩ | ⟨-, f, rest, left, e, -, -, -, heq⟩
  · rw [hsame]
  · rw [heq]

/-- A fault stays. -/
theorem attempt_sticky (h : (m.attempt body).1.fault = none) : m.fault = none := by
  rcases attempt_cases h with ⟨-, hsame⟩ | ⟨hw, -⟩
  · rw [← hsame]
    exact h
  · exact (writable_iff.mp hw).2

end Recorder

/-! ### Languages -/

section Language
variable {σ κ ε ρ ζ : Type} {step : σ → κ → σ} {log : σ → List ε} {sound live : σ → Prop}
  {capacity : Nat} {accept : ρ → ε → Except ζ ρ} {Rel : σ → ρ → Prop} {P : ε → Prop}

/-- A step that the replay follows: nothing is added to the log, or an event that the replay
accepts, if it is one of those considered. -/
def Emits (log : σ → List ε) (accept : ρ → ε → Except ζ ρ) (P : ε → Prop) (Rel : σ → ρ → Prop)
    (s s' : σ) : Prop :=
  log s' = log s ∧ (∀ r, Rel s r → Rel s' r) ∨
    ∃ e, log s' = log s ++ [e] ∧ (P e → ∀ r, Rel s r → ∃ r', accept r e = .ok r' ∧ Rel s' r')

/-- A step that adds an event and ends where the replay does. -/
def Replies (log : σ → List ε) (live : σ → Prop) (Rel : σ → ρ → Prop) (s s' : σ) (e : ε)
    (r' : ρ) : Prop :=
  live s' ∧ log s' = log s ++ [e] ∧ Rel s' r'

/-- Every call that leaves no fault is one that the replay follows. -/
structure Follows (step : σ → κ → σ) (log : σ → List ε) (sound : σ → Prop)
    (accept : ρ → ε → Except ζ ρ) (P : ε → Prop) (Rel : σ → ρ → Prop) : Prop where
  sticky : ∀ s call, sound (step s call) → sound s
  emits : ∀ s call, sound (step s call) → Emits log accept P Rel s (step s call)

/-- Every event considered that the replay accepts is one that some call adds. -/
structure Answers (step : σ → κ → σ) (log : σ → List ε) (live : σ → Prop) (capacity : Nat)
    (accept : ρ → ε → Except ζ ρ) (P : ε → Prop) (Rel : σ → ρ → Prop) : Prop where
  answers : ∀ s r e r', Rel s r → live s → (log s).length < capacity → P e →
    accept r e = .ok r' → ∃ call, Replies log live Rel s (step s call) e r'

theorem foldlM_snoc (r : ρ) (es : List ε) (e : ε) :
    (es ++ [e]).foldlM accept r = es.foldlM accept r >>= fun r' => accept r' e := by
  rw [foldlM_append]
  simp

/-- The log of a run without a fault is accepted, and ends where the run does. -/
theorem Follows.run (h : Follows step log sound accept P Rel) {s : σ} {r : ρ} (hstart : Rel s r)
    (hempty : log s = []) (calls : List κ) (hsound : sound (calls.foldl step s))
    (hP : ∀ e ∈ log (calls.foldl step s), P e) :
    ∃ r', (log (calls.foldl step s)).foldlM accept r = .ok r' ∧ Rel (calls.foldl step s) r' := by
  induction calls using reverseRecOn with
  | nil =>
    refine ⟨r, ?_, hstart⟩
    rw [foldl_nil, hempty]
    rfl
  | append_singleton calls call ih =>
    rw [foldl_append] at hsound hP ⊢
    simp only [foldl_cons, foldl_nil] at hsound hP ⊢
    have hbefore := h.sticky _ _ hsound
    rcases h.emits _ call hsound with ⟨hsame, hkeep⟩ | ⟨e, hlog, hadd⟩
    · rw [hsame] at hP ⊢
      obtain ⟨r', haccept, hrel⟩ := ih hbefore hP
      exact ⟨r', haccept, hkeep r' hrel⟩
    · rw [hlog] at hP ⊢
      obtain ⟨r', haccept, hrel⟩ := ih hbefore fun e he => hP e (mem_append_left _ he)
      obtain ⟨r'', hstep, hrel'⟩ := hadd (hP e (by simp)) r' hrel
      refine ⟨r'', ?_, hrel'⟩
      rw [foldlM_snoc, haccept]
      exact hstep

/-- A log that is accepted and fits is the log of a run, which ends where the replay does. -/
theorem Answers.run (h : Answers step log live capacity accept P Rel) {s : σ} {r : ρ}
    (hstart : Rel s r) (hempty : log s = []) (hlive : live s) (es : List ε)
    (hfits : es.length ≤ capacity) (hP : ∀ e ∈ es, P e) {r' : ρ}
    (haccept : es.foldlM accept r = .ok r') :
    ∃ calls : List κ, live (calls.foldl step s) ∧ log (calls.foldl step s) = es ∧
      Rel (calls.foldl step s) r' := by
  induction es using reverseRecOn generalizing r' with
  | nil =>
    cases haccept
    exact ⟨[], hlive, hempty, hstart⟩
  | append_singleton es e ih =>
    rw [foldlM_snoc, bind_ok] at haccept
    obtain ⟨r₁, hfirst, hlast⟩ := haccept
    rw [length_append, length_singleton] at hfits
    obtain ⟨calls, hl, hlog, hrel⟩ := ih (by omega)
      (fun e he => hP e (mem_append_left _ he)) hfirst
    obtain ⟨call, hl', hlog', hrel'⟩ :=
      h.answers _ _ e r' hrel hl (by rw [hlog]; omega) (hP e (by simp)) hlast
    refine ⟨calls ++ [call], ?_⟩
    rw [foldl_append]
    simp only [foldl_cons, foldl_nil]
    exact ⟨hl', by rw [hlog', hlog], hrel'⟩

/-- **One language.**  Among the logs of the events considered, those of the runs without a fault
are those that are accepted and fit, with the same end, as far as both sides show it. -/
theorem language_iff {ν : Type} (view : σ → ν) (seen : ρ → ν)
    (hf : Follows step log sound accept P Rel) (ha : Answers step log live capacity accept P Rel)
    (hview : ∀ s r, Rel s r → view s = seen r) (hsound : ∀ s r, Rel s r → live s → sound s)
    (hfits : ∀ s r, Rel s r → (log s).length ≤ capacity) {s : σ} {r : ρ} (hstart : Rel s r)
    (hempty : log s = []) (hlive : live s) (es : List ε) (hP : ∀ e ∈ es, P e) (v : ν) :
    (∃ calls : List κ, sound (calls.foldl step s) ∧ log (calls.foldl step s) = es ∧
      view (calls.foldl step s) = v) ↔
      es.length ≤ capacity ∧ ∃ r', es.foldlM accept r = .ok r' ∧ seen r' = v := by
  constructor
  · rintro ⟨calls, hs, rfl, rfl⟩
    obtain ⟨r', haccept, hrel⟩ := hf.run hstart hempty calls hs hP
    exact ⟨hfits _ _ hrel, r', haccept, (hview _ _ hrel).symm⟩
  · rintro ⟨hlength, r', haccept, rfl⟩
    obtain ⟨calls, hl, hlog, hrel⟩ := ha.run hstart hempty hlive es hlength hP haccept
    exact ⟨calls, hsound _ _ hrel hl, hlog, hview _ _ hrel⟩

/-- A stricter replay accepts the logs with a property of their own, where each event adds to
the property what the stricter replay asks of it. -/
theorem foldlM_stricter {accept' : ρ → ε → Except ζ ρ} {asks : ρ → ε → Prop} {P : List ε → Prop}
    {r : ρ} (hstep : ∀ r e r', accept' r e = .ok r' ↔ accept r e = .ok r' ∧ asks r e)
    (hnil : P []) (hsnoc : ∀ es e r', es.foldlM accept r = .ok r' → (P (es ++ [e]) ↔
      P es ∧ asks r' e)) (es : List ε) (r' : ρ) :
    es.foldlM accept' r = .ok r' ↔ es.foldlM accept r = .ok r' ∧ P es := by
  induction es using reverseRecOn generalizing r' with
  | nil => exact ⟨fun h => ⟨h, hnil⟩, fun h => h.1⟩
  | append_singleton es e ih =>
    rw [foldlM_snoc, foldlM_snoc, bind_ok, bind_ok]
    constructor
    · rintro ⟨r₁, hfirst, hlast⟩
      obtain ⟨hfirst, hP⟩ := (ih r₁).mp hfirst
      obtain ⟨hlast, hasks⟩ := (hstep r₁ e r').mp hlast
      exact ⟨⟨r₁, hfirst, hlast⟩, (hsnoc es e r₁ hfirst).mpr ⟨hP, hasks⟩⟩
    · rintro ⟨⟨r₁, hfirst, hlast⟩, hP⟩
      obtain ⟨hP, hasks⟩ := (hsnoc es e r₁ hfirst).mp hP
      exact ⟨r₁, (ih r₁).mpr ⟨hfirst, hP⟩, (hstep r₁ e r').mpr ⟨hlast, hasks⟩⟩

end Language

/-! ### Numbers given out one after another -/

/-- The numbers from one on, none left out. -/
def Consecutive (xs : List Nat) : Prop := xs = List.range' 1 xs.length

instance (xs : List Nat) : Decidable (Consecutive xs) := inferInstanceAs (Decidable (_ = _))

theorem consecutive_last {xs : List Nat} (h : Consecutive xs) : xs.getLast?.getD 0 = xs.length := by
  unfold Consecutive at h
  rw [h, getLast?_range']
  cases xs with
  | nil => rfl
  | cons x xs => simp

theorem consecutive_snoc {xs : List Nat} {x : Nat} :
    Consecutive (xs ++ [x]) ↔ Consecutive xs ∧ x = xs.getLast?.getD 0 + 1 := by
  have hiff : Consecutive (xs ++ [x]) ↔ Consecutive xs ∧ x = xs.length + 1 := by
    unfold Consecutive
    rw [length_append, length_singleton, range'_concat, Nat.one_mul, Nat.add_comm 1]
    constructor
    · intro h
      obtain ⟨hxs, hx⟩ := append_inj' h rfl
      exact ⟨hxs, singleton_inj.mp hx⟩
    · rintro ⟨hxs, rfl⟩
      exact congrArg (· ++ [xs.length + 1]) hxs
  rw [hiff]
  constructor
  · rintro ⟨h, rfl⟩
    exact ⟨h, by rw [consecutive_last h]⟩
  · rintro ⟨h, rfl⟩
    exact ⟨h, by rw [consecutive_last h]⟩

end NestedRecorder
