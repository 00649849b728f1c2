import Mathlib

/-! # Readers of a byte buffer

A reader moves an offset over a buffer.  It ends with a value or an error, and a
read outside the buffer is neither: it is a fault (`none`).

`ReadsFrom k r R` says what a reader is worth where at least `k` bytes are left: it
never faults, what it returns it has read in one of the forms that `R` gives the
value, and it returns a value for each of its forms, whatever follows.  The rules
below build such statements along the text of a reader.
-/
namespace ByteReader
open List

abbrev Bytes := List UInt8

/-- The outcome of a read and the offset after it, or a fault. -/
def Reader (ε α : Type) : Type := Bytes → Nat → Option (Except ε α × Nat)

namespace Reader
variable {ε α β : Type}

instance : Monad (Reader ε) where
  pure a := fun _ offset => some (.ok a, offset)
  bind r f := fun buffer offset =>
    match r buffer offset with
    | none => none
    | some (.error e, offset) => some (.error e, offset)
    | some (.ok a, offset) => f a buffer offset

/-- The reader refuses. -/
def fail (e : ε) : Reader ε α := fun _ offset => some (.error e, offset)

/-- The offset. -/
def offset : Reader ε Nat := fun _ offset => some (.ok offset, offset)

/-- The number of bytes left, as a machine word computes it. -/
def remaining : Reader ε Nat := fun buffer offset =>
  some (.ok ((buffer.length + (2 ^ 64 - offset % 2 ^ 64)) % 2 ^ 64), offset)

/-- The byte at the offset. -/
def byte : Reader ε UInt8 := fun buffer offset =>
  match buffer[offset]? with
  | none => none
  | some b => some (.ok b, offset + 1)

/-- A read whose error is a value. -/
def attempt (r : Reader ε α) : Reader ε (Except ε α) := fun buffer offset =>
  match r buffer offset with
  | none => none
  | some (result, offset) => some (.ok result, offset)

/-- The next `n` bytes, given to a reader of their own. -/
def sub (n : Nat) (g : Bytes → Option (Except ε α)) : Reader ε α := fun buffer offset =>
  if offset + n ≤ buffer.length then
    match g ((buffer.drop offset).take n) with
    | none => none
    | some (.error e) => some (.error e, offset)
    | some (.ok a) => some (.ok a, offset + n)
  else none

/-- Three reads whose errors are looked at together, when all are made. -/
def three {α₁ α₂ α₃ : Type} (r₁ : Reader ε α₁) (r₂ : Reader ε α₂) (r₃ : Reader ε α₃) (e : ε)
    (k : α₁ → α₂ → α₃ → Reader ε β) : Reader ε β := do
  let a₁ ← attempt r₁
  let a₂ ← attempt r₂
  let a₃ ← attempt r₃
  match a₁, a₂, a₃ with
  | .ok a₁, .ok a₂, .ok a₃ => k a₁ a₂ a₃
  | _, _, _ => fail e

/-- `r i`, `r (i + 1)`, ..., `n` of them. -/
def times (r : Nat → Reader ε α) : Nat → Nat → Reader ε (List α)
  | _, 0 => pure []
  | i, n + 1 => do
      let first ← r i
      let rest ← times r (i + 1) n
      pure (first :: rest)

theorem bind_run {r : Reader ε α} {f : α → Reader ε β} {buffer : Bytes} {offset after : Nat} {a : α}
    (h : r buffer offset = some (.ok a, after)) : (r >>= f) buffer offset = f a buffer after := by
  show Bind.bind r f buffer offset = _
  simp only [Bind.bind, h]

theorem bind_error {r : Reader ε α} {f : α → Reader ε β} {buffer : Bytes} {offset after : Nat}
    {e : ε} (h : r buffer offset = some (.error e, after)) :
    (r >>= f) buffer offset = some (.error e, after) := by
  show Bind.bind r f buffer offset = _
  simp only [Bind.bind, h]

theorem attempt_eq {r : Reader ε α} {buffer : Bytes} {offset after : Nat} {result : Except ε α}
    (h : r buffer offset = some (result, after)) :
    attempt r buffer offset = some (.ok result, after) := by
  simp only [attempt, h]

end Reader

open Reader

variable {ε α β γ : Type}

/-- What a reader is worth where `k` bytes are left. -/
structure ReadsFrom (k : Nat) (r : Reader ε α) (R : α → Bytes → Prop) : Prop where
  safe : ∀ {buffer : Bytes} {offset : Nat}, buffer.length < 2 ^ 64 → offset + k ≤ buffer.length →
    ∃ result after, r buffer offset = some (result, after) ∧ offset ≤ after ∧ after ≤ buffer.length
  sound : ∀ {buffer : Bytes} {offset after : Nat} {a : α}, buffer.length < 2 ^ 64 →
    offset + k ≤ buffer.length → r buffer offset = some (.ok a, after) →
    ∃ form, R a form ∧ buffer.drop offset = form ++ buffer.drop after ∧ after = offset + form.length
  complete : ∀ {a : α} {form : Bytes} (before rest : Bytes), R a form →
    (before ++ (form ++ rest)).length < 2 ^ 64 → k ≤ (form ++ rest).length →
    r (before ++ (form ++ rest)) before.length = some (.ok a, before.length + form.length)

/-- What a reader is worth anywhere. -/
abbrev Reads (r : Reader ε α) (R : α → Bytes → Prop) : Prop := ReadsFrom 0 r R

namespace ReadsFrom

variable {R : α → Bytes → Prop} {r : Reader ε α} {k : Nat} {S : α → β → Bytes → Prop}

theorem mono {j k : Nat} (h : ReadsFrom j r R) (hle : j ≤ k) : ReadsFrom k r R where
  safe hlength hroom := h.safe hlength (by omega)
  sound hlength hroom := h.sound hlength (by omega)
  complete before rest hform hlength hroom := h.complete before rest hform hlength (by omega)

theorem congr {R S : α → Bytes → Prop} (h : ReadsFrom k r R)
    (hiff : ∀ a form, R a form ↔ S a form) : ReadsFrom k r S := by
  have heq : R = S := by
    funext a form
    exact propext (hiff a form)
  rwa [← heq]

theorem pure (a : α) : Reads (Pure.pure a : Reader ε α) fun b form => b = a ∧ form = [] where
  safe _ hroom := ⟨_, _, rfl, le_refl _, hroom⟩
  sound _ _ h := by
    cases h
    exact ⟨[], ⟨rfl, rfl⟩, rfl, rfl⟩
  complete before rest h _ _ := by
    obtain ⟨rfl, rfl⟩ := h
    rfl

theorem fail (e : ε) : Reads (Reader.fail e : Reader ε α) fun _ _ => False where
  safe _ hroom := ⟨_, _, rfl, le_refl _, hroom⟩
  sound _ _ h := by cases h
  complete _ _ h _ _ := h.elim

theorem ite {p : Prop} [Decidable p] {r s : Reader ε α} {R S : α → Bytes → Prop}
    (hr : p → ReadsFrom k r R) (hs : ¬ p → ReadsFrom k s S) :
    ReadsFrom k (if p then r else s) fun a form => (p ∧ R a form) ∨ (¬ p ∧ S a form) := by
  by_cases h : p
  · rw [if_pos h]
    exact (hr h).congr fun a form => by simp [h]
  · rw [if_neg h]
    exact (hs h).congr fun a form => by simp [h]

/-- A test that must fail for the reader to go on. -/
theorem refuse {p : Prop} [Decidable p] {e : ε} (hr : ¬ p → ReadsFrom k r R) :
    ReadsFrom k (if p then Reader.fail e else r) fun a form => ¬ p ∧ R a form :=
  (ite (fun _ => (fail e).mono (Nat.zero_le k)) hr).congr fun a form => by simp

/-- One read after another. -/
theorem bind {f : α → Reader ε β} (hr : ReadsFrom k r R)
    (hf : ∀ a form, R a form → ReadsFrom (k - form.length) (f a) (S a)) :
    ReadsFrom k (r >>= f) fun b form =>
      ∃ a first second, R a first ∧ S a b second ∧ form = first ++ second := by
  constructor
  · intro buffer offset hlength hroom
    obtain ⟨result, middle, heq, hle, hmiddle⟩ := hr.safe hlength hroom
    cases result with
    | error e => exact ⟨_, _, bind_error heq, hle, hmiddle⟩
    | ok a =>
      obtain ⟨form, hform, -, hafter⟩ := hr.sound hlength hroom heq
      obtain ⟨result, after, heq', hle', hafter'⟩ :=
        (hf a form hform).safe hlength (show middle + (k - form.length) ≤ _ by omega)
      exact ⟨result, after, (bind_run heq).trans heq', by omega, hafter'⟩
  · intro buffer offset after b hlength hroom h
    obtain ⟨result, middle, heq, hle, hmiddle⟩ := hr.safe hlength hroom
    cases result with
    | error e =>
      rw [bind_error heq] at h
      cases h
    | ok a =>
      rw [bind_run heq] at h
      obtain ⟨first, hfirst, hcut, hafter⟩ := hr.sound hlength hroom heq
      obtain ⟨second, hsecond, hcut', hafter'⟩ := (hf a first hfirst).sound hlength
        (show middle + (k - first.length) ≤ _ by omega) h
      refine ⟨first ++ second, ⟨a, first, second, hfirst, hsecond, rfl⟩, ?_, ?_⟩
      · rw [hcut, hcut', append_assoc]
      · rw [length_append]
        omega
  · rintro b form before rest ⟨a, first, second, hfirst, hsecond, rfl⟩ hlength hroom
    rw [append_assoc] at hlength hroom ⊢
    have heq := hr.complete before (second ++ rest) hfirst hlength hroom
    have hroom' : k - first.length ≤ (second ++ rest).length := by
      rw [length_append] at hroom
      omega
    have hsplit : before ++ (first ++ (second ++ rest)) = (before ++ first) ++ (second ++ rest) :=
      (append_assoc _ _ _).symm
    have hnext := (hf a first hfirst).complete (before ++ first) rest hsecond
      (by rwa [← hsplit]) hroom'
    rw [length_append, ← hsplit] at hnext
    rw [bind_run heq, hnext, length_append, Nat.add_assoc]

/-- One read after another, anywhere. -/
theorem seq {f : α → Reader ε β} (hr : Reads r R) (hf : ∀ a form, R a form → Reads (f a) (S a)) :
    Reads (r >>= f) fun b form =>
      ∃ a first second, R a first ∧ S a b second ∧ form = first ++ second :=
  bind hr fun a form ha => (hf a form ha).mono (Nat.zero_le _)

/-- A read that may look at the offset, for its errors. -/
theorem offset {f : Nat → Reader ε α} (h : ∀ n, ReadsFrom k (f n) R) :
    ReadsFrom k (Reader.offset >>= f) R where
  safe hlength hroom := (h _).safe hlength hroom
  sound hlength hroom heq := (h _).sound hlength hroom heq
  complete before rest hform hlength hroom := (h _).complete before rest hform hlength hroom

theorem remaining {f : Nat → Reader ε α} (h : ∀ n, ReadsFrom k (f n) R) :
    ReadsFrom k (Reader.remaining >>= f) R where
  safe hlength hroom := (h _).safe hlength hroom
  sound hlength hroom heq := (h _).sound hlength hroom heq
  complete before rest hform hlength hroom := (h _).complete before rest hform hlength hroom

theorem remaining_eq {buffer : Bytes} {offset : Nat} (hlength : buffer.length < 2 ^ 64)
    (hle : offset ≤ buffer.length) :
    (Reader.remaining : Reader ε Nat) buffer offset = some (.ok (buffer.length - offset), offset) := by
  unfold Reader.remaining
  congr 3
  omega

/-- A read that goes on only if enough bytes are left. -/
theorem guarded {short : Nat → Prop} [DecidablePred short] {e : ε} (h : ReadsFrom k r R)
    (hshort : ∀ n, short n ↔ n < k) (hform : ∀ a form, R a form → k ≤ form.length) :
    Reads (Reader.remaining >>= fun n => if short n then Reader.fail e else r) R := by
  have hrun : ∀ {buffer : Bytes} {offset : Nat}, buffer.length < 2 ^ 64 → offset ≤ buffer.length →
      (Reader.remaining >>= fun n => if short n then Reader.fail e else r : Reader ε α) buffer
          offset =
        (if short (buffer.length - offset) then Reader.fail e else r : Reader ε α) buffer offset :=
    fun hlength hle => bind_run (remaining_eq hlength hle)
  constructor
  · intro buffer offset hlength hroom
    rw [hrun hlength (Nat.le_of_add_right_le hroom)]
    by_cases hk : short (buffer.length - offset)
    · rw [if_pos hk]
      exact (fail e).safe hlength hroom
    · rw [if_neg hk]
      rw [hshort] at hk
      exact h.safe hlength (by omega)
  · intro buffer offset after a hlength hroom heq
    rw [hrun hlength (Nat.le_of_add_right_le hroom)] at heq
    by_cases hk : short (buffer.length - offset)
    · rw [if_pos hk] at heq
      cases heq
    · rw [if_neg hk] at heq
      rw [hshort] at hk
      exact h.sound hlength (by omega) heq
  · intro a form before rest ha hlength _
    have hle := hform a form ha
    have hroom : k ≤ (form ++ rest).length := by
      rw [length_append]
      omega
    rw [hrun hlength (by simp), if_neg]
    · exact h.complete before rest ha hlength hroom
    · rw [hshort, length_append, Nat.add_sub_cancel_left]
      omega

/-- The same with a test beside that of the length. -/
theorem refuse_guarded {p : Prop} [Decidable p] {short : Nat → Prop} [DecidablePred short] {k : Nat}
    {e : ε} {r : Reader ε α} {R : α → Bytes → Prop} (h : ReadsFrom k r R)
    (hshort : ∀ n, short n ↔ n < k) (hform : ∀ a form, R a form → k ≤ form.length) :
    Reads (Reader.remaining >>= fun n => if p ∨ short n then Reader.fail e else r)
      fun a form => ¬ p ∧ R a form := by
  by_cases hp : p
  · simp only [hp, true_or, if_true]
    refine (remaining fun _ => fail e).congr fun a form => ?_
    rw [not_true, false_and]
  · simp only [hp, false_or]
    exact (guarded h hshort hform).congr fun a form => (and_iff_right not_false).symm

/-- One byte. -/
theorem byte : ReadsFrom 1 (Reader.byte : Reader ε UInt8) fun b form => form = [b] where
  safe {buffer offset} _ hroom := by
    have hlt : offset < buffer.length := hroom
    refine ⟨.ok buffer[offset], offset + 1, ?_, Nat.le_succ _, hroom⟩
    rw [Reader.byte, getElem?_eq_getElem hlt]
  sound {buffer offset after b} _ hroom h := by
    have hlt : offset < buffer.length := hroom
    rw [Reader.byte, getElem?_eq_getElem hlt] at h
    cases h
    exact ⟨[buffer[offset]], rfl, drop_eq_getElem_cons hlt, rfl⟩
  complete {b form} before rest h _ _ := by
    subst h
    rw [Reader.byte, getElem?_append_right (le_refl _), Nat.sub_self]
    rfl

/-- One byte and then the rest. -/
theorem next {f : UInt8 → Reader ε β} {S : UInt8 → β → Bytes → Prop}
    (hf : ∀ b, ReadsFrom k (f b) (S b)) :
    ReadsFrom (k + 1) (Reader.byte >>= f) fun c form =>
      ∃ b rest, S b c rest ∧ form = b :: rest := by
  have hbyte : ReadsFrom (k + 1) (Reader.byte : Reader ε UInt8) fun b form => form = [b] :=
    byte.mono (Nat.le_add_left 1 k)
  refine (bind (S := S) hbyte fun b form h => ?_).congr fun c form => ?_
  · rw [h, length_singleton, Nat.add_sub_cancel]
    exact hf b
  · constructor
    · rintro ⟨b, _, rest, rfl, hrest, rfl⟩
      exact ⟨b, rest, hrest, rfl⟩
    · rintro ⟨b, rest, hrest, rfl⟩
      exact ⟨b, [b], rest, rfl, hrest, rfl⟩

/-- A read whose error is looked at only to end in another error. -/
theorem attempt {f : Except ε α → Reader ε β} (hr : ReadsFrom k r R)
    (hf : ∀ a form, R a form → ReadsFrom (k - form.length) (f (.ok a)) (S a))
    (herror : ∀ e, Reads (f (.error e)) fun _ _ => False) :
    ReadsFrom k (Reader.attempt r >>= f) fun b form =>
      ∃ a first second, R a first ∧ S a b second ∧ form = first ++ second := by
  have hrun : ∀ {buffer offset result after}, r buffer offset = some (result, after) →
      (Reader.attempt r >>= f) buffer offset = f result buffer after :=
    fun h => bind_run (attempt_eq h)
  have hok : ∀ {buffer offset a after}, r buffer offset = some (Except.ok a, after) →
      (Reader.attempt r >>= f) buffer offset = (r >>= fun a => f (.ok a)) buffer offset :=
    fun h => (hrun h).trans (bind_run (f := fun a => f (.ok a)) h).symm
  have hbind := bind hr hf
  constructor
  · intro buffer offset hlength hroom
    obtain ⟨result, middle, heq, hle, hmiddle⟩ := hr.safe hlength hroom
    cases result with
    | error e =>
      obtain ⟨result, after, heq', hle', hafter⟩ := (herror e).safe hlength hmiddle
      exact ⟨result, after, (hrun heq).trans heq', by omega, hafter⟩
    | ok a =>
      rw [hok heq]
      exact hbind.safe hlength hroom
  · intro buffer offset after b hlength hroom h
    obtain ⟨result, middle, heq, hle, hmiddle⟩ := hr.safe hlength hroom
    cases result with
    | error e =>
      rw [hrun heq] at h
      obtain ⟨-, hfalse, -⟩ := (herror e).sound hlength hmiddle h
      exact hfalse.elim
    | ok a =>
      rw [hok heq] at h
      exact hbind.sound hlength hroom h
  · intro b form before rest hform hlength hroom
    have hcomplete := hbind.complete before rest hform hlength hroom
    obtain ⟨a, first, second, hfirst, -, rfl⟩ := hform
    have hassoc : (first ++ second) ++ rest = first ++ (second ++ rest) := append_assoc _ _ _
    rw [hassoc] at hlength hroom hcomplete ⊢
    rw [hok (hr.complete before (second ++ rest) hfirst hlength hroom)]
    exact hcomplete

/-- A read that is made only for its error to be passed over. -/
theorem attempt_fail {f : Except ε α → Reader ε β} (hr : Reads r R)
    (hf : ∀ result, Reads (f result) fun _ _ => False) :
    Reads (Reader.attempt r >>= f) fun _ _ => False := by
  refine (attempt (S := fun _ _ _ => False) hr (fun a form _ => ?_) fun e => hf (.error e)).congr
    fun b form => by simp
  exact (hf (.ok a)).mono (Nat.zero_le _)

/-- Three reads together. -/
theorem three {α₁ α₂ α₃ : Type} {r₁ : Reader ε α₁} {r₂ : Reader ε α₂} {r₃ : Reader ε α₃} {e : ε}
    {k : α₁ → α₂ → α₃ → Reader ε β} {R₁ : α₁ → Bytes → Prop} {R₂ : α₂ → Bytes → Prop}
    {R₃ : α₃ → Bytes → Prop} {S : α₁ → α₂ → α₃ → β → Bytes → Prop} (h₁ : Reads r₁ R₁)
    (h₂ : Reads r₂ R₂) (h₃ : Reads r₃ R₃) (hk : ∀ a₁ a₂ a₃, Reads (k a₁ a₂ a₃) (S a₁ a₂ a₃)) :
    Reads (Reader.three r₁ r₂ r₃ e k) fun b form =>
      ∃ a₁ a₂ a₃ f₁ f₂ f₃ rest, R₁ a₁ f₁ ∧ R₂ a₂ f₂ ∧ R₃ a₃ f₃ ∧ S a₁ a₂ a₃ b rest ∧
        form = f₁ ++ (f₂ ++ (f₃ ++ rest)) := by
  have hthird : ∀ a₁ a₂, Reads (Reader.attempt r₃ >>= fun a₃ =>
      match (Except.ok a₁ : Except ε α₁), (Except.ok a₂ : Except ε α₂), a₃ with
      | .ok a₁, .ok a₂, .ok a₃ => k a₁ a₂ a₃
      | _, _, _ => Reader.fail e) _ := fun a₁ a₂ =>
    attempt h₃ (fun a₃ _ _ => (hk a₁ a₂ a₃).mono (Nat.zero_le _)) fun _ => fail e
  have hsecond : ∀ a₁, Reads (Reader.attempt r₂ >>= fun a₂ => Reader.attempt r₃ >>= fun a₃ =>
      match (Except.ok a₁ : Except ε α₁), a₂, a₃ with
      | .ok a₁, .ok a₂, .ok a₃ => k a₁ a₂ a₃
      | _, _, _ => Reader.fail e) _ := fun a₁ =>
    attempt h₂ (fun a₂ _ _ => (hthird a₁ a₂).mono (Nat.zero_le _)) fun _ =>
      attempt_fail h₃ fun _ => fail e
  have hfirst : Reads (Reader.three r₁ r₂ r₃ e k) _ :=
    attempt h₁ (fun a₁ _ _ => (hsecond a₁).mono (Nat.zero_le _)) fun _ =>
      attempt_fail h₂ fun _ => attempt_fail h₃ fun _ => fail e
  refine hfirst.congr fun b form => ?_
  constructor
  · rintro ⟨a₁, f₁, _, hf₁, ⟨a₂, f₂, _, hf₂, ⟨a₃, f₃, rest, hf₃, hrest, rfl⟩, rfl⟩, rfl⟩
    exact ⟨a₁, a₂, a₃, f₁, f₂, f₃, rest, hf₁, hf₂, hf₃, hrest, rfl⟩
  · rintro ⟨a₁, a₂, a₃, f₁, f₂, f₃, rest, hf₁, hf₂, hf₃, hrest, rfl⟩
    exact ⟨a₁, f₁, _, hf₁, ⟨a₂, f₂, _, hf₂, ⟨a₃, f₃, rest, hf₃, hrest, rfl⟩, rfl⟩, rfl⟩

/-- A buffer within the buffer. -/
theorem sub {n : Nat} {g : Bytes → Option (Except ε α)}
    (hg : ∀ form, form.length = n → g form ≠ none) :
    ReadsFrom n (Reader.sub n g) fun a form => form.length = n ∧ g form = some (.ok a) := by
  have htaken : ∀ {buffer : Bytes} {offset : Nat}, offset + n ≤ buffer.length →
      ((buffer.drop offset).take n).length = n := by
    intro buffer offset hroom
    rw [length_take, length_drop]
    omega
  constructor
  · intro buffer offset _ hroom
    unfold Reader.sub
    rw [if_pos hroom]
    cases hrun : g ((buffer.drop offset).take n) with
    | none => exact absurd hrun (hg _ (htaken hroom))
    | some result =>
      cases result with
      | error e => exact ⟨_, _, rfl, le_refl _, by omega⟩
      | ok a => exact ⟨_, _, rfl, by omega, hroom⟩
  · intro buffer offset after a _ hroom h
    unfold Reader.sub at h
    rw [if_pos hroom] at h
    cases hrun : g ((buffer.drop offset).take n) with
    | none => exact absurd hrun (hg _ (htaken hroom))
    | some result =>
      rw [hrun] at h
      cases result with
      | error e => cases h
      | ok b =>
        cases h
        refine ⟨(buffer.drop offset).take n, ⟨htaken hroom, hrun⟩, ?_, by rw [htaken hroom]⟩
        rw [← drop_drop, take_append_drop]
  · rintro a form before rest ⟨hlength, hrun⟩ - -
    unfold Reader.sub
    have hroom : before.length + n ≤ (before ++ (form ++ rest)).length := by
      simp only [length_append]
      omega
    rw [if_pos hroom, drop_left, take_left' hlength, hrun, hlength]

/-- A counted sequence of values in forms of their own. -/
theorem times {r : Nat → Reader ε α} (h : ∀ i, Reads (r i) R) (i n : Nat) :
    Reads (Reader.times r i n) fun as form =>
      as.length = n ∧ ∃ forms, Forall₂ R as forms ∧ form = forms.flatten := by
  induction n generalizing i with
  | zero =>
    refine (pure []).congr fun as form => ?_
    constructor
    · rintro ⟨rfl, rfl⟩
      exact ⟨rfl, [], .nil, rfl⟩
    · rintro ⟨hlength, forms, hforms, rfl⟩
      obtain rfl := length_eq_zero_iff.mp hlength
      cases hforms
      exact ⟨rfl, rfl⟩
  | succ n ih =>
    refine (seq (h i) fun a _ _ => seq (ih (i + 1)) fun as _ _ => pure (a :: as)).congr
      fun as form => ?_
    constructor
    · rintro ⟨a, first, _, hfirst, ⟨rest, second, _, ⟨hlength, forms, hforms, rfl⟩, ⟨rfl, rfl⟩, rfl⟩,
        rfl⟩
      refine ⟨by rw [length_cons, hlength], first :: forms, .cons hfirst hforms, ?_⟩
      rw [flatten_cons, append_nil]
    · rintro ⟨hlength, forms, hforms, rfl⟩
      cases hforms with
      | nil => cases hlength
      | @cons a first rest forms hfirst hforms =>
        refine ⟨a, first, _, hfirst, ⟨rest, forms.flatten, _, ⟨?_, forms, hforms, rfl⟩, ⟨rfl, rfl⟩,
          rfl⟩, ?_⟩
        · simpa using hlength
        · rw [flatten_cons, append_nil]

/-- A counted sequence of values with one form each. -/
theorem times_encoded {r : Nat → Reader ε α} {P : α → Prop} {encode : α → Bytes}
    (h : ∀ i, Reads (r i) fun a form => P a ∧ form = encode a) (i n : Nat) :
    Reads (Reader.times r i n) fun as form =>
      as.length = n ∧ (∀ a ∈ as, P a) ∧ form = as.flatMap encode := by
  have hforms : ∀ (as : List α) (forms : List Bytes),
      Forall₂ (fun a form => P a ∧ form = encode a) as forms ↔
        (∀ a ∈ as, P a) ∧ forms = as.map encode := by
    intro as forms
    induction as generalizing forms with
    | nil => simp
    | cons a as ih =>
      rw [forall₂_cons_left_iff]
      constructor
      · rintro ⟨first, rest, ⟨ha, rfl⟩, hrest, rfl⟩
        obtain ⟨has, rfl⟩ := (ih rest).mp hrest
        exact ⟨forall_mem_cons.mpr ⟨ha, has⟩, rfl⟩
      · rintro ⟨hall, rfl⟩
        obtain ⟨ha, has⟩ := forall_mem_cons.mp hall
        exact ⟨encode a, as.map encode, ⟨ha, rfl⟩, (ih _).mpr ⟨has, rfl⟩, rfl⟩
  refine (times h i n).congr fun as form => and_congr_right fun _ => ?_
  constructor
  · rintro ⟨forms, hall, rfl⟩
    obtain ⟨hP, rfl⟩ := (hforms as forms).mp hall
    exact ⟨hP, flatMap_def.symm⟩
  · rintro ⟨hP, rfl⟩
    exact ⟨as.map encode, (hforms as _).mpr ⟨hP, rfl⟩, flatMap_def⟩

end ReadsFrom

/-- A read of the rest of the buffer: it returns a value with the offset at the end
exactly for the forms of the value. -/
theorem ReadsFrom.rest {k : Nat} {r : Reader ε α} {R : α → Bytes → Prop} (h : ReadsFrom k r R)
    {buffer : Bytes} {offset : Nat} (hlength : buffer.length < 2 ^ 64)
    (hroom : offset + k ≤ buffer.length) {a : α} :
    r buffer offset = some (.ok a, buffer.length) ↔ R a (buffer.drop offset) := by
  constructor
  · intro heq
    obtain ⟨form, hform, hcut, -⟩ := h.sound hlength hroom heq
    rw [drop_length, append_nil] at hcut
    rwa [hcut]
  · intro hform
    have hsplit : buffer.take offset ++ (buffer.drop offset ++ []) = buffer := by
      rw [append_nil, take_append_drop]
    have htake : (buffer.take offset).length = offset := by
      rw [length_take]
      omega
    have hdrop : k ≤ (buffer.drop offset ++ []).length := by
      rw [append_nil, length_drop]
      omega
    have heq := h.complete (buffer.take offset) [] hform (by rwa [hsplit]) hdrop
    rw [hsplit, htake, length_drop] at heq
    rw [heq]
    congr 2
    omega

end ByteReader
