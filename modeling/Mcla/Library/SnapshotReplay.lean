import Mcla.Library.NestedRecorder

/-! # Replays of snapshots

Each event of a recorder of nested calls comes with a snapshot of the innermost frame, and a
replay makes each snapshot from the one before.  What a kind of journal asks of its events is a
`Format`; what is common to the replays, and to the proofs that a replay follows its recorder
(`Step`) and answers it, is here.
-/
namespace SnapshotReplay
open NestedRecorder List

/-- An event, with the innermost frame after it. -/
structure Snapshot (κ φ : Type) where
  kind : κ
  frame : φ
  deriving DecidableEq

/-- What a kind of journal asks of its events, in terms of what it keeps of the entries before
(`β`). -/
structure Format (β γ κ ι ζ : Type) where
  /-- What is asked of every event. -/
  common : β → γ → Except ζ β
  (isEntry isExit : κ → Bool)
  /-- What is asked of an entry, with the number of open frames. -/
  enter : β → Nat → γ → Except ζ β
  idOf : γ → ι
  absent : ι
  /-- The snapshot of a frame that an entry opens, under its parent. -/
  fresh : γ → ι → γ
  /-- The snapshot that an event asks for, from the one before and the one it comes with. -/
  wanted : γ → κ → γ → Except ζ γ
  (notFresh notTop notExact : ζ)

/-- The snapshots of the open frames, from the innermost one, and what is kept of the
entries. -/
structure State (β γ : Type) where
  stack : List γ
  admission : β

section Format
variable {β γ κ ι ζ : Type} [DecidableEq γ] [DecidableEq ι] (F : Format β γ κ ι ζ)

/-- The invocation that a new one is inside. -/
def Format.parent (stack : List γ) : ι :=
  match stack with
  | [] => F.absent
  | top :: _ => F.idOf top

/-- One event is replayed. -/
def Format.event (r : State β γ) (e : Snapshot κ γ) : Except ζ (State β γ) := do
  let b ← F.common r.admission e.frame
  if F.isEntry e.kind then
    let b ← F.enter b r.stack.length e.frame
    need (e.frame = F.fresh e.frame (F.parent r.stack)) F.notFresh
    return ⟨e.frame :: r.stack, b⟩
  else
    match r.stack with
    | [] => .error F.notTop
    | top :: rest =>
      need (F.idOf top = F.idOf e.frame) F.notTop
      let next ← F.wanted top e.kind e.frame
      need (e.frame = next) F.notExact
      return ⟨if F.isExit e.kind then rest else next :: rest, b⟩

variable {F} {r r' : State β γ} {e : Snapshot κ γ}

theorem Format.event_entry (hkind : F.isEntry e.kind = true) :
    F.event r e = .ok r' ↔ ∃ b b', F.common r.admission e.frame = .ok b ∧
      F.enter b r.stack.length e.frame = .ok b' ∧
      e.frame = F.fresh e.frame (F.parent r.stack) ∧ r' = ⟨e.frame :: r.stack, b'⟩ := by
  unfold Format.event
  rw [bind_ok]
  simp only [hkind, if_true, bind_ok, need_ok, pure_ok]
  constructor
  · rintro ⟨b, hcommon, b', henter, _, hfresh, heq⟩
    exact ⟨b, b', hcommon, henter, hfresh, heq.symm⟩
  · rintro ⟨b, b', hcommon, henter, hfresh, heq⟩
    exact ⟨b, hcommon, b', henter, (), hfresh, heq.symm⟩

theorem Format.event_call (hkind : F.isEntry e.kind = false) :
    F.event r e = .ok r' ↔ ∃ b top rest, F.common r.admission e.frame = .ok b ∧
      r.stack = top :: rest ∧ F.idOf top = F.idOf e.frame ∧
      F.wanted top e.kind e.frame = .ok e.frame ∧
      r' = ⟨if F.isExit e.kind then rest else e.frame :: rest, b⟩ := by
  unfold Format.event
  rw [bind_ok]
  simp only [hkind, Bool.false_eq_true, if_false]
  cases hstack : r.stack with
  | nil => simp
  | cons top rest =>
    simp only [bind_ok, need_ok, pure_ok]
    constructor
    · rintro ⟨b, hcommon, _, htop, next, hwanted, _, hsame, heq⟩
      rw [← hsame] at hwanted heq
      exact ⟨b, top, rest, hcommon, rfl, htop, hwanted, heq.symm⟩
    · rintro ⟨b, top', rest', hcommon, hcons, htop, hwanted, heq⟩
      obtain ⟨rfl, rfl⟩ := List.cons.inj hcons
      exact ⟨b, hcommon, (), htop, e.frame, hwanted, (), rfl, heq.symm⟩

/-- The replay of a log, from what is known at the start. -/
def Format.replay (F : Format β γ κ ι ζ) (start : β) (log : List (Snapshot κ γ)) :
    Except ζ (State β γ) :=
  log.foldlM F.event ⟨[], start⟩

end Format

/-! ### A recorder and its replay -/

section Simulation
variable {α β γ κ ι ζ δ φ : Type} [DecidableEq γ] [DecidableEq ι] {F : Format β γ κ ι ζ}
  {row : φ → γ} {Ok : φ → Prop} {Adm : α → β → Prop} {depth capacity : Nat}
  {m : Recorder α φ (Snapshot κ φ) δ} {r r' : State β γ} {f : φ} {left : Option φ}
  {e : Snapshot κ φ} {rest : List φ}

/-- An event as the journal shows it. -/
def Snapshot.map (row : φ → γ) (e : Snapshot κ φ) : Snapshot κ γ := ⟨e.kind, row e.frame⟩

/-- The events, as the journal writes them. -/
def logOf (row : φ → γ) (m : Recorder α φ (Snapshot κ φ) δ) : List (Snapshot κ γ) :=
  m.events.map (Snapshot.map row)

/-- The replay has the snapshots of the open frames, and knows enough of the entries. -/
structure Rel (row : φ → γ) (Ok : φ → Prop) (Adm : α → β → Prop) (depth capacity : Nat)
    (m : Recorder α φ (Snapshot κ φ) δ) (r : State β γ) : Prop where
  stack : r.stack = m.stack.map row
  ok : ∀ f ∈ m.stack, Ok f
  admission : Adm m.admission r.admission
  depth : m.stack.length ≤ depth
  fits : m.events.length ≤ capacity

omit [DecidableEq γ] [DecidableEq ι] in
/-- Freezing changes nothing that the replay sees. -/
theorem Rel.frozen (h : Rel row Ok Adm depth capacity m r) :
    Rel row Ok Adm depth capacity { m with frozen := true } r :=
  ⟨h.stack, h.ok, h.admission, h.depth, h.fits⟩

/-- What is asked of every event is kept by the events of frames that are open. -/
def Common (F : Format β γ κ ι ζ) (row : φ → γ) (Ok : φ → Prop) (Adm : α → β → Prop) : Prop :=
  ∀ a b f, Adm a b → Ok f → ∃ b', F.common b (row f) = .ok b' ∧ Adm a b'

/-- A call on the innermost frame, as the replay sees it. -/
structure Step (F : Format β γ κ ι ζ) (row : φ → γ) (Ok : φ → Prop) (f : φ) (left : Option φ)
    (e : Snapshot κ φ) : Prop where
  ends : left = if F.isExit e.kind then none else some e.frame
  kind : F.isEntry e.kind = false
  id : F.idOf (row f) = F.idOf (row e.frame)
  ok : Ok e.frame
  wanted : F.wanted (row f) e.kind (row e.frame) = .ok (row e.frame)

/-- **One call on the innermost frame** is one event that the replay accepts. -/
theorem Rel.amends (h : Rel row Ok Adm depth capacity m r) (hcommon : Common F row Ok Adm)
    (hstack : m.stack = f :: rest) (hroom : m.events.length < capacity)
    (hs : Step F row Ok f left e) :
    ∃ r', F.event r (e.map row) = .ok r' ∧ Rel row Ok Adm depth capacity
      { m with stack := left.toList ++ rest, events := m.events ++ [e] } r' := by
  obtain ⟨b, hb, hadm⟩ := hcommon m.admission r.admission e.frame h.admission hs.ok
  have hrows : r.stack = row f :: rest.map row := by rw [h.stack, hstack]; rfl
  refine ⟨⟨(left.toList ++ rest).map row, b⟩, ?_, ?_⟩
  · refine (Format.event_call hs.kind).mpr ⟨b, row f, rest.map row, hb, hrows, hs.id, hs.wanted, ?_⟩
    rw [hs.ends]
    cases hexit : F.isExit e.kind <;> simp [Snapshot.map, hexit]
  · constructor
    · rfl
    · intro g hg
      rcases mem_append.mp hg with hleft | hrest
      · rw [hs.ends] at hleft
        split at hleft
        · cases hleft
        · obtain rfl : g = e.frame := by simpa using hleft
          exact hs.ok
      · exact h.ok g (by rw [hstack]; exact mem_cons_of_mem _ hrest)
    · exact hadm
    · have hle : left.toList.length ≤ 1 := by cases left <;> simp
      have hdepth := h.depth
      rw [hstack, length_cons] at hdepth
      show (left.toList ++ rest).length ≤ depth
      rw [length_append]
      omega
    · show (m.events ++ [e]).length ≤ capacity
      rw [length_append, length_singleton]
      omega

/-- A call on the innermost frame that leaves no fault is followed. -/
theorem onTop_emits {isTop : φ → Bool} {identity : δ}
    {body : φ → Except δ (Option φ × Snapshot κ φ)} (hcommon : Common F row Ok Adm)
    (P : Snapshot κ γ → Prop) (hsound : (m.onTop isTop identity body).1.fault = none)
    (hbody : ∀ f left e, Ok f → body f = .ok (left, e) →
      m.events.length < capacity ∧ Step F row Ok f left e) :
    Emits (logOf row) F.event P (Rel row Ok Adm depth capacity) m
      (m.onTop isTop identity body).1 := by
  rcases Recorder.onTop_cases hsound with ⟨-, hsame⟩ | ⟨-, f, rest, left, e, hstack, -, hok, heq⟩
  · left
    rw [hsame]
    exact ⟨rfl, fun r h => h⟩
  · right
    refine ⟨e.map row, by rw [heq]; simp [logOf], fun _ r h => ?_⟩
    obtain ⟨hroom, hs⟩ := hbody f left e (h.ok f (by rw [hstack]; exact mem_cons_self)) hok
    obtain ⟨r', haccept, hrel⟩ := h.amends hcommon hstack hroom hs
    rw [heq]
    exact ⟨r', haccept, hrel⟩

/-- A call that succeeds with the event that the replay accepted. -/
theorem Rel.replies (h : Rel row Ok Adm depth capacity m r) (hcommon : Common F row Ok Adm)
    (hw : m.writable = true) (hroom : m.events.length < capacity) (hstack : m.stack = f :: rest)
    {isTop : φ → Bool} {identity : δ} {body : φ → Except δ (Option φ × Snapshot κ φ)}
    (htop : isTop f = true) (hbody : body f = .ok (left, e)) (hs : Step F row Ok f left e)
    {event : Snapshot κ γ} (hrow : e.map row = event) (haccept : F.event r event = .ok r') :
    Replies (logOf row) (fun m => m.writable = true) (Rel row Ok Adm depth capacity) m
      (m.onTop isTop identity body).1 event r' := by
  obtain ⟨r'', haccept', hrel⟩ := h.amends hcommon hstack hroom hs
  obtain rfl : r'' = r' := by
    rw [hrow] at haccept'
    exact Except.ok.inj (haccept'.symm.trans haccept)
  rw [Recorder.onTop_ok hw hstack htop hbody]
  refine ⟨hw, ?_, hrel⟩
  simp [logOf, hrow]

omit [DecidableEq γ] [DecidableEq ι] in
theorem Rel.innermost (h : Rel row Ok Adm depth capacity m r) {top : γ} {rows : List γ}
    (hrows : r.stack = top :: rows) : ∃ f rest, m.stack = f :: rest ∧ row f = top ∧ Ok f := by
  have hmap := h.stack
  rw [hrows] at hmap
  obtain ⟨f, rest, hstack, htop, -⟩ := map_eq_cons_iff.mp hmap.symm
  exact ⟨f, rest, hstack, htop, h.ok f (by rw [hstack]; exact mem_cons_self)⟩

/-! ### Entries -/

/-- An entry, as the replay sees it: what the checks give on both sides. -/
structure Opening (F : Format β γ κ ι ζ) (row : φ → γ) (Ok : φ → Prop) (Adm : α → β → Prop)
    (r : State β γ) (a : α) (e : Snapshot κ φ) (b' : β) : Prop where
  kind : F.isEntry e.kind = true
  accept : ∃ b, F.common r.admission (row e.frame) = .ok b ∧
    F.enter b r.stack.length (row e.frame) = .ok b'
  fresh : row e.frame = F.fresh (row e.frame) (F.parent r.stack)
  ok : Ok e.frame
  admission : Adm a b'

/-- **An entry** is one event that the replay accepts. -/
theorem Rel.opens (h : Rel row Ok Adm depth capacity m r) (hdepth : m.stack.length < depth)
    (hroom : m.events.length < capacity) {a : α} {b' : β} (ho : Opening F row Ok Adm r a e b') :
    F.event r (e.map row) = .ok ⟨row e.frame :: r.stack, b'⟩ ∧
      Rel row Ok Adm depth capacity (m.opened a e.frame e) ⟨row e.frame :: r.stack, b'⟩ := by
  constructor
  · obtain ⟨b, hcommon, henter⟩ := ho.accept
    exact (Format.event_entry ho.kind).mpr ⟨b, b', hcommon, henter, ho.fresh, rfl⟩
  · constructor
    · exact congrArg _ h.stack
    · intro g hg
      rcases mem_cons.mp hg with rfl | hold
      · exact ho.ok
      · exact h.ok g hold
    · exact ho.admission
    · exact hdepth
    · show (m.events ++ [e]).length ≤ capacity
      rw [length_append, length_singleton]
      omega

omit [DecidableEq γ] [DecidableEq ι] in
/-- A recorder at its start. -/
theorem rel_new {a : α} {b : β} (h : Adm a b) {fault : Option δ} :
    Rel row Ok Adm depth capacity
      ({ admission := a, fault := fault } : Recorder α φ (Snapshot κ φ) δ) ⟨[], b⟩ where
  stack := rfl
  ok := by intro f hf; cases hf
  admission := h
  depth := Nat.zero_le _
  fits := Nat.zero_le _

/-- **One language**: the logs of the calls without a fault, and the logs that are accepted and
fit.  `good` is what else is asked of the recorder, and `final` what else its end shows. -/
theorem language_iff {ρ ν : Type} {P : Snapshot κ γ → Prop} {good : α → Prop} (final : α → ν)
    (seen : β → ν) {step : Recorder α φ (Snapshot κ φ) δ → ρ → Recorder α φ (Snapshot κ φ) δ}
    (hf : Follows step (logOf row) (fun m => m.fault = none ∧ good m.admission) F.event P
      (Rel row Ok Adm depth capacity))
    (ha : Answers step (logOf row) (fun m => m.writable = true) capacity F.event P
      (Rel row Ok Adm depth capacity)) (hgood : ∀ a b, Adm a b → good a ∧ final a = seen b)
    {a : α} {b : β} (h : Adm a b) {log : List (Snapshot κ γ)} (hP : ∀ e ∈ log, P e)
    (pending : List γ) (v : ν) :
    (∃ calls : List ρ, ((calls.foldl step { admission := a }).fault = none ∧
        good (calls.foldl step { admission := a }).admission) ∧
      (calls.foldl step { admission := a }).events.map (Snapshot.map row) = log ∧
      ((calls.foldl step { admission := a }).stack.map row,
        final (calls.foldl step { admission := a }).admission) = (pending, v)) ↔
      log.length ≤ capacity ∧ ∃ r, F.replay b log = .ok r ∧
        (r.stack, seen r.admission) = (pending, v) := by
  have hnew : Rel row Ok Adm depth capacity
      ({ admission := a } : Recorder α φ (Snapshot κ φ) δ) ⟨[], b⟩ := rel_new h
  refine NestedRecorder.language_iff (fun m => (m.stack.map row, final m.admission))
    (fun r => (r.stack, seen r.admission)) hf ha ?_ ?_ ?_ hnew rfl rfl log hP (pending, v)
  · intro m r hrel
    rw [hrel.stack, (hgood _ _ hrel.admission).2]
  · intro m r hrel hw
    exact ⟨(Recorder.writable_iff.mp hw).2, (hgood _ _ hrel.admission).1⟩
  · intro m r hrel
    simpa [logOf] using hrel.fits

end Simulation

/-! ### Serials that leave none out -/

section Serials
variable {β γ κ ι ζ : Type} [DecidableEq γ] [DecidableEq ι] {F F' : Format β γ κ ι ζ}
  {serialOf : γ → Nat} {last : β → Nat} {start : β} {r r' : State β γ} {e : Snapshot κ γ}

omit [DecidableEq γ] [DecidableEq ι] in
/-- The serials of the entries of a log. -/
def entrySerials (F : Format β γ κ ι ζ) (serialOf : γ → Nat) (log : List (Snapshot κ γ)) :
    List Nat :=
  (log.filter fun e => F.isEntry e.kind).map fun e => serialOf e.frame

omit [DecidableEq γ] [DecidableEq ι] in
theorem entrySerials_snoc (log : List (Snapshot κ γ)) (e : Snapshot κ γ) :
    entrySerials F serialOf (log ++ [e]) =
      entrySerials F serialOf log ++ if F.isEntry e.kind then [serialOf e.frame] else [] := by
  unfold entrySerials
  cases hkind : F.isEntry e.kind <;> simp [hkind]

/-- Among what is kept of the entries is the last serial. -/
structure Numbers (F : Format β γ κ ι ζ) (serialOf : γ → Nat) (last : β → Nat) : Prop where
  common : ∀ b g b', F.common b g = .ok b' → last b' = last b
  enter : ∀ b n g b', F.enter b n g = .ok b' → last b' = serialOf g

theorem Numbers.event (hn : Numbers F serialOf last) (h : F.event r e = .ok r') :
    last r'.admission = if F.isEntry e.kind then serialOf e.frame else last r.admission := by
  cases hkind : F.isEntry e.kind with
  | true =>
    obtain ⟨b, b', -, henter, -, rfl⟩ := (Format.event_entry hkind).mp h
    exact hn.enter _ _ _ _ henter
  | false =>
    obtain ⟨b, top, rest, hcommon, -, -, -, rfl⟩ := (Format.event_call hkind).mp h
    exact hn.common _ _ _ hcommon

theorem Numbers.replay (hn : Numbers F serialOf last) (hstart : last start = 0)
    (log : List (Snapshot κ γ)) (h : F.replay start log = .ok r) :
    last r.admission = (entrySerials F serialOf log).getLast?.getD 0 := by
  unfold Format.replay at h
  induction log using reverseRecOn generalizing r with
  | nil =>
    cases h
    exact hstart
  | append_singleton log e ih =>
    rw [foldlM_snoc, bind_ok] at h
    obtain ⟨r₁, hfirst, hlast⟩ := h
    rw [entrySerials_snoc, hn.event hlast]
    cases hkind : F.isEntry e.kind with
    | true => simp
    | false => simpa using ih hfirst

/-- A replay that asks each entry for the next serial as well. -/
structure Numbering (F F' : Format β γ κ ι ζ) (serialOf : γ → Nat) (last : β → Nat) : Prop where
  same : F' = { F with enter := F'.enter }
  enter : ∀ b n g b', F'.enter b n g = .ok b' ↔ F.enter b n g = .ok b' ∧ serialOf g = last b + 1

theorem Numbering.event (h : Numbering F F' serialOf last) (hn : Numbers F serialOf last)
    (r : State β γ) (e : Snapshot κ γ) (r' : State β γ) :
    F'.event r e = .ok r' ↔ F.event r e = .ok r' ∧
      (F.isEntry e.kind = true → serialOf e.frame = last r.admission + 1) := by
  have hsame : F'.isEntry = F.isEntry ∧ F'.common = F.common ∧ F'.fresh = F.fresh ∧
      F'.parent = F.parent ∧ F'.idOf = F.idOf ∧ F'.wanted = F.wanted ∧ F'.isExit = F.isExit := by
    rw [h.same]
    exact ⟨rfl, rfl, rfl, rfl, rfl, rfl, rfl⟩
  obtain ⟨h1, h2, h3, h4, h5, h6, h7⟩ := hsame
  cases hkind : F.isEntry e.kind with
  | true =>
    rw [Format.event_entry hkind, Format.event_entry (by rw [h1]; exact hkind), h2, h3, h4]
    simp only [h.enter]
    constructor
    · rintro ⟨b, b', hcommon, ⟨henter, hnext⟩, hfresh, heq⟩
      exact ⟨⟨b, b', hcommon, henter, hfresh, heq⟩, fun _ => by
        rw [← hn.common _ _ _ hcommon]; exact hnext⟩
    · rintro ⟨⟨b, b', hcommon, henter, hfresh, heq⟩, hnext⟩
      exact ⟨b, b', hcommon, ⟨henter, by rw [hn.common _ _ _ hcommon]; exact hnext trivial⟩,
        hfresh, heq⟩
  | false =>
    rw [Format.event_call hkind, Format.event_call (by rw [h1]; exact hkind), h2, h5, h6, h7]
    exact ⟨fun hcall => ⟨hcall, fun hfalse => by cases hfalse⟩, fun hcall => hcall.1⟩

/-- Such a replay accepts the logs whose serials leave none out. -/
theorem Numbering.replay (h : Numbering F F' serialOf last) (hn : Numbers F serialOf last)
    (hstart : last start = 0) (log : List (Snapshot κ γ)) (r : State β γ) :
    F'.replay start log = .ok r ↔
      F.replay start log = .ok r ∧ Consecutive (entrySerials F serialOf log) := by
  refine foldlM_stricter (P := fun log => Consecutive (entrySerials F serialOf log)) (h.event hn)
    rfl ?_ log r
  intro es e r' hes
  rw [entrySerials_snoc]
  cases hkind : F.isEntry e.kind with
  | true =>
    rw [if_pos rfl, consecutive_snoc, hn.replay hstart es hes]
    simp
  | false => simp

/-- The two replays as one, which asks for the next serials or does not. -/
theorem Numbering.replay_of {F : Bool → Format β γ κ ι ζ}
    (h : Numbering (F false) (F true) serialOf last) (hn : Numbers (F false) serialOf last)
    (hstart : last start = 0) (strict : Bool) (log : List (Snapshot κ γ)) (r : State β γ) :
    (F strict).replay start log = .ok r ↔ (F false).replay start log = .ok r ∧
      (strict = true → Consecutive (entrySerials (F false) serialOf log)) := by
  cases strict with
  | false => simp
  | true =>
    rw [h.replay hn hstart log r]
    exact ⟨fun h => ⟨h.1, fun _ => h.2⟩, fun h => ⟨h.1, h.2 rfl⟩⟩

/-- A log that is accepted begins with an entry, so that it is empty if no entry was counted. -/
theorem Format.count_eq_zero (count : β → Nat) (hstart : count start = 0)
    (hcommon : ∀ b g b', F.common b g = .ok b' → count b' = count b)
    (henter : ∀ b n g b', F.enter b n g = .ok b' → count b' ≠ 0) (log : List (Snapshot κ γ))
    (h : F.replay start log = .ok r) : count r.admission = 0 ↔ log = [] := by
  unfold Format.replay at h
  induction log using reverseRecOn generalizing r with
  | nil =>
    cases h
    exact iff_of_true hstart rfl
  | append_singleton log e ih =>
    rw [foldlM_snoc, bind_ok] at h
    obtain ⟨r₁, hfirst, hlast⟩ := h
    refine iff_of_false ?_ (by simp)
    cases hkind : F.isEntry e.kind with
    | true =>
      obtain ⟨b, b', -, hb, -, rfl⟩ := (Format.event_entry hkind).mp hlast
      exact henter _ _ _ _ hb
    | false =>
      obtain ⟨b, top, rest, hb, hstack, -, -, rfl⟩ := (Format.event_call hkind).mp hlast
      -- a frame is open, so the log before is not empty
      intro hzero
      obtain rfl := (ih hfirst).mp ((hcommon _ _ _ hb).symm.trans hzero)
      cases hfirst
      cases hstack

end Serials

/-! ### Lanes -/

section Lane
variable {α β γ κ ι ζ δ φ ρ ν : Type} [DecidableEq γ] [DecidableEq ι]
  {G : Bool → Format β γ κ ι ζ} {row : φ → γ} {Ok : φ → Prop} {Adm : α → β → Prop}
  {depth capacity : Nat} {step : Recorder α φ (Snapshot κ φ) δ → ρ → Recorder α φ (Snapshot κ φ) δ}
  {P : Snapshot κ γ → Prop} {good : α → Prop} {serialOf : γ → Nat} {last : β → Nat} {start : β}
  {a : α} {log : List (Snapshot κ γ)} {v : ν}

/-- **The language of a lane.**  A lane says what its entries are bound to.  Its log is accepted
where log and snapshots are those of some calls that end bound to it, it is bound as an accepted
log binds it, and, if the replay is strict, the serials leave none out. -/
theorem lane_iff (final : α → ν) (seen : β → ν) (binds : β → Prop) (bound : Prop)
    (hf : Follows step (logOf row) (fun m => m.fault = none ∧ good m.admission) (G false).event P
      (Rel row Ok Adm depth capacity))
    (ha : Answers step (logOf row) (fun m => m.writable = true) capacity (G false).event P
      (Rel row Ok Adm depth capacity)) (hgood : ∀ a b, Adm a b → good a ∧ final a = seen b)
    (hfinal : ∀ a, final a = v → good a) (hstart : Adm a start) (hP : ∀ e ∈ log, P e)
    (hbinds : ∀ r, (G false).replay start log = .ok r → (binds r.admission ↔ bound))
    (hends : ∀ r, (G false).replay start log = .ok r → bound → seen r.admission = v)
    (hnumbering : Numbering (G false) (G true) serialOf last)
    (hnumbers : Numbers (G false) serialOf last) (hlast : last start = 0) (strict : Bool)
    (pending : List γ) :
    (log.length ≤ capacity ∧ ∃ r, (G strict).replay start log = .ok r ∧ binds r.admission ∧
      r.stack = pending) ↔
      (∃ calls : List ρ, (calls.foldl step { admission := a }).fault = none ∧
        (calls.foldl step { admission := a }).events.map (Snapshot.map row) = log ∧
        (calls.foldl step { admission := a }).stack.map row = pending ∧
        final (calls.foldl step { admission := a }).admission = v) ∧
      bound ∧ (strict = true → Consecutive (entrySerials (G false) serialOf log)) := by
  have hlanguage := language_iff final seen hf ha hgood hstart hP pending v
  simp only [Prod.mk.injEq] at hlanguage
  constructor
  · rintro ⟨hlength, r, haccept, hb, hend⟩
    obtain ⟨hplain, hserials⟩ := (hnumbering.replay_of hnumbers hlast strict log r).mp haccept
    have hbound := (hbinds r hplain).mp hb
    obtain ⟨calls, ⟨hfault, -⟩, hlog, hstack, hv⟩ :=
      hlanguage.mpr ⟨hlength, r, hplain, hend, hends r hplain hbound⟩
    exact ⟨⟨calls, hfault, hlog, hstack, hv⟩, hbound, hserials⟩
  · rintro ⟨⟨calls, hfault, hlog, hstack, hv⟩, hbound, hserials⟩
    obtain ⟨hlength, r, hplain, hend, -⟩ :=
      hlanguage.mp ⟨calls, ⟨hfault, hfinal _ hv⟩, hlog, hstack, hv⟩
    exact ⟨hlength, r, (hnumbering.replay_of hnumbers hlast strict log r).mpr ⟨hplain, hserials⟩,
      (hbinds r hplain).mpr hbound, hend⟩

end Lane

/-! ### Logs of any length -/

section Pairs
variable {β γ κ ι ζ : Type} [DecidableEq γ] [DecidableEq ι] {F : Format β γ κ ι ζ}

/-- Frames that are closed as soon as they are open. -/
def pairs (entry exit : κ) (g : Nat → γ) : Nat → List (Snapshot κ γ)
  | 0 => []
  | n + 1 => pairs entry exit g n ++ [⟨entry, g n⟩, ⟨exit, g n⟩]

omit [DecidableEq γ] in
theorem length_pairs (entry exit : κ) (g : Nat → γ) (n : Nat) :
    (pairs entry exit g n).length = 2 * n := by
  induction n with
  | zero => rfl
  | succ n ih =>
    rw [pairs, length_append, ih, length_cons, length_singleton]
    omega

omit [DecidableEq γ] in
theorem mem_pairs {entry exit : κ} {g : Nat → γ} {n : Nat} {e : Snapshot κ γ}
    (h : e ∈ pairs entry exit g n) : ∃ i < n, e.frame = g i := by
  induction n with
  | zero => cases h
  | succ n ih =>
    rcases mem_append.mp h with hold | hnew
    · obtain ⟨i, hi, heq⟩ := ih hold
      exact ⟨i, by omega, heq⟩
    · refine ⟨n, by omega, ?_⟩
      rcases mem_pair.mp hnew with rfl | rfl <;> rfl

theorem Format.replay_pairs {entry exit : κ} {g : Nat → γ} {b c : Nat → β} {N : Nat}
    (hopen : ∀ n < N, F.event ⟨[], b n⟩ ⟨entry, g n⟩ = .ok ⟨[g n], c n⟩)
    (hclose : ∀ n < N, F.event ⟨[g n], c n⟩ ⟨exit, g n⟩ = .ok ⟨[], b (n + 1)⟩) (n : Nat)
    (hn : n ≤ N) : F.replay (b 0) (pairs entry exit g n) = .ok ⟨[], b n⟩ := by
  induction n with
  | zero => rfl
  | succ n ih =>
    have hbefore : (pairs entry exit g n).foldlM F.event ⟨[], b 0⟩ = .ok ⟨[], b n⟩ := ih (by omega)
    unfold Format.replay
    rw [pairs, foldlM_append, hbefore]
    show (F.event _ _ >>= fun r => List.foldlM F.event r [_]) = _
    rw [hopen n (by omega)]
    show (F.event _ _ >>= fun r => List.foldlM F.event r []) = _
    rw [hclose n (by omega)]
    rfl

end Pairs
end SnapshotReplay
