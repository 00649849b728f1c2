import Mcla.Library.NestedRecorder

/-! # Replays of entries and events

A recorder keeps each entry once, in a table of its own, and the events of a frame name the entry
by its place in the table.  A replay gets the whole table and follows the events: each entry in
turn opens a frame, and an event changes the innermost frame, or closes it.  What a kind of
journal asks of its events is a `Format`; what is common to the replays, and to the proofs that a
replay follows its recorder (`Step`) and answers it, is here.
-/
namespace CompactReplay
open NestedRecorder List

/-- What a kind of journal asks of its entries and events. -/
structure Format (η ι ε β γ ζ : Type) where
  idOf : η → ι
  eventId : ε → ι
  indexOf : ε → Nat
  (isEntry isExit : ε → Bool)
  absent : ι
  /-- What is asked of the entry of every event. -/
  common : η → Except ζ Unit
  /-- What is asked of the event of an entry. -/
  plain : ε → Except ζ Unit
  /-- What is asked of an entry, in terms of what is kept of the entries before. -/
  enter : β → η → Except ζ β
  fresh : Nat → ι → γ
  place : γ → Nat
  step : γ → ε → η → Except ζ γ
  nesting : Nat
  (notThere notSame notNext notTop : ζ)

/-- The open frames, from the innermost one, the number of entries so far, and what is kept of
them. -/
structure State (β γ : Type) where
  stack : List γ
  entered : Nat
  kept : β

section Format
variable {η ι ε β γ ζ : Type} [DecidableEq ι] (F : Format η ι ε β γ ζ) (entries : List η)

/-- The invocation that a new one is inside. -/
def Format.parent (stack : List γ) : ι :=
  match stack with
  | [] => F.absent
  | top :: _ =>
    match entries[F.place top]? with
    | none => F.absent
    | some entry => F.idOf entry

/-- One event is replayed. -/
def Format.event (r : State β γ) (e : ε) : Except ζ (State β γ) :=
  match entries[F.indexOf e]? with
  | none => .error F.notThere
  | some entry => do
    need (F.eventId e = F.idOf entry) F.notSame
    F.common entry
    if F.isEntry e then
      F.plain e
      need (F.indexOf e = r.entered ∧ r.stack.length < F.nesting) F.notNext
      let kept ← F.enter r.kept entry
      return ⟨F.fresh r.entered (F.parent entries r.stack) :: r.stack, r.entered + 1, kept⟩
    else
      match r.stack with
      | [] => .error F.notTop
      | top :: rest =>
        need (F.place top = F.indexOf e) F.notTop
        let next ← F.step top e entry
        return { r with stack := if F.isExit e then rest else next :: rest }

variable {F} {entries} {r r' : State β γ} {e : ε}

theorem Format.event_entry (hkind : F.isEntry e = true) :
    F.event entries r e = .ok r' ↔ ∃ entry kept, entries[r.entered]? = some entry ∧
      F.indexOf e = r.entered ∧ F.eventId e = F.idOf entry ∧ F.common entry = .ok () ∧
      F.plain e = .ok () ∧ r.stack.length < F.nesting ∧ F.enter r.kept entry = .ok kept ∧
      r' = ⟨F.fresh r.entered (F.parent entries r.stack) :: r.stack, r.entered + 1, kept⟩ := by
  unfold Format.event
  cases hentry : entries[F.indexOf e]? with
  | none =>
    constructor
    · intro h
      cases h
    · rintro ⟨entry, kept, hthere, hindex, -⟩
      rw [← hindex, hentry] at hthere
      cases hthere
  | some entry =>
    dsimp only
    rw [hkind, check_ok, need_ok, check_ok, if_pos rfl, check_ok, check_ok, need_ok, bind_ok]
    constructor
    · rintro ⟨hid, hcommon, hplain, ⟨hindex, hdepth⟩, kept, henter, heq⟩
      rw [hindex] at hentry
      exact ⟨entry, kept, hentry, hindex, hid, hcommon, hplain, hdepth, henter,
        (pure_ok.mp heq).symm⟩
    · rintro ⟨entry', kept, hthere, hindex, hid, hcommon, hplain, hdepth, henter, rfl⟩
      rw [← hindex, hentry] at hthere
      cases hthere
      exact ⟨hid, hcommon, hplain, ⟨hindex, hdepth⟩, kept, henter, rfl⟩

theorem Format.event_call (hkind : F.isEntry e = false) :
    F.event entries r e = .ok r' ↔ ∃ entry top rest next, entries[F.indexOf e]? = some entry ∧
      F.eventId e = F.idOf entry ∧ F.common entry = .ok () ∧ r.stack = top :: rest ∧
      F.place top = F.indexOf e ∧ F.step top e entry = .ok next ∧
      r' = { r with stack := if F.isExit e then rest else next :: rest } := by
  unfold Format.event
  cases hentry : entries[F.indexOf e]? with
  | none =>
    constructor
    · intro h
      cases h
    · rintro ⟨entry, top, rest, next, hthere, -⟩
      cases hthere
  | some entry =>
    dsimp only
    rw [hkind, check_ok, need_ok, check_ok, if_neg Bool.false_ne_true]
    cases hstack : r.stack with
    | nil =>
      constructor
      · rintro ⟨-, -, h⟩
        cases h
      · rintro ⟨_, _, _, _, -, -, -, h, -⟩
        cases h
    | cons top rest =>
      dsimp only
      rw [check_ok, need_ok, bind_ok]
      constructor
      · rintro ⟨hid, hcommon, hplace, next, hstep, heq⟩
        exact ⟨entry, top, rest, next, rfl, hid, hcommon, rfl, hplace, hstep, (pure_ok.mp heq).symm⟩
      · rintro ⟨entry', top', rest', next, hthere, hid, hcommon, hcons, hplace, hstep, rfl⟩
        cases hthere
        obtain ⟨rfl, rfl⟩ := List.cons.inj hcons
        exact ⟨hid, hcommon, hplace, next, hstep, rfl⟩

/-- The replay of the events, from what is known at the start. -/
def Format.replay (F : Format η ι ε β γ ζ) (entries : List η) (start : β) (log : List ε) :
    Except ζ (State β γ) :=
  log.foldlM (F.event entries) ⟨[], 0, start⟩

/-- No more entries than there are. -/
theorem Format.entered_le {start : β} (log : List ε)
    (h : F.replay entries start log = .ok r) : r.entered ≤ entries.length := by
  unfold Format.replay at h
  induction log using reverseRecOn generalizing r with
  | nil =>
    cases h
    exact Nat.zero_le _
  | append_singleton log e ih =>
    rw [foldlM_snoc, bind_ok] at h
    obtain ⟨r₁, hfirst, hlast⟩ := h
    cases hkind : F.isEntry e with
    | true =>
      obtain ⟨entry, kept, hthere, -, -, -, -, -, -, rfl⟩ := (Format.event_entry hkind).mp hlast
      obtain ⟨hlt, -⟩ := List.getElem?_eq_some_iff.mp hthere
      exact hlt
    | false =>
      obtain ⟨entry, top, rest, next, -, -, -, -, -, -, rfl⟩ := (Format.event_call hkind).mp hlast
      have hle := ih hfirst
      exact hle

/-- The entries so far passed the check that is common to all events. -/
theorem Format.replay_common {start : β} (log : List ε) (h : F.replay entries start log = .ok r) :
    ∀ entry ∈ entries.take r.entered, F.common entry = .ok () := by
  unfold Format.replay at h
  induction log using reverseRecOn generalizing r with
  | nil =>
    cases h
    intro entry hentry
    cases hentry
  | append_singleton log e ih =>
    rw [foldlM_snoc, bind_ok] at h
    obtain ⟨r₁, hfirst, hlast⟩ := h
    cases hkind : F.isEntry e with
    | true =>
      obtain ⟨entry, kept, hthere, -, -, hcommon, -, -, -, rfl⟩ :=
        (Format.event_entry hkind).mp hlast
      intro entry' hentry'
      have htake : entries.take (r₁.entered + 1) = entries.take r₁.entered ++ [entry] := by
        rw [take_add_one, hthere]
        rfl
      rw [htake] at hentry'
      rcases mem_append.mp hentry' with hold | hnew
      · exact ih hfirst entry' hold
      · obtain rfl := mem_singleton.mp hnew
        exact hcommon
    | false =>
      obtain ⟨entry, top, rest, next, -, -, -, -, -, -, rfl⟩ := (Format.event_call hkind).mp hlast
      have hall := ih hfirst
      exact hall

/-- What each entry keeps holds after the replay. -/
theorem Format.replay_kept {P : Nat → β → Prop} {start : β} (hstart : P 0 start)
    (hstep : ∀ n b entry b', P n b → F.enter b entry = .ok b' → P (n + 1) b') (log : List ε)
    (h : F.replay entries start log = .ok r) : P r.entered r.kept := by
  unfold Format.replay at h
  induction log using reverseRecOn generalizing r with
  | nil =>
    cases h
    exact hstart
  | append_singleton log e ih =>
    rw [foldlM_snoc, bind_ok] at h
    obtain ⟨r₁, hfirst, hlast⟩ := h
    cases hkind : F.isEntry e with
    | true =>
      obtain ⟨entry, kept, -, -, -, -, -, -, henter, rfl⟩ := (Format.event_entry hkind).mp hlast
      exact hstep _ _ _ _ (ih hfirst) henter
    | false =>
      obtain ⟨entry, top, rest, next, -, -, -, -, -, -, rfl⟩ := (Format.event_call hkind).mp hlast
      have hkept := ih hfirst
      exact hkept

/-- A replay of a whole table has seen an entry, unless there is none: what is kept is no more what
it was before the first one, and what all the entries agree in is bound. -/
theorem Format.bound_iff {ν : Type} (unset : β → Prop) [DecidablePred unset] {start : β}
    {absent v : ν} (hstart : unset start)
    (henter : ∀ b entry b', F.enter b entry = .ok b' → ¬unset b')
    (hcommon : ∀ entry, F.common entry = .ok () → v ≠ absent) (log : List ε)
    (h : F.replay entries start log = .ok r) (hwhole : r.entered = entries.length) :
    (if unset r.kept then absent else v) = v ↔ (v ≠ absent ↔ r.entered ≠ 0) := by
  have hunset : unset r.kept ↔ r.entered = 0 := by
    refine Format.replay_kept (P := fun n b => unset b ↔ n = 0) (by simp [hstart]) ?_ log h
    intro n b entry b' _ hkept
    simp [henter b entry b' hkept]
  by_cases hzero : r.entered = 0
  · rw [if_pos (hunset.mpr hzero)]
    simp only [hzero, ne_eq, not_true_eq_false, iff_false, not_not]
    exact eq_comm
  · rw [if_neg (mt hunset.mp hzero)]
    obtain ⟨entry, rest, heq⟩ : ∃ entry rest, entries = entry :: rest := by
      refine exists_cons_of_ne_nil fun hnil => hzero ?_
      rw [hwhole, hnil, length_nil]
    have hv : v ≠ absent := by
      refine hcommon entry (Format.replay_common log h entry ?_)
      rw [hwhole, take_length, heq]
      exact mem_cons_self
    exact ⟨fun _ => ⟨fun _ => hzero, fun _ => hv⟩, fun _ => rfl⟩

end Format

/-! ### A recorder and its replay -/

section Simulation
variable {α η ι ε β γ φ ζ δ : Type} [DecidableEq ι] {F : Format η ι ε β γ ζ} {entries : List η}
  {entriesOf : α → List η} {row : φ → γ} {Ok : Nat → φ → Prop} {Adm : α → β → Prop}
  {depth capacity : Nat} {m : Recorder α φ ε δ} {r r' : State β γ} {f : φ} {left : Option φ}
  {e : ε} {entry : η} {rest : List φ}

/-- The replay has the open frames, the recorder the entries so far; `Ok` says what holds of an
open frame after so many events. -/
structure Rel (F : Format η ι ε β γ ζ) (entries : List η) (entriesOf : α → List η) (row : φ → γ)
    (Ok : Nat → φ → Prop) (Adm : α → β → Prop) (depth capacity : Nat) (m : Recorder α φ ε δ)
    (r : State β γ) : Prop where
  stack : r.stack = m.stack.map row
  ok : ∀ f ∈ m.stack, F.place (row f) < r.entered ∧ Ok m.events.length f
  entered : r.entered ≤ entries.length
  taken : entriesOf m.admission = entries.take r.entered
  common : ∀ entry ∈ entries.take r.entered, F.common entry = .ok ()
  admission : Adm m.admission r.kept
  depth : m.stack.length ≤ depth
  fits : m.events.length ≤ capacity

omit [DecidableEq ι] in
theorem Rel.frozen (h : Rel F entries entriesOf row Ok Adm depth capacity m r) :
    Rel F entries entriesOf row Ok Adm depth capacity { m with frozen := true } r :=
  ⟨h.stack, h.ok, h.entered, h.taken, h.common, h.admission, h.depth, h.fits⟩

omit [DecidableEq ι] in
/-- The entry of an open frame is the same on both sides. -/
theorem Rel.entry_eq (h : Rel F entries entriesOf row Ok Adm depth capacity m r)
    (hf : f ∈ m.stack) : ∃ entry, (entriesOf m.admission)[F.place (row f)]? = some entry ∧
      entries[F.place (row f)]? = some entry ∧ F.common entry = .ok () := by
  have hplace := (h.ok f hf).1
  have hlt : F.place (row f) < entries.length := lt_of_lt_of_le hplace h.entered
  refine ⟨entries[F.place (row f)], ?_, getElem?_eq_getElem hlt, h.common _ ?_⟩
  · rw [h.taken, getElem?_take_of_lt hplace, getElem?_eq_getElem hlt]
  · rw [mem_take_iff_getElem]
    exact ⟨F.place (row f), lt_min hplace hlt, rfl⟩

omit [DecidableEq ι] in
/-- The entries so far are the first of the table. -/
theorem Rel.length_entries (h : Rel F entries entriesOf row Ok Adm depth capacity m r) :
    (entriesOf m.admission).length = r.entered := by
  rw [h.taken, length_take, Nat.min_eq_left h.entered]

omit [DecidableEq ι] in
/-- The entry that comes next is the next of the table. -/
theorem Rel.next_entry (h : Rel F entries entriesOf row Ok Adm depth capacity m r)
    (hentries : entriesOf m.admission ++ [entry] <+: entries) : entries[r.entered]? = some entry := by
  have hlength := h.length_entries
  have hget := prefix_iff_getElem?.mp hentries r.entered (by simp [hlength])
  rw [hget, getElem_append_right (by omega)]
  simp

omit [DecidableEq ι] in
/-- The parent of the next frame is the innermost one on both sides. -/
theorem Rel.parent_eq {own : φ → ι} (h : Rel F entries entriesOf row Ok Adm depth capacity m r)
    (hown : ∀ f entry, (entriesOf m.admission)[F.place (row f)]? = some entry →
      own f = F.idOf entry) :
    F.parent entries r.stack = match m.stack with
      | [] => F.absent
      | top :: _ => own top := by
  rw [h.stack]
  cases hstack : m.stack with
  | nil => rfl
  | cons top rest =>
    obtain ⟨entry, hthere, hall, -⟩ := h.entry_eq (f := top) (by rw [hstack]; simp)
    show _ = own top
    rw [hown top entry hthere]
    unfold Format.parent
    rw [map_cons]
    dsimp only
    rw [hall]

/-- A call on the innermost frame, as the replay sees it. -/
structure Step (F : Format η ι ε β γ ζ) (row : φ → γ) (Ok : φ → Prop) (entry : η) (f : φ)
    (left : Option φ) (e : ε) : Prop where
  kind : F.isEntry e = false
  ends : left.isNone = F.isExit e
  id : F.eventId e = F.idOf entry
  index : F.indexOf e = F.place (row f)
  next : ∃ g, F.step (row f) e entry = .ok g ∧
    ∀ f', left = some f' → row f' = g ∧ F.place g = F.place (row f) ∧ Ok f'

/-- **One call on the innermost frame** is one event that the replay accepts. -/
theorem Rel.amends (h : Rel F entries entriesOf row Ok Adm depth capacity m r)
    (left : Option φ) (hmono : ∀ n f, Ok n f → Ok (n + 1) f) (hstack : m.stack = f :: rest)
    (hroom : m.events.length < capacity)
    (hs : ∀ entry, (entriesOf m.admission)[F.place (row f)]? = some entry →
      Step F row (Ok (m.events.length + 1)) entry f left e) :
    ∃ r', F.event entries r e = .ok r' ∧ Rel F entries entriesOf row Ok Adm depth capacity
      { m with stack := left.toList ++ rest, events := m.events ++ [e] } r' := by
  have hf : f ∈ m.stack := by rw [hstack]; exact mem_cons_self
  obtain ⟨entry, hown, hthere, hcommon⟩ := h.entry_eq hf
  obtain ⟨hkind, hends, hid, hindex, g, hstep, hleft⟩ := hs entry hown
  have hrows : r.stack = row f :: rest.map row := by rw [h.stack, hstack]; rfl
  refine ⟨{ r with stack := (left.toList ++ rest).map row }, ?_, ?_⟩
  · refine (Format.event_call hkind).mpr ⟨entry, row f, rest.map row, g, by rw [hindex]; exact hthere,
      hid, hcommon, hrows, hindex.symm, hstep, ?_⟩
    cases left with
    | none =>
      rw [← hends]
      rfl
    | some f' =>
      rw [← hends, ← (hleft f' rfl).1]
      rfl
  · have hlength : (m.events ++ [e]).length = m.events.length + 1 := by simp
    refine ⟨rfl, ?_, h.entered, h.taken, h.common, h.admission, ?_, ?_⟩
    · intro f'' hf''
      rw [hlength]
      rcases mem_append.mp hf'' with hnew | hold
      · have hsome : left = some f'' := by simpa using hnew
        obtain ⟨hrow, hplace, hok⟩ := hleft f'' hsome
        rw [hrow, hplace]
        exact ⟨(h.ok f hf).1, hok⟩
      · obtain ⟨hplace, hok⟩ := h.ok f'' (by rw [hstack]; exact mem_cons_of_mem _ hold)
        exact ⟨hplace, hmono _ _ hok⟩
    · have hle : left.toList.length ≤ 1 := by cases left <;> simp
      have hdepth := h.depth
      rw [hstack, length_cons] at hdepth
      show (left.toList ++ rest).length ≤ depth
      rw [length_append]
      omega
    · show (m.events ++ [e]).length ≤ capacity
      omega

omit [DecidableEq ι] in
theorem Rel.innermost (h : Rel F entries entriesOf row Ok Adm depth capacity m r) {top : γ}
    {rows : List γ} (hrows : r.stack = top :: rows) :
    ∃ f rest, m.stack = f :: rest ∧ row f = top ∧ Ok m.events.length f := by
  have hmap := h.stack
  rw [hrows] at hmap
  obtain ⟨f, rest, hstack, htop, -⟩ := map_eq_cons_iff.mp hmap.symm
  exact ⟨f, rest, hstack, htop, (h.ok f (by rw [hstack]; exact mem_cons_self)).2⟩

/-! ### Entries -/

/-- An entry, as the replay sees it: what the checks give on both sides. -/
structure Opening (F : Format η ι ε β γ ζ) (entries : List η) (entriesOf : α → List η)
    (row : φ → γ) (Ok : φ → Prop) (Adm : α → β → Prop) (before : List η) (r : State β γ) (a : α)
    (f : φ) (e : ε) (entry : η) (kept : β) : Prop where
  kind : F.isEntry e = true
  there : entries[r.entered]? = some entry
  added : entriesOf a = before ++ [entry]
  index : F.indexOf e = r.entered
  id : F.eventId e = F.idOf entry
  common : F.common entry = .ok ()
  plain : F.plain e = .ok ()
  accept : F.enter r.kept entry = .ok kept
  fresh : row f = F.fresh r.entered (F.parent entries r.stack)
  place : F.place (row f) = r.entered
  ok : Ok f
  admission : Adm a kept

/-- **An entry** is one event that the replay accepts. -/
theorem Rel.opens (h : Rel F entries entriesOf row Ok Adm depth capacity m r)
    (hmono : ∀ n f, Ok n f → Ok (n + 1) f) (hdepth : m.stack.length < depth)
    (hnesting : depth ≤ F.nesting) (hroom : m.events.length < capacity) {a : α} {kept : β}
    (ho : Opening F entries entriesOf row (Ok (m.events.length + 1)) Adm (entriesOf m.admission) r a
      f e entry kept) :
    F.event entries r e = .ok ⟨row f :: r.stack, r.entered + 1, kept⟩ ∧
      Rel F entries entriesOf row Ok Adm depth capacity (m.opened a f e)
        ⟨row f :: r.stack, r.entered + 1, kept⟩ := by
  obtain ⟨hlt, hget⟩ := List.getElem?_eq_some_iff.mp ho.there
  have htake : entries.take (r.entered + 1) = entries.take r.entered ++ [entry] := by
    rw [take_add_one, ho.there]
    rfl
  constructor
  · refine (Format.event_entry ho.kind).mpr ⟨entry, kept, ho.there, ho.index, ho.id, ho.common,
      ho.plain, ?_, ho.accept, ?_⟩
    · rw [h.stack, length_map]
      omega
    · rw [ho.fresh]
  · have hlength : (m.opened a f e).events.length = m.events.length + 1 := by
      simp [Recorder.opened]
    refine ⟨congrArg _ h.stack, ?_, hlt, ?_, ?_, ho.admission, ?_, ?_⟩
    · intro f' hf'
      rw [hlength]
      rcases mem_cons.mp hf' with rfl | hold
      · rw [ho.place]
        exact ⟨Nat.lt_succ_self _, ho.ok⟩
      · obtain ⟨hplace, hok⟩ := h.ok f' hold
        exact ⟨Nat.lt_succ_of_lt hplace, hmono _ _ hok⟩
    · rw [htake, ← h.taken]
      exact ho.added
    · intro entry' hentry'
      rw [htake] at hentry'
      rcases mem_append.mp hentry' with hold | hnew
      · exact h.common entry' hold
      · obtain rfl := mem_singleton.mp hnew
        exact ho.common
    · exact hdepth
    · rw [hlength]
      exact hroom

omit [DecidableEq ι] in
theorem rel_new {start : β} {a : α} (hentries : entriesOf a = []) (hstart : Adm a start) :
    Rel F entries entriesOf row Ok Adm depth capacity ({ admission := a } : Recorder α φ ε δ)
      ⟨[], 0, start⟩ :=
  ⟨rfl, fun f hf => (by cases hf), Nat.zero_le _, by rw [hentries]; rfl,
    fun entry hentry => (by cases hentry), hstart, Nat.zero_le _, Nat.zero_le _⟩

/-! ### What the calls of a recorder do -/

section Outcomes
variable {opens : Recorder α φ ε δ → α → φ → ε → Prop}
  {changes : Recorder α φ ε δ → φ → Option φ → ε → Prop} {m' : Recorder α φ ε δ} {ok : Bool}

/-- What a call does: it is refused, faults and changes nothing else, or succeeds with one event,
which opens a frame or changes the innermost one. -/
inductive Outcome (opens : Recorder α φ ε δ → α → φ → ε → Prop)
    (changes : Recorder α φ ε δ → φ → Option φ → ε → Prop) (capacity : Nat)
    (m : Recorder α φ ε δ) : Recorder α φ ε δ → Bool → Prop where
  | refused (hw : m.writable = false) : Outcome opens changes capacity m m false
  | faults (hw : m.writable = true) (fault : δ) :
    Outcome opens changes capacity m { m with fault := some fault } false
  | opens (hw : m.writable = true) (hroom : m.events.length < capacity) {a : α} {f : φ} {e : ε}
      (h : opens m a f e) : Outcome opens changes capacity m (m.opened a f e) true
  | changes (hw : m.writable = true) (hroom : m.events.length < capacity) {f : φ} {rest : List φ}
      (hstack : m.stack = f :: rest) {left : Option φ} {e : ε} (h : changes m f left e) :
    Outcome opens changes capacity m
      { m with stack := left.toList ++ rest, events := m.events ++ [e] } true

omit [DecidableEq ι] in
/-- A call on the innermost frame. -/
theorem onTop_outcome {isTop : φ → Bool} {identity : δ} {body : φ → Except δ (Option φ × ε)}
    (hbody : ∀ f left e, isTop f = true → body f = .ok (left, e) →
      m.events.length < capacity ∧ changes m f left e) :
    Outcome opens changes capacity m (m.onTop isTop identity body).1
      (m.onTop isTop identity body).2 := by
  refine Recorder.attempt_rec (P := Outcome opens changes capacity m) .refused .faults
    fun hw m' hamended => ?_
  obtain ⟨f, rest, left, e, hstack, htop, hsucceeds, rfl⟩ := Recorder.amended_ok.mp hamended
  obtain ⟨hroom, hchanges⟩ := hbody f left e htop hsucceeds
  exact .changes hw hroom hstack hchanges

/-- **A call that leaves no fault** is followed by the replay, if its entries and its changes
are. -/
theorem Outcome.emits (ho : Outcome opens changes capacity m m' ok) (hsound : m'.fault = none)
    (hmono : ∀ n f, Ok n f → Ok (n + 1) f) (hnesting : depth ≤ F.nesting)
    (hopens : ∀ r a f e, Rel F entries entriesOf row Ok Adm depth capacity m r →
      m' = m.opened a f e → opens m a f e → m.stack.length < depth ∧ ∃ entry kept,
        Opening F entries entriesOf row (Ok (m.events.length + 1)) Adm (entriesOf m.admission) r a
          f e entry kept)
    (hchanges : ∀ f left e entry, Ok m.events.length f → m.events.length < capacity →
      (entriesOf m.admission)[F.place (row f)]? = some entry → changes m f left e →
        Step F row (Ok (m.events.length + 1)) entry f left e) :
    Emits Recorder.events (F.event entries) (fun _ => True)
      (Rel F entries entriesOf row Ok Adm depth capacity) m m' := by
  cases ho with
  | refused => exact Or.inl ⟨rfl, fun r h => h⟩
  | faults => cases hsound
  | @opens hw hroom a f e hopened =>
    right
    refine ⟨e, rfl, fun _ r h => ?_⟩
    obtain ⟨hdepth, entry, kept, ho⟩ := hopens r a f e h rfl hopened
    obtain ⟨haccept, hrel⟩ := h.opens hmono hdepth hnesting hroom ho
    exact ⟨_, haccept, hrel⟩
  | @changes hw hroom f rest hstack left e hchanged =>
    right
    refine ⟨e, rfl, fun _ r h => ?_⟩
    have hf : f ∈ m.stack := by rw [hstack]; exact mem_cons_self
    exact h.amends left hmono hstack hroom fun entry hown =>
      hchanges f left e entry (h.ok f hf).2 hroom hown hchanged

/-- **An accepted event** is the one that some call leaves, if the accepted entries and the
accepted steps are. -/
theorem answers_of {κ : Type} {step : Recorder α φ ε δ → κ → Recorder α φ ε δ}
    (hmono : ∀ n f, Ok n f → Ok (n + 1) f) (hdepth : F.nesting ≤ depth)
    (hnesting : depth ≤ F.nesting)
    (hentry : ∀ m r e kept entry, Rel F entries entriesOf row Ok Adm depth capacity m r →
      m.writable = true → m.events.length < capacity → m.stack.length < depth →
      F.isEntry e = true → entries[r.entered]? = some entry → F.indexOf e = r.entered →
      F.eventId e = F.idOf entry → F.common entry = .ok () → F.plain e = .ok () →
      F.enter r.kept entry = .ok kept → ∃ call a f, step m call = m.opened a f e ∧
        Opening F entries entriesOf row (Ok (m.events.length + 1)) Adm (entriesOf m.admission) r a
          f e entry kept)
    (hcall : ∀ m e f rest entry next, m.writable = true → m.events.length < capacity →
      m.stack = f :: rest → Ok m.events.length f →
      (entriesOf m.admission)[F.place (row f)]? = some entry → F.isEntry e = false →
      F.eventId e = F.idOf entry → F.indexOf e = F.place (row f) →
      F.step (row f) e entry = .ok next → ∃ call left,
        step m call = { m with stack := left.toList ++ rest, events := m.events ++ [e] } ∧
          Step F row (Ok (m.events.length + 1)) entry f left e) :
    Answers step Recorder.events (fun m => m.writable = true) capacity (F.event entries)
      (fun _ => True) (Rel F entries entriesOf row Ok Adm depth capacity) where
  answers := by
    intro m r e r' h hw hroom _ haccept
    cases hkind : F.isEntry e with
    | true =>
      obtain ⟨entry, kept, hthere, hindex, hid, hcommon, hplain, hlt, henter, rfl⟩ :=
        (Format.event_entry hkind).mp haccept
      have hopen : m.stack.length < depth := by
        rw [h.stack, length_map] at hlt
        omega
      obtain ⟨call, a, f, hstep, ho⟩ := hentry m r e kept entry h hw hroom hopen hkind hthere
        hindex hid hcommon hplain henter
      obtain ⟨-, hrel⟩ := h.opens hmono hopen hnesting hroom ho
      rw [← ho.fresh]
      refine ⟨call, ?_⟩
      rw [hstep]
      exact ⟨hw, rfl, hrel⟩
    | false =>
      obtain ⟨entry, top, rows, next, hthere, hid, -, hrows, hplace, hstep, -⟩ :=
        (Format.event_call hkind).mp haccept
      obtain ⟨f, rest, hstack, rfl, hok⟩ := h.innermost hrows
      have hf : f ∈ m.stack := by rw [hstack]; exact mem_cons_self
      obtain ⟨entry', hown, hall, -⟩ := h.entry_eq hf
      obtain rfl : entry' = entry := by
        rw [← hplace, hall] at hthere
        exact Option.some.inj hthere
      obtain ⟨call, left, hdoes, hs⟩ := hcall m e f rest entry' next hw hroom hstack hok hown hkind
        hid hplace.symm hstep
      obtain ⟨r'', haccept', hrel⟩ := h.amends left hmono hstack hroom fun entry hentry => by
        rw [hown] at hentry
        exact Option.some.inj hentry ▸ hs
      obtain rfl : r'' = r' := Except.ok.inj (haccept'.symm.trans haccept)
      refine ⟨call, ?_⟩
      rw [hdoes]
      exact ⟨hw, rfl, hrel⟩

end Outcomes

/-! ### The language -/

/-- **One language.**  The tables and logs of the runs without a fault are those that are
accepted, with the frames and the final knowledge they end with, where they fit. -/
theorem language_iff {κ ν : Type} {step : Recorder α φ ε δ → κ → Recorder α φ ε δ} {good : α → Prop}
    (final : α → ν) (seen : β → ν) (hf : Follows step Recorder.events
      (fun m => m.fault = none ∧ entriesOf m.admission <+: entries ∧ good m.admission)
      (F.event entries) (fun _ => True) (Rel F entries entriesOf row Ok Adm depth capacity))
    (ha : Answers step Recorder.events (fun m => m.writable = true) capacity (F.event entries)
      (fun _ => True) (Rel F entries entriesOf row Ok Adm depth capacity))
    (hgood : ∀ a b, Adm a b → good a ∧ final a = seen b) {start : β} {a : α}
    (hentries : entriesOf a = []) (hstart : Adm a start) (log : List ε) (pending : List γ) (v : ν) :
    (∃ calls : List κ,
      ((calls.foldl step { admission := a }).fault = none ∧
        good (calls.foldl step { admission := a }).admission) ∧
      entriesOf (calls.foldl step { admission := a }).admission = entries ∧
      (calls.foldl step { admission := a }).events = log ∧
      (calls.foldl step { admission := a }).stack.map row = pending ∧
      final (calls.foldl step { admission := a }).admission = v) ↔
      log.length ≤ capacity ∧ ∃ r, F.replay entries start log = .ok r ∧
        r.entered = entries.length ∧ r.stack = pending ∧ seen r.kept = v := by
  have hnew : Rel F entries entriesOf row Ok Adm depth capacity
      ({ admission := a } : Recorder α φ ε δ) ⟨[], 0, start⟩ := rel_new hentries hstart
  have hlanguage := NestedRecorder.language_iff
    (fun m : Recorder α φ ε δ =>
      (entriesOf m.admission, m.stack.map row, final m.admission))
    (fun r => (entries.take r.entered, r.stack, seen r.kept)) hf ha
    (by
      intro m r h
      rw [h.taken, h.stack, (hgood _ _ h.admission).2])
    (by
      intro m r h hw
      refine ⟨(Recorder.writable_iff.mp hw).2, ?_, (hgood _ _ h.admission).1⟩
      rw [h.taken]
      exact take_prefix _ _)
    (fun m r h => h.fits)
    hnew rfl rfl log (fun _ _ => trivial)
    (entries, pending, v)
  simp only [Prod.mk.injEq] at hlanguage
  constructor
  · rintro ⟨calls, ⟨hfault, hfinal⟩, hall, hlog, hstack, hv⟩
    obtain ⟨hlength, r, haccept, htake, hpending, hseen⟩ := hlanguage.mp
      ⟨calls, ⟨hfault, by rw [hall], hfinal⟩, hlog, hall, hstack, hv⟩
    refine ⟨hlength, r, haccept, ?_, hpending, hseen⟩
    have hle := Format.entered_le log haccept
    have hwhole := congrArg List.length htake
    rw [length_take] at hwhole
    omega
  · rintro ⟨hlength, r, haccept, hall, hpending, hseen⟩
    have htake : entries.take r.entered = entries := by
      rw [hall, take_length]
    obtain ⟨calls, ⟨hfault, -, hfinal⟩, hlog, hwhole, hstack, hv⟩ :=
      hlanguage.mpr ⟨hlength, r, haccept, htake, hpending, hseen⟩
    exact ⟨calls, ⟨hfault, hfinal⟩, hwhole, hlog, hstack, hv⟩

end Simulation

/-! ### Serials that leave none out -/

section Serials
variable {η ι ε β γ ζ : Type} [DecidableEq ι] {F F' : Format η ι ε β γ ζ} {entries : List η}
  {serialOf : η → Nat} {last : β → Nat} {start : β} {r r' : State β γ} {e : ε}

/-- Among what is kept of the entries is the last serial. -/
def Numbers (F : Format η ι ε β γ ζ) (serialOf : η → Nat) (last : β → Nat) : Prop :=
  ∀ b entry b', F.enter b entry = .ok b' → last b' = serialOf entry

/-- The serials of the entries so far. -/
def serials (entries : List η) (serialOf : η → Nat) (n : Nat) : List Nat :=
  (entries.take n).map serialOf

omit [DecidableEq ι] in
theorem serials_snoc {n : Nat} {entry : η} (h : entries[n]? = some entry) :
    serials entries serialOf (n + 1) = serials entries serialOf n ++ [serialOf entry] := by
  unfold serials
  rw [take_add_one, h, map_append]
  rfl

theorem Numbers.replay (hn : Numbers F serialOf last) (hstart : last start = 0) (log : List ε)
    (h : F.replay entries start log = .ok r) :
    last r.kept = (serials entries serialOf r.entered).getLast?.getD 0 := by
  unfold Format.replay at h
  induction log using reverseRecOn generalizing r with
  | nil =>
    cases h
    exact hstart
  | append_singleton log e ih =>
    rw [foldlM_snoc, bind_ok] at h
    obtain ⟨r₁, hfirst, hlast⟩ := h
    cases hkind : F.isEntry e with
    | true =>
      obtain ⟨entry, kept, hthere, -, -, -, -, -, henter, rfl⟩ :=
        (Format.event_entry hkind).mp hlast
      rw [serials_snoc hthere, hn _ _ _ henter]
      simp
    | false =>
      obtain ⟨entry, top, rest, next, -, -, -, -, -, -, rfl⟩ := (Format.event_call hkind).mp hlast
      have hkept := ih hfirst
      exact hkept

/-- A replay that asks each entry for the next serial as well. -/
structure Numbering (F F' : Format η ι ε β γ ζ) (serialOf : η → Nat) (last : β → Nat) : Prop where
  same : F' = { F with enter := F'.enter }
  enter : ∀ b entry b', F'.enter b entry = .ok b' ↔
    F.enter b entry = .ok b' ∧ serialOf entry = last b + 1

theorem Numbering.event (h : Numbering F F' serialOf last) (r : State β γ) (e : ε)
    (r' : State β γ) : F'.event entries r e = .ok r' ↔ F.event entries r e = .ok r' ∧
      (F.isEntry e = true → ∀ entry, entries[r.entered]? = some entry →
        serialOf entry = last r.kept + 1) := by
  have hsame : F'.isEntry = F.isEntry ∧ F'.indexOf = F.indexOf ∧ F'.eventId = F.eventId ∧
      F'.idOf = F.idOf ∧ F'.common = F.common ∧ F'.plain = F.plain ∧ F'.nesting = F.nesting ∧
      F'.fresh = F.fresh ∧ F'.parent = F.parent ∧ F'.place = F.place ∧ F'.step = F.step ∧
      F'.isExit = F.isExit := by
    rw [h.same]
    exact ⟨rfl, rfl, rfl, rfl, rfl, rfl, rfl, rfl, rfl, rfl, rfl, rfl⟩
  obtain ⟨h1, h2, h3, h4, h5, h6, h7, h8, h9, h10, h11, h12⟩ := hsame
  cases hkind : F.isEntry e with
  | true =>
    rw [Format.event_entry hkind, Format.event_entry (by rw [h1]; exact hkind), h2, h3, h4, h5, h6,
      h7, h8, h9]
    simp only [h.enter]
    constructor
    · rintro ⟨entry, kept, hthere, hindex, hid, hcommon, hplain, hdepth, ⟨henter, hnext⟩, heq⟩
      refine ⟨⟨entry, kept, hthere, hindex, hid, hcommon, hplain, hdepth, henter, heq⟩, ?_⟩
      intro _ entry' hthere'
      rw [hthere] at hthere'
      cases hthere'
      exact hnext
    · rintro ⟨⟨entry, kept, hthere, hindex, hid, hcommon, hplain, hdepth, henter, heq⟩, hnext⟩
      exact ⟨entry, kept, hthere, hindex, hid, hcommon, hplain, hdepth,
        ⟨henter, hnext trivial entry hthere⟩, heq⟩
  | false =>
    rw [Format.event_call hkind, Format.event_call (by rw [h1]; exact hkind), h2, h3, h4, h5, h10,
      h11, h12]
    exact ⟨fun hcall => ⟨hcall, fun hfalse => by cases hfalse⟩, fun hcall => hcall.1⟩

/-- Such a replay accepts the entries whose serials leave none out. -/
theorem Numbering.replay (h : Numbering F F' serialOf last) (hn : Numbers F serialOf last)
    (hstart : last start = 0) (log : List ε) (r : State β γ) :
    F'.replay entries start log = .ok r ↔
      F.replay entries start log = .ok r ∧ Consecutive (serials entries serialOf r.entered) := by
  unfold Format.replay
  induction log using reverseRecOn generalizing r with
  | nil =>
    constructor
    · intro hreplay
      cases hreplay
      exact ⟨rfl, rfl⟩
    · exact fun hreplay => hreplay.1
  | append_singleton log e ih =>
    rw [foldlM_snoc, foldlM_snoc, bind_ok, bind_ok]
    -- what an event adds to the serials is what the stricter replay asks of it
    have hadds : ∀ r₁, F.replay entries start log = .ok r₁ → F.event entries r₁ e = .ok r →
        (Consecutive (serials entries serialOf r.entered) ↔
          Consecutive (serials entries serialOf r₁.entered) ∧
            (F.isEntry e = true → ∀ entry, entries[r₁.entered]? = some entry →
              serialOf entry = last r₁.kept + 1)) := by
      intro r₁ hfirst hlast
      cases hkind : F.isEntry e with
      | true =>
        obtain ⟨entry, kept, hthere, -, -, -, -, -, -, rfl⟩ := (Format.event_entry hkind).mp hlast
        rw [serials_snoc hthere, consecutive_snoc, hn.replay hstart log hfirst]
        simp only [hthere, Option.some.injEq, forall_const, forall_eq']
      | false =>
        obtain ⟨entry, top, rest, next, -, -, -, -, -, -, rfl⟩ := (Format.event_call hkind).mp hlast
        simp
    constructor
    · rintro ⟨r₁, hfirst, hlast⟩
      obtain ⟨hfirst, hserials⟩ := (ih r₁).mp hfirst
      obtain ⟨hlast, hasks⟩ := (h.event r₁ e r).mp hlast
      exact ⟨⟨r₁, hfirst, hlast⟩, (hadds r₁ hfirst hlast).mpr ⟨hserials, hasks⟩⟩
    · rintro ⟨⟨r₁, hfirst, hlast⟩, hserials⟩
      obtain ⟨hserials, hasks⟩ := (hadds r₁ hfirst hlast).mp hserials
      exact ⟨r₁, (ih r₁).mpr ⟨hfirst, hserials⟩, (h.event r₁ e r).mpr ⟨hlast, hasks⟩⟩

/-- Of a whole table a replay that asks this of healthy journals alone. -/
theorem Numbering.replay_of {G : Bool → Format η ι ε β γ ζ}
    (h : Numbering (G false) (G true) serialOf last) (hn : Numbers (G false) serialOf last)
    (hstart : last start = 0) (healthy : Bool) (log : List ε)
    (hwhole : r.entered = entries.length) :
    (G healthy).replay entries start log = .ok r ↔ (G false).replay entries start log = .ok r ∧
      (healthy = true → Consecutive (entries.map serialOf)) := by
  cases healthy with
  | false => simp
  | true =>
    rw [h.replay hn hstart, serials, hwhole, take_length]
    simp

end Serials

/-! ### Lanes -/

section Lane
variable {α η ι ε β γ φ ζ δ κ ν : Type} [DecidableEq ι] {G : Bool → Format η ι ε β γ ζ}
  {entries : List η} {entriesOf : α → List η} {row : φ → γ} {Ok : Nat → φ → Prop}
  {Adm : α → β → Prop} {depth capacity : Nat} {step : Recorder α φ ε δ → κ → Recorder α φ ε δ}
  {good : α → Prop} {checked native : η → Prop} {serialOf : η → Nat} {last : β → Nat} {start : β}
  {a : α} {absent v : ν} {log : List ε}

/-- **The language of a lane.**  A lane has a table, each entry of which is checked, and says what
its entries are bound to.  It is accepted where table, log and frames are those of some calls that
end bound to it, the entries are its own, and, in a healthy journal, the serials leave none out. -/
theorem lane_iff (final : α → ν) (seen : β → ν)
    (hf : (∀ entry ∈ entries, native entry) → Follows step Recorder.events
      (fun m => m.fault = none ∧ entriesOf m.admission <+: entries ∧ good m.admission)
      ((G false).event entries) (fun _ => True)
      (Rel (G false) entries entriesOf row Ok Adm depth capacity))
    (ha : (∀ entry ∈ entries, checked entry) → (∀ entry ∈ entries, native entry) →
      Answers step Recorder.events (fun m => m.writable = true) capacity ((G false).event entries)
        (fun _ => True) (Rel (G false) entries entriesOf row Ok Adm depth capacity))
    (hgood : ∀ a b, Adm a b → good a ∧ final a = seen b) (hfinal : ∀ a, final a = v → good a)
    (hentries : entriesOf a = []) (hstart : Adm a start)
    (hcommon : ∀ entry, (G false).common entry = .ok () → native entry)
    (hchecked : ∀ calls : List κ,
      ∀ entry ∈ entriesOf (calls.foldl step { admission := a }).admission,
        entry ∈ entries → checked entry)
    (hbound : ∀ r, (G false).replay entries start log = .ok r → r.entered = entries.length →
      (seen r.kept = v ↔ (v ≠ absent ↔ r.entered ≠ 0)))
    (hnumbering : Numbering (G false) (G true) serialOf last)
    (hnumbers : Numbers (G false) serialOf last) (hlast : last start = 0) (healthy : Bool) (hlog : log.length ≤ capacity) (pending : List γ) :
    ((∀ entry ∈ entries, checked entry) ∧ ∃ r, (G healthy).replay entries start log = .ok r ∧
      r.entered = entries.length ∧ (v ≠ absent ↔ r.entered ≠ 0) ∧ r.stack = pending) ↔
      (∃ calls : List κ, (calls.foldl step { admission := a }).fault = none ∧
        entriesOf (calls.foldl step { admission := a }).admission = entries ∧
        (calls.foldl step { admission := a }).events = log ∧
        (calls.foldl step { admission := a }).stack.map row = pending ∧
        final (calls.foldl step { admission := a }).admission = v) ∧
      (∀ entry ∈ entries, native entry) ∧
      (healthy = true → Consecutive (entries.map serialOf)) := by
  -- both directions go through the replay that asks nothing of a healthy journal
  constructor
  · rintro ⟨hall, r, haccept, hwhole, hepoch, hpending⟩
    obtain ⟨haccept, hserials⟩ :=
      (hnumbering.replay_of hnumbers hlast healthy log hwhole).mp haccept
    have hnative : ∀ entry ∈ entries, native entry := by
      intro entry hentry
      refine hcommon entry (Format.replay_common log haccept entry ?_)
      rw [hwhole, take_length]
      exact hentry
    obtain ⟨calls, ⟨hfault, -⟩, htable, hevents, hstack, hv⟩ :=
      (language_iff final seen (hf hnative) (ha hall hnative) hgood hentries hstart log pending
        v).mpr ⟨hlog, r, haccept, hwhole, hpending, (hbound r haccept hwhole).mpr hepoch⟩
    exact ⟨⟨calls, hfault, htable, hevents, hstack, hv⟩, hnative, hserials⟩
  · rintro ⟨⟨calls, hfault, htable, hevents, hstack, hv⟩, hnative, hserials⟩
    have hall : ∀ entry ∈ entries, checked entry := fun entry hentry =>
      hchecked calls entry (by rw [htable]; exact hentry) hentry
    obtain ⟨-, r, haccept, hwhole, hpending, hseen⟩ :=
      (language_iff final seen (hf hnative) (ha hall hnative) hgood hentries hstart log pending
        v).mp ⟨calls, ⟨hfault, hfinal _ hv⟩, htable, hevents, hstack, hv⟩
    exact ⟨hall, r, (hnumbering.replay_of hnumbers hlast healthy log hwhole).mpr
      ⟨haccept, hserials⟩, hwhole, (hbound r haccept hwhole).mp hseen, hpending⟩

end Lane

end CompactReplay
