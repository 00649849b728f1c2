import Mcla.Semaphore.PrefixAudit

/-! # The prefix audit: its projections are accepted

The sweep accepts components one after the other, so that a prefix is made of the first
components of its epoch, all of which have ended when the boundary is reached.  The ledger of the
first version finds the same components, and takes on each of them the step that the sweep took.
-/
namespace Mcla.Semaphore.Prefix
open Intervals (components Before)
open Credit (need_ok uint_ok uintOrNull_ok)
open NestedRecorder (bind_ok check_ok forM_ok)
open List

/-! ### The sweep -/

/-- The balance after these components, where each of them has one. -/
def balanceAfter : Nat → List (List Operation) → Option Nat
  | balance, [] => some balance
  | balance, group :: rest =>
    match step group balance with
    | .balance balance => balanceAfter balance rest
    | _ => none

variable {group : List Operation} {groups : List (List Operation)} {l : Credit.Ledger}
  {observer_begin_qpc freeze_qpc qpc_frequency : Nat} {source : Source} {token : String}
  {stop : Nat}

theorem balanceAfter_concat {b b' b'' : Nat} (h : balanceAfter b groups = some b')
    (hstep : step group b' = .balance b'') : balanceAfter b (groups ++ [group]) = some b'' := by
  induction groups generalizing b with
  | nil =>
    obtain rfl := Option.some.inj h
    simp [balanceAfter, hstep]
  | cons first groups ih =>
    simp only [cons_append, balanceAfter] at h ⊢
    split at h
    · exact ih h
    · cases h

/-- What the sweep knows of the components it has accepted, with the number of those before
the last zero balance. -/
structure Swept (barrier : Nat) (s : Sweep) (done : List (List Operation)) (k : Nat) :
    Prop where
  accepted : s.accepted = done.flatten
  clear : ∀ group ∈ done, ∀ row ∈ group,
    row.completed = true ∧ ∀ exit, row.exit_qpc = some exit → exit < barrier
  balance : balanceAfter 0 done = some s.balance
  zero_le : k ≤ done.length
  last_zero : s.last_zero = (done.take k).flatten.length
  at_zero : balanceAfter 0 (done.take k) = some 0

/-- One more component is accepted. -/
theorem Swept.accept {barrier : Nat} {s : Sweep} {done : List (List Operation)} {k : Nat}
    (h : Swept barrier s done k) {balance : Nat} (hstep : step group s.balance = .balance balance)
    (hclear : ∀ row ∈ group,
      row.completed = true ∧ ∀ exit, row.exit_qpc = some exit → exit < barrier) :
    ∃ k', Swept barrier { s with
      accepted := s.accepted ++ group
      balance
      last_zero := if balance = 0 then (s.accepted ++ group).length else s.last_zero }
      (done ++ [group]) k' := by
  have hbalance := balanceAfter_concat h.balance hstep
  have hrows := forall_mem_append.mpr ⟨h.clear, forall_mem_singleton.mpr hclear⟩
  have haccepted : s.accepted ++ group = (done ++ [group]).flatten := by
    rw [flatten_append, h.accepted, flatten_singleton]
  by_cases hzero : balance = 0
  · have htake : (done ++ [group]).take (done.length + 1) = done ++ [group] :=
      take_of_length_le (by simp)
    refine ⟨done.length + 1, haccepted, hrows, hbalance, by simp, ?_, ?_⟩
    · rw [htake, ← haccepted]
      exact if_pos hzero
    · rw [htake, hbalance, hzero]
  · have htake : (done ++ [group]).take k = done.take k := take_append_of_le_length h.zero_le
    refine ⟨k, haccepted, hrows, hbalance, ?_, ?_, ?_⟩
    · rw [length_append]
      exact h.zero_le.trans (Nat.le_add_right _ _)
    · rw [htake]
      exact (if_neg hzero).trans h.last_zero
    · rw [htake]
      exact h.at_zero

/-- Where the sweep ends: at the barrier, or at the start of a component it has not accepted. -/
theorem Swept.run {barrier : Nat} {s : Sweep} {done : List (List Operation)} {k : Nat}
    (h : Swept barrier s done k) (hstop : s.stop_qpc = barrier) (groups : List (List Operation)) :
    ∃ done' k' rest, done ++ groups = done' ++ rest ∧
      Swept barrier (sweep barrier s groups) done' k' ∧
      (sweep barrier s groups).stop_qpc ≤ barrier ∧
      ((sweep barrier s groups).stop_qpc = barrier ∨
        ∃ group ∈ rest, (sweep barrier s groups).stop_qpc = start group) := by
  induction groups generalizing s done k with
  | nil => exact ⟨done, k, [], rfl, h, hstop.le, .inl hstop⟩
  | cons group groups ih =>
    have hstays : ∀ s' : Sweep, s'.accepted = s.accepted → s'.balance = s.balance →
        s'.last_zero = s.last_zero → Swept barrier s' done k :=
      fun s' haccepted hbalance hlast => ⟨haccepted.trans h.accepted, h.clear,
        h.balance.trans (congrArg some hbalance.symm), h.zero_le, hlast.trans h.last_zero, h.at_zero⟩
    unfold sweep
    split
    · refine ⟨done, k, group :: groups, rfl, hstays _ rfl rfl rfl, min_le_right _ _, ?_⟩
      rcases min_choice (start group) barrier with hmin | hmin
      · exact .inr ⟨group, mem_cons_self, hmin⟩
      · exact .inl hmin
    · rename_i hopen
      obtain ⟨hstart, hopen⟩ := not_or.mp hopen
      have hstart : start group ≤ barrier := (not_le.mp hstart).le
      split
      · exact ⟨done, k, group :: groups, rfl, hstays _ rfl rfl rfl, hstart,
          .inr ⟨group, mem_cons_self, rfl⟩⟩
      · exact ⟨done, k, group :: groups, rfl, hstays _ rfl rfl rfl, hstart,
          .inr ⟨group, mem_cons_self, rfl⟩⟩
      · rename_i balance hstep
        have hclear : ∀ row ∈ group,
            row.completed = true ∧ ∀ exit, row.exit_qpc = some exit → exit < barrier := by
          simpa [Option.any_eq_false] using hopen
        obtain ⟨k', hnext⟩ := h.accept hstep hclear
        obtain ⟨done', k'', rest, hlist, hrest⟩ := ih hnext hstop
        refine ⟨done', k'', rest, ?_, hrest⟩
        rw [← hlist, append_assoc]
        rfl

theorem lt_start {n : Nat} {rows : List Operation} (hrows : rows ≠ [])
    (h : ∀ row ∈ rows, n < entryOf row) : n < start rows := by
  unfold start
  cases hmin : (rows.map entryOf).min? with
  | none =>
    rw [min?_eq_none_iff, map_eq_nil_iff] at hmin
    exact absurd hmin hrows
  | some m =>
    obtain ⟨row, hrow, rfl⟩ := mem_map.mp (min?_mem hmin)
    exact h row hrow

theorem rowBefore_total (a b : Operation) : rowBefore a b ∨ rowBefore b a := by
  unfold rowBefore
  omega

theorem rowBefore_trans {a b c : Operation} (h : rowBefore a b) (h' : rowBefore b c) :
    rowBefore a c := by
  unfold rowBefore at *
  omega

theorem epochRows_sorted (source : Source) (epoch : Credit.Epoch) :
    (epochRows source epoch).Pairwise rowBefore := by
  have : Std.Total rowBefore := ⟨rowBefore_total⟩
  have : IsTrans Operation rowBefore := ⟨fun _ _ _ => rowBefore_trans⟩
  exact pairwise_insertionSort rowBefore _

theorem epochRows_perm (source : Source) (epoch : Credit.Epoch) : (epochRows source epoch).Perm
    (source.operations.filter fun row => row.epoch_id = epoch.epoch_id) :=
  perm_insertionSort _ _

/-- The prefix of an epoch is made of its first components, which have all ended before the
boundary. -/
structure Closed (source : Source) (epoch : Credit.Epoch) (groups : List (List Operation)) :
    Prop where
  rows : (sweepEpoch source epoch).prefix_rows = groups.flatten
  first : groups <+: components entryOf exitOf (epochRows source epoch)
  clear : ∀ row ∈ groups.flatten,
    row.completed = true ∧ ∀ exit, row.exit_qpc = some exit → exit < barrier source
  balance : balanceAfter 0 groups = some 0
  stop_le : (sweepEpoch source epoch).stop_qpc ≤ barrier source
  ended : ∀ row ∈ groups.flatten, ∀ exit, row.exit_qpc = some exit →
    exit < (sweepEpoch source epoch).stop_qpc

theorem rollBack_prefix_rows (s : Sweep) :
    (rollBack s).prefix_rows = s.accepted.take s.last_zero := by
  unfold rollBack
  split <;> rfl

theorem exists_closed (source : Source) (epoch : Credit.Epoch) :
    ∃ groups, Closed source epoch groups := by
  have hsorted : (epochRows source epoch).Pairwise fun a b => entryOf a ≤ entryOf b :=
    (epochRows_sorted source epoch).imp fun {a b} h => by
      unfold rowBefore at h
      omega
  have hbefore := @Intervals.components_pairwise _ entryOf exitOf _ hsorted
  have hne := @Intervals.components_ne_nil _ entryOf exitOf (epochRows source epoch)
  have hstart : Swept (barrier source) { stop_qpc := barrier source } [] 0 :=
    ⟨rfl, by simp, rfl, Nat.le_refl _, rfl, rfl⟩
  obtain ⟨done, k, rest, hlist, hswept, hle, hstop⟩ :=
    hstart.run rfl (components entryOf exitOf (epochRows source epoch))
  rw [nil_append] at hlist
  have hsplit : components entryOf exitOf (epochRows source epoch) =
      done.take k ++ (done.drop k ++ rest) := by
    rw [hlist, ← append_assoc, take_append_drop]
  have hflat : done.flatten = (done.take k).flatten ++ (done.drop k).flatten := by
    rw [← flatten_append, take_append_drop]
  rw [hsplit] at hbefore hne
  obtain ⟨-, -, hacross⟩ := pairwise_append.mp hbefore
  have hclear : ∀ row ∈ (done.take k).flatten,
      row.completed = true ∧ ∀ exit, row.exit_qpc = some exit → exit < barrier source := by
    intro row hrow
    obtain ⟨group, hgroup, hrow⟩ := mem_flatten.mp hrow
    exact hswept.clear group (mem_of_mem_take hgroup) row hrow
  -- A row of the prefix has ended before any row of a later component begins.
  have hlater : ∀ row ∈ (done.take k).flatten, ∀ exit, row.exit_qpc = some exit →
      ∀ group ∈ done.drop k ++ rest, ∀ row' ∈ group, exit < entryOf row' := by
    intro row hrow exit hexit group hgroup row' hrow'
    obtain ⟨group', hgroup', hmem⟩ := mem_flatten.mp hrow
    have hlt := hacross group' hgroup' group hgroup row hmem row' hrow'
    rwa [exitOf, if_pos (hclear row hrow).1, hexit] at hlt
  have hends : ∀ row ∈ (done.take k).flatten, ∀ exit, row.exit_qpc = some exit →
      exit < (sweep (barrier source) { stop_qpc := barrier source }
        (components entryOf exitOf (epochRows source epoch))).stop_qpc := by
    intro row hrow exit hexit
    rcases hstop with hstop | ⟨group, hgroup, hstop⟩
    · rw [hstop]
      exact (hclear row hrow).2 exit hexit
    · rw [hstop]
      have hgroup := mem_append_right (done.drop k) hgroup
      exact lt_start (hne group (mem_append_right _ hgroup))
        (hlater row hrow exit hexit group hgroup)
  refine ⟨done.take k, ?_, ⟨_, hsplit.symm⟩, hclear, hswept.at_zero, ?_, ?_⟩
  · unfold sweepEpoch
    rw [rollBack_prefix_rows, hswept.accepted, hswept.last_zero, hflat, take_left]
  · unfold sweepEpoch rollBack
    split
    · exact (min_le_left _ _).trans hle
    · exact hle
  · intro row hrow exit hexit
    unfold sweepEpoch rollBack
    split
    · rename_i htail
      rw [hswept.accepted, hswept.last_zero, hflat, length_append] at htail
      refine lt_min (hends row hrow exit hexit) ?_
      rw [hswept.accepted, hswept.last_zero, hflat, drop_left]
      refine lt_start (ne_nil_of_length_pos (by omega)) fun row' hrow' => ?_
      obtain ⟨group, hgroup, hrow'⟩ := mem_flatten.mp hrow'
      exact hlater row hrow exit hexit group (mem_append_left _ hgroup) row' hrow'
    · exact hends row hrow exit hexit

/-! ### The ledger of the projection -/

/-- An operation of a prefix, as its projection has it. -/
def Operation.closed (row : Operation) : Credit.Operation := toCredit row row.payload.closed

/-- What the ledger needs of a row: that it is modelled, and that its release has room. -/
structure Fits (maximum : Nat) (row : Operation) : Prop where
  completed : row.completed = true
  supported : unsupported row = false
  room : ∀ count previous context, row.payload = .release count (some true) (some previous) context →
    previous + count ≤ maximum

/-- A ledger without an issue, whose balance is known. -/
structure Tracks (l : Credit.Ledger) (balance : Nat) : Prop where
  balance : l.balance = balance
  valid : l.valid_order = true
  issues : l.issues = []

theorem issue_eq_nil {raised : Bool} {code : String} {epoch_id : Option Nat} (h : raised = false) :
    Credit.issue raised code epoch_id = [] := by
  rw [h]
  rfl

theorem mem_issue {raised : Bool} {code : String} {epoch_id : Option Nat} {found : Credit.Issue}
    (h : found ∈ Credit.issue raised code epoch_id) : found = ⟨epoch_id, code⟩ := by
  cases raised with
  | false => exact absurd h not_mem_nil
  | true => exact mem_singleton.mp h

theorem Tracks.ending_count {balance : Nat} (h : Tracks l balance) (epoch : Credit.Epoch)
    (rows : List Credit.Operation) : (l.summary epoch rows).ending_count = some balance := by
  show (if l.valid_order then some l.balance else none) = some balance
  rw [if_pos h.valid, h.balance]

/-- A component of one row. -/
theorem Tracks.single {balance next : Nat} (h : Tracks l balance) {epoch : Credit.Epoch}
    {row : Operation} (hfits : Fits epoch.maximum_count row)
    (hstep : stepRow row balance = .balance next) : Tracks (l.single epoch row.closed) next := by
  obtain ⟨hbalance, hvalid, hissues⟩ := h
  have hcompleted := hfits.completed
  have hsupported := hfits.supported
  have hpayload : row.closed.payload = row.payload.closed := rfl
  unfold Credit.Ledger.single
  rw [hpayload]
  cases hkind : row.payload with
  | release count success previous context =>
    simp only [stepRow, hkind] at hstep
    rcases success with _ | _ | _
    · obtain rfl := Outcome.balance.inj hstep
      exact ⟨hbalance, hvalid, hissues⟩
    · obtain rfl := Outcome.balance.inj hstep
      exact ⟨hbalance, hvalid, hissues⟩
    · dsimp only at hstep
      split at hstep
      · cases hstep
      · rename_i hprevious
        split at hstep
        · cases hstep
        · rename_i hsingle
          obtain rfl := Outcome.balance.inj hstep
          obtain rfl := not_not.mp hprevious
          have hroom := hfits.room count balance context hkind
          refine ⟨?_, hvalid, ?_⟩
          · show l.balance + count = balance + count
            rw [hbalance]
          · simp [Payload.closed, Credit.issue, hissues, hbalance, hroom, hsingle]
  | wait result timeout =>
    simp only [stepRow, hkind] at hstep
    cases result with
    | none => simp [unsupported, hkind, hcompleted] at hsupported
    | some result =>
      cases result with
      | kSuccess =>
        dsimp only at hstep
        split at hstep
        · cases hstep
        · rename_i hcredit
          obtain rfl := Outcome.balance.inj hstep
          refine ⟨?_, hvalid, ?_⟩
          · show l.balance - 1 = balance - 1
            rw [hbalance]
          · simp [Payload.closed, Credit.issue, hissues, hbalance, hcredit]
      | kTimeout =>
        dsimp only at hstep
        split at hstep
        · cases hstep
        · rename_i hempty
          obtain rfl := Outcome.balance.inj hstep
          refine ⟨hbalance, hvalid, ?_⟩
          simp [Payload.closed, Credit.issue, hissues, hbalance, hempty]
      | kApc | kAlerted =>
        obtain rfl := Outcome.balance.inj hstep
        exact ⟨hbalance, hvalid, hissues⟩
      | _ => simp [unsupported, hkind, hcompleted] at hsupported
  | unsupported kind => simp [unsupported, hkind] at hsupported

theorem isRelease_closed (row : Operation) :
    Credit.Ledger.isRelease row.closed = isRelease row := by
  unfold Credit.Ledger.isRelease isRelease Operation.closed toCredit
  cases row.payload <;> rfl

theorem isWait_closed (row : Operation) : Credit.Ledger.isWait row.closed = isWait row := by
  unfold Credit.Ledger.isWait isWait Operation.closed toCredit
  cases row.payload <;> rfl

/-- The only component of several rows that the sweep accepts. -/
theorem step_overlap {balance next : Nat} (hlength : group.length ≠ 1)
    (hstep : step group balance = .balance next) :
    ∃ release wait, group.length = 2 ∧ group.filter isRelease = [release] ∧
      group.filter isWait = [wait] ∧ balance = 0 ∧ next = 0 ∧ givesCredit release = true ∧
      takesCredit wait = true := by
  unfold step at hstep
  split at hstep
  · exact absurd rfl hlength
  · split at hstep
    · rename_i release wait hrelease hwait
      split at hstep
      · rename_i hpair
        obtain ⟨htwo, hzero, hgives, htakes⟩ := hpair
        exact ⟨release, wait, htwo, hrelease, hwait, hzero, (Outcome.balance.inj hstep).symm, hgives,
          htakes⟩
      · cases hstep
    · cases hstep

/-- A component of several rows. -/
theorem Tracks.overlap {balance next : Nat} (h : Tracks l balance) {epoch : Credit.Epoch}
    (hlength : group.length ≠ 1) (hstep : step group balance = .balance next) :
    Tracks (l.overlap epoch (group.map Operation.closed)) next := by
  obtain ⟨release, wait, htwo, hrelease, hwait, rfl, rfl, hgives, htakes⟩ :=
    step_overlap hlength hstep
  have hreleases : (group.map Operation.closed).filter Credit.Ledger.isRelease =
      [release.closed] := by
    rw [filter_map, Function.comp_def]
    simp only [isRelease_closed, hrelease, map_cons, map_nil]
  have hwaits : (group.map Operation.closed).filter Credit.Ledger.isWait = [wait.closed] := by
    rw [filter_map, Function.comp_def]
    simp only [isWait_closed, hwait, map_cons, map_nil]
  obtain ⟨context, hcredit⟩ :
      ∃ context, Credit.Ledger.oneCredit release.closed.payload = some context := by
    unfold givesCredit at hgives
    split at hgives
    · rename_i context hkind
      exact ⟨context, by simp [Operation.closed, toCredit, hkind, Payload.closed,
        Credit.Ledger.oneCredit]⟩
    · cases hgives
  have htaken : Credit.Ledger.takesCredit wait.closed = true := by
    unfold takesCredit at htakes
    split at htakes
    · rename_i timeout hkind
      simp [Operation.closed, toCredit, hkind, Payload.closed, Credit.Ledger.takesCredit]
    · cases htakes
  unfold Credit.Ledger.overlap
  rw [hreleases, hwaits, length_map, htwo]
  simp only [hcredit, htaken, h.balance]
  exact ⟨rfl, h.valid, h.issues⟩

theorem Tracks.component {balance next : Nat} (h : Tracks l balance) {epoch : Credit.Epoch}
    (hfits : ∀ row ∈ group, Fits epoch.maximum_count row)
    (hstep : step group balance = .balance next) :
    Tracks (l.component epoch (group.map Operation.closed)) next := by
  rcases group with _ | ⟨row, _ | ⟨row', group⟩⟩
  · exact h.overlap (by simp) hstep
  · exact h.single (hfits row mem_cons_self) hstep
  · exact h.overlap (by simp) hstep

/-- The ledger goes through the components of a prefix as the sweep did. -/
theorem Tracks.run {epoch : Credit.Epoch} {balance next : Nat} (h : Tracks l balance)
    (hfits : ∀ row ∈ groups.flatten, Fits epoch.maximum_count row)
    (hbalance : balanceAfter balance groups = some next) :
    Tracks (l.run epoch (groups.map (List.map Operation.closed))) next := by
  induction groups generalizing l balance with
  | nil =>
    obtain rfl := Option.some.inj hbalance
    exact h
  | cons group groups ih =>
    rw [flatten_cons] at hfits
    obtain ⟨hgroup, hrest⟩ := forall_mem_append.mp hfits
    rw [balanceAfter] at hbalance
    split at hbalance
    · rename_i after hstep
      have hnext := h.component hgroup hstep
      rw [map_cons, Credit.Ledger.run, if_pos hnext.valid]
      exact ih hnext hrest hbalance
    · cases hbalance

/-! ### What validation leaves -/

/-- What the audit of a projection draws from the validation of the document. -/
structure Valid (source : Source) (token : String)
    (observer_begin_qpc freeze_qpc qpc_frequency : Nat) : Prop where
  is_token : Credit.isToken token = true
  begin_range : 1 ≤ observer_begin_qpc ∧ observer_begin_qpc ≤ kMaxQpc
  freeze_range : 1 ≤ freeze_qpc ∧ freeze_qpc ≤ kMaxQpc
  frequency_range : 1 ≤ qpc_frequency ∧ qpc_frequency ≤ kMaxQpc
  own_token : source.token = token
  clock : source.clock = "win32-query-performance-counter"
  own_begin : source.observer_begin_qpc = observer_begin_qpc
  own_freeze : source.freeze_qpc = freeze_qpc
  own_frequency : source.qpc_frequency = qpc_frequency
  capacity : Credit.isCapacity source.capacity = true
  stored : source.operations.length ≤ source.capacity
  epochs : ∀ epoch ∈ source.epochs, checkEpoch source epoch = .ok ()
  epoch_ids : (source.epochs.map (·.epoch_id)).Nodup
  rows : ∀ row ∈ source.operations, checkRow source row = .ok ()
  op_ids : (source.operations.map (·.op_id)).Nodup

theorem valid_of_validate {size : Nat}
    (h : validate source size token observer_begin_qpc freeze_qpc qpc_frequency = .ok ()) :
    Valid source token observer_begin_qpc freeze_qpc qpc_frequency := by
  simp only [validate, check_ok, need_ok, uint_ok, forM_ok, decide_eq_true_eq] at h
  obtain ⟨-, htoken, hbegin, hfreeze, hfrequency, -, ⟨-, hown, hclock⟩, hb, hf, hq, hcapacity, -, -,
    hstored, -, hepochs, hids, hrows, hops, -⟩ := h
  exact ⟨htoken, hbegin, hfreeze, hfrequency, hown, hclock, hb, hf, hq, hcapacity, hstored, hepochs,
    hids, hrows, hops⟩

theorem find_epoch {epochs : List Credit.Epoch} (hids : (epochs.map (·.epoch_id)).Nodup)
    {epoch : Credit.Epoch} (hepoch : epoch ∈ epochs) :
    (epochs.find? fun other => other.epoch_id = epoch.epoch_id) = some epoch := by
  cases hfind : epochs.find? fun other => other.epoch_id = epoch.epoch_id with
  | none =>
    have hnone := find?_eq_none.mp hfind epoch hepoch
    simp at hnone
  | some other =>
    have hsame := find?_some hfind
    rw [inj_on_of_nodup_map hids (mem_of_find?_eq_some hfind) hepoch (of_decide_eq_true hsame)]

theorem foldl_min_le (l : List Nat) (n : Nat) : l.foldl min n ≤ n ∧ ∀ m ∈ l, l.foldl min n ≤ m := by
  induction l generalizing n with
  | nil => simp
  | cons a l ih =>
    obtain ⟨hfirst, hrest⟩ := ih (min n a)
    refine ⟨hfirst.trans (min_le_left _ _), forall_mem_cons.mpr ⟨?_, hrest⟩⟩
    exact hfirst.trans (min_le_right _ _)

theorem barrier_le_freeze (source : Source) : barrier source ≤ source.freeze_qpc :=
  (foldl_min_le _ _).1

/-- An operation that nothing is known of stops every epoch. -/
theorem barrier_le_entry {row : Operation} (hrow : row ∈ source.operations)
    (hunsupported : unsupported row = true) {entry : Nat} (hentry : row.entry_qpc = some entry) :
    barrier source ≤ entry := by
  refine (foldl_min_le _ _).2 entry (mem_filterMap.mpr
    ⟨⟨"UNSUPPORTED_OPERATION", row.op_id, row.op_id, row.entry_qpc⟩, ?_, hentry⟩)
  refine mem_append_left _ (mem_flatMap.mpr ⟨row, hrow, ?_⟩)
  rw [if_pos hunsupported]
  exact mem_append_right _ (mem_singleton_self _)

theorem scratchPayload_eq {payload : Payload} {found : Credit.Payload}
    (h : scratchPayload true payload = .ok found) : found = payload.closed := by
  cases payload with
  | release count success previous context =>
    cases success with
    | none => cases h
    | some success => exact (Except.ok.inj h).symm
  | wait result timeout =>
    cases result with
    | none => cases h
    | some result => exact (Except.ok.inj h).symm
  | unsupported kind => exact (Except.ok.inj h).symm

/-- What a document without an issue says of a row of an accepted component. -/
structure Settled (source : Source) (epoch : Credit.Epoch) (row : Operation) : Prop where
  own : row.epoch_id = epoch.epoch_id
  completed : row.completed = true
  entry : row.entry_qpc = some (entryOf row)
  exit : row.exit_qpc = some (exitOf row)
  ordered : entryOf row ≤ exitOf row
  observed : source.observer_begin_qpc ≤ entryOf row
  created : epoch.creation_qpc < entryOf row
  alive : ∀ destroyed, epoch.destroy_qpc = some destroyed → exitOf row < destroyed
  checked : Credit.checkOperation row.closed source.epochs = .ok ()
  fits : Fits epoch.maximum_count row

theorem settled (h : Valid source token observer_begin_qpc freeze_qpc qpc_frequency)
    (hissues : issues source = []) {epoch : Credit.Epoch} (hepoch : epoch ∈ source.epochs)
    {row : Operation} (hrow : row ∈ source.operations) (hown : row.epoch_id = epoch.epoch_id)
    (hcompleted : row.completed = true)
    (hbarrier : ∀ exit, row.exit_qpc = some exit → exit < barrier source) :
    Settled source epoch row := by
  have hfind := find_epoch h.epoch_ids hepoch
  rw [← hown] at hfind
  have hchecked := h.rows row hrow
  unfold checkRow at hchecked
  rw [check_ok, hfind] at hchecked
  obtain ⟨hoperation, hbracket⟩ := hchecked
  simp only [issues, append_eq_nil_iff, flatMap_eq_nil_iff] at hissues
  obtain ⟨⟨-, hclocks⟩, -⟩ := hissues
  have hknown := hclocks row hrow
  -- Without an issue both clocks of a completed operation are known.
  obtain ⟨entry, hentry⟩ : ∃ entry, row.entry_qpc = some entry := by
    cases hentry : row.entry_qpc with
    | none => simp [ifRaised, hentry] at hknown
    | some entry => exact ⟨entry, rfl⟩
  obtain ⟨exit, hexit⟩ : ∃ exit, row.exit_qpc = some exit := by
    cases hexit : row.exit_qpc with
    | none => simp [ifRaised, hexit, hcompleted] at hknown
    | some exit => exact ⟨exit, rfl⟩
  simp only [checkOperation, need_ok, bind_ok, hcompleted, hentry, hexit] at hoperation
  obtain ⟨_, -, _, -, _, -, payload, hscratch, _, hcredit, _, horder, hroom⟩ := hoperation
  obtain rfl := scratchPayload_eq hscratch
  simp only [checkBracket, check_ok, need_ok, hentry, hexit, decide_eq_true_eq,
    Option.all_some] at hbracket horder
  obtain ⟨⟨hobserved, -, hcreated⟩, -, -, halive, -⟩ := hbracket
  have horder : entry ≤ exit := by simpa using horder
  have hsupported : unsupported row = false := by
    by_contra hunsupported
    rw [Bool.not_eq_false] at hunsupported
    have hentered := barrier_le_entry hrow hunsupported hentry
    have hended := hbarrier exit hexit
    omega
  have hentryOf : entryOf row = entry := by rw [entryOf, hentry, Option.getD_some]
  have hexitOf : exitOf row = exit := by rw [exitOf, if_pos hcompleted, hexit, Option.getD_some]
  refine ⟨hown, hcompleted, hentryOf ▸ hentry, hexitOf ▸ hexit, ?_, ?_, ?_, ?_, hcredit, hcompleted,
    hsupported, ?_⟩
  · rw [hentryOf, hexitOf]
    exact horder
  · rw [hentryOf]
    exact hobserved
  · rw [hentryOf]
    exact hcreated
  · intro destroyed hdestroyed
    rw [hexitOf]
    rw [hdestroyed] at halive
    simpa using halive
  · intro count previous context hkind
    have hmaximum : maximumOf source.epochs row = epoch.maximum_count := by
      unfold maximumOf
      rw [hfind]
      rfl
    simp only [hkind, Payload.closed, Option.getD_some, hmaximum, decide_eq_true_eq] at hroom
    exact hroom

/-! ### The document of a projection -/

/-- The epoch of a projection: one that is not yet destroyed at the boundary lives on. -/
def projectedEpoch (epoch : Credit.Epoch) (stop : Nat) : Credit.Epoch :=
  { epoch with
    destroy_qpc := if epoch.destroy_qpc.any fun destroyed => destroyed ≥ stop then none
      else epoch.destroy_qpc }

theorem projectedEpoch_destroy {epoch : Credit.Epoch} {stop destroyed : Nat}
    (h : (projectedEpoch epoch stop).destroy_qpc = some destroyed) :
    epoch.destroy_qpc = some destroyed ∧ destroyed < stop := by
  unfold projectedEpoch at h
  dsimp only at h
  split at h
  · cases h
  · rename_i hlate
    rw [h] at hlate
    exact ⟨h, by simpa using hlate⟩

theorem checkEpoch_projected {epoch : Credit.Epoch} (h : checkEpoch source epoch = .ok ())
    (stop : Nat) : Credit.checkEpoch (projectedEpoch epoch stop) = .ok () := by
  simp only [checkEpoch, check_ok] at h
  obtain ⟨hid, hcookie, hcreation, hdestroy, hmaximum, hinitial, horigin⟩ :=
    Credit.checkEpoch_iff.mp h.1
  exact Credit.checkEpoch_iff.mpr ⟨hid, hcookie, hcreation,
    fun n hn => hdestroy n (projectedEpoch_destroy hn).1, hmaximum, hinitial, horigin⟩

theorem checkOperation_projected (hids : (source.epochs.map (·.epoch_id)).Nodup)
    {epoch : Credit.Epoch} (hepoch : epoch ∈ source.epochs) {row : Operation}
    (h : Settled source epoch row) (stop : Nat) :
    Credit.checkOperation row.closed [projectedEpoch epoch stop] = .ok () := by
  obtain ⟨hop, hid, found, hfind, htid, hhandle, hentry, hexit, hpayload⟩ :=
    Credit.checkOperation_iff.mp h.checked
  have hown : row.closed.epoch_id = epoch.epoch_id := h.own
  rw [hown, find_epoch hids hepoch] at hfind
  obtain rfl := Option.some.inj hfind
  refine Credit.checkOperation_iff.mpr ⟨hop, hid, projectedEpoch epoch stop, ?_, htid, hhandle,
    hentry, hexit, hpayload⟩
  exact find?_cons_of_pos (decide_eq_true hown.symm)

theorem isCapacity_le {capacity : Nat} (h : Credit.isCapacity capacity = true) :
    capacity ≤ 32768 := by
  rcases of_decide_eq_true h with rfl | rfl <;> decide

/-- The document of a projection is well below the limit. -/
theorem projection_size (h : Valid source token observer_begin_qpc freeze_qpc qpc_frequency)
    {epoch : Credit.Epoch} (hepoch : epoch ∈ source.epochs) {rows : List Operation}
    (hrows : ∀ row ∈ rows, Settled source epoch row)
    (hlength : rows.length ≤ source.operations.length) (hstop : stop ≤ kMaxQpc) :
    0 < (projection source epoch rows stop).size ∧
      (projection source epoch rows stop).size ≤ Credit.maxBytes := by
  have hqpc : kMaxQpc ≤ Credit.U64 := by decide
  have hcap := isCapacity_le h.capacity
  have hstored := h.stored
  have hsmall : 32768 ≤ Credit.U64 := by decide
  have hchecked := checkEpoch_projected (h.epochs epoch hepoch) stop
  have hmaximum := (Credit.checkEpoch_iff.mp hchecked).2.2.2.2.1.2
  have hepochs : Credit.arrSize ((projection source epoch rows stop).epochs.map Credit.Epoch.size) ≤
      403 := by
    refine (Credit.arrSize_le (k := 400) ?_).trans (by simp [projection])
    refine forall_mem_map.mpr (forall_mem_singleton.mpr ?_)
    exact Credit.epochSize_le hchecked
  have hoperations : Credit.arrSize
      ((projection source epoch rows stop).operations.map Credit.Operation.size) ≤
        2 + 32768 * 501 := by
    refine (Credit.arrSize_le (k := 500) ?_).trans ?_
    · refine forall_mem_map.mpr (forall_mem_map.mpr fun row hrow => ?_)
      exact Credit.operationSize_le (forall_mem_singleton.mpr hmaximum)
        (checkOperation_projected h.epoch_ids hepoch (hrows row hrow) stop)
    · rw [length_map]
      have hcount : (projection source epoch rows stop).operations.length = rows.length :=
        length_map _
      omega
  have hstoredSize := Credit.numSize_le ((hlength.trans (hstored.trans hcap)).trans hsmall)
  have hcounts : Credit.countsSize ⟨rows.length, rows.length, rows.length, 0⟩ ≤ 200 := by
    have hzero : Credit.numSize 0 ≤ 20 := Credit.numSize_le (Nat.zero_le _)
    have hnames : Credit.strSize "completed_operations" = 22 ∧
      Credit.strSize "observed_operations" = 21 ∧ Credit.strSize "overflow_operations" = 21 ∧
      Credit.strSize "stored_operations" = 19 := by decide
    refine (Credit.objSize_le _).trans ?_
    simp only [map_cons, map_nil, sum_cons, sum_nil]
    omega
  have hbegin := Credit.numSize_le (h.begin_range.2.trans hqpc)
  have hend := Credit.numSize_le (hstop.trans hqpc)
  have hfrequency := Credit.numSize_le (h.frequency_range.2.trans hqpc)
  have hcapacity := Credit.numSize_le (hcap.trans hsmall)
  have htoken : Credit.strSize token = 34 := by
    have hdigits := (of_decide_eq_true h.is_token).1
    rw [String.length_toList] at hdigits
    exact congrArg (· + 2) hdigits
  have hflags : ((Credit.falseFlags.zip ((replicate 7 false).map Credit.boolSize)).map
    fun field => Credit.strSize field.1 + 2 + field.2).sum ≤ 300 := by decide
  have hnames : Credit.strSize "begin_qpc" = 11 ∧ Credit.strSize "capacity" = 10 ∧
    Credit.strSize "clock" = 7 ∧ Credit.strSize "win32-query-performance-counter" = 33 ∧
    Credit.strSize "counts" = 8 ∧ Credit.strSize "end_qpc_exclusive" = 19 ∧
    Credit.strSize "epochs" = 8 ∧ Credit.strSize "history_complete" = 18 ∧
    Credit.strSize "observer_failed" = 17 ∧ Credit.strSize "operations" = 12 ∧
    Credit.strSize "qpc_frequency" = 15 ∧ Credit.strSize "schema" = 8 ∧
    Credit.strSize "mcla-semaphore-credit-journal-v1" = 34 ∧ Credit.strSize "token" = 7 := by
    decide
  have hbools : Credit.boolSize true = 4 ∧ Credit.boolSize false = 5 := by decide
  constructor
  · unfold Credit.Source.size Credit.objSize Credit.arrSize
    omega
  · refine (Credit.objSize_le _).trans ?_
    have hmax : Credit.maxBytes = 33554432 := by decide
    rw [map_append, sum_append]
    simp only [map_cons, map_nil, sum_cons, sum_nil]
    have hfields : (projection source epoch rows stop).token = token ∧
        (projection source epoch rows stop).clock = "win32-query-performance-counter" ∧
        (projection source epoch rows stop).begin_qpc = observer_begin_qpc ∧
        (projection source epoch rows stop).qpc_frequency = qpc_frequency :=
      ⟨h.own_token, h.clock, h.own_begin, h.own_frequency⟩
    obtain ⟨htokenEq, hclock, hbeginEq, hfrequencyEq⟩ := hfields
    rw [htokenEq, hclock, hbeginEq, hfrequencyEq]
    have hflags : ((Credit.falseFlags.zip ((projection source epoch rows stop).flags.map
      Credit.boolSize)).map fun field => Credit.strSize field.1 + 2 + field.2).sum ≤ 300 := hflags
    have hcounts : Credit.countsSize (projection source epoch rows stop).counts ≤ 200 := hcounts
    have hcapacity : Credit.numSize (projection source epoch rows stop).capacity ≤ 20 := hcapacity
    have hend : Credit.numSize (projection source epoch rows stop).end_qpc_exclusive ≤ 20 := hend
    have hcomplete := Credit.boolSize_le (projection source epoch rows stop).history_complete
    have hfailed := Credit.boolSize_le (projection source epoch rows stop).observer_failed
    have hschema : (projection source epoch rows stop).schema =
      "mcla-semaphore-credit-journal-v1" := rfl
    rw [hschema]
    omega

/-- What is known of the rows that are projected, up to a boundary that they all end before. -/
structure Projects (source : Source) (epoch : Credit.Epoch) (rows : List Operation) (stop : Nat) :
    Prop where
  nonempty : rows ≠ []
  part : rows.Sublist (epochRows source epoch)
  settled : ∀ row ∈ rows, Settled source epoch row
  ended : ∀ row ∈ rows, exitOf row < stop
  stop_le : stop ≤ source.freeze_qpc

theorem Projects.length_le {epoch : Credit.Epoch} {rows : List Operation}
    (h : Projects source epoch rows stop) : rows.length ≤ source.operations.length :=
  h.part.length_le.trans ((epochRows_perm source epoch).length_eq.trans_le
    (length_filter_le _ _))

theorem Projects.op_ids {epoch : Credit.Epoch} {rows : List Operation}
    (h : Projects source epoch rows stop) (hnodup : (source.operations.map (·.op_id)).Nodup) :
    (rows.map (·.op_id)).Nodup := by
  have hfilter := hnodup.sublist (List.Sublist.map (·.op_id)
    (@filter_sublist _ (fun row => decide (row.epoch_id = epoch.epoch_id)) source.operations))
  exact (((epochRows_perm source epoch).map _).nodup_iff.mpr hfilter).sublist (h.part.map _)

theorem Projects.creation_lt {epoch : Credit.Epoch} {rows : List Operation}
    (h : Projects source epoch rows stop) : epoch.creation_qpc < stop := by
  obtain ⟨row, hrow⟩ := exists_mem_of_ne_nil rows h.nonempty
  have hcreated := (h.settled row hrow).created
  have hordered := (h.settled row hrow).ordered
  have hended := h.ended row hrow
  omega

section Audit
variable {source : Source} {token : String} {observer_begin_qpc freeze_qpc qpc_frequency : Nat}
  (h : Valid source token observer_begin_qpc freeze_qpc qpc_frequency)
  {epoch : Credit.Epoch} (hepoch : epoch ∈ source.epochs) {rows : List Operation} {stop : Nat}
  (hrows : Projects source epoch rows stop)
include h hepoch hrows

theorem projection_valid (hcreation : source.observer_begin_qpc < epoch.creation_qpc) :
    Credit.validate (projection source epoch rows stop) token observer_begin_qpc stop
      qpc_frequency = .ok () := by
  have hbegin : source.observer_begin_qpc = observer_begin_qpc := h.own_begin
  have hfreeze : source.freeze_qpc = freeze_qpc := h.own_freeze
  have hstop := hrows.creation_lt
  have hle := hrows.stop_le
  have hrange := h.freeze_range
  have hlength := hrows.length_le
  have hstored := h.stored
  have hcap := isCapacity_le h.capacity
  have hU64 : 32768 ≤ Credit.U64 := by decide
  simp only [Credit.validate, check_ok, need_ok, uint_ok, forM_ok, decide_eq_true_eq]
  have hcount : rows.length ≤ Credit.U64 := by omega
  have hoperations : (projection source epoch rows stop).operations.length = rows.length :=
    length_map _
  have hids : (projection source epoch rows stop).operations.map (·.op_id) =
      rows.map (·.op_id) := map_map
  refine ⟨h.is_token, h.begin_range, ⟨by omega, by omega⟩, h.frequency_range, by omega, rfl,
    h.own_token, h.clock, hbegin, rfl, h.own_frequency, h.capacity, rfl,
    ⟨Nat.one_pos, (by decide : 1 ≤ Credit.maxEpochs)⟩, ?_, ?_, ?_, ?_, ?_, ?_⟩
  · rw [hoperations]
    exact hlength.trans hstored
  · exact forall_mem_singleton.mpr (checkEpoch_projected (h.epochs epoch hepoch) stop)
  · exact nodup_singleton _
  · exact forall_mem_map.mpr fun row hrow =>
      checkOperation_projected h.epoch_ids hepoch (hrows.settled row hrow) stop
  · rw [hids]
    exact hrows.op_ids h.op_ids
  · have hzero : 0 ≤ Credit.U64 := Nat.zero_le _
    exact ⟨⟨Nat.zero_le _, hcount⟩, ⟨Nat.zero_le _, hcount⟩, ⟨Nat.zero_le _, hcount⟩,
      ⟨Nat.zero_le _, hzero⟩, hoperations.symm, rfl, Nat.le_refl _, Nat.le_refl _⟩

end Audit

theorem Settled.closed_entry {epoch : Credit.Epoch} {row : Operation}
    (h : Settled source epoch row) : row.closed.entry_qpc = entryOf row := by
  show row.entry_qpc.getD 1 = entryOf row
  rw [h.entry, Option.getD_some]

theorem Settled.closed_exit {epoch : Credit.Epoch} {row : Operation}
    (h : Settled source epoch row) : row.closed.exit_qpc = exitOf row := by
  show row.exit_qpc.getD 1 = exitOf row
  rw [h.exit, Option.getD_some]

/-- The rows of a projection are in order already. -/
theorem Projects.epochRows_eq {epoch : Credit.Epoch} {rows : List Operation}
    (h : Projects source epoch rows stop) :
    Credit.epochRows (projection source epoch rows stop) (projectedEpoch epoch stop) =
      rows.map Operation.closed := by
  have hfilter : (rows.map Operation.closed).filter
      (fun row => row.epoch_id = (projectedEpoch epoch stop).epoch_id) =
        rows.map Operation.closed := by
    refine filter_eq_self.mpr (forall_mem_map.mpr fun row hrow => ?_)
    exact decide_eq_true (h.settled row hrow).own
  have hsorted : (rows.map Operation.closed).Pairwise Credit.rowBefore := by
    refine pairwise_map.mpr (List.Pairwise.imp_of_mem ?_
      ((epochRows_sorted source epoch).sublist h.part))
    intro a b ha hb hab
    unfold rowBefore at hab
    unfold Credit.rowBefore
    rw [(h.settled a ha).closed_entry, (h.settled b hb).closed_entry]
    exact hab
  show ((rows.map Operation.closed).filter _).insertionSort Credit.rowBefore = _
  rw [hfilter]
  exact hsorted.insertionSort_eq

theorem rowIssues_closed {epoch : Credit.Epoch} {row : Operation} (h : Settled source epoch row)
    (hended : exitOf row < stop) :
    Credit.rowIssues source.observer_begin_qpc stop (projectedEpoch epoch stop) row.closed = [] := by
  have hobserved := h.observed
  have hordered := h.ordered
  have hcreated : (projectedEpoch epoch stop).creation_qpc < entryOf row := h.created
  have halive : ((projectedEpoch epoch stop).destroy_qpc.any fun destroyed =>
      exitOf row ≥ destroyed) = false := by
    cases hdestroy : (projectedEpoch epoch stop).destroy_qpc with
    | none => rfl
    | some destroyed =>
      have hlt := h.alive destroyed (projectedEpoch_destroy hdestroy).1
      simpa using hlt
  have hkind : row.closed.payload = row.payload.closed := rfl
  unfold Credit.rowIssues
  rw [h.closed_entry, h.closed_exit, issue_eq_nil (by simp; omega), issue_eq_nil, hkind]
  · cases hpayload : row.payload with
    | unsupported kind =>
      have hsupported := h.fits.supported
      simp [unsupported, hpayload] at hsupported
    | _ => rfl
  · rw [halive]
    simpa using hcreated

/-- The ledger of a projection raises no issue, and ends with the balance of the sweep. -/
theorem Projects.ledger {epoch : Credit.Epoch} (h : Projects source epoch groups.flatten stop)
    (hfirst : groups <+: components entryOf exitOf (epochRows source epoch))
    (hbalance : balanceAfter 0 groups = some 0) (hinitial : epoch.initial_count = 0) :
    Tracks (Credit.ledger source.observer_begin_qpc stop (projectedEpoch epoch stop)
      (groups.flatten.map Operation.closed)) 0 := by
  have hgroups : components entryOf exitOf groups.flatten = groups := by
    have htake := @Intervals.components_take _ entryOf exitOf (epochRows source epoch)
      groups.length
    rwa [← prefix_iff_eq_take.mp hfirst] at htake
  have hcomponents : components Credit.Operation.entry_qpc Credit.Operation.exit_qpc
      (groups.flatten.map Operation.closed) = groups.map (List.map Operation.closed) := by
    rw [Intervals.components_map fun row hrow =>
      ⟨(h.settled row hrow).closed_entry, (h.settled row hrow).closed_exit⟩, hgroups]
  have hrowIssues : (groups.flatten.map Operation.closed).flatMap
      (Credit.rowIssues source.observer_begin_qpc stop (projectedEpoch epoch stop)) = [] := by
    refine flatMap_eq_nil_iff.mpr (forall_mem_map.mpr fun row hrow => ?_)
    exact rowIssues_closed (h.settled row hrow) (h.ended row hrow)
  unfold Credit.ledger
  simp only [hrowIssues, decide_true, if_true, hcomponents]
  refine Tracks.run ⟨hinitial, rfl, rfl⟩ (fun row hrow => (h.settled row hrow).fits) hbalance

/-! ### The audit -/

/-- What a document without an issue says of its epochs. -/
theorem epoch_of_issues (hissues : issues source = []) {epoch : Credit.Epoch}
    (hepoch : epoch ∈ source.epochs) : source.observer_begin_qpc < epoch.creation_qpc ∧
      epoch.origin = .kFresh ∧ epoch.history_complete = true ∧ epoch.initial_count = 0 := by
  simp only [issues, append_eq_nil_iff, flatMap_eq_nil_iff] at hissues
  obtain ⟨⟨⟨⟨-, hepochs⟩, -⟩, -⟩, -⟩ := hissues
  have hnone := hepochs epoch hepoch
  simp only [epochIssues, ifRaised, append_eq_nil_iff, ite_eq_right_iff, reduceCtorEq, imp_false,
    decide_eq_true_eq, not_or, not_le, not_not, ne_eq] at hnone
  obtain ⟨⟨hcreation, hfresh, hcomplete⟩, hinitial⟩ := hnone
  exact ⟨hcreation, hfresh, hcomplete, hinitial⟩

theorem Projects.issues {epoch : Credit.Epoch} (h : Projects source epoch groups.flatten stop)
    (hfirst : groups <+: components entryOf exitOf (epochRows source epoch))
    (hbalance : balanceAfter 0 groups = some 0) (hissues : issues source = [])
    (hepoch : epoch ∈ source.epochs) (hchecked : checkEpoch source epoch = .ok ()) :
    Credit.issues (projection source epoch groups.flatten stop) source.observer_begin_qpc stop =
      [] := by
  obtain ⟨hbegin, hfresh, hcomplete, hinitial⟩ := epoch_of_issues hissues hepoch
  have hepochs : (projection source epoch groups.flatten stop).epochs =
    [projectedEpoch epoch stop] := rfl
  have hledger := (h.ledger hfirst hbalance hinitial).issues
  rw [← h.epochRows_eq] at hledger
  have hcreation := h.creation_lt
  have hdestroy : ((projectedEpoch epoch stop).destroy_qpc.any fun destruction =>
      ¬ ((projectedEpoch epoch stop).creation_qpc < destruction ∧ destruction < stop)) = false := by
    cases hdestroy : (projectedEpoch epoch stop).destroy_qpc with
    | none => rfl
    | some destroyed =>
      obtain ⟨hsome, hlate⟩ := projectedEpoch_destroy hdestroy
      simp only [checkEpoch, check_ok, need_ok, hsome] at hchecked
      obtain ⟨-, -, hbracket⟩ := hchecked
      have hcreated : epoch.creation_qpc < destroyed := by
        simp only [Option.all_some, decide_eq_true_eq] at hbracket
        exact hbracket.1
      have hcreated : (projectedEpoch epoch stop).creation_qpc < destroyed := hcreated
      simp [hcreated, hlate]
  have hglobal : Credit.globalIssues (projection source epoch groups.flatten stop) = [] := by
    simp [Credit.globalIssues, Credit.issue, projection]
  have hown : Credit.epochIssues source.observer_begin_qpc stop (projectedEpoch epoch stop) = [] := by
    unfold Credit.epochIssues
    rw [hdestroy, issue_eq_nil]
    · simp [Credit.issue, projectedEpoch, hinitial, hfresh, hcomplete]
    · simpa [projectedEpoch] using ⟨hbegin.le, hcreation⟩
  unfold Credit.issues
  rw [hepochs, hglobal]
  simp only [flatMap_cons, flatMap_nil, append_nil, hledger, hown, Credit.reuseIssues]

/-- The first version accepts what it is handed. -/
theorem Projects.audit (hvalid : Valid source token observer_begin_qpc freeze_qpc qpc_frequency)
    (hissues : Prefix.issues source = []) {epoch : Credit.Epoch} (hepoch : epoch ∈ source.epochs)
    (h : Projects source epoch groups.flatten stop)
    (hfirst : groups <+: components entryOf exitOf (epochRows source epoch))
    (hbalance : balanceAfter 0 groups = some 0) :
    ∃ checked, Credit.audit (projection source epoch groups.flatten stop)
        (projection source epoch groups.flatten stop).size token observer_begin_qpc stop
        qpc_frequency = .ok checked ∧
      (∀ issue ∈ checked.diagnostic_issues, issue = noCandidate) ∧
      checked.epoch_summaries.map (·.ending_count) = [some 0] := by
  obtain ⟨hbegin, -, -, hinitial⟩ := epoch_of_issues hissues hepoch
  have hstop : stop ≤ kMaxQpc := h.stop_le.trans (hvalid.own_freeze.trans_le hvalid.freeze_range.2)
  obtain ⟨hpos, hsize⟩ := projection_size hvalid hepoch h.settled h.length_le hstop
  have hchecked := projection_valid hvalid hepoch h hbegin
  refine ⟨Credit.evaluate (projection source epoch groups.flatten stop) observer_begin_qpc stop,
    ?_, ?_, ?_⟩
  · unfold Credit.audit
    rw [check_ok, check_ok]
    exact ⟨need_ok.mpr (decide_eq_true ⟨hpos, hsize⟩), hchecked, rfl⟩
  · have hnone := h.issues hfirst hbalance hissues hepoch (hvalid.epochs epoch hepoch)
    rw [hvalid.own_begin] at hnone
    unfold Credit.evaluate
    intro issue hissue
    simp only [hnone, nil_append] at hissue
    exact mem_issue hissue
  · have hledger := h.ledger hfirst hbalance hinitial
    rw [← h.epochRows_eq, hvalid.own_begin] at hledger
    have hending : (Credit.evaluate (projection source epoch groups.flatten stop) observer_begin_qpc
        stop).epoch_summaries = [(Credit.ledger observer_begin_qpc stop (projectedEpoch epoch stop)
          (Credit.epochRows (projection source epoch groups.flatten stop)
            (projectedEpoch epoch stop))).summary (projectedEpoch epoch stop)
          (Credit.epochRows (projection source epoch groups.flatten stop)
            (projectedEpoch epoch stop))] := rfl
    rw [hending, map_cons, map_nil, hledger.ending_count]

/-- The prefix of an epoch, as the audit hands it on. -/
theorem exists_projects (hvalid : Valid source token observer_begin_qpc freeze_qpc qpc_frequency)
    (hissues : issues source = []) {epoch : Credit.Epoch} (hepoch : epoch ∈ source.epochs) :
    ∃ groups, (sweepEpoch source epoch).prefix_rows = groups.flatten ∧
      groups <+: components entryOf exitOf (epochRows source epoch) ∧
      balanceAfter 0 groups = some 0 ∧
      (groups.flatten ≠ [] →
        Projects source epoch groups.flatten (sweepEpoch source epoch).stop_qpc) := by
  obtain ⟨groups, hclosed⟩ := exists_closed source epoch
  refine ⟨groups, hclosed.rows, hclosed.first, hclosed.balance, fun hne => ?_⟩
  have hpart : groups.flatten <+: epochRows source epoch := by
    have hflat := List.IsPrefix.flatten hclosed.first
    rwa [Intervals.components_flatten] at hflat
  have hsettled : ∀ row ∈ groups.flatten, Settled source epoch row := by
    intro row hrow
    obtain ⟨hmem, hown⟩ := mem_filter.mp ((epochRows_perm source epoch).subset (hpart.subset hrow))
    obtain ⟨hcompleted, hbarrier⟩ := hclosed.clear row hrow
    exact settled hvalid hissues hepoch hmem (of_decide_eq_true hown) hcompleted hbarrier
  exact ⟨hne, hpart.sublist, hsettled,
    fun row hrow => hclosed.ended row hrow (exitOf row) (hsettled row hrow).exit,
    hclosed.stop_le.trans (barrier_le_freeze source)⟩

/-- The part of an epoch that the audit accepts, down to its last zero balance: it ends at zero,
and where it is not empty, its projection passes the audit of the first version. -/
structure Accepted (source : Source) (token : String) (observer_begin_qpc qpc_frequency : Nat)
    (epoch : Credit.Epoch) (rows : List Operation) (stop : Nat) : Prop where
  balance : balanceAfter 0 (components entryOf exitOf rows) = some 0
  projection : rows ≠ [] → ∃ checked,
    Credit.audit (projection source epoch rows stop) (projection source epoch rows stop).size token
      observer_begin_qpc stop qpc_frequency = .ok checked ∧
    (∀ issue ∈ checked.diagnostic_issues, issue = noCandidate) ∧
    checked.epoch_summaries.map (·.ending_count) = [some 0]

theorem accepted (hvalid : Valid source token observer_begin_qpc freeze_qpc qpc_frequency)
    (hissues : issues source = []) {epoch : Credit.Epoch} (hepoch : epoch ∈ source.epochs) :
    Accepted source token observer_begin_qpc qpc_frequency epoch
      (sweepEpoch source epoch).prefix_rows (sweepEpoch source epoch).stop_qpc := by
  obtain ⟨groups, hrows, hfirst, hbalance, hprojects⟩ := exists_projects hvalid hissues hepoch
  rw [hrows]
  refine ⟨?_, fun hne => (hprojects hne).audit hvalid hissues hepoch hfirst hbalance⟩
  have htake := @Intervals.components_take _ entryOf exitOf (epochRows source epoch) groups.length
  rw [← prefix_iff_eq_take.mp hfirst] at htake
  rw [htake, hbalance]

theorem auditProjection_ok {observer_begin_qpc qpc_frequency : Nat} {epoch : Credit.Epoch}
    {rows : List Operation} {checked : Credit.Result} (hcreation : epoch.creation_qpc < stop)
    (hends : ∀ row ∈ rows, ∀ exit, row.exit_qpc = some exit → exit < stop)
    (haudit : Credit.audit (projection source epoch rows stop)
      (projection source epoch rows stop).size token observer_begin_qpc stop qpc_frequency =
        .ok checked) (hclean : ∀ issue ∈ checked.diagnostic_issues, issue = noCandidate) :
    auditProjection source token observer_begin_qpc qpc_frequency epoch rows stop =
      .ok checked := by
  have hboundary : (rows.all fun row => row.exit_qpc.all fun exit => exit < stop) = true := by
    refine all_eq_true.mpr fun row hrow => ?_
    rw [Option.all_eq_true]
    exact fun exit hexit => decide_eq_true (hends row hrow exit hexit)
  have hall : checked.diagnostic_issues.all (· = noCandidate) = true :=
    all_eq_true.mpr fun issue hissue => decide_eq_true (hclean issue hissue)
  unfold auditProjection
  dsimp only
  rw [check_ok]
  refine ⟨need_ok.mpr (decide_eq_true ⟨hcreation, hboundary⟩), ?_⟩
  rw [haudit]
  exact check_ok.mpr ⟨need_ok.mpr hall, rfl⟩

/-- No epoch makes the loop fail. -/
theorem auditEpoch_ok (hvalid : Valid source token observer_begin_qpc freeze_qpc qpc_frequency)
    (hissues : issues source = []) {epoch : Credit.Epoch} (hepoch : epoch ∈ source.epochs)
    (e : Evidence) : ∃ e', auditEpoch source token observer_begin_qpc qpc_frequency e epoch =
      .ok e' := by
  unfold auditEpoch
  dsimp only
  split
  · rename_i hprefix
    obtain ⟨groups, hrows, -, -, hprojects⟩ := exists_projects hvalid hissues hepoch
    have hne := hprefix.1
    obtain ⟨checked, haudit, hclean, -⟩ := (accepted hvalid hissues hepoch).projection hne
    rw [hrows] at hne
    have hok := auditProjection_ok (hprojects hne).creation_lt (fun row hrow exit hexit => by
      rw [hrows] at hrow
      have hended := (hprojects hne).ended row hrow
      rw [((hprojects hne).settled row hrow).exit] at hexit
      rwa [← Option.some.inj hexit]) haudit hclean
    rw [hok]
    exact ⟨_, rfl⟩
  · exact ⟨_, rfl⟩

theorem foldlM_ok {α β : Type} {f : β → α → Except String β} {l : List α}
    (h : ∀ a ∈ l, ∀ b, ∃ b', f b a = .ok b') (b : β) : ∃ b', l.foldlM f b = .ok b' := by
  induction l generalizing b with
  | nil => exact ⟨b, rfl⟩
  | cons a l ih =>
    obtain ⟨hfirst, hrest⟩ := forall_mem_cons.mp h
    obtain ⟨next, hnext⟩ := hfirst b
    obtain ⟨last, hlast⟩ := ih hrest next
    refine ⟨last, ?_⟩
    rw [foldlM_cons, hnext]
    exact hlast

/-- A document that passes validation is audited to the end, and all that is accepted of it is
closed. -/
theorem audit_closed (source : Source) (size : Nat) (token : String)
    (observer_begin_qpc freeze_qpc qpc_frequency : Nat)
    (h : validate source size token observer_begin_qpc freeze_qpc qpc_frequency = .ok ()) :
    (∃ found, audit source size token observer_begin_qpc freeze_qpc qpc_frequency = .ok found) ∧
      (issues source = [] → ∀ epoch ∈ source.epochs,
        Accepted source token observer_begin_qpc qpc_frequency epoch
          (sweepEpoch source epoch).prefix_rows (sweepEpoch source epoch).stop_qpc) := by
  have hvalid := valid_of_validate h
  refine ⟨?_, fun hissues epoch hepoch => accepted hvalid hissues hepoch⟩
  unfold audit
  by_cases hissues : issues source = []
  · obtain ⟨e, he⟩ := foldlM_ok (fun epoch hepoch e => auditEpoch_ok hvalid hissues hepoch e)
      ({ issues := issues source } : Evidence)
    refine ⟨result source e, ?_⟩
    rw [check_ok]
    refine ⟨h, ?_⟩
    dsimp only
    rw [if_pos hissues, he]
    rfl
  · refine ⟨result source { issues := issues source }, ?_⟩
    rw [check_ok]
    exact ⟨h, if_neg hissues⟩

/-- The epoch of a pair of operations that overlap. -/
def pairEpoch : Credit.Epoch :=
  { epoch_id := 1, object_cookie := 7, creation_qpc := 5, maximum_count := 3, origin := .kFresh
    history_complete := true }

/-- A release that wakes a wait, and one that is pending when the journal is frozen. -/
def frozenPair : Source :=
  { token := "0123456789abcdef0123456789abcdef", qpc_frequency := 10, observer_begin_qpc := 1
    freeze_qpc := 100, capacity := 4096, admission_inventory_complete := true
    counts := ⟨3, 3, 2, 1, 0⟩, epochs := [pairEpoch]
    operations := [
      { op_id := 1, epoch_id := 1, native_thread_id := 4, entry_qpc := some 10, exit_qpc := some 30
        completed := true, payload := .wait (some .kSuccess) .kInfinite },
      { op_id := 2, epoch_id := 1, native_thread_id := 5, entry_qpc := some 20, exit_qpc := some 25
        completed := true
        payload := .release 1 (some true) (some 0)
          { kind := .kUpdate, generation := some ⟨1, 1⟩ } },
      { op_id := 3, epoch_id := 1, native_thread_id := 5, entry_qpc := some 50
        payload := .release 1 none none {} }] }

/-- The pair is accepted, down to where the pending release begins. -/
theorem audit_closed_pair :
    (∃ found, audit frozenPair 1 "0123456789abcdef0123456789abcdef" 1 100 10 = .ok found) ∧
      Accepted frozenPair "0123456789abcdef0123456789abcdef" 1 10 pairEpoch
        (frozenPair.operations.take 2) 50 := by
  have h := audit_closed frozenPair 1 "0123456789abcdef0123456789abcdef" 1 100 10 rfl
  have hsweep : (sweepEpoch frozenPair pairEpoch).prefix_rows = frozenPair.operations.take 2 ∧
      (sweepEpoch frozenPair pairEpoch).stop_qpc = 50 := by decide
  have haccepted := h.2 (by decide) pairEpoch (mem_singleton_self _)
  rw [hsweep.1, hsweep.2] at haccepted
  exact ⟨h.1, haccepted⟩

end Mcla.Semaphore.Prefix
