import Mcla.Semaphore.CreditSize

/-! # The semaphore-credit audit: soundness

What a journal is a record of: a counting semaphore whose credits are told apart by the
release that gave them.  Each operation takes effect at an instant of its bracket, and a wait
may take any credit there is.  Where the audit raises no issue, there is one credit at most at
any time, so that the order within a component leaves no choice.
-/
namespace Mcla.Semaphore.Credit
open Intervals
open NestedRecorder (bind_ok check_ok forM_ok)
open List

/-! ### Truthful records -/

/-- A credit: the release that gave it, and its index among the credits of that release. -/
abbrev CreditId := Nat × Nat

/-- What an operation does to the credits there are, and the credit that it takes.  Of a result
or a kind that says nothing of the credits, everything is allowed. -/
inductive Effect (maximum : Nat) (available : List CreditId) (row : Operation) :
    Option CreditId → List CreditId → Prop where
  | released {count : Nat} {previous : Option Nat} {context : Context}
      (h : row.payload = .release count true previous context)
      (hprevious : previous = some available.length) (hroom : available.length + count ≤ maximum) :
      Effect maximum available row none
        (available ++ (List.range count).map fun index => (row.op_id, index))
  | refused {count : Nat} {previous : Option Nat} {context : Context}
      (h : row.payload = .release count false previous context) :
      Effect maximum available row none available
  | acquired {timeout : TimeoutKind} {credit : CreditId} (h : row.payload = .wait .kSuccess timeout)
      (hcredit : credit ∈ available) :
      Effect maximum available row (some credit) (available.erase credit)
  | returned {result : WaitResult} {timeout : TimeoutKind} (h : row.payload = .wait result timeout)
      (hresult : result = .kTimeout ∨ result = .kApc ∨ result = .kAlerted) :
      Effect maximum available row none available
  | unclear {result : WaitResult} {timeout : TimeoutKind} {taken : Option CreditId} {rest : List CreditId}
      (h : row.payload = .wait result timeout) (hsuccess : result ≠ .kSuccess)
      (hresult : ¬ (result = .kTimeout ∨ result = .kApc ∨ result = .kAlerted)) :
      Effect maximum available row taken rest
  | unsupported {kind : String} {taken : Option CreditId} {rest : List CreditId}
      (h : row.payload = .unsupported kind) : Effect maximum available row taken rest

/-- Operations one after another, with the credit each of them takes. -/
inductive Runs (maximum : Nat) : List CreditId → List (Operation × Option CreditId) → List CreditId → Prop where
  | nil (available : List CreditId) : Runs maximum available [] available
  | cons {available between rest : List CreditId} {row : Operation} {taken : Option CreditId}
      {order : List (Operation × Option CreditId)} (h : Effect maximum available row taken between)
      (hrest : Runs maximum between order rest) :
      Runs maximum available ((row, taken) :: order) rest

/-- An order in which the operations of an epoch may have taken effect, from no credits on. -/
structure Linearisation (source : Source) (epoch : Epoch) (order : List (Operation × Option CreditId)) :
    Prop where
  rows : (order.map Prod.fst).Perm
    (source.operations.filter fun row => row.epoch_id = epoch.epoch_id)
  instants : ∃ instant : Operation → ℝ,
    (∀ row ∈ order.map Prod.fst, row.entry_qpc ≤ instant row ∧ instant row ≤ row.exit_qpc) ∧
      (order.map Prod.fst).Pairwise fun a b => instant a ≤ instant b
  runs : ∃ rest, Runs epoch.maximum_count [] order rest

/-- No operation comes before one that had ended when it began. -/
def Respects (order : List (Operation × Option CreditId)) : Prop :=
  order.Pairwise fun a b => a.1.entry_qpc ≤ b.1.exit_qpc

variable {order : List (Operation × Option CreditId)} {available rest : List CreditId} {l : Ledger}
  {seen : List Nat}

theorem Linearisation.respects {source : Source} {epoch : Epoch}
    (h : Linearisation source epoch order) : Respects order := by
  obtain ⟨instant, hbracket, hsorted⟩ := h.instants
  rw [pairwise_map] at hsorted
  refine hsorted.imp_of_mem fun {a b} ha hb hle => ?_
  have hentry := (hbracket a.1 (mem_map_of_mem ha)).1
  have hexit := (hbracket b.1 (mem_map_of_mem hb)).2
  exact_mod_cast hentry.trans (hle.trans hexit)

theorem runs_append {maximum : Nat} {first second : List (Operation × Option CreditId)}
    (h : Runs maximum available (first ++ second) rest) :
    ∃ between, Runs maximum available first between ∧ Runs maximum between second rest := by
  induction first generalizing available with
  | nil => exact ⟨available, .nil available, h⟩
  | cons pair first ih =>
    cases h with
    | cons heffect hrest =>
      obtain ⟨between, hfirst, hsecond⟩ := ih hrest
      exact ⟨between, .cons heffect hfirst, hsecond⟩

/-! ### One component -/

/-- The ledger agrees with the credits there are: the one of its pending release, or none. -/
structure Agrees (l : Ledger) (available : List CreditId) : Prop where
  balance : l.balance = available.length
  pending : available = l.pending.toList.map fun pending => (pending.1.op_id, 0)

/-- In this order the wait of the match takes the credit of its release. -/
def Explains (order : List (Operation × Option CreditId)) (found : Match) : Prop :=
  ∀ pair ∈ order, pair.1.op_id = found.wait_op_id → pair.2 = some (found.release_op_id, 0)

/-- What the audit has checked of a row of a ledger it runs. -/
structure Modelled (row : Operation) : Prop where
  count : ∀ count success previous context,
    row.payload = .release count success previous context → 1 ≤ count
  kind : ∀ kind, row.payload ≠ .unsupported kind

theorem issue_eq_nil {raised : Bool} {code : String} {epoch_id : Option Nat}
    (h : issue raised code epoch_id = []) : raised = false := by
  unfold issue at h
  split at h
  · cases h
  · rename_i hraised
    simpa using hraised

/-- A successful release without an issue gives the one credit there is. -/
theorem single_release {epoch : Epoch} {row : Operation} {count : Nat} {previous : Option Nat}
    {context : Context} (h : row.payload = .release count true previous context)
    (hcount : 1 ≤ count) (hissues : (l.single epoch row).issues = []) :
    l.issues = [] ∧ previous = some l.balance ∧ l.balance = 0 ∧ count = 1 ∧
      (l.single epoch row).balance = 1 ∧ (l.single epoch row).pending = some (row, context) ∧
      (l.single epoch row).consumptions = l.consumptions ∧
      (l.single epoch row).valid_order = l.valid_order := by
  simp only [Ledger.single, h, if_true, append_eq_nil_iff] at hissues ⊢
  obtain ⟨⟨⟨hnone, hprevious⟩, -⟩, hone⟩ := hissues
  have hprevious : previous = some l.balance := by simpa using issue_eq_nil hprevious
  have hone : l.balance + count ≤ 1 := by simpa using issue_eq_nil hone
  have hzero : l.balance = 0 := by omega
  have hsingle : count = 1 := by omega
  subst hsingle
  simp [hnone, hprevious, hzero]

/-- A successful wait without an issue takes the credit of the pending release. -/
theorem single_wait {epoch : Epoch} {row : Operation} {timeout : TimeoutKind}
    (h : row.payload = .wait .kSuccess timeout) (hissues : (l.single epoch row).issues = []) :
    l.issues = [] ∧ l.balance ≠ 0 ∧ (l.single epoch row).balance = l.balance - 1 ∧
      (l.single epoch row).pending = none ∧
      (l.single epoch row).consumptions = l.consumptions ++ (l.pending.toList.map fun pending =>
        recordMatch epoch.epoch_id pending.1 pending.2 row "strict-disjoint-single-credit") ∧
      (l.single epoch row).valid_order = l.valid_order := by
  simp only [Ledger.single, h, append_eq_nil_iff] at hissues ⊢
  obtain ⟨hnone, hzero⟩ := hissues
  exact ⟨hnone, by simpa using issue_eq_nil hzero, trivial, trivial, trivial, trivial⟩

/-- A component of one row. -/
theorem single_sound {epoch : Epoch} {row : Operation} {taken : Option CreditId}
    (hagrees : Agrees l available) (hrow : Modelled row)
    (hissues : (l.single epoch row).issues = [])
    (heffect : Effect epoch.maximum_count available row taken rest) :
    l.issues = [] ∧ (l.single epoch row).valid_order = l.valid_order ∧
      Agrees (l.single epoch row) rest ∧ ∀ found ∈ (l.single epoch row).consumptions,
      found ∈ l.consumptions ∨ found.wait_op_id = row.op_id ∧ Explains [(row, taken)] found := by
  obtain ⟨hbalance, hpending⟩ := hagrees
  cases heffect with
  | released h hprevious hroom =>
    obtain ⟨hnone, -, hzero, rfl, hnew, hown, hsame, hvalid⟩ :=
      single_release h (hrow.count _ _ _ _ h) hissues
    have hempty : available = [] := length_eq_zero_iff.mp (hbalance.symm.trans hzero)
    subst hempty
    refine ⟨hnone, hvalid, ⟨by rw [hnew]; rfl, by rw [hown]; rfl⟩, fun found hfound => ?_⟩
    rw [hsame] at hfound
    exact .inl hfound
  | refused h =>
    simp only [Ledger.single, h] at hissues ⊢
    exact ⟨hissues, rfl, ⟨hbalance, hpending⟩, fun found hfound => .inl hfound⟩
  | acquired h hcredit =>
    rename_i timeout credit
    obtain ⟨hnone, hne, hnew, hown, hsame, hvalid⟩ := single_wait h hissues
    cases hrelease : l.pending with
    | none =>
      rw [hrelease] at hpending
      rw [hpending] at hcredit
      cases hcredit
    | some pending =>
      rw [hrelease] at hpending hsame
      have hcredit : credit = (pending.1.op_id, 0) := by
        rw [hpending] at hcredit
        simpa using hcredit
      subst hcredit
      have hrest : available.erase (pending.1.op_id, 0) = [] := by
        rw [hpending]
        simp
      rw [hrest]
      refine ⟨hnone, hvalid, ⟨?_, by rw [hown]; rfl⟩, fun found hfound => ?_⟩
      · rw [hnew, hbalance, hpending]
        rfl
      · rw [hsame] at hfound
        rcases mem_append.mp hfound with hfound | hfound
        · exact .inl hfound
        · obtain rfl : found = _ := by simpa using hfound
          refine .inr ⟨rfl, fun pair hpair _ => ?_⟩
          rw [mem_singleton.mp hpair]
          rfl
  | returned h hresult =>
    rcases hresult with rfl | rfl | rfl
    · simp only [Ledger.single, h, append_eq_nil_iff] at hissues ⊢
      exact ⟨hissues.1, trivial, ⟨hbalance, hpending⟩, fun found hfound => .inl hfound⟩
    · simp only [Ledger.single, h] at hissues ⊢
      exact ⟨hissues, trivial, ⟨hbalance, hpending⟩, fun found hfound => .inl hfound⟩
    · simp only [Ledger.single, h] at hissues ⊢
      exact ⟨hissues, trivial, ⟨hbalance, hpending⟩, fun found hfound => .inl hfound⟩
  | unclear h hsuccess hresult =>
    rename_i result timeout
    exfalso
    cases result <;> simp_all [Ledger.single]
  | unsupported h => exact absurd h (hrow.kind _)

/-- What a component of several rows is where it leaves the order valid. -/
structure Pair (l : Ledger) (epoch : Epoch) (component : List Operation) (released waited : Operation)
    (context : Context) : Prop where
  rows : component.Perm [released, waited]
  release : released.payload = .release 1 true (some 0) context
  wait : ∃ timeout, waited.payload = .wait .kSuccess timeout
  balance : l.balance = 0
  overlap : l.overlap epoch component = { l with
    successful_releases := l.successful_releases + 1
    successful_waits := l.successful_waits + 1
    balance := 0
    pending := none
    consumptions := l.consumptions ++
      [recordMatch epoch.epoch_id released context waited "isolated-overlap-single-credit"] }

theorem perm_of_filters {component : List Operation} {released waited : Operation}
    (hlength : component.length = 2) (hrelease : component.filter Ledger.isRelease = [released])
    (hwait : component.filter Ledger.isWait = [waited]) : component.Perm [released, waited] := by
  have hreleased : released ∈ component ∧ Ledger.isRelease released = true :=
    mem_filter.mp (by rw [hrelease]; exact mem_singleton_self _)
  have hwaited : waited ∈ component ∧ Ledger.isWait waited = true :=
    mem_filter.mp (by rw [hwait]; exact mem_singleton_self _)
  have hne : released ≠ waited := by
    rintro rfl
    obtain ⟨-, hr⟩ := hreleased
    obtain ⟨-, hw⟩ := hwaited
    unfold Ledger.isRelease at hr
    unfold Ledger.isWait at hw
    cases hpayload : released.payload <;> simp [hpayload] at hr hw
  have hnodup : [released, waited].Nodup := by simpa using hne
  have hsub : [released, waited].Subperm component :=
    hnodup.subperm fun row hrow => by
      rcases mem_pair.mp hrow with rfl | rfl
      · exact hreleased.1
      · exact hwaited.1
  exact (hsub.perm_of_length_le (by simp [hlength])).symm

theorem overlap_pair {epoch : Epoch} {component : List Operation}
    (hissues : (l.overlap epoch component).issues = []) :
    ∃ released waited context, Pair l epoch component released waited context := by
  unfold Ledger.overlap at hissues
  dsimp only at hissues
  split at hissues
  · simp at hissues
  rename_i hlength
  split at hissues
  · rename_i released waited hrelease hwait
    split at hissues
    · rename_i context hcredit
      split at hissues
      · rename_i hpair
        have hpayload : released.payload = .release 1 true (some 0) context := by
          unfold Ledger.oneCredit at hcredit
          split at hcredit
          · rename_i found heq
            rw [heq, Option.some.inj hcredit]
          · cases hcredit
        have hsuccess : ∃ timeout, waited.payload = .wait .kSuccess timeout := by
          have htakes := hpair.2
          unfold Ledger.takesCredit at htakes
          split at htakes
          · exact ⟨_, by assumption⟩
          · cases htakes
        refine ⟨released, waited, context, perm_of_filters (not_not.mp hlength) hrelease hwait,
          hpayload, hsuccess, hpair.1, ?_⟩
        unfold Ledger.overlap
        dsimp only
        rw [if_neg hlength]
        simp only [hrelease, hwait, hcredit, if_pos hpair]
      · simp at hissues
    · simp at hissues
  · simp at hissues

/-- A component of several rows: of the two orders one has no credit to take. -/
theorem overlap_sound {epoch : Epoch} {component : List Operation} (hagrees : Agrees l available)
    (hissues : (l.overlap epoch component).issues = [])
    (horder : (order.map Prod.fst).Perm component)
    (hruns : Runs epoch.maximum_count available order rest) :
    l.issues = [] ∧ (l.overlap epoch component).valid_order = l.valid_order ∧
      Agrees (l.overlap epoch component) rest ∧
      ∀ found ∈ (l.overlap epoch component).consumptions, found ∈ l.consumptions ∨
        found.wait_op_id ∈ component.map (·.op_id) ∧
          ((component.map (·.op_id)).Nodup → Explains order found) := by
  obtain ⟨released, waited, context, hpair⟩ := overlap_pair hissues
  obtain ⟨timeout, hwait⟩ := hpair.wait
  rw [hpair.overlap] at hissues ⊢
  have hempty : available = [] := length_eq_zero_iff.mp (hagrees.balance.symm.trans hpair.balance)
  subst hempty
  have hrows := horder.trans hpair.rows
  have hlength : order.length = 2 := by simpa using hrows.length_eq
  obtain ⟨first, second, rfl⟩ := length_eq_two.mp hlength
  obtain ⟨row, taken⟩ := first
  obtain ⟨row', taken'⟩ := second
  have hfirst : row = released ∨ row = waited := by
    have hmem := hrows.subset (mem_cons_self (a := row))
    simpa using hmem
  cases hruns with
  | cons heffect hruns =>
    cases hruns with
    | cons heffect' hruns =>
      cases hruns
      rcases hfirst with rfl | rfl
      · have hsecond : row' = waited := by
          have hcons := List.Perm.cons_inv hrows
          simpa using hcons
        subst hsecond
        cases heffect with
        | released h hprevious hroom =>
          rw [hpair.release] at h
          obtain ⟨rfl, -, -, -⟩ := Payload.release.inj h
          cases heffect' with
          | acquired h' hcredit =>
            rename_i credit
            obtain rfl : credit = (row.op_id, 0) := by simpa using hcredit
            refine ⟨hissues, rfl, ⟨by simp, by simp⟩, fun found hfound => ?_⟩
            rcases mem_append.mp hfound with hfound | hfound
            · exact .inl hfound
            · obtain rfl := mem_singleton.mp hfound
              refine .inr ⟨?_, fun hnodup pair hpair' hid => ?_⟩
              · exact mem_map_of_mem (hpair.rows.symm.subset (by simp))
              · have hne : row.op_id ≠ row'.op_id := by
                  have hids := (hpair.rows.map (·.op_id)).nodup_iff.mp hnodup
                  simpa using hids
                rcases mem_pair.mp hpair' with rfl | rfl
                · exact absurd hid hne
                · rfl
          | returned h' hresult => rw [hwait] at h'; cases h'; simp at hresult
          | unclear h' hsuccess hresult => rw [hwait] at h'; cases h'; simp at hsuccess
          | released h' => rw [hwait] at h'; cases h'
          | refused h' => rw [hwait] at h'; cases h'
          | unsupported h' => rw [hwait] at h'; cases h'
        | refused h => rw [hpair.release] at h; cases h
        | acquired h hcredit => rw [hpair.release] at h; cases h
        | returned h hresult => rw [hpair.release] at h; cases h
        | unclear h hsuccess hresult => rw [hpair.release] at h; cases h
        | unsupported h => rw [hpair.release] at h; cases h
      · -- A wait that comes first has nothing to take.
        exfalso
        cases heffect with
        | acquired h hcredit => cases hcredit
        | returned h hresult => rw [hwait] at h; cases h; simp at hresult
        | unclear h hsuccess hresult => rw [hwait] at h; cases h; simp at hsuccess
        | released h => rw [hwait] at h; cases h
        | refused h => rw [hwait] at h; cases h
        | unsupported h => rw [hwait] at h; cases h

/-! ### A run over the components -/

theorem component_sound {epoch : Epoch} {component : List Operation} (hagrees : Agrees l available)
    (hrows : ∀ row ∈ component, Modelled row) (hissues : (l.component epoch component).issues = [])
    (horder : (order.map Prod.fst).Perm component)
    (hruns : Runs epoch.maximum_count available order rest) :
    l.issues = [] ∧ (l.component epoch component).valid_order = l.valid_order ∧
      Agrees (l.component epoch component) rest ∧
      ∀ found ∈ (l.component epoch component).consumptions, found ∈ l.consumptions ∨
        found.wait_op_id ∈ component.map (·.op_id) ∧
          ((component.map (·.op_id)).Nodup → Explains order found) := by
  rcases component with _ | ⟨row, _ | ⟨row', component⟩⟩
  · exact overlap_sound hagrees hissues horder hruns
  · obtain ⟨pair, rfl⟩ : ∃ pair, order = [pair] := by
      have hlength : order.length = 1 := by simpa using horder.length_eq
      exact length_eq_one_iff.mp hlength
    obtain ⟨row', taken⟩ := pair
    obtain rfl : row' = row := by simpa using horder
    cases hruns with
    | cons heffect hruns =>
      cases hruns
      obtain ⟨hnone, hvalid, hnext, hfound⟩ :=
        single_sound hagrees (hrows _ (mem_singleton_self _)) hissues heffect
      refine ⟨hnone, hvalid, hnext, fun found hmem => ?_⟩
      rcases hfound found hmem with hold | ⟨hid, hexplains⟩
      · exact .inl hold
      · exact .inr ⟨by rw [hid]; simp, fun _ => hexplains⟩
  · exact overlap_sound hagrees hissues horder hruns

theorem component_issues {epoch : Epoch} {component : List Operation}
    (hissues : (l.component epoch component).issues = []) : l.issues = [] := by
  have hoverlap : (l.overlap epoch component).issues = [] → l.issues = [] := by
    intro hnone
    obtain ⟨released, waited, context, hpair⟩ := overlap_pair hnone
    rwa [hpair.overlap] at hnone
  rcases component with _ | ⟨row, _ | ⟨row', component⟩⟩
  · exact hoverlap hissues
  · simp only [Ledger.component, Ledger.single] at hissues
    split at hissues
    · split at hissues <;> simp_all
    all_goals simp_all
  · exact hoverlap hissues

theorem run_issues {epoch : Epoch} {components : List (List Operation)}
    (hissues : (l.run epoch components).issues = []) : l.issues = [] := by
  induction components generalizing l with
  | nil => exact hissues
  | cons component components ih =>
    rw [Ledger.run] at hissues
    split at hissues
    · exact component_issues (ih hissues)
    · exact component_issues hissues

/-- The run: induction on the components.  An order of all rows begins with an order of those of
the first component, since the others begin later. -/
theorem run_sound {epoch : Epoch} {components : List (List Operation)}
    (hagrees : Agrees l available) (hvalid : l.valid_order = true)
    (hrows : ∀ row ∈ components.flatten, Modelled row)
    (hbefore : components.Pairwise (Before Operation.entry_qpc Operation.exit_qpc))
    (hnodup : (components.flatten.map (·.op_id)).Nodup)
    (hissues : (l.run epoch components).issues = [])
    (horder : (order.map Prod.fst).Perm components.flatten) (hrespects : Respects order)
    (hruns : Runs epoch.maximum_count available order rest) :
    l.issues = [] ∧ ∀ found ∈ (l.run epoch components).consumptions, found ∈ l.consumptions ∨
      found.wait_op_id ∈ components.flatten.map (·.op_id) ∧ Explains order found := by
  induction components generalizing l available order with
  | nil => exact ⟨hissues, fun found hfound => .inl hfound⟩
  | cons component components ih =>
    rw [flatten_cons] at hrows hnodup horder
    rw [map_append, nodup_append] at hnodup
    obtain ⟨hfirst, hlater, hdisjoint⟩ := hnodup
    obtain ⟨hseparate, hbefore⟩ := pairwise_cons.mp hbefore
    have hout : ∀ row ∈ components.flatten, row ∉ component := fun row hrow hmem =>
      hdisjoint _ (mem_map_of_mem hmem) _ (mem_map_of_mem hrow) rfl
    have hsplit : order.Pairwise fun a b => b.1 ∈ component → a.1 ∈ component := by
      refine hrespects.imp_of_mem fun {a b} ha hb hle hmem => ?_
      have ha : a.1 ∈ component ++ components.flatten := horder.subset (mem_map_of_mem ha)
      rcases mem_append.mp ha with ha | ha
      · exact ha
      · obtain ⟨g, hg, hag⟩ := mem_flatten.mp ha
        exact absurd (hseparate g hg _ hmem _ hag) (Nat.not_lt.mpr hle)
    obtain ⟨first, second, rfl, hin, hnot⟩ := exists_split (p := fun pair : Operation × _ =>
      pair.1 ∈ component) hsplit
    obtain ⟨between, hruns, hruns'⟩ := runs_append hruns
    rw [map_append] at horder
    have horders : (first.map Prod.fst).Perm component ∧
        (second.map Prod.fst).Perm components.flatten := by
      classical
      have hfilter := horder.filter (· ∈ component)
      have hfilter' := horder.filter (· ∉ component)
      rw [filter_append, filter_append] at hfilter hfilter'
      rw [filter_eq_self.mpr (by simpa using hin), filter_eq_nil_iff.mpr (by simpa using hnot),
        filter_eq_self.mpr (by simp), filter_eq_nil_iff.mpr (by simpa using hout),
        append_nil, append_nil] at hfilter
      rw [filter_eq_nil_iff.mpr (by simpa using hin), filter_eq_self.mpr (by simpa using hnot),
        filter_eq_nil_iff.mpr (by simp), filter_eq_self.mpr (by simpa using hout),
        nil_append, nil_append] at hfilter'
      exact ⟨hfilter, hfilter'⟩
    obtain ⟨hrespects, hrespects', -⟩ := pairwise_append.mp hrespects
    have hcomponent : ∀ row ∈ component, Modelled row := fun row hrow =>
      hrows row (mem_append_left _ hrow)
    have hrest : ∀ row ∈ components.flatten, Modelled row := fun row hrow =>
      hrows row (mem_append_right _ hrow)
    rw [Ledger.run] at hissues ⊢
    have hnone : (l.component epoch component).issues = [] := by
      split at hissues
      · exact run_issues hissues
      · exact hissues
    obtain ⟨hempty, hsame, hnext, hfound⟩ :=
      component_sound hagrees hcomponent hnone horders.1 hruns
    rw [if_pos (hsame.trans hvalid)] at hissues ⊢
    obtain ⟨-, hafter⟩ := ih hnext (hsame.trans hvalid) hrest hbefore hlater hissues horders.2
      hrespects' hruns'
    refine ⟨hempty, fun found hmem => ?_⟩
    rw [flatten_cons, map_append]
    rcases hafter found hmem with hmem | ⟨hid, hexplains⟩
    · rcases hfound found hmem with hold | ⟨hid, hexplains⟩
      · exact .inl hold
      · refine .inr ⟨mem_append_left _ hid, fun pair hpair hwait => ?_⟩
        rcases mem_append.mp hpair with hpair | hpair
        · exact hexplains hfirst pair hpair hwait
        · refine absurd hwait.symm (hdisjoint _ hid _ (mem_map_of_mem ?_))
          exact horders.2.subset (mem_map_of_mem hpair)
    · refine .inr ⟨mem_append_right _ hid, fun pair hpair hwait => ?_⟩
      rcases mem_append.mp hpair with hpair | hpair
      · refine absurd hwait (hdisjoint _ (mem_map_of_mem ?_) _ hid)
        exact horders.1.subset (mem_map_of_mem hpair)
      · exact hexplains pair hpair hwait

/-! ### Each credit and each wait once -/

/-- The matches of a ledger, and its pending release, are of rows that it has seen, each in one
place only. -/
structure Once (epoch : Epoch) (l : Ledger) (seen : List Nat) : Prop where
  waits : (l.consumptions.map (·.wait_op_id)).Nodup
  releases : (l.pending.toList.map (·.1.op_id) ++ l.consumptions.map (·.release_op_id)).Nodup
  waits_seen : ∀ found ∈ l.consumptions, found.wait_op_id ∈ seen
  releases_seen : ∀ id ∈ l.pending.toList.map (·.1.op_id) ++ l.consumptions.map (·.release_op_id),
    id ∈ seen
  own : ∀ found ∈ l.consumptions, found.epoch_id = epoch.epoch_id

theorem Once.mono {epoch : Epoch} {seen seen' : List Nat} (h : Once epoch l seen)
    (hsub : seen ⊆ seen') : Once epoch l seen' :=
  { h with
    waits_seen := fun found hfound => hsub (h.waits_seen found hfound)
    releases_seen := fun id hid => hsub (h.releases_seen id hid) }

/-- What a component of one row does to the pending release and the matches. -/
theorem single_cases (epoch : Epoch) (l : Ledger) (row : Operation) :
    (l.single epoch row).consumptions = l.consumptions ∧
      ((l.single epoch row).pending = l.pending ∨ (l.single epoch row).pending = none ∨
        ∃ context, (l.single epoch row).pending = some (row, context)) ∨
    (l.single epoch row).pending = none ∧ (l.single epoch row).consumptions =
      l.consumptions ++ l.pending.toList.map fun pending =>
        recordMatch epoch.epoch_id pending.1 pending.2 row "strict-disjoint-single-credit" := by
  unfold Ledger.single
  split
  · split
    · refine .inl ⟨rfl, ?_⟩
      dsimp only
      split
      · exact .inr (.inl rfl)
      split
      · exact .inr (.inr ⟨_, rfl⟩)
      · exact .inl rfl
    · exact .inl ⟨rfl, .inl rfl⟩
  · exact .inr ⟨rfl, rfl⟩
  all_goals exact .inl ⟨rfl, .inl rfl⟩

theorem Once.single {epoch : Epoch} {row : Operation} (h : Once epoch l seen)
    (hrow : row.op_id ∉ seen) : Once epoch (l.single epoch row) (seen ++ [row.op_id]) := by
  have hkept := h.mono (subset_append_left seen [row.op_id])
  obtain ⟨-, hreleases, hseen⟩ := nodup_append.mp h.releases
  have hnext : row.op_id ∈ seen ++ [row.op_id] := by simp
  rcases single_cases epoch l row with ⟨hsame, hpending | hpending | ⟨context, hpending⟩⟩ |
      ⟨hpending, hsame⟩
  · exact ⟨by rw [hsame]; exact hkept.waits, by rw [hsame, hpending]; exact hkept.releases,
      by rw [hsame]; exact hkept.waits_seen, by rw [hsame, hpending]; exact hkept.releases_seen,
      by rw [hsame]; exact hkept.own⟩
  · refine ⟨by rw [hsame]; exact hkept.waits, by rw [hsame, hpending]; exact hreleases,
      by rw [hsame]; exact hkept.waits_seen, ?_, by rw [hsame]; exact hkept.own⟩
    rw [hsame, hpending]
    exact fun id hid => hkept.releases_seen id (mem_append_right _ hid)
  · refine ⟨by rw [hsame]; exact hkept.waits, ?_, by rw [hsame]; exact hkept.waits_seen, ?_,
      by rw [hsame]; exact hkept.own⟩
    · rw [hsame, hpending]
      refine nodup_cons.mpr ⟨fun hmem => ?_, hreleases⟩
      exact hrow (h.releases_seen _ (mem_append_right _ hmem))
    · rw [hsame, hpending]
      exact forall_mem_cons.mpr ⟨hnext, fun id hid =>
        hkept.releases_seen id (mem_append_right _ hid)⟩
  · cases hold : l.pending with
    | none =>
      rw [hold] at hsame
      have hsame : (l.single epoch row).consumptions = l.consumptions := by simpa using hsame
      refine ⟨by rw [hsame]; exact hkept.waits, by rw [hsame, hpending]; exact hreleases,
        by rw [hsame]; exact hkept.waits_seen, ?_, by rw [hsame]; exact hkept.own⟩
      rw [hsame, hpending]
      exact fun id hid => hkept.releases_seen id (mem_append_right _ hid)
    | some pending =>
      rw [hold] at hsame
      have hsame : (l.single epoch row).consumptions = l.consumptions ++
        [recordMatch epoch.epoch_id pending.1 pending.2 row "strict-disjoint-single-credit"] := hsame
      have hfirst : pending.1.op_id ∈ l.pending.toList.map (·.1.op_id) := by rw [hold]; simp
      refine ⟨?_, ?_, ?_, ?_, ?_⟩
      · have hnew : row.op_id ∉ l.consumptions.map (·.wait_op_id) := by
          intro hid
          obtain ⟨found, hfound, heq⟩ := mem_map.mp hid
          exact hrow (heq ▸ h.waits_seen found hfound)
        rw [hsame, map_append, map_singleton, ← concat_eq_append]
        exact List.Nodup.concat hnew h.waits
      · rw [hpending, hsame, map_append]
        show ((l.consumptions.map (·.release_op_id)) ++ [pending.1.op_id]).Nodup
        rw [← concat_eq_append]
        exact List.Nodup.concat (fun hid => hseen _ hfirst _ hid rfl) hreleases
      · rw [hsame]
        refine forall_mem_append.mpr ⟨hkept.waits_seen, forall_mem_singleton.mpr hnext⟩
      · rw [hpending, hsame, map_append]
        show ∀ id ∈ (l.consumptions.map (·.release_op_id)) ++ [pending.1.op_id], _
        refine forall_mem_append.mpr ⟨fun id hid =>
          hkept.releases_seen id (mem_append_right _ hid), forall_mem_singleton.mpr ?_⟩
        exact hkept.releases_seen _ (mem_append_left _ hfirst)
      · rw [hsame]
        exact forall_mem_append.mpr ⟨hkept.own, forall_mem_singleton.mpr rfl⟩

/-- A component of several rows that leaves no issue. -/
theorem Once.overlap {epoch : Epoch} {component : List Operation} (h : Once epoch l seen)
    (hnew : ∀ row ∈ component, row.op_id ∉ seen) (hissues : (l.overlap epoch component).issues = [])
    :
    Once epoch (l.overlap epoch component) (seen ++ component.map (·.op_id)) := by
  obtain ⟨released, waited, context, hpair⟩ := overlap_pair hissues
  have hkept := h.mono (subset_append_left seen (component.map (·.op_id)))
  have hreleased : released ∈ component := hpair.rows.symm.subset (by simp)
  have hwaited : waited ∈ component := hpair.rows.symm.subset (by simp)
  obtain ⟨-, hreleases, -⟩ := nodup_append.mp h.releases
  rw [hpair.overlap]
  refine ⟨?_, ?_, ?_, ?_, forall_mem_append.mpr ⟨hkept.own, forall_mem_singleton.mpr rfl⟩⟩
  · have hwait : waited.op_id ∉ l.consumptions.map (·.wait_op_id) := by
      intro hid
      obtain ⟨found, hfound, heq⟩ := mem_map.mp hid
      exact hnew waited hwaited (heq ▸ h.waits_seen found hfound)
    rw [map_append, map_singleton, ← concat_eq_append]
    exact List.Nodup.concat hwait h.waits
  · rw [map_append]
    show ((l.consumptions.map (·.release_op_id)) ++ [released.op_id]).Nodup
    rw [← concat_eq_append]
    refine List.Nodup.concat (fun hid => ?_) hreleases
    exact hnew released hreleased (h.releases_seen _ (mem_append_right _ hid))
  · refine forall_mem_append.mpr ⟨hkept.waits_seen, forall_mem_singleton.mpr ?_⟩
    exact mem_append_right _ (mem_map_of_mem hwaited)
  · rw [map_append]
    show ∀ id ∈ (l.consumptions.map (·.release_op_id)) ++ [released.op_id], _
    refine forall_mem_append.mpr ⟨fun id hid =>
      hkept.releases_seen id (mem_append_right _ hid), forall_mem_singleton.mpr ?_⟩
    exact mem_append_right _ (mem_map_of_mem hreleased)

theorem Once.run {epoch : Epoch} {components : List (List Operation)} (h : Once epoch l seen)
    (hnodup : (seen ++ components.flatten.map (·.op_id)).Nodup)
    (hissues : (l.run epoch components).issues = []) :
    Once epoch (l.run epoch components) (seen ++ components.flatten.map (·.op_id)) := by
  induction components generalizing l seen with
  | nil =>
    rw [flatten_nil, map_nil, append_nil]
    exact h
  | cons component components ih =>
    rw [flatten_cons, map_append, ← append_assoc] at hnodup ⊢
    have hnew : ∀ row ∈ component, row.op_id ∉ seen := by
      obtain ⟨hfirst, -⟩ := nodup_append.mp hnodup
      obtain ⟨-, -, hdisjoint⟩ := nodup_append.mp hfirst
      exact fun row hrow hmem => hdisjoint _ hmem _ (mem_map_of_mem hrow) rfl
    rw [Ledger.run] at hissues ⊢
    have hnone : (l.component epoch component).issues = [] := by
      split at hissues
      · exact run_issues hissues
      · exact hissues
    have hnext : Once epoch (l.component epoch component) (seen ++ component.map (·.op_id)) := by
      rcases component with _ | ⟨row, _ | ⟨row', component⟩⟩
      · exact h.overlap hnew hnone
      · exact h.single (hnew row (mem_singleton_self _))
      · exact h.overlap hnew hnone
    split
    · rename_i hvalid
      rw [if_pos hvalid] at hissues
      exact ih hnext hnodup hissues
    · exact hnext.mono (subset_append_left _ _)

/-! ### The audit -/

/-- What validation leaves for the ledgers. -/
theorem validate_ok {source : Source} {token : String} {begin_qpc end_qpc qpc_frequency : Nat}
    (h : validate source token begin_qpc end_qpc qpc_frequency = .ok ()) :
    (source.epochs.map (·.epoch_id)).Nodup ∧ (source.operations.map (·.op_id)).Nodup ∧
      ∀ row ∈ source.operations, checkOperation row source.epochs = .ok () := by
  simp only [validate, bind_ok, need_ok, forM_ok, decide_eq_true_eq, exists_const] at h
  obtain ⟨-, -, -, -, -, -, -, -, -, -, -, -, -, -, -, -, -, -, -, hids, hrows, hnodup, -⟩ := h
  exact ⟨hids, hnodup, hrows⟩

theorem modelled_of_check {row : Operation} {epochs : List Epoch}
    (h : checkOperation row epochs = .ok ()) : ∀ count success previous context,
      row.payload = .release count success previous context → 1 ≤ count := by
  intro count success previous context hpayload
  simp only [checkOperation, bind_ok] at h
  obtain ⟨-, -, -, -, h⟩ := h
  split at h
  · cases h
  · simp only [bind_ok, hpayload, checkPayload] at h
    obtain ⟨_, -, _, -, _, -, _, -, _, hcount, -⟩ := h
    have hrange := need_ok.mp hcount
    exact (of_decide_eq_true hrange).1

theorem rowBefore_total (a b : Operation) : rowBefore a b ∨ rowBefore b a := by
  unfold rowBefore
  omega

theorem rowBefore_trans {a b c : Operation} (h : rowBefore a b) (h' : rowBefore b c) :
    rowBefore a c := by
  unfold rowBefore at *
  omega

theorem epochRows_perm (source : Source) (epoch : Epoch) : (epochRows source epoch).Perm
    (source.operations.filter fun row => row.epoch_id = epoch.epoch_id) :=
  perm_insertionSort _ _

theorem epochRows_sorted (source : Source) (epoch : Epoch) :
    (epochRows source epoch).Pairwise fun a b => a.entry_qpc ≤ b.entry_qpc := by
  have : Std.Total rowBefore := ⟨rowBefore_total⟩
  have : IsTrans Operation rowBefore := ⟨fun _ _ _ => rowBefore_trans⟩
  refine (pairwise_insertionSort rowBefore _).imp fun {a b} h => ?_
  unfold rowBefore at h
  omega

/-- A ledger without an issue has run over all its components. -/
theorem ledger_eq {begin_qpc end_qpc : Nat} {epoch : Epoch} {rows : List Operation}
    (h : (ledger begin_qpc end_qpc epoch rows).issues = []) :
    rows.flatMap (rowIssues begin_qpc end_qpc epoch) = [] ∧
      ledger begin_qpc end_qpc epoch rows =
        Ledger.run epoch { balance := epoch.initial_count }
          (components Operation.entry_qpc Operation.exit_qpc rows) := by
  unfold ledger at h ⊢
  by_cases hrows : rows.flatMap (rowIssues begin_qpc end_qpc epoch) = []
  · refine ⟨hrows, ?_⟩
    simp [hrows]
  · simp [hrows] at h

theorem epoch_sound {source : Source} {begin_qpc end_qpc : Nat} {epoch : Epoch}
    (hrows : ∀ row ∈ source.operations, ∀ count success previous context,
      row.payload = .release count success previous context → 1 ≤ count)
    (hnodup : (source.operations.map (·.op_id)).Nodup) (hinitial : epoch.initial_count = 0)
    (hissues : (ledger begin_qpc end_qpc epoch (epochRows source epoch)).issues = []) :
    (∀ found ∈ (ledger begin_qpc end_qpc epoch (epochRows source epoch)).consumptions,
      ∀ order, Linearisation source epoch order → Explains order found) ∧
    Once epoch (ledger begin_qpc end_qpc epoch (epochRows source epoch))
      ((epochRows source epoch).map (·.op_id)) := by
  obtain ⟨hempty, heq⟩ := ledger_eq hissues
  rw [heq] at hissues ⊢
  have hperm := epochRows_perm source epoch
  have hmem : ∀ row ∈ epochRows source epoch, row ∈ source.operations := fun row hrow =>
    (mem_filter.mp (hperm.subset hrow)).1
  have hmodelled : ∀ row ∈ epochRows source epoch, Modelled row := by
    refine fun row hrow => ⟨hrows row (hmem row hrow), fun kind hkind => ?_⟩
    have hnone := flatMap_eq_nil_iff.mp hempty row hrow
    simp [rowIssues, hkind] at hnone
  have hids : ((epochRows source epoch).map (·.op_id)).Nodup :=
    (hperm.map _).nodup_iff.mpr (hnodup.sublist (List.Sublist.map _ filter_sublist))
  have hflat : (components Operation.entry_qpc Operation.exit_qpc
      (epochRows source epoch)).flatten = epochRows source epoch := components_flatten _
  constructor
  · intro found hfound order hlinear
    obtain ⟨rest, hruns⟩ := hlinear.runs
    have hagrees : Agrees { balance := epoch.initial_count } [] := ⟨hinitial, rfl⟩
    obtain ⟨-, hall⟩ := run_sound hagrees rfl (by rwa [hflat])
      (components_pairwise (epochRows_sorted source epoch)) (by rwa [hflat]) hissues
      (by rw [hflat]; exact hlinear.rows.trans hperm.symm) hlinear.respects hruns
    rcases hall found hfound with hnone | ⟨-, hexplains⟩
    · cases hnone
    · exact hexplains
  · have hstart : Once epoch { balance := epoch.initial_count } [] := ⟨.nil, .nil, by simp, by simp, by simp⟩
    have hrun := hstart.run (by rwa [nil_append, hflat]) hissues
    rwa [nil_append, hflat] at hrun

/-- A match that the audit reports: the wait is an operation of the epoch, and whatever the order
in which the operations took effect, it is the one credit of the release that it took. -/
structure Sound (source : Source) (found : Match) : Prop where
  wait : ∃ row ∈ source.operations, row.op_id = found.wait_op_id ∧ row.epoch_id = found.epoch_id
  epoch : ∃ epoch ∈ source.epochs, epoch.epoch_id = found.epoch_id
  credit : ∀ epoch ∈ source.epochs, epoch.epoch_id = found.epoch_id → ∀ order,
    Linearisation source epoch order → Explains order found

/-- The audit is sound. -/
theorem audit_sound (source : Source) (size : Nat) (token : String)
    (begin_qpc end_qpc qpc_frequency : Nat) (result : Result)
    (h : audit source size token begin_qpc end_qpc qpc_frequency = .ok result) :
    (∀ found ∈ result.unique_credit_consumptions, Sound source found) ∧
      (result.unique_credit_consumptions.map (·.wait_op_id)).Nodup ∧
      (result.unique_credit_consumptions.map (·.release_op_id)).Nodup ∧
      result.associations.Sublist result.unique_credit_consumptions := by
  simp only [audit, bind_ok, pure, Except.pure] at h
  obtain ⟨_, -, _, hvalid, h⟩ := h
  obtain rfl := Except.ok.inj h
  obtain ⟨hids, hnodup, hchecked⟩ := validate_ok hvalid
  unfold evaluate
  dsimp only
  by_cases hissues : issues source begin_qpc end_qpc = []
  · rw [if_neg (not_not.mpr hissues)]
    simp only [issues, append_eq_nil_iff, flatMap_eq_nil_iff] at hissues
    obtain ⟨⟨⟨-, hepochs⟩, -⟩, hledgers⟩ := hissues
    have hepoch : ∀ epoch ∈ source.epochs, _ ∧ _ := fun epoch hmem => by
      have hnone := hepochs epoch hmem
      simp only [epochIssues, append_eq_nil_iff] at hnone
      exact epoch_sound (fun row hrow => modelled_of_check (hchecked row hrow)) hnodup
        (by simpa using issue_eq_nil hnone.1.1.2) (hledgers epoch hmem)
    have hrows : ∀ (epoch : Epoch) (id : Nat), id ∈ (epochRows source epoch).map (·.op_id) →
        ∃ row ∈ source.operations, row.op_id = id ∧ row.epoch_id = epoch.epoch_id := by
      intro epoch id hid
      obtain ⟨row, hrow, rfl⟩ := mem_map.mp hid
      obtain ⟨hmem, hown⟩ := mem_filter.mp ((epochRows_perm source epoch).subset hrow)
      exact ⟨row, hmem, rfl, by simpa using hown⟩
    -- A row has one number, and one epoch, so that the epochs share none.
    have hapart : ∀ epoch ∈ source.epochs, ∀ epoch' ∈ source.epochs, epoch ≠ epoch' → ∀ id,
        id ∈ (epochRows source epoch).map (·.op_id) →
        id ∉ (epochRows source epoch').map (·.op_id) := by
      intro epoch hmem epoch' hmem' hne id hid hid'
      obtain ⟨row, hrow, rfl, hown⟩ := hrows epoch id hid
      obtain ⟨row', hrow', hsame, hown'⟩ := hrows epoch' _ hid'
      obtain rfl := inj_on_of_nodup_map hnodup hrow' hrow hsame
      exact hne (inj_on_of_nodup_map hids hmem hmem' (hown.symm.trans hown'))
    refine ⟨fun found hfound => ?_, ?_, ?_, filter_sublist⟩
    · obtain ⟨epoch, hmem, hfound⟩ := mem_flatMap.mp hfound
      obtain ⟨hexplains, honce⟩ := hepoch epoch hmem
      have hown := honce.own found hfound
      obtain ⟨row, hrow, hid, hrowOwn⟩ := hrows epoch _ (honce.waits_seen found hfound)
      refine ⟨⟨row, hrow, hid, hrowOwn.trans hown.symm⟩, ⟨epoch, hmem, hown.symm⟩,
        fun epoch' hmem' hsame => ?_⟩
      obtain rfl := inj_on_of_nodup_map hids hmem' hmem (hsame.trans hown)
      exact hexplains found hfound
    · rw [map_flatMap, nodup_flatMap]
      refine ⟨fun epoch hmem => (hepoch epoch hmem).2.waits,
        (List.Nodup.of_map _ hids).pairwise_of_forall_ne fun epoch hmem epoch' hmem' hne id hid hid' =>
          ?_⟩
      obtain ⟨found, hfound, rfl⟩ := mem_map.mp hid
      obtain ⟨found', hfound', hsame⟩ := mem_map.mp hid'
      refine hapart epoch hmem epoch' hmem' hne found.wait_op_id
        ((hepoch epoch hmem).2.waits_seen found hfound) ?_
      rw [← hsame]
      exact (hepoch epoch' hmem').2.waits_seen found' hfound'
    · rw [map_flatMap, nodup_flatMap]
      refine ⟨fun epoch hmem => (nodup_append.mp (hepoch epoch hmem).2.releases).2.1,
        (List.Nodup.of_map _ hids).pairwise_of_forall_ne fun epoch hmem epoch' hmem' hne id hid hid' =>
          hapart epoch hmem epoch' hmem' hne id ?_ ?_⟩
      · exact (hepoch epoch hmem).2.releases_seen id (mem_append_right _ hid)
      · exact (hepoch epoch' hmem').2.releases_seen id (mem_append_right _ hid')
  · rw [if_pos hissues]
    exact ⟨by simp, .nil, .nil, filter_sublist⟩

/-- A release that overlaps the wait it wakes. -/
theorem audit_sound_pair : Sound
    { token := "0123456789abcdef0123456789abcdef", qpc_frequency := 10, begin_qpc := 1
      end_qpc_exclusive := 100, capacity := 4096, history_complete := true
      counts := ⟨2, 2, 2, 0⟩
      epochs := [{ epoch_id := 1, object_cookie := 7, creation_qpc := 5, maximum_count := 3
                   origin := .kFresh, history_complete := true }]
      operations := [
        { op_id := 1, epoch_id := 1, native_thread_id := 4, entry_qpc := 10, exit_qpc := 30
          payload := .wait .kSuccess .kInfinite },
        { op_id := 2, epoch_id := 1, native_thread_id := 5, entry_qpc := 20, exit_qpc := 25
          payload := .release 1 true (some 0) { kind := .kUpdate, generation := some ⟨1, 1⟩ } }] }
    ⟨1, 2, 1, { kind := .kUpdate, generation := some ⟨1, 1⟩ }, "isolated-overlap-single-credit",
      (20, 25), (10, 30)⟩ := by
  refine (audit_sound _ 1 "0123456789abcdef0123456789abcdef" 1 100 10 _ rfl).1 _ ?_
  decide

end Mcla.Semaphore.Credit
