import Mcla.Portable.SaveCapture

/-! # What the snapshots of a session keep

The state that the launcher remembers is in a completed snapshot, as long as no call meets a
snapshot of another state under the same name, and the new snapshot is not pruned at once.
`captured_on_disk` says so over every run of a session, and `header_change_lost` shows a run
that meets such a snapshot.
-/
namespace Mcla.Portable
open Interruptible List

/-! ## Steps -/

section
variable {α : Type} {P : SaveWorld → Prop} {Q : α → SaveWorld → Prop} {X : SaveWorld → Prop}

theorem step_ends {f : SaveWorld → Except String α × SaveWorld} (hX : ∀ w, P w → X w)
    (hok : ∀ w a w', P w → f w = (.ok a, w') → Q a w'.tick)
    (herror : ∀ w e w', P w → f w = (.error e, w') → X w'.tick) : Ends P (step f) Q X := by
  refine Ends.act hX (fun w a w' hw h => ?_) fun w e w' hw h => ?_
  · obtain ⟨h1, rfl⟩ := Prod.mk.inj h
    exact hok w a _ hw (Prod.ext h1 rfl)
  · obtain ⟨h1, rfl⟩ := Prod.mk.inj h
    exact herror w e _ hw (Prod.ext h1 rfl)

theorem change_ends {f : SaveWorld → SaveWorld} {Q : Unit → SaveWorld → Prop}
    (hX : ∀ w, P w → X w) (hok : ∀ w, P w → Q () (f w).tick) : Ends P (change f) Q X := by
  refine step_ends hX (fun w _ w' hw h => ?_) fun w e w' hw h => ?_
  · cases h
    exact hok w hw
  · cases h

theorem step_keeps {f : SaveWorld → Except String α × SaveWorld}
    (h : ∀ w, P w → P (f w).2.tick) : Keeps P (step f) := Keeps.act h

theorem change_keeps {f : SaveWorld → SaveWorld} (h : ∀ w, P w → P (f w).tick) :
    Keeps P (change f) := step_keeps h

end

/-- Only moments have passed. -/
def Ticked (before after : SaveWorld) : Prop := ∃ now, after = { before with now := now }

theorem Ticked.refl (w : SaveWorld) : Ticked w w := ⟨w.now, rfl⟩

theorem Ticked.tick {before after : SaveWorld} (h : Ticked before after) :
    Ticked before after.tick := by
  obtain ⟨now, rfl⟩ := h
  exact ⟨now + 1, rfl⟩

/-- What `ReadSaveState` reads, at the moments after a state. -/
def readAt (digest : Bytes → Bytes) (fileIn : SaveWorld → Path → Option Bytes) (w : SaveWorld) :
    Option SaveState :=
  if (fileIn w savePath).isSome ∧ (fileIn w.tick headerPath).isSome then
    (fileIn w.tick.tick savePath).bind fun save =>
      (fileIn w.tick.tick.tick headerPath).map fun header =>
        ⟨sha256 digest save, sha256 digest header⟩
  else none

variable {digest : Bytes → Bytes} {w : SaveWorld} {f : SnapshotDir → SnapshotDir} {name : Bytes}
  {host : Host} {d : SnapshotDir} {u : SaveWorld} {names : List Bytes}

theorem readSaveState_ends {fileIn : SaveWorld → Path → Option Bytes} :
    Ends (· = w) (readSaveState digest fileIn)
      (fun state after => Ticked w after ∧ state = readAt digest fileIn w) (Ticked w) := by
  unfold readSaveState readAt
  refine Ends.bind (Q := fun found after => after = w.tick ∧ found = (fileIn w savePath).isSome)
    (Ends.observe ?_ ?_) fun save => ?_
  · rintro _ rfl
    exact Ticked.refl _
  · rintro _ rfl
    exact ⟨rfl, rfl⟩
  · have hw1 : Ticked w w.tick := (Ticked.refl w).tick
    cases save with
    | false =>
      refine Ends.pure none ?_
      rintro _ ⟨rfl, hsave⟩
      refine ⟨hw1, ?_⟩
      rw [← hsave, if_neg (by simp)]
    | true =>
      refine Ends.bind (Q := fun found after => (after = w.tick.tick ∧
        true = (fileIn w savePath).isSome) ∧ found = (fileIn w.tick headerPath).isSome)
        (Ends.observe ?_ ?_) fun header => ?_
      · rintro _ ⟨rfl, -⟩
        exact hw1
      · rintro _ ⟨rfl, hsave⟩
        exact ⟨⟨rfl, hsave⟩, rfl⟩
      · cases header with
        | false =>
          refine Ends.pure none ?_
          rintro _ ⟨⟨rfl, -⟩, hheader⟩
          refine ⟨hw1.tick, ?_⟩
          rw [← hheader, if_neg (by simp)]
        | true =>
          refine Ends.bind (Q := fun saveHash after => after = w.tick.tick.tick ∧
            (true = (fileIn w savePath).isSome ∧ true = (fileIn w.tick headerPath).isSome) ∧
            saveHash = (fileIn w.tick.tick savePath).map (sha256 digest))
            (Ends.observe ?_ ?_) fun saveHash => ?_
          · rintro _ ⟨⟨rfl, -⟩, -⟩
            exact hw1.tick
          · rintro _ ⟨⟨rfl, hsave⟩, hheader⟩
            exact ⟨rfl, ⟨hsave, hheader⟩, rfl⟩
          · refine Ends.bind (Q := fun headerHash after => Ticked w after ∧
              (true = (fileIn w savePath).isSome ∧ true = (fileIn w.tick headerPath).isSome) ∧
              saveHash = (fileIn w.tick.tick savePath).map (sha256 digest) ∧
              headerHash = (fileIn w.tick.tick.tick headerPath).map (sha256 digest))
              (Ends.observe ?_ ?_) fun headerHash => Ends.pure _ ?_
            · rintro _ ⟨rfl, -⟩
              exact hw1.tick.tick
            · rintro _ ⟨rfl, hfound, hsave⟩
              exact ⟨hw1.tick.tick.tick, hfound, hsave, rfl⟩
            · rintro after ⟨hticked, hfound, rfl, rfl⟩
              refine ⟨hticked, ?_⟩
              rw [← hfound.1, ← hfound.2, if_pos ⟨rfl, rfl⟩]
              cases fileIn w.tick.tick savePath <;> cases fileIn w.tick.tick.tick headerPath <;> rfl

/-! ## The copies -/

/-- The snapshots that are published. -/
def SaveWorld.completed (w : SaveWorld) : List SnapshotDir := w.saves.filter fun d => !d.isPartial

/-- Only copies in the making differ. -/
structure SameCompleted (before after : SaveWorld) : Prop where
  completed : after.completed = before.completed
  last : after.last = before.last

theorem SameCompleted.refl (w : SaveWorld) : SameCompleted w w := ⟨rfl, rfl⟩

theorem Ticked.sameCompleted {u v w : SaveWorld} (h : SameCompleted u v) (hw : Ticked v w) :
    SameCompleted u w := by
  obtain ⟨now, rfl⟩ := hw
  exact ⟨h.completed, h.last⟩

theorem completed_modify_false (w : SaveWorld) (name : Bytes)
    (hf : ∀ d, (f d).isPartial = d.isPartial) : (w.modify name true f).completed = w.completed := by
  unfold SaveWorld.completed SaveWorld.modify
  simp only
  induction w.saves with
  | nil => rfl
  | cons d saves ih =>
    rw [map_cons]
    by_cases hd : d.is name true = true
    · have hpart : d.isPartial = true := by
        unfold SnapshotDir.is at hd
        rw [Bool.and_eq_true, beq_iff_eq, beq_iff_eq] at hd
        exact hd.2
      rw [if_pos hd, filter_cons_of_neg (by simp [hf, hpart]),
        filter_cons_of_neg (by simp [hpart]), ih]
    · rw [if_neg hd]
      cases hpart : d.isPartial with
      | true =>
        rw [filter_cons_of_neg (by simp [hpart]), filter_cons_of_neg (by simp [hpart]), ih]
      | false =>
        rw [filter_cons_of_pos (by simp [hpart]), filter_cons_of_pos (by simp [hpart]), ih]

theorem completed_erase_false (w : SaveWorld) (name : Bytes) :
    (w.erase name true).completed = w.completed := by
  unfold SaveWorld.completed SaveWorld.erase
  simp only
  rw [filter_filter]
  refine filter_congr fun d _ => ?_
  unfold SnapshotDir.is
  cases d.isPartial <;> simp

theorem SameCompleted.modify {u w : SaveWorld} (h : SameCompleted u w)
    (hf : ∀ d, (f d).isPartial = d.isPartial) : SameCompleted u (w.modify name true f).tick :=
  ⟨(completed_modify_false w name hf).trans h.completed, h.last⟩

theorem SameCompleted.erase {u w : SaveWorld} (h : SameCompleted u w) :
    SameCompleted u (w.erase name true).tick :=
  ⟨(completed_erase_false w name).trans h.completed, h.last⟩

theorem removeFiles_keeps {paths : List Path} :
    Keeps (SameCompleted w) (removeFiles host name true paths) := by
  induction paths with
  | nil => exact Keeps.pure ()
  | cons path rest ih =>
    exact Keeps.bind (change_keeps fun v hv => hv.modify fun _ => rfl) fun _ => ih

theorem removeAll_partial_keeps : Keeps (SameCompleted w) (removeAll host name true) := by
  refine Keeps.bind Keeps.get fun v => ?_
  cases v.find name true with
  | none => exact Keeps.pure ()
  | some d =>
    refine Keeps.bind removeFiles_keeps fun _ => ?_
    refine Keeps.bind (change_keeps fun u hu => hu.modify fun _ => rfl) fun _ => ?_
    exact change_keeps fun u hu => hu.erase

theorem discard_keeps : Keeps (SameCompleted w) (discard host name) :=
  Keeps.bind (Keeps.attempt removeAll_partial_keeps) fun _ => Keeps.pure ()

/-- The copy has a file. -/
def Copied (w : SaveWorld) (name : Bytes) (path : Path) (content : Bytes) : Prop :=
  ∃ d, w.find name true = some d ∧ d.file path = some content

/-- The file of the user's profile does not change during the call. -/
def Steady (host : Host) (path : Path) (content : Bytes) : Prop :=
  ∀ now, host.user now path = some content

/-- The walk comes to the file. -/
def Walks (host : Host) (path : Path) : Prop :=
  ∃ entry ∈ host.walk, entry.path = path ∧ ∃ size, entry.kind = .file size

theorem find_modify_false (h : w.find name true = some d)
    (hf : ∀ d, (f d).name = d.name ∧ (f d).isPartial = d.isPartial) :
    (w.modify name true f).find name true = some (f d) := by
  have his : ∀ e : SnapshotDir, (f e).is name true = e.is name true := by
    intro e
    unfold SnapshotDir.is
    rw [(hf e).1, (hf e).2]
  unfold SaveWorld.find at h
  unfold SaveWorld.find SaveWorld.modify
  simp only
  generalize w.saves = saves at h ⊢
  induction saves with
  | nil => cases h
  | cons e saves ih =>
    rw [map_cons]
    cases he : e.is name true with
    | true =>
      rw [if_pos rfl, find?_cons, his, he]
      rw [find?_cons, he] at h
      rw [Option.some.inj h]
    | false =>
      rw [if_neg (by simp), find?_cons, he]
      rw [find?_cons, he] at h
      exact ih h

theorem createPartial_ends :
    Ends (SameCompleted w) (createPartial host name)
      (fun _ after => SameCompleted w after ∧ (after.find name true).isSome) (SameCompleted w) := by
  refine change_ends (fun _ => id) fun v hv => ?_
  split_ifs with hfound
  · exact ⟨⟨hv.completed, hv.last⟩, hfound⟩
  · refine ⟨⟨?_, hv.last⟩, ?_⟩
    · rw [← hv.completed]
      unfold SaveWorld.completed SaveWorld.tick
      simp
    · unfold SaveWorld.find SaveWorld.tick SnapshotDir.is
      simp

/-- After some entries of the walk, their unchanged files are in the copy. -/
def CopiedSo (host : Host) (name : Bytes) (u : SaveWorld) (seen : Path → Prop) (w : SaveWorld) :
    Prop :=
  SameCompleted u w ∧ (w.find name true).isSome ∧
    ∀ path content, Steady host path content → seen path → Copied w name path content

theorem CopiedSo.mono {u w : SaveWorld} {seen seen' : Path → Prop} (h : CopiedSo host name u seen w)
    (hseen : ∀ path, seen' path → seen path) : CopiedSo host name u seen' w :=
  ⟨h.1, h.2.1, fun path content hsteady hpath => h.2.2 path content hsteady (hseen path hpath)⟩

theorem copyFile_ends {path : Path} {seen : Path → Prop} :
    Ends (CopiedSo host name u seen) (copyFile host name path)
      (fun _ => CopiedSo host name u fun other => seen other ∨ other = path)
      (SameCompleted u) := by
  refine step_ends (fun w hw => hw.1) (fun w _ w' hw h => ?_) fun w e w' hw h => ?_
  · cases hcontent : host.user w.now path with
    | none =>
      simp only [hcontent] at h
      cases h
    | some content =>
      simp only [hcontent] at h
      cases h
      obtain ⟨hsame, hfound, hcopied⟩ := hw
      obtain ⟨d, hd⟩ := Option.isSome_iff_exists.mp hfound
      have hmodified : (w.modify name true fun d =>
          { d with profile := (path, content) :: d.profile.filter (·.1 != path) }).find name true =
          some { d with profile := (path, content) :: d.profile.filter (·.1 != path) } :=
        find_modify_false hd fun _ => ⟨rfl, rfl⟩
      refine ⟨hsame.modify fun _ => rfl, ?_, fun other content' hsteady hother => ?_⟩
      · exact Option.isSome_iff_exists.mpr ⟨_, hmodified⟩
      · refine ⟨_, hmodified, ?_⟩
        unfold SnapshotDir.file
        simp only
        by_cases heq : path = other
        · subst heq
          have hcontent' := hsteady w.now
          rw [hcontent] at hcontent'
          rw [find?_cons_of_pos (by simp), Option.map_some, Option.some.inj hcontent']
        · obtain ⟨e, he, hfile⟩ := hcopied other content' hsteady
            (hother.resolve_right fun h => heq h.symm)
          rw [hd] at he
          cases he
          unfold SnapshotDir.file at hfile
          rw [find?_cons_of_neg (by simpa using heq), find?_filter]
          rw [← hfile]
          congr 2
          funext entry
          by_cases hentry : entry.1 = other
          · simp [hentry, Ne.symm heq]
          · simp [hentry]
  · cases hcontent : host.user w.now path with
    | none =>
      simp only [hcontent] at h
      cases h
      exact ⟨hw.1.completed, hw.1.last⟩
    | some content =>
      simp only [hcontent] at h
      cases h

/-- **The copy loop.** -/
theorem copyEntries_ends {list : List Listed} {entries bytes : Nat} {seen : Path → Prop} :
    Ends (CopiedSo host name u seen) (copyEntries host name list entries bytes)
      (fun _ => CopiedSo host name u fun path => seen path ∨
        ∃ entry ∈ list, entry.path = path ∧ ∃ size, entry.kind = .file size)
      (SameCompleted u) := by
  induction list generalizing entries bytes seen with
  | nil =>
    refine Ends.pure () fun w hw => hw.mono ?_
    rintro path (hpath | ⟨_, hmem, -⟩)
    · exact hpath
    · cases hmem
  | cons entry rest ih =>
    have hX : ∀ w, CopiedSo host name u seen w → SameCompleted u w := fun w hw => hw.1
    have hskip : (∀ size, entry.kind ≠ .file size) → ∀ w path,
        CopiedSo host name u (fun path => seen path ∨
          ∃ e ∈ rest, e.path = path ∧ ∃ size, e.kind = .file size) w →
        (seen path ∨ ∃ e ∈ entry :: rest, e.path = path ∧ ∃ size, e.kind = .file size) →
        seen path ∨ ∃ e ∈ rest, e.path = path ∧ ∃ size, e.kind = .file size := by
      rintro hkind w path - (hpath | ⟨e, hmem, hpath, size, hsize⟩)
      · exact .inl hpath
      · rcases mem_cons.mp hmem with rfl | hmem
        · exact absurd hsize (hkind size)
        · exact .inr ⟨e, hmem, hpath, size, hsize⟩
    refine Ends.bind (Ends.refuseIf hX) fun _ => Ends.bind (Ends.refuseIf fun w hw => hX w hw.1)
      fun _ => ?_
    refine Ends.mono (P := CopiedSo host name u seen) ?_ (fun w hw => hw.1.1) (fun _ _ => id)
      fun _ => id
    cases hkind : entry.kind with
    | directory =>
      refine Ends.bind (Q := fun _ => CopiedSo host name u seen) (Ends.handle (X := SameCompleted u)
        (change_ends hX fun w hw => ⟨⟨hw.1.completed, hw.1.last⟩, hw.2⟩) fun e => Ends.fail _ fun _ => id) fun _ => ?_
      refine ih.mono (fun _ => id) (fun _ w hw => hw.mono fun path => ?_) fun _ => id
      exact hskip (by simp [hkind]) w path hw
    | file size =>
      refine Ends.bind (Ends.refuseIf hX) fun _ => ?_
      refine Ends.bind (Q := fun _ => CopiedSo host name u fun other => seen other ∨
        other = entry.path) (Ends.handle (X := SameCompleted u)
        (copyFile_ends.mono (fun w hw => hw.1) (fun _ _ => id) fun _ => id)
        fun e => Ends.fail _ fun _ => id) fun _ => ?_
      refine ih.mono (fun _ => id) (fun _ w hw => hw.mono ?_) fun _ => id
      rintro path (hpath | ⟨e, hmem, rfl, hfile⟩)
      · exact .inl (.inl hpath)
      · rcases mem_cons.mp hmem with rfl | hmem
        · exact .inl (.inr rfl)
        · exact .inr ⟨e, hmem, rfl, hfile⟩
    | other =>
      refine ih.mono (fun _ => id) (fun _ w hw => hw.mono fun path => ?_) fun _ => id
      exact hskip (by simp [hkind]) w path hw

theorem copyProfileTree_ends :
    Ends (SameCompleted u) (copyProfileTree host name)
      (fun _ => CopiedSo host name u (Walks host)) (SameCompleted u) := by
  refine Ends.bind (Q := fun _ => CopiedSo host name u fun _ => False)
    (Ends.handle (X := SameCompleted u)
      (createPartial_ends.mono (fun _ => id) (fun _ w hw => ?_) fun _ => id)
      fun e => Ends.fail _ fun _ => id) fun _ => ?_
  · exact ⟨hw.1, hw.2, fun _ _ _ h => h.elim⟩
  · exact copyEntries_ends.mono (fun _ => id)
      (fun _ w hw => hw.mono fun path hpath => .inr hpath) fun _ => id

/-! ## What is on disk -/

/-- The state that a snapshot holds. -/
def SnapshotDir.state (digest : Bytes → Bytes) (d : SnapshotDir) : Option SaveState :=
  (d.file savePath).bind fun save =>
    (d.file headerPath).map fun header => ⟨sha256 digest save, sha256 digest header⟩

/-- A published snapshot holds the state. -/
def OnDisk (digest : Bytes → Bytes) (w : SaveWorld) (state : SaveState) : Prop :=
  ∃ d ∈ w.completed, d.state digest = some state

/-- The invariant: what is remembered as captured is on disk. -/
structure Kept (digest : Bytes → Bytes) (w : SaveWorld) : Prop where
  names : (w.completed.map (·.name)).Nodup
  last : ∀ state, w.last = some state → OnDisk digest w state

theorem Kept.of_same {u w : SaveWorld} (h : Kept digest u) (hsame : SameCompleted u w) :
    Kept digest w := by
  refine ⟨by rw [hsame.completed]; exact h.names, fun state hstate => ?_⟩
  rw [hsame.last] at hstate
  obtain ⟨d, hd, hholds⟩ := h.last state hstate
  exact ⟨d, by rw [hsame.completed]; exact hd, hholds⟩

/-- What is read back from a copy. -/
theorem readAt_copied (digest : Bytes → Bytes) (host : Host) (name : Bytes) (w : SaveWorld) :
    readAt digest (copiedFile host name) w =
      if host.readsBack then (w.find name true).bind (·.state digest) else none := by
  unfold readAt copiedFile
  cases host.readsBack with
  | false => simp
  | true =>
    simp only [if_true]
    show (if ((w.find name true).bind (·.file savePath)).isSome ∧
        ((w.find name true).bind (·.file headerPath)).isSome then
      ((w.find name true).bind (·.file savePath)).bind fun save =>
        ((w.find name true).bind (·.file headerPath)).map fun header => _ else none) = _
    cases w.find name true with
    | none => rfl
    | some d =>
      unfold SnapshotDir.state
      simp only [Option.bind_some]
      cases d.file savePath <;> cases d.file headerPath <;> rfl

theorem readAt_steady {save header : Bytes} (hsave : Steady host savePath save)
    (hheader : Steady host headerPath header) (w : SaveWorld) :
    readAt digest (userFile host) w = some ⟨sha256 digest save, sha256 digest header⟩ := by
  unfold readAt userFile
  simp only [hsave _, hheader _, Option.isSome_some, and_self, if_true, Option.bind_some,
    Option.map_some]

theorem find_eq_none_iff : w.find name false = none ↔ ∀ d ∈ w.completed, d.name ≠ name := by
  unfold SaveWorld.find SaveWorld.completed SnapshotDir.is
  rw [find?_eq_none]
  constructor
  · intro h d hd heq
    obtain ⟨hmem, hpart⟩ := mem_filter.mp hd
    refine h d hmem ?_
    rw [Bool.and_eq_true, beq_iff_eq, beq_iff_eq]
    exact ⟨heq, by simpa using hpart⟩
  · intro h d hmem hd
    rw [Bool.and_eq_true, beq_iff_eq, beq_iff_eq] at hd
    exact h d (mem_filter.mpr ⟨hmem, by simp [hd.2]⟩) hd.1

theorem find_is {isPartial : Bool} (h : w.find name isPartial = some d) :
    d ∈ w.saves ∧ d.name = name ∧ d.isPartial = isPartial := by
  have his := find?_some h
  unfold SnapshotDir.is at his
  rw [Bool.and_eq_true, beq_iff_eq, beq_iff_eq] at his
  exact ⟨mem_of_find?_eq_some h, his⟩

/-! ## Pruning -/

/-- Only snapshots of these names have been touched. -/
structure Pruned (names : List Bytes) (before after : SaveWorld) : Prop where
  last : after.last = before.last
  kept : ∀ d ∈ before.completed, d.name ∉ names → d ∈ after.completed
  names : (after.completed.map (·.name)).Sublist (before.completed.map (·.name))

theorem completed_modify (hf : ∀ d, (f d).name = d.name ∧ (f d).isPartial = d.isPartial) :
    (w.modify name false f).completed =
      w.completed.map fun d => if d.is name false then f d else d := by
  unfold SaveWorld.completed SaveWorld.modify
  rw [filter_map]
  congr 1
  refine filter_congr fun d _ => ?_
  simp only [Function.comp_apply]
  split_ifs
  · rw [(hf d).2]
  · rfl

theorem Pruned.modify {u w : SaveWorld} (h : Pruned names u w) (hname : name ∈ names)
    (hf : ∀ d, (f d).name = d.name ∧ (f d).isPartial = d.isPartial) :
    Pruned names u (w.modify name false f).tick := by
  refine ⟨h.last, fun d hd hnot => ?_, ?_⟩
  · show d ∈ (w.modify name false f).completed
    rw [completed_modify hf]
    refine mem_map.mpr ⟨d, h.kept d hd hnot, if_neg ?_⟩
    unfold SnapshotDir.is
    rw [Bool.and_eq_true, beq_iff_eq]
    rintro ⟨rfl, -⟩
    exact hnot hname
  · show ((w.modify name false f).completed.map (·.name)).Sublist _
    have hsame : ((w.completed.map fun d => if d.is name false then f d else d).map (·.name)) =
        w.completed.map (·.name) := by
      rw [map_map]
      refine map_congr_left fun d _ => ?_
      simp only [Function.comp_apply]
      split_ifs
      · exact (hf d).1
      · rfl
    rw [completed_modify hf, hsame]
    exact h.names

theorem Pruned.erase {u w : SaveWorld} (h : Pruned names u w) (hname : name ∈ names) :
    Pruned names u (w.erase name false).tick := by
  have hcompleted : (w.erase name false).completed = w.completed.filter (!·.is name false) := by
    unfold SaveWorld.completed SaveWorld.erase
    rw [filter_filter, filter_filter]
    exact filter_congr fun d _ => Bool.and_comm _ _
  refine ⟨h.last, fun d hd hnot => ?_, ?_⟩
  · show d ∈ (w.erase name false).completed
    rw [hcompleted]
    refine mem_filter.mpr ⟨h.kept d hd hnot, ?_⟩
    unfold SnapshotDir.is
    rw [Bool.not_eq_true', Bool.and_eq_false_iff]
    refine .inl (beq_eq_false_iff_ne.mpr ?_)
    rintro rfl
    exact hnot hname
  · show ((w.erase name false).completed.map (·.name)).Sublist _
    rw [hcompleted]
    exact (filter_sublist.map _).trans h.names

theorem removeFiles_prunes {paths : List Path} (hname : name ∈ names) :
    Keeps (Pruned names u) (removeFiles host name false paths) := by
  induction paths with
  | nil => exact Keeps.pure ()
  | cons path rest ih =>
    exact Keeps.bind (change_keeps fun w hw => hw.modify hname fun _ => ⟨rfl, rfl⟩) fun _ => ih

theorem removeAll_prunes (hname : name ∈ names) :
    Keeps (Pruned names u) (removeAll host name false) := by
  refine Keeps.bind Keeps.get fun v => ?_
  cases v.find name false with
  | none => exact Keeps.pure ()
  | some d =>
    refine Keeps.bind (removeFiles_prunes hname) fun _ => ?_
    refine Keeps.bind (change_keeps fun w hw => hw.modify hname fun _ => ⟨rfl, rfl⟩) fun _ => ?_
    exact change_keeps fun w hw => hw.erase hname

theorem removeEach_prunes {list : List SnapshotDir} (h : ∀ d ∈ list, d.name ∈ names) :
    Keeps (Pruned names u) (removeEach host list) := by
  induction list with
  | nil => exact Keeps.pure ()
  | cons d rest ih =>
    refine Keeps.bind (Keeps.attempt (removeAll_prunes (h d (by simp)))) fun _ => ?_
    exact ih fun e he => h e (mem_cons_of_mem _ he)

/-- A snapshot that fewer than `keep` others are as late as is not pruned. -/
theorem arrange_keeps {list : List SnapshotDir} {keep : Nat} (hd : d ∈ list)
    (hnames : (list.map (·.name)).Nodup)
    (hfew : (list.filter fun e => e.name ≠ d.name ∧ d.written ≤ e.written).length < keep) :
    d.name ∉ ((host.arrange list).drop keep).map (·.name) := by
  intro hmem
  obtain ⟨e, he, hname⟩ := mem_map.mp hmem
  have hperm := host.arrange_perm list
  have hed : e = d := by
    refine inj_on_of_nodup_map hnames (hperm.mem_iff.mp (mem_of_mem_drop he)) hd hname
  subst hed
  have hsplit : (host.arrange list).take keep ++ (host.arrange list).drop keep =
      host.arrange list := take_append_drop _ _
  have hsorted := host.arrange_sorted list
  have hnodup : ((host.arrange list).map (·.name)).Nodup := (hperm.map _).nodup_iff.mpr hnames
  rw [← hsplit] at hsorted hnodup
  rw [pairwise_append] at hsorted
  rw [map_append, nodup_append] at hnodup
  have hall : ∀ a ∈ (host.arrange list).take keep, decide (a.name ≠ e.name ∧ e.written ≤ a.written) =
      true := by
    intro a ha
    rw [decide_eq_true_eq]
    exact ⟨hnodup.2.2 a.name (mem_map_of_mem ha) e.name (mem_map_of_mem he), hsorted.2.2 a ha e he⟩
  have hle : ((host.arrange list).take keep).length ≤
      ((host.arrange list).filter fun a => a.name ≠ e.name ∧ e.written ≤ a.written).length := by
    have hsub := ((take_sublist keep (host.arrange list)).filter
      fun a => decide (a.name ≠ e.name ∧ e.written ≤ a.written)).length_le
    rwa [filter_eq_self.mpr hall] at hsub
  rw [(hperm.filter _).length_eq, length_take] at hle
  have hdrop := length_pos_of_mem he
  rw [length_drop] at hdrop
  omega

theorem pruneDirectories_ends {keep : Nat} (hd : d ∈ u.completed)
    (hnames : (u.completed.map (·.name)).Nodup)
    (hfew : (u.completed.filter fun e => e.name ≠ d.name ∧ d.written ≤ e.written).length < keep)
    {state : SaveState} (hstate : d.state digest = some state) (hlast : u.last = some state) :
    Ends (Ticked u) (pruneDirectories host keep)
      (fun _ w => Kept digest w ∧ w.last = some state) (Kept digest) := by
  have hkept : ∀ names w, d.name ∉ names → Pruned names u w →
      Kept digest w ∧ w.last = some state := by
    intro names w hnot hw
    refine ⟨⟨hnames.sublist hw.names, fun other hother => ?_⟩, hw.last.trans hlast⟩
    rw [hw.last, hlast] at hother
    cases hother
    exact ⟨d, hw.kept d hd hnot, hstate⟩
  have hticked : ∀ w, Ticked u w → ∀ names, Pruned names u w := by
    rintro w ⟨now, rfl⟩ names
    exact ⟨rfl, fun _ hd _ => hd, List.Sublist.refl _⟩
  have hstart : ∀ w, Ticked u w → Kept digest w := fun w hw =>
    (hkept [] w (by simp) (hticked w hw [])).1
  have hlist : Ends (Ticked u)
      (Program.attempt (step fun w => (.ok (w.saves.filter fun d => !d.isPartial), w)))
      (fun listed w => Ticked u w ∧ (listed = none ∨ listed = some u.completed)) (Ticked u) := by
    refine Ends.attempt (step_ends (fun _ => id) (fun w _ w' hw h => ?_) fun w e w' hw h => ?_)
      fun w hw => ⟨hw, .inl rfl⟩
    · cases h
      obtain ⟨now, rfl⟩ := hw
      exact ⟨⟨now + 1, rfl⟩, .inr rfl⟩
    · cases h
  refine Ends.bind (hlist.mono (fun _ => id) (fun _ _ => id) hstart) fun listed => ?_
  · refine Ends.mono (P := fun w => (listed = none ∨ listed = some u.completed) ∧ Ticked u w)
      (Ends.given fun hlisted => ?_) (fun w hw => ⟨hw.2, hw.1⟩) (fun _ _ => id) fun _ => id
    have hnot : d.name ∉ ((host.arrange (listed.getD [])).drop keep).map (·.name) := by
      rcases hlisted with rfl | rfl
      · have hnil : host.arrange [] = [] := (host.arrange_perm []).eq_nil
        show d.name ∉ ((host.arrange []).drop keep).map (·.name)
        rw [hnil]
        simp
      · exact arrange_keeps hd hnames hfew
    refine (removeEach_prunes (fun e he => mem_map_of_mem he)).mono
      (fun w hw => hticked w hw _) (fun _ w hw => hkept _ w hnot hw)
      fun w hw => (hkept _ w hnot hw).1

/-! ## One capture -/

/-- The copy under a name holds the state. -/
def CopyHolds (digest : Bytes → Bytes) (name : Bytes) (state : SaveState) (w : SaveWorld) : Prop :=
  ∃ d, w.find name true = some d ∧ d.state digest = some state

/-- The copy has become a snapshot. -/
def Renamed (digest : Bytes → Bytes) (host : Host) (name : Bytes) (state : SaveState)
    (before after : SaveWorld) : Prop :=
  ∃ d, after.completed = before.completed ++ [d] ∧ d.name = name ∧
    (∀ e ∈ before.completed, e.name ≠ name) ∧ d.state digest = some state ∧
    d.written = host.written

theorem renameSnapshot_ends {state : SaveState} :
    Ends (fun w => SameCompleted u w ∧ ∃ d, w.find name true = some d ∧
        d.state digest = some state ∧ d.written = host.written)
      (renameSnapshot name) (fun _ w => Renamed digest host name state u w) (SameCompleted u) := by
  refine step_ends (fun w hw => hw.1) (fun w _ w' hw h => ?_) fun w e w' hw h => ?_
  · obtain ⟨hsame, d, hfind, hstate, hwritten⟩ := hw
    split_ifs at h with hexists
    · cases h
    · simp only [hfind] at h
      cases h
      rw [Option.not_isSome_iff_eq_none, find_eq_none_iff, hsame.completed] at hexists
      refine ⟨{ d with isPartial := false }, ?_, (find_is hfind).2.1, hexists, hstate, hwritten⟩
      rw [← hsame.completed, ← completed_erase_false w name]
      unfold SaveWorld.completed SaveWorld.tick
      rw [filter_append]
      rfl
  · have hsame : w'.tick.completed = w.completed ∧ w'.tick.last = w.last := by
      split_ifs at h
      · cases h
        exact ⟨rfl, rfl⟩
      · cases hfind : w.find name true with
        | none =>
          simp only [hfind] at h
          cases h
          exact ⟨rfl, rfl⟩
        | some d =>
          simp only [hfind] at h
          cases h
    exact ⟨hsame.1.trans hw.1.completed, hsame.2.trans hw.1.last⟩

theorem publishSnapshot_ends {reason name : Bytes} {state : SaveState} (hu : Kept digest u)
    (hfew : (u.completed.filter fun d => host.written ≤ d.written).length <
      kMaximumSnapshotsPerSession) :
    Ends (fun w => SameCompleted u w ∧ CopyHolds digest name state w)
      (publishSnapshot host reason name state)
      (fun _ w => Kept digest w ∧ w.last = some state) (Kept digest) := by
  have hX : ∀ w, SameCompleted u w → Kept digest w := fun w hw => hu.of_same hw
  refine Ends.bind (Q := fun _ w => SameCompleted u w ∧ ∃ d, w.find name true = some d ∧
    d.state digest = some state ∧ d.written = host.written)
    ((Ends.handle (X := SameCompleted u) (change_ends (fun w hw => hw.1) ?_) fun e =>
      Ends.bind discard_keeps fun _ => Ends.fail _ fun _ => id).mono (fun _ => id)
      (fun _ _ => id) hX) fun _ => ?_
  · rintro w ⟨hsame, d, hfind, hstate⟩
    exact ⟨hsame.modify fun _ => rfl, _, find_modify_false hfind fun _ => ⟨rfl, rfl⟩, hstate, rfl⟩
  · refine Ends.bind (Q := fun _ w => Renamed digest host name state u w)
      ((Ends.handle (X := SameCompleted u) renameSnapshot_ends fun e =>
        Ends.fail _ fun _ => id).mono (fun _ => id) (fun _ _ => id) hX) fun _ => ?_
    refine Ends.bind (Q := fun _ w => Renamed digest host name state u w ∧ w.last = some state)
      (Ends.assign ?_) fun _ => ?_
    · rintro w hw
      exact ⟨hw, rfl⟩
    · rintro script position w ⟨⟨d, hcompleted, rfl, hfree, hstate, hwritten⟩, hlast⟩
      have hmem : d ∈ w.completed := by simp [hcompleted]
      have hnames : (w.completed.map (·.name)).Nodup := by
        rw [hcompleted, map_append, nodup_append]
        refine ⟨hu.names, by simp, ?_⟩
        rintro a ha b hb rfl
        obtain ⟨e, he, rfl⟩ := mem_map.mp ha
        simp only [map_cons, map_nil, mem_singleton] at hb
        exact hfree e he hb
      have hlate : (w.completed.filter fun e => e.name ≠ d.name ∧ d.written ≤ e.written).length <
          kMaximumSnapshotsPerSession := by
        refine lt_of_le_of_lt ?_ hfew
        rw [hcompleted, filter_append, hwritten, filter_cons_of_neg (by simp),
          filter_nil, append_nil]
        exact (monotone_filter_right _ fun e he => by
          rw [decide_eq_true_eq] at he ⊢
          exact he.2).length_le
      exact pruneDirectories_ends hmem hnames hlate hstate hlast script position w (Ticked.refl w)

/-- What a capture must not meet: a snapshot of another state under the name of this one, a
copy that lacks the files or cannot be read, or a new snapshot that is among the oldest. -/
def Clear (digest : Bytes → Bytes) (host : Host) (w : SaveWorld) : Prop :=
  ∀ state, readAt digest (userFile host) w = some state → w.last ≠ some state →
    (∀ d ∈ w.completed, d.name = snapshotName state → d.state digest = some state) ∧
    (host.looksUp = false ∨ (∀ d ∈ w.completed, d.name ≠ snapshotName state) →
      Walks host savePath ∧ Walks host headerPath ∧ host.readsBack = true ∧
      (w.completed.filter fun d => host.written ≤ d.written).length < kMaximumSnapshotsPerSession)

/-- The save and the header stay as they are during the call. -/
def Unchanged (digest : Bytes → Bytes) (host : Host) (state : SaveState) : Prop :=
  ∃ save header, Steady host savePath save ∧ Steady host headerPath header ∧
    state = ⟨sha256 digest save, sha256 digest header⟩

theorem Unchanged.readAt {state : SaveState} (h : Unchanged digest host state) (w : SaveWorld) :
    readAt digest (userFile host) w = some state := by
  obtain ⟨save, header, hsave, hheader, rfl⟩ := h
  exact readAt_steady hsave hheader w

/-- What a capture leaves. -/
def Captured (digest : Bytes → Bytes) (host : Host) (w : SaveWorld) : Prop :=
  Kept digest w ∧ ∀ state, Unchanged digest host state → w.last = some state

theorem copySnapshot_ends {reason : Bytes} {before : SaveState} (hu : Kept digest u)
    (hbefore : ∀ state, Unchanged digest host state → state = before)
    (hwalk : Walks host savePath ∧ Walks host headerPath ∧ host.readsBack = true)
    (hfew : (u.completed.filter fun d => host.written ≤ d.written).length <
      kMaximumSnapshotsPerSession) :
    Ends (SameCompleted u) (copySnapshot digest host reason before)
      (fun _ => Captured digest host) (Kept digest) := by
  have hX : ∀ w, SameCompleted u w → Kept digest w := fun w hw => hu.of_same hw
  -- An unchanged state is in the copy as soon as the copy is complete.
  have hcopy : ∀ w, CopiedSo host (snapshotName before) u (Walks host) w → ∀ state,
      Unchanged digest host state → CopyHolds digest (snapshotName before) state w := by
    rintro w ⟨-, -, hcopied⟩ _ ⟨save, header, hsave, hheader, rfl⟩
    obtain ⟨d, hfind, hfile⟩ := hcopied _ _ hsave hwalk.1
    obtain ⟨d', hfind', hfile'⟩ := hcopied _ _ hheader hwalk.2.1
    rw [hfind] at hfind'
    cases hfind'
    refine ⟨d, hfind, ?_⟩
    unfold SnapshotDir.state
    rw [hfile, hfile']
    rfl
  refine Ends.bind (discard_keeps.mono (fun _ => id) (fun _ _ => id) hX) fun _ => ?_
  refine Ends.bind (Q := fun _ => CopiedSo host (snapshotName before) u (Walks host))
    ((Ends.handle copyProfileTree_ends fun e => Ends.bind discard_keeps fun _ =>
      Ends.fail e fun _ => id).mono (fun _ => id) (fun _ _ => id) hX) fun _ => ?_
  intro script position w hw
  refine Ends.bind (P := (· = w)) (Q := fun after v => Ticked w v ∧
    after = readAt digest (userFile host) w) (readSaveState_ends.mono (fun _ => id) (fun _ _ => id)
    fun v hv => hX v (hv.sameCompleted hw.1)) (fun after => ?_) script position w rfl
  rintro script position v ⟨hv, rfl⟩
  refine Ends.bind (P := (· = v)) (Q := fun copied v' => Ticked v v' ∧
    copied = readAt digest (copiedFile host (snapshotName before)) v)
    (readSaveState_ends.mono (fun _ => id) (fun _ _ => id) fun v' hv' =>
      hX v' (hv'.sameCompleted (hv.sameCompleted hw.1))) (fun copied => ?_) script position v rfl
  rintro script position v' ⟨hv', rfl⟩
  have hsame : SameCompleted u v' := hv'.sameCompleted (hv.sameCompleted hw.1)
  have hfind : v.find (snapshotName before) true = w.find (snapshotName before) true ∧
      v'.find (snapshotName before) true = w.find (snapshotName before) true := by
    obtain ⟨_, rfl⟩ := hv
    obtain ⟨_, rfl⟩ := hv'
    exact ⟨rfl, rfl⟩
  rw [readAt_copied, if_pos hwalk.2.2, hfind.1]
  by_cases hread : readAt digest (userFile host) w = some before ∧
      ((w.find (snapshotName before) true).bind (·.state digest)) = some before
  · rw [if_pos hread]
    obtain ⟨d, hd, hstate⟩ := Option.bind_eq_some_iff.mp hread.2
    refine (publishSnapshot_ends hu hfew).mono (fun _ => id) ?_ (fun _ => id) script position v'
      ⟨hsame, d, hfind.2.trans hd, hstate⟩
    rintro _ w' ⟨hkept, hlast⟩
    refine ⟨hkept, fun state hstate => ?_⟩
    rw [hlast, hbefore state hstate]
  · -- A change was seen, or the copy is not what it should be.
    rw [if_neg hread]
    refine discard_keeps.mono (fun _ => id) (fun _ w' hw' => ?_) hX script position v' hsame
    refine ⟨hX w' hw', fun state hstate => absurd ?_ hread⟩
    obtain rfl := hbefore state hstate
    obtain ⟨d, hd, hholds⟩ := hcopy w hw state hstate
    exact ⟨hstate.readAt w, Option.bind_eq_some_iff.mpr ⟨d, hd, hholds⟩⟩

/-- **One capture.**  Clear of the three mishaps, it keeps the invariant, and what it has
captured is the state that did not change. -/
theorem captureSave_ends {digest : Bytes → Bytes} {host : Host} {reason : Bytes} {u : SaveWorld}
    (hu : Kept digest u) (hclear : Clear digest host u) :
    Ends (· = u) (captureSave digest host reason) (fun _ => Captured digest host)
      (Kept digest) := by
  have hX : ∀ w, SameCompleted u w → Kept digest w := fun w hw => hu.of_same hw
  refine Ends.bind (readSaveState_ends.mono (fun _ => id) (fun _ _ => id) fun w hw =>
    hX w (hw.sameCompleted (SameCompleted.refl u))) fun before => ?_
  rintro script position w ⟨hticked, hbefore⟩
  have hw : SameCompleted u w := hticked.sameCompleted (SameCompleted.refl u)
  have hseen : ∀ state, Unchanged digest host state → before = some state := fun state hstate =>
    hbefore.trans (hstate.readAt u)
  cases before with
  | none => exact ⟨hX w hw, fun state hstate => nomatch hseen state hstate⟩
  | some before =>
    have honly : ∀ state, Unchanged digest host state → state = before := fun state hstate =>
      (Option.some.inj (hseen state hstate)).symm
    refine Ends.bind (P := (· = w)) (Q := fun v v' => v = w ∧ v' = w) (X := Kept digest)
      (Ends.get fun v hv => ⟨hv, hv⟩) (fun v => ?_) script position w rfl
    rintro script position w ⟨rfl, rfl⟩
    by_cases hlast : w.last = some before
    · rw [if_pos hlast]
      exact ⟨hX w hw, fun state hstate => by rw [hlast, honly state hstate]⟩
    · rw [if_neg hlast]
      obtain ⟨hname, hfree⟩ := hclear before hbefore.symm (by rwa [hw.last] at hlast)
      refine Ends.bind (Q := fun _ => SameCompleted u) ((Ends.handle (X := SameCompleted u)
        (change_ends (fun _ => id) fun w hw => ⟨hw.completed, hw.last⟩) fun e =>
          Ends.fail _ fun _ => id).mono (fun _ => id) (fun _ _ => id) hX) (fun _ => ?_)
        script position w hw
      refine Ends.bind (Q := fun completed w => SameCompleted u w ∧
        completed = (host.looksUp && (w.find (snapshotName before) false).isSome))
        (Ends.observe hX fun w hw => ⟨⟨hw.completed, hw.last⟩, rfl⟩) fun completed => ?_
      rintro script position w ⟨hw, hfound⟩
      cases completed with
      | true =>
        rw [eq_comm, Bool.and_eq_true] at hfound
        obtain ⟨d, hd⟩ := Option.isSome_iff_exists.mp hfound.2
        obtain ⟨hmem, hdname, hpart⟩ := find_is hd
        have hcompleted : d ∈ u.completed := by
          rw [← hw.completed]
          exact mem_filter.mpr ⟨hmem, by simp [hpart]⟩
        refine ⟨⟨?_, ?_⟩, fun state hstate => by rw [honly state hstate]⟩
        · show (w.completed.map (·.name)).Nodup
          rw [hw.completed]
          exact hu.names
        · rintro state ⟨⟩
          refine ⟨d, ?_, hname d hcompleted hdname⟩
          show d ∈ w.completed
          rw [hw.completed]
          exact hcompleted
      | false =>
        have hcopies : host.looksUp = false ∨ ∀ d ∈ u.completed, d.name ≠ snapshotName before := by
          rw [eq_comm, Bool.and_eq_false_iff] at hfound
          refine hfound.imp_right fun hnone => ?_
          rwa [Option.isSome_eq_false_iff, Option.isNone_iff_eq_none, find_eq_none_iff,
            hw.completed] at hnone
        obtain ⟨hsave, hheader, hback, hfew⟩ := hfree hcopies
        exact copySnapshot_ends hu honly ⟨hsave, hheader, hback⟩ hfew script position w hw

/-! ## Sessions -/

/-- A capture that the launcher makes; when it is restarted, it remembers nothing. -/
inductive SessionEvent where
  | capture (host : Host) (reason : Bytes) (script : Nat → Fate String)
  | restart

/-- What an event does. -/
def SessionEvent.apply (digest : Bytes → Bytes) (w : SaveWorld) : SessionEvent → SaveWorld
  | .capture host reason script => (captureSave digest host reason script 0 w).2.2
  | .restart => { w with last := none }

/-- A session from its events. -/
def sessionRun (digest : Bytes → Bytes) (w : SaveWorld) (events : List SessionEvent) : SaveWorld :=
  events.foldl (SessionEvent.apply digest) w

/-- Every capture of the session is clear of the mishaps. -/
def AllClear (digest : Bytes → Bytes) : SaveWorld → List SessionEvent → Prop
  | _, [] => True
  | w, event :: events =>
      (∀ host reason script, event = .capture host reason script → Clear digest host w) ∧
        AllClear digest (event.apply digest w) events

theorem captureSave_kept (h : Kept digest w) (hclear : Clear digest host w) (reason : Bytes)
    (script : Nat → Fate String) : Kept digest (captureSave digest host reason script 0 w).2.2 := by
  have hends := @captureSave_ends digest host reason w h hclear script 0 w rfl
  revert hends
  generalize captureSave digest host reason script 0 w = run
  rcases run with ⟨value | error | -, position, after⟩
  · exact fun hcaptured => hcaptured.1
  · exact id
  · exact id

theorem SessionEvent.apply_kept {event : SessionEvent} (h : Kept digest w)
    (hclear : ∀ host reason script, event = .capture host reason script → Clear digest host w) :
    Kept digest (event.apply digest w) := by
  cases event with
  | capture host reason script => exact captureSave_kept h (hclear host reason script rfl) _ _
  | restart => exact ⟨h.names, fun state hstate => nomatch hstate⟩

/-- The invariant over a session. -/
theorem sessionRun_kept (h : Kept digest w) (events : List SessionEvent)
    (hclear : AllClear digest w events) : Kept digest (sessionRun digest w events) := by
  induction events generalizing w with
  | nil => exact h
  | cons event events ih => exact ih (event.apply_kept h hclear.1) hclear.2

/-- **Nothing is lost** in a session whose captures are clear of the mishaps: after a capture
that returns, with the save and the header unchanged, a snapshot holds their hashes, and the
launcher remembers them. -/
theorem captured_on_disk (digest : Bytes → Bytes) (saves : List SnapshotDir)
    (hnames : ((saves.filter fun d => !d.isPartial).map (·.name)).Nodup) (count : Nat)
    (events : List SessionEvent) (hclear : AllClear digest ⟨0, saves, none, count⟩ events)
    (host : Host) (reason : Bytes) (script : Nat → Fate String)
    (hhost : Clear digest host (sessionRun digest ⟨0, saves, none, count⟩ events))
    (hdone : (captureSave digest host reason script 0
      (sessionRun digest ⟨0, saves, none, count⟩ events)).1 = .done ())
    (state : SaveState) (hstate : Unchanged digest host state) :
    let after := (captureSave digest host reason script 0
      (sessionRun digest ⟨0, saves, none, count⟩ events)).2.2
    OnDisk digest after state ∧ after.last = some state := by
  intro after
  have hstart : Kept digest ⟨0, saves, none, count⟩ := ⟨hnames, fun state hstate => nomatch hstate⟩
  have hkept := sessionRun_kept hstart events hclear
  have hends := @captureSave_ends digest host reason _ hkept hhost script 0 _ rfl
  have hcaptured : Captured digest host after := by
    clear hclear hhost hkept hstart
    revert hends hdone
    show _ → _ → Captured digest host (captureSave digest host reason script 0 _).2.2
    generalize captureSave digest host reason script 0 _ = run
    rcases run with ⟨value | error | -, position, w⟩
    · exact fun _ => id
    · exact fun h => nomatch h
    · exact fun h => nomatch h
  exact ⟨hcaptured.1.last state (hcaptured.2 state hstate), hcaptured.2 state hstate⟩

/-! ## A header that changes alone -/

/-- The SHA-256 digests of three files of one byte. -/
def sampleDigest (bytes : Bytes) : Bytes :=
  if bytes = [1] then
    [75, 245, 18, 47, 52, 69, 84, 197, 59, 222, 46, 187, 140, 210, 183, 227, 209, 96, 10, 214,
    49, 195, 133, 165, 215, 204, 226, 60, 119, 133, 69, 154]
  else if bytes = [2] then
    [219, 193, 180, 201, 0, 255, 228, 141, 87, 91, 93, 165, 198, 56, 4, 1, 37, 246, 93, 176, 254,
    62, 36, 73, 75, 118, 234, 152, 100, 87, 217, 134]
  else if bytes = [3] then
    [8, 79, 237, 8, 185, 120, 175, 77, 125, 25, 106, 116, 70, 168, 107, 88, 0, 158, 99, 107, 97,
    29, 177, 98, 17, 182, 90, 154, 173, 255, 41, 197]
  else []

/-- A call on a machine where nothing fails and nothing changes. -/
def quietHost (save header : Bytes) : Host where
  user := fun _ path =>
    if path = savePath then some save else if path = headerPath then some header else none
  walk := [⟨savePath, .file save.length, false⟩, ⟨headerPath, .file header.length, false⟩]
  looksUp := true
  readsBack := true
  utcStamp := literal "20260904T122927Z"
  written := 1
  arrange := fun entries => entries.insertionSort fun a b => b.written ≤ a.written
  arrange_perm := fun entries => perm_insertionSort _ entries
  arrange_sorted := fun entries => by
    have : Std.Total fun a b : SnapshotDir => b.written ≤ a.written := ⟨fun a b => le_total _ _⟩
    have : IsTrans SnapshotDir fun a b => b.written ≤ a.written := ⟨fun _ _ _ h h' => h'.trans h⟩
    exact pairwise_insertionSort _ entries

/-- A session that has just begun. -/
def newSession : SaveWorld := ⟨0, [], none, 0⟩

instance (digest : Bytes → Bytes) (w : SaveWorld) (state : SaveState) :
    Decidable (OnDisk digest w state) :=
  inferInstanceAs (Decidable (∃ d ∈ w.completed, d.state digest = some state))

/-- A call that meets no snapshot of the name of its save, and few newer ones, is clear. -/
theorem quietHost_clear {save header : Bytes} {w : SaveWorld} (hname : ∀ d ∈ w.completed,
      d.name ≠ snapshotName ⟨sha256 sampleDigest save, sha256 sampleDigest header⟩)
    (hfew : (w.completed.filter fun d => (quietHost save header).written ≤ d.written).length <
      kMaximumSnapshotsPerSession) : Clear sampleDigest (quietHost save header) w := by
  rintro state hstate -
  have hsame : Unchanged sampleDigest (quietHost save header)
      ⟨sha256 sampleDigest save, sha256 sampleDigest header⟩ :=
    ⟨save, header, fun _ => rfl, fun _ => rfl, rfl⟩
  obtain rfl := Option.some.inj ((hsame.readAt w).symm.trans hstate)
  refine ⟨fun d hd h => absurd h (hname d hd), fun _ => ⟨?_, ?_, rfl, hfew⟩⟩
  · exact ⟨_, mem_cons_self, rfl, _, rfl⟩
  · exact ⟨_, mem_cons_of_mem _ mem_cons_self, rfl, _, rfl⟩

/-- A save after another, in one session. -/
theorem captured_on_disk_next :
    let before := sessionRun sampleDigest newSession
      [.capture (quietHost [1] [2]) [] fun _ => .made]
    let after := (captureSave sampleDigest (quietHost [2] [3]) [] (fun _ => .made) 0 before).2.2
    before.completed.length = 1 ∧ after.completed.length = 2 ∧
      OnDisk sampleDigest after ⟨sha256 sampleDigest [2], sha256 sampleDigest [3]⟩ ∧
      after.last = some ⟨sha256 sampleDigest [2], sha256 sampleDigest [3]⟩ := by
  refine ⟨by decide, by decide, captured_on_disk sampleDigest [] nodup_nil 0
    [.capture (quietHost [1] [2]) [] fun _ => .made] ⟨?_, True.intro⟩ (quietHost [2] [3]) []
    (fun _ => .made) ?_ (by decide) _ ⟨[2], [3], fun _ => rfl, fun _ => rfl, rfl⟩⟩
  · rintro host reason script ⟨⟩
    exact quietHost_clear (fun d hd => absurd hd not_mem_nil) (by decide)
  · exact quietHost_clear (by decide) (by decide)

/-- **A header that changes alone is lost**: the second call finds a snapshot under the digits
of the save, takes the new state as captured, and no snapshot has the new header. -/
theorem header_change_lost :
    let first := captureSave sampleDigest (quietHost [1] [2]) [] (fun _ => .made) 0 newSession
    let second := captureSave sampleDigest (quietHost [1] [3]) [] (fun _ => .made) 0 first.2.2
    let state : SaveState := ⟨sha256 sampleDigest [1], sha256 sampleDigest [3]⟩
    first.1 = .done () ∧ second.1 = .done () ∧ Unchanged sampleDigest (quietHost [1] [3]) state ∧
      second.2.2.last = some state ∧ ¬ OnDisk sampleDigest second.2.2 state := by
  intro first second state
  refine ⟨?_, ?_, ⟨[1], [3], fun _ => rfl, fun _ => rfl, rfl⟩, ?_, ?_⟩
  · decide
  · decide
  · decide
  · decide

end Mcla.Portable
