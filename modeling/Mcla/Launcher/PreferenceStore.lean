import Mcla.Library.Interruptible
import Mcla.Launcher.Preferences

/-! # The preference store

`mcla_launcher_store_win`: a preferences file in a directory, with a backup of the file it
replaced.  The store remembers the model and the bytes it last read or wrote, and saves only
over those bytes.

Every call into the file system is a step of an interruptible program, so a run may fail or
stop before any of them; between the calls the directory may change in any way.
-/
namespace Mcla.Launcher
open Interruptible

/-- `kMaximumIoBytes`. -/
def kMaximumIoBytes : Nat := 64 * 1024 * 1024

/-- `preferences.dat` and `preferences.previous.dat`. -/
inductive StoreFile where
  | preferences | backup
deriving DecidableEq

/-- The directory of a store: its two files and the other names in it, the writer lock
apart. -/
structure StoreFolder where
  file : StoreFile → Option Bytes
  others : List String

/-- `PreferenceStore::State`, without the handles it holds. -/
structure StoreState where
  preferences : Preferences
  previousBytes : Option Bytes

/-- A store and its directory; a store that was moved from has no state. -/
structure StoreWorld where
  folder : StoreFolder
  state : Option StoreState

/-- The error of a step is the text that the operating system's code gives. -/
abbrev StoreProgram (α : Type) : Type := Program StoreWorld String α

/-- `MissingPreferences`. -/
def missingPreferences : StoreProgram Bool :=
  Program.look fun w => .ok (w.folder.file .preferences).isNone

/-- `EmptyFirstRunDirectory`. -/
def emptyFirstRunDirectory : StoreProgram Unit :=
  Program.look fun w =>
    if (w.folder.file .preferences).isSome ∨ (w.folder.file .backup).isSome ∨
        w.folder.others ≠ [] then
      .error "missing preferences in nonempty store; preserve it and recover explicitly"
    else .ok ()

/-- `fs::ReadFile`. -/
def readFile (name : StoreFile) (maximum : Nat) : StoreProgram Bytes := do
  Program.refuseIf (maximum > kMaximumIoBytes) "requested read limit exceeds IO policy"
  Program.look fun w =>
    match w.folder.file name with
    | none => .error "cannot open bounded file"
    | some bytes =>
        if bytes.length > maximum then .error "file exceeds byte bound" else .ok bytes

/-- The inspection of the target in `fs::AtomicWrite`. -/
def inspectTarget (name : StoreFile) : StoreProgram Unit :=
  Program.look fun w =>
    match w.folder.file name with
    | none => .ok ()
    | some old =>
        if old.length > kMaximumIoBytes then .error "file exceeds byte bound" else .ok ()

/-- `CREATE_NEW` of the temporary file. -/
def createTemporary (temporary : String) : StoreProgram Unit :=
  Program.act fun w =>
    if temporary ∈ w.folder.others then
      (.error "cannot create exclusive atomic temporary file", w)
    else (.ok (), { w with folder := { w.folder with others := temporary :: w.folder.others } })

/-- The rename of the temporary file over the target. -/
def publish (temporary : String) (name : StoreFile) (bytes : Bytes) : StoreProgram Unit :=
  Program.change fun w => { w with folder :=
    ⟨Function.update w.folder.file name (some bytes), w.folder.others.erase temporary⟩ }

/-- `fs::AtomicWrite`: a write that fails may leave its temporary file. -/
def atomicWrite (temporary : String) (name : StoreFile) (bytes : Bytes) : StoreProgram Unit := do
  Program.refuseIf (bytes.length > kMaximumIoBytes) "write exceeds IO policy"
  inspectTarget name
  createTemporary temporary
  publish temporary name bytes

/-- `DecodePreferences` succeeds. -/
def decodes (bytes : Bytes) : Bool :=
  match decodePreferences bytes with
  | some (.ok _) => true
  | _ => false

/-- The read-only preflight of `OpenPreferenceStore`. -/
def preflight : StoreProgram Unit := do
  let missing ← missingPreferences
  if missing then emptyFirstRunDirectory
  else do
    let bytes ← Program.orElse (readFile .preferences kMaximumPreferencesBytes)
      "invalid or unreadable preference store; no lock or fallback created"
    Program.refuseIf (decodes bytes = false)
      "invalid or unreadable preference store; no lock or fallback created"

/-- The authoritative read of `OpenPreferenceStore`, under the lock. -/
def loadPreferences (underWine : Bool) : StoreProgram Unit := do
  let missing ← missingPreferences
  if missing then do
    emptyFirstRunDirectory
    Program.assign fun w => { w with state := some ⟨firstRunPreferences underWine, none⟩ }
  else do
    let bytes ← readFile .preferences kMaximumPreferencesBytes
    match decodePreferences bytes with
    | some (.ok decoded) =>
        Program.assign fun w => { w with state := some ⟨decoded, some bytes⟩ }
    | _ => Program.fail "preferences file is invalid; no fallback or overwrite attempted"

/-- `OpenPreferenceStore`; `meanwhile` is what others do to the directory between the
preflight and the writer lock. -/
def openPreferenceStore (underWine : Bool) (meanwhile : StoreFolder → StoreFolder) :
    StoreProgram Unit := do
  Program.look fun _ => .ok ()  -- `OpenDirectory` and `ValidateWritableRoot`
  preflight
  Program.change fun w => { w with folder := meanwhile w.folder }  -- `AcquireWriterLock`
  loadPreferences underWine

/-- The first half of `Save`: a file that is there is backed up, one that should not be
there is left alone. -/
def prepareSave (temporary : String) : Option Bytes → StoreProgram Unit
  | some previous => do
      let current ← readFile .preferences kMaximumPreferencesBytes
      Program.refuseIf (current ≠ previous ∨ decodes current = false)
        "preferences changed or became invalid; no overwrite attempted"
      atomicWrite temporary .backup current
  | none => emptyFirstRunDirectory

/-- `PreferenceStore::Save`. -/
def save (temporary : StoreFile → String) (preferences : Preferences) : StoreProgram Unit := do
  let w ← Program.get
  match w.state with
  | none => Program.fail "preference store was moved from"
  | some state =>
      match encodePreferences preferences with
      | .error _ => Program.fail "refusing invalid preferences model"
      | .ok encoded => do
          prepareSave (temporary .backup) state.previousBytes
          atomicWrite (temporary .preferences) .preferences encoded
          Program.assign fun w => { w with state := some ⟨preferences, some encoded⟩ }

/-! ## One call -/

/-- Nothing but the other names of the directory has changed. -/
def SameFiles (before after : StoreWorld) : Prop :=
  after.state = before.state ∧ after.folder.file = before.folder.file

/-- The store and its preferences file are as they were. -/
def Untouched (before after : StoreWorld) : Prop :=
  after.state = before.state ∧ after.folder.file .preferences = before.folder.file .preferences

theorem SameFiles.untouched {before after : StoreWorld} (h : SameFiles before after) :
    Untouched before after :=
  ⟨h.1, by rw [h.2]⟩

theorem Untouched.trans {u v w : StoreWorld} (h : Untouched u v) (h' : Untouched v w) :
    Untouched u w :=
  ⟨h'.1.trans h.1, h'.2.trans h.2⟩

variable {w : StoreWorld}

theorem readFile_ends {name : StoreFile} {maximum : Nat} :
    Ends (· = w) (readFile name maximum)
      (fun bytes after => after = w ∧ w.folder.file name = some bytes) (· = w) := by
  unfold readFile
  refine Ends.bind (Ends.refuseIf fun _ => id) fun _ => ?_
  refine Ends.look (fun s hs => hs.1) fun s bytes hs h => ?_
  obtain ⟨rfl, -⟩ := hs
  cases hfile : s.folder.file name with
  | none =>
    rw [hfile] at h
    cases h
  | some found =>
    simp only [hfile] at h
    split_ifs at h
    cases h
    exact ⟨rfl, rfl⟩

theorem emptyFirstRunDirectory_ends :
    Ends (· = w) emptyFirstRunDirectory
      (fun _ after => after = w ∧ w.folder.file .preferences = none) (· = w) := by
  refine Ends.look (fun _ hs => hs) fun s _ hs h => ?_
  obtain rfl := hs
  split_ifs at h with hnonempty
  rw [not_or, Option.not_isSome_iff_eq_none] at hnonempty
  exact ⟨rfl, hnonempty.1⟩

/-- **A write sets its file, or leaves every file as it is.** -/
theorem atomicWrite_ends {w : StoreWorld} {temporary : String} {name : StoreFile} {bytes : Bytes} :
    Ends (· = w) (atomicWrite temporary name bytes)
      (fun _ after => after.state = w.state ∧
        after.folder.file = Function.update w.folder.file name (some bytes))
      (SameFiles w) := by
  have hsame : ∀ s, s = w → SameFiles w s := by
    rintro s rfl
    exact ⟨rfl, rfl⟩
  unfold atomicWrite
  refine Ends.bind (Ends.refuseIf hsame) fun _ => ?_
  refine Ends.bind (Q := fun _ => SameFiles w) (Ends.look (fun s hs => hsame s hs.1)
    fun s _ hs _ => hsame s hs.1) fun _ => ?_
  refine Ends.bind (Q := fun _ => SameFiles w) (Ends.act (fun _ => id) ?_ ?_) fun _ => ?_
  · intro s _ s' hs h
    split_ifs at h
    · cases h
    · cases h
      exact hs
  · intro s _ s' hs h
    split_ifs at h
    · cases h
      exact hs
    · cases h
  · refine Ends.change (fun _ => id) fun s hs => ⟨hs.1, ?_⟩
    rw [hs.2]

/-- The first half of a save finds the file that the store remembers, and backs it up. -/
theorem prepareSave_ends {temporary : String} {previous : Option Bytes} :
    Ends (· = w) (prepareSave temporary previous)
      (fun _ after => Untouched w after ∧ w.folder.file .preferences = previous ∧
        ∀ bytes, previous = some bytes → after.folder.file .backup = some bytes)
      (Untouched w) := by
  have hsame : ∀ s, s = w → Untouched w s := by
    rintro s rfl
    exact ⟨rfl, rfl⟩
  cases previous with
  | none =>
    refine emptyFirstRunDirectory_ends.mono (fun _ hs => hs) ?_ hsame
    rintro _ after ⟨rfl, hmissing⟩
    exact ⟨⟨rfl, rfl⟩, hmissing, by simp⟩
  | some previous =>
    refine Ends.bind (readFile_ends.mono (fun _ hs => hs) (fun _ _ hs => hs) hsame) fun current => ?_
    refine Ends.bind (Ends.refuseIf fun s hs => hsame s hs.1) fun _ => ?_
    intro script position s hs
    obtain ⟨⟨rfl, hfile⟩, hsafe⟩ := hs
    rw [not_or, not_not] at hsafe
    obtain ⟨rfl, -⟩ := hsafe
    have hwrite := @atomicWrite_ends s temporary .backup current
    refine hwrite.mono (fun _ hs => hs) ?_ (fun _ hs => hs.untouched) script position s rfl
    rintro _ after ⟨hstate, hfiles⟩
    refine ⟨⟨hstate, ?_⟩, hfile, ?_⟩
    · rw [hfiles, Function.update_of_ne (by simp)]
    · rintro _ ⟨⟩
      rw [hfiles, Function.update_self]

/-- What a save that returns has done. -/
structure Saved (p : Preferences) (before after : StoreWorld) : Prop where
  /-- The file, the remembered bytes and the encoding of the model are one. -/
  coupled : ∃ bytes, encodePreferences p = .ok bytes ∧
    decodePreferences bytes = some (.ok p) ∧ after.state = some ⟨p, some bytes⟩ ∧
    after.folder.file .preferences = some bytes
  /-- A file was replaced only if it was the remembered one, and then it is the backup. -/
  replaced : ∀ old, before.folder.file .preferences = some old →
    (∃ state, before.state = some state ∧ state.previousBytes = some old) ∧
      after.folder.file .backup = some old

/-- **What one save does**, wherever it stops. -/
theorem save_ends {w : StoreWorld} {temporary : StoreFile → String} {p : Preferences} :
    Ends (· = w) (save temporary p) (fun _ => Saved p w) (Untouched w) := by
  have hsame : ∀ s, s = w → Untouched w s := by
    rintro s rfl
    exact ⟨rfl, rfl⟩
  unfold save
  refine Ends.bind (Q := fun s after => s = w ∧ after = w) (Ends.get fun s hs => ⟨hs, hs⟩)
    fun s => Ends.given ?_
  rintro rfl
  cases hstate : s.state with
  | none => exact Ends.fail _ hsame
  | some state =>
    cases hencode : encodePreferences p with
    | error error => exact Ends.fail _ hsame
    | ok encoded =>
      refine Ends.bind prepareSave_ends fun _ => ?_
      intro script position middle ⟨hmiddle, hfile, hbackup⟩
      have hwrite : Ends (· = middle) _ _ (Untouched s) := Ends.bind
        ((@atomicWrite_ends middle (temporary .preferences) .preferences encoded).mono
          (fun _ hs => hs) (fun _ _ hs => hs) fun _ hs => hmiddle.trans hs.untouched)
        fun _ => Ends.assign (f := fun w => { w with state := some ⟨p, some encoded⟩ })
          (Q := fun _ => Saved p s) ?_
      · exact hwrite script position middle rfl
      · rintro after ⟨-, hfiles⟩
        have hdecode := decodePreferences_forms.mpr (.inl hencode)
        refine ⟨⟨encoded, hencode, hdecode, rfl, ?_⟩, fun old hold => ?_⟩
        · rw [hfiles, Function.update_self]
        · rw [hold] at hfile
          refine ⟨⟨state, hstate, hfile.symm⟩, ?_⟩
          rw [hfiles, Function.update_of_ne (by simp)]
          exact hbackup old hfile.symm

/-! ## Runs -/

/-- What happens to a store: others change the directory, or the store saves. -/
inductive StoreEvent where
  | edit (folder : StoreFolder)
  | save (temporary : StoreFile → String) (preferences : Preferences)
      (script : Nat → Fate String)

/-- One event. -/
def StoreEvent.apply (w : StoreWorld) : StoreEvent → StoreWorld
  | .edit folder => { w with folder := folder }
  | .save temporary preferences script => (Launcher.save temporary preferences script 0 w).2.2

/-- A run of a store. -/
def storeRun (w : StoreWorld) (events : List StoreEvent) : StoreWorld :=
  events.foldl StoreEvent.apply w

/-- The store is open, and what it remembers decodes to its model. -/
def Remembers (w : StoreWorld) : Prop :=
  ∃ state, w.state = some state ∧
    ∀ bytes, state.previousBytes = some bytes →
      decodePreferences bytes = some (.ok state.preferences)

theorem Remembers.of_state {v w : StoreWorld} (h : Remembers v) (hstate : w.state = v.state) :
    Remembers w := by
  unfold Remembers
  rw [hstate]
  exact h

theorem Saved.remembers {p : Preferences} {v w : StoreWorld} (h : Saved p v w) : Remembers w := by
  obtain ⟨bytes, -, hdecode, hstate, -⟩ := h.coupled
  refine ⟨_, hstate, ?_⟩
  rintro _ ⟨⟩
  exact hdecode

theorem StoreEvent.apply_remembers (h : Remembers w) (event : StoreEvent) :
    Remembers (event.apply w) := by
  cases event with
  | edit folder => exact h.of_state rfl
  | save temporary preferences script =>
    have hsave := @save_ends w temporary preferences script 0 w rfl
    show Remembers (Launcher.save temporary preferences script 0 w).2.2
    revert hsave
    generalize Launcher.save temporary preferences script 0 w = run
    rcases run with ⟨value | error | -, position, after⟩
    · exact fun hsaved => hsaved.remembers
    · exact fun huntouched => h.of_state huntouched.1
    · exact fun huntouched => h.of_state huntouched.1

theorem storeRun_remembers (h : Remembers w) (events : List StoreEvent) :
    Remembers (storeRun w events) := by
  induction events generalizing w with
  | nil => exact h
  | cons event events ih => exact ih (event.apply_remembers h)

theorem openPreferenceStore_ends {underWine : Bool} {meanwhile : StoreFolder → StoreFolder} :
    Ends (fun _ => True) (openPreferenceStore underWine meanwhile) (fun _ => Remembers)
      fun _ => True := by
  have hdone : ∀ state : StoreState, (∀ bytes, state.previousBytes = some bytes →
      decodePreferences bytes = some (.ok state.preferences)) →
      Ends (fun _ => True) (Program.assign fun w => { w with state := some state } :
        StoreProgram Unit) (fun _ => Remembers) fun _ => True :=
    fun state hstate => Ends.assign fun s _ => ⟨state, rfl, hstate⟩
  refine Ends.bind Ends.trivial fun _ => Ends.bind Ends.trivial fun _ =>
    Ends.bind Ends.trivial fun _ => Ends.bind Ends.trivial fun missing => ?_
  cases missing with
  | true => exact Ends.bind Ends.trivial fun _ => hdone _ (by simp)
  | false =>
    refine Ends.bind Ends.trivial fun bytes => ?_
    split
    · rename_i decoded hdecode
      refine hdone _ ?_
      rintro _ ⟨⟩
      exact hdecode
    · exact Ends.fail _ fun _ _ => True.intro

/-- **The preference store.**  Whatever a store has been through since it was opened, a
save that does not return leaves the model, the remembered bytes and the file; one that
returns leaves them as one, with the file it replaced as the backup; and no save writes
over a file that is not the remembered one. -/
theorem save_keeps_store (underWine : Bool) (meanwhile : StoreFolder → StoreFolder)
    (folder : StoreFolder) (opening : Nat → Fate String)
    (hopen : (openPreferenceStore underWine meanwhile opening 0 ⟨folder, none⟩).1 = .done ())
    (events : List StoreEvent) (temporary : StoreFile → String) (p : Preferences)
    (script : Nat → Fate String) :
    let before := storeRun (openPreferenceStore underWine meanwhile opening 0 ⟨folder, none⟩).2.2
      events
    let run := save temporary p script 0 before
    (run.1 ≠ .done () → Untouched before run.2.2) ∧
    (run.1 = .done () → Saved p before run.2.2) ∧
    (∀ old state, before.folder.file .preferences = some old → before.state = some state →
      state.previousBytes ≠ some old → run.2.2.folder.file .preferences = some old) ∧
    Remembers before ∧ Remembers run.2.2 := by
  intro before run
  have hopened : Remembers
      (openPreferenceStore underWine meanwhile opening 0 ⟨folder, none⟩).2.2 := by
    have hends := @openPreferenceStore_ends underWine meanwhile opening 0 ⟨folder, none⟩
      True.intro
    revert hends hopen
    generalize openPreferenceStore underWine meanwhile opening 0 ⟨folder, none⟩ = result
    rcases result with ⟨value | error | -, position, opened⟩
    · exact fun _ hopened => hopened
    · exact fun h => by cases h
    · exact fun h => by cases h
  have hbefore : Remembers before := storeRun_remembers hopened events
  have hends : After (fun _ => Saved p before) (Untouched before) run :=
    save_ends script 0 before rfl
  clear_value run
  rcases run with ⟨value | error | -, position, after⟩
  · have hsaved : Saved p before after := hends
    refine ⟨fun h => absurd rfl h, fun _ => hsaved, fun old state hold hstate hother => ?_, hbefore,
      hsaved.remembers⟩
    obtain ⟨⟨found, hfound, hsame⟩, -⟩ := hsaved.replaced old hold
    rw [hstate] at hfound
    cases hfound
    exact absurd hsame hother
  · have huntouched : Untouched before after := hends
    exact ⟨fun _ => huntouched, (fun h => nomatch h),
      fun old _ hold _ _ => huntouched.2.trans hold, hbefore, hbefore.of_state huntouched.1⟩
  · have huntouched : Untouched before after := hends
    exact ⟨fun _ => huntouched, (fun h => nomatch h),
      fun old _ hold _ _ => huntouched.2.trans hold, hbefore, hbefore.of_state huntouched.1⟩

/-- An empty directory is opened, saved to, changed by others and saved to again: the first
save is made, and the second leaves the other file. -/
theorem save_keeps_store_edited :
    let made : Nat → Fate String := fun _ => .made
    let temporary : StoreFile → String := fun _ => ".mcla-tmp-0.partial"
    let p := firstRunPreferences false
    let opened := (openPreferenceStore false id made 0 ⟨⟨fun _ => none, []⟩, none⟩).2.2
    let first := save temporary p made 0 opened
    let edited : StoreFolder := ⟨fun _ => some [], []⟩
    let second := save temporary p made 0
      (storeRun opened [.save temporary p made, .edit edited])
    Saved p opened first.2.2 ∧ second.2.2.folder.file .preferences = some [] ∧
      second.1 ≠ .done () := by
  intro made temporary p opened first edited second
  have hopen : (openPreferenceStore false id made 0 ⟨⟨fun _ => none, []⟩, none⟩).1 = .done () := by
    decide
  have hfirst := (save_keeps_store false id ⟨fun _ => none, []⟩ made hopen [] temporary p made).2.1
    (by decide)
  have hsecond := save_keeps_store false id ⟨fun _ => none, []⟩ made hopen
    [.save temporary p made, .edit edited] temporary p made
  have hrefused : second.1 ≠ .done () := by decide
  exact ⟨hfirst, (hsecond.1 hrefused).2, hrefused⟩

end Mcla.Launcher
