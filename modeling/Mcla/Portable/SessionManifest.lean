import Mcla.Library.Decimal
import Mcla.Portable.SaveCapture

/-! # The manifest of a session

`session.json` as the launcher writes it, and `JsonStringField`, which looks for a key between
quotes wherever it stands.  `checkManifest_sessionManifest` says which bundle names a recovery
reads back.
-/
namespace Mcla.Portable
open List Option

/-! ## `JsonStringField` -/

/-- What follows the first occurrence of a needle. -/
def afterNeedle (needle : Bytes) : Bytes → Option Bytes
  | [] => if needle = [] then some [] else none
  | c :: rest =>
      if needle.isPrefixOf (c :: rest) then some ((c :: rest).drop needle.length)
      else afterNeedle needle rest

/-- `std::isspace`. -/
def isspace (c : UInt8) : Bool := c.toNat = 32 || 9 ≤ c.toNat && c.toNat ≤ 13

/-- The characters up to the closing quote; escapes are rejected. -/
def quotedValue : Bytes → Option Bytes
  | [] => none
  | c :: rest =>
      if c = 34 then some []
      else if c = 92 ∨ c.toNat < 0x20 then none
      else (quotedValue rest).map (c :: ·)

/-- `JsonStringField`. -/
def jsonStringField (json key : Bytes) : Option Bytes :=
  (afterNeedle (34 :: key ++ [34]) json).bind fun rest =>
    (afterNeedle [58] rest).bind fun rest =>
      match rest.dropWhile isspace with
      | 34 :: rest => quotedValue rest
      | _ => none

/-! ## `session.json` -/

/-- A bundle name that `ReadBundleId` accepts. -/
structure BundleId where
  text : Bytes
  nonempty : text ≠ []
  short : text.length ≤ 128
  plain : ∀ c ∈ text, (48 ≤ c.toNat ∧ c.toNat ≤ 57) ∨ (65 ≤ c.toNat ∧ c.toNat ≤ 90) ∨
    (97 ≤ c.toNat ∧ c.toNat ≤ 122) ∨ c = 46 ∨ c = 45

/-- What `UtcStamp` prints: digits, `T` and `Z`. -/
structure UtcStamp where
  text : Bytes
  short : text.length ≤ 17
  plain : ∀ c ∈ text, (48 ≤ c.toNat ∧ c.toNat ≤ 57) ∨ c = 84 ∨ c = 90

/-- The name of a session: its time and the process. -/
structure SessionId where
  stamp : UtcStamp
  process : Nat
  bounded : process < 2 ^ 32

/-- The name of a session. -/
def SessionId.text (session : SessionId) : Bytes :=
  literal "session-" ++ session.stamp.text ++ literal "-" ++ Decimal.text session.process

/-- The mode of a session. -/
def modeText (diagnosticsProbe : Bool) : Bytes :=
  if diagnosticsProbe then literal "diagnostics-probe" else literal "gameplay"

/-- The text of `session.json`. -/
def sessionManifest (bundle : BundleId) (session : SessionId) (started : UtcStamp)
    (diagnosticsProbe : Bool) : Bytes :=
  literal "\x7b\n  \"schema\": \"mcla-portable-session-v1\",\n  \"bundle_id\": \"" ++
    jsonEscape bundle.text ++ literal "\",\n  \"session_id\": \"" ++ jsonEscape session.text ++
    literal "\",\n  \"started_utc\": \"" ++ started.text ++ literal "\",\n  \"mode\": \"" ++
    modeText diagnosticsProbe ++ literal "\",\n  \"state\": \"running\"\n\x7d\n"

/-- The checks that `RecoverInterruptedSessions` makes of a manifest: the start time and the
mode, if all is well. -/
def checkManifest (bundle : BundleId) (session : Bytes) (json : Bytes) : Option (Bytes × Bytes) :=
  match jsonStringField json (literal "started_utc"), jsonStringField json (literal "mode") with
  | some started, some mode =>
      if jsonStringField json (literal "schema") = some (literal "mcla-portable-session-v1") ∧
          jsonStringField json (literal "bundle_id") = some bundle.text ∧
          jsonStringField json (literal "session_id") = some session ∧
          (mode = literal "gameplay" ∨ mode = literal "diagnostics-probe") ∧
          jsonStringField json (literal "state") = some (literal "running") then
        some (started, mode)
      else none
  | _, _ => none

/-! ## Text in quotes -/

/-- Pieces with a quote between each two. -/
def quoteJoin : List Bytes → Bytes
  | [] => []
  | [piece] => piece
  | piece :: next :: rest => piece ++ 34 :: quoteJoin (next :: rest)

theorem quoteJoin_cons {piece : Bytes} {rest : List Bytes} (h : rest ≠ []) :
    quoteJoin (piece :: rest) = piece ++ 34 :: quoteJoin rest := by
  cases rest with
  | nil => exact absurd rfl h
  | cons next rest => rfl

/-- A needle that begins with a quote is not found in a text without one. -/
theorem afterNeedle_skip {needle text rest : Bytes} (h : 34 ∉ text) :
    afterNeedle (34 :: needle) (text ++ rest) = afterNeedle (34 :: needle) rest := by
  induction text with
  | nil => rfl
  | cons c text ih =>
    rw [mem_cons, not_or] at h
    have hpre : (34 :: needle).isPrefixOf (c :: (text ++ rest)) = false := by
      rw [isPrefixOf_cons_cons, beq_eq_false_iff_ne.mpr h.1, Bool.false_and]
    rw [cons_append, afterNeedle, hpre, if_neg (by simp), ih h.2]

/-- Two pieces that end at a quote are the same piece. -/
theorem piece_eq_of_start {key piece rest : Bytes} (hkey : 34 ∉ key) (hpiece : 34 ∉ piece)
    (h : (key ++ [34]).isPrefixOf (piece ++ 34 :: rest) = true) : key = piece := by
  induction key generalizing piece with
  | nil =>
    cases piece with
    | nil => rfl
    | cons c piece =>
      rw [nil_append, cons_append, isPrefixOf_cons_cons, Bool.and_eq_true, beq_iff_eq] at h
      rw [← h.1] at hpiece
      simp at hpiece
  | cons k key ih =>
    rw [mem_cons, not_or] at hkey
    cases piece with
    | nil =>
      rw [cons_append, nil_append, isPrefixOf_cons_cons, Bool.and_eq_true, beq_iff_eq] at h
      exact absurd h.1.symm hkey.1
    | cons c piece =>
      rw [mem_cons, not_or] at hpiece
      rw [cons_append, cons_append, isPrefixOf_cons_cons, Bool.and_eq_true, beq_iff_eq] at h
      rw [h.1, ih hkey.2 hpiece.2 h.2]

/-- **Where a key is found**: at the first piece that is the key, the piece before the first
quote apart. -/
theorem afterNeedle_quoteJoin {key piece : Bytes} {before : List Bytes} {after : List Bytes}
    (hkey : 34 ∉ key) (hpiece : 34 ∉ piece) (hbefore : ∀ p ∈ before, 34 ∉ p ∧ p ≠ key)
    (hafter : after ≠ []) :
    afterNeedle (34 :: key ++ [34]) (quoteJoin (piece :: before ++ key :: after)) =
      some (quoteJoin after) := by
  induction before generalizing piece with
  | nil =>
    have hpre : (34 :: (key ++ [34])).isPrefixOf (34 :: (key ++ 34 :: quoteJoin after)) = true := by
      rw [List.isPrefixOf_iff_prefix]
      exact ⟨quoteJoin after, by simp⟩
    rw [cons_append, cons_append, nil_append, quoteJoin_cons (by simp),
      afterNeedle_skip hpiece, quoteJoin_cons hafter, afterNeedle, if_pos hpre]
    congr 1
    simp
  | cons p before ih =>
    obtain ⟨hp, hne⟩ := hbefore p mem_cons_self
    have hnext := @ih p hp fun q hq => hbefore q (mem_cons_of_mem _ hq)
    rw [cons_append] at hnext ⊢
    rw [cons_append, quoteJoin_cons (by simp), afterNeedle_skip hpiece, afterNeedle]
    rw [cons_append] at hnext
    have hpre : ¬ (34 :: (key ++ [34])).isPrefixOf
        (34 :: quoteJoin (p :: before ++ key :: after)) = true := by
      intro h
      rw [isPrefixOf_cons_cons, Bool.and_eq_true, cons_append, quoteJoin_cons (by simp)] at h
      exact hne (piece_eq_of_start hkey hp h.2).symm
    rw [if_neg hpre]
    exact hnext

/-- Characters that may stand in a quoted value. -/
def Plain (value : Bytes) : Prop := ∀ c ∈ value, c ≠ 34 ∧ c ≠ 92 ∧ ¬ c.toNat < 0x20

instance (value : Bytes) : Decidable (Plain value) :=
  inferInstanceAs (Decidable (∀ c ∈ value, c ≠ 34 ∧ c ≠ 92 ∧ ¬ c.toNat < 0x20))

theorem Plain.not_mem {value : Bytes} (h : Plain value) : 34 ∉ value := fun hmem =>
  (h 34 hmem).1 rfl

theorem quotedValue_append {value rest : Bytes} (h : Plain value) :
    quotedValue (value ++ 34 :: rest) = some value := by
  induction value with
  | nil => rfl
  | cons c value ih =>
    obtain ⟨hquote, hescape, hcontrol⟩ := h c mem_cons_self
    have hrest := ih fun c hc => h c (mem_cons_of_mem _ hc)
    rw [cons_append, quotedValue, if_neg hquote, if_neg (not_or.mpr ⟨hescape, hcontrol⟩), hrest]
    rfl

/-- A key is read as the value that stands after it. -/
theorem jsonStringField_quoteJoin {key value piece : Bytes} {before after : List Bytes}
    (hkey : 34 ∉ key) (hpiece : 34 ∉ piece) (hbefore : ∀ p ∈ before, 34 ∉ p ∧ p ≠ key)
    (hvalue : Plain value) (hafter : after ≠ []) :
    jsonStringField (quoteJoin (piece :: before ++ key :: literal ": " :: value :: after)) key =
      some value := by
  unfold jsonStringField
  rw [afterNeedle_quoteJoin hkey hpiece hbefore (by simp), bind_some,
    quoteJoin_cons (by simp), quoteJoin_cons hafter]
  have hcolon : literal ": " = [58, 32] := by decide
  have hfind : afterNeedle [58] (literal ": " ++ 34 :: (value ++ 34 :: quoteJoin after)) =
      some (32 :: 34 :: (value ++ 34 :: quoteJoin after)) := by
    rw [hcolon]
    rfl
  rw [hfind, bind_some]
  show quotedValue (value ++ 34 :: quoteJoin after) = some value
  exact quotedValue_append hvalue

/-- A field, and the comma after it. -/
def fieldPieces (field : Bytes × Bytes) : List Bytes :=
  [field.1, literal ": ", field.2, literal ",\n  "]

/-- A field is read, if no earlier key or value is its key. -/
theorem jsonStringField_fields {key value : Bytes} {after : List Bytes}
    (before : List (Bytes × Bytes)) (hkey : 34 ∉ key)
    (hseparator : key ≠ literal ": " ∧ key ≠ literal ",\n  ")
    (hbefore : ∀ field ∈ before, Plain field.1 ∧ Plain field.2 ∧ field.1 ≠ key ∧ field.2 ≠ key)
    (hvalue : Plain value) (hafter : after ≠ []) :
    jsonStringField (quoteJoin (literal "\x7b\n  " :: before.flatMap fieldPieces ++
      key :: literal ": " :: value :: after)) key = some value := by
  refine jsonStringField_quoteJoin hkey (by decide) ?_ hvalue hafter
  intro piece hpiece
  obtain ⟨field, hfield, hmem⟩ := mem_flatMap.mp hpiece
  obtain ⟨h1, h2, hk, hv⟩ := hbefore field hfield
  simp only [fieldPieces, mem_cons, not_mem_nil, or_false] at hmem
  rcases hmem with rfl | rfl | rfl | rfl
  · exact ⟨h1.not_mem, hk⟩
  · exact ⟨by decide, hseparator.1.symm⟩
  · exact ⟨h2.not_mem, hv⟩
  · exact ⟨by decide, hseparator.2.symm⟩

/-! ## What a recovery reads back -/

theorem jsonEscape_of_plain {value : Bytes} (h : Plain value) : jsonEscape value = value := by
  induction value with
  | nil => rfl
  | cons c value ih =>
    obtain ⟨hquote, hescape, hcontrol⟩ := h c mem_cons_self
    have hline : ∀ d : UInt8, d.toNat < 0x20 → c ≠ d := by
      rintro d hd rfl
      exact hcontrol hd
    have hrest := ih fun c hc => h c (mem_cons_of_mem _ hc)
    unfold jsonEscape at hrest ⊢
    rw [flatMap_cons, hrest, if_neg hescape, if_neg hquote, if_neg (hline 10 (by decide)),
      if_neg (hline 13 (by decide)), if_neg (hline 9 (by decide)), if_neg hcontrol]
    rfl

theorem plain_of_range {value : Bytes} (h : ∀ c ∈ value, 0x20 ≤ c.toNat ∧ c ≠ 34 ∧ c ≠ 92) :
    Plain value := by
  intro c hc
  obtain ⟨hcontrol, hquote, hescape⟩ := h c hc
  exact ⟨hquote, hescape, by omega⟩

theorem BundleId.isPlain (bundle : BundleId) : Plain bundle.text := by
  refine plain_of_range fun c hc => ?_
  have hrange := bundle.plain c hc
  refine ⟨?_, ?_, ?_⟩
  · rcases hrange with h | h | h | rfl | rfl
    · omega
    · omega
    · omega
    · decide
    · decide
  · rintro rfl
    revert hrange
    decide
  · rintro rfl
    revert hrange
    decide

theorem UtcStamp.isPlain (stamp : UtcStamp) : Plain stamp.text := by
  refine plain_of_range fun c hc => ?_
  have hrange := stamp.plain c hc
  refine ⟨?_, ?_, ?_⟩
  · rcases hrange with h | rfl | rfl
    · omega
    · decide
    · decide
  · rintro rfl
    revert hrange
    decide
  · rintro rfl
    revert hrange
    decide

theorem SessionId.isPlain (session : SessionId) : Plain session.text := by
  have hsession : Plain (literal "session-") := by decide +kernel
  have hdash : Plain (literal "-") := by decide +kernel
  intro c hc
  unfold SessionId.text at hc
  rw [mem_append, mem_append, mem_append] at hc
  rcases hc with ((hc | hc) | hc) | hc
  · exact hsession c hc
  · exact session.stamp.isPlain c hc
  · exact hdash c hc
  · have hdigit := Decimal.isDigit_of_mem_text hc
    refine ⟨?_, ?_, by omega⟩
    · rintro rfl
      revert hdigit
      decide
    · rintro rfl
      revert hdigit
      decide

theorem modeText_isPlain (diagnosticsProbe : Bool) : Plain (modeText diagnosticsProbe) := by
  cases diagnosticsProbe <;> decide +kernel

/-- A text with a character that bundle names lack is no bundle name. -/
theorem BundleId.ne_of_mem (bundle : BundleId) {text : Bytes} (h : 95 ∈ text) :
    bundle.text ≠ text := by
  rintro rfl
  have hrange := bundle.plain 95 h
  revert hrange
  decide

/-- A text with a lowercase `e` is no time. -/
theorem UtcStamp.ne_of_mem (stamp : UtcStamp) {text : Bytes} (h : 101 ∈ text) :
    stamp.text ≠ text := by
  rintro rfl
  have hrange := stamp.plain 101 h
  revert hrange
  decide

/-- A text without a hyphen is no session name. -/
theorem SessionId.ne_of_not_mem (session : SessionId) {text : Bytes} (h : 45 ∉ text) :
    session.text ≠ text := by
  rintro rfl
  refine h ?_
  unfold SessionId.text
  rw [mem_append, mem_append]
  exact .inl (.inr (by decide))

/-- The manifest in pieces. -/
theorem sessionManifest_eq (bundle : BundleId) (session : SessionId) (started : UtcStamp)
    (diagnosticsProbe : Bool) :
    sessionManifest bundle session started diagnosticsProbe =
      quoteJoin [literal "\x7b\n  ", literal "schema", literal ": ",
        literal "mcla-portable-session-v1", literal ",\n  ", literal "bundle_id", literal ": ",
        bundle.text, literal ",\n  ", literal "session_id", literal ": ", session.text,
        literal ",\n  ", literal "started_utc", literal ": ", started.text, literal ",\n  ",
        literal "mode", literal ": ", modeText diagnosticsProbe, literal ",\n  ", literal "state",
        literal ": ", literal "running", literal "\n\x7d\n"] := by
  have h1 : literal "\x7b\n  \"schema\": \"mcla-portable-session-v1\",\n  \"bundle_id\": \"" =
      literal "\x7b\n  " ++ 34 :: (literal "schema" ++ 34 :: (literal ": " ++ 34 ::
        (literal "mcla-portable-session-v1" ++ 34 :: (literal ",\n  " ++ 34 ::
          (literal "bundle_id" ++ 34 :: (literal ": " ++ [34])))))) := by decide
  have h2 : literal "\",\n  \"session_id\": \"" = 34 :: (literal ",\n  " ++ 34 ::
      (literal "session_id" ++ 34 :: (literal ": " ++ [34]))) := by decide
  have h3 : literal "\",\n  \"started_utc\": \"" = 34 :: (literal ",\n  " ++ 34 ::
      (literal "started_utc" ++ 34 :: (literal ": " ++ [34]))) := by decide
  have h4 : literal "\",\n  \"mode\": \"" = 34 :: (literal ",\n  " ++ 34 ::
      (literal "mode" ++ 34 :: (literal ": " ++ [34]))) := by decide
  have h5 : literal "\",\n  \"state\": \"running\"\n\x7d\n" =
      34 :: (literal ",\n  " ++ 34 :: (literal "state" ++ 34 :: (literal ": " ++ 34 ::
        (literal "running" ++ 34 :: literal "\n\x7d\n")))) := by decide
  unfold sessionManifest
  rw [jsonEscape_of_plain bundle.isPlain, jsonEscape_of_plain session.isPlain, h1, h2, h3, h4, h5]
  simp only [quoteJoin, append_assoc, cons_append, nil_append]

/-- The two bundle names that hide a key of the manifest. -/
def BundleId.Ordinary (bundle : BundleId) : Prop :=
  bundle.text ≠ literal "mode" ∧ bundle.text ≠ literal "state"

variable {bundle : BundleId}

/-- **A recovery reads back what the launcher wrote**, if the name of the bundle is not one of
the keys. -/
theorem checkManifest_sessionManifest (hbundle : bundle.Ordinary) (session : SessionId)
    (started : UtcStamp) (diagnosticsProbe : Bool) :
    checkManifest bundle session.text (sessionManifest bundle session started diagnosticsProbe) =
      some (started.text, modeText diagnosticsProbe) := by
  have hschema : Plain (literal "schema") ∧ Plain (literal "mcla-portable-session-v1") := by
    decide +kernel
  have hbundle_id : Plain (literal "bundle_id") := by decide +kernel
  have hsession_id : Plain (literal "session_id") := by decide +kernel
  have hstarted_utc : Plain (literal "started_utc") := by decide +kernel
  have hmode : Plain (literal "mode") := by decide +kernel
  have hmodeText : ∀ key, modeText true ≠ key → modeText false ≠ key →
      modeText diagnosticsProbe ≠ key := by
    intro key htrue hfalse
    cases diagnosticsProbe
    · exact hfalse
    · exact htrue
  have h1 : jsonStringField (sessionManifest bundle session started diagnosticsProbe)
      (literal "schema") = some (literal "mcla-portable-session-v1") := by
    rw [sessionManifest_eq]
    exact jsonStringField_fields [] (by decide +kernel) (by decide +kernel) (by simp)
      hschema.2 (by simp)
  have h2 : jsonStringField (sessionManifest bundle session started diagnosticsProbe)
      (literal "bundle_id") = some bundle.text := by
    rw [sessionManifest_eq]
    refine jsonStringField_fields [(literal "schema", literal "mcla-portable-session-v1")]
      (by decide +kernel) (by decide +kernel) ?_ bundle.isPlain (by simp)
    simp only [forall_mem_singleton]
    exact ⟨hschema.1, hschema.2, by decide +kernel, by decide +kernel⟩
  have h3 : jsonStringField (sessionManifest bundle session started diagnosticsProbe)
      (literal "session_id") = some session.text := by
    rw [sessionManifest_eq]
    refine jsonStringField_fields [(literal "schema", literal "mcla-portable-session-v1"),
      (literal "bundle_id", bundle.text)] (by decide +kernel) (by decide +kernel) ?_
      session.isPlain (by simp)
    simp only [forall_mem_cons, not_mem_nil, IsEmpty.forall_iff, implies_true, and_true]
    exact ⟨⟨hschema.1, hschema.2, by decide +kernel, by decide +kernel⟩,
      hbundle_id, bundle.isPlain, by decide +kernel, bundle.ne_of_mem (by decide +kernel)⟩
  have h4 : jsonStringField (sessionManifest bundle session started diagnosticsProbe)
      (literal "started_utc") = some started.text := by
    rw [sessionManifest_eq]
    refine jsonStringField_fields [(literal "schema", literal "mcla-portable-session-v1"),
      (literal "bundle_id", bundle.text), (literal "session_id", session.text)]
      (by decide +kernel) (by decide +kernel) ?_ started.isPlain (by simp)
    simp only [forall_mem_cons, not_mem_nil, IsEmpty.forall_iff, implies_true, and_true]
    exact ⟨⟨hschema.1, hschema.2, by decide +kernel, by decide +kernel⟩,
      ⟨hbundle_id, bundle.isPlain, by decide +kernel, bundle.ne_of_mem (by decide +kernel)⟩,
      hsession_id, session.isPlain, by decide +kernel, session.ne_of_not_mem (by decide +kernel)⟩
  have h5 : jsonStringField (sessionManifest bundle session started diagnosticsProbe)
      (literal "mode") = some (modeText diagnosticsProbe) := by
    rw [sessionManifest_eq]
    refine jsonStringField_fields [(literal "schema", literal "mcla-portable-session-v1"),
      (literal "bundle_id", bundle.text), (literal "session_id", session.text),
      (literal "started_utc", started.text)] (by decide +kernel) (by decide +kernel) ?_
      (modeText_isPlain _) (by simp)
    simp only [forall_mem_cons, not_mem_nil, IsEmpty.forall_iff, implies_true, and_true]
    exact ⟨⟨hschema.1, hschema.2, by decide +kernel, by decide +kernel⟩,
      ⟨hbundle_id, bundle.isPlain, by decide +kernel, hbundle.1⟩,
      ⟨hsession_id, session.isPlain, by decide +kernel, session.ne_of_not_mem (by decide +kernel)⟩,
      hstarted_utc, started.isPlain, by decide +kernel, started.ne_of_mem (by decide +kernel)⟩
  have h6 : jsonStringField (sessionManifest bundle session started diagnosticsProbe)
      (literal "state") = some (literal "running") := by
    rw [sessionManifest_eq]
    refine jsonStringField_fields [(literal "schema", literal "mcla-portable-session-v1"),
      (literal "bundle_id", bundle.text), (literal "session_id", session.text),
      (literal "started_utc", started.text), (literal "mode", modeText diagnosticsProbe)]
      (by decide +kernel) (by decide +kernel) ?_ (by decide +kernel) (by simp)
    simp only [forall_mem_cons, not_mem_nil, IsEmpty.forall_iff, implies_true, and_true]
    exact ⟨⟨hschema.1, hschema.2, by decide +kernel, by decide +kernel⟩,
      ⟨hbundle_id, bundle.isPlain, by decide +kernel, hbundle.2⟩,
      ⟨hsession_id, session.isPlain, by decide +kernel, session.ne_of_not_mem (by decide +kernel)⟩,
      ⟨hstarted_utc, started.isPlain, by decide +kernel, started.ne_of_mem (by decide +kernel)⟩,
      hmode, modeText_isPlain _, by decide +kernel,
      hmodeText _ (by decide +kernel) (by decide +kernel)⟩
  unfold checkManifest
  rw [h4, h5]
  have hgood : modeText diagnosticsProbe = literal "gameplay" ∨
      modeText diagnosticsProbe = literal "diagnostics-probe" := by
    cases diagnosticsProbe
    · exact .inl rfl
    · exact .inr rfl
  show (if _ then _ else _) = _
  rw [if_pos ⟨h1, h2, h3, hgood, h6⟩]

/-- The six keys of `session.json` are read as the values that were written. -/
def ReadsBack (bundle : BundleId) (session : SessionId) (started : UtcStamp)
    (diagnosticsProbe : Bool) : Prop :=
  let json := sessionManifest bundle session started diagnosticsProbe
  jsonStringField json (literal "schema") = some (literal "mcla-portable-session-v1") ∧
    jsonStringField json (literal "bundle_id") = some bundle.text ∧
    jsonStringField json (literal "session_id") = some session.text ∧
    jsonStringField json (literal "started_utc") = some started.text ∧
    jsonStringField json (literal "mode") = some (modeText diagnosticsProbe) ∧
    jsonStringField json (literal "state") = some (literal "running")

/-- A recovery has no more to check than what is read back. -/
theorem readsBack_of_checkManifest {session : SessionId} {started : UtcStamp}
    {diagnosticsProbe : Bool} (h : checkManifest bundle session.text
      (sessionManifest bundle session started diagnosticsProbe) =
        some (started.text, modeText diagnosticsProbe)) :
    ReadsBack bundle session started diagnosticsProbe := by
  unfold checkManifest at h
  split at h
  · rename_i first second hstarted hmode
    split at h
    · rename_i hall
      obtain ⟨hschema, hbundle, hsession, -, hstate⟩ := hall
      obtain ⟨rfl, rfl⟩ := Prod.mk.inj (some.inj h)
      exact ⟨hschema, hbundle, hsession, hstarted, hmode, hstate⟩
    · cases h
  · cases h

/-- **A key that is the name of the bundle** is read as the name of the session, which comes
next. -/
theorem jsonStringField_bundle
    (hschema : bundle.text ≠ literal "schema" ∧ bundle.text ≠ literal "mcla-portable-session-v1")
    (session : SessionId) (started : UtcStamp) (diagnosticsProbe : Bool) :
    jsonStringField (sessionManifest bundle session started diagnosticsProbe) bundle.text =
      some session.text := by
  have hbefore : ∀ p ∈ [literal "schema", literal ": ", literal "mcla-portable-session-v1",
      literal ",\n  ", literal "bundle_id", literal ": "], 34 ∉ p ∧ p ≠ bundle.text := by
    simp only [forall_mem_cons, not_mem_nil, IsEmpty.forall_iff, implies_true, and_true]
    refine ⟨⟨by decide, hschema.1.symm⟩, ⟨by decide, fun h => ?_⟩, ⟨by decide, hschema.2.symm⟩,
      ⟨by decide, fun h => ?_⟩, ⟨by decide, (bundle.ne_of_mem (by decide)).symm⟩,
      ⟨by decide, fun h => ?_⟩⟩
    all_goals
      have hspace := bundle.plain 32 (h ▸ by decide)
      revert hspace
      decide
  let after := [literal ",\n  ", literal "session_id", literal ": ", session.text, literal ",\n  ",
    literal "started_utc", literal ": ", started.text, literal ",\n  ", literal "mode",
    literal ": ", modeText diagnosticsProbe, literal ",\n  ", literal "state", literal ": ",
    literal "running", literal "\n\x7d\n"]
  have hfind : afterNeedle (34 :: bundle.text ++ [34])
      (sessionManifest bundle session started diagnosticsProbe) = some (quoteJoin after) := by
    rw [sessionManifest_eq]
    exact afterNeedle_quoteJoin bundle.isPlain.not_mem (show 34 ∉ literal "\x7b\n  " by decide)
      hbefore (cons_ne_nil _ _)
  -- the next colon is the one after `session_id`
  have hcolon : afterNeedle [58] (quoteJoin after) =
      some (32 :: 34 :: quoteJoin (after.drop 3)) := by
    have hcomma : literal ",\n  " = [44, 10, 32, 32] := by decide
    have hkey : literal "session_id" = [115, 101, 115, 115, 105, 111, 110, 95, 105, 100] := by
      decide
    have hspace : literal ": " = [58, 32] := by decide
    show afterNeedle [58] (literal ",\n  " ++ 34 :: (literal "session_id" ++
      34 :: (literal ": " ++ 34 :: quoteJoin (after.drop 3)))) = _
    rw [hcomma, hkey, hspace]
    rfl
  unfold jsonStringField
  rw [hfind, bind_some, hcolon, bind_some]
  show quotedValue (session.text ++ 34 :: quoteJoin (after.drop 4)) = some session.text
  exact quotedValue_append session.isPlain

theorem SessionId.head (session : SessionId) : session.text.head? = some 115 := by
  unfold SessionId.text
  have hhead : literal "session-" = 115 :: [101, 115, 115, 105, 111, 110, 45] := by decide
  rw [hhead]
  rfl

/-- A bundle named `mode` or `state` is not read back. -/
theorem ReadsBack.ordinary {session : SessionId} {started : UtcStamp} {diagnosticsProbe : Bool}
    (h : ReadsBack bundle session started diagnosticsProbe) : bundle.Ordinary := by
  obtain ⟨-, -, -, -, hmode, hstate⟩ := h
  refine ⟨fun hname => ?_, fun hname => ?_⟩
  · have hread := jsonStringField_bundle (by rw [hname]; decide) session started diagnosticsProbe
    rw [hname, hmode] at hread
    have hhead := congrArg (Option.map List.head?) hread
    rw [map_some, map_some, session.head] at hhead
    revert hhead
    cases diagnosticsProbe <;> decide
  · have hread := jsonStringField_bundle (by rw [hname]; decide) session started diagnosticsProbe
    rw [hname, hstate] at hread
    have hhead := congrArg (Option.map List.head?) hread
    rw [map_some, map_some, session.head] at hhead
    revert hhead
    decide

/-- **What is read back.**  Every key is read as the value that was written, unless the bundle is
named `mode` or `state`. -/
theorem readsBack_iff (bundle : BundleId) (session : SessionId) (started : UtcStamp)
    (diagnosticsProbe : Bool) :
    ReadsBack bundle session started diagnosticsProbe ↔ bundle.Ordinary := by
  constructor
  · exact ReadsBack.ordinary
  · intro hordinary
    exact readsBack_of_checkManifest (checkManifest_sessionManifest hordinary _ _ _)

set_option maxRecDepth 2000 in
/-- A bundle that is named `mode`. -/
def bundleNamedMode : BundleId where
  text := literal "mode"
  nonempty := by decide
  short := by decide
  plain := by decide

set_option maxRecDepth 2000 in
def sampleStamp : UtcStamp where
  text := literal "20261119T132700Z"
  short := by decide
  plain := by decide

theorem bundle_mode_not_read_back :
    ¬ ReadsBack bundleNamedMode ⟨sampleStamp, 4242, by decide⟩ sampleStamp false :=
  fun h => h.ordinary.1 rfl

end Mcla.Portable
