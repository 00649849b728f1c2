import Mcla.Library.NestedRecorder
import Mcla.Library.TextLines
import Mcla.Library.TomlLexer
import Mcla.Portable.SaveCapture

/-! # The configuration beside an explicit adapter

`ValidateExplicitGpuConfig` of `mcla_portable_adapter_policy`: the host reads the file as TOML
after the command line, so the launcher accepts lines of one bare key and one scalar only, and none
with a key that it manages.  `accepted_flat` says that a reader of TOML comes upon nothing else.
-/
namespace Mcla.Portable.GpuConfig
open NestedRecorder
open TomlLexer (isGap isBare Safe Ends byteOrderMark)
open List

/-- What the launcher manages. -/
structure Flags where
  (named_adapter profile_managed gpu_managed : Bool)

/-- `TrimGpuConfigSpace` -/
def trim (text : Bytes) : Bytes := (text.dropWhile isGap).rdropWhile isGap

/-- The keys that a file must leave to the launcher. -/
def protectedKeys (flags : Flags) : List Bytes :=
  (if flags.gpu_managed then [literal "gpu_backend"] else []) ++
    (if flags.named_adapter then [literal "d3d12_adapter"] else []) ++
    if flags.profile_managed then [literal "local_user_display_name"] else []

/-- What follows the closing quote, if a string closes. -/
def closing (quote : UInt8) : Bytes → Option Bytes
  | [] => none
  | c :: rest =>
    if c < 0x20 then none
    else if c = quote then some rest
    else if quote = 34 ∧ c = 92 then
      match rest with
      | [] => none
      | d :: rest => if d < 0x20 then none else closing quote rest
    else closing quote rest

/-- A character of an unquoted scalar. -/
def scalarByte (c : UInt8) : Bool := isBare c || c == 43 || c == 46

/-- A value that may stand in a line. -/
def validateValue (value : Bytes) : Except String Unit := do
  need (value ≠ []) "empty scalar config value"
  if value.head? = some 34 ∨ value.head? = some 39 then
    need (∃ tail ∈ closing (value.headD 0) (value.drop 1),
        trim tail = [] ∨ (trim tail).head? = some 35)
      "explicit GPU selection forbids multiline/compound strings"
  else do
    let scalar := trim (value.takeWhile (· ≠ 35))
    need (scalar ≠ []) "missing scalar config value"
    need (scalar.all scalarByte = true) "explicit GPU selection requires single-line scalar values"

/-- A line that has been trimmed. -/
def validateLine (flags : Flags) (line : Bytes) : Except String Unit :=
  if line = [] ∨ line.head? = some 35 then .ok ()
  else do
    need (61 ∈ line) "explicit GPU selection requires flat scalar TOML"
    let key := trim (line.takeWhile (· ≠ 61))
    need (key ≠ []) "empty config key"
    need (key.all isBare = true)
      "explicit GPU selection forbids quoted/dotted/table config keys"
    need ((protectedKeys flags).contains key = false)
      "immutable TOML must omit launcher-managed GPU/profile keys"
    validateValue (trim ((line.dropWhile (· ≠ 61)).drop 1))

/-- The lines of a text, after what has been read of the first.  An empty line at the end, which
the loop does not come to, changes nothing. -/
def linesFrom (begun : Bytes) : Bytes → List Bytes
  | [] => [begun]
  | c :: rest => if c = 10 then begun :: linesFrom [] rest else linesFrom (begun ++ [c]) rest

def kMaximumConfigBytes : Nat := 1024 * 1024

/-- Without one byte-order mark. -/
def withoutMark (text : Bytes) : Bytes :=
  if byteOrderMark.isPrefixOf text then text.drop 3 else text

/-- `ValidateExplicitGpuConfig`: the answer, and the error. -/
def validate (flags : Flags) (text : Bytes) : Except String Unit := do
  need (text.length ≤ kMaximumConfigBytes ∧ 0 ∉ text)
    "GPU selection config is oversized or contains NUL"
  (linesFrom [] (withoutMark text)).forM fun line => validateLine flags (trim line)

/-! ### Trimming -/

theorem trim_split (text : Bytes) : ∃ front back, (∀ b ∈ front, isGap b = true) ∧
    (∀ b ∈ back, isGap b = true) ∧ text = front ++ trim text ++ back := by
  refine ⟨text.takeWhile isGap, (text.dropWhile isGap).rtakeWhile isGap,
    fun b hb => mem_takeWhile_imp hb, fun b hb => mem_rtakeWhile_imp hb, ?_⟩
  rw [trim, append_assoc, rdropWhile_append_rtakeWhile, takeWhile_append_dropWhile]

theorem mem_of_mem_trim {text : Bytes} {b : UInt8} (h : b ∈ trim text) : b ∈ text := by
  obtain ⟨front, back, -, -, heq⟩ := trim_split text
  rw [heq]
  exact mem_append_left _ (mem_append_right _ h)

/-- A carriage return at the end is trimmed. -/
theorem trim_return (text : Bytes) : trim (text ++ [13]) = trim text := by
  unfold trim
  rw [dropWhile_append]
  split
  · next h =>
    rw [List.isEmpty_iff] at h
    rw [h]
    rfl
  · rw [rdropWhile_concat_pos]
    rfl

/-! ### Lines -/

/-- The lines, each but the last one ended. -/
def join : List Bytes → Bytes
  | [] => []
  | [line] => line
  | line :: next :: rest => line ++ 10 :: join (next :: rest)

theorem linesFrom_ne_nil (begun text : Bytes) : linesFrom begun text ≠ [] := by
  induction text generalizing begun with
  | nil => exact cons_ne_nil _ _
  | cons c rest ih =>
    rw [linesFrom]
    split
    · exact cons_ne_nil _ _
    · exact ih _

theorem join_cons {line : Bytes} {rest : List Bytes} (h : rest ≠ []) :
    join (line :: rest) = line ++ 10 :: join rest := by
  cases rest with
  | nil => exact absurd rfl h
  | cons next rest => rfl

theorem join_linesFrom (begun text : Bytes) : join (linesFrom begun text) = begun ++ text := by
  induction text generalizing begun with
  | nil => exact (append_nil _).symm
  | cons c rest ih =>
    rw [linesFrom]
    by_cases hc : c = 10
    · subst hc
      rw [if_pos rfl, join_cons (linesFrom_ne_nil _ _), ih, nil_append]
    · rw [if_neg hc, ih, append_assoc, singleton_append]

theorem feed_not_mem {begun text : Bytes} (h : 10 ∉ begun) :
    ∀ line ∈ linesFrom begun text, 10 ∉ line := by
  induction text generalizing begun with
  | nil => exact forall_mem_singleton.mpr h
  | cons c rest ih =>
    rw [linesFrom]
    by_cases hc : c = 10
    · rw [if_pos hc]
      exact forall_mem_cons.mpr ⟨h, ih not_mem_nil⟩
    · rw [if_neg hc]
      apply ih
      rw [mem_append, mem_singleton, not_or]
      exact ⟨h, Ne.symm hc⟩

theorem linesFrom_line {line : Bytes} (h : 10 ∉ line) (begun rest : Bytes) :
    linesFrom begun (line ++ rest) = linesFrom (begun ++ line) rest := by
  induction line generalizing begun with
  | nil => rw [nil_append, append_nil]
  | cons c line ih =>
    rw [mem_cons, not_or] at h
    rw [cons_append, linesFrom, if_neg (Ne.symm h.1), ih h.2, append_assoc, singleton_append]

theorem linesFrom_join {lines : List Bytes} (hne : lines ≠ []) (h : ∀ line ∈ lines, 10 ∉ line) :
    linesFrom [] (join lines) = lines := by
  induction lines with
  | nil => exact absurd rfl hne
  | cons line rest ih =>
    obtain ⟨hline, hrest⟩ := forall_mem_cons.mp h
    cases rest with
    | nil =>
      have := linesFrom_line hline [] []
      rwa [append_nil, nil_append] at this
    | cons next rest =>
      rw [join_cons (cons_ne_nil _ _), linesFrom_line hline, nil_append, linesFrom,
        if_pos rfl, ih (cons_ne_nil _ _) hrest]

/-! ### What an accepted line is to a reader of TOML -/

section Reading
open TomlLexer

variable {P : Bytes → Prop}

variable {b : UInt8}

theorem safe_congr {mode mode' : Mode} (h : lexByte mode b = lexByte mode' b) {rest : Bytes} :
    Safe P mode (b :: rest) ↔ Safe P mode' (b :: rest) := by
  rw [Safe, Safe, lexFrom, lexFrom, h]

/-- The rest of a string that closes. -/
theorem safe_string {quote : UInt8} {value tail rest : Bytes}
    (hclosing : closing quote value = some tail) (h : Safe P .afterValue (tail ++ rest)) :
    Safe P (.string quote) (value ++ rest) := by
  fun_induction closing quote value with
  | case1 => cases hclosing
  | case2 c value hcontrol => cases hclosing
  | case3 value hcontrol =>
    cases hclosing
    have hstep : lexByte (.string quote) quote = .next .afterValue := by
      rw [lexByte, stringStep, if_pos rfl]
    exact (safe_next hstep).mpr h
  | case4 => cases hclosing
  | case5 => cases hclosing
  | case6 c hcontrol hquote hescape d value hd ih =>
    obtain ⟨rfl, rfl⟩ := hescape
    have hstep : lexByte (.string 34) 92 = .next .escape := rfl
    refine (safe_next hstep).mpr ?_
    by_cases hd' : isEscape d = true
    · have hnext : lexByte .escape d = .next (.string 34) := by rw [lexByte, if_pos hd']
      exact (safe_next hnext).mpr (ih hclosing)
    · exact safe_invalid (by rw [lexByte, if_neg hd']) _
  | case7 c value hcontrol hquote hescape ih =>
    by_cases htext : isText c = true
    · have hstep : lexByte (.string quote) c = .next (.string quote) := by
        rw [lexByte, stringStep, if_neg hquote, if_neg hescape, if_pos htext]
      exact (safe_next hstep).mpr (ih hclosing)
    · apply safe_invalid
      rw [lexByte, stringStep, if_neg hquote, if_neg hescape, if_neg htext]

theorem closing_quote {quote : UInt8} (hquote : ¬ quote < 0x20) (rest : Bytes) :
    closing quote (quote :: rest) = some rest := by
  unfold closing
  rw [if_neg hquote, if_pos rfl]

/-- A string that closes on its line, and what follows does not make it one of several lines. -/
theorem safe_quoted {quote : UInt8} (hquote : quote = 34 ∨ quote = 39) {value tail rest : Bytes}
    (hclosing : closing quote value = some tail) (h : Safe P .afterValue (tail ++ rest))
    (hnext : ∀ b more, tail ++ rest = b :: more → b ≠ quote) :
    Safe P .beforeValue (quote :: (value ++ rest)) := by
  have hopen : lexByte .beforeValue quote = .next (.opened quote) := by
    rcases hquote with rfl | rfl <;> rfl
  refine (safe_next hopen).mpr ?_
  cases value with
  | nil => cases hclosing
  | cons c value =>
    by_cases hc : c = quote
    · subst hc
      have htail : tail = value := by
        have hcontrol : ¬ c < 0x20 := by
          rcases hquote with rfl | rfl <;> decide
        rw [closing_quote hcontrol] at hclosing
        exact (Option.some.inj hclosing).symm
      subst htail
      have htwice : lexByte (.opened c) c = .next (.twice c) := by rw [lexByte, if_pos rfl]
      rw [cons_append, safe_next htwice]
      cases hrest : tail ++ rest with
      | nil => exact safe_nil _
      | cons b more =>
        have hafter : lexByte (.twice c) b = lexByte .afterValue b := by
          rw [lexByte, if_neg (hnext b more hrest), lexByte]
        rw [safe_congr hafter, ← hrest]
        exact h
    · have hinside : lexByte (.opened quote) c = lexByte (.string quote) c := by
        rw [lexByte, if_neg hc, lexByte]
      rw [cons_append, safe_congr hinside, ← cons_append]
      exact safe_string hclosing h

theorem mem_of_closing {quote : UInt8} {value tail : Bytes} (h : closing quote value = some tail)
    (hb : b ∈ tail) : b ∈ value := by
  fun_induction closing quote value with
  | case1 => cases h
  | case2 => cases h
  | case3 value hcontrol =>
    cases h
    exact mem_cons_of_mem _ hb
  | case4 => cases h
  | case5 => cases h
  | case6 c hcontrol hquote hescape d value hd ih =>
    exact mem_cons_of_mem _ (mem_cons_of_mem _ (ih h))
  | case7 c value hcontrol hquote hescape ih => exact mem_cons_of_mem _ (ih h)

theorem ne_feed_of_gap (h : isGap b = true) : b ≠ 10 := by
  rintro rfl
  exact absurd h (by decide)

/-- A comment to the end of the line. -/
theorem safe_hash {mode : Mode} (hmode : lexByte mode 35 = .next .comment) {comment gap tail : Bytes}
    (hfeed : 10 ∉ comment) (hgap : ∀ b ∈ gap, isGap b = true) (h : Ends P tail) :
    Safe P mode (35 :: (comment ++ (gap ++ tail))) := by
  have hclear : 10 ∉ comment ++ gap := by
    rw [mem_append, not_or]
    exact ⟨hfeed, fun hmem => ne_feed_of_gap (hgap 10 hmem) rfl⟩
  have hrest := safe_comment hclear h
  rw [append_assoc] at hrest
  exact (safe_next hmode).mpr hrest

/-- A gap or a comment, to the end of the line. -/
theorem safe_rest {mode : Mode} (hmode : Gapped mode) (hends : EndsLine mode)
    (hcomment : lexByte mode 35 = .next .comment) {text back tail : Bytes}
    (htext : trim text = [] ∨ (trim text).head? = some 35) (hfeed : 10 ∉ text)
    (hback : ∀ b ∈ back, isGap b = true) (h : Ends P tail) :
    Safe P mode (text ++ (back ++ tail)) := by
  obtain ⟨front, after, hfront, hafter, heq⟩ := trim_split text
  rw [heq, append_assoc, append_assoc]
  refine safe_gap hmode hfront ?_
  rcases htext with hnil | hhead
  · rw [hnil, nil_append]
    exact safe_gap hmode hafter (safe_gap hmode hback (safe_of_ends hends h))
  · cases hcore : trim text with
    | nil =>
      rw [hcore] at hhead
      cases hhead
    | cons c comment =>
      rw [hcore] at hhead
      cases hhead
      have hclear : 10 ∉ comment := by
        intro hmem
        apply hfeed
        apply mem_of_mem_trim
        rw [hcore]
        exact mem_cons_of_mem _ hmem
      have hgaps : ∀ b ∈ after ++ back, isGap b = true := by
        intro b hb
        rcases mem_append.mp hb with hmem | hmem
        · exact hafter b hmem
        · exact hback b hmem
      have := safe_hash hcomment hclear hgaps h
      rwa [append_assoc] at this

theorem head_of_gap {gap text : Bytes} (hgap : ∀ b ∈ gap, isGap b = true) {q : Prop} {more : Bytes}
    (h : gap ++ text = b :: more) (hq : isGap b = true → q) (htext : ∀ more, text = b :: more → q) :
    q := by
  cases gap with
  | nil => exact htext more h
  | cons c gap =>
    cases h
    exact hq (hgap b mem_cons_self)

/-- What follows a closing quote is no quote. -/
theorem next_ne_quote {text back tail : Bytes}
    (htext : trim text = [] ∨ (trim text).head? = some 35) (hback : ∀ b ∈ back, isGap b = true)
    (h : Ends P tail) {more : Bytes} (heq : text ++ (back ++ tail) = b :: more) :
    isGap b = true ∨ b = 35 ∨ b = 10 := by
  obtain ⟨front, after, hfront, hafter, hsplit⟩ := trim_split text
  rw [hsplit, append_assoc, append_assoc] at heq
  refine head_of_gap hfront heq .inl fun more heq => ?_
  rcases htext with hnil | hhead
  · rw [hnil, nil_append] at heq
    refine head_of_gap hafter heq .inl fun more heq => ?_
    refine head_of_gap hback heq .inl fun more heq => ?_
    rcases h with rfl | ⟨rest, rfl, -⟩
    · cases heq
    · cases heq
      exact .inr (.inr rfl)
  · cases hcore : trim text with
    | nil =>
      rw [hcore] at hhead
      cases hhead
    | cons c comment =>
      rw [hcore] at hhead heq
      cases hhead
      cases heq
      exact .inr (.inl rfl)

theorem isScalar_of_scalarByte (h : scalarByte b = true) : TomlLexer.isScalar b = true := by
  rw [scalarByte] at h
  rw [TomlLexer.isScalar, h, Bool.true_or]

theorem safe_value {value back tail : Bytes} (hvalue : validateValue value = .ok ())
    (hfeed : 10 ∉ value) (hback : ∀ b ∈ back, isGap b = true) (h : Ends P tail) :
    Safe P .beforeValue (value ++ (back ++ tail)) := by
  unfold validateValue at hvalue
  simp only [bind_ok, need_ok, exists_const] at hvalue
  obtain ⟨hne, hvalue⟩ := hvalue
  cases value with
  | nil => exact absurd rfl hne
  | cons c inner =>
    by_cases hquote : (c :: inner).head? = some 34 ∨ (c :: inner).head? = some 39
    · -- a string that closes, and a comment at most
      rw [if_pos hquote, need_ok] at hvalue
      obtain ⟨text, hclosing, htext⟩ := hvalue
      have hc : c = 34 ∨ c = 39 := hquote.imp Option.some.inj Option.some.inj
      have hclear : 10 ∉ text := by
        intro hmem
        exact hfeed (mem_cons_of_mem _ (mem_of_closing hclosing hmem))
      refine safe_quoted hc hclosing
        (safe_rest gapped_afterValue ⟨rfl, rfl⟩ rfl htext hclear hback h) ?_
      intro b more heq
      rintro rfl
      rcases next_ne_quote htext hback h heq with hgap | hhash | hfeed'
      · rcases hc with rfl | rfl <;> exact absurd hgap (by decide)
      · rcases hc with rfl | rfl <;> exact absurd hhash (by decide)
      · rcases hc with rfl | rfl <;> exact absurd hfeed' (by decide)
    · rw [if_neg hquote] at hvalue
      simp only [bind_ok, need_ok, exists_const] at hvalue
      obtain ⟨hscalar, hall⟩ := hvalue
      generalize hvalue' : c :: inner = value at *
      obtain ⟨front, after, hfront, hafter, hsplit⟩ := trim_split (value.takeWhile (· ≠ 35))
      have hwhole : value = front ++ (trim (value.takeWhile (· ≠ 35)) ++
          (after ++ value.dropWhile (· ≠ 35))) := by
        conv_lhs => rw [← takeWhile_append_dropWhile (p := (· ≠ 35)) (l := value), hsplit]
        rw [append_assoc, append_assoc]
      have hrest : Safe P .scalar (value.dropWhile (· ≠ 35) ++ (back ++ tail)) := by
        cases hdrop : value.dropWhile (· ≠ 35) with
        | nil =>
          rw [nil_append]
          exact safe_gap gapped_scalar hback (safe_of_ends ⟨rfl, rfl⟩ h)
        | cons d comment =>
          have hne : value.dropWhile (· ≠ 35) ≠ [] := by
            rw [hdrop]
            exact cons_ne_nil _ _
          have hd : d = 35 := by
            have hsplit' := TextLines.dropWhile_separator hne
            rw [hdrop] at hsplit'
            exact (List.cons.inj hsplit').1
          subst hd
          have hclear : 10 ∉ comment := by
            intro hmem
            apply hfeed
            apply (dropWhile_suffix (· ≠ 35)).subset
            rw [hdrop]
            exact mem_cons_of_mem _ hmem
          exact safe_hash rfl hclear hback h
      rw [hwhole, append_assoc, append_assoc, append_assoc]
      refine safe_gap gapped_beforeValue hfront ?_
      cases hcore : trim (value.takeWhile (· ≠ 35)) with
      | nil => exact absurd hcore hscalar
      | cons d scalar =>
        rw [hcore] at hall
        have hbytes : ∀ b ∈ d :: scalar, TomlLexer.isScalar b = true := fun b hb =>
          isScalar_of_scalarByte (all_eq_true.mp hall b hb)
        obtain ⟨hd, hothers⟩ := forall_mem_cons.mp hbytes
        have hstep : lexByte .beforeValue d = .next .scalar := by
          have hblank : isBlank d = false := by
            by_contra hblank
            rw [Bool.not_eq_false] at hblank
            rcases blank_iff.mp hblank with rfl | rfl <;> exact absurd hd (by decide)
          rw [lexByte, hblank, if_pos hd]
          rfl
        rw [cons_append, safe_next hstep]
        exact safe_scalar hothers (safe_gap gapped_scalar hafter hrest)

/-- A key that a file may have. -/
def Free (flags : Flags) (key : Bytes) : Prop := key ∉ protectedKeys flags

theorem isBare_not_gap (h : isBare b = true) : isBlank b = false ∧ b ≠ 10 ∧ b ≠ 13 ∧ b ≠ 35 := by
  refine ⟨?_, ?_, ?_, ?_⟩
  · by_contra hblank
    rw [Bool.not_eq_false] at hblank
    rcases blank_iff.mp hblank with rfl | rfl <;> exact absurd h (by decide)
  · rintro rfl
    exact absurd h (by decide)
  · rintro rfl
    exact absurd h (by decide)
  · rintro rfl
    exact absurd h (by decide)

/-- A line that passes is a gap, a comment, or one free key and one scalar. -/
theorem safe_line {flags : Flags} {line tail : Bytes}
    (hline : validateLine flags (trim line) = .ok ()) (hfeed : 10 ∉ line)
    (h : Ends (Free flags) tail) : Safe (Free flags) .line (line ++ tail) := by
  by_cases hskipped : trim line = [] ∨ (trim line).head? = some 35
  · have := safe_rest gapped_line ⟨rfl, rfl⟩ rfl hskipped hfeed (forall_mem_nil _) h
    rwa [nil_append] at this
  · rw [validateLine, if_neg hskipped] at hline
    simp only [bind_ok, need_ok, exists_const] at hline
    obtain ⟨hequals, hkey, hbare, hfree, hvalue⟩ := hline
    obtain ⟨front, back, hfront, hback, hsplit⟩ := trim_split line
    generalize hcore : trim line = core at *
    obtain ⟨before, after, hbefore, hafter, hkeySplit⟩ := trim_split (core.takeWhile (· ≠ 61))
    obtain ⟨before', after', hbefore', hafter', hvalueSplit⟩ :=
      trim_split ((core.dropWhile (· ≠ 61)).drop 1)
    have hdrop : core.dropWhile (· ≠ 61) = 61 :: (core.dropWhile (· ≠ 61)).drop 1 := by
      apply TextLines.dropWhile_separator
      intro hnone
      have hall := dropWhile_eq_nil_iff.mp hnone 61 hequals
      exact absurd hall (by decide)
    generalize hkeyEq : trim (core.takeWhile (· ≠ 61)) = key at *
    generalize hvalueEq : trim ((core.dropWhile (· ≠ 61)).drop 1) = value at *
    have hwhole : line ++ tail = front ++ (before ++ (key ++ (after ++ 61 ::
        (before' ++ (value ++ ((after' ++ back) ++ tail)))))) := by
      have hcoreSplit : core = core.takeWhile (· ≠ 61) ++ core.dropWhile (· ≠ 61) :=
        (takeWhile_append_dropWhile).symm
      rw [hdrop, hkeySplit, hvalueSplit] at hcoreSplit
      rw [hsplit, hcoreSplit]
      simp only [append_assoc, cons_append]
    have hclear : 10 ∉ value := by
      intro hmem
      apply hfeed
      apply mem_of_mem_trim
      rw [hcore]
      apply (dropWhile_suffix (· ≠ 61)).subset
      apply mem_of_mem_drop (i := 1)
      apply mem_of_mem_trim
      rw [hvalueEq]
      exact hmem
    have hgaps : ∀ b ∈ after' ++ back, isGap b = true := by
      intro b hb
      rcases mem_append.mp hb with hmem | hmem
      · exact hafter' b hmem
      · exact hback b hmem
    have hassigned : Free flags key := by
      intro hmem
      rw [contains_iff_mem.mpr hmem] at hfree
      cases hfree
    rw [hwhole]
    refine safe_gap gapped_line hfront (safe_gap gapped_line hbefore ?_)
    have hrest := safe_gap gapped_beforeValue hbefore' (safe_value hvalue hclear hgaps h)
    have hassign := safe_assign hafter hassigned hrest
    cases key with
    | nil => exact absurd rfl hkey
    | cons c key =>
      have hbytes := all_eq_true.mp hbare
      obtain ⟨hblank, hten, hreturn, hhash⟩ := isBare_not_gap (hbytes c mem_cons_self)
      have hstep : lexByte .line c = .next (.bareKey [c]) := by
        rw [lexByte, orEnd, if_neg hten, if_neg hreturn, hblank, if_neg Bool.false_ne_true,
          if_neg hhash, if_pos (hbytes c mem_cons_self)]
      refine (safe_next hstep).mpr ?_
      exact safe_bareKey (fun b hb => hbytes b (mem_cons_of_mem _ hb)) hassign

theorem safe_lines {flags : Flags} {lines : List Bytes} (hne : lines ≠ [])
    (h : ∀ line ∈ lines, validateLine flags (trim line) = .ok () ∧ 10 ∉ line) :
    Safe (Free flags) .line (join lines) := by
  induction lines with
  | nil => exact absurd rfl hne
  | cons line rest ih =>
    obtain ⟨⟨hline, hfeed⟩, hrest⟩ := forall_mem_cons.mp h
    cases rest with
    | nil =>
      have := safe_line hline hfeed (.inl rfl)
      rwa [append_nil] at this
    | cons next rest =>
      rw [join_cons (cons_ne_nil _ _)]
      exact safe_line hline hfeed (.inr ⟨_, rfl, ih (cons_ne_nil _ _) hrest⟩)

end Reading

/-- What the launcher accepts assigns free keys to scalars, and opens nothing. -/
theorem accepted_flat {flags : Flags} {text : Bytes} (h : validate flags text = .ok ()) :
    TomlLexer.Flat (Free flags) (TomlLexer.lex text) := by
  simp only [validate, bind_ok, need_ok, exists_const, forM_ok] at h
  obtain ⟨-, hlines⟩ := h
  have hsafe := safe_lines (linesFrom_ne_nil [] (withoutMark text)) fun line hline =>
    ⟨hlines line hline, feed_not_mem not_mem_nil line hline⟩
  rw [join_linesFrom, nil_append] at hsafe
  exact hsafe

end Mcla.Portable.GpuConfig
