import Mcla.Host.DevOverrides

/-! # What an override file means

The reference: a file is a list of lines, a line is skipped, wrong, or gives a name a
value, and the first line for a key counts.  Two keys of one cvar that are both true take
each other away.

`parse_reference` says that `Parse` computes this, line by line and in any order of the
lines.
-/
namespace Mcla.DevOverrides
open List

/-! ## The reference -/

/-- A character that may stand in a line. -/
def graphic (c : UInt8) : Bool := 0x21 ≤ c.toNat && c.toNat ≤ 0x7e

/-- What a line says. -/
inductive LineKind where
  | skipped
  | malformed
  | given (name : Bytes) (value : Bool)
deriving DecidableEq

/-- What a line says: the name is all that stands before the equals sign. -/
def lineKind (line : Bytes) : LineKind :=
  let line := stripReturn line
  let name := line.takeWhile (· != 61)
  if line = [] ∨ line.head? = some 35 then .skipped
  else if name = [] ∨ name.all graphic = false then .malformed
  else if line = name ++ literal "=true" then .given name true
  else if line = name ++ literal "=false" then .given name false
  else .malformed

/-- The key and the value that a line gives. -/
def assignment (line : Bytes) : Option (Key × Bool) :=
  match lineKind line with
  | .given name value => (findKey name).map fun key => (key, value)
  | _ => none

/-- The value that a line gives a key. -/
def valueIn (key : Key) (line : Bytes) : Option Bool :=
  match assignment line with
  | some (other, value) => if other = key then some value else none
  | none => none

/-- The value of a key: the first line for it counts. -/
def firstValue (lines : List Bytes) (key : Key) : Option Bool := lines.findSome? (valueIn key)

/-- The number of that line, or zero. -/
def firstLine (lines : List Bytes) (key : Key) : Nat :=
  ((lines.findIdx? fun line => (valueIn key line).isSome).map (· + 1)).getD 0

/-- Why a line is rejected where it stands. -/
def lineIssue (before : List Bytes) (line : Bytes) : Option LineIssue :=
  match lineKind line with
  | .skipped => none
  | .malformed => some .malformed
  | .given name _ =>
      match findKey name with
      | none => some .unknownName
      | some key => if (firstValue before key).isSome then some .duplicate else none

/-- The issues of the lines by themselves. -/
def lineIssues (lines : List Bytes) : List Issue :=
  (List.range lines.length).filterMap fun i =>
    lines[i]?.bind fun line => (lineIssue (lines.take i) line).map (Issue.mk (i + 1))

/-- Two keys that must not both be true. -/
def Conflicting (a b : Key) : Prop := (a, b) ∈ kConflictPairs ∨ (b, a) ∈ kConflictPairs

instance (a b : Key) : Decidable (Conflicting a b) := inferInstanceAs (Decidable (_ ∨ _))

/-- The key is true beside another one of its group. -/
def dropped (lines : List Bytes) (key : Key) : Bool :=
  firstValue lines key = some true &&
    allKeys.any fun other => Conflicting key other && firstValue lines other = some true

/-- The key is dropped, and is not the earliest of its group. -/
def droppedLater (lines : List Bytes) (key : Key) : Bool :=
  firstValue lines key = some true &&
    allKeys.any fun other => Conflicting key other && firstValue lines other = some true &&
      firstLine lines other < firstLine lines key

/-- The issues of the conflicts, in the order of the lines. -/
def conflictIssues (lines : List Bytes) : List Issue :=
  (List.range lines.length).filterMap fun i =>
    if allKeys.any fun key => droppedLater lines key && firstLine lines key = i + 1 then
      some ⟨i + 1, .conflict⟩
    else none

/-- Every issue of a file, once. -/
def fileIssues (lines : List Bytes) : List Issue := lineIssues lines ++ conflictIssues lines

/-- The values that are accepted. -/
def accepted (lines : List Bytes) (key : Key) : Option Bool :=
  if dropped lines key then none else firstValue lines key

/-- The lines of a file; nothing after the last line end is no line. -/
def fileLines (content : Bytes) : List Bytes :=
  if (content.splitOn 10).getLast? = some [] then (content.splitOn 10).dropLast
  else content.splitOn 10

/-- The file is too large or not ASCII. -/
def rejectedFile (content : Bytes) : Prop :=
  content.length > kMaxBytes ∨ ∃ c ∈ content, c.toNat > 0x7f

instance (content : Bytes) : Decidable (rejectedFile content) := inferInstanceAs (Decidable (_ ∨ _))

/-- What a file means. -/
def reference (content : Bytes) : Parsed :=
  if rejectedFile content then .empty .rejected
  else ⟨.parsed, accepted (fileLines content), firstLine (fileLines content),
    (fileIssues (fileLines content)).take kMaxIssues, (fileIssues (fileLines content)).length⟩

/-! ## One line -/

theorem scan_after (i e : Nat) (line : Bytes) :
    scan i (some e) line =
      if line.all (fun c => graphic c && c != 61) then some (some e) else none := by
  induction line generalizing i with
  | nil => rfl
  | cons c rest ih =>
    have hgraphic : (c.toNat < 0x21 || c.toNat > 0x7e) = !graphic c := by
      unfold graphic
      rw [Bool.eq_iff_iff]
      simp only [Bool.or_eq_true, decide_eq_true_eq, Bool.not_eq_true', Bool.and_eq_false_iff,
        decide_eq_false_iff_not, Nat.not_le]
    rw [scan, hgraphic, all_cons]
    cases hc : graphic c with
    | false => rfl
    | true =>
      by_cases heq : c = 61
      · subst heq
        rfl
      · rw [if_neg (by simp), if_neg heq, ih, bne_iff_ne.mpr heq]
        rfl

/-- The scan stops at the first equals sign, if the rest has none. -/
theorem scan_before (i : Nat) (name rest : Bytes) (hname : 61 ∉ name)
    (hrest : rest = [] ∨ rest.head? = some 61) :
    scan i none (name ++ rest) =
      if name.all graphic then
        if rest = [] then some none
        else if rest.tail.all (fun c => graphic c && c != 61) then some (some (i + name.length))
        else none
      else none := by
  induction name generalizing i with
  | nil =>
    cases rest with
    | nil => rfl
    | cons c tail =>
      have hc : c = 61 := by simpa using hrest
      subst hc
      rw [nil_append, scan, if_neg (by decide), if_pos rfl]
      show scan (i + 1) (some i) tail = _
      rw [scan_after]
      rfl
  | cons c name ih =>
    have hgraphic : (c.toNat < 0x21 || c.toNat > 0x7e) = !graphic c := by
      unfold graphic
      rw [Bool.eq_iff_iff]
      simp only [Bool.or_eq_true, decide_eq_true_eq, Bool.not_eq_true', Bool.and_eq_false_iff,
        decide_eq_false_iff_not, Nat.not_le]
    rw [mem_cons, not_or] at hname
    rw [cons_append, scan, hgraphic, all_cons]
    cases hc : graphic c with
    | false => rfl
    | true =>
      rw [if_neg (by simp), if_neg (Ne.symm hname.1), ih (i + 1) hname.2, Bool.true_and,
        length_cons, Nat.add_assoc, Nat.add_comm 1]

variable (parsed : Parsed)

/-- What a line of a kind does. -/
def applyKind (number : Nat) : LineKind → Parsed
  | .skipped => parsed
  | .malformed => addIssue parsed number .malformed
  | .given name value => assign parsed number name value

theorem literal_true : literal "=true" = 61 :: literal "true" := by decide

theorem literal_false : literal "=false" = 61 :: literal "false" := by decide

/-- **`ParseLine` does what the kind of the line says.** -/
theorem parseLine_eq (number : Nat) (line : Bytes) :
    parseLine parsed number line = applyKind parsed number (lineKind line) := by
  unfold parseLine lineKind
  generalize stripReturn line = line
  have hline : line.takeWhile (· != 61) ++ line.dropWhile (· != 61) = line :=
    takeWhile_append_dropWhile
  have hname : 61 ∉ line.takeWhile (· != 61) := fun h => by
    simpa using mem_takeWhile_imp h
  have hrest : line.dropWhile (· != 61) = [] ∨ (line.dropWhile (· != 61)).head? = some 61 := by
    cases hdrop : line.dropWhile (· != 61) with
    | nil => exact .inl rfl
    | cons c tail =>
      have hc := head?_dropWhile_not (· != 61) line
      rw [hdrop] at hc
      simp only [head?_cons, bne_eq_false_iff_eq] at hc
      exact .inr (congrArg some hc)
  simp only
  generalize line.takeWhile (· != 61) = name at hline hname ⊢
  generalize line.dropWhile (· != 61) = rest at hline hrest ⊢
  subst hline
  by_cases hskip : name ++ rest = [] ∨ (name ++ rest).head? = some 35
  · have hskip' : ((name ++ rest).isEmpty || (name ++ rest).head? == some 35) = true := by
      rwa [Bool.or_eq_true, List.isEmpty_iff, beq_iff_eq]
    rw [if_pos hskip, if_pos hskip']
    rfl
  · have hskip' : ¬ ((name ++ rest).isEmpty || (name ++ rest).head? == some 35) = true := by
      rwa [Bool.or_eq_true, List.isEmpty_iff, beq_iff_eq]
    rw [if_neg hskip, if_neg hskip', scan_before 0 name rest hname hrest]
    cases hgraphic : name.all graphic with
    | false =>
      simp only [Bool.false_eq_true, if_false, or_true, if_true]
      rfl
    | true =>
      simp only [if_true, Bool.true_eq_false, or_false, Nat.zero_add]
      rcases hrest with rfl | hhead
      · have htrue : ¬ name ++ [] = name ++ literal "=true" := by
          rw [literal_true]
          simp
        have hfalse : ¬ name ++ [] = name ++ literal "=false" := by
          rw [literal_false]
          simp
        rw [if_pos rfl, if_neg htrue, if_neg hfalse, ite_self]
        rfl
      · cases rest with
        | nil => cases hhead
        | cons c tail =>
          obtain rfl : c = 61 := by simpa using hhead
          have htext : ∀ text : Bytes, name ++ 61 :: tail = name ++ 61 :: text ↔ tail = text := by
            intro text
            rw [append_cancel_left_eq, List.cons.injEq, and_iff_right rfl]
          have hvalue : ∀ value : Bytes, value = literal "true" ∨ value = literal "false" →
              value.all (fun c => graphic c && c != 61) = true := by
            rintro value (rfl | rfl) <;> decide
          rw [literal_true, literal_false, if_neg (cons_ne_nil 61 tail), tail_cons]
          simp only [htext]
          by_cases hempty : name = []
          · subst hempty
            rw [if_pos rfl]
            cases tail.all fun c => graphic c && c != 61 <;> rfl
          · have hlength : name.length ≠ 0 := fun h => hempty (length_eq_zero_iff.mp h)
            rw [if_neg hempty]
            cases hall : tail.all fun c => graphic c && c != 61 with
            | false =>
              have hother : ∀ value : Bytes, value = literal "true" ∨ value = literal "false" →
                  tail ≠ value := by
                rintro value hv rfl
                rw [hvalue _ hv] at hall
                cases hall
              rw [if_neg (hother _ (.inl rfl)), if_neg (hother _ (.inr rfl))]
              rfl
            | true =>
              have htake : (name ++ 61 :: tail).take name.length = name := take_left
              have hdrop : (name ++ 61 :: tail).drop (name.length + 1) = tail := by
                rw [← drop_drop, drop_left, drop_one, tail_cons]
              simp only [if_true, if_neg hlength, htake, hdrop]
              split_ifs <;> rfl

/-! ## The first pass -/

/-- A result with all its issues. -/
def withIssues (values : Key → Option Bool) (lines : Key → Nat) (issues : List Issue) : Parsed :=
  ⟨.parsed, values, lines, issues.take kMaxIssues, issues.length⟩

theorem addIssue_withIssues (values : Key → Option Bool) (lines : Key → Nat) (issues : List Issue)
    (number : Nat) (issue : LineIssue) :
    addIssue (withIssues values lines issues) number issue =
      withIssues values lines (issues ++ [⟨number, issue⟩]) := by
  unfold addIssue withIssues
  congr 1
  · rw [take_append]
    split_ifs with hroom
    · rw [length_take] at hroom
      have hlt : issues.length < kMaxIssues := by omega
      rw [take_of_length_le (l := [_]) (by simp; omega)]
    · rw [length_take] at hroom
      have hle : kMaxIssues - issues.length = 0 := by omega
      rw [hle, take_zero, append_nil]
  · simp

/-- What the first pass has found after some lines. -/
def firstPass (lines : List Bytes) : Parsed :=
  withIssues (firstValue lines) (firstLine lines) (lineIssues lines)

theorem firstValue_append (lines : List Bytes) (line : Bytes) (key : Key) :
    firstValue (lines ++ [line]) key = (firstValue lines key).or (valueIn key line) := by
  unfold firstValue
  rw [findSome?_append]
  congr 1
  simp only [findSome?_cons, findSome?_nil]
  cases valueIn key line <;> rfl

variable {lines : List Bytes} {line : Bytes} {content : Bytes} {a b : Key}

theorem firstValue_isSome_iff {key : Key} :
    (firstValue lines key).isSome = true ↔ ∃ line ∈ lines, (valueIn key line).isSome = true := by
  unfold firstValue
  rw [isSome_findSome?, any_eq_true]

theorem firstLine_append (lines : List Bytes) (line : Bytes) (key : Key) :
    firstLine (lines ++ [line]) key = if (firstValue lines key).isSome then firstLine lines key
      else if (valueIn key line).isSome then lines.length + 1 else 0 := by
  unfold firstLine
  rw [findIdx?_append]
  cases hfind : lines.findIdx? fun line => (valueIn key line).isSome with
  | some i =>
    have hsome : (firstValue lines key).isSome = true := by
      rw [firstValue_isSome_iff]
      obtain ⟨hlt, hi, -⟩ := findIdx?_eq_some_iff_getElem.mp hfind
      exact ⟨lines[i], getElem_mem hlt, hi⟩
    rw [if_pos hsome]
    rfl
  | none =>
    have hnone : ¬ (firstValue lines key).isSome = true := by
      rw [firstValue_isSome_iff]
      rintro ⟨other, hmem, hother⟩
      have := findIdx?_eq_none_iff.mp hfind other hmem
      rw [hother] at this
      cases this
    rw [if_neg hnone]
    cases hvalue : (valueIn key line).isSome <;> simp [hvalue]

theorem lineIssues_append (lines : List Bytes) (line : Bytes) :
    lineIssues (lines ++ [line]) =
      lineIssues lines ++ ((lineIssue lines line).map (Issue.mk (lines.length + 1))).toList := by
  unfold lineIssues
  rw [length_append, length_singleton, range_succ, filterMap_append]
  congr 1
  · refine filterMap_congr fun i hi => ?_
    have hlt : i < lines.length := mem_range.mp hi
    rw [getElem?_append_left hlt, take_append_of_le_length hlt.le]
  · rw [filterMap_cons, filterMap_nil, getElem?_append_right (le_refl _), Nat.sub_self, take_left]
    simp only [getElem?_cons_zero, Option.bind_some]
    cases (lineIssue lines line).map (Issue.mk (lines.length + 1)) <;> rfl

theorem firstLine_eq_zero {key : Key} (h : (firstValue lines key).isSome = false) :
    firstLine lines key = 0 := by
  unfold firstLine
  have hnone : (lines.findIdx? fun line => (valueIn key line).isSome) = none := by
    refine findIdx?_eq_none_iff.mpr fun line hmem => ?_
    cases hvalue : (valueIn key line).isSome with
    | false => rfl
    | true =>
      have hsome := firstValue_isSome_iff.mpr ⟨line, hmem, hvalue⟩
      rw [h] at hsome
      cases hsome
  rw [hnone]
  rfl

/-- A line that gives no key a value changes nothing but the issues. -/
theorem firstPass_unassigned
    (h : ∀ key, (firstValue lines key).isSome = false → valueIn key line = none) :
    firstPass (lines ++ [line]) =
      withIssues (firstValue lines) (firstLine lines) (lineIssues (lines ++ [line])) := by
  unfold firstPass
  congr 1
  · funext key
    rw [firstValue_append]
    cases hvalue : firstValue lines key with
    | none => rw [h key (by rw [hvalue]; rfl), Option.or_none]
    | some value => rfl
  · funext key
    rw [firstLine_append]
    cases hvalue : (firstValue lines key).isSome with
    | true => rfl
    | false => rw [h key hvalue, firstLine_eq_zero hvalue]; rfl

theorem valueIn_of_kind (h : ∀ name value, lineKind line ≠ .given name value) (key : Key) :
    valueIn key line = none := by
  unfold valueIn assignment
  cases hkind : lineKind line with
  | skipped => rfl
  | malformed => rfl
  | given name value => exact absurd hkind (h name value)

theorem valueIn_of_given {line name : Bytes} {value : Bool} (h : lineKind line = .given name value)
    (key : Key) : valueIn key line = if findKey name = some key then some value else none := by
  unfold valueIn assignment
  simp only [h]
  cases hfind : findKey name with
  | none => simp
  | some other => simp

/-- **One line of the first pass.** -/
theorem parseLine_firstPass (lines : List Bytes) (line : Bytes) :
    parseLine (firstPass lines) (lines.length + 1) line = firstPass (lines ++ [line]) := by
  rw [parseLine_eq]
  cases hkind : lineKind line with
  | skipped =>
    have hissue : lineIssue lines line = none := by
      unfold lineIssue
      rw [hkind]
    rw [firstPass_unassigned fun key _ => valueIn_of_kind (by simp [hkind]) key, lineIssues_append,
      hissue]
    show firstPass lines = _
    simp [firstPass]
  | malformed =>
    have hissue : lineIssue lines line = some .malformed := by
      unfold lineIssue
      rw [hkind]
    rw [firstPass_unassigned fun key _ => valueIn_of_kind (by simp [hkind]) key, lineIssues_append,
      hissue]
    exact addIssue_withIssues _ _ _ _ _
  | given name value =>
    have hvalue := valueIn_of_given hkind
    show assign (firstPass lines) (lines.length + 1) name value = _
    unfold assign
    cases hfind : findKey name with
    | none =>
      have hissue : lineIssue lines line = some .unknownName := by
        unfold lineIssue
        simp only [hkind, hfind]
      rw [firstPass_unassigned fun key _ => by rw [hvalue, hfind]; simp, lineIssues_append, hissue]
      exact addIssue_withIssues _ _ _ _ _
    | some key =>
      show (if (firstValue lines key).isSome = true then _ else _) = _
      cases hbefore : (firstValue lines key).isSome with
      | true =>
        have hissue : lineIssue lines line = some .duplicate := by
          unfold lineIssue
          simp only [hkind, hfind, hbefore, if_true]
        rw [if_pos rfl, firstPass_unassigned, lineIssues_append, hissue]
        · exact addIssue_withIssues _ _ _ _ _
        · intro other hother
          rw [hvalue, hfind, if_neg]
          rintro ⟨⟩
          rw [hbefore] at hother
          cases hother
      | false =>
        have hissue : lineIssue lines line = none := by
          unfold lineIssue
          simp only [hkind, hfind, hbefore]
          rfl
        rw [if_neg (by simp)]
        unfold firstPass
        rw [lineIssues_append, hissue, Option.map_none, Option.toList_none, append_nil]
        unfold withIssues
        congr 1
        · funext other
          rw [firstValue_append, hvalue, hfind]
          by_cases hother : other = key
          · subst hother
            rw [Option.isSome_eq_false_iff, Option.isNone_iff_eq_none] at hbefore
            rw [Function.update_self, hbefore, if_pos rfl]
            rfl
          · have hne : ¬ some key = some other := fun h => hother (Option.some.inj h).symm
            rw [Function.update_of_ne hother, if_neg hne, Option.or_none]
        · funext other
          rw [firstLine_append, hvalue, hfind]
          by_cases hother : other = key
          · subst hother
            rw [Function.update_self, hbefore, if_pos rfl]
            rfl
          · have hne : ¬ some key = some other := fun h => hother (Option.some.inj h).symm
            rw [Function.update_of_ne hother, if_neg hne]
            cases hsome : (firstValue lines other).isSome with
            | true => rfl
            | false => exact firstLine_eq_zero hsome

/-! ## The lines of a file -/

theorem fileLines_nil : fileLines [] = [] := rfl

/-- A file without a line end is one line. -/
theorem fileLines_single (hne : content ≠ []) (h : content.idxOf? 10 = none) :
    fileLines content = [content] := by
  have hmem : 10 ∉ content := idxOf?_eq_none_iff.mp h
  unfold fileLines
  rw [splitOn_eq_singleton hmem, getLast?_singleton, if_neg]
  intro hlast
  exact hne (Option.some.inj hlast)

/-- The first line end divides a file. -/
theorem eq_append_of_idxOf? {stop : Nat} (h : content.idxOf? 10 = some stop) :
    10 ∉ content.take stop ∧ content = content.take stop ++ 10 :: content.drop (stop + 1) := by
  obtain ⟨hlt, heq, hbefore⟩ := findIdx?_eq_some_iff_getElem.mp h
  refine ⟨fun hmem => ?_, ?_⟩
  · obtain ⟨i, hi, hget⟩ := mem_iff_getElem.mp hmem
    rw [length_take] at hi
    rw [getElem_take] at hget
    refine hbefore i (by omega) ?_
    rw [hget]
    rfl
  · have h10 : content[stop] = 10 := beq_iff_eq.mp heq
    rw [← h10, getElem_cons_drop, take_append_drop]

/-- The first line of a file, and the rest. -/
theorem fileLines_cons {stop : Nat} (h : content.idxOf? 10 = some stop) :
    fileLines content = content.take stop :: fileLines (content.drop (stop + 1)) := by
  obtain ⟨hmem, heq⟩ := eq_append_of_idxOf? h
  have hsplit : content.splitOn 10 = content.take stop :: (content.drop (stop + 1)).splitOn 10 := by
    conv_lhs => rw [heq]
    exact splitOn_append_cons_self_of_not_mem hmem _
  have hne : (content.drop (stop + 1)).splitOn 10 ≠ [] := splitOn_ne_nil _ _
  unfold fileLines
  rw [hsplit, getLast?_cons_of_ne_nil hne, dropLast_cons_of_ne_nil hne]
  split_ifs <;> rfl

/-- **The line loop is the first pass over the lines.** -/
theorem parseLines_eq (before : List Bytes) (content : Bytes)
    (h : before.length + content.length < 2 ^ 16) :
    parseLines (firstPass before) before.length content =
      firstPass (before ++ fileLines content) := by
  induction hn : content.length using Nat.strong_induction_on generalizing before content with
  | _ n ih =>
    cases content with
    | nil => rw [parseLines, fileLines_nil, append_nil]
    | cons c rest =>
      rw [parseLines]
      rw [length_cons] at h hn
      have hnumber : (before.length + 1) % 2 ^ 16 = before.length + 1 := Nat.mod_eq_of_lt (by omega)
      simp only [hnumber]
      split
      · rename_i hstop
        rw [parseLine_firstPass, fileLines_single (cons_ne_nil c rest) hstop]
      · rename_i stop hstop
        rw [parseLine_firstPass, fileLines_cons hstop]
        have hdrop : ((c :: rest).drop (stop + 1)).length = rest.length - stop := by
          rw [length_drop, length_cons]
          omega
        have hnext := ih _ (by omega) (before ++ [(c :: rest).take stop])
          ((c :: rest).drop (stop + 1)) (by rw [length_append, hdrop]; simp; omega) rfl
        rw [length_append, length_singleton] at hnext
        rw [hnext, append_assoc, singleton_append]

/-! ## The second pass -/

theorem mem_allKeys (key : Key) : key ∈ allKeys := by cases key <;> decide

/-- Both keys of a pair are true. -/
def bothTrue (pair : Key × Key) : Bool :=
  parsed.values pair.1 = some true && parsed.values pair.2 = some true

/-- The key of a pair that stands later in the file. -/
def laterKey (pair : Key × Key) : Key :=
  if parsed.lines pair.1 > parsed.lines pair.2 then pair.1 else pair.2

/-- What the pair loop marks. -/
theorem markPairs_eq (marks : (Key → Bool) × (Key → Bool)) (pairs : List (Key × Key)) :
    markPairs parsed marks pairs =
      (fun key => marks.1 key ||
          pairs.any fun pair => bothTrue parsed pair && (key == pair.1 || key == pair.2),
        fun key => marks.2 key ||
          pairs.any fun pair => bothTrue parsed pair && key == laterKey parsed pair) := by
  induction pairs generalizing marks with
  | nil => simp [markPairs]
  | cons pair rest ih =>
    obtain ⟨a, b⟩ := pair
    have hboth : (parsed.values a = some true ∧ parsed.values b = some true) ↔
        bothTrue parsed (a, b) = true := by
      unfold bothTrue
      rw [Bool.and_eq_true, decide_eq_true_eq, decide_eq_true_eq]
    have hset : ∀ (f : Key → Bool) (k key : Key),
        Function.update f k true key = (f key || key == k) := by
      intro f k key
      by_cases hk : key = k
      · subst hk
        simp
      · simp [hk]
    rw [markPairs]
    simp only [hboth, any_cons]
    cases hp : bothTrue parsed (a, b) with
    | false =>
      rw [if_neg (by simp), ih]
      simp
    | true =>
      rw [if_pos rfl, ih]
      simp only [hset, laterKey, Bool.true_and, Bool.or_assoc]

theorem pair_ne (h : (a, b) ∈ kConflictPairs) : a ≠ b := by
  have hall : ∀ pair ∈ kConflictPairs, pair.1 ≠ pair.2 := by decide
  exact hall (a, b) h

theorem firstLine_eq_succ {lines : List Bytes} {key : Key}
    (h : (firstValue lines key).isSome = true) :
    ∃ i, ∃ hi : i < lines.length, firstLine lines key = i + 1 ∧
      (valueIn key lines[i]).isSome = true ∧ firstValue (lines.take i) key = none := by
  obtain ⟨line, hmem, hvalue⟩ := firstValue_isSome_iff.mp h
  cases hfind : lines.findIdx? fun line => (valueIn key line).isSome with
  | none =>
    have := findIdx?_eq_none_iff.mp hfind line hmem
    rw [hvalue] at this
    cases this
  | some i =>
    obtain ⟨hi, hvalue, hbefore⟩ := findIdx?_eq_some_iff_getElem.mp hfind
    refine ⟨i, hi, ?_, hvalue, ?_⟩
    · unfold firstLine
      rw [hfind]
      rfl
    · rw [← Option.not_isSome_iff_eq_none, firstValue_isSome_iff]
      rintro ⟨other, hother, hsome⟩
      obtain ⟨j, hj, rfl⟩ := mem_iff_getElem.mp hother
      rw [length_take] at hj
      rw [getElem_take] at hsome
      exact hbefore j (by omega) hsome

/-- A line gives one key a value. -/
theorem key_eq_of_valueIn (ha : (valueIn a line).isSome = true)
    (hb : (valueIn b line).isSome = true) : a = b := by
  unfold valueIn at ha hb
  cases hline : assignment line with
  | none =>
    rw [hline] at ha
    cases ha
  | some given =>
    simp only [hline] at ha hb
    split_ifs at ha hb with h1 h2
    · exact h1.symm.trans h2
    · cases hb
    · cases ha
    · cases ha

/-- Two keys do not stand in one line. -/
theorem firstLine_injective (ha : (firstValue lines a).isSome = true)
    (hb : (firstValue lines b).isSome = true) (h : firstLine lines a = firstLine lines b) :
    a = b := by
  obtain ⟨i, hi, hia, hva, -⟩ := firstLine_eq_succ ha
  obtain ⟨j, hj, hjb, hvb, -⟩ := firstLine_eq_succ hb
  obtain rfl : i = j := by omega
  exact key_eq_of_valueIn hva hvb

/-- The pair loop drops the keys that are true beside another one of their group. -/
theorem mark_dropped (lines : List Bytes) (key : Key) :
    (kConflictPairs.any fun pair =>
      bothTrue (firstPass lines) pair && (key == pair.1 || key == pair.2)) = dropped lines key := by
  rw [Bool.eq_iff_iff]
  simp only [any_eq_true, dropped, Bool.and_eq_true, Bool.or_eq_true, beq_iff_eq,
    decide_eq_true_eq, bothTrue, Prod.exists]
  constructor
  · rintro ⟨a, b, hmem, ⟨ha, hb⟩, rfl | rfl⟩
    · exact ⟨ha, b, mem_allKeys b, .inl hmem, hb⟩
    · exact ⟨hb, a, mem_allKeys a, .inr hmem, ha⟩
  · rintro ⟨hkey, other, -, hmem | hmem, hother⟩
    · exact ⟨key, other, hmem, ⟨hkey, hother⟩, .inl rfl⟩
    · exact ⟨other, key, hmem, ⟨hother, hkey⟩, .inr rfl⟩

/-- The pair loop logs those of them that are not the earliest. -/
theorem mark_droppedLater (lines : List Bytes) (key : Key) :
    (kConflictPairs.any fun pair =>
      bothTrue (firstPass lines) pair && key == laterKey (firstPass lines) pair) =
        droppedLater lines key := by
  have hlater : ∀ {a b : Key}, a ≠ b → firstValue lines a = some true →
      firstValue lines b = some true → (laterKey (firstPass lines) (a, b) = a ∧
        firstLine lines b < firstLine lines a ∨ laterKey (firstPass lines) (a, b) = b ∧
          firstLine lines a < firstLine lines b) := by
    intro a b hne ha hb
    have hlines : firstLine lines a ≠ firstLine lines b := fun h =>
      hne (firstLine_injective (by rw [ha]; rfl) (by rw [hb]; rfl) h)
    unfold laterKey
    by_cases hgt : (firstPass lines).lines a > (firstPass lines).lines b
    · exact .inl ⟨if_pos hgt, hgt⟩
    · refine .inr ⟨if_neg hgt, ?_⟩
      have : ¬ firstLine lines b < firstLine lines a := hgt
      omega
  rw [Bool.eq_iff_iff]
  simp only [any_eq_true, droppedLater, Bool.and_eq_true, beq_iff_eq, decide_eq_true_eq,
    bothTrue, Prod.exists]
  constructor
  · rintro ⟨a, b, hmem, ⟨ha, hb⟩, hkey⟩
    rcases hlater (pair_ne hmem) ha hb with ⟨heq, hlt⟩ | ⟨heq, hlt⟩
    · obtain rfl := hkey.trans heq
      exact ⟨ha, b, mem_allKeys b, ⟨.inl hmem, hb⟩, hlt⟩
    · obtain rfl := hkey.trans heq
      exact ⟨hb, a, mem_allKeys a, ⟨.inr hmem, ha⟩, hlt⟩
  · rintro ⟨hkey, other, -, ⟨hmem | hmem, hother⟩, hlt⟩
    · refine ⟨key, other, hmem, ⟨hkey, hother⟩, ?_⟩
      rcases hlater (pair_ne hmem) hkey hother with ⟨heq, -⟩ | ⟨-, hgt⟩
      · exact heq.symm
      · omega
    · refine ⟨other, key, hmem, ⟨hother, hkey⟩, ?_⟩
      rcases hlater (pair_ne hmem) hother hkey with ⟨-, hgt⟩ | ⟨heq, -⟩
      · omega
      · exact heq.symm

/-! ## The log -/

/-- The issue of the line with this index. -/
def conflictAt (lines : Key → Nat) (logged : Key → Bool) (i : Nat) : Option Issue :=
  if allKeys.any fun key => logged key && lines key = i + 1 then some ⟨i + 1, .conflict⟩ else none

/-- The issues of the lines after one. -/
def conflictsFrom (lines : Key → Nat) (logged : Key → Bool) (previous last : Nat) : List Issue :=
  (List.range' previous (last - previous)).filterMap (conflictAt lines logged)

theorem conflictAt_isSome {lines : Key → Nat} {logged : Key → Bool} {i : Nat} {issue : Issue}
    (h : conflictAt lines logged i = some issue) :
    issue = ⟨i + 1, .conflict⟩ ∧ ∃ key, logged key = true ∧ lines key = i + 1 := by
  unfold conflictAt at h
  split_ifs at h with hany
  obtain ⟨key, -, hkey⟩ := any_eq_true.mp hany
  rw [Bool.and_eq_true, decide_eq_true_eq] at hkey
  exact ⟨(Option.some.inj h).symm, key, hkey⟩

theorem conflictsFrom_end {lines : Key → Nat} {logged : Key → Bool} {previous last : Nat}
    (h : nextLine lines logged previous allKeys = 0) :
    conflictsFrom lines logged previous last = [] := by
  rcases nextLine_spec lines logged previous allKeys with ⟨-, hnone⟩ | ⟨hlt, -, -⟩
  · unfold conflictsFrom
    rw [filterMap_eq_nil_iff]
    intro i hi
    rw [mem_range'_1] at hi
    rw [Option.eq_none_iff_forall_ne_some]
    intro issue hissue
    obtain ⟨-, key, hlogged, hline⟩ := conflictAt_isSome hissue
    have := hnone key (mem_allKeys key)
    simp only [loggedAfter, hlogged, Bool.true_and, decide_eq_false_iff_not] at this
    omega
  · omega

theorem conflictsFrom_next {lines : Key → Nat} {logged : Key → Bool} {previous last : Nat}
    (h : nextLine lines logged previous allKeys ≠ 0) (hlast : ∀ key, lines key ≤ last) :
    conflictsFrom lines logged previous last =
      ⟨nextLine lines logged previous allKeys, .conflict⟩ ::
        conflictsFrom lines logged (nextLine lines logged previous allKeys) last := by
  rcases nextLine_spec lines logged previous allKeys with ⟨hzero, -⟩ |
    ⟨hlt, ⟨first, -, hfirst, heq⟩, hle⟩
  · exact absurd hzero h
  · have hnext := hlast first
    rw [heq] at hnext
    generalize nextLine lines logged previous allKeys = next at *
    have hsplit : List.range' previous (last - previous) =
        List.range' previous (next - 1 - previous) ++
          (next - 1) :: List.range' next (last - next) := by
      have h1 : last - previous = (next - 1 - previous) + (last - next + 1) := by omega
      have h2 : previous + (next - 1 - previous) = next - 1 := by omega
      have h3 : next - 1 + 1 = next := by omega
      rw [h1, ← range'_append_1, h2, range'_succ, h3]
    have hbefore : (List.range' previous (next - 1 - previous)).filterMap
        (conflictAt lines logged) = [] := by
      rw [filterMap_eq_nil_iff]
      intro i hi
      rw [mem_range'_1] at hi
      rw [Option.eq_none_iff_forall_ne_some]
      intro issue hissue
      obtain ⟨-, key, hlogged, hline⟩ := conflictAt_isSome hissue
      have := hle key (mem_allKeys key) (by
        simp only [loggedAfter, hlogged, Bool.true_and, decide_eq_true_eq]
        omega)
      omega
    have hat : conflictAt lines logged (next - 1) = some ⟨next, .conflict⟩ := by
      unfold conflictAt
      have h3 : next - 1 + 1 = next := by omega
      rw [h3, if_pos]
      rw [any_eq_true]
      simp only [loggedAfter, Bool.and_eq_true] at hfirst
      exact ⟨first, mem_allKeys first, by simp [hfirst.1, heq]⟩
    unfold conflictsFrom
    rw [hsplit, filterMap_append, hbefore, nil_append, filterMap_cons_some hat]

/-- **The log adds one issue for each logged line, in the order of the lines.** -/
theorem logConflicts_eq (lines : Key → Nat) (logged : Key → Bool) (last : Nat)
    (hlast : ∀ key, lines key ≤ last) (values : Key → Option Bool) (issues : List Issue)
    (previous : Nat) :
    logConflicts lines logged (withIssues values lines issues) previous =
      withIssues values lines (issues ++ conflictsFrom lines logged previous last) := by
  induction hn : (allKeys.filter (loggedAfter lines logged previous)).length using
    Nat.strong_induction_on generalizing issues previous with
  | _ n ih =>
    rw [logConflicts]
    split_ifs with hzero
    · rw [conflictsFrom_end hzero, append_nil]
    · have hlt := loggedAfter_length_lt hzero
      rw [hn] at hlt
      rw [addIssue_withIssues, ih _ hlt _ _ rfl, conflictsFrom_next hzero hlast, append_assoc,
        singleton_append]

theorem firstLine_le (lines : List Bytes) (key : Key) : firstLine lines key ≤ lines.length := by
  cases hsome : (firstValue lines key).isSome with
  | false =>
    rw [firstLine_eq_zero hsome]
    exact Nat.zero_le _
  | true =>
    obtain ⟨i, hi, heq, -, -⟩ := firstLine_eq_succ hsome
    omega

theorem conflictIssues_eq (lines : List Bytes) :
    conflictIssues lines = conflictsFrom (firstLine lines) (droppedLater lines) 0 lines.length := by
  unfold conflictIssues conflictsFrom
  rw [Nat.sub_zero, range_eq_range']
  rfl

/-- **The second pass.** -/
theorem resolveConflicts_firstPass (lines : List Bytes) :
    resolveConflicts (firstPass lines) =
      withIssues (accepted lines) (firstLine lines) (fileIssues lines) := by
  have hmarks : markPairs (firstPass lines) (fun _ => false, fun _ => false) kConflictPairs =
      (dropped lines, droppedLater lines) := by
    rw [markPairs_eq]
    simp only [Bool.false_or]
    rw [Prod.mk.injEq]
    exact ⟨funext (mark_dropped lines), funext (mark_droppedLater lines)⟩
  unfold resolveConflicts
  rw [hmarks]
  have hlog : logConflicts (firstPass lines).lines (droppedLater lines) (firstPass lines) 0 =
      withIssues (firstValue lines) (firstLine lines) (fileIssues lines) := by
    unfold fileIssues
    rw [conflictIssues_eq]
    exact logConflicts_eq _ _ lines.length (firstLine_le lines) _ _ 0
  simp only
  rw [hlog]
  rfl

/-- `Parse` is the reference. -/
theorem parse_eq (content : Bytes) : parse content = reference content := by
  unfold parse reference
  by_cases hlength : content.length > kMaxBytes
  · rw [if_pos hlength, if_pos (.inl hlength)]
  · by_cases hascii : (content.any fun c => c.toNat > 0x7f) = true
    · rw [if_neg hlength, if_pos hascii, if_pos]
      right
      simpa using hascii
    · rw [if_neg hlength, if_neg hascii, if_neg]
      · have hpass := parseLines_eq [] content (by
          unfold kMaxBytes at hlength
          simp only [length_nil]
          omega)
        have hempty : firstPass [] = .empty .parsed := rfl
        rw [hempty] at hpass
        show resolveConflicts (parseLines (.empty .parsed) ([] : List Bytes).length content) = _
        rw [hpass, nil_append, resolveConflicts_firstPass]
        rfl
      · rintro (h | h)
        · exact hlength h
        · exact hascii (by simpa using h)

/-! ## Every rejected line is counted once -/

theorem mem_lineIssues {issue : Issue} (h : issue ∈ lineIssues lines) :
    ∃ i, ∃ hi : i < lines.length, issue.line = i + 1 ∧
      (lineIssue (lines.take i) lines[i]).isSome = true := by
  obtain ⟨i, hi, hissue⟩ := mem_filterMap.mp h
  have hlt := mem_range.mp hi
  rw [getElem?_eq_getElem hlt, Option.bind_some, Option.map_eq_some_iff] at hissue
  obtain ⟨kind, hkind, rfl⟩ := hissue
  exact ⟨i, hlt, rfl, by rw [hkind]; rfl⟩

theorem mem_conflictIssues {issue : Issue} (h : issue ∈ conflictIssues lines) :
    ∃ key, droppedLater lines key = true ∧ firstLine lines key = issue.line := by
  obtain ⟨i, -, hissue⟩ := mem_filterMap.mp h
  obtain ⟨rfl, key, hkey⟩ := @conflictAt_isSome (firstLine lines) (droppedLater lines) _ _ hissue
  exact ⟨key, hkey⟩

/-- The line that counts for a key is not rejected by itself. -/
theorem lineIssue_of_first {before : List Bytes} {key : Key}
    (hvalue : (valueIn key line).isSome = true) (hbefore : firstValue before key = none) :
    lineIssue before line = none := by
  unfold lineIssue
  cases hkind : lineKind line with
  | skipped => rfl
  | malformed =>
    rw [valueIn_of_kind (by simp [hkind])] at hvalue
    cases hvalue
  | given name value =>
    rw [valueIn_of_given hkind] at hvalue
    split_ifs at hvalue with hfind
    · simp only [hfind, hbefore]
      rfl
    · cases hvalue

theorem fileIssues_nodup (lines : List Bytes) : ((fileIssues lines).map Issue.line).Nodup := by
  have hrange : ∀ f : Nat → Option Issue, (∀ i issue, f i = some issue → issue.line = i + 1) →
      (((List.range lines.length).filterMap f).map Issue.line).Nodup := by
    intro f hf
    rw [map_filterMap]
    refine List.Nodup.filterMap (fun i j line hi hj => ?_) nodup_range
    obtain ⟨a, ha, rfl⟩ := Option.map_eq_some_iff.mp hi
    obtain ⟨b, hb, hline⟩ := Option.map_eq_some_iff.mp hj
    rw [hf i a ha, hf j b hb] at hline
    omega
  unfold fileIssues
  rw [map_append, nodup_append]
  refine ⟨hrange _ ?_, hrange _ ?_, ?_⟩
  · intro i issue hissue
    obtain ⟨line, -, hline⟩ := Option.bind_eq_some_iff.mp hissue
    obtain ⟨kind, -, rfl⟩ := Option.map_eq_some_iff.mp hline
    rfl
  · intro i issue hissue
    obtain ⟨rfl, -⟩ := @conflictAt_isSome (firstLine lines) (droppedLater lines) _ _ hissue
    rfl
  · rintro a ha b hb rfl
    obtain ⟨first, hfirst, hline⟩ := mem_map.mp ha
    obtain ⟨second, hsecond, hconflict⟩ := mem_map.mp hb
    obtain ⟨i, hi, heq, hissue⟩ := mem_lineIssues hfirst
    obtain ⟨key, hkey, hat⟩ := mem_conflictIssues hsecond
    have htrue : firstValue lines key = some true := by
      unfold droppedLater at hkey
      rw [Bool.and_eq_true, decide_eq_true_eq] at hkey
      exact hkey.1
    obtain ⟨j, hj, hfirstLine, hvalue, hbefore⟩ := @firstLine_eq_succ lines key (by rw [htrue]; rfl)
    obtain rfl : i = j := by omega
    rw [lineIssue_of_first hvalue hbefore] at hissue
    cases hissue

/-! ## The cvars -/

/-- Two keys of one cvar write nothing for `false`, and are a conflict pair. -/
theorem conflicting_of_cvarName (hne : a ≠ b) (h : cvarName a = cvarName b) :
    (info a).falseText = [] ∧ Conflicting a b := by
  have hall : ∀ a ∈ allKeys, ∀ b ∈ allKeys, a ≠ b → cvarName a = cvarName b →
      (info a).falseText = [] ∧ Conflicting a b := by decide +kernel
  exact hall a (mem_allKeys a) b (mem_allKeys b) hne h

/-- **Two accepted keys that write something write different cvars.** -/
theorem accepted_cvarName_ne {va vb : Bool} (hne : a ≠ b) (ha : accepted lines a = some va)
    (hb : accepted lines b = some vb) (hta : cvarText a va ≠ []) (htb : cvarText b vb ≠ []) :
    cvarName a ≠ cvarName b := by
  intro hname
  obtain ⟨hfa, hconflict⟩ := conflicting_of_cvarName hne hname
  obtain ⟨hfb, -⟩ := conflicting_of_cvarName hne.symm hname.symm
  obtain rfl : va = true := by
    cases va
    · exact absurd hfa hta
    · rfl
  obtain rfl : vb = true := by
    cases vb
    · exact absurd hfb htb
    · rfl
  have hvalue : ∀ {key : Key}, accepted lines key = some true →
      dropped lines key = false ∧ firstValue lines key = some true := by
    intro key hkey
    unfold accepted at hkey
    split_ifs at hkey with hdropped
    exact ⟨by simpa using hdropped, hkey⟩
  have hdropped : dropped lines a = true := by
    unfold dropped
    rw [Bool.and_eq_true, decide_eq_true_eq, any_eq_true]
    refine ⟨(hvalue ha).2, b, mem_allKeys b, ?_⟩
    rw [Bool.and_eq_true, decide_eq_true_eq, decide_eq_true_eq]
    exact ⟨hconflict, (hvalue hb).2⟩
  rw [(hvalue ha).1] at hdropped
  cases hdropped

/-! ## The order of the lines -/

/-- The keys that the lines name. -/
def namedKeys (lines : List Bytes) : List Key := (lines.filterMap assignment).map Prod.fst

/-- If every key is named at most once, a key has the value that some line gives it. -/
theorem firstValue_eq_some (h : (namedKeys lines).Nodup) {key : Key} {value : Bool} :
    firstValue lines key = some value ↔ (key, value) ∈ lines.filterMap assignment := by
  induction lines with
  | nil => simp [firstValue]
  | cons line rest ih =>
    unfold firstValue
    rw [findSome?_cons]
    cases hline : assignment line with
    | none =>
      have hnamed : namedKeys (line :: rest) = namedKeys rest := by
        unfold namedKeys
        rw [filterMap_cons_none hline]
      have hvalue : valueIn key line = none := by
        unfold valueIn
        rw [hline]
      rw [hnamed] at h
      rw [hvalue, filterMap_cons_none hline]
      exact ih h
    | some given =>
      obtain ⟨other, v⟩ := given
      have hnamed : namedKeys (line :: rest) = other :: namedKeys rest := by
        unfold namedKeys
        rw [filterMap_cons_some hline, map_cons]
      rw [hnamed, nodup_cons] at h
      rw [filterMap_cons_some hline, mem_cons, Prod.mk.injEq]
      by_cases hkey : other = key
      · subst hkey
        have hvalue : valueIn other line = some v := by
          unfold valueIn
          simp only [hline, if_true]
        have hrest : (other, value) ∉ rest.filterMap assignment := fun hmem =>
          h.1 (mem_map.mpr ⟨_, hmem, rfl⟩)
        rw [hvalue]
        simp [hrest, eq_comm]
      · have hvalue : valueIn key line = none := by
          unfold valueIn
          simp only [hline, if_neg hkey]
        rw [hvalue]
        simp only [Ne.symm hkey, false_and, false_or]
        exact ih h.2

theorem firstValue_perm {lines lines' : List Bytes} (hperm : lines'.Perm lines)
    (h : (namedKeys lines).Nodup) : firstValue lines' = firstValue lines := by
  have hpairs : (lines'.filterMap assignment).Perm (lines.filterMap assignment) := hperm.filterMap _
  have h' : (namedKeys lines').Nodup := (hpairs.map Prod.fst).nodup_iff.mpr h
  funext key
  refine Option.ext fun value => ?_
  rw [firstValue_eq_some h, firstValue_eq_some h', hpairs.mem_iff]

/-- What is accepted depends only on the first values. -/
theorem accepted_congr {lines lines' : List Bytes} (h : firstValue lines' = firstValue lines) :
    accepted lines' = accepted lines := by
  funext key
  unfold accepted dropped
  rw [h]

/-- The empty piece after the last line end gives no key a value. -/
theorem firstValue_fileLines (content : Bytes) :
    firstValue (fileLines content) = firstValue (content.splitOn 10) := by
  unfold fileLines
  split_ifs with hlast
  · funext key
    obtain ⟨pieces, hpieces⟩ := getLast?_eq_some_iff.mp hlast
    rw [hpieces, dropLast_concat, firstValue_append,
      valueIn_of_kind (by intro name value h; cases h), Option.or_none]
  · rfl

theorem append_eq_flatMap (content : Bytes) :
    content ++ [10] = (content.splitOn 10).flatMap (· ++ [10]) := by
  induction hn : content.length using Nat.strong_induction_on generalizing content with
  | _ n ih =>
    cases hstop : content.idxOf? 10 with
    | none =>
      rw [splitOn_eq_singleton (idxOf?_eq_none_iff.mp hstop), flatMap_singleton]
    | some stop =>
      obtain ⟨hmem, heq⟩ := eq_append_of_idxOf? hstop
      obtain ⟨hlt, -⟩ := findIdx?_eq_some_iff_getElem.mp hstop
      have hrest := ih _ (by rw [length_drop]; omega) (content.drop (stop + 1)) rfl
      have hsplit : content.splitOn 10 =
          content.take stop :: (content.drop (stop + 1)).splitOn 10 := by
        conv_lhs => rw [heq]
        exact splitOn_append_cons_self_of_not_mem hmem _
      rw [hsplit, flatMap_cons, ← hrest]
      conv_lhs => rw [heq]
      simp

/-- Files with the same lines have the same characters. -/
theorem perm_of_splitOn {content content' : Bytes}
    (h : (content'.splitOn 10).Perm (content.splitOn 10)) : content'.Perm content := by
  rw [← perm_append_right_iff [10], append_eq_flatMap, append_eq_flatMap]
  exact h.flatMap_right _

theorem rejectedFile_perm {content content' : Bytes} (h : content'.Perm content) :
    rejectedFile content' ↔ rejectedFile content := by
  unfold rejectedFile
  rw [h.length_eq]
  simp only [h.mem_iff]

/-- **The order of the lines does not matter if every key is named at most once.** -/
theorem reference_perm {content content' : Bytes}
    (hperm : (content'.splitOn 10).Perm (content.splitOn 10))
    (h : (namedKeys (content.splitOn 10)).Nodup) :
    (reference content').values = (reference content).values := by
  unfold reference
  simp only [rejectedFile_perm (perm_of_splitOn hperm)]
  split_ifs
  · rfl
  · refine accepted_congr ?_
    rw [firstValue_fileLines, firstValue_fileLines, firstValue_perm hperm h]

/-- **`Parse` is the reference**: every content has its result, each rejected line is one
issue, the accepted keys do not write one cvar twice, and the order of the lines counts only
for the keys that are named twice. -/
theorem parse_reference (content : Bytes) :
    parse content = reference content ∧
    ((fileIssues (fileLines content)).map Issue.line).Nodup ∧
    (∀ a b va vb, a ≠ b → (parse content).values a = some va →
      (parse content).values b = some vb → cvarText a va ≠ [] → cvarText b vb ≠ [] →
      cvarName a ≠ cvarName b) ∧
    ∀ content', (content'.splitOn 10).Perm (content.splitOn 10) →
      (namedKeys (content.splitOn 10)).Nodup →
      (parse content').values = (parse content).values := by
  refine ⟨parse_eq content, fileIssues_nodup _, ?_, ?_⟩
  · intro a b va vb hne ha hb hta htb
    rw [parse_eq] at ha hb
    unfold reference at ha hb
    split_ifs at ha hb
    · cases ha
    · exact accepted_cvarName_ne hne ha hb hta htb
  · intro content' hperm hnodup
    rw [parse_eq, parse_eq]
    exact reference_perm hperm hnodup

end Mcla.DevOverrides
