import Mathlib

/-! # Lines of a text

A text file that was edited by hand ends its lines with a line feed or with a carriage return and
a line feed, and perhaps the last line with neither.  `Spells` is the relation between the lines
and such a text.  The normal form, which has a line feed after every line, decides it: two texts of
the same lines have one normal form (`normal_of_spells`), and where no line has a carriage return
the normal form comes from no other text (`spells_of_normal`).
-/
namespace TextLines
open List

abbrev Text := List UInt8

/-- A line feed after each line. -/
def joined (lines : List Text) : Text := lines.flatMap (· ++ [10])

@[simp] theorem joined_nil : joined [] = [] := rfl

@[simp] theorem joined_cons (line : Text) (lines : List Text) :
    joined (line :: lines) = line ++ 10 :: joined lines := by
  simp [joined]

/-- What is left of a text before a separator begins with it. -/
theorem dropWhile_separator {separator : UInt8} {text : Text}
    (h : text.dropWhile (· ≠ separator) ≠ []) :
    text.dropWhile (· ≠ separator) = separator :: (text.dropWhile (· ≠ separator)).drop 1 := by
  cases hdrop : text.dropWhile (· ≠ separator) with
  | nil => exact absurd hdrop h
  | cons c rest =>
    have hhead := head_dropWhile_not (fun c : UInt8 => decide (c ≠ separator)) h
    simp only [hdrop, head_cons, decide_eq_false_iff_not, not_not] at hhead
    rw [hhead]
    rfl

/-- The text spells the lines. -/
inductive Spells : List Text → Text → Prop where
  | nil : Spells [] []
  | last {line : Text} (h : line ≠ []) : Spells [line] line
  | cons {line ending text : Text} {lines : List Text} (hending : ending = [10] ∨ ending = [13, 10])
      (h : Spells lines text) : Spells (line :: lines) (line ++ (ending ++ text))

/-- What a line can be: no line feed in it, and no carriage return at its end. -/
structure IsLine (line : Text) : Prop where
  feed : 10 ∉ line
  ending : line.getLast? ≠ some 13

/-! ### The normal form -/

/-- Without the carriage returns that a line feed follows. -/
def withoutReturns : Text → Text
  | [] => []
  | [c] => [c]
  | c :: next :: rest =>
      if c = 13 ∧ next = 10 then withoutReturns (next :: rest)
      else c :: withoutReturns (next :: rest)

/-- With a line feed at the end, unless there is nothing. -/
def closed (text : Text) : Text :=
  if text ≠ [] ∧ text.getLast? ≠ some 10 then text ++ [10] else text

/-- The lines of a closed text. -/
def splitFrom (line : Text) : Text → List Text
  | [] => []
  | c :: rest => if c = 10 then line :: splitFrom [] rest else splitFrom (line ++ [c]) rest

/-- The lines of a text. -/
def split (text : Text) : List Text := splitFrom [] text

theorem withoutReturns_cons {c : UInt8} (hc : c ≠ 13) (rest : Text) :
    withoutReturns (c :: rest) = c :: withoutReturns rest := by
  cases rest with
  | nil => rfl
  | cons next rest =>
    rw [withoutReturns, if_neg]
    exact fun h => hc h.1

theorem withoutReturns_feed (rest : Text) :
    withoutReturns (13 :: 10 :: rest) = 10 :: withoutReturns rest := by
  rw [withoutReturns, if_pos ⟨rfl, rfl⟩, withoutReturns_cons (by decide)]

theorem withoutReturns_other {c next : UInt8} (hnext : next ≠ 10) (rest : Text) :
    withoutReturns (c :: next :: rest) = c :: withoutReturns (next :: rest) := by
  rw [withoutReturns, if_neg]
  exact fun h => hnext h.2

theorem closed_cons (c : UInt8) {text : Text} (h : text ≠ [] ∨ c = 10) :
    closed (c :: text) = c :: closed text := by
  unfold closed
  cases text with
  | nil =>
    rcases h with h | rfl
    · exact absurd rfl h
    · rfl
  | cons d rest =>
    rw [getLast?_cons_cons]
    by_cases hlast : (d :: rest).getLast? = some 10
    · rw [if_neg (fun h => h.2 hlast), if_neg (fun h => h.2 hlast)]
    · rw [if_pos ⟨by simp, hlast⟩, if_pos ⟨by simp, hlast⟩]
      rfl

theorem closed_closed (text : Text) : closed (closed text) = closed text := by
  by_cases h : text ≠ [] ∧ text.getLast? ≠ some 10
  · have hclosed : closed text = text ++ [10] := if_pos h
    rw [hclosed, closed, if_neg]
    rw [getLast?_concat]
    exact fun hboth => hboth.2 rfl
  · have hclosed : closed text = text := if_neg h
    rw [hclosed, hclosed]

variable {line : Text} {lines : List Text}

theorem closed_line (hfeed : 10 ∉ line) (rest : Text) :
    closed (line ++ 10 :: rest) = line ++ 10 :: closed rest := by
  induction line with
  | nil => exact closed_cons 10 (.inr rfl)
  | cons c line ih =>
    rw [mem_cons, not_or] at hfeed
    rw [cons_append, closed_cons c (.inl (by simp)), ih hfeed.2]
    rfl

/-- A line before a line ending is kept as it is. -/
theorem withoutReturns_line (h : IsLine line) {ending : Text}
    (hending : ending = [10] ∨ ending = [13, 10]) (rest : Text) :
    withoutReturns (line ++ (ending ++ rest)) = line ++ 10 :: withoutReturns rest := by
  induction line with
  | nil =>
    rcases hending with rfl | rfl
    · exact withoutReturns_cons (by decide) rest
    · exact withoutReturns_feed rest
  | cons c line ih =>
    have hfeed := h.feed
    rw [mem_cons, not_or] at hfeed
    cases line with
    | nil =>
      have hc : c ≠ 13 := by
        rintro rfl
        exact h.ending rfl
      rw [singleton_append, withoutReturns_cons hc, singleton_append]
      congr 1
      exact ih ⟨by simp, by simp⟩
    | cons d line =>
      rw [mem_cons, not_or] at hfeed
      have hline := ih ⟨by rw [mem_cons, not_or]; exact hfeed.2,
        fun hlast => h.ending (by rw [getLast?_cons_cons]; exact hlast)⟩
      rw [cons_append, cons_append, withoutReturns_other (Ne.symm hfeed.2.1)]
      rw [cons_append] at hline
      rw [hline]
      rfl

theorem withoutReturns_last (hfeed : 10 ∉ line) : withoutReturns line = line := by
  induction line with
  | nil => rfl
  | cons c line ih =>
    rw [mem_cons, not_or] at hfeed
    cases line with
    | nil => rfl
    | cons d line =>
      have hnext := hfeed.2
      rw [mem_cons, not_or] at hnext
      rw [withoutReturns_other (Ne.symm hnext.1), ih hfeed.2]

theorem getLast?_ne_feed (hfeed : 10 ∉ line) : line.getLast? ≠ some 10 :=
  fun h => hfeed (mem_of_getLast? h)

/-- **One normal form** for all the texts of the same lines. -/
theorem normal_of_spells {text : Text} (h : Spells lines text)
    (hlines : ∀ line ∈ lines, IsLine line) : closed (withoutReturns text) = joined lines := by
  induction h with
  | nil => rfl
  | last hne =>
    have hfeed := (hlines _ mem_cons_self).feed
    rw [withoutReturns_last hfeed, closed, if_pos ⟨hne, getLast?_ne_feed hfeed⟩]
    simp
  | cons hending h ih =>
    have hline := hlines _ mem_cons_self
    rw [withoutReturns_line hline hending, closed_line hline.feed,
      ih fun line hmem => hlines line (mem_cons_of_mem _ hmem), joined_cons]

/-! ### From the normal form back -/

/-- The first line of a text, if its normal form begins with a line without a carriage return. -/
theorem line_of_withoutReturns {text line rest : Text} (hline : 10 ∉ line ∧ 13 ∉ line)
    (h : withoutReturns text = line ++ 10 :: rest) :
    ∃ ending tail, (ending = [10] ∨ ending = [13, 10]) ∧ text = line ++ (ending ++ tail) ∧
      withoutReturns tail = rest := by
  induction text generalizing line with
  | nil => simp [withoutReturns] at h
  | cons c text ih =>
    by_cases hreturn : c = 13 ∧ text.head? = some 10
    · obtain ⟨rfl, hhead⟩ := hreturn
      obtain ⟨tail, rfl⟩ : ∃ tail, text = 10 :: tail := by
        cases text with
        | nil => cases hhead
        | cons d tail => exact ⟨tail, by rw [Option.some.inj hhead]⟩
      rw [withoutReturns_feed] at h
      cases line with
      | nil => exact ⟨[13, 10], tail, .inr rfl, rfl, (List.cons.inj h).2⟩
      | cons d line =>
        rw [cons_append, List.cons.injEq] at h
        rw [← h.1] at hline
        simp at hline
    · have hcons : withoutReturns (c :: text) = c :: withoutReturns text := by
        cases text with
        | nil => rfl
        | cons d tail =>
          rw [withoutReturns, if_neg]
          exact fun hboth => hreturn ⟨hboth.1, by rw [hboth.2]; rfl⟩
      rw [hcons] at h
      cases line with
      | nil =>
        rw [nil_append, List.cons.injEq] at h
        exact ⟨[10], text, .inl rfl, by rw [h.1]; rfl, h.2⟩
      | cons d line =>
        rw [cons_append, List.cons.injEq] at h
        simp only [mem_cons, not_or] at hline
        obtain ⟨ending, tail, hending, rfl, hrest⟩ := ih ⟨hline.1.2, hline.2.2⟩ h.2
        exact ⟨ending, tail, hending, by rw [h.1]; rfl, hrest⟩

theorem eq_of_withoutReturns {text line : Text} (hline : 13 ∉ line) (hfeed : 10 ∉ line)
    (h : withoutReturns text = line) : text = line := by
  induction text generalizing line with
  | nil => exact h
  | cons c text ih =>
    cases text with
    | nil => exact h
    | cons d text =>
      rw [withoutReturns] at h
      split at h
      · rename_i hboth
        rw [hboth.2, withoutReturns_cons (by decide)] at h
        rw [← h] at hfeed
        simp at hfeed
      · cases line with
        | nil => cases h
        | cons e line =>
          rw [List.cons.injEq] at h
          simp only [mem_cons, not_or] at hline hfeed
          rw [h.1, ih hline.2 hfeed.2 h.2]

/-- A text has one first line. -/
theorem line_inj {line line' rest rest' : Text} (h : 10 ∉ line) (h' : 10 ∉ line')
    (heq : line ++ 10 :: rest = line' ++ 10 :: rest') : line = line' ∧ rest = rest' := by
  induction line generalizing line' with
  | nil =>
    cases line' with
    | nil => exact ⟨rfl, (List.cons.inj heq).2⟩
    | cons d line' =>
      rw [← (List.cons.inj heq).1] at h'
      simp at h'
  | cons c line ih =>
    cases line' with
    | nil =>
      rw [(List.cons.inj heq).1] at h
      simp at h
    | cons d line' =>
      rw [mem_cons, not_or] at h h'
      obtain ⟨hcons, htail⟩ := List.cons.inj heq
      obtain ⟨rfl, hrest⟩ := ih h.2 h'.2 htail
      exact ⟨by rw [hcons], hrest⟩

/-- The first line of a closed text is one of the text, or all of the text. -/
theorem line_of_closed {text line rest : Text} (hline : 10 ∉ line)
    (h : closed text = line ++ 10 :: rest) :
    (∃ tail, text = line ++ 10 :: tail ∧ closed tail = rest) ∨
      (text = line ∧ text ≠ [] ∧ rest = []) := by
  by_cases hfeed : 10 ∈ text
  · obtain ⟨first, tail, rfl, hfirst⟩ := eq_append_cons_of_mem hfeed
    rw [closed_line hfirst] at h
    obtain ⟨rfl, hrest⟩ := line_inj hfirst hline h
    exact .inl ⟨tail, rfl, hrest⟩
  · by_cases hempty : text = []
    · rw [hempty] at h
      simp [closed] at h
    · rw [closed, if_pos ⟨hempty, getLast?_ne_feed hfeed⟩] at h
      obtain ⟨rfl, hrest⟩ := line_inj hfeed hline h
      exact .inr ⟨rfl, hempty, hrest.symm⟩

theorem spells_of_normal {text : Text} (h : closed (withoutReturns text) = joined lines)
    (hlines : ∀ line ∈ lines, 10 ∉ line ∧ 13 ∉ line) : Spells lines text := by
  induction lines generalizing text with
  | nil =>
    have hempty : withoutReturns text = [] := by
      unfold closed at h
      split at h
      · simp at h
      · exact h
    rw [eq_of_withoutReturns (by simp) (by simp) hempty]
    exact .nil
  | cons line lines ih =>
    have hline := hlines line mem_cons_self
    rw [joined_cons] at h
    rcases line_of_closed hline.1 h with ⟨tail, htext, hrest⟩ | ⟨htext, hne, hrest⟩
    · obtain ⟨ending, tail', hending, rfl, rfl⟩ := line_of_withoutReturns hline htext
      exact .cons hending (ih hrest fun l hl => hlines l (mem_cons_of_mem _ hl))
    · obtain rfl := eq_of_withoutReturns hline.2 hline.1 htext
      cases lines with
      | nil => exact .last fun hempty => hne (by rw [hempty]; rfl)
      | cons next lines => simp at hrest

theorem Spells.head {line text : Text} (h : Spells (line :: lines) text) : line <+: text := by
  cases h with
  | last => exact prefix_refl _
  | cons => exact prefix_append ..

/-! ### Splitting the normal form -/

theorem splitFrom_line (hfeed : 10 ∉ line) (begun rest : Text) :
    splitFrom begun (line ++ 10 :: rest) = (begun ++ line) :: splitFrom [] rest := by
  induction line generalizing begun with
  | nil => simp [splitFrom]
  | cons c line ih =>
    rw [mem_cons, not_or] at hfeed
    rw [cons_append, splitFrom, if_neg (Ne.symm hfeed.1), ih hfeed.2, append_assoc]
    rfl

theorem split_joined (h : ∀ line ∈ lines, 10 ∉ line) : split (joined lines) = lines := by
  induction lines with
  | nil => rfl
  | cons line lines ih =>
    rw [joined_cons, split, splitFrom_line (h line mem_cons_self), nil_append]
    congr 1
    exact ih fun l hl => h l (mem_cons_of_mem _ hl)

theorem feed_not_mem_splitFrom {begun text : Text} (h : 10 ∉ begun) :
    ∀ line ∈ splitFrom begun text, 10 ∉ line := by
  induction text generalizing begun with
  | nil => exact forall_mem_nil _
  | cons c rest ih =>
    rw [splitFrom]
    by_cases hc : c = 10
    · rw [if_pos hc]
      exact forall_mem_cons.mpr ⟨h, ih not_mem_nil⟩
    · rw [if_neg hc]
      apply ih
      rw [mem_append, mem_singleton, not_or]
      exact ⟨h, Ne.symm hc⟩

theorem splitFrom_append_line {start : Text} (h : 10 ∉ start) (begun rest : Text) :
    splitFrom begun (start ++ rest) = splitFrom (begun ++ start) rest := by
  induction start generalizing begun with
  | nil => rw [nil_append, append_nil]
  | cons c start ih =>
    rw [mem_cons, not_or] at h
    rw [cons_append, splitFrom, if_neg (Ne.symm h.1), ih h.2, append_assoc]
    rfl

theorem begun_prefix_of_splitFrom {begun text first : Text}
    (h : splitFrom begun text = first :: lines) : begun <+: first := by
  induction text generalizing begun with
  | nil => cases h
  | cons c rest ih =>
    rw [splitFrom] at h
    by_cases hc : c = 10
    · rw [if_pos hc, List.cons.injEq] at h
      rw [h.1]
    · rw [if_neg hc] at h
      exact (prefix_append begun [c]).trans (ih h)

theorem joined_splitFrom {text : Text} (h : closed text = text) {begun : Text}
    (hbegun : begun = [] ∨ text ≠ []) : joined (splitFrom begun text) = begun ++ text := by
  induction text generalizing begun with
  | nil =>
    rcases hbegun with rfl | hne
    · rfl
    · exact absurd rfl hne
  | cons c rest ih =>
    by_cases hc : c = 10
    · subst hc
      rw [closed_cons 10 (.inr rfl)] at h
      rw [splitFrom, if_pos rfl, joined_cons, ih (List.cons.inj h).2 (.inl rfl)]
      rfl
    · have hne : rest ≠ [] := by
        rintro rfl
        rw [closed, if_pos ⟨by simp, by simpa using hc⟩] at h
        simp at h
      rw [closed_cons c (.inl hne)] at h
      rw [splitFrom, if_neg hc, ih (List.cons.inj h).2 (.inr hne), append_assoc]
      rfl

/-- The lines of a closed text. -/
theorem joined_split {text : Text} (h : closed text = text) : joined (split text) = text :=
  joined_splitFrom h (.inl rfl)

/-! ### Whole lines before a text -/

/-- A text of whole lines. -/
def Ended (text : Text) : Prop := text = [] ∨ text.getLast? = some 10

theorem closed_of_ended {text : Text} (h : Ended text) : closed text = text := by
  unfold closed
  rw [if_neg]
  rintro ⟨hne, hlast⟩
  exact h.elim hne hlast

theorem closed_append {before : Text} (h : Ended before) (rest : Text) :
    closed (before ++ rest) = before ++ closed rest := by
  cases rest with
  | nil =>
    rw [append_nil, closed_of_ended h]
    exact (append_nil before).symm
  | cons c rest =>
    have hlast : (before ++ c :: rest).getLast? = (c :: rest).getLast? :=
      getLast?_append_of_ne_nil _ (cons_ne_nil _ _)
    unfold closed
    rw [hlast]
    by_cases hended : (c :: rest).getLast? = some 10
    · rw [if_neg fun h => h.2 hended, if_neg fun h => h.2 hended]
    · rw [if_pos ⟨by simp, hended⟩, if_pos ⟨by simp, hended⟩, append_assoc]

theorem splitFrom_append {before : Text} (h : before.getLast? = some 10) (begun rest : Text) :
    splitFrom begun (before ++ rest) = splitFrom begun before ++ split rest := by
  induction before generalizing begun with
  | nil => cases h
  | cons c before ih =>
    rw [cons_append, splitFrom, splitFrom]
    cases before with
    | nil =>
      obtain rfl : c = 10 := Option.some.inj h
      rw [if_pos rfl, if_pos rfl]
      rfl
    | cons d before =>
      rw [getLast?_cons_cons] at h
      split
      · rw [ih h]
        rfl
      · rw [ih h]

end TextLines
