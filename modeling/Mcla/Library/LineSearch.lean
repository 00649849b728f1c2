import Mcla.Library.TextLines
import Mcla.Library.TextSearch

/-! # Searching a text for a whole line

A whole line is found by searching for it between two line feeds.  The first line of a text has no
line feed before it, and is never found.
-/
namespace LineSearch
open TextLines TextSearch List

/-- What is searched for: a line between line feeds. -/
def whole (line : Text) : Text := 10 :: (line ++ [10])

theorem find_whole_cons_of_ne {c : UInt8} (hc : c ≠ 10) (line rest : Text) :
    find (whole line) (c :: rest) = (find (whole line) rest).map (· + 1) := by
  apply find_cons_of_not
  intro hpre
  exact hc (cons_prefix_cons.mp hpre).1.symm

variable {line first : Text} {lines : List Text}

/-- A line that the search goes over. -/
theorem find_whole_append (h : 10 ∉ first) (rest : Text) :
    find (whole line) (first ++ rest) = (find (whole line) rest).map (· + first.length) := by
  induction first with
  | nil => exact Option.map_id'.symm
  | cons c first ih =>
    rw [mem_cons, not_or] at h
    rw [cons_append, find_whole_cons_of_ne (Ne.symm h.1), ih h.2, Option.map_map]
    congr 1

/-- After a line feed the line stands, or it does not. -/
theorem whole_prefix_iff {line : Text} (hline : 10 ∉ line) (h : ∀ l ∈ lines, 10 ∉ l) :
    whole line <+: 10 :: joined lines ↔ lines.head? = some line := by
  rw [whole, cons_prefix_cons]
  cases lines with
  | nil => simp
  | cons first lines =>
    rw [joined_cons, head?_cons, Option.some.injEq]
    constructor
    · rintro ⟨-, tail, htail⟩
      rw [append_assoc] at htail
      exact (line_inj hline (h first mem_cons_self) htail).1.symm
    · rintro rfl
      exact ⟨rfl, joined lines, by rw [append_assoc]; rfl⟩

/-- **One line of the search**: either the next line is the one, or the search goes on with it. -/
theorem find_whole_joined (hline : 10 ∉ line) (hfirst : 10 ∉ first) (h : ∀ l ∈ lines, 10 ∉ l) :
    find (whole line) (joined (first :: lines)) = if lines.head? = some line then some first.length
      else (find (whole line) (joined lines)).map (· + (first.length + 1)) := by
  rw [joined_cons, find_whole_append hfirst]
  by_cases hhead : lines.head? = some line
  · rw [if_pos hhead, find_of_start ((whole_prefix_iff hline h).mpr hhead), Option.map_some,
      Nat.zero_add]
  · have hnot := mt (whole_prefix_iff hline h).mp hhead
    rw [if_neg hhead, find_cons_of_not hnot, Option.map_map]
    congr 1
    funext p
    exact Nat.add_right_comm p 1 first.length

/-- A line that no line after the first one is, is not found. -/
theorem find_whole_eq_none (hline : 10 ∉ line) (hfirst : 10 ∉ first) (h : ∀ l ∈ lines, 10 ∉ l)
    (hnot : line ∉ lines) : find (whole line) (joined (first :: lines)) = none := by
  induction lines generalizing first with
  | nil =>
    rw [find_whole_joined hline hfirst h, if_neg (by simp)]
    rfl
  | cons next lines ih =>
    rw [mem_cons, not_or] at hnot
    have hnext : 10 ∉ next := h next mem_cons_self
    rw [find_whole_joined hline hfirst h, if_neg, ih hnext _ hnot.2]
    · rfl
    · exact fun l hl => h l (mem_cons_of_mem _ hl)
    · rw [head?_cons, Option.some.injEq]
      exact Ne.symm hnot.1

/-- **Where a line is found**: the line feed before it. -/
theorem find_whole_first (hline : 10 ∉ line) {before after : List Text} (hfirst : 10 ∉ first)
    (hbefore : ∀ l ∈ before, 10 ∉ l) (hafter : ∀ l ∈ after, 10 ∉ l) (hnot : line ∉ before) :
    ∃ p, find (whole line) (joined (first :: (before ++ line :: after))) = some p ∧
      p + 1 = (joined (first :: before)).length := by
  induction before generalizing first with
  | nil =>
    refine ⟨first.length, ?_, by simp⟩
    rw [nil_append, find_whole_joined hline hfirst, if_pos head?_cons]
    exact forall_mem_cons.mpr ⟨hline, hafter⟩
  | cons next before ih =>
    rw [mem_cons, not_or] at hnot
    obtain ⟨hnext, hrest⟩ := forall_mem_cons.mp hbefore
    obtain ⟨p, hfind, hp⟩ := ih hnext hrest hnot.2
    refine ⟨p + (first.length + 1), ?_, ?_⟩
    · rw [cons_append, find_whole_joined hline hfirst, if_neg, hfind]
      · rfl
      · rw [head?_cons, Option.some.injEq]
        exact Ne.symm hnot.1
      · rw [← cons_append]
        exact forall_mem_append.mpr ⟨hbefore, forall_mem_cons.mpr ⟨hline, hafter⟩⟩
    · rw [joined_cons first, length_append, length_cons, ← hp]
      omega

theorem whole_infix_of_mem {line first : Text} {lines : List Text} (h : line ∈ lines) :
    whole line <:+: joined (first :: lines) := by
  induction lines generalizing first with
  | nil => cases h
  | cons next lines ih =>
    rw [joined_cons]
    rcases mem_cons.mp h with rfl | hrest
    · refine ⟨first, joined lines, ?_⟩
      rw [joined_cons, whole]
      simp
    · have hnext := @ih next hrest
      exact hnext.trans ((suffix_cons 10 _).trans (suffix_append first _)).isInfix

/-- No line of a text, if it cannot be the first one and stands nowhere after it. -/
theorem not_mem_split {line start text : Text} (hstart : 10 ∉ start) (hfirst : ¬start <+: line)
    (hnot : ¬whole line <:+: text ++ [10]) : line ∉ split (start ++ text ++ [10]) := by
  have hclosed : joined (split (start ++ text ++ [10])) = start ++ text ++ [10] :=
    joined_split (closed_of_ended (.inr getLast?_concat))
  intro hmem
  cases hsplit : split (start ++ text ++ [10]) with
  | nil =>
    rw [hsplit] at hmem
    cases hmem
  | cons first lines =>
    rw [hsplit] at hmem hclosed
    rcases mem_cons.mp hmem with rfl | hrest
    · rw [split, append_assoc, splitFrom_append_line hstart] at hsplit
      exact hfirst (begun_prefix_of_splitFrom hsplit)
    · have hwhole := @whole_infix_of_mem line first lines hrest
      have hfound := mt find_eq_none_iff.mp (not_not.mpr hwhole)
      rw [hclosed, append_assoc, find_whole_append hstart, Option.map_eq_none_iff] at hfound
      exact hfound (find_eq_none_iff.mpr hnot)

theorem joined_append (before after : List Text) :
    joined (before ++ after) = joined before ++ joined after := flatMap_append

end LineSearch
