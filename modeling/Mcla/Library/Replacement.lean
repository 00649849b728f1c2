import Mcla.Library.TextSearch

/-! # Replacing what is found

A loop that replaces every occurrence of a needle and goes on after the replacement.
`cut` is what stands between the occurrences.  Where the replacements are marks, units between a
left and a right bracket that no needle has, a later replacement works on the pieces that an
earlier one has left: `Pieces` is kept, with every piece cut further.
-/
namespace Replacement
open TextSearch List Option

variable {α : Type} [DecidableEq α]

theorem drop_found_lt {needle text : List α} {p : Nat} (hneedle : needle ≠ [])
    (h : find needle text = some p) : (text.drop (p + needle.length)).length < text.length := by
  obtain ⟨hle, hpre, -⟩ := find_eq_some_iff.mp h
  have hroom := hpre.length_le
  have hpos := length_pos_iff.mpr hneedle
  rw [length_drop] at hroom ⊢
  omega

/-- Every occurrence of a needle replaced, from the left. -/
def replace (needle replacement text : List α) : List α :=
  if _ : needle = [] then text
  else
    match _ : find needle text with
    | none => text
    | some p =>
      text.take p ++ (replacement ++ replace needle replacement (text.drop (p + needle.length)))
termination_by text.length
decreasing_by exact drop_found_lt ‹_› ‹_›

/-- The pieces between the occurrences. -/
def cut (needle text : List α) : List (List α) :=
  if _ : needle = [] then [text]
  else
    match _ : find needle text with
    | none => [text]
    | some p => text.take p :: cut needle (text.drop (p + needle.length))
termination_by text.length
decreasing_by exact drop_found_lt ‹_› ‹_›

variable {needle replacement text : List α}

theorem replace_of_none (h : find needle text = none) : replace needle replacement text = text := by
  unfold replace
  split
  · rfl
  · split
    · rfl
    · rename_i hsome
      rw [h] at hsome
      cases hsome

theorem replace_of_some {p : Nat} (hneedle : needle ≠ []) (h : find needle text = some p) :
    replace needle replacement text =
      text.take p ++ (replacement ++ replace needle replacement (text.drop (p + needle.length))) := by
  conv_lhs => unfold replace
  rw [dif_neg hneedle]
  split
  · rename_i hnone
    rw [h] at hnone
    cases hnone
  · rename_i q hq
    rw [h, Option.some.injEq] at hq
    rw [hq]

theorem cut_of_none (h : find needle text = none) : cut needle text = [text] := by
  unfold cut
  split
  · rfl
  · split
    · rfl
    · rename_i hsome
      rw [h] at hsome
      cases hsome

theorem cut_of_some {p : Nat} (hneedle : needle ≠ []) (h : find needle text = some p) :
    cut needle text = text.take p :: cut needle (text.drop (p + needle.length)) := by
  conv_lhs => unfold cut
  rw [dif_neg hneedle]
  split
  · rename_i hnone
    rw [h] at hnone
    cases hnone
  · rename_i q hq
    rw [h, Option.some.injEq] at hq
    rw [hq]

theorem replace_of_absent (h : ¬ needle <:+: text) : replace needle replacement text = text :=
  replace_of_none (find_eq_none_iff.mpr h)

/-- Induction along the occurrences. -/
theorem along {motive : List α → Prop} (hneedle : needle ≠ [])
    (stop : ∀ text, find needle text = none → motive text)
    (next : ∀ text p, find needle text = some p → motive (text.drop (p + needle.length)) →
      motive text) (text : List α) : motive text := by
  induction hsize : text.length using Nat.strong_induction_on generalizing text with
  | _ size ih =>
    cases hfind : find needle text with
    | none => exact stop text hfind
    | some p =>
      have hlt := drop_found_lt hneedle hfind
      rw [hsize] at hlt
      exact next text p hfind (ih _ hlt _ rfl)

/-! ### The pieces -/

theorem infix_of_mem_cut (hneedle : needle ≠ []) (text : List α) :
    ∀ piece ∈ cut needle text, piece <:+: text := by
  induction text using along hneedle with
  | stop text hfind =>
    intro piece hpiece
    rw [cut_of_none hfind, mem_singleton] at hpiece
    exact hpiece ▸ infix_rfl
  | next text p hfind ih =>
    intro piece hpiece
    rw [cut_of_some hneedle hfind, mem_cons] at hpiece
    rcases hpiece with rfl | hpiece
    · exact (List.take_prefix p text).isInfix
    · exact (ih piece hpiece).trans (drop_suffix _ text).isInfix

/-- No needle is left in a piece. -/
theorem not_infix_of_mem_cut (hneedle : needle ≠ []) (text : List α) :
    ∀ piece ∈ cut needle text, ¬ needle <:+: piece := by
  induction text using along hneedle with
  | stop text hfind =>
    intro piece hpiece
    rw [cut_of_none hfind, mem_singleton] at hpiece
    rw [hpiece]
    exact find_eq_none_iff.mp hfind
  | next text p hfind ih =>
    intro piece hpiece
    rw [cut_of_some hneedle hfind, mem_cons] at hpiece
    rcases hpiece with rfl | hpiece
    · intro hoccurs
      cases hearly : find needle (text.take p) with
      | none => exact find_eq_none_iff.mp hearly hoccurs
      | some q =>
        -- It would have been found where it stands in the piece, before the place found.
        have hfound := find_append_of_some hearly (text.drop p)
        rw [take_append_drop, hfind, Option.some.injEq] at hfound
        obtain ⟨-, hpre, -⟩ := find_eq_some_iff.mp hearly
        have hroom := hpre.length_le
        have hpos := length_pos_iff.mpr hneedle
        rw [length_drop, length_take] at hroom
        omega
    · exact ih piece hpiece

/-- No occurrence of the needle in the text reaches into `kept`. -/
def Apart (needle before kept after : List α) : Prop :=
  ∀ x y, x ++ (needle ++ y) = before ++ (kept ++ after) →
    x.length + needle.length ≤ before.length ∨ before.length + kept.length ≤ x.length

omit [DecidableEq α] in
theorem Apart.part {x before kept after y : List α}
    (h : Apart needle (x ++ before) kept (after ++ y)) : Apart needle before kept after := by
  intro a b heq
  have hwhole : (x ++ a) ++ (needle ++ (b ++ y)) = (x ++ before) ++ (kept ++ (after ++ y)) := by
    rw [append_assoc, append_assoc, ← append_assoc kept, ← append_assoc before, ← heq]
    simp only [append_assoc]
  have hsides := h _ _ hwhole
  rw [length_append, length_append] at hsides
  omega

/-- What no occurrence reaches into is left, in one piece. -/
theorem exists_mem_cut (hneedle : needle ≠ []) {before kept after : List α}
    (h : Apart needle before kept after) :
    ∃ x front back y, before = x ++ front ∧ after = back ++ y ∧
      front ++ (kept ++ back) ∈ cut needle (before ++ (kept ++ after)) := by
  generalize htext : before ++ (kept ++ after) = text
  induction text using along hneedle generalizing before with
  | stop text hfind =>
    refine ⟨[], before, after, [], rfl, (append_nil _).symm, ?_⟩
    rw [cut_of_none hfind, htext]
    exact mem_singleton_self _
  | next text p hfind ih =>
    obtain ⟨hle, ⟨y, hy⟩, -⟩ := find_eq_some_iff.mp hfind
    have hsides := h (text.take p) y (by rw [hy, take_append_drop, htext])
    rw [length_take, Nat.min_eq_left hle] at hsides
    rw [cut_of_some hneedle hfind]
    rcases hsides with hearly | hlate
    · have hsplit : before = before.take (p + needle.length) ++ before.drop (p + needle.length) :=
        (take_append_drop _ _).symm
      have hrest : Apart needle (before.drop (p + needle.length)) kept after := by
        rw [hsplit, ← append_nil after] at h
        exact h.part
      obtain ⟨x, front, back, y, hfront, hback, hmem⟩ := ih hrest
        (by rw [← htext, drop_append_of_le_length hearly])
      refine ⟨before.take (p + needle.length) ++ x, front, back, y, ?_, hback,
        mem_cons_of_mem _ hmem⟩
      rw [append_assoc, ← hfront, take_append_drop]
    · refine ⟨[], before, after.take (p - before.length - kept.length), _, rfl,
        (take_append_drop _ _).symm, mem_cons.mpr (.inl ?_)⟩
      have hbefore : before.take p = before := take_of_length_le (by omega)
      have hkept : kept.take (p - before.length) = kept := take_of_length_le (by omega)
      rw [← htext, take_append, hbefore, take_append, hkept]

/-! ### Over a unit that the needle does not have -/

section Over
variable {c : α}

omit [DecidableEq α] in
theorem prefix_over_iff (hc : c ∉ needle) (a b : List α) :
    needle <+: a ++ c :: b ↔ needle <+: a := by
  constructor
  · intro h
    refine prefix_of_prefix_length_le h (prefix_append ..) ?_
    by_contra hlong
    obtain ⟨tail, htail⟩ := h
    have hget : (needle ++ tail)[a.length]? = some c := by
      rw [htail, getElem?_append_right (le_refl _), Nat.sub_self]
      rfl
    rw [getElem?_append_left (not_le.mp hlong)] at hget
    exact hc (mem_of_getElem? hget)
  · intro h
    exact h.trans (prefix_append ..)

theorem find_over (hneedle : needle ≠ []) (hc : c ∉ needle) (a b : List α) :
    find needle (a ++ c :: b) = (find needle a).or ((find needle b).map (a.length + 1 + ·)) := by
  induction a with
  | nil =>
    have hnot : ¬ needle <+: c :: b := by
      intro h
      exact hneedle (prefix_nil.mp ((prefix_over_iff hc [] b).mp h))
    have hnil : find needle ([] : List α) = none := if_neg hneedle
    rw [nil_append, find_cons_of_not hnot, hnil, none_or]
    simp only [length_nil, Nat.zero_add, Nat.add_comm 1]
  | cons d a ih =>
    by_cases hhere : needle <+: d :: a
    · rw [find_of_start hhere, find_of_start ((prefix_over_iff hc (d :: a) b).mpr hhere),
        some_or]
    · have hnot : ¬ needle <+: d :: (a ++ c :: b) :=
        fun h => hhere ((prefix_over_iff hc (d :: a) b).mp h)
      rw [cons_append, find_cons_of_not hnot, find_cons_of_not hhere, ih]
      cases find needle a with
      | some p => rfl
      | none =>
        rw [none_or, map_none, none_or, Option.map_map]
        congr 1
        funext q
        rw [Function.comp_apply, length_cons]
        omega

theorem infix_over_iff (hneedle : needle ≠ []) (hc : c ∉ needle) (a b : List α) :
    needle <:+: a ++ c :: b ↔ needle <:+: a ∨ needle <:+: b := by
  have hnone := find_over hneedle hc a b
  rw [← not_iff_not, ← find_eq_none_iff, not_or, ← find_eq_none_iff, ← find_eq_none_iff, hnone,
    or_eq_none_iff, map_eq_none_iff]

/-- The two sides of such a unit are worked on apart. -/
theorem replace_over (hneedle : needle ≠ []) (hc : c ∉ needle) (a b : List α) :
    replace needle replacement (a ++ c :: b) =
      replace needle replacement a ++ c :: replace needle replacement b := by
  induction a using along hneedle with
  | stop a hfind =>
    have hboth := find_over hneedle hc a b
    rw [hfind, none_or] at hboth
    rw [replace_of_none hfind]
    cases hnext : find needle b with
    | none =>
      rw [hnext] at hboth
      rw [replace_of_none hboth, replace_of_none hnext]
    | some q =>
      rw [hnext, map_some] at hboth
      have hsplit : a ++ c :: b = (a ++ [c]) ++ b := append_cons a c b
      have hlength : (a ++ [c]).length = a.length + 1 := by
        rw [length_append, length_singleton]
      rw [replace_of_some hneedle hboth, replace_of_some hneedle hnext, hsplit, ← hlength,
        take_append, drop_append, take_of_length_le (by omega), drop_of_length_le (by omega),
        Nat.add_sub_cancel_left, Nat.add_assoc, Nat.add_sub_cancel_left]
      simp
  | next a p hfind ih =>
    have hboth := find_over hneedle hc a b
    rw [hfind, some_or] at hboth
    obtain ⟨hle, hpre, -⟩ := find_eq_some_iff.mp hfind
    have hroom := hpre.length_le
    rw [length_drop] at hroom
    rw [replace_of_some hneedle hboth, replace_of_some hneedle hfind,
      take_append_of_le_length hle, drop_append_of_le_length (by omega), ih]
    simp only [append_assoc]

end Over

/-! ### Marks -/

section Marks
variable (left right unit : α)

/-- A needle that stands in no mark and over no end of one. -/
structure Clean (needle : List α) : Prop where
  left : left ∉ needle
  right : right ∉ needle
  unit : unit ∈ needle

/-- A text as pieces with marks between them. -/
inductive Pieces : List α → List (List α) → Prop where
  | single (piece : List α) : Pieces piece [piece]
  | more {mark rest : List α} {pieces : List (List α)} (piece : List α) (hmark : unit ∉ mark)
      (hrest : Pieces rest pieces) : Pieces (piece ++ left :: (mark ++ right :: rest))
        (piece :: pieces)

variable {left right unit}

omit [DecidableEq α] in
theorem Clean.ne_nil (h : Clean left right unit needle) : needle ≠ [] := by
  rintro rfl
  exact absurd h.unit not_mem_nil

variable {mark : List α}

omit [DecidableEq α] in
theorem Clean.absent (h : Clean left right unit needle) (hmark : unit ∉ mark) :
    ¬ needle <:+: mark := fun hoccurs => hmark (hoccurs.subset h.unit)

theorem Clean.infix_iff (h : Clean left right unit needle) (hmark : unit ∉ mark) (a b : List α) :
    needle <:+: a ++ left :: (mark ++ right :: b) ↔ needle <:+: a ∨ needle <:+: b := by
  rw [infix_over_iff h.ne_nil h.left, infix_over_iff h.ne_nil h.right]
  constructor
  · rintro (ha | hm | hb)
    · exact .inl ha
    · exact absurd hm (h.absent hmark)
    · exact .inr hb
  · rintro (ha | hb)
    · exact .inl ha
    · exact .inr (.inr hb)

theorem Clean.replace_mark (h : Clean left right unit needle) (hmark : unit ∉ mark) (a b : List α) :
    replace needle replacement (a ++ left :: (mark ++ right :: b)) =
      replace needle replacement a ++ left :: (mark ++ right :: replace needle replacement b) := by
  rw [replace_over h.ne_nil h.left, replace_over h.ne_nil h.right,
    replace_of_absent (h.absent hmark)]

/-- A needle stands in a text when it stands in a piece. -/
theorem Pieces.infix_iff {pieces : List (List α)} (hp : Pieces left right unit text pieces)
    (h : Clean left right unit needle) :
    needle <:+: text ↔ ∃ piece ∈ pieces, needle <:+: piece := by
  induction hp with
  | single piece => simp
  | more piece hmark _ ih => rw [h.infix_iff hmark, ih, exists_mem_cons_iff]

omit [DecidableEq α] in
theorem Pieces.append {a b mark : List α} {pieces more : List (List α)}
    (ha : Pieces left right unit a pieces) (hmark : unit ∉ mark)
    (hb : Pieces left right unit b more) :
    Pieces left right unit (a ++ left :: (mark ++ right :: b)) (pieces ++ more) := by
  induction ha with
  | single piece => exact .more piece hmark hb
  | more piece hfirst _ ih =>
    have hjoined := Pieces.more piece hfirst ih
    simpa only [append_assoc, cons_append] using hjoined

theorem pieces_cut (hneedle : needle ≠ []) (hmark : unit ∉ mark) (text : List α) :
    Pieces left right unit (replace needle (left :: (mark ++ [right])) text)
      (cut needle text) := by
  induction text using along hneedle with
  | stop text hfind =>
    rw [replace_of_none hfind, cut_of_none hfind]
    exact .single text
  | next text p hfind ih =>
    rw [replace_of_some hneedle hfind, cut_of_some hneedle hfind]
    have hmore := Pieces.more (text.take p) hmark ih
    simpa only [append_assoc, cons_append, nil_append] using hmore

/-- **A later replacement** works on the pieces. -/
theorem Pieces.replace {pieces : List (List α)} (hp : Pieces left right unit text pieces)
    (h : Clean left right unit needle) (hmark : unit ∉ mark) :
    Pieces left right unit (Replacement.replace needle (left :: (mark ++ [right])) text)
      (pieces.flatMap (cut needle)) := by
  induction hp with
  | single piece =>
    rw [flatMap_singleton]
    exact pieces_cut h.ne_nil hmark piece
  | more piece hfirst _ ih =>
    rw [h.replace_mark hfirst, flatMap_cons]
    exact (pieces_cut h.ne_nil hmark piece).append hfirst ih

end Marks
end Replacement
