import Mathlib

/-! # JSON documents

A document as a tree, with its compact text.  An object is read by its set of keys, in whatever
order they are written.
-/

/-- A document, with its numbers whole. -/
inductive JsonTree where
  | null
  | bool (value : Bool)
  | num (value : Int)
  | str (value : String)
  | arr (items : List JsonTree)
  | obj (fields : List (String × JsonTree))

namespace JsonTree
open List

mutual

/-- The compact text of a document whose strings are plain. -/
def text : JsonTree → String
  | .null => "null"
  | .bool value => if value then "true" else "false"
  | .num value => toString value
  | .str value => "\"" ++ value ++ "\""
  | .arr items => "[" ++ textItems items ++ "]"
  | .obj fields => "\x7b" ++ textFields fields ++ "\x7d"

/-- The texts of the items. -/
def textItems : List JsonTree → String
  | [] => ""
  | [item] => item.text
  | item :: rest => item.text ++ "," ++ textItems rest

/-- The texts of the fields. -/
def textFields : List (String × JsonTree) → String
  | [] => ""
  | [(key, item)] => "\"" ++ key ++ "\":" ++ item.text
  | (key, item) :: rest => "\"" ++ key ++ "\":" ++ item.text ++ "," ++ textFields rest

end

/-- These names, each of them once, in any order. -/
def sameNames (names keys : List String) : Bool :=
  names.Nodup ∧ (∀ name ∈ names, name ∈ keys) ∧ ∀ key ∈ keys, key ∈ names

/-- An object with exactly these keys. -/
def hasKeys (keys : List String) : JsonTree → Bool
  | .obj fields => sameNames (fields.map (·.1)) keys
  | _ => false

/-- The value under a key, null where there is none. -/
def field (key : String) : JsonTree → JsonTree
  | .obj fields => (fields.lookup key).getD .null
  | _ => .null

/-! ### The length of a text -/

mutual

/-- The length of the compact text, without the text. -/
def textLength : JsonTree → Nat
  | .null => 4
  | .bool value => if value then 4 else 5
  | .num value => (toString value).length
  | .str value => value.length + 2
  | .arr items => itemsLength items + 2
  | .obj fields => fieldsLength fields + 2

def itemsLength : List JsonTree → Nat
  | [] => 0
  | [item] => item.textLength
  | item :: rest => item.textLength + 1 + itemsLength rest

def fieldsLength : List (String × JsonTree) → Nat
  | [] => 0
  | [(key, item)] => key.length + 3 + item.textLength
  | (key, item) :: rest => key.length + 3 + item.textLength + 1 + fieldsLength rest

end

mutual

theorem length_text : (value : JsonTree) → value.text.length = value.textLength
  | .null => rfl
  | .bool true => rfl
  | .bool false => rfl
  | .num _ => rfl
  | .str value => by
    simp only [text, textLength, String.length_append]
    have hquote : "\"".length = 1 := by decide
    omega
  | .arr items => by
    have hitems := length_textItems items
    have hopen : "[".length = 1 ∧ "]".length = 1 := by decide
    simp only [text, textLength, String.length_append]
    omega
  | .obj fields => by
    have hfields := length_textFields fields
    have hopen : "\x7b".length = 1 ∧ "\x7d".length = 1 := by decide
    simp only [text, textLength, String.length_append]
    omega

theorem length_textItems : (items : List JsonTree) → (textItems items).length = itemsLength items
  | [] => rfl
  | [item] => length_text item
  | item :: next :: rest => by
    have hitem := length_text item
    have hrest := length_textItems (next :: rest)
    have hcomma : ",".length = 1 := by decide
    simp only [textItems, itemsLength, String.length_append] at hrest ⊢
    omega

theorem length_textFields :
    (fields : List (String × JsonTree)) → (textFields fields).length = fieldsLength fields
  | [] => rfl
  | [(key, item)] => by
    have hitem := length_text item
    have hquote : "\"".length = 1 ∧ "\":".length = 2 := by decide
    simp only [textFields, fieldsLength, String.length_append]
    omega
  | (key, item) :: next :: rest => by
    have hitem := length_text item
    have hrest := length_textFields (next :: rest)
    have hquote : "\"".length = 1 ∧ "\":".length = 2 ∧ ",".length = 1 := by decide
    simp only [textFields, fieldsLength, String.length_append] at hrest ⊢
    omega

end

theorem text_length_pos (fields : List (String × JsonTree)) :
    0 < (JsonTree.obj fields).text.length := by
  rw [length_text, textLength]
  omega

/-! ### How long an object can be -/

theorem textLength_num {n k : Nat} (hk : 0 < k) (h : n < 10 ^ k) :
    (JsonTree.num n).textLength ≤ k :=
  (Nat.length_repr_le_iff hk).mpr h

theorem itemsLength_le {items : List JsonTree} {bound : Nat}
    (h : ∀ item ∈ items, item.textLength ≤ bound) :
    itemsLength items ≤ items.length * (bound + 1) := by
  induction items with
  | nil => exact Nat.zero_le _
  | cons item rest ih =>
    have hitem := h item mem_cons_self
    have hrest := ih fun other hother => h other (mem_cons_of_mem _ hother)
    rw [length_cons, Nat.succ_mul]
    cases rest with
    | nil =>
      rw [itemsLength]
      omega
    | cons next rest =>
      rw [itemsLength.eq_3 _ _ (by simp)]
      omega

theorem fieldsLength_le (fields : List (String × JsonTree)) :
    fieldsLength fields ≤
      (fields.map fun field => field.1.length + field.2.textLength + 4).sum := by
  induction fields with
  | nil => exact Nat.zero_le _
  | cons field rest ih =>
    obtain ⟨key, item⟩ := field
    rw [map_cons, sum_cons]
    dsimp only
    cases rest with
    | nil =>
      rw [fieldsLength]
      omega
    | cons next rest =>
      rw [fieldsLength.eq_3 _ _ _ (by simp)]
      omega

/-- The values of an object are found under their keys. -/
theorem lookup_of_mem {fields : List (String × JsonTree)} (hnodup : (fields.map (·.1)).Nodup)
    {key : String} {item : JsonTree} (h : (key, item) ∈ fields) :
    fields.lookup key = some item := by
  induction fields with
  | nil => cases h
  | cons field rest ih =>
    obtain ⟨name, value⟩ := field
    rw [map_cons, nodup_cons] at hnodup
    rcases mem_cons.mp h with heq | hrest
    · cases heq
      simp
    · have hne : key ≠ name := by
        rintro rfl
        exact hnodup.1 (mem_map.mpr ⟨_, hrest, rfl⟩)
      rw [lookup_cons, beq_eq_false_iff_ne.mpr hne]
      exact ih hnodup.2 hrest

/-- An object with these keys is no longer than its keys and bounds for its values allow. -/
theorem textLength_le {value : JsonTree} {keys : List String} (h : value.hasKeys keys = true)
    {bound : String → Nat} (hbound : ∀ key ∈ keys, (value.field key).textLength ≤ bound key) :
    value.textLength ≤ (keys.map fun key => key.length + bound key + 4).sum + 2 := by
  cases value with
  | obj fields =>
    simp only [hasKeys, sameNames, decide_eq_true_eq] at h
    obtain ⟨hnodup, hnames, -⟩ := h
    have hsum : (fields.map fun field => field.1.length + field.2.textLength + 4).sum ≤
        ((fields.map (·.1)).map fun key => key.length + bound key + 4).sum := by
      rw [map_map]
      apply sum_le_sum
      rintro ⟨key, item⟩ hmem
      have hfield : (JsonTree.obj fields).field key = item := by
        rw [field, lookup_of_mem hnodup hmem]
        rfl
      have := hbound key (hnames key (mem_map.mpr ⟨_, hmem, rfl⟩))
      rw [hfield] at this
      dsimp only [Function.comp]
      omega
    have hsub : ((fields.map (·.1)).map fun key => key.length + bound key + 4).sum ≤
        (keys.map fun key => key.length + bound key + 4).sum := by
      obtain ⟨names, hperm, hsub⟩ := hnodup.subperm hnames
      rw [← (hperm.map _).sum_eq]
      exact (hsub.map _).sum_le_sum fun _ _ => Nat.zero_le _
    have := fieldsLength_le fields
    rw [textLength]
    omega
  | _ => cases h

end JsonTree
