import Mathlib

/-! # Arguments of a command line

The rules by which a Microsoft C program splits its command line.  Arguments stand between blanks;
a quote begins and ends a part in which blanks are kept.  Backslashes stand for themselves, unless
they come right before a quote: there two of them are one backslash, and the last of an odd number
makes the quote a character.  A second quote right after the one that would end a quoted part is
read as a character by some versions of the rules, and begins a new part in others; `doubled` says
which.  The first argument, the name of the program, has no backslash rule.

`split_quoted` is what an encoder has to know: how a quoted part that keeps these rules is read.
-/
namespace CommandArguments
open List

abbrev Text := List UInt16

def blank (c : UInt16) : Bool := c == 32 || c == 9

/-- The arguments, from inside or outside a quoted part, after a number of backslashes, with the
argument that has begun. -/
def splitFrom (doubled : Bool) : Bool → Nat → Option Text → Text → List Text
  | _, _, none, [] => []
  | _, n, some argument, [] => [argument ++ replicate n 92]
  | inquote, n, current, c :: rest =>
      if c = 92 then splitFrom doubled inquote (n + 1) (some (current.getD [])) rest
      else if c = 34 then
        let argument := current.getD [] ++ replicate (n / 2) 92
        if n % 2 = 1 then splitFrom doubled inquote 0 (some (argument ++ [34])) rest
        else
          match rest with
          | [] => splitFrom doubled (!inquote) 0 (some argument) []
          | next :: rest =>
              if doubled && inquote && next == 34 then
                splitFrom doubled inquote 0 (some (argument ++ [34])) rest
              else splitFrom doubled (!inquote) 0 (some argument) (next :: rest)
      else if blank c && !inquote then
        match current with
        | none => splitFrom doubled false 0 none rest
        | some argument =>
            (argument ++ replicate n 92) :: splitFrom doubled false 0 none rest
      else
        splitFrom doubled inquote 0 (some (current.getD [] ++ replicate n 92 ++ [c])) rest

/-- The arguments of a text. -/
def split (doubled : Bool) (text : Text) : List Text := splitFrom doubled false 0 none text

/-- The name of the program, and what is behind it. -/
def programFrom : Bool → Text → Text → Text × Text
  | _, name, [] => (name, [])
  | inquote, name, c :: rest =>
      if c = 34 then programFrom (!inquote) name rest
      else if blank c && !inquote then (name, rest)
      else programFrom inquote (name ++ [c]) rest

/-- The arguments of a program: its name first. -/
def programArguments (doubled : Bool) (command : Text) : List Text :=
  (programFrom false [] command).1 :: split doubled (programFrom false [] command).2

variable {doubled : Bool}

/-! ### One unit -/

theorem splitFrom_cons (inquote : Bool) (n : Nat) (current : Option Text) (c : UInt16)
    (rest : Text) : splitFrom doubled inquote n current (c :: rest) =
      if c = 92 then splitFrom doubled inquote (n + 1) (some (current.getD [])) rest
      else if c = 34 then
        let argument := current.getD [] ++ replicate (n / 2) 92
        if n % 2 = 1 then splitFrom doubled inquote 0 (some (argument ++ [34])) rest
        else
          match rest with
          | [] => splitFrom doubled (!inquote) 0 (some argument) []
          | next :: rest =>
              if doubled && inquote && next == 34 then
                splitFrom doubled inquote 0 (some (argument ++ [34])) rest
              else splitFrom doubled (!inquote) 0 (some argument) (next :: rest)
      else if blank c && !inquote then
        match current with
        | none => splitFrom doubled false 0 none rest
        | some argument =>
            (argument ++ replicate n 92) :: splitFrom doubled false 0 none rest
      else
        splitFrom doubled inquote 0 (some (current.getD [] ++ replicate n 92 ++ [c])) rest := by
  cases current with
  | none =>
    rw [splitFrom]
    rfl
  | some argument =>
    rw [splitFrom]
    rfl

theorem splitFrom_backslash (inquote : Bool) (n : Nat) (argument rest : Text) :
    splitFrom doubled inquote n (some argument) (92 :: rest) =
      splitFrom doubled inquote (n + 1) (some argument) rest := by
  rw [splitFrom_cons]
  rfl

theorem splitFrom_backslashes (inquote : Bool) (n k : Nat) (argument rest : Text) :
    splitFrom doubled inquote n (some argument) (replicate k 92 ++ rest) =
      splitFrom doubled inquote (n + k) (some argument) rest := by
  induction k generalizing n with
  | zero => rfl
  | succ k ih =>
    rw [replicate_succ, cons_append, splitFrom_backslash, ih]
    congr 1
    omega

/-- A quote as a character. -/
theorem splitFrom_character (inquote : Bool) (n : Nat) (argument rest : Text) :
    splitFrom doubled inquote (2 * n + 1) (some argument) (34 :: rest) =
      splitFrom doubled inquote 0 (some (argument ++ replicate n 92 ++ [34])) rest := by
  have hhalf : (2 * n + 1) / 2 = n := by omega
  have hodd : (2 * n + 1) % 2 = 1 := by omega
  rw [splitFrom_cons, if_neg (by decide), if_pos rfl]
  simp only [hhalf, hodd, if_true, Option.getD_some]

/-- A quote that ends a quoted part. -/
theorem splitFrom_end (n : Nat) (argument : Text) {rest : Text} (h : rest.head? ≠ some 34) :
    splitFrom doubled true (2 * n) (some argument) (34 :: rest) =
      splitFrom doubled false 0 (some (argument ++ replicate n 92)) rest := by
  have hhalf : 2 * n / 2 = n := by omega
  have heven : ¬ 2 * n % 2 = 1 := by omega
  rw [splitFrom_cons, if_neg (by decide), if_pos rfl]
  simp only [hhalf, heven, if_false, Option.getD_some]
  cases rest with
  | nil => rfl
  | cons next rest =>
    have hnext : (next == 34) = false := by
      rw [beq_eq_false_iff_ne]
      rintro rfl
      exact h rfl
    simp only [hnext, Bool.and_false, Bool.false_eq_true, if_false, Bool.not_true]

/-- A quote that begins a quoted part, and an argument. -/
theorem splitFrom_begin (rest : Text) :
    splitFrom doubled false 0 none (34 :: rest) = splitFrom doubled true 0 (some []) rest := by
  rw [splitFrom_cons, if_neg (by decide), if_pos rfl]
  cases rest with
  | nil => rfl
  | cons next rest =>
    simp only [Bool.and_false, Bool.false_and, Bool.false_eq_true, if_false]
    rfl

/-- Any other unit in a quoted part. -/
theorem splitFrom_other {c : UInt16} (hslash : c ≠ 92) (hquote : c ≠ 34) (n : Nat)
    (argument rest : Text) :
    splitFrom doubled true n (some argument) (c :: rest) =
      splitFrom doubled true 0 (some (argument ++ replicate n 92 ++ [c])) rest := by
  rw [splitFrom_cons, if_neg hslash, if_neg hquote]
  simp only [Bool.not_true, Bool.and_false, Bool.false_eq_true, if_false, Option.getD_some]

/-- The blank after an argument. -/
theorem splitFrom_blank (argument rest : Text) :
    splitFrom doubled false 0 (some argument) (32 :: rest) = argument :: split doubled rest := by
  rw [splitFrom_cons, if_neg (by decide), if_neg (by decide), if_pos (by decide)]
  dsimp only
  rw [replicate_zero, append_nil]
  rfl

theorem splitFrom_nil (argument : Text) :
    splitFrom doubled false 0 (some argument) [] = [argument] := by
  change [argument ++ replicate 0 92] = [argument]
  rw [replicate_zero, append_nil]

/-! ### Quoting -/

/-- What stands in a quoted part for a text, after a number of backslashes, with the quote at the
end. -/
def quotedFrom : Nat → Text → Text
  | n, [] => replicate (2 * n) 92 ++ [34]
  | n, c :: rest =>
      if c = 92 then quotedFrom (n + 1) rest
      else if c = 34 then replicate (2 * n + 1) 92 ++ 34 :: quotedFrom 0 rest
      else replicate n 92 ++ c :: quotedFrom 0 rest

def quoted (text : Text) : Text := 34 :: quotedFrom 0 text

theorem length_quotedFrom (n : Nat) (text : Text) : n + text.length ≤ (quotedFrom n text).length ∧
    (quotedFrom n text).length ≤ 2 * (n + text.length) + 1 := by
  induction text generalizing n with
  | nil =>
    rw [quotedFrom, length_append, length_replicate, length_singleton, length_nil]
    omega
  | cons c text ih =>
    have hmore := ih (n + 1)
    have hrest := ih 0
    rw [quotedFrom, length_cons]
    split_ifs
    · omega
    · rw [length_append, length_replicate, length_cons]
      omega
    · rw [length_append, length_replicate, length_cons]
      omega

/-- The induction is on the text; the backslashes that were met are still to be written. -/
theorem splitFrom_quotedFrom (text : Text) (n : Nat) (argument : Text) {rest : Text}
    (h : rest.head? ≠ some 34) :
    splitFrom doubled true 0 (some argument) (quotedFrom n text ++ rest) =
      splitFrom doubled false 0 (some (argument ++ (replicate n 92 ++ text))) rest := by
  induction text generalizing n argument with
  | nil =>
    rw [quotedFrom, append_assoc, splitFrom_backslashes, Nat.zero_add, singleton_append,
      splitFrom_end n argument h, append_nil]
  | cons c text ih =>
    rw [quotedFrom]
    by_cases hslash : c = 92
    · subst hslash
      rw [if_pos rfl, ih, replicate_succ']
      simp only [append_assoc, singleton_append]
    by_cases hquote : c = 34
    · subst hquote
      rw [if_neg (by decide), if_pos rfl, append_assoc, splitFrom_backslashes, Nat.zero_add,
        cons_append, splitFrom_character, ih]
      simp only [append_assoc, replicate_zero, nil_append, singleton_append]
    · rw [if_neg hslash, if_neg hquote, append_assoc, splitFrom_backslashes, Nat.zero_add,
        cons_append, splitFrom_other hslash hquote, ih]
      simp only [append_assoc, replicate_zero, nil_append, singleton_append]

/-- **A quoted text is read as the text.** -/
theorem split_quoted (text : Text) {rest : Text} (h : rest.head? ≠ some 34) :
    split doubled (quoted text ++ rest) = splitFrom doubled false 0 (some text) rest := by
  unfold split quoted
  rw [cons_append, splitFrom_begin, splitFrom_quotedFrom text 0 [] h]
  rfl

/-- Quoted texts with blanks between them. -/
theorem split_joined (first : Text) (texts : List Text) :
    split doubled (quoted first ++ texts.flatMap fun text => 32 :: quoted text) =
      first :: texts := by
  induction texts generalizing first with
  | nil =>
    rw [flatMap_nil, split_quoted first (by decide), splitFrom_nil]
  | cons text texts ih =>
    rw [flatMap_cons, split_quoted first (by simp), cons_append, splitFrom_blank, ih]

/-! ### The name of the program -/

theorem programFrom_plain {text : Text} (h : 34 ∉ text) (name rest : Text) :
    programFrom true name (text ++ rest) = programFrom true (name ++ text) rest := by
  induction text generalizing name with
  | nil => rw [nil_append, append_nil]
  | cons c text ih =>
    rw [mem_cons, not_or] at h
    rw [cons_append, programFrom, if_neg (Ne.symm h.1), Bool.not_true, Bool.and_false,
      if_neg (by decide), ih h.2, append_assoc]
    rfl

theorem quotedFrom_plain {text : Text} (h : 34 ∉ text) (n : Nat) (hlast : text.getLast? ≠ some 92)
    (hn : text = [] → n = 0) : quotedFrom n text = replicate n 92 ++ (text ++ [34]) := by
  induction text generalizing n with
  | nil =>
    rw [hn rfl]
    rfl
  | cons c text ih =>
    rw [mem_cons, not_or] at h
    rw [quotedFrom]
    have hlast' : text.getLast? ≠ some 92 := by
      cases text with
      | nil => simp
      | cons d text => rwa [getLast?_cons_cons] at hlast
    by_cases hslash : c = 92
    · subst hslash
      rw [if_pos rfl, ih h.2 (n + 1) hlast', replicate_succ']
      · simp only [append_assoc, cons_append, nil_append]
      · rintro rfl
        exact absurd rfl hlast
    · rw [if_neg hslash, if_neg (Ne.symm h.1), ih h.2 0 hlast' fun _ => rfl]
      rfl

/-- A name without quotes and without a backslash at its end is read as it is. -/
theorem programArguments_joined {name : Text} (h : 34 ∉ name) (hlast : name.getLast? ≠ some 92)
    (texts : List Text) :
    programArguments doubled (quoted name ++ texts.flatMap fun text => 32 :: quoted text) =
      name :: texts := by
  have hname : ∀ rest : Text, programFrom false [] (quoted name ++ rest) =
      programFrom false name rest := by
    intro rest
    unfold quoted
    rw [quotedFrom_plain h 0 hlast fun _ => rfl, cons_append, programFrom, if_pos rfl,
      replicate_zero, nil_append, Bool.not_false, append_assoc,
      programFrom_plain h, nil_append, singleton_append, programFrom, if_pos rfl]
    rfl
  unfold programArguments
  rw [hname]
  cases texts with
  | nil => rfl
  | cons text texts =>
    rw [flatMap_cons, cons_append, programFrom, if_neg (by decide), if_pos (by decide),
      split_joined]

end CommandArguments
