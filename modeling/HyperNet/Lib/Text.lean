import HyperNet.Lib.Parsing

/-!
# Text

Searching in texts, and parsers for texts that are made of fixed words, decimal numbers and lines.
`find` is the search for a first occurrence.  A parser that reads up to a character is the inverse
of writing something without that character and then the character; a number is read back if no
digit follows it.
-/

namespace HyperNet.Text

open Parsing

/-! ## First occurrences -/

section Find

variable {α : Type} [DecidableEq α] {pat l a rest : List α} {c : α} {i : Nat}

/-- Where a pattern first occurs. -/
def find (pat : List α) : List α → Option Nat
  | [] => if pat = [] then some 0 else none
  | c :: l => if pat <+: c :: l then some 0 else (find pat l).map (· + 1)

theorem find_eq_some (h : find pat l = some i) :
    (∃ rest, l = l.take i ++ (pat ++ rest)) ∧ i ≤ l.length ∧ ∀ j < i, ¬ pat <+: l.drop j := by
  induction l generalizing i with
  | nil =>
    unfold find at h
    split at h
    next hpat =>
      cases h
      exact ⟨⟨[], by simp [hpat]⟩, Nat.le_refl _, fun j hj => absurd hj (Nat.not_lt_zero j)⟩
    · cases h
  | cons c l ih =>
    unfold find at h
    split at h
    next hpat =>
      cases h
      obtain ⟨rest, hrest⟩ := hpat
      exact ⟨⟨rest, hrest.symm⟩, Nat.zero_le _, fun j hj => absurd hj (Nat.not_lt_zero j)⟩
    next hnot =>
      obtain ⟨k, hk, rfl⟩ := Option.map_eq_some_iff.mp h
      obtain ⟨⟨rest, hrest⟩, hlen, hfirst⟩ := ih hk
      refine ⟨⟨rest, ?_⟩, Nat.succ_le_succ hlen, fun j hj => ?_⟩
      · rw [List.take_succ_cons, List.cons_append, ← hrest]
      · cases j with
        | zero => exact hnot
        | succ j => exact hfirst j (Nat.lt_of_succ_lt_succ hj)

theorem find_append (h : ∀ j < a.length, ¬ pat <+: (a ++ (pat ++ rest)).drop j) :
    find pat (a ++ (pat ++ rest)) = some a.length := by
  induction a with
  | nil =>
    cases hl : pat ++ rest with
    | nil => simp [find, (List.append_eq_nil_iff.mp hl).1]
    | cons c l =>
      have hprefix : pat <+: c :: l := ⟨rest, hl⟩
      simp [find, hprefix]
  | cons c a ih =>
    have hnot : ¬ pat <+: c :: (a ++ (pat ++ rest)) := h 0 (Nat.zero_lt_succ _)
    have hrest := ih fun j hj => h (j + 1) (Nat.succ_lt_succ hj)
    simp [find, hnot, hrest]

theorem find_eq_none : find pat l = none ↔ ¬ pat <:+: l := by
  constructor
  · rintro h ⟨a, rest, rfl⟩
    rw [List.append_assoc] at h
    induction a with
    | nil =>
      cases hl : pat ++ rest with
      | nil =>
        rw [List.nil_append, hl] at h
        simp [find, (List.append_eq_nil_iff.mp hl).1] at h
      | cons c l =>
        have hprefix : pat <+: c :: l := ⟨rest, hl⟩
        rw [List.nil_append, hl] at h
        simp [find, hprefix] at h
    | cons c a ih =>
      rw [List.cons_append, find] at h
      split at h
      · cases h
      · exact ih (Option.map_eq_none_iff.mp h)
  · intro h
    cases hfind : find pat l with
    | none => rfl
    | some i =>
      obtain ⟨⟨rest, hrest⟩, -⟩ := find_eq_some hfind
      exact absurd ⟨l.take i, rest, by rw [List.append_assoc, ← hrest]⟩ h

/-- The first occurrence of a character. -/
theorem find_singleton :
    find [c] l = some i ↔ ∃ a rest, l = a ++ c :: rest ∧ c ∉ a ∧ a.length = i := by
  constructor
  · intro h
    obtain ⟨⟨rest, hrest⟩, hlen, hfirst⟩ := find_eq_some h
    refine ⟨l.take i, rest, hrest, fun hmem => ?_, List.length_take_of_le hlen⟩
    obtain ⟨j, hj, hget⟩ := List.getElem_of_mem hmem
    have hji : j < i := Nat.lt_of_lt_of_le hj (List.length_take_le ..)
    refine hfirst j hji ?_
    rw [List.getElem_take] at hget
    rw [List.drop_eq_getElem_cons (Nat.lt_of_lt_of_le hji hlen), hget]
    exact ⟨_, rfl⟩
  · rintro ⟨a, rest, rfl, hmem, rfl⟩
    change find [c] (a ++ ([c] ++ rest)) = some a.length
    refine find_append fun j hj hprefix => hmem ?_
    have hlen : j < (a ++ ([c] ++ rest)).length := by
      rw [List.length_append]
      omega
    rw [List.drop_eq_getElem_cons hlen, List.getElem_append_left hj] at hprefix
    have hc : c = a[j] := (List.cons_prefix_cons.mp hprefix).1
    exact hc ▸ List.getElem_mem hj

end Find

/-! ## Parsers -/

section Parsers

variable {α : Type} [DecidableEq α]

/-- A fixed word. -/
def literal (word : List α) : Parser α Unit := fun l =>
  if word <+: l then some ((), l.drop word.length) else none

theorem literal_append (word rest : List α) : literal word (word ++ rest) = some ((), rest) := by
  simp [literal]

/-- What stands before a character, which is read too. -/
def upTo (c : α) : Parser α (List α)
  | [] => none
  | d :: l => if d = c then some ([], l) else (upTo c l).map (Prod.map (d :: ·) id)

theorem upTo_append {c : α} {a : List α} (h : c ∉ a) (rest : List α) :
    upTo c (a ++ c :: rest) = some (a, rest) := by
  induction a with
  | nil => simp [upTo]
  | cons d a ih =>
    obtain ⟨hd, ha⟩ := not_or.mp (mt List.mem_cons.mpr h)
    rw [List.cons_append, upTo, if_neg (Ne.symm hd), ih ha]
    rfl

/-- The pieces of a text that each end in a character; the last may lack it. -/
def pieces (c : α) : List α → List (List α)
  | [] => []
  | d :: l =>
    if d = c then [] :: pieces c l
    else
      match pieces c l with
      | [] => [[d]]
      | piece :: rest => (d :: piece) :: rest

theorem pieces_append {c : α} {a : List α} (h : c ∉ a) (rest : List α) :
    pieces c (a ++ c :: rest) = a :: pieces c rest := by
  induction a with
  | nil => simp [pieces]
  | cons d a ih =>
    obtain ⟨hd, ha⟩ := not_or.mp (mt List.mem_cons.mpr h)
    rw [List.cons_append, pieces, if_neg (Ne.symm hd), ih ha]

end Parsers

/-- A decimal number, and all digits that are there. -/
def decimal : Parser Char Nat := fun l =>
  if l.takeWhile Char.isDigit = [] then none
  else some (Nat.ofDigitChars 10 (l.takeWhile Char.isDigit) 0, l.dropWhile Char.isDigit)

/-- The text does not go on with a digit. -/
def NoDigit (rest : List Char) : Prop := ∀ c l, rest = c :: l → c.isDigit = false

theorem noDigit_nil : NoDigit [] := by
  rintro _ _ ⟨⟩

theorem noDigit_cons {c : Char} (h : c.isDigit = false) (l : List Char) : NoDigit (c :: l) := by
  rintro _ _ ⟨⟩
  exact h

theorem decimal_toDigits (n : Nat) {rest : List Char} (h : NoDigit rest) :
    decimal (Nat.toDigits 10 n ++ rest) = some (n, rest) := by
  have hdigits : ∀ c ∈ Nat.toDigits 10 n, c.isDigit = true := fun c hc =>
    Nat.isDigit_of_mem_toDigits (by decide) (by decide) hc
  have htake : rest.takeWhile Char.isDigit = [] := by
    cases rest with
    | nil => rfl
    | cons c l => simp [h c l rfl]
  have hdrop : rest.dropWhile Char.isDigit = rest := by
    cases rest with
    | nil => rfl
    | cons c l => simp [h c l rfl]
  unfold decimal
  rw [List.takeWhile_append_of_pos hdigits, List.dropWhile_append_of_pos hdigits, htake, hdrop,
    List.append_nil, if_neg Nat.toDigits_ne_nil, Nat.ofDigitChars_toDigits (by decide) (by decide)]

/-- No digit, no character that is not one. -/
theorem notMem_toDigits {c : Char} (h : c.isDigit = false) (n : Nat) : c ∉ Nat.toDigits 10 n := by
  intro hc
  have hdigit := Nat.isDigit_of_mem_toDigits (b := 10) (by decide) (by decide) hc
  rw [h] at hdigit
  exact Bool.false_ne_true hdigit

end HyperNet.Text
