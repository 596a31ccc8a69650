import Mathlib.Algebra.Order.Ring.Nat
import Mathlib.Data.List.Basic
import Mathlib.Tactic.Common

/-!
# Windows of a circular memory

A memory is a list of cells.  `window mem p n` reads `n` cells from cell `p` on,
going on at cell `0` after the last one; `splice mem p d` overwrites the
contiguous cells from `p` on; `put mem p d` overwrites around the end.  As long
as a window is no longer than the memory it wraps at most once, so every lemma
below is stated with one-wrap arithmetic and no remainder.

The three facts a ring buffer needs are `take_window` (reading a shorter
prefix), `drop_window` (moving the start forward) and `window_put` (appending
behind a window whose free space suffices).
-/

universe u

namespace HyperNet.Circular

variable {α : Type u} {mem d : List α} {p : Nat}

/-- The `n` cells of `mem` from cell `p` on, read around the end. -/
def window (mem : List α) (p n : Nat) : List α := ((mem ++ mem).drop p).take n

/-- Overwrite the contiguous cells from `p` on by `d`. -/
def splice (mem : List α) (p : Nat) (d : List α) : List α :=
  mem.take p ++ d ++ mem.drop (p + d.length)

/-- Overwrite the cells from `p` on by `d`, going on at cell `0` after the last
cell. -/
def put (mem : List α) (p : Nat) (d : List α) : List α :=
  splice (splice mem p (d.take (mem.length - p))) 0 (d.drop (mem.length - p))

/-! ## Reading -/

/-- The cells a window shows. -/
theorem getElem?_window (mem : List α) (p n i : Nat) :
    (window mem p n)[i]? =
      if i < n then if p + i < mem.length then mem[p + i]? else mem[p + i - mem.length]?
      else none := by
  simp only [window, List.getElem?_take, List.getElem?_drop, List.getElem?_append]

@[simp] theorem window_zero (mem : List α) (p : Nat) : window mem p 0 = [] := by
  simp [window]

theorem length_window {mem : List α} {p n : Nat} (hp : p ≤ mem.length) (hn : n ≤ mem.length) :
    (window mem p n).length = n := by
  simp only [window, List.length_take, List.length_drop, List.length_append]
  omega

theorem take_window (mem : List α) (p : Nat) {m n : Nat} (h : m ≤ n) :
    (window mem p n).take m = window mem p m := by
  simp [window, List.take_take, Nat.min_eq_left h]

/-- Moving the start of a window forward by `m`, in the form an index update
`(p + m) % length` produces it. -/
theorem drop_window {mem : List α} {p m n : Nat} (hp : p < mem.length) (hm : m ≤ n)
    (hn : n ≤ mem.length) :
    (window mem p n).drop m = window mem ((p + m) % mem.length) (n - m) := by
  apply List.ext_getElem?
  intro i
  rw [List.getElem?_drop, getElem?_window, getElem?_window]
  by_cases hi : m + i < n
  · rw [if_pos hi, if_pos (show i < n - m by omega)]
    by_cases hw : p + m < mem.length
    · rw [Nat.mod_eq_of_lt hw]
      by_cases hwi : p + (m + i) < mem.length
      · rw [if_pos hwi, if_pos (by omega), Nat.add_assoc]
      · rw [if_neg hwi, if_neg (by omega), Nat.add_assoc]
    · have hmod : (p + m) % mem.length = p + m - mem.length := by
        rw [Nat.mod_eq_sub_mod (by omega), Nat.mod_eq_of_lt (by omega)]
      rw [hmod, if_neg (show ¬ p + (m + i) < mem.length by omega), if_pos (by omega)]
      congr 1
      omega
  · rw [if_neg hi, if_neg (by omega)]

/-- A window is its contiguous part up to the end of the memory, followed by the
part that wrapped. -/
theorem window_eq_append {mem : List α} (hp : p ≤ mem.length) (n : Nat) :
    window mem p n =
      (mem.drop p).take (min n (mem.length - p)) ++ mem.take (n - (mem.length - p)) := by
  rw [window, List.drop_append_of_le_length hp, List.take_append, List.length_drop]
  congr 1
  rw [List.take_eq_take_iff, List.length_drop]
  omega

/-! ## Writing -/

theorem length_splice (h : p + d.length ≤ mem.length) : (splice mem p d).length = mem.length := by
  simp only [splice, List.length_append, List.length_take, List.length_drop]
  omega

theorem getElem?_splice (h : p + d.length ≤ mem.length) (j : Nat) :
    (splice mem p d)[j]? =
      if j < p then mem[j]? else if j < p + d.length then d[j - p]? else mem[j]? := by
  have hp : min p mem.length = p := by omega
  simp only [splice, List.getElem?_append, List.length_append, List.length_take,
    List.getElem?_take, List.getElem?_drop, hp]
  by_cases h₁ : j < p
  · rw [if_pos (by omega), if_pos h₁, if_pos h₁, if_pos h₁]
  · by_cases h₂ : j < p + d.length
    · rw [if_pos h₂, if_neg h₁, if_neg h₁, if_pos h₂]
    · rw [if_neg h₂, if_neg h₁, if_neg h₂]
      congr 1
      omega

theorem length_put (hp : p ≤ mem.length) (hd : d.length ≤ mem.length) :
    (put mem p d).length = mem.length := by
  have h₁ : (splice mem p (d.take (mem.length - p))).length = mem.length :=
    length_splice (by rw [List.length_take]; omega)
  rw [put, length_splice (by rw [h₁, List.length_drop]; omega), h₁]

/-- What a cell holds after a wrapping write: the wrapped rest of `d` below, `d`
itself from `p` on, and the old cell elsewhere. -/
theorem getElem?_put (hp : p ≤ mem.length) (hd : d.length ≤ mem.length) (j : Nat)
    (hj : j < mem.length) :
    (put mem p d)[j]? =
      if j < d.length - (mem.length - p) then d[mem.length - p + j]?
      else if p ≤ j ∧ j < p + d.length then d[j - p]? else mem[j]? := by
  have hlt : (d.take (mem.length - p)).length = min (mem.length - p) d.length :=
    List.length_take
  have h₁ : (splice mem p (d.take (mem.length - p))).length = mem.length :=
    length_splice (by omega)
  rw [put, getElem?_splice (by rw [h₁, List.length_drop]; omega), if_neg (Nat.not_lt_zero j),
    List.length_drop, Nat.zero_add, Nat.sub_zero]
  by_cases hw : j < d.length - (mem.length - p)
  · rw [if_pos hw, if_pos hw, List.getElem?_drop]
  · rw [if_neg hw, if_neg hw, getElem?_splice (by omega), hlt]
    by_cases hjp : j < p
    · rw [if_pos hjp, if_neg (by omega)]
    · by_cases hjd : j < p + d.length
      · rw [if_neg hjp, if_pos (by omega), if_pos ⟨by omega, hjd⟩, List.getElem?_take,
          if_pos (by omega)]
      · rw [if_neg hjp, if_neg (by omega), if_neg (by omega)]

/-- A wrapping write behind a window appends to it, provided the free cells
suffice. -/
theorem window_put {h s : Nat} (hh : h < mem.length) (hfit : s + d.length ≤ mem.length) :
    window (put mem ((h + s) % mem.length) d) h (s + d.length) = window mem h s ++ d := by
  have hlt : (h + s) % mem.length < mem.length := Nat.mod_lt _ (by omega)
  have hlen : (put mem ((h + s) % mem.length) d).length = mem.length :=
    length_put (Nat.le_of_lt hlt) (by omega)
  have hwin : (window mem h s).length = s := length_window (Nat.le_of_lt hh) (by omega)
  apply List.ext_getElem?
  intro i
  rw [getElem?_window, hlen, List.getElem?_append, hwin]
  by_cases hi : i < s + d.length
  swap
  · rw [if_neg hi, if_neg (by omega), List.getElem?_eq_none (by omega)]
  rw [if_pos hi]
  -- the tail has wrapped or not; in both cases each index has one preimage
  have htail : (h + s) % mem.length = h + s ∧ h + s < mem.length ∨
      (h + s) % mem.length = h + s - mem.length ∧ mem.length ≤ h + s := by
    by_cases hw : h + s < mem.length
    · exact .inl ⟨Nat.mod_eq_of_lt hw, hw⟩
    · exact .inr ⟨by rw [Nat.mod_eq_sub_mod (by omega), Nat.mod_eq_of_lt (by omega)], by omega⟩
  generalize (h + s) % mem.length = p at *
  by_cases his : i < s
  · rw [if_pos his, getElem?_window, if_pos his]
    split <;> rw [getElem?_put (by omega) (by omega) _ (by omega), if_neg (by omega),
      if_neg (by omega)]
  · rw [if_neg his]
    by_cases hw : h + i < mem.length
    · rw [if_pos hw, getElem?_put (by omega) (by omega) _ hw, if_neg (by omega),
        if_pos ⟨by omega, by omega⟩]
      congr 1
      omega
    · rw [if_neg hw, getElem?_put (by omega) (by omega) _ (by omega)]
      rcases htail with ⟨hp, _⟩ | ⟨hp, _⟩
      · rw [if_pos (by omega)]
        congr 1
        omega
      · rw [if_neg (by omega), if_pos ⟨by omega, by omega⟩]
        congr 1
        omega

end HyperNet.Circular
