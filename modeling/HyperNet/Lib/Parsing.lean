import Mathlib.Data.List.Basic
import Mathlib.Logic.Equiv.Defs
import Mathlib.Tactic.Common

/-!
# Parsers and the readers that implement them

A `Parser` takes a value off the front of a list.  It is `Stable` if what it does not take makes no
difference to it.  A stable parser that reads an input to its end fails on every strict prefix of it
(`Stable.take_eq_none`).

A `Reader` works on a state with a position and reads by moving it.  It `Follows` a parser if it
returns the parser's value and stands before what the parser leaves, and it `Refuses` with a parser
if it fails where the parser does.  Parsers and readers are put together in the same ways, and all
three properties carry over to what is put together; so a reader of lists of items is proved correct
by a look at the reads of single items.

A `Format` is what a writer and a reader of values of one length agree on: what is written is read
back, and what is read is written again as it was, up to the items that are blanked.
-/

namespace HyperNet.Parsing

variable {α β γ τ R : Type}

abbrev Parser (β α : Type) := List β → Option (α × List β)

/-! ## Parsers -/

namespace Parser

/-- `n` items and a value computed from them. -/
def fixed (n : Nat) (load : List β → α) : Parser β α := fun l =>
  if l.length < n then none else some (load l, l.drop n)

protected def bind (p : Parser β α) (k : α → Parser β γ) : Parser β γ := fun l =>
  match p l with
  | none => none
  | some (a, l) => k a l

protected def map (f : α → γ) (p : Parser β α) : Parser β γ := fun l =>
  (p l).map (Prod.map f id)

/-- One item after the other. -/
def all (p : τ → Parser β α) : List τ → Parser β (List α)
  | [] => fun l => some ([], l)
  | t :: ts => (p t).bind fun a => (all p ts).map (a :: ·)

/-- What is not read makes no difference. -/
def Stable (p : Parser β α) : Prop :=
  ∀ l a rest, p l = some (a, rest) → ∀ more, p (l ++ more) = some (a, rest ++ more)

section Equations

variable {p : Parser β α} {k : α → Parser β γ} {l rest : List β} {a : α}

theorem fixed_of_le {n : Nat} {load : List β → α} (h : n ≤ l.length) :
    fixed n load l = some (load l, l.drop n) := if_neg (Nat.not_lt_of_le h)

theorem of_fixed {n : Nat} {load : List β → α} (h : fixed n load l = some (a, rest)) :
    n ≤ l.length ∧ load l = a ∧ l.drop n = rest := by
  unfold fixed at h
  split at h
  · cases h
  next hle =>
    cases h
    exact ⟨Nat.le_of_not_lt hle, rfl, rfl⟩

theorem lt_of_fixed {n : Nat} {load : List β → α} (h : fixed n load l = none) : l.length < n := by
  by_contra hle
  rw [fixed_of_le (Nat.le_of_not_lt hle)] at h
  cases h

theorem bind_some (h : p l = some (a, rest)) : p.bind k l = k a rest := by
  rw [Parser.bind, h]

theorem map_some (f : α → γ) (h : p l = some (a, rest)) : p.map f l = some (f a, rest) := by
  rw [Parser.map, h]
  rfl

theorem of_bind {c : γ} {last : List β} (h : p.bind k l = some (c, last)) :
    ∃ a rest, p l = some (a, rest) ∧ k a rest = some (c, last) := by
  rw [Parser.bind] at h
  split at h
  · cases h
  next a rest hp => exact ⟨a, rest, hp, h⟩

theorem of_map {f : α → γ} {c : γ} (h : p.map f l = some (c, rest)) :
    ∃ a, p l = some (a, rest) ∧ f a = c := by
  obtain ⟨⟨a, behind⟩, hp, hc⟩ := Option.map_eq_some_iff.mp h
  cases hc
  exact ⟨a, hp, rfl⟩

theorem of_map_none {f : α → γ} (h : p.map f l = none) : p l = none := Option.map_eq_none_iff.mp h

end Equations

section Stability

theorem stable_fixed {n : Nat} {load : List β → α}
    (hload : ∀ l more, n ≤ l.length → load (l ++ more) = load l) : Stable (fixed n load) := by
  intro l a rest h more
  obtain ⟨hle, rfl, rfl⟩ := of_fixed h
  rw [fixed_of_le (by rw [List.length_append]; exact Nat.le_add_right_of_le hle),
    hload l more hle, List.drop_append_of_le_length hle]

theorem Stable.bind {p : Parser β α} {k : α → Parser β γ} (hp : Stable p)
    (hk : ∀ a, Stable (k a)) : Stable (p.bind k) := by
  intro l c last h more
  obtain ⟨a, rest, hfirst, hnext⟩ := of_bind h
  rw [bind_some (hp l a rest hfirst more)]
  exact hk a rest c last hnext more

theorem Stable.map {f : α → γ} {p : Parser β α} (hp : Stable p) : Stable (p.map f) := by
  intro l c rest h more
  obtain ⟨a, hl, rfl⟩ := of_map h
  exact map_some f (hp l a rest hl more)

theorem stable_all {p : τ → Parser β α} (hp : ∀ t, Stable (p t)) (ts : List τ) :
    Stable (all p ts) := by
  induction ts with
  | nil =>
    rintro l _ _ ⟨⟩ more
    rfl
  | cons t ts ih => exact (hp t).bind fun _ => ih.map

/-- Truncated input is refused. -/
theorem Stable.take_eq_none {p : Parser β α} (hp : Stable p) {l : List β} {a : α}
    (h : p l = some (a, [])) {n : Nat} (hn : n < l.length) : p (l.take n) = none := by
  cases htaken : p (l.take n) with
  | none => rfl
  | some found =>
    obtain ⟨a', rest⟩ := found
    have hwhole := hp _ _ _ htaken (l.drop n)
    rw [List.take_append_drop, h] at hwhole
    have hnil : rest ++ l.drop n = [] := (congrArg Prod.snd (Option.some.inj hwhole)).symm
    have hdrop := (List.append_eq_nil_iff.mp hnil).2
    exact absurd (List.drop_eq_nil_iff.mp hdrop) (Nat.not_le_of_lt hn)

end Stability

/-- What writes each item so that it can be read writes lists so. -/
theorem all_of_each {p : τ → Parser β α} {type : α → τ} {bytes : α → List β}
    (h : ∀ a rest, p (type a) (bytes a ++ rest) = some (a, rest)) (as : List α) (rest : List β) :
    all p (as.map type) (as.flatMap bytes ++ rest) = some (as, rest) := by
  induction as with
  | nil => rfl
  | cons a as ih =>
    rw [List.map_cons, List.flatMap_cons, List.append_assoc, all, bind_some (h a _)]
    exact map_some _ ih

end Parser

/-! ## Readers -/

abbrev Reader (R α : Type) := R → Option α × R

namespace Reader

/-- A failed read leaves the state where it failed. -/
protected def bind (read : Reader R α) (k : α → Reader R γ) : Reader R γ := fun r =>
  match read r with
  | (none, r) => (none, r)
  | (some a, r) => k a r

protected def map (f : α → γ) (read : Reader R α) : Reader R γ := fun r =>
  Prod.map (Option.map f) id (read r)

/-- One item after the other, to the first that cannot be read. -/
def all (read : τ → Reader R α) : List τ → Reader R (List α)
  | [] => fun r => (some [], r)
  | t :: ts => (read t).bind fun a => (all read ts).map (a :: ·)

end Reader

section Readers

variable (rest : R → List β) (Good : R → Prop)

/-- The reader returns what the parser finds. -/
def Follows (read : Reader R α) (p : Parser β α) : Prop :=
  ∀ r a l, Good r → p (rest r) = some (a, l) →
    ∃ r', read r = (some a, r') ∧ rest r' = l ∧ Good r'

/-- The reader fails where the parser does. -/
def Refuses (read : Reader R α) (p : Parser β α) : Prop :=
  ∀ r, Good r → p (rest r) = none → (read r).1 = none

variable {rest Good}

theorem Follows.map {read : Reader R α} {p : Parser β α} (h : Follows rest Good read p)
    (f : α → γ) : Follows rest Good (read.map f) (p.map f) := by
  intro r c l hgood hp
  obtain ⟨a, hfound, rfl⟩ := Parser.of_map hp
  obtain ⟨r', hread, hrest⟩ := h r a l hgood hfound
  refine ⟨r', ?_, hrest⟩
  rw [Reader.map, hread]
  rfl

theorem Follows.bind {read : Reader R α} {p : Parser β α} (h : Follows rest Good read p)
    {reads : α → Reader R γ} {k : α → Parser β γ} (hk : ∀ a, Follows rest Good (reads a) (k a)) :
    Follows rest Good (read.bind reads) (p.bind k) := by
  intro r c last hgood hp
  obtain ⟨a, l, hfirst, hnext⟩ := Parser.of_bind hp
  obtain ⟨r₁, hread, rfl, hgood₁⟩ := h r a l hgood hfirst
  rw [Reader.bind, hread]
  exact hk a r₁ c last hgood₁ hnext

theorem Refuses.map {read : Reader R α} {p : Parser β α} (h : Refuses rest Good read p)
    (f : α → γ) : Refuses rest Good (read.map f) (p.map f) := by
  intro r hgood hp
  exact congrArg (Option.map f) (h r hgood (Parser.of_map_none hp))

theorem Refuses.bind {read : Reader R α} {p : Parser β α} (hnone : Refuses rest Good read p)
    (h : Follows rest Good read p) {reads : α → Reader R γ} {k : α → Parser β γ}
    (hk : ∀ a, Refuses rest Good (reads a) (k a)) :
    Refuses rest Good (read.bind reads) (p.bind k) := by
  intro r hgood hp
  cases hfirst : p (rest r) with
  | none =>
    have hread := hnone r hgood hfirst
    rw [Reader.bind]
    generalize read r = result at hread
    obtain ⟨value, r₁⟩ := result
    cases hread
    rfl
  | some found =>
    obtain ⟨a, l⟩ := found
    obtain ⟨r₁, hread, rfl, hgood₁⟩ := h r a l hgood hfirst
    rw [Parser.bind_some hfirst] at hp
    rw [Reader.bind, hread]
    exact hk a r₁ hgood₁ hp

variable {read : τ → Reader R α} {p : τ → Parser β α}

theorem follows_all (h : ∀ t, Follows rest Good (read t) (p t)) (ts : List τ) :
    Follows rest Good (Reader.all read ts) (Parser.all p ts) := by
  induction ts with
  | nil =>
    rintro r _ _ hgood ⟨⟩
    exact ⟨r, rfl, rfl, hgood⟩
  | cons t ts ih => exact (h t).bind fun a => ih.map (a :: ·)

theorem refuses_all (h : ∀ t, Follows rest Good (read t) (p t))
    (hnone : ∀ t, Refuses rest Good (read t) (p t)) (ts : List τ) :
    Refuses rest Good (Reader.all read ts) (Parser.all p ts) := by
  induction ts with
  | nil =>
    rintro r hgood ⟨⟩
  | cons t ts ih => exact (hnone t).bind (h t) fun a => ih.map (a :: ·)

end Readers

/-! ## Formats of one length -/

/-- How the values of a type are written with `length` items.  `blank` replaces the items that are
not looked at by those that are written in their place. -/
structure Format (β α : Type) where
  length : Nat
  bytes : α → List β
  load : List β → α
  blank : List β → List β
  length_bytes : ∀ a, (bytes a).length = length
  load_append : ∀ l more, l.length = length → load (l ++ more) = load l
  load_bytes : ∀ a, load (bytes a) = a
  bytes_load : ∀ l, l.length = length → bytes (load l) = blank l

namespace Format

variable (f : Format β α) (g : Format β γ)

theorem load_take {l : List β} (h : f.length ≤ l.length) :
    f.load (l.take f.length) = f.load l := by
  conv_rhs => rw [← List.take_append_drop f.length l]
  exact (f.load_append _ _ (List.length_take_of_le h)).symm

/-- Blanked items are not looked at. -/
theorem load_blank {l : List β} (h : l.length = f.length) : f.load (f.blank l) = f.load l := by
  rw [← f.bytes_load l h, f.load_bytes]

/-- One value behind the other. -/
def seq : Format β (α × γ) where
  length := f.length + g.length
  bytes p := f.bytes p.1 ++ g.bytes p.2
  load l := (f.load l, g.load (l.drop f.length))
  blank l := f.blank (l.take f.length) ++ g.blank (l.drop f.length)
  length_bytes p := by rw [List.length_append, f.length_bytes, g.length_bytes]
  load_append l more h := by
    have hle : f.length ≤ l.length := h ▸ Nat.le_add_right _ _
    have hfirst : f.load (l ++ more) = f.load l := by
      rw [← f.load_take hle, ← f.load_take (Nat.le_trans hle (by simp)),
        List.take_append_of_le_length hle]
    rw [hfirst, List.drop_append_of_le_length hle, g.load_append _ _ (by simp [h])]
  load_bytes p := by
    rw [f.load_append _ _ (f.length_bytes p.1), f.load_bytes, ← f.length_bytes p.1, List.drop_left,
      g.load_bytes]
  bytes_load l h := by
    have hle : f.length ≤ l.length := h ▸ Nat.le_add_right _ _
    rw [← f.bytes_load _ (List.length_take_of_le hle), f.load_take hle,
      g.bytes_load _ (by simp [h])]

/-- Items that are not looked at. -/
def pad (zeros : List β) : Format β Unit where
  length := zeros.length
  bytes _ := zeros
  load _ := ()
  blank _ := zeros
  length_bytes _ := rfl
  load_append _ _ _ := rfl
  load_bytes _ := rfl
  bytes_load _ _ := rfl

protected def map (e : α ≃ γ) : Format β γ where
  length := f.length
  bytes c := f.bytes (e.symm c)
  load l := e (f.load l)
  blank := f.blank
  length_bytes c := f.length_bytes _
  load_append l more h := congrArg e (f.load_append l more h)
  load_bytes c := by rw [f.load_bytes, Equiv.apply_symm_apply]
  bytes_load l h := by rw [Equiv.symm_apply_apply, f.bytes_load l h]

end Format

end HyperNet.Parsing
