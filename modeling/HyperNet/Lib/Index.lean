import Mathlib.Data.List.AList

/-!
# Tables of sets

An `Index` maps keys to sets of values and stores no empty set: a key is present exactly
when it has a member.  The two updates, `insert` and `erase`, keep this by construction,
and are known from outside by what they do to membership alone.
-/

namespace HyperNet

/-- A table from keys to nonempty sets of values. -/
structure Index (K V : Type) [DecidableEq K] where
  table : AList fun _ : K => List V
  nonempty : ∀ k l, table.lookup k = some l → l ≠ []
  nodup : ∀ k l, table.lookup k = some l → l.Nodup

namespace Index

variable {K V : Type} [DecidableEq K]

/-- The table without keys. -/
def empty : Index K V where
  table := ∅
  nonempty := fun k l h => by rw [AList.lookup_empty] at h; cases h
  nodup := fun k l h => by rw [AList.lookup_empty] at h; cases h

/-- The set of a key; the empty one if there is no entry. -/
def members (idx : Index K V) (k : K) : List V := (idx.table.lookup k).getD []

theorem members_nodup (idx : Index K V) (k : K) : (idx.members k).Nodup := by
  rw [members]
  cases h : idx.table.lookup k with
  | none => exact List.nodup_nil
  | some l => exact idx.nodup k l h

@[simp] theorem members_empty (k : K) : (empty : Index K V).members k = [] := rfl

/-- Replace the set of a key; an empty one takes the key out of the table. -/
def assign (idx : Index K V) (k : K) (l : List V) (hl : l.Nodup) : Index K V where
  table := if l = [] then idx.table.erase k else idx.table.insert k l
  nonempty := by
    intro k' l' h
    by_cases hk : k' = k
    · subst hk
      split at h
      case isTrue => rw [AList.lookup_erase] at h; cases h
      case isFalse hne => rw [AList.lookup_insert] at h; exact Option.some.inj h ▸ hne
    · apply idx.nonempty k' l'
      split at h
      exacts [AList.lookup_erase_ne hk ▸ h, AList.lookup_insert_ne hk ▸ h]
  nodup := by
    intro k' l' h
    by_cases hk : k' = k
    · subst hk
      split at h
      case isTrue => rw [AList.lookup_erase] at h; cases h
      case isFalse hne => rw [AList.lookup_insert] at h; exact Option.some.inj h ▸ hl
    · apply idx.nodup k' l'
      split at h
      exacts [AList.lookup_erase_ne hk ▸ h, AList.lookup_insert_ne hk ▸ h]

theorem members_assign_self {idx : Index K V} {k : K} {l : List V} {hl : l.Nodup} :
    (idx.assign k l hl).members k = l := by
  rw [members, assign]
  split
  case isTrue hnil => rw [AList.lookup_erase, hnil, Option.getD_none]
  case isFalse => rw [AList.lookup_insert, Option.getD_some]

theorem members_assign_ne {idx : Index K V} {k k' : K} {l : List V} {hl : l.Nodup} (h : k' ≠ k) :
    (idx.assign k l hl).members k' = idx.members k' := by
  rw [members, assign, members]
  split
  · rw [AList.lookup_erase_ne h]
  · rw [AList.lookup_insert_ne h]

variable [DecidableEq V]

/-- Add a value to the set of a key. -/
def insert (idx : Index K V) (k : K) (v : V) : Index K V :=
  idx.assign k ((idx.members k).insert v) (idx.members_nodup k).insert

/-- Take a value out of the set of a key, and the key out of the table with its last
value. -/
def erase (idx : Index K V) (k : K) (v : V) : Index K V :=
  idx.assign k ((idx.members k).erase v) ((idx.members_nodup k).erase v)

/-- Take a value out of the sets of several keys. -/
def eraseAll (idx : Index K V) (ks : List K) (v : V) : Index K V :=
  ks.foldl (fun idx k => idx.erase k v) idx

variable {idx : Index K V} {k k' : K} {v v' : V}

@[simp] theorem mem_insert :
    v' ∈ (idx.insert k v).members k' ↔ (k' = k ∧ v' = v) ∨ v' ∈ idx.members k' := by
  by_cases hk : k' = k
  · subst hk
    simp [insert, members_assign_self]
  · simp [insert, members_assign_ne hk, hk]

@[simp] theorem mem_erase :
    v' ∈ (idx.erase k v).members k' ↔ v' ∈ idx.members k' ∧ ¬ (k' = k ∧ v' = v) := by
  by_cases hk : k' = k
  · subst hk
    rw [erase, members_assign_self, (idx.members_nodup k').mem_erase_iff]
    tauto
  · simp [erase, members_assign_ne hk, hk]

@[simp] theorem mem_eraseAll {ks : List K} :
    v' ∈ (idx.eraseAll ks v).members k' ↔ v' ∈ idx.members k' ∧ ¬ (k' ∈ ks ∧ v' = v) := by
  induction ks generalizing idx with
  | nil => simp [eraseAll]
  | cons k ks ih =>
    rw [eraseAll, List.foldl_cons, ← eraseAll, ih, mem_erase, List.mem_cons]
    tauto

end Index

end HyperNet
