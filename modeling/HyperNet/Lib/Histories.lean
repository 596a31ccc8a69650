import Mathlib.Data.List.Nodup
import Mathlib.Data.List.Perm.Basic
import Mathlib.Tactic.Common

/-!
# Items and what has happened to them

A system passes items from place to place and keeps a log.  Each event of the log is about one
item, its `key`.  The `entries` of a state list the items by their places, each with the events that
an item at that place is to have behind it.

`Histories` says that every item is at one place, and that the log has of it what the place says.
It does not depend on the order of the entries.  So a system has to show of a step only which entry
it changes: an item comes in with no event behind it, or one event is logged of one item.
-/

namespace HyperNet

variable {ι ε : Type} [DecidableEq ι]

structure Histories (key : ε → ι) (items : List ι) (log : List ε)
    (entries : List (ι × List ε)) : Prop where
  nodup : items.Nodup
  keys : (entries.map Prod.fst).Perm items
  history : ∀ entry ∈ entries, log.filter (key · = entry.1) = entry.2
  known : ∀ e ∈ log, key e ∈ items

namespace Histories

variable {key : ε → ι} {items : List ι} {log : List ε} {entries entries' : List (ι × List ε)}

theorem empty : Histories key [] [] [] where
  nodup := List.nodup_nil
  keys := List.Perm.refl _
  history := by simp
  known := by simp

theorem perm (h : Histories key items log entries) (hperm : entries.Perm entries') :
    Histories key items log entries' where
  nodup := h.nodup
  keys := (hperm.map _).symm.trans h.keys
  history := fun entry hentry => h.history entry (hperm.mem_iff.2 hentry)
  known := h.known

/-- Every item has an entry. -/
theorem exists_entry (h : Histories key items log entries) {i : ι} (hi : i ∈ items) :
    (i, log.filter (key · = i)) ∈ entries := by
  obtain ⟨⟨i, es⟩, hentry, rfl⟩ := List.mem_map.1 (h.keys.mem_iff.2 hi)
  rw [h.history _ hentry]
  exact hentry

/-- A new item comes in. -/
theorem enter (h : Histories key items log entries) {i : ι} (hi : i ∉ items) :
    Histories key (items ++ [i]) log ((i, []) :: entries) where
  nodup := by
    rw [List.nodup_append_comm]
    exact List.nodup_cons.2 ⟨hi, h.nodup⟩
  keys := (h.keys.cons i).trans (List.perm_append_singleton i items).symm
  history := by
    intro entry hentry
    rcases List.mem_cons.1 hentry with rfl | hentry
    · rw [List.filter_eq_nil_iff]
      intro e he hkey
      have hkey : key e = i := of_decide_eq_true hkey
      exact hi (hkey ▸ h.known e he)
    · exact h.history entry hentry
  known := fun e he => List.mem_append_left _ (h.known e he)

/-- An event is logged of an item. -/
theorem record {e : ε} {es : List ε} (h : Histories key items log ((key e, es) :: entries)) :
    Histories key items (log ++ [e]) ((key e, es ++ [e]) :: entries) where
  __ := h
  history := by
    intro entry hentry
    rw [List.filter_append]
    rcases List.mem_cons.1 hentry with rfl | hentry
    · simp [h.history (key e, es) List.mem_cons_self]
    · -- The other entries are about other items.
      have hother : key e ≠ entry.1 := by
        have hkeys := h.keys.nodup_iff.2 h.nodup
        rw [List.map_cons, List.nodup_cons] at hkeys
        intro heq
        exact hkeys.1 (List.mem_map.2 ⟨entry, hentry, heq.symm⟩)
      simp [hother, h.history entry (List.mem_cons_of_mem _ hentry)]
  known := by
    intro e' he'
    rcases List.mem_append.1 he' with he' | he'
    · exact h.known e' he'
    · rw [List.mem_singleton.1 he']
      exact h.keys.mem_iff.1 List.mem_cons_self

end Histories

end HyperNet
