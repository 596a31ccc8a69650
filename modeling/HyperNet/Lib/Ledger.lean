import Mathlib.Data.List.Nodup
import Mathlib.Logic.Relation
import Mathlib.Tactic.Common

/-!
# Requests that are to be answered once

A component takes requests, each with an optional callback, files the open ones in a
table under keys of its own and answers a request by calling its callback.  `Ledger`
is what matters of such a component: the callbacks of the requests in the order they
came, so that a request is known by its number; the table; and the answers given.

`Ledger.Once` is the purpose of the component: a request with a callback is in the
table and unanswered, or out of the table and answered, once and through its own
callback.  `Ledger.Move` lists what a component may do to its ledger.  Two of the
moves, to strike a request off the table unanswered and to take one without filing
it, are harmless only for a request that has no callback; the parameter `lossy` is
the condition under which they happen to others.  A ledger that moves without loss
satisfies `Once`, and a loss is never made good.
-/

namespace HyperNet

structure Ledger (ι κ ρ : Type) where
  requests : List (Option κ) := []
  table : ι → Option (Nat × Option κ) := fun _ => none
  answers : List (Nat × κ × ρ) := []

namespace Ledger

variable {ι κ ρ : Type}

/-- Request `n` is in the table. -/
def Held (l : Ledger ι κ ρ) (n : Nat) : Prop := ∃ key cb, l.table key = some (n, cb)

/-- The answers to request `n`. -/
def answersTo (l : Ledger ι κ ρ) (n : Nat) : List (Nat × κ × ρ) := l.answers.filter (·.1 = n)

/-- Request `n` has been answered. -/
def Answered (l : Ledger ι κ ρ) (n : Nat) : Prop := n ∈ l.answers.map (·.1)

def Once (l : Ledger ι κ ρ) : Prop :=
  ∀ n cb, l.requests[n]? = some (some cb) →
    (l.Held n ∧ l.answersTo n = []) ∨ (¬ l.Held n ∧ ∃ r, l.answersTo n = [(n, cb, r)])

/-- Request `n` was given a callback that nobody will call. -/
structure Lost (l : Ledger ι κ ρ) (n : Nat) (cb : κ) : Prop where
  asked : l.requests[n]? = some (some cb)
  not_held : ¬ l.Held n
  not_answered : ¬ l.Answered n

/-! ## Moves -/

/-- A request comes. -/
def ask (l : Ledger ι κ ρ) (cb : Option κ) : Ledger ι κ ρ :=
  { l with requests := l.requests ++ [cb] }

/-- An answer is given. -/
def answer (l : Ledger ι κ ρ) (n : Nat) (cb : κ) (r : ρ) : Ledger ι κ ρ :=
  { l with answers := l.answers ++ [(n, cb, r)] }

section Table

variable [DecidableEq ι]

/-- A request is filed. -/
def file (l : Ledger ι κ ρ) (key : ι) (n : Nat) (cb : Option κ) : Ledger ι κ ρ :=
  { l with table := fun k => if k = key then some (n, cb) else l.table k }

/-- The request under a key is struck off. -/
def strike (l : Ledger ι κ ρ) (key : ι) : Ledger ι κ ρ :=
  { l with table := fun k => if k = key then none else l.table k }

inductive Move (lossy : Prop) : Ledger ι κ ρ → Ledger ι κ ρ → Prop
  /-- A new request is filed, … -/
  | file {l} (key : ι) (cb : Option κ) (h : l.table key = none) :
      Move lossy l ((l.ask cb).file key l.requests.length cb)
  /-- … answered at once … -/
  | refuse {l} (cb : κ) (r : ρ) :
      Move lossy l ((l.ask (some cb)).answer l.requests.length cb r)
  /-- … or neither. -/
  | ignore {l} (cb : Option κ) (h : cb.isSome → lossy) : Move lossy l (l.ask cb)
  /-- An open request is answered. -/
  | finish {l} {key : ι} {n : Nat} {cb : κ} (r : ρ) (h : l.table key = some (n, some cb)) :
      Move lossy l ((l.strike key).answer n cb r)
  | strike {l} {key : ι} {n : Nat} {cb : Option κ} (h : l.table key = some (n, cb))
      (hloss : cb.isSome → lossy) : Move lossy l (l.strike key)

/-- Any number of moves. -/
abbrev Path (lossy : Prop) : Ledger ι κ ρ → Ledger ι κ ρ → Prop :=
  Relation.ReflTransGen (Move lossy)

theorem Move.mono {p q : Prop} (hpq : p → q) {l l' : Ledger ι κ ρ} (h : Move p l l') :
    Move q l l' := by
  cases h with
  | file key cb h => exact .file key cb h
  | refuse cb r => exact .refuse cb r
  | ignore cb h => exact .ignore cb fun hcb => hpq (h hcb)
  | finish r h => exact .finish r h
  | strike h hloss => exact .strike h fun hcb => hpq (hloss hcb)

theorem Path.mono {p q : Prop} (hpq : p → q) {l l' : Ledger ι κ ρ} (h : Path p l l') :
    Path q l l' :=
  Relation.ReflTransGen.mono (fun _ _ => Move.mono hpq) _ _ h

end Table

/-! ## What every ledger satisfies -/

structure Sound (l : Ledger ι κ ρ) : Prop where
  /-- The table is right about the requests it holds, … -/
  filed : ∀ {key n cb}, l.table key = some (n, cb) → l.requests[n]? = some cb
  /-- … holds each only once … -/
  inj : ∀ {key key' n cb cb'}, l.table key = some (n, cb) → l.table key' = some (n, cb') →
    key = key'
  /-- … and none that was answered. -/
  unanswered : ∀ {key n cb}, l.table key = some (n, cb) → ¬ l.Answered n
  /-- An answer goes to the callback of its request, … -/
  answered : ∀ {n cb r}, (n, cb, r) ∈ l.answers → l.requests[n]? = some (some cb)
  /-- … and there is no second one. -/
  once : (l.answers.map (·.1)).Nodup

theorem sound_empty : ({} : Ledger ι κ ρ).Sound where
  filed h := nomatch h
  inj h := nomatch h
  unanswered h := nomatch h
  answered h := nomatch h
  once := List.nodup_nil

theorem answered_answer {l : Ledger ι κ ρ} {n m : Nat} {cb : κ} {r : ρ} :
    (l.answer n cb r).Answered m ↔ l.Answered m ∨ m = n := by
  simp only [Answered, answer, List.map_append, List.mem_append, List.map_cons, List.map_nil,
    List.mem_singleton]

theorem getElem?_ask {l : Ledger ι κ ρ} {n : Nat} {cb : Option κ} (cb' : Option κ)
    (h : l.requests[n]? = some cb) : (l.ask cb').requests[n]? = some cb := by
  rw [ask, List.getElem?_append_left (List.getElem?_eq_some_iff.1 h).1, h]

theorem getElem?_ask_length {l : Ledger ι κ ρ} (cb : Option κ) :
    (l.ask cb).requests[l.requests.length]? = some cb :=
  List.getElem?_concat_length

theorem of_getElem?_ask {l : Ledger ι κ ρ} {n : Nat} {cb cb' : Option κ}
    (h : (l.ask cb').requests[n]? = some cb) :
    l.requests[n]? = some cb ∨ (n = l.requests.length ∧ cb' = cb) := by
  rw [ask, List.getElem?_append] at h
  split at h
  · exact .inl h
  · rw [List.getElem?_singleton, Option.ite_none_right_eq_some] at h
    obtain ⟨hn, hcb⟩ := h
    exact .inr ⟨by omega, Option.some.inj hcb⟩

theorem answersTo_eq_nil {l : Ledger ι κ ρ} {n : Nat} (h : ¬ l.Answered n) :
    l.answersTo n = [] := by
  refine List.filter_eq_nil_iff.2 fun a ha hn => h ?_
  exact List.mem_map.2 ⟨a, ha, of_decide_eq_true hn⟩

namespace Sound

variable {l : Ledger ι κ ρ} (hl : l.Sound)
include hl

/-- The next number is not in use: it has no answer … -/
theorem not_answered : ¬ l.Answered l.requests.length := by
  intro hmem
  obtain ⟨⟨n, cb, r⟩, hmem, hn⟩ := List.mem_map.1 hmem
  have hlt := (List.getElem?_eq_some_iff.1 (hl.answered hmem)).1
  exact Nat.lt_irrefl _ (hn ▸ hlt)

/-- … and is not in the table. -/
theorem not_held : ¬ l.Held l.requests.length := by
  rintro ⟨key, cb, h⟩
  exact Nat.lt_irrefl _ (List.getElem?_eq_some_iff.1 (hl.filed h)).1

theorem ask (cb : Option κ) : (l.ask cb).Sound where
  __ := hl
  filed h := getElem?_ask cb (hl.filed h)
  answered h := getElem?_ask cb (hl.answered h)

theorem answer {n : Nat} {cb : κ} (r : ρ) (hcb : l.requests[n]? = some (some cb))
    (hheld : ¬ l.Held n) (hnew : ¬ l.Answered n) : (l.answer n cb r).Sound where
  __ := hl
  unanswered {key m cb'} h := by
    intro hm
    rcases answered_answer.1 hm with hm | rfl
    · exact hl.unanswered h hm
    · exact hheld ⟨key, cb', h⟩
  answered {m cb' r'} h := by
    rcases List.mem_append.1 h with h | h
    · exact hl.answered h
    · obtain ⟨rfl, rfl, rfl⟩ : m = n ∧ cb' = cb ∧ r' = r := by simpa using h
      exact hcb
  once := by
    rw [Ledger.answer, List.map_append]
    refine List.nodup_append.2 ⟨hl.once, List.nodup_singleton _, fun a ha b hb hab => hnew ?_⟩
    obtain rfl : b = n := List.mem_singleton.1 hb
    exact hab ▸ ha

theorem lost_ask (cb : κ) : (l.ask (some cb)).Lost l.requests.length cb :=
  ⟨getElem?_ask_length _, hl.not_held, hl.not_answered⟩

/-- No callback is called twice, losses or not. -/
theorem answersTo_length_le (n : Nat) : (l.answersTo n).length ≤ 1 := by
  have hnodup : ((l.answersTo n).map (·.1)).Nodup := hl.once.sublist (List.filter_sublist.map _)
  have hall : ∀ m ∈ (l.answersTo n).map (·.1), m = n := by
    intro m hm
    obtain ⟨a, ha, rfl⟩ := List.mem_map.1 hm
    exact of_decide_eq_true (List.mem_filter.1 ha).2
  have hrep := List.eq_replicate_of_mem hall
  rw [hrep, List.nodup_replicate, List.length_map] at hnodup
  exact hnodup

/-- A ledger keeps its promise if it has lost nothing. -/
theorem once_iff : l.Once ↔ ∀ n cb, ¬ l.Lost n cb := by
  constructor
  · rintro honce n cb ⟨hcb, hheld, hnew⟩
    rcases honce n cb hcb with ⟨h, -⟩ | ⟨-, r, h⟩
    · exact hheld h
    · rw [answersTo_eq_nil hnew] at h
      exact nomatch h
  · intro hlost n cb hcb
    by_cases hheld : l.Held n
    · obtain ⟨key, cb', h⟩ := hheld
      exact .inl ⟨⟨key, cb', h⟩, answersTo_eq_nil (hl.unanswered h)⟩
    · refine .inr ⟨hheld, ?_⟩
      have hans : l.Answered n := by
        by_contra hnew
        exact hlost n cb ⟨hcb, hheld, hnew⟩
      obtain ⟨⟨m, cb', r⟩, hmem, rfl⟩ := List.mem_map.1 hans
      obtain rfl : cb' = cb := by simpa [hl.answered hmem] using hcb
      have hin : (m, cb', r) ∈ l.answersTo m := List.mem_filter.2 ⟨hmem, decide_eq_true rfl⟩
      obtain ⟨a, ha⟩ := List.length_eq_one_iff.1
        (Nat.le_antisymm (hl.answersTo_length_le m) (List.length_pos_of_mem hin))
      rw [ha] at hin ⊢
      exact ⟨r, by rw [List.mem_singleton.1 hin]⟩

end Sound

/-! ## Moves keep ledgers sound, and losses are for good -/

section Moves

variable [DecidableEq ι] {l l' : Ledger ι κ ρ} {lossy : Prop}

theorem of_strike {key k : ι} {v : Nat × Option κ} (h : (l.strike key).table k = some v) :
    k ≠ key ∧ l.table k = some v := by
  simp only [strike] at h
  split at h
  · exact nomatch h
  · exact ⟨‹_›, h⟩

theorem of_file {key k : ι} {n m : Nat} {cb cb' : Option κ}
    (h : (l.file key n cb).table k = some (m, cb')) :
    (k = key ∧ m = n ∧ cb' = cb) ∨ l.table k = some (m, cb') := by
  simp only [file] at h
  split at h
  · obtain ⟨rfl, rfl⟩ := Prod.mk.inj (Option.some.inj h)
    exact .inl ⟨‹_›, rfl, rfl⟩
  · exact .inr h

theorem Sound.file (hl : l.Sound) (key : ι) {n : Nat} {cb : Option κ}
    (hcb : l.requests[n]? = some cb) (hheld : ¬ l.Held n) (hnew : ¬ l.Answered n) :
    (l.file key n cb).Sound where
  __ := hl
  filed h := by
    rcases of_file h with ⟨-, rfl, rfl⟩ | h
    · exact hcb
    · exact hl.filed h
  inj h h' := by
    rcases of_file h with ⟨hk, rfl, -⟩ | hold
    · rcases of_file h' with ⟨hk', -, -⟩ | hold'
      · exact hk.trans hk'.symm
      · exact absurd ⟨_, _, hold'⟩ hheld
    · rcases of_file h' with ⟨-, rfl, -⟩ | hold'
      · exact absurd ⟨_, _, hold⟩ hheld
      · exact hl.inj hold hold'
  unanswered h := by
    rcases of_file h with ⟨-, rfl, rfl⟩ | h
    · exact hnew
    · exact hl.unanswered h

theorem Sound.strike (hl : l.Sound) (key : ι) : (l.strike key).Sound where
  __ := hl
  filed h := hl.filed (of_strike h).2
  inj h h' := hl.inj (of_strike h).2 (of_strike h').2
  unanswered h := hl.unanswered (of_strike h).2

/-- What is struck off is off the table. -/
theorem Sound.not_held_strike (hl : l.Sound) {key : ι} {n : Nat} {cb : Option κ}
    (h : l.table key = some (n, cb)) : ¬ (l.strike key).Held n := by
  rintro ⟨k, cb', hk⟩
  obtain ⟨hne, hk⟩ := of_strike hk
  exact hne (hl.inj hk h)

theorem Sound.move (hl : l.Sound) (h : Move lossy l l') : l'.Sound := by
  cases h with
  | file key cb h =>
    exact (hl.ask cb).file key (getElem?_ask_length cb) hl.not_held hl.not_answered
  | refuse cb r =>
    exact (hl.ask _).answer r (getElem?_ask_length _) hl.not_held hl.not_answered
  | ignore cb h => exact hl.ask cb
  | finish r h =>
    exact (hl.strike _).answer r (hl.filed h) (hl.not_held_strike h) (hl.unanswered h)
  | strike h hloss => exact hl.strike _

theorem Sound.path (hl : l.Sound) (h : Path lossy l l') : l'.Sound := by
  induction h with
  | refl => exact hl
  | tail _ hmove ih => exact ih.move hmove

theorem Held.of_strike {key : ι} {n : Nat} (h : (l.strike key).Held n) : l.Held n := by
  obtain ⟨k, cb, h⟩ := h
  exact ⟨k, cb, (Ledger.of_strike h).2⟩

/-- Only the request under the key leaves the table. -/
theorem Held.strike {key : ι} {n : Nat} (h : l.Held n) :
    (l.strike key).Held n ∨ ∃ cb, l.table key = some (n, cb) := by
  obtain ⟨k, cb, h⟩ := h
  by_cases hk : k = key
  · exact .inr ⟨cb, hk ▸ h⟩
  · exact .inl ⟨k, cb, (if_neg hk).trans h⟩

/-- A move neither takes a lost request back into the table nor answers it. -/
theorem Lost.move {n : Nat} {cb : κ} (h : l.Lost n cb) (hmove : Move lossy l l') :
    l'.Lost n cb := by
  obtain ⟨hcb, hheld, hnew⟩ := h
  have hne : n ≠ l.requests.length :=
    Nat.ne_of_lt (List.getElem?_eq_some_iff.1 hcb).1
  cases hmove with
  | file key cb' h =>
    refine ⟨getElem?_ask cb' hcb, ?_, hnew⟩
    rintro ⟨k, cb'', hk⟩
    rcases of_file hk with ⟨-, hn, -⟩ | hk
    · exact hne hn
    · exact hheld ⟨k, cb'', hk⟩
  | refuse cb' r =>
    exact ⟨getElem?_ask _ hcb, hheld, fun h => (answered_answer.1 h).elim hnew hne⟩
  | ignore cb' h => exact ⟨getElem?_ask cb' hcb, hheld, hnew⟩
  | finish r h =>
    refine ⟨hcb, fun h => hheld h.of_strike, fun ha => ?_⟩
    rcases answered_answer.1 ha with ha | rfl
    · exact hnew ha
    · exact hheld ⟨_, _, h⟩
  | strike h hloss => exact ⟨hcb, fun h => hheld h.of_strike, hnew⟩

theorem Lost.path {n : Nat} {cb : κ} (h : l.Lost n cb) (hpath : Path lossy l l') :
    l'.Lost n cb := by
  induction hpath with
  | refl => exact h
  | tail _ hmove ih => exact ih.move hmove

/-- A request that is lost after a move without loss was lost before. -/
theorem Lost.of_move (hl : l.Sound) (hmove : Move False l l') {n : Nat} {cb : κ}
    (h : l'.Lost n cb) : l.Lost n cb := by
  obtain ⟨hcb, hheld, hnew⟩ := h
  cases hmove with
  | file key cb' h =>
    rcases of_getElem?_ask hcb with hcb | ⟨rfl, -⟩
    · refine ⟨hcb, fun ⟨k, cb'', hk⟩ => hheld ⟨k, cb'', ?_⟩, hnew⟩
      have hne : k ≠ key := by
        rintro rfl
        rw [h] at hk
        exact nomatch hk
      exact (if_neg hne).trans hk
    · exact absurd ⟨key, cb', if_pos rfl⟩ hheld
  | refuse cb' r =>
    rcases of_getElem?_ask hcb with hcb | ⟨rfl, -⟩
    · exact ⟨hcb, hheld, fun h => hnew (answered_answer.2 (.inl h))⟩
    · exact absurd (answered_answer.2 (.inr rfl)) hnew
  | ignore cb' h =>
    rcases of_getElem?_ask hcb with hcb | ⟨rfl, rfl⟩
    · exact ⟨hcb, hheld, hnew⟩
    · exact (h rfl).elim
  | finish r h =>
    refine ⟨hcb, fun hn => ?_, fun ha => hnew (answered_answer.2 (.inl ha))⟩
    rcases hn.strike with hn | ⟨cb'', hn⟩
    · exact hheld hn
    · obtain ⟨rfl, -⟩ := Prod.mk.inj (Option.some.inj (h.symm.trans hn))
      exact hnew (answered_answer.2 (.inr rfl))
  | strike h hloss =>
    refine ⟨hcb, fun hn => ?_, hnew⟩
    rcases hn.strike with hn | ⟨cb'', hn⟩
    · exact hheld hn
    · have hsome : cb'' = some cb := Option.some.inj ((hl.filed hn).symm.trans hcb)
      obtain ⟨-, rfl⟩ := Prod.mk.inj (Option.some.inj (hn.symm.trans h))
      exact hloss (by rw [hsome]; rfl)

/-- Moves without loss keep the promise. -/
theorem Sound.once_path (hl : l.Sound) (honce : l.Once) (h : Path False l l') : l'.Once := by
  rw [(hl.path h).once_iff]
  rw [hl.once_iff] at honce
  induction h with
  | refl => exact honce
  | tail hpath hmove ih => exact fun n cb hlost => ih n cb (hlost.of_move (hl.path hpath) hmove)

theorem Sound.lost_strike (hl : l.Sound) {key : ι} {n : Nat} {cb : κ}
    (h : l.table key = some (n, some cb)) : (l.strike key).Lost n cb :=
  ⟨hl.filed h, hl.not_held_strike h, hl.unanswered h⟩

end Moves

end Ledger

end HyperNet
