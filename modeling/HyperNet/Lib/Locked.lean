import Mathlib.Logic.Function.Basic
import HyperNet.Lib.Reentrant

/-!
# Objects under a spin lock

Threads call the operations of an object.  Each operation takes a test-and-set lock, works on the
object's memory one access at a time, clears the lock and returns.  Between any two of these steps
other threads may take theirs; `Locked.run` is any such interleaving.

`Atomic.run` is what callers would like to have instead: the same calls and returns, with the whole
operation done in one step somewhere between the two.  The two systems cannot be told apart by their
callers (`run_simulates`), if each operation does alone what it is meant to do
(`Object.implements`).  That the accesses of two operations do not mix is a consequence and not
an assumption.

The memory is read through `Rep`, which need not hold while an operation is under way.
-/

namespace HyperNet

/-- An operation under way, run by itself: its accesses one after the other, at most `n` of them. -/
def Locked.alone {σ κ ρ : Type} (access : σ → κ → σ × (κ ⊕ ρ)) : Nat → σ → κ → Option (σ × ρ)
  | 0, _, _ => none
  | n + 1, m, k =>
    match access m k with
    | (m', .inl k') => alone access n m' k'
    | (m', .inr r) => some (m', r)

/-- The code of an object's operations and what they are to do.  `κ` is where an operation is in
its code, with its local variables. -/
structure Locked.Object (σ α ι κ ρ : Type) where
  enter : ι → κ
  access : σ → κ → σ × (κ ⊕ ρ)
  memory : σ
  /-- What an operation does to the abstract object, and what it returns. -/
  apply : ι → α → α × ρ
  initial : α
  Rep : α → σ → Prop
  rep_initial : Rep initial memory
  /-- How many accesses an operation makes at most. -/
  accesses : Nat
  implements : ∀ {a : α} {m : σ} (i : ι), Rep a m →
    ∃ m', Locked.alone access accesses m (enter i) = some (m', (apply i a).2) ∧
      Rep (apply i a).1 m'

namespace Locked

variable {τ σ α ι κ ρ : Type} [DecidableEq τ]

/-- Where a thread is. -/
inductive Place (ι κ ρ : Type) where
  | outside
  /-- In the loop that tests and sets the flag. -/
  | spinning (i : ι)
  | inside (i : ι) (k : κ)
  /-- Done with the memory, and about to clear the flag. -/
  | leaving (i : ι) (r : ρ)
  | returning (i : ι) (r : ρ)
deriving DecidableEq, Repr

/-- What callers see. -/
inductive Event (τ ι ρ : Type) where
  | call (t : τ) (i : ι)
  | ret (t : τ) (i : ι) (r : ρ)
deriving DecidableEq, Repr

inductive Move (τ ι : Type) where
  | call (t : τ) (i : ι)
  /-- The thread takes its next step, if it is in an operation. -/
  | goOn (t : τ)
deriving DecidableEq, Repr

/-- The threads, the lock and the memory.  `log` has the operations in the order in which they have
given the lock back. -/
structure Sys (τ σ ι κ ρ : Type) where
  flag : Bool := false
  memory : σ
  place : τ → Place ι κ ρ := fun _ => .outside
  history : List (Event τ ι ρ) := []
  log : List (τ × ι × ρ) := []

namespace Sys

def setPlace (s : Sys τ σ ι κ ρ) (t : τ) (p : Place ι κ ρ) : Sys τ σ ι κ ρ :=
  { s with place := Function.update s.place t p }

variable (O : Object σ α ι κ ρ)

def start : Sys τ σ ι κ ρ := { memory := O.memory }

def call (s : Sys τ σ ι κ ρ) (t : τ) (i : ι) : Sys τ σ ι κ ρ :=
  match s.place t with
  | .outside => { s.setPlace t (.spinning i) with history := s.history ++ [.call t i] }
  | _ => s

/-- One access to the memory. -/
def accessed (s : Sys τ σ ι κ ρ) (t : τ) (i : ι) (k : κ) : Sys τ σ ι κ ρ :=
  match O.access s.memory k with
  | (m, .inl k') => { s.setPlace t (.inside i k') with memory := m }
  | (m, .inr r) => { s.setPlace t (.leaving i r) with memory := m }

def goOn (s : Sys τ σ ι κ ρ) (t : τ) : Sys τ σ ι κ ρ :=
  match s.place t with
  | .outside => s
  | .spinning i =>
    if s.flag = true then s else { s.setPlace t (.inside i (O.enter i)) with flag := true }
  | .inside i k => s.accessed O t i k
  | .leaving i r =>
    { s.setPlace t (.returning i r) with flag := false, log := s.log ++ [(t, i, r)] }
  | .returning i r => { s.setPlace t .outside with history := s.history ++ [.ret t i r] }

def step (s : Sys τ σ ι κ ρ) : Move τ ι → Sys τ σ ι κ ρ
  | .call t i => s.call t i
  | .goOn t => s.goOn O t

end Sys

def run (O : Object σ α ι κ ρ) (moves : List (Move τ ι)) : Sys τ σ ι κ ρ :=
  moves.foldl (Sys.step O) (.start O)

/-! ## The atomic object -/

/-- Where a caller of the atomic object is. -/
inductive Turn (ι ρ : Type) where
  | outside
  | called (i : ι)
  | served (i : ι) (r : ρ)
deriving DecidableEq, Repr

structure Atomic (τ α ι ρ : Type) where
  state : α
  turn : τ → Turn ι ρ := fun _ => .outside
  history : List (Event τ ι ρ) := []
  log : List (τ × ι × ρ) := []

namespace Atomic

variable (O : Object σ α ι κ ρ)

def setTurn (a : Atomic τ α ι ρ) (t : τ) (p : Turn ι ρ) : Atomic τ α ι ρ :=
  { a with turn := Function.update a.turn t p }

def start : Atomic τ α ι ρ := { state := O.initial }

def call (a : Atomic τ α ι ρ) (t : τ) (i : ι) : Atomic τ α ι ρ :=
  match a.turn t with
  | .outside => { a.setTurn t (.called i) with history := a.history ++ [.call t i] }
  | _ => a

/-- The operation of a thread, done at once. -/
def serve (a : Atomic τ α ι ρ) (t : τ) (i : ι) : Atomic τ α ι ρ :=
  { a.setTurn t (.served i (O.apply i a.state).2) with
    state := (O.apply i a.state).1, log := a.log ++ [(t, i, (O.apply i a.state).2)] }

def goOn (a : Atomic τ α ι ρ) (t : τ) : Atomic τ α ι ρ :=
  match a.turn t with
  | .outside => a
  | .called i => a.serve O t i
  | .served i r => { a.setTurn t .outside with history := a.history ++ [.ret t i r] }

def step (a : Atomic τ α ι ρ) : Move τ ι → Atomic τ α ι ρ
  | .call t i => a.call t i
  | .goOn t => a.goOn O t

def run (moves : List (Move τ ι)) : Atomic τ α ι ρ := moves.foldl (step O) (start O)

end Atomic

/-! ## The lock -/

/-- Between taking the lock and giving it back. -/
def Place.Holds : Place ι κ ρ → Prop
  | .inside _ _ | .leaving _ _ => True
  | .outside | .spinning _ | .returning _ _ => False

/-- What a caller of the atomic object would be waiting for. -/
def Place.turn : Place ι κ ρ → Turn ι ρ
  | .outside => .outside
  | .spinning i | .inside i _ | .leaving i _ => .called i
  | .returning i r => .served i r

/-- The flag is set while some thread is between taking and clearing it, and for no two at once. -/
structure Sys.Exclusive (s : Sys τ σ ι κ ρ) : Prop where
  held_iff : s.flag = true ↔ ∃ t, (s.place t).Holds
  unique : ∀ {t u}, (s.place t).Holds → (s.place u).Holds → t = u

namespace Sys.Exclusive

variable {s : Sys τ σ ι κ ρ} {O : Object σ α ι κ ρ} {t : τ} {p : Place ι κ ρ}

omit [DecidableEq τ] in
theorem start : (Sys.start O : Sys τ σ ι κ ρ).Exclusive where
  held_iff := iff_of_false Bool.false_ne_true fun ⟨_, h⟩ => h
  unique := fun h => h.elim

omit [DecidableEq τ] in
theorem flag_of_none (h : s.Exclusive) (hnone : ∀ t, ¬ (s.place t).Holds) : s.flag = false := by
  rw [Bool.eq_false_iff]
  intro hflag
  obtain ⟨t, ht⟩ := h.held_iff.mp hflag
  exact hnone t ht

theorem holds_setPlace {u : τ} :
    ((s.setPlace t p).place u).Holds ↔ if u = t then p.Holds else (s.place u).Holds := by
  by_cases h : u = t
  · subst h
    simp [Sys.setPlace]
  · simp [Sys.setPlace, h]

/-- A thread that goes on within the operation, or outside of the lock. -/
theorem move (h : s.Exclusive) (hp : p.Holds ↔ (s.place t).Holds) : (s.setPlace t p).Exclusive := by
  have hsame : ∀ u, ((s.setPlace t p).place u).Holds ↔ (s.place u).Holds := by
    intro u
    rw [holds_setPlace]
    split
    · rename_i hu
      rw [hp, hu]
    · rfl
  exact
    { held_iff := h.held_iff.trans (exists_congr fun u => (hsame u).symm)
      unique := fun ht hu => h.unique ((hsame _).mp ht) ((hsame _).mp hu) }

theorem take (h : s.Exclusive) (hfree : s.flag = false) (hp : p.Holds) :
    Exclusive { s.setPlace t p with flag := true } := by
  have hnone : ∀ u, ¬ (s.place u).Holds := fun u hu => by
    have := h.held_iff.mpr ⟨u, hu⟩
    rw [hfree] at this
    exact Bool.false_ne_true this
  have honly : ∀ {u}, ((s.setPlace t p).place u).Holds → u = t := by
    intro u hu
    by_contra hne
    rw [holds_setPlace, if_neg hne] at hu
    exact hnone u hu
  exact
    { held_iff := iff_of_true rfl ⟨t, holds_setPlace.mpr (by rwa [if_pos rfl])⟩
      unique := fun ht hu => (honly ht).trans (honly hu).symm }

theorem giveBack (h : s.Exclusive) (ht : (s.place t).Holds) (hp : ¬ p.Holds)
    {log : List (τ × ι × ρ)} : Exclusive { s.setPlace t p with flag := false, log := log } := by
  have hnone : ∀ u, ¬ ((s.setPlace t p).place u).Holds := by
    intro u hu
    rw [holds_setPlace] at hu
    split at hu
    · exact hp hu
    · rename_i hne
      exact hne (h.unique hu ht)
  exact
    { held_iff := iff_of_false Bool.false_ne_true fun ⟨u, hu⟩ => hnone u hu
      unique := fun ht => (hnone _ ht).elim }

omit [DecidableEq τ] in
/-- What is not the flag or a thread's place does not matter. -/
theorem congr {s' : Sys τ σ ι κ ρ} (h : s.Exclusive) (hflag : s'.flag = s.flag)
    (hplace : s'.place = s.place) : s'.Exclusive where
  held_iff := by
    rw [hflag, hplace]
    exact h.held_iff
  unique := by
    rw [hplace]
    exact h.unique

end Sys.Exclusive

/-! ## Simulation -/

/-- What is left of the operation of a thread at a place will do to the memory what is still to be
done to the abstract object. -/
def Object.Midway (O : Object σ α ι κ ρ) (a : α) (m : σ) : Place ι κ ρ → Prop
  | .inside i k => ∃ n ≤ O.accesses, ∃ m', alone O.access n m k = some (m', (O.apply i a).2) ∧
      O.Rep (O.apply i a).1 m'
  | .leaving i r => r = (O.apply i a).2 ∧ O.Rep (O.apply i a).1 m
  | .outside | .spinning _ | .returning _ _ => True

structure Simulates (O : Object σ α ι κ ρ) (s : Sys τ σ ι κ ρ) (a : Atomic τ α ι ρ) : Prop where
  exclusive : s.Exclusive
  history : a.history = s.history
  log : a.log = s.log
  turn : ∀ t, a.turn t = (s.place t).turn
  free : s.flag = false → O.Rep a.state s.memory
  midway : ∀ t, O.Midway a.state s.memory (s.place t)

section

variable {O : Object σ α ι κ ρ} {s : Sys τ σ ι κ ρ} {a : Atomic τ α ι ρ} {t : τ} {p : Place ι κ ρ}

theorem turn_setPlace (h : ∀ u, a.turn u = (s.place u).turn) (u : τ) :
    (a.setTurn t p.turn).turn u = ((s.setPlace t p).place u).turn := by
  by_cases hu : u = t
  · subst hu
    simp [Atomic.setTurn, Sys.setPlace]
  · simp [Atomic.setTurn, Sys.setPlace, hu, h u]

/-- The atomic object does not see a step that leaves what the caller waits for as it is. -/
theorem turn_setPlace_of_eq (h : ∀ u, a.turn u = (s.place u).turn) (hp : p.turn = (s.place t).turn)
    (u : τ) : a.turn u = ((s.setPlace t p).place u).turn := by
  by_cases hu : u = t
  · subst hu
    simp [Sys.setPlace, hp, h u]
  · simp [Sys.setPlace, hu, h u]

/-- Only the thread that holds the lock has something to finish. -/
theorem midway_setPlace {state : α} {m : σ} (hothers : ∀ u, u ≠ t → ¬ (s.place u).Holds)
    (hp : O.Midway state m p) (u : τ) : O.Midway state m ((s.setPlace t p).place u) := by
  by_cases hu : u = t
  · subst hu
    simpa [Sys.setPlace] using hp
  · have hother := hothers u hu
    simp only [Sys.setPlace, Function.update_of_ne hu]
    cases hplace : s.place u with
    | outside | spinning i | returning i r => trivial
    | inside i k | leaving i r =>
      rw [hplace] at hother
      exact absurd trivial hother

theorem midway_setPlace_of_trivial {state : α} {m : σ} (h : ∀ u, O.Midway state m (s.place u))
    (hp : O.Midway state m p) (u : τ) : O.Midway state m ((s.setPlace t p).place u) := by
  by_cases hu : u = t
  · subst hu
    simpa [Sys.setPlace] using hp
  · simpa [Sys.setPlace, hu] using h u

namespace Simulates

omit [DecidableEq τ] in
theorem start : Simulates O (Sys.start O : Sys τ σ ι κ ρ) (.start O) where
  exclusive := .start
  history := rfl
  log := rfl
  turn := fun _ => rfl
  free := fun _ => O.rep_initial
  midway := fun _ => trivial

omit [DecidableEq τ] in
theorem others (h : Simulates O s a) (ht : (s.place t).Holds) (u : τ) (hu : u ≠ t) :
    ¬ (s.place u).Holds := fun hholds => hu (h.exclusive.unique hholds ht)

theorem call (h : Simulates O s a) {i : ι} : Simulates O (s.call t i) (a.call t i) := by
  have hturn := h.turn t
  cases hplace : s.place t with
  | outside =>
    rw [hplace] at hturn
    simp only [Sys.call, Atomic.call, hplace, hturn, Place.turn]
    exact
      { exclusive := (h.exclusive.move (p := .spinning i) (by rw [hplace]; rfl)).congr rfl rfl
        history := by rw [h.history]
        log := h.log
        turn := turn_setPlace (p := .spinning i) h.turn
        free := h.free
        midway := midway_setPlace_of_trivial (p := .spinning i) h.midway trivial }
  | spinning j | inside j k | leaving j r | returning j r =>
    rw [hplace] at hturn
    simpa only [Sys.call, Atomic.call, hplace, hturn, Place.turn] using h

/-- The thread finds the flag clear and sets it. -/
theorem take (h : Simulates O s a) {i : ι} (hplace : s.place t = .spinning i)
    (hfree : s.flag = false) :
    Simulates O { s.setPlace t (.inside i (O.enter i)) with flag := true } a where
  __ := h
  exclusive := h.exclusive.take hfree trivial
  turn := turn_setPlace_of_eq h.turn (by rw [hplace]; rfl)
  free := fun hflag => Bool.noConfusion hflag
  midway := by
    obtain ⟨m', halone, hrep⟩ := O.implements i (h.free hfree)
    exact midway_setPlace_of_trivial h.midway ⟨O.accesses, Nat.le_refl _, m', halone, hrep⟩

/-- The thread that holds the lock makes an access. -/
theorem accessed (h : Simulates O s a) {i : ι} {k : κ} (hplace : s.place t = .inside i k) :
    Simulates O (s.accessed O t i k) a := by
  have hholds : (s.place t).Holds := by
    rw [hplace]
    trivial
  have hflag : s.flag = true := h.exclusive.held_iff.mpr ⟨t, hholds⟩
  have hmidway := h.midway t
  rw [hplace] at hmidway
  obtain ⟨n, hn, m', halone, hrep⟩ := hmidway
  obtain _ | n := n
  · cases halone
  have hsim : ∀ {m : σ} {p : Place ι κ ρ}, p.Holds → p.turn = .called i →
      O.Midway a.state m p → Simulates O { s.setPlace t p with memory := m } a := by
    intro m p hp hturn hmid
    exact
      { exclusive := (h.exclusive.move (iff_of_true hp hholds)).congr rfl rfl
        __ := h
        turn := turn_setPlace_of_eq h.turn (by rw [hturn, hplace]; rfl)
        free := fun hclear => absurd (hflag.symm.trans hclear) (by decide)
        midway := midway_setPlace (h.others hholds) hmid }
  unfold Sys.accessed
  unfold alone at halone
  match haccess : O.access s.memory k with
  | (m, .inl k') =>
    rw [haccess] at halone
    exact hsim trivial rfl ⟨n, Nat.le_of_succ_le hn, m', halone, hrep⟩
  | (m, .inr r) =>
    rw [haccess] at halone
    cases halone
    exact hsim trivial rfl ⟨rfl, hrep⟩

/-- The thread gives the lock back, and this is when its operation takes effect. -/
theorem giveBack (h : Simulates O s a) {i : ι} {r : ρ} (hplace : s.place t = .leaving i r) :
    Simulates O
      { s.setPlace t (.returning i r) with flag := false, log := s.log ++ [(t, i, r)] }
      (a.serve O t i) := by
  have hholds : (s.place t).Holds := by
    rw [hplace]
    trivial
  have hmidway := h.midway t
  rw [hplace] at hmidway
  obtain ⟨rfl, hrep⟩ := hmidway
  exact
    { exclusive := h.exclusive.giveBack (p := .returning i _) hholds fun hp => hp
      history := h.history
      log := by
        rw [← h.log]
        rfl
      turn := turn_setPlace (p := .returning i _) h.turn
      free := fun _ => hrep
      midway := midway_setPlace (h.others hholds) trivial }

theorem returned (h : Simulates O s a) {i : ι} {r : ρ} (hplace : s.place t = .returning i r) :
    Simulates O { s.setPlace t .outside with history := s.history ++ [.ret t i r] }
      { a.setTurn t .outside with history := a.history ++ [.ret t i r] } where
  exclusive := (h.exclusive.move (p := .outside) (by rw [hplace]; rfl)).congr rfl rfl
  history := by rw [h.history]
  log := h.log
  turn := turn_setPlace (p := .outside) h.turn
  free := h.free
  midway := midway_setPlace_of_trivial (p := .outside) h.midway trivial

/-- A step of the threads is one step of the atomic object, or none. -/
theorem step (h : Simulates O s a) (move : Move τ ι) :
    Simulates O (s.step O move) a ∨ Simulates O (s.step O move) (a.step O move) := by
  cases move with
  | call t i => exact .inr h.call
  | goOn t =>
    have hturn := h.turn t
    simp only [Sys.step, Atomic.step, Sys.goOn, Atomic.goOn, hturn]
    cases hplace : s.place t with
    | outside => exact .inl h
    | spinning i =>
      refine .inl ?_
      cases hflag : s.flag with
      | true => simpa [hflag] using h
      | false => simpa [hflag] using h.take hplace hflag
    | inside i k => exact .inl (h.accessed hplace)
    | leaving i r => exact .inr (h.giveBack hplace)
    | returning i r => exact .inr (h.returned hplace)

end Simulates

/-- Every run of the threads is one of the atomic object as its callers see it. -/
theorem run_simulates (O : Object σ α ι κ ρ) (moves : List (Move τ ι)) :
    ∃ moves' : List (Move τ ι), Simulates O (run O moves) (Atomic.run O moves') := by
  refine Reentrant.foldl_invariant
    (I := fun s : Sys τ σ ι κ ρ => ∃ moves', Simulates O s (Atomic.run O moves')) ?_ _
    ⟨[], .start⟩ moves
  rintro s move ⟨moves', h⟩
  rcases h.step move with h | h
  · exact ⟨moves', h⟩
  · refine ⟨moves' ++ [move], ?_⟩
    rw [Atomic.run, List.foldl_append]
    exact h

end

/-! ## Progress -/

/-- The state after a thread has taken some steps while the others wait. -/
def Sys.goOnFor (O : Object σ α ι κ ρ) (s : Sys τ σ ι κ ρ) (t : τ) (n : Nat) : Sys τ σ ι κ ρ :=
  (List.replicate n (Move.goOn t)).foldl (Sys.step O) s

section

variable {O : Object σ α ι κ ρ} {s : Sys τ σ ι κ ρ} {t : τ}

theorem Sys.goOnFor_succ (n : Nat) : s.goOnFor O t (n + 1) = (s.goOn O t).goOnFor O t n := rfl

theorem Sys.goOnFor_add (m n : Nat) :
    s.goOnFor O t (m + n) = (s.goOnFor O t m).goOnFor O t n := by
  unfold Sys.goOnFor
  rw [← List.replicate_append_replicate, List.foldl_append]

/-- An operation that comes to an end alone comes to an end here, since the others wait. -/
theorem inside_clears {i : ι} {k : κ} {m' : σ} {r : ρ} (n : Nat) (hplace : s.place t = .inside i k)
    (halone : alone O.access n s.memory k = some (m', r)) :
    ∃ j ≤ n + 1, (s.goOnFor O t j).place t = .returning i r ∧ (s.goOnFor O t j).flag = false := by
  induction n generalizing s k with
  | zero => cases halone
  | succ n ih =>
    unfold alone at halone
    match haccess : O.access s.memory k with
    | (m, .inl k') =>
      rw [haccess] at halone
      have hstep : s.goOn O t = { s.setPlace t (.inside i k') with memory := m } := by
        simp only [Sys.goOn, hplace, Sys.accessed, haccess]
      have hinside : (s.goOn O t).place t = .inside i k' := by
        rw [hstep]
        exact Function.update_self ..
      have hrest : alone O.access n (s.goOn O t).memory k' = some (m', r) := by
        rw [hstep]
        exact halone
      obtain ⟨j, hj, hend⟩ := ih hinside hrest
      exact ⟨j + 1, Nat.succ_le_succ hj, hend⟩
    | (m, .inr r') =>
      rw [haccess] at halone
      cases halone
      refine ⟨2, by omega, ?_⟩
      have hstep : s.goOn O t = { s.setPlace t (.leaving i r) with memory := m' } := by
        simp only [Sys.goOn, hplace, Sys.accessed, haccess]
      rw [Sys.goOnFor_succ, hstep]
      simp [Sys.goOnFor, Sys.step, Sys.goOn, Sys.setPlace]

end

section

variable {O : Object σ α ι κ ρ} {s : Sys τ σ ι κ ρ} {a : Atomic τ α ι ρ} {t : τ}

/-- The thread that holds the lock gives it back. -/
theorem Simulates.holder_clears (h : Simulates O s a) (ht : (s.place t).Holds) :
    ∃ j ≤ O.accesses + 1, ∃ i r,
      (s.goOnFor O t j).place t = .returning i r ∧ (s.goOnFor O t j).flag = false := by
  have hmidway := h.midway t
  cases hplace : s.place t with
  | outside | spinning i | returning i r =>
    rw [hplace] at ht
    exact ht.elim
  | inside i k =>
    rw [hplace] at hmidway
    obtain ⟨n, hn, m', halone, -⟩ := hmidway
    obtain ⟨j, hj, hend⟩ := inside_clears n hplace halone
    exact ⟨j, by omega, i, _, hend⟩
  | leaving i r =>
    refine ⟨1, by omega, i, r, ?_⟩
    simp [Sys.goOnFor, Sys.step, Sys.goOn, hplace, Sys.setPlace]

/-- A thread whose operation is over but for the return. -/
theorem returns_of_returning {i : ι} {r : ρ} {j : Nat}
    (h : (s.goOnFor O t j).place t = .returning i r) :
    (s.goOnFor O t (j + 1)).place t = .outside := by
  rw [Sys.goOnFor_add]
  change ((s.goOnFor O t j).goOn O t).place t = .outside
  simp [Sys.goOn, h, Sys.setPlace]

/-- With the lock free, a thread completes its operation by its own steps. -/
theorem Simulates.completes_alone (h : Simulates O s a)
    (hfree : s.flag = true → (s.place t).Holds) :
    ∃ n ≤ O.accesses + 3, (s.goOnFor O t n).place t = .outside := by
  have hholder : ∀ {s a}, Simulates O s a → (s.place t).Holds →
      ∃ n ≤ O.accesses + 2, (s.goOnFor O t n).place t = .outside := by
    intro s a h ht
    obtain ⟨j, hj, i, r, hend, -⟩ := h.holder_clears ht
    exact ⟨j + 1, by omega, returns_of_returning hend⟩
  cases hplace : s.place t with
  | outside => exact ⟨0, Nat.zero_le _, hplace⟩
  | spinning i =>
    cases hflag : s.flag with
    | true =>
      have hholds := hfree hflag
      rw [hplace] at hholds
      exact hholds.elim
    | false =>
      have hstep : s.goOn O t = { s.setPlace t (.inside i (O.enter i)) with flag := true } := by
        simp [Sys.goOn, hplace, hflag]
      have hnext := h.take hplace hflag
      rw [← hstep] at hnext
      have hinside : ((s.goOn O t).place t).Holds := by
        rw [hstep]
        simp [Sys.setPlace, Place.Holds]
      obtain ⟨n, hn, hend⟩ := hholder hnext hinside
      exact ⟨n + 1, by omega, hend⟩
  | inside i k | leaving i r =>
    have hholds : (s.place t).Holds := by
      rw [hplace]
      trivial
    obtain ⟨n, hn, hend⟩ := hholder h hholds
    exact ⟨n, by omega, hend⟩
  | returning i r => exact ⟨1, by omega, returns_of_returning (j := 0) hplace⟩

theorem Simulates.steps (h : Simulates O s a) (moves : List (Move τ ι)) :
    ∃ a', Simulates O (moves.foldl (Sys.step O) s) a' :=
  Reentrant.foldl_invariant (I := fun s : Sys τ σ ι κ ρ => ∃ a, Simulates O s a)
    (fun _ move ⟨_, h⟩ => (h.step move).elim (⟨_, ·⟩) (⟨_, ·⟩)) s ⟨a, h⟩ moves

/-- No thread waits for more than the one that holds the lock: once that one has cleared it, each
operation can be completed by its own thread. -/
theorem Simulates.completes (h : Simulates O s a) (t : τ) :
    ∃ u, ∃ j ≤ O.accesses + 1, ∃ n ≤ O.accesses + 3,
      ((s.goOnFor O u j).goOnFor O t n).place t = .outside := by
  by_cases hother : s.flag = true ∧ ¬ (s.place t).Holds
  · obtain ⟨hflag, -⟩ := hother
    obtain ⟨u, hu⟩ := h.exclusive.held_iff.mp hflag
    obtain ⟨j, hj, -, -, -, hclear⟩ := h.holder_clears hu
    obtain ⟨a', hnext⟩ := h.steps (List.replicate j (.goOn u))
    obtain ⟨n, hn, hend⟩ :=
      hnext.completes_alone (t := t) fun hset => absurd (hclear.symm.trans hset) (by decide)
    exact ⟨u, j, hj, n, hn, hend⟩
  · obtain ⟨n, hn, hend⟩ :=
      h.completes_alone (t := t) fun hset => not_not.mp fun hnot => hother ⟨hset, hnot⟩
    exact ⟨t, 0, Nat.zero_le _, n, hn, hend⟩

end

/-! ## The log -/

/-- The operations of a log, done one after the other, return what the log says. -/
inductive Serial (apply : ι → α → α × ρ) (a : α) : List (τ × ι × ρ) → α → Prop where
  | nil : Serial apply a [] a
  | snoc {log : List (τ × ι × ρ)} {b : α} (t : τ) (i : ι) (h : Serial apply a log b) :
      Serial apply a (log ++ [(t, i, (apply i b).2)]) (apply i b).1

/-- The operations a thread has called. -/
def callsOf (t : τ) (history : List (Event τ ι ρ)) : List ι :=
  history.filterMap fun
    | .call u i => if u = t then some i else none
    | .ret _ _ _ => none

/-- The operations that have returned to a thread, with what they have returned. -/
def returnsOf (t : τ) (history : List (Event τ ι ρ)) : List (ι × ρ) :=
  history.filterMap fun
    | .call _ _ => none
    | .ret u i r => if u = t then some (i, r) else none

/-- A thread's part of the log. -/
def opsOf (t : τ) (log : List (τ × ι × ρ)) : List (ι × ρ) :=
  log.filterMap fun e => if e.1 = t then some e.2 else none

/-- The operation a caller is waiting for. -/
def Turn.waiting : Turn ι ρ → List ι
  | .called i => [i]
  | .outside | .served _ _ => []

/-- What is about to be returned. -/
def Turn.ready : Turn ι ρ → List (ι × ρ)
  | .served i r => [(i, r)]
  | .outside | .called _ => []

/-- Each operation is done after its call and before its return, and a thread's operations in the
order of its calls. -/
structure Atomic.InOrder (a : Atomic τ α ι ρ) : Prop where
  calls : ∀ t, callsOf t a.history = (opsOf t a.log).map Prod.fst ++ (a.turn t).waiting
  returns : ∀ t, opsOf t a.log = returnsOf t a.history ++ (a.turn t).ready

namespace Atomic.InOrder

variable {O : Object σ α ι κ ρ} {a : Atomic τ α ι ρ} {t : τ}

theorem start : (Atomic.start O : Atomic τ α ι ρ).InOrder where
  calls := fun _ => rfl
  returns := fun _ => rfl

theorem call (h : a.InOrder) {i : ι} (ht : a.turn t = .outside) :
    InOrder { a.setTurn t (.called i) with history := a.history ++ [.call t i] } where
  calls := by
    intro u
    have hu := h.calls u
    by_cases hut : u = t
    · subst hut
      simpa [callsOf, setTurn, Turn.waiting, ht] using hu
    · simpa [callsOf, setTurn, hut, Ne.symm hut] using hu
  returns := by
    intro u
    have hu := h.returns u
    by_cases hut : u = t
    · subst hut
      simpa [returnsOf, setTurn, Turn.ready, ht] using hu
    · simpa [returnsOf, setTurn, hut] using hu

theorem serve (h : a.InOrder) {i : ι} (ht : a.turn t = .called i) : (a.serve O t i).InOrder where
  calls := by
    intro u
    have hu := h.calls u
    by_cases hut : u = t
    · subst hut
      simpa [opsOf, Atomic.serve, setTurn, Turn.waiting, ht] using hu
    · simpa [opsOf, Atomic.serve, setTurn, hut, Ne.symm hut] using hu
  returns := by
    intro u
    have hu := h.returns u
    by_cases hut : u = t
    · subst hut
      simpa [opsOf, Atomic.serve, setTurn, Turn.ready, ht] using hu
    · simpa [opsOf, Atomic.serve, setTurn, hut, Ne.symm hut] using hu

theorem ret (h : a.InOrder) {i : ι} {r : ρ} (ht : a.turn t = .served i r) :
    InOrder { a.setTurn t .outside with history := a.history ++ [.ret t i r] } where
  calls := by
    intro u
    have hu := h.calls u
    by_cases hut : u = t
    · subst hut
      simpa [callsOf, setTurn, Turn.waiting, ht] using hu
    · simpa [callsOf, setTurn, hut] using hu
  returns := by
    intro u
    have hu := h.returns u
    by_cases hut : u = t
    · subst hut
      simpa [returnsOf, setTurn, Turn.ready, ht] using hu
    · simpa [returnsOf, setTurn, hut, Ne.symm hut] using hu

end Atomic.InOrder

/-- The log of the atomic object is one of operations done one after the other, each between its
call and its return. -/
theorem Atomic.serial_run (O : Object σ α ι κ ρ) (moves : List (Move τ ι)) :
    Serial O.apply O.initial (Atomic.run O moves).log (Atomic.run O moves).state ∧
      (Atomic.run O moves).InOrder := by
  refine Reentrant.foldl_invariant
    (I := fun a : Atomic τ α ι ρ => Serial O.apply O.initial a.log a.state ∧ a.InOrder) ?_ _
    ⟨.nil, .start⟩ moves
  rintro a move ⟨hserial, horder⟩
  cases move with
  | call t i =>
    simp only [Atomic.step, Atomic.call]
    split
    · rename_i ht
      exact ⟨hserial, horder.call ht⟩
    · exact ⟨hserial, horder⟩
  | goOn t =>
    simp only [Atomic.step, Atomic.goOn]
    split
    · exact ⟨hserial, horder⟩
    · rename_i ht
      exact ⟨hserial.snoc t _, horder.serve ht⟩
    · rename_i ht
      exact ⟨hserial, horder.ret ht⟩

end Locked

end HyperNet
