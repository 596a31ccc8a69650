import Mathlib.Algebra.Order.Ring.Nat
import HyperNet.Lib.Reentrant

/-!
# Tasks and the wake-up descriptor

`EventLoop::post`, `drainTasks`, `runOnce` and the eventfd behind `signalWakeup_` and
`drainWakeupFd_` (`engine/src/hypernet/net/EventLoop.cpp`), as a system of threads.  The thread that
owns the loop goes through the phases of `runOnce`; any number of other threads post tasks, each in
two moves, the push under the queue's lock and the write to the eventfd.  A run is any sequence of
their moves.  Tasks, timer callbacks and handlers are code of the loop's users: while one of them
runs the owner may post any number of tasks, which it does without a write.

The eventfd is as the kernel defines it: a write adds one, or fails with `EAGAIN` at the largest
value, and a read takes all, or fails with `EAGAIN` at zero; both may be interrupted.  It is
registered edge-triggered, and `edge` says that a write has happened which `wait` has not reported
yet.  `signalled` and `tickPosts` are history, and so is the number of a post.
-/

namespace HyperNet.Net.Wakeup

open Reentrant

/-- Where the owner's thread is.  `runOnce` has two drains and two ticks, and `first` tells those
before the wait from those after it. -/
inductive Phase where
  /-- Before `run`, with the loop bound to the thread. -/
  | setup
  | drainTasks (first : Bool)
  /-- A task runs. -/
  | task (first : Bool)
  /-- Timer callbacks run. -/
  | tick (first : Bool)
  /-- In `EpollReactor::wait`. -/
  | wait
  /-- Handlers run; `wakeup` while the one of the eventfd has to or does. -/
  | dispatch (wakeup : Bool)
  /-- The test of the running flag. -/
  | check
  | stopped
deriving DecidableEq, Repr

/-- A task in the queue; `none` for the owner's thread. -/
structure Post where
  number : Nat
  poster : Option Nat
deriving DecidableEq, Repr

structure Loop where
  phase : Phase := .setup
  taskQueue : List Post := []
  eventfd : Nat := 0
  edge : Bool := false
  /-- The post a thread has pushed and not signalled yet. -/
  threads : Nat → Option Nat := fun _ => none
  posts : Nat := 0
  /-- The posts signalled since the eventfd was last read. -/
  signalled : List Nat := []
  /-- How often a timer callback of the last first tick has posted. -/
  tickPosts : Nat := 0

inductive Move where
  /-- Another thread calls `post` and pushes its task … -/
  | push (thread : Nat)
  /-- … and writes to the eventfd. -/
  | write (thread : Nat) (interrupted : Bool)
  /-- The owner's thread calls `post`. -/
  | post
  /-- The owner's thread goes on; `choice` is whether a system call is interrupted, whether `wait`
  reports the eventfd, or whether the loop is still to run. -/
  | goOn (choice : Bool)
deriving DecidableEq, Repr

namespace Loop

/-- The largest value of an eventfd. -/
def eventfdMax : Nat := 2 ^ 64 - 2

/-- `taskQueue_.push`. -/
def push (s : Loop) (poster : Option Nat) : Loop :=
  { s with taskQueue := s.taskQueue ++ [⟨s.posts, poster⟩], posts := s.posts + 1 }

/-- A thread's progress within `post`. -/
def setThread (s : Loop) (i : Nat) (pending : Option Nat) : Loop :=
  { s with threads := fun j => if j = i then pending else s.threads j }

/-- A write of one; it fails where the sum would be too large. -/
def writeEventfd (s : Loop) : Loop :=
  if s.eventfd < eventfdMax then { s with eventfd := s.eventfd + 1, edge := true } else s

/-- `post` returns; its signal is in the eventfd. -/
def returnPost (s : Loop) (i number : Nat) : Loop :=
  { s.setThread i none with signalled := s.signalled ++ [number] }

/-- One round of `signalWakeup_`. -/
def signalWakeup (s : Loop) (i number : Nat) (interrupted : Bool) : Loop :=
  if interrupted = true then s else s.writeEventfd.returnPost i number

/-- One round of `drainWakeupFd_`. -/
def drainWakeupFd (s : Loop) (interrupted : Bool) : Loop :=
  if interrupted = true then s
  else if s.eventfd = 0 then { s with phase := .dispatch false }
  else { s with eventfd := 0, signalled := [] }

/-- `wait` returns; an event that is not reported this time stays. -/
def waitReturns (s : Loop) (reported : Bool) : Loop :=
  if s.edge = true ∧ reported = true then { s with edge := false, phase := .dispatch true }
  else { s with phase := .dispatch false }

/-- `tryPop`, and the task runs or the drain is over. -/
def tryPop (s : Loop) (first : Bool) : Loop :=
  match s.taskQueue with
  | _ :: queue => { s with taskQueue := queue, phase := .task first }
  | [] =>
    if first = true then { s with phase := .tick true, tickPosts := 0 }
    else { s with phase := .check }

/-- The owner's thread goes on. -/
def goOn (s : Loop) (choice : Bool) : Loop :=
  match s.phase with
  | .setup => { s with phase := .check }
  | .drainTasks first => s.tryPop first
  | .task first => { s with phase := .drainTasks first }
  | .tick true => { s with phase := .wait }
  | .wait => s.waitReturns choice
  | .dispatch true => s.drainWakeupFd choice
  | .dispatch false => { s with phase := .tick false }
  | .tick false => { s with phase := .drainTasks false }
  | .check => { s with phase := if choice = true then .drainTasks true else .stopped }
  | .stopped => s

/-- `post` on the owner's thread, which only the loop's users call. -/
def post (s : Loop) : Loop :=
  match s.phase with
  | .setup | .task _ | .tick false | .dispatch _ => s.push none
  | .tick true => { s.push none with tickPosts := s.tickPosts + 1 }
  | .drainTasks _ | .wait | .check | .stopped => s

def step (s : Loop) : Move → Loop
  | .push i =>
    match s.threads i with
    | none => (s.push (some i)).setThread i (some s.posts)
    | some _ => s
  | .write i interrupted =>
    match s.threads i with
    | none => s
    | some number => s.signalWakeup i number interrupted
  | .post => s.post
  | .goOn choice => s.goOn choice

def run (moves : List Move) : Loop := moves.foldl step {}

/-! ## What wakes the loop for a task -/

/-- Another thread has posted the task, and has signalled it or is about to. -/
def Covered (s : Loop) (p : Post) : Prop :=
  ∃ i, p.poster = some i ∧ (s.threads i = some p.number ∨ p.number ∈ s.signalled)

/-- Between the first drain and the return of the wait. -/
def Settled (s : Loop) : Prop := s.phase = .tick true ∨ s.phase = .wait

structure Inv (s : Loop) : Prop where
  /-- A signal is in the eventfd until it is read. -/
  pending : s.signalled ≠ [] → 0 < s.eventfd
  /-- `wait` has still to report what the handler has not read. -/
  reports : s.phase ≠ .dispatch true → 0 < s.eventfd → s.edge = true
  covered : s.Settled → ∀ p ∈ s.taskQueue, s.Covered p ∨ p.poster = none
  counted : s.Settled → s.tickPosts = s.taskQueue.countP (·.poster = none)

theorem inv_init : Inv {} where
  pending := fun h => absurd rfl h
  reports := fun _ h => absurd h (Nat.lt_irrefl 0)
  covered := fun _ _ hp => absurd hp List.not_mem_nil
  counted := fun _ => rfl

variable {s : Loop}

theorem Inv.push (h : s.Inv) {i : Nat} (hi : s.threads i = none) :
    Inv ((s.push (some i)).setThread i (some s.posts)) where
  __ := h
  covered := by
    intro hsettled p hp
    rcases List.mem_append.mp hp with hp | hp
    · refine (h.covered hsettled p hp).imp_left ?_
      rintro ⟨j, hj, hpending | hsignalled⟩
      · -- a thread that pushes has signalled its posts so far
        have hne : j ≠ i := by
          rintro rfl
          rw [hi] at hpending
          cases hpending
        exact ⟨j, hj, .inl ((if_neg hne).trans hpending)⟩
      · exact ⟨j, hj, .inr hsignalled⟩
    · cases List.mem_singleton.mp hp
      exact .inl ⟨i, rfl, .inl (if_pos rfl)⟩
  counted := by
    intro hsettled
    change s.tickPosts = (s.taskQueue ++ [_]).countP _
    rw [List.countP_append, h.counted hsettled]
    rfl

theorem writeEventfd_pos (s : Loop) : 0 < s.writeEventfd.eventfd := by
  unfold writeEventfd
  split
  · exact Nat.succ_pos _
  next hfull => exact Nat.lt_of_lt_of_le (show 0 < eventfdMax by decide) (Nat.le_of_not_lt hfull)

theorem threads_writeEventfd (s : Loop) : s.writeEventfd.threads = s.threads := by
  unfold writeEventfd
  split <;> rfl

section

variable (h : s.Inv)
include h

theorem Inv.writeEventfd : s.writeEventfd.Inv := by
  unfold Loop.writeEventfd
  split
  · exact ⟨fun _ => Nat.succ_pos _, fun _ _ => rfl, h.covered, h.counted⟩
  · exact h

theorem Inv.returnPost (hpos : 0 < s.eventfd) {i number : Nat} (hi : s.threads i = some number) :
    Inv (s.returnPost i number) where
  pending := fun _ => hpos
  reports := h.reports
  covered := by
    intro hsettled p hp
    refine (h.covered hsettled p hp).imp_left ?_
    rintro ⟨j, hj, hpending | hsignalled⟩
    · by_cases hji : j = i
      · rw [hji, hi] at hpending
        cases hpending
        exact ⟨j, hj, .inr (List.mem_append_right _ (List.mem_singleton.mpr rfl))⟩
      · exact ⟨j, hj, .inl ((if_neg hji).trans hpending)⟩
    · exact ⟨j, hj, .inr (List.mem_append_left _ hsignalled)⟩
  counted := h.counted

theorem Inv.signalWakeup {i number : Nat} (hi : s.threads i = some number) (interrupted : Bool) :
    Inv (s.signalWakeup i number interrupted) := by
  unfold Loop.signalWakeup
  split
  · exact h
  · exact h.writeEventfd.returnPost s.writeEventfd_pos
      ((congrFun s.threads_writeEventfd i).trans hi)

/-- The owner's own posts, with what they do to the history. -/
theorem Inv.postOwn {n : Nat} (hn : s.Settled → n = s.tickPosts + 1) :
    Inv { s.push none with tickPosts := n } where
  __ := h
  covered := by
    intro hsettled p hp
    rcases List.mem_append.mp hp with hp | hp
    · exact h.covered hsettled p hp
    · cases List.mem_singleton.mp hp
      exact .inr rfl
  counted := by
    intro hsettled
    change n = (s.taskQueue ++ [_]).countP _
    rw [hn hsettled, h.counted hsettled, List.countP_append]
    rfl

theorem Inv.post : s.post.Inv := by
  have hunsettled {phase : Phase} (hphase : s.phase = phase) (htick : phase ≠ .tick true)
      (hwait : phase ≠ .wait) : Inv (s.push none) := by
    refine h.postOwn fun hsettled => ?_
    rw [Settled, hphase] at hsettled
    exact (hsettled.elim htick hwait).elim
  unfold Loop.post
  split
  next hphase => exact hunsettled hphase nofun nofun
  next hphase => exact hunsettled hphase nofun nofun
  next hphase => exact hunsettled hphase nofun nofun
  next hphase => exact hunsettled hphase nofun nofun
  next hphase => exact h.postOwn fun _ => rfl
  all_goals exact h

/-- A phase of the owner in which nothing is claimed of the queue. -/
theorem Inv.enter {phase : Phase} (hfrom : s.phase ≠ .dispatch true) (htick : phase ≠ .tick true)
    (hwait : phase ≠ .wait) : Inv { s with phase } where
  pending := h.pending
  reports := fun _ => h.reports hfrom
  covered := fun hsettled => (hsettled.elim htick hwait).elim
  counted := fun hsettled => (hsettled.elim htick hwait).elim

theorem Inv.tryPop {first : Bool} (hphase : s.phase = .drainTasks first) :
    (s.tryPop first).Inv := by
  have hfrom : s.phase ≠ .dispatch true := by rw [hphase]; rintro ⟨⟩
  unfold Loop.tryPop
  split
  · exact ⟨h.pending, fun _ => h.reports hfrom, by rintro (⟨⟨⟩⟩ | ⟨⟨⟩⟩), by rintro (⟨⟨⟩⟩ | ⟨⟨⟩⟩)⟩
  next hempty =>
    split
    · -- the queue is empty here, and what follows until the wait is counted from here
      refine ⟨h.pending, fun _ => h.reports hfrom, ?_, ?_⟩
      · intro _ p hp
        change p ∈ s.taskQueue at hp
        rw [hempty] at hp
        cases hp
      · intro _
        change 0 = s.taskQueue.countP _
        rw [hempty]
        rfl
    · exact h.enter hfrom nofun nofun

theorem Inv.waitReturns (hphase : s.phase = .wait) (reported : Bool) :
    (s.waitReturns reported).Inv := by
  have hfrom : s.phase ≠ .dispatch true := by rw [hphase]; rintro ⟨⟩
  unfold Loop.waitReturns
  split
  · exact ⟨h.pending, fun hne => absurd rfl hne, by rintro (⟨⟨⟩⟩ | ⟨⟨⟩⟩), by rintro (⟨⟨⟩⟩ | ⟨⟨⟩⟩)⟩
  · exact h.enter hfrom nofun nofun

theorem Inv.drainWakeupFd (hphase : s.phase = .dispatch true) (interrupted : Bool) :
    (s.drainWakeupFd interrupted).Inv := by
  have hsettled : ¬ s.Settled := by
    rw [Settled, hphase]
    rintro (⟨⟨⟩⟩ | ⟨⟨⟩⟩)
  unfold Loop.drainWakeupFd
  split
  · exact h
  · split
    next hzero =>
      refine ⟨h.pending, fun _ hpos => absurd hzero (Nat.ne_of_gt hpos), ?_, ?_⟩
      · rintro (⟨⟨⟩⟩ | ⟨⟨⟩⟩)
      · rintro (⟨⟨⟩⟩ | ⟨⟨⟩⟩)
    · exact ⟨fun hne => absurd rfl hne, fun hne => absurd hphase hne, fun hs => absurd hs hsettled,
        fun hs => absurd hs hsettled⟩

theorem Inv.goOn (choice : Bool) : (s.goOn choice).Inv := by
  unfold Loop.goOn
  split
  next hphase => exact h.enter (by rw [hphase]; rintro ⟨⟩) nofun nofun
  next hphase => exact h.tryPop hphase
  next hphase => exact h.enter (by rw [hphase]; rintro ⟨⟩) nofun nofun
  next hphase =>
    exact ⟨h.pending, fun _ => h.reports (by rw [hphase]; rintro ⟨⟩),
      fun _ => h.covered (.inl hphase), fun _ => h.counted (.inl hphase)⟩
  next hphase => exact h.waitReturns hphase choice
  next hphase => exact h.drainWakeupFd hphase choice
  next hphase => exact h.enter (by rw [hphase]; rintro ⟨⟩) nofun nofun
  next hphase => exact h.enter (by rw [hphase]; rintro ⟨⟩) nofun nofun
  next hphase =>
    refine h.enter (by rw [hphase]; rintro ⟨⟩) ?_ ?_
    · cases choice <;> rintro ⟨⟩
    · cases choice <;> rintro ⟨⟩
  next hphase => exact h

theorem Inv.step (move : Move) : (s.step move).Inv := by
  cases move with
  | push i =>
    rw [Loop.step]
    split
    next hi => exact h.push hi
    · exact h
  | write i interrupted =>
    rw [Loop.step]
    split
    · exact h
    next number hi => exact h.signalWakeup hi interrupted
  | post => exact h.post
  | goOn choice => exact h.goOn choice

end

theorem inv_run (moves : List Move) : (run moves).Inv :=
  foldl_invariant (fun _ move h => h.step move) _ inv_init moves

/-- Whenever the loop is in `wait`, every task in the queue is from another thread that has
signalled it, so that the eventfd is not zero, or is about to, exactly if no timer callback has
posted since the drain; and for a signal that is in the eventfd `wait` returns at once. -/
theorem waits_covered_iff (moves : List Move) (hwait : (run moves).phase = .wait) :
    let s := run moves
    ((∀ p ∈ s.taskQueue, ∃ i, p.poster = some i ∧
        (s.threads i = some p.number ∨ p.number ∈ s.signalled ∧ 0 < s.eventfd)) ↔
      s.tickPosts = 0) ∧
    (0 < s.eventfd → s.edge = true) := by
  intro s
  have h : s.Inv := inv_run moves
  have hsettled : s.Settled := .inr hwait
  refine ⟨?_, h.reports (by rw [hwait]; rintro ⟨⟩)⟩
  rw [h.counted hsettled, List.countP_eq_zero]
  constructor
  · intro hcovered p hp hown
    obtain ⟨i, hi, -⟩ := hcovered p hp
    rw [of_decide_eq_true hown] at hi
    cases hi
  · intro hnone p hp
    rcases h.covered hsettled p hp with ⟨i, hi, hpending | hsignalled⟩ | hown
    · exact ⟨i, hi, .inl hpending⟩
    · exact ⟨i, hi, .inr ⟨hsignalled, h.pending (List.ne_nil_of_mem hsignalled)⟩⟩
    · exact absurd (decide_eq_true hown) (hnone p hp)

theorem waits_covered_iff_sample :
    let s := run [.goOn true, .goOn true, .goOn true, .push 1, .goOn true, .write 1 false]
    ((∀ p ∈ s.taskQueue, ∃ i, p.poster = some i ∧
        (s.threads i = some p.number ∨ p.number ∈ s.signalled ∧ 0 < s.eventfd)) ↔
      s.tickPosts = 0) ∧
    (0 < s.eventfd → s.edge = true) :=
  waits_covered_iff [.goOn true, .goOn true, .goOn true, .push 1, .goOn true, .write 1 false] rfl

/-- A timer callback posts, and the loop goes to sleep on the task: it is the owner's, and nothing
has been written to the eventfd. -/
theorem timer_post_sleeps :
    let s := run [.goOn true, .goOn true, .goOn true, .post, .goOn true]
    s.phase = .wait ∧ s.taskQueue = [⟨0, none⟩] ∧ s.eventfd = 0 ∧ s.edge = false := by
  decide

end Loop

end HyperNet.Net.Wakeup
