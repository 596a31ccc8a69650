import Mathlib.Logic.Function.Basic
import Mathlib.Data.List.Infix
import HyperNet.Lib.Reentrant

/-!
# The logger and its thread

`Logger::Impl` (`engine/src/hypernet/core/Logger.cpp`) and the front end that feeds it (`slog::emit`
in `engine/include/hypernet/core/Logger.hpp`).  Any number of threads log.  Each takes the time,
puts an event into the queue under the mutex and notifies the condition variable when it has let
the mutex go.  One thread takes the whole queue at a time, writes the events that are not below the
level and flushes the stream.  `stop` sets a flag, notifies and joins that thread, which leaves when
it finds the flag set and the queue empty.

Every section under the mutex is one step, and so are the notifications, each test of the level with
the write that follows, the flush, the join, and the two stores of `setMinLevel`.  Calls of `stop`
do not overlap: they join the same `std::thread`.  `logged` and `seen` are history.
-/

namespace HyperNet.Core.Logging

open Reentrant

inductive LogLevel where
  | trace
  | debug
  | info
  | warn
  | error
  | fatal
deriving DecidableEq, Repr

/-- `static_cast<int>`. -/
def LogLevel.toNat : LogLevel → Nat
  | trace => 0
  | debug => 1
  | info => 2
  | warn => 3
  | error => 4
  | fatal => 5

/-- The time of day in local time, as `localtime_r` gives it. -/
structure TimeOfDay where
  hour : Fin 24
  minute : Fin 60
  /-- A leap second is second 60. -/
  second : Fin 61
  micros : Fin 1000000
deriving DecidableEq, Repr

structure LogEvent where
  level : LogLevel
  message : List Char
  timestamp : TimeOfDay
  threadTag : List Char
  threadId : Int
deriving DecidableEq, Repr

/-- Where the logger's own thread is in `processQueue`. -/
inductive Worker where
  /-- Before the lock, or woken up and about to test the condition. -/
  | ready
  /-- Blocked in `cv_.wait`. -/
  | waiting
  /-- In the loop over `batch`, with these events to come. -/
  | writing (batch : List LogEvent)
  | exited
deriving DecidableEq, Repr

/-- The events taken from the queue and not looked at yet. -/
def Worker.batch : Worker → List LogEvent
  | writing batch => batch
  | ready | waiting | exited => []

/-- A notification. -/
def Worker.wake : Worker → Worker
  | waiting => ready
  | w => w

/-- Where a thread is that calls the logger. -/
inductive Caller where
  | outside
  /-- In `log`, with the event made and before the lock. -/
  | logging (ev : LogEvent)
  /-- In `log`, before `cv_.notify_one()`. -/
  | notifying
  /-- In `setMinLevel`, before the store to the level that `emit` looks at. -/
  | storing (level : LogLevel)
deriving DecidableEq, Repr

/-- Where the call of `stop` is. -/
inductive Stopper where
  | idle
  /-- Before `cv_.notify_all()`. -/
  | notifying
  | joining
deriving DecidableEq, Repr

structure Logger (τ : Type) where
  queue : List LogEvent := []
  stopping : Bool := false
  minLevel : LogLevel := .info
  fastMinLevel : LogLevel := .info
  worker : Worker := .ready
  /-- `worker_` is no longer joinable. -/
  joined : Bool := false
  callers : τ → Caller := fun _ => .outside
  stopper : Stopper := .idle
  /-- The lines in the stream, and how many of them it has been told to flush. -/
  os : List LogEvent := []
  flushed : Nat := 0
  /-- All events ever queued, and those looked at, each with the level it was compared to. -/
  logged : List LogEvent := []
  seen : List (LogEvent × LogLevel) := []

inductive Move (τ : Type) where
  | emit (t : τ) (ev : LogEvent)
  | log (t : τ) (ev : LogEvent)
  | setMinLevel (t : τ) (level : LogLevel)
  /-- A thread goes on in its call. -/
  | caller (t : τ)
  | stop
  | stopper
  | worker
  /-- `cv_.wait` wakes up for no reason. -/
  | spurious
deriving DecidableEq, Repr

namespace Logger

variable {τ : Type} [DecidableEq τ] (s : Logger τ)

def setCaller (t : τ) (c : Caller) : Logger τ :=
  { s with callers := Function.update s.callers t c }

/-- `Logger::log`, up to the lock. -/
def log (t : τ) (ev : LogEvent) : Logger τ :=
  match s.callers t with
  | .outside => s.setCaller t (.logging ev)
  | _ => s

/-- `slog::emit`: an event below the fast level is not made at all. -/
def emit (t : τ) (ev : LogEvent) : Logger τ :=
  if s.fastMinLevel.toNat ≤ ev.level.toNat then s.log t ev else s

def setMinLevel (t : τ) (level : LogLevel) : Logger τ :=
  match s.callers t with
  | .outside => { s.setCaller t (.storing level) with minLevel := level }
  | _ => s

/-- The section under the lock in `log`. -/
def push (ev : LogEvent) : Logger τ :=
  { s with queue := s.queue ++ [ev], logged := s.logged ++ [ev] }

def notify : Logger τ := { s with worker := s.worker.wake }

def callerStep (t : τ) : Logger τ :=
  match s.callers t with
  | .outside => s
  | .logging ev => (s.push ev).setCaller t .notifying
  | .notifying => s.notify.setCaller t .outside
  | .storing level => { s.setCaller t .outside with fastMinLevel := level }

/-- The section under the lock in `stop`. -/
def stop : Logger τ :=
  if s.stopper = .idle then { s with stopping := true, stopper := .notifying } else s

def stopperStep : Logger τ :=
  match s.stopper with
  | .idle => s
  | .notifying => { s.notify with stopper := .joining }
  | .joining =>
    -- `joinable` is false after the first join, and a join blocks until the thread has ended
    if s.joined = true ∨ s.worker = .exited then { s with stopper := .idle, joined := true }
    else s

/-- The section under the lock in `processQueue`. -/
def takeBatch : Logger τ :=
  if s.queue = [] then
    { s with worker := if s.stopping = true then .exited else .waiting }
  else { s with worker := .writing s.queue, queue := [] }

/-- The event is compared to the level and written or left out. -/
def writeOrSkip (ev : LogEvent) (batch : List LogEvent) : Logger τ :=
  { s with
    worker := .writing batch
    os := if ev.level.toNat < s.minLevel.toNat then s.os else s.os ++ [ev]
    seen := s.seen ++ [(ev, s.minLevel)] }

def workerStep : Logger τ :=
  match s.worker with
  | .ready => s.takeBatch
  | .writing (ev :: batch) => s.writeOrSkip ev batch
  | .writing [] => { s with worker := .ready, flushed := s.os.length }
  | .waiting | .exited => s

def step (s : Logger τ) : Move τ → Logger τ
  | .emit t ev => s.emit t ev
  | .log t ev => s.log t ev
  | .setMinLevel t level => s.setMinLevel t level
  | .caller t => s.callerStep t
  | .stop => s.stop
  | .stopper => s.stopperStep
  | .worker => s.workerStep
  | .spurious => s.notify

def run (moves : List (Move τ)) : Logger τ := moves.foldl step {}

/-! ## Where the events are -/

/-- The events that were not below the level when they were looked at. -/
def admitted (seen : List (LogEvent × LogLevel)) : List LogEvent :=
  (seen.filter fun p => p.2.toNat ≤ p.1.level.toNat).map Prod.fst

structure Inv (s : Logger τ) : Prop where
  /-- No event is lost, and none overtakes another. -/
  conserved : s.seen.map Prod.fst ++ (s.worker.batch ++ s.queue) = s.logged
  written : s.os = admitted s.seen
  flushed : (∀ batch, s.worker ≠ .writing batch) → s.flushed = s.os.length
  /-- The thread has left for good, on a call of `stop`. -/
  exited : s.worker = .exited → s.stopping = true
  joined : s.joined = true → s.worker = .exited
  /-- Nobody sleeps over an event or a stop that nobody is going to tell of. -/
  told : s.worker = .waiting → s.queue ≠ [] → ∃ t, s.callers t = .notifying
  toldStop : s.worker = .waiting → s.stopping = true → s.stopper = .notifying
  stops : s.stopper ≠ .idle → s.stopping = true

variable {s}

omit [DecidableEq τ] in
theorem inv_init : Inv ({} : Logger τ) where
  conserved := rfl
  written := rfl
  flushed := fun _ => rfl
  exited := by simp
  joined := by simp
  told := by simp
  toldStop := by simp
  stops := by simp

namespace Inv

omit [DecidableEq τ] in
/-- What is about the levels only does not matter. -/
theorem congr_levels (h : s.Inv) (level fast : LogLevel) :
    Inv { s with minLevel := level, fastMinLevel := fast } :=
  { h with }

/-- A thread that is not about to notify takes up another place. -/
theorem setCaller (h : s.Inv) {t : τ} (ht : s.callers t ≠ .notifying) (c : Caller) :
    (s.setCaller t c).Inv where
  __ := h
  told := by
    intro hwaiting hqueue
    obtain ⟨u, hu⟩ := h.told hwaiting hqueue
    have hne : u ≠ t := fun heq => ht (heq ▸ hu)
    exact ⟨u, (Function.update_of_ne hne ..).trans hu⟩

theorem log (h : s.Inv) (t : τ) (ev : LogEvent) : (s.log t ev).Inv := by
  unfold Logger.log
  split
  · rename_i ht
    exact h.setCaller (by rw [ht]; exact Caller.noConfusion) _
  · exact h

theorem push (h : s.Inv) (t : τ) (ev : LogEvent) : ((s.push ev).setCaller t .notifying).Inv where
  __ := h
  conserved := by
    change s.seen.map Prod.fst ++ (s.worker.batch ++ (s.queue ++ [ev])) = s.logged ++ [ev]
    rw [← h.conserved]
    simp
  told := fun _ _ => ⟨t, Function.update_self ..⟩

omit [DecidableEq τ] in
/-- A notification leaves nothing to be told. -/
theorem notify (h : s.Inv) (c : τ → Caller) {p : Stopper} (hp : p ≠ .idle → s.stopping = true) :
    Inv { s.notify with callers := c, stopper := p } := by
  have hbatch : s.worker.wake.batch = s.worker.batch := by
    cases s.worker <;> rfl
  have hnot : s.worker.wake ≠ .waiting := by
    cases s.worker <;> exact Worker.noConfusion
  have hsame : ∀ {w}, w ≠ .ready → s.worker.wake = w → s.worker = w := by
    intro w hw heq
    cases hworker : s.worker with
    | waiting =>
      rw [hworker] at heq
      exact absurd heq.symm hw
    | ready | writing batch | exited =>
      rw [hworker] at heq
      exact heq
  exact
    { conserved := by
        change s.seen.map Prod.fst ++ (s.worker.wake.batch ++ s.queue) = s.logged
        rw [hbatch]
        exact h.conserved
      written := h.written
      flushed := by
        intro hidle
        refine h.flushed fun batch hwriting => hidle batch ?_
        change s.worker.wake = _
        rw [hwriting]
        rfl
      exited := fun hexited => h.exited (hsame Worker.noConfusion hexited)
      joined := by
        intro hjoined
        change s.worker.wake = .exited
        rw [h.joined hjoined]
        rfl
      told := fun hwaiting => absurd hwaiting hnot
      toldStop := fun hwaiting => absurd hwaiting hnot
      stops := hp }

theorem callerStep (h : s.Inv) (t : τ) : (s.callerStep t).Inv := by
  unfold Logger.callerStep
  split
  · exact h
  · exact h.push t _
  · exact h.notify _ h.stops
  · rename_i level ht
    exact (h.setCaller (by rw [ht]; exact Caller.noConfusion) _).congr_levels _ level

omit [DecidableEq τ] in
theorem stop (h : s.Inv) : s.stop.Inv := by
  unfold Logger.stop
  split
  · exact { h with exited := fun _ => rfl, toldStop := fun _ _ => rfl, stops := fun _ => rfl }
  · exact h

omit [DecidableEq τ] in
theorem stopperStep (h : s.Inv) : s.stopperStep.Inv := by
  unfold Logger.stopperStep
  split
  · exact h
  · rename_i hnotifying
    exact h.notify _ fun _ => h.stops (by simp [hnotifying])
  · split
    · rename_i hended
      have hexited : s.worker = .exited := hended.elim h.joined id
      exact
        { h with
          joined := fun _ => hexited
          toldStop := fun hwaiting => Worker.noConfusion (hexited.symm.trans hwaiting)
          stops := fun hne => absurd rfl hne }
    · exact h

omit [DecidableEq τ] in
theorem takeBatch (h : s.Inv) (hready : s.worker = .ready) : s.takeBatch.Inv := by
  have hflushed : s.flushed = s.os.length := h.flushed (by simp [hready])
  have hjoined : ¬ s.joined = true := fun hj => Worker.noConfusion (hready.symm.trans (h.joined hj))
  have hconserved := h.conserved
  rw [hready] at hconserved
  unfold Logger.takeBatch
  split
  · rename_i hqueue
    rw [hqueue] at hconserved
    cases hstop : s.stopping with
    | true =>
      exact
        { conserved := by simpa [Worker.batch, hqueue] using hconserved
          written := h.written
          flushed := fun _ => hflushed
          exited := fun _ => rfl
          joined := fun hj => absurd hj hjoined
          told := fun hw => by simp at hw
          toldStop := fun hw => by simp at hw
          stops := fun _ => rfl }
    | false =>
      exact
        { conserved := by simpa [Worker.batch, hqueue] using hconserved
          written := h.written
          flushed := fun _ => hflushed
          exited := fun hw => by simp at hw
          joined := fun hj => absurd hj hjoined
          told := fun _ hne => absurd hqueue hne
          toldStop := fun _ hs => absurd hs Bool.false_ne_true
          stops := fun hne => hstop.symm.trans (h.stops hne) }
  · exact
      { conserved := by simpa [Worker.batch] using hconserved
        written := h.written
        flushed := fun hidle => absurd rfl (hidle _)
        exited := by simp
        joined := fun hj => absurd hj hjoined
        told := by simp
        toldStop := by simp
        stops := h.stops }

theorem admitted_append (seen : List (LogEvent × LogLevel)) (ev : LogEvent) (level : LogLevel) :
    admitted (seen ++ [(ev, level)]) =
      if ev.level.toNat < level.toNat then admitted seen else admitted seen ++ [ev] := by
  unfold admitted
  rw [List.filter_append, List.map_append]
  split
  · rename_i hbelow
    simp [Nat.not_le_of_lt hbelow]
  · rename_i habove
    simp [Nat.le_of_not_lt habove]

omit [DecidableEq τ] in
theorem writeOrSkip (h : s.Inv) {ev : LogEvent} {batch : List LogEvent}
    (hwriting : s.worker = .writing (ev :: batch)) : (s.writeOrSkip ev batch).Inv where
  conserved := by
    have hconserved := h.conserved
    rw [hwriting] at hconserved
    simpa [Logger.writeOrSkip, Worker.batch] using hconserved
  written := by
    change (if _ then _ else _) = admitted (s.seen ++ [(ev, s.minLevel)])
    rw [admitted_append, h.written]
  flushed := fun hidle => absurd rfl (hidle batch)
  exited := by simp [Logger.writeOrSkip]
  joined := fun hj => Worker.noConfusion (hwriting.symm.trans (h.joined hj))
  told := by simp [Logger.writeOrSkip]
  toldStop := by simp [Logger.writeOrSkip]
  stops := h.stops

omit [DecidableEq τ] in
theorem workerStep (h : s.Inv) : s.workerStep.Inv := by
  unfold Logger.workerStep
  split
  · rename_i hready
    exact h.takeBatch hready
  · rename_i hwriting
    exact h.writeOrSkip hwriting
  · rename_i hwriting
    have hconserved := h.conserved
    rw [hwriting] at hconserved
    exact
      { conserved := by simpa [Worker.batch] using hconserved
        written := h.written
        flushed := fun _ => rfl
        exited := by simp
        joined := fun hj => Worker.noConfusion (hwriting.symm.trans (h.joined hj))
        told := by simp
        toldStop := by simp
        stops := h.stops }
  · exact h
  · exact h

theorem step (h : s.Inv) (m : Move τ) : (s.step m).Inv := by
  cases m with
  | emit t ev =>
    change (s.emit t ev).Inv
    unfold Logger.emit
    split
    · exact h.log t ev
    · exact h
  | log t ev => exact h.log t ev
  | setMinLevel t level =>
    change (s.setMinLevel t level).Inv
    unfold Logger.setMinLevel
    split
    · rename_i ht
      exact (h.setCaller (by rw [ht]; exact Caller.noConfusion) _).congr_levels level _
    · exact h
  | caller t => exact h.callerStep t
  | stop => exact h.stop
  | stopper => exact h.stopperStep
  | worker => exact h.workerStep
  | spurious => exact h.notify s.callers h.stops

end Inv

theorem run_inv (moves : List (Move τ)) : (run moves).Inv :=
  foldl_invariant (fun _ m h => h.step m) _ inv_init moves

/-- Events are looked at once each and in the order in which they were queued, and what the stream
has is those of them that were not below the level at that moment.  The thread waits only while the
queue is empty and the flag clear, or else somebody is about to notify it. -/
theorem written_once (moves : List (Move τ)) :
    (run moves).seen.map Prod.fst ++ ((run moves).worker.batch ++ (run moves).queue) =
        (run moves).logged ∧
      (run moves).os = admitted (run moves).seen ∧
      ((run moves).worker = .waiting →
        ((run moves).queue ≠ [] → ∃ t, (run moves).callers t = .notifying) ∧
          ((run moves).stopping = true → (run moves).stopper = .notifying)) :=
  have h := run_inv moves
  ⟨h.conserved, h.written, fun hw => ⟨h.told hw, h.toldStop hw⟩⟩

/-! ## Stopping -/

/-- What can have changed since: nothing queued is taken back, and the thread leaves only after all
that was queued before. -/
structure Later (s s' : Logger τ) : Prop where
  logged : s.logged <+: s'.logged
  frozen : s.worker = .exited → s'.worker = .exited ∧ s'.seen = s.seen ∧ s'.os = s.os
  left : s.worker ≠ .exited → s'.worker = .exited → s.logged <+: s'.seen.map Prod.fst

namespace Later

variable {u v : Logger τ}

omit [DecidableEq τ] in
theorem refl (s : Logger τ) : s.Later s where
  logged := List.prefix_rfl
  frozen := fun h => ⟨h, rfl, rfl⟩
  left := fun hne h => absurd h hne

omit [DecidableEq τ] in
theorem trans (h : s.Later u) (h' : u.Later v) : s.Later v where
  logged := h.logged.trans h'.logged
  frozen := by
    intro hs
    obtain ⟨hu, hseen, hos⟩ := h.frozen hs
    obtain ⟨hv, hseen', hos'⟩ := h'.frozen hu
    exact ⟨hv, hseen'.trans hseen, hos'.trans hos⟩
  left := by
    intro hs hv
    by_cases hu : u.worker = .exited
    · rw [(h'.frozen hu).2.1]
      exact h.left hs hu
    · exact h.logged.trans (h'.left hu hv)

omit [DecidableEq τ] in
/-- Steps of the callers: the thread does not leave by them. -/
theorem of_worker_eq (hlogged : s.logged <+: u.logged)
    (hworker : u.worker = s.worker ∨ u.worker = s.worker.wake) (hseen : u.seen = s.seen)
    (hos : u.os = s.os) : s.Later u := by
  have hexited : u.worker = .exited ↔ s.worker = .exited := by
    rcases hworker with h | h
    · rw [h]
    · rw [h]
      cases s.worker <;> simp [Worker.wake]
  exact
    { logged := hlogged
      frozen := fun h => ⟨hexited.mpr h, hseen, hos⟩
      left := fun hne h => absurd (hexited.mp h) hne }

omit [DecidableEq τ] in
theorem workerStep (hinv : s.Inv) : s.Later s.workerStep := by
  have hstays : ∀ {v : Logger τ}, s.worker ≠ .exited → v.worker ≠ .exited → v.logged = s.logged →
      s.Later v := by
    intro v hs hv hlogged
    exact
      { logged := hlogged ▸ List.prefix_rfl
        frozen := fun h => absurd h hs
        left := fun _ h => absurd h hv }
  unfold Logger.workerStep
  split
  · rename_i hready
    have hs : s.worker ≠ .exited := by simp [hready]
    unfold Logger.takeBatch
    split
    · rename_i hqueue
      have hall : s.logged = s.seen.map Prod.fst := by
        have hconserved := hinv.conserved
        rw [hready, hqueue] at hconserved
        simpa [Worker.batch] using hconserved.symm
      exact
        { logged := List.prefix_rfl
          frozen := fun h => absurd h hs
          left := fun _ _ => hall ▸ List.prefix_rfl }
    · exact hstays hs (by simp) rfl
  · rename_i hwriting
    exact hstays (by simp [hwriting]) (by simp [Logger.writeOrSkip]) rfl
  · rename_i hwriting
    exact hstays (by simp [hwriting]) (by simp) rfl
  · exact refl s
  · exact refl s

theorem callerStep (t : τ) : s.Later (s.callerStep t) := by
  unfold Logger.callerStep
  split
  · exact refl s
  · exact of_worker_eq (List.prefix_append ..) (.inl rfl) rfl rfl
  · exact of_worker_eq List.prefix_rfl (.inr rfl) rfl rfl
  · exact of_worker_eq List.prefix_rfl (.inl rfl) rfl rfl

omit [DecidableEq τ] in
theorem stopperStep : s.Later s.stopperStep := by
  unfold Logger.stopperStep
  split
  · exact refl s
  · exact of_worker_eq List.prefix_rfl (.inr rfl) rfl rfl
  · split
    · exact of_worker_eq List.prefix_rfl (.inl rfl) rfl rfl
    · exact refl s

theorem log (t : τ) (ev : LogEvent) : s.Later (s.log t ev) := by
  unfold Logger.log
  split
  · exact of_worker_eq List.prefix_rfl (.inl rfl) rfl rfl
  · exact refl s

theorem step (hinv : s.Inv) (m : Move τ) : s.Later (s.step m) := by
  cases m with
  | emit t ev =>
    change s.Later (s.emit t ev)
    unfold Logger.emit
    split
    · exact log t ev
    · exact refl s
  | log t ev => exact log t ev
  | setMinLevel t level =>
    change s.Later (s.setMinLevel t level)
    unfold Logger.setMinLevel
    split
    · exact of_worker_eq List.prefix_rfl (.inl rfl) rfl rfl
    · exact refl s
  | caller t => exact callerStep t
  | stop =>
    change s.Later s.stop
    unfold Logger.stop
    split
    · exact of_worker_eq List.prefix_rfl (.inl rfl) rfl rfl
    · exact refl s
  | stopper => exact stopperStep
  | worker => exact workerStep hinv
  | spurious => exact of_worker_eq List.prefix_rfl (.inr rfl) rfl rfl

end Later

theorem run_later (before after : List (Move τ)) : (run before).Later (run (before ++ after)) := by
  have h := foldl_invariant (I := fun v => v.Inv ∧ (run before).Later v)
    (fun v m hv => ⟨hv.1.step m, hv.2.trans (.step hv.1 m)⟩) (run before)
    ⟨run_inv before, .refl _⟩ after
  unfold run at h ⊢
  rw [List.foldl_append]
  exact h.2

/-- When `stop` has joined the thread, all events that were queued while the flag was clear have
been looked at and the stream is flushed; nothing is written from then on. -/
theorem stop_writes_all (before after : List (Move τ)) (hclear : (run before).stopping = false)
    (hjoined : (run (before ++ after)).joined = true) :
    ((run before).logged <+: (run (before ++ after)).seen.map Prod.fst) ∧
      (run (before ++ after)).flushed = (run (before ++ after)).os.length ∧
      ∀ more, (run (before ++ after ++ more)).os = (run (before ++ after)).os := by
  have hinv := run_inv (before ++ after)
  have hexited := hinv.joined hjoined
  have hnot : (run before).worker ≠ .exited := by
    intro h
    have hstop := (run_inv before).exited h
    rw [hclear] at hstop
    exact Bool.false_ne_true hstop
  refine ⟨(run_later before after).left hnot hexited, ?_, fun more => ?_⟩
  · exact hinv.flushed fun batch hwriting => Worker.noConfusion (hexited.symm.trans hwriting)
  · exact ((run_later (before ++ after) more).frozen hexited).2.2

/-- A thread logs one event. -/
def logOne : List (Move Bool) :=
  [.log true ⟨.info, ['u', 'p'], ⟨0, 0, 0, 0⟩, ['w', '0'], 7⟩, .caller true]

/-- `stop`, with the thread going on until it leaves. -/
def stopAndJoin : List (Move Bool) :=
  [.stop, .stopper, .worker, .worker, .worker, .worker, .stopper]

theorem stop_writes_all_logOne :
    ((run logOne).logged <+: (run (logOne ++ stopAndJoin)).seen.map Prod.fst) ∧
      (run (logOne ++ stopAndJoin)).flushed = 1 :=
  have h := stop_writes_all logOne stopAndJoin (by decide) (by decide)
  ⟨h.1, h.2.1⟩

/-! ### The join returns -/

/-- The steps from the lock on until the thread leaves, if nothing more is queued: one that finds
the queue empty, and before it those of a batch. -/
def fromLock : List LogEvent → Nat
  | [] => 1
  | queue => queue.length + 3

/-- The steps the thread has to take until it leaves. -/
def left (s : Logger τ) : Nat :=
  match s.worker with
  | .exited => 0
  | .ready | .waiting => fromLock s.queue
  | .writing batch => batch.length + 1 + fromLock s.queue

/-- `stop` waits in the join, and the thread has been told. -/
structure Joining (s : Logger τ) : Prop where
  stopper : s.stopper = .joining
  stopping : s.stopping = true
  awake : s.worker ≠ .waiting

omit [DecidableEq τ] in
theorem Joining.workerStep (h : s.Joining) :
    s.workerStep.Joining ∧ s.workerStep.left = s.left - 1 := by
  obtain ⟨hstopper, hstopping, hawake⟩ := h
  unfold Logger.workerStep
  split
  · rename_i hready
    unfold Logger.takeBatch
    split
    · rename_i hqueue
      simp only [hstopping]
      exact ⟨⟨hstopper, rfl, by simp⟩, by simp [left, hready, hqueue, fromLock]⟩
    · rename_i hqueue
      refine ⟨⟨hstopper, hstopping, by simp⟩, ?_⟩
      obtain ⟨ev, queue, hcons⟩ := List.exists_cons_of_ne_nil hqueue
      simp [left, hready, hcons, fromLock]
  · rename_i hwriting
    refine ⟨⟨hstopper, hstopping, by simp [Logger.writeOrSkip]⟩, ?_⟩
    simp only [left, Logger.writeOrSkip, hwriting, List.length_cons]
    omega
  · rename_i hwriting
    refine ⟨⟨hstopper, hstopping, by simp⟩, ?_⟩
    simp only [left, hwriting, List.length_nil]
    omega
  · rename_i hwaiting
    exact absurd hwaiting hawake
  · rename_i hexited
    exact ⟨⟨hstopper, hstopping, hawake⟩, by simp [left, hexited]⟩

omit [DecidableEq τ] in
theorem eq_exited_of_left_eq_zero (h : s.left = 0) : s.worker = .exited := by
  have hlock : 0 < fromLock s.queue := by
    cases s.queue <;> simp [fromLock]
  unfold left at h
  split at h
  · assumption
  · omega
  · omega
  · omega

/-- The caller of `stop` and the logger's thread take turns, so many of them. -/
def rounds (n : Nat) : List (Move τ) := (List.replicate n [Move.stopper, Move.worker]).flatten

omit [DecidableEq τ] in
theorem rounds_succ (n : Nat) :
    rounds (n + 1) = Move.stopper :: Move.worker :: (rounds n : List (Move τ)) := rfl

omit [DecidableEq τ] in
@[simp] theorem workerStep_stopper : s.workerStep.stopper = s.stopper := by
  unfold Logger.workerStep
  split
  · unfold Logger.takeBatch
    split <;> rfl
  all_goals rfl

theorem rounds_of_idle (n : Nat) (h : s.stopper = .idle) :
    ((rounds n).foldl step s).stopper = .idle := by
  induction n generalizing s with
  | zero => exact h
  | succ n ih =>
    have hstop : s.step .stopper = s := by simp [step, stopperStep, h]
    rw [rounds_succ, List.foldl_cons, List.foldl_cons, hstop]
    exact ih (workerStep_stopper.trans h)

theorem Joining.returns (h : s.Joining) (n : Nat) (hn : s.left < n) :
    ((rounds n).foldl step s).stopper = .idle := by
  induction n generalizing s with
  | zero => omega
  | succ n ih =>
    rw [rounds_succ, List.foldl_cons, List.foldl_cons]
    by_cases hended : s.joined = true ∨ s.worker = .exited
    · have hidle : (s.step .stopper).stopper = .idle := by
        simp [step, stopperStep, h.stopper, hended]
      exact rounds_of_idle n (workerStep_stopper.trans hidle)
    · have hstep : s.step .stopper = s := by simp [step, stopperStep, h.stopper, hended]
      rw [hstep]
      obtain ⟨hjoining, hleft⟩ := h.workerStep
      refine ih hjoining ?_
      have hpos : s.left ≠ 0 := fun hzero => hended (.inr (eq_exited_of_left_eq_zero hzero))
      change s.workerStep.left < n
      omega

omit [DecidableEq τ] in
theorem left_le : s.left ≤ s.worker.batch.length + s.queue.length + 4 := by
  have hlock : fromLock s.queue ≤ s.queue.length + 3 := by
    cases s.queue <;> simp [fromLock]
  cases hworker : s.worker with
  | exited => simp [left, hworker]
  | ready | waiting =>
    simp only [left, hworker, Worker.batch, List.length_nil]
    omega
  | writing batch =>
    simp only [left, hworker, Worker.batch]
    omega

/-- The call of `stop` returns.  Unless more is queued meanwhile, its caller and the logger's thread
have to take no more turns than there are events left, and six. -/
theorem stop_returns (moves : List (Move τ)) (k : Nat) :
    (run (moves ++
      rounds ((run moves).worker.batch.length + (run moves).queue.length + 6 + k))).stopper =
        .idle := by
  have hinv := run_inv moves
  unfold run at hinv ⊢
  rw [List.foldl_append]
  generalize moves.foldl step {} = s at hinv ⊢
  have hleft := s.left_le
  cases hstopper : s.stopper with
  | idle => exact rounds_of_idle _ hstopper
  | notifying =>
    -- the first turn is the notification
    have hnext : s.step .stopper = { s.notify with stopper := .joining } := by
      simp [step, stopperStep, hstopper]
    have hjoining : (s.step .stopper).Joining := by
      rw [hnext]
      refine ⟨rfl, hinv.stops (by simp [hstopper]), ?_⟩
      change s.worker.wake ≠ .waiting
      cases s.worker <;> simp [Worker.wake]
    have hsame : (s.step .stopper).left = s.left := by
      rw [hnext]
      cases hworker : s.worker <;> simp [left, Logger.notify, hworker, Worker.wake]
    obtain ⟨hworker, hfewer⟩ := hjoining.workerStep
    have hrounds : s.worker.batch.length + s.queue.length + 6 + k =
        s.worker.batch.length + s.queue.length + 5 + k + 1 := by omega
    rw [hrounds, rounds_succ, List.foldl_cons, List.foldl_cons]
    refine hworker.returns _ ?_
    omega
  | joining =>
    have hstopping := hinv.stops (by simp [hstopper])
    have hawake : s.worker ≠ .waiting := fun hwaiting =>
      Stopper.noConfusion (hstopper.symm.trans (hinv.toldStop hwaiting hstopping))
    exact Joining.returns ⟨hstopper, hstopping, hawake⟩ _ (by omega)

end Logger

end HyperNet.Core.Logging
