import HyperNet.Net.Worker

/-!
# The acceptor

`Acceptor::handleEvent` (`engine/src/hypernet/net/Acceptor.cpp`) on the state of a worker.  The
listening descriptor is registered edge-triggered (`WorkerContext.cpp`): the loop reports it once
when a connection is queued, and not again before another one is.  A handler that returns while
connections are queued leaves them to that next one.

The kernel is the answers it gives to `accept4`, one `Turn` for each round of the loop, and nothing
is assumed of them; `handleEvent_drains_iff` says for which of them the handler leaves an empty
queue or no listener.  The queue itself is in the last section, which shows that an `EAGAIN` is what
the handler has to wait for.

The application's callbacks run inside the loop, through `SessionManager::onAccepted`.  They cannot
reach the acceptor: `requestStopAccepting` is called by the thread that shuts the engine down and
arrives as a task.
-/

namespace HyperNet.Net

open Reentrant

def EINTR : Nat := 4

def EAGAIN : Nat := 11

def EWOULDBLOCK : Nat := 11

def EMFILE : Nat := 24

def ENOSYS : Nat := 38

def ECONNABORTED : Nat := 103

/-- What one `accept4` or `accept` returns. -/
inductive AcceptAnswer where
  | client (fd : Int)
  | errno (e : Nat)
deriving DecidableEq, Repr

/-- One round of the loop: the answer of `accept4`, that of the `accept` a kernel without `accept4`
is asked next, and whether there is memory for the session. -/
structure Turn where
  accept4 : AcceptAnswer
  accept : AcceptAnswer := .errno ENOSYS
  memory : Bool := true
deriving DecidableEq, Repr

/-- `Socket::accept`. -/
def Turn.answer (t : Turn) : AcceptAnswer :=
  match t.accept4 with
  | .client fd => .client fd
  | .errno e => if e = ENOSYS then t.accept else .errno e

/-- An event for which the listener is given up. -/
def ReadyEvent.IsError (ev : ReadyEvent) : Prop :=
  ev.events &&& (Event.error ||| Event.hangup ||| Event.readHangup) ≠ 0

instance (ev : ReadyEvent) : Decidable ev.IsError := inferInstanceAs (Decidable (_ ≠ _))

/-- `listenSocket_`; `-1` once closed. -/
structure Acceptor where
  listenSocket : Int
deriving DecidableEq, Repr

/-- A worker with its acceptor after an event, and the `errno` of the last `accept`. -/
structure Handled where
  acceptor : Acceptor
  world : World
  last : Option Nat

namespace Acceptor

section Source

variable (app : Callback → World → World) (a : Acceptor)

def acceptOne (t : Turn) : AcceptAnswer :=
  if a.listenSocket < 0 then .errno EBADF else t.answer

/-- `onReadable_`, with the `errno` that ends it; `none` if the turns run out before. -/
def onReadable : List Turn → World → Option (World × Nat)
  | [], _ => none
  | t :: ts, w =>
    match a.acceptOne t with
    | .errno e =>
      if e = EAGAIN ∨ e = EWOULDBLOCK then some (w, e)
      else if e = EINTR then onReadable ts w
      else some (w, e)
    | .client fd => onReadable ts (acceptFresh app fd t.memory w).1

/-- `onError_`. -/
def onError (ev : ReadyEvent) (w : World) : Acceptor × World :=
  ({ listenSocket := -1 }, (w.removeFd ev.fd).closeFd a.listenSocket)

def handleEvent (ev : ReadyEvent) (turns : List Turn) (w : World) : Option Handled :=
  if ev.IsError then some ⟨(a.onError ev w).1, (a.onError ev w).2, none⟩
  else if ev.events &&& Event.read ≠ 0 then
    (a.onReadable app turns w).map fun (w, e) => ⟨a, w, some e⟩
  else some ⟨a, w, none⟩

end Source

end Acceptor

/-- The loop does not go on after this turn. -/
def Turn.ends (t : Turn) : Bool :=
  match t.answer with
  | .client _ => false
  | .errno e => e ≠ EINTR

/-- The listener is closed and deregistered. -/
def Handled.Closed (r : Handled) (ev : ReadyEvent) : Prop :=
  r.acceptor.listenSocket = -1 ∧ r.world.loop.fdContexts ev.fd = none ∧
    r.world.isOpen ev.fd = false

namespace Acceptor

variable {app : Callback → World → World} {a : Acceptor} {w : World}

/-- The loop returns at the first turn that ends it, with what that turn reports. -/
theorem onReadable_last (ha : 0 ≤ a.listenSocket) (turns : List Turn) (w : World) :
    (a.onReadable app turns w).map (fun r => AcceptAnswer.errno r.2) =
      (turns.find? Turn.ends).map Turn.answer := by
  induction turns generalizing w with
  | nil => rfl
  | cons t ts ih =>
    have hone : a.acceptOne t = t.answer := if_neg (Int.not_lt.mpr ha)
    rw [onReadable, hone]
    cases hanswer : t.answer with
    | client fd =>
      have hends : ¬ t.ends = true := by simp [Turn.ends, hanswer]
      rw [List.find?_cons_of_neg hends]
      exact ih _
    | errno e =>
      dsimp only
      by_cases hintr : e = EINTR
      · have hends : ¬ t.ends = true := by simp [Turn.ends, hanswer, hintr]
        rw [List.find?_cons_of_neg hends, hintr, if_neg (by decide), if_pos rfl]
        exact ih w
      · have hends : t.ends = true := by simp [Turn.ends, hanswer, hintr]
        rw [List.find?_cons_of_pos hends, if_neg hintr, ite_self]
        exact congrArg some hanswer.symm

theorem onError_closed {ev : ReadyEvent} (hfd : ev.fd = a.listenSocket)
    (ha : 0 ≤ a.listenSocket) (w : World) :
    Handled.Closed ⟨(a.onError ev w).1, (a.onError ev w).2, none⟩ ev := by
  refine ⟨rfl, ?_, if_pos hfd⟩
  change (w.loop.removeFd w.ctl ev.fd).1.fdContexts ev.fd = none
  rw [EventLoop.removeFd, if_neg (Int.not_lt.mpr (hfd ▸ ha))]
  exact EventLoop.fdContexts_set_self ..

end Acceptor

/-! ## The queue of connections -/

/-- What happens in the kernel until an `accept` returns: connections are queued, and the call
may fail for another reason than an empty queue. -/
structure KernelTurn where
  arrivals : Nat := 0
  fault : Option { e : Nat // e ≠ EAGAIN } := none
  fd : Int := 0
  memory : Bool := true

/-- The answer with `k` connections queued, and how many are left; a connection that was aborted
in the queue leaves it with the error. -/
def KernelTurn.accept (m : KernelTurn) (k : Nat) : AcceptAnswer × Nat :=
  match m.fault with
  | some e => (.errno e.1, if e.1 = ECONNABORTED then k + m.arrivals - 1 else k + m.arrivals)
  | none =>
    match k + m.arrivals with
    | 0 => (.errno EAGAIN, 0)
    | n + 1 => (.client m.fd, n)

def KernelTurn.turn (m : KernelTurn) (k : Nat) : Turn :=
  { accept4 := (m.accept k).1, memory := m.memory }

/-- The turns of a loop that begins with `k` connections queued. -/
def kernelTurns : Nat → List KernelTurn → List Turn
  | _, [] => []
  | k, m :: ms => m.turn k :: kernelTurns (m.accept k).2 ms

/-- How many are queued when the loop returns. -/
def queuedAfter : Nat → List KernelTurn → Nat
  | k, [] => k
  | k, m :: ms => if (m.turn k).ends = true then (m.accept k).2 else queuedAfter (m.accept k).2 ms

theorem KernelTurn.answer_turn (m : KernelTurn) (k : Nat) : (m.turn k).answer = (m.accept k).1 := by
  unfold Turn.answer
  split
  next h => exact h.symm
  next e h =>
    split
    next he => exact (h.trans (congrArg _ he)).symm
    · exact h.symm

/-- Only an empty queue answers `EAGAIN`. -/
theorem KernelTurn.accept_drained {m : KernelTurn} {k : Nat}
    (h : (m.accept k).1 = .errno EAGAIN) : (m.accept k).2 = 0 := by
  unfold accept at h ⊢
  split at h
  next e hfault => exact absurd (AcceptAnswer.errno.inj h) e.2
  next hfault =>
    split at h
    next hempty => rfl
    · cases h

/-- A loop that ends with `EAGAIN` leaves an empty queue. -/
theorem queuedAfter_eq_zero {k : Nat} {ms : List KernelTurn}
    (h : ((kernelTurns k ms).find? Turn.ends).map Turn.answer = some (.errno EAGAIN)) :
    queuedAfter k ms = 0 := by
  induction ms generalizing k with
  | nil => cases h
  | cons m ms ih =>
    rw [kernelTurns] at h
    rw [queuedAfter]
    split
    next hends =>
      rw [List.find?_cons_of_pos hends] at h
      exact KernelTurn.accept_drained ((m.answer_turn k).symm.trans (Option.some.inj h))
    next hends =>
      rw [List.find?_cons_of_neg hends] at h
      exact ih h

/-! ## Draining -/

namespace Acceptor

/-- A readable event of the listener is handled when an error is reported with it or a turn ends
the loop.  The listener is then closed and deregistered, or the last `accept` reported `EAGAIN` and
has left no connection in the queue, exactly if there was an error event or the first turn that
ends the loop is that `EAGAIN`. -/
theorem handleEvent_drains_iff (app : Callback → World → World) (a : Acceptor) (ev : ReadyEvent)
    (turns : List Turn) (w : World) (hfd : ev.fd = a.listenSocket) (ha : 0 ≤ a.listenSocket)
    (hread : ev.events &&& Event.read ≠ 0) :
    ((a.handleEvent app ev turns w).isSome = true ↔
      ev.IsError ∨ (turns.find? Turn.ends).isSome = true) ∧
    ∀ r, a.handleEvent app ev turns w = some r →
      ((r.Closed ev ∨ r.last = some EAGAIN) ↔
        ev.IsError ∨ (turns.find? Turn.ends).map Turn.answer = some (.errno EAGAIN)) ∧
      ∀ k ms, turns = kernelTurns k ms → r.last = some EAGAIN → queuedAfter k ms = 0 := by
  have hlast : (a.onReadable app turns w).map (fun r => AcceptAnswer.errno r.2) =
      (turns.find? Turn.ends).map Turn.answer := onReadable_last ha turns w
  by_cases herror : ev.IsError
  · rw [handleEvent, if_pos herror]
    refine ⟨⟨fun _ => .inl herror, fun _ => rfl⟩, ?_⟩
    rintro r ⟨⟩
    refine ⟨⟨fun _ => .inl herror, fun _ => .inl (onError_closed hfd ha w)⟩, ?_⟩
    rintro k ms - ⟨⟩
  · rw [handleEvent, if_neg herror, if_pos hread]
    refine ⟨?_, ?_⟩
    · rw [Option.isSome_map, or_iff_right herror, ← Option.isSome_map (f := Turn.answer), ← hlast,
        Option.isSome_map]
    · intro r hr
      obtain ⟨⟨w', e⟩, hloop, rfl⟩ := Option.map_eq_some_iff.mp hr
      rw [hloop] at hlast
      have hopen : ¬ Handled.Closed ⟨a, w', some e⟩ ev := by
        rintro ⟨hclosed : a.listenSocket = -1, -⟩
        rw [hclosed] at ha
        cases ha
      have hiff : some e = some EAGAIN ↔
          (turns.find? Turn.ends).map Turn.answer = some (.errno EAGAIN) := by
        rw [← hlast, Option.map_some, Option.some_inj, Option.some_inj, AcceptAnswer.errno.injEq]
      refine ⟨?_, ?_⟩
      · rw [or_iff_right hopen, or_iff_right herror]
        exact hiff
      · rintro k ms rfl hdrained
        exact queuedAfter_eq_zero (hiff.mp hdrained)

/-- A worker that listens on descriptor 5. -/
def sampleListening : World :=
  World.registerOther { cfg := sampleConfig, arrivals := 4 } 5 baseEpollMask 0

theorem handleEvent_drains_iff_sample :
    let a : Acceptor := { listenSocket := 5 }
    let turns : List Turn := [⟨.client 6, .errno 0, true⟩, ⟨.errno EINTR, .errno 0, true⟩,
      ⟨.errno EAGAIN, .errno 0, true⟩]
    let result := a.handleEvent (fun _ w => w) ⟨5, Event.read⟩ turns sampleListening
    (result.isSome = true ↔
      ReadyEvent.IsError ⟨5, Event.read⟩ ∨ (turns.find? Turn.ends).isSome = true) ∧
    ∀ r, result = some r →
      ((r.Closed ⟨5, Event.read⟩ ∨ r.last = some EAGAIN) ↔
        ReadyEvent.IsError ⟨5, Event.read⟩ ∨
          (turns.find? Turn.ends).map Turn.answer = some (.errno EAGAIN)) ∧
      ∀ k ms, turns = kernelTurns k ms → r.last = some EAGAIN → queuedAfter k ms = 0 :=
  handleEvent_drains_iff (fun _ w => w) { listenSocket := 5 } ⟨5, Event.read⟩ _ sampleListening
    rfl (by decide) (by decide)

/-- With two connections queued the first of which was aborted, the handler returns at once: the
listener stays as it is, and the second connection in the queue. -/
theorem aborted_connection_strands :
    let ms : List KernelTurn := [{ fault := some ⟨ECONNABORTED, by decide⟩ }]
    let result := Acceptor.handleEvent (fun _ w => w) { listenSocket := 5 } ⟨5, Event.read⟩
      (kernelTurns 2 ms) sampleListening
    result.map (fun r => (r.acceptor.listenSocket, (r.world.loop.fdContexts 5).isSome, r.last)) =
      some (5, true, some ECONNABORTED) ∧ queuedAfter 2 ms = 1 := by
  decide

/-! ## Events as runs -/

/-- A step in which neither the clock nor the kernel's answers to come change. -/
theorem step_still (w : World) (input : Input) (user : Callback → World → Client) :
    step w { input, user, writes := w.writes, ctls := w.ctls, now := w.now } =
      input.exec (respond call user) w := by
  simp only [step, Step.app, Nat.max_self]

/-- The connections of one event are accepted one by one. -/
theorem onReadable_run {a : Acceptor} {user : Callback → World → Client} {turns : List Turn}
    {w w' : World} {e : Nat} (h : a.onReadable (respond call user) turns w = some (w', e)) :
    ∃ steps : List Step, w' = steps.foldl step w := by
  induction turns generalizing w with
  | nil => cases h
  | cons t ts ih =>
    rw [onReadable] at h
    split at h
    next e' hone =>
      split at h
      · cases h
        exact ⟨[], rfl⟩
      · split at h
        · exact ih h
        · cases h
          exact ⟨[], rfl⟩
    next fd hone =>
      obtain ⟨steps, rfl⟩ := ih h
      refine ⟨{ input := .accept fd t.memory, user, writes := w.writes, ctls := w.ctls,
                now := w.now } :: steps, ?_⟩
      rw [List.foldl_cons, step_still]
      rfl

/-- What the acceptor does in an event is a run of the worker, so that what holds throughout the
worker's runs holds after it. -/
theorem handleEvent_run {a : Acceptor} {ev : ReadyEvent} {user : Callback → World → Client}
    {turns : List Turn} {w : World} {r : Handled} (hfd : ev.fd = a.listenSocket)
    (hother : w.isOther ev.fd = true)
    (h : a.handleEvent (respond call user) ev turns w = some r) :
    ∃ steps : List Step, r.world = steps.foldl step w := by
  unfold handleEvent at h
  split at h
  · cases h
    refine ⟨[{ input := .releaseOther ev.fd, user, writes := w.writes, ctls := w.ctls,
               now := w.now }], ?_⟩
    rw [List.foldl_cons, step_still]
    change (w.removeFd ev.fd).closeFd a.listenSocket = w.releaseOther ev.fd
    rw [World.releaseOther, if_pos hother, hfd]
  · split at h
    · obtain ⟨⟨w', e⟩, hloop, rfl⟩ := Option.map_eq_some_iff.mp h
      exact onReadable_run hloop
    · cases h
      exact ⟨[], rfl⟩

end Acceptor

end HyperNet.Net
