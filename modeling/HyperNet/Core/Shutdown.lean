import HyperNet.Lib.Reentrant
import Mathlib.Data.List.Basic
import Mathlib.Data.List.Range
import Mathlib.Tactic.Common

/-!
# The shutdown of the engine

`Engine::shutdownGracefully_` (`engine/src/hypernet/Engine.cpp`) runs in the main
thread while the workers' loops still run in theirs.  It stops all workers but the
first, lets the first one call the application's `onServerStop`, and then stops that
one too.  `WorkerControllerAppBase::onServerStop` (`apps/common`) tells the
controllers of all workers to stop, by a post to each worker's loop; the scheduler it
posts through (`net/WorkerSchedulerFactory.cpp`) holds plain pointers to the loops,
and `WorkerContext::shutdown` destroys them.

A `System` is the main thread, at one of the steps of `Main`, and the workers, each at
one of the steps of `EventLoop::run` and with its queue of tasks.  A run is any
sequence of `Choice`s of who moves.  Times are choices as well: whether the answer of
a worker comes within its 200 ms, whether the time to drain is over.  What handlers
and tasks do otherwise is only followed as far as it matters here: they may change
the number of sessions and post further tasks.

`shutdown_safe_iff` says that after a successful start the shutdown does what it is there
for if there is one worker, and never if there are more: by the time `onServerStop` posts to
the others, their loops are gone.  After a failed one it is too late from the beginning, as
`startWorkers_` has shut all workers down before `run` catches its exception.
-/

namespace HyperNet.Core

open Reentrant

/-! ## State -/

inductive Task where
  /-- `requestStopAccepting`, `requestCloseAllSessions` and what applications post. -/
  | work
  /-- The `asked`-th `querySessionCountBlocking`. -/
  | count (asked : Nat)
  /-- `postAndWait("onServerStop", …)`. -/
  | serverStop
  /-- What `onServerStop` posts to worker `i`. -/
  | controllerStop (i : Nat)
deriving DecidableEq, Repr

/-- Where a worker's thread is in `EventLoop::run`. -/
inductive Thread where
  /-- Before the test of `runningFlag`. -/
  | check
  /-- In the first or the last `drainTasks` of `runOnce`. -/
  | drain (last : Bool)
  /-- There, in the loop of the application's `onServerStop`. -/
  | stopping (last : Bool) (i : Nat)
  /-- Between the two: timers and descriptors. -/
  | serve
  | ended
deriving DecidableEq, Repr

structure Worker where
  running : Bool := true
  thread : Thread := .check
  /-- `eventLoop_` has not been destroyed. -/
  alive : Bool := true
  queue : List Task := []
  sessions : Nat := 0

/-- Where the main thread is in `shutdownGracefully_`. -/
inductive Main where
  /-- Phase 1, at worker `i`. -/
  | stopAccepting (i : Nat)
  /-- Phase 2: worker `i` is asked, … -/
  | query (i remaining : Nat)
  /-- … its answer is waited for, … -/
  | await (i remaining : Nat)
  /-- … and the sum is looked at. -/
  | poll (remaining : Nat)
  | closeAll (i : Nat)
  /-- Phases 3 and 5, `shutdown` of worker `i`: `running_` is cleared, … -/
  | stop (i : Nat)
  /-- … the thread is joined, and the loop destroyed. -/
  | join (i : Nat)
  /-- Phase 4. -/
  | postStop
  | waitStop
  | done
deriving DecidableEq, Repr

structure System where
  main : Main := .stopAccepting 0
  workers : Nat → Worker := fun _ => {}
  /-- The number of the current query, and its answer. -/
  asked : Nat := 0
  answer : Option Nat := none
  /-- The promise of `postAndWait`. -/
  promise : Bool := false
  /-- The calls of `postToWorker` made by `onServerStop`, and whether the loop existed. -/
  posts : List (Nat × Bool) := []
  /-- The controllers whose `onServerStop` was called, and on which worker. -/
  stopped : List (Nat × Nat) := []

namespace System

def modify (σ : System) (i : Nat) (f : Worker → Worker) : System :=
  { σ with workers := fun k => if k = i then f (σ.workers k) else σ.workers k }

def goto (σ : System) (main : Main) : System := { σ with main }

def setThread (σ : System) (i : Nat) (thread : Thread) : System :=
  σ.modify i fun w => { w with thread }

/-- `EventLoop::post`. -/
def push (σ : System) (i : Nat) (t : Task) : System :=
  σ.modify i fun w => { w with queue := w.queue ++ [t] }

/-- `GlobalWorkerScheduler::postToWorker`; there is nothing to push to where the loop
has been destroyed. -/
def postToWorker (σ : System) (i : Nat) (t : Task) : System :=
  let noted := { σ with posts := σ.posts ++ [(i, (σ.workers i).alive)] }
  if (σ.workers i).alive then noted.push i t else noted

/-! ## The threads -/

/-- The first of the workers to be stopped, if there is another than worker 0. -/
def firstStop (n : Nat) : Main := if 1 < n then .stop 1 else .postStop

/-- What follows the shutdown of worker `i`. -/
def nextStop (n i : Nat) : Main :=
  if i = 0 then .done else if i + 1 < n then .stop (i + 1) else .postStop

/-- A step of `shutdownGracefully_`; `late` is whether the time is over where it waits. -/
def stepMain (n : Nat) (late : Bool) (σ : System) : System :=
  match σ.main with
  | .stopAccepting i =>
    if i < n then (σ.push i .work).goto (.stopAccepting (i + 1)) else σ.goto (.query 0 0)
  | .query i remaining =>
    if i < n then
      let asked := σ.asked + 1
      ({ σ with asked, answer := none }.push i (.count asked)).goto (.await i remaining)
    else σ.goto (.poll remaining)
  | .await i remaining =>
    match σ.answer with
    | some count => σ.goto (.query (i + 1) (remaining + count))
    | none => if late then σ.goto (.query (i + 1) remaining) else σ
  | .poll remaining =>
    if remaining = 0 then σ.goto (firstStop n)
    else if late then σ.goto (.closeAll 0)
    else σ.goto (.query 0 0)
  | .closeAll i =>
    if i < n then (σ.push i .work).goto (.closeAll (i + 1)) else σ.goto (firstStop n)
  | .stop i => (σ.modify i fun w => { w with running := false }).goto (.join i)
  | .join i =>
    if (σ.workers i).thread = .ended then
      (σ.modify i fun w => { w with alive := false }).goto (nextStop n i)
    else σ
  | .postStop => (σ.push 0 .serverStop).goto .waitStop
  | .waitStop => if σ.promise then σ.goto (.stop 0) else σ
  | .done => σ

/-- Worker `i` runs a task; `sessions` is how many sessions it has afterwards. -/
def exec (installed : Nat → Bool) (i : Nat) (last : Bool) (sessions : Nat) (σ : System) :
    Task → System
  | .work => σ.modify i fun w => { w with sessions }
  | .count asked =>
    if asked = σ.asked then { σ with answer := some (σ.workers i).sessions } else σ
  | .serverStop => σ.setThread i (.stopping last 0)
  | .controllerStop j =>
    if installed j then { σ with stopped := σ.stopped ++ [(j, i)] } else σ

/-- A step of `EventLoop::run` on worker `i`, or of the loop of `onServerStop`. -/
def stepWorker (n : Nat) (installed : Nat → Bool) (i sessions : Nat) (σ : System) : System :=
  match (σ.workers i).thread with
  | .check =>
    if (σ.workers i).running then σ.setThread i (.drain false)
    else σ.modify i fun w => { w with thread := .ended, sessions := 0 }
  | .drain last =>
    match (σ.workers i).queue with
    | [] => σ.setThread i (if last then .check else .serve)
    | t :: queue => exec installed i last sessions (σ.modify i fun w => { w with queue }) t
  | .stopping last j =>
    if j < n then
      (σ.postToWorker j (.controllerStop j)).setThread i (.stopping last (j + 1))
    else { σ with promise := true }.setThread i (.drain last)
  | .serve => σ.modify i fun w => { w with thread := .drain true, sessions }
  | .ended => σ

end System

/-- Who moves. -/
inductive Choice where
  | main (late : Bool)
  | worker (i sessions : Nat)
  /-- A handler or a task posts to the loop of worker `i`. -/
  | post (i : Nat)
deriving DecidableEq, Repr

namespace System

def step (n : Nat) (installed : Nat → Bool) (σ : System) : Choice → System
  | .main late => σ.stepMain n late
  | .worker i sessions => if i < n then σ.stepWorker n installed i sessions else σ
  | .post i => if i < n ∧ (σ.workers i).alive then σ.push i .work else σ

def run (n : Nat) (installed : Nat → Bool) (schedule : List Choice) (σ : System) : System :=
  schedule.foldl (step n installed) σ

/-- The state in which the shutdown begins: all workers run, each anywhere in its loop
and with any work to do. -/
structure Started (n : Nat) (σ : System) : Prop where
  main : σ.main = .stopAccepting 0
  promise : σ.promise = false
  posts : σ.posts = []
  stopped : σ.stopped = []
  running : ∀ i < n, (σ.workers i).running = true
  alive : ∀ i < n, (σ.workers i).alive = true
  thread : ∀ i, (σ.workers i).thread ∈ [.check, .drain false, .serve, .drain true]
  queue : ∀ i, ∀ t ∈ (σ.workers i).queue, t = .work

/-- The state in which it begins if the start of a worker has failed: the threads of the first
`ended` workers have run and have been joined, and all loops are destroyed. -/
structure StartFailed (n ended : Nat) (σ : System) : Prop where
  main : σ.main = .stopAccepting 0
  posts : σ.posts = []
  stopped : σ.stopped = []
  ended_le : ended ≤ n
  alive : ∀ i < n, (σ.workers i).alive = false
  thread : ∀ i < ended, (σ.workers i).thread = .ended

/-- What a shutdown must not do and must have done: every post of `onServerStop` finds
its loop, and a thread does not end before the controller of its worker, if there is
one, has been stopped, once and there. -/
structure Safe (n : Nat) (installed : Nat → Bool) (σ : System) : Prop where
  posts : ∀ p ∈ σ.posts, p.2 = true
  stopped : ∀ i < n, installed i → (σ.workers i).thread = .ended →
    σ.stopped.filter (·.1 = i) = [(i, i)]

end System

/-! ## Where the main thread has got to -/

/-- Before phase 4, in it, and after it. -/
inductive Phase where
  | before
  | waiting
  | after
deriving DecidableEq

namespace Main

def phase : Main → Phase
  | .stop i | .join i => if i = 0 then .after else .before
  | .waitStop => .waiting
  | .done => .after
  | _ => .before

/-- The loop of worker `k` has been destroyed, … -/
def down (k : Nat) : Main → Bool
  | .stop i | .join i => 0 < k && (i = 0 || k < i)
  | .postStop | .waitStop => 0 < k
  | .done => true
  | _ => false

/-- … or its thread at least told to end. -/
def told (k : Nat) (m : Main) : Bool := m.down k || m = .join k

variable {m : Main}

theorem eq_waitStop (h : m.phase = .waiting) : m = .waitStop := by
  cases m
  case waitStop => rfl
  case stop | join =>
    simp only [phase] at h
    split at h <;> contradiction
  all_goals contradiction

/-- Worker 0 is told to end after phase 4. -/
theorem after_of_told (h : m.told 0 = true) : m.phase = .after := by
  cases m
  case done => rfl
  case join i =>
    obtain rfl : i = 0 := by simpa [told, down] using h
    rfl
  all_goals simp [told, down] at h

/-- For the workers, the main thread is as far as it was. -/
structure Agrees (n : Nat) (m m' : Main) : Prop where
  phase : m.phase = m'.phase
  down : ∀ k < n, m.down k = m'.down k
  told : ∀ k < n, m.told k = m'.told k

/-- Phases 1 and 2. -/
def isEarly : Main → Bool
  | .stopAccepting _ | .query _ _ | .await _ _ | .poll _ | .closeAll _ => true
  | _ => false

theorem down_of_isEarly (h : m.isEarly = true) (k : Nat) : m.down k = false := by
  cases m <;> first | rfl | contradiction

theorem told_of_isEarly (h : m.isEarly = true) (k : Nat) : m.told k = false := by
  rw [told, down_of_isEarly h]
  cases m <;> first | rfl | contradiction

theorem phase_of_isEarly (h : m.isEarly = true) : m.phase = .before := by
  cases m <;> first | rfl | contradiction

/-- In phases 1 and 2 no worker is affected yet, … -/
theorem agrees_of_isEarly {m m' : Main} (n : Nat) (h : m.isEarly = true)
    (h' : m'.isEarly = true) : m.Agrees n m' where
  phase := (phase_of_isEarly h).trans (phase_of_isEarly h').symm
  down k _ := (down_of_isEarly h k).trans (down_of_isEarly h' k).symm
  told k _ := (told_of_isEarly h k).trans (told_of_isEarly h' k).symm

/-- … nor by the beginning of phase 3. -/
theorem firstStop_agrees (n : Nat) (h : m.isEarly = true) : (System.firstStop n).Agrees n m := by
  unfold System.firstStop
  split
  · refine ⟨(phase_of_isEarly h).symm, fun k _ => ?_, fun k _ => ?_⟩
    · rw [down_of_isEarly h, down]
      simp
      omega
    · rw [told_of_isEarly h, told, down]
      simp
      omega
  · refine ⟨(phase_of_isEarly h).symm, fun k _ => ?_, fun k _ => ?_⟩
    · rw [down_of_isEarly h, down]
      simp
      omega
    · rw [told_of_isEarly h, told, down]
      simp
      omega

/-- The shutdown of worker `i` tells it to end, … -/
theorem told_join (i k : Nat) : (Main.join i).told k = ((Main.stop i).told k || k = i) := by
  simp [told, down, eq_comm]

/-- … and destroys its loop. -/
theorem down_nextStop {n k : Nat} (i : Nat) (hk : k < n) :
    (System.nextStop n i).down k = ((Main.join i).down k || k = i) := by
  unfold System.nextStop
  rw [Bool.eq_iff_iff]
  split
  · simp [down]
    omega
  · split
    · simp [down]
      omega
    · simp [down]
      omega

theorem told_nextStop (n i k : Nat) :
    (System.nextStop n i).told k = (System.nextStop n i).down k := by
  unfold System.nextStop told
  split
  · rfl
  · split <;> simp

theorem phase_nextStop (n i : Nat) : (System.nextStop n i).phase = (Main.join i).phase := by
  unfold System.nextStop
  by_cases hi : i = 0
  · subst hi
    rfl
  · have hjoin : (Main.join i).phase = .before := if_neg hi
    rw [if_neg hi, hjoin]
    split <;> rfl

end Main

/-! ## What holds of every worker -/

/-- A notice that the server stops. -/
def Task.isNotice : Task → Bool
  | .serverStop | .controllerStop _ => true
  | _ => false

/-- The notices in a queue. -/
def notices (queue : List Task) : List Task := queue.filter Task.isNotice

def Thread.isStopping : Thread → Bool
  | .stopping _ _ => true
  | _ => false

/-- Worker `i` is as the main thread has left it. -/
structure Fits (m : Main) (i : Nat) (w : Worker) : Prop where
  alive : w.alive = !m.down i
  running : w.running = !m.told i
  ended : w.thread = .ended → w.running = false
  /-- Only worker 0 is told that the server stops. -/
  quiet : i ≠ 0 → notices w.queue = [] ∧ w.thread.isStopping = false

/-- The first `j` posts of `onServerStop`. -/
def postsTo (j : Nat) : List (Nat × Bool) := (List.range j).map fun i => (i, i = 0)

/-- What phase 4 is about: the main thread, the thread and the notices of worker 0, and
what has been done. -/
structure View where
  phase : Phase
  thread : Thread
  notices : List Task
  promise : Bool
  posts : List (Nat × Bool)
  stopped : List (Nat × Nat)

def System.view (σ : System) : View where
  phase := σ.main.phase
  thread := (σ.workers 0).thread
  notices := notices (σ.workers 0).queue
  promise := σ.promise
  posts := σ.posts
  stopped := σ.stopped

/-- The stages of phase 4. -/
inductive Stage (n : Nat) (installed : Nat → Bool) : View → Prop
  | before {t} (ht : t.isStopping = false) : Stage n installed ⟨.before, t, [], false, [], []⟩
  /-- The callback is in the queue of worker 0, … -/
  | called {t} (ht : t.isStopping = false) :
      Stage n installed ⟨.waiting, t, [.serverStop], false, [], []⟩
  /-- … it posts to the workers, … -/
  | posting {last j} (hj : j ≤ n) :
      Stage n installed ⟨.waiting, .stopping last j, (if j = 0 then [] else [.controllerStop 0]),
        false, postsTo j, []⟩
  /-- … and has posted; worker 0 goes on to drain its queue … -/
  | posted {phase last} (hphase : phase ≠ .before) :
      Stage n installed ⟨phase, .drain last, [.controllerStop 0], true, postsTo n, []⟩
  /-- … and has got to the task of its own controller. -/
  | stopped {phase t} (hphase : phase ≠ .before) (ht : t.isStopping = false) :
      Stage n installed ⟨phase, t, [], true, postsTo n, if installed 0 then [(0, 0)] else []⟩

structure Inv (n : Nat) (installed : Nat → Bool) (σ : System) : Prop where
  fits : ∀ i < n, Fits σ.main i (σ.workers i)
  stage : Stage n installed σ.view

theorem Fits.agree {m m' : Main} {i : Nat} {w : Worker} (h : Fits m i w)
    (hdown : m'.down i = m.down i) (htold : m'.told i = m.told i) : Fits m' i w where
  __ := h
  alive := hdown ▸ h.alive
  running := htold ▸ h.running

/-- A queue may get work. -/
theorem notices_concat (queue : List Task) {t : Task} (ht : t.isNotice = false) :
    notices (queue ++ [t]) = notices queue := by
  simp [notices, ht]

theorem Fits.push {m : Main} {i : Nat} {w : Worker} (h : Fits m i w) {t : Task}
    (ht : t.isNotice = false) : Fits m i { w with queue := w.queue ++ [t] } where
  __ := h
  quiet hi := ⟨(notices_concat w.queue ht).trans (h.quiet hi).1, (h.quiet hi).2⟩

namespace System

variable {n : Nat} {installed : Nat → Bool} {σ : System}

theorem workers_modify_self (σ : System) (i : Nat) (f : Worker → Worker) :
    (σ.modify i f).workers i = f (σ.workers i) :=
  if_pos rfl

theorem modify_modify (σ : System) (i : Nat) (f g : Worker → Worker) :
    (σ.modify i f).modify i g = σ.modify i fun w => g (f w) := by
  simp only [modify]
  congr 1
  funext k
  by_cases hk : k = i
  · rw [if_pos hk, if_pos hk, if_pos hk]
  · rw [if_neg hk, if_neg hk, if_neg hk]

theorem workers_modify_of_ne (σ : System) {i k : Nat} (h : k ≠ i) (f : Worker → Worker) :
    (σ.modify i f).workers k = σ.workers k :=
  if_neg h

/-- One worker and the main thread have moved. -/
theorem fits_modify (h : ∀ k < n, Fits σ.main k (σ.workers k)) {m : Main} {i : Nat}
    {f : Worker → Worker}
    (hother : ∀ k < n, k ≠ i → m.down k = σ.main.down k ∧ m.told k = σ.main.told k)
    (hself : i < n → Fits m i (f (σ.workers i))) :
    ∀ k < n, Fits m k ((σ.modify i f).workers k) := by
  intro k hk
  by_cases hki : k = i
  · subst hki
    rw [workers_modify_self]
    exact hself hk
  · rw [workers_modify_of_ne σ hki]
    exact (h k hk).agree (hother k hk hki).1 (hother k hk hki).2

/-- Work for a worker is no notice. -/
theorem view_push (σ : System) (i : Nat) {t : Task} (ht : t.isNotice = false) :
    (σ.push i t).view = σ.view := by
  by_cases hi : 0 = i
  · subst hi
    simp only [view, push, workers_modify_self, notices_concat _ ht]
    rfl
  · simp only [view, push, workers_modify_of_ne σ hi]
    rfl

end System

namespace Inv

variable {n : Nat} {installed : Nat → Bool} {σ : System} {m : Main} (h : Inv n installed σ)
include h

theorem goto (hm : m.Agrees n σ.main) :
    Inv n installed (σ.goto m) where
  fits k hk := (h.fits k hk).agree (hm.down k hk) (hm.told k hk)
  stage := by
    have hview : (σ.goto m).view = σ.view := by
      simp only [System.view, System.goto, hm.phase]
    rw [hview]
    exact h.stage

theorem push (i : Nat) {t : Task} (ht : t.isNotice = false) :
    Inv n installed (σ.push i t) where
  fits := System.fits_modify h.fits (fun _ _ _ => ⟨rfl, rfl⟩) fun hi => (h.fits i hi).push ht
  stage := by
    rw [System.view_push σ i ht]
    exact h.stage

/-- In phases 1 and 2 the main thread does nothing but post. -/
theorem goto_early (hσ : σ.main.isEarly = true) (hm : m.isEarly = true) :
    Inv n installed (σ.goto m) :=
  h.goto (Main.agrees_of_isEarly n hm hσ)

/-- Something else than the threads and the queues has changed. -/
theorem modify_goto {i : Nat} {f : Worker → Worker} (hthread : ∀ w, (f w).thread = w.thread)
    (hqueue : ∀ w, (f w).queue = w.queue) (hphase : m.phase = σ.main.phase)
    (hother : ∀ k < n, k ≠ i → m.down k = σ.main.down k ∧ m.told k = σ.main.told k)
    (hself : i < n → Fits m i (f (σ.workers i))) :
    Inv n installed ((σ.modify i f).goto m) where
  fits := System.fits_modify h.fits hother hself
  stage := by
    have hview : ((σ.modify i f).goto m).view = σ.view := by
      simp only [System.view, System.goto, System.modify, hphase]
      split
      · rw [hthread, hqueue]
      · rfl
    rw [hview]
    exact h.stage

theorem stop {i : Nat} (hm : σ.main = .stop i) :
    Inv n installed ((σ.modify i fun w => { w with running := false }).goto (.join i)) := by
  refine h.modify_goto (fun _ => rfl) (fun _ => rfl) (by rw [hm]; rfl) (fun k _ hk => ?_)
    fun hi => ?_
  · rw [Main.told_join, hm]
    simp [hk, Main.down]
  · have hw := h.fits i hi
    rw [hm] at hw
    refine ⟨hw.alive, ?_, fun _ => rfl, hw.quiet⟩
    rw [Main.told_join]
    simp

theorem join {i : Nat} (hm : σ.main = .join i) :
    Inv n installed ((σ.modify i fun w => { w with alive := false }).goto
      (System.nextStop n i)) := by
  refine h.modify_goto (fun _ => rfl) (fun _ => rfl) (by rw [hm, Main.phase_nextStop])
    (fun k hk hne => ?_) fun hi => ?_
  · rw [Main.told_nextStop, Main.down_nextStop i hk, hm]
    simp [hne, Main.told, Ne.symm hne]
  · have hw := h.fits i hi
    rw [hm] at hw
    refine ⟨?_, ?_, hw.ended, hw.quiet⟩
    · rw [Main.down_nextStop i hi]
      simp
    · rw [hw.running, Main.told_nextStop, Main.down_nextStop i hi, Main.told_join]
      simp

end Inv

/-! ## The stages of phase 4 -/

namespace Stage

variable {n : Nat} {installed : Nat → Bool} {v : View} {rest : List Task} {last : Bool} {j : Nat}
  (h : Stage n installed v)
include h

theorem of_before (hv : v.phase = .before) :
    v = ⟨.before, v.thread, [], false, [], []⟩ ∧ v.thread.isStopping = false := by
  cases h with
  | before ht => exact ⟨rfl, ht⟩
  | called ht | posting hj => contradiction
  | posted hphase | stopped hphase ht => exact absurd hv hphase

/-- Once the promise is kept, the main thread may go on. -/
theorem after (hv : v.promise = true) : Stage n installed { v with phase := .after } := by
  cases h with
  | before ht | called ht | posting hj => contradiction
  | posted hphase => exact .posted nofun
  | stopped hphase ht => exact .stopped nofun ht

/-- `onServerStop` only runs while the main thread waits for it. -/
theorem waiting (hv : v.thread.isStopping = true) : v.phase = .waiting := by
  cases h with
  | before ht => exact absurd hv (by simp [ht])
  | called ht | posting hj => rfl
  | posted hphase => contradiction
  | stopped hphase ht => exact absurd hv (by simp [ht])

/-- While it waits, the callback is in the queue or runs. -/
theorem of_waiting (hv : v.phase = .waiting) (hpromise : v.promise = false) :
    v.notices = [.serverStop] ∨ ∃ last j, v.thread = .stopping last j := by
  cases h with
  | before ht => cases hv
  | called ht => exact .inl rfl
  | posting hj => exact .inr ⟨_, _, rfl⟩
  | posted hphase | stopped hphase ht => cases hpromise

theorem of_after (hv : v.phase = .after) :
    v.posts = postsTo n ∧
      (v.thread = .ended → v.stopped = if installed 0 then [(0, 0)] else []) := by
  cases h with
  | before ht | called ht | posting hj => cases hv
  | posted hphase => exact ⟨rfl, nofun⟩
  | stopped hphase ht => exact ⟨rfl, fun _ => rfl⟩

theorem posts_eq : ∃ j ≤ n, v.posts = postsTo j := by
  cases h with
  | before ht | called ht => exact ⟨0, Nat.zero_le n, rfl⟩
  | posting hj => exact ⟨_, hj, rfl⟩
  | posted hphase | stopped hphase ht => exact ⟨n, Nat.le_refl n, rfl⟩

theorem of_serverStop (hnotices : v.notices = .serverStop :: rest) : v.phase = .waiting := by
  cases h with
  | before ht => cases hnotices
  | called ht | posting hj => rfl
  | posted hphase | stopped hphase ht => cases hnotices

/-- The thread of worker 0 moves on in its loop.  It does not leave `drainTasks`
before the queue is empty. -/
theorem move {t : Thread} (hv : v.thread.isStopping = false) (ht : t.isStopping = false)
    (hdrain : ∀ last, v.thread = .drain last → v.notices = []) :
    Stage n installed { v with thread := t } := by
  cases h with
  | before _ => exact .before ht
  | called _ => exact .called ht
  | posting hj => contradiction
  | posted hphase => exact nomatch hdrain _ rfl
  | stopped hphase _ => exact .stopped hphase ht

/-- It begins the callback. -/
theorem call (hv : v.thread = .drain last) (hnotices : v.notices = .serverStop :: rest) :
    Stage n installed { v with thread := .stopping last 0, notices := rest } := by
  cases h with
  | before ht => cases hnotices
  | called ht =>
    cases hnotices
    exact .posting (Nat.zero_le n)
  | posting hj => cases hv
  | posted hphase | stopped hphase ht => cases hnotices

theorem of_stopping (hv : v.thread = .stopping last j) :
    j ≤ n ∧ v = ⟨.waiting, .stopping last j, if j = 0 then [] else [.controllerStop 0], false,
      postsTo j, []⟩ := by
  cases h with
  | before ht | called ht | stopped hphase ht =>
    cases hv
    cases ht
  | posting hj =>
    cases hv
    exact ⟨hj, rfl⟩
  | posted hphase => cases hv

/-- It makes a post of the callback, … -/
theorem post (hv : v.thread = .stopping last j) (hj : j < n) :
    Stage n installed { v with
      thread := .stopping last (j + 1)
      notices := if j = 0 then v.notices ++ [.controllerStop j] else v.notices
      posts := v.posts ++ [(j, decide (j = 0))] } := by
  obtain ⟨-, rfl⟩ := h.of_stopping hv
  have hnotices : (if j = 0 then (if j = 0 then [] else [.controllerStop 0]) ++ [.controllerStop j]
      else if j = 0 then [] else [Task.controllerStop 0]) = [.controllerStop 0] := by
    cases j <;> rfl
  have hposts : postsTo j ++ [(j, decide (j = 0))] = postsTo (j + 1) := by
    rw [postsTo, postsTo, List.range_succ, List.map_append]
    rfl
  rw [hnotices, hposts]
  exact .posting hj

/-- … returns from it, … -/
theorem fulfil (hv : v.thread = .stopping last j) (hn : 0 < n) (hj : ¬ j < n) :
    Stage n installed { v with thread := .drain last, promise := true } := by
  obtain ⟨hle, rfl⟩ := h.of_stopping hv
  obtain rfl : j = n := Nat.le_antisymm hle (Nat.le_of_not_lt hj)
  rw [if_neg (Nat.ne_of_gt hn)]
  exact .posted nofun

/-- … and stops its own controller. -/
theorem stop (hv : v.thread = .drain last) (hnotices : v.notices = .controllerStop j :: rest) :
    Stage n installed { v with
      notices := rest
      stopped := if installed j then v.stopped ++ [(j, 0)] else v.stopped } := by
  cases h with
  | before ht | called ht => cases hnotices
  | posting hj => cases hv
  | posted hphase =>
    cases hnotices
    exact .stopped hphase rfl
  | stopped hphase ht => cases hnotices

end Stage

namespace Inv

variable {n : Nat} {installed : Nat → Bool} {σ : System}

theorem postStop (h : Inv n installed σ) (hm : σ.main = .postStop) :
    Inv n installed ((σ.push 0 .serverStop).goto .waitStop) where
  fits := by
    change ∀ k < n, Fits .waitStop k ((σ.push 0 .serverStop).workers k)
    refine System.fits_modify h.fits (fun k _ _ => ?_) fun h0 => ?_
    · rw [hm]
      exact ⟨rfl, rfl⟩
    · have hw := h.fits 0 h0
      rw [hm] at hw
      exact ⟨hw.alive, hw.running, hw.ended, nofun⟩
  stage := by
    obtain ⟨hv, ht⟩ := h.stage.of_before (by rw [System.view, hm]; rfl)
    have hview : ((σ.push 0 .serverStop).goto .waitStop).view =
        { σ.view with phase := .waiting, notices := σ.view.notices ++ [.serverStop] } := by
      simp [System.view, System.push, System.goto, System.modify, notices, Main.phase,
        Task.isNotice]
    rw [hview, hv]
    exact .called ht

theorem waitStop (h : Inv n installed σ) (hm : σ.main = .waitStop) (hp : σ.promise = true) :
    Inv n installed (σ.goto (.stop 0)) where
  fits k hk := by
    have hw := h.fits k hk
    rw [hm] at hw
    exact hw.agree (by simp [System.goto, Main.down]) (by simp [System.goto, Main.told, Main.down])
  stage := h.stage.after hp

theorem stepMain (h : Inv n installed σ) (late : Bool) : Inv n installed (σ.stepMain n late) := by
  unfold System.stepMain
  split
  · rename_i i hm
    have hearly : σ.main.isEarly = true := by rw [hm]; rfl
    split
    · exact (h.push i rfl).goto_early hearly rfl
    · exact h.goto_early hearly rfl
  · rename_i i remaining hm
    have hearly : σ.main.isEarly = true := by rw [hm]; rfl
    split
    · have hasked : Inv n installed { σ with asked := σ.asked + 1, answer := none } :=
        ⟨h.fits, h.stage⟩
      exact (hasked.push i rfl).goto_early hearly rfl
    · exact h.goto_early hearly rfl
  · rename_i i remaining hm
    have hearly : σ.main.isEarly = true := by rw [hm]; rfl
    split
    · exact h.goto_early hearly rfl
    · split
      · exact h.goto_early hearly rfl
      · exact h
  · rename_i remaining hm
    have hearly : σ.main.isEarly = true := by rw [hm]; rfl
    split
    · exact h.goto (Main.firstStop_agrees n hearly)
    · split <;> exact h.goto_early hearly rfl
  · rename_i i hm
    have hearly : σ.main.isEarly = true := by rw [hm]; rfl
    split
    · exact (h.push i rfl).goto_early hearly rfl
    · exact h.goto (Main.firstStop_agrees n hearly)
  · rename_i i hm
    exact h.stop hm
  · rename_i i hm
    split
    · exact h.join hm
    · exact h
  · rename_i hm
    exact h.postStop hm
  · rename_i hm
    split
    · exact h.waitStop hm ‹_›
    · exact h
  · exact h

/-! ### The workers -/

section

variable {i : Nat} {f : Worker → Worker} (h : Inv n installed σ)
include h

/-- A worker other than the first has moved: phase 4 does not see it. -/
theorem of_other (hi : i ≠ 0) (hself : i < n → Fits σ.main i (f (σ.workers i))) :
    Inv n installed (σ.modify i f) where
  fits := System.fits_modify h.fits (fun _ _ _ => ⟨rfl, rfl⟩) hself
  stage := by
    have hview : (σ.modify i f).view = σ.view := by
      simp only [System.view, System.workers_modify_of_ne σ hi.symm]
      rfl
    rw [hview]
    exact h.stage

/-- The first worker has moved. -/
theorem of_first {σ' : System} (hmain : σ'.main = σ.main)
    (hworkers : σ'.workers = (σ.modify 0 f).workers)
    (hself : 0 < n → Fits σ.main 0 (f (σ.workers 0))) (hstage : Stage n installed { σ'.view with
      phase := σ.view.phase
      thread := (f (σ.workers 0)).thread
      notices := notices (f (σ.workers 0)).queue }) :
    Inv n installed σ' where
  fits := by
    rw [hmain, hworkers]
    exact System.fits_modify h.fits (fun _ _ _ => ⟨rfl, rfl⟩) hself
  stage := by
    have hfirst : σ'.workers 0 = f (σ.workers 0) := by
      rw [hworkers, System.workers_modify_self]
    simp only [System.view, hmain, hfirst] at hstage ⊢
    exact hstage

/-- A thread moves on in its loop; it leaves `drainTasks` with an empty queue. -/
theorem move (hi : i < n) {t : Thread} {sessions : Nat}
    (hf : f (σ.workers i) = { σ.workers i with thread := t, sessions })
    (hw : (σ.workers i).thread.isStopping = false) (ht : t.isStopping = false)
    (hended : t = .ended → (σ.workers i).running = false)
    (hdrain : ∀ last, (σ.workers i).thread = .drain last → (σ.workers i).queue = []) :
    Inv n installed (σ.modify i f) := by
  have hself := h.fits i hi
  have hfit : Fits σ.main i (f (σ.workers i)) := by
    rw [hf]
    exact ⟨hself.alive, hself.running, hended, fun h0 => ⟨(hself.quiet h0).1, ht⟩⟩
  by_cases h0 : i = 0
  · subst h0
    refine h.of_first rfl rfl (fun _ => hfit) ?_
    rw [hf]
    exact h.stage.move hw ht fun last hlast => congrArg notices (hdrain last hlast)
  · exact h.of_other h0 fun _ => hfit

/-- A worker takes a task that is no notice off its queue. -/
theorem pop (hi : i < n) {t : Task} {queue : List Task} {sessions : Nat}
    (hqueue : (σ.workers i).queue = t :: queue) (ht : t.isNotice = false)
    (hf : f (σ.workers i) = { σ.workers i with queue, sessions }) :
    Inv n installed (σ.modify i f) := by
  have hself := h.fits i hi
  have hnotices : notices (σ.workers i).queue = notices queue := by
    rw [hqueue, notices, List.filter_cons_of_neg (by simp [ht]), notices]
  have hfit : Fits σ.main i (f (σ.workers i)) := by
    rw [hf]
    refine ⟨hself.alive, hself.running, hself.ended, fun h0 => ⟨?_, (hself.quiet h0).2⟩⟩
    exact hnotices.symm.trans (hself.quiet h0).1
  by_cases h0 : i = 0
  · subst h0
    refine h.of_first rfl rfl (fun _ => hfit) ?_
    rw [hf, ← hnotices]
    exact h.stage
  · exact h.of_other h0 fun _ => hfit

/-- Only the first worker has notices to take. -/
theorem eq_zero_of_notice (hi : i < n) {t : Task} {queue : List Task}
    (hqueue : (σ.workers i).queue = t :: queue) (ht : t.isNotice = true) : i = 0 := by
  by_contra h0
  have hquiet := ((h.fits i hi).quiet h0).1
  rw [hqueue, notices, List.filter_cons_of_pos ht] at hquiet
  exact List.cons_ne_nil _ _ hquiet

end

theorem notices_cons {t : Task} {queue : List Task} (ht : t.isNotice = true) :
    notices (t :: queue) = t :: notices queue :=
  List.filter_cons_of_pos ht

section

variable {last : Bool} {queue : List Task} {i j : Nat} (h : Inv n installed σ)
include h

theorem serverStop {i : Nat} (hi : i < n) (hthread : (σ.workers i).thread = .drain last)
    (hqueue : (σ.workers i).queue = .serverStop :: queue) :
    Inv n installed ((σ.modify i fun w => { w with queue }).setThread i (.stopping last 0)) := by
  obtain rfl := h.eq_zero_of_notice hi hqueue rfl
  have hself := h.fits 0 hi
  have hnotices := (congrArg notices hqueue).trans (notices_cons rfl)
  rw [System.setThread, System.modify_modify]
  exact h.of_first rfl rfl (fun _ => ⟨hself.alive, hself.running, nofun, nofun⟩)
    (h.stage.call hthread hnotices)

theorem controllerStop (hi : i < n) (hthread : (σ.workers i).thread = .drain last)
    (hqueue : (σ.workers i).queue = .controllerStop j :: queue) (sessions : Nat) :
    Inv n installed (System.exec installed i last sessions
      (σ.modify i fun w => { w with queue }) (.controllerStop j)) := by
  obtain rfl := h.eq_zero_of_notice hi hqueue rfl
  have hself := h.fits 0 hi
  have hfit : Fits σ.main 0 { σ.workers 0 with queue } :=
    ⟨hself.alive, hself.running, hself.ended, nofun⟩
  have hnotices := (congrArg notices hqueue).trans (notices_cons rfl)
  have hstage := h.stage.stop hthread hnotices
  rw [System.exec]
  split
  · rename_i hj
    rw [if_pos hj] at hstage
    exact h.of_first (f := fun w => { w with queue }) rfl rfl (fun _ => hfit) hstage
  · rename_i hj
    rw [if_neg hj] at hstage
    exact h.of_first rfl rfl (fun _ => hfit) hstage

/-- `onServerStop` runs on the first worker, while the main thread waits for it. -/
theorem of_stopping (hi : i < n) (hthread : (σ.workers i).thread = .stopping last j) :
    i = 0 ∧ σ.main = .waitStop := by
  obtain rfl : i = 0 := by
    by_contra h0
    have hquiet := ((h.fits i hi).quiet h0).2
    rw [hthread] at hquiet
    cases hquiet
  refine ⟨rfl, Main.eq_waitStop (h.stage.waiting ?_)⟩
  rw [System.view, hthread]
  rfl

/-- By then only the loop of the first worker exists. -/
theorem alive_of_waitStop (hmain : σ.main = .waitStop) {k : Nat} (hk : k < n) :
    (σ.workers k).alive = decide (k = 0) := by
  rw [(h.fits k hk).alive, hmain]
  cases k <;> rfl

theorem post (hi : i < n) (hthread : (σ.workers i).thread = .stopping last j) (hj : j < n) :
    Inv n installed
      ((σ.postToWorker j (.controllerStop j)).setThread i (.stopping last (j + 1))) := by
  obtain ⟨rfl, hmain⟩ := h.of_stopping hi hthread
  have halive := h.alive_of_waitStop hmain hj
  have hself := h.fits 0 hi
  have hstage := h.stage.post hthread hj
  unfold System.postToWorker
  rw [halive]
  by_cases h0 : j = 0
  · subst h0
    rw [if_pos (by rfl), System.push, System.setThread, System.modify_modify]
    refine h.of_first (f := fun w => { w with
      queue := w.queue ++ [.controllerStop 0], thread := .stopping last 1 }) rfl rfl
      (fun _ => ⟨hself.alive, hself.running, nofun, nofun⟩) ?_
    have hnotices : notices ((σ.workers 0).queue ++ [.controllerStop 0]) =
        notices (σ.workers 0).queue ++ [.controllerStop 0] := by
      simp [notices, Task.isNotice]
    rw [hnotices]
    exact hstage
  · rw [if_neg (by simp [h0]), System.setThread]
    rw [if_neg h0] at hstage
    exact h.of_first (f := fun w => { w with thread := .stopping last (j + 1) }) rfl rfl
      (fun _ => ⟨hself.alive, hself.running, nofun, nofun⟩) hstage

theorem fulfil (hi : i < n) (hthread : (σ.workers i).thread = .stopping last j) (hj : ¬ j < n) :
    Inv n installed ({ σ with promise := true }.setThread i (.drain last)) := by
  obtain ⟨rfl, -⟩ := h.of_stopping hi hthread
  have hself := h.fits 0 hi
  exact h.of_first (f := fun w => { w with thread := .drain last }) rfl rfl
    (fun _ => ⟨hself.alive, hself.running, nofun, nofun⟩) (h.stage.fulfil hthread hi hj)

/-- The task a worker has taken off its queue. -/
theorem exec {i : Nat} (hi : i < n) {t : Task} (hthread : (σ.workers i).thread = .drain last)
    (hqueue : (σ.workers i).queue = t :: queue) (sessions : Nat) :
    Inv n installed (System.exec installed i last sessions
      (σ.modify i fun w => { w with queue }) t) := by
  cases t with
  | work =>
    rw [System.exec]
    rw [System.modify_modify]
    exact h.pop hi hqueue rfl rfl
  | count asked =>
    have hpop : Inv n installed (σ.modify i fun w => { w with queue }) :=
      h.pop hi hqueue rfl rfl
    rw [System.exec]
    split
    · exact ⟨hpop.fits, hpop.stage⟩
    · exact hpop
  | serverStop => exact h.serverStop hi hthread hqueue
  | controllerStop j => exact h.controllerStop hi hthread hqueue sessions

theorem stepWorker {i : Nat} (hi : i < n) (sessions : Nat) :
    Inv n installed (σ.stepWorker n installed i sessions) := by
  unfold System.stepWorker
  split
  · rename_i hthread
    split
    · exact h.move hi rfl (by rw [hthread]; rfl) rfl nofun (by rw [hthread]; nofun)
    · rename_i hstop
      exact h.move hi rfl (by rw [hthread]; rfl) rfl (fun _ => by simpa using hstop)
        (by rw [hthread]; nofun)
  · rename_i last hthread
    split
    · rename_i hqueue
      refine h.move hi rfl (by rw [hthread]; rfl) ?_ ?_ fun _ _ => hqueue
      · cases last <;> rfl
      · cases last <;> nofun
    · rename_i t queue hqueue
      exact h.exec hi hthread hqueue sessions
  · rename_i last j hthread
    split
    · exact h.post hi hthread ‹_›
    · exact h.fulfil hi hthread ‹_›
  · rename_i hthread
    exact h.move hi rfl (by rw [hthread]; rfl) rfl nofun (by rw [hthread]; nofun)
  · exact h

theorem step (c : Choice) : Inv n installed (σ.step n installed c) := by
  cases c with
  | main late => exact h.stepMain late
  | worker i sessions =>
    rw [System.step]
    split
    · exact h.stepWorker ‹_› sessions
    · exact h
  | post i =>
    rw [System.step]
    split
    · exact h.push i rfl
    · exact h

theorem run (schedule : List Choice) : Inv n installed (σ.run n installed schedule) :=
  foldl_invariant (fun _ c hσ => hσ.step c) σ h schedule

end

theorem of_started (h : σ.Started n) : Inv n installed σ := by
  have hthread : ∀ i, (σ.workers i).thread.isStopping = false ∧ (σ.workers i).thread ≠ .ended := by
    intro i
    have hmem := h.thread i
    simp only [List.mem_cons, List.not_mem_nil, or_false] at hmem
    rcases hmem with ht | ht | ht | ht <;> rw [ht] <;> exact ⟨rfl, nofun⟩
  have hqueue : ∀ i, notices (σ.workers i).queue = [] := by
    intro i
    refine List.filter_eq_nil_iff.2 fun t ht => ?_
    rw [h.queue i t ht]
    exact Bool.false_ne_true
  refine ⟨fun i hi => ⟨?_, ?_, fun ht => absurd ht (hthread i).2, fun _ =>
    ⟨hqueue i, (hthread i).1⟩⟩, ?_⟩
  · rw [h.alive i hi, h.main]
    rfl
  · rw [h.running i hi, h.main]
    rfl
  · rw [System.view, h.main, hqueue, h.promise, h.posts, h.stopped]
    exact .before (hthread 0).1

end Inv

/-! ## The shutdown can always be completed -/

namespace Main

def InRange (n : Nat) : Main → Prop
  | .await i _ | .stop i | .join i => i < n
  | _ => True

/-- How far the main thread is from the end. -/
def rank (n : Nat) : Main → Nat
  | .stopAccepting i => 7 * n + 20 + (n - i)
  | .query i _ => 4 * n + 13 + 2 * (n - i)
  | .await i _ => 4 * n + 12 + 2 * (n - i)
  | .poll _ => 4 * n + 12
  | .closeAll i => 3 * n + 11 + (n - i)
  | .stop i => if i = 0 then 2 else 2 * (n - i) + 6
  | .join i => if i = 0 then 1 else 2 * (n - i) + 5
  | .postStop => 4
  | .waitStop => 3
  | .done => 0

theorem inRange_firstStop (n : Nat) : (System.firstStop n).InRange n := by
  unfold System.firstStop
  split
  · exact ‹1 < n›
  · trivial

theorem rank_firstStop (n : Nat) : (System.firstStop n).rank n < 3 * n + 11 := by
  unfold System.firstStop
  split
  · rw [rank, if_neg Nat.one_ne_zero]
    omega
  · rw [rank]
    omega

theorem inRange_nextStop (n i : Nat) : (System.nextStop n i).InRange n := by
  unfold System.nextStop
  split
  · trivial
  · split
    · exact ‹i + 1 < n›
    · trivial

theorem rank_nextStop (n i : Nat) : (System.nextStop n i).rank n < (Main.join i).rank n := by
  unfold System.nextStop
  split
  · rename_i hi
    rw [rank, rank, if_pos hi]
    omega
  · rename_i hi
    have hjoin : (Main.join i).rank n = 2 * (n - i) + 5 := if_neg hi
    rw [hjoin]
    split
    · rw [rank, if_neg (Nat.succ_ne_zero i)]
      omega
    · rw [rank]
      omega

end Main

namespace System

variable {n : Nat} {installed : Nat → Bool} {σ : System}

theorem main_stepWorker (n : Nat) (installed : Nat → Bool) (i sessions : Nat) (σ : System) :
    (σ.stepWorker n installed i sessions).main = σ.main := by
  unfold stepWorker
  split
  · split <;> rfl
  · split
    · rfl
    · rename_i t queue _
      cases t with
      | work => rfl
      | count asked => rw [exec]; split <;> rfl
      | serverStop => rfl
      | controllerStop j => rw [exec]; split <;> rfl
  · split
    · unfold postToWorker
      split <;> rfl
    · rfl
  · rfl
  · rfl

/-- The main thread waits for a worker. -/
def Blocked (σ : System) : Prop :=
  match σ.main with
  | .join i => (σ.workers i).thread ≠ .ended
  | .waitStop => σ.promise = false
  | .done => True
  | _ => False

theorem inRange_stepMain (hn : 0 < n) (h : σ.main.InRange n) (late : Bool) :
    (σ.stepMain n late).main.InRange n := by
  unfold stepMain
  split
  · split <;> trivial
  · split
    · exact ‹_ < n›
    · trivial
  · split
    · trivial
    · split
      · trivial
      · exact h
  · split
    · exact Main.inRange_firstStop n
    · split <;> trivial
  · split
    · trivial
    · exact Main.inRange_firstStop n
  · rename_i i hm
    rw [hm] at h
    exact h
  · split
    · exact Main.inRange_nextStop n _
    · exact h
  · trivial
  · split
    · exact hn
    · exact h
  · exact h

/-- Where it does not, and time is up, it gets ahead. -/
theorem rank_stepMain (h : σ.main.InRange n) (hfree : ¬ σ.Blocked) :
    (σ.stepMain n true).main.rank n < σ.main.rank n := by
  unfold Blocked at hfree
  unfold stepMain
  split
  · rename_i i hm
    rw [hm]
    split <;> simp only [goto, Main.rank] <;> omega
  · rename_i i remaining hm
    rw [hm]
    split <;> simp only [goto, Main.rank] <;> omega
  · rename_i i remaining hm
    rw [hm] at h ⊢
    have hi : i < n := h
    split
    · simp only [goto, Main.rank]
      omega
    · rw [if_pos rfl]
      simp only [goto, Main.rank]
      omega
  · rename_i remaining hm
    rw [hm]
    split
    · exact (Main.rank_firstStop n).trans_le (by rw [Main.rank]; omega)
    · rw [if_pos rfl]
      simp only [goto, Main.rank]
      omega
  · rename_i i hm
    rw [hm]
    split
    · simp only [goto, Main.rank]
      omega
    · exact (Main.rank_firstStop n).trans_le (by rw [Main.rank]; omega)
  · rename_i i hm
    rw [hm]
    simp only [goto, Main.rank]
    split <;> omega
  · rename_i i hm
    rw [hm] at hfree ⊢
    rw [if_pos (not_not.1 hfree)]
    exact Main.rank_nextStop n i
  · rename_i hm
    rw [hm]
    simp only [goto, Main.rank]
    omega
  · rename_i hm
    rw [hm] at hfree ⊢
    rw [if_pos (Bool.not_eq_false _ ▸ hfree)]
    simp only [goto, Main.rank, if_pos]
    omega
  · rename_i hm
    rw [hm] at hfree
    exact absurd trivial hfree

/-- A task other than the callback leaves the worker where it is in its loop. -/
theorem exec_worker (installed : Nat → Bool) {t : Task} (ht : t ≠ .serverStop) (i : Nat)
    (last : Bool) (sessions : Nat) (σ : System) :
    ((σ.exec installed i last sessions t).workers i).thread = (σ.workers i).thread ∧
      ((σ.exec installed i last sessions t).workers i).queue = (σ.workers i).queue := by
  cases t with
  | work =>
    rw [exec, workers_modify_self]
    exact ⟨rfl, rfl⟩
  | count asked =>
    rw [exec]
    split <;> exact ⟨rfl, rfl⟩
  | serverStop => exact absurd rfl ht
  | controllerStop j =>
    rw [exec]
    split <;> exact ⟨rfl, rfl⟩

end System

/-- How many steps a worker takes to end, once it is told to. -/
def Worker.toEnd (w : Worker) : Nat :=
  match w.thread with
  | .check => 1
  | .drain true => w.queue.length + 2
  | .serve => w.queue.length + 3
  | .drain false => w.queue.length + 4
  | .stopping _ _ | .ended => 0

/-- How many it takes at most to return from the callback in its queue. -/
def Worker.toFulfil (n : Nat) (w : Worker) : Nat :=
  match w.thread with
  | .stopping _ i => n - i
  | .drain _ => w.queue.length + n + 1
  | .check | .serve => w.queue.length + n + 2
  | .ended => 0

namespace Inv

variable {n : Nat} {installed : Nat → Bool} {σ : System}

/-- The callback is only in a queue while the main thread waits for it. -/
theorem of_serverStop (h : Inv n installed σ) {i : Nat} (hi : i < n) {queue : List Task}
    (hqueue : (σ.workers i).queue = .serverStop :: queue) : σ.main = .waitStop := by
  obtain rfl := h.eq_zero_of_notice hi hqueue rfl
  exact Main.eq_waitStop
    (h.stage.of_serverStop ((congrArg notices hqueue).trans (notices_cons rfl)))

theorem toEnd_stepWorker (h : Inv n installed σ) {i : Nat} (hi : i < n) (hmain : σ.main = .join i)
    (hthread : (σ.workers i).thread ≠ .ended) :
    ((σ.stepWorker n installed i 0).workers i).toEnd < (σ.workers i).toEnd := by
  have hrunning : (σ.workers i).running = false := by
    rw [(h.fits i hi).running, hmain, Main.told_join]
    simp
  unfold System.stepWorker
  split
  · rename_i ht
    rw [if_neg (by simp [hrunning]), System.workers_modify_self]
    simp [Worker.toEnd, ht]
  · rename_i last ht
    split
    · rename_i hqueue
      rw [System.setThread, System.workers_modify_self]
      cases last <;> simp [Worker.toEnd, ht, hqueue]
    · rename_i t queue hqueue
      have hne : t ≠ .serverStop := by
        rintro rfl
        rw [h.of_serverStop hi hqueue] at hmain
        cases hmain
      obtain ⟨ht', hqueue'⟩ := System.exec_worker installed hne i last 0
        (σ.modify i fun w => { w with queue })
      rw [System.workers_modify_self] at ht' hqueue'
      cases last <;> simp [Worker.toEnd, ht', hqueue', ht, hqueue]
  · rename_i last j ht
    rw [(h.of_stopping hi ht).2] at hmain
    cases hmain
  · rename_i ht
    rw [System.workers_modify_self]
    simp [Worker.toEnd, ht]
  · rename_i ht
    exact absurd ht hthread

theorem toFulfil_stepWorker (h : Inv n installed σ) (hn : 0 < n) (hmain : σ.main = .waitStop)
    (hpromise : σ.promise = false) :
    (σ.stepWorker n installed 0 0).promise = true ∨
      ((σ.stepWorker n installed 0 0).workers 0).toFulfil n < (σ.workers 0).toFulfil n := by
  have hrunning : (σ.workers 0).running = true := by
    rw [(h.fits 0 hn).running, hmain]
    rfl
  have hwaiting : σ.view.phase = .waiting := congrArg Main.phase hmain
  unfold System.stepWorker
  split
  · rename_i ht
    rw [if_pos hrunning, System.setThread, System.workers_modify_self]
    exact .inr (by simp [Worker.toFulfil, ht])
  · rename_i last ht
    split
    · rename_i hqueue
      -- The callback is still in the queue, so `drainTasks` does not end here.
      rcases h.stage.of_waiting hwaiting hpromise with hnotices | ⟨last, j, hstopping⟩
      · rw [show σ.view.notices = notices (σ.workers 0).queue from rfl, hqueue] at hnotices
        cases hnotices
      · rw [show σ.view.thread = (σ.workers 0).thread from rfl, ht] at hstopping
        cases hstopping
    · rename_i t queue hqueue
      by_cases hne : t = .serverStop
      · subst hne
        rw [System.exec, System.setThread, System.workers_modify_self]
        refine .inr ?_
        simp only [Worker.toFulfil, ht]
        omega
      · obtain ⟨ht', hqueue'⟩ := System.exec_worker installed hne 0 last 0
          (σ.modify 0 fun w => { w with queue })
        rw [System.workers_modify_self] at ht' hqueue'
        exact .inr (by simp [Worker.toFulfil, ht', hqueue', ht, hqueue])
  · rename_i last j ht
    split
    · rename_i hj
      rw [System.setThread, System.workers_modify_self]
      refine .inr ?_
      simp only [Worker.toFulfil, ht]
      omega
    · exact .inl rfl
  · rename_i ht
    rw [System.workers_modify_self]
    exact .inr (by simp [Worker.toFulfil, ht])
  · rename_i ht
    rw [(h.fits 0 hn).ended ht] at hrunning
    cases hrunning

end Inv

namespace System

variable {n : Nat} {installed : Nat → Bool} {σ : System}

/-- How far the system is from the end of the shutdown: the main thread, and the
worker it waits for. -/
def distance (n : Nat) (σ : System) : Nat × Nat :=
  (σ.main.rank n,
    match σ.main with
    | .join i => (σ.workers i).toEnd
    | .waitStop => if σ.promise then 0 else (σ.workers 0).toFulfil n + 1
    | _ => 0)

/-- There is always a thread that can bring the shutdown closer to its end. -/
theorem exists_closer (hn : 0 < n) (h : Inv n installed σ) (hrange : σ.main.InRange n)
    (hmain : σ.main ≠ .done) :
    ∃ c, (σ.step n installed c).main.InRange n ∧
      Prod.Lex (· < ·) (· < ·) ((σ.step n installed c).distance n) (σ.distance n) := by
  by_cases hblocked : σ.Blocked
  · have hblocked' := hblocked
    unfold Blocked at hblocked'
    split at hblocked'
    · rename_i i hm
      have hi : i < n := by
        rw [hm] at hrange
        exact hrange
      have hmain' := main_stepWorker n installed i 0 σ
      have hcloser := h.toEnd_stepWorker hi hm hblocked'
      refine ⟨.worker i 0, ?_, ?_⟩
      · rw [step, if_pos hi, hmain']
        exact hrange
      · rw [step, if_pos hi, distance, distance, hmain', hm]
        exact .right _ hcloser
    · rename_i hm
      have hmain' := main_stepWorker n installed 0 0 σ
      refine ⟨.worker 0 0, ?_, ?_⟩
      · rw [step, if_pos hn, hmain']
        exact hrange
      · rw [step, if_pos hn, distance, distance, hmain', hm]
        refine .right _ ?_
        dsimp only
        rw [hblocked', if_neg Bool.false_ne_true]
        rcases h.toFulfil_stepWorker hn hm hblocked' with hkept | hcloser
        · rw [if_pos hkept]
          exact Nat.succ_pos _
        · split
          · exact Nat.succ_pos _
          · exact Nat.succ_lt_succ hcloser
    · rename_i hm
      exact absurd hm hmain
    · exact hblocked'.elim
  · exact ⟨.main true, inRange_stepMain hn hrange true, .left _ _ (rank_stepMain hrange hblocked)⟩

/-- Whatever has happened, the shutdown can be completed. -/
theorem completes (hn : 0 < n) (h : Inv n installed σ) (hrange : σ.main.InRange n) :
    ∃ schedule, (σ.run n installed schedule).main = .done :=
  foldl_reaches (I := fun σ => Inv n installed σ ∧ σ.main.InRange n)
    (Prod.lex ⟨_, Nat.lt_wfRel.wf⟩ ⟨_, Nat.lt_wfRel.wf⟩).wf (distance n)
    (fun σ hσ hdone => by
      obtain ⟨c, hrange, hcloser⟩ := exists_closer hn hσ.1 hσ.2 hdone
      exact ⟨c, ⟨hσ.1.step c, hrange⟩, hcloser⟩)
    σ ⟨h, hrange⟩

theorem inRange_run (hn : 0 < n) (installed : Nat → Bool) (hrange : σ.main.InRange n)
    (schedule : List Choice) : (σ.run n installed schedule).main.InRange n := by
  refine foldl_invariant (I := fun σ => σ.main.InRange n) (fun σ c hσ => ?_) σ hrange schedule
  cases c with
  | main late => exact inRange_stepMain hn hσ late
  | worker i sessions =>
    rw [step]
    split
    · rw [main_stepWorker]
      exact hσ
    · exact hσ
  | post i =>
    rw [step]
    split <;> exact hσ

end System

namespace Inv

variable {n : Nat} {installed : Nat → Bool} {σ : System}

/-- At the end `onServerStop` has posted to all workers, whether they were there or
not. -/
theorem posts_of_done (h : Inv n installed σ) (hmain : σ.main = .done) : σ.posts = postsTo n :=
  (h.stage.of_after (congrArg Main.phase hmain)).1

/-- With one worker, nothing goes wrong. -/
theorem safe (h : Inv 1 installed σ) : σ.Safe 1 installed where
  posts p hp := by
    obtain ⟨j, hj, hposts⟩ := h.stage.posts_eq
    rw [show σ.posts = postsTo j from hposts] at hp
    obtain ⟨i, hi, rfl⟩ := List.mem_map.1 hp
    have hi : i < 1 := (List.mem_range.1 hi).trans_le hj
    simpa using hi
  stopped i hi hinstalled hended := by
    obtain rfl : i = 0 := Nat.lt_one_iff.1 hi
    have hself := h.fits 0 hi
    have htold : σ.main.told 0 = true := by
      have hrunning := hself.running
      rw [hself.ended hended] at hrunning
      simpa using hrunning.symm
    have hstopped := (h.stage.of_after (Main.after_of_told htold)).2 hended
    rw [if_pos hinstalled] at hstopped
    rw [show σ.stopped = [(0, 0)] from hstopped]
    rfl

end Inv

theorem System.started_default (n : Nat) : System.Started n {} where
  main := rfl
  promise := rfl
  posts := rfl
  stopped := rfl
  running _ _ := rfl
  alive _ _ := rfl
  thread _ := List.mem_cons_self
  queue _ _ ht := nomatch ht

/-- The thread of a worker whose start has failed, or that was started before it, has ended
without the call of its controller. -/
theorem System.StartFailed.not_safe {n ended : Nat} {installed : Nat → Bool} {σ : System}
    (h : σ.StartFailed n ended) {i : Nat} (hi : i < ended) (hinstalled : installed i) :
    ¬σ.Safe n installed := by
  intro hsafe
  have hstopped := hsafe.stopped i (hi.trans_le h.ended_le) hinstalled (h.thread i hi)
  rw [h.stopped] at hstopped
  cases hstopped

/-- After a successful start the shutdown can be completed whatever has happened, and it is safe
in all its runs if and only if there is one worker; after a failed one it is not safe. -/
theorem shutdown_safe_iff (n : Nat) (hn : 0 < n) (installed : Nat → Bool) :
    (∀ σ schedule, System.Started n σ →
      ∃ more, (σ.run n installed (schedule ++ more)).main = .done) ∧
    (∀ σ, System.Started n σ →
      ((∀ schedule, (σ.run n installed schedule).Safe n installed) ↔ n = 1)) ∧
    ∀ σ ended, System.StartFailed n ended σ → (∃ i < ended, installed i) →
      ¬∀ schedule, (σ.run n installed schedule).Safe n installed := by
  have hcompletes : ∀ σ schedule, System.Started n σ →
      ∃ more, (σ.run n installed (schedule ++ more)).main = .done := by
    intro σ schedule hσ
    have hrange : σ.main.InRange n := by
      rw [hσ.main]
      trivial
    obtain ⟨more, hdone⟩ := System.completes hn ((Inv.of_started hσ).run schedule)
      (System.inRange_run hn installed hrange schedule)
    refine ⟨more, ?_⟩
    rw [System.run, List.foldl_append]
    exact hdone
  refine ⟨hcompletes, fun σ hσ => ⟨fun hsafe => ?_, ?_⟩, ?_⟩
  · obtain ⟨schedule, hdone⟩ := hcompletes σ [] hσ
    have hinv : Inv n installed (σ.run n installed ([] ++ schedule)) := (Inv.of_started hσ).run _
    by_contra hone
    have hmem : (1, false) ∈ postsTo n :=
      List.mem_map.2 ⟨1, List.mem_range.2 (by omega), rfl⟩
    rw [← hinv.posts_of_done hdone] at hmem
    exact Bool.false_ne_true ((hsafe _).posts _ hmem)
  · rintro rfl schedule
    exact ((Inv.of_started hσ).run schedule).safe
  · rintro σ ended hσ ⟨i, hi, hinstalled⟩ hsafe
    exact hσ.not_safe hi hinstalled (hsafe [])

/-- The one worker could not install its listener. -/
def failedStart : System :=
  { workers := fun _ => { running := false, thread := .ended, alive := false } }

theorem shutdown_safe_one_worker :
    (System.run 1 (fun _ => true) [.main false, .worker 0 0] {}).Safe 1 (fun _ => true) ∧
    ¬∀ schedule, (failedStart.run 1 (fun _ => true) schedule).Safe 1 (fun _ => true) := by
  have h := shutdown_safe_iff 1 Nat.one_pos fun _ => true
  have hfailed : failedStart.StartFailed 1 1 :=
    ⟨rfl, rfl, rfl, Nat.le_refl 1, fun _ _ => rfl, fun _ _ => rfl⟩
  exact ⟨(h.2.1 {} (System.started_default 1)).2 rfl _,
    h.2.2 failedStart 1 hfailed ⟨0, Nat.one_pos, rfl⟩⟩

/-- Two workers, no sessions: the second is gone when `onServerStop` posts to it, and
its thread has ended without the call of its controller. -/
theorem shutdown_posts_to_destroyed_loop :
    let schedule : List Choice := List.replicate 10 (.main true) ++
      [.worker 1 0, .main true, .main true] ++ List.replicate 6 (.worker 0 0)
    let σ := System.run 2 (fun _ => true) schedule {}
    System.Started 2 {} ∧ σ.posts = [(0, true), (1, false)] ∧
      (σ.workers 1).thread = .ended ∧ σ.stopped = [] :=
  ⟨System.started_default 2, by decide, by decide, by decide⟩

end HyperNet.Core
