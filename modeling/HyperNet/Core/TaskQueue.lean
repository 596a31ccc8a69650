import HyperNet.Lib.Locked

/-!
# The task queue and its spin lock

`TaskQueue::push` and `TaskQueue::tryPop` (`engine/src/hypernet/core/TaskQueue.cpp`) under the
`SpinLock` of `engine/include/hypernet/util/SpinLock.hpp`, for any number of threads that call them.
Each call is taken apart into the turns of `test_and_set`, the accesses to `queue_`, the `clear` in
the guard's destructor and the return, and the threads' steps come in any order.

The other models of the event loop take `push` and `tryPop` as single steps on a list of tasks.
Here is why they may.  The queue is not such a list at all times: between the move out of `front()`
and the `pop()` its first cell holds a function that has been moved from.
-/

namespace HyperNet.Core.TaskQueue

open Locked

variable {Task Thread : Type} [DecidableEq Thread]

inductive Call (Task : Type) where
  | push (task : Task)
  | tryPop
deriving DecidableEq, Repr

/-- What a call gives back.  `tryPop` returns `false`, or `true` with `outTask` assigned; a function
that has been moved from is `none`. -/
inductive Outcome (Task : Type) where
  | pushed
  | empty
  | popped (outTask : Option Task)
deriving DecidableEq, Repr

/-- The next access of the thread that holds the lock. -/
inductive Access (Task : Type) where
  | push (task : Task)
  /-- `queue_.empty()` -/
  | empty
  /-- `outTask = std::move(queue_.front())` -/
  | front
  /-- `queue_.pop()` -/
  | pop (outTask : Option Task)
deriving DecidableEq, Repr

/-- The cells of `queue_`. -/
abbrev Cells (Task : Type) := List (Option Task)

def enter : Call Task → Access Task
  | .push task => .push task
  | .tryPop => .empty

def access (queue : Cells Task) : Access Task → Cells Task × (Access Task ⊕ Outcome Task)
  | .push task => (queue ++ [some task], .inr .pushed)
  | .empty => if queue.isEmpty = true then (queue, .inr .empty) else (queue, .inl .front)
  | .front =>
    match queue with
    -- not defined by the standard; the test has been made under the same lock
    | [] => ([], .inr .empty)
    | cell :: rest => (none :: rest, .inl (.pop cell))
  | .pop outTask => (queue.tail, .inr (.popped outTask))

/-- The queue as its users think of it. -/
def apply : Call Task → List Task → List Task × Outcome Task
  | .push task, queue => (queue ++ [task], .pushed)
  | .tryPop, [] => ([], .empty)
  | .tryPop, task :: queue => (queue, .popped (some task))

/-- Either call alone is the operation on the list, in three accesses at most. -/
theorem alone_enter (call : Call Task) (queue : List Task) :
    alone access 3 (queue.map some) (enter call) =
      some ((apply call queue).1.map some, (apply call queue).2) := by
  cases call with
  | push task => simp [alone, enter, access, apply]
  | tryPop =>
    cases queue with
    | nil => rfl
    | cons task queue => rfl

/-- The queue with its lock. -/
def taskQueue : Object (Cells Task) (List Task) (Call Task) (Access Task) (Outcome Task) where
  enter := enter
  access := access
  memory := []
  apply := apply
  initial := []
  Rep queue cells := cells = queue.map some
  rep_initial := rfl
  accesses := 3
  implements := by
    rintro queue _ call rfl
    exact ⟨_, alone_enter call queue, rfl⟩

abbrev State (Thread Task : Type) :=
  Sys Thread (Cells Task) (Call Task) (Access Task) (Outcome Task)

def run (moves : List (Move Thread (Call Task))) : State Thread Task := Locked.run taskQueue moves

/-- The queue whose calls are single steps. -/
def runAtomic (moves : List (Move Thread (Call Task))) :
    Atomic Thread (List Task) (Call Task) (Outcome Task) := Atomic.run taskQueue moves

/-- At most one thread is between `lock` and `unlock`, and the calls and returns of any run are
those of a run of the queue whose calls are single steps.  While no thread is in between, the cells
hold the tasks of that queue. -/
theorem calls_atomic (moves : List (Move Thread (Call Task))) :
    (∀ t u, ((run moves).place t).Holds → ((run moves).place u).Holds → t = u) ∧
      ∃ moves' : List (Move Thread (Call Task)),
        (runAtomic moves').history = (run moves).history ∧
          ((∀ t, ¬ ((run moves).place t).Holds) →
            (run moves).memory = (runAtomic moves').state.map some) := by
  obtain ⟨moves', h⟩ := run_simulates taskQueue moves
  exact ⟨fun _ _ ht hu => h.exclusive.unique ht hu, moves', h.history,
    fun hnone => h.free (h.exclusive.flag_of_none hnone)⟩

/-! ## First in, first out -/

/-- The calls that have given the lock back, in this order. -/
abbrev Log (Thread Task : Type) := List (Thread × Call Task × Outcome Task)

def pushedTask : Thread × Call Task × Outcome Task → Option Task
  | (_, .push task, _) => some task
  | (_, .tryPop, _) => none

/-- What a call has taken out; `none` within is a function that had been moved from. -/
def poppedTask : Thread × Call Task × Outcome Task → Option (Option Task)
  | (_, _, .popped outTask) => some outTask
  | (_, _, .pushed) | (_, _, .empty) => none

def pushed (log : Log Thread Task) : List Task := log.filterMap pushedTask

def popped (log : Log Thread Task) : List (Option Task) := log.filterMap poppedTask

omit [DecidableEq Thread] in
/-- What calls that are single steps have taken out and left is what they have put in. -/
theorem popped_append_of_serial {log : Log Thread Task} {queue : List Task}
    (h : Serial apply [] log queue) :
    popped log ++ queue.map some = (pushed log).map some := by
  induction h with
  | nil => rfl
  | @snoc log queue t call _ ih =>
    unfold popped pushed at ih ⊢
    rw [List.filterMap_append, List.filterMap_append, List.map_append, ← ih]
    cases call with
    | push task => simp [apply, pushedTask, poppedTask]
    | tryPop =>
      cases queue with
      | nil => simp [apply, pushedTask, poppedTask, List.filterMap_cons]
      | cons task queue => simp [apply, pushedTask, poppedTask]

/-- The tasks `tryPop` hands out are the ones pushed, each once and in the order in which the calls
of `push` have had the lock; while no thread has it, the others are in the queue.  The calls of a
thread have the lock in the order in which it makes them, each between its call and its return. -/
theorem tasks_fifo (moves : List (Move Thread (Call Task))) :
    (popped (run moves).log <+: (pushed (run moves).log).map some) ∧
      ((∀ t, ¬ ((run moves).place t).Holds) →
        popped (run moves).log ++ (run moves).memory = (pushed (run moves).log).map some) ∧
      ∀ t, (opsOf t (run moves).log).map Prod.fst <+: callsOf t (run moves).history ∧
        returnsOf t (run moves).history <+: opsOf t (run moves).log := by
  obtain ⟨moves', h⟩ := run_simulates taskQueue moves
  obtain ⟨hserial, horder⟩ := Atomic.serial_run taskQueue moves'
  rw [h.log] at hserial
  have hconserved := popped_append_of_serial hserial
  refine ⟨⟨_, hconserved⟩, fun hnone => ?_, fun t => ⟨?_, ?_⟩⟩
  · have hcells : (run moves).memory = _ := h.free (h.exclusive.flag_of_none hnone)
    rw [hcells]
    exact hconserved
  · have hcalls := horder.calls t
    rw [h.history, h.log] at hcalls
    exact ⟨_, hcalls.symm⟩
  · have hreturns := horder.returns t
    rw [h.history, h.log] at hreturns
    exact ⟨_, hreturns.symm⟩

/-! ## Waiting for the lock -/

/-- No call waits for more than one other: from every state there is a thread, the holder of the
lock if another thread has it, such that after at most four of its steps six of the caller's own
are enough for the call to return. -/
theorem call_completes (moves : List (Move Thread (Call Task))) (t : Thread) :
    ∃ u, ∃ j ≤ 4, ∃ n ≤ 6,
      (run (moves ++ List.replicate j (.goOn u) ++ List.replicate n (.goOn t))).place t =
        .outside := by
  obtain ⟨moves', h⟩ := run_simulates taskQueue moves
  obtain ⟨u, j, hj, n, hn, hend⟩ := h.completes t
  refine ⟨u, j, hj, n, hn, ?_⟩
  rw [run, Locked.run, List.foldl_append, List.foldl_append]
  exact hend

end HyperNet.Core.TaskQueue
