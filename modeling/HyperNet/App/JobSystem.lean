import HyperNet.Lib.Histories
import HyperNet.Net.Worker

/-!
# The job system

A `JobSystem` has a queue of jobs behind a mutex, and a pool of threads that wait on a condition
variable for jobs or for the stop.  A thread leaves when it finds the stop flag set and the queue
empty.  So `stop` has the threads work off the queue, joins them, and throws away what has come
since; `start` stops before it starts.

Every section under the mutex is one step, and so is everything between two of them that others can
notice: the notification, the join of a thread, the start of one, the end of a job's work and the
post of its callback.  Jobs are submitted by anybody at any time, by jobs as well.  `start` and
`stop` are called one after the other.  They share the list of threads without a lock, so calls that
overlap have no behaviour in the language.

A job is `accepted` if it is submitted when a `start` has returned and no other call has been made.
It then bears the number of joins before it.
-/

namespace HyperNet.Jobs

open HyperNet.Net

/-- A job as the queue has it.  The work and the callback are the user's. -/
structure Job where
  /-- Jobs are numbered as they come. -/
  id : Nat
  sid : UInt64
  /-- The joins before it, if it was accepted. -/
  accepted : Option Nat
deriving DecidableEq, Repr

/-- Where a thread of the pool is in `workerLoop_`. -/
inductive Phase where
  /-- Before the lock. -/
  | ready
  /-- Blocked in `cv_.wait`. -/
  | waiting
  /-- In `jobWork`. -/
  | working (job : Job)
  /-- Before the post of the callback. -/
  | worked (job : Job)
  | exited
deriving DecidableEq, Repr

/-- The rest of a call after the pool is joined: nothing for `stop`, the threads for `start`. -/
abbrev Rest := Option { n : Nat // 0 < n }

/-- Where the call of `start` or `stop` is. -/
inductive Control where
  | idle
  | notifying (rest : Rest)
  | joining (i : Nat) (rest : Rest)
  | clearing (rest : Rest)
  | resetting (n : { n : Nat // 0 < n })
  | spawning (left : Nat)
deriving DecidableEq

inductive Event where
  | began (job : Job)
  | finished (job : Job)
  /-- `postToWorker` is called with the callback. -/
  | posted (job : Job) (worker : Int32)
deriving DecidableEq, Repr

def Event.job : Event → Job
  | began job | finished job | posted job _ => job

/-- What happens to a job that is worked off. -/
def Job.history (scheduler : Bool) (job : Job) : List Event :=
  [.began job, .finished job] ++
    if scheduler = true then [.posted job (ownerWorkerFromId job.sid)] else []

structure JobSystem where
  scheduler : Bool := true
  stopping : Bool := false
  /-- The front first. -/
  queue : List Job := []
  threads : List Phase := []
  control : Control := .idle
  /-- A `start` has returned, and no call has been made since. -/
  accepting : Bool := false
  /-- How often the pool has been joined. -/
  joins : Nat := 0
  /-- All jobs ever submitted, those worked off and those thrown away. -/
  jobs : List Job := []
  done : List Job := []
  dropped : List Job := []
  log : List Event := []

inductive Move where
  | start (n : { n : Nat // 0 < n })
  | stop
  /-- The call of `start` or `stop` goes on. -/
  | control
  /-- The notification goes to the thread at the place `woken`, should it wait. -/
  | submitForSession (sid : UInt64) (woken : Nat)
  | thread (i : Nat)
  /-- A thread wakes up for no reason. -/
  | spurious (i : Nat)

def Phase.wake : Phase → Phase
  | waiting => ready
  | p => p

/-- `cv_.notify_one()`: some thread that waits is woken, if there is one. -/
def notifyOne (woken : Nat) (threads : List Phase) : List Phase :=
  threads.modify
    (if threads[woken]? = some .waiting then woken else threads.findIdx (· = .waiting)) Phase.wake

namespace JobSystem

variable (s : JobSystem)

/-- The first section of `stop`, which `start` calls. -/
def call (rest : Rest) : JobSystem :=
  if s.control = .idle then
    { s with stopping := true, control := .notifying rest, accepting := false }
  else s

def controlStep : JobSystem :=
  match s.control with
  | .idle => s
  | .notifying rest => { s with threads := s.threads.map Phase.wake, control := .joining 0 rest }
  | .joining i rest =>
    match s.threads[i]? with
    | none => { s with threads := [], joins := s.joins + 1, control := .clearing rest }
    | some .exited => { s with control := .joining (i + 1) rest }
    -- The join blocks.
    | some _ => s
  | .clearing none => { s with queue := [], dropped := s.dropped ++ s.queue, control := .idle }
  | .clearing (some n) =>
    { s with queue := [], dropped := s.dropped ++ s.queue, control := .resetting n }
  | .resetting n => { s with stopping := false, control := .spawning n.1 }
  | .spawning 0 => { s with control := .idle, accepting := true }
  | .spawning (left + 1) =>
    { s with threads := s.threads ++ [.ready], control := .spawning left }

/-- The job that a submission makes. -/
def nextJob (sid : UInt64) : Job where
  id := s.jobs.length
  sid
  accepted := if s.accepting = true then some s.joins else none

def push (job : Job) : JobSystem := { s with jobs := s.jobs ++ [job], queue := s.queue ++ [job] }

def submitForSession (sid : UInt64) (woken : Nat) : JobSystem :=
  { s with threads := notifyOne woken s.threads }.push (s.nextJob sid)

/-- A thread goes on. -/
def threadStep (i : Nat) : JobSystem :=
  match s.threads[i]? with
  | some .ready =>
    match s.queue with
    | [] =>
      { s with threads := s.threads.set i (if s.stopping = true then .exited else .waiting) }
    | job :: queue =>
      { s with queue, threads := s.threads.set i (.working job), log := s.log ++ [.began job] }
  | some (.working job) =>
    { s with threads := s.threads.set i (.worked job), log := s.log ++ [.finished job] }
  | some (.worked job) =>
    { s with
      threads := s.threads.set i .ready
      done := job :: s.done
      log := s.log ++
        if s.scheduler = true then [.posted job (ownerWorkerFromId job.sid)] else [] }
  | _ => s

def step : Move → JobSystem
  | .start n => s.call (some n)
  | .stop => s.call none
  | .control => s.controlStep
  | .submitForSession sid woken => s.submitForSession sid woken
  | .thread i => s.threadStep i
  | .spurious i => { s with threads := s.threads.modify i Phase.wake }

def run (moves : List Move) : JobSystem := moves.foldl step s

/-- What the log has of a job. -/
def eventsOf (job : Job) : List Event := s.log.filter (·.job = job)

end JobSystem

/-! ## Where the jobs are -/

/-- The job a thread has, with what has happened to it. -/
def Phase.entry : Phase → Option (Job × List Event)
  | working job => some (job, [.began job])
  | worked job => some (job, [.began job, .finished job])
  | ready | waiting | exited => none

theorem Phase.wake_ne_waiting (p : Phase) : p.wake ≠ .waiting := by
  cases p <;> exact Phase.noConfusion

theorem Phase.eq_exited_of_wake {p : Phase} (h : p.wake = .exited) : p = .exited := by
  cases p with
  | exited => rfl
  | _ => cases h

@[simp] theorem Phase.entry_wake (p : Phase) : p.wake.entry = p.entry := by
  cases p <;> rfl

namespace JobSystem

variable {s : JobSystem} {l r : List Phase} {p : Phase} {job : Job} {es : List Event}

/-- The jobs by their places, each with what has happened to a job there. -/
def entries (s : JobSystem) : List (Job × List Event) :=
  s.queue.map (·, []) ++ (s.threads.filterMap Phase.entry ++
    (s.done.map (fun job => (job, job.history s.scheduler)) ++ s.dropped.map (·, [])))

theorem mem_entries : (job, es) ∈ s.entries ↔
    (job ∈ s.queue ∧ es = []) ∨ (∃ p ∈ s.threads, p.entry = some (job, es)) ∨
      (job ∈ s.done ∧ es = job.history s.scheduler) ∨ (job ∈ s.dropped ∧ es = []) := by
  simp [entries, and_comm, eq_comm]

theorem entries_around_none (h : s.threads = l ++ p :: r) (hp : p.entry = none) :
    s.entries = { s with threads := l ++ r }.entries := by
  simp [entries, h, hp]

theorem entries_around_some (h : s.threads = l ++ p :: r) (hp : p.entry = some (job, es)) :
    s.entries.Perm ((job, es) :: { s with threads := l ++ r }.entries) := by
  simp only [entries, h, List.filterMap_append, List.filterMap_cons_some hp, List.append_assoc,
    List.cons_append]
  exact (List.perm_middle.append_left _).trans List.perm_middle

theorem entries_push (s : JobSystem) (job : Job) :
    (s.push job).entries.Perm ((job, []) :: s.entries) := by
  simp [entries, push]

/-- The threads in the list are those of before, some of them woken. -/
structure Woken (s : JobSystem) (ts : List Phase) : Prop where
  length : ts.length = s.threads.length
  get : ∀ k : Nat, ts[k]? = s.threads[k]? ∨ ts[k]? = (s.threads[k]?).map Phase.wake

theorem woken_map (s : JobSystem) : s.Woken (s.threads.map Phase.wake) where
  length := List.length_map _
  get := fun _ => .inr List.getElem?_map

theorem woken_modify (s : JobSystem) (i : Nat) : s.Woken (s.threads.modify i Phase.wake) where
  length := List.length_modify ..
  get := by
    intro k
    rw [List.getElem?_modify]
    split
    · exact .inr rfl
    · exact .inl (Option.map_id_apply ..)

theorem Woken.entries {ts : List Phase} (h : s.Woken ts) :
    { s with threads := ts }.entries = s.entries := by
  have hmap : ts.map Phase.entry = s.threads.map Phase.entry := by
    apply List.ext_getElem?
    intro k
    rw [List.getElem?_map, List.getElem?_map]
    rcases h.get k with hk | hk
    · rw [hk]
    · simp [hk, Function.comp_def]
  have hheld : ts.filterMap Phase.entry = s.threads.filterMap Phase.entry := by
    simpa [List.filterMap_map] using congrArg (List.filterMap id) hmap
  simp only [JobSystem.entries, hheld]

/-! ### One step -/

/-- Every job is at one place, with the history that goes with it. -/
structure Placed (s : JobSystem) : Prop where
  histories : Histories Event.job s.jobs s.log s.entries
  ids : ∀ job ∈ s.jobs, job.id < s.jobs.length

namespace Placed

section

variable (h : s.Placed)
include h

theorem woken {ts : List Phase} (hts : s.Woken ts) :
    Placed { s with threads := ts } where
  histories := by
    rw [hts.entries]
    exact h.histories
  ids := h.ids

theorem nextJob_new (sid : UInt64) : s.nextJob sid ∉ s.jobs :=
  fun hmem => lt_irrefl _ (h.ids _ hmem)

theorem push (sid : UInt64) : (s.push (s.nextJob sid)).Placed where
  histories := (h.histories.enter (h.nextJob_new sid)).perm (entries_push s _).symm
  ids := by
    intro job hjob
    rw [JobSystem.push, List.length_append, List.length_singleton]
    rcases List.mem_append.1 hjob with hjob | hjob
    · exact (h.ids job hjob).trans (Nat.lt_succ_self _)
    · rw [List.mem_singleton.1 hjob]
      exact Nat.lt_succ_self _

theorem mem_of_dropped (hjob : job ∈ s.dropped) : job ∈ s.jobs := by
  have hentry : (job, []) ∈ s.entries := mem_entries.2 (.inr (.inr (.inr ⟨hjob, rfl⟩)))
  exact h.histories.keys.mem_iff.1 (List.mem_map_of_mem hentry)

theorem clear (c : Control) :
    Placed { s with queue := [], dropped := s.dropped ++ s.queue, control := c } where
  histories := by
    refine h.histories.perm ?_
    simp only [entries, List.map_append, List.map_nil, List.nil_append]
    refine List.perm_append_comm.trans ?_
    simp only [List.append_assoc, List.Perm.refl]
  ids := h.ids

theorem spawn (c : Control) :
    Placed { s with threads := s.threads ++ [.ready], control := c } where
  histories := by
    have hentries : entries { s with threads := s.threads ++ [.ready], control := c }
        = s.entries := by
      simp [entries, Phase.entry]
    rw [hentries]
    exact h.histories
  ids := h.ids

theorem joined (hall : ∀ p ∈ s.threads, p = .exited) (c : Control) :
    Placed { s with threads := [], joins := s.joins + 1, control := c } where
  histories := by
    have hheld : s.threads.filterMap Phase.entry = [] := by
      rw [List.filterMap_eq_nil_iff]
      intro p hp
      rw [hall p hp]
      rfl
    have hentries : { s with threads := [], joins := s.joins + 1, control := c }.entries
        = s.entries := by
      simp [entries, hheld]
    rw [hentries]
    exact h.histories
  ids := h.ids

/-- A thread that has no job takes up another such phase. -/
theorem idle (hs : s.threads = l ++ .ready :: r) (hp : p.entry = none) :
    Placed { s with threads := l ++ p :: r } where
  histories := by
    rw [entries_around_none (s := { s with threads := l ++ p :: r }) rfl hp,
      ← entries_around_none hs rfl]
    exact h.histories
  ids := h.ids

theorem take (hs : s.threads = l ++ .ready :: r) {queue : List Job} (hq : s.queue = job :: queue) :
    Placed { s with queue, threads := l ++ .working job :: r, log := s.log ++ [.began job] } where
  histories := by
    have hfront : s.entries = (job, []) :: { s with queue, threads := l ++ r }.entries := by
      rw [entries_around_none hs rfl]
      simp [entries, hq]
    have hrecord := Histories.record (e := Event.began job) (hfront ▸ h.histories)
    refine hrecord.perm (List.Perm.symm ?_)
    exact entries_around_some (l := l) (r := r) (p := .working job) rfl rfl
  ids := h.ids

theorem finish (hs : s.threads = l ++ .working job :: r) :
    Placed { s with threads := l ++ .worked job :: r, log := s.log ++ [.finished job] } where
  histories := by
    have hworking := h.histories.perm (entries_around_some hs rfl)
    have hrecord := Histories.record (e := Event.finished job) hworking
    refine hrecord.perm (List.Perm.symm ?_)
    exact entries_around_some (l := l) (r := r) (p := .worked job) rfl rfl
  ids := h.ids

theorem post (hs : s.threads = l ++ .worked job :: r) :
    Placed { s with
      threads := l ++ .ready :: r
      done := job :: s.done
      log := s.log ++
        if s.scheduler = true then [.posted job (ownerWorkerFromId job.sid)] else [] } where
  histories := by
    have hworked := h.histories.perm (entries_around_some hs rfl)
    have hdone : ((job, job.history s.scheduler) :: { s with threads := l ++ r }.entries).Perm
        { s with threads := l ++ r, done := job :: s.done }.entries := by
      simp only [entries, List.map_cons, List.cons_append]
      exact (List.perm_middle.symm.trans (List.perm_middle.symm.append_left _))
    rw [entries_around_none (l := l) (r := r) (p := .ready) rfl rfl]
    refine Histories.perm ?_ hdone
    rw [Job.history]
    split
    · exact Histories.record (e := Event.posted job (ownerWorkerFromId job.sid)) hworked
    · simpa using hworked
  ids := h.ids

end

end Placed

end JobSystem

end HyperNet.Jobs
