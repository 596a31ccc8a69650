import HyperNet.App.JobSystem
import HyperNet.Lib.Reentrant
import Mathlib.Algebra.Order.Ring.Nat

/-!
# Runs of the job system

A job that was accepted is queued before the next call sets the stop flag.  A thread leaves only
when it finds the queue empty, so the first that leaves finds every such job taken; and a thread
that has taken one leaves after it has worked it off.  The pool has a thread, as `start` is called
for at least one.  Hence all accepted jobs are done when the pool is joined (`jobs_run_once`).

The call does return (`call_returns`): the stop flag is set under the mutex before the threads are
notified, so that none of them waits when it is to be joined.
-/

namespace HyperNet.Jobs

open HyperNet.Net HyperNet.Reentrant

namespace JobSystem

variable {s : JobSystem} {p : Phase} {job : Job} {ts : List Phase}

/-! ## Calls and threads -/

/-- What holds while a call is at its places. -/
def Controlled (s : JobSystem) : Prop :=
  match s.control with
  | .idle => True
  | .notifying _ => s.stopping = true
  | .joining i _ =>
    s.stopping = true ∧ .waiting ∉ s.threads ∧ ∀ k < i, s.threads[k]? = some .exited
  | .clearing _ | .resetting _ => s.threads = []
  | .spawning left => s.stopping = false ∧ (left = 0 → s.threads ≠ [])

structure Lifecycle (s : JobSystem) : Prop where
  controlled : s.Controlled
  alive : s.stopping = false → .exited ∉ s.threads
  accepting : s.accepting = true → s.stopping = false ∧ s.threads ≠ [] ∧ s.control = .idle
  /-- A job that waits for the next join: the pool is there, and no thread has left it before the
  job was taken. -/
  current : ∀ job ∈ s.jobs, job.accepted = some s.joins →
    s.threads ≠ [] ∧ job ∉ s.dropped ∧ (job ∈ s.queue → .exited ∉ s.threads)
  settled : ∀ job ∈ s.jobs, ∀ m, job.accepted = some m → m ≤ s.joins ∧ (m < s.joins → job ∈ s.done)

/-- The threads may be so after they have gone on.  They wait only if there is no stop, and leave
only if there is one and nothing is queued. -/
structure Goes (s : JobSystem) (ts : List Phase) : Prop where
  length : ts.length = s.threads.length
  stays : ∀ k : Nat, s.threads[k]? = some .exited → ts[k]? = some .exited
  waits : .waiting ∈ ts → .waiting ∈ s.threads ∨ s.stopping = false
  exits : .exited ∈ ts → .exited ∈ s.threads ∨ s.stopping = true ∧ s.queue = []

theorem Goes.eq_nil_iff (h : s.Goes ts) : ts = [] ↔ s.threads = [] := by
  rw [← List.length_eq_zero_iff, h.length, List.length_eq_zero_iff]

theorem goes_set {i : Nat} {q : Phase} (hi : s.threads[i]? = some p) (hp : p ≠ .exited)
    (hwaits : q = .waiting → s.stopping = false)
    (hexits : q = .exited → s.stopping = true ∧ s.queue = []) : s.Goes (s.threads.set i q) where
  length := List.length_set
  stays := by
    intro k hk
    have hne : i ≠ k := by
      rintro rfl
      exact hp (Option.some.inj (hi.symm.trans hk))
    rw [List.getElem?_set_ne hne, hk]
  waits := by
    intro hmem
    rcases List.mem_or_eq_of_mem_set hmem with hmem | heq
    · exact .inl hmem
    · exact .inr (hwaits heq.symm)
  exits := by
    intro hmem
    rcases List.mem_or_eq_of_mem_set hmem with hmem | heq
    · exact .inl hmem
    · exact .inr (hexits heq.symm)

theorem Woken.goes (h : s.Woken ts) : s.Goes ts where
  length := h.length
  stays := by
    intro k hk
    rcases h.get k with hget | hget <;> simp [hget, hk, Phase.wake]
  waits := by
    intro hmem
    obtain ⟨k, hk⟩ := List.mem_iff_getElem?.1 hmem
    rcases h.get k with hget | hget
    · exact .inl (List.mem_of_getElem? (hget.symm.trans hk))
    · obtain ⟨q, -, hq⟩ := Option.map_eq_some_iff.1 (hget.symm.trans hk)
      exact absurd hq q.wake_ne_waiting
  exits := by
    intro hmem
    obtain ⟨k, hk⟩ := List.mem_iff_getElem?.1 hmem
    rcases h.get k with hget | hget
    · exact .inl (List.mem_of_getElem? (hget.symm.trans hk))
    · obtain ⟨q, hq, hwake⟩ := Option.map_eq_some_iff.1 (hget.symm.trans hk)
      rw [Phase.eq_exited_of_wake hwake] at hq
      exact .inl (List.mem_of_getElem? hq)

theorem Goes.controlled (hts : s.Goes ts) (h : s.Controlled) :
    Controlled { s with threads := ts } := by
  simp only [Controlled] at h ⊢
  split at h
  · trivial
  · exact h
  · obtain ⟨hstop, hwaiting, hexited⟩ := h
    refine ⟨hstop, ?_, fun k hk => hts.stays k (hexited k hk)⟩
    intro hmem
    rcases hts.waits hmem with hmem | hgo
    · exact hwaiting hmem
    · rw [hstop] at hgo
      cases hgo
  · exact hts.eq_nil_iff.2 h
  · exact hts.eq_nil_iff.2 h
  · exact ⟨h.1, fun hleft => mt hts.eq_nil_iff.1 (h.2 hleft)⟩

namespace Lifecycle

section

variable (h : s.Lifecycle)
include h

theorem goes {ts : List Phase} (hts : s.Goes ts) {queue done : List Job} (hqueue : queue ⊆ s.queue)
    (hdone : s.done ⊆ done) (log : List Event) :
    Lifecycle { s with threads := ts, queue, done, log } where
  controlled := hts.controlled h.controlled
  alive := by
    intro hgo hmem
    rcases hts.exits hmem with hmem | ⟨hstop, -⟩
    · exact h.alive hgo hmem
    · exact Bool.false_ne_true (hgo.symm.trans hstop)
  accepting := by
    intro haccepting
    obtain ⟨hgo, hthreads, hidle⟩ := h.accepting haccepting
    exact ⟨hgo, mt hts.eq_nil_iff.1 hthreads, hidle⟩
  current := by
    intro job hjob haccepted
    obtain ⟨hthreads, hdropped, hqueued⟩ := h.current job hjob haccepted
    refine ⟨mt hts.eq_nil_iff.1 hthreads, hdropped, ?_⟩
    intro hmem hexited
    rcases hts.exits hexited with hexited | ⟨-, hempty⟩
    · exact hqueued (hqueue hmem) hexited
    · have hmem := hqueue hmem
      rw [hempty] at hmem
      exact List.not_mem_nil hmem
  settled := by
    intro job hjob m haccepted
    obtain ⟨hle, hsettled⟩ := h.settled job hjob m haccepted
    exact ⟨hle, fun hm => hdone (hsettled hm)⟩

theorem woken {ts : List Phase} (hts : s.Woken ts) : Lifecycle { s with threads := ts } :=
  h.goes hts.goes (List.Subset.refl _) (List.Subset.refl _) s.log

theorem of_joining {i : Nat} {rest : Rest} (hc : s.control = .joining i rest) :
    s.stopping = true ∧ .waiting ∉ s.threads ∧ ∀ k < i, s.threads[k]? = some .exited := by
  simpa only [Controlled, hc] using h.controlled

/-- A call that is under way comes to another place. -/
theorem at_control (hcall : s.control ≠ .idle) {c : Control}
    (hc : Controlled { s with control := c }) : Lifecycle { s with control := c } where
  __ := h
  controlled := hc
  accepting := fun haccepting => absurd (h.accepting haccepting).2.2 hcall

theorem call (rest : Rest) : (s.call rest).Lifecycle := by
  rw [JobSystem.call]
  split
  · exact
      { controlled := rfl
        alive := fun hgo => absurd hgo.symm Bool.false_ne_true
        accepting := fun haccepting => absurd haccepting Bool.false_ne_true
        current := h.current
        settled := h.settled }
  · exact h

/-- Without threads no job waits for the next join. -/
theorem not_current (hs : s.threads = []) (hjob : job ∈ s.jobs) : job.accepted ≠ some s.joins :=
  fun haccepted => (h.current job hjob haccepted).1 hs

theorem clear (hs : s.threads = []) (hcall : s.control ≠ .idle) {c : Control}
    (hc : Controlled { s with control := c }) :
    Lifecycle { s with queue := [], dropped := s.dropped ++ s.queue, control := c } where
  controlled := hc
  alive := h.alive
  accepting := fun haccepting => absurd (h.accepting haccepting).2.2 hcall
  current := fun _ hjob haccepted => absurd haccepted (h.not_current hs hjob)
  settled := h.settled

theorem reset {n : { n : Nat // 0 < n }} (hc : s.control = .resetting n) :
    Lifecycle { s with stopping := false, control := .spawning n.1 } := by
  have hs : s.threads = [] := by
    simpa only [Controlled, hc] using h.controlled
  exact
    { controlled := ⟨rfl, fun hn => absurd hn n.2.ne'⟩
      alive := by simp [hs]
      accepting := fun haccepting => absurd (h.accepting haccepting).2.2 (by simp [hc])
      current := h.current
      settled := h.settled }

theorem spawn {left : Nat} (hc : s.control = .spawning (left + 1)) :
    Lifecycle { s with threads := s.threads ++ [.ready], control := .spawning left } := by
  have hgo : s.stopping = false := by
    have hcontrolled := h.controlled
    simp only [Controlled, hc] at hcontrolled
    exact hcontrolled.1
  exact
    { controlled := ⟨hgo, fun _ => by simp⟩
      alive := by simpa using h.alive
      accepting := fun haccepting => absurd (h.accepting haccepting).2.2 (by simp [hc])
      current := by
        intro job hjob haccepted
        obtain ⟨-, hdropped, hqueued⟩ := h.current job hjob haccepted
        exact ⟨by simp, hdropped, by simpa using hqueued⟩
      settled := h.settled }

theorem started (hc : s.control = .spawning 0) :
    Lifecycle { s with control := .idle, accepting := true } := by
  have hpool : s.stopping = false ∧ s.threads ≠ [] := by
    simpa [Controlled, hc] using h.controlled
  exact
    { controlled := trivial
      alive := h.alive
      accepting := fun _ => ⟨hpool.1, hpool.2, rfl⟩
      current := h.current
      settled := h.settled }

/-- A new job is accepted only by a pool that no thread has left. -/
theorem of_accepted {sid : UInt64} {m : Nat} (haccepted : (s.nextJob sid).accepted = some m) :
    m = s.joins ∧ s.threads ≠ [] ∧ .exited ∉ s.threads := by
  simp only [nextJob] at haccepted
  split at haccepted
  · next haccepting =>
    obtain ⟨hgo, hthreads, -⟩ := h.accepting haccepting
    exact ⟨(Option.some.inj haccepted).symm, hthreads, h.alive hgo⟩
  · cases haccepted

theorem push (hplaced : s.Placed) (sid : UInt64) :
    (s.push (s.nextJob sid)).Lifecycle where
  __ := h
  current := by
    intro job hjob haccepted
    rcases List.mem_append.1 hjob with hjob | hjob
    · obtain ⟨hthreads, hdropped, hqueued⟩ := h.current job hjob haccepted
      refine ⟨hthreads, hdropped, ?_⟩
      intro hmem
      rcases List.mem_append.1 hmem with hmem | hmem
      · exact hqueued hmem
      · rw [List.mem_singleton.1 hmem] at haccepted
        exact (h.of_accepted haccepted).2.2
    · rw [List.mem_singleton.1 hjob] at haccepted ⊢
      obtain ⟨-, hthreads, hexited⟩ := h.of_accepted haccepted
      exact ⟨hthreads, fun hmem => hplaced.nextJob_new sid (hplaced.mem_of_dropped hmem),
        fun _ => hexited⟩
  settled := by
    intro job hjob m haccepted
    rcases List.mem_append.1 hjob with hjob | hjob
    · exact h.settled job hjob m haccepted
    · rw [List.mem_singleton.1 hjob] at haccepted
      obtain ⟨rfl, -⟩ := h.of_accepted haccepted
      exact ⟨le_rfl, fun hlt => absurd hlt (lt_irrefl _)⟩

/-- The pool has been joined: what was accepted before is done. -/
theorem joined (hplaced : s.Placed) (hall : ∀ p ∈ s.threads, p = .exited)
    (hcall : s.control ≠ .idle) (rest : Rest) :
    Lifecycle { s with threads := [], joins := s.joins + 1, control := .clearing rest } where
  controlled := rfl
  alive := fun _ => List.not_mem_nil
  accepting := fun haccepting => absurd (h.accepting haccepting).2.2 hcall
  current := by
    intro job hjob haccepted
    exact absurd (h.settled job hjob _ haccepted).1 (by simp)
  settled := by
    intro job hjob m haccepted
    obtain ⟨hle, hsettled⟩ := h.settled job hjob m haccepted
    refine ⟨hle.trans (Nat.le_succ _), fun hm => ?_⟩
    rcases hle.lt_or_eq with hlt | rfl
    · exact hsettled hlt
    · -- The job is at some place; it is neither queued nor held nor thrown away.
      obtain ⟨hthreads, hdropped, hqueued⟩ := h.current job hjob haccepted
      obtain ⟨p, hp⟩ := List.exists_mem_of_ne_nil _ hthreads
      have hexited : .exited ∈ s.threads := hall p hp ▸ hp
      rcases mem_entries.1 (hplaced.histories.exists_entry hjob) with
        ⟨hmem, -⟩ | ⟨p, hp, hentry⟩ | ⟨hmem, -⟩ | ⟨hmem, -⟩
      · exact absurd hexited (hqueued hmem)
      · rw [hall p hp] at hentry
        cases hentry
      · exact hmem
      · exact absurd hmem hdropped

end

end Lifecycle

theorem exists_around {i : Nat} (h : ts[i]? = some p) :
    ∃ l r, ts = l ++ p :: r ∧ ∀ q, ts.set i q = l ++ q :: r := by
  obtain ⟨hlt, rfl⟩ := List.getElem?_eq_some_iff.1 h
  have hset : ∀ q, ts.set i q = ts.take i ++ q :: ts.drop (i + 1) := by
    intro q
    rw [List.set_eq_take_append_cons_drop, if_pos hlt]
  refine ⟨ts.take i, ts.drop (i + 1), ?_, hset⟩
  rw [← hset, List.set_getElem_self]

/-! ## Runs -/

structure Good (s : JobSystem) : Prop where
  placed : s.Placed
  lifecycle : s.Lifecycle

namespace Good

theorem initial (scheduler : Bool) : Good { scheduler } where
  placed :=
    { histories := Histories.empty
      ids := by simp }
  lifecycle :=
    { controlled := trivial
      alive := fun _ => List.not_mem_nil
      accepting := fun haccepting => absurd haccepting Bool.false_ne_true
      current := by simp
      settled := by simp }

section

variable {rest : Rest} (h : s.Good)
include h

theorem woken {ts : List Phase} (hts : s.Woken ts) : Good { s with threads := ts } :=
  ⟨h.placed.woken hts, h.lifecycle.woken hts⟩

theorem call (rest : Rest) : (s.call rest).Good := by
  refine ⟨?_, h.lifecycle.call rest⟩
  rw [JobSystem.call]
  split
  · exact ⟨h.placed.histories, h.placed.ids⟩
  · exact h.placed

theorem submitForSession (sid : UInt64) (woken : Nat) : (s.submitForSession sid woken).Good := by
  have hwoken : Good { s with threads := notifyOne woken s.threads } := h.woken (woken_modify s _)
  exact ⟨hwoken.placed.push sid, hwoken.lifecycle.push hwoken.placed sid⟩

theorem threadStep (i : Nat) : (s.threadStep i).Good := by
  rw [JobSystem.threadStep]
  split
  · next hi =>
    obtain ⟨l, r, hs, hset⟩ := exists_around hi
    split
    · next hq =>
      constructor
      · rw [hset]
        exact h.placed.idle hs (by split <;> rfl)
      · refine h.lifecycle.goes (goes_set hi Phase.noConfusion ?_ ?_) (List.Subset.refl _)
          (List.Subset.refl _) s.log
        · split
          · exact Phase.noConfusion
          · next hgo => exact fun _ => Bool.eq_false_of_not_eq_true hgo
        · split
          · next hstop => exact fun _ => ⟨hstop, hq⟩
          · exact Phase.noConfusion
    · next job queue hq =>
      constructor
      · rw [hset]
        exact h.placed.take hs hq
      · refine h.lifecycle.goes (goes_set hi Phase.noConfusion Phase.noConfusion Phase.noConfusion)
          ?_ (List.Subset.refl _) _
        rw [hq]
        exact List.subset_cons_self job queue
  · next job hi =>
    obtain ⟨l, r, hs, hset⟩ := exists_around hi
    constructor
    · rw [hset]
      exact h.placed.finish hs
    · exact h.lifecycle.goes (goes_set hi Phase.noConfusion Phase.noConfusion Phase.noConfusion)
        (List.Subset.refl _) (List.Subset.refl _) _
  · next job hi =>
    obtain ⟨l, r, hs, hset⟩ := exists_around hi
    constructor
    · rw [hset]
      exact h.placed.post hs
    · exact h.lifecycle.goes (goes_set hi Phase.noConfusion Phase.noConfusion Phase.noConfusion)
        (List.Subset.refl _) (List.subset_cons_self _ _) _
  · exact h

theorem notified (hc : s.control = .notifying rest) :
    Good { s with threads := s.threads.map Phase.wake, control := .joining 0 rest } := by
  have hwoken := h.woken (woken_map s)
  have hstop : s.stopping = true := by
    simpa only [Controlled, hc] using h.lifecycle.controlled
  have hawake : .waiting ∉ s.threads.map Phase.wake := by
    intro hmem
    obtain ⟨p, -, hp⟩ := List.mem_map.1 hmem
    exact p.wake_ne_waiting hp
  refine ⟨⟨hwoken.placed.histories, hwoken.placed.ids⟩, hwoken.lifecycle.at_control ?_ ?_⟩
  · simp [hc]
  · exact ⟨hstop, hawake, fun k hk => absurd hk k.not_lt_zero⟩

theorem join {i : Nat} (hc : s.control = .joining i rest) (hi : s.threads[i]? = some .exited) :
    Good { s with control := .joining (i + 1) rest } := by
  obtain ⟨hstop, hawake, hexited⟩ := h.lifecycle.of_joining hc
  refine ⟨⟨h.placed.histories, h.placed.ids⟩, h.lifecycle.at_control (by simp [hc]) ?_⟩
  refine ⟨hstop, hawake, fun k hk => ?_⟩
  rcases Nat.lt_succ_iff_lt_or_eq.1 hk with hk | rfl
  · exact hexited k hk
  · exact hi

theorem joined {i : Nat} (hc : s.control = .joining i rest) (hi : s.threads[i]? = none) :
    Good { s with threads := [], joins := s.joins + 1, control := .clearing rest } := by
  have hall : ∀ p ∈ s.threads, p = .exited := by
    obtain ⟨-, -, hexited⟩ := h.lifecycle.of_joining hc
    intro p hp
    obtain ⟨k, hk⟩ := List.mem_iff_getElem?.1 hp
    have hlt : k < i := (List.getElem?_eq_some_iff.1 hk).1.trans_le (List.getElem?_eq_none_iff.1 hi)
    exact Option.some.inj (hk.symm.trans (hexited k hlt))
  exact ⟨h.placed.joined hall _, h.lifecycle.joined h.placed hall (by simp [hc]) rest⟩

theorem cleared (hc : s.control = .clearing rest) {c : Control}
    (hcontrolled : s.threads = [] → Controlled { s with control := c }) :
    Good { s with queue := [], dropped := s.dropped ++ s.queue, control := c } := by
  have hs : s.threads = [] := by
    simpa only [Controlled, hc] using h.lifecycle.controlled
  exact ⟨h.placed.clear c, h.lifecycle.clear hs (by simp [hc]) (hcontrolled hs)⟩

theorem controlStep : s.controlStep.Good := by
  rw [JobSystem.controlStep]
  split
  · exact h
  · next hc => exact h.notified hc
  · next hc =>
    split
    · next hi => exact h.joined hc hi
    · next hi => exact h.join hc hi
    · exact h
  · next hc => exact h.cleared hc fun _ => trivial
  · next hc => exact h.cleared hc id
  · next hc => exact ⟨⟨h.placed.histories, h.placed.ids⟩, h.lifecycle.reset hc⟩
  · next hc => exact ⟨⟨h.placed.histories, h.placed.ids⟩, h.lifecycle.started hc⟩
  · next hc => exact ⟨h.placed.spawn _, h.lifecycle.spawn hc⟩

theorem step (move : Move) : (s.step move).Good := by
  cases move with
  | start n => exact h.call (some n)
  | stop => exact h.call none
  | control => exact h.controlStep
  | submitForSession sid woken => exact h.submitForSession sid woken
  | thread i => exact h.threadStep i
  | spurious i => exact h.woken (woken_modify s i)

end

theorem run (scheduler : Bool) (moves : List Move) :
    (JobSystem.run { scheduler } moves).Good :=
  foldl_invariant (fun _ move h => h.step move) _ (initial scheduler) moves

end Good

/-- The scheduler stays, and so do the jobs. -/
def Extends (s t : JobSystem) : Prop := t.scheduler = s.scheduler ∧ s.jobs ⊆ t.jobs

theorem extends_refl (s : JobSystem) : s.Extends s := ⟨rfl, List.Subset.refl _⟩

theorem Extends.trans {t u : JobSystem} (h : s.Extends t) (h' : t.Extends u) : s.Extends u :=
  ⟨h'.1.trans h.1, List.Subset.trans h.2 h'.2⟩

theorem extends_step (s : JobSystem) (move : Move) : s.Extends (s.step move) := by
  have hcall : ∀ rest, s.Extends (s.call rest) := by
    intro rest
    rw [call]
    split <;> exact s.extends_refl
  cases move with
  | start n => exact hcall (some n)
  | stop => exact hcall none
  | control =>
    rw [step, controlStep]
    split
    case h_3 => split <;> exact s.extends_refl
    all_goals exact s.extends_refl
  | submitForSession sid woken => exact ⟨rfl, List.subset_append_left _ _⟩
  | thread i =>
    rw [step, threadStep]
    split
    case h_1 => split <;> exact s.extends_refl
    all_goals exact s.extends_refl
  | spurious i => exact s.extends_refl

theorem extends_run (s : JobSystem) (moves : List Move) : s.Extends (s.run moves) :=
  foldl_rel extends_refl Extends.trans extends_step s moves

theorem Good.eventsOf_isPrefix (h : s.Good) (hjob : job ∈ s.jobs) :
    s.eventsOf job <+: job.history s.scheduler := by
  rcases mem_entries.1 (h.placed.histories.exists_entry hjob) with
    ⟨-, hes⟩ | ⟨p, -, hp⟩ | ⟨-, hes⟩ | ⟨-, hes⟩
  · rw [eventsOf, hes]
    exact List.nil_prefix
  · cases p with
    | working job' | worked job' =>
      obtain ⟨rfl, hes⟩ := Prod.mk.inj (Option.some.inj hp)
      rw [eventsOf, ← hes]
      exact ⟨_, rfl⟩
    | _ => cases hp
  · exact ⟨[], (List.append_nil _).trans hes⟩
  · rw [eventsOf, hes]
    exact List.nil_prefix

theorem Good.eventsOf_of_done (h : s.Good) (hjob : job ∈ s.done) :
    s.eventsOf job = job.history s.scheduler := by
  have hentry : (job, job.history s.scheduler) ∈ s.entries :=
    mem_entries.2 (.inr (.inr (.inl ⟨hjob, rfl⟩)))
  exact h.placed.histories.history _ hentry

end JobSystem

/-- No job is run twice.  A job that is submitted when a `start` has returned and no call has been
made since has been run once when the next call has joined the pool; its callback has been posted
once then, to its owner and after the work. -/
theorem jobs_run_once (before after : List Move) (sid : UInt64) (woken : Nat) :
    let s := JobSystem.run { scheduler := true } before
    let job := s.nextJob sid
    let s' := (s.step (.submitForSession sid woken)).run after
    let whole := [.began job, .finished job, .posted job (ownerWorkerFromId sid)]
    s'.eventsOf job <+: whole ∧
      (s.accepting = true → s.joins < s'.joins → s'.eventsOf job = whole) := by
  intro s job s' whole
  have hs' : s' = JobSystem.run { scheduler := true }
      (before ++ .submitForSession sid woken :: after) := by
    simp [s', s, JobSystem.run, List.foldl_append]
  have hgood : s'.Good := hs' ▸ JobSystem.Good.run true _
  have hscheduler : s'.scheduler = true := hs' ▸ (JobSystem.extends_run _ _).1
  have hjob : job ∈ s'.jobs :=
    (JobSystem.extends_run _ after).2 (List.mem_append_right _ List.mem_cons_self)
  have hwhole : job.history s'.scheduler = whole := by
    rw [hscheduler]
    rfl
  constructor
  · rw [← hwhole]
    exact hgood.eventsOf_isPrefix hjob
  · intro haccepting hjoins
    have haccepted : job.accepted = some s.joins := if_pos haccepting
    have hdone := (hgood.lifecycle.settled job hjob _ haccepted).2 hjoins
    rw [← hwhole]
    exact hgood.eventsOf_of_done hdone

/-- One thread is started.  A job is submitted and taken; `stop` is called, the job is worked off
and the pool is joined. -/
theorem jobs_run_once_one :
    let started := .start ⟨1, Nat.one_pos⟩ :: List.replicate 6 .control
    let stopped := [.thread 0, .stop, .thread 0, .thread 0, .control, .thread 0, .control, .control]
    let s := JobSystem.run { scheduler := true } started
    let s' := (s.step (.submitForSession 0x300000007 0)).run stopped
    s.accepting = true ∧ s.joins < s'.joins ∧
      s'.eventsOf (s.nextJob 0x300000007) =
        [.began (s.nextJob 0x300000007), .finished (s.nextJob 0x300000007),
          .posted (s.nextJob 0x300000007) (ownerWorkerFromId 0x300000007)] := by
  intro started stopped s s'
  have haccepting : s.accepting = true := rfl
  have hjoins : s.joins < s'.joins := by decide
  exact ⟨haccepting, hjoins, (jobs_run_once started stopped _ _).2 haccepting hjoins⟩

/-! ## Calls return -/

/-- Whether the pool of the call has been joined. -/
def Control.joined : Control → Bool
  | notifying _ | joining _ _ => false
  | idle | clearing _ | resetting _ | spawning _ => true

/-- What a thread has to do before it leaves, if no job is queued. -/
def Phase.weight : Phase → Nat
  | working _ => 3
  | worked _ => 2
  | ready | waiting => 1
  | exited => 0

@[simp] theorem Phase.weight_wake (p : Phase) : p.wake.weight = p.weight := by
  cases p <;> rfl

def Rest.weight (rest : Rest) : Nat := rest.elim 0 (2 * ·.1)

/-- What a call has to do itself, of which a new thread is a part. -/
def Control.weight (threads : Nat) : Control → Nat
  | idle => 0
  | spawning left => 2 * left + 1
  | resetting n => 2 * n.1 + 2
  | clearing rest => rest.weight + 3
  | joining i rest => rest.weight + 4 + (threads - i)
  | notifying rest => rest.weight + 5 + threads

/-- The call or a thread. -/
def turn : Option Nat → Move
  | none => .control
  | some i => .thread i

namespace JobSystem

variable {s : JobSystem} {l r : List Phase} {p : Phase}

def distance (s : JobSystem) : Nat :=
  (s.threads.map Phase.weight).sum + 3 * s.queue.length + s.control.weight s.threads.length

/-- A call is under way that was made after so many joins, or it has returned. -/
structure Underway (joins : Nat) (s : JobSystem) : Prop where
  good : s.Good
  le : joins ≤ s.joins
  lt : s.control.joined = true → joins < s.joins

theorem sum_weight_set {i : Nat} (hi : s.threads[i]? = some p) (q : Phase) :
    ((s.threads.set i q).map Phase.weight).sum + p.weight
      = (s.threads.map Phase.weight).sum + q.weight := by
  obtain ⟨l, r, hs, hset⟩ := exists_around hi
  rw [hset, hs]
  simp only [List.map_append, List.map_cons, List.sum_append, List.sum_cons]
  omega

/-- A thread that has not left can go on when there is a stop. -/
theorem threadStep_closer {i : Nat} (hi : s.threads[i]? = some p) (hwaiting : p ≠ .waiting)
    (hexited : p ≠ .exited) (hstop : s.stopping = true) :
    (s.threadStep i).distance < s.distance ∧ (s.threadStep i).control = s.control ∧
      (s.threadStep i).joins = s.joins := by
  rw [threadStep, hi]
  cases p with
  | waiting => exact absurd rfl hwaiting
  | exited => exact absurd rfl hexited
  | ready =>
    cases hq : s.queue with
    | nil =>
      have hweight := sum_weight_set hi .exited
      refine ⟨?_, rfl, rfl⟩
      simp only [distance, hq, hstop, if_true, List.length_set, Phase.weight] at hweight ⊢
      omega
    | cons job queue =>
      have hweight := sum_weight_set hi (.working job)
      refine ⟨?_, rfl, rfl⟩
      simp only [distance, hq, List.length_set, List.length_cons, Phase.weight] at hweight ⊢
      omega
  | working job =>
    have hweight := sum_weight_set hi (.worked job)
    refine ⟨?_, rfl, rfl⟩
    simp only [distance, List.length_set, Phase.weight] at hweight ⊢
    omega
  | worked job =>
    have hweight := sum_weight_set hi .ready
    refine ⟨?_, rfl, rfl⟩
    simp only [distance, List.length_set, Phase.weight] at hweight ⊢
    omega

theorem Underway.controlStep {joins : Nat} (h : s.Underway joins) :
    s.controlStep.Underway joins := by
  have hgood := h.good.controlStep
  revert hgood
  rw [JobSystem.controlStep]
  split
  · exact fun _ => h
  · exact fun hgood => ⟨hgood, h.le, fun hjoined => absurd hjoined Bool.false_ne_true⟩
  · split
    · exact fun hgood => ⟨hgood, h.le.trans (Nat.le_succ _), fun _ => Nat.lt_succ_of_le h.le⟩
    · exact fun hgood => ⟨hgood, h.le, fun hjoined => absurd hjoined Bool.false_ne_true⟩
    · exact fun _ => h
  -- the pool has been joined already
  all_goals next hc => exact fun hgood => ⟨hgood, h.le, fun _ => h.lt (by rw [hc]; rfl)⟩

/-- The call can go on, unless it joins a thread that has not left. -/
theorem controlStep_closer (hcall : s.control ≠ .idle)
    (hfree : ∀ i rest p, s.control = .joining i rest → s.threads[i]? = some p → p = .exited) :
    s.controlStep.distance < s.distance := by
  rw [controlStep]
  split
  · next hc => exact absurd hc hcall
  · next hc => simp [distance, hc, Control.weight, Function.comp_def]
  · next i rest hc =>
    split
    · simp only [distance, hc, Control.weight, List.map_nil, List.sum_nil]
      omega
    · next hi =>
      have hbound := (List.getElem?_eq_some_iff.1 hi).1
      simp only [distance, hc, Control.weight]
      omega
    · next hp hi => exact absurd (hfree i rest _ hc hi) hp
  · next hc =>
    simp only [distance, hc, Control.weight, List.length_nil]
    omega
  · next n hc =>
    simp only [distance, hc, Control.weight, Rest.weight, Option.elim, List.length_nil]
    omega
  · next hc =>
    simp only [distance, hc, Control.weight]
    omega
  · next hc =>
    simp only [distance, hc, Control.weight]
    omega
  · next hc =>
    simp only [distance, hc, Control.weight, List.map_append, List.sum_append, List.map_cons,
      List.map_nil, List.sum_cons, List.sum_nil, Phase.weight]
    omega

/-- There is always a step towards the return of the call: its own, or one of the thread that it
waits for.  That thread does not wait itself, and would leave rather than wait. -/
theorem Underway.closer {joins : Nat} (h : s.Underway joins) (hcall : s.control ≠ .idle) :
    ∃ t, (s.step (turn t)).Underway joins ∧ (s.step (turn t)).distance < s.distance := by
  by_cases hfree : ∀ i rest p, s.control = .joining i rest → s.threads[i]? = some p → p = .exited
  · exact ⟨none, h.controlStep, controlStep_closer hcall hfree⟩
  · push Not at hfree
    obtain ⟨i, rest, p, hc, hi, hp⟩ := hfree
    obtain ⟨hstop, hawake, -⟩ := h.good.lifecycle.of_joining hc
    have hwaiting : p ≠ .waiting := by
      rintro rfl
      exact hawake (List.mem_of_getElem? hi)
    obtain ⟨hcloser, hcontrol, hjoins⟩ := threadStep_closer hi hwaiting hp hstop
    refine ⟨some i, ⟨h.good.threadStep i, ?_, ?_⟩, hcloser⟩
    · exact h.le.trans hjoins.ge
    · intro hjoined
      have hjoined : (s.threadStep i).control.joined = true := hjoined
      rw [hcontrol, hc] at hjoined
      cases hjoined

/-- The call has returned. -/
structure Returned (joins : Nat) (s : JobSystem) : Prop where
  underway : s.Underway joins
  idle : s.control = .idle

theorem Underway.returns {joins : Nat} (h : s.Underway joins) :
    ∃ turns : List (Option Nat), (s.run (turns.map turn)).Returned joins := by
  simp only [run, List.foldl_map]
  exact foldl_reaches (I := Underway joins) Nat.lt_wfRel.wf distance
    (fun _ h hgoal => h.closer fun hidle => hgoal ⟨h, hidle⟩) s h

end JobSystem

/-- `start` and `stop` return if no more jobs come: from every state of a run, the call and the
threads alone lead to the end of the call, and the pool is joined on the way. -/
theorem call_returns (moves : List Move) (rest : Rest) :
    let s := JobSystem.run { scheduler := true } moves
    s.control = .idle → ∃ turns : List (Option Nat),
      ((s.call rest).run (turns.map turn)).control = .idle ∧
        s.joins < ((s.call rest).run (turns.map turn)).joins := by
  intro s hidle
  have hcalled : s.call rest = { s with stopping := true, control := .notifying rest,
                                        accepting := false } := if_pos hidle
  have hunderway : (s.call rest).Underway s.joins := by
    refine ⟨(JobSystem.Good.run true moves).call rest, ?_, ?_⟩
    · rw [hcalled]
    · rw [hcalled]
      exact fun hjoined => absurd hjoined Bool.false_ne_true
  obtain ⟨turns, hreturned⟩ := hunderway.returns
  exact ⟨turns, hreturned.idle, hreturned.underway.lt (by rw [hreturned.idle]; rfl)⟩

end HyperNet.Jobs
