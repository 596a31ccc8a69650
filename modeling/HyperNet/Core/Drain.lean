import HyperNet.Core.Shutdown

/-!
# Draining the sessions

Phase 2 of `Engine::shutdownGracefully_` (`engine/src/hypernet/Engine.cpp`) asks all workers
for the number of their sessions until none is left or the time is over, and has them closed
by `requestCloseAllSessions` only in the second case.
`WorkerContext::querySessionCountBlocking` (`engine/src/hypernet/core/WorkerContext.cpp`) waits
200 ms for the answer and returns 0 if it does not come.

Here the shutdown of `HyperNet.Core.Shutdown` is run next to a record of what each worker had
when it was counted: when it gave its answer, or, if it did not in time, when the main thread gave
up on it.  The record looks at the states before and after a step only.  The workers have their
loops and session managers all through phase 2, so the first test of the query does not fail.  The
sum is a natural number: each session holds a descriptor, a non-negative `int`, so that the counts
of less than `2 ^ 32` workers stay below `2 ^ 64`.

A count that is late is added as 0, so sessions that nobody closes may be left when the loop
ends, and are, exactly if in some round only workers that were late had any (`drained_iff`).
-/

namespace HyperNet.Core

open Reentrant

/-! ## The record -/

/-- What a worker had when it was counted. -/
structure Count where
  sessions : Nat
  late : Bool
deriving DecidableEq, Repr

structure Drain where
  system : System
  /-- What each worker had when it last answered. -/
  counted : Nat → Nat := fun _ => 0
  /-- The workers asked in the current round. -/
  round : List Count := []
  /-- The rounds of which the sum was looked at. -/
  rounds : List (List Count) := []
  /-- Those after which phase 2 was left at once, without `requestCloseAllSessions`. -/
  skipped : List (List Count) := []

namespace Drain

/-- What is to be noted when the main thread goes on to `main`. -/
def noteMain (d : Drain) (main : Main) : Drain :=
  if main = d.system.main then d
  else
    match d.system.main with
    | .await i _ =>
      { d with round := d.round ++ [if d.system.answer.isSome then ⟨d.counted i, false⟩
                                    else ⟨(d.system.workers i).sessions, true⟩] }
    | .poll _ =>
      { d with
        round := []
        rounds := d.rounds ++ [d.round]
        skipped := if main.isEarly = true then d.skipped else d.skipped ++ [d.round] }
    | _ => d

/-- What is to be noted when worker `i` has moved. -/
def noteWorker (d : Drain) (i : Nat) (answer : Option Nat) : Drain :=
  if answer = d.system.answer then d
  else
    { d with counted := fun k => if k = i then (d.system.workers i).sessions else d.counted k }

def note (d : Drain) (τ : System) : Choice → Drain
  | .main _ => d.noteMain τ.main
  | .worker i _ => d.noteWorker i τ.answer
  | .post _ => d

def step (n : Nat) (installed : Nat → Bool) (d : Drain) (c : Choice) : Drain :=
  { d.note (d.system.step n installed c) c with system := d.system.step n installed c }

def run (n : Nat) (installed : Nat → Bool) (schedule : List Choice) (σ : System) : Drain :=
  schedule.foldl (step n installed) { system := σ }

/-- The record does not interfere. -/
theorem system_run (n : Nat) (installed : Nat → Bool) (schedule : List Choice) (σ : System) :
    (run n installed schedule σ).system = σ.run n installed schedule := by
  unfold run System.run
  generalize hd : ({ system := σ } : Drain) = d
  obtain rfl : d.system = σ := hd ▸ rfl
  clear hd
  induction schedule generalizing d with
  | nil => rfl
  | cons c schedule ih => exact ih (d.step n installed c)

end Drain

/-! ## The counts in the queues -/

namespace System

variable {n : Nat} {installed : Nat → Bool} {ρ σ τ : System} {i : Nat}

/-- Worker `j` is to count its sessions for query `m`. -/
def Counting (σ : System) (j m : Nat) : Prop := .count m ∈ (σ.workers j).queue

/-- The main thread and its query are as they were, and nobody has been asked. -/
structure Still (σ τ : System) : Prop where
  main : τ.main = σ.main
  asked : τ.asked = σ.asked
  answer : τ.answer = σ.answer
  counting : ∀ j m, τ.Counting j m → σ.Counting j m

namespace Still

theorem refl (σ : System) : Still σ σ := ⟨rfl, rfl, rfl, fun _ _ h => h⟩

theorem trans (h : Still ρ σ) (h' : Still σ τ) : Still ρ τ :=
  ⟨h'.main.trans h.main, h'.asked.trans h.asked, h'.answer.trans h.answer,
    fun j m hτ => h.counting j m (h'.counting j m hτ)⟩

theorem modify {f : Worker → Worker} (hf : ∀ t ∈ (f (σ.workers i)).queue, t ∈ (σ.workers i).queue) :
    Still σ (σ.modify i f) := by
  refine ⟨rfl, rfl, rfl, fun j m h => ?_⟩
  unfold Counting at h ⊢
  by_cases hj : j = i
  · subst hj
    rw [workers_modify_self] at h
    exact hf _ h
  · rwa [workers_modify_of_ne σ hj] at h

theorem setThread (σ : System) (i : Nat) (thread : Thread) : Still σ (σ.setThread i thread) :=
  modify fun _ h => h

end Still

theorem counting_push {j m : Nat} {t : Task} (h : (σ.push i t).Counting j m) :
    σ.Counting j m ∨ j = i ∧ t = .count m := by
  unfold Counting push at h
  by_cases hj : j = i
  · subst hj
    rw [workers_modify_self] at h
    rcases List.mem_append.mp h with hold | hnew
    · exact .inl hold
    · exact .inr ⟨rfl, (List.mem_singleton.mp hnew).symm⟩
  · rw [workers_modify_of_ne σ hj] at h
    exact .inl h

theorem Still.push (σ : System) (i : Nat) {t : Task} (ht : ∀ m, t ≠ .count m) :
    Still σ (σ.push i t) :=
  ⟨rfl, rfl, rfl, fun _ m h => (counting_push h).resolve_right fun hnew => ht m hnew.2⟩

theorem Still.postToWorker (σ : System) (i : Nat) {t : Task} (ht : ∀ m, t ≠ .count m) :
    Still σ (σ.postToWorker i t) := by
  have hnoted : Still σ { σ with posts := σ.posts ++ [(i, (σ.workers i).alive)] } :=
    ⟨rfl, rfl, rfl, fun _ _ h => h⟩
  unfold System.postToWorker
  dsimp only
  split
  · exact hnoted.trans (.push _ i ht)
  · exact hnoted

/-- Worker `i` runs the count of the current query. -/
structure Answers (i : Nat) (σ τ : System) : Prop where
  asks : σ.Counting i σ.asked
  main : τ.main = σ.main
  asked : τ.asked = σ.asked
  answer : τ.answer = some (σ.workers i).sessions
  counting : ∀ j m, τ.Counting j m → σ.Counting j m

theorem exec_still {last : Bool} {sessions : Nat} {t : Task} (ht : t ≠ .count σ.asked) :
    Still σ (exec installed i last sessions σ t) := by
  cases t with
  | work =>
    dsimp only [exec]
    exact .modify fun _ h => h
  | count asked =>
    have hne : asked ≠ σ.asked := fun heq => ht (heq ▸ rfl)
    dsimp only [exec]
    rw [if_neg hne]
    exact .refl σ
  | serverStop => exact .setThread σ i _
  | controllerStop k =>
    dsimp only [exec]
    split
    · exact ⟨rfl, rfl, rfl, fun _ _ h => h⟩
    · exact .refl σ

/-- A worker answers the current query, or does nothing that matters here. -/
theorem stepWorker_cases (n : Nat) (installed : Nat → Bool) (σ : System) (i sessions : Nat) :
    Still σ (σ.stepWorker n installed i sessions) ∨
      Answers i σ (σ.stepWorker n installed i sessions) := by
  unfold stepWorker
  split
  next hthread =>
    refine .inl ?_
    split
    · exact .setThread σ i _
    · exact .modify fun _ h => h
  next last hthread =>
    split
    next hempty => exact .inl (.setThread σ i _)
    next t queue hqueue =>
      have htake : Still σ (σ.modify i fun w => { w with queue }) :=
        .modify fun _ h => hqueue ▸ List.mem_cons_of_mem t h
      by_cases ht : t = .count σ.asked
      · subst ht
        have hexec : exec installed i last sessions (σ.modify i fun w => { w with queue })
            (.count σ.asked) = { σ.modify i fun w => { w with queue } with
              answer := some (σ.workers i).sessions } := by
          dsimp only [exec]
          rw [if_pos htake.asked.symm, workers_modify_self]
        rw [hexec]
        refine .inr ⟨?_, rfl, rfl, rfl, htake.counting⟩
        rw [Counting, hqueue]
        exact List.mem_cons_self
      · exact .inl (htake.trans (exec_still (htake.asked.symm ▸ ht)))
  next last j hthread =>
    refine .inl ?_
    split
    · exact (Still.postToWorker σ j fun _ => by rintro ⟨⟩).trans (.setThread _ i _)
    · have hpromise : Still σ { σ with promise := true } := ⟨rfl, rfl, rfl, fun _ _ h => h⟩
      exact hpromise.trans (.setThread _ i _)
  next hthread => exact .inl (.modify fun _ h => h)
  next hthread => exact .inl (.refl σ)

/-- The counts in the queues belong to queries made, and the current one is with the worker
that is waited for. -/
structure Queried (σ : System) : Prop where
  bounded : ∀ j m, σ.Counting j m → m ≤ σ.asked
  asked : ∀ i r, σ.main = .await i r → ∀ j, σ.Counting j σ.asked → j = i

namespace Queried

theorem of_same (h : σ.Queried) (hmain : τ.main = σ.main) (hasked : τ.asked = σ.asked)
    (hcounting : ∀ j m, τ.Counting j m → σ.Counting j m) : τ.Queried where
  bounded j m hτ := hasked ▸ h.bounded j m (hcounting j m hτ)
  asked i r hτ j hj := h.asked i r (hmain ▸ hτ) j (hasked ▸ hcounting j _ hj)

/-- The main thread goes on to where it waits for nobody. -/
theorem goto (h : σ.Queried) (hstill : Still σ τ) {main : Main}
    (hmain : ∀ i r, main ≠ .await i r) : (τ.goto main).Queried where
  bounded j m hτ := hstill.asked ▸ h.bounded j m (hstill.counting j m hτ)
  asked i r hτ := absurd hτ (hmain i r)

/-- The main thread makes the next query. -/
theorem query (h : σ.Queried) (i r : Nat) :
    (({ σ with asked := σ.asked + 1, answer := none }.push i (.count (σ.asked + 1))).goto
      (.await i r)).Queried where
  bounded j m hτ := by
    rcases counting_push hτ with hold | ⟨-, hnew⟩
    · exact Nat.le_succ_of_le (h.bounded j m hold)
    · cases hnew
      exact Nat.le_refl _
  asked := by
    rintro _ _ ⟨⟩ j hτ
    rcases counting_push hτ with hold | ⟨hj, -⟩
    · exact absurd (h.bounded j _ hold) (Nat.not_succ_le_self _)
    · exact hj

end Queried

end System

/-! ## Rounds -/

/-- The sum over the workers that have answered. -/
def onTime : List Count → Nat
  | [] => 0
  | q :: round => (if q.late then 0 else q.sessions) + onTime round

theorem onTime_concat (round : List Count) (q : Count) :
    onTime (round ++ [q]) = onTime round + if q.late then 0 else q.sessions := by
  induction round with
  | nil => exact Nat.add_comm _ _
  | cons q' round ih =>
    rw [List.cons_append, onTime, onTime, ih, Nat.add_assoc]

theorem onTime_eq_zero {round : List Count} :
    onTime round = 0 ↔ ∀ q ∈ round, q.late = false → q.sessions = 0 := by
  induction round with
  | nil => simp [onTime]
  | cons q round ih =>
    rw [onTime, Nat.add_eq_zero_iff, ih, List.forall_mem_cons]
    cases hlate : q.late with
    | true => simp
    | false => simp

/-- Between the first query of a round and the look at the sum. -/
def Main.isCounting : Main → Bool
  | .query _ _ | .await _ _ | .poll _ => true
  | _ => false

theorem isCounting_firstStop (n : Nat) : (System.firstStop n).isCounting = false := by
  unfold System.firstStop
  split
  · rfl
  · rfl

theorem isCounting_nextStop (n i : Nat) : (System.nextStop n i).isCounting = false := by
  unfold System.nextStop
  split
  · rfl
  · split
    · rfl
    · rfl

namespace Drain

variable {n : Nat} {installed : Nat → Bool} {d : Drain}

/-- The record of the round is as the main thread has it. -/
def Placed (n : Nat) (d : Drain) : Prop :=
  match d.system.main with
  | .query i remaining => i ≤ n ∧ d.round.length = i ∧ remaining = onTime d.round
  | .await i remaining =>
    i < n ∧ d.round.length = i ∧ remaining = onTime d.round ∧
      ∀ count, d.system.answer = some count → d.counted i = count
  | .poll remaining => d.round.length = n ∧ remaining = onTime d.round
  | _ => d.round = []

theorem placed_of_not_isCounting (h : d.system.main.isCounting = false) :
    d.Placed n ↔ d.round = [] := by
  unfold Placed
  generalize d.system.main = m at h
  cases m with
  | query | await | poll => cases h
  | stopAccepting | closeAll | stop | join | postStop | waitStop | done => exact Iff.rfl

structure Inv (n : Nat) (d : Drain) : Prop where
  queried : d.system.Queried
  placed : d.Placed n
  length : ∀ round ∈ d.rounds, round.length = n
  /-- The loop is left after the rounds that add up to nothing. -/
  skipped : ∀ round, round ∈ d.skipped ↔ round ∈ d.rounds ∧ onTime round = 0

/-- Nothing is noted before a worker is waited for. -/
theorem noteMain_eq_self (h : d.system.main.isCounting = false ∨ ∃ i r, d.system.main = .query i r)
    (m : Main) : d.noteMain m = d := by
  unfold noteMain
  generalize d.system.main = m' at h
  cases m' with
  | await | poll =>
    rcases h with h | ⟨_, _, h⟩
    · cases h
    · cases h
  | stopAccepting | query | closeAll | stop | join | postStop | waitStop | done => exact ite_self d

section

variable (h : d.Inv n)
include h

theorem Inv.past {τ : System} {m : Main} (hstill : System.Still d.system τ)
    (hd : d.system.main.isCounting = false) (hm : m.isCounting = false) :
    Inv n { d.noteMain m with system := τ.goto m } := by
  rw [noteMain_eq_self (.inl hd)]
  refine ⟨h.queried.goto hstill ?_, ?_, h.length, h.skipped⟩
  · rintro i r rfl
    cases hm
  · exact (placed_of_not_isCounting hm).mpr ((placed_of_not_isCounting hd).mp h.placed)

/-- Where the main thread waits nothing happens. -/
theorem Inv.stays : Inv n { d.noteMain d.system.main with system := d.system } := by
  rw [noteMain, if_pos rfl]
  exact h

/-- The sum of a round is looked at, and the main thread goes on as it says. -/
theorem Inv.looked {remaining : Nat} (hmain : d.system.main = .poll remaining) {m : Main}
    (hm : m = .query 0 0 ∨ m.isCounting = false) (hleft : m.isEarly = true ↔ remaining ≠ 0) :
    Inv n { d.noteMain m with system := d.system.goto m } := by
  have hplaced := h.placed
  unfold Placed at hplaced
  rw [hmain] at hplaced
  obtain ⟨hlength, hsum⟩ := hplaced
  have hmoved : m ≠ d.system.main := by
    rw [hmain]
    rintro rfl
    rcases hm with hm | hm
    · cases hm
    · cases hm
  unfold noteMain
  rw [if_neg hmoved, hmain]
  refine ⟨h.queried.goto (.refl _) ?_, ?_, ?_, fun round => ?_⟩
  · rintro i r rfl
    rcases hm with hm | hm
    · cases hm
    · cases hm
  · rcases hm with rfl | hm
    · exact ⟨Nat.zero_le n, rfl, rfl⟩
    · exact (placed_of_not_isCounting hm).mpr rfl
  · intro round hround
    rcases List.mem_append.mp hround with hold | hnew
    · exact h.length round hold
    · rw [List.mem_singleton.mp hnew]
      exact hlength
  · dsimp only
    rw [List.mem_append, List.mem_singleton]
    split
    next hearly =>
      rw [h.skipped, or_and_right, or_iff_left]
      rintro ⟨rfl, hzero⟩
      exact hleft.mp hearly (hsum.trans hzero)
    next hgone =>
      have hzero : onTime d.round = 0 := hsum.symm.trans (not_not.mp (mt hleft.mpr hgone))
      rw [List.mem_append, List.mem_singleton, h.skipped, or_and_right]
      refine or_congr_right ⟨fun heq => ⟨heq, heq ▸ hzero⟩, And.left⟩

/-- What became of the worker that was asked is noted. -/
theorem Inv.noted {i remaining count : Nat} (hmain : d.system.main = .await i remaining)
    (hcount : d.system.answer.getD 0 = count) :
    Inv n { d.noteMain (.query (i + 1) (remaining + count)) with
      system := d.system.goto (.query (i + 1) (remaining + count)) } := by
  have hplaced := h.placed
  unfold Placed at hplaced
  rw [hmain] at hplaced
  obtain ⟨hi, hlength, hsum, hcounted⟩ := hplaced
  unfold noteMain
  rw [if_neg (by rw [hmain]; rintro ⟨⟩), hmain]
  refine ⟨h.queried.goto (.refl _) nofun, ⟨hi, ?_, ?_⟩, h.length, h.skipped⟩
  · exact List.length_append.trans (congrArg (· + 1) hlength)
  · refine Eq.trans ?_ (onTime_concat _ _).symm
    rw [← hsum, ← hcount]
    cases hanswer : d.system.answer with
    | none => rfl
    | some count => exact congrArg (remaining + ·) (hcounted count hanswer).symm

theorem Inv.stepMain (late : Bool) :
    Inv n { d.noteMain (d.system.stepMain n late).main with
      system := d.system.stepMain n late } := by
  have hplaced := h.placed
  have hwork : ∀ i, System.Still d.system (d.system.push i .work) := fun i =>
    .push _ i nofun
  unfold Placed at hplaced
  unfold System.stepMain
  cases hm : d.system.main with
  | stopAccepting i =>
    dsimp only
    split
    · exact h.past (hwork i) (by rw [hm]; rfl) rfl
    · rw [noteMain_eq_self (.inl (by rw [hm]; rfl))]
      rw [hm] at hplaced
      refine ⟨h.queried.goto (.refl _) nofun, ?_, h.length, h.skipped⟩
      exact ⟨Nat.zero_le n, by rw [hplaced]; rfl, by rw [hplaced]; rfl⟩
  | query i remaining =>
    rw [hm] at hplaced
    obtain ⟨hle, hlength, hsum⟩ := hplaced
    rw [noteMain_eq_self (.inr ⟨i, remaining, hm⟩)]
    dsimp only
    split
    next hi =>
      exact ⟨h.queried.query i remaining, ⟨hi, hlength, hsum, nofun⟩, h.length,
        h.skipped⟩
    next hi =>
      refine ⟨h.queried.goto (.refl _) nofun, ⟨?_, hsum⟩, h.length, h.skipped⟩
      exact hlength.trans (Nat.le_antisymm hle (Nat.le_of_not_lt hi))
  | await i remaining =>
    dsimp only
    cases hanswer : d.system.answer with
    | some count => exact h.noted hm (by rw [hanswer]; rfl)
    | none =>
      cases late with
      | true => exact h.noted hm (by rw [hanswer])
      | false => exact h.stays
  | poll remaining =>
    dsimp only
    split
    next hzero =>
      refine h.looked hm (.inr (isCounting_firstStop n)) (iff_of_false ?_ (not_not.mpr hzero))
      rw [System.firstStop]
      split <;> exact Bool.false_ne_true
    next hsome =>
      split
      · exact h.looked hm (.inr rfl) (iff_of_true rfl hsome)
      · exact h.looked hm (.inl rfl) (iff_of_true rfl hsome)
  | closeAll i =>
    dsimp only
    split
    · exact h.past (hwork i) (by rw [hm]; rfl) rfl
    · exact h.past (.refl _) (by rw [hm]; rfl) (isCounting_firstStop n)
  | stop i => exact h.past (.modify fun _ hmem => hmem) (by rw [hm]; rfl) rfl
  | join i =>
    dsimp only
    split
    · exact h.past (.modify fun _ hmem => hmem) (by rw [hm]; rfl) (isCounting_nextStop n i)
    · exact h.stays
  | postStop => exact h.past (.push _ 0 nofun) (by rw [hm]; rfl) rfl
  | waitStop =>
    dsimp only
    split
    · exact h.past (.refl _) (by rw [hm]; rfl) rfl
    · exact h.stays
  | done => exact h.stays

/-- The main thread is where it was, and what it waits for has been noted. -/
theorem Inv.of_same {d' : Drain} (hqueried : d'.system.Queried)
    (hmain : d'.system.main = d.system.main) (hround : d'.round = d.round)
    (hrounds : d'.rounds = d.rounds) (hskipped : d'.skipped = d.skipped)
    (hcounted : ∀ i remaining, d.system.main = .await i remaining →
      ∀ count, d'.system.answer = some count → d'.counted i = count) : d'.Inv n := by
  refine ⟨hqueried, ?_, hrounds ▸ h.length, fun round => hskipped ▸ hrounds ▸ h.skipped round⟩
  have hplaced := h.placed
  unfold Placed at hplaced ⊢
  rw [hmain, hround]
  cases hm : d.system.main with
  | await i remaining =>
    rw [hm] at hplaced
    exact ⟨hplaced.1, hplaced.2.1, hplaced.2.2.1, hcounted i remaining hm⟩
  | query | poll | stopAccepting | closeAll | stop | join | postStop | waitStop | done =>
    rw [hm] at hplaced
    exact hplaced

theorem Inv.counted {i remaining : Nat} (hm : d.system.main = .await i remaining) {count : Nat}
    (hanswer : d.system.answer = some count) : d.counted i = count := by
  have hplaced := h.placed
  unfold Placed at hplaced
  rw [hm] at hplaced
  exact hplaced.2.2.2 count hanswer

theorem Inv.of_still {τ : System} (hstill : System.Still d.system τ) :
    Inv n { d with system := τ } := by
  have hqueried := h.queried.of_same hstill.main hstill.asked hstill.counting
  refine h.of_same hqueried hstill.main rfl rfl rfl fun i remaining hm count hanswer => ?_
  exact h.counted hm (hstill.answer.symm.trans hanswer)

theorem Inv.stepWorker (i sessions : Nat) :
    Inv n { d.noteWorker i (d.system.stepWorker n installed i sessions).answer with
      system := d.system.stepWorker n installed i sessions } := by
  rcases d.system.stepWorker_cases n installed i sessions with hstill | hanswers
  · rw [noteWorker, if_pos hstill.answer]
    exact h.of_still hstill
  · generalize d.system.stepWorker n installed i sessions = τ at hanswers
    have hqueried := h.queried.of_same hanswers.main hanswers.asked hanswers.counting
    unfold noteWorker
    split
    next hsame =>
      refine h.of_same hqueried hanswers.main rfl rfl rfl fun k remaining hm count hanswer => ?_
      exact h.counted hm (hsame.symm.trans hanswer)
    next =>
      refine h.of_same hqueried hanswers.main rfl rfl rfl fun k remaining hm count hanswer => ?_
      -- only the worker that is waited for can have the current count in its queue
      obtain rfl := h.queried.asked k remaining hm i hanswers.asks
      have hcount := hanswers.answer.symm.trans hanswer
      exact (if_pos rfl).trans (Option.some.inj hcount)

theorem Inv.step (c : Choice) : (d.step n installed c).Inv n := by
  unfold Drain.step note System.step
  cases c with
  | main late => exact h.stepMain late
  | worker i sessions =>
    dsimp only
    split
    · exact h.stepWorker i sessions
    · rw [noteWorker, if_pos rfl]
      exact h
  | post i =>
    dsimp only
    split
    · exact h.of_still (.push d.system i nofun)
    · exact h

end

theorem inv_run (installed : Nat → Bool) {σ : System} (hσ : σ.Started n) (schedule : List Choice) :
    (run n installed schedule σ).Inv n := by
  refine foldl_invariant (fun d c h => h.step c) _ ⟨⟨fun j m hcounting => ?_, ?_⟩, ?_, ?_, ?_⟩
    schedule
  · cases hσ.queue j _ hcounting
  · rw [hσ.main]
    rintro i r ⟨⟩
  · exact (placed_of_not_isCounting (by rw [hσ.main]; rfl)).mpr rfl
  · exact fun _ hround => absurd hround List.not_mem_nil
  · exact fun _ => iff_of_false List.not_mem_nil fun h => List.not_mem_nil h.1

/-- **A slow worker is not drained.**  In every run of the shutdown each round asks all workers.
Phase 2 is left without `requestCloseAllSessions` only after rounds in which all of them really had
no sessions when they were counted, if and only if there is no round in which a worker that was late
had some and those that were on time had none. -/
theorem drained_iff (n : Nat) (installed : Nat → Bool) {σ : System} (hσ : σ.Started n)
    (schedule : List Choice) :
    let d := run n installed schedule σ
    (∀ round ∈ d.rounds, round.length = n) ∧ (∀ round ∈ d.skipped, round ∈ d.rounds) ∧
    ((∀ round ∈ d.skipped, ∀ q ∈ round, q.sessions = 0) ↔
      ∀ round ∈ d.rounds, (∀ q ∈ round, q.late = false → q.sessions = 0) →
        ∀ q ∈ round, q.late = true → q.sessions = 0) := by
  intro d
  have hinv : d.Inv n := inv_run installed hσ schedule
  refine ⟨hinv.length, fun round hround => ((hinv.skipped round).mp hround).1, ?_, ?_⟩
  · intro h round hround hnone q hq _
    exact h round ((hinv.skipped round).mpr ⟨hround, onTime_eq_zero.mpr hnone⟩) q hq
  · intro h round hskipped q hq
    obtain ⟨hround, hsum⟩ := (hinv.skipped round).mp hskipped
    have hnone := onTime_eq_zero.mp hsum
    cases hlate : q.late with
    | true => exact h round hround hnone q hq hlate
    | false => exact hnone q hq hlate

/-- One worker with a session … -/
def busy : System := { workers := fun _ => { sessions := 1 } }

theorem started_busy : busy.Started 1 where
  main := rfl
  promise := rfl
  posts := rfl
  stopped := rfl
  running _ _ := rfl
  alive _ _ := rfl
  thread _ := List.mem_cons_self
  queue _ _ h := absurd h List.not_mem_nil

/-- … that does not answer within 200 ms. -/
def slow : List Choice :=
  [.main false, .main false, .main false, .main true, .main false, .main false]

/-- … or does, and ends its session before it is asked again. -/
def prompt : List Choice :=
  [.main false, .main false, .main false, .worker 0 1, .worker 0 1, .worker 0 1, .worker 0 1,
    .worker 0 0, .main false, .main false, .main false, .main false, .worker 0 0, .main false,
    .main false, .main false]

theorem drained_iff_busy :
    let d := run 1 (fun _ => true) prompt busy
    d.rounds = [[⟨1, false⟩], [⟨0, false⟩]] ∧ d.skipped = [[⟨0, false⟩]] ∧
      ∀ round ∈ d.skipped, ∀ q ∈ round, q.sessions = 0 :=
  ⟨by decide, by decide, (drained_iff 1 (fun _ => true) started_busy prompt).2.2.mpr (by decide)⟩

/-- The loop is left at once, and the session is there. -/
theorem late_count_skips_close :
    busy.Started 1 ∧ (run 1 (fun _ => true) slow busy).skipped = [[⟨1, true⟩]] ∧
    (run 1 (fun _ => true) slow busy).system.main = .postStop ∧
    ((run 1 (fun _ => true) slow busy).system.workers 0).sessions = 1 :=
  ⟨started_busy, rfl, rfl, rfl⟩

end Drain

end HyperNet.Core
