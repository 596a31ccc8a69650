import HyperNet.Lib.Reentrant
import Mathlib.Algebra.Order.BigOperators.Group.Finset
import Mathlib.Tactic.Common

/-!
# Stop requests

`Engine::run` (`engine/src/hypernet/Engine.cpp`) makes its thread known, blocks the signals it
will wait for, resets the flags of the engine, starts everything and waits in `sigwait`.
`Engine::stop`, from any other thread, clears `running_` unless somebody has done so, and sends
the main thread `kWakeSignal`.  The main thread goes back to sleep if it is woken with
`running_` still set.

An `Engine` is the flags, the pending signals and where each thread is; every step is one
access to a flag or one call of the system, and a run is any sequence of `Choice`s.  Calls of
`stop` begin once the main thread is known and has blocked the signals.  The other signals come
from outside at any time; before they are blocked they end the process.  `run` may have been
called before: it begins with whatever the flags and the signal mask were left at.

A main thread that waits with nothing pending has been left there if no call of `stop` is on
its way to clear `running_` (`LeftWaiting`).  `resetForRun_` comes after the thread is made
known, so it may undo a request, and then even keep later calls from making another one:
`left_waiting_iff` says from which states this can still happen.
-/

namespace HyperNet.Core

open Reentrant

/-! ## State -/

namespace Engine

inductive StopSource where
  | none
  | api
  | signal
deriving DecidableEq, Repr

inductive EngineState where
  | stopped
  | running
  | stopping
deriving DecidableEq, Repr

/-- The signals of `waitSigset_`; `wake` is `kWakeSignal`. -/
inductive Signal where
  | int
  | term
  | quit
  | wake
deriving DecidableEq, Repr

/-- The numbers of the signals. -/
def Signal.number : Signal → Nat
  | .int => 2
  | .quit => 3
  | .wake => 10
  | .term => 15

/-- Where a thread is in `requestStop_`. -/
inductive Request where
  | exchange
  | storeSignal
  | storeState
  | clearRunning
deriving DecidableEq, Repr

/-- Where a call of `stop` is. -/
inductive Call where
  | idle
  | request (r : Request)
  /-- Before `mainTidReady_` is looked at. -/
  | load
  | kill
  | returned
deriving DecidableEq, Repr

/-- Where the main thread is in `run`. -/
inductive Main where
  | publish
  | block
  | resetSource
  | resetSignal
  | resetState
  | resetRunning
  | startUp
  /-- The first test of `waitForStop_`. -/
  | check
  | wait
  /-- After a `kWakeSignal`. -/
  | woken
  /-- After another signal. -/
  | request (s : Signal) (r : Request)
  /-- In the handler of an exception. -/
  | abort
  | shutDown
  | retire
  | returned
  /-- A signal has ended the process. -/
  | killed
deriving DecidableEq, Repr

/-- Who moves. -/
inductive Choice where
  | main
  /-- The start-up throws. -/
  | throw
  /-- `sigwait` returns a signal. -/
  | take (s : Signal)
  /-- A signal from outside. -/
  | raise (s : Signal)
  /-- A call of `stop` begins or goes on. -/
  | stop (k : Nat)
deriving DecidableEq, Repr

end Engine

structure Engine where
  main : Engine.Main := .publish
  running : Bool := false
  state : Engine.EngineState := .stopped
  stopSource : Engine.StopSource := .none
  stopSignal : Nat := 0
  mainTidReady : Bool := false
  /-- The signals of `waitSigset_` are blocked. -/
  blocked : Bool := false
  pending : Engine.Signal → Bool := fun _ => false
  stops : Nat → Engine.Call := fun _ => .idle

namespace Engine

/-! ## The threads -/

def goto (σ : Engine) (main : Main) : Engine := { σ with main }

def setStop (σ : Engine) (k : Nat) (c : Call) : Engine :=
  { σ with stops := fun j => if j = k then c else σ.stops j }

def setPending (σ : Engine) (s : Signal) (b : Bool) : Engine :=
  { σ with pending := fun s' => if s' = s then b else σ.pending s' }

/-- A step of `requestStop_`, and where it goes on. -/
def requestStop (σ : Engine) (src : StopSource) (signo : Nat) : Request → Engine × Option Request
  | .exchange =>
    if σ.stopSource = .none then ({ σ with stopSource := src }, some .storeSignal) else (σ, none)
  | .storeSignal => ({ σ with stopSignal := signo }, some .storeState)
  | .storeState => ({ σ with state := .stopping }, some .clearRunning)
  | .clearRunning => ({ σ with running := false }, none)

/-- A step of the `k`-th call of `stop`. -/
def stepStop (σ : Engine) (k : Nat) : Engine :=
  match σ.stops k with
  | .idle => if σ.main ≠ .publish ∧ σ.blocked = true then σ.setStop k (.request .exchange) else σ
  | .request r =>
    match σ.requestStop .api 0 r with
    | (σ, some r) => σ.setStop k (.request r)
    | (σ, none) => σ.setStop k .load
  | .load => σ.setStop k (if σ.mainTidReady = true then .kill else .returned)
  | .kill => (σ.setPending .wake true).setStop k .returned
  | .returned => σ

/-- A step of `run`; in `sigwait` the thread does nothing by itself. -/
def stepMain (σ : Engine) : Engine :=
  match σ.main with
  | .publish => { σ with mainTidReady := true }.goto .block
  | .block => { σ with blocked := true }.goto .resetSource
  | .resetSource => { σ with stopSource := .none }.goto .resetSignal
  | .resetSignal => { σ with stopSignal := 0 }.goto .resetState
  | .resetState => { σ with state := .running }.goto .resetRunning
  | .resetRunning => { σ with running := true }.goto .startUp
  | .startUp => σ.goto .check
  | .check | .woken => σ.goto (if σ.running = true then .wait else .shutDown)
  | .wait => σ
  | .request s r =>
    match σ.requestStop .signal s.number r with
    | (σ, some r) => σ.goto (.request s r)
    | (σ, none) => σ.goto .shutDown
  | .abort => { σ with running := false }.goto .shutDown
  | .shutDown => { σ with state := .stopped }.goto .retire
  | .retire => { σ with mainTidReady := false }.goto .returned
  | .returned | .killed => σ

def step (σ : Engine) : Choice → Engine
  | .main => σ.stepMain
  | .throw => if σ.main = .startUp then σ.goto .abort else σ
  | .take s =>
    if σ.main = .wait ∧ σ.pending s = true then
      (σ.setPending s false).goto (if s = .wake then .woken else .request s .exchange)
    else σ
  | .raise s => if σ.blocked = true then σ.setPending s true else σ.goto .killed
  | .stop k => σ.stepStop k

/-- A call of `run` on an engine in any state, with no call of `stop` yet. -/
def run (σ : Engine) (schedule : List Choice) : Engine :=
  schedule.foldl step { σ with main := .publish, stops := fun _ => .idle }

/-! ## Requests that are lost -/

/-- A call of `stop` that will clear `running_`. -/
def Call.due (source : StopSource) : Call → Prop
  | .request .exchange => source = .none
  | .request _ => True
  | _ => False

def Due (σ : Engine) : Prop := ∃ k, (σ.stops k).due σ.stopSource

/-- A call of `stop` has returned, and the main thread waits with `running_` set and no signal
pending, and nobody is going to change that. -/
structure LeftWaiting (σ : Engine) : Prop where
  main : σ.main = .wait
  running : σ.running = true
  pending : ∀ s, σ.pending s = false
  returned : ∃ k, σ.stops k = .returned
  alone : ¬ σ.Due

/-- Before the end of `resetForRun_`. -/
def Main.isEarly : Main → Bool
  | .publish | .block | .resetSource | .resetSignal | .resetState | .resetRunning => true
  | _ => false

/-- From there to the wait. -/
def Main.isBound : Main → Bool
  | .startUp | .check | .wait | .woken => true
  | _ => false

/-- No call of `stop` has begun, and the first one will be heard. -/
structure Fresh (σ : Engine) : Prop where
  stopSource : σ.stopSource = .none
  stops : ∀ k, σ.stops k = .idle

/-- A request to stop can be lost, or has been: `resetForRun_` is still to come, or `running_`
is set and neither has nobody asked yet nor is the request under way. -/
structure Lossy (σ : Engine) : Prop where
  quiet : ∀ s, s ≠ .wake → σ.pending s = false
  lost : σ.main.isEarly = true ∨
    σ.main.isBound = true ∧ σ.running = true ∧ ¬ σ.Fresh ∧ ¬ σ.Due

variable {σ : Engine}

theorem Main.isEarly_of_isBound {m : Main} (h : m.isBound = true) : m.isEarly = false := by
  cases m with
  | startUp | check | wait | woken => rfl
  | publish | block | resetSource | resetSignal | resetState | resetRunning | request | abort
  | shutDown | retire | returned | killed => cases h

theorem Lossy.of_isBound (h : σ.Lossy) (hbound : σ.main.isBound = true) :
    σ.running = true ∧ ¬ σ.Fresh ∧ ¬ σ.Due := by
  rcases h.lost with hearly | ⟨-, hlost⟩
  · exact absurd ((Main.isEarly_of_isBound hbound).symm.trans hearly) Bool.false_ne_true
  · exact hlost

theorem not_fresh_of_returned (h : ∃ k, σ.stops k = .returned) : ¬ σ.Fresh := by
  intro hfresh
  obtain ⟨k, hk⟩ := h
  exact absurd ((hfresh.stops k).symm.trans hk) nofun

theorem not_due_of_settled (h : ∀ k, σ.stops k = .idle ∨ σ.stops k = .returned) : ¬ σ.Due := by
  rintro ⟨k, hk⟩
  rcases h k with hidle | hreturned
  · rw [hidle] at hk
    exact hk
  · rw [hreturned] at hk
    exact hk

theorem LeftWaiting.lossy (h : σ.LeftWaiting) : σ.Lossy where
  quiet s _ := h.pending s
  lost := .inr ⟨(congrArg Main.isBound h.main :), h.running, not_fresh_of_returned h.returned,
    h.alone⟩

/-! ## What the calls of `stop` do -/

@[simp] theorem stops_setStop_self (σ : Engine) (k : Nat) (c : Call) :
    (σ.setStop k c).stops k = c := if_pos rfl

theorem stops_setStop_ne (σ : Engine) {j k : Nat} (h : j ≠ k) (c : Call) :
    (σ.setStop k c).stops j = σ.stops j := if_neg h

/-- The steps of a call of `stop`. -/
inductive Moves (σ : Engine) (k : Nat) : Engine → Prop
  | stay (h : σ.stops k = .idle ∨ σ.stops k = .returned) : Moves σ k σ
  | start (h : σ.stops k = .idle) : Moves σ k (σ.setStop k (.request .exchange))
  | win (h : σ.stops k = .request .exchange) (hs : σ.stopSource = .none) :
      Moves σ k ({ σ with stopSource := .api }.setStop k (.request .storeSignal))
  | fail (h : σ.stops k = .request .exchange) (hs : σ.stopSource ≠ .none) :
      Moves σ k (σ.setStop k .load)
  | storeSignal (h : σ.stops k = .request .storeSignal) :
      Moves σ k ({ σ with stopSignal := 0 }.setStop k (.request .storeState))
  | storeState (h : σ.stops k = .request .storeState) :
      Moves σ k ({ σ with state := .stopping }.setStop k (.request .clearRunning))
  | clearRunning (h : σ.stops k = .request .clearRunning) :
      Moves σ k ({ σ with running := false }.setStop k .load)
  | load (h : σ.stops k = .load) (c : Call) (hc : c = .kill ∨ c = .returned) :
      Moves σ k (σ.setStop k c)
  | kill (h : σ.stops k = .kill) : Moves σ k ((σ.setPending .wake true).setStop k .returned)

theorem stepStop_moves (σ : Engine) (k : Nat) : σ.Moves k (σ.stepStop k) := by
  unfold stepStop
  split
  next h =>
    split
    · exact .start h
    · exact .stay (.inl h)
  next r h =>
    cases r with
    | exchange =>
      by_cases hs : σ.stopSource = .none
      · rw [requestStop, if_pos hs]
        exact .win h hs
      · rw [requestStop, if_neg hs]
        exact .fail h hs
    | storeSignal => exact .storeSignal h
    | storeState => exact .storeState h
    | clearRunning => exact .clearRunning h
  next h =>
    refine .load h _ ?_
    split
    · exact .inl rfl
    · exact .inr rfl
  next h => exact .kill h
  next h => exact .stay (.inr h)

namespace Moves

variable {σ' : Engine} {k : Nat} (h : σ.Moves k σ')
include h

theorem main : σ'.main = σ.main := by
  cases h <;> rfl

theorem blocked : σ'.blocked = σ.blocked := by
  cases h <;> rfl

theorem pending {s : Signal} (hs : s ≠ .wake) : σ'.pending s = σ.pending s := by
  cases h
  case kill => exact if_neg hs
  all_goals rfl

theorem stops {j : Nat} (hj : j ≠ k) : σ'.stops j = σ.stops j := by
  cases h
  case stay => rfl
  all_goals exact if_neg hj

theorem running (hrunning : σ'.running = true) : σ.running = true := by
  cases h
  case clearRunning => cases hrunning
  all_goals exact hrunning

/-- A request under way stays so until it clears `running_`; when one of two wins the exchange
the other one has not. -/
theorem due (hdue : σ.Due) : σ'.Due ∨ σ'.running = false := by
  obtain ⟨j, hj⟩ := hdue
  have hmine : ∀ {τ : Engine} {r : Request}, r ≠ .exchange → (τ.setStop k (.request r)).Due := by
    intro τ r hr
    refine ⟨k, ?_⟩
    rw [stops_setStop_self]
    cases r
    case exchange => exact absurd rfl hr
    all_goals exact trivial
  by_cases hjk : j = k
  · subst hjk
    cases h with
    | stay h => rcases h with h | h <;> (rw [h] at hj; exact hj.elim)
    | start h => rw [h] at hj; exact hj.elim
    | win => exact .inl (hmine nofun)
    | fail h hs => rw [h] at hj; exact absurd hj hs
    | storeSignal | storeState => exact .inl (hmine nofun)
    | clearRunning => exact .inr rfl
    | load h | kill h => rw [h] at hj; exact hj.elim
  · have hstop := h.stops hjk
    cases h
    case win => exact .inl (hmine nofun)
    all_goals exact .inl ⟨j, hstop.symm ▸ hj⟩

/-- The first call of all is under way as soon as it begins. -/
theorem fresh (hfresh : σ.Fresh) : σ'.Fresh ∨ σ'.Due := by
  have hidle := hfresh.stops k
  cases h with
  | stay => exact .inl hfresh
  | start =>
    refine .inr ⟨k, ?_⟩
    rw [stops_setStop_self]
    exact hfresh.stopSource
  | win h | fail h | storeSignal h | storeState h | clearRunning h | load h | kill h =>
    exact absurd (hidle.symm.trans h) nofun

/-- A call that is not under way leaves the flags alone. -/
theorem not_due (hdue : ¬ σ.Due) (hbegun : σ.stops k ≠ .idle) :
    ¬ σ'.Due ∧ σ'.running = σ.running := by
  have hk : ¬ (σ.stops k).due σ.stopSource := fun hk => hdue ⟨k, hk⟩
  have hset : ∀ {τ : Engine} {c : Call}, τ.stops = σ.stops → τ.stopSource = σ.stopSource →
      ¬ c.due σ.stopSource → ¬ (τ.setStop k c).Due := by
    rintro τ c hstops hsource hc ⟨j, hj⟩
    rw [show (τ.setStop k c).stopSource = σ.stopSource from hsource] at hj
    by_cases hjk : j = k
    · subst hjk
      rw [stops_setStop_self] at hj
      exact hc hj
    · rw [stops_setStop_ne τ hjk, hstops] at hj
      exact hdue ⟨j, hj⟩
  cases h with
  | stay => exact ⟨hdue, rfl⟩
  | start h => exact absurd h hbegun
  | win h hs => rw [h] at hk; exact absurd hs hk
  | fail => exact ⟨hset rfl rfl id, rfl⟩
  | storeSignal h | storeState h | clearRunning h => rw [h] at hk; exact absurd trivial hk
  | load h c hc =>
    refine ⟨hset rfl rfl ?_, rfl⟩
    rcases hc with rfl | rfl
    · exact id
    · exact id
  | kill => exact ⟨hset rfl rfl id, rfl⟩

/-- No call is taken back. -/
theorem begun (hbegun : σ.stops k ≠ .idle) : σ'.stops k ≠ .idle := by
  cases h with
  | stay => exact hbegun
  | load h c hc =>
    rw [stops_setStop_self]
    rcases hc with rfl | rfl
    · rintro ⟨⟩
    · rintro ⟨⟩
  | start | win | fail | storeSignal | storeState | clearRunning | kill =>
    rw [stops_setStop_self]
    rintro ⟨⟩

end Moves

/-! ## What the main thread does -/

/-- How far the main thread has to go to the wait. -/
def Main.way : Main → Nat
  | .publish => 8
  | .block => 7
  | .resetSource => 6
  | .resetSignal => 5
  | .resetState => 4
  | .resetRunning => 3
  | .startUp => 2
  | .check | .woken => 1
  | _ => 0

theorem requestStop_same (σ : Engine) (src : StopSource) (signo : Nat) (r : Request) :
    (σ.requestStop src signo r).1.stops = σ.stops ∧
    (σ.requestStop src signo r).1.pending = σ.pending ∧
    (σ.requestStop src signo r).1.blocked = σ.blocked := by
  cases r with
  | exchange =>
    dsimp only [requestStop]
    split
    · exact ⟨rfl, rfl, rfl⟩
    · exact ⟨rfl, rfl, rfl⟩
  | storeSignal | storeState | clearRunning => exact ⟨rfl, rfl, rfl⟩

/-- The main thread leaves the calls of `stop` and the signals alone. -/
theorem stepMain_same (σ : Engine) :
    σ.stepMain.stops = σ.stops ∧ σ.stepMain.pending = σ.pending ∧
    (σ.blocked = true → σ.stepMain.blocked = true) := by
  unfold stepMain
  cases hm : σ.main with
  | request s r =>
    have hsame := σ.requestStop_same .signal s.number r
    dsimp only
    generalize σ.requestStop .signal s.number r = next at hsame
    obtain ⟨τ, _ | r⟩ := next
    · exact ⟨hsame.1, hsame.2.1, hsame.2.2.trans⟩
    · exact ⟨hsame.1, hsame.2.1, hsame.2.2.trans⟩
  | block => exact ⟨rfl, rfl, fun _ => rfl⟩
  | publish | resetSource | resetSignal | resetState | resetRunning | startUp | check | wait | woken
  | abort | shutDown | retire | returned | killed => exact ⟨rfl, rfl, id⟩

theorem stepMain_early (hearly : σ.main.isEarly = true) (hlast : σ.main ≠ .resetRunning) :
    σ.stepMain.main.isEarly = true ∧ σ.stepMain.main.way < σ.main.way := by
  unfold stepMain
  cases hm : σ.main with
  | publish | block | resetSource | resetSignal | resetState => exact ⟨rfl, Nat.lt_succ_self _⟩
  | resetRunning => exact absurd hm hlast
  | startUp | check | wait | woken | request | abort | shutDown | retire | returned | killed =>
    rw [hm] at hearly
    cases hearly

theorem stepMain_bound (hbound : σ.main.isBound = true) (hwait : σ.main ≠ .wait)
    (hrunning : σ.running = true) :
    σ.stepMain.main.isBound = true ∧ σ.stepMain.running = true ∧
      σ.stepMain.main.way < σ.main.way := by
  unfold stepMain
  cases hm : σ.main with
  | startUp => exact ⟨rfl, hrunning, Nat.lt_succ_self _⟩
  | check | woken =>
    dsimp only
    rw [if_pos hrunning]
    exact ⟨rfl, hrunning, Nat.lt_succ_self _⟩
  | wait => exact absurd hm hwait
  | publish | block | resetSource | resetSignal | resetState | resetRunning | request | abort
  | shutDown | retire | returned | killed =>
    rw [hm] at hbound
    cases hbound

/-! ## What is not lost stays so -/

theorem not_lossy (hearly : σ.main.isEarly = false) (hbound : σ.main.isBound = false) :
    ¬ σ.Lossy := by
  intro h
  rcases h.lost with hmain | ⟨hmain, -⟩
  · exact Bool.false_ne_true (hearly.symm.trans hmain)
  · exact Bool.false_ne_true (hbound.symm.trans hmain)

/-- On its way to the wait the main thread changes nothing. -/
theorem Lossy.of_goto {m : Main} (h : (σ.goto m).Lossy) (hm : m.isEarly = false)
    (hbound : σ.main.isBound = true) : σ.Lossy := by
  refine ⟨h.quiet, .inr ?_⟩
  rcases h.lost with hearly | ⟨-, hrunning, hfresh, hdue⟩
  · exact absurd (hm.symm.trans hearly) Bool.false_ne_true
  · exact ⟨hbound, hrunning, fun hf => hfresh ⟨hf.stopSource, hf.stops⟩, hdue⟩

theorem lossy_of_stepMain (h : σ.stepMain.Lossy) : σ.Lossy := by
  have hdone : ∀ {τ : Engine} {m : Main}, m.isEarly = false → m.isBound = false →
      (τ.goto m).Lossy → σ.Lossy := fun hearly hbound h => absurd h (not_lossy hearly hbound)
  revert h
  unfold stepMain
  cases hm : σ.main with
  | publish | block | resetSource | resetSignal | resetState | resetRunning =>
    exact fun h => ⟨h.quiet, .inl (hm ▸ rfl)⟩
  | startUp => exact fun h => h.of_goto rfl (hm ▸ rfl)
  | check | woken =>
    dsimp only
    split
    · exact fun h => h.of_goto rfl (hm ▸ rfl)
    · exact hdone rfl rfl
  | wait => exact id
  | request s r =>
    dsimp only
    generalize σ.requestStop .signal s.number r = next
    obtain ⟨τ, _ | r⟩ := next
    · exact hdone rfl rfl
    · exact hdone rfl rfl
  | abort | shutDown | retire => exact hdone rfl rfl
  | returned | killed => exact id

theorem lossy_of_stepStop {k : Nat} (h : (σ.stepStop k).Lossy) : σ.Lossy := by
  have hmoves := stepStop_moves σ k
  generalize σ.stepStop k = σ' at h hmoves
  refine ⟨fun s hs => (hmoves.pending hs).symm.trans (h.quiet s hs), ?_⟩
  have hlost := h.lost
  rw [hmoves.main] at hlost
  refine hlost.imp_right ?_
  rintro ⟨hbound, hrunning, hfresh, hdue⟩
  refine ⟨hbound, hmoves.running hrunning, fun hf => ?_, fun hd => ?_⟩
  · exact (hmoves.fresh hf).elim hfresh hdue
  · refine (hmoves.due hd).elim hdue fun hcleared => ?_
    exact Bool.false_ne_true (hcleared.symm.trans hrunning)

/-- A signal from outside would be heard. -/
theorem Lossy.of_setPending {s : Signal} {b : Bool} (h : (σ.setPending s b).Lossy)
    (hs : s = .wake ∨ b = true) : σ.Lossy := by
  refine ⟨fun s' hs' => ?_, h.lost.imp_right fun ⟨hbound, hrunning, hfresh, hdue⟩ =>
    ⟨hbound, hrunning, fun hf => hfresh ⟨hf.stopSource, hf.stops⟩, hdue⟩⟩
  have hquiet : (if s' = s then b else σ.pending s') = false := h.quiet s' hs'
  by_cases heq : s' = s
  · rw [if_pos heq] at hquiet
    exact hs.elim (fun hwake => absurd (heq.trans hwake) hs')
      fun htrue => absurd (hquiet.symm.trans htrue) Bool.false_ne_true
  · rwa [if_neg heq] at hquiet

/-- A step after which something can be lost is made from a state of which this is true. -/
theorem lossy_of_step (c : Choice) (h : (σ.step c).Lossy) : σ.Lossy := by
  cases c with
  | main => exact lossy_of_stepMain h
  | throw =>
    dsimp only [step] at h
    split at h
    · exact absurd h (not_lossy rfl rfl)
    · exact h
  | take s =>
    dsimp only [step] at h
    split at h
    next htake =>
      have hbound : (σ.setPending s false).main.isBound = true :=
        (congrArg Main.isBound htake.1 :)
      by_cases hs : s = .wake
      · rw [if_pos hs] at h
        exact (h.of_goto rfl hbound).of_setPending (.inl hs)
      · rw [if_neg hs] at h
        exact absurd h (not_lossy rfl rfl)
    · exact h
  | raise s =>
    dsimp only [step] at h
    split at h
    · exact h.of_setPending (.inr rfl)
    · exact absurd h (not_lossy rfl rfl)
  | stop k => exact lossy_of_stepStop h

/-! ## What can be lost is lost in some run -/

/-- Calls of `stop` from the `n`-th on have not begun, and the signals are blocked in time. -/
structure Ordered (n : Nat) (σ : Engine) : Prop where
  pos : 0 < n
  idle : ∀ k, n ≤ k → σ.stops k = .idle
  blocked : σ.main = .publish ∨ σ.main = .block ∨ σ.main = .killed ∨ σ.blocked = true

/-- How much a call of `stop` still has to do, and to have done by waking the main thread. -/
def Call.work : Call → Nat
  | .idle | .returned => 0
  | .kill => 4
  | .load => 5
  | .request .clearRunning => 6
  | .request .storeState => 7
  | .request .storeSignal => 8
  | .request .exchange => 9

/-- A wake-up has to be taken and looked at. -/
def wakeUps (σ : Engine) : Nat := if σ.pending .wake = true then 2 else 0

def distance (n : Nat) (σ : Engine) : Nat :=
  (if ∀ k < n, σ.stops k = .idle then 10 else 0) +
    (Finset.range n).sum (fun k => (σ.stops k).work) + σ.main.way + σ.wakeUps

theorem distance_of_begun {n k : Nat} (hk : k < n) (hbegun : σ.stops k ≠ .idle) :
    σ.distance n = (σ.stops k).work + ((Finset.range n).erase k).sum (fun j => (σ.stops j).work) +
      σ.main.way + σ.wakeUps := by
  unfold distance
  rw [if_neg fun hidle => hbegun (hidle k hk), Nat.zero_add,
    ← Finset.add_sum_erase (Finset.range n) _ (Finset.mem_range.mpr hk)]

theorem Ordered.blocked_of {n : Nat} (hσ : σ.Ordered n)
    (hmain : σ.main = .resetRunning ∨ σ.main.isBound = true) : σ.blocked = true := by
  have hblocked := hσ.blocked
  generalize σ.main = m at hmain hblocked
  rcases hblocked with rfl | rfl | rfl | hblocked
  · exact absurd hmain (by decide)
  · exact absurd hmain (by decide)
  · exact absurd hmain (by decide)
  · exact hblocked

theorem Moves.ordered {σ' : Engine} {n k : Nat} (h : σ.Moves k σ') (hk : k < n)
    (hσ : σ.Ordered n) : σ'.Ordered n where
  pos := hσ.pos
  idle j hj := (h.stops (Nat.ne_of_gt (Nat.lt_of_lt_of_le hk hj))).trans (hσ.idle j hj)
  blocked := by
    rw [h.main, h.blocked]
    exact hσ.blocked

theorem Moves.work {σ' : Engine} {k : Nat} (h : σ.Moves k σ') (hbegun : σ.stops k ≠ .idle)
    (hopen : σ.stops k ≠ .returned) :
    (σ'.stops k).work + σ'.wakeUps < (σ.stops k).work + σ.wakeUps := by
  cases h with
  | stay h => exact absurd h (not_or.mpr ⟨hbegun, hopen⟩)
  | start h => exact absurd h hbegun
  | win h | fail h | storeSignal h | storeState h | clearRunning h =>
    rw [stops_setStop_self, h]
    exact Nat.add_lt_add_right (by decide) σ.wakeUps
  | load h c hc =>
    rw [stops_setStop_self, h]
    refine Nat.add_lt_add_right ?_ σ.wakeUps
    rcases hc with rfl | rfl
    · decide
    · decide
  | kill h =>
    rw [stops_setStop_self, h]
    exact Nat.lt_of_lt_of_le (by decide : 0 + 2 < 4) (Nat.le_add_right 4 σ.wakeUps)

/-- A call that has begun and not returned gets on. -/
theorem Moves.closer {σ' : Engine} {n k : Nat} (h : σ.Moves k σ') (hk : k < n)
    (hbegun : σ.stops k ≠ .idle) (hopen : σ.stops k ≠ .returned) :
    σ'.distance n < σ.distance n := by
  have hothers : ((Finset.range n).erase k).sum (fun j => (σ'.stops j).work) =
      ((Finset.range n).erase k).sum (fun j => (σ.stops j).work) :=
    Finset.sum_congr rfl fun j hj => by rw [h.stops (Finset.ne_of_mem_erase hj)]
  have hwork := h.work hbegun hopen
  rw [distance_of_begun hk hbegun, distance_of_begun hk (h.begun hbegun), hothers, h.main]
  omega

/-- A call under way gets on, … -/
theorem Lossy.stop {n k : Nat} (h : σ.Lossy) (hσ : σ.Ordered n) (hbegun : σ.stops k ≠ .idle)
    (hopen : σ.stops k ≠ .returned) :
    (σ.step (.stop k)).Lossy ∧ (σ.step (.stop k)).Ordered n ∧
      (σ.step (.stop k)).distance n < σ.distance n := by
  have hmoves := stepStop_moves σ k
  have hk : k < n := Nat.lt_of_not_le fun hle => hbegun (hσ.idle k hle)
  refine ⟨⟨fun s hs => (hmoves.pending hs).trans (h.quiet s hs), ?_⟩, hmoves.ordered hk hσ,
    hmoves.closer hk hbegun hopen⟩
  refine h.lost.imp (fun hearly => ?_) fun ⟨hbound, hrunning, _, hdue⟩ => ?_
  · exact (congrArg Main.isEarly hmoves.main).trans hearly
  · obtain ⟨hdue', hrunning'⟩ := hmoves.not_due hdue hbegun
    exact ⟨(congrArg Main.isBound hmoves.main).trans hbound, hrunning'.trans hrunning,
      fun hfresh => hmoves.begun hbegun (hfresh.stops k), hdue'⟩

/-- … the first call begins where none has, … -/
theorem Lossy.start {n : Nat} (h : σ.Lossy) (hσ : σ.Ordered n) (hidle : ∀ k, σ.stops k = .idle)
    (hmain : σ.main = .resetRunning ∨ σ.main.isBound = true) :
    (σ.step (.stop 0)).Lossy ∧ (σ.step (.stop 0)).Ordered n ∧
      (σ.step (.stop 0)).distance n < σ.distance n := by
  have hallowed : σ.main ≠ .publish ∧ σ.blocked = true := by
    refine ⟨fun hm => ?_, hσ.blocked_of hmain⟩
    rw [hm] at hmain
    exact absurd hmain (by decide)
  have hstep : σ.step (.stop 0) = σ.setStop 0 (.request .exchange) := by
    dsimp only [step]
    rw [stepStop, hidle 0]
    exact if_pos hallowed
  have hmoves : σ.Moves 0 (σ.step (.stop 0)) := hstep ▸ .start (hidle 0)
  have hbegun : (σ.step (.stop 0)).stops 0 = .request .exchange := by
    rw [hstep, stops_setStop_self]
  refine ⟨⟨fun s hs => (hmoves.pending hs).trans (h.quiet s hs), ?_⟩, hmoves.ordered hσ.pos hσ, ?_⟩
  · refine h.lost.imp (fun hearly => ?_) fun ⟨hbound, hrunning, hfresh, _⟩ => ?_
    · exact (congrArg Main.isEarly hmoves.main).trans hearly
    · rw [hmoves.main]
      refine ⟨hbound, ?_, fun hf => ?_, ?_⟩
      · rw [hstep]
        exact hrunning
      · exact absurd (hbegun.symm.trans (hf.stops 0)) nofun
      · rintro ⟨k, hk⟩
        by_cases hk0 : k = 0
        · subst hk0
          rw [hbegun, hstep] at hk
          exact hfresh ⟨hk, hidle⟩
        · rw [hmoves.stops hk0, hidle k] at hk
          exact hk
  · have hothers : ((Finset.range n).erase 0).sum (fun j => ((σ.step (.stop 0)).stops j).work) =
        ((Finset.range n).erase 0).sum (fun j => (σ.stops j).work) :=
      Finset.sum_congr rfl fun j hj => by rw [hmoves.stops (Finset.ne_of_mem_erase hj)]
    have hwake : (σ.step (.stop 0)).wakeUps = σ.wakeUps := by rw [hstep]; rfl
    rw [distance_of_begun hσ.pos (by rw [hbegun]; rintro ⟨⟩), hbegun, hothers, hmoves.main, hwake,
      distance, if_pos fun k _ => hidle k,
      ← Finset.add_sum_erase (Finset.range n) _ (Finset.mem_range.mpr hσ.pos), hidle 0]
    simp only [Call.work]
    omega

theorem Ordered.stepMain {n : Nat} (hσ : σ.Ordered n) : σ.stepMain.Ordered n where
  pos := hσ.pos
  idle k hk := (congrFun σ.stepMain_same.1 k).trans (hσ.idle k hk)
  blocked := by
    rcases hσ.blocked with hm | hm | hm | hblocked
    · right; left
      rw [Engine.stepMain, hm]
      rfl
    · right; right; right
      rw [Engine.stepMain, hm]
      rfl
    · right; right; left
      rw [Engine.stepMain, hm]
      exact hm
    · exact .inr (.inr (.inr (σ.stepMain_same.2.2 hblocked)))

/-- The main thread gets on, and nothing else changes. -/
theorem distance_stepMain {n : Nat} (hway : σ.stepMain.main.way < σ.main.way) :
    σ.stepMain.distance n < σ.distance n := by
  unfold distance wakeUps
  rw [σ.stepMain_same.1, σ.stepMain_same.2.1]
  exact Nat.add_lt_add_right (Nat.add_lt_add_left hway _) _

section

variable {n : Nat} (h : σ.Lossy) (hσ : σ.Ordered n)
include h hσ

/-- … the main thread goes on to the end of `resetForRun_`, … -/
theorem Lossy.reset (hearly : σ.main.isEarly = true) (hlast : σ.main ≠ .resetRunning) :
    σ.stepMain.Lossy ∧ σ.stepMain.Ordered n ∧ σ.stepMain.distance n < σ.distance n := by
  obtain ⟨hearly', hway⟩ := stepMain_early hearly hlast
  refine ⟨⟨fun s hs => ?_, .inl hearly'⟩, hσ.stepMain, distance_stepMain hway⟩
  rw [σ.stepMain_same.2.1]
  exact h.quiet s hs

/-- … and, once all calls that have begun have returned, from there to the wait, … -/
theorem Lossy.wait (hsettled : ∀ k, σ.stops k = .idle ∨ σ.stops k = .returned)
    (hreturned : ∃ k, σ.stops k = .returned)
    (hmain : σ.main = .resetRunning ∨ σ.main.isBound = true) (hwait : σ.main ≠ .wait) :
    σ.stepMain.Lossy ∧ σ.stepMain.Ordered n ∧ σ.stepMain.distance n < σ.distance n := by
  obtain ⟨hstops, hpending, -⟩ := σ.stepMain_same
  have hnext : σ.stepMain.main.isBound = true ∧ σ.stepMain.running = true ∧
      σ.stepMain.main.way < σ.main.way := by
    rcases hmain with hm | hbound
    · rw [stepMain, hm]
      exact ⟨rfl, rfl, Nat.lt_succ_self _⟩
    · exact stepMain_bound hbound hwait (h.of_isBound hbound).1
  obtain ⟨hbound, hrunning, hway⟩ := hnext
  refine ⟨⟨fun s hs => ?_, .inr ⟨hbound, hrunning, ?_, ?_⟩⟩, hσ.stepMain, distance_stepMain hway⟩
  · rw [hpending]
    exact h.quiet s hs
  · exact not_fresh_of_returned (hstops ▸ hreturned)
  · exact not_due_of_settled (hstops ▸ hsettled)

/-- … where it takes a wake-up and finds `running_` set. -/
theorem Lossy.wake (hwait : σ.main = .wait) (hwake : σ.pending .wake = true) :
    (σ.step (.take .wake)).Lossy ∧ (σ.step (.take .wake)).Ordered n ∧
      (σ.step (.take .wake)).distance n < σ.distance n := by
  have hstep : σ.step (.take .wake) = (σ.setPending .wake false).goto .woken := by
    dsimp only [step]
    rw [if_pos ⟨hwait, hwake⟩]
    rfl
  have hbound : σ.main.isBound = true := (congrArg Main.isBound hwait :)
  obtain ⟨hrunning, hfresh, hdue⟩ := h.of_isBound hbound
  rw [hstep]
  refine ⟨⟨fun s hs => (if_neg hs).trans (h.quiet s hs), .inr ⟨rfl, hrunning, ?_, hdue⟩⟩,
    ⟨hσ.pos, hσ.idle, .inr (.inr (.inr ?_))⟩, ?_⟩
  · exact fun hf => hfresh ⟨hf.stopSource, hf.stops⟩
  · exact hσ.blocked_of (.inr hbound)
  · unfold distance
    have hbefore : σ.main.way + σ.wakeUps = 0 + 2 := by
      rw [hwait, wakeUps, if_pos hwake]
      rfl
    have hafter : ((σ.setPending .wake false).goto .woken).main.way +
        ((σ.setPending .wake false).goto .woken).wakeUps = 1 + 0 := rfl
    rw [Nat.add_assoc, hafter, Nat.add_assoc (_ + _), hbefore]
    exact Nat.add_lt_add_left (by decide) _

/-- From a state in which a request can be lost a step leads nearer to its loss. -/
theorem Lossy.advance (hgoal : ¬ σ.LeftWaiting) :
    ∃ c, ((σ.step c).Lossy ∧ (σ.step c).Ordered n) ∧ (σ.step c).distance n < σ.distance n := by
  suffices hstep : ∃ c, (σ.step c).Lossy ∧ (σ.step c).Ordered n ∧
      (σ.step c).distance n < σ.distance n by
    obtain ⟨c, hlossy, hordered, hcloser⟩ := hstep
    exact ⟨c, ⟨hlossy, hordered⟩, hcloser⟩
  by_cases hopen : ∃ k, σ.stops k ≠ .idle ∧ σ.stops k ≠ .returned
  · obtain ⟨k, hbegun, hopen⟩ := hopen
    exact ⟨.stop k, h.stop hσ hbegun hopen⟩
  have hsettled : ∀ k, σ.stops k = .idle ∨ σ.stops k = .returned := fun k => by
    by_contra hne
    exact hopen ⟨k, not_or.mp hne⟩
  by_cases hearly : σ.main.isEarly = true ∧ σ.main ≠ .resetRunning
  · exact ⟨.main, h.reset hσ hearly.1 hearly.2⟩
  have hmain : σ.main = .resetRunning ∨ σ.main.isBound = true := by
    rcases h.lost with hmain | ⟨hmain, -⟩
    · exact .inl (by_contra fun hne => hearly ⟨hmain, hne⟩)
    · exact .inr hmain
  by_cases hreturned : ∃ k, σ.stops k = .returned
  · by_cases hwait : σ.main = .wait
    · have hwake : σ.pending .wake = true := by
        by_contra hnone
        obtain ⟨hrunning, -, hdue⟩ := h.of_isBound (congrArg Main.isBound hwait :)
        refine hgoal ⟨hwait, hrunning, fun s => ?_, hreturned, hdue⟩
        by_cases hs : s = .wake
        · rw [hs]
          exact Bool.eq_false_of_not_eq_true hnone
        · exact h.quiet s hs
      exact ⟨.take .wake, h.wake hσ hwait hwake⟩
    · exact ⟨.main, h.wait hσ hsettled hreturned hmain hwait⟩
  · refine ⟨.stop 0, h.start hσ (fun k => (hsettled k).resolve_right fun hk => ?_) hmain⟩
    exact hreturned ⟨k, hk⟩

end

/-! ## Runs -/

theorem ordered_step (c : Choice) (h : ∃ n, σ.Ordered n) : ∃ n, (σ.step c).Ordered n := by
  obtain ⟨n, hσ⟩ := h
  have hgoto : ∀ (m : Main), σ.main.isBound = true → (σ.goto m).Ordered n := fun m hbound =>
    ⟨hσ.pos, hσ.idle, .inr (.inr (.inr (hσ.blocked_of (.inr hbound))))⟩
  cases c with
  | main => exact ⟨n, hσ.stepMain⟩
  | throw =>
    dsimp only [step]
    split
    next hm => exact ⟨n, hgoto _ (congrArg Main.isBound hm :)⟩
    · exact ⟨n, hσ⟩
  | take s =>
    dsimp only [step]
    split
    next htake =>
      have hbefore := hgoto (if s = .wake then .woken else .request s .exchange)
        (congrArg Main.isBound htake.1 :)
      exact ⟨n, hbefore.pos, hbefore.idle, hbefore.blocked⟩
    · exact ⟨n, hσ⟩
  | raise s =>
    dsimp only [step]
    split
    · exact ⟨n, hσ.pos, hσ.idle, hσ.blocked⟩
    · exact ⟨n, hσ.pos, hσ.idle, .inr (.inr (.inl rfl))⟩
  | stop k =>
    have hwide : σ.Ordered (max n (k + 1)) :=
      ⟨Nat.lt_of_lt_of_le hσ.pos (Nat.le_max_left _ _),
        fun j hj => hσ.idle j ((Nat.le_max_left _ _).trans hj), hσ.blocked⟩
    exact ⟨_, (stepStop_moves σ k).ordered (Nat.le_max_right _ _) hwide⟩

theorem ordered_run (σ : Engine) (schedule : List Choice) : ∃ n, (σ.run schedule).Ordered n :=
  foldl_invariant (I := fun σ : Engine => ∃ n, σ.Ordered n) (fun _ c h => ordered_step c h) _
    ⟨1, Nat.one_pos, fun _ _ => rfl, .inl rfl⟩ schedule

theorem run_append (σ : Engine) (past more : List Choice) :
    σ.run (past ++ more) = more.foldl step (σ.run past) :=
  List.foldl_append

/-- In `resetForRun_`, with `stopSource_` cleared. -/
def Main.isCleared : Main → Bool
  | .resetSignal | .resetState | .resetRunning => true
  | _ => false

/-- No call of `stop` has begun before the end of `resetForRun_`. -/
structure Unasked (σ : Engine) : Prop where
  early : σ.main.isEarly = true
  stops : ∀ k, σ.stops k = .idle
  stopSource : σ.main.isCleared = true → σ.stopSource = .none

theorem Unasked.stepMain (h : σ.Unasked) : σ.stepMain.Unasked ∨ ¬ σ.stepMain.Lossy := by
  have hearly := h.early
  have hsource := h.stopSource
  have hstops : ∀ k, σ.stepMain.stops k = .idle := fun k =>
    (congrFun σ.stepMain_same.1 k).trans (h.stops k)
  by_cases hlast : σ.main = .resetRunning
  · have hstep : σ.stepMain = { σ with running := true }.goto .startUp := by
      rw [Engine.stepMain, hlast]
    rw [hlast] at hsource
    rw [hstep]
    exact .inr fun hlossy => (hlossy.of_isBound rfl).2.1 ⟨hsource rfl, h.stops⟩
  · refine .inl ⟨(stepMain_early hearly hlast).1, hstops, ?_⟩
    unfold Engine.stepMain
    cases hm : σ.main with
    | publish | block => exact fun hcleared => absurd hcleared Bool.false_ne_true
    | resetSource => exact fun _ => rfl
    | resetSignal | resetState =>
      rw [hm] at hsource
      exact fun _ => hsource rfl
    | resetRunning => exact absurd hm hlast
    | startUp | check | wait | woken | request | abort | shutDown | retire | returned | killed =>
      rw [hm] at hearly
      cases hearly

/-- A call of `stop` does not begin before. -/
def StopsLate (σ : Engine) : Choice → Prop
  | .stop _ => σ.main.isEarly = false
  | _ => True

theorem Unasked.step (h : σ.Unasked) {c : Choice} (hc : σ.StopsLate c) :
    (σ.step c).Unasked ∨ ¬ (σ.step c).Lossy := by
  have hnot : ∀ {m : Main}, m.isEarly = false → σ.main ≠ m := by
    rintro m hm rfl
    exact Bool.false_ne_true (hm.symm.trans h.early)
  cases c with
  | main => exact h.stepMain
  | throw =>
    dsimp only [Engine.step]
    rw [if_neg (hnot rfl)]
    exact .inl h
  | take s =>
    dsimp only [Engine.step]
    rw [if_neg fun htake => hnot rfl htake.1]
    exact .inl h
  | raise s =>
    dsimp only [Engine.step]
    split
    · exact .inl ⟨h.early, h.stops, h.stopSource⟩
    · exact .inr (not_lossy rfl rfl)
  | stop k => exact absurd (hc.symm.trans h.early) Bool.false_ne_true

theorem late_stops_kept (σ : Engine) (schedule : List Choice)
    (h : AllSteps step StopsLate { σ with main := .publish, stops := fun _ => .idle } schedule) :
    ¬ (σ.run schedule).LeftWaiting := by
  have hstart : Unasked { σ with main := .publish, stops := fun _ => .idle } :=
    ⟨rfl, fun _ => rfl, fun hcleared => absurd hcleared Bool.false_ne_true⟩
  have hend := foldl_invariant_of_allSteps (I := fun σ : Engine => σ.Unasked ∨ ¬ σ.Lossy)
    (fun σ c hσ hc => hσ.elim (fun hunasked => hunasked.step hc)
      fun hkept => .inr fun hlossy => hkept (lossy_of_step c hlossy)) _ (.inl hstart) schedule h
  intro hleft
  rcases hend with hunasked | hkept
  · have hwait : (σ.run schedule).main.isEarly = false := (congrArg Main.isEarly hleft.main :)
    exact Bool.false_ne_true (hwait.symm.trans hunasked.early)
  · exact hkept hleft.lossy

/-- **Requests can be lost.**  A run can go on to leave the main thread waiting, with a call of
`stop` made and nobody to wake it, if and only if no other signal is pending and `resetForRun_`
is not over, or it is, `running_` is set, and it is neither so that nobody has asked yet and
`stopSource_` is clear nor so that a call of `stop` is on its way to clear `running_`.  If all calls
of `stop` begin after `resetForRun_`, the main thread is not left waiting. -/
theorem left_waiting_iff (σ : Engine) (past : List Choice) :
    ((∃ more, (σ.run (past ++ more)).LeftWaiting) ↔ (σ.run past).Lossy) ∧
    (AllSteps step StopsLate { σ with main := .publish, stops := fun _ => .idle } past →
      ¬ (σ.run past).LeftWaiting) := by
  refine ⟨⟨?_, ?_⟩, late_stops_kept σ past⟩
  · rintro ⟨more, hleft⟩
    rw [run_append] at hleft
    by_contra hnone
    exact foldl_invariant (I := fun σ : Engine => ¬ σ.Lossy)
      (fun _ c h hstep => h (lossy_of_step c hstep)) _ hnone more hleft.lossy
  · intro hlossy
    obtain ⟨n, hordered⟩ := ordered_run σ past
    obtain ⟨more, hleft⟩ := foldl_reaches (I := fun σ : Engine => σ.Lossy ∧ σ.Ordered n)
      Nat.lt_wfRel.wf (distance n) (fun _ h hgoal => h.1.advance h.2 hgoal) _ ⟨hlossy, hordered⟩
    exact ⟨more, by rw [run_append]; exact hleft⟩

/-- The same call of `stop` after `resetForRun_`. -/
theorem left_waiting_iff_stop_late :
    ¬ (run {} (List.replicate 6 .main ++ List.replicate 7 (.stop 0))).LeftWaiting :=
  (left_waiting_iff {} _).2 ⟨trivial, trivial, trivial, trivial, trivial, trivial, rfl, rfl, rfl,
    rfl, rfl, rfl, rfl, trivial⟩

/-- `stop` is called when the main thread is known and has blocked the signals, and returns
before `resetForRun_` begins. -/
def tooSoon : List Choice :=
  [.main, .main] ++ List.replicate 7 (.stop 0) ++ List.replicate 6 .main ++ [.take .wake, .main]

/-- `running_` is set again, and the wake-up is taken for a false alarm. -/
theorem stop_before_reset_lost : ∃ schedule, (run {} schedule).LeftWaiting := by
  refine ⟨tooSoon, rfl, rfl, ?_, ⟨0, rfl⟩, not_due_of_settled ?_⟩
  · rintro (_ | _ | _ | _)
    all_goals rfl
  · rintro (_ | k)
    · exact .inr rfl
    · exact .inl rfl

end Engine

end HyperNet.Core
