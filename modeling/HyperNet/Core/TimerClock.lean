import HyperNet.Core.TimerWheel
import HyperNet.Lib.Polling
import Mathlib.Algebra.Order.Ring.Nat

/-!
# The timer wheel and the clock

The event loop drives its wheel by `tick(now)`.  The wheel is then an instance of periodic
work made good by polls: what it does depends on the latest `now` only, however often it is
polled (`tickAll_eq_of_maximum`).

A delay is counted from `currentTick_`, and the clock may be ahead of the time that tick
stands for, by the rest of a period or, in a callback that is caught up on, by many periods.
So a timer can run before its delay is over.  To speak of this, callbacks carry the time of
their `addTimer`, and a `TimedWheel` keeps each callback run with the `now` of its call.
-/

namespace HyperNet.Core

open Polling

namespace WheelConfig

/-- The resolution in the unit of the clock. -/
def period (g : WheelConfig) : Int := g.tickResolution.toInt * 1000000

theorem le_period (g : WheelConfig) : 1000000 ≤ g.period := by
  have hpos : 0 < g.tickResolution.toInt := by
    simpa using Int64.lt_iff_toInt_lt.1 g.resolution_pos
  rw [period]
  omega

theorem period_pos (g : WheelConfig) : 0 < g.period := Int.lt_of_lt_of_le (by decide) g.le_period

end WheelConfig

namespace TimerWheel

variable {κ : Type} {g : WheelConfig} {app : Callbacks κ}

def atTime (w : TimerWheel κ) (time : Int) : TimerWheel κ := { w with lastTickTime := time }

/-- A callback can act on what it sees of its wheel, and `lastTickTime_` has no accessor. -/
def Callbacks.Public (app : Callbacks κ) : Prop :=
  ∀ callback (w : TimerWheel κ) time, app callback (w.atTime time) = app callback w

/-! ## `tick(now)` as a poll -/

section

variable (app)

theorem tick_lastTickTime (w : TimerWheel κ) : (w.tick g app).lastTickTime = w.lastTickTime := by
  refine tick_keeps (I := fun v => v.lastTickTime = w.lastTickTime) ?_ (fun _ _ hv => hv)
    (fun _ _ _ hv => hv) app w rfl
  rintro v ⟨delay, _ | callback⟩ hv
  exacts [hv, hv]

theorem iterate_tick_lastTickTime (n : Nat) (w : TimerWheel κ) :
    ((tick g app)^[n] w).lastTickTime = w.lastTickTime := by
  induction n generalizing w with
  | zero => rfl
  | succ n ih => exact (ih (w.tick g app)).trans (tick_lastTickTime app w)

theorem iterate_tick_currentTick (n : Nat) (w : TimerWheel κ) :
    ((tick g app)^[n] w).currentTick = w.currentTick + UInt64.ofNat n := by
  induction n generalizing w with
  | zero => simp
  | succ n ih =>
    rw [Function.iterate_succ_apply, ih, tick_currentTick, UInt64.add_assoc, UInt64.ofNat_add,
      UInt64.add_comm (UInt64.ofNat n)]
    rfl

/-- The two early returns of `tick(now)` are the cases of no period, and truncating to
milliseconds first loses nothing. -/
theorem tickAt_eq (now : Int) (w : TimerWheel κ) :
    tickAt g app now w =
      ((tick g app)^[periods g.period w.lastTickTime now] w).atTime
        (w.lastTickTime + g.period * periods g.period w.lastTickTime now) := by
  have hres : 0 < g.tickResolution.toInt := by
    simpa using Int64.lt_iff_toInt_lt.1 g.resolution_pos
  have hdiv : (now - w.lastTickTime) / 1000000 / g.tickResolution.toInt =
      (now - w.lastTickTime) / g.period := by
    rw [Int.ediv_ediv_of_nonneg (by decide), Int.mul_comm, WheelConfig.period]
  have hidle : periods g.period w.lastTickTime now = 0 →
      w = ((tick g app)^[periods g.period w.lastTickTime now] w).atTime
        (w.lastTickTime + g.period * periods g.period w.lastTickTime now) := by
    intro h
    rw [h, Int.natCast_zero, Int.mul_zero, Int.add_zero]
    rfl
  rw [tickAt]
  split
  case isTrue h => exact hidle (periods_eq_zero g.period_pos h)
  case isFalse h =>
    dsimp only
    split
    case isTrue hlt =>
      refine hidle ?_
      rw [periods, ← hdiv, Int.ediv_eq_zero_of_lt (Int.ediv_nonneg (by omega) (by decide)) hlt]
      rfl
    case isFalse hlt =>
      rw [hdiv, iterate_tick_lastTickTime, atTime, periods, WheelConfig.period]
      congr 2
      rw [Int.mul_assoc, Int.mul_assoc, Int.mul_comm 1000000]

end

theorem foldl_atTime {β : Type} {next : TimerWheel κ → β → TimerWheel κ} {time : Int}
    (h : ∀ w b, next (w.atTime time) b = (next w b).atTime time) (l : List β) (w : TimerWheel κ) :
    l.foldl next (w.atTime time) = (l.foldl next w).atTime time :=
  List.foldl_hom (fun v : TimerWheel κ => v.atTime time) h

theorem add_atTime (time : Int) (w : TimerWheel κ) (call : Int64 × Option κ) :
    (w.atTime time).add g call = (w.add g call).atTime time := by
  obtain ⟨delay, _ | callback⟩ := call <;> rfl

section

variable (happ : app.Public)
include happ

theorem processTimer_atTime (time : Int) (w : TimerWheel κ) (t : Timer κ) :
    (w.atTime time).processTimer g app t = (w.processTimer g app t).atTime time := by
  have hran : (w.atTime time).runCallback g app t = (w.runCallback g app t).atTime time := by
    have hcalls : app t.callback ((w.atTime time).logFired t) = app t.callback (w.logFired t) :=
      happ t.callback (w.logFired t) time
    rw [runCallback, runCallback, hcalls]
    exact foldl_atTime (add_atTime time) _ (w.logFired t)
  by_cases hexpired : t.expirationTick ≤ w.currentTick
  · have hexpired' : t.expirationTick ≤ (w.atTime time).currentTick := hexpired
    rw [processTimer, processTimer, if_pos hexpired, if_pos hexpired', hran]
    dsimp only [atTime]
    split <;> rfl
  · have hexpired' : ¬ t.expirationTick ≤ (w.atTime time).currentTick := hexpired
    rw [processTimer, processTimer, if_neg hexpired, if_neg hexpired']
    rfl

theorem tick_atTime (time : Int) (w : TimerWheel κ) :
    (w.atTime time).tick g app = (w.tick g app).atTime time := by
  rw [tick_eq, tick_eq, ← foldl_atTime (processTimer_atTime happ time)]
  rfl

/-- For callbacks that cannot tell the reference time, the wheel and this time are polled. -/
theorem tickAt_atTime (s : TimerWheel κ × Int) (now : Int) :
    tickAt g app now (s.1.atTime s.2) =
      (poll g.period (tick g app) s now).1.atTime (poll g.period (tick g app) s now).2 := by
  have hcomm : Function.Commute (tick g app) (fun v : TimerWheel κ => v.atTime s.2) :=
    fun v => tick_atTime happ s.2 v
  have hiter : ∀ n, (tick g app)^[n] (s.1.atTime s.2) = ((tick g app)^[n] s.1).atTime s.2 :=
    fun n => hcomm.iterate_left n s.1
  rw [tickAt_eq, hiter]
  rfl

/-- The calls `tick(now)` at these times, in this order. -/
def tickAll (g : WheelConfig) (app : Callbacks κ) (times : List Int) (w : TimerWheel κ) :
    TimerWheel κ :=
  times.foldl (fun w now => tickAt g app now w) w

theorem tickAll_atTime (times : List Int) (s : TimerWheel κ × Int) :
    tickAll g app times (s.1.atTime s.2) =
      (times.foldl (poll g.period (tick g app)) s).1.atTime
        (times.foldl (poll g.period (tick g app)) s).2 := by
  induction times generalizing s with
  | nil => rfl
  | cons now times ih =>
    rw [List.foldl_cons, ← ih, ← tickAt_atTime happ]
    rfl

theorem tickAll_eq_tickAt (times : List Int) (w : TimerWheel κ) (latest : Int)
    (hlatest : times.maximum = latest) : tickAll g app times w = tickAt g app latest w := by
  have hpolls := tickAll_atTime (g := g) happ times (w, w.lastTickTime)
  rw [foldl_poll g.period_pos _ times latest hlatest, ← tickAt_atTime happ] at hpolls
  exact hpolls

end

/-- Polling granularity makes no difference: two sequences of `tick(now)` with the same latest
time leave the same wheel, its pending timers and the log of its callback runs included.  It
has moved on by the whole periods up to that time, and the reference time by no more and no
less. -/
theorem tickAll_eq_of_maximum (happ : app.Public) (w : TimerWheel κ) (times times' : List Int)
    (hmax : times.maximum = times'.maximum) :
    tickAll g app times w = tickAll g app times' w ∧
    ∀ latest : Int, times.maximum = latest →
      (latest ≤ w.lastTickTime → tickAll g app times w = w) ∧
      (tickAll g app times w).currentTick =
        w.currentTick + UInt64.ofNat ((latest - w.lastTickTime) / g.period).toNat ∧
      (tickAll g app times w).lastTickTime =
        w.lastTickTime + g.period * ((latest - w.lastTickTime) / g.period).toNat := by
  constructor
  · cases hlatest : times.maximum with
    | bot => rw [List.maximum_eq_bot.1 hlatest, List.maximum_eq_bot.1 (hmax.symm.trans hlatest)]
    | coe latest =>
      rw [tickAll_eq_tickAt happ times w latest hlatest,
        tickAll_eq_tickAt happ times' w latest (hmax.symm.trans hlatest)]
  · intro latest hlatest
    rw [tickAll_eq_tickAt happ times w latest hlatest]
    refine ⟨fun hle => ?_, ?_, ?_⟩
    · rw [tickAt, if_pos hle]
    · rw [tickAt_eq]
      exact iterate_tick_currentTick app _ w
    · rw [tickAt_eq]
      rfl

/-- A re-arming callback, polled in three calls, the last of them late and out of order, and
in one. -/
theorem tickAll_eq_of_maximum_rearming :
    let g : WheelConfig := ⟨10, 2, by decide, by decide⟩
    let app : Callbacks Unit := fun _ _ => [(15, some ())]
    let w := add g {} (25, some ())
    tickAll g app [9000000, 61999999, 30000000] w = tickAll g app [61999999] w ∧
      (tickAll g app [9000000, 61999999, 30000000] w).currentTick = 6 := by
  intro g app w
  have happ : app.Public := fun _ _ _ => rfl
  have h := tickAll_eq_of_maximum (g := g) happ w
    [9000000, 61999999, 30000000] [61999999] (by decide)
  exact ⟨h.1, (h.2 61999999 (by decide)).2.1.trans (by decide +kernel)⟩

end TimerWheel

/-! ## Delays in real time -/

/-- A callback with the time of the `addTimer` it is passed to. -/
structure Stamped (κ : Type) where
  callback : κ
  madeAt : Int
  deriving DecidableEq

/-- What the thread of an event loop does with its wheel. -/
inductive TimedOp (κ : Type) where
  | addTimer (delay : Int64) (callback : Option (Stamped κ))
  | tick (now : Int64) (app : TimerWheel.Callbacks (Stamped κ))

structure TimedWheel (κ : Type) where
  wheel : TimerWheel (Stamped κ)
  /-- History: each callback run, with the `now` of the call it was run in. -/
  ran : List (Int × Fired (Stamped κ)) := []

namespace TimedWheel

open TimerWheel

variable {κ : Type} {g : WheelConfig} {start : Int64}

def step (g : WheelConfig) (s : TimedWheel κ) : TimedOp κ → TimedWheel κ
  | .addTimer delay callback => { s with wheel := s.wheel.add g (delay, callback) }
  | .tick now app =>
    let w := s.wheel.tickAt g app now.toInt
    { wheel := w, ran := s.ran ++ (w.fired.drop s.wheel.fired.length).map (now.toInt, ·) }

/-- A wheel made at the time `start`, after these operations. -/
def run (g : WheelConfig) (start : Int64) (ops : List (TimedOp κ)) : TimedWheel κ :=
  ops.foldl (step g) { wheel := { lastTickTime := start.toInt } }

/-- The time a tick stands for. -/
def tickTime (g : WheelConfig) (start : Int64) (tick : Nat) : Int := start.toInt + g.period * tick

/-- The end of the delay, which `addTimer` takes in milliseconds. -/
def delayOver (a : Added (Stamped κ)) : Int := a.callback.madeAt + a.delay.toInt * 1000000

/-- The `now` of a call that has reached this time. -/
def reaches (time : Int) : TimedOp κ → Option Int
  | .addTimer _ _ => none
  | .tick now _ => if time ≤ now.toInt then some now.toInt else none

/-- The earliest `now` a timer can be run with, given the calls since it was added, the one it was
added in being the first: that of the first call that reaches the time of its due tick, or else
that time, if the calls to come are not all later. -/
def earliest (g : WheelConfig) (start : Int64) (calls : List (TimedOp κ)) (a : Added (Stamped κ))
    (later : Int) : Int :=
  match calls.findSome? (reaches (tickTime g start (g.due a))) with
  | some now => now
  | none => max later (tickTime g start (g.due a))

/-- What holds between operations. -/
structure Kept (g : WheelConfig) (start : Int64) (s : TimedWheel κ) : Prop where
  accounts : Accounts g s.wheel [] 0
  time : s.wheel.lastTickTime = tickTime g start s.wheel.currentTick.toNat
  range : s.wheel.lastTickTime < 2 ^ 63
  added : ∀ a ∈ s.wheel.added, a.tick ≤ s.wheel.currentTick.toNat
  ran : s.ran.map Prod.snd = s.wheel.fired
  late : ∀ p ∈ s.ran, tickTime g start p.2.tick ≤ p.1

/-- What an operation leaves of the history. -/
structure Extends (s s' : TimedWheel κ) : Prop where
  added : s.wheel.added <+: s'.wheel.added
  ran : s.ran <+: s'.ran

theorem Extends.refl (s : TimedWheel κ) : Extends s s := ⟨List.prefix_rfl, List.prefix_rfl⟩

theorem Extends.added_eq {s s' : TimedWheel κ} (h : Extends s s') {i : Nat}
    {a : Added (Stamped κ)} (ha : s.wheel.added[i]? = some a) : s'.wheel.added[i]? = some a := by
  obtain ⟨more, hmore⟩ := h.added
  rw [← hmore]
  exact (List.getElem?_append_left (List.getElem?_eq_some_iff.1 ha).1).trans ha

theorem Extends.trans {s t u : TimedWheel κ} (h : Extends s t) (h' : Extends t u) : Extends s u :=
  ⟨h.added.trans h'.added, h.ran.trans h'.ran⟩

end TimedWheel

namespace TimerWheel

variable {κ : Type} {g : WheelConfig} {w : TimerWheel κ}

theorem Accounts.atTime (h : Accounts g w [] 0) (time : Int) : Accounts g (w.atTime time) [] 0 :=
  { h with }

theorem tick_added (app : Callbacks κ) (w : TimerWheel κ) : w.added <+: (w.tick g app).added := by
  obtain ⟨runs, -, -, hadded⟩ := step_records (g := g) w (.tick app)
  exact ⟨_, hadded.symm⟩

theorem iterate_tick_added (app : Callbacks κ) (n : Nat) (w : TimerWheel κ) :
    w.added <+: ((tick g app)^[n] w).added := by
  induction n generalizing w with
  | zero => exact List.prefix_rfl
  | succ n ih => exact (tick_added app w).trans (ih (w.tick g app))

theorem tick_fired (app : Callbacks κ) (w : TimerWheel κ) : w.fired <+: (w.tick g app).fired := by
  obtain ⟨runs, -, hfired, -⟩ := step_records (g := g) w (.tick app)
  exact ⟨_, hfired.symm⟩

/-- The ticks the calls in the history were made in are past. -/
def AddedBefore (w : TimerWheel κ) : Prop := ∀ a ∈ w.added, a.tick ≤ w.currentTick.toNat

theorem AddedBefore.add (h : w.AddedBefore) (call : Int64 × Option κ) :
    (w.add g call).AddedBefore := by
  obtain ⟨delay, _ | callback⟩ := call
  · exact h
  · intro a ha
    rcases List.mem_append.1 ha with ha | ha
    · exact h a ha
    · rw [List.mem_singleton.1 ha]
      exact Nat.le_refl _

theorem AddedBefore.tick (h : w.AddedBefore) (app : Callbacks κ)
    (hlt : w.currentTick.toNat + 1 < 2 ^ 64) : (w.tick g app).AddedBefore := by
  refine tick_keeps (I := AddedBefore) (fun _ call hv => hv.add call) (fun _ _ hv => hv)
    (fun _ _ _ hv => hv) app w ?_
  intro a ha
  refine (h a ha).trans ?_
  rw [UInt64.toNat_add]
  change _ ≤ (w.currentTick.toNat + 1) % 2 ^ 64
  rw [Nat.mod_eq_of_lt hlt]
  exact Nat.le_succ _

/-- What a tick keeps while the counter does not wrap, any number of ticks keeps. -/
theorem iterate_tick_keeps {I : TimerWheel κ → Prop} {app : Callbacks κ}
    (hstep : ∀ w, w.currentTick.toNat + 1 < 2 ^ 64 → I w → I (w.tick g app)) (n : Nat)
    (hlt : w.currentTick.toNat + n < 2 ^ 64) (h : I w) : I ((tick g app)^[n] w) := by
  induction n generalizing w with
  | zero => exact h
  | succ n ih =>
    have hnext : (w.tick g app).currentTick.toNat = w.currentTick.toNat + 1 := by
      rw [tick_currentTick, UInt64.toNat_add]
      exact Nat.mod_eq_of_lt
        (Nat.lt_of_le_of_lt (Nat.add_le_add_left (Nat.le_add_left 1 n) _) hlt)
    exact ih (by omega) (hstep w (by omega) h)

theorem iterate_tick_toNat (app : Callbacks κ) {n : Nat} (hlt : w.currentTick.toNat + n < 2 ^ 64) :
    ((tick g app)^[n] w).currentTick.toNat = w.currentTick.toNat + n := by
  have hn : n < UInt64.size := Nat.lt_of_le_of_lt (Nat.le_add_left n _) hlt
  rw [iterate_tick_currentTick, UInt64.toNat_add, UInt64.toNat_ofNat_of_lt' hn,
    Nat.mod_eq_of_lt hlt]

end TimerWheel

namespace TimedWheel

open TimerWheel

variable {κ : Type} {g : WheelConfig} {start : Int64} {s : TimedWheel κ} {a : Added (Stamped κ)}

theorem tickTime_strictMono : StrictMono (tickTime g start) := by
  intro m n hmn
  have := Int.mul_lt_mul_of_pos_left (Int.ofNat_lt.2 hmn) g.period_pos
  rw [tickTime, tickTime]
  omega

theorem start_le_tickTime (tick : Nat) : start.toInt ≤ tickTime g start tick :=
  Int.le_add_of_nonneg_right (Int.mul_nonneg g.period_pos.le (Int.natCast_nonneg tick))

/-- The clock is too short for the counter of ticks to wrap. -/
theorem tick_lt_of_tickTime_lt {tick : Nat} (h : tickTime g start tick < 2 ^ 63) :
    tick < 2 ^ 45 := by
  have hstart := start.le_toInt
  have hmul := Int.mul_le_mul_of_nonneg_right g.le_period (Int.natCast_nonneg tick)
  rw [tickTime] at h
  omega

theorem Kept.due_lt (h : Kept g start s) (ha : a ∈ s.wheel.added) : g.due a < 2 ^ 64 := by
  have hres : 0 < g.tickResolution.toInt.toNat := by
    have : 0 < g.tickResolution.toInt := by simpa using Int64.lt_iff_toInt_lt.1 g.resolution_pos
    omega
  have htick := h.added a ha
  have hnow := tick_lt_of_tickTime_lt (h.time ▸ h.range)
  have hdelay := a.delay.toInt_lt
  have hceil : a.delay.toInt.toNat ⌈/⌉ g.tickResolution.toInt.toNat ≤ a.delay.toInt.toNat :=
    (ceilDiv_le_iff_le_mul hres).2 (Nat.le_mul_of_pos_left _ hres)
  rw [WheelConfig.due]
  omega

/-- A call `tick(now)` that is not after the reference time does nothing. -/
theorem step_tick_of_le (app : Callbacks (Stamped κ)) {now : Int64}
    (h : now.toInt ≤ s.wheel.lastTickTime) : step g s (.tick now app) = s := by
  rw [step, tickAt, if_pos h, List.drop_length, List.map_nil, List.append_nil]

theorem Kept.add (h : Kept g start s) (delay : Int64) (callback : Option (Stamped κ)) :
    Kept g start (step g s (.addTimer delay callback)) where
  accounts := h.accounts.add (delay, callback)
  time := by cases callback <;> exact h.time
  range := by cases callback <;> exact h.range
  added := AddedBefore.add h.added (delay, callback)
  ran := h.ran.trans (add_records s.wheel (delay, callback)).1.symm
  late := h.late

/-- What a call after the reference time does to the wheel. -/
theorem Kept.tickAt (h : Kept g start s) (app : Callbacks (Stamped κ)) {now : Int64}
    (hnow : s.wheel.lastTickTime < now.toInt) :
    let n := periods g.period s.wheel.lastTickTime now.toInt
    let w := s.wheel.tickAt g app now.toInt
    Accounts g w [] 0 ∧ w.AddedBefore ∧ s.wheel.fired <+: w.fired ∧
      w.currentTick.toNat = s.wheel.currentTick.toNat + n ∧
      w.lastTickTime = tickTime g start w.currentTick.toNat ∧ w.lastTickTime ≤ now.toInt := by
  intro n w
  have hle : s.wheel.lastTickTime + g.period * n ≤ now.toInt := add_periods_le g.period_pos hnow.le
  have htime : s.wheel.lastTickTime + g.period * n =
      tickTime g start (s.wheel.currentTick.toNat + n) := by
    rw [h.time, tickTime, tickTime, Int.natCast_add, Int.mul_add, Int.add_assoc]
  have hlt : s.wheel.currentTick.toNat + n < 2 ^ 64 :=
    Nat.lt_trans (tick_lt_of_tickTime_lt (htime ▸ Int.lt_of_le_of_lt hle now.toInt_lt)) (by decide)
  have hw : w = ((tick g app)^[n] s.wheel).atTime (s.wheel.lastTickTime + g.period * n) :=
    tickAt_eq app now.toInt s.wheel
  have hcount : w.currentTick.toNat = s.wheel.currentTick.toNat + n := by
    rw [hw]
    exact iterate_tick_toNat app hlt
  refine ⟨?_, ?_, ?_, hcount, ?_, ?_⟩
  · rw [hw]
    exact (iterate_tick_keeps (I := fun v => Accounts g v [] 0) (fun _ hv ha => ha.tick app hv) n
      hlt h.accounts).atTime _
  · rw [hw]
    exact iterate_tick_keeps (I := AddedBefore) (fun _ hv ha => ha.tick app hv) n hlt h.added
  · rw [hw]
    exact iterate_tick_keeps (I := fun v => s.wheel.fired <+: v.fired)
      (fun v _ hv => hv.trans (tick_fired app v)) n hlt List.prefix_rfl
  · rw [hcount, ← htime, hw]
    rfl
  · rw [hw]
    exact hle

theorem Kept.tick (h : Kept g start s) (now : Int64) (app : Callbacks (Stamped κ)) :
    Kept g start (step g s (.tick now app)) := by
  rcases le_or_gt now.toInt s.wheel.lastTickTime with hle | hlt
  · rw [step_tick_of_le app hle]
    exact h
  · obtain ⟨haccounts, hadded, hfired, -, htime, hle⟩ := h.tickAt app hlt
    constructor
    case accounts => exact haccounts
    case time => exact htime
    case range => exact Int.lt_of_le_of_lt hle now.toInt_lt
    case added => exact hadded
    case ran =>
      rw [step, List.map_append, h.ran, List.map_map]
      dsimp only
      rw [show Prod.snd ∘ (fun f : Fired (Stamped κ) => (now.toInt, f)) = id from rfl, List.map_id]
      exact List.prefix_iff_eq_append.1 hfired
    case late =>
      intro p hp
      rcases List.mem_append.1 hp with hp | hp
      · exact h.late p hp
      · obtain ⟨f, hf, rfl⟩ := List.mem_map.1 hp
        have hpast := (haccounts.fired_due f (List.mem_of_mem_drop hf)).1
        exact (tickTime_strictMono.monotone hpast).trans (htime ▸ hle)

theorem Kept.step (h : Kept g start s) (op : TimedOp κ) : Kept g start (step g s op) := by
  cases op with
  | addTimer delay callback => exact h.add delay callback
  | tick now app => exact h.tick now app

theorem kept_run (ops : List (TimedOp κ)) : Kept g start (run g start ops) := by
  refine Reentrant.foldl_invariant (I := Kept g start) (fun _ op h => h.step op) _ ?_ ops
  constructor
  case accounts => exact accounts_empty.atTime start.toInt
  case time => simp [tickTime]
  case range => exact start.toInt_lt
  case added => exact fun _ h => by cases h
  case ran => rfl
  case late => exact fun _ h => by cases h

/-- The due tick of a pending timer is still to come. -/
theorem Kept.currentTick_lt_due (h : Kept g start s) {i : Nat} (ha : s.wheel.added[i]? = some a)
    (hpending : ∀ p ∈ s.ran, p.2.serial ≠ i) : s.wheel.currentTick.toNat < g.due a := by
  have hdue := h.due_lt (List.mem_of_getElem? ha)
  rcases h.accounts.waiting_or_fired i (List.getElem?_eq_some_iff.1 ha).1 with hmem | ⟨t, ht, rfl⟩
  · rw [← h.ran, List.map_map] at hmem
    obtain ⟨p, hp, rfl⟩ := List.mem_map.1 hmem
    exact absurd rfl (hpending p hp)
  · obtain hnil | ⟨k, hk⟩ := ht
    · cases hnil
    · exact h.accounts.slots_later k t hk a ha hdue

theorem extends_step (s : TimedWheel κ) (op : TimedOp κ) : Extends s (step g s op) := by
  cases op with
  | addTimer delay callback =>
    exact ⟨⟨_, (add_records s.wheel (delay, callback)).2.symm⟩, List.prefix_rfl⟩
  | tick now app =>
    refine ⟨?_, List.prefix_append _ _⟩
    change s.wheel.added <+: (s.wheel.tickAt g app now.toInt).added
    rw [tickAt_eq]
    exact iterate_tick_added app _ s.wheel

theorem extends_foldl (s : TimedWheel κ) (more : List (TimedOp κ)) :
    Extends s (more.foldl (step g) s) :=
  Reentrant.foldl_rel Extends.refl Extends.trans extends_step s more

/-- A timer runs in a call that has reached the time of its due tick. -/
theorem Kept.tickTime_due_le (h : Kept g start s) {p : Int × Fired (Stamped κ)} (hp : p ∈ s.ran)
    (ha : s.wheel.added[p.2.serial]? = some a) : tickTime g start (g.due a) ≤ p.1 := by
  obtain ⟨-, b, hb, -, htick⟩ := h.accounts.fired_due p.2 (h.ran ▸ List.mem_map_of_mem hp)
  obtain rfl : a = b := Option.some.inj (ha.symm.trans hb)
  rw [← htick (h.due_lt (List.mem_of_getElem? ha))]
  exact h.late p hp

theorem Kept.ran_unique (h : Kept g start s) {p q : Int × Fired (Stamped κ)} (hp : p ∈ s.ran)
    (hq : q ∈ s.ran) (heq : p.2.serial = q.2.serial) : p = q := by
  have hnodup : (s.ran.map fun p => p.2.serial).Nodup := by
    have := h.accounts.fired_nodup
    rwa [← h.ran, List.map_map] at this
  exact List.inj_on_of_nodup_map hnodup hp hq heq

/-- A timer that is pending, or is added in the call, runs in it just if the call reaches the time
of its due tick. -/
theorem Kept.ran_step_iff (h : Kept g start s) {i : Nat} (hpending : ∀ p ∈ s.ran, p.2.serial ≠ i)
    {op : TimedOp κ} (ha : (TimedWheel.step g s op).wheel.added[i]? = some a) (now : Int) :
    (∃ f, f.serial = i ∧ (now, f) ∈ (TimedWheel.step g s op).ran) ↔
      reaches (tickTime g start (g.due a)) op = some now := by
  have hkept := h.step op
  cases op with
  | addTimer delay callback =>
    exact iff_of_false (fun ⟨f, hf, hmem⟩ => hpending _ hmem hf) nofun
  | tick now' app =>
    rw [reaches]
    constructor
    · rintro ⟨f, rfl, hmem⟩
      have hdue := hkept.tickTime_due_le hmem ha
      rcases List.mem_append.1 hmem with hold | hnew
      · exact absurd rfl (hpending _ hold)
      · obtain ⟨_, -, heq⟩ := List.mem_map.1 hnew
        obtain ⟨rfl, -⟩ := Prod.mk.inj heq
        exact if_pos hdue
    · intro hreaches
      split at hreaches
      case isFalse => cases hreaches
      case isTrue hnow =>
        cases hreaches
        have hafter : s.wheel.lastTickTime < now'.toInt := by
          by_contra hle
          rw [step_tick_of_le app (Int.not_lt.1 hle)] at ha
          have hlater : tickTime g start _ < tickTime g start _ :=
            tickTime_strictMono (h.currentTick_lt_due ha hpending)
          rw [← h.time] at hlater
          exact hle (hlater.trans_le hnow)
        obtain ⟨-, -, -, hcount, -⟩ := h.tickAt app hafter
        -- the call makes at least the ticks up to the due one
        have hreached : g.due a ≤ (s.wheel.tickAt g app now'.toInt).currentTick.toNat := by
          rw [hcount]
          rcases Nat.le_total (g.due a) s.wheel.currentTick.toNat with hpast | hahead
          · exact hpast.trans (Nat.le_add_right _ _)
          · refine Nat.sub_le_iff_le_add'.1 (le_periods g.period_pos _ ?_)
            rw [h.time, tickTime, Int.add_assoc, ← Int.mul_add, ← Int.natCast_add,
              Nat.add_sub_cancel' hahead]
            exact hnow
        have hfired := (hkept.accounts.firedOf_eq ha
          (hkept.due_lt (List.mem_of_getElem? ha))).trans (if_pos hreached)
        have hmem : (⟨i, g.due a, a.callback⟩ : Fired (Stamped κ)) ∈
            (TimedWheel.step g s (.tick now' app)).wheel.fired :=
          (List.mem_filter.1 (hfired ▸ List.mem_singleton_self _)).1
        rw [← hkept.ran] at hmem
        obtain ⟨p, hp, hpf⟩ := List.mem_map.1 hmem
        rcases List.mem_append.1 hp with hold | hnew
        · exact absurd (congrArg Fired.serial hpf) (hpending p hold)
        · obtain ⟨f, -, rfl⟩ := List.mem_map.1 hnew
          exact ⟨f, congrArg Fired.serial hpf, hp⟩

/-- A timer runs in the first call that reaches the time of its due tick, from the one on that it
was added in. -/
theorem Kept.ran_iff (h : Kept g start s) {i : Nat} (hpending : ∀ p ∈ s.ran, p.2.serial ≠ i)
    {op : TimedOp κ} (ha : (TimedWheel.step g s op).wheel.added[i]? = some a)
    (calls : List (TimedOp κ)) (now : Int) :
    (∃ f, f.serial = i ∧ (now, f) ∈ ((op :: calls).foldl (TimedWheel.step g) s).ran) ↔
      (op :: calls).findSome? (reaches (tickTime g start (g.due a))) = some now := by
  induction calls generalizing s op with
  | nil =>
    rw [List.findSome?_singleton]
    exact h.ran_step_iff hpending ha now
  | cons next calls ih =>
    rw [List.findSome?_cons, List.foldl_cons]
    cases hop : reaches (tickTime g start (g.due a)) op with
    | some first =>
      obtain ⟨f, rfl, hmem⟩ := (h.ran_step_iff hpending ha first).2 hop
      have hran := (extends_foldl (g := g) _ (next :: calls)).ran.subset hmem
      have hkept : Kept g start ((next :: calls).foldl (TimedWheel.step g) _) :=
        Reentrant.foldl_invariant (fun _ op h => h.step op) _ (h.step op) _
      constructor
      · rintro ⟨f', hf', hmem'⟩
        cases hkept.ran_unique hran hmem' hf'.symm
        rfl
      · rintro ⟨⟩
        exact ⟨f, rfl, hran⟩
    | none =>
      refine ih (h.step op) (fun p hp heq => ?_) ((extends_step _ next).added_eq ha)
      cases hop.symm.trans ((h.ran_step_iff hpending ha p.1).1 ⟨p.2, heq, hp⟩)

theorem reaches_eq_some {time now : Int} {op : TimedOp κ} (h : reaches time op = some now) :
    time ≤ now ∧ ∃ now' app, op = .tick now' app ∧ now'.toInt = now := by
  cases op with
  | addTimer delay callback => cases h
  | tick now' app =>
    rw [reaches] at h
    split at h
    · cases h
      exact ⟨‹_›, now', app, rfl, rfl⟩
    · cases h

/-- There is a call at each time of the clock's range. -/
theorem exists_reaches {time later : Int} (hstart : start.toInt ≤ time)
    (hlt : max later time < 2 ^ 63) :
    ∃ op : TimedOp κ, (∀ now app, .tick now app = op → later ≤ now.toInt) ∧
      reaches time op = some (max later time) := by
  have hnow := Int64.toInt_ofInt_of_le (start.le_toInt.trans (hstart.trans (le_max_right _ _))) hlt
  refine ⟨.tick (.ofInt (max later time)) fun _ _ => [], ?_, ?_⟩
  · rintro now app ⟨⟩
    exact hnow.symm ▸ le_max_left _ _
  · rw [reaches, hnow, if_pos (le_max_right _ _)]

/-- A timer is run in time, in every course of the calls to come, just if the delay is over by
the earliest `now` it can be run with.  The calls to come may be at any times from `later` on:
`later` is the time of the `addTimer` for a clock that does not go back, and may be any time
before for one that does.  A timer whose earliest `now` is out of the range of the clock is
never run. -/
theorem delayOver_le_now_iff (before calls : List (TimedOp κ)) (op : TimedOp κ) (i : Nat)
    (a : Added (Stamped κ)) (hnew : (run g start before).wheel.added.length ≤ i)
    (ha : (run g start (before ++ [op])).wheel.added[i]? = some a) (later : Int) :
    (∀ more : List (TimedOp κ), (∀ now app, TimedOp.tick now app ∈ more → later ≤ now.toInt) →
      ∀ now f, (now, f) ∈ (run g start (before ++ op :: calls ++ more)).ran → f.serial = i →
        delayOver a ≤ now) ↔
    delayOver a ≤ earliest g start (op :: calls) a later ∨
      2 ^ 63 ≤ earliest g start (op :: calls) a later := by
  have hkept : Kept g start (run g start before) := kept_run before
  have hpending : ∀ p ∈ (run g start before).ran, p.2.serial ≠ i := by
    rintro p hp rfl
    obtain ⟨-, b, hb, -⟩ := hkept.accounts.fired_due p.2 (hkept.ran ▸ List.mem_map_of_mem hp)
    exact Nat.not_lt_of_le hnew (List.getElem?_eq_some_iff.1 hb).1
  rw [run, List.foldl_concat] at ha
  set time := tickTime g start (g.due a) with htime
  have hran : ∀ more now,
      (∃ f, f.serial = i ∧ (now, f) ∈ (run g start (before ++ op :: calls ++ more)).ran) ↔
        ((op :: calls).findSome? (reaches time)).or (more.findSome? (reaches time)) = some now := by
    intro more now
    rw [← List.findSome?_append, run, List.append_assoc, List.foldl_append]
    exact hkept.ran_iff hpending ha (calls ++ more) now
  rw [earliest, ← htime]
  cases hfirst : (op :: calls).findSome? (reaches time) with
  | some first =>
    rw [hfirst] at hran
    constructor
    · intro h
      obtain ⟨f, hf, hmem⟩ := (hran [] first).2 rfl
      exact .inl (h [] nofun first f hmem hf)
    · rintro (hle | hout) more - now f hmem hf
      · cases (hran more now).1 ⟨f, hf, hmem⟩
        exact hle
      · obtain ⟨_, -, hreaches⟩ := List.exists_of_findSome?_eq_some hfirst
        obtain ⟨-, now', -, -, rfl⟩ := reaches_eq_some hreaches
        exact absurd hout (Int.not_le.2 now'.toInt_lt)
  | none =>
    rw [hfirst] at hran
    constructor
    · intro h
      rcases lt_or_ge (max later time) (2 ^ 63) with hlt | hge
      · obtain ⟨(call : TimedOp κ), hcall, hreaches⟩ := exists_reaches (start_le_tickTime _) hlt
        obtain ⟨f, hf, hmem⟩ := (hran [call] _).2 (List.findSome?_singleton.trans hreaches)
        refine .inl (h [call] (fun now app hnow => ?_) _ f hmem hf)
        exact hcall now app (List.mem_singleton.1 hnow)
      · exact .inr hge
    · rintro hearly more hmore now f hmem hf
      obtain ⟨_, hcall, hreaches⟩ :=
        List.exists_of_findSome?_eq_some ((hran more now).1 ⟨f, hf, hmem⟩)
      obtain ⟨hdue, now', app, rfl, rfl⟩ := reaches_eq_some hreaches
      have hmax := max_le (hmore now' app hcall) hdue
      rcases hearly with hle | hout
      · exact hle.trans hmax
      · exact absurd (hout.trans hmax) (Int.not_le.2 now'.toInt_lt)

/-- A timer of 25 ms added at the start of a wheel of 10 ms waits for the tick at 30 ms. -/
theorem delayOver_le_now_iff_at_start :
    let g : WheelConfig := ⟨10, 8, by decide, by decide⟩
    let a : Added (Stamped Unit) := ⟨0, 25, ⟨(), 0⟩⟩
    let op : TimedOp Unit := .addTimer 25 (some ⟨(), 0⟩)
    (run g 0 [op]).wheel.added[0]? = some a ∧ earliest g 0 [op] a 0 = 30000000 ∧
      ∀ more : List (TimedOp Unit), (∀ now app, TimedOp.tick now app ∈ more → 0 ≤ now.toInt) →
        ∀ now f, (now, f) ∈ (run g 0 ([op] ++ more)).ran → f.serial = 0 → delayOver a ≤ now := by
  intro g a op
  have ha : (run g 0 [op]).wheel.added[0]? = some a := by decide +kernel
  have hearliest : earliest g 0 [op] a 0 = 30000000 := by decide +kernel
  have hiff := delayOver_le_now_iff (g := g) [] [] op 0 a (by decide) ha 0
  have hover : delayOver a ≤ 30000000 := by decide +kernel
  exact ⟨ha, hearliest, hiff.2 (.inl (hover.trans_eq hearliest.symm))⟩

/-- On a wheel of 100 ms a timer of 100 ms is added 99 ms after the last tick, and runs 1 ms
later, in the next one.  A callback that is run late, in a call that catches up on ten ticks,
adds a timer of 100 ms that runs in the very same call. -/
theorem runs_before_delayOver :
    let g : WheelConfig := ⟨100, 512, by decide, by decide⟩
    let rearm : Callbacks (Stamped Unit) := fun _ _ => [(100, some ⟨(), 1000000000⟩)]
    ((run g 0 [.addTimer 100 (some ⟨(), 99000000⟩), .tick 100000000 fun _ _ => []]).ran =
        [(100000000, ⟨0, 1, ⟨(), 99000000⟩⟩)] ∧
      delayOver (⟨0, 100, ⟨(), 99000000⟩⟩ : Added (Stamped Unit)) = 199000000) ∧
    ((1000000000, ⟨1, 2, ⟨(), 1000000000⟩⟩) ∈
        (run g 0 [.addTimer 100 (some ⟨(), 0⟩), .tick 1000000000 rearm]).ran ∧
      delayOver (⟨1, 100, ⟨(), 1000000000⟩⟩ : Added (Stamped Unit)) = 1100000000) := by
  decide +kernel

end TimedWheel

end HyperNet.Core
