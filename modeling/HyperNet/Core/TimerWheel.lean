import HyperNet.Lib.Reentrant
import Mathlib.Algebra.Order.Floor.Div
import Mathlib.Data.List.Perm.Basic
import Mathlib.Logic.Function.Basic

/-!
# The timer wheel

`TimerWheel` hangs each timer into the slot `expirationTick % slotCount`.  A tick takes
the slot of the new tick away, fires what has expired and hangs the rest back, while
the callbacks of the fired timers may add timers, also into the slot just emptied.

The state records, besides what the source keeps, the history a statement about firing
needs: every `addTimer` with the tick it was made in, and every callback run with the
tick it ran in.  A timer carries the number of its `addTimer` call.

The proofs rest on one account of where each timer is, `Accounts`: fired, in a slot, or
taken out by the tick in progress and not yet looked at.
-/

namespace HyperNet.Core

/-- The constant members of a wheel: what its constructor has checked. -/
structure WheelConfig where
  tickResolution : Int64
  slotCount : Nat
  resolution_pos : 0 < tickResolution
  slotCount_pos : 0 < slotCount

/-- The checks of the constructor `TimerWheel(tickResolution, slotCount)`. -/
def WheelConfig.make (tickResolution : Int64) (slotCount : Nat) : Except String WheelConfig :=
  if hr : 0 < tickResolution then
    if hs : 0 < slotCount then .ok ⟨tickResolution, slotCount, hr, hs⟩
    else .error "TimerWheel slotCount must be > 0"
  else .error "TimerWheel tickResolution must be > 0"

structure Timer (κ : Type) where
  id : UInt64
  expirationTick : UInt64
  callback : κ
  /-- History: which `addTimer` call made it. -/
  serial : Nat

/-- History: an `addTimer` call. -/
structure Added (κ : Type) where
  tick : Nat
  delay : Int64
  callback : κ
  deriving DecidableEq

/-- History: a callback run. -/
structure Fired (κ : Type) where
  serial : Nat
  tick : Nat
  callback : κ
  deriving DecidableEq

structure TimerWheel (κ : Type) where
  slots : Nat → List (Timer κ) := fun _ => []
  /-- In nanoseconds of the steady clock. -/
  lastTickTime : Int := 0
  currentTick : UInt64 := 0
  nextId : UInt64 := 1
  activeTimers : Nat := 0
  added : List (Added κ) := []
  fired : List (Fired κ) := []

namespace WheelConfig

variable (g : WheelConfig)

def slotIndex (tick : UInt64) : Nat := tick.toNat % g.slotCount

def durationToTicks (delay : Int64) : UInt64 :=
  if delay ≤ 0 then 0
  else (delay.toUInt64 + g.tickResolution.toUInt64 - 1) / g.tickResolution.toUInt64

/-- The tick a timer is to fire in, as a number. -/
def due {κ : Type} (a : Added κ) : Nat :=
  a.tick + max 1 (a.delay.toInt.toNat ⌈/⌉ g.tickResolution.toInt.toNat)

end WheelConfig

namespace TimerWheel

variable {κ : Type} (g : WheelConfig)

def pendingTimers (w : TimerWheel κ) : Nat := w.activeTimers

/-- The id given out and the wheel after it; 0 is never given out. -/
def nextTimerId (w : TimerWheel κ) : UInt64 × TimerWheel κ :=
  (w.nextId, { w with nextId := if w.nextId + 1 = 0 then 1 else w.nextId + 1 })

/-- `push_back` into the slot of the timer's expiration tick. -/
def hang (w : TimerWheel κ) (t : Timer κ) : TimerWheel κ :=
  let i := g.slotIndex t.expirationTick
  { w with slots := Function.update w.slots i (w.slots i ++ [t]) }

def addTimer (w : TimerWheel κ) (delay : Int64) (callback : Option κ) :
    Except String (UInt64 × TimerWheel κ) :=
  match callback with
  | none => .error "TimerWheel::addTimer requires a valid callback"
  | some callback =>
    let ticks := g.durationToTicks delay
    let delayTicks := if ticks = 0 then 1 else ticks
    let expirationTick := w.currentTick + delayTicks
    let (id, w) := w.nextTimerId
    let w := w.hang g ⟨id, expirationTick, callback, w.added.length⟩
    .ok (id, { w with
      activeTimers := w.activeTimers + 1
      added := w.added ++ [⟨w.currentTick.toNat, delay, callback⟩] })

/-- The wheel after an `addTimer` whose exception, if any, the caller has caught. -/
def add (w : TimerWheel κ) (call : Int64 × Option κ) : TimerWheel κ :=
  match w.addTimer g call.1 call.2 with
  | .ok (_, w') => w'
  | .error _ => w

/-- What the callbacks do: the `addTimer` calls each makes when it is run. -/
abbrev Callbacks (κ : Type) := κ → TimerWheel κ → List (Int64 × Option κ)

/-- History: the callback of `t` starts to run. -/
def logFired (w : TimerWheel κ) (t : Timer κ) : TimerWheel κ :=
  { w with fired := w.fired ++ [⟨t.serial, w.currentTick.toNat, t.callback⟩] }

/-- The callback of `t` runs. -/
def runCallback (app : Callbacks κ) (w : TimerWheel κ) (t : Timer κ) : TimerWheel κ :=
  (app t.callback (w.logFired t)).foldl (add g) (w.logFired t)

/-- One turn of the loop over the timers taken out of the slot. -/
def processTimer (app : Callbacks κ) (w : TimerWheel κ) (t : Timer κ) : TimerWheel κ :=
  if t.expirationTick ≤ w.currentTick then
    let w := w.runCallback g app t
    if 0 < w.activeTimers then { w with activeTimers := w.activeTimers - 1 } else w
  else w.hang g t

def processCurrentTick (app : Callbacks κ) (w : TimerWheel κ) : TimerWheel κ :=
  let i := g.slotIndex w.currentTick
  match w.slots i with
  | [] => w
  | scratch => scratch.foldl (processTimer g app) { w with slots := Function.update w.slots i [] }

def tick (app : Callbacks κ) (w : TimerWheel κ) : TimerWheel κ :=
  processCurrentTick g app { w with currentTick := w.currentTick + 1 }

/-- `tick(now)`: as many ticks as whole resolutions have passed. -/
def tickAt (app : Callbacks κ) (now : Int) (w : TimerWheel κ) : TimerWheel κ :=
  if now ≤ w.lastTickTime then w
  else
    let elapsedMs := (now - w.lastTickTime) / 1000000
    if elapsedMs < g.tickResolution.toInt then w
    else
      let ticksToAdvance := (elapsedMs / g.tickResolution.toInt).toNat
      let w := (tick g app)^[ticksToAdvance] w
      { w with
        lastTickTime := w.lastTickTime + g.tickResolution.toInt * ticksToAdvance * 1000000 }

/-- What a user does with a wheel. -/
inductive Op (κ : Type) where
  | addTimer (delay : Int64) (callback : Option κ)
  | tick (app : Callbacks κ)

/-- How many ticks the operation makes. -/
def Op.ticks : Op κ → Nat
  | .addTimer _ _ => 0
  | .tick _ => 1

def step (w : TimerWheel κ) : Op κ → TimerWheel κ
  | .addTimer delay callback => w.add g (delay, callback)
  | .tick app => w.tick g app

/-- The state of a new wheel after these operations. -/
def run (ops : List (Op κ)) : TimerWheel κ := ops.foldl (step g) {}

/-- What the history has of `addTimer` calls made in a tick; a call without a callback throws. -/
def recorded (tick : Nat) (calls : List (Int64 × Option κ)) : List (Added κ) :=
  calls.filterMap fun call => call.2.map (⟨tick, call.1, ·⟩)

/-- What an operation in tick `now` leaves in the history: the user's `addTimer` call, or the
callback runs of the tick, each with the wheel it finds, and the `addTimer` calls they make. -/
def Op.Records (now : Nat) (w w' : TimerWheel κ) : Op κ → Prop
  | .addTimer delay callback =>
    w'.fired = w.fired ∧ w'.added = w.added ++ recorded now [(delay, callback)]
  | .tick app => ∃ runs : List (TimerWheel κ × Fired κ),
    (∀ r ∈ runs, r.1.fired.getLast? = some r.2) ∧ w'.fired = w.fired ++ runs.map Prod.snd ∧
      w'.added = w.added ++ runs.flatMap fun r => recorded now (app r.2.callback r.1)

/-- The callback runs of the timer made by call number `i`. -/
def firedOf (w : TimerWheel κ) (i : Nat) : List (Fired κ) := w.fired.filter (·.serial = i)

/-- The numbers of the `addTimer` calls whose timers have not fired. -/
def unfired (w : TimerWheel κ) : List Nat :=
  (List.range w.added.length).filter (· ∉ w.fired.map Fired.serial)

end TimerWheel

/-! ## Ticks as numbers -/

theorem toNat_toUInt64_of_pos {x : Int64} (h : 0 < x) : x.toUInt64.toNat = x.toInt.toNat := by
  have hpos : 0 < x.toInt := by simpa using Int64.lt_iff_toInt_lt.1 h
  have hcond := BitVec.toInt_eq_toNat_cond x.toUInt64.toBitVec
  have hint : x.toInt = x.toUInt64.toBitVec.toInt := rfl
  have hnat : x.toUInt64.toBitVec.toNat = x.toUInt64.toNat := rfl
  have hlt := x.toUInt64.toNat_lt
  split at hcond <;> omega

namespace WheelConfig

variable {κ : Type} (g : WheelConfig)

theorem toNat_durationToTicks (delay : Int64) :
    (g.durationToTicks delay).toNat = delay.toInt.toNat ⌈/⌉ g.tickResolution.toInt.toNat := by
  have hres := toNat_toUInt64_of_pos g.resolution_pos
  have hpos : 0 < g.tickResolution.toInt := by
    simpa using Int64.lt_iff_toInt_lt.1 g.resolution_pos
  have hresLt := g.tickResolution.toInt_lt
  rw [durationToTicks, Nat.ceilDiv_eq_add_pred_div]
  split
  case isTrue h =>
    have hneg : delay.toInt ≤ 0 := by simpa using Int64.le_iff_toInt_le.1 h
    rw [Int.toNat_of_nonpos hneg, Nat.zero_add, Nat.div_eq_of_lt (by omega)]
    rfl
  case isFalse h =>
    -- both summands are below `2 ^ 63`: the sum of the source does not wrap
    have hdelay := toNat_toUInt64_of_pos (Int64.not_le.1 h)
    have hdelayLt := delay.toInt_lt
    have hone : (1 : UInt64).toNat = 1 := rfl
    rw [UInt64.toNat_div, UInt64.toNat_sub, UInt64.toNat_add, hres, hdelay, hone]
    congr 1
    omega

/-- The expiration tick computed by `addTimer` is the due tick, as far as the counter
goes. -/
theorem toNat_expirationTick (tick : UInt64) (delay : Int64) (callback : κ) :
    (tick + if g.durationToTicks delay = 0 then 1 else g.durationToTicks delay).toNat =
      g.due (⟨tick.toNat, delay, callback⟩ : Added κ) % 2 ^ 64 := by
  rw [UInt64.toNat_add, due, ← toNat_durationToTicks]
  congr 2
  dsimp only
  split
  case isTrue h => rw [h]; rfl
  case isFalse h =>
    have : (g.durationToTicks delay).toNat ≠ 0 := fun h0 => h (UInt64.toNat_inj.1 h0)
    omega

end WheelConfig

namespace TimerWheel

variable {κ : Type} {g : WheelConfig} {w : TimerWheel κ} {rest : List (Timer κ)} {owed : Nat}
  {t : Timer κ}

/-! ## Where each timer is -/

/-- A timer that has not fired: still to be looked at by the tick in progress, or in a
slot. -/
def Waiting (w : TimerWheel κ) (rest : List (Timer κ)) (t : Timer κ) : Prop :=
  t ∈ rest ∨ ∃ k, t ∈ w.slots k

/-- The state of a wheel with `rest` taken out by the tick in progress.  `owed` counts the
timers that have fired and are not yet taken off `activeTimers`: one while a callback
runs. -/
structure Accounts (g : WheelConfig) (w : TimerWheel κ) (rest : List (Timer κ)) (owed : Nat) :
    Prop where
  known : ∀ t, w.Waiting rest t → ∃ a, w.added[t.serial]? = some a ∧
    t.expirationTick.toNat = g.due a % 2 ^ 64 ∧ t.callback = a.callback
  placed : ∀ k, ∀ t ∈ w.slots k, k = g.slotIndex t.expirationTick
  slots_nodup : ∀ k, ((w.slots k).map Timer.serial).Nodup
  rest_nodup : (rest.map Timer.serial).Nodup
  apart : ∀ t ∈ rest, ∀ k, ∀ u ∈ w.slots k, t.serial ≠ u.serial
  waiting_or_fired : ∀ i < w.added.length,
    i ∈ w.fired.map Fired.serial ∨ ∃ t, w.Waiting rest t ∧ t.serial = i
  waiting_unfired : ∀ t, w.Waiting rest t → t.serial ∉ w.fired.map Fired.serial
  fired_nodup : (w.fired.map Fired.serial).Nodup
  fired_due : ∀ f ∈ w.fired, f.tick ≤ w.currentTick.toNat ∧ ∃ a, w.added[f.serial]? = some a ∧
    f.callback = a.callback ∧ (g.due a < 2 ^ 64 → f.tick = g.due a)
  slots_later : ∀ k, ∀ t ∈ w.slots k, ∀ a, w.added[t.serial]? = some a → g.due a < 2 ^ 64 →
    w.currentTick.toNat < g.due a
  rest_later : ∀ t ∈ rest, ∀ a, w.added[t.serial]? = some a → g.due a < 2 ^ 64 →
    w.currentTick.toNat ≤ g.due a
  active : w.activeTimers + w.fired.length = w.added.length + owed

theorem accounts_empty : Accounts g ({} : TimerWheel κ) [] 0 where
  known := by rintro t (h | ⟨k, h⟩) <;> cases h
  placed := fun _ _ h => by cases h
  slots_nodup := fun _ => List.nodup_nil
  rest_nodup := List.nodup_nil
  apart := fun _ h => by cases h
  waiting_or_fired := fun _ h => by cases h
  waiting_unfired := by rintro t (h | ⟨k, h⟩) <;> cases h
  fired_nodup := List.nodup_nil
  fired_due := fun _ h => by cases h
  slots_later := fun _ _ h => by cases h
  rest_later := fun _ h => by cases h
  active := rfl

namespace Accounts

variable (h : Accounts g w rest owed)
include h

/-- The numbers in use are those of calls made. -/
theorem serial_lt (ht : w.Waiting rest t) : t.serial < w.added.length := by
  obtain ⟨a, ha, -, -⟩ := h.known t ht
  exact (List.getElem?_eq_some_iff.1 ha).1

theorem fired_lt {f : Fired κ} (hf : f ∈ w.fired) : f.serial < w.added.length := by
  obtain ⟨-, a, ha, -⟩ := h.fired_due f hf
  exact (List.getElem?_eq_some_iff.1 ha).1

/-- The expiration tick of a timer is its due tick, unless that is out of range. -/
theorem expirationTick_eq (ht : w.Waiting rest t) {a : Added κ} (ha : w.added[t.serial]? = some a)
    (hdue : g.due a < 2 ^ 64) : t.expirationTick.toNat = g.due a := by
  obtain ⟨b, hb, hexp, -⟩ := h.known t ht
  obtain rfl : a = b := Option.some.inj (ha.symm.trans hb)
  rw [hexp, Nat.mod_eq_of_lt hdue]

/-- Timers of one number have one expiration tick. -/
theorem expirationTick_congr {u : Timer κ} (ht : w.Waiting rest t) (hu : w.Waiting rest u)
    (heq : t.serial = u.serial) : t.expirationTick = u.expirationTick := by
  obtain ⟨a, ha, hat, -⟩ := h.known t ht
  obtain ⟨b, hb, hbu, -⟩ := h.known u hu
  obtain rfl : a = b := Option.some.inj (ha.symm.trans (heq ▸ hb))
  exact UInt64.toNat_inj.1 (hat.trans hbu.symm)

end Accounts

@[simp] theorem mem_hang_slots {t u : Timer κ} {k : Nat} :
    u ∈ (w.hang g t).slots k ↔ u ∈ w.slots k ∨ (u = t ∧ k = g.slotIndex t.expirationTick) := by
  rw [hang]
  by_cases hk : k = g.slotIndex t.expirationTick
  · subst hk
    simp
  · simp [hk]

theorem waiting_cons {t u : Timer κ} : w.Waiting (t :: rest) u ↔ u = t ∨ w.Waiting rest u := by
  rw [Waiting, Waiting, List.mem_cons, or_assoc]

/-- Hanging a timer is waiting for it, wherever it hangs. -/
theorem waiting_hang {t u : Timer κ} : (w.hang g t).Waiting rest u ↔ w.Waiting (t :: rest) u := by
  simp only [Waiting, mem_hang_slots, List.mem_cons, exists_or, exists_and_left, exists_eq,
    and_true]
  constructor
  · rintro (h | h | h)
    exacts [.inl (.inr h), .inr h, .inl (.inl h)]
  · rintro ((h | h) | h)
    exacts [.inr (.inr h), .inl h, .inr (.inl h)]

/-- A timer that is not due yet goes back to its slot. -/
theorem Accounts.hang (h : Accounts g w (t :: rest) owed)
    (hlater : ∀ a, w.added[t.serial]? = some a → g.due a < 2 ^ 64 → w.currentTick.toNat < g.due a) :
    Accounts g (w.hang g t) rest owed where
  __ := h
  known u hu := h.known u (waiting_hang.1 hu)
  placed k u hu := by
    rcases mem_hang_slots.1 hu with hu | ⟨rfl, hk⟩
    exacts [h.placed k u hu, hk]
  slots_nodup k := by
    by_cases hk : k = g.slotIndex t.expirationTick
    · subst hk
      have hnew : t.serial ∉ (w.slots (g.slotIndex t.expirationTick)).map Timer.serial := by
        intro hmem
        obtain ⟨u, hu, heq⟩ := List.mem_map.1 hmem
        exact h.apart t List.mem_cons_self _ u hu heq.symm
      simpa [TimerWheel.hang] using
        List.nodup_append.2 ⟨h.slots_nodup _, List.nodup_singleton t.serial,
          by simpa using fun u hu heq => hnew (List.mem_map.2 ⟨u, hu, heq⟩)⟩
    · simpa [TimerWheel.hang, hk] using h.slots_nodup k
  rest_nodup := (List.nodup_cons.1 h.rest_nodup).2
  apart u hu k v hv := by
    rcases mem_hang_slots.1 hv with hv | ⟨rfl, -⟩
    · exact h.apart u (List.mem_cons_of_mem _ hu) k v hv
    · exact fun heq => (List.nodup_cons.1 h.rest_nodup).1 (List.mem_map.2 ⟨u, hu, heq⟩)
  waiting_or_fired i hi := by
    rcases h.waiting_or_fired i hi with hf | ⟨u, hu, heq⟩
    exacts [.inl hf, .inr ⟨u, waiting_hang.2 hu, heq⟩]
  waiting_unfired u hu := h.waiting_unfired u (waiting_hang.1 hu)
  slots_later k u hu a ha := by
    rcases mem_hang_slots.1 hu with hu | ⟨rfl, -⟩
    exacts [h.slots_later k u hu a ha, hlater a ha]
  rest_later u hu := h.rest_later u (List.mem_cons_of_mem _ hu)

/-- A new timer, made in the current tick and due after it. -/
theorem Accounts.enter (next : UInt64) {a : Added κ} (h : Accounts g w rest owed)
    (hserial : t.serial = w.added.length) (hdue : t.expirationTick.toNat = g.due a % 2 ^ 64)
    (hcallback : t.callback = a.callback) (hlater : w.currentTick.toNat ≤ g.due a) :
    Accounts g { w with
      nextId := next, activeTimers := w.activeTimers + 1, added := w.added ++ [a] }
      (t :: rest) owed := by
  have hold : ∀ u, w.Waiting rest u → (w.added ++ [a])[u.serial]? = w.added[u.serial]? :=
    fun u hu => List.getElem?_append_left (h.serial_lt hu)
  have hnew : (w.added ++ [a])[t.serial]? = some a := by rw [hserial]; simp
  have hfresh : ∀ u, w.Waiting rest u → t.serial ≠ u.serial := by
    intro u hu heq
    have := h.serial_lt hu
    omega
  constructor
  case known =>
    intro u hu
    rcases waiting_cons.1 hu with rfl | hu
    · exact ⟨a, hnew, hdue, hcallback⟩
    · obtain ⟨b, hb, hrest⟩ := h.known u hu
      exact ⟨b, (hold u hu).trans hb, hrest⟩
  case placed => exact h.placed
  case slots_nodup => exact h.slots_nodup
  case rest_nodup =>
    refine List.nodup_cons.2 ⟨?_, h.rest_nodup⟩
    intro hmem
    obtain ⟨u, hu, heq⟩ := List.mem_map.1 hmem
    exact hfresh u (.inl hu) heq.symm
  case apart =>
    intro u hu k v hv
    rcases List.mem_cons.1 hu with rfl | hu
    exacts [hfresh v (.inr ⟨k, hv⟩), h.apart u hu k v hv]
  case waiting_or_fired =>
    intro i hi
    rcases Nat.lt_or_ge i w.added.length with hlt | hge
    · rcases h.waiting_or_fired i hlt with hf | ⟨u, hu, heq⟩
      · exact .inl hf
      · exact .inr ⟨u, waiting_cons.2 (.inr hu), heq⟩
    · rw [List.length_append, List.length_singleton] at hi
      exact .inr ⟨t, .inl List.mem_cons_self, by omega⟩
  case waiting_unfired =>
    intro u hu
    rcases waiting_cons.1 hu with rfl | hu
    · intro hmem
      obtain ⟨f, hf, heq⟩ := List.mem_map.1 hmem
      exact Nat.lt_irrefl _ (hserial ▸ heq ▸ h.fired_lt hf)
    · exact h.waiting_unfired u hu
  case fired_nodup => exact h.fired_nodup
  case fired_due =>
    intro f hf
    obtain ⟨htick, b, hb, hrest⟩ := h.fired_due f hf
    exact ⟨htick, b, (List.getElem?_append_left (h.fired_lt hf)).trans hb, hrest⟩
  case slots_later =>
    intro k u hu b hb
    exact h.slots_later k u hu b ((hold u (.inr ⟨k, hu⟩)).symm.trans hb)
  case rest_later =>
    intro u hu b hb hlt
    rcases List.mem_cons.1 hu with rfl | hu
    · obtain rfl : a = b := Option.some.inj (hnew.symm.trans hb)
      exact hlater
    · exact h.rest_later u hu b ((hold u (.inl hu)).symm.trans hb) hlt
  case active =>
    have := h.active
    rw [List.length_append, List.length_singleton]
    dsimp only
    omega

theorem currentTick_lt_due (w : TimerWheel κ) (delay : Int64) (callback : κ) :
    w.currentTick.toNat < g.due (⟨w.currentTick.toNat, delay, callback⟩ : Added κ) := by
  rw [WheelConfig.due]
  exact Nat.lt_add_of_pos_right (Nat.lt_of_lt_of_le Nat.one_pos (Nat.le_max_left _ _))

/-- An `addTimer` enters the timer in the account and hangs it in its slot. -/
theorem add_some (w : TimerWheel κ) (delay : Int64) (callback : κ) :
    w.add g (delay, some callback) =
      hang g { w with
        nextId := w.nextTimerId.2.nextId
        activeTimers := w.activeTimers + 1
        added := w.added ++ [⟨w.currentTick.toNat, delay, callback⟩] }
        ⟨w.nextTimerId.1, w.currentTick +
          if g.durationToTicks delay = 0 then 1 else g.durationToTicks delay,
          callback, w.added.length⟩ := by
  rw [add, addTimer]
  rfl

theorem Accounts.add (h : Accounts g w rest owed) (call : Int64 × Option κ) :
    Accounts g (w.add g call) rest owed := by
  obtain ⟨delay, _ | callback⟩ := call
  · exact h
  · have hlt := currentTick_lt_due (g := g) w delay callback
    rw [add_some]
    refine Accounts.hang (h.enter _ ?_ (g.toNat_expirationTick _ _ _) ?_ hlt.le) ?_
    · rfl
    · rfl
    · intro b hb _
      rw [List.getElem?_append_right (Nat.le_refl _)] at hb
      obtain rfl : _ = b := by simpa using hb
      exact hlt

/-- A timer that has expired fires, in the tick it is due in. -/
theorem Accounts.logFired (h : Accounts g w (t :: rest) owed)
    (hexpired : t.expirationTick ≤ w.currentTick) : Accounts g (w.logFired t) rest (owed + 1) := by
  have hwait : w.Waiting (t :: rest) t := .inl List.mem_cons_self
  have hmono : ∀ u, (w.logFired t).Waiting rest u → w.Waiting (t :: rest) u :=
    fun u hu => waiting_cons.2 (.inr hu)
  have hgone : ∀ u, (w.logFired t).Waiting rest u → u.serial ≠ t.serial := by
    rintro u (hu | ⟨k, hu⟩) heq
    · exact (List.nodup_cons.1 h.rest_nodup).1 (List.mem_map.2 ⟨u, hu, heq⟩)
    · exact h.apart t List.mem_cons_self k u hu heq.symm
  have hserials : (w.logFired t).fired.map Fired.serial = w.fired.map Fired.serial ++ [t.serial] :=
    List.map_append
  constructor
  case known => exact fun u hu => h.known u (hmono u hu)
  case placed => exact h.placed
  case slots_nodup => exact h.slots_nodup
  case rest_nodup => exact (List.nodup_cons.1 h.rest_nodup).2
  case apart => exact fun u hu => h.apart u (List.mem_cons_of_mem _ hu)
  case waiting_or_fired =>
    intro i hi
    rw [hserials]
    rcases h.waiting_or_fired i hi with hf | ⟨u, hu, rfl⟩
    · exact .inl (List.mem_append_left _ hf)
    · rcases waiting_cons.1 hu with rfl | hu
      exacts [.inl (List.mem_append_right _ List.mem_cons_self), .inr ⟨u, hu, rfl⟩]
  case waiting_unfired =>
    intro u hu
    rw [hserials, List.mem_append, List.mem_singleton]
    rintro (hf | heq)
    exacts [h.waiting_unfired u (hmono u hu) hf, hgone u hu heq]
  case fired_nodup =>
    rw [hserials, List.nodup_append]
    refine ⟨h.fired_nodup, List.nodup_singleton _, ?_⟩
    rintro i hi j hj rfl
    rw [List.mem_singleton.1 hj] at hi
    exact h.waiting_unfired t hwait hi
  case fired_due =>
    intro f hf
    rcases List.mem_append.1 hf with hf | hf
    · exact h.fired_due f hf
    · obtain rfl := List.mem_singleton.1 hf
      obtain ⟨a, ha, -, hcallback⟩ := h.known t hwait
      refine ⟨Nat.le_refl _, a, ha, hcallback, fun hlt => ?_⟩
      exact Nat.le_antisymm (h.rest_later t List.mem_cons_self a ha hlt)
        (h.expirationTick_eq hwait ha hlt ▸ UInt64.le_iff_toNat_le.1 hexpired)
  case slots_later => exact h.slots_later
  case rest_later => exact fun u hu => h.rest_later u (List.mem_cons_of_mem _ hu)
  case active =>
    have := h.active
    have hlen : (w.logFired t).fired.length = w.fired.length + 1 := List.length_append
    change w.activeTimers + _ = w.added.length + _
    omega

/-- The calls whose timers have fired and the others are all the calls. -/
theorem Accounts.unfired_length (h : Accounts g w rest owed) :
    w.unfired.length + w.fired.length = w.added.length := by
  have hfired : ((List.range w.added.length).filter (· ∈ w.fired.map Fired.serial)).Perm
      (w.fired.map Fired.serial) := by
    refine (List.perm_ext_iff_of_nodup (List.nodup_range.filter _) h.fired_nodup).2 fun i => ?_
    simp only [List.mem_filter, List.mem_range, decide_eq_true_eq, and_iff_right_iff_imp]
    intro hi
    obtain ⟨f, hf, rfl⟩ := List.mem_map.1 hi
    exact h.fired_lt hf
  have hlen := hfired.length_eq
  have hall := List.length_eq_length_filter_add (l := List.range w.added.length)
    (fun i => decide (i ∈ w.fired.map Fired.serial))
  rw [List.length_map] at hlen
  rw [List.length_range, hlen] at hall
  simp only [unfired, decide_not]
  rw [Nat.add_comm]
  exact hall.symm

/-- The timer is taken off the count after its callback. -/
theorem Accounts.retire (h : Accounts g w rest (owed + 1)) :
    0 < w.activeTimers ∧ Accounts g { w with activeTimers := w.activeTimers - 1 } rest owed := by
  have hactive := h.active
  have hlen := h.unfired_length
  exact ⟨by omega, { h with active := by dsimp only; omega }⟩

theorem Accounts.processTimer (app : Callbacks κ) (h : Accounts g w (t :: rest) 0) :
    Accounts g (w.processTimer g app t) rest 0 := by
  rw [TimerWheel.processTimer]
  split
  case isTrue hexpired =>
    have hran : Accounts g (w.runCallback g app t) rest 1 :=
      Reentrant.foldl_invariant (I := fun w => Accounts g w rest 1)
        (fun _ call hw => hw.add call) _ (h.logFired hexpired) _
    rw [if_pos hran.retire.1]
    exact hran.retire.2
  case isFalse hlater =>
    refine h.hang fun a ha hlt => ?_
    rw [← h.expirationTick_eq (.inl List.mem_cons_self) ha hlt]
    exact UInt64.lt_iff_toNat_lt.1 (UInt64.not_le.1 hlater)

/-- The loop over the timers taken out. -/
theorem Accounts.processAll (app : Callbacks κ) (rest : List (Timer κ)) (h : Accounts g w rest 0) :
    Accounts g (rest.foldl (TimerWheel.processTimer g app) w) [] 0 := by
  induction rest generalizing w with
  | nil => exact h
  | cons t rest ih => exact ih (h.processTimer app)

theorem mem_update_nil {slots : Nat → List (Timer κ)} {i k : Nat} {u : Timer κ} :
    u ∈ Function.update slots i [] k ↔ u ∈ slots k ∧ k ≠ i := by
  by_cases hk : k = i
  · subst hk
    simp
  · simp [hk]

/-- Taking out a slot is waiting for its timers elsewhere. -/
theorem waiting_takeOut {now : UInt64} {i : Nat} {u : Timer κ} :
    Waiting { w with currentTick := now, slots := Function.update w.slots i [] } (w.slots i) u ↔
      w.Waiting [] u := by
  constructor
  · rintro (hu | ⟨k, hu⟩)
    exacts [.inr ⟨_, hu⟩, .inr ⟨k, (mem_update_nil.1 hu).1⟩]
  · rintro (hu | ⟨k, hu⟩)
    · cases hu
    · by_cases hk : k = i
      · exact .inl (hk ▸ hu)
      · exact .inr ⟨k, mem_update_nil.2 ⟨hu, hk⟩⟩

/-- A tick begins: its slot is taken out.  What stays in the other slots cannot be due in
it, since it would hang in this one. -/
theorem Accounts.takeOut (h : Accounts g w [] 0) (hlt : w.currentTick.toNat + 1 < 2 ^ 64) :
    Accounts g { w with
      currentTick := w.currentTick + 1
      slots := Function.update w.slots (g.slotIndex (w.currentTick + 1)) [] }
      (w.slots (g.slotIndex (w.currentTick + 1))) 0 := by
  set now := w.currentTick + 1 with hnow
  have hnat : now.toNat = w.currentTick.toNat + 1 := by
    rw [hnow, UInt64.toNat_add]
    exact Nat.mod_eq_of_lt hlt
  constructor
  case known => exact fun u hu => h.known u (waiting_takeOut.1 hu)
  case placed => exact fun k u hu => h.placed k u (mem_update_nil.1 hu).1
  case slots_nodup =>
    intro k
    by_cases hk : k = g.slotIndex now
    · subst hk
      simp
    · simpa [hk] using h.slots_nodup k
  case rest_nodup => exact h.slots_nodup _
  case apart =>
    -- two timers of one number have one expiration tick, hence one slot
    intro t ht k u hu heq
    obtain ⟨huk, hne⟩ := mem_update_nil.1 hu
    have hsame := h.expirationTick_congr (.inr ⟨_, ht⟩) (.inr ⟨k, huk⟩) heq
    exact hne ((h.placed k u huk).trans (hsame ▸ (h.placed _ t ht).symm))
  case waiting_or_fired =>
    intro i hi
    rcases h.waiting_or_fired i hi with hf | ⟨u, hu, heq⟩
    exacts [.inl hf, .inr ⟨u, waiting_takeOut.2 hu, heq⟩]
  case waiting_unfired => exact fun u hu => h.waiting_unfired u (waiting_takeOut.1 hu)
  case fired_nodup => exact h.fired_nodup
  case fired_due =>
    intro f hf
    obtain ⟨htick, hrest⟩ := h.fired_due f hf
    exact ⟨by dsimp only; omega, hrest⟩
  case slots_later =>
    intro k u hu a ha hdue
    obtain ⟨huk, hne⟩ := mem_update_nil.1 hu
    have hexp := h.expirationTick_eq (.inr ⟨k, huk⟩) ha hdue
    refine Nat.lt_of_le_of_ne (hnat ▸ h.slots_later k u huk a ha hdue) ?_
    intro heq
    have hsame : u.expirationTick = now := UInt64.toNat_inj.1 (hexp.trans heq.symm)
    exact hne (hsame ▸ h.placed k u huk)
  case rest_later =>
    intro u hu a ha hdue
    exact hnat ▸ h.slots_later _ u hu a ha hdue
  case active => exact h.active

/-- An empty slot needs no case of its own. -/
theorem tick_eq (app : Callbacks κ) (w : TimerWheel κ) :
    w.tick g app = (w.slots (g.slotIndex (w.currentTick + 1))).foldl (processTimer g app) { w with
      currentTick := w.currentTick + 1
      slots := Function.update w.slots (g.slotIndex (w.currentTick + 1)) [] } := by
  rw [tick, processCurrentTick]
  dsimp only
  split
  case h_1 hempty =>
    rw [hempty, Function.update_eq_self_iff.2 hempty.symm]
    rfl
  case h_2 => rfl

theorem Accounts.tick (app : Callbacks κ) (h : Accounts g w [] 0)
    (hlt : w.currentTick.toNat + 1 < 2 ^ 64) : Accounts g (w.tick g app) [] 0 := by
  rw [tick_eq]
  exact (h.takeOut hlt).processAll app _

/-! ## Runs -/

theorem add_currentTick (w : TimerWheel κ) (call : Int64 × Option κ) :
    (w.add g call).currentTick = w.currentTick := by
  obtain ⟨delay, _ | callback⟩ := call <;> rfl

/-- The rule for a tick: what neither an `addTimer`, nor the log of a callback run, nor a
change of the slots and of the count can break, a tick keeps. -/
theorem tick_keeps {I : TimerWheel κ → Prop} (hadd : ∀ w call, I w → I (w.add g call))
    (hlog : ∀ w t, I w → I (w.logFired t))
    (hplace : ∀ w slots active, I w → I { w with slots := slots, activeTimers := active })
    (app : Callbacks κ) (w : TimerWheel κ) (h : I { w with currentTick := w.currentTick + 1 }) :
    I (w.tick g app) := by
  have htimer : ∀ v t, I v → I (processTimer g app v t) := by
    intro v t hv
    have hran : I (v.runCallback g app t) := Reentrant.foldl_invariant hadd _ (hlog v t hv) _
    rw [processTimer]
    split
    · dsimp only
      split
      exacts [hplace _ _ _ hran, hran]
    · exact hplace _ _ _ hv
  rw [tick_eq]
  exact Reentrant.foldl_invariant htimer _ (hplace _ _ _ h) _

theorem tick_currentTick (app : Callbacks κ) (w : TimerWheel κ) :
    (w.tick g app).currentTick = w.currentTick + 1 :=
  tick_keeps (I := fun v => v.currentTick = w.currentTick + 1)
    (fun v call hv => (add_currentTick v call).trans hv) (fun _ _ hv => hv) (fun _ _ _ hv => hv)
    app w rfl

theorem step_currentTick (w : TimerWheel κ) (op : Op κ)
    (hlt : w.currentTick.toNat + op.ticks < 2 ^ 64) :
    (step g w op).currentTick.toNat = w.currentTick.toNat + op.ticks := by
  cases op with
  | addTimer delay callback => rw [step, add_currentTick, Op.ticks, Nat.add_zero]
  | tick app =>
    rw [step, tick_currentTick, UInt64.toNat_add]
    exact Nat.mod_eq_of_lt hlt

/-- The account is kept and the ticks are counted as long as the tick counter does not wrap. -/
theorem Accounts.run (ops : List (Op κ)) (h : Accounts g w [] 0)
    (hlt : w.currentTick.toNat + (ops.map Op.ticks).sum < 2 ^ 64) :
    Accounts g (ops.foldl (step g) w) [] 0 ∧
      (ops.foldl (step g) w).currentTick.toNat =
        w.currentTick.toNat + (ops.map Op.ticks).sum := by
  induction ops generalizing w with
  | nil => exact ⟨h, rfl⟩
  | cons op ops ih =>
    rw [List.map_cons, List.sum_cons, ← Nat.add_assoc] at hlt ⊢
    have hstep := step_currentTick (g := g) w op (by omega)
    rw [← hstep] at hlt ⊢
    refine ih ?_ hlt
    cases op with
    | addTimer delay callback => exact h.add (delay, callback)
    | tick app => exact h.tick app (by rw [Op.ticks] at hstep; omega)

/-! ## What is recorded -/

theorem add_records (w : TimerWheel κ) (call : Int64 × Option κ) :
    (w.add g call).fired = w.fired ∧
      (w.add g call).added = w.added ++ recorded w.currentTick.toNat [call] := by
  obtain ⟨delay, _ | callback⟩ := call
  · exact ⟨rfl, (List.append_nil _).symm⟩
  · exact ⟨rfl, rfl⟩

theorem foldl_add_records (calls : List (Int64 × Option κ)) (w : TimerWheel κ) :
    (calls.foldl (add g) w).currentTick = w.currentTick ∧
      (calls.foldl (add g) w).fired = w.fired ∧
      (calls.foldl (add g) w).added = w.added ++ recorded w.currentTick.toNat calls := by
  induction calls generalizing w with
  | nil => exact ⟨rfl, rfl, (List.append_nil _).symm⟩
  | cons call calls ih =>
    obtain ⟨htick, hfired, hadded⟩ := ih (w.add g call)
    obtain ⟨hfired', hadded'⟩ := add_records (g := g) w call
    rw [add_currentTick] at htick hadded
    refine ⟨htick, hfired.trans hfired', hadded.trans ?_⟩
    rw [hadded', List.append_assoc, recorded, recorded, ← List.filterMap_append]
    rfl

/-- A timer taken out runs its callback, or is hung back. -/
theorem processTimer_records (app : Callbacks κ) (w : TimerWheel κ) (t : Timer κ) :
    (processTimer g app w t).currentTick = w.currentTick ∧
      (Op.tick app).Records w.currentTick.toNat w (processTimer g app w t) := by
  obtain ⟨htick, hfired, hadded⟩ :=
    foldl_add_records (g := g) (app t.callback (w.logFired t)) (w.logFired t)
  rw [← runCallback] at htick hfired hadded
  have hruns : (Op.tick app).Records w.currentTick.toNat w (w.runCallback g app t) :=
    ⟨[(w.logFired t, ⟨t.serial, w.currentTick.toNat, t.callback⟩)],
      List.forall_mem_singleton.2 List.getLast?_concat, hfired, by rw [hadded]; simp [logFired]⟩
  rw [processTimer]
  split
  · dsimp only
    split
    exacts [⟨htick, hruns⟩, ⟨htick, hruns⟩]
  · exact ⟨rfl, [], nofun, (List.append_nil _).symm, (List.append_nil _).symm⟩

theorem processAll_records (app : Callbacks κ) (rest : List (Timer κ)) (w : TimerWheel κ) :
    (Op.tick app).Records w.currentTick.toNat w (rest.foldl (processTimer g app) w) := by
  induction rest generalizing w with
  | nil => exact ⟨[], nofun, (List.append_nil _).symm, (List.append_nil _).symm⟩
  | cons t rest ih =>
    obtain ⟨htick, runs, hlast, hfired, hadded⟩ := processTimer_records (g := g) app w t
    obtain ⟨runs', hlast', hfired', hadded'⟩ := ih (processTimer g app w t)
    rw [htick] at hadded'
    refine ⟨runs ++ runs', List.forall_mem_append.2 ⟨hlast, hlast'⟩, ?_, ?_⟩
    · rw [List.foldl_cons, hfired', hfired, List.map_append, List.append_assoc]
    · rw [List.foldl_cons, hadded', hadded, List.flatMap_append, List.append_assoc]

theorem step_records (w : TimerWheel κ) (op : Op κ) :
    op.Records (step g w op).currentTick.toNat w (step g w op) := by
  cases op with
  | addTimer delay callback =>
    rw [step, add_currentTick]
    exact add_records w (delay, callback)
  | tick app =>
    rw [step, tick_currentTick, tick_eq]
    exact processAll_records app _ { w with
      currentTick := w.currentTick + 1
      slots := Function.update w.slots (g.slotIndex (w.currentTick + 1)) [] }

/-- No timer fires twice. -/
theorem Accounts.firedOf_eq_singleton (h : Accounts g w rest owed) {f : Fired κ}
    (hf : f ∈ w.fired) : w.firedOf f.serial = [f] := by
  rw [firedOf, ← List.perm_singleton]
  refine (List.perm_ext_iff_of_nodup (h.fired_nodup.of_map.filter _)
    (List.nodup_singleton f)).2 fun e => ?_
  rw [List.mem_filter, decide_eq_true_eq, List.mem_singleton]
  constructor
  · rintro ⟨he, heq⟩
    exact List.inj_on_of_nodup_map h.fired_nodup he hf heq
  · rintro rfl
    exact ⟨hf, rfl⟩

/-- The callback runs of a timer: the one in its due tick, once that has come. -/
theorem Accounts.firedOf_eq (h : Accounts g w [] 0) {i : Nat} {a : Added κ}
    (ha : w.added[i]? = some a) (hdue : g.due a < 2 ^ 64) :
    w.firedOf i =
      if g.due a ≤ w.currentTick.toNat then [⟨i, g.due a, a.callback⟩] else [] := by
  rcases h.waiting_or_fired i (List.getElem?_eq_some_iff.1 ha).1 with hmem | ⟨t, ht, rfl⟩
  · obtain ⟨f, hf, rfl⟩ := List.mem_map.1 hmem
    obtain ⟨hle, b, hb, hcallback, htick⟩ := h.fired_due f hf
    obtain rfl : a = b := Option.some.inj (ha.symm.trans hb)
    rw [if_pos (htick hdue ▸ hle), ← htick hdue, ← hcallback]
    exact h.firedOf_eq_singleton hf
  · obtain hnil | ⟨k, hk⟩ := ht
    · cases hnil
    · rw [if_neg (Nat.not_le.2 (h.slots_later k t hk a ha hdue)), firedOf, List.filter_eq_nil_iff]
      intro f hf heq
      exact h.waiting_unfired t (.inr ⟨k, hk⟩) (List.mem_map.2 ⟨f, hf, of_decide_eq_true heq⟩)

/-- Every timer fires once, in the tick it is due in, and the count of pending timers is that of the
timers that have not fired.  The timers are those of the `addTimer` calls, which the user makes or
the callbacks as they are run.  The two bounds keep the tick counter, and the expiration tick
computed from it, inside its 64 bits. -/
theorem fires_once_when_due (ops : List (Op κ)) (hticks : (ops.map Op.ticks).sum < 2 ^ 64) :
    (run g ops).currentTick.toNat = (ops.map Op.ticks).sum ∧
    (∀ before op after, ops = before ++ op :: after →
      op.Records (run g (before ++ [op])).currentTick.toNat (run g before)
        (run g (before ++ [op]))) ∧
    (∀ i a, (run g ops).added[i]? = some a → g.due a < 2 ^ 64 →
      (run g ops).firedOf i =
        if g.due a ≤ (ops.map Op.ticks).sum then [⟨i, g.due a, a.callback⟩] else []) ∧
    (run g ops).pendingTimers = (run g ops).unfired.length := by
  obtain ⟨h, htick⟩ := accounts_empty.run (g := g) ops (by simpa using hticks)
  rw [← run, UInt64.toNat_zero, Nat.zero_add] at htick
  refine ⟨htick, ?_, fun i a ha hdue => htick ▸ h.firedOf_eq ha hdue, ?_⟩
  · rintro before op after rfl
    rw [run, run, List.foldl_concat]
    exact step_records _ op
  · have hactive := h.active
    have hlen := h.unfired_length
    rw [← run] at hactive hlen
    rw [pendingTimers]
    omega

/-- A timer of 25 ms on a wheel of two slots of 10 ms each: it hangs in the second slot,
is passed over in tick 1 and fires in tick 3, where its callback adds a timer that is due
in tick 4. -/
theorem fires_once_when_due_revolution :
    let g : WheelConfig := ⟨10, 2, by decide, by decide⟩
    let app : Callbacks Unit := fun _ w => if w.currentTick = 3 then [(0, some ())] else []
    let w := run g [.addTimer 25 (some ()), .tick app, .tick app, .tick app]
    w.firedOf 0 = [⟨0, 3, ()⟩] ∧ w.firedOf 1 = [] ∧ w.pendingTimers = w.unfired.length := by
  intro g app w
  obtain ⟨-, -, hfired, hpending⟩ := fires_once_when_due (g := g)
    [.addTimer 25 (some ()), .tick app, .tick app, .tick app] (by decide)
  exact ⟨(hfired 0 ⟨0, 25, ()⟩ (by decide +kernel) (by decide +kernel)).trans (by decide +kernel),
    (hfired 1 ⟨3, 0, ()⟩ (by decide +kernel) (by decide +kernel)).trans (by decide +kernel),
    hpending⟩

end TimerWheel

end HyperNet.Core
