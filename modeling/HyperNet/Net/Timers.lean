import HyperNet.Net.Effects

/-!
# The timers of a session

A session has two timers, for idleness and for the heartbeat, and the source has each of its
functions twice.  Here the two are one with the kind as a parameter: what arming a timer does
(`armTimerAfter_cases`, `startTimeouts_eq`), and what the callback of one that runs out does
(`Fires`, `fireTimer_fires`).
-/

namespace HyperNet.Net

open Protocol

/-! ## The two kinds of timers -/

/-- What a session is closed for. -/
def TimerKind.reason : TimerKind → String
  | .idle => "idle_timeout"
  | .heartbeat => "heartbeat_timeout"

/-- How long a session may be silent: the heartbeat gives it a second interval. -/
def TimerKind.allowanceMs : TimerKind → UInt32 → Nat
  | .idle, timeoutMs => timeoutMs.toNat
  | .heartbeat, timeoutMs => timeoutMs.toNat * 2

def Config.timeoutMs (cfg : Config) : TimerKind → UInt32
  | .idle => cfg.idleTimeoutMs
  | .heartbeat => cfg.heartbeatIntervalMs

namespace Session

def timeoutMs (s : Session) : TimerKind → UInt32
  | .idle => s.idleTimeoutMs
  | .heartbeat => s.heartbeatIntervalMs

def timerArmed (s : Session) : TimerKind → Bool
  | .idle => s.idleTimerArmed
  | .heartbeat => s.heartbeatTimerArmed

def setTimerArmed (s : Session) (armed : Bool) : TimerKind → Session
  | .idle => { s with idleTimerArmed := armed }
  | .heartbeat => { s with heartbeatTimerArmed := armed }

/-- How long a session may be silent. -/
def allowanceMs (s : Session) (kind : TimerKind) : Nat := kind.allowanceMs (s.timeoutMs kind)

section

variable (s : Session)

theorem setTimerArmed_self (kind : TimerKind) :
    s.setTimerArmed (s.timerArmed kind) kind = s := by cases kind <;> rfl

@[simp] theorem id_setTimerArmed (armed : Bool) (kind : TimerKind) :
    (s.setTimerArmed armed kind).id = s.id := by cases kind <;> rfl

@[simp] theorem state_setTimerArmed (armed : Bool) (kind : TimerKind) :
    (s.setTimerArmed armed kind).state = s.state := by cases kind <;> rfl

@[simp] theorem timeoutMs_setTimerArmed (armed : Bool) (kind kind' : TimerKind) :
    (s.setTimerArmed armed kind).timeoutMs kind' = s.timeoutMs kind' := by
  cases kind <;> cases kind' <;> rfl

@[simp] theorem timerArmed_setTimerArmed (armed : Bool) (kind : TimerKind) :
    (s.setTimerArmed armed kind).timerArmed kind = armed := by cases kind <;> rfl

theorem timerArmed_setTimerArmed_ne (armed : Bool) {kind kind' : TimerKind} (h : kind' ≠ kind) :
    (s.setTimerArmed armed kind).timerArmed kind' = s.timerArmed kind' := by
  cases kind <;> cases kind' <;> first | rfl | exact absurd rfl h

@[simp] theorem lastRxAt_setTimerArmed (armed : Bool) (kind : TimerKind) :
    (s.setTimerArmed armed kind).lastRxAt = s.lastRxAt := by cases kind <;> rfl

@[simp] theorem accepted_setTimerArmed (armed : Bool) (kind : TimerKind) :
    (s.setTimerArmed armed kind).accepted = s.accepted := by cases kind <;> rfl

@[simp] theorem acceptedAtRx_setTimerArmed (armed : Bool) (kind : TimerKind) :
    (s.setTimerArmed armed kind).acceptedAtRx = s.acceptedAtRx := by cases kind <;> rfl

@[simp] theorem received_setTimerArmed (armed : Bool) (kind : TimerKind) :
    (s.setTimerArmed armed kind).received = s.received := by cases kind <;> rfl

@[simp] theorem closeReason_setTimerArmed (armed : Bool) (kind : TimerKind) :
    (s.setTimerArmed armed kind).closeReason = s.closeReason := by cases kind <;> rfl

theorem timeoutMs_le_allowanceMs (kind : TimerKind) :
    (s.timeoutMs kind).toNat ≤ s.allowanceMs kind := by
  cases kind
  · exact Nat.le_refl _
  · exact Nat.le_mul_of_pos_right _ Nat.two_pos

end

theorem allowanceMs_congr {s s' : Session} {kind : TimerKind}
    (h : s'.timeoutMs kind = s.timeoutMs kind) : s'.allowanceMs kind = s.allowanceMs kind := by
  rw [allowanceMs, h, allowanceMs]

end Session

/-! ## Arming -/

/-- The timer that is asked for and the flag that says so. -/
def World.arm (w : World) (o : Nat) (kind : TimerKind) (delayMs : Nat) : World :=
  (w.addTimer ⟨o, kind, delayMs, w.now⟩).modify o (·.setTimerArmed true kind)

/-- `armIdleTimerAfter_` and `armHeartbeatTimerAfter_`. -/
def armTimerAfter : TimerKind → Nat → Nat → World → World
  | .idle => armIdleTimerAfter
  | .heartbeat => armHeartbeatTimerAfter

theorem armTimerAfter_eq (kind : TimerKind) (o delayMs : Nat) (w : World) :
    armTimerAfter kind o delayMs w =
      if (w.obj o).timeoutMs kind = 0 ∨ (w.obj o).state ≠ .connected ∨
        (w.obj o).timerArmed kind = true then w else w.arm o kind delayMs := by
  cases kind
  · rfl
  · rfl

theorem World.obj_arm (w : World) (o : Nat) (kind : TimerKind) (delayMs : Nat) :
    (w.arm o kind delayMs).obj o = (w.obj o).setTimerArmed true kind :=
  World.obj_setObj_self _ _ _

theorem armTimerAfter_off {w : World} {o : Nat} {kind : TimerKind}
    (h : (w.obj o).timeoutMs kind = 0) (delayMs : Nat) : armTimerAfter kind o delayMs w = w := by
  rw [armTimerAfter_eq, if_pos (.inl h)]

theorem armTimerAfter_cases (kind : TimerKind) (o delayMs : Nat) (w : World) :
    armTimerAfter kind o delayMs w = w ∨
      armTimerAfter kind o delayMs w = w.arm o kind delayMs := by
  rw [armTimerAfter_eq]
  exact ite_eq_or_eq ..

theorem obj_armTimerAfter (kind : TimerKind) (o delayMs : Nat) (w : World) :
    ∃ armed, (armTimerAfter kind o delayMs w).obj o = (w.obj o).setTimerArmed armed kind := by
  rcases armTimerAfter_cases kind o delayMs w with heq | heq
  · exact ⟨(w.obj o).timerArmed kind, by rw [heq, Session.setTimerArmed_self]⟩
  · exact ⟨true, by rw [heq, World.obj_arm]⟩

/-- Where nothing is configured `armTimerAfter` does nothing, so `startTimeouts_` need not ask. -/
theorem startTimeouts_eq (o : Nat) (idleTimeoutMs heartbeatIntervalMs : UInt32) (w : World) :
    startTimeouts o idleTimeoutMs heartbeatIntervalMs w =
      armTimerAfter .heartbeat o heartbeatIntervalMs.toNat
        (armTimerAfter .idle o idleTimeoutMs.toNat (w.modify o fun s =>
          { s with idleTimeoutMs, heartbeatIntervalMs, lastRxAt := w.now })) := by
  have hoff : ∀ {timeoutMs : UInt32}, ¬ 0 < timeoutMs → timeoutMs = 0 := fun hzero =>
    Decidable.of_not_not fun hne => hzero (UInt32.pos_iff_ne_zero.mpr hne)
  unfold startTimeouts
  dsimp only
  generalize hw₁ : w.modify o _ = w₁
  have hobj : (w₁.obj o).timeoutMs .idle = idleTimeoutMs ∧
      (w₁.obj o).timeoutMs .heartbeat = heartbeatIntervalMs := by
    rw [← hw₁, World.modify, World.obj_setObj_self]
    exact ⟨rfl, rfl⟩
  have hidle : (if 0 < idleTimeoutMs then armIdleTimerAfter o idleTimeoutMs.toNat w₁ else w₁) =
      armTimerAfter .idle o idleTimeoutMs.toNat w₁ := by
    split
    · rfl
    next hzero => rw [armTimerAfter_off (hobj.1.trans (hoff hzero))]
  rw [hidle]
  obtain ⟨armed, hkept⟩ := obj_armTimerAfter .idle o idleTimeoutMs.toNat w₁
  generalize armTimerAfter .idle o idleTimeoutMs.toNat w₁ = w₂ at hkept ⊢
  split
  · rfl
  next hzero =>
    have hzero₂ : (w₂.obj o).timeoutMs .heartbeat = 0 := by
      rw [hkept, Session.timeoutMs_setTimerArmed, hobj.2]
      exact hoff hzero
    rw [armTimerAfter_off hzero₂]

/-! ## Firing -/

/-- A timer that runs out is no longer pending, and its callback clears the flag first. -/
def World.disarm (w : World) (i : Nat) (timer : Timer) : World :=
  { w with timers := w.timers.eraseIdx i }.modify timer.obj (·.setTimerArmed false timer.kind)

theorem World.obj_disarm (w : World) (i : Nat) (timer : Timer) :
    (w.disarm i timer).obj timer.obj = (w.obj timer.obj).setTimerArmed false timer.kind :=
  World.obj_setObj_self _ _ _

theorem World.elapsedMs_disarm (w : World) (i : Nat) (timer : Timer) :
    (w.disarm i timer).elapsedMs timer.obj = w.elapsedMs timer.obj := by
  rw [World.elapsedMs, World.obj_disarm, Session.lastRxAt_setTimerArmed]
  rfl

/-- What the callbacks of the two timers have in common. -/
inductive Fires (app : Callback → World → World) (i : Nat) (timer : Timer) (w : World) :
    World → Prop
  | lapsed : (∀ id, (id, timer.obj) ∉ w.sessions) →
      Fires app i timer w { w with timers := w.timers.eraseIdx i }
  | rests (id : UInt64) : (id, timer.obj) ∈ w.sessions →
      (w.obj timer.obj).timeoutMs timer.kind = 0 ∨ (w.obj timer.obj).state ≠ .connected →
      Fires app i timer w (w.disarm i timer)
  | closes (id : UInt64) : (id, timer.obj) ∈ w.sessions →
      (w.obj timer.obj).state = .connected → 0 < (w.obj timer.obj).timeoutMs timer.kind →
      (w.obj timer.obj).allowanceMs timer.kind ≤ w.elapsedMs timer.obj →
      Fires app i timer w (beginClose app timer.obj timer.kind.reason 0 (w.disarm i timer))
  | rearms (id : UInt64) (delayMs : Nat) : (id, timer.obj) ∈ w.sessions →
      (w.obj timer.obj).state = .connected →
      w.elapsedMs timer.obj < ((w.obj timer.obj).timeoutMs timer.kind).toNat →
      delayMs + w.elapsedMs timer.obj ≤ (w.obj timer.obj).allowanceMs timer.kind →
      Fires app i timer w (armTimerAfter timer.kind timer.obj delayMs (w.disarm i timer))
  | probes (id : UInt64) (delayMs : Nat) : (id, timer.obj) ∈ w.sessions →
      (w.obj timer.obj).state = .connected → timer.kind = .heartbeat →
      ((w.obj timer.obj).timeoutMs .heartbeat).toNat ≤ w.elapsedMs timer.obj →
      w.elapsedMs timer.obj < (w.obj timer.obj).allowanceMs .heartbeat →
      delayMs + w.elapsedMs timer.obj ≤ (w.obj timer.obj).allowanceMs .heartbeat →
      Fires app i timer w (armTimerAfter .heartbeat timer.obj delayMs
        (sendPacketU16 app (w.obj timer.obj).id kOpcodePing (.null 0) (w.disarm i timer)).1)

section Firing

variable {app : Callback → World → World} {i o delayMs askedAt : Nat} {w : World} {id : UInt64}

theorem onIdleTimer_fires (hlisted : (id, o) ∈ w.sessions) :
    Fires app i ⟨o, .idle, delayMs, askedAt⟩ w
      (onIdleTimer app o { w with timers := w.timers.eraseIdx i }) := by
  have hobj := w.obj_disarm i ⟨o, .idle, delayMs, askedAt⟩
  have helapsed := w.elapsedMs_disarm i ⟨o, .idle, delayMs, askedAt⟩
  have hdisarm : { w with timers := w.timers.eraseIdx i }.modify o (fun s =>
      { s with idleTimerArmed := false }) = w.disarm i ⟨o, .idle, delayMs, askedAt⟩ := rfl
  unfold onIdleTimer
  rw [hdisarm]
  dsimp only at hobj helapsed ⊢
  rw [hobj, helapsed]
  split
  next hoff => exact .rests id hlisted hoff
  next hon =>
    obtain ⟨hne, hc⟩ := not_or.mp hon
    have hconnected : (w.obj o).state = .connected := Decidable.of_not_not hc
    have hpos : 0 < (w.obj o).timeoutMs .idle := UInt32.pos_iff_ne_zero.mpr hne
    split
    next hlate => exact .closes id hlisted hconnected hpos hlate
    next hearly =>
      have hlt := Nat.lt_of_not_le hearly
      rw [if_neg (Nat.sub_ne_zero_of_lt hlt)]
      exact .rearms id _ hlisted hconnected hlt (Nat.sub_add_cancel hlt.le).le

theorem onHeartbeatTimer_fires (hlisted : (id, o) ∈ w.sessions) :
    Fires app i ⟨o, .heartbeat, delayMs, askedAt⟩ w
      (onHeartbeatTimer app o { w with timers := w.timers.eraseIdx i }) := by
  have hobj := w.obj_disarm i ⟨o, .heartbeat, delayMs, askedAt⟩
  have helapsed := w.elapsedMs_disarm i ⟨o, .heartbeat, delayMs, askedAt⟩
  have hdisarm : { w with timers := w.timers.eraseIdx i }.modify o (fun s =>
      { s with heartbeatTimerArmed := false }) = w.disarm i ⟨o, .heartbeat, delayMs, askedAt⟩ := rfl
  unfold onHeartbeatTimer
  rw [hdisarm]
  dsimp only at hobj helapsed ⊢
  rw [hobj, helapsed]
  split
  next hoff => exact .rests id hlisted hoff
  next hon =>
    obtain ⟨hne, hc⟩ := not_or.mp hon
    have hconnected : (w.obj o).state = .connected := Decidable.of_not_not hc
    have hpos : 0 < (w.obj o).timeoutMs .heartbeat := UInt32.pos_iff_ne_zero.mpr hne
    split
    next hlate => exact .closes id hlisted hconnected hpos hlate
    next hearly =>
      have hlt := Nat.lt_of_not_le hearly
      split
      next hprobe =>
        have hinterval :
            0 < ((w.obj o).setTimerArmed false .heartbeat).heartbeatIntervalMs.toNat :=
          UInt32.lt_iff_toNat_lt.mp hpos
        have hnext := Nat.ne_of_gt (Nat.lt_min.mpr ⟨Nat.sub_pos_of_lt hlt, hinterval⟩)
        rw [if_neg hnext]
        refine .probes id _ hlisted hconnected rfl hprobe hlt ?_
        refine (Nat.add_le_add_right (Nat.min_le_left _ _) _).trans ?_
        exact (Nat.sub_add_cancel hlt.le).le
      next hsoon =>
        have hsoon := Nat.lt_of_not_le hsoon
        rw [if_neg (Nat.sub_ne_zero_of_lt hsoon)]
        exact .rearms id _ hlisted hconnected hsoon ((Nat.sub_add_cancel hsoon.le).le.trans
          ((w.obj o).timeoutMs_le_allowanceMs .heartbeat))

end Firing

theorem fireTimer_stale (app : Callback → World → World) {i : Nat} {w : World}
    (h : w.timers[i]? = none) : fireTimer app i w = w := by
  rw [fireTimer, h]

theorem fireTimer_fires (app : Callback → World → World) {i : Nat} {timer : Timer} {w : World}
    (h : w.timers[i]? = some timer) : Fires app i timer w (fireTimer app i w) := by
  rw [fireTimer, h]
  dsimp only
  split
  next hlisted =>
    obtain ⟨⟨id, o⟩, he, heq⟩ := List.any_eq_true.mp hlisted
    obtain rfl : o = timer.obj := of_decide_eq_true heq
    obtain ⟨o, kind, delayMs, askedAt⟩ := timer
    cases kind with
    | idle => exact onIdleTimer_fires he
    | heartbeat => exact onHeartbeatTimer_fires he
  next hlisted =>
    exact .lapsed fun id hid => hlisted (List.any_eq_true.mpr ⟨_, hid, decide_eq_true rfl⟩)

end HyperNet.Net
