import Mathlib.Data.List.Perm.Basic
import HyperNet.Net.Supervision

/-!
# Timers of sessions that run out

Between two steps of the event loop every connected session is under supervision, and a session
is closed for its silence only when it has been silent long enough (`supervision_kept`).  For
the session whose timer runs out this is a matter of what the callback does (`Fires`); all others
do not notice (`Fires.keeps`).

A worker reads its clock once in each step here; the source reads it when a timer runs and again
when the wheel stores the next one.
-/

namespace HyperNet.Net

open Buffer Protocol Reentrant

/-! ## What a timer does -/

section Own

variable {scope : Scope} {app : Callback → World → World} {i : Nat} {v w : World} {timer : Timer}
  {o : Nat}

section

variable (h : w.timers[i]? = some timer)
include h

theorem perm_eraseIdx : (timer :: w.timers.eraseIdx i).Perm w.timers := by
  obtain ⟨hlt, rfl⟩ := List.getElem?_eq_some_iff.mp h
  exact List.getElem_cons_eraseIdx_perm hlt

/-- The timer that ran out was the session's only one of its kind. -/
theorem World.Armed.disarm (harmed : w.Armed timer.obj timer.kind) :
    (w.disarm i timer).Disarmed timer.obj timer.kind where
  length := by
    have hperm := ((perm_eraseIdx h).filter
      fun t => t.obj = timer.obj ∧ t.kind = timer.kind).length_eq
    rw [List.filter_cons_of_pos (by simp), List.length_cons] at hperm
    have hle : (w.pending timer.obj timer.kind).length ≤ 1 := by
      rw [harmed.length]
      split
      exacts [Nat.le_refl 1, Nat.zero_le 1]
    exact Nat.le_zero.mp (Nat.le_of_succ_le_succ (hperm.trans_le hle))
  flag := by rw [World.obj_disarm, Session.timerArmed_setTimerArmed]

theorem World.pending_disarm_ne {kind : TimerKind} (hne : o ≠ timer.obj ∨ kind ≠ timer.kind) :
    ((w.disarm i timer).pending o kind).Perm (w.pending o kind) := by
  have hperm := (perm_eraseIdx h).filter fun t => t.obj = o ∧ t.kind = kind
  rwa [List.filter_cons_of_neg] at hperm
  rw [decide_eq_true_iff]
  exact fun heq => hne.elim (fun ho => ho heq.1.symm) fun hkind => hkind heq.2.symm

theorem World.alters_erase :
    w.Alters timer.obj { w with timers := w.timers.eraseIdx i } where
  cfg := rfl
  created := rfl
  obj _ _ := rfl
  sessions := .refl _
  now := rfl
  timers _ ht := .inl (List.mem_of_mem_eraseIdx ht)
  pending _ ho _ := World.pending_disarm_ne h (.inl ho)

theorem World.alters_disarm :
    w.Alters timer.obj (w.disarm i timer) := (World.alters_erase h).trans (.modify _ _ _)

end

/-- What happens to the session whose timer is running is left out. -/
theorem World.Alters.watches (h : w.Alters o v) (ho : o < w.created)
    (hid : (v.obj o).id = (w.obj o).id)
    (hstate : (v.obj o).state = .connected → (w.obj o).state = .connected) :
    Watches scope (some o) w v := fun hw =>
  h.keeps (h.tidy hw hid hstate (.inl ho)) (fun hx => absurd rfl hx) fun hx => absurd rfl hx

theorem disarm_watches (h : w.timers[i]? = some timer) (hw : w.Tidy) :
    w.Keeps scope (some timer.obj) (w.disarm i timer) := by
  refine (World.alters_disarm h).watches (hw.timers timer (List.mem_of_getElem? h)) ?_ ?_ hw
  · rw [World.obj_disarm, Session.id_setTimerArmed]
  · rw [World.obj_disarm, Session.state_setTimerArmed]
    exact fun hc => hc

theorem armTimerAfter_watches (kind : TimerKind) (ho : o < w.created) (delayMs : Nat) :
    Watches scope (some o) w (armTimerAfter kind o delayMs w) := by
  obtain ⟨armed, hobj⟩ := obj_armTimerAfter kind o delayMs w
  refine (armTimerAfter_alters kind o delayMs w).watches ho ?_ ?_
  · rw [hobj, Session.id_setTimerArmed]
  · rw [hobj, Session.state_setTimerArmed]
    exact fun hc => hc

variable (happ : ∀ c w, Watches scope none w (app c w))
include happ

/-- A session closed by its timer. -/
theorem beginClose_watches (ho : o < w.created) (reason : String) (err : Nat) :
    Watches scope (some o) w (beginClose app o reason err w) := by
  by_cases hc : (w.obj o).state = .connected
  · have hdown : Watches scope (some o) w (takeDown o reason w) := by
      refine (World.Alters.takeDown w o reason).watches ho ?_ fun _ => hc
      rw [obj_takeDown]
    exact hdown.trans ((beginClose_after hc reason err).watches happ).of_none
  · rw [beginClose_of_ended hc]
    exact .refl w

/-- The session is closed before the application hears of it, and nothing happens to it after. -/
theorem beginClose_closes (hw : w.Tidy) (ho : o < w.created)
    (hc : (w.obj o).state = .connected) (reason : String) (err : Nat) :
    { w.obj o with fd := -1, state := .closed, closeReason := some reason }.Keeps scope w.now
      ((beginClose app o reason err w).obj o) := by
  have halters := World.Alters.takeDown w o reason
  have hdown : (takeDown o reason w).Tidy :=
    halters.tidy hw (by rw [obj_takeDown]) (fun _ => hc) (.inl ho)
  have hafter := (beginClose_after hc reason err).watches happ hdown
  have hobj := hafter.obj o (halters.created ▸ ho) nofun
  rw [obj_takeDown, halters.now] at hobj
  exact hobj

/-- A packet sent by its timer. -/
theorem sendPacketU16_watches (hw : w.Tidy) {id : UInt64} (hlisted : (id, o) ∈ w.sessions)
    (opcode : UInt16) (body : Body) :
    w.Keeps scope (some o) (sendPacketU16 app id opcode body w).1 := by
  obtain ⟨v, hv, hres | ⟨o', hfind, hres⟩⟩ := sendPacketU16_cases id opcode body w
  · rw [hres]
    exact (hv.watches happ hw).of_none
  · obtain rfl : o = o' := Option.some.inj ((hw.find_of_mem hlisted).symm.trans hfind)
    have hsent := hv.watches happ hw
    have ho : o < v.created := Nat.lt_of_lt_of_le (hw.sessions _ hlisted) hsent.created
    rw [hres]
    refine hsent.of_none.trans ((World.Alters.modify v o _).watches ho ?_ ?_ hsent.tidy)
    · rw [World.modify, World.obj_setObj_self]
      rfl
    · rw [World.modify, World.obj_setObj_self]
      exact fun hc => hc

/-- A timer that runs out leaves every session but its own as it is, whatever the application
does meanwhile. -/
theorem Fires.keeps (h : Fires app i timer w v) (htimer : w.timers[i]? = some timer)
    (hw : w.Tidy) : w.Keeps scope (some timer.obj) v := by
  have hdisarm : w.Keeps scope (some timer.obj) _ := disarm_watches htimer hw
  have ho := Nat.lt_of_lt_of_le (hw.timer_lt htimer) hdisarm.created
  cases h with
  | lapsed _ => exact (World.alters_erase htimer).watches (hw.timer_lt htimer) rfl (fun hc => hc) hw
  | rests _ _ _ => exact hdisarm
  | closes _ _ _ _ _ => exact hdisarm.trans (beginClose_watches happ ho _ 0 hdisarm.tidy)
  | rearms _ delayMs _ _ _ _ =>
    exact hdisarm.trans (armTimerAfter_watches _ ho delayMs hdisarm.tidy)
  | probes id delayMs hlisted _ _ _ _ _ =>
    have hlisted' : ((w.obj timer.obj).id, timer.obj) ∈ (w.disarm i timer).sessions := by
      rw [hw.ids _ hlisted]
      exact hlisted
    have hsend := sendPacketU16_watches happ hdisarm.tidy hlisted' kOpcodePing (.null 0)
    have hsent := hdisarm.trans hsend
    have ho' := Nat.lt_of_lt_of_le (hw.timer_lt htimer) hsent.created
    exact hsent.trans (armTimerAfter_watches _ ho' delayMs hsent.tidy)

theorem fireTimer_keeps (i : Nat) (hw : w.Tidy) :
    w.Keeps scope (w.timers[i]?.map Timer.obj) (fireTimer app i w) := by
  cases htimer : w.timers[i]? with
  | none =>
    rw [fireTimer_stale app htimer]
    exact .refl none hw
  | some timer => exact (fireTimer_fires app htimer).keeps happ htimer hw

end Own

/-- A session while the callback of its timer of this kind runs. -/
structure World.Between (w : World) (o : Nat) (kind : TimerKind) : Prop extends w.Timed o where
  disarmed : w.Disarmed o kind
  armed : ∀ kind' ≠ kind, w.Armed o kind'

section Between

variable {scope : Scope} {v w : World} {i o delayMs : Nat} {kind : TimerKind} {timer : Timer}

theorem World.Watched.disarm (h : w.Watched timer.obj) (htimer : w.timers[i]? = some timer) :
    (w.disarm i timer).Between timer.obj timer.kind where
  timeoutMs kind := by
    rw [World.obj_disarm, Session.timeoutMs_setTimerArmed]
    exact h.timeoutMs kind
  lastRxAt := by
    rw [World.obj_disarm, Session.lastRxAt_setTimerArmed]
    exact h.lastRxAt
  marked := by
    rw [World.obj_disarm, Session.acceptedAtRx_setTimerArmed, Session.accepted_setTimerArmed]
    exact h.marked
  disarmed := (h.armed timer.kind).disarm htimer
  armed kind hne := by
    refine (h.armed kind).congr (World.pending_disarm_ne htimer (.inr hne)) ?_ ?_ ?_
    · rw [World.obj_disarm, Session.timeoutMs_setTimerArmed]
    · rw [World.obj_disarm, Session.timerArmed_setTimerArmed_ne _ false hne]
    · rw [World.obj_disarm, Session.lastRxAt_setTimerArmed]

theorem World.Between.keep (h : w.Between o kind) (hk : w.Keeps scope none v)
    (ho : o < w.created) : v.Between o kind where
  toTimed := h.toTimed.keep hk.cfg hk.now (hk.obj o ho nofun)
  disarmed := h.disarmed.keep (hk.pending o ho nofun kind) (hk.obj o ho nofun)
  armed kind' hne := (h.armed kind' hne).keep (hk.pending o ho nofun kind')
    (hk.obj o ho nofun) h.lastRxAt

/-- The callback arms its timer again. -/
theorem World.Between.rearm (h : w.Between o kind) (hc : (w.obj o).state = .connected)
    (hdelay : delayMs + w.elapsedMs o ≤ (w.obj o).allowanceMs kind) :
    (armTimerAfter kind o delayMs w).Watched o where
  toTimed := h.toTimed.armTimerAfter kind delayMs
  armed kind' := by
    by_cases heq : kind' = kind
    · rw [heq]
      exact h.disarmed.armTimerAfter hc (w.due h.lastRxAt hdelay)
    · exact (h.armed kind' heq).armTimerAfter heq delayMs

/-- Time does not pass in a callback, and bytes that arrive make the session younger. -/
theorem World.Keeps.elapsedMs_le (h : w.Keeps scope none v) (ho : o < w.created)
    (hle : (w.obj o).lastRxAt ≤ w.now) : v.elapsedMs o ≤ w.elapsedMs o := by
  unfold World.elapsedMs
  rw [h.now]
  have hrx := ((h.obj o ho nofun).lastRxAt_le hle).1
  exact Nat.div_le_div_right (Nat.sub_le_sub_left hrx _)

end Between

theorem Fires.connected {app : Callback → World → World} {i : Nat} {timer : Timer} {v w : World}
    (h : Fires app i timer w v) (hc : (v.obj timer.obj).state = .connected) :
    (w.obj timer.obj).state = .connected := by
  cases h with
  | lapsed _ => exact hc
  | rests _ _ _ =>
    rw [World.obj_disarm, Session.state_setTimerArmed] at hc
    exact hc
  | closes _ _ hconnected _ _ | rearms _ _ _ hconnected _ _ | probes _ _ _ hconnected _ _ _ _ =>
    exact hconnected

/-- A session that survives its timer is under supervision again. -/
theorem Fires.watched {app : Callback → World → World} {i : Nat} {timer : Timer} {v w : World}
    (happ : ∀ c w, Watches .all none w (app c w)) (h : Fires app i timer w v) (hw : w.Tidy)
    (htimer : w.timers[i]? = some timer) {id : UInt64}
    (hlisted : (id, timer.obj) ∈ v.sessions) (hc : (v.obj timer.obj).state = .connected)
    (hwatched : w.Watched timer.obj) : v.Watched timer.obj := by
  have hbetween := hwatched.disarm htimer
  have hdisarm : w.Keeps .all (some timer.obj) _ := disarm_watches htimer hw
  have hlt := Nat.lt_of_lt_of_le (hw.timer_lt htimer) hdisarm.created
  cases h with
  | lapsed hunlisted => exact absurd hlisted (hunlisted id)
  | rests _ _ hoff =>
    rcases hoff with hzero | hended
    · -- it was pending, so it is configured
      have hmem : timer ∈ w.pending timer.obj timer.kind :=
        World.mem_pending.mpr ⟨List.mem_of_getElem? htimer, rfl, rfl⟩
      have hlength := (hwatched.armed timer.kind).length
      rw [hzero, if_neg (by decide)] at hlength
      rw [List.eq_nil_of_length_eq_zero hlength] at hmem
      exact absurd hmem List.not_mem_nil
    · rw [World.obj_disarm, Session.state_setTimerArmed] at hc
      exact absurd hc hended
  | closes _ _ hconnected _ _ =>
    have hclosed := beginClose_closes happ hdisarm.tidy hlt
      (by rw [World.obj_disarm, Session.state_setTimerArmed]; exact hconnected)
      timer.kind.reason 0
    cases hclosed.state hc
  | rearms _ delayMs _ hconnected _ hdelay =>
    refine hbetween.rearm ?_ ?_
    · rw [World.obj_disarm, Session.state_setTimerArmed]
      exact hconnected
    · rw [World.elapsedMs_disarm, World.obj_disarm,
        Session.allowanceMs_congr (Session.timeoutMs_setTimerArmed _ _ _ _)]
      exact hdelay
  | probes _ delayMs _ _ hkind _ _ hdelay =>
    have hsend : Watches .all none (w.disarm i timer)
        (sendPacketU16 app (w.obj timer.obj).id kOpcodePing (.null 0) (w.disarm i timer)).1 :=
      (sendPacketU16_trail trivial _ _).watches happ
    have hkeeps := hsend hdisarm.tidy
    rw [hkind] at hbetween
    have helapsed := hkeeps.elapsedMs_le hlt hbetween.lastRxAt
    rw [World.elapsedMs_disarm] at helapsed
    have hobj := hkeeps.obj timer.obj hlt nofun
    have hafter := hbetween.keep hkeeps hlt
    generalize (sendPacketU16 app (w.obj timer.obj).id kOpcodePing (.null 0)
      (w.disarm i timer)).1 = u at hobj hafter helapsed hc ⊢
    obtain ⟨armed, harm⟩ := obj_armTimerAfter .heartbeat timer.obj delayMs u
    refine hafter.rearm ?_ ?_
    · rw [harm, Session.state_setTimerArmed] at hc
      exact hc
    · rw [Session.allowanceMs_congr (hobj.timeoutMs _), World.obj_disarm,
        Session.allowanceMs_congr (Session.timeoutMs_setTimerArmed _ _ _ _)]
      exact (Nat.add_le_add_left helapsed _).trans hdelay

/-- A reason of a later state is there before or within the scope. -/
theorem Session.Keeps.reason {scope : Scope} {now : Nat} {s s' : Session}
    (h : s.Keeps scope now s') {reason : String} (hreason : s'.closeReason = some reason) :
    s.closeReason = some reason ∨ scope.reason reason := by
  rcases h.closeReason with heq | ⟨reason', heq, hscope⟩
  · exact .inl (heq ▸ hreason)
  · cases heq.symm.trans hreason
    exact .inr hscope

theorem closeReason_acceptCall (w : World) (o : Nat) (packet : Packet) (o' : Nat) :
    ((w.modify o (·.acceptCall packet)).obj o').closeReason = (w.obj o').closeReason := by
  by_cases heq : o' = o
  · rw [heq, World.modify, World.obj_setObj_self]
    rfl
  · rw [World.modify, World.obj_setObj_ne w heq]

/-- What a callback finds when it closes its session for silence. -/
structure World.Overdue (w : World) (timer : Timer) : Prop where
  listed : ∃ id, (id, timer.obj) ∈ w.sessions
  connected : (w.obj timer.obj).state = .connected
  configured : 0 < (w.obj timer.obj).timeoutMs timer.kind
  silent : (w.obj timer.obj).allowanceMs timer.kind ≤ w.elapsedMs timer.obj

/-- A session that is closed when its timer runs out has been silent too long, or is closed for
a reason of another kind. -/
theorem Fires.closed {scope : Scope} {app : Callback → World → World} {i : Nat} {timer : Timer}
    {v w : World} (happ : ∀ c w, Watches scope none w (app c w)) (h : Fires app i timer w v)
    (hw : w.Tidy) (htimer : w.timers[i]? = some timer) {reason : String}
    (hreason : (v.obj timer.obj).closeReason = some reason) :
    (w.obj timer.obj).closeReason = some reason ∨ scope.reason reason ∨
      (reason = timer.kind.reason ∧ w.Overdue timer ∧
        (v.obj timer.obj).lastRxAt = (w.obj timer.obj).lastRxAt) := by
  have hdisarm : w.Keeps scope (some timer.obj) _ := disarm_watches htimer hw
  have hlt := Nat.lt_of_lt_of_le (hw.timer_lt htimer) hdisarm.created
  cases h with
  | lapsed _ => exact .inl hreason
  | rests _ _ _ =>
    rw [World.obj_disarm, Session.closeReason_setTimerArmed] at hreason
    exact .inl hreason
  | closes id hlisted hconnected hpos hsilent =>
    have hclosed := beginClose_closes happ hdisarm.tidy hlt
      (by rw [World.obj_disarm, Session.state_setTimerArmed]; exact hconnected)
      timer.kind.reason 0
    rcases hclosed.reason hreason with hown | hscope
    · refine .inr (.inr ⟨(Option.some.inj hown).symm,
        ⟨⟨id, hlisted⟩, hconnected, hpos, hsilent⟩, ?_⟩)
      -- nothing is read from a session that is closed
      rcases hclosed.rx with hquiet | hhears
      · rw [hquiet.lastRxAt, World.obj_disarm]
        exact Session.lastRxAt_setTimerArmed _ _ _
      · cases hhears.connected
    · exact .inr (.inl hscope)
  | rearms _ delayMs _ _ _ _ =>
    obtain ⟨armed, hobj⟩ := obj_armTimerAfter timer.kind timer.obj delayMs (w.disarm i timer)
    rw [hobj, Session.closeReason_setTimerArmed, World.obj_disarm,
      Session.closeReason_setTimerArmed] at hreason
    exact .inl hreason
  | probes _ delayMs _ _ _ _ _ _ =>
    obtain ⟨armed, hobj⟩ := obj_armTimerAfter .heartbeat timer.obj delayMs
      (sendPacketU16 app (w.obj timer.obj).id kOpcodePing (.null 0) (w.disarm i timer)).1
    rw [hobj, Session.closeReason_setTimerArmed] at hreason
    obtain ⟨u, hu, hres⟩ := sendPacketU16_cases (w.obj timer.obj).id kOpcodePing (.null 0)
      (w.disarm i timer)
    have hkeeps := (hu.watches happ hdisarm.tidy).obj timer.obj hlt nofun
    have hsent : (u.obj timer.obj).closeReason = some reason := by
      rcases hres with hres | ⟨o, -, hres⟩
      · rwa [hres] at hreason
      · rwa [hres, closeReason_acceptCall] at hreason
    rcases hkeeps.reason hsent with hold | hscope
    · rw [World.obj_disarm, Session.closeReason_setTimerArmed] at hold
      exact .inl hold
    · exact .inr (.inl hscope)

/-! ## Runs -/

/-- Every session of a worker is under supervision. -/
structure World.Supervised (cfg : Config) (w : World) : Prop where
  tidy : w.Tidy
  cfg : w.cfg = cfg
  watched : ∀ e ∈ w.sessions, (w.obj e.2).state = .connected → w.Watched e.2

section Runs

variable {cfg : Config} {v w : World}

theorem World.Supervised.answered (h : w.Supervised cfg) (t : Step) :
    (w.answered t).Supervised cfg where
  tidy := { h.tidy with }
  cfg := h.cfg
  watched e he hc := by
    obtain ⟨⟨htimeout, hrx, hmark⟩, harmed⟩ := h.watched e he hc
    refine ⟨⟨htimeout, hrx.trans (Nat.le_max_left _ _), hmark⟩, fun kind => ?_⟩
    exact ⟨(harmed kind).length, (harmed kind).flag, (harmed kind).due⟩

/-- The session whose timer runs out in a step. -/
def World.running (w : World) (t : Step) : Option Nat :=
  match t.input with
  | .timer i => w.timers[i]?.map Timer.obj
  | _ => none

theorem World.fires_of_running {t : Step} {o : Nat} (h : w.running t = some o) :
    ∃ i timer, t.input = .timer i ∧ w.timers[i]? = some timer ∧ timer.obj = o ∧
      Fires t.app i timer (w.answered t) (step w t) := by
  unfold World.running at h
  split at h
  next i hi =>
    obtain ⟨timer, htimer, hobj⟩ := Option.map_eq_some_iff.mp h
    refine ⟨i, timer, hi, htimer, hobj, ?_⟩
    rw [step, hi]
    exact fireTimer_fires t.app htimer
  · cases h

/-- A step keeps up the supervision of all sessions but the one whose timer runs out. -/
theorem step_keeps {scope : Scope} {t : Step} (ht : t.Within scope) (hreads : ∀ o, scope.reads o)
    (hw : w.Tidy) : (w.answered t).Keeps scope (w.running t) (step w t) := by
  have happ := Step.app_watches ht
  have hanswered : (w.answered t).Tidy := { hw with }
  by_cases htimer : ∃ i, t.input = .timer i
  · obtain ⟨i, hi⟩ := htimer
    have hkeeps := fireTimer_keeps happ i hanswered
    rw [World.running, step, hi]
    exact hkeeps
  · have hstep : Watches scope none (w.answered t) (step w t) :=
      step_rel .refl .trans (fun happ _ _ hdoes => hdoes.watches happ) ht
        (fun i hi => htimer ⟨i, hi⟩) (fun _ _ _ => hreads) w
    exact (hstep hanswered).of_none

theorem step_supervised (t : Step) (hw : w.Supervised cfg) : (step w t).Supervised cfg := by
  have hanswered := hw.answered t
  have hkeeps := step_keeps t.within_all (fun _ => trivial) hw.tidy
  refine ⟨hkeeps.tidy, hkeeps.cfg.trans hw.cfg, fun e he hc => ?_⟩
  obtain ⟨id, o⟩ := e
  by_cases hx : w.running t = some o
  · obtain ⟨i, timer, -, htimer, rfl, hfires⟩ := World.fires_of_running hx
    have hlt := hw.tidy.timers timer (List.mem_of_getElem? htimer)
    have hwatched := hanswered.watched _ (hkeeps.mem_of_lt he hlt) (hfires.connected hc)
    exact hfires.watched (Step.app_watches t.within_all) hanswered.tidy htimer he hc hwatched
  · rcases hkeeps.sessions _ he with hold | hnew
    · have hlt := hanswered.tidy.sessions _ hold
      have hbefore := (hkeeps.obj o hlt hx).state hc
      exact hkeeps.watched hlt hx (hanswered.watched _ hold hbefore)
    · exact hkeeps.joined _ he hx hnew

theorem supervised_run (cfg : Config) (arrivals : Nat) (steps : List Step) :
    (run cfg arrivals steps).Supervised cfg := by
  refine foldl_invariant (I := World.Supervised cfg) (fun w t => step_supervised t) _ ?_ steps
  refine ⟨⟨⟨?_, List.nodup_nil, ?_⟩, ?_, ?_⟩, rfl, ?_⟩
  · exact fun e he => absurd he List.not_mem_nil
  · rintro o ⟨⟩
  · exact fun e he => absurd he List.not_mem_nil
  · exact fun t ht => absurd ht List.not_mem_nil
  · exact fun e he => absurd he List.not_mem_nil

theorem TimerKind.reason_inj {kind kind' : TimerKind} (h : kind.reason = kind'.reason) :
    kind = kind' := by
  revert h
  cases kind <;> cases kind' <;> decide

/-- Outside the timers nothing is closed for a reason of theirs. -/
theorem World.Keeps.not_timeout {x : Option Nat} (h : v.Keeps .untimed x w) {o : Nat}
    (hx : x ≠ some o) (ho : o < w.created) {kind : TimerKind}
    (hreason : (w.obj o).closeReason = some kind.reason) :
    (v.obj o).closeReason = some kind.reason := by
  have hnot : ¬ Scope.untimed.reason kind.reason := fun hr => hr kind.isTimeout_reason
  rcases Nat.lt_or_ge o v.created with hlt | hge
  · exact ((h.obj o hlt hx).reason hreason).resolve_right hnot
  · exact absurd ((h.young o hx hge ho).closeReason _ hreason) hnot

/-- A step closes a session for its silence only if a timer finds it overdue. -/
theorem step_closes {t : Step} (ht : t.Within .untimed) (hw : w.Supervised cfg) {o : Nat}
    {kind : TimerKind} (ho : o < (step w t).created)
    (hreason : ((step w t).obj o).closeReason = some kind.reason)
    (hbefore : (w.obj o).closeReason ≠ some kind.reason) :
    ∃ i timer, t.input = .timer i ∧ w.timers[i]? = some timer ∧ timer.obj = o ∧
      timer.kind = kind ∧ (w.answered t).Overdue timer ∧
      (step w t).now = (w.answered t).now ∧
      ((step w t).obj o).lastRxAt = (w.obj o).lastRxAt := by
  have hkeeps := step_keeps ht (fun _ => trivial) hw.tidy
  by_cases hx : w.running t = some o
  · obtain ⟨i, timer, hi, htimer, rfl, hfires⟩ := World.fires_of_running hx
    rcases hfires.closed (Step.app_watches ht) (hw.answered t).tidy htimer hreason
      with hold | hr | ⟨hkind, hoverdue, hrx⟩
    · exact absurd hold hbefore
    · exact absurd kind.isTimeout_reason hr
    · exact ⟨i, timer, hi, htimer, rfl, (TimerKind.reason_inj hkind).symm, hoverdue,
        hkeeps.now, hrx⟩
  · exact absurd (hkeeps.not_timeout hx ho hreason) hbefore

/-- Supervision is never lost or doubled.  Between two steps every session that is connected has
one pending timer of each configured kind, as its flag says, whose delay ends less than a
millisecond after the session's allowance does; and a session is closed for its silence only when
the allowance is used up.  The application may do anything but close sessions in the timers'
name. -/
theorem supervision_kept (cfg : Config) (arrivals : Nat) (steps : List Step) :
    let w := run cfg arrivals steps
    (∀ e ∈ w.sessions, (w.obj e.2).state = .connected → ∀ kind : TimerKind,
      (w.pending e.2 kind).length = (if 0 < cfg.timeoutMs kind then 1 else 0) ∧
      (w.obj e.2).timerArmed kind = decide (0 < cfg.timeoutMs kind) ∧
      ∀ timer ∈ w.pending e.2 kind, timer.askedAt + timer.delayMs * 1000000 <
        (w.obj e.2).lastRxAt + kind.allowanceMs (cfg.timeoutMs kind) * 1000000 + 1000000) ∧
    ∀ t : Step, t.Within .untimed → ∀ o < (step w t).created, ∀ kind : TimerKind,
      ((step w t).obj o).closeReason = some kind.reason →
      (w.obj o).closeReason ≠ some kind.reason →
      0 < cfg.timeoutMs kind ∧ kind.allowanceMs (cfg.timeoutMs kind) * 1000000 ≤
        (step w t).now - ((step w t).obj o).lastRxAt := by
  intro w
  have hw : w.Supervised cfg := supervised_run cfg arrivals steps
  constructor
  · intro e he hc kind
    have hwatched := hw.watched e he hc
    have hcfg : (w.obj e.2).timeoutMs kind = cfg.timeoutMs kind :=
      (hwatched.timeoutMs kind).trans (congrArg (Config.timeoutMs · kind) hw.cfg)
    rw [← hcfg]
    exact ⟨(hwatched.armed kind).length, (hwatched.armed kind).flag, (hwatched.armed kind).due⟩
  · intro t ht o ho kind hreason hbefore
    obtain ⟨i, timer, -, -, rfl, rfl, hoverdue, hnow, hrx⟩ :=
      step_closes ht hw ho hreason hbefore
    obtain ⟨id, hlisted⟩ := hoverdue.listed
    have hwatched := (hw.answered t).watched _ hlisted hoverdue.connected
    have hcfg : ((w.answered t).obj timer.obj).timeoutMs timer.kind = cfg.timeoutMs timer.kind :=
      (hwatched.timeoutMs timer.kind).trans (congrArg (Config.timeoutMs · timer.kind) hw.cfg)
    rw [← hcfg, hnow, hrx]
    refine ⟨hoverdue.configured, ?_⟩
    exact (Nat.mul_le_mul_right _ hoverdue.silent).trans (Nat.div_mul_le_self _ _)

end Runs

end HyperNet.Net
