import Mathlib.Data.List.Induction
import HyperNet.Net.Timeouts

/-!
# Probes before a heartbeat timeout

`onHeartbeatTimer_` sends a `kOpcodePing` when it runs in the second interval of a session's
silence and closes the session when it runs later.  Nothing makes it run in that interval: a timer
that is late enough finds two intervals gone at once.  So a session that is closed for want of a
heartbeat has been probed just if its timer ran in time (`heartbeat_probed_iff`).
-/

namespace HyperNet.Net

open Buffer Protocol Reentrant

/-! ## A send that leaves its session connected -/

section Stays

variable {scope : Scope} {app : Callback → World → World} {w : World} {o : Nat}
  (happ : ∀ c w, Watches scope none w (app c w))
include happ

theorem beginClose_state_ne (hw : w.Tidy) (ho : o < w.created) (reason : String) (err : Nat) :
    ((beginClose app o reason err w).obj o).state ≠ .connected := by
  intro hafter
  by_cases hc : (w.obj o).state = .connected
  · cases (beginClose_closes happ hw ho hc reason err).state hafter
  · rw [beginClose_of_ended hc] at hafter
    exact hc hafter

theorem setWriteInterest_stays (hw : w.Tidy) (ho : o < w.created) {enable : Bool}
    (hc : ((setWriteInterest app o enable w).obj o).state = .connected) :
    (w.obj o).Aside ((setWriteInterest app o enable w).obj o) := by
  unfold setWriteInterest at hc ⊢
  dsimp only at hc ⊢
  split
  · constructor <;> rfl
  split
  · constructor <;> rfl
  split
  · constructor <;> rfl
  next hs hmask hfd =>
    rw [if_neg hs, if_neg hmask, if_neg hfd] at hc
    split
    next loop e hres =>
      rw [hres] at hc
      have hloop : Watches scope none w (w.setLoop loop).popCtl :=
        .of_aside (by constructor <;> rfl)
      have hkeeps := hloop hw
      exact absurd hc (beginClose_state_ne happ hkeeps.tidy
        (Nat.lt_of_lt_of_le ho hkeeps.created) _ e)
    next loop hres =>
      rw [World.modify, World.obj_setObj_self]
      constructor <;> rfl

theorem setPipe_stays (hw : w.Tidy) (ho : o < w.created) (p : Pipe) {enable : Bool}
    (hc : ((setWriteInterest app o enable (w.setPipe o p)).obj o).state = .connected) :
    (w.obj o).Aside ((setWriteInterest app o enable (w.setPipe o p)).obj o) := by
  have hpipe : Watches scope none w (w.setPipe o p) := .of_sets (.setPipe w o p)
  have hkeeps := hpipe hw
  have hstays := setWriteInterest_stays happ hkeeps.tidy (Nat.lt_of_lt_of_le ho hkeeps.created) hc
  have hobj : (w.setPipe o p).obj o =
      { w.obj o with sendRing := p.ring, sent := p.sent, lastWrite := p.last } :=
    World.obj_setObj_self _ _ _
  rw [hobj] at hstays
  exact { hstays with }

theorem enqueuePacketU16Coalesced_stays (hw : w.Tidy) (ho : o < w.created)
    {lenHdr4 opHdr2 : List UInt8} {body : Body}
    (hc : ((enqueuePacketU16Coalesced app o lenHdr4 opHdr2 body w).1.obj o).state = .connected) :
    (enqueuePacketU16Coalesced app o lenHdr4 opHdr2 body w).2 = true ∧
      (w.obj o).Aside ((enqueuePacketU16Coalesced app o lenHdr4 opHdr2 body w).1.obj o) := by
  unfold enqueuePacketU16Coalesced at hc ⊢
  dsimp only at hc ⊢
  split
  next hended =>
    rw [if_pos hended] at hc
    exact absurd hc hended
  next hconnected =>
  rw [if_neg hconnected] at hc
  split
  next hnull =>
    rw [if_pos hnull] at hc
    exact absurd hc (beginClose_state_ne happ hw ho _ 0)
  next hbody =>
  rw [if_neg hbody] at hc
  split
  next p reason err hres =>
    rw [hres] at hc
    have hpipe : Watches scope none w (w.setPipe o p) := .of_sets (.setPipe w o p)
    have hkeeps := hpipe hw
    exact absurd hc (beginClose_state_ne happ hkeeps.tidy
      (Nat.lt_of_lt_of_le ho hkeeps.created) reason err)
  next p enable hres =>
    rw [hres] at hc
    exact ⟨decide_eq_true hc, setPipe_stays happ hw ho p hc⟩

/-- A packet that fits is accepted, if its session is there afterwards. -/
theorem sendPacketU16_stays (hw : w.Tidy) {id : UInt64} (hlisted : (id, o) ∈ w.sessions)
    {opcode : UInt16} {body : Body}
    (hfits : MessageHeader.payloadLenForBody body.len ≤ MessageHeader.kMaxPayloadLenU64)
    (hc : ((sendPacketU16 app id opcode body w).1.obj o).state = .connected) :
    ∃ s, (w.obj o).Aside s ∧
      (sendPacketU16 app id opcode body w).1.obj o = s.acceptCall ⟨opcode, body.data⟩ := by
  unfold sendPacketU16 at hc ⊢
  dsimp only at hc ⊢
  rw [if_neg (Nat.not_lt_of_le hfits), hw.find_of_mem hlisted] at hc ⊢
  dsimp only at hc ⊢
  generalize MessageHeader.mk _ opcode = hdr at hc ⊢
  have henter : Watches scope none w (w.modify o (·.enterCall ⟨opcode, body.data⟩)) :=
    .modify (.of_aside (by constructor <;> rfl))
  have hkeeps := henter hw
  have ho := Nat.lt_of_lt_of_le (hw.sessions _ hlisted) hkeeps.created
  have hobj : (w.modify o (·.enterCall ⟨opcode, body.data⟩)).obj o =
      (w.obj o).enterCall ⟨opcode, body.data⟩ := World.obj_setObj_self _ _ _
  generalize w.modify o (·.enterCall ⟨opcode, body.data⟩) = w₁ at hc hkeeps ho hobj ⊢
  have hstays : ((enqueuePacketU16Coalesced app o hdr.encodeLen hdr.encodeOpcode body w₁).1.obj
      o).state = .connected → _ := enqueuePacketU16Coalesced_stays happ hkeeps.tidy ho
  generalize enqueuePacketU16Coalesced app o hdr.encodeLen hdr.encodeOpcode body w₁ = res
    at hc hstays ⊢
  obtain ⟨v, accepted⟩ := res
  cases accepted with
  | false => cases (hstays hc).1
  | true =>
    dsimp only at hc ⊢
    rw [World.modify, World.obj_setObj_self] at hc ⊢
    have haside := (hstays hc).2
    rw [hobj] at haside
    exact ⟨v.obj o, { haside with }, rfl⟩

end Stays

/-! ## Probes -/

/-- A ping has been sent since the last bytes arrived. -/
def Session.Probed (s : Session) : Prop :=
  ∃ p ∈ s.accepted.drop s.acceptedAtRx, p.opcode = kOpcodePing

/-- The heartbeat timer of a session runs out in the second interval of its silence. -/
def ProbesAt (w : World) (t : Step) (o : Nat) : Prop :=
  ∃ i timer, t.input = .timer i ∧ w.timers[i]? = some timer ∧ timer.obj = o ∧
    timer.kind = .heartbeat ∧
    (w.obj o).heartbeatIntervalMs.toNat ≤ (w.answered t).elapsedMs o ∧
    (w.answered t).elapsedMs o < (w.obj o).heartbeatIntervalMs.toNat * 2

/-- It did so after the last bytes of the run arrived. -/
def WasProbed (cfg : Config) (arrivals : Nat) (steps : List Step) (o : Nat) : Prop :=
  ∃ before t after, steps = before ++ t :: after ∧ ProbesAt (run cfg arrivals before) t o ∧
    ((run cfg arrivals before).obj o).received = ((run cfg arrivals steps).obj o).received

variable {s s' : Session}

theorem Session.Keeps.probed_iff {now : Nat} (h : s.Keeps .unprobed now s')
    (hsilent : s.Silent s') : s'.Probed ↔ s.Probed := by
  rw [Session.Probed, hsilent.acceptedAtRx]
  constructor
  · rintro ⟨p, hp, hping⟩
    exact ⟨p, (h.mem_drop hp).resolve_right (fun hne => hne hping), hping⟩
  · rintro ⟨p, hp, hping⟩
    obtain ⟨added, hadded, -⟩ := h.accepted
    rw [hadded, List.drop_append]
    exact ⟨p, List.mem_append_left _ hp, hping⟩

theorem Session.Hears.not_probed {now : Nat} (h : s.Hears .unprobed now s') :
    ¬ s'.Probed := fun ⟨p, hp, hping⟩ => h.since p hp hping

/-- What a step does to the record of a session that is there before and after it: nothing
arrives and a probe may be sent, or bytes arrive and probes count anew. -/
def Session.Records (s s' : Session) (probes : Prop) : Prop :=
  (s'.received = s.received ∧ (s'.Probed ↔ s.Probed ∨ probes)) ∨
    (s.received.length < s'.received.length ∧ ¬ s'.Probed)

theorem Session.Records.congr {probes probes' : Prop} (h : s.Records s' probes)
    (hiff : probes ↔ probes') : s.Records s' probes' := by
  rwa [Session.Records, hiff] at h

theorem Session.Keeps.records {now : Nat} (h : s.Keeps .unprobed now s') {probes : Prop}
    (hnot : ¬ probes) : s.Records s' probes := by
  rcases h.rx with hsilent | hhears
  · exact .inl ⟨hsilent.received, (h.probed_iff hsilent).trans (or_iff_left hnot).symm⟩
  · exact .inr ⟨hhears.received, hhears.not_probed⟩

/-- A probe is sent. -/
theorem Session.Records.of_ping {packet : Packet} (hreceived : s'.received = s.received)
    (haccepted : s'.accepted = s.accepted ++ [packet]) (hping : packet.opcode = kOpcodePing)
    (hmark : s'.acceptedAtRx = s.acceptedAtRx) (hle : s.acceptedAtRx ≤ s.accepted.length)
    {probes : Prop} (h : probes) : s.Records s' probes := by
  refine .inl ⟨hreceived, iff_of_true ?_ (.inr h)⟩
  rw [Session.Probed, haccepted, hmark, List.drop_append_of_le_length hle]
  exact ⟨packet, List.mem_append_right _ (List.mem_singleton_self _), hping⟩

theorem Session.Records.of_same (hreceived : s'.received = s.received)
    (haccepted : s'.accepted = s.accepted) (hmark : s'.acceptedAtRx = s.acceptedAtRx)
    {probes : Prop} (hnot : ¬ probes) : s.Records s' probes := by
  refine .inl ⟨hreceived, ?_⟩
  rw [or_iff_left hnot, Session.Probed, haccepted, hmark, Session.Probed]

/-- The session's own timer. -/
theorem Fires.records {app : Callback → World → World} {i : Nat} {timer : Timer} {v w : World}
    (happ : ∀ c w, Watches .unprobed none w (app c w)) (h : Fires app i timer w v) (hw : w.Tidy)
    (htimer : w.timers[i]? = some timer) {id : UInt64}
    (hlisted : (id, timer.obj) ∈ v.sessions) (hc : (v.obj timer.obj).state = .connected)
    (hmark : (w.obj timer.obj).acceptedAtRx ≤ (w.obj timer.obj).accepted.length) :
    (w.obj timer.obj).Records (v.obj timer.obj) (timer.kind = .heartbeat ∧
      (w.obj timer.obj).heartbeatIntervalMs.toNat ≤ w.elapsedMs timer.obj ∧
      w.elapsedMs timer.obj < (w.obj timer.obj).heartbeatIntervalMs.toNat * 2) := by
  have hdisarm : w.Keeps .unprobed (some timer.obj) _ := disarm_watches htimer hw
  have hlt := Nat.lt_of_lt_of_le (hw.timer_lt htimer) hdisarm.created
  cases h with
  | lapsed hunlisted => exact absurd hlisted (hunlisted id)
  | rests _ _ hoff =>
    rw [World.obj_disarm] at hc ⊢
    rw [Session.state_setTimerArmed] at hc
    have hzero := hoff.resolve_right fun hended => hended hc
    refine .of_same (Session.received_setTimerArmed _ _ _) (Session.accepted_setTimerArmed _ _ _)
      (Session.acceptedAtRx_setTimerArmed _ _ _) ?_
    rintro ⟨hkind, -, huntil⟩
    rw [hkind] at hzero
    have hinterval : (w.obj timer.obj).heartbeatIntervalMs = 0 := hzero
    rw [hinterval] at huntil
    exact Nat.not_lt_zero _ huntil
  | closes _ _ _ _ _ => exact absurd hc (beginClose_state_ne happ hdisarm.tidy hlt _ 0)
  | rearms _ delayMs _ _ hearly _ =>
    obtain ⟨armed, hobj⟩ := obj_armTimerAfter timer.kind timer.obj delayMs (w.disarm i timer)
    rw [hobj, World.obj_disarm]
    refine .of_same (by simp) (by simp) (by simp) ?_
    rintro ⟨hkind, hfrom, -⟩
    rw [hkind] at hearly
    exact Nat.not_le_of_lt hearly hfrom
  | probes _ delayMs hlisted' _ hkind hfrom huntil _ =>
    obtain ⟨armed, hobj⟩ := obj_armTimerAfter .heartbeat timer.obj delayMs
      (sendPacketU16 app (w.obj timer.obj).id kOpcodePing (.null 0) (w.disarm i timer)).1
    rw [hobj] at hc ⊢
    rw [Session.state_setTimerArmed] at hc
    have hlisted₁ : ((w.obj timer.obj).id, timer.obj) ∈ (w.disarm i timer).sessions := by
      rw [hw.ids _ hlisted']
      exact hlisted'
    obtain ⟨s, haside, hsent⟩ := sendPacketU16_stays happ hdisarm.tidy hlisted₁ (by decide) hc
    rw [World.obj_disarm] at haside
    rw [hsent]
    have haccepted : ((s.acceptCall ⟨kOpcodePing, []⟩).setTimerArmed armed .heartbeat).accepted =
        (w.obj timer.obj).accepted ++ [⟨kOpcodePing, []⟩] := by
      rw [Session.accepted_setTimerArmed, Session.acceptCall, haside.accepted,
        Session.accepted_setTimerArmed]
    refine .of_ping ?_ haccepted rfl ?_ hmark ⟨hkind, hfrom, huntil⟩
    · rw [Session.received_setTimerArmed]
      exact haside.received.trans (Session.received_setTimerArmed _ _ _)
    · rw [Session.acceptedAtRx_setTimerArmed]
      exact haside.acceptedAtRx.trans (Session.acceptedAtRx_setTimerArmed _ _ _)

/-! ## Runs -/

section Runs

variable {cfg : Config} {w : World} {t : Step} {o : Nat} {id : UInt64}

theorem ProbesAt.running (h : ProbesAt w t o) : w.running t = some o := by
  obtain ⟨i, timer, hi, htimer, rfl, -⟩ := h
  rw [World.running, hi]
  exact congrArg (Option.map Timer.obj) htimer

theorem ProbesAt.lt_created (h : ProbesAt w t o) (hw : w.Supervised cfg) : o < w.created := by
  obtain ⟨i, timer, -, htimer, rfl, -⟩ := h
  exact hw.tidy.timers timer (List.mem_of_getElem? htimer)

theorem created_step_le (hw : w.Supervised cfg) (t : Step) : w.created ≤ (step w t).created :=
  (step_keeps t.within_all (fun _ => trivial) hw.tidy).created

/-- A session that is there after a step and was there before. -/
theorem step_records (ht : t.Within .unprobed) (hw : w.Supervised cfg)
    (he : (id, o) ∈ (step w t).sessions) (hc : ((step w t).obj o).state = .connected)
    (hlt : o < w.created) :
    (id, o) ∈ w.sessions ∧ (w.obj o).state = .connected ∧
      (w.obj o).Records ((step w t).obj o) (ProbesAt w t o) := by
  have hkeeps := step_keeps ht (fun _ => trivial) hw.tidy
  have hlisted : (id, o) ∈ w.sessions := hkeeps.mem_of_lt he hlt
  by_cases hx : w.running t = some o
  · obtain ⟨i, timer, hi, htimer, rfl, hfires⟩ := World.fires_of_running hx
    have hbefore : (w.obj timer.obj).state = .connected := hfires.connected hc
    have hrecords := hfires.records (Step.app_watches ht) (hw.answered t).tidy htimer he hc
      (hw.watched _ hlisted hbefore).marked
    refine ⟨hlisted, hbefore, hrecords.congr ⟨?_, ?_⟩⟩
    · exact fun hprobes => ⟨i, timer, hi, htimer, rfl, hprobes⟩
    · rintro ⟨i', timer', hi', htimer', -, hprobes⟩
      cases hi.symm.trans hi'
      cases htimer.symm.trans htimer'
      exact hprobes
  · have hobj := hkeeps.obj o hlt hx
    exact ⟨hlisted, hobj.state hc, hobj.records fun hprobes => hx hprobes.running⟩

/-- A session that is new has not been probed. -/
theorem step_new (ht : t.Within .unprobed) (hw : w.Supervised cfg)
    (he : (id, o) ∈ (step w t).sessions) (hle : w.created ≤ o) : ¬ ((step w t).obj o).Probed := by
  have hkeeps := step_keeps ht (fun _ => trivial) hw.tidy
  have hx : w.running t ≠ some o := by
    intro hx
    obtain ⟨i, timer, -, htimer, rfl, -⟩ := World.fires_of_running hx
    exact Nat.not_lt_of_le hle (hw.tidy.timers timer (List.mem_of_getElem? htimer))
  rintro ⟨p, hp, hping⟩
  have hyoung := hkeeps.young o hx hle (hkeeps.tidy.sessions _ he)
  exact hyoung.accepted p (List.mem_of_mem_drop hp) hping

theorem run_concat (cfg : Config) (arrivals : Nat) (steps : List Step) (t : Step) :
    run cfg arrivals (steps ++ [t]) = step (run cfg arrivals steps) t := List.foldl_concat ..

theorem created_run_le (cfg : Config) (arrivals : Nat) (before after : List Step) :
    (run cfg arrivals before).created ≤ (run cfg arrivals (before ++ after)).created := by
  induction after using List.reverseRecOn with
  | nil => rw [List.append_nil]
  | append_singleton after t ih =>
    rw [← List.append_assoc, run_concat]
    exact ih.trans (created_step_le (supervised_run cfg arrivals _) t)

/-- What has arrived for a session that is still there only grows. -/
theorem received_run_le {arrivals : Nat} {before after : List Step}
    (hsteps : ∀ t ∈ after, t.Within .unprobed)
    (he : (id, o) ∈ (run cfg arrivals (before ++ after)).sessions)
    (hc : ((run cfg arrivals (before ++ after)).obj o).state = .connected)
    (hlt : o < (run cfg arrivals before).created) :
    ((run cfg arrivals before).obj o).received.length ≤
      ((run cfg arrivals (before ++ after)).obj o).received.length := by
  induction after using List.reverseRecOn with
  | nil => rw [List.append_nil]
  | append_singleton after t ih =>
    rw [← List.append_assoc, run_concat] at he hc ⊢
    have hsup := supervised_run cfg arrivals (before ++ after)
    have hlt' := Nat.lt_of_lt_of_le hlt (created_run_le cfg arrivals before after)
    obtain ⟨hlisted, hconnected, hrecords⟩ :=
      step_records (hsteps t (by simp)) hsup he hc hlt'
    have hle := ih (fun t' ht' => hsteps t' (List.mem_append_left _ ht')) hlisted hconnected
    rcases hrecords with ⟨hsame, -⟩ | ⟨hlonger, -⟩
    · rw [hsame]
      exact hle
    · exact hle.trans hlonger.le

/-- The step at which a run is cut is its last one, or an earlier one. -/
theorem concat_eq_append_cons {before after steps : List Step} {t t' : Step}
    (h : steps ++ [t] = before ++ t' :: after) :
    (steps = before ∧ t = t') ∨ ∃ rest, after = rest ++ [t] ∧ steps = before ++ t' :: rest := by
  rcases List.eq_nil_or_concat' after with rfl | ⟨rest, last, rfl⟩
  · have hboth := List.append_inj' h rfl
    exact .inl ⟨hboth.1, List.singleton_inj.mp hboth.2⟩
  · rw [← List.cons_append, ← List.append_assoc] at h
    have hboth := List.append_inj' h rfl
    obtain rfl := List.singleton_inj.mp hboth.2
    exact .inr ⟨rest, rfl, hboth.1⟩

/-- The probe of a run is sent in its last step or before, and nothing arrives since. -/
theorem wasProbed_concat_iff {arrivals : Nat} {steps : List Step} {t : Step}
    (hsteps : ∀ t' ∈ steps, t'.Within .unprobed)
    (hlisted : (id, o) ∈ (run cfg arrivals steps).sessions)
    (hconnected : ((run cfg arrivals steps).obj o).state = .connected)
    (hgrows : ((run cfg arrivals steps).obj o).received =
        ((run cfg arrivals (steps ++ [t])).obj o).received ∨
      ((run cfg arrivals steps).obj o).received.length <
        ((run cfg arrivals (steps ++ [t])).obj o).received.length) :
    WasProbed cfg arrivals (steps ++ [t]) o ↔
      ((run cfg arrivals steps).obj o).received =
          ((run cfg arrivals (steps ++ [t])).obj o).received ∧
        (WasProbed cfg arrivals steps o ∨ ProbesAt (run cfg arrivals steps) t o) := by
  constructor
  · rintro ⟨before, t', after, hsplit, hprobes, hsame⟩
    rcases concat_eq_append_cons hsplit with ⟨rfl, rfl⟩ | ⟨rest, -, rfl⟩
    · exact ⟨hsame, .inr hprobes⟩
    · have hle := received_run_le (fun t'' ht'' => hsteps t'' (List.mem_append_right _ ht''))
        hlisted hconnected (hprobes.lt_created (supervised_run cfg arrivals before))
      rw [hsame] at hle
      have hstill := hgrows.resolve_right (Nat.not_lt_of_le hle)
      exact ⟨hstill, .inl ⟨before, t', rest, rfl, hprobes, hsame.trans hstill.symm⟩⟩
  · rintro ⟨hstill, ⟨before, t', after, rfl, hprobes, hsame⟩ | hprobes⟩
    · refine ⟨before, t', after ++ [t], ?_, hprobes, hsame.trans hstill⟩
      rw [List.append_assoc, List.cons_append]
    · exact ⟨steps, t, [], rfl, hprobes, hstill⟩

/-- A session has been probed since its last bytes just if its timer ran in time. -/
theorem probed_iff_wasProbed {arrivals : Nat} {steps : List Step}
    (hsteps : ∀ t ∈ steps, t.Within .unprobed) (he : (id, o) ∈ (run cfg arrivals steps).sessions)
    (hc : ((run cfg arrivals steps).obj o).state = .connected) :
    ((run cfg arrivals steps).obj o).Probed ↔ WasProbed cfg arrivals steps o := by
  -- on the last step of the run
  induction steps using List.reverseRecOn with
  | nil => exact absurd he List.not_mem_nil
  | append_singleton steps t ih =>
    have hsup := supervised_run cfg arrivals steps
    have ht := hsteps t (by simp)
    have hearlier : ∀ t' ∈ steps, t'.Within .unprobed := fun t' ht' =>
      hsteps t' (List.mem_append_left _ ht')
    have hrun := run_concat cfg arrivals steps t
    rw [hrun] at he hc
    rcases Nat.lt_or_ge o (run cfg arrivals steps).created with hlt | hge
    · obtain ⟨hlisted, hconnected, hrecords⟩ := step_records ht hsup he hc hlt
      rw [← hrun] at hrecords
      have hih := ih hearlier hlisted hconnected
      rcases hrecords with ⟨hsame, hprobed⟩ | ⟨hlonger, hprobed⟩
      · rw [wasProbed_concat_iff hearlier hlisted hconnected (.inl hsame.symm), hprobed, hih]
        exact (and_iff_right hsame.symm).symm
      · rw [wasProbed_concat_iff hearlier hlisted hconnected (.inr hlonger)]
        exact iff_of_false hprobed fun hwas => Nat.ne_of_lt hlonger (congrArg List.length hwas.1)
    · refine iff_of_false (hrun ▸ step_new ht hsup he hge) ?_
      rintro ⟨before, t', after, hsplit, hprobes, -⟩
      have hlt := hprobes.lt_created (supervised_run cfg arrivals before)
      rcases concat_eq_append_cons hsplit with ⟨rfl, -⟩ | ⟨rest, -, rfl⟩
      · exact Nat.not_lt_of_le hge hlt
      · have hle := created_run_le cfg arrivals before (t' :: rest)
        exact Nat.not_lt_of_le hge (Nat.lt_of_lt_of_le hlt hle)

end Runs

/-- A session that is closed for want of a heartbeat has been probed since its last bytes just
if its timer ran out in the second interval of its silence.  A timer that is late by an interval
closes a session that was never probed. -/
theorem heartbeat_probed_iff (cfg : Config) (arrivals : Nat) (steps : List Step)
    (hsteps : ∀ t ∈ steps, t.Within .unprobed) (t : Step) (ht : t.Within .untimed) (o : Nat)
    (ho : o < (run cfg arrivals (steps ++ [t])).created)
    (hclosed : ((run cfg arrivals (steps ++ [t])).obj o).closeReason = some "heartbeat_timeout")
    (hopen : ((run cfg arrivals steps).obj o).closeReason ≠ some "heartbeat_timeout") :
    ((run cfg arrivals steps).obj o).Probed ↔ WasProbed cfg arrivals steps o := by
  rw [run_concat] at ho hclosed
  have hsup := supervised_run cfg arrivals steps
  have hreason : ((step (run cfg arrivals steps) t).obj o).closeReason =
      some TimerKind.heartbeat.reason := hclosed
  obtain ⟨i, timer, -, -, rfl, -, hoverdue, -, -⟩ :=
    step_closes ht hsup ho hreason hopen
  obtain ⟨id, hlisted⟩ := hoverdue.listed
  exact probed_iff_wasProbed hsteps hlisted hoverdue.connected

/-- A connection of a worker whose heartbeat interval is ten milliseconds. -/
def sampleAccept : Step := { input := .accept 3 true }

/-- Its first timer runs out so many milliseconds later. -/
def sampleTimer (ms : Nat) : Step := { input := .timer 0, now := ms * 1000000 }

def sampleHeartbeat : Config := { sampleConfig with heartbeatIntervalMs := 10 }

theorem sampleTimer_within (scope : Scope) (ms : Nat) : (sampleTimer ms).Within scope :=
  ⟨fun _ _ => trivial, by rintro client ⟨⟩⟩

theorem sampleAccept_within (scope : Scope) : sampleAccept.Within scope :=
  ⟨fun _ _ => trivial, by rintro client ⟨⟩⟩

/-- On time, a probe is sent and then the session is closed. -/
theorem heartbeat_probed_iff_sample :
    ((run sampleHeartbeat 1 [sampleAccept, sampleTimer 10]).obj 0).Probed ↔
      WasProbed sampleHeartbeat 1 [sampleAccept, sampleTimer 10] 0 := by
  refine heartbeat_probed_iff sampleHeartbeat 1 [sampleAccept, sampleTimer 10] ?_ (sampleTimer 20)
    (sampleTimer_within _ 20) 0 (by decide) (by decide) (by decide)
  intro t ht
  rcases List.mem_cons.mp ht with rfl | ht
  · exact sampleAccept_within _
  · rw [List.mem_singleton.mp ht]
    exact sampleTimer_within _ 10

/-- The timer is asked for after ten milliseconds and runs after twenty: the session is closed
without a probe. -/
theorem late_timer_closes_unprobed :
    ((run sampleHeartbeat 1 [sampleAccept]).obj 0).state = .connected ∧
      ((run sampleHeartbeat 1 [sampleAccept, sampleTimer 20]).obj 0).closeReason =
        some "heartbeat_timeout" ∧
      ((run sampleHeartbeat 1 [sampleAccept, sampleTimer 20]).obj 0).accepted = [] := by
  decide

end HyperNet.Net
