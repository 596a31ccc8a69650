import HyperNet.Net.Timers

/-!
# The functions of a worker take paths of effects

One lemma for each function of `HyperNet.Net.Worker`: from a state that satisfies
`Lifecycle` it takes a path of effects, provided the application does.  Applications
do because all they can call are these functions again, which closes the circle
(`client_reach`, `Step.app_reach`), and with it every step and every run
(`step_path`, `lifecycle_run`).
-/

namespace HyperNet.Net

open Buffer Protocol Reentrant

section

variable {r : Option Nat} {app : Callback → World → World} {w : World} {o : Nat} {fd : Int}
  {arrivals : Nat}

theorem quiet_popCtl (w : World) : Quiet w w.popCtl := rfl

theorem quiet_setWrites (w : World) (writes : List WriteResult) :
    Quiet w (w.setWrites writes) := rfl

theorem modify_setObj (w : World) (o : Nat) (s : Session) (f : Session → Session) :
    (w.setObj o s).modify o f = w.setObj o (f s) := by
  rw [World.modify, World.obj_setObj_self, World.setObj_setObj]

theorem takeDown_eq (hfd : 0 ≤ (w.obj o).fd) (reason : String) :
    takeDown o reason w =
      ((w.setLoop (w.loop.set (w.obj o).fd none)).popCtl.closeFd (w.obj o).fd).setObj o
        { w.obj o with fd := -1, state := .closed, closeReason := some reason } := by
  have hremove : ∀ s, (w.setObj o s).removeFd (w.obj o).fd =
      (w.setLoop (w.loop.set (w.obj o).fd none)).popCtl.setObj o s := by
    intro s
    rw [World.removeFd, show (w.setObj o s).loop = w.loop from rfl, w.loop.removeFd_of_nonneg _ hfd]
    rfl
  have hsocket : ∀ (v : World) s, (v.setObj o s).closeSocket o =
      (v.closeFd s.fd).setObj o { s with fd := -1 } := by
    intro v s
    rw [World.closeSocket, World.obj_setObj_self]
    exact modify_setObj (v.closeFd s.fd) o s _
  simp only [takeDown, World.modify, World.obj_setObj_self, if_pos hfd, hremove, hsocket,
    World.setObj_setObj]

/-- Closing a session in use takes back everything about it and then tells the
application. -/
theorem beginClose_eq (app : Callback → World → World) (hc : (w.obj o).state = .connected)
    (hfd : 0 ≤ (w.obj o).fd) (hfind : w.sessions.lookup (w.obj o).id = some o) (reason : String)
    (err : Nat) :
    ∃ w', Quiet (w.detach o reason) w' ∧
      beginClose app o reason err w = app (.onSessionEnd (w.obj o).id) w' := by
  rw [beginClose, if_neg (by rw [hc]; nofun), if_neg (by rw [hc]; nofun), takeDown_eq hfd]
  generalize hdown : World.setObj _ o _ = down
  have hid : (down.obj o).id = (w.obj o).id := by
    rw [← hdown, World.obj_setObj_self]
  have hclosed : ∀ v : World, v.obj = down.obj → v.sessions = w.sessions →
      onSessionClosed app (v.obj o).id v =
        app (.onSessionEnd (w.obj o).id) ((v.erase (w.obj o).id).sessionEnded o) := by
    intro v hobj hsessions
    have hfind' : v.find (w.obj o).id = some o := by
      rw [World.find, hsessions, hfind]
    simp only [hobj, hid, onSessionClosed, hfind']
  dsimp only
  split
  · refine ⟨_, ?_, hclosed _ rfl (by rw [← hdown]; rfl)⟩
    subst hdown
    rfl
  · refine ⟨_, ?_, hclosed _ rfl (by rw [← hdown]; rfl)⟩
    subst hdown
    rfl

/-! ## Closing -/

section Closing

variable (happ : ∀ c w, Reach r w (app c w))
include happ

/-- Closing a session, right after what its send side went through. -/
theorem beginClose_reach {s : Session} (ho : o < w.created) (hc : (w.obj o).state = .connected)
    (hs : (w.obj o).Stops s) (reason : String) (err : Nat) :
    Reach r w (beginClose app o reason err (w.setObj o s)) := by
  intro h
  have h' : Lifecycle (w.setObj o s) := by
    cases hs <;> exact h.setObj rfl rfl rfl rfl
  have hc' : ((w.setObj o s).obj o).state = .connected := by
    rw [World.obj_setObj_self]
    cases hs <;> exact hc
  have hl := h'.live ho hc'
  obtain ⟨w', hq, heq⟩ :=
    beginClose_eq app hc' hl.nonneg (h'.find_of_mem hl.listed) reason err
  rw [heq]
  have hclosed : Effect r w w' := .closed o s reason ho hc hs hq
  exact (Relation.ReflTransGen.single hclosed).trans (happ _ w' (hclosed.lifecycle h))

/-- Once closed, a session is closed when `beginClose_` returns, whatever the
application did meanwhile. -/
theorem beginClose_closed (h : Lifecycle w) (hl : Live w o) (reason : String) (err : Nat) :
    ((beginClose app o reason err w).obj o).state = .closed ∧
    ((beginClose app o reason err w).obj o).closeReason = some reason := by
  obtain ⟨ho, -⟩ := h.entries _ hl.listed
  obtain ⟨w', hq, heq⟩ :=
    beginClose_eq app hl.state hl.nonneg (h.find_of_mem hl.listed) reason err
  have hclosed : Effect r w w' := .closed o (w.obj o) reason ho hl.state .idle
    (by rw [World.setObj_obj]; exact hq)
  have hcore := hq.obj_core o
  rw [World.detach, World.obj_setObj_self] at hcore
  have hstate : (w'.obj o).state = .closed := (congrArg Session.state hcore :)
  have hreason : (w'.obj o).closeReason = some reason := (congrArg Session.closeReason hcore :)
  have hev := (happ (.onSessionEnd (w.obj o).id) w' (hclosed.lifecycle h)).evolves.obj o
    (Nat.lt_of_lt_of_le ho hclosed.evolves.created)
  rw [heq]
  exact ⟨hev.closed hstate, (hev.closeReason hstate).trans hreason⟩

theorem beginClose_reach_idle (ho : o < w.created) (reason : String) (err : Nat) :
    Reach r w (beginClose app o reason err w) := by
  by_cases hc : (w.obj o).state = .connected
  · have h := beginClose_reach happ ho hc .idle reason err
    rw [World.setObj_obj] at h
    exact h
  · have heq : beginClose app o reason err w = w := by
      unfold beginClose
      cases hs : (w.obj o).state with
      | connected => exact absurd hs hc
      | closing | closed => rfl
    rw [heq]
    exact .refl w

theorem closeByPolicy_reach (id : UInt64) (reason : Option String) (err : Nat) (w : World) :
    Reach r w (closeByPolicy app id reason err w) := by
  intro h
  unfold closeByPolicy
  cases hf : w.find id with
  | none => exact .refl
  | some o => exact beginClose_reach_idle happ (h.live_of_find hf).1 _ err h

theorem closeAllByPolicy_reach (reason : Option String) (err : Nat) (order : List UInt64)
    (w : World) : Reach r w (closeAllByPolicy app reason err order w) :=
  foldl_rel .refl .trans (fun w id => closeByPolicy_reach happ id reason err w) w _

end Closing

/-! ## Sending -/

/-- `setWriteInterest_` finds the mask as it should be, sets it here and in the
loop's table, or closes the session. -/
theorem setWriteInterest_cases (app : Callback → World → World)
    (hc : (w.obj o).state = .connected) (hfd : 0 ≤ (w.obj o).fd) (enable : Bool) :
    (setWriteInterest app o enable w = w ∧ (w.obj o).currentEpollMask = interestMask enable) ∨
    (∃ ctx, w.loop.fdContexts (w.obj o).fd = some ctx ∧
      setWriteInterest app o enable w = (w.mask o ctx (interestMask enable)).popCtl) ∨
    ∃ e, setWriteInterest app o enable w = beginClose app o "epoll_mod_failed" e w.popCtl := by
  unfold setWriteInterest
  rw [if_neg (not_not_intro hc)]
  dsimp only
  split
  next hmask => exact .inl ⟨rfl, hmask⟩
  rw [if_neg (Int.not_lt.mpr hfd)]
  rcases w.loop.updateFd_cases w.ctl (w.obj o).fd (interestMask enable) with
    ⟨ctx, hctx, hupd⟩ | ⟨e, hupd⟩
  · rw [hupd]
    exact .inr (.inl ⟨ctx, hctx, rfl⟩)
  · rw [hupd]
    exact .inr (.inr ⟨e, rfl⟩)

/-- A session whose send side has moved on inside a call. -/
def Session.duringCall (s : Session) (p : Pipe) (packet : Packet) : Session :=
  { s.enterCall packet with sendRing := p.ring, sent := p.sent }

/-- The answers a send path has used up, and the last of them. -/
def World.wrote (w : World) (o : Nat) (p : Pipe) : World :=
  (w.setWrites p.answers).setObj o { w.obj o with lastWrite := p.last }

section

variable (w) (o) (p : Pipe)

theorem quiet_wrote : Quiet w (w.wrote o p) :=
  (quiet_setWrites w p.answers).trans (.setObj rfl)

theorem obj_wrote :
    (w.wrote o p).obj o = { w.obj o with lastWrite := p.last } := World.obj_setObj_self _ _ _

theorem quiet_setPipe :
    Quiet (w.setObj o { w.obj o with sendRing := p.ring, sent := p.sent }) (w.setPipe o p) := by
  have h := quiet_wrote (w.setObj o { w.obj o with sendRing := p.ring, sent := p.sent }) o p
  rw [World.wrote, World.obj_setObj_self] at h
  refine h.trans (Eq.symm ?_)
  exact congrArg World.core (World.setObj_setObj (w.setWrites p.answers) o _ _)

theorem setPipe_enterCall (packet : Packet) :
    (w.setObj o ((w.obj o).enterCall packet)).setPipe o p =
      (w.wrote o p).setObj o (((w.wrote o p).obj o).duringCall p packet) := by
  rw [obj_wrote, World.wrote, World.setObj_setObj]
  exact modify_setObj (w.setWrites p.answers) o _ _

end

/-- The segments of a packet are its frame, unless its body is missing. -/
theorem frame_of_body (opcode : UInt16) (body : Body)
    (h : ¬ (0 < body.len ∧ body.isNull = true)) :
    let hdr : MessageHeader :=
      ⟨UInt32.ofNat (MessageHeader.payloadLenForBody body.len), opcode⟩
    [hdr.encodeLen, hdr.encodeOpcode, body.data].flatten = Packet.frame ⟨opcode, body.data⟩ := by
  intro hdr
  have hlen : body.len = body.data.length := by
    cases body with
    | bytes data => rfl
    | null len => exact Nat.eq_zero_of_not_pos fun hpos => h ⟨hpos, rfl⟩
  have hframe := encode_eq_frame opcode body.data
  rw [← hlen] at hframe
  rw [Packet.frame, ← hframe]
  simp only [List.flatten_cons, List.flatten_nil, List.append_nil, List.append_assoc]
  rfl

section Sending

variable (happ : ∀ c w, Reach r w (app c w))
include happ

theorem setWriteInterest_reach (ho : o < w.created) (enable : Bool) :
    Reach r w (setWriteInterest app o enable w) := by
  intro h
  by_cases hc : (w.obj o).state = .connected
  · rcases setWriteInterest_cases app hc (h.live ho hc).nonneg enable with
      ⟨heq, -⟩ | ⟨ctx, hctx, heq⟩ | ⟨e, heq⟩
    · rw [heq]
    · rw [heq]
      exact .single (.masked o ctx _ ho hc hctx rfl)
    · rw [heq]
      exact (Reach.of_quiet (quiet_popCtl w)).trans
        (beginClose_reach_idle (w := w.popCtl) happ ho _ e) h
  · rw [setWriteInterest, if_pos hc]

theorem onWritable_reach (ho : o < w.created) : Reach r w (onWritable app o w) := by
  by_cases hc : (w.obj o).state = .connected
  · unfold onWritable
    rw [if_neg (not_not_intro hc)]
    have hflush := flushSend_spec (w.obj o).sendRing (w.obj o).sent (w.obj o).lastWrite w.writes
    generalize flushSend _ _ _ _ = res at hflush
    obtain ⟨p, out⟩ := res
    have hsent : Reach r w (w.setPipe o p) := .of_effect fun _ =>
      .sends o _ ho hc (.flushed p ⟨hflush.stream, hflush.sent, hflush.capacity⟩)
        (quiet_setPipe w o p)
    cases out with
    | keep => exact hsent.trans (setWriteInterest_reach (w := w.setPipe o p) happ ho _)
    | close reason err =>
      exact hsent.trans (beginClose_reach_idle (w := w.setPipe o p) happ ho reason err)
  · rw [onWritable, if_pos hc]
    exact .refl w

omit happ in
theorem mask_setObj (w : World) (o : Nat) (s : Session) (ctx : FdContext Handler)
    (events : UInt32) :
    (w.setObj o s).mask o ctx events =
      (w.setLoop (w.loop.set s.fd (some { ctx with registeredEvents := events }))).setObj o
        { s with currentEpollMask := events } := by
  rw [World.mask, World.obj_setObj_self]
  exact World.setObj_setObj (w.setLoop _) o s _

/-- The end of a call whose bytes are all sent or queued: the mask, and the answer. -/
theorem finishCall_reach {p : Pipe} {packet : Packet} (ho : o < w.created)
    (hc : (w.obj o).state = .connected) (hcarry : (w.obj o).pipe.Carries p packet.frame)
    {enable : Bool} {v : World}
    (hv : setWriteInterest app o enable (w.setObj o ((w.obj o).duringCall p packet)) = v) :
    Reach r w (if (v.obj o).state = .connected then v.modify o (·.acceptCall packet) else v) := by
  intro h
  have hl := h.live ho hc
  have hobj := w.obj_setObj_self o ((w.obj o).duringCall p packet)
  rcases setWriteInterest_cases app (w := w.setObj o ((w.obj o).duringCall p packet))
      (by rw [hobj]; exact hc) (by rw [hobj]; exact hl.nonneg) enable with
    ⟨heq, -⟩ | ⟨ctx, hctx, heq⟩ | ⟨e, heq⟩
  · rw [heq] at hv
    subst hv
    rw [hobj, if_pos (show ((w.obj o).duringCall p packet).state = _ from hc), modify_setObj]
    exact .single (.sends o _ ho hc (.packet p packet hcarry) rfl)
  · rw [heq, mask_setObj] at hv
    rw [hobj] at hctx
    subst hv
    generalize interestMask enable = events
    generalize hs : { (w.obj o).duringCall p packet with currentEpollMask := events } = s
    generalize hloop : w.loop.set ((w.obj o).duringCall p packet).fd
      (some { ctx with registeredEvents := events }) = loop
    have hmasked : Effect r w (w.mask o ctx events) := .masked o ctx _ ho hc hctx rfl
    have hself : (w.mask o ctx events).obj o = { w.obj o with currentEpollMask := events } :=
      World.obj_setObj_self _ _ _
    rw [show ((w.setLoop loop).setObj o s).popCtl = (w.setLoop loop).popCtl.setObj o s from rfl,
      World.obj_setObj_self, if_pos (by rw [← hs]; exact hc), modify_setObj]
    refine (Relation.ReflTransGen.single hmasked).tail (.sends o (s.acceptCall packet) ho ?_ ?_ ?_)
    · rw [hself]
      exact hc
    · rw [hself, ← hs]
      exact .packet p packet hcarry
    · rw [World.mask, World.setObj_setObj, ← hloop]
      rfl
  · rw [heq] at hv
    have hdown : Lifecycle (w.popCtl.setObj o ((w.obj o).duringCall p packet)) :=
      (h.quiet (quiet_popCtl w)).setObj rfl rfl rfl rfl
    have hclosed := beginClose_closed happ hdown
      (hdown.live ho (by rw [World.obj_setObj_self]; exact hc)) "epoll_mod_failed" e
    have hstops : (w.obj o).Stops ((w.obj o).duringCall p packet) :=
      .inCall p packet hcarry.sent (hcarry.stream ▸ List.prefix_append _ _) hcarry.capacity
    have hclose := beginClose_reach (w := w.popCtl) happ ho hc hstops "epoll_mod_failed" e
    rw [show (w.setObj o ((w.obj o).duringCall p packet)).popCtl =
      w.popCtl.setObj o ((w.obj o).duringCall p packet) from rfl] at hv
    subst hv
    rw [if_neg (by rw [hclosed.1]; rintro ⟨⟩)]
    exact (Reach.of_quiet (quiet_popCtl w)).trans hclose h

theorem enqueuePacketU16Coalesced_reach {packet : Packet} {lenHdr4 opHdr2 : List UInt8}
    {body : Body} {v : World} {ok : Bool} (ho : o < w.created)
    (hc : (w.obj o).state = .connected)
    (hbytes : ¬ (0 < body.len ∧ body.isNull = true) →
      [lenHdr4, opHdr2, body.data].flatten = packet.frame)
    (hres : enqueuePacketU16Coalesced app o lenHdr4 opHdr2 body
      (w.modify o (·.enterCall packet)) = (v, ok)) :
    Reach r w (if ok = true then v.modify o (·.acceptCall packet) else v) := by
  rw [World.modify, enqueuePacketU16Coalesced, World.obj_setObj_self,
    if_neg (not_not_intro (show ((w.obj o).enterCall packet).state = _ from hc))] at hres
  split at hres
  · obtain ⟨rfl, rfl⟩ := Prod.mk.inj hres
    have hstops : (w.obj o).Stops ((w.obj o).duringCall (w.obj o).pipe packet) :=
      .inCall _ packet (List.prefix_refl _)
        ((List.prefix_append _ _).trans (List.prefix_append _ _)) rfl
    exact beginClose_reach happ ho hc hstops _ 0
  next hbody =>
    have hbytes := hbytes hbody
    have hne : [lenHdr4, opHdr2, body.data].flatten ≠ [] := by
      rw [hbytes]
      exact frame_ne_nil _ _
    have hspec := sendCoalesced_spec (w.obj o).sendRing (w.obj o).sent hne w.writes none
    rw [hbytes] at hspec
    have hsame : sendCoalesced ((w.obj o).enterCall packet).sendRing
        ((w.obj o).enterCall packet).sent [lenHdr4, opHdr2, body.data]
        (w.setObj o ((w.obj o).enterCall packet)).writes =
      sendCoalesced (w.obj o).sendRing (w.obj o).sent [lenHdr4, opHdr2, body.data] w.writes := rfl
    rw [hsame] at hres
    generalize sendCoalesced _ _ _ _ = sentRes at hspec hres
    obtain ⟨p, out⟩ := sentRes
    have hquiet : Reach r w (w.wrote o p) := .of_quiet (quiet_wrote w o p)
    have hobj := obj_wrote w o p
    have hc' : ((w.wrote o p).obj o).state = .connected := by
      rw [hobj]
      exact hc
    cases out with
    | close reason err =>
      dsimp only at hres
      rw [setPipe_enterCall] at hres
      obtain ⟨rfl, rfl⟩ := Prod.mk.inj hres
      obtain ⟨hsent, hle, hcap⟩ := hspec
      have hstops : ((w.wrote o p).obj o).Stops (((w.wrote o p).obj o).duringCall p packet) := by
        rw [hobj]
        exact .inCall p packet hsent hle hcap
      exact hquiet.trans (beginClose_reach (w := w.wrote o p) happ ho hc' hstops reason err)
    | interest enable =>
      dsimp only at hres
      rw [setPipe_enterCall] at hres
      obtain ⟨hv, rfl⟩ := Prod.mk.inj hres
      obtain ⟨hcarry, -⟩ := hspec
      have hcarry' : ((w.wrote o p).obj o).pipe.Carries p packet.frame := by
        rw [hobj]
        exact ⟨hcarry.stream, hcarry.sent, hcarry.capacity⟩
      have hfinish := finishCall_reach (w := w.wrote o p) happ ho hc' hcarry' hv
      rw [hv]
      simp only [decide_eq_true_eq]
      exact hquiet.trans hfinish

theorem sendPacketU16_reach (id : UInt64) (opcode : UInt16) (body : Body) (w : World) :
    Reach r w (sendPacketU16 app id opcode body w).1 := by
  intro h
  unfold sendPacketU16
  dsimp only
  split
  · exact .refl
  cases hf : w.find id with
  | none => exact .refl
  | some o =>
    obtain ⟨ho, hl, -⟩ := h.live_of_find hf
    dsimp only
    split
    next v hres =>
      exact enqueuePacketU16Coalesced_reach happ ho hl.state (frame_of_body opcode body) hres h
    next v hres =>
      exact enqueuePacketU16Coalesced_reach happ ho hl.state (frame_of_body opcode body) hres h

end Sending

/-! ## Timers -/

theorem setTimerArmed_quiet (w : World) (o : Nat) (armed : Bool) (kind : TimerKind) :
    Quiet w (w.modify o (·.setTimerArmed armed kind)) :=
  .setObj (by cases kind <;> rfl)

theorem armTimerAfter_quiet (kind : TimerKind) (o delayMs : Nat) (w : World) :
    Quiet w (armTimerAfter kind o delayMs w) := by
  rcases armTimerAfter_cases kind o delayMs w with heq | heq
  · rw [heq]
    exact .refl w
  · rw [heq]
    exact Quiet.trans (v := w.addTimer ⟨o, kind, delayMs, w.now⟩) rfl (setTimerArmed_quiet _ _ _ _)

theorem startTimeouts_quiet (o : Nat) (idleTimeoutMs heartbeatIntervalMs : UInt32) (w : World) :
    Quiet w (startTimeouts o idleTimeoutMs heartbeatIntervalMs w) := by
  rw [startTimeouts_eq]
  generalize hw₁ : w.modify o _ = w₁
  have h₁ : Quiet w w₁ := by
    rw [← hw₁]
    exact .setObj rfl
  exact h₁.trans ((armTimerAfter_quiet ..).trans (armTimerAfter_quiet ..))

/-! ## New sessions -/

theorem set_none_of_none {H : Type} {loop : EventLoop H} (h : loop.fdContexts fd = none) :
    loop.set fd none = loop := by
  have hfun : (fun fd' => if fd' = fd then none else loop.fdContexts fd') = loop.fdContexts := by
    funext fd'
    split
    next heq => rw [heq, h]
    · rfl
  rw [EventLoop.set, hfun]

theorem set_set {H : Type} (loop : EventLoop H) (fd : Int) (ctx ctx' : Option (FdContext H)) :
    (loop.set fd ctx).set fd ctx' = loop.set fd ctx' := by
  simp only [EventLoop.set, EventLoop.mk.injEq, and_true]
  funext fd'
  split <;> rfl

theorem createSession_fresh {cfg : Config} {id : UInt64} {now : Nat} {memory : Bool} {s : Session}
    (h : createSession cfg id fd now memory = some s) : s.Fresh cfg id fd := by
  unfold createSession at h
  split at h
  next hpos =>
    cases h
    exact ⟨rfl, rfl, rfl, rfl, ⟨Ring.contents_make _ hpos.2.1, rfl⟩,
      ⟨Ring.contents_make _ hpos.2.2, rfl⟩, ⟨rfl, rfl, rfl⟩, ⟨rfl, rfl, rfl, rfl⟩⟩
  · cases h

/-- An id that was not issued yet is not listed. -/
theorem Lifecycle.find_nextSessionId (h : Lifecycle w) (harr : 0 < w.arrivals) :
    w.find (nextSessionId w) = none := by
  cases hf : w.find (nextSessionId w) with
  | none => rfl
  | some o =>
    obtain ⟨ho, -, hid⟩ := h.live_of_find hf
    exact absurd hid (h.id_ne_nextSessionId harr ho)

theorem World.exists_of_isOther {w : World} (h : w.isOther fd = true) :
    ∃ ctx, w.loop.fdContexts fd = some ctx := by
  unfold World.isOther at h
  split at h
  next ctx hctx => exact ⟨ctx, hctx⟩
  · cases h

theorem registerOther_reach (fd : Int) (events : UInt32) (tag : Nat) (w : World) :
    Reach r w (w.registerOther fd events tag) := by
  unfold World.registerOther
  split
  · exact .refl w
  next hfresh =>
    obtain ⟨hfd, hopen⟩ : 0 ≤ fd ∧ w.isOpen fd = false := by
      simp only [not_or, Int.not_lt, Bool.not_eq_true] at hfresh
      exact hfresh
    rcases w.loop.addFd_cases w.ctl fd events (some (.other tag)) with
      ⟨handler, -, hhandler, -, hadd⟩ | ⟨⟨e, hadd⟩, -⟩
    · cases hhandler
      rw [hadd]
      exact .of_effect fun _ => .registered fd events tag hfd hopen rfl
    · rw [hadd]
      exact .of_quiet rfl

theorem releaseOther_reach (w : World) (fd : Int) : Reach r w (w.releaseOther fd) := by
  unfold World.releaseOther
  split
  next hother =>
    intro h
    obtain ⟨ctx, hctx⟩ := World.exists_of_isOther hother
    rw [World.removeFd, w.loop.removeFd_of_nonneg _ (h.contexts fd ctx hctx).1]
    exact .single (.released fd hother rfl)
  · exact .refl w

/-- The state in which `onAccepted` is entered for a connection on `fd`: its own
entry in the loop's table, if there was one, is gone, and it is open. -/
def World.atAccept (w : World) (fd : Int) (ctls : List (Option Nat)) : World :=
  { w with
    loop := w.loop.set fd none
    isOpen := fun fd' => if fd' = fd then true else w.isOpen fd'
    arrivals := w.arrivals - 1
    ctls }

theorem World.openFd_eq {w : World} (h : w.loop.fdContexts fd = none) :
    w.arrive.openFd fd = w.atAccept fd w.ctls := by
  rw [World.atAccept, set_none_of_none h]
  rfl

theorem quiet_refuse (w : World) (fd : Int) (ctls : List (Option Nat)) :
    Quiet (w.refuse fd) ((w.atAccept fd ctls).issueId.closeFd fd).onError := by
  have hopen : (fun fd' => if fd' = fd then false else if fd' = fd then true else w.isOpen fd') =
      fun fd' => if fd' = fd then false else w.isOpen fd' := by
    funext fd'
    split <;> rfl
  simp only [Quiet, World.core, World.refuse, World.onError, World.closeFd, World.issueId,
    World.atAccept, hopen]

theorem quiet_enroll {s : Session} (ctls : List (Option Nat)) (hid : s.id = nextSessionId w)
    {loop : EventLoop Handler}
    (hloop : loop = ⟨((w.loop.set fd none).set fd (some ⟨fd, .session w.created, baseEpollMask,
      w.loop.registrations⟩)).fdContexts, w.loop.registrations + 1⟩) {v : World}
    (hv : v = ((w.atAccept fd ctls).issueId.setLoop loop).popCtl.allocate s) :
    Quiet (w.enroll fd s)
      ({ v with sessions := v.sessions ++ [(nextSessionId w, w.created)] }.sessionStarted
        w.created) := by
  subst hv hloop
  simp only [Quiet, World.core, World.enroll, World.sessionStarted, World.allocate, World.popCtl,
    World.setLoop, World.issueId, World.setObj, World.atAccept, set_set, hid]

/-- `onAccepted` under an id that is not in use: a session is enrolled and the application
told, or the connection refused for want of memory, of a capacity or by `epoll_ctl`. -/
theorem onAccepted_cases (app : Callback → World → World) (memory : Bool) (ctls : List (Option Nat))
    (hfd : 0 ≤ fd) (hfind : w.find (nextSessionId w) = none) :
    (∃ s v, s.Fresh w.cfg (nextSessionId w) fd ∧ Quiet (w.enroll fd s) v ∧
      (onAccepted app fd memory (w.atAccept fd ctls)).1 =
        app (.onSessionStart (nextSessionId w)) v) ∨
    (Quiet (w.refuse fd) (onAccepted app fd memory (w.atAccept fd ctls)).1 ∧
      ¬ (memory = true ∧ 0 < w.cfg.recvRingCapacity ∧ 0 < w.cfg.sendRingCapacity ∧
        ctls.headD none = none)) := by
  unfold onAccepted
  dsimp only
  cases hcreate : createSession _ _ fd _ memory with
  | none =>
    refine .inr ⟨quiet_refuse w fd ctls, fun hok => ?_⟩
    rw [createSession, dif_pos ⟨hok.1, hok.2.1, hok.2.2.1⟩] at hcreate
    cases hcreate
  | some s =>
    have hs : s.Fresh w.cfg (nextSessionId w) fd := createSession_fresh hcreate
    dsimp only
    rcases (w.atAccept fd ctls).issueId.loop.addFd_cases (w.atAccept fd ctls).issueId.ctl fd
        baseEpollMask (some (.session (w.atAccept fd ctls).issueId.created)) with
      ⟨handler, -, hhandler, -, hadd⟩ | ⟨⟨e, hadd⟩, hfailed⟩
    · cases hhandler
      rw [hadd]
      dsimp only
      generalize hloop : EventLoop.mk _ _ = loop
      generalize hx : (((w.atAccept fd ctls).issueId.setLoop loop).popCtl.allocate s) = x
      have hfind' : x.find (nextSessionId w) = none := by
        rw [← hx]
        exact hfind
      rw [show nextSessionId (w.atAccept fd ctls) = nextSessionId w from rfl,
        show (w.atAccept fd ctls).issueId.created = w.created from rfl, World.emplace, hfind',
        Option.isNone_none, if_pos rfl, if_pos rfl]
      have henroll := quiet_enroll ctls hs.id hloop.symm hx.symm
      exact .inl ⟨s, _, hs, henroll.trans ((startTimeouts_quiet w.created x.cfg.idleTimeoutMs
        x.cfg.heartbeatIntervalMs _).sessionStarted w.created), rfl⟩
    · rw [hadd]
      exact .inr ⟨quiet_refuse w fd ctls, fun hok => hfailed ⟨hfd, rfl, hok.2.2.2⟩⟩

section Accepting

variable (happ : ∀ c w, Reach r w (app c w))
include happ

theorem onAccepted_path {fd : Int} {memory : Bool} (ctls : List (Option Nat)) (h : Lifecycle w)
    (hfd : 0 ≤ fd) (hv : w.Vacant fd) (harr : 0 < w.arrivals) :
    Path r w (onAccepted app fd memory (w.atAccept fd ctls)).1 := by
  rcases onAccepted_cases app memory ctls hfd (h.find_nextSessionId harr) with
    ⟨s, v, hs, hq, heq⟩ | ⟨hq, -⟩
  · have heffect : Effect r w v := .enrolled fd s hfd hv harr hs hq
    rw [heq]
    exact (Relation.ReflTransGen.single heffect).trans (happ _ v (heffect.lifecycle h))
  · exact .single (.refused fd hv harr hq)

theorem acceptFresh_reach (fd : Int) (memory : Bool) (w : World) :
    Reach r w (acceptFresh app fd memory w).1 := by
  intro h
  unfold acceptFresh
  split
  · exact .refl
  next hfresh =>
    obtain ⟨hfd, hopen, harr⟩ : 0 ≤ fd ∧ w.isOpen fd = false ∧ 0 < w.arrivals := by
      simp only [not_or, Int.not_lt, Bool.not_eq_true, Nat.pos_iff_ne_zero] at hfresh ⊢
      exact hfresh
    have hnone : w.loop.fdContexts fd = none := by
      cases hctx : w.loop.fdContexts fd with
      | none => rfl
      | some ctx => exact nomatch hopen.symm.trans (h.contexts fd ctx hctx).2.1
    rw [World.openFd_eq hnone]
    exact onAccepted_path happ w.ctls h hfd (.inl hopen) harr

/-- A dial's descriptor becomes that of a session. -/
theorem dialOk_reach (fd : Int) (memory : Bool) (hother : w.isOther fd = true)
    (harr : 0 < w.arrivals) : Reach r w (onAccepted app fd memory (w.arrive.removeFd fd)).1 := by
  intro h
  obtain ⟨ctx, hctx⟩ := World.exists_of_isOther hother
  obtain ⟨hfd, hopen, -⟩ := h.contexts fd ctx hctx
  have hat : w.arrive.removeFd fd = w.atAccept fd w.ctls.tail := by
    have hisOpen : (fun fd' => if fd' = fd then true else w.isOpen fd') = w.isOpen := by
      funext fd'
      split
      next heq => rw [heq, hopen]
      · rfl
    rw [World.removeFd, EventLoop.removeFd_of_nonneg _ _ hfd, World.atAccept, hisOpen]
    rfl
  rw [hat]
  exact onAccepted_path happ w.ctls.tail h hfd (.inr hother) harr

end Accepting

/-! ## Applications -/

section Applications

variable (happ : ∀ c w, Reach r w (app c w))
include happ

theorem dispatchInjected_reach (id : UInt64) (opcode : UInt16) (body : List UInt8) (w : World) :
    Reach r w (dispatchInjected app id opcode body w) := by
  unfold dispatchInjected
  split
  · exact .refl w
  · split
    · exact happ _ w
    · exact closeByPolicy_reach happ id _ 0 w

theorem call_reach (a : Api) (w : World) : Reach r w (call a app w) := by
  cases a with
  | sendPacketU16 id opcode body => exact sendPacketU16_reach happ id opcode body w
  | beginClose id reason err => exact closeByPolicy_reach happ id reason err w
  | closeAllByPolicy reason err order => exact closeAllByPolicy_reach happ reason err order w
  | dispatchInjected id opcode body => exact dispatchInjected_reach happ id opcode body w
  | dialConnected fd memory => exact (acceptFresh_reach happ fd memory w).trans (happ _ _)
  | dialPending fd tag => exact registerOther_reach fd dialEpollMask tag w

end Applications

/-- Whatever an application does, its sessions and its own calls take paths that leave
the receive side alone. -/
theorem client_reach (client : Client) (w : World) : Reach none w (client.run call w) :=
  Script.run_rel .refl .trans (fun a _ w happ => call_reach happ a w) client w

theorem Step.app_reach (t : Step) (c : Callback) (w : World) : Reach none w (t.app c w) :=
  respond_rel .refl .trans (fun a _ w happ => call_reach happ a w) t.user c w

/-! ## Receiving -/

section Receiving

variable (happ : ∀ c w, Reach none w (app c w))

theorem receives_reach {s : Session} (ho : o < w.created) (hs : (w.obj o).Receives s) :
    Reach (some o) w (w.setObj o s) := .of_effect fun _ => .received o s ho hs rfl

/-- Bytes arrive, and with them the time and the mark of the last ones. -/
theorem touchRx_reach (recvRing : Ring) (received : List UInt8) (now acceptedAtRx : Nat)
    (ho : o < w.created) (hcap : recvRing.capacity = (w.obj o).recvRing.capacity) :
    Reach (some o) w
      (w.setObj o { w.obj o with recvRing, received, acceptedAtRx, lastRxAt := now }) := by
  have hreceives := receives_reach ho (.mk recvRing received (w.obj o).payloads
    (w.obj o).dispatched (w.obj o).closedInDispatch hcap)
  refine hreceives.trans (.of_quiet ?_)
  have hcore : Quiet _ ((w.setObj o { w.obj o with recvRing, received }).setObj o
      { w.obj o with recvRing, received, acceptedAtRx, lastRxAt := now }) :=
    .setObj (by rw [World.obj_setObj_self]; rfl)
  rwa [World.setObj_setObj] at hcore

theorem noteClosed_reach (ho : o < w.created) : Reach (some o) w (w.noteClosed o) := by
  unfold World.noteClosed
  split
  · exact .refl w
  · exact receives_reach ho (.mk _ _ _ _ true rfl)

include happ

theorem dispatchOnMessage_reach (message : List UInt8) (ho : o < w.created) :
    Reach (some o) w (dispatchOnMessage app o message w) := by
  have happ' : ∀ c w, Reach (some o) w (app c w) := fun c w => (happ c w).of_none
  unfold dispatchOnMessage
  dsimp only
  generalize hw₁ : World.modify _ o _ = w₁
  have h₁ : Reach (some o) w w₁ := by
    rw [← hw₁]
    exact Reach.trans (v := { w with rxMessages := w.rxMessages + 1 }) (.of_quiet rfl)
      (receives_reach ho (.mk _ _ _ _ _ rfl))
  refine h₁.then ho fun ho₁ => ?_
  cases splitOpcodeU16Be message with
  | none => exact closeByPolicy_reach happ' _ _ 0 w₁
  | some parts =>
    obtain ⟨opcode, body⟩ := parts
    dsimp only
    split
    · exact (sendPacketU16_reach happ' _ _ _ w₁).then ho₁ noteClosed_reach
    split
    · exact .refl w₁
    · generalize hw₂ : w₁.modify o _ = w₂
      have h₂ : Reach (some o) w₁ w₂ := by
        rw [← hw₂]
        exact receives_reach ho₁ (.mk _ _ _ _ _ rfl)
      refine h₂.then ho₁ fun ho₂ => ?_
      split
      · exact (happ' _ w₂).then ho₂ noteClosed_reach
      · exact closeByPolicy_reach happ' _ _ 0 w₂

omit happ in
/-- One `recvmsg` with room for some bytes. -/
theorem recvmsg_cases (script : RecvScript) {offered : Nat} (hoffered : 0 < offered) :
    (∃ cuts, script.cuts = .eintr :: cuts ∧
      script.recvmsg offered = (.eintr, { script with cuts })) ∨
    (script.queue = [] ∧ script.recvmsg offered = (.ended script.ending, script)) ∨
    ∃ n cuts, 0 < n ∧ n ≤ offered ∧ n ≤ script.queue.length ∧ cuts.length ≤ script.cuts.length ∧
      script.recvmsg offered =
        (.data n, { script with cuts, queue := script.queue.drop n }) := by
  have hroom : script.queue ≠ [] → 0 < min offered script.queue.length := fun hne =>
    Nat.lt_min.mpr ⟨hoffered, List.length_pos_of_ne_nil hne⟩
  obtain ⟨queue, cuts, ending⟩ := script
  unfold RecvScript.recvmsg
  cases cuts with
  | nil =>
    dsimp only
    split
    next hempty => exact .inr (.inl ⟨hempty, rfl⟩)
    next hne =>
      have hle := taken_le (n := min offered queue.length) (hroom hne)
      exact .inr (.inr ⟨_, [], taken_pos .., Nat.le_trans hle (Nat.min_le_left ..),
        Nat.le_trans hle (Nat.min_le_right ..), Nat.le_refl _, rfl⟩)
  | cons cut cuts =>
    cases cut with
    | eintr => exact .inl ⟨cuts, rfl, rfl⟩
    | upTo n =>
      dsimp only
      split
      next hempty => exact .inr (.inl ⟨hempty, rfl⟩)
      next hne =>
        have hle := taken_le (n := n) (hroom hne)
        exact .inr (.inr ⟨_, cuts, taken_pos .., Nat.le_trans hle (Nat.min_le_left ..),
          Nat.le_trans hle (Nat.min_le_right ..), Nat.le_succ _, rfl⟩)

theorem processRecvFrames_reach (fuel : Nat) (ho : o < w.created) :
    Reach (some o) w (processRecvFrames app o fuel w).1 := by
  have happ' : ∀ c w, Reach (some o) w (app c w) := fun c w => (happ c w).of_none
  induction fuel generalizing w with
  | zero => exact .refl w
  | succ fuel ih =>
    rw [processRecvFrames]
    have hcap := capacity_tryFrame w.cfg.maxPayloadLen (w.obj o).recvRing
    generalize tryFrame w.cfg.maxPayloadLen (w.obj o).recvRing = front at hcap
    obtain ⟨recvRing, result⟩ := front
    have hring : Reach (some o) w (w.modify o fun s => { s with recvRing }) :=
      receives_reach ho (.mk recvRing _ _ _ _ hcap)
    cases result with
    | needMore => exact hring
    | invalid reason => exact hring.then ho fun ho' => beginClose_reach_idle happ' ho' _ 0
    | framed message =>
      dsimp only
      have hdispatch := hring.then ho fun ho' => dispatchOnMessage_reach happ message ho'
      split
      · exact hdispatch
      · exact hdispatch.then ho ih

theorem onReadableLoop_reach (fuel : Nat) (script : RecvScript) (ho : o < w.created) :
    Reach (some o) w (onReadableLoop app o fuel script w) := by
  have happ' : ∀ c w, Reach (some o) w (app c w) := fun c w => (happ c w).of_none
  induction fuel generalizing script w with
  | zero => exact .refl w
  | succ fuel ih =>
    rw [onReadableLoop]
    dsimp only
    split
    · exact beginClose_reach_idle happ' ho _ 0
    · split
      next n script' _ =>
        generalize hw₁ : w.modify o _ = w₁
        have h₁ : Reach (some o) w w₁ := by
          rw [← hw₁]
          exact touchRx_reach _ _ w.now _ ho (Ring.capacity_receive ..)
        have hframes := h₁.then ho fun ho₁ =>
          processRecvFrames_reach happ ((w₁.obj o).recvRing.available + 1) ho₁
        split
        next v hv => rw [hv] at hframes; exact hframes
        next v hv => rw [hv] at hframes; exact hframes.then ho (ih script')
      next script' _ => exact ih script' ho
      next => exact beginClose_reach_idle happ' ho _ 0
      next => exact .refl w
      next e _ _ => exact beginClose_reach_idle happ' ho _ e

theorem onReadable_reach (script : RecvScript) (ho : o < w.created) :
    Reach (some o) w (onReadable app o script w) := by
  unfold onReadable
  split
  · exact .refl w
  · exact onReadableLoop_reach happ _ script ho

theorem onErrorEvent_reach (events : UInt32) (ho : o < w.created) :
    Reach none w (onErrorEvent app o events w) := by
  have hclose : ∀ reason, Reach none w (beginClose app o reason 0 w) := fun reason =>
    beginClose_reach_idle happ ho reason 0
  unfold onErrorEvent
  split
  · exact .refl w
  split
  · exact hclose _
  split
  · exact hclose _
  · exact hclose _

/-- Once it has read, `handleEvent` leaves the receive side alone. -/
theorem handleEvent_after (events : UInt32) (script : RecvScript)
    (hc : (w.obj o).state = .connected) :
    ∃ v, (v = w ∨ v = onReadable app o script w) ∧
      (o < v.created → Reach none v (handleEvent app o events script w)) := by
  unfold handleEvent
  rw [if_neg (by rw [hc]; nofun)]
  dsimp only
  generalize hv : (if events &&& Event.read ≠ 0 then _ else w) = v
  refine ⟨v, ?_, fun ho' => ?_⟩
  · rw [← hv]
    split
    · exact .inr rfl
    · exact .inl rfl
  split
  · exact .refl v
  generalize hw' : (if events &&& Event.write ≠ 0 then _ else v) = w'
  have hwrite : Reach none v w' := by
    rw [← hw']
    split
    · exact onWritable_reach happ ho'
    · exact .refl v
  refine hwrite.then ho' fun ho'' => ?_
  split
  · exact .refl w'
  split
  · exact onErrorEvent_reach happ events ho''
  · exact .refl w'

theorem handleEvent_reach (events : UInt32) (script : RecvScript) (ho : o < w.created)
    (hc : (w.obj o).state = .connected) :
    Reach (some o) w (handleEvent app o events script w) := by
  obtain ⟨v, hv, hafter⟩ := handleEvent_after happ events script hc
  have hread : Reach (some o) w v := by
    rcases hv with rfl | rfl
    · exact .refl v
    · exact onReadable_reach happ script ho
  exact hread.then ho fun ho' => (hafter ho').of_none

end Receiving

/-! ## Steps and runs -/

section Steps

variable (happ : ∀ c w, Reach r w (app c w))
include happ

theorem Fires.reach {i : Nat} {timer : Timer} {v : World} (h : Fires app i timer w v) :
    Reach r w v := by
  intro hlife
  have hdisarm : Reach r w (w.disarm i timer) :=
    .of_quiet (Quiet.trans (v := { w with timers := w.timers.eraseIdx i }) rfl
      (setTimerArmed_quiet _ _ _ _))
  have hrearm : ∀ kind delayMs v, Reach r v (armTimerAfter kind timer.obj delayMs v) :=
    fun kind delayMs v => .of_quiet (armTimerAfter_quiet kind timer.obj delayMs v)
  cases h with
  | lapsed _ => exact .single (.quiet rfl)
  | rests _ _ _ => exact hdisarm hlife
  | closes _ hlisted _ _ _ =>
    exact hdisarm.then (hlife.entries _ hlisted).1
      (fun ho => beginClose_reach_idle happ ho _ 0) hlife
  | rearms _ delayMs _ _ _ _ => exact hdisarm.trans (hrearm _ delayMs _) hlife
  | probes _ delayMs _ _ _ _ _ _ =>
    exact (hdisarm.trans (sendPacketU16_reach happ _ _ _ _)).trans (hrearm _ delayMs _) hlife

theorem fireTimer_reach (i : Nat) (w : World) : Reach r w (fireTimer app i w) := by
  cases h : w.timers[i]? with
  | none =>
    rw [fireTimer_stale app h]
    exact .refl w
  | some timer => exact (fireTimer_fires app h).reach happ

end Steps

/-- Everything an event loop does but reading takes paths that leave the receive sides
alone. -/
theorem Input.exec_reach (happ : ∀ c w, Reach none w (app c w)) (input : Input)
    (hready : ∀ ev script, input ≠ .ready ev script) (w : World) :
    Reach none w (input.exec app w) := by
  cases input with
  | accept fd memory => exact acceptFresh_reach happ fd memory w
  | registerOther fd events tag => exact registerOther_reach fd events tag w
  | releaseOther fd => exact releaseOther_reach w fd
  | dialOk fd memory =>
    rw [Input.exec]
    split
    next hdial => exact (dialOk_reach happ fd memory hdial.1 hdial.2).trans (happ _ _)
    · exact .refl w
  | dialFailed fd => exact (releaseOther_reach w fd).trans (happ _ _)
  | ready ev script => exact absurd rfl (hready ev script)
  | timer i => exact fireTimer_reach happ i w
  | task client => exact client_reach client w

/-- A readiness event is for a session in use, or for nobody this model knows. -/
theorem ready_cases (app : Callback → World → World) (h : Lifecycle w) (ev : ReadyEvent)
    (script : RecvScript) :
    (Input.ready ev script).exec app w = w ∨
    ∃ o, o < w.created ∧ Live w o ∧ (w.obj o).fd = ev.fd ∧
      (Input.ready ev script).exec app w = handleEvent app o ev.events script w := by
  rw [Input.exec]
  cases hctx : w.loop.fdContexts ev.fd with
  | none => exact .inl rfl
  | some ctx =>
    cases hhandler : ctx.handler with
    | session o =>
      obtain ⟨ho, hc, hfd⟩ := (h.contexts ev.fd ctx hctx).2.2 o hhandler
      exact .inr ⟨o, ho, h.live ho hc, hfd, by simp only [hhandler]⟩
    | other tag => exact .inl (by simp only [hhandler])

/-- The state a step's input is executed in. -/
def World.answered (w : World) (t : Step) : World :=
  { w with writes := t.writes, ctls := t.ctls, now := max w.now t.now }

theorem quiet_answered (w : World) (t : Step) : Quiet w (w.answered t) := rfl

/-- A step is an event for a session in use, or leaves the receive sides alone. -/
theorem step_cases (h : Lifecycle w) (t : Step) :
    Path none w (step w t) ∨
    ∃ o ev script, o < w.created ∧ Live (w.answered t) o ∧ (w.obj o).fd = ev.fd ∧
      t.input = .ready ev script ∧
      step w t = handleEvent t.app o ev.events script (w.answered t) := by
  have h' := h.quiet (quiet_answered w t)
  have hquiet : Path none w (w.answered t) := .single (.quiet (quiet_answered w t))
  change Path none w (t.input.exec t.app (w.answered t)) ∨ _
  by_cases hready : ∃ ev script, t.input = .ready ev script
  · obtain ⟨ev, script, hinput⟩ := hready
    rw [step, hinput]
    rcases ready_cases t.app h' ev script with heq | ⟨o, ho, hl, hfd, heq⟩
    · rw [heq]
      exact .inl hquiet
    · exact .inr ⟨o, ev, script, ho, hl, hfd, rfl, heq⟩
  · refine .inl (hquiet.trans (Input.exec_reach t.app_reach t.input ?_ _ h'))
    exact fun ev script hinput => hready ⟨ev, script, hinput⟩

theorem step_path (h : Lifecycle w) (t : Step) : ∃ r, Path r w (step w t) := by
  rcases step_cases h t with hpath | ⟨o, ev, script, ho, hl, -, -, heq⟩
  · exact ⟨none, hpath⟩
  · refine ⟨some o, ?_⟩
    rw [heq]
    exact (Reach.of_quiet (quiet_answered w t)).then ho
      (fun ho' => handleEvent_reach t.app_reach ev.events script ho' hl.state) h

/-- What every effect keeps, every number of steps keeps. -/
theorem steps_invariant {I : World → Prop} (effect : ∀ {r w w'}, Effect r w w' → I w → I w')
    (h : Lifecycle w) (hI : I w) (steps : List Step) :
    Lifecycle (steps.foldl step w) ∧ I (steps.foldl step w) := by
  refine foldl_invariant (I := fun w => Lifecycle w ∧ I w) (fun w t hw => ?_) w ⟨h, hI⟩ steps
  obtain ⟨r, hpath⟩ := step_path hw.1 t
  exact ⟨hpath.lifecycle hw.1, path_invariant (R := Effect r) effect hpath hw.2⟩

theorem lifecycle_init (cfg : Config) (h : arrivals < idSpace cfg.ownerWorkerId) :
    Lifecycle { cfg, arrivals } :=
  ⟨(Nat.zero_add arrivals).symm ▸ h, rfl, nofun, nofun, nofun, nofun, List.nodup_nil, nofun, rfl⟩

theorem lifecycle_run (cfg : Config) (h : arrivals < idSpace cfg.ownerWorkerId)
    (steps : List Step) : Lifecycle (run cfg arrivals steps) :=
  (steps_invariant (I := fun _ => True) (fun _ _ => trivial) (lifecycle_init cfg h) trivial
    steps).1

theorem cfg_run (cfg : Config) (h : arrivals < idSpace cfg.ownerWorkerId) (steps : List Step) :
    (run cfg arrivals steps).cfg = cfg :=
  (steps_invariant (I := fun w => w.cfg = cfg) (fun e hw => e.evolves.cfg.trans hw)
    (lifecycle_init cfg h) rfl steps).2

/-- What holds of each session as it starts and is kept by each change of it holds of
all sessions in every run. -/
theorem run_sessions {cfg : Config} {P : Session → Prop}
    (fresh : ∀ {id fd s}, s.Fresh cfg id fd → P s) (change : ∀ {p s s'}, s.Change p s' → P s → P s')
    (h : arrivals < idSpace cfg.ownerWorkerId) (steps : List Step) :
    ∀ o < (run cfg arrivals steps).created, P ((run cfg arrivals steps).obj o) := by
  have hall := steps_invariant (I := fun w => w.cfg = cfg ∧ ∀ o < w.created, P (w.obj o))
    (fun e hw => ?_) (lifecycle_init cfg h) ⟨rfl, nofun⟩ steps
  · exact hall.2.2
  · refine ⟨e.fresh.1.trans hw.1, e.sessions (P := fun _ => P) ?_ (fun _ _ _ => change) hw.2⟩
    intro o id fd s _ hs
    rw [hw.1] at hs
    exact fresh hs

end

end HyperNet.Net
