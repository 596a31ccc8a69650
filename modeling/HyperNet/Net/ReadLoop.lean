import HyperNet.Net.Moves

/-!
# The receive loop, turn by turn

`onReadable` of `HyperNet.Net.Worker` is a loop within a loop.  This file takes it apart into
the points where a turn of either begins.  `ReadPoint.Next` leads from one such point to the
following one, and `ReadPoint.Ends` says with what a turn leaves the loops.  `onReadable` goes from
point to point until it ends at one (`onReadable_ends`), so what holds at every point says what
happens inside the loops and how they leave the session.

At the points of the outer loop the ring awaits the rest of a frame, and between events too
(`waiting_run`).  A ring of four bytes or more then has room, and if it has room for the
greatest payload no frame is too large for it.
-/

namespace HyperNet.Net

open Buffer Protocol Reentrant

variable {app : Callback → World → World} {r : Option Nat} {v w w' : World} {o : Nat}

/-- The beginning of a turn: of the loop around `recvmsg`, or of the one around `tryFrame`. -/
inductive ReadPoint where
  | receive (script : RecvScript) (w : World)
  | frame (script : RecvScript) (w : World)

/-- The fragments of the ring `recvmsg` is called with. -/
def World.recvIov (w : World) (o : Nat) : List RingBuffer.Fragment :=
  (w.obj o).recvRing.writeIov (w.obj o).recvRing.freeSpace

/-- `recvmsg` has delivered `n` bytes: `commitWrite`, `touchRx_`. -/
def World.receive (w : World) (o : Nat) (queue : List UInt8) (n : Nat) : World :=
  w.modify o fun s => { s with
    recvRing := (w.obj o).recvRing.receive (w.obj o).recvRing.freeSpace queue n
    received := s.received ++ queue.take n
    acceptedAtRx := s.accepted.length
    lastRxAt := w.now }

def World.setRecvRing (w : World) (o : Nat) (recvRing : Ring) : World :=
  w.modify o fun s => { s with recvRing }

/-- What is done when `recvmsg` delivers nothing. -/
def RecvEnd.leaves (app : Callback → World → World) (o : Nat) (w : World) : RecvEnd → World
  | .zero => beginClose app o "peer_close" 0 w
  | .eagain => w
  | .failed e => beginClose app o "recv_error" e w

namespace ReadPoint

/-- One turn of `onReadable` or `processRecvFrames` that is followed by another. -/
inductive Next (app : Callback → World → World) (o : Nat) : ReadPoint → ReadPoint → Prop
  | eintr {script script' : RecvScript} {w : World} (hroom : (w.recvIov o).length ≠ 0)
      (hrecv : script.recvmsg (RingBuffer.offered (w.recvIov o)) = (.eintr, script')) :
      Next app o (.receive script w) (.receive script' w)
  | data {script script' : RecvScript} {w : World} {n : Nat} (hroom : (w.recvIov o).length ≠ 0)
      (hrecv : script.recvmsg (RingBuffer.offered (w.recvIov o)) = (.data n, script')) :
      Next app o (.receive script w) (.frame script' (w.receive o script.queue n))
  | framed {script : RecvScript} {w : World} {recvRing : Ring} {message : List UInt8}
      (hframe : tryFrame w.cfg.maxPayloadLen (w.obj o).recvRing = (recvRing, .framed message))
      (hc : ((dispatchOnMessage app o message (w.setRecvRing o recvRing)).obj o).state =
        .connected) :
      Next app o (.frame script w)
        (.frame script (dispatchOnMessage app o message (w.setRecvRing o recvRing)))
  | needMore {script : RecvScript} {w : World} {recvRing : Ring}
      (hframe : tryFrame w.cfg.maxPayloadLen (w.obj o).recvRing = (recvRing, .needMore)) :
      Next app o (.frame script w) (.receive script (w.setRecvRing o recvRing))

/-- The turns that lead from one point to another. -/
def Leads (app : Callback → World → World) (o : Nat) : ReadPoint → ReadPoint → Prop :=
  Relation.ReflTransGen (Next app o)

/-- The turn closes the session with `recv_overflow`. -/
def Overflows (o : Nat) : ReadPoint → Prop
  | .receive _ w => (w.recvIov o).length = 0
  | .frame _ _ => False

/-- The turn finds a frame that exceeds the capacity of the ring. -/
def Exceeds (o : Nat) : ReadPoint → Prop
  | .receive _ _ => False
  | .frame _ w => (tryFrame w.cfg.maxPayloadLen (w.obj o).recvRing).2 =
      .invalid "frame_exceeds_ring_capacity"

/-- A turn that is the last one of `onReadable`, and what it leaves. -/
inductive Ends (app : Callback → World → World) (o : Nat) : ReadPoint → World → Prop
  | overflow {script : RecvScript} {w : World} (hfull : Overflows o (.receive script w)) :
      Ends app o (.receive script w) (beginClose app o "recv_overflow" 0 w)
  | ended {script script' : RecvScript} {w : World} {ending : RecvEnd}
      (hroom : (w.recvIov o).length ≠ 0)
      (hrecv : script.recvmsg (RingBuffer.offered (w.recvIov o)) = (.ended ending, script')) :
      Ends app o (.receive script w) (ending.leaves app o w)
  | invalid {script : RecvScript} {w : World} {recvRing : Ring} {reason : String}
      (hframe : tryFrame w.cfg.maxPayloadLen (w.obj o).recvRing = (recvRing, .invalid reason)) :
      Ends app o (.frame script w) (beginClose app o "framer_invalid" 0 (w.setRecvRing o recvRing))
  | closed {script : RecvScript} {w : World} {recvRing : Ring} {message : List UInt8}
      (hframe : tryFrame w.cfg.maxPayloadLen (w.obj o).recvRing = (recvRing, .framed message))
      (hc : ((dispatchOnMessage app o message (w.setRecvRing o recvRing)).obj o).state ≠
        .connected) :
      Ends app o (.frame script w) (dispatchOnMessage app o message (w.setRecvRing o recvRing))

end ReadPoint

/-! ## What holds at every point -/

/-- A connected session of a manager with this configuration. -/
structure World.Serves (w : World) (cfg : Config) (o : Nat) : Prop where
  bounded : w.Bounded
  config : w.cfg = cfg
  state : (w.obj o).state = .connected
  capacity : (w.obj o).recvRing.capacity = cfg.recvRingCapacity

/-- The ring holds less than a frame. -/
def Session.Awaits (cfg : Config) (s : Session) : Prop :=
  nextFrame cfg.recvRingCapacity cfg.maxPayloadLen s.recvRing.contents = .needMore

def ReadPoint.Sound (cfg : Config) (o : Nat) : ReadPoint → Prop
  | .receive _ w => w.Serves cfg o ∧ (w.obj o).Awaits cfg
  | .frame _ w => w.Serves cfg o

namespace World.Serves

variable {cfg : Config} (h : w.Serves cfg o)
include h

/-- The session's own ring changes, and nothing else that counts here. -/
theorem modify {f : Session → Session} (hmoves : (w.obj o).Moves (some o = some o) (f (w.obj o)))
    (hstate : (f (w.obj o)).state = (w.obj o).state)
    (hcap : (f (w.obj o)).recvRing.capacity = (w.obj o).recvRing.capacity) :
    (w.modify o f).Serves cfg o := by
  have hobj : (w.modify o f).obj o = f (w.obj o) := World.obj_setObj_self _ _ _
  have hgoes : Goes (some o) w (w.modify o f) := .modify hmoves
  refine ⟨(hgoes h.bounded).bounded h.bounded, h.config, ?_, ?_⟩
  · rw [hobj, hstate]
    exact h.state
  · rw [hobj, hcap]
    exact h.capacity

theorem setRecvRing {recvRing : Ring} (hcap : recvRing.capacity = (w.obj o).recvRing.capacity) :
    (w.setRecvRing o recvRing).Serves cfg o :=
  h.modify (.reading rfl rfl rfl rfl rfl rfl) rfl hcap

theorem receive (queue : List UInt8) (n : Nat) : (w.receive o queue n).Serves cfg o :=
  h.modify (.reading rfl rfl rfl rfl rfl rfl) rfl (Ring.capacity_receive ..)

/-- A session that is still connected has its ring as it was. -/
theorem goes (hgoes : Goes none w v) (hc : (v.obj o).state = .connected) :
    v.Serves cfg o ∧ (v.obj o).recvRing = (w.obj o).recvRing := by
  have hmoves := hgoes h.bounded
  have hobj := hmoves.obj o (.inl (h.bounded.obj o h.state))
  have hring := hobj.recvRing nofun hc
  exact ⟨⟨hmoves.bounded h.bounded, hmoves.cfg.trans h.config, hc, hring ▸ h.capacity⟩, hring⟩

end World.Serves

section Turns

variable {cfg : Config} (happ : ∀ c w, Goes none w (app c w))
include happ

theorem ReadPoint.Next.sound {p q : ReadPoint} (h : Next app o p q) (hp : p.Sound cfg o) :
    q.Sound cfg o := by
  cases h with
  | eintr hroom hrecv => exact hp
  | data hroom hrecv => exact hp.1.receive _ _
  | @framed script w recvRing message hframe hc =>
    have hcap := capacity_tryFrame w.cfg.maxPayloadLen (w.obj o).recvRing
    rw [hframe] at hcap
    exact ((World.Serves.setRecvRing hp hcap).goes (dispatchOnMessage_goes happ o message _) hc).1
  | @needMore script w recvRing hframe =>
    have hserves : w.Serves cfg o := hp
    obtain ⟨rfl, hneed⟩ := nextFrame_of_needMore hframe
    have hobj : ((w.setRecvRing o (w.obj o).recvRing).obj o).recvRing = (w.obj o).recvRing :=
      congrArg Session.recvRing (World.obj_setObj_self _ _ _)
    refine ⟨hserves.setRecvRing rfl, ?_⟩
    rw [hserves.config, hserves.capacity] at hneed
    rw [Session.Awaits, hobj]
    exact hneed

theorem ReadPoint.Leads.sound {p q : ReadPoint} (h : Leads app o p q) (hp : p.Sound cfg o) :
    q.Sound cfg o :=
  path_invariant (R := Next app o) (fun hnext => hnext.sound happ) h hp

/-! ## The loops go from point to point -/

/-- A session that is left connected awaits more bytes. -/
theorem ReadPoint.Ends.waits {p : ReadPoint} (h : p.Ends app o w') (hp : p.Sound cfg o)
    (hc : (w'.obj o).state = .connected) : ∃ script, p = .receive script w' := by
  have hclosed {v : World} (hv : v.Serves cfg o) (reason : String) (err : Nat)
      (hc : ((beginClose app o reason err v).obj o).state = .connected) : False :=
    beginClose_ended happ hv.bounded (hv.bounded.obj o hv.state) reason err hc
  cases h with
  | overflow hfull => exact (hclosed hp.1 _ _ hc).elim
  | @ended script _ _ ending hroom hrecv =>
    cases ending with
    | zero => exact (hclosed hp.1 _ _ hc).elim
    | eagain => exact ⟨script, rfl⟩
    | failed e => exact (hclosed hp.1 _ _ hc).elim
  | @invalid script w recvRing reason hframe =>
    have hcap := capacity_tryFrame w.cfg.maxPayloadLen (w.obj o).recvRing
    rw [hframe] at hcap
    exact (hclosed (World.Serves.setRecvRing hp hcap) _ _ hc).elim
  | closed hframe hended => exact absurd hc hended

/-- The inner loop goes on to the next `recvmsg`, or it is the last. -/
theorem processRecvFrames_ends (script : RecvScript) {fuel : Nat} (h : w.Serves cfg o)
    (hfuel : (w.obj o).recvRing.contents.length < fuel) :
    ((processRecvFrames app o fuel w).2 = true →
      ReadPoint.Leads app o (.frame script w)
        (.receive script (processRecvFrames app o fuel w).1)) ∧
    ((processRecvFrames app o fuel w).2 = false →
      ∃ p, ReadPoint.Leads app o (.frame script w) p ∧
        p.Ends app o (processRecvFrames app o fuel w).1) := by
  induction fuel generalizing w with
  | zero => exact absurd hfuel (Nat.not_lt_zero _)
  | succ fuel ih =>
    have hcap := capacity_tryFrame w.cfg.maxPayloadLen (w.obj o).recvRing
    rw [processRecvFrames]
    rcases hframe : tryFrame w.cfg.maxPayloadLen (w.obj o).recvRing with ⟨recvRing, result⟩
    rw [hframe] at hcap
    have hset : (w.setRecvRing o recvRing).Serves cfg o := h.setRecvRing hcap
    cases result with
    | needMore => exact ⟨fun _ => .single (.needMore hframe), by rintro ⟨⟩⟩
    | invalid reason => exact ⟨by rintro ⟨⟩, fun _ => ⟨_, .refl, .invalid hframe⟩⟩
    | framed message =>
      have hgoes := dispatchOnMessage_goes happ o message (w.setRecvRing o recvRing)
      have hnext := fun hc => @ReadPoint.Next.framed app o script w recvRing message hframe hc
      dsimp only
      change ((if _ then _ else processRecvFrames app o fuel
        (dispatchOnMessage app o message (w.setRecvRing o recvRing))).2 = true → _) ∧ _
      split
      next hc => exact ⟨by rintro ⟨⟩, fun _ => ⟨_, .refl, .closed hframe hc⟩⟩
      next hc =>
        obtain ⟨hserves, hring⟩ := hset.goes hgoes (not_not.mp hc)
        have hobj : ((w.setRecvRing o recvRing).obj o).recvRing = recvRing :=
          congrArg Session.recvRing (World.obj_setObj_self _ _ _)
        have hlt : recvRing.contents.length < fuel :=
          Nat.lt_of_lt_of_le (nextFrame_rest_lt (nextFrame_of_framed hframe))
            (Nat.le_of_lt_succ hfuel)
        obtain ⟨hmore, hended⟩ := ih hserves (by rw [hring, hobj]; exact hlt)
        refine ⟨fun htrue => .head (hnext (not_not.mp hc)) (hmore htrue), fun hfalse => ?_⟩
        obtain ⟨p, hleads, hends⟩ := hended hfalse
        exact ⟨p, .head (hnext (not_not.mp hc)) hleads, hends⟩

/-- Each turn of the outer loop takes a byte or a cut, so that it comes to an end. -/
theorem onReadableLoop_ends {fuel : Nat} (script : RecvScript)
    (h : (ReadPoint.receive script w).Sound cfg o)
    (hfuel : script.queue.length + script.cuts.length < fuel) :
    ∃ p, ReadPoint.Leads app o (.receive script w) p ∧
      p.Ends app o (onReadableLoop app o fuel script w) := by
  induction fuel generalizing script w with
  | zero => exact absurd hfuel (Nat.not_lt_zero _)
  | succ fuel ih =>
    rw [onReadableLoop]
    dsimp only
    rw [← World.recvIov]
    split
    next hfull => exact ⟨_, .refl, .overflow hfull⟩
    next hroom =>
    have hoffered : 0 < RingBuffer.offered (w.recvIov o) := by
      rw [World.recvIov, Ring.offered_freeSpace]
      refine Nat.pos_of_ne_zero fun hfull => hroom ?_
      exact List.length_eq_zero_iff.mpr ((Ring.writeIov_freeSpace_eq_nil _).mpr hfull)
    rcases recvmsg_cases script hoffered with ⟨cuts, hcuts, hrecv⟩ | ⟨-, hrecv⟩ |
      ⟨n, cuts, hpos, -, hqueue, hcuts, hrecv⟩
    · rw [hcuts, List.length_cons] at hfuel
      rw [hrecv]
      obtain ⟨p, hleads, hends⟩ := ih { script with cuts } h (Nat.lt_of_succ_lt_succ hfuel)
      exact ⟨p, .head (.eintr hroom hrecv) hleads, hends⟩
    · have hends : (ReadPoint.receive script w).Ends app o _ := .ended hroom hrecv
      rw [hrecv]
      generalize script.ending = ending at hends
      cases ending with
      | zero | eagain | failed => exact ⟨_, .refl, hends⟩
    · have hdata : ReadPoint.Next app o _ _ := .data hroom hrecv
      obtain ⟨hmore, hended⟩ := processRecvFrames_ends happ ⟨script.queue.drop n, cuts, _⟩
        (h.1.receive script.queue n) (Nat.lt_succ_of_le (Nat.le_of_eq (Ring.available_eq _).symm))
      rw [hrecv]
      dsimp only
      rw [← World.receive]
      generalize processRecvFrames app o _ (w.receive o script.queue n) = res at hmore hended
      obtain ⟨w₂, more⟩ := res
      cases more with
      | true =>
        have hleads := Relation.ReflTransGen.head hdata (hmore rfl)
        have hturns : (script.queue.drop n).length + cuts.length < fuel := by
          rw [List.length_drop]
          omega
        obtain ⟨p, hrest, hends⟩ := ih _ (ReadPoint.Leads.sound happ hleads h) hturns
        exact ⟨p, hleads.trans hrest, hends⟩
      | false =>
        obtain ⟨p, hleads, hends⟩ := hended rfl
        exact ⟨p, .head hdata hleads, hends⟩

theorem onReadable_ends (script : RecvScript) (h : (ReadPoint.receive script w).Sound cfg o) :
    ∃ p, ReadPoint.Leads app o (.receive script w) p ∧
      p.Ends app o (onReadable app o script w) := by
  rw [onReadable, if_neg (not_not_intro h.1.state)]
  exact onReadableLoop_ends happ script h (Nat.lt_succ_self _)

end Turns

/-! ## Between events -/

/-- Every connection of the table has a ring of the configured capacity that holds less
than a frame. -/
structure World.Waiting (cfg : Config) (w : World) : Prop where
  bounded : w.Bounded
  config : w.cfg = cfg
  ring : ∀ e ∈ w.sessions, (w.obj e.2).state = .connected →
    (w.obj e.2).recvRing.capacity = cfg.recvRingCapacity ∧ (w.obj e.2).Awaits cfg

section Runs

variable {cfg : Config}

/-- Where nothing is read the rings go on waiting, and a new one is empty. -/
theorem World.Moves.ring (h : w.Moves r v) (hw : w.Waiting cfg) {e : UInt64 × Nat}
    (he : e ∈ v.sessions) (hr : r ≠ some e.2) (hc : (v.obj e.2).state = .connected) :
    (v.obj e.2).recvRing.capacity = cfg.recvRingCapacity ∧ (v.obj e.2).Awaits cfg := by
  rcases h.sessions e he with hold | ⟨hle, hlt⟩
  · have hobj := h.obj e.2 (.inl (hw.bounded.sessions e hold))
    have hring := hw.ring e hold (hobj.state hc)
    rw [Session.Awaits, hobj.recvRing hr hc]
    exact hring
  · rcases h.joined e.2 hlt hle with hgone | hfresh
    · exact absurd he (hgone e.1)
    · obtain ⟨hempty, hcap⟩ := (hfresh hc).2.2 hr
      refine ⟨hcap.trans (congrArg Config.recvRingCapacity hw.config), ?_⟩
      rw [Session.Awaits, hempty]
      exact if_pos (Nat.zero_lt_succ 3)

theorem Goes.waiting (h : Goes none w v) (hw : w.Waiting cfg) : v.Waiting cfg where
  bounded := (h hw.bounded).bounded hw.bounded
  config := (h hw.bounded).cfg.trans hw.config
  ring _ he hc := (h hw.bounded).ring hw he nofun hc

/-- A connection of the table is where the receive loop may begin. -/
theorem World.Waiting.sound (hw : w.Waiting cfg) {id : UInt64} (hlisted : (id, o) ∈ w.sessions)
    (hc : (w.obj o).state = .connected) (script : RecvScript) :
    (ReadPoint.receive script w).Sound cfg o :=
  have hring := hw.ring (id, o) hlisted hc
  ⟨⟨hw.bounded, hw.config, hc, hring.1⟩, hring.2⟩

theorem onReadable_waiting (happ : ∀ c w, Goes none w (app c w)) (script : RecvScript)
    (hw : w.Waiting cfg) : (onReadable app o script w).Waiting cfg := by
  by_cases hstart : (w.obj o).state = .connected
  · have hmoves := onReadable_goes happ o script w hw.bounded
    refine ⟨hmoves.bounded hw.bounded, hmoves.cfg.trans hw.config, fun e he hc => ?_⟩
    by_cases hreader : some o = some e.2
    · -- the session that was read from was listed before, and is left where its loop begins
      cases hreader
      have hlisted : e ∈ w.sessions := (hmoves.sessions e he).resolve_right fun hnew =>
        Nat.not_lt_of_le hnew.1 (hw.bounded.obj e.2 hstart)
      have hsound := hw.sound hlisted hstart script
      obtain ⟨p, hleads, hends⟩ := onReadable_ends happ script hsound
      have hend := ReadPoint.Leads.sound happ hleads hsound
      obtain ⟨last, rfl⟩ := hends.waits happ hend hc
      exact ⟨hend.1.capacity, hend.2⟩
    · exact hmoves.ring hw he hreader hc
  · rw [onReadable, if_pos hstart]
    exact hw

theorem step_waiting (t : Step) (hw : w.Waiting cfg) : (step w t).Waiting cfg := by
  rcases step_goes w t with hgoes | ⟨o, events, script, heq⟩
  · exact hgoes.waiting hw
  · rw [heq]
    have hanswered : (w.answered t).Waiting cfg := (answered_goes w t).waiting hw
    obtain ⟨v, hv, hafter⟩ := handleEvent_goes_after t.app_goes o events script (w.answered t)
    refine hafter.waiting ?_
    rcases hv with rfl | rfl
    · exact hanswered
    · exact onReadable_waiting t.app_goes script hanswered

theorem waiting_run (cfg : Config) (arrivals : Nat) (steps : List Step) :
    (run cfg arrivals steps).Waiting cfg :=
  foldl_invariant (I := World.Waiting cfg) (fun _ t hw => step_waiting t hw) _
    ⟨World.bounded_init cfg arrivals, rfl, fun _ he => absurd he List.not_mem_nil⟩ steps

end Runs

/-! ## The error branches -/

section Branches

variable {cfg : Config} {p : ReadPoint}

/-- A ring that awaits the rest of a frame has room for more. -/
theorem ReadPoint.Sound.not_overflows (h : p.Sound cfg o) (hfour : 4 ≤ cfg.recvRingCapacity) :
    ¬ p.Overflows o := by
  cases p with
  | frame script w => exact not_false
  | receive script w =>
    intro hiov
    have hfull := (Ring.writeIov_freeSpace_eq_nil _).mp (List.length_eq_zero_iff.mp hiov)
    have hlt := length_lt_of_needMore hfour h.2
    rw [Ring.freeSpace_eq, h.1.capacity] at hfull
    exact Nat.ne_of_gt (Nat.sub_pos_of_lt hlt) hfull

theorem ReadPoint.Sound.not_exceeds (h : p.Sound cfg o)
    (hfit : cfg.maxPayloadLen.toNat + 4 ≤ cfg.recvRingCapacity) : ¬ p.Exceeds o := by
  cases p with
  | receive script w => exact not_false
  | frame script w =>
    have hserves : w.Serves cfg o := h
    refine tryFrame_ne_exceeds ?_
    rw [hserves.config, hserves.capacity]
    exact hfit

end Branches

end HyperNet.Net
