import HyperNet.Net.Paths

/-!
# What the functions of a worker do, callback by callback

`HyperNet.Net.Paths` takes what the application does in a callback as one more path.  Some results
are about the callbacks themselves: what was done right before one, or what a controller has been
told by the end of it.  Here every function of `HyperNet.Net.Worker` is a `Trail` of changes some of
which are calls of the application, named as such.  A trail is there from every state and for
every application, and a relation between states holds across all functions once it holds across
each kind of change.

A `Scope` restricts the reasons sessions are closed for, the packets that are sent and the sessions
that are read from, so that the timers' own reasons and packets can be told from those of
everything else, and reading from everything that leaves the receive rings alone.

A send side is at rest if `EPOLLOUT` is asked for just when bytes are queued, and then the last
write was answered by `EAGAIN`.  Between the two writes to a session that queue bytes and ask for
`EPOLLOUT` it is not, so a change of a session covers both, and every change leaves a send side at
rest that was (`settle_trail`).
-/

namespace HyperNet.Net

open Buffer Protocol Reentrant

/-- The reasons of the two timers. -/
def IsTimeout (reason : String) : Prop := reason = "idle_timeout" ∨ reason = "heartbeat_timeout"

instance (reason : String) : Decidable (IsTimeout reason) := inferInstanceAs (Decidable (_ ∨ _))

/-- Neither of these, nor the reason of a receive ring that is full. -/
def IsPlain (reason : String) : Prop := ¬ IsTimeout reason ∧ reason ≠ "recv_overflow"

instance (reason : String) : Decidable (IsPlain reason) := inferInstanceAs (Decidable (_ ∧ _))

/-- Reasons and packets, among them those the worker itself uses outside its timers, and the
sessions that may be read from. -/
structure Scope where
  reason : String → Prop
  packet : Packet → Prop
  reads : Nat → Prop
  reason_of_plain : ∀ {r}, IsPlain r → reason r
  overflow : ∀ {o}, reads o → reason "recv_overflow"
  packet_pong : packet ⟨kOpcodePong, []⟩

/-- Everything. -/
def Scope.all : Scope :=
  ⟨fun _ => True, fun _ => True, fun _ => True, fun _ => trivial, fun _ => trivial, trivial⟩

/-- Everything, but only one session may be read from, or none. -/
def Scope.reading (r : Option Nat) : Scope :=
  { Scope.all with reads := fun o => r = some o, overflow := fun _ => trivial }

/-- Everything but the reasons of the timers. -/
def Scope.untimed : Scope :=
  ⟨fun r => ¬ IsTimeout r, fun _ => True, fun _ => True, And.left, fun _ => by decide, trivial⟩

/-- Everything but the reasons of the timers and their probes. -/
def Scope.unprobed : Scope :=
  ⟨fun r => ¬ IsTimeout r, fun p => p.opcode ≠ kOpcodePing, fun _ => True, And.left,
    fun _ => by decide, by decide⟩

/-- Everything but `recv_overflow`, and thus no reading. -/
def Scope.roomy : Scope :=
  ⟨fun r => r ≠ "recv_overflow", fun _ => True, fun _ => False, And.right, False.elim, trivial⟩

/-- Nothing changes but descriptors, counters and the kernel's answers. -/
structure World.Aside (w w' : World) : Prop where
  cfg : w'.cfg = w.cfg
  obj : w'.obj = w.obj
  created : w'.created = w.created
  sessions : w'.sessions = w.sessions
  now : w'.now = w.now
  timers : w'.timers = w.timers
  localCounter : w'.localCounter = w.localCounter
  arrivals : w'.arrivals = w.arrivals
  trace : w'.trace = w.trace
  hookCalls : w'.hookCalls = w.hookCalls

/-- Rings, masks and most of the history of a session. -/
structure Session.Aside (s s' : Session) : Prop where
  id : s'.id = s.id
  state : s'.state = s.state
  idleTimeoutMs : s'.idleTimeoutMs = s.idleTimeoutMs
  heartbeatIntervalMs : s'.heartbeatIntervalMs = s.heartbeatIntervalMs
  lastRxAt : s'.lastRxAt = s.lastRxAt
  idleTimerArmed : s'.idleTimerArmed = s.idleTimerArmed
  heartbeatTimerArmed : s'.heartbeatTimerArmed = s.heartbeatTimerArmed
  received : s'.received = s.received
  accepted : s'.accepted = s.accepted
  acceptedAtRx : s'.acceptedAtRx = s.acceptedAtRx
  closeReason : s'.closeReason = s.closeReason

/-- A send side between two calls. -/
structure Session.AtRest (s : Session) : Prop where
  mask : s.currentEpollMask = interestMask (!s.sendRing.empty)
  owed : s.sendRing.empty = false → s.lastWrite = some .eagain

theorem Session.AtRest.of_same {s s' : Session} (h : s.AtRest) (hsend : s'.sendRing = s.sendRing)
    (hmask : s'.currentEpollMask = s.currentEpollMask) (hlast : s'.lastWrite = s.lastWrite) :
    s'.AtRest where
  mask := by
    rw [hmask, hsend]
    exact h.mask
  owed := by
    rw [hsend, hlast]
    exact h.owed

/-- Nothing changes but descriptors, counters, the kernel's answers and the send side of one
session. -/
structure World.Sets (o : Nat) (w w' : World) : Prop where
  cfg : w'.cfg = w.cfg
  others : ∀ o' ≠ o, w'.obj o' = w.obj o'
  created : w'.created = w.created
  sessions : w'.sessions = w.sessions
  now : w'.now = w.now
  timers : w'.timers = w.timers
  localCounter : w'.localCounter = w.localCounter
  arrivals : w'.arrivals = w.arrivals
  trace : w'.trace = w.trace
  hookCalls : w'.hookCalls = w.hookCalls
  own : (w.obj o).Aside (w'.obj o)
  fd : (w'.obj o).fd = (w.obj o).fd
  recvRing : (w'.obj o).recvRing = (w.obj o).recvRing

namespace World.Sets

variable {v w : World} {o : Nat}

theorem of_aside (o : Nat) (h : w.Aside v) : w.Sets o v where
  __ := h
  others o' _ := congrFun h.obj o'
  own := by
    rw [h.obj]
    constructor <;> rfl
  fd := by rw [h.obj]
  recvRing := by rw [h.obj]

theorem refl (o : Nat) (w : World) : w.Sets o w := of_aside o (by constructor <;> rfl)

theorem modify (h : w.Sets o v) {f : Session → Session} (hf : (w.obj o).Aside (f (v.obj o)))
    (hfd : (f (v.obj o)).fd = (w.obj o).fd) (hrecv : (f (v.obj o)).recvRing = (w.obj o).recvRing) :
    w.Sets o (v.modify o f) where
  __ := h
  others o' ho' := (World.obj_setObj_ne v ho' _).trans (h.others o' ho')
  own := by
    rw [World.modify, World.obj_setObj_self]
    exact hf
  fd := by
    rw [World.modify, World.obj_setObj_self]
    exact hfd
  recvRing := by
    rw [World.modify, World.obj_setObj_self]
    exact hrecv

end World.Sets

/-- `onAccepted` from the point where the descriptor is registered. -/
def enlist (app : Callback → World → World) (id : UInt64) (s : Session) (w : World) : World :=
  let o := w.created
  let w := w.allocate s
  let kept := (w.find id).isNone
  let w := w.emplace id o
  let w := startTimeouts o w.cfg.idleTimeoutMs w.cfg.heartbeatIntervalMs w
  let w := app (.onSessionStart id) (w.sessionStarted o)
  if kept = true then w else w.closeSocket o

/-- One change, or one call of the application with what the manager does right before it. -/
inductive Does (app : Callback → World → World) (scope : Scope) : World → World → Prop
  | aside {w w'} : w.Aside w' → Does app scope w w'
  | touches {w w'} (o : Nat) : w.Sets o w' →
      ((w'.obj o).state = .connected → 0 ≤ (w.obj o).fd → (w.obj o).AtRest → (w'.obj o).AtRest) →
      Does app scope w w'
  | accepts {w} (o : Nat) (packet : Packet) : scope.packet packet →
      Does app scope w (w.modify o (·.acceptCall packet))
  | reads {w} (o : Nat) (recvRing : Ring) : scope.reads o →
      Does app scope w (w.modify o fun s => { s with recvRing })
  | receives {w} (o : Nat) (recvRing : Ring) (bytes : List UInt8) : scope.reads o →
      (w.obj o).state = .connected → bytes ≠ [] → Does app scope w (w.modify o fun s => { s with
        recvRing, received := s.received ++ bytes, acceptedAtRx := s.accepted.length,
        lastRxAt := w.now })
  | closes {w v} (o : Nat) (reason : String) : w.Sets o v → (v.obj o).state = .connected →
      scope.reason reason → Does app scope w (takeDown o reason v)
  | ends {w} (id : UInt64) (o : Nat) : w.find id = some o →
      Does app scope w (app (.onSessionEnd (w.obj o).id) ((w.erase id).sessionEnded o))
  | refuses {w w'} : 0 < w.arrivals → w.arrive.issueId.Aside w' → Does app scope w w'
  | starts {w w'} (fd : Int) (memory : Bool) (s : Session) : 0 < w.arrivals →
      w.arrive.issueId.Aside w' → 0 ≤ fd →
      createSession w.cfg (nextSessionId w) fd w.now memory = some s →
      Does app scope w (enlist app (nextSessionId w) s w')
  | message {w} (id : UInt64) (opcode : UInt16) (body : List UInt8) :
      Does app scope w (app (.onMessage id opcode body) w)
  | dialed {w} (id : UInt64) : Does app scope w (app (.onDialed id) w)

/-- Any number of them. -/
abbrev Trail (app : Callback → World → World) (scope : Scope) : World → World → Prop :=
  Relation.ReflTransGen (Does app scope)

/-- A relation that holds across each change holds across a trail. -/
theorem Trail.rel {app : Callback → World → World} {scope : Scope} {R : World → World → Prop}
    (refl : ∀ w, R w w) (trans : ∀ {u v w}, R u v → R v w → R u w)
    (does : ∀ {w w'}, Does app scope w w' → R w w') {w w' : World} (h : Trail app scope w w') :
    R w w' := by
  induction h with
  | refl => exact refl w
  | tail _ hdoes ih => exact trans ih (does hdoes)

section Functions

variable {app : Callback → World → World} {scope : Scope} {w : World} {o : Nat} {reason : String}
  {segs : List (List UInt8)} {err : Nat}

theorem trail_aside {w' : World} (h : w.Aside w') : Trail app scope w w' := .single (.aside h)

/-- Only history. -/
theorem trail_touches {f : Session → Session} (h : (w.obj o).Aside (f (w.obj o)))
    (hfd : (f (w.obj o)).fd = (w.obj o).fd) (hrecv : (f (w.obj o)).recvRing = (w.obj o).recvRing)
    (hsend : (f (w.obj o)).sendRing = (w.obj o).sendRing)
    (hmask : (f (w.obj o)).currentEpollMask = (w.obj o).currentEpollMask)
    (hlast : (f (w.obj o)).lastWrite = (w.obj o).lastWrite) : Trail app scope w (w.modify o f) := by
  refine .single (.touches o ((World.Sets.refl o w).modify h hfd hrecv) fun _ _ hrest => ?_)
  rw [World.modify, World.obj_setObj_self]
  exact hrest.of_same hsend hmask hlast

/-! ## Closing -/

theorem onSessionClosed_trail (id : UInt64) (w : World) :
    Trail app scope w (onSessionClosed app id w) := by
  unfold onSessionClosed
  split
  · exact .refl
  next o hfind => exact .single (.ends id o hfind)

/-- `beginClose_` takes a connected session down, and then the manager is told. -/
theorem beginClose_after (hc : (w.obj o).state = .connected) (reason : String) (err : Nat) :
    Trail app scope (takeDown o reason w) (beginClose app o reason err w) := by
  unfold beginClose
  rw [if_neg (by rw [hc]; rintro ⟨⟩), if_neg (by rw [hc]; rintro ⟨⟩)]
  dsimp only
  refine .trans ?_ (onSessionClosed_trail _ _)
  split
  · exact trail_aside (by constructor <;> rfl)
  · exact .refl

theorem beginClose_of_ended (hc : (w.obj o).state ≠ .connected) (reason : String) (err : Nat) :
    beginClose app o reason err w = w := by
  unfold beginClose
  cases hs : (w.obj o).state with
  | connected => exact absurd hs hc
  | closing => rw [if_neg nofun, if_pos rfl]
  | closed => rw [if_pos rfl]

/-- The session closes in the end, so it does not matter how its send side was before. -/
theorem World.Sets.beginClose_trail {v : World} (h : w.Sets o v) (hreason : scope.reason reason)
    (err : Nat) : Trail app scope w (beginClose app o reason err v) := by
  by_cases hc : (v.obj o).state = .connected
  · exact .head (.closes o reason h hc hreason) (beginClose_after hc reason err)
  · rw [beginClose_of_ended hc]
    exact .single (.touches o h fun hc' => absurd hc' hc)

theorem beginClose_trail (hreason : scope.reason reason) (o err : Nat) (w : World) :
    Trail app scope w (beginClose app o reason err w) :=
  (World.Sets.refl o w).beginClose_trail hreason err

theorem closeByPolicy_trail {reason : Option String}
    (hreason : scope.reason (reason.getD "policy_close")) (id : UInt64) (err : Nat) (w : World) :
    Trail app scope w (closeByPolicy app id reason err w) := by
  unfold closeByPolicy
  split
  · exact .refl
  · exact beginClose_trail hreason _ err w

theorem closeAllByPolicy_trail {reason : Option String}
    (hreason : scope.reason (reason.getD "policy_close")) (err : Nat) (order : List UInt64)
    (w : World) : Trail app scope w (closeAllByPolicy app reason err order w) :=
  foldl_rel (fun _ => .refl) .trans (fun w id => closeByPolicy_trail hreason id err w) w _

/-! ## Sending -/

theorem World.Sets.setPipe (w : World) (o : Nat) (p : Pipe) : w.Sets o (w.setPipe o p) :=
  (World.Sets.of_aside o (v := w.setWrites p.answers) (by constructor <;> rfl)).modify
    (by constructor <;> rfl) rfl rfl

/-- The ring has moved on with the answers of the kernel, and `setWriteInterest_` lets the mask
follow. -/
theorem settle_trail (p : Pipe) {enable : Bool} (henable : enable = !p.ring.empty)
    (howed : p.ring.empty = false → p.last = some .eagain) :
    Trail app scope w (setWriteInterest app o enable (w.setPipe o p)) := by
  have hset := World.Sets.setPipe w o p
  have hobj : (w.setPipe o p).obj o =
      { w.obj o with sendRing := p.ring, sent := p.sent, lastWrite := p.last } :=
    World.obj_setObj_self _ _ _
  generalize w.setPipe o p = v at hset hobj
  unfold setWriteInterest
  dsimp only
  split
  next hended => exact .single (.touches o hset fun hc => absurd hc hended)
  split
  next hmask =>
    refine .single (.touches o hset fun _ _ _ => ⟨?_, ?_⟩)
    · rw [hmask, hobj, henable]
    · rw [hobj]
      exact howed
  split
  next hneg =>
    -- such a session has lost its socket; `AtRest` is asked only of those that have one
    exact .single (.touches o hset fun _ hnonneg _ =>
      absurd (hset.fd ▸ hneg) (Int.not_lt.mpr hnonneg))
  split
  next loop e _ =>
    have hloop : w.Sets o (v.setLoop loop).popCtl := { hset with }
    exact hloop.beginClose_trail (scope.reason_of_plain (by decide)) e
  next loop _ =>
    have hloop : w.Sets o (v.setLoop loop).popCtl := { hset with }
    refine .single (.touches o (hloop.modify { hset.own with } hset.fd hset.recvRing)
      fun _ _ _ => ?_)
    rw [World.modify, World.obj_setObj_self]
    refine ⟨?_, ?_⟩
    · change interestMask enable = interestMask (!(v.obj o).sendRing.empty)
      rw [hobj, henable]
    · change (v.obj o).sendRing.empty = false → (v.obj o).lastWrite = some .eagain
      rw [hobj]
      exact howed

theorem flushSend_reason {r : Ring} {sent : List UInt8} {last : Option WriteResult}
    {answers : List WriteResult} {p : Pipe}
    (h : flushSend r sent last answers = (p, .close reason err)) : IsPlain reason := by
  induction answers generalizing r sent last with
  | nil => cases h
  | cons answer answers ih =>
    rw [flushSend] at h
    split at h
    · cases h
    dsimp only at h
    split at h
    · cases h
    cases answer with
    | taken n => exact ih h
    | zero => cases h; decide
    | eintr => exact ih h
    | eagain => cases h
    | failed e => cases h; decide

theorem onWritable_trail (o : Nat) (w : World) : Trail app scope w (onWritable app o w) := by
  unfold onWritable
  dsimp only
  split
  · exact .refl
  have hlast := flushSend_last (w.obj o).sendRing (w.obj o).sent (w.obj o).lastWrite w.writes
  split
  next p reason err hflush =>
    exact (World.Sets.setPipe w o p).beginClose_trail
      (scope.reason_of_plain (flushSend_reason hflush)) err
  next p hflush =>
    rw [hflush] at hlast
    exact settle_trail p rfl (hlast rfl)

theorem enqueueRemainder_reason {p q : Pipe} {skip : Nat}
    (h : enqueueRemainder p skip segs = (q, .close reason err)) : IsPlain reason := by
  induction segs generalizing p skip with
  | nil => cases h
  | cons seg segs ih =>
    rw [enqueueRemainder] at h
    split at h
    · exact ih h
    split at h
    · exact ih h
    rcases enqueueSendNoFlush_spec p (seg.drop skip) with ⟨hkeep, -⟩ | hclose
    · generalize enqueueSendNoFlush p (seg.drop skip) = res at h hkeep
      obtain ⟨p', out⟩ := res
      cases hkeep
      exact ih h
    · rw [hclose] at h
      cases h
      decide

theorem afterComplete_reason {p q : Pipe} (h : afterComplete p = (q, .close reason err)) :
    IsPlain reason := by
  unfold afterComplete at h
  split at h
  next hflush =>
    cases h
    exact flushSend_reason hflush
  · cases h

theorem afterPartial_reason {p q : Pipe} {skip : Nat}
    (h : afterPartial p skip segs = (q, .close reason err)) : IsPlain reason := by
  unfold afterPartial at h
  split at h
  next hqueue =>
    cases h
    exact enqueueRemainder_reason hqueue
  · exact afterComplete_reason h

theorem afterAgain_reason {p q : Pipe} (h : afterAgain p segs = (q, .close reason err)) :
    IsPlain reason := by
  unfold afterAgain at h
  split at h
  next hqueue =>
    cases h
    exact enqueueRemainder_reason hqueue
  · cases h

theorem sendCoalesced_reason {r : Ring} {sent : List UInt8} {answers : List WriteResult} {p : Pipe}
    (h : sendCoalesced r sent segs answers = (p, .close reason err)) : IsPlain reason := by
  induction answers with
  | nil => exact afterAgain_reason h
  | cons answer answers ih =>
    cases answer with
    | taken n =>
      rw [sendCoalesced] at h
      generalize (if taken _ _ ≤ _ then _ else _) = k at h
      generalize taken _ _ = m at h
      generalize Pipe.mk _ _ _ _ = q at h
      split at h
      · exact afterPartial_reason h
      · exact afterComplete_reason h
    | zero => cases h; decide
    | eintr => exact ih h
    | eagain => exact afterAgain_reason h
    | failed e => cases h; decide

theorem enqueuePacketU16Coalesced_trail (o : Nat) {lenHdr4 : List UInt8} (hne : lenHdr4 ≠ [])
    (opHdr2 : List UInt8) (body : Body) (w : World) :
    Trail app scope w (enqueuePacketU16Coalesced app o lenHdr4 opHdr2 body w).1 := by
  unfold enqueuePacketU16Coalesced
  dsimp only
  split
  · exact .refl
  split
  · exact beginClose_trail (scope.reason_of_plain (by decide)) o 0 w
  have hsegs : [lenHdr4, opHdr2, body.data].flatten ≠ [] := by
    rw [List.flatten_cons]
    exact fun hnil => hne (List.append_eq_nil_iff.mp hnil).1
  have hspec := sendCoalesced_spec (w.obj o).sendRing (w.obj o).sent hsegs w.writes
    (w.obj o).lastWrite
  have howed := sendCoalesced_owed (w.obj o).sendRing (w.obj o).sent
    [lenHdr4, opHdr2, body.data] w.writes
  split
  next p reason err hsend =>
    exact (World.Sets.setPipe w o p).beginClose_trail
      (scope.reason_of_plain (sendCoalesced_reason hsend)) err
  next p enable hsend =>
    rw [hsend] at hspec howed
    exact settle_trail p hspec.2 (howed enable rfl)

/-- A send ends with the packet's history, if it has gone well. -/
theorem sendPacketU16_cases (id : UInt64) (opcode : UInt16) (body : Body) (w : World) :
    ∃ v, Trail app scope w v ∧ ((sendPacketU16 app id opcode body w).1 = v ∨
      ∃ o, w.find id = some o ∧
        (sendPacketU16 app id opcode body w).1 =
          v.modify o (·.acceptCall ⟨opcode, body.data⟩)) := by
  unfold sendPacketU16
  dsimp only
  split
  · exact ⟨w, .refl, .inl rfl⟩
  split
  · exact ⟨w, .refl, .inl rfl⟩
  next o hfind =>
    have henter : Trail app scope w (w.modify o (·.enterCall ⟨opcode, body.data⟩)) :=
      trail_touches (by constructor <;> rfl) rfl rfl rfl rfl rfl
    generalize MessageHeader.mk _ opcode = hdr
    have hne : hdr.encodeLen ≠ [] := nofun
    have hqueue := henter.trans
      (enqueuePacketU16Coalesced_trail o hne hdr.encodeOpcode body _)
    split
    next v hres =>
      rw [hres] at hqueue
      exact ⟨v, hqueue, .inl rfl⟩
    next v hres =>
      rw [hres] at hqueue
      exact ⟨v, hqueue, .inr ⟨o, hfind, rfl⟩⟩

theorem sendPacketU16_trail {opcode : UInt16} {body : Body}
    (hpacket : scope.packet ⟨opcode, body.data⟩) (id : UInt64) (w : World) :
    Trail app scope w (sendPacketU16 app id opcode body w).1 := by
  obtain ⟨v, hv, hres | ⟨o, -, hres⟩⟩ := sendPacketU16_cases id opcode body w
  · rw [hres]
    exact hv
  · rw [hres]
    exact hv.tail (.accepts o _ hpacket)

/-! ## New sessions -/

theorem registerOther_trail (fd : Int) (events : UInt32) (tag : Nat) (w : World) :
    Trail app scope w (w.registerOther fd events tag) := by
  unfold World.registerOther
  split
  · exact .refl
  · split
    · exact trail_aside (by constructor <;> rfl)
    · exact trail_aside (by constructor <;> rfl)

theorem releaseOther_trail (w : World) (fd : Int) : Trail app scope w (w.releaseOther fd) := by
  unfold World.releaseOther
  split
  · exact trail_aside (by constructor <;> rfl)
  · exact .refl

/-- A connection that arrives is refused or becomes a session. -/
theorem onAccepted_trail {v : World} (harr : 0 < w.arrivals) (h : w.arrive.Aside v) (fd : Int)
    (memory : Bool) : Trail app scope w (onAccepted app fd memory v).1 := by
  have hissue : w.arrive.issueId.Aside v.issueId :=
    { h with localCounter := congrArg (· + 1) h.localCounter }
  have hid : nextSessionId v = nextSessionId w := by
    unfold nextSessionId
    rw [h.cfg, h.localCounter]
    rfl
  unfold onAccepted
  dsimp only
  rw [hid]
  split
  · exact .single (.refuses harr { hissue with })
  next s hcreate =>
    rw [hissue.cfg, hissue.now] at hcreate
    split
    · exact .single (.refuses harr { hissue with })
    next loop hadd =>
      have hready : w.arrive.issueId.Aside (v.issueId.setLoop loop).popCtl := { hissue with }
      have hfd : 0 ≤ fd := by
        rcases v.issueId.loop.addFd_cases v.issueId.ctl fd baseEpollMask
          (some (Handler.session v.issueId.created)) with ⟨_, hfd, _⟩ | ⟨⟨e, hfail⟩, -⟩
        · exact hfd
        · cases hadd.symm.trans hfail
      exact .single (.starts fd memory s harr hready hfd hcreate)

theorem acceptFresh_trail (fd : Int) (memory : Bool) (w : World) :
    Trail app scope w (acceptFresh app fd memory w).1 := by
  unfold acceptFresh
  split
  · exact .refl
  next hfresh =>
    have harr : 0 < w.arrivals :=
      Nat.pos_of_ne_zero fun hzero => hfresh (.inr (.inr hzero))
    exact onAccepted_trail harr (by constructor <;> rfl) fd memory

/-! ## Applications -/

theorem dispatchInjected_trail (id : UInt64) (opcode : UInt16) (body : List UInt8) (w : World) :
    Trail app scope w (dispatchInjected app id opcode body w) := by
  unfold dispatchInjected
  split
  · exact .refl
  · split
    · exact .single (.message id opcode body)
    · exact closeByPolicy_trail (scope.reason_of_plain (by decide)) id 0 w

/-- What an application asks for within the scope. -/
def Api.Within (scope : Scope) : Api → Prop
  | .sendPacketU16 _ opcode body => scope.packet ⟨opcode, body.data⟩
  | .beginClose _ reason _ => scope.reason (reason.getD "policy_close")
  | .closeAllByPolicy reason _ _ => scope.reason (reason.getD "policy_close")
  | .dispatchInjected _ _ _ => True
  | .dialConnected _ _ => True
  | .dialPending _ _ => True

theorem Api.within_all (a : Api) : a.Within .all := by
  cases a <;> trivial

theorem call_trail {a : Api} (h : a.Within scope) (w : World) :
    Trail app scope w (call a app w) := by
  cases a with
  | sendPacketU16 id opcode body => exact sendPacketU16_trail h id w
  | beginClose id reason err => exact closeByPolicy_trail h id err w
  | closeAllByPolicy reason err order => exact closeAllByPolicy_trail h err order w
  | dispatchInjected id opcode body => exact dispatchInjected_trail id opcode body w
  | dialConnected fd memory => exact (acceptFresh_trail fd memory w).tail (.dialed _)
  | dialPending fd tag => exact registerOther_trail fd dialEpollMask tag w

/-! ## Receiving -/

theorem noteClosed_trail (o : Nat) (w : World) : Trail app scope w (w.noteClosed o) := by
  unfold World.noteClosed
  split
  · exact .refl
  · exact trail_touches (by constructor <;> rfl) rfl rfl rfl rfl rfl

theorem dispatchOnMessage_trail (o : Nat) (message : List UInt8) (w : World) :
    Trail app scope w (dispatchOnMessage app o message w) := by
  unfold dispatchOnMessage
  dsimp only
  have hcount : Trail app scope w ({ w with rxMessages := w.rxMessages + 1 }.modify o fun s =>
      { s with payloads := s.payloads ++ [message] }) :=
    .trans (trail_aside (by constructor <;> rfl))
      (trail_touches (by constructor <;> rfl) rfl rfl rfl rfl rfl)
  refine hcount.trans ?_
  generalize World.modify _ o _ = w₁
  split
  · exact closeByPolicy_trail (scope.reason_of_plain (by decide)) _ 0 w₁
  next opcode body _ =>
    split
    · exact (sendPacketU16_trail scope.packet_pong _ w₁).trans (noteClosed_trail o _)
    split
    · exact .refl
    have hnote : Trail app scope w₁ (w₁.modify o fun s =>
        { s with dispatched := s.dispatched ++ [⟨opcode, body⟩] }) :=
      trail_touches (by constructor <;> rfl) rfl rfl rfl rfl rfl
    refine hnote.trans ?_
    generalize w₁.modify o _ = w₂
    split
    · exact .trans (.single (.message _ opcode body)) (noteClosed_trail o _)
    · exact closeByPolicy_trail (scope.reason_of_plain (by decide)) _ 0 w₂

theorem processRecvFrames_trail (hreads : scope.reads o) (fuel : Nat) (w : World) :
    Trail app scope w (processRecvFrames app o fuel w).1 := by
  induction fuel generalizing w with
  | zero => exact .refl
  | succ fuel ih =>
    have hring : ∀ recvRing, Does app scope w (w.modify o fun s => { s with recvRing }) :=
      fun recvRing => .reads o recvRing hreads
    rw [processRecvFrames]
    split
    next recvRing _ => exact .single (hring recvRing)
    next recvRing _ _ =>
      exact .head (hring recvRing)
        (beginClose_trail (scope.reason_of_plain (by decide)) o 0 _)
    next recvRing message _ =>
      have hdispatch := Relation.ReflTransGen.head (hring recvRing)
        (dispatchOnMessage_trail o message _)
      dsimp only
      split
      · exact hdispatch
      · exact hdispatch.trans (ih _)

/-- More bytes are awaited only for a session that is still connected. -/
theorem processRecvFrames_connected {fuel : Nat} (hc : (w.obj o).state = .connected)
    {v : World} (h : processRecvFrames app o fuel w = (v, true)) :
    (v.obj o).state = .connected := by
  induction fuel generalizing w with
  | zero =>
    cases h
    exact hc
  | succ fuel ih =>
    rw [processRecvFrames] at h
    split at h
    · cases h
      rw [World.modify, World.obj_setObj_self]
      exact hc
    · cases h
    · dsimp only at h
      split at h
      · cases h
      next hstate => exact ih (Decidable.not_not.mp hstate) h

/-- `recvmsg` delivers at least one byte. -/
theorem recvmsg_data {script script' : RecvScript} {offered n : Nat}
    (h : script.recvmsg offered = (.data n, script')) : script.queue.take n ≠ [] := by
  have htaken : ∀ {m room : Nat}, script.queue ≠ [] → script.queue.take (taken m room) ≠ [] := by
    intro m room hne hnil
    rcases List.take_eq_nil_iff.mp hnil with hzero | hqueue
    · exact Nat.ne_of_gt (taken_pos m room) hzero
    · exact hne hqueue
  unfold RecvScript.recvmsg at h
  dsimp only at h
  split at h
  · cases h
  · split at h
    · cases h
    next hne =>
      cases h
      exact htaken hne
  · split at h
    · cases h
    next hne =>
      cases h
      exact htaken hne

theorem onReadableLoop_trail (hreads : scope.reads o) (fuel : Nat) (script : RecvScript)
    (hc : (w.obj o).state = .connected) :
    Trail app scope w (onReadableLoop app o fuel script w) := by
  have hclose : ∀ {reason : String}, IsPlain reason → ∀ err w,
      Trail app scope w (beginClose app o reason err w) := fun hreason =>
    beginClose_trail (scope.reason_of_plain hreason) o
  induction fuel generalizing script w with
  | zero => exact .refl
  | succ fuel ih =>
    rw [onReadableLoop]
    dsimp only
    split
    · exact beginClose_trail (scope.overflow hreads) o 0 w
    split
    next n script' hrecv =>
      generalize hw₁ : w.modify o _ = w₁
      have hdata : Does app scope w w₁ := by
        rw [← hw₁]
        exact .receives o _ _ hreads hc (recvmsg_data hrecv)
      have hc₁ : (w₁.obj o).state = .connected := by
        rw [← hw₁, World.modify, World.obj_setObj_self]
        exact hc
      have hframes := Relation.ReflTransGen.head hdata
        (processRecvFrames_trail hreads ((w₁.obj o).recvRing.available + 1) w₁)
      split
      next v hv =>
        rw [hv] at hframes
        exact hframes
      next v hv =>
        rw [hv] at hframes
        exact hframes.trans (ih script' (processRecvFrames_connected hc₁ hv))
    next script' _ => exact ih script' hc
    next => exact hclose (by decide) 0 w
    next => exact .refl
    next e _ _ => exact hclose (by decide) e w

theorem onReadable_trail (hreads : scope.reads o) (script : RecvScript) (w : World) :
    Trail app scope w (onReadable app o script w) := by
  unfold onReadable
  split
  · exact .refl
  next hc => exact onReadableLoop_trail hreads _ script (Decidable.not_not.mp hc)

theorem onErrorEvent_trail (o : Nat) (events : UInt32) (w : World) :
    Trail app scope w (onErrorEvent app o events w) := by
  have hclose : ∀ {reason : String}, IsPlain reason →
      Trail app scope w (beginClose app o reason 0 w) := fun hreason =>
    beginClose_trail (scope.reason_of_plain hreason) o 0 w
  unfold onErrorEvent
  split
  · exact .refl
  split
  · exact hclose (by decide)
  split
  · split
    · exact hclose (by decide)
    · exact hclose (by decide)
  · exact hclose (by decide)

/-- Once it has read, `handleEvent` leaves the receive rings alone. -/
theorem handleEvent_trail_after (app : Callback → World → World) (scope : Scope) (o : Nat)
    (events : UInt32) (script : RecvScript) (w : World) :
    ∃ v, (v = w ∨ v = onReadable app o script w) ∧
      Trail app scope v (handleEvent app o events script w) := by
  unfold handleEvent
  split
  · exact ⟨w, .inl rfl, .refl⟩
  dsimp only
  generalize hv : (if events &&& Event.read ≠ 0 then _ else w) = v
  refine ⟨v, ?_, ?_⟩
  · rw [← hv]
    split
    · exact .inr rfl
    · exact .inl rfl
  split
  · exact .refl
  generalize hu : (if events &&& Event.write ≠ 0 then _ else v) = u
  have hwrite : Trail app scope v u := by
    rw [← hu]
    split
    · exact onWritable_trail o v
    · exact .refl
  refine hwrite.trans ?_
  split
  · exact .refl
  split
  · exact onErrorEvent_trail o events u
  · exact .refl

theorem handleEvent_trail (hreads : scope.reads o) (events : UInt32) (script : RecvScript)
    (w : World) : Trail app scope w (handleEvent app o events script w) := by
  obtain ⟨v, rfl | rfl, hafter⟩ := handleEvent_trail_after app scope o events script w
  · exact hafter
  · exact (onReadable_trail hreads script w).trans hafter

/-! ## Inputs -/

/-- What the event loop does outside of timers and tasks. -/
theorem Input.exec_trail {input : Input} (htimer : ∀ i, input ≠ .timer i)
    (htask : ∀ client, input ≠ .task client)
    (hready : ∀ ev script, input = .ready ev script → ∀ o, scope.reads o) (w : World) :
    Trail app scope w (input.exec app w) := by
  cases input with
  | accept fd memory => exact acceptFresh_trail fd memory w
  | registerOther fd events tag => exact registerOther_trail fd events tag w
  | releaseOther fd => exact releaseOther_trail w fd
  | dialOk fd memory =>
    rw [Input.exec]
    split
    next hdial =>
      have hremoved : w.arrive.Aside (w.arrive.removeFd fd) := by constructor <;> rfl
      exact (onAccepted_trail hdial.2 hremoved fd memory).tail (.dialed _)
    · exact .refl
  | dialFailed fd => exact (releaseOther_trail w fd).tail (.dialed 0)
  | ready ev script =>
    rw [Input.exec]
    split
    next ctx _ =>
      split
      next o _ => exact handleEvent_trail (hready ev script rfl o) ev.events script w
      · exact .refl
    · exact .refl
  | timer i => exact absurd rfl (htimer i)
  | task client => exact absurd rfl (htask client)

end Functions

/-! ## Steps -/

/-- The application of a step keeps to the scope. -/
structure Step.Within (scope : Scope) (t : Step) : Prop where
  user : ∀ c w, (t.user c w).Only (Api.Within scope)
  task : ∀ client, t.input = .task client → client.Only (Api.Within scope)

theorem Step.within_all (t : Step) : t.Within .all :=
  ⟨fun _ _ => Script.only_of_forall Api.within_all _, fun _ _ =>
    Script.only_of_forall Api.within_all _⟩

section Rules

variable {scope : Scope} {R : World → World → Prop} (refl : ∀ w, R w w)
  (trans : ∀ {u v w}, R u v → R v w → R u w)
  (does : ∀ {app}, (∀ c w, R w (app c w)) → ∀ {w w'}, Does app scope w w' → R w w')
include refl trans does

theorem client_rel {client : Client} (h : client.Only (Api.Within scope)) (w : World) :
    R w (client.run call w) :=
  Script.run_rel_of_only refl trans
    (fun _ _ w ha happ => (call_trail ha w).rel refl trans (does happ)) h w

theorem Step.app_rel {t : Step} (h : t.Within scope) (c : Callback) (w : World) :
    R w (t.app c w) := client_rel refl trans does (h.user c w) w

/-- A relation that holds across each change, given it does across the callbacks, holds across
every step but those of the timers. -/
theorem step_rel {t : Step} (h : t.Within scope) (htimer : ∀ i, t.input ≠ .timer i)
    (hready : ∀ ev script, t.input = .ready ev script → ∀ o, scope.reads o) (w : World) :
    R (w.answered t) (step w t) := by
  have happ := Step.app_rel refl trans does h
  cases ht : t.input with
  | task client =>
    rw [step, ht]
    exact client_rel refl trans does (h.task client ht) _
  | _ =>
    have htask : ∀ client, t.input ≠ .task client := fun client hclient => by
      cases ht.symm.trans hclient
    have htrail : Trail t.app scope (w.answered t) (step w t) :=
      Input.exec_trail htimer htask hready _
    exact htrail.rel refl trans (does happ)

end Rules

end HyperNet.Net
