import HyperNet.Net.Paths

/-!
# The byte streams of a session

What a session sends and what it dispatches, over whole runs of its worker.  Every
byte of every packet `sendPacketU16` accepts is either with the kernel or in the send
ring, in order (`run_send_stream`).  What is dispatched is what the reference parser
makes of the bytes received, however `recvmsg` cut them (`onReadable_refines_parse`).
Together: between two sessions joined by an ordered byte stream, the packets
dispatched are those accepted whose frames have arrived (`dispatched_eq_complete`).
-/

namespace HyperNet.Net

open Buffer Protocol Reentrant

/-! ## Sending -/

theorem frames_append (ps qs : List Packet) : frames (ps ++ qs) = frames ps ++ frames qs := by
  rw [frames, List.map_append, List.flatten_append]
  rfl

theorem frames_concat (ps : List Packet) (p : Packet) :
    frames (ps ++ [p]) = frames ps ++ p.frame := by
  rw [frames_append]
  exact congrArg _ (List.append_nil _)

/-- Where the bytes of a session's packets are. -/
structure Session.Streams (s : Session) : Prop where
  connected : s.state = .connected →
    s.inCall = none ∧ s.sent ++ s.sendRing.contents = frames s.accepted
  ended : s.sent <+: frames (s.accepted ++ s.inCall.toList)

namespace Session.Streams

variable {s s' : Session}

theorem of_core (h : s.Streams) (hs : s'.core = s.core) : s'.Streams := by
  have h' : s'.core.Streams := by
    rw [hs]
    exact ⟨h.connected, h.ended⟩
  exact ⟨h'.connected, h'.ended⟩

theorem fresh {cfg : Config} {id : UInt64} {fd : Int} (h : s.Fresh cfg id fd) : s.Streams := by
  obtain ⟨hsent, haccepted, hcall⟩ := h.send
  refine ⟨fun _ => ⟨hcall, ?_⟩, ?_⟩
  · rw [hsent, haccepted, h.sendRing.1]
    rfl
  · rw [hsent]
    exact List.nil_prefix

theorem sends (h : s.Streams) (hc : s.state = .connected) (hs : s.Sends s') : s'.Streams := by
  obtain ⟨hcall, hstream⟩ := h.connected hc
  cases hs with
  | flushed p hp =>
    have hstream' : p.sent ++ p.ring.contents = frames s.accepted :=
      hp.stream.trans ((List.append_nil _).trans hstream)
    refine ⟨fun _ => ⟨hcall, hstream'⟩, ?_⟩
    rw [hcall]
    simp only [Option.toList_none, List.append_nil]
    rw [← hstream']
    exact List.prefix_append _ _
  | packet p packet hp =>
    have hstream' : p.sent ++ p.ring.contents = frames (s.accepted ++ [packet]) := by
      rw [frames_concat, ← hstream]
      exact hp.stream
    refine ⟨fun _ => ⟨rfl, hstream'⟩, ?_⟩
    simp only [Option.toList_none, List.append_nil]
    rw [← hstream']
    exact List.prefix_append _ _

theorem stops (h : s.Streams) (hc : s.state = .connected) (hs : s.Stops s') (reason : String) :
    { s' with fd := -1, state := .closed, closeReason := some reason }.Streams := by
  refine ⟨nofun, ?_⟩
  cases hs with
  | idle => exact h.ended
  | inCall p packet _ hle _ =>
    change p.sent <+: frames (s.accepted ++ [packet])
    rw [frames_concat, ← (h.connected hc).2]
    exact hle

theorem change {p : Prop} (h : s.Streams) (hs : s.Change p s') : s'.Streams := by
  cases hs with
  | quiet hs => exact h.of_core hs
  | sends t hc ht hs => exact (h.sends hc ht).of_core hs
  | masked events hs =>
    exact of_core (s := { s with currentEpollMask := events }) ⟨h.connected, h.ended⟩ hs
  | closed t reason hc ht hs => exact (h.stops hc ht reason).of_core hs
  | receives t _ ht hs =>
    refine of_core ?_ hs
    cases ht
    exact ⟨h.connected, h.ended⟩

end Session.Streams

theorem streams_run (cfg : Config) {arrivals : Nat} (h : arrivals < 2 ^ 32) (steps : List Step) :
    ∀ o < (run cfg arrivals steps).created, ((run cfg arrivals steps).obj o).Streams :=
  run_sessions .fresh (fun hs h => h.change hs) (lt_idSpace h) steps

/-- In every run the bytes the kernel took and those in the ring are the frames of the
packets accepted, and where a call ended the session the kernel got no more than
these and a part of that call's frame. -/
theorem run_send_stream (cfg : Config) {arrivals : Nat} (h : arrivals < 2 ^ 32)
    (steps : List Step) {o : Nat} (ho : o < (run cfg arrivals steps).created) :
    let s := (run cfg arrivals steps).obj o
    (s.state = .connected → s.inCall = none ∧ s.sent ++ s.sendRing.contents = frames s.accepted) ∧
    (s.state = .closed → s.sent <+: frames (s.accepted ++ s.inCall.toList)) :=
  have hs := streams_run cfg h steps o ho
  ⟨hs.connected, fun _ => hs.ended⟩

/-- An accepted connection sends a packet of which the kernel takes three bytes. -/
def sampleSend : List Step :=
  [{ input := .accept 5 true },
   { input := .task (.call (.sendPacketU16 4294967297 7 (.bytes [1])) (fun _ _ => .done)
       fun _ => .done),
     writes := [.taken 3, .eagain] }]

theorem run_send_stream_partial :
    ((run sampleConfig 1 sampleSend).obj 0).sent = [0, 0, 0] ∧
    ((run sampleConfig 1 sampleSend).obj 0).inCall = none ∧
    ((run sampleConfig 1 sampleSend).obj 0).sent ++
        ((run sampleConfig 1 sampleSend).obj 0).sendRing.contents =
      frames ((run sampleConfig 1 sampleSend).obj 0).accepted :=
  ⟨by decide, (run_send_stream sampleConfig (by decide) sampleSend (o := 0) (by decide)).1
    (by decide)⟩

/-! ## Receiving -/

/-- The calls of `Dispatcher::dispatch` made for payloads. -/
def dispatches (ps : List (List UInt8)) : List Packet :=
  ps.filterMap fun p =>
    match splitOpcodeU16Be p with
    | none => none
    | some (opcode, body) =>
      if opcode = kOpcodePing ∨ opcode = kOpcodePong then none else some ⟨opcode, body⟩

section Messages

variable {handled : UInt16 → Bool} {p : List UInt8} {opcode : UInt16} {body : List UInt8}

theorem refusal_of_none (h : splitOpcodeU16Be p = none) :
    refusal handled p = some .invalidOpcodePrefix := by
  rw [refusal, h]

theorem dispatches_of_none (h : splitOpcodeU16Be p = none) : dispatches [p] = [] := by
  rw [dispatches, List.filterMap_cons, h]
  rfl

section

variable (h : splitOpcodeU16Be p = some (opcode, body))
include h

theorem refusal_of_builtin (hb : opcode = kOpcodePing ∨ opcode = kOpcodePong) :
    refusal handled p = none := by
  rw [refusal, h]
  exact if_pos (hb.imp_right .inl)

theorem dispatches_of_builtin (hb : opcode = kOpcodePing ∨ opcode = kOpcodePong) :
    dispatches [p] = [] := by
  simp only [dispatches, List.filterMap_cons, h, hb, if_true, List.filterMap_nil]

theorem refusal_of_split (hb : ¬ (opcode = kOpcodePing ∨ opcode = kOpcodePong)) :
    refusal handled p = if handled opcode = true then none else some .unknownOpcode := by
  obtain ⟨hping, hpong⟩ := not_or.mp hb
  simp only [refusal, h, hping, hpong, false_or]

theorem dispatches_of_split (hb : ¬ (opcode = kOpcodePing ∨ opcode = kOpcodePong)) :
    dispatches [p] = [⟨opcode, body⟩] := by
  simp only [dispatches, List.filterMap_cons, h, hb, if_false, List.filterMap_nil]

end

end Messages

/-- A handler or a reply ended the session. -/
def Session.CutShort (s : Session) : Prop := s.closedInDispatch = true ∧ s.state ≠ .connected

/-- The session goes on, or was closed for a reason of the engine's. -/
def Session.Follows (s : Session) : Option Verdict → Prop
  | none => s.state = .connected
  | some v => s.state = .closed ∧ s.closeReason = v.closeReason

/-- A session has taken in what `t` has, and goes on or not as `refused` says, unless the
application cut it short. -/
structure Session.Settles (s t : Session) (refused : Option Verdict) : Prop where
  intake : s.intake = t.intake
  outcome : s.CutShort ∨ s.closedInDispatch = t.closedInDispatch ∧ s.Follows refused

/-- A session that has taken a message. -/
def Session.take (s : Session) (p : List UInt8) : Session :=
  { s with payloads := s.payloads ++ [p], dispatched := s.dispatched ++ dispatches [p] }

/-- Where the reference parser's verdict leaves a session. -/
def Session.After (s : Session) : Verdict → Prop
  | .waiting rest => s.state = .connected ∧ s.recvRing.contents = rest
  | v => s.state = .closed ∧ s.closeReason = v.closeReason

theorem Session.Follows.after {s : Session} {v : Verdict} (hv : ∀ rest, v ≠ .waiting rest)
    (h : s.Follows (some v)) : s.After v := by
  cases v with
  | waiting rest => exact absurd rfl (hv rest)
  | _ => exact h

/-- Nothing is taken in. -/
theorem Session.intake_same {s s' : Session} (h : s'.intake = s.intake) :
    s'.recvRing.capacity = s.recvRing.capacity ∧
    (s.dispatched = dispatches s.payloads → s'.dispatched = dispatches s'.payloads) ∧
    s'.payloads = s.payloads ∧ s'.received = s.received := by
  have hpayloads : s'.payloads = s.payloads := (congrArg Intake.payloads h :)
  have hdispatched : s'.dispatched = s.dispatched := (congrArg Intake.dispatched h :)
  refine ⟨(congrArg (fun i : Intake => i.recvRing.capacity) h :), fun hd => ?_, hpayloads,
    (congrArg Intake.received h :)⟩
  rw [hdispatched, hpayloads, hd]

/-- From `s` to `s'` a session passes on what the reference parser found, and ends up
where its verdict says, unless the application cuts it short. -/
structure Session.Reads (s s' : Session) (res : List (List UInt8) × Verdict) : Prop where
  capacity : s'.recvRing.capacity = s.recvRing.capacity
  dispatched : s.dispatched = dispatches s.payloads → s'.dispatched = dispatches s'.payloads
  outcome : s'.CutShort ∨ s'.closedInDispatch = s.closedInDispatch ∧
    s'.payloads = s.payloads ++ res.1 ∧ s'.After res.2

theorem dispatches_append (ps qs : List (List UInt8)) :
    dispatches (ps ++ qs) = dispatches ps ++ dispatches qs := List.filterMap_append

namespace Session.Reads

variable {s s' t : Session} {p : List UInt8} {v : Verdict} {recvRing : Ring}

/-- Nothing is passed on. -/
theorem of_intake (hintake : s'.intake = s.intake)
    (hflag : s'.closedInDispatch = s.closedInDispatch) (h : s'.After v) : s.Reads s' ([], v) := by
  obtain ⟨hcap, hdispatched, hpayloads, -⟩ := Session.intake_same hintake
  exact ⟨hcap, hdispatched, .inr ⟨hflag, hpayloads.trans (List.append_nil _).symm, h⟩⟩

/-- What passing one message on does to the invariant part. -/
theorem take_dispatched (h : s'.intake = ({ s with recvRing }.take p).intake)
    (hd : s.dispatched = dispatches s.payloads) : s'.dispatched = dispatches s'.payloads := by
  have hpayloads : s'.payloads = s.payloads ++ [p] := (congrArg Intake.payloads h :)
  have hdispatched : s'.dispatched = s.dispatched ++ dispatches [p] :=
    (congrArg Intake.dispatched h :)
  rw [hdispatched, hpayloads, hd]
  exact List.filterMap_append.symm

/-- One message is passed on, and the application ends the session. -/
theorem of_cutShort {res : List (List UInt8) × Verdict}
    (hcap : recvRing.capacity = s.recvRing.capacity)
    (h : s'.intake = ({ s with recvRing }.take p).intake) (hcut : s'.CutShort) :
    s.Reads s' res :=
  ⟨(congrArg (fun i : Intake => i.recvRing.capacity) h :).trans hcap, take_dispatched h,
    .inl hcut⟩

/-- One message is passed on, and the session ends with it. -/
theorem of_settles (hcap : recvRing.capacity = s.recvRing.capacity)
    (h : s'.Settles ({ s with recvRing }.take p) (some v)) (hv : ∀ rest, v ≠ .waiting rest) :
    s.Reads s' ([p], v) := by
  refine ⟨(congrArg (fun i : Intake => i.recvRing.capacity) h.intake :).trans hcap,
    take_dispatched h.intake, h.outcome.imp_right fun hend => ?_⟩
  exact ⟨hend.1, (congrArg Intake.payloads h.intake :), hend.2.after hv⟩

/-- One message is passed on, and then the rest. -/
theorem cons {res : List (List UInt8) × Verdict} (hcap : recvRing.capacity = s.recvRing.capacity)
    (hintake : t.intake = ({ s with recvRing }.take p).intake)
    (hflag : t.closedInDispatch = s.closedInDispatch) (h : t.Reads s' res) :
    s.Reads s' (p :: res.1, res.2) := by
  have hpayloads : t.payloads = s.payloads ++ [p] := (congrArg Intake.payloads hintake :)
  refine ⟨h.capacity.trans
      ((congrArg (fun i : Intake => i.recvRing.capacity) hintake :).trans hcap),
    fun hd => h.dispatched (take_dispatched hintake hd), h.outcome.imp_right ?_⟩
  rintro ⟨hflag', hpayloads', hafter⟩
  refine ⟨hflag'.trans hflag, ?_, hafter⟩
  rw [hpayloads', hpayloads, List.append_assoc]
  rfl

end Session.Reads

/-- Where a session is once it has read all there is. -/
def Session.Reached (s : Session) : Verdict → RecvEnd → Prop
  | .waiting rest, .eagain => s.state = .connected ∧ s.recvRing.contents = rest
  | .waiting _, .zero => s.state = .closed ∧ s.closeReason = some "peer_close"
  | .waiting _, .failed _ => s.state = .closed ∧ s.closeReason = some "recv_error"
  | v, _ => s.state = .closed ∧ s.closeReason = v.closeReason

theorem Session.Reached.waiting {s : Session} {v : Verdict} {ending : RecvEnd}
    (h : s.Reached v ending) (hc : s.state = .connected) : v = .waiting s.recvRing.contents := by
  have hclosed : s.state ≠ .closed := by
    rw [hc]
    nofun
  cases v with
  | waiting rest =>
    cases ending with
    | eagain => exact congrArg _ h.2.symm
    | zero | failed e => exact absurd h.1 hclosed
  | _ => exact absurd h.1 hclosed

theorem Session.Reached.ne_overflow {s : Session} {v : Verdict} {ending : RecvEnd}
    (h : s.Reached v ending) (hclosed : s.state = .closed) :
    s.closeReason ≠ some "recv_overflow" := by
  cases v with
  | waiting rest =>
    cases ending with
    | eagain => exact nomatch h.1.symm.trans hclosed
    | zero | failed e => rw [h.2]; decide
  | _ => rw [h.2]; decide

/-- From `s` to `s'` a session reads a readiness event to its end: `queue` has arrived
and `ending` follows, and `res` is what the reference parser makes of it all. -/
structure Session.Drains (s s' : Session) (queue : List UInt8)
    (res : List (List UInt8) × Verdict) (ending : RecvEnd) : Prop where
  capacity : s'.recvRing.capacity = s.recvRing.capacity
  dispatched : s.dispatched = dispatches s.payloads → s'.dispatched = dispatches s'.payloads
  outcome : s'.CutShort ∨
    -- a ring that has no room for a header is full
    (s.recvRing.capacity < 4 ∧ s'.state = .closed) ∨
    s'.closedInDispatch = s.closedInDispatch ∧ s'.payloads = s.payloads ++ res.1 ∧
      s'.Reached res.2 ending ∧ (s'.state = .connected → s'.received = s.received ++ queue)

namespace Session.Drains

variable {s s' t : Session} {queue : List UInt8} {res : List (List UInt8) × Verdict}
  {ending : RecvEnd}

/-- Nothing is left to read. -/
theorem ended {v : Verdict} (hside : s'.recvSide = s.recvSide) (h : s'.Reached v ending) :
    s.Drains s' [] ([], v) ending := by
  obtain ⟨hcap, hdispatched, hpayloads, hreceived⟩ :=
    Session.intake_same (congrArg Prod.fst hside :)
  exact ⟨hcap, hdispatched, .inr (.inr ⟨congrArg Prod.snd hside,
    hpayloads.trans (List.append_nil _).symm, h,
    fun _ => hreceived.trans (List.append_nil _).symm⟩)⟩

/-- The session does not outlive its first bytes. -/
theorem stop {res' : List (List UInt8) × Verdict} (h : s.Reads s' res)
    (hstop : s'.state ≠ .connected) (hres : (∀ rest, res.2 ≠ .waiting rest) → res' = res) :
    s.Drains s' queue res' ending := by
  refine ⟨h.capacity, h.dispatched, h.outcome.imp_right fun hend => .inr ?_⟩
  obtain ⟨hflag, hpayloads, hafter⟩ := hend
  have hv : ∀ rest, res.2 ≠ .waiting rest := by
    intro rest hwaiting
    rw [hwaiting] at hafter
    exact hstop hafter.1
  rw [hres hv]
  refine ⟨hflag, hpayloads, ?_, fun hc => absurd hc hstop⟩
  cases hverdict : res.2 with
  | waiting rest => exact absurd hverdict (hv rest)
  | _ =>
    rw [hverdict] at hafter
    exact hafter

/-- The first bytes leave a session that goes on with the rest. -/
theorem next {ps : List (List UInt8)} {rest queue' : List UInt8} (h : s.Reads t (ps, .waiting rest))
    (hc : t.state = .connected) (hreceived : t.received = s.received ++ queue)
    (h' : t.Drains s' queue' res ending) :
    s.Drains s' (queue ++ queue') (ps ++ res.1, res.2) ending := by
  obtain ⟨hflag, hpayloads, -⟩ := h.outcome.resolve_left fun hcut => hcut.2 hc
  refine ⟨h'.capacity.trans h.capacity, fun hd => h'.dispatched (h.dispatched hd), ?_⟩
  rcases h'.outcome with hcut | ⟨hcap, hclosed⟩ | ⟨hflag', hpayloads', hreached, hreceived'⟩
  · exact .inl hcut
  · exact .inr (.inl ⟨h.capacity ▸ hcap, hclosed⟩)
  · refine .inr (.inr ⟨hflag'.trans hflag, ?_, hreached, fun hc' => ?_⟩)
    · rw [hpayloads', hpayloads, List.append_assoc]
    · rw [hreceived' hc', hreceived, List.append_assoc]

end Session.Drains

section Receiving

variable {app : Callback → World → World} {w : World} {o : Nat}

/-- A session's own notes change. -/
theorem Lifecycle.note (h : Lifecycle w) (ho : o < w.created) {f : Session → Session} {v : World}
    (hv : w.modify o f = v) (hid : (f (w.obj o)).id = (w.obj o).id)
    (hfd : (f (w.obj o)).fd = (w.obj o).fd) (hstate : (f (w.obj o)).state = (w.obj o).state)
    (hmask : (f (w.obj o)).currentEpollMask = (w.obj o).currentEpollMask) :
    Lifecycle v ∧ o < v.created ∧ v.cfg = w.cfg ∧ v.obj o = f (w.obj o) := by
  subst hv
  exact ⟨h.setObj hid hfd hstate hmask, ho, rfl, w.obj_setObj_self o _⟩

/-- What `noteClosed` records after the application was in control. -/
theorem noteClosed_settles {v : World} (hpath : Path none w v) (ho : o < w.created) :
    ((v.noteClosed o).obj o).Settles (w.obj o) none := by
  have hside := (hpath.evolves.obj o ho).recvSide nofun
  unfold World.noteClosed
  split
  next hc => exact ⟨congrArg Prod.fst hside, .inr ⟨congrArg Prod.snd hside, hc⟩⟩
  next hc =>
    rw [World.modify, World.obj_setObj_self]
    exact ⟨congrArg Prod.fst hside, .inl ⟨rfl, hc⟩⟩

variable (happ : ∀ c w, Reach none w (app c w))
include happ

section

variable (h : Lifecycle w) (ho : o < w.created) (hc : (w.obj o).state = .connected)
include h ho hc

/-- The engine closes a session: its receive side stays, and so does the reason. -/
theorem beginClose_settles {reason : String} {v : Verdict} (hreason : v.closeReason = some reason) :
    ((beginClose app o reason 0 w).obj o).Settles (w.obj o) (some v) := by
  have hclosed := beginClose_closed happ h (h.live ho hc) reason 0
  have hside := ((beginClose_reach_idle happ ho reason 0 h).evolves.obj o ho).recvSide nofun
  exact ⟨congrArg Prod.fst hside,
    .inr ⟨congrArg Prod.snd hside, hclosed.1, hclosed.2.trans hreason.symm⟩⟩

theorem closeByPolicy_settles {id : UInt64} (hid : (w.obj o).id = id) {reason : String}
    {v : Verdict} (hreason : v.closeReason = some reason) :
    ((closeByPolicy app id (some reason) 0 w).obj o).Settles (w.obj o) (some v) := by
  rw [closeByPolicy, ← hid, h.find_of_mem (h.live ho hc).listed]
  exact beginClose_settles happ h ho hc hreason

/-- One message: it is recorded, dispatched unless it is a heartbeat, and the session
goes on unless the engine refuses it or the application ends it. -/
theorem dispatchOnMessage_settles (message : List UInt8) :
    ((dispatchOnMessage app o message w).obj o).Settles ((w.obj o).take message)
      (refusal w.cfg.handled message) := by
  have hcounted : Lifecycle { w with rxMessages := w.rxMessages + 1 } := h.quiet rfl
  unfold dispatchOnMessage
  dsimp only
  generalize hw₁ : World.modify _ o _ = w₁
  generalize hid : (w.obj o).id = id
  unfold Session.take
  obtain ⟨h₁, ho₁, hcfg₁, hobj₁⟩ := hcounted.note ho hw₁ rfl rfl rfl rfl
  change w₁.obj o = { w.obj o with payloads := (w.obj o).payloads ++ [message] } at hobj₁
  have hc₁ : (w₁.obj o).state = .connected := by
    rw [hobj₁]
    exact hc
  have hid₁ : (w₁.obj o).id = id := by rw [hobj₁, ← hid]
  cases hsplit : splitOpcodeU16Be message with
  | none =>
    have hclose := closeByPolicy_settles happ h₁ ho₁ hc₁ hid₁ (v := .invalidOpcodePrefix) rfl
    rw [refusal_of_none hsplit, dispatches_of_none hsplit, List.append_nil]
    rw [hobj₁] at hclose
    exact hclose
  | some parts =>
    obtain ⟨opcode, body⟩ := parts
    dsimp only
    split
    next hping =>
      have hreply := noteClosed_settles
        (sendPacketU16_reach happ id kOpcodePong (.null 0) w₁ h₁) ho₁
      rw [refusal_of_builtin hsplit (.inl hping), dispatches_of_builtin hsplit (.inl hping),
        List.append_nil]
      rw [hobj₁] at hreply
      exact hreply
    next hping =>
    split
    next hpong =>
      rw [refusal_of_builtin hsplit (.inr hpong), dispatches_of_builtin hsplit (.inr hpong),
        List.append_nil, hobj₁]
      exact ⟨rfl, .inr ⟨rfl, hc⟩⟩
    next hpong =>
      have hother := not_or.mpr ⟨hping, hpong⟩
      rw [dispatches_of_split hsplit hother, refusal_of_split hsplit hother]
      generalize hw₂ : w₁.modify o _ = w₂
      obtain ⟨h₂, ho₂, hcfg₂, hobj₂⟩ := h₁.note ho₁ hw₂ rfl rfl rfl rfl
      rw [hobj₁] at hobj₂
      rw [hcfg₂, hcfg₁]
      split
      next hhandled =>
        have hhandler := noteClosed_settles (happ (.onMessage id opcode body) w₂ h₂) ho₂
        rw [hobj₂] at hhandler
        exact hhandler
      next hhandled =>
        have hid₂ : (w₂.obj o).id = id := by
          rw [hobj₂]
          exact hid
        have hclose := closeByPolicy_settles happ h₂ ho₂ (by rw [hobj₂]; exact hc) hid₂
          (v := .unknownOpcode) rfl
        rw [hobj₂] at hclose
        exact hclose

/-- Framing what the ring holds: as the reference parser does, unless the application
ends the session on the way.  A frame is not empty, so there are turns enough. -/
theorem processRecvFrames_reads {fuel : Nat} (hfuel : (w.obj o).recvRing.contents.length < fuel) :
    (w.obj o).Reads ((processRecvFrames app o fuel w).1.obj o)
        (parse (w.obj o).recvRing.capacity w.cfg.maxPayloadLen w.cfg.handled
          (w.obj o).recvRing.contents) ∧
      ((processRecvFrames app o fuel w).1.obj o).received = (w.obj o).received ∧
      ((processRecvFrames app o fuel w).2 = true ↔
        ((processRecvFrames app o fuel w).1.obj o).state = .connected) := by
  induction fuel generalizing w with
  | zero => exact absurd hfuel (Nat.not_lt_zero _)
  | succ fuel ih =>
    have htry := tryFrame_eq w.cfg.maxPayloadLen (w.obj o).recvRing
    rw [processRecvFrames]
    cases hnext : nextFrame (w.obj o).recvRing.capacity w.cfg.maxPayloadLen
        (w.obj o).recvRing.contents with
    | needMore =>
      rw [hnext] at htry
      rw [htry, parse_needMore hnext]
      dsimp only [World.modify]
      rw [World.setObj_obj]
      exact ⟨.of_intake rfl rfl ⟨hc, rfl⟩, rfl, fun _ => hc, fun _ => rfl⟩
    | invalid =>
      rw [hnext] at htry
      obtain ⟨reason, htry⟩ := htry
      rw [htry, parse_invalid hnext]
      dsimp only [World.modify]
      rw [World.setObj_obj]
      have hclose := beginClose_closed happ h (h.live ho hc) "framer_invalid" 0
      have hside := ((beginClose_reach_idle happ ho "framer_invalid" 0 h).evolves.obj o
        ho).recvSide (by rintro ⟨⟩)
      have hintake := congrArg Prod.fst hside
      refine ⟨.of_intake hintake (congrArg Prod.snd hside) hclose,
        congrArg Intake.received hintake, (by rintro ⟨⟩), ?_⟩
      rw [hclose.1]
      rintro ⟨⟩
    | framed p rest =>
      rw [hnext] at htry
      obtain ⟨recvRing, htry, hrest, hcap⟩ := htry
      rw [htry]
      dsimp only
      generalize hw₁ : w.modify o _ = w₁
      obtain ⟨h₁, ho₁, hcfg₁, hobj₁⟩ := h.note ho hw₁ rfl rfl rfl rfl
      have hsettles := dispatchOnMessage_settles happ h₁ ho₁ (by rw [hobj₁]; exact hc) p
      have hpath := dispatchOnMessage_reach happ p ho₁ h₁
      generalize dispatchOnMessage app o p w₁ = w₂ at hsettles hpath
      rw [hobj₁, hcfg₁] at hsettles
      have hreceived : (w₂.obj o).received = (w.obj o).received :=
        (congrArg Intake.received hsettles.intake :)
      split
      next hclosed =>
        refine ⟨?_, hreceived, (by rintro ⟨⟩), fun hopen => absurd hopen hclosed⟩
        cases hrefusal : refusal w.cfg.handled p with
        | none =>
          rw [hrefusal] at hsettles
          refine .of_cutShort hcap hsettles.intake (hsettles.outcome.resolve_right ?_)
          exact fun hgoes => hclosed hgoes.2
        | some v =>
          rw [parse_refused hnext hrefusal]
          rw [hrefusal] at hsettles
          exact .of_settles hcap hsettles (refusal_ne_waiting hrefusal)
      next hopen =>
        have hc₂ := not_not.mp hopen
        obtain hcut | ⟨hflag, hfollows⟩ := hsettles.outcome
        · exact absurd hc₂ hcut.2
        cases hrefusal : refusal w.cfg.handled p with
        | some v =>
          rw [hrefusal] at hfollows
          exact absurd (hc₂.symm.trans hfollows.1) (by rintro ⟨⟩)
        | none =>
          have hring : (w₂.obj o).recvRing = recvRing :=
            (congrArg Intake.recvRing hsettles.intake :)
          have hcfg₂ : w₂.cfg = w.cfg := hpath.evolves.cfg.trans hcfg₁
          obtain ⟨hreads, hreceived', hmore⟩ := ih (hpath.lifecycle h₁)
            (Nat.lt_of_lt_of_le ho₁ hpath.evolves.created) hc₂ (by
              rw [hring, hrest]
              exact Nat.lt_of_lt_of_le (nextFrame_rest_lt hnext) (Nat.le_of_lt_succ hfuel))
          rw [hring, hrest, hcap, hcfg₂] at hreads
          rw [parse_framed hnext hrefusal]
          exact ⟨.cons hcap hsettles.intake hflag hreads, hreceived'.trans hreceived, hmore⟩

end

/-- The whole loop: as the reference parser does on the bytes held and those that have
arrived. -/
theorem onReadableLoop_drains {fuel : Nat} (script : RecvScript) (h : Lifecycle w)
    (ho : o < w.created) (hc : (w.obj o).state = .connected)
    (hneed : nextFrame (w.obj o).recvRing.capacity w.cfg.maxPayloadLen
      (w.obj o).recvRing.contents = .needMore)
    (hfuel : script.queue.length + script.cuts.length < fuel) :
    (w.obj o).Drains ((onReadableLoop app o fuel script w).obj o) script.queue
      (parse (w.obj o).recvRing.capacity w.cfg.maxPayloadLen w.cfg.handled
        ((w.obj o).recvRing.contents ++ script.queue)) script.ending := by
  induction fuel generalizing w script with
  | zero => exact absurd hfuel (Nat.not_lt_zero _)
  | succ fuel ih =>
    have hend : ∀ reason err,
        ((beginClose app o reason err w).obj o).recvSide = (w.obj o).recvSide ∧
        ((beginClose app o reason err w).obj o).state = .closed ∧
        ((beginClose app o reason err w).obj o).closeReason = some reason := fun reason err =>
      ⟨((beginClose_reach_idle happ ho reason err h).evolves.obj o ho).recvSide (by rintro ⟨⟩),
        beginClose_closed happ h (h.live ho hc) reason err⟩
    rw [onReadableLoop]
    dsimp only
    split
    next hiov =>
      have hfull := (Ring.writeIov_freeSpace_eq_nil _).mp (List.length_eq_zero_iff.mp hiov)
      obtain ⟨hside, hclosed, -⟩ := hend "recv_overflow" 0
      have hcap : (w.obj o).recvRing.capacity < 4 := by
        refine Nat.lt_of_not_le fun hle => ?_
        have hlt := length_lt_of_needMore hle hneed
        rw [Ring.freeSpace_eq] at hfull
        exact Nat.ne_of_gt (Nat.sub_pos_of_lt hlt) hfull
      obtain ⟨hsame, hdispatched, -⟩ := Session.intake_same (congrArg Prod.fst hside :)
      exact ⟨hsame, hdispatched, .inr (.inl ⟨hcap, hclosed⟩)⟩
    next hiov =>
      have hfree : 0 < (w.obj o).recvRing.freeSpace := Nat.pos_of_ne_zero fun hfull =>
        hiov (List.length_eq_zero_iff.mpr ((Ring.writeIov_freeSpace_eq_nil _).mpr hfull))
      rw [Ring.offered_freeSpace]
      rcases recvmsg_cases script hfree with ⟨cuts, hcuts, hrecv⟩ |
        ⟨hempty, hrecv⟩ | ⟨n, cuts, hpos, hn, hqueue, hcuts, hrecv⟩
      · rw [hrecv]
        dsimp only
        refine ih { script with cuts } h ho hc hneed ?_
        rw [hcuts, List.length_cons] at hfuel
        exact Nat.lt_of_succ_lt_succ hfuel
      · rw [hrecv, hempty, List.append_nil, parse_needMore hneed]
        cases script.ending with
        | eagain => exact .ended rfl ⟨hc, rfl⟩
        | zero => exact .ended (hend "peer_close" 0).1 (hend "peer_close" 0).2
        | failed e => exact .ended (hend "recv_error" e).1 (hend "recv_error" e).2
      · rw [hrecv]
        dsimp only
        generalize hw₁ : w.modify o _ = w₁
        obtain ⟨h₁, ho₁, hcfg₁, hobj₁⟩ := h.note ho hw₁ rfl rfl rfl rfl
        have hcontents : (w₁.obj o).recvRing.contents =
            (w.obj o).recvRing.contents ++ script.queue.take n := by
          rw [hobj₁, Ring.contents_receive, Nat.min_self, List.take_take, Nat.min_eq_left hn]
        have hcap₁ : (w₁.obj o).recvRing.capacity = (w.obj o).recvRing.capacity := by
          rw [hobj₁, Ring.capacity_receive]
        obtain ⟨hreads, hreceived, hmore⟩ := processRecvFrames_reads happ h₁ ho₁
          (by rw [hobj₁]; exact hc) (by rw [← Ring.available_eq]; exact Nat.lt_succ_self _)
        have hpath := processRecvFrames_reach happ ((w₁.obj o).recvRing.available + 1) ho₁ h₁
        generalize processRecvFrames app o _ w₁ = out at hreads hreceived hmore hpath
        obtain ⟨w₂, more⟩ := out
        rw [hcontents, hcap₁, hcfg₁] at hreads
        have hread : (w.obj o).Reads (w₂.obj o) (parse (w.obj o).recvRing.capacity
            w.cfg.maxPayloadLen w.cfg.handled
            ((w.obj o).recvRing.contents ++ script.queue.take n)) := by
          rw [hobj₁] at hreads
          exact ⟨hreads.capacity.trans (Ring.capacity_receive ..), hreads.dispatched,
            hreads.outcome⟩
        have hsplit : (w.obj o).recvRing.contents ++ script.queue =
            ((w.obj o).recvRing.contents ++ script.queue.take n) ++ script.queue.drop n := by
          rw [List.append_assoc, List.take_append_drop]
        cases more with
        | false =>
          refine .stop hread (fun hc₂ => by cases hmore.mpr hc₂) fun hv => ?_
          rw [hsplit]
          exact parse_append_of_ne_waiting hv _
        | true =>
          have hc₂ := hmore.mp rfl
          have hafter := (hread.outcome.resolve_left fun hcut => hcut.2 hc₂).2.2
          generalize hres : parse _ _ _ _ = res at hread hafter
          obtain ⟨ps, v⟩ := res
          cases v with
          | waiting rest =>
            have hneed₂ := (parse_waiting (congrArg Prod.snd hres)).2
            have hcfg₂ : w₂.cfg = w.cfg := hpath.evolves.cfg.trans hcfg₁
            have hnext := ih ⟨script.queue.drop n, cuts, script.ending⟩
              (hpath.lifecycle h₁) (Nat.lt_of_lt_of_le ho₁ hpath.evolves.created) hc₂
            rw [hread.capacity, hcfg₂, hafter.2] at hnext
            have hreceived₂ : (w₂.obj o).received =
                (w.obj o).received ++ script.queue.take n := by
              rw [hreceived, hobj₁]
            have hturns : (script.queue.drop n).length + cuts.length < fuel := by
              rw [List.length_drop]
              omega
            have hdrains := Session.Drains.next hread hc₂ hreceived₂ (hnext hneed₂ hturns)
            rw [← parse_append_of_waiting hres, ← hsplit, List.take_append_drop] at hdrains
            exact hdrains
          | _ => exact absurd (hc₂.symm.trans hafter.1) (by rintro ⟨⟩)

theorem onReadable_drains (script : RecvScript) (h : Lifecycle w) (ho : o < w.created)
    (hc : (w.obj o).state = .connected)
    (hneed : nextFrame (w.obj o).recvRing.capacity w.cfg.maxPayloadLen
      (w.obj o).recvRing.contents = .needMore) :
    (w.obj o).Drains ((onReadable app o script w).obj o) script.queue
      (parse (w.obj o).recvRing.capacity w.cfg.maxPayloadLen w.cfg.handled
        ((w.obj o).recvRing.contents ++ script.queue)) script.ending := by
  rw [onReadable, if_neg (not_not_intro hc)]
  exact onReadableLoop_drains happ script h ho hc hneed (Nat.lt_succ_self _)

end Receiving

/-! ## The receive side over runs -/

/-- What a session has dispatched, and where it is in the stream it receives. -/
structure Session.Framing (cfg : Config) (s : Session) : Prop where
  capacity : s.recvRing.capacity = cfg.recvRingCapacity
  dispatched : s.dispatched = dispatches s.payloads
  connected : s.state = .connected → s.closedInDispatch = false ∧
    parse cfg.recvRingCapacity cfg.maxPayloadLen cfg.handled s.received =
      (s.payloads, .waiting s.recvRing.contents)

namespace Session.Framing

variable {cfg : Config} {s s' : Session}

theorem fresh {id : UInt64} {fd : Int} (h : s.Fresh cfg id fd) : s.Framing cfg := by
  obtain ⟨hreceived, hpayloads, hdispatched, hflag⟩ := h.receive
  refine ⟨h.recvRing.2, ?_, fun _ => ⟨hflag, ?_⟩⟩
  · rw [hdispatched, hpayloads]
    rfl
  · rw [hreceived, hpayloads, h.recvRing.1]
    exact parse_needMore rfl

theorem evolves (h : s.Framing cfg) {p : Prop} (hp : ¬ p) (hs : s.Evolves p s') :
    s'.Framing cfg := by
  have hside := hs.recvSide hp
  have hintake : s'.intake = s.intake := congrArg Prod.fst hside
  have hflag : s'.closedInDispatch = s.closedInDispatch := congrArg Prod.snd hside
  obtain ⟨hcap, hdispatched, hpayloads, hreceived⟩ := Session.intake_same hintake
  have hring : s'.recvRing = s.recvRing := (congrArg Intake.recvRing hintake :)
  refine ⟨hcap.trans h.capacity, hdispatched h.dispatched, fun hc => ?_⟩
  rw [hflag, hreceived, hpayloads, hring]
  exact h.connected (hs.state hc)

/-- Reading a readiness event to its end. -/
theorem drains (h : s.Framing cfg) (hc : s.state = .connected) {queue : List UInt8}
    {ending : RecvEnd} (hs : s.Drains s' queue (parse cfg.recvRingCapacity cfg.maxPayloadLen
      cfg.handled (s.recvRing.contents ++ queue)) ending) : s'.Framing cfg := by
  obtain ⟨hflag, hparse⟩ := h.connected hc
  refine ⟨hs.capacity.trans h.capacity, hs.dispatched h.dispatched, fun hc' => ?_⟩
  rcases hs.outcome with hcut | ⟨-, hclosed⟩ | ⟨hflag', hpayloads, hreached, hreceived⟩
  · exact absurd hc' hcut.2
  · exact nomatch hc'.symm.trans hclosed
  · refine ⟨hflag'.trans hflag, ?_⟩
    rw [hreceived hc', parse_append_of_waiting hparse, hpayloads, hreached.waiting hc']

/-- While connected, no frame is left in the ring. -/
theorem needMore (h : s.Framing cfg) (hc : s.state = .connected) :
    nextFrame s.recvRing.capacity cfg.maxPayloadLen s.recvRing.contents = .needMore := by
  rw [h.capacity]
  exact (parse_waiting (congrArg Prod.snd (h.connected hc).2)).2

end Session.Framing

section Runs

variable {w : World} {cfg : Config}

theorem framing_path (path : Path none w w') (hcfg : w.cfg = cfg)
    (hf : ∀ o < w.created, (w.obj o).Framing cfg) :
    ∀ o < w'.created, (w'.obj o).Framing cfg := by
  refine path.sessions (P := fun _ s => s.Framing cfg) ?_ ?_ hf
  · intro o id fd s _ hs
    rw [hcfg] at hs
    exact .fresh hs
  · intro o s s' hs h
    exact h.evolves nofun hs.evolves

theorem onReadable_framing {app : Callback → World → World}
    (happ : ∀ c w, Reach none w (app c w)) (script : RecvScript) (h : Lifecycle w)
    (hcfg : w.cfg = cfg) {o : Nat} (ho : o < w.created) (hc : (w.obj o).state = .connected)
    (hf : ∀ o < w.created, (w.obj o).Framing cfg) :
    ∀ o' < (onReadable app o script w).created,
      ((onReadable app o script w).obj o').Framing cfg := by
  have hdrains := onReadable_drains happ script h ho hc (by rw [hcfg]; exact (hf o ho).needMore hc)
  rw [hcfg, (hf o ho).capacity] at hdrains
  have hpath := onReadable_reach happ script ho h
  have hothers := hpath.sessions (P := fun o' s => o' ≠ o → s.Framing cfg)
    (fun o' id fd s _ hs _ => .fresh (hcfg ▸ hs))
    (fun o' s s' hs hP hne =>
      (hP hne).evolves (fun heq => hne (Option.some.inj heq).symm) hs.evolves)
    (fun o' ho' _ => hf o' ho')
  intro o' ho'
  by_cases heq : o' = o
  · rw [heq]
    exact (hf o ho).drains hc hdrains
  · exact hothers o' ho' heq

theorem framing_step (h : Lifecycle w) (hcfg : w.cfg = cfg)
    (hf : ∀ o < w.created, (w.obj o).Framing cfg) (t : Step) :
    ∀ o < (step w t).created, ((step w t).obj o).Framing cfg := by
  rcases step_cases h t with hpath | ⟨o, ev, script, ho, hl, -, -, heq⟩
  · exact framing_path hpath hcfg hf
  · have h' := h.quiet (quiet_answered w t)
    obtain ⟨v, hv, hafter⟩ := handleEvent_after t.app_reach ev.events script hl.state
    rw [heq]
    rcases hv with rfl | rfl
    · exact framing_path (hafter ho h') hcfg hf
    · have hpath := onReadable_reach (w := w.answered t) t.app_reach script ho h'
      exact framing_path
        (hafter (Nat.lt_of_lt_of_le ho hpath.evolves.created) (hpath.lifecycle h'))
        (hpath.evolves.cfg.trans hcfg)
        (onReadable_framing t.app_reach script h' hcfg ho hl.state hf)

/-- In every run the messages passed on are those the reference parser finds. -/
theorem framing_run (cfg : Config) {arrivals : Nat} (h : arrivals < 2 ^ 32) (steps : List Step) :
    ∀ o < (run cfg arrivals steps).created, ((run cfg arrivals steps).obj o).Framing cfg := by
  have hstep : ∀ w t, (Lifecycle w ∧ w.cfg = cfg ∧ ∀ o < w.created, (w.obj o).Framing cfg) →
      Lifecycle (step w t) ∧ (step w t).cfg = cfg ∧
        ∀ o < (step w t).created, ((step w t).obj o).Framing cfg := by
    rintro w t ⟨hw, hcfg, hf⟩
    obtain ⟨r, hpath⟩ := step_path hw t
    exact ⟨hpath.lifecycle hw, hpath.evolves.cfg.trans hcfg, framing_step hw hcfg hf t⟩
  exact (foldl_invariant hstep _ ⟨lifecycle_init cfg (lt_idSpace h), rfl, nofun⟩ steps).2.2

end Runs

/-- `onReadable_` of a connected session: for every way in which `recvmsg` cuts the bytes
that have arrived, the payloads passed on and the state the session is left in are
those of the reference parser on the whole stream received. -/
theorem onReadable_refines_parse (cfg : Config) {arrivals : Nat} (h : arrivals < 2 ^ 32)
    (hC : 4 ≤ cfg.recvRingCapacity) (steps : List Step) {o : Nat}
    (ho : o < (run cfg arrivals steps).created)
    (hc : ((run cfg arrivals steps).obj o).state = .connected) (queue : List UInt8)
    (ending : RecvEnd) (cuts : List Cut) (t : Step) :
    let s' := (onReadable t.app o ⟨queue, cuts, ending⟩
      ((run cfg arrivals steps).answered t)).obj o
    let res := parse cfg.recvRingCapacity cfg.maxPayloadLen cfg.handled
      (((run cfg arrivals steps).obj o).received ++ queue)
    s'.closedInDispatch = false →
      s'.payloads = res.1 ∧ s'.Reached res.2 ending ∧
        (s'.state = .closed → s'.closeReason ≠ some "recv_overflow") := by
  intro s' res hflag
  have hf := framing_run cfg h steps o ho
  obtain ⟨-, hparse⟩ := hf.connected hc
  have hcfg : ((run cfg arrivals steps).answered t).cfg = cfg := cfg_run cfg (lt_idSpace h) steps
  have hdrains := onReadable_drains (w := (run cfg arrivals steps).answered t) t.app_reach
    ⟨queue, cuts, ending⟩ ((lifecycle_run cfg (lt_idSpace h) steps).quiet (quiet_answered _ t))
    ho hc
    (by rw [hcfg]; exact hf.needMore hc)
  rw [hcfg, show (((run cfg arrivals steps).answered t).obj o).recvRing.capacity = _
    from hf.capacity] at hdrains
  have hres := parse_append_of_waiting hparse queue
  rcases hdrains.outcome with hcut | ⟨hcap, -⟩ | ⟨-, hpayloads, hreached, -⟩
  · exact nomatch hflag.symm.trans hcut.1
  · exact absurd hC (Nat.not_le_of_lt (hf.capacity ▸ hcap))
  · rw [show res = _ from hres]
    exact ⟨hpayloads, hreached, hreached.ne_overflow⟩

/-- A frame that comes in two pieces, and the peer's close behind it. -/
theorem onReadable_refines_parse_pieces :
    let t : Step := { input := .timer 0 }
    let s' := (onReadable t.app 0 ⟨[0, 0, 0, 3, 0, 7, 1], [.upTo 3, .eintr], .zero⟩
      ((run sampleConfig 1 [{ input := .accept 5 true }]).answered t)).obj 0
    let res := parse 8 8 sampleConfig.handled
      (((run sampleConfig 1 [{ input := .accept 5 true }]).obj 0).received ++
        [0, 0, 0, 3, 0, 7, 1])
    s'.dispatched = [⟨7, [1]⟩] ∧ s'.closeReason = some "peer_close" ∧
      s'.payloads = res.1 ∧ s'.Reached res.2 .zero ∧
        (s'.state = .closed → s'.closeReason ≠ some "recv_overflow") :=
  ⟨by decide, by decide, onReadable_refines_parse sampleConfig (show 1 < 2 ^ 32 by decide)
    (by decide) [{ input := .accept 5 true }] (o := 0) (by decide) (by decide)
    [0, 0, 0, 3, 0, 7, 1] .zero [.upTo 3, .eintr] { input := .timer 0 } (by decide)⟩

/-! ## End to end -/

/-- The packets whose frames are complete in the first `n` bytes of their stream. -/
def complete : Nat → List Packet → List Packet
  | _, [] => []
  | n, p :: ps => if p.frame.length ≤ n then p :: complete (n - p.frame.length) ps else []

theorem mem_of_mem_complete {n : Nat} {ps : List Packet} {p : Packet} (h : p ∈ complete n ps) :
    p ∈ ps := by
  induction ps generalizing n with
  | nil => exact h
  | cons q ps ih =>
    rw [complete] at h
    split at h
    · rcases List.mem_cons.mp h with rfl | h
      · exact List.mem_cons_self ..
      · exact List.mem_cons_of_mem q (ih h)
    · cases h

/-- The engine answers these packets itself. -/
def Packet.builtin (p : Packet) : Bool :=
  decide (p.opcode = kOpcodePing ∨ p.opcode = kOpcodePong)

/-- The limits a packet has to keep to get through. -/
def Packet.Fits (cfg : Config) (p : Packet) : Prop :=
  2 + p.body.length ≤ cfg.maxPayloadLen.toNat ∧ 6 + p.body.length ≤ cfg.recvRingCapacity

instance (cfg : Config) (p : Packet) : Decidable (p.Fits cfg) :=
  inferInstanceAs (Decidable (_ ∧ _))

theorem dispatches_payload (p : Packet) :
    dispatches [payload p.opcode p.body] = [p].filter (!·.builtin) := by
  have hsplit := splitOpcodeU16Be_payload p.opcode p.body
  by_cases hb : p.opcode = kOpcodePing ∨ p.opcode = kOpcodePong
  · rw [dispatches_of_builtin hsplit hb, List.filter_cons_of_neg (by simp [Packet.builtin, hb])]
    rfl
  · rw [dispatches_of_split hsplit hb, List.filter_cons_of_pos (by simp [Packet.builtin, hb])]
    rfl

/-- A receiver that still waits behind a prefix of a stream of packets has dispatched
those that were complete. -/
theorem dispatches_parse {cfg : Config} {ps : List Packet} (hfits : ∀ p ∈ ps, p.Fits cfg)
    {c rest : List UInt8} {qs : List (List UInt8)} (hc : c <+: frames ps)
    (hparse : parse cfg.recvRingCapacity cfg.maxPayloadLen cfg.handled c = (qs, .waiting rest)) :
    dispatches qs = (complete c.length ps).filter (!·.builtin) := by
  induction ps generalizing c qs with
  | nil =>
    obtain rfl := List.prefix_nil.mp hc
    rw [parse_needMore rfl] at hparse
    cases hparse
    rfl
  | cons p ps ih =>
    obtain ⟨hM, hC⟩ := hfits p (List.mem_cons_self ..)
    have hpM : (payload p.opcode p.body).length ≤ cfg.maxPayloadLen.toNat := by
      rw [length_payload]
      exact hM
    have hpC : 4 + (payload p.opcode p.body).length ≤ cfg.recvRingCapacity := by
      rw [length_payload, ← Nat.add_assoc]
      exact hC
    have hframe : p.frame = framed (payload p.opcode p.body) := (framed_payload ..).symm
    have hc : c <+: p.frame ++ frames ps := hc
    rw [complete]
    split
    next hle =>
      obtain ⟨c, rfl⟩ := List.prefix_of_prefix_length_le (List.prefix_append _ _) hc hle
      have hc' := (List.prefix_append_right_inj _).mp hc
      have hnext := nextFrame_framed_append hpM hpC c
      rw [← hframe] at hnext
      rw [List.length_append, Nat.add_sub_cancel_left]
      cases hrefusal : refusal cfg.handled (payload p.opcode p.body) with
      | some v =>
        rw [parse_refused hnext hrefusal] at hparse
        exact absurd (congrArg Prod.snd hparse) (refusal_ne_waiting hrefusal rest)
      | none =>
        rw [parse_framed hnext hrefusal] at hparse
        obtain ⟨rfl, hwaiting⟩ := Prod.mk.inj hparse
        calc dispatches (payload p.opcode p.body :: (parse _ _ _ c).1)
            = dispatches [payload p.opcode p.body] ++ dispatches (parse _ _ _ c).1 :=
              dispatches_append [_] _
          _ = [p].filter (!·.builtin) ++ (complete c.length ps).filter (!·.builtin) := by
              rw [dispatches_payload, ih (fun q hq => hfits q (List.mem_cons_of_mem p hq)) hc'
                (Prod.ext rfl hwaiting)]
          _ = (p :: complete c.length ps).filter (!·.builtin) := (List.filter_append [p] _).symm
    next hlt =>
      have hpart := List.prefix_of_prefix_length_le hc (List.prefix_append _ _)
        (Nat.le_of_not_le hlt)
      rw [hframe] at hpart hlt
      rw [parse_needMore (nextFrame_incomplete hpM hpC hpart (Nat.lt_of_not_le hlt))] at hparse
      cases hparse
      rfl

/-- Two sessions joined by an ordered byte stream: what the receiver has got is a prefix
of what the sender's kernel has taken.  Then the receiver has dispatched exactly the
packets accepted at the sender whose frames are complete in the bytes received. -/
theorem dispatched_eq_complete (cfgS cfgR : Config) {arrivalsS arrivalsR : Nat}
    (hS : arrivalsS < 2 ^ 32) (hR : arrivalsR < 2 ^ 32) (stepsS stepsR : List Step) {oS oR : Nat}
    (hoS : oS < (run cfgS arrivalsS stepsS).created)
    (hoR : oR < (run cfgR arrivalsR stepsR).created)
    (hcS : ((run cfgS arrivalsS stepsS).obj oS).state = .connected)
    (hcR : ((run cfgR arrivalsR stepsR).obj oR).state = .connected)
    (hjoin : ((run cfgR arrivalsR stepsR).obj oR).received <+:
      ((run cfgS arrivalsS stepsS).obj oS).sent)
    (hpackets : ∀ p ∈ ((run cfgS arrivalsS stepsS).obj oS).accepted,
      p.builtin = false ∧ p.Fits cfgR) :
    ((run cfgR arrivalsR stepsR).obj oR).dispatched =
      complete ((run cfgR arrivalsR stepsR).obj oR).received.length
        ((run cfgS arrivalsS stepsS).obj oS).accepted := by
  have hsent := (streams_run cfgS hS stepsS oS hoS).connected hcS
  have hframing := framing_run cfgR hR stepsR oR hoR
  have hstream : ((run cfgR arrivalsR stepsR).obj oR).received <+:
      frames ((run cfgS arrivalsS stepsS).obj oS).accepted := by
    rw [← hsent.2]
    exact hjoin.trans (List.prefix_append _ _)
  rw [hframing.dispatched, dispatches_parse (fun p hp => (hpackets p hp).2) hstream
    (hframing.connected hcR).2, List.filter_eq_self]
  intro p hp
  rw [(hpackets p (mem_of_mem_complete hp)).1]
  rfl

/-- The sender flushes the rest of its packet. -/
def sampleFlush : List Step :=
  sampleSend ++ [{ input := .ready ⟨5, Event.write⟩ ⟨[], [], .eagain⟩, writes := [.taken 100] }]

/-- The receiver gets the bytes of a packet in two pieces. -/
def sampleReceive : List Step :=
  [{ input := .accept 6 true },
   { input := .ready ⟨6, Event.read⟩ ⟨[0, 0, 0, 3, 0, 7, 1], [.upTo 3], .eagain⟩ }]

theorem dispatched_eq_complete_one :
    ((run sampleConfig 1 sampleReceive).obj 0).dispatched = [⟨7, [1]⟩] ∧
    ((run sampleConfig 1 sampleReceive).obj 0).dispatched =
      complete ((run sampleConfig 1 sampleReceive).obj 0).received.length
        ((run sampleConfig 1 sampleFlush).obj 0).accepted :=
  ⟨by decide, dispatched_eq_complete sampleConfig sampleConfig (by decide) (by decide)
    sampleFlush sampleReceive (by decide) (by decide) (by decide) (by decide) (by decide)
    (by decide)⟩

end HyperNet.Net
