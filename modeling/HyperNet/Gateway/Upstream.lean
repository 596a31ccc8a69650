import HyperNet.Gateway.Model
import HyperNet.Net.Identity

/-!
# The upstream slot

A worker's slot names a session of the worker that is there, or none: the session manager
and the registry hold the same ids between the events, and whatever ends a session clears
the slot if it names it.

Who is in the slot is less certain.  A session that claims the exchange's role is refused
when the slot is taken, but the dial that completes does not ask: it takes the slot from a
session that has been acknowledged as the exchange.
-/

namespace HyperNet.Fep

open App (SessionId SessionHandle ConnState Registry ownerOf)

namespace Worker

variable {w : Worker} {sid : SessionId}

/-! ## Sessions that come and go -/

/-- A session is put under its id unless there is one. -/
theorem lookup_keep {sessions : AList fun _ : SessionId => Conn} {x : SessionId} {conn : Conn} :
    (if x ∈ sessions then sessions else sessions.insert x conn).lookup sid =
      if sid = x ∧ x ∉ sessions then some conn else sessions.lookup sid := by
  by_cases hx : x ∈ sessions
  · simp [hx]
  · by_cases hsid : sid = x
    · subst hsid
      simp [hx]
    · simp [hx, hsid]

theorem mem_keep {sessions : AList fun _ : SessionId => Conn} {x : SessionId} {conn : Conn} :
    sid ∈ (if x ∈ sessions then sessions else sessions.insert x conn) ↔
      sid = x ∨ sid ∈ sessions := by
  split
  case isTrue h => exact ⟨.inr, fun h' => h'.elim (fun heq => heq ▸ h) id⟩
  case isFalse => exact AList.mem_insert _

section

variable (w)

/-- After the end of a session the slot names another one or none. -/
theorem slot_onSessionEnd (sid : SessionId) :
    (w.onSessionEnd sid).slot = if w.slot = sid then 0 else w.slot := by
  rw [Worker.onSessionEnd]
  by_cases hs : w.slot = sid
  · subst hs
    by_cases h0 : w.slot = 0
    · simp [h0]
    · simp [h0, setForWorker]
  · simp [hs, Ne.symm hs]

@[simp] theorem sessions_onSessionEnd (sid : SessionId) :
    (w.onSessionEnd sid).sessions = w.sessions := by
  rw [Worker.onSessionEnd]
  split <;> split <;> rfl

@[simp] theorem reg_onSessionEnd (sid : SessionId) :
    (w.onSessionEnd sid).reg = w.reg.remove sid := by
  rw [Worker.onSessionEnd]
  split <;> split <;> rfl

@[simp] theorem tasks_onSessionEnd (sid : SessionId) : (w.onSessionEnd sid).tasks = w.tasks := by
  rw [Worker.onSessionEnd]
  split <;> split <;> rfl

@[simp] theorem ended_onSessionEnd (sid : SessionId) : (w.onSessionEnd sid).ended = w.ended := by
  rw [Worker.onSessionEnd]
  split <;> split <;> rfl

@[simp] theorem log_onSessionEnd (sid : SessionId) : (w.onSessionEnd sid).log = w.log := by
  rw [Worker.onSessionEnd]
  split <;> split <;> rfl

@[simp] theorem accepts_onSessionEnd (sid : SessionId) :
    (w.onSessionEnd sid).accepts = w.accepts := by
  rw [Worker.onSessionEnd]
  split <;> split <;> rfl

/-- A closed session is no longer there. -/
theorem lookup_beginClose (x sid : SessionId) :
    (w.beginClose x).sessions.lookup sid = if sid = x then none else w.sessions.lookup sid := by
  rw [Worker.beginClose]
  split
  case h_1 hnone =>
    split
    case isTrue heq => rw [heq, hnone]
    case isFalse => rfl
  case h_2 =>
    rw [sessions_onSessionEnd]
    split
    case isTrue heq => rw [heq]; exact AList.lookup_erase _ _
    case isFalse hne => exact AList.lookup_erase_ne hne

theorem mem_beginClose (x sid : SessionId) :
    sid ∈ (w.beginClose x).sessions ↔ sid ≠ x ∧ sid ∈ w.sessions := by
  rw [← AList.lookup_isSome, lookup_beginClose, ← AList.lookup_isSome]
  split
  case isTrue heq => simp [heq]
  case isFalse hne => simp [hne]

theorem slot_beginClose (x : SessionId) :
    (w.beginClose x).slot = if w.slot = x ∧ x ∈ w.sessions then 0 else w.slot := by
  rw [Worker.beginClose]
  split
  case h_1 hnone =>
    rw [if_neg fun h => AList.lookup_eq_none.1 hnone h.2]
  case h_2 conn hconn =>
    have hx : x ∈ w.sessions := AList.lookup_isSome.1 (Option.isSome_of_eq_some hconn)
    simp only [slot_onSessionEnd, hx, and_true]

@[simp] theorem tasks_beginClose (x : SessionId) : (w.beginClose x).tasks = w.tasks := by
  rw [Worker.beginClose]
  split
  · rfl
  · rw [tasks_onSessionEnd]

@[simp] theorem log_beginClose (x : SessionId) : (w.beginClose x).log = w.log := by
  rw [Worker.beginClose]
  split
  · rfl
  · rw [log_onSessionEnd]

@[simp] theorem accepts_beginClose (x : SessionId) : (w.beginClose x).accepts = w.accepts := by
  rw [Worker.beginClose]
  split
  · rfl
  · rw [accepts_onSessionEnd]

@[simp] theorem accepts_onAccepted (wid : Nat) (dialed created : Bool) :
    (w.onAccepted wid dialed created).1.accepts = w.accepts + 1 := by
  rw [Worker.onAccepted]
  split <;> rfl

@[simp] theorem tasks_onAccepted (wid : Nat) (dialed created : Bool) :
    (w.onAccepted wid dialed created).1.tasks = w.tasks := by
  rw [Worker.onAccepted]
  split <;> rfl

@[simp] theorem log_onAccepted (wid : Nat) (dialed created : Bool) :
    (w.onAccepted wid dialed created).1.log = w.log := by
  rw [Worker.onAccepted]
  split <;> rfl

@[simp] theorem tasks_finishDialOk (wid : Nat) (created : Bool) :
    (w.finishDialOk wid created).tasks = w.tasks := by
  rw [← tasks_onAccepted w wid true created, Worker.finishDialOk]
  dsimp only
  split <;> rfl

@[simp] theorem log_finishDialOk (wid : Nat) (created : Bool) :
    (w.finishDialOk wid created).log = w.log := by
  rw [← log_onAccepted w wid true created, Worker.finishDialOk]
  dsimp only
  split <;> rfl

theorem lookup_write (x : SessionId) (conn : Conn) (packet : Packet) (sid : SessionId) :
    (w.write x conn packet).sessions.lookup sid =
      if sid = x then some { conn with wire := conn.wire ++ [packet] }
      else w.sessions.lookup sid := by
  split
  case isTrue heq => rw [heq]; exact AList.lookup_insert _
  case isFalse hne => exact AList.lookup_insert_ne hne

end

/-- Writing to a session that is there brings none in. -/
theorem mem_write {x : SessionId} {conn : Conn} (hconn : w.sessions.lookup x = some conn)
    (packet : Packet) : sid ∈ (w.write x conn packet).sessions ↔ sid ∈ w.sessions := by
  rw [← AList.lookup_isSome, lookup_write, ← AList.lookup_isSome]
  split
  case isTrue heq => rw [heq, hconn]; rfl
  case isFalse => rfl

/-! ## The slot does not dangle -/

/-- The manager and the registry hold the same sessions, and the slot one of them. -/
structure Coherent (w : Worker) : Prop where
  consistent : w.reg.Consistent
  stored : ∀ sid, (w.reg.find sid).isSome ↔ sid ∈ w.sessions
  slot : w.slot = 0 ∨ w.slot ∈ w.sessions

theorem coherent_init : Coherent {} where
  consistent := Registry.consistent_empty
  stored _ := by
    constructor
    · intro h
      cases h
    · intro h
      cases h
  slot := .inl rfl

section

variable (h : w.Coherent)
include h

theorem Coherent.post (task : Task) : (w.post task).Coherent :=
  ⟨h.consistent, h.stored, h.slot⟩

theorem Coherent.pop (rest : List Task) : Worker.Coherent { w with tasks := rest } :=
  ⟨h.consistent, h.stored, h.slot⟩

theorem Coherent.receive (sid : SessionId) (packet : Packet) : (w.receive sid packet).Coherent :=
  ⟨h.consistent, h.stored, h.slot⟩

theorem Coherent.setForWorker (hsid : sid = 0 ∨ sid ∈ w.sessions) : (w.setForWorker sid).Coherent :=
  ⟨h.consistent, h.stored, hsid⟩

theorem Coherent.setState (sid : SessionId) (st : ConnState) :
    (w.setState sid st).Coherent where
  consistent := h.consistent.modifyContext sid fun ctx => { ctx with state := st }
  stored other := by
    have hsame := congrArg Option.isSome
      (Registry.find_modifyContext w.reg sid (fun ctx => { ctx with state := st }) other)
    rw [Option.isSome_map, Option.isSome_map] at hsame
    exact (Bool.eq_iff_iff.1 hsame).trans (h.stored other)
  slot := h.slot

theorem Coherent.onAccepted (wid : Nat) (dialed created : Bool) :
    (w.onAccepted wid dialed created).1.Coherent := by
  rw [Worker.onAccepted]
  split
  case isFalse => exact ⟨h.consistent, h.stored, h.slot⟩
  case isTrue =>
    constructor
    case consistent =>
      dsimp only
      exact h.consistent.add _
    case stored =>
      intro other
      dsimp only
      rw [Registry.find_add, mem_keep, ← h.stored]
      split
      case isTrue heq => exact ⟨fun _ => .inl heq, fun _ => rfl⟩
      case isFalse hne => exact ⟨.inr, fun h' => h'.resolve_left hne⟩
    case slot => exact h.slot.imp id fun hslot => mem_keep.2 (.inr hslot)

end

/-- The id of an accepted session is there, unless it is the invalid one. -/
theorem onAccepted_mem (w : Worker) (wid : Nat) (dialed created : Bool) :
    (w.onAccepted wid dialed created).2 = 0 ∨
      (w.onAccepted wid dialed created).2 ∈ (w.onAccepted wid dialed created).1.sessions := by
  rw [Worker.onAccepted]
  split
  case isFalse => exact .inl rfl
  case isTrue => exact .inr (mem_keep.2 (.inl rfl))

section

variable (h : w.Coherent)
include h

theorem Coherent.finishDialOk (wid : Nat) (created : Bool) :
    (w.finishDialOk wid created).Coherent := by
  have haccepted := h.onAccepted wid true created
  rw [Worker.finishDialOk]
  dsimp only
  split
  · exact haccepted
  · exact haccepted.setForWorker (onAccepted_mem w wid true created)

theorem Coherent.beginClose (sid : SessionId) : (w.beginClose sid).Coherent := by
  constructor
  case consistent =>
    rw [Worker.beginClose]
    split
    · exact h.consistent
    · rw [reg_onSessionEnd]
      exact h.consistent.remove
  case stored =>
    intro other
    rw [mem_beginClose, ← h.stored, Worker.beginClose]
    split
    case h_1 hnone =>
      refine ⟨fun hsome => ⟨?_, hsome⟩, And.right⟩
      rintro rfl
      exact AList.lookup_eq_none.1 hnone ((h.stored other).1 hsome)
    case h_2 =>
      rw [reg_onSessionEnd, Registry.find_remove]
      split
      case isTrue heq => simp [heq]
      case isFalse hne => simp [hne]
  case slot =>
    rw [slot_beginClose, mem_beginClose]
    split
    case isTrue => exact .inl rfl
    case isFalse hnot =>
      refine h.slot.imp id fun hmem => ⟨?_, hmem⟩
      rintro rfl
      exact hnot ⟨rfl, hmem⟩

theorem Coherent.write {conn : Conn} (hconn : w.sessions.lookup sid = some conn) (packet : Packet) :
    (w.write sid conn packet).Coherent :=
  ⟨h.consistent, fun other => (h.stored other).trans (mem_write hconn packet).symm,
    h.slot.imp id (mem_write hconn packet).2⟩

/-- The registry has a handle for the sessions of the manager, but for the id 0. -/
theorem Coherent.tryGetHandle (sid : SessionId) :
    w.reg.tryGetHandle sid = none ∧ (sid = 0 ∨ sid ∉ w.sessions) ∨
      ∃ handle, w.reg.tryGetHandle sid = some handle ∧ handle.id = sid ∧ sid ≠ 0 := by
  rw [Registry.tryGetHandle]
  split
  case h_1 hnone =>
    refine .inl ⟨rfl, .inr ?_⟩
    rw [← h.stored, hnone]
    exact Bool.false_ne_true
  case h_2 rec hrec =>
    have hid := h.consistent.handle_id sid rec hrec
    have hvalid : rec.handle.isValid = true ↔ sid ≠ 0 := by
      rw [SessionHandle.isValid, hid, bne_iff_ne]
    split
    case isTrue hv => exact .inr ⟨_, rfl, hid, hvalid.1 hv⟩
    case isFalse hv => exact .inl ⟨rfl, .inl (not_not.1 fun hzero => hv (hvalid.2 hzero))⟩

/-- Sending writes to the session, if it is there, and may close it. -/
theorem Coherent.sendToLocal_rule {P : Worker → Prop} (hnone : sid = 0 ∨ sid ∉ w.sessions → P w)
    {packet : Packet} (fails : Bool)
    (hwrite : ∀ conn, sid ≠ 0 → w.sessions.lookup sid = some conn → P (w.write sid conn packet))
    (hclose : ∀ s, P s → P (s.beginClose sid)) : P (w.sendToLocal sid packet fails) := by
  rw [Worker.sendToLocal]
  rcases h.tryGetHandle sid with ⟨heq, hsid⟩ | ⟨handle, heq, rfl, hzero⟩
  · rw [heq]
    exact hnone hsid
  · rw [heq]
    dsimp only
    rw [Worker.sendPacketU16]
    split
    case h_1 hconn => exact hnone (.inr (AList.lookup_eq_none.1 hconn))
    case h_2 conn hconn =>
      dsimp only
      split
      · exact hclose _ (hwrite conn hzero hconn)
      · exact hwrite conn hzero hconn

theorem Coherent.sendToLocal (sid : SessionId) (packet : Packet) (fails : Bool) :
    (w.sendToLocal sid packet fails).Coherent :=
  h.sendToLocal_rule (fun _ => h) fails (fun _ _ hconn => h.write hconn packet)
    fun _ hs => hs.beginClose sid

end

end Worker

variable {n : Nat}

theorem keeps_coherent (handoff : Bool) (g : State n) (e : Event n) :
    Keeps handoff g e fun _ w => w.Coherent where
  accepted w created _ h := h.onAccepted w false created
  dialed w created _ h := h.finishDialOk w created
  closed _ _ sid h := h.beginClose sid
  claimed _ _ _ hsid _ h := h.setForWorker (.inr hsid)
  acknowledged _ _ sid _ fails _ _ _ h := (h.setState sid .Handshaked).sendToLocal sid _ fails
  misdirected _ _ sid _ _ h := h.setState sid .Handshaked
  postedAck _ _ _ _ _ _ _ _ h := h.post _
  receivedPing _ sid _ _ _ _ _ _ h := h.receive sid _
  receivedPong _ sid _ _ _ _ _ h := h.receive sid _
  forwarded _ _ _ _ _ fails _ _ _ _ h := h.sendToLocal _ _ fails
  answered _ _ sid _ fails _ h := h.sendToLocal sid _ fails
  postedPing _ _ _ _ _ h := h.post _
  postedPong _ _ _ _ _ h := h.post _
  postedClose _ _ _ h := h.post _
  popped _ _ _ rest _ h := h.pop rest
  delivered _ fails sid packet _ _ _ _ h := h.sendToLocal sid packet fails

theorem coherent_run (handoff : Bool) (es : List (Event n)) :
    (State.run handoff es).All fun _ w => w.Coherent :=
  Reentrant.foldl_invariant (I := fun g : State n => g.All fun _ w => w.Coherent)
    (fun g e h => (keeps_coherent handoff g e).step h) _ (fun _ => Worker.coherent_init) es

/-- After any events the slot of a worker is empty or names a session that the worker's
manager and its registry have. -/
theorem slot_never_dangles (handoff : Bool) (es : List (Event n)) (w : Fin n) :
    let s := State.run handoff es w
    s.slot = 0 ∨ s.slot ∈ s.sessions ∧ (s.reg.find s.slot).isSome := by
  have h := coherent_run handoff es w
  exact h.slot.imp id fun hmem => ⟨hmem, (h.stored _).2 hmem⟩

/-! ## One exchange peer -/

/-- The session has been acknowledged as the exchange. -/
def Conn.AckedAsExchange (conn : Conn) : Prop := .roleHelloAck .Ok .Exchange ∈ conn.wire

instance (conn : Conn) : Decidable conn.AckedAsExchange := inferInstanceAs (Decidable (_ ∈ _))

/-- At most one session is acknowledged as the exchange, and it is in the slot. -/
def Worker.PeerInSlot (w : Worker) : Prop :=
  (∀ sid conn, w.sessions.lookup sid = some conn → conn.AckedAsExchange → w.slot = sid) ∧
  ∀ sid conn sid' conn', w.sessions.lookup sid = some conn → conn.AckedAsExchange →
    w.sessions.lookup sid' = some conn' → conn'.AckedAsExchange → sid = sid'

/-- The sessions are the worker's own by their ids, and the one acknowledged as the exchange
is in the slot. -/
structure Worker.OnePeer (v : Fin n) (w : Worker) : Prop where
  coherent : w.Coherent
  issued : ∀ sid ∈ w.sessions, ∃ c < w.accepts, c + 1 < Net.idSpace (UInt32.ofNat v) ∧
    sid = Net.sessionId (UInt32.ofNat v) (c + 1)
  tasks : ∀ sid result role, .sendTo sid (.roleHelloAck result role) ∉ w.tasks
  exchange : ∀ sid conn, w.sessions.lookup sid = some conn → conn.AckedAsExchange → w.slot = sid

/-- The next session of the worker gets an id that names it. -/
def Worker.InBounds (v : Fin n) (w : Worker) : Prop :=
  w.accepts + 1 < Net.idSpace (UInt32.ofNat v)

instance (v : Fin n) (w : Worker) : Decidable (w.InBounds v) := inferInstanceAs (Decidable (_ < _))

/-- New sessions are within the bound on ids. -/
def Event.InBounds (g : State n) : Event n → Prop
  | .accept w _ | .dialOk w _ => (g w).InBounds w
  | _ => True

/-- A dial gets its session while no session in the slot is acknowledged as the exchange. -/
def Event.Undisputed (g : State n) : Event n → Prop
  | .dialOk w true =>
      ∀ conn, (g w).sessions.lookup (g w).slot = some conn → ¬ conn.AckedAsExchange
  | _ => True

namespace Worker

variable {w : Worker} {v : Fin n} {sid : SessionId}

theorem OnePeer.peerInSlot (h : w.OnePeer v) : w.PeerInSlot := by
  refine ⟨h.exchange, fun sid conn sid' conn' hconn hacked hconn' hacked' => ?_⟩
  exact (h.exchange sid conn hconn hacked).symm.trans (h.exchange sid' conn' hconn' hacked')

theorem owner_of_lt {c : Nat} (hc : c + 1 < Net.idSpace (UInt32.ofNat v)) (hn : n ≤ 2 ^ 31) :
    Net.sessionId (UInt32.ofNat v) (c + 1) ≠ 0 ∧
      ownerOf n (Net.sessionId (UInt32.ofNat v) (c + 1)) = some v := by
  have hv : (v : Nat) < 2 ^ 31 := Nat.lt_of_lt_of_le v.isLt hn
  have hnat : (UInt32.ofNat v).toNat = v := UInt32.toNat_ofNat_of_lt (hv.trans (by decide))
  obtain ⟨hzero, howner⟩ := Net.sessionId_owner (by rw [hnat]; exact hv) (Nat.succ_pos c) hc
  refine ⟨hzero, App.workerOf_eq_some.2 ?_⟩
  rw [howner, hnat]

section

variable (h : w.OnePeer v)
include h

theorem OnePeer.owned (hn : n ≤ 2 ^ 31) (hsid : sid ∈ w.sessions) :
    sid ≠ 0 ∧ ownerOf n sid = some v := by
  obtain ⟨c, -, hc, rfl⟩ := h.issued sid hsid
  exact owner_of_lt hc hn

/-- Within the bound no id comes twice. -/
theorem OnePeer.not_mem (hb : w.InBounds v) :
    Net.sessionId (UInt32.ofNat v) (w.accepts + 1) ∉ w.sessions := by
  intro hmem
  obtain ⟨c, hlt, hc, heq⟩ := h.issued _ hmem
  have hsame := Net.sessionId_inj (Net.le_of_lt_idSpace hb) (Net.le_of_lt_idSpace hc)
    (Nat.succ_pos _) (Nat.succ_pos c) heq
  omega

theorem OnePeer.beginClose (x : SessionId) : (w.beginClose x).OnePeer v where
  coherent := h.coherent.beginClose x
  issued sid hsid := by
    rw [accepts_beginClose]
    exact h.issued sid ((mem_beginClose w x sid).1 hsid).2
  tasks := by
    rw [tasks_beginClose]
    exact h.tasks
  exchange sid conn hconn hacked := by
    rw [lookup_beginClose] at hconn
    split at hconn
    case isTrue => cases hconn
    case isFalse hne =>
      have hslot := h.exchange sid conn hconn hacked
      rw [slot_beginClose, if_neg fun hx => hne (hslot.symm.trans hx.1), hslot]

theorem OnePeer.setState (sid : SessionId) (st : ConnState) : (w.setState sid st).OnePeer v :=
  ⟨h.coherent.setState sid st, h.issued, h.tasks, h.exchange⟩

theorem OnePeer.post {task : Task}
    (htask : ∀ sid result role, task ≠ .sendTo sid (.roleHelloAck result role)) :
    (w.post task).OnePeer v where
  coherent := h.coherent.post task
  issued := h.issued
  tasks sid result role hmem := by
    rcases List.mem_append.1 hmem with hmem | hmem
    · exact h.tasks sid result role hmem
    · exact htask sid result role (List.mem_singleton.1 hmem).symm
  exchange := h.exchange

theorem OnePeer.receive (sid : SessionId) (packet : Packet) : (w.receive sid packet).OnePeer v :=
  ⟨h.coherent.receive sid packet, h.issued, h.tasks, h.exchange⟩

theorem OnePeer.write {conn : Conn} (hconn : w.sessions.lookup sid = some conn) {packet : Packet}
    (hpacket : packet = .roleHelloAck .Ok .Exchange → w.slot = sid) :
    (w.write sid conn packet).OnePeer v where
  coherent := h.coherent.write hconn packet
  issued other hother := h.issued other ((mem_write hconn packet).1 hother)
  tasks := h.tasks
  exchange other conn' hconn' hacked := by
    rw [lookup_write] at hconn'
    split at hconn'
    case isFalse => exact h.exchange other conn' hconn' hacked
    case isTrue heq =>
      subst heq
      rw [← Option.some.inj hconn'] at hacked
      rcases List.mem_append.1 hacked with hacked | hacked
      · exact h.exchange other conn hconn hacked
      · exact hpacket (List.mem_singleton.1 hacked).symm

theorem OnePeer.sendToLocal {packet : Packet} (fails : Bool)
    (hpacket : packet = .roleHelloAck .Ok .Exchange → w.slot = sid) :
    (w.sendToLocal sid packet fails).OnePeer v :=
  h.coherent.sendToLocal_rule (fun _ => h) fails (fun _ _ hconn => h.write hconn hpacket)
    fun _ hs => hs.beginClose sid

end

theorem lookup_onAccepted {wid : Nat} {dialed created : Bool} {conn : Conn}
    (h : (w.onAccepted wid dialed created).1.sessions.lookup sid = some conn) :
    w.sessions.lookup sid = some conn ∨ conn = ⟨dialed, []⟩ := by
  rw [Worker.onAccepted] at h
  split at h
  case isFalse => exact .inl h
  case isTrue =>
    rw [lookup_keep] at h
    split at h
    · exact .inr (Option.some.inj h).symm
    · exact .inl h

theorem OnePeer.onAccepted (h : w.OnePeer v) (hb : w.InBounds v) (dialed created : Bool) :
    (w.onAccepted v dialed created).1.OnePeer v where
  coherent := h.coherent.onAccepted v dialed created
  issued sid hsid := by
    rw [accepts_onAccepted]
    have hsid : sid = Net.sessionId (UInt32.ofNat v) (w.accepts + 1) ∨ sid ∈ w.sessions := by
      rw [Worker.onAccepted] at hsid
      split at hsid
      case isFalse => exact .inr hsid
      case isTrue => exact mem_keep.1 hsid
    rcases hsid with rfl | hsid
    · exact ⟨w.accepts, Nat.lt_succ_self _, hb, rfl⟩
    · exact (h.issued sid hsid).imp fun c hc => ⟨Nat.lt_succ_of_lt hc.1, hc.2⟩
  tasks := by
    rw [tasks_onAccepted]
    exact h.tasks
  exchange sid conn hconn hacked := by
    have hslot : (w.onAccepted v dialed created).1.slot = w.slot := by
      rw [Worker.onAccepted]
      split <;> rfl
    rcases lookup_onAccepted hconn with hconn | rfl
    · rw [hslot]
      exact h.exchange sid conn hconn hacked
    · cases hacked

/-- With no session acknowledged as the exchange the slot may be given to any. -/
theorem OnePeer.setForWorker (h : w.OnePeer v) (hsid : sid = 0 ∨ sid ∈ w.sessions)
    (hnone : ∀ x conn, w.sessions.lookup x = some conn → ¬ conn.AckedAsExchange) :
    (w.setForWorker sid).OnePeer v where
  __ := h
  coherent := h.coherent.setForWorker hsid
  exchange x conn hconn hacked := absurd hacked (hnone x conn hconn)

theorem OnePeer.finishDialOk (h : w.OnePeer v) (hb : w.InBounds v)
    (hslot : ∀ conn, w.sessions.lookup w.slot = some conn → ¬ conn.AckedAsExchange)
    (created : Bool) : (w.finishDialOk v created).OnePeer v := by
  have haccepted := h.onAccepted hb true created
  rw [Worker.finishDialOk]
  dsimp only
  split
  · exact haccepted
  · refine haccepted.setForWorker (onAccepted_mem w v true created) fun x conn hconn hacked => ?_
    rcases lookup_onAccepted hconn with hconn | rfl
    · exact hslot conn (h.exchange x conn hconn hacked ▸ hconn) hacked
    · cases hacked

/-- The dial takes the slot from the session that is in it. -/
theorem OnePeer.undisputed (h : w.OnePeer v) (hn : n ≤ 2 ^ 31) (hb : w.InBounds v)
    (hpeer : (w.finishDialOk v true).PeerInSlot) {conn : Conn}
    (hconn : w.sessions.lookup w.slot = some conn) : ¬ conn.AckedAsExchange := by
  intro hacked
  have hin : Net.sessionId (UInt32.ofNat v) (w.accepts + 1) ∈
      (w.onAccepted v true true).1.sessions := mem_keep.2 (.inl rfl)
  have hfinish : w.finishDialOk v true = (w.onAccepted v true true).1.setForWorker _ :=
    if_neg ((h.onAccepted hb true true).owned hn hin).1
  have hne : w.slot ≠ Net.sessionId (UInt32.ofNat v) (w.accepts + 1) := fun heq =>
    h.not_mem hb (heq ▸ AList.lookup_isSome.1 (Option.isSome_of_eq_some hconn))
  have hkept : (w.onAccepted v true true).1.sessions.lookup w.slot = some conn :=
    lookup_keep.trans ((if_neg fun heq => hne heq.1).trans hconn)
  rw [hfinish] at hpeer
  exact hne (hpeer.1 w.slot conn hkept hacked).symm

end Worker

theorem keeps_onePeer {handoff : Bool} {g : State n} {e : Event n} (hn : n ≤ 2 ^ 31)
    (hg : g.All Worker.OnePeer) (hb : e.InBounds g) (he : e.Undisputed g) :
    Keeps handoff g e Worker.OnePeer where
  accepted w created heq h := by
    subst heq
    exact h.onAccepted hb false created
  dialed w created heq h := by
    subst heq
    cases created with
    | false => exact h.onAccepted hb true false
    | true => exact h.finishDialOk hb he true
  closed _ _ sid h := h.beginClose sid
  claimed v s sid hsid hzero h := by
    refine h.setForWorker (.inr hsid) fun x conn hconn hacked => ?_
    have hx : x ∈ s.sessions := AList.lookup_isSome.1 (Option.isSome_of_eq_some hconn)
    exact (h.owned hn hx).1 ((h.exchange x conn hconn hacked).symm.trans hzero)
  acknowledged v s sid role fails _ hrole _ h := by
    refine (h.setState sid .Handshaked).sendToLocal fails fun heq => hrole ?_
    injection heq
  misdirected _ _ sid _ _ h := h.setState sid .Handshaked
  postedAck w v s sid role hsid hne howner _ :=
    -- the id names the worker the session is on
    absurd (Option.some.inj (((hg w).owned hn hsid).2.symm.trans howner)) hne
  receivedPing _ sid pkt _ _ _ _ _ h := h.receive sid (.perfPing pkt)
  receivedPong _ sid pkt _ _ _ _ h := h.receive sid (.perfPong pkt)
  forwarded _ _ _ _ _ fails _ _ _ _ h := h.sendToLocal fails nofun
  answered _ _ _ _ fails _ h := h.sendToLocal fails nofun
  postedPing _ _ _ _ _ h := h.post nofun
  postedPong _ _ _ _ _ h := h.post nofun
  postedClose _ _ _ h := h.post nofun
  popped _ _ _ rest htasks h :=
    ⟨h.coherent.pop rest, h.issued,
      fun sid result role hmem => h.tasks sid result role (htasks ▸ List.mem_cons_of_mem _ hmem),
      h.exchange⟩
  delivered w fails sid packet rest _ htasks hw h := by
    refine h.sendToLocal fails fun heq => absurd ?_ (hw.tasks sid .Ok .Exchange)
    rw [htasks, heq]
    exact List.mem_cons_self

/-- Exactly as long as no dial takes the slot from a session acknowledged as the exchange, a
worker has at most one such session, and it is in the slot. -/
theorem one_exchange_peer (handoff : Bool) (hn : n ≤ 2 ^ 31) (es : List (Event n))
    (hb : Reentrant.AllSteps (State.step handoff) (fun g e => e.InBounds g) (State.init n) es) :
    (∀ k w, (State.run handoff (es.take k) w).PeerInSlot) ↔
      Reentrant.AllSteps (State.step handoff) (fun g e => e.Undisputed g) (State.init n) es := by
  refine Reentrant.throughout_iff_allSteps (I := fun g : State n => g.All Worker.OnePeer)
    (K := fun g : State n => ∀ w, (g w).PeerInSlot) (fun g hg w => (hg w).peerInSlot)
    (fun g e hg hb he => (keeps_onePeer hn hg hb he).step hg) ?_ _ (fun _ => ?_) es hb
  · intro g e hg hb hpeer
    cases e with
    | dialOk w created =>
      cases created with
      | false => trivial
      | true =>
        have hpeer := hpeer w
        rw [State.step, State.modify_self] at hpeer
        exact fun conn => (hg w).undisputed hn hb hpeer
    | _ => trivial
  · refine ⟨Worker.coherent_init, fun _ hsid => ?_, fun _ _ _ htask => ?_, fun _ _ hconn => ?_⟩
    · cases hsid
    · cases htask
    · cases hconn

/-- The exchange is dialed and says hello: it is in the slot. -/
theorem one_exchange_peer_dialed :
    (State.run false [.dialOk 0 true, .roleHello 0 1 .Exchange false] (0 : Fin 1)).slot = 1 :=
  have hb : Worker.InBounds (0 : Fin 1) {} := by decide +kernel
  ((one_exchange_peer false (by decide) [.dialOk 0 true, .roleHello 0 1 .Exchange false]
    ⟨hb, trivial, trivial⟩).mpr ⟨nofun, trivial, trivial⟩ 2 0).1 1
    ⟨true, [.roleHelloAck .Ok .Exchange]⟩ (by decide +kernel) (by decide)

/-- A client claims the exchange's role before the dial completes: session 1 is acknowledged
as the exchange and is there, and session 2 is in the slot. -/
theorem dial_takes_claimed_slot :
    let s := State.run false [.accept 0 true, .roleHello 0 1 .Exchange false, .dialOk 0 true]
      (0 : Fin 1)
    (s.sessions.lookup 1).map Conn.wire = some [.roleHelloAck .Ok .Exchange] ∧ s.slot = 2 := by
  decide +kernel

end HyperNet.Fep
