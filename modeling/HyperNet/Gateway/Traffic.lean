import HyperNet.Gateway.Upstream
import Mathlib.Algebra.BigOperators.Ring.Finset
import Mathlib.Algebra.Order.BigOperators.Group.Finset

/-!
# Traffic through the gateway

A client's ping goes on to the session in the slot, with the client's id in it, and the pong
that comes back goes to the id it carries.

The slot is filled when the dial completes, before the exchange has said hello.  A ping that
is forwarded in between is written ahead of the acknowledgement, and the exchange, which
takes pings in the state `Handshaked` only, discards it.

A pong is taken from any session that is handshaked, whoever it is: a client that sends one
has it delivered to the client of its choice.
-/

namespace HyperNet.Fep

open App (SessionId SessionHandle ConnState Registry ownerOf)

/-! ## The handshake comes first -/

/-- The acknowledgement is among the packets. -/
def Acked (wire : List Packet) : Prop := ∃ role, .roleHelloAck .Ok role ∈ wire

/-- Each ping comes after an acknowledgement. -/
def AckFirst (wire : List Packet) : Prop :=
  ∀ before pkt after, wire = before ++ .perfPing pkt :: after → Acked before

/-- The pings among what an exchange gets on a connection that the guard of its controllers
discards; the state is that of its session. -/
def discarded : ConnState → List Packet → List PerfPkt
  | _, [] => []
  | st, .roleHelloAck result _ :: rest =>
    discarded (if st = .Connected ∧ result = .Ok then .Handshaked else st) rest
  | st, .perfPing pkt :: rest =>
    if st = .Handshaked then discarded st rest else pkt :: discarded st rest
  -- no handler is bound to the opcode, so the session is closed
  | _, .perfPong _ :: _ => []

theorem Acked.append {wire : List Packet} (h : Acked wire) (packet : Packet) :
    Acked (wire ++ [packet]) :=
  h.imp fun _ => List.mem_append_left _

theorem ackFirst_nil : AckFirst [] := by
  intro before pkt after heq
  cases before <;> cases heq

theorem AckFirst.append {wire : List Packet} (h : AckFirst wire) {packet : Packet}
    (hpacket : ∀ pkt, packet = .perfPing pkt → Acked wire) : AckFirst (wire ++ [packet]) := by
  intro before pkt after heq
  rcases List.eq_nil_or_concat after with rfl | ⟨after', last, rfl⟩
  · obtain ⟨rfl, hlast⟩ := List.append_inj' heq rfl
    exact hpacket pkt (List.singleton_inj.1 hlast)
  · rw [List.concat_eq_append, ← List.cons_append, ← List.append_assoc] at heq
    exact h before pkt after' (List.append_inj' heq rfl).1

theorem discarded_handshaked (wire : List Packet) : discarded .Handshaked wire = [] := by
  induction wire with
  | nil => rfl
  | cons packet rest ih =>
    cases packet with
    | roleHelloAck result role | perfPing pkt => simpa [discarded] using ih
    | perfPong pkt => rfl

/-- The exchange discards no ping that comes after the acknowledgement. -/
theorem AckFirst.discarded_eq_nil {wire : List Packet} (h : AckFirst wire) :
    discarded .Connected wire = [] := by
  induction wire with
  | nil => rfl
  | cons packet rest ih =>
    cases packet with
    | perfPing pkt =>
      obtain ⟨role, hmem⟩ := h [] pkt rest rfl
      cases hmem
    | perfPong pkt => rfl
    | roleHelloAck result role =>
      cases result with
      | Ok => simpa [discarded] using discarded_handshaked rest
      | Reject =>
        have hrest : AckFirst rest := by
          rintro before pkt after rfl
          obtain ⟨role', hmem⟩ := h (.roleHelloAck .Reject role :: before) pkt after rfl
          rcases List.mem_cons.1 hmem with heq | hmem
          · cases heq
          · exact ⟨role', hmem⟩
        simpa [discarded] using ih hrest

namespace Worker

variable {n : Nat} {w : Worker} {v : Fin n} {sid : SessionId}

/-- A connection the worker has or has had. -/
def HasHad (w : Worker) (conn : Conn) : Prop :=
  conn ∈ w.ended ∨ ∃ sid, w.sessions.lookup sid = some conn

/-- A session that is past its hello has been told so, and each ping was written after
that. -/
structure Greeted (v : Fin n) (w : Worker) : Prop where
  coherent : w.Coherent
  tasks : ∀ sid packet, .sendTo sid packet ∈ w.tasks → ownerOf n sid = some v
  greeted : ∀ sid conn, sid ≠ 0 → ownerOf n sid = some v → w.sessions.lookup sid = some conn →
    w.stateOf sid = some .Connected ∨ Acked conn.wire
  ackFirst : ∀ conn, w.HasHad conn → AckFirst conn.wire

theorem stateOf_beginClose {x : SessionId} (w : Worker) (h : sid ≠ x) :
    (w.beginClose x).stateOf sid = w.stateOf sid := by
  rw [Worker.beginClose]
  split
  · rfl
  · rw [stateOf, stateOf, Registry.tryGetContext, reg_onSessionEnd, Registry.find_remove, if_neg h]
    rfl

theorem stateOf_setState_ne {x : SessionId} (w : Worker) (h : sid ≠ x) (st : ConnState) :
    (w.setState x st).stateOf sid = w.stateOf sid := by
  have hfind : (w.setState x st).reg.find sid = w.reg.find sid :=
    Registry.find_modifyContext_ne w.reg _ h
  rw [stateOf, stateOf, Registry.tryGetContext, hfind]
  rfl

theorem HasHad.of_beginClose {x : SessionId} {conn : Conn} (h : (w.beginClose x).HasHad conn) :
    w.HasHad conn := by
  rcases h with h | ⟨sid, h⟩
  · rw [Worker.beginClose] at h
    split at h
    · exact .inl h
    case h_2 conn' hconn' =>
      rw [ended_onSessionEnd] at h
      rcases List.mem_cons.1 h with rfl | h
      · exact .inr ⟨x, hconn'⟩
      · exact .inl h
  · rw [lookup_beginClose] at h
    split at h
    · cases h
    · exact .inr ⟨sid, h⟩

theorem Greeted.beginClose (h : w.Greeted v) (x : SessionId) : (w.beginClose x).Greeted v where
  coherent := h.coherent.beginClose x
  tasks := by
    rw [tasks_beginClose]
    exact h.tasks
  greeted sid conn hzero howner hconn := by
    rw [lookup_beginClose] at hconn
    split at hconn
    case isTrue => cases hconn
    case isFalse hne =>
      rw [stateOf_beginClose w hne]
      exact h.greeted sid conn hzero howner hconn
  ackFirst conn hconn := h.ackFirst conn hconn.of_beginClose

theorem HasHad.of_write {conn conn' : Conn} {packet : Packet}
    (h : (w.write sid conn packet).HasHad conn') :
    conn' = { conn with wire := conn.wire ++ [packet] } ∨ w.HasHad conn' := by
  rcases h with h | ⟨other, h⟩
  · exact .inr (.inl h)
  · rw [lookup_write] at h
    split at h
    · exact .inl (Option.some.inj h).symm
    · exact .inr (.inr ⟨other, h⟩)

section

variable (h : w.Greeted v)
include h

theorem Greeted.write {conn : Conn} {packet : Packet} (hconn : w.sessions.lookup sid = some conn)
    (hpacket : ∀ pkt, packet = .perfPing pkt → Acked conn.wire) :
    (w.write sid conn packet).Greeted v where
  coherent := h.coherent.write hconn packet
  tasks := h.tasks
  greeted x conn' hzero howner hconn' := by
    rw [lookup_write] at hconn'
    split at hconn'
    case isTrue heq =>
      subst heq
      rw [← Option.some.inj hconn']
      exact (h.greeted x conn hzero howner hconn).imp id (·.append packet)
    case isFalse => exact h.greeted x conn' hzero howner hconn'
  ackFirst conn' hconn' := by
    rcases hconn'.of_write with rfl | hconn'
    · exact (h.ackFirst conn (.inr ⟨sid, hconn⟩)).append hpacket
    · exact h.ackFirst conn' hconn'

/-- The state of a session may change once the session has been told. -/
theorem Greeted.setState (st : ConnState)
    (hsid : ∀ conn, sid ≠ 0 → ownerOf n sid = some v → w.sessions.lookup sid = some conn →
      Acked conn.wire) : (w.setState sid st).Greeted v where
  coherent := h.coherent.setState sid st
  tasks := h.tasks
  greeted x conn hzero howner hconn := by
    by_cases hx : x = sid
    · subst hx
      exact .inr (hsid conn hzero howner hconn)
    · rw [stateOf_setState_ne w hx]
      exact h.greeted x conn hzero howner hconn
  ackFirst := h.ackFirst

theorem Greeted.sendToLocal {packet : Packet} (fails : Bool)
    (hpacket : ∀ conn pkt, sid ≠ 0 → w.sessions.lookup sid = some conn →
      packet = .perfPing pkt → Acked conn.wire) : (w.sendToLocal sid packet fails).Greeted v :=
  h.coherent.sendToLocal_rule (fun _ => h) fails
    (fun conn hzero hconn => h.write hconn fun pkt => hpacket conn pkt hzero hconn)
    fun _ hs => hs.beginClose sid

/-- The session is told while its state is set: the two go together. -/
theorem Greeted.acknowledge (role : PeerRole) (fails : Bool) :
    ((w.setState sid .Handshaked).sendToLocal sid (.roleHelloAck .Ok role) fails).Greeted v := by
  refine (h.coherent.setState sid .Handshaked).sendToLocal_rule (fun hnone => ?_) fails
    (fun conn _ hconn => ?_) fun _ hs => hs.beginClose sid
  · refine h.setState .Handshaked fun conn hzero _ hconn => ?_
    rcases hnone with hnone | hnone
    · exact absurd hnone hzero
    · exact absurd (AList.lookup_isSome.1 (Option.isSome_of_eq_some hconn)) hnone
  · -- writing does not look at the state
    refine Greeted.setState (w := w.write sid conn (.roleHelloAck .Ok role)) (h.write hconn nofun)
      .Handshaked fun conn' _ _ hconn' => ?_
    rw [lookup_write, if_pos rfl] at hconn'
    rw [← Option.some.inj hconn']
    exact ⟨role, List.mem_append_right _ List.mem_cons_self⟩

theorem Greeted.receive (sid : SessionId) (packet : Packet) : (w.receive sid packet).Greeted v :=
  ⟨h.coherent.receive sid packet, h.tasks, h.greeted, h.ackFirst⟩

theorem Greeted.post (howner : ownerOf n sid = some v) (packet : Packet) :
    (w.post (.sendTo sid packet)).Greeted v where
  __ := h
  coherent := h.coherent.post _
  tasks other packet' hmem := by
    rcases List.mem_append.1 hmem with hmem | hmem
    · exact h.tasks other packet' hmem
    · cases List.mem_singleton.1 hmem
      exact howner

theorem Greeted.onAccepted (dialed created : Bool) :
    (w.onAccepted v dialed created).1.Greeted v where
  coherent := h.coherent.onAccepted v dialed created
  tasks := by
    rw [tasks_onAccepted]
    exact h.tasks
  greeted sid conn hzero howner hconn := by
    rw [Worker.onAccepted] at hconn ⊢
    split at hconn
    case isFalse hnot =>
      rw [if_neg hnot]
      exact h.greeted sid conn hzero howner hconn
    case isTrue hcreated =>
      rw [if_pos hcreated, stateOf, Registry.tryGetContext]
      dsimp only at hconn ⊢
      rw [Registry.find_add]
      split
      case isTrue => exact .inl rfl
      case isFalse hne =>
        rw [lookup_keep, if_neg fun heq => hne heq.1] at hconn
        exact h.greeted sid conn hzero howner hconn
  ackFirst conn hconn := by
    rcases hconn with hconn | ⟨sid, hconn⟩
    · refine h.ackFirst conn (.inl ?_)
      rw [Worker.onAccepted] at hconn
      split at hconn <;> exact hconn
    · rcases lookup_onAccepted hconn with hconn | rfl
      · exact h.ackFirst conn (.inr ⟨sid, hconn⟩)
      · exact ackFirst_nil

theorem Greeted.setForWorker (hsid : sid = 0 ∨ sid ∈ w.sessions) : (w.setForWorker sid).Greeted v :=
  ⟨h.coherent.setForWorker hsid, h.tasks, h.greeted, h.ackFirst⟩

theorem Greeted.finishDialOk (created : Bool) : (w.finishDialOk v created).Greeted v := by
  have haccepted := h.onAccepted true created
  rw [Worker.finishDialOk]
  dsimp only
  split
  · exact haccepted
  · exact haccepted.setForWorker (onAccepted_mem w v true created)

/-- A session that is past its hello may be pinged. -/
theorem Greeted.ping (howner : ownerOf n sid = some v) (hstate : w.stateOf sid ≠ some .Connected)
    {pkt : PerfPkt} (fails : Bool) : (w.sendToLocal sid (.perfPing pkt) fails).Greeted v :=
  h.sendToLocal fails fun conn _ hzero hconn _ =>
    (h.greeted sid conn hzero howner hconn).resolve_left hstate

end

end Worker

variable {n : Nat}

/-- A session that is handed a ping is past its hello. -/
def Event.AfterHello (handoff : Bool) (g : State n) : Event n → Prop
  | .perfPing w sid _ _ stale _ =>
    let upstreamSid := g.upstreamFor handoff w sid stale
    sid ∈ (g w).sessions → (g w).stateOf sid = some .Handshaked →
      ownerOf n upstreamSid = some w → (g w).stateOf upstreamSid ≠ some .Connected
  | .task w _ => ∀ sid pkt rest, (g w).tasks = .sendTo sid (.perfPing pkt) :: rest →
      (g w).stateOf sid ≠ some .Connected
  | _ => True

theorem keeps_greeted {handoff : Bool} {g : State n} {e : Event n} (he : e.AfterHello handoff g) :
    Keeps handoff g e Worker.Greeted where
  accepted w created _ h := h.onAccepted false created
  dialed w created _ h := h.finishDialOk created
  closed _ _ sid h := h.beginClose sid
  claimed _ _ _ hsid _ h := h.setForWorker (.inr hsid)
  acknowledged _ _ _ role fails _ _ _ h := h.acknowledge role fails
  misdirected _ _ _ _ hother h := h.setState .Handshaked fun _ _ howner => absurd howner hother
  postedAck _ _ _ _ role _ _ howner h := h.post howner (.roleHelloAck .Ok role)
  receivedPing _ sid pkt _ _ _ _ _ h := h.receive sid (.perfPing pkt)
  receivedPong _ sid pkt _ _ _ _ h := h.receive sid (.perfPong pkt)
  forwarded w sid pkt now stale fails heq hsid hstate howner h := by
    subst heq
    exact h.ping howner (he hsid hstate howner) fails
  answered _ _ _ _ fails _ h := h.sendToLocal fails nofun
  postedPing _ _ _ pkt howner h := h.post howner (.perfPing pkt)
  postedPong _ _ _ pkt howner h := h.post howner (.perfPong pkt)
  postedClose _ _ _ h := by
    refine ⟨h.coherent.post _, fun sid packet hmem => ?_, h.greeted, h.ackFirst⟩
    rcases List.mem_append.1 hmem with hmem | hmem
    · exact h.tasks sid packet hmem
    · cases List.mem_singleton.1 hmem
  popped _ _ _ rest htasks h :=
    ⟨h.coherent.pop rest,
      fun sid packet hmem => h.tasks sid packet (htasks ▸ List.mem_cons_of_mem _ hmem),
      h.greeted, h.ackFirst⟩
  delivered w fails sid packet rest heq htasks hw h := by
    subst heq
    cases packet with
    | perfPing pkt =>
      exact h.ping (hw.tasks sid _ (by rw [htasks]; exact List.mem_cons_self))
        (he sid pkt rest htasks) fails
    | roleHelloAck result role | perfPong pkt => exact h.sendToLocal fails nofun

/-- As long as only sessions past their hello are handed pings, on every connection the
acknowledgement comes before the pings, and the exchange discards none of them. -/
theorem handshake_precedes_traffic (handoff : Bool) (es : List (Event n))
    (h : Reentrant.AllSteps (State.step handoff) (fun g e => e.AfterHello handoff g)
      (State.init n) es)
    (w : Fin n) (conn : Conn) (hconn : (State.run handoff es w).HasHad conn) :
    AckFirst conn.wire ∧ discarded .Connected conn.wire = [] := by
  have hgreeted := Reentrant.foldl_invariant_of_allSteps
    (I := fun g : State n => g.All Worker.Greeted)
    (fun g e hg he => (keeps_greeted he).step hg) _ (fun _ => ?_) es h
  · have hfirst := (hgreeted w).ackFirst conn hconn
    exact ⟨hfirst, hfirst.discarded_eq_nil⟩
  · refine ⟨Worker.coherent_init, nofun, nofun, fun conn hconn => ?_⟩
    rcases hconn with hconn | ⟨_, hconn⟩ <;> cases hconn

/-- The exchange says hello, and then a client pings: the exchange gets the two in order. -/
theorem handshake_precedes_traffic_after_hello :
    discarded .Connected [.roleHelloAck .Ok .Exchange, .perfPing ⟨2, 7, 0, 5, 0, 0⟩] = [] := by
  refine (handshake_precedes_traffic false
    [.dialOk 0 true, .roleHello 0 1 .Exchange false, .accept 0 true, .roleHello 0 2 .Client false,
      .perfPing 0 2 ⟨0, 7, 0, 0, 0, 0⟩ 5 0 false]
    ⟨trivial, trivial, trivial, trivial, ?_, trivial⟩ (0 : Fin 1)
    ⟨true, [.roleHelloAck .Ok .Exchange, .perfPing ⟨2, 7, 0, 5, 0, 0⟩]⟩ (.inr ⟨1, ?_⟩)).2
  · intro _ _ _
    decide +kernel
  · decide +kernel

/-- The client pings before the exchange has said hello, with either way of routing: the ping
is written first, and the exchange discards it. -/
theorem ping_overtakes_hello :
    let run handoff := State.run handoff
      [.accept 0 true, .roleHello 0 1 .Client false, .dialOk 0 true,
        .perfPing 0 1 ⟨0, 7, 0, 0, 0, 0⟩ 5 0 false, .roleHello 0 2 .Exchange false] (0 : Fin 1)
    let conn : Conn :=
      ⟨true, [.perfPing ⟨1, 7, 0, 5, 0, 0⟩, .roleHelloAck .Ok .Exchange]⟩
    (run false).sessions.lookup 2 = some conn ∧ (run true).sessions.lookup 2 = some conn ∧
      discarded .Connected conn.wire = [⟨1, 7, 0, 5, 0, 0⟩] := by
  decide +kernel

/-! ## Pings and pongs

A ping that is received makes at most one forwarded ping, and a pong at most one forwarded
pong, at once or by way of another worker's queue.  What is sent, or to be sent, is therefore
covered by a credit that grows with what is received. -/

/-- A pong that arrives is not dropped: the session is handshaked, and the client that it names
has a session on the worker, or another worker is to look for it. -/
structure State.Forwards {n : Nat} (g : State n) (w : Fin n) (sid : SessionId) (pkt : PerfPkt) :
    Prop where
  present : sid ∈ (g w).sessions
  handshaked : (g w).stateOf sid = some .Handshaked
  named : pkt.clientSid ≠ 0
  known : ∃ v, ownerOf n pkt.clientSid = some v ∧ (w = v → pkt.clientSid ∈ (g w).sessions)

section Balance

/-- Packets of one kind come from pings and pongs only, and credit is not lost. -/
structure Credit (out : Entry → Bool) (credit : List Entry → Nat) : Prop where
  out_received : ∀ sid packet, out (.received sid packet) = false
  out_ack : ∀ sid result role, out (.sent sid (.roleHelloAck result role)) = false
  mono : ∀ log entry, credit log ≤ credit (log ++ [entry])

/-- The task sends a packet of the kind. -/
def Task.will (out : Entry → Bool) : Task → Bool
  | .sendTo sid packet => out (.sent sid packet)
  | .close _ => false

variable (out : Entry → Bool) (credit : List Entry → Nat) {n : Nat}

/-- What arrives raises the credit by what is forwarded of it. -/
def Event.Pays (g : State n) : Event n → Prop
  | .perfPing w sid pkt now _ _ => ∀ upstreamSid, credit (g w).log +
      (out (.sent upstreamSid (.perfPing { pkt with clientSid := sid, t2 := now }))).toNat ≤
        credit ((g w).log ++ [.received sid (.perfPing pkt)])
  | .perfPong w sid pkt now _ => g.Forwards w sid pkt → credit (g w).log +
      (out (.sent pkt.clientSid (.perfPong { pkt with t4 := now }))).toNat ≤
        credit ((g w).log ++ [.received sid (.perfPong pkt)])
  | _ => True

/-- What a worker has sent or is to send, less its credit. -/
def Worker.balance (w : Worker) : Int :=
  w.log.countP out + w.tasks.countP (Task.will out) - credit w.log

def State.balance (g : State n) : Int := ∑ w, (g w).balance out credit

variable {out credit} {w : Worker} {g : State n}

namespace Worker

theorem balance_congr {w' : Worker} (hlog : w'.log = w.log) (htasks : w'.tasks = w.tasks) :
    w'.balance out credit = w.balance out credit := by
  rw [balance, balance, hlog, htasks]

theorem balance_beginClose (w : Worker) (sid : SessionId) :
    (w.beginClose sid).balance out credit = w.balance out credit :=
  balance_congr (log_beginClose w sid) (tasks_beginClose w sid)

theorem countP_concat {α : Type} (p : α → Bool) (l : List α) (a : α) :
    (l ++ [a]).countP p = l.countP p + (p a).toNat := by
  rw [List.countP_append, List.countP_singleton]
  cases p a <;> rfl

theorem balance_post (w : Worker) (task : Task) :
    (w.post task).balance out credit = w.balance out credit + (Task.will out task).toNat := by
  simp only [balance, post, countP_concat]
  omega

variable (out credit) in
theorem balance_pop {task : Task} {rest : List Task} (h : w.tasks = task :: rest) :
    Worker.balance out credit { w with tasks := rest } + (Task.will out task).toNat =
      w.balance out credit := by
  have hcount : w.tasks.countP (Task.will out) =
      rest.countP (Task.will out) + (Task.will out task).toNat := by
    rw [h, List.countP_cons]
    cases Task.will out task <;> rfl
  simp only [balance, hcount]
  omega

theorem balance_write (hc : Credit out credit) (w : Worker) (sid : SessionId) (conn : Conn)
    (packet : Packet) : (w.write sid conn packet).balance out credit ≤
      w.balance out credit + (out (.sent sid packet)).toNat := by
  have hmono := hc.mono w.log (.sent sid packet)
  simp only [balance, write, countP_concat]
  omega

/-- Nothing is sent to a session that is not there. -/
theorem balance_sendToLocal (hc : Credit out credit) (h : w.Coherent) {sid : SessionId}
    {packet : Packet} (fails : Bool) {k : Nat}
    (hk : sid ∈ w.sessions → (out (.sent sid packet)).toNat ≤ k) :
    (w.sendToLocal sid packet fails).balance out credit ≤ w.balance out credit + k := by
  refine h.sendToLocal_rule (P := fun s => s.balance out credit ≤ _) (fun _ => ?_) fails
    (fun conn _ hconn => ?_) fun s hs => ?_
  · exact le_add_of_nonneg_right (Int.natCast_nonneg _)
  · have hwrite := balance_write hc w sid conn packet
    have hout := hk (AList.lookup_isSome.1 (Option.isSome_of_eq_some hconn))
    omega
  · rw [balance_beginClose]
    exact hs

theorem balance_onAccepted (w : Worker) (wid : Nat) (dialed created : Bool) :
    (w.onAccepted wid dialed created).1.balance out credit = w.balance out credit :=
  balance_congr (log_onAccepted w wid dialed created) (tasks_onAccepted w wid dialed created)

theorem balance_finishDialOk (w : Worker) (wid : Nat) (created : Bool) :
    (w.finishDialOk wid created).balance out credit = w.balance out credit :=
  balance_congr (log_finishDialOk w wid created) (tasks_finishDialOk w wid created)

end Worker

namespace State

variable (out credit) in
theorem balance_modify (g : State n) (w : Fin n) (f : Worker → Worker) :
    (g.modify w f).balance out credit + (g w).balance out credit =
      g.balance out credit + (f (g w)).balance out credit :=
  Relay.sum_update (fun _ s => Worker.balance out credit s) g w (f (g w))

theorem balance_modify_le {w : Fin n} {f : Worker → Worker} {k : Int}
    (h : (f (g w)).balance out credit ≤ (g w).balance out credit + k) :
    (g.modify w f).balance out credit ≤ g.balance out credit + k := by
  have hsum := balance_modify out credit g w f
  omega

theorem balance_modify_eq {w : Fin n} {f : Worker → Worker}
    (h : (f (g w)).balance out credit = (g w).balance out credit) :
    (g.modify w f).balance out credit = g.balance out credit := by
  have hsum := balance_modify out credit g w f
  omega

theorem balance_sendTo (hc : Credit out credit) (hg : g.All fun _ w => w.Coherent) {cw : Fin n}
    {sid : SessionId} {packet : Packet} (fails : Bool) {k : Nat}
    (hk : ∀ v, ownerOf n sid = some v → (cw = v → sid ∈ (g cw).sessions) →
      (out (.sent sid packet)).toNat ≤ k) :
    (g.sendTo cw sid packet fails).balance out credit ≤ g.balance out credit + k := by
  unfold State.sendTo
  split
  · exact le_add_of_nonneg_right (Int.natCast_nonneg _)
  case h_2 owner howner =>
    split
    case isTrue heq =>
      refine balance_modify_le (Worker.balance_sendToLocal hc (hg cw) fails fun hsid => ?_)
      exact hk owner howner fun _ => hsid
    case isFalse hne =>
      refine balance_modify_le ((Worker.balance_post (g owner) (.sendTo sid packet)).le.trans ?_)
      gcongr
      exact hk owner howner fun heq => absurd heq hne

theorem balance_close (g : State n) (cw : Fin n) (sid : SessionId) :
    (g.close cw sid).balance out credit = g.balance out credit := by
  unfold State.close
  split
  · rfl
  · split
    · exact balance_modify_eq (Worker.balance_beginClose _ sid)
    · refine balance_modify_eq ?_
      rw [Worker.balance_post, Task.will, Bool.toNat_false, Nat.cast_zero, add_zero]

section

variable {sid : SessionId} (hc : Credit out credit)
include hc

theorem balance_acknowledge (hg : g.All fun _ w => w.Coherent) (wid : Fin n) (sid : SessionId)
    (role : PeerRole) (fails : Bool) :
    (g.acknowledge wid sid role fails).balance out credit ≤ g.balance out credit := by
  have hset : (g.modify wid (·.setState sid .Handshaked)).All fun _ w => w.Coherent :=
    hg.modify ((hg wid).setState sid .Handshaked)
  have hsend : (g.acknowledge wid sid role fails).balance out credit ≤ _ :=
    balance_sendTo hc hset fails fun _ _ _ => (congrArg Bool.toNat (hc.out_ack sid .Ok role)).le
  rw [balance_modify_eq (Worker.balance_congr rfl rfl)] at hsend
  exact hsend.trans (add_zero _).le

theorem balance_onRoleHello (hg : g.All fun _ w => w.Coherent) {wid : Fin n}
    (hsid : sid ∈ (g wid).sessions) (role : PeerRole) (fails : Bool) :
    (g.onRoleHello wid sid role fails).balance out credit ≤ g.balance out credit := by
  rw [State.onRoleHello]
  split
  · split
    · exact (balance_close g wid sid).le
    · split
      · have hset : (g.modify wid (·.setForWorker sid)).All fun _ w => w.Coherent :=
          hg.modify ((hg wid).setForWorker (.inr hsid))
        exact (balance_acknowledge hc hset wid sid role fails).trans
          (balance_modify_eq (Worker.balance_congr rfl rfl)).le
      · exact balance_acknowledge hc hg wid sid role fails
  · split
    · exact (balance_close g wid sid).le
    · exact balance_acknowledge hc hg wid sid role fails

/-- What is received pays for what is sent for it. -/
theorem balance_received {w : Fin n} {packet : Packet} {x : Int} {k : Nat}
    (hx : x ≤ (g.modify w (·.receive sid packet)).balance out credit + k)
    (hpays : credit (g w).log + k ≤ credit ((g w).log ++ [.received sid packet])) :
    x ≤ g.balance out credit := by
  have hmodify := balance_modify out credit g w (·.receive sid packet)
  have hreceive : ((g w).receive sid packet).balance out credit +
      credit ((g w).log ++ [.received sid packet]) =
        (g w).balance out credit + credit (g w).log := by
    simp only [Worker.balance, Worker.receive, Worker.countP_concat, hc.out_received,
      Bool.toNat_false]
    omega
  omega

theorem balance_onPacket {w : Fin n} {packet : Packet} {handle : State n → State n}
    (hhandle : sid ∈ (g w).sessions → (g w).stateOf sid = some .Handshaked →
      (handle (g.modify w (·.receive sid packet))).balance out credit ≤ g.balance out credit) :
    (g.onPacket w sid packet handle).balance out credit ≤ g.balance out credit := by
  rw [State.onPacket]
  split
  case isFalse => exact le_rfl
  case isTrue hsid =>
    dsimp only
    split
    case isTrue hstate =>
      rw [State.modify_self] at hstate
      exact hhandle hsid hstate
    case isFalse => exact balance_received hc (k := 0) (add_zero _).ge (hc.mono _ _)

theorem balance_drainTask (hg : g.All fun _ w => w.Coherent) (w : Fin n) (fails : Bool) :
    (g.drainTask w fails).balance out credit ≤ g.balance out credit := by
  unfold State.drainTask
  split
  · exact le_rfl
  case h_2 sid packet rest htasks =>
    refine (balance_modify_le (k := 0) ?_).trans (add_zero _).le
    refine (Worker.balance_sendToLocal hc ((hg w).pop rest) fails fun _ => le_rfl).trans ?_
    exact (Worker.balance_pop out credit htasks).le.trans (add_zero _).ge
  case h_3 sid rest htasks =>
    refine (balance_modify_eq ?_).le
    have hpop := Worker.balance_pop out credit htasks
    rw [Task.will, Bool.toNat_false, Nat.cast_zero, add_zero] at hpop
    rw [Worker.balance_beginClose, hpop]

/-- No event that pays sends more than it has credit for. -/
theorem balance_step (hg : g.All fun _ w => w.Coherent) (handoff : Bool) {e : Event n}
    (he : e.Pays out credit g) : (g.step handoff e).balance out credit ≤ g.balance out credit := by
  have hreceive (w sid packet) : (g.modify w (·.receive sid packet)).All fun _ w => w.Coherent :=
    hg.modify ((hg w).receive sid packet)
  cases e with
  | accept w created =>
    rw [State.step]
    refine (balance_modify_eq ?_).le
    exact Worker.balance_onAccepted _ w false created
  | dialOk w created =>
    rw [State.step]
    refine (balance_modify_eq ?_).le
    exact Worker.balance_finishDialOk _ w created
  | roleHello w sid role fails =>
    rw [State.step]
    split
    case isTrue h => exact balance_onRoleHello hc hg h.1 role fails
    case isFalse => exact le_rfl
  | perfPing w sid pkt now stale fails =>
    rw [State.step]
    refine balance_onPacket hc fun _ _ => ?_
    rw [State.onPerfPing]
    split
    · exact balance_received hc (k := 0) (add_zero _).ge (hc.mono _ _)
    · refine balance_received hc (balance_sendTo hc (hreceive _ _ _) fails fun _ _ _ => le_rfl) ?_
      exact he _
  | perfPong w sid pkt now fails =>
    rw [State.step]
    refine balance_onPacket hc fun hsid hstate => ?_
    rw [State.onPerfPong]
    split
    case isTrue => exact balance_received hc (k := 0) (add_zero _).ge (hc.mono _ _)
    case isFalse hzero =>
      by_cases hforwards : g.Forwards w sid pkt
      · refine balance_received hc (balance_sendTo hc (hreceive _ _ _) fails fun _ _ _ => le_rfl) ?_
        exact he hforwards
      · refine balance_received hc (balance_sendTo (k := 0) hc (hreceive _ _ _) fails
          fun v howner hknown => ?_) (hc.mono _ _)
        rw [State.modify_self] at hknown
        exact absurd ⟨hsid, hstate, hzero, v, howner, hknown⟩ hforwards
  | sessionEnd w sid =>
    rw [State.step]
    refine (balance_modify_eq ?_).le
    exact Worker.balance_beginClose _ sid
  | task w fails =>
    rw [State.step]
    exact balance_drainTask hc hg w fails

/-- What has been sent is covered by the credit, if every event pays. -/
theorem sent_le_credit {handoff : Bool} {P : State n → Event n → Prop}
    (hpays : ∀ g e, P g e → e.Pays out credit g) {es : List (Event n)}
    (h : Reentrant.AllSteps (State.step handoff) P (State.init n) es) :
    ∑ w, (State.run handoff es w).log.countP out ≤ ∑ w, credit (State.run handoff es w).log := by
  have hrun := (Reentrant.foldl_invariant_of_allSteps
    (I := fun g : State n => (g.All fun _ w => w.Coherent) ∧ g.balance out credit ≤ 0)
    (fun g e hg he => ⟨(keeps_coherent handoff g e).step hg.1,
      (balance_step hc hg.1 handoff (hpays g e he)).trans hg.2⟩) _
      ⟨fun _ => Worker.coherent_init, ?_⟩ es h).2
  · change (State.run handoff es).balance out credit ≤ 0 at hrun
    simp only [State.balance, Worker.balance, Finset.sum_sub_distrib, Finset.sum_add_distrib,
      ← Nat.cast_sum] at hrun
    omega
  · exact Finset.sum_nonpos fun _ _ => sub_nonpos.mpr (Int.natCast_nonneg _)

end

end State

end Balance

/-! ## Who gets a pong -/

namespace Entry

variable (c : SessionId) (seq : UInt64)

def isPingFrom : Entry → Bool
  | .received sid (.perfPing pkt) => sid = c ∧ pkt.seq = seq
  | _ => false

def isPongTo : Entry → Bool
  | .sent sid (.perfPong pkt) => sid = c ∧ pkt.seq = seq
  | _ => false

/-- The session that a ping of the client was written to. -/
def pingTo : Entry → Option SessionId
  | .sent sid (.perfPing pkt) => if pkt.clientSid = c ∧ pkt.seq = seq then some sid else none
  | _ => none

/-- The session that a pong for the client came from. -/
def pongFrom : Entry → Option SessionId
  | .received sid (.perfPong pkt) => if pkt.clientSid = c ∧ pkt.seq = seq then some sid else none
  | _ => none

end Entry

section Matched

variable {c : SessionId} {seq : UInt64} {n : Nat} {g : State n} {log : List Entry}

/-- The pongs for the client that answer a ping, one by one and by the sessions that pings were
written to and pongs came from. -/
def matched (c : SessionId) (seq : UInt64) (log : List Entry) : Multiset SessionId :=
  (log.filterMap (Entry.pongFrom c seq) : Multiset SessionId) ∩
    (log.filterMap (Entry.pingTo c seq) : Multiset SessionId)

theorem credit_pings :
    Credit (fun e => (Entry.pingTo c seq e).isSome) (List.countP (Entry.isPingFrom c seq)) where
  out_received _ _ := rfl
  out_ack _ _ _ := rfl
  mono log entry := by
    rw [List.countP_append]
    exact Nat.le_add_right _ _

/-- A ping is forwarded for one that was received. -/
theorem pays_pings (e : Event n) : e.Pays (fun e => (Entry.pingTo c seq e).isSome)
    (List.countP (Entry.isPingFrom c seq)) g := by
  cases e with
  | perfPing w sid pkt now stale fails =>
    intro upstreamSid
    rw [Worker.countP_concat]
    gcongr
    refine Bool.toNat_le_toNat fun h => ?_
    simpa [Entry.pingTo, Entry.isPingFrom] using h
  | perfPong w sid pkt now fails => exact fun _ => credit_pings.mono _ _
  | _ => trivial

theorem credit_matched : Credit (Entry.isPongTo c seq) fun log => (matched c seq log).card where
  out_received _ _ := rfl
  out_ack _ _ _ := rfl
  mono log entry := by
    have hle (f : Entry → Option SessionId) :
        (log.filterMap f : Multiset SessionId) ≤ (log ++ [entry]).filterMap f :=
      Multiset.coe_le.mpr ((List.sublist_append_left log [entry]).filterMap f).subperm
    exact Multiset.card_le_card (Multiset.le_inter (Multiset.inter_le_left.trans (hle _))
      (Multiset.inter_le_right.trans (hle _)))

/-- A pong counts as an answer if its session was sent more pings than it has sent pongs. -/
theorem card_matched_lt {sid : SessionId} {pkt : PerfPkt}
    (h : (log.filterMap (Entry.pongFrom pkt.clientSid pkt.seq)).count sid <
      (log.filterMap (Entry.pingTo pkt.clientSid pkt.seq)).count sid) :
    (matched pkt.clientSid pkt.seq log).card <
      (matched pkt.clientSid pkt.seq (log ++ [.received sid (.perfPong pkt)])).card := by
  have hle : sid ::ₘ matched pkt.clientSid pkt.seq log ≤
      matched pkt.clientSid pkt.seq (log ++ [.received sid (.perfPong pkt)]) := by
    refine Multiset.le_iff_count.mpr fun x => ?_
    have hpong : [Entry.received sid (.perfPong pkt)].filterMap
        (Entry.pongFrom pkt.clientSid pkt.seq) = [sid] := by simp [Entry.pongFrom]
    have hping : [Entry.received sid (.perfPong pkt)].filterMap
        (Entry.pingTo pkt.clientSid pkt.seq) = [] := rfl
    simp only [matched, List.filterMap_append, hpong, hping, List.append_nil,
      Multiset.count_cons, Multiset.count_inter, Multiset.coe_count, List.count_append]
    by_cases hx : x = sid
    · subst hx
      simp only [List.count_singleton_self, if_pos]
      omega
    · rw [if_neg hx, add_zero]
      exact min_le_min (Nat.le_add_right _ _) le_rfl
  have hcard := Multiset.card_le_card hle
  rwa [Multiset.card_cons] at hcard

end Matched

namespace Worker

/-- The sessions that pings of the client were written to. -/
def pings (c : SessionId) (seq : UInt64) (w : Worker) : List SessionId :=
  w.log.filterMap (Entry.pingTo c seq)

/-- The sessions that pongs for the client came from. -/
def pongs (c : SessionId) (seq : UInt64) (w : Worker) : List SessionId :=
  w.log.filterMap (Entry.pongFrom c seq)

end Worker

/-- A pong that is not dropped comes from a session that was sent more pings for the client, with
the number of the pong, than it has sent pongs. -/
def Event.Answers {n : Nat} (g : State n) : Event n → Prop
  | .perfPong w sid pkt _ _ => g.Forwards w sid pkt →
      ((g w).pongs pkt.clientSid pkt.seq).count sid < ((g w).pings pkt.clientSid pkt.seq).count sid
  | _ => True

theorem Event.Answers.pays {n : Nat} {g : State n} {e : Event n} (he : e.Answers g) (c : SessionId)
    (seq : UInt64) : e.Pays (Entry.isPongTo c seq) (fun log => (matched c seq log).card) g := by
  cases e with
  | perfPong w sid pkt now fails =>
    intro hforwards
    by_cases hpkt : pkt.clientSid = c ∧ pkt.seq = seq
    · obtain ⟨rfl, rfl⟩ := hpkt
      simpa [Entry.isPongTo] using Nat.succ_le_of_lt (card_matched_lt (he hforwards))
    · simpa [Entry.isPongTo, hpkt] using credit_matched.mono _ _
  | perfPing w sid pkt now stale fails => exact fun _ => credit_matched.mono _ _
  | _ => trivial

variable {n : Nat}

/-- As long as pongs come as answers only, a client is sent no more pongs with a number than
it has sent pings with it. -/
theorem pongs_to_who_asked (handoff : Bool) (es : List (Event n))
    (h : Reentrant.AllSteps (State.step handoff) (fun g e => e.Answers g) (State.init n) es)
    (c : SessionId) (seq : UInt64) :
    ∑ w, (State.run handoff es w).log.countP (Entry.isPongTo c seq) ≤
      ∑ w, (State.run handoff es w).log.countP (Entry.isPingFrom c seq) := by
  calc
    _ ≤ ∑ w, (matched c seq (State.run handoff es w).log).card :=
      State.sent_le_credit credit_matched (fun _ _ he => he.pays c seq) h
    _ ≤ ∑ w, (State.run handoff es w).log.countP fun e => (Entry.pingTo c seq e).isSome :=
      Finset.sum_le_sum fun w _ => by
        rw [← List.length_filterMap_eq_countP]
        exact Multiset.card_le_card Multiset.inter_le_right
    _ ≤ _ := State.sent_le_credit credit_pings (fun _ e _ => pays_pings e) h

/-- The exchange answers the ping of a client: the client is sent one pong. -/
theorem pongs_to_who_asked_answered :
    let g : State 1 := State.run false
      [.dialOk 0 true, .roleHello 0 1 .Exchange false, .accept 0 true,
        .roleHello 0 2 .Client false, .perfPing 0 2 ⟨0, 7, 3, 0, 0, 0⟩ 4 0 false,
        .perfPong 0 1 ⟨2, 7, 3, 4, 5, 0⟩ 6 false]
    (g 0).log.countP (Entry.isPongTo 2 7) = 1 ∧
      ∑ w, (g w).log.countP (Entry.isPongTo 2 7) ≤
        ∑ w, (g w).log.countP (Entry.isPingFrom 2 7) := by
  refine ⟨by decide +kernel, pongs_to_who_asked false _ ?_ 2 7⟩
  exact ⟨trivial, trivial, trivial, trivial, trivial, fun _ => by decide +kernel, trivial⟩

/-- One client sends a pong that names the other: the other is sent a pong it has not asked
for. -/
theorem client_forges_pong :
    let g : State 1 := State.run false
      [.accept 0 true, .roleHello 0 1 .Client false, .accept 0 true, .roleHello 0 2 .Client false,
        .perfPong 0 2 ⟨1, 9, 0, 0, 0, 0⟩ 6 false]
    ∑ w, (g w).log.countP (Entry.isPongTo 1 9) = 1 ∧
      ∑ w, (g w).log.countP (Entry.isPingFrom 1 9) = 0 := by
  decide +kernel

end HyperNet.Fep
