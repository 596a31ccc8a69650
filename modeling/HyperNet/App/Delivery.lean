import HyperNet.App.Registry
import HyperNet.Lib.RelayOrder
import HyperNet.Net.Worker

/-!
# Delivery across workers

`SessionService`, `TopicBroadcaster` and `GlobalSessionRouter`: a call made on one worker
comes to tasks for the workers that own the sessions it addresses.  The part for the
calling worker is done at once, the others are posted; a part looks its sessions up in the
registry of its worker and gives the handles to the router, which groups them by owner once
more.  The workers are the stations of a `Relay`, where one of them may be interrupted
between any two packets: handing one to `sendPacketU16` can end the session, and the
application's `onSessionEnd` runs before the next one.

A packet carries the tag of the call it stems from.  It is there for the statements only,
as are the bytes `passed` that an issued call remembers.
-/

namespace HyperNet.App

open Relay (Tag Action Rules Stations)

/-- Bytes of the caller; the pointer may be null. -/
structure MessageView where
  data : Option Nat
  size : Nat

abbrev Memory := Nat → UInt8

/-- The bytes a view shows at the moment; zeros where it has none. -/
def MessageView.bytes (mem : Memory) (body : MessageView) : List UInt8 :=
  match body.data with
  | none => List.replicate body.size 0
  | some p => (List.range body.size).map fun i => mem (p + i)

def copyPayload (mem : Memory) (body : MessageView) : Option (List UInt8) :=
  if body.size = 0 then none else some (body.bytes mem)

/-- What the router takes: the payload is shared by all who send it. -/
structure RoutedPacketU16 (n : Nat) where
  opcode : UInt16
  body : Option (List UInt8)
  tag : Tag (Fin n)
  deriving DecidableEq

def RoutedPacketU16.view {n : Nat} (p : RoutedPacketU16 n) : List UInt8 := p.body.getD []

/-- Whom a broadcast goes to. -/
inductive Selector where
  | all
  | scope (w : ScopeId)
  | topic (w : ScopeId) (c : TopicId)
  deriving DecidableEq

def Selector.snapshot (sel : Selector) (reg : Registry) (exceptSid : SessionId) :
    List SessionHandle :=
  match sel with
  | .all => reg.snapshotAll exceptSid
  | .scope w => reg.snapshotScope w exceptSid
  | .topic w c => reg.snapshotTopic w c exceptSid

/-- The calls of `SessionService` that send. -/
inductive Call where
  | sendTo (sid : SessionId) (opcode : UInt16) (body : MessageView)
  | multicast (sids : List SessionId) (opcode : UInt16) (body : MessageView)
      (exceptSid : SessionId)
  | broadcast (sel : Selector) (opcode : UInt16) (body : MessageView) (exceptSid : SessionId)

def Call.opcode : Call → UInt16
  | .sendTo _ opcode _ => opcode
  | .multicast _ opcode _ _ => opcode
  | .broadcast _ opcode _ _ => opcode

def Call.body : Call → MessageView
  | .sendTo _ _ body => body
  | .multicast _ _ body _ => body
  | .broadcast _ _ body _ => body

/-- What is run on a worker. -/
inductive Task (n : Nat) where
  | sendTo (sid : SessionId) (packet : RoutedPacketU16 n)
  | multicast (ids : List SessionId) (packet : RoutedPacketU16 n)
  | broadcast (sel : Selector) (exceptSid : SessionId) (packet : RoutedPacketU16 n)
  | routed (group : List SessionHandle) (packet : RoutedPacketU16 n)
  deriving DecidableEq

def Task.packet {n : Nat} : Task n → RoutedPacketU16 n
  | .sendTo _ packet => packet
  | .multicast _ packet => packet
  | .broadcast _ _ packet => packet
  | .routed _ packet => packet

/-- The arguments of a `SessionManager::sendPacketU16`. -/
structure Sent (n : Nat) where
  tag : Tag (Fin n)
  sid : SessionId
  opcode : UInt16
  body : List UInt8
  deriving DecidableEq

/-- `sendLocalPacketU16` on a handle. -/
def RoutedPacketU16.sent {n : Nat} (p : RoutedPacketU16 n) (h : SessionHandle) : Sent n :=
  ⟨p.tag, h.id, p.opcode, p.view⟩

/-- The worker of this number, if there is one. -/
def workerOf (n : Nat) (owner : Int) : Option (Fin n) :=
  if h : 0 ≤ owner ∧ owner.toNat < n then some ⟨owner.toNat, h.2⟩ else none

/-- The worker a session id names. -/
def ownerOf (n : Nat) (sid : SessionId) : Option (Fin n) :=
  workerOf n (Net.ownerWorkerFromId sid).toInt

namespace Router

variable {n : Nat} (cw : Fin n) (packet : RoutedPacketU16 n)

def send (target : SessionHandle) : List (Action (Fin n) (Task n) (Sent n)) :=
  if target.isValid then
    match workerOf n target.ownerWorkerId with
    | none => []
    | some owner =>
      if cw = owner then [.hand (packet.sent target)] else [.fan owner (.routed [target] packet)]
  else []

def group (targets : List SessionHandle) (owner : Fin n) : List SessionHandle :=
  targets.filter fun s => s.isValid && workerOf n s.ownerWorkerId == some owner

def broadcast (targets : List SessionHandle) : List (Action (Fin n) (Task n) (Sent n)) :=
  (List.finRange n).flatMap fun owner =>
    let g := group targets owner
    if g = [] then []
    else if cw = owner then g.map fun s => .hand (packet.sent s)
    else [.fan owner (.routed g packet)]

end Router

/-- The state of a worker: its registry and its buffers. -/
structure Local where
  reg : Registry := {}
  memory : Memory := fun _ => 0

/-- A call that was made, with the copy of the body and the bytes it was made with. -/
structure Issue where
  call : Call
  payload : Option (List UInt8)
  passed : List UInt8
  copied : payload.getD [] = passed

theorem getD_copyPayload (mem : Memory) (body : MessageView) :
    (copyPayload mem body).getD [] = body.bytes mem := by
  rw [copyPayload]
  split
  case isTrue h => rw [MessageView.bytes, h]; split <;> rfl
  case isFalse => rfl

def Issue.make (call : Call) (s : Local) : Issue where
  call := call
  payload := copyPayload s.memory call.body
  passed := call.body.bytes s.memory
  copied := getD_copyPayload s.memory call.body

namespace Task

variable {n : Nat}

def run (cw : Fin n) (s : Local) : Task n → List (Action (Fin n) (Task n) (Sent n))
  | .sendTo sid packet =>
    match s.reg.tryGetHandle sid with
    | none => []
    | some h => Router.send cw packet h
  | .multicast ids packet => Router.broadcast cw packet (ids.filterMap s.reg.tryGetHandle)
  | .broadcast sel exceptSid packet => Router.broadcast cw packet (sel.snapshot s.reg exceptSid)
  | .routed g packet => g.map fun h => .hand (packet.sent h)

/-- The handles a task finds. -/
def targets (s : Local) : Task n → List SessionHandle
  | .sendTo sid _ => (s.reg.tryGetHandle sid).toList
  | .multicast ids _ => ids.filterMap s.reg.tryGetHandle
  | .broadcast sel exceptSid _ => sel.snapshot s.reg exceptSid
  | .routed g _ => g

end Task

/-- The sessions of a multicast that a worker owns. -/
def bucket {n : Nat} (sids : List SessionId) (exceptSid : SessionId) (owner : Fin n) :
    List SessionId :=
  sids.filter fun sid => sid != 0 && sid != exceptSid && ownerOf n sid == some owner

/-- The tasks a call comes to, in the order they are done or posted. -/
def Issue.parts {n : Nat} (tag : Tag (Fin n)) (i : Issue) : List (Fin n × Task n) :=
  let packet := ⟨i.call.opcode, i.payload, tag⟩
  match i.call with
  | .sendTo sid _ _ =>
    match ownerOf n sid with
    | none => []
    | some owner => [(owner, .sendTo sid packet)]
  | .multicast sids _ _ exceptSid =>
    (List.finRange n).flatMap fun owner =>
      let ids := bucket sids exceptSid owner
      if ids = [] then [] else [(owner, .multicast ids packet)]
  | .broadcast sel _ _ exceptSid =>
    (List.finRange n).map fun wid => (wid, .broadcast sel exceptSid packet)

def rules (n : Nat) : Rules (Fin n) Local Issue (Task n) (Sent n) where
  parts := Issue.parts
  start := fun cw s task => task.run cw s
  taskTag := fun task => task.packet.tag
  outTag := Sent.tag

/-- The handle is one the worker's own manager makes. -/
def SessionHandle.OwnedBy (w : Nat) (h : SessionHandle) : Prop :=
  h.id ≠ 0 ∧ h.ownerWorkerId = w ∧ (Net.ownerWorkerFromId h.id).toInt = w

instance (w : Nat) (h : SessionHandle) : Decidable (h.OwnedBy w) :=
  inferInstanceAs (Decidable (_ ∧ _ ∧ _))

/-- The call stores sessions of the worker only. -/
def Registry.Op.Owned (w : Nat) : Registry.Op → Prop
  | .add session _ _ => session.OwnedBy w
  | _ => True

/-- What can happen: a call, a change of a registry, new contents of the buffers, the next
thing of the call or task in progress, the next task of the queue. -/
inductive Event (n : Nat) where
  | call (w : Fin n) (call : Call)
  | registry (w : Fin n) (op : Registry.Op) (owned : op.Owned w)
  | write (w : Fin n) (memory : Memory)
  | proceed (w : Fin n)
  | drainTask (w : Fin n)

def Event.toRelay {n : Nat} : Event n → Relay.Event (Fin n) Local Issue
  | .call w c => .issue w (Issue.make c)
  | .registry w op _ => .change w fun s => { s with reg := s.reg.step op }
  | .write w memory => .change w fun s => { s with memory }
  | .proceed w => .act w
  | .drainTask w => .next w

abbrev Workers (n : Nat) := Stations (Fin n) Local Issue (Task n) (Sent n)

def Workers.init (n : Nat) : Workers n := fun _ => { state := {} }

def Workers.step {n : Nat} (c : Workers n) (e : Event n) : Workers n :=
  Stations.step (rules n) c e.toRelay

def Workers.run {n : Nat} (es : List (Event n)) : Workers n :=
  es.foldl Workers.step (Workers.init n)

/-! ## Where a call goes -/

variable {n : Nat}

theorem workerOf_eq_some {owner : Int} {w : Fin n} :
    workerOf n owner = some w ↔ owner = (w : Nat) := by
  rw [workerOf, Option.dite_none_right_eq_some]
  constructor
  · rintro ⟨⟨hpos, _⟩, heq⟩
    rw [← Option.some.inj heq]
    exact (Int.toNat_of_nonneg hpos).symm
  · rintro rfl
    exact ⟨⟨Int.natCast_nonneg _, by rw [Int.toNat_natCast]; exact w.isLt⟩, rfl⟩

/-- A loop over the workers that does something for one of them only. -/
theorem flatMap_finRange {α : Type} (w : Fin n) (f : Fin n → List α) (hf : ∀ v, v ≠ w → f v = []) :
    (List.finRange n).flatMap f = f w := by
  obtain ⟨l, r, heq⟩ := List.append_of_mem (List.mem_finRange w)
  have hnodup := List.nodup_finRange n
  rw [heq] at hnodup ⊢
  have hl : l.flatMap f = [] := List.flatMap_eq_nil_iff.2 fun v hv =>
    hf v fun hvw => (List.disjoint_of_nodup_append hnodup) hv (hvw ▸ List.mem_cons_self)
  have hr : r.flatMap f = [] := List.flatMap_eq_nil_iff.2 fun v hv =>
    hf v fun hvw => (List.nodup_cons.1 (List.nodup_append.1 hnodup).2.1).1 (hvw ▸ hv)
  rw [List.flatMap_append, List.flatMap_cons, hl, hr, List.nil_append, List.append_nil]

/-- The task a call comes to on a worker, if any. -/
def Issue.partFor {n : Nat} (tag : Tag (Fin n)) (i : Issue) (v : Fin n) : Option (Task n) :=
  let packet := ⟨i.call.opcode, i.payload, tag⟩
  match i.call with
  | .sendTo sid _ _ => if ownerOf n sid = some v then some (.sendTo sid packet) else none
  | .multicast sids _ _ exceptSid =>
    if bucket sids exceptSid v = [] then none
    else some (.multicast (bucket sids exceptSid v) packet)
  | .broadcast sel _ _ exceptSid => some (.broadcast sel exceptSid packet)

theorem partsTo_parts (tag : Tag (Fin n)) (i : Issue) (v : Fin n) :
    Relay.partsTo v (i.parts tag) = (i.partFor tag v).toList := by
  rw [Issue.parts, Issue.partFor]
  cases i.call with
  | sendTo sid opcode body =>
    dsimp only
    split
    case h_1 hnone => rw [hnone]; rfl
    case h_2 owner hsome =>
      rw [hsome, Relay.partsTo_singleton]
      by_cases howner : owner = v
      · rw [if_pos howner, if_pos (congrArg some howner)]; rfl
      · rw [if_neg howner, if_neg (howner ∘ Option.some.inj)]; rfl
  | multicast sids opcode body exceptSid =>
    dsimp only
    rw [Relay.partsTo, List.filterMap_flatMap, flatMap_finRange v]
    · split <;> simp
    · intro u hu
      split <;> simp [hu]
  | broadcast sel opcode body exceptSid =>
    dsimp only
    rw [Relay.partsTo, List.filterMap_map, List.filterMap_eq_flatMap_toList, flatMap_finRange v]
    · simp
    · intro u hu
      simp [hu]

/-! ## What a task comes to -/

/-- The registry of a worker is in order and holds its own sessions only. -/
structure Good {n : Nat} (w : Fin n) (s : Local) : Prop where
  consistent : s.reg.Consistent
  owned : s.reg.AllHandles (SessionHandle.OwnedBy w)

def outs {n : Nat} (_ : Fin n) (s : Local) (task : Task n) : List (Sent n) :=
  (task.targets s).map task.packet.sent

section Targets

variable {w : Fin n} {s : Local}

theorem Registry.tryGetHandle_eq_some {r : Registry} {sid : SessionId} {h : SessionHandle}
    (heq : r.tryGetHandle sid = some h) : ∃ rec, r.find sid = some rec ∧ rec.handle = h := by
  rw [Registry.tryGetHandle] at heq
  split at heq
  · cases heq
  case h_2 rec hrec =>
    split at heq
    · exact ⟨rec, hrec, Option.some.inj heq⟩
    · cases heq

section

variable {h : SessionHandle} (hs : Good w s)
include hs

theorem Good.tryGetHandle {sid : SessionId} (heq : s.reg.tryGetHandle sid = some h) :
    h.OwnedBy w ∧ h.id = sid := by
  obtain ⟨rec, hrec, rfl⟩ := Registry.tryGetHandle_eq_some heq
  exact ⟨hs.owned sid rec hrec, hs.consistent.handle_id sid rec hrec⟩

theorem Good.pick {exceptSid sid : SessionId} (heq : s.reg.pick exceptSid sid = some h) :
    h.OwnedBy w ∧ h.id = sid := by
  rw [Registry.pick] at heq
  split at heq
  · cases heq
  · exact hs.tryGetHandle heq

theorem Good.snapshot {sel : Selector} {exceptSid : SessionId}
    (hmem : h ∈ sel.snapshot s.reg exceptSid) : h.OwnedBy w := by
  cases sel with
  | all | scope w | topic w c =>
    obtain ⟨sid, -, heq⟩ := List.mem_filterMap.1 hmem
    exact (hs.pick heq).1

/-- What a task looks up is the worker's own. -/
theorem Good.targets_owned (task : Task n) (htask : ∀ g p, task ≠ .routed g p) :
    ∀ t ∈ task.targets s, t.OwnedBy w := by
  intro t ht
  cases task with
  | sendTo sid packet => exact (hs.tryGetHandle (Option.mem_toList.1 ht)).1
  | multicast ids packet =>
    obtain ⟨sid, -, heq⟩ := List.mem_filterMap.1 ht
    exact (hs.tryGetHandle heq).1
  | broadcast sel exceptSid packet => exact hs.snapshot ht
  | routed g packet => exact absurd rfl (htask g packet)

end

theorem SessionHandle.OwnedBy.isValid {w : Nat} {h : SessionHandle} (hw : h.OwnedBy w) :
    h.isValid = true :=
  bne_iff_ne.2 hw.1

theorem group_owned {targets : List SessionHandle} (h : ∀ t ∈ targets, t.OwnedBy w)
    (owner : Fin n) : Router.group targets owner = if w = owner then targets else [] := by
  rw [Router.group]
  split
  case isTrue hw =>
    refine List.filter_eq_self.2 fun t ht => ?_
    rw [(h t ht).isValid, workerOf_eq_some.2 (h t ht).2.1, hw]
    exact beq_self_eq_true _
  case isFalse hw =>
    refine List.filter_eq_nil_iff.2 fun t ht => ?_
    rw [(h t ht).isValid, workerOf_eq_some.2 (h t ht).2.1, Bool.true_and, beq_iff_eq]
    exact hw ∘ Option.some.inj

/-- The worker hands out packets for its own sessions itself. -/
theorem broadcast_owned {targets : List SessionHandle} (h : ∀ t ∈ targets, t.OwnedBy w)
    (packet : RoutedPacketU16 n) :
    Router.broadcast w packet targets = (targets.map packet.sent).map .hand := by
  rw [Router.broadcast, flatMap_finRange w]
  · dsimp only
    rw [group_owned h, if_pos rfl, if_pos rfl, List.map_map]
    split
    case isTrue hnil => rw [hnil]; rfl
    case isFalse => rfl
  · intro v hv
    dsimp only
    rw [group_owned h, if_neg (Ne.symm hv), if_pos rfl]

theorem send_owned {h : SessionHandle} (hw : h.OwnedBy w) (packet : RoutedPacketU16 n) :
    Router.send w packet h = [.hand (packet.sent h)] := by
  rw [Router.send, if_pos hw.isValid, workerOf_eq_some.2 hw.2.1]
  exact if_pos rfl

theorem run_eq (hs : Good w s) (task : Task n) : task.run w s = (outs w s task).map .hand := by
  rw [outs]
  cases task with
  | sendTo sid packet =>
    rw [Task.run, Task.targets, Task.packet]
    cases hh : s.reg.tryGetHandle sid with
    | none => rfl
    | some h => exact send_owned (hs.tryGetHandle hh).1 packet
  | multicast ids packet =>
    exact broadcast_owned (hs.targets_owned (.multicast ids packet) nofun) packet
  | broadcast sel exceptSid packet =>
    exact broadcast_owned (hs.targets_owned (.broadcast sel exceptSid packet) nofun) packet
  | routed g packet =>
    rw [Task.run, Task.targets, Task.packet, List.map_map]
    rfl

theorem tag_partFor {tag : Tag (Fin n)} {i : Issue} {v : Fin n} {task : Task n}
    (h : i.partFor tag v = some task) :
    task.packet = ⟨i.call.opcode, i.payload, tag⟩ := by
  rw [Issue.partFor] at h
  cases hcall : i.call with
  | sendTo sid opcode body =>
    simp only [hcall, Option.ite_none_right_eq_some] at h
    rw [← Option.some.inj h.2]; rfl
  | multicast sids opcode body exceptSid =>
    simp only [hcall, Option.ite_none_left_eq_some] at h
    rw [← Option.some.inj h.2]; rfl
  | broadcast sel opcode body exceptSid =>
    simp only [hcall] at h
    rw [← Option.some.inj h]; rfl

/-- The service is a relay that passes every packet on at most once. -/
theorem rules_direct : (rules n).Direct Good outs where
  part_tag tag i p hp := by
    have hmem : p.2 ∈ Relay.partsTo p.1 (i.parts tag) := List.mem_filterMap.2 ⟨p, hp, if_pos rfl⟩
    rw [partsTo_parts, Option.mem_toList] at hmem
    exact congrArg RoutedPacketU16.tag (tag_partFor hmem)
  part_single tag i v := by
    rw [rules, partsTo_parts]
    exact Option.length_toList_le
  start w s task hs := run_eq hs task
  tag w s task out hmem := by
    obtain ⟨h, -, rfl⟩ := List.mem_map.1 hmem
    rfl

end Targets

theorem good_init (w : Fin n) : Good w {} where
  consistent := Registry.consistent_empty
  owned _ _ h := by cases h

theorem Event.proper : ∀ e : Event n, e.toRelay.Proper Good
  | .call _ _ => trivial
  | .registry w op howned => fun s hs =>
    { consistent := hs.consistent.step op
      owned := hs.owned.step fun session w c heq => by rw [heq] at howned; exact howned }
  | .write _ _ => fun _ hs => ⟨hs.consistent, hs.owned⟩
  | .proceed _ => trivial
  | .drainTask _ => trivial

theorem sound_run (es : List (Event n)) : Relay.Sound (rules n) Good outs [] (Workers.run es) :=
  Reentrant.foldl_invariant (I := fun c => Relay.Sound (rules n) Good outs [] c)
    (fun _ e h => h.step rules_direct e.proper) _ (Relay.sound_init good_init) es

/-! ## The calls of a run -/

section Calls

/-- The calls that a worker makes in a run. -/
def callsOf (a : Fin n) (es : List (Event n)) : List Call :=
  es.filterMap fun e => match e with
    | .call w call => if w = a then some call else none
    | _ => none

/-- They are the calls it has issued. -/
theorem call_issued (a : Fin n) (es : List (Event n)) :
    ((Workers.run es) a).issued.map Issue.call = callsOf a es := by
  induction es using List.reverseRecOn with
  | nil => rfl
  | append_singleton es e ih =>
    have hissued := Relay.issued_step (R := rules n) (Workers.run es) e.toRelay a
    rw [Workers.run, List.foldl_append, callsOf, List.filterMap_append]
    change ((Stations.step (rules n) (Workers.run es) e.toRelay) a).issued.map _ = callsOf a es ++ _
    rw [hissued, List.map_append, ih]
    cases e with
    | call w call =>
      by_cases hw : w = a
      · simp [Event.toRelay, Relay.Event.issuedAt, hw, Issue.make]
      · simp [Event.toRelay, Relay.Event.issuedAt, hw]
    | registry | write | proceed | drainTask => rfl

theorem issued_prefix (a : Fin n) (c : Workers n) (es : List (Event n)) :
    (c a).issued <+: ((es.foldl Workers.step c) a).issued := by
  refine Reentrant.foldl_rel (R := fun c c' : Workers n => (c a).issued <+: (c' a).issued)
    (fun c => List.prefix_rfl) (fun h h' => h.trans h') (fun c e => ?_) c es
  rw [Workers.step, Relay.issued_step]
  exact List.prefix_append _ _

/-- The tag of a call that is made after `before`. -/
def tagOf (a : Fin n) (before : List (Event n)) : Tag (Fin n) := ⟨a, (callsOf a before).length⟩

/-- The call and the bytes it is made with. -/
def issueOf (a : Fin n) (call : Call) (before : List (Event n)) : Issue :=
  .make call ((Workers.run before) a).state

theorem nextTag_run (a : Fin n) (before : List (Event n)) :
    (Workers.run before).nextTag a = tagOf a before := by
  rw [tagOf, ← call_issued, List.length_map]
  rfl

theorem issued_call (a : Fin n) (call : Call) (before after : List (Event n)) :
    ((Workers.run (before ++ .call a call :: after)) a).issued[(tagOf a before).number]? =
      some (issueOf a call before) := by
  obtain ⟨more, hmore⟩ := issued_prefix a (Workers.step (Workers.run before) (.call a call)) after
  rw [← nextTag_run, Workers.run, List.foldl_append, List.foldl_cons, ← Workers.run, ← hmore,
    Workers.step, Relay.issued_step]
  change ((_ ++ _) ++ _)[((Workers.run before) a).issued.length]? = _
  rw [List.append_assoc, List.getElem?_append_right (Nat.le_refl _), Nat.sub_self]
  simp [Event.toRelay, Relay.Event.issuedAt, issueOf]

end Calls

/-! ## How often a session is sent a packet -/

/-- The session is one the broadcast is for. -/
def Selector.Selects (sel : Selector) (reg : Registry) (sid : SessionId) : Prop :=
  match sel with
  | .all => (reg.find sid).isSome
  | .scope w => ∃ key ∈ (reg.subs.stateOf sid).subscriptions, key.scope = w
  | .topic w c => reg.Subscribed sid ⟨w, c⟩

instance (sel : Selector) (reg : Registry) (sid : SessionId) : Decidable (sel.Selects reg sid) :=
  match sel with
  | .all => inferInstanceAs (Decidable (_ = true))
  | .scope w => inferInstanceAs (Decidable (∃ key ∈ (reg.subs.stateOf sid).subscriptions, _ = w))
  | .topic _ _ => inferInstanceAs (Decidable (_ ∈ (reg.subs.stateOf sid).subscriptions))

/-- How many times a call selects a session that is stored. -/
def Call.times (reg : Registry) (sid : SessionId) : Call → Nat
  | .sendTo x _ _ => if x = sid then 1 else 0
  | .multicast sids _ _ exceptSid => if sid = 0 ∨ sid = exceptSid then 0 else sids.count sid
  | .broadcast sel _ _ exceptSid => if sel.Selects reg sid ∧ sid ≠ exceptSid then 1 else 0

section Times

variable {w : Fin n} {s : Local} {sid : SessionId}

/-- The handles looked up for a list of ids hold a session as often as the list does. -/
theorem countP_filterMap_handle {f : SessionId → Option SessionHandle}
    (hf : ∀ x h, f x = some h → h.id = x) (l : List SessionId) (sid : SessionId) :
    (l.filterMap f).countP (·.id = sid) = if (f sid).isSome then l.count sid else 0 := by
  induction l with
  | nil => simp
  | cons x l ih =>
    rw [List.count_cons]
    cases hx : f x with
    | none =>
      rw [List.filterMap_cons_none hx, ih]
      split
      case isTrue hsome =>
        have hne : x ≠ sid := by
          rintro rfl
          rw [hx] at hsome
          cases hsome
        simp [hne]
      case isFalse => rfl
    | some h =>
      rw [List.filterMap_cons_some hx, List.countP_cons, ih, hf x h hx]
      by_cases heq : x = sid
      · subst heq
        simp [hx]
      · simp [heq]

theorem Good.isSome_tryGetHandle (hs : Good w s) (sid : SessionId) :
    (s.reg.tryGetHandle sid).isSome = (s.reg.find sid).isSome := by
  rw [Registry.tryGetHandle]
  cases hrec : s.reg.find sid with
  | none => rfl
  | some rec => dsimp only; rw [if_pos (hs.owned sid rec hrec).isValid]; rfl

/-- A snapshot over a set of sessions has each stored one once. -/
theorem Good.countP_snapshot (hs : Good w s) {members : List SessionId} (hnodup : members.Nodup)
    (exceptSid sid : SessionId) :
    (members.filterMap (s.reg.pick exceptSid)).countP (·.id = sid) =
      if (s.reg.find sid).isSome then if sid ∈ members ∧ sid ≠ exceptSid then 1 else 0 else 0 := by
  rw [countP_filterMap_handle (fun x h heq => (hs.pick heq).2), Registry.pick, hnodup.count]
  by_cases hex : sid = exceptSid
  · simp [hex]
  · rw [if_neg hex, hs.isSome_tryGetHandle]
    simp [hex]

/-- A snapshot goes over the sessions it is to select. -/
theorem Good.snapshot_eq (hs : Good w s) (sel : Selector) (exceptSid : SessionId) :
    ∃ members : List SessionId, members.Nodup ∧
      sel.snapshot s.reg exceptSid = members.filterMap (s.reg.pick exceptSid) ∧
      ∀ sid, sid ∈ members ↔ sel.Selects s.reg sid := by
  cases sel with
  | all =>
    refine ⟨_, s.reg.store.nodupKeys, rfl, fun sid => ?_⟩
    exact AList.mem_keys.symm.trans AList.lookup_isSome.symm
  | scope w =>
    refine ⟨_, Index.members_nodup _ _, rfl, fun sid => ?_⟩
    rw [hs.consistent.subs.scope, scopeCount, List.countP_pos_iff]
    simp only [decide_eq_true_eq]
    exact Iff.rfl
  | topic w c => exact ⟨_, Index.members_nodup _ _, rfl, fun sid => hs.consistent.subs.topic sid _⟩

theorem Good.countP_selector (hs : Good w s) (sel : Selector) (exceptSid sid : SessionId) :
    (sel.snapshot s.reg exceptSid).countP (·.id = sid) =
      if (s.reg.find sid).isSome then
        if sel.Selects s.reg sid ∧ sid ≠ exceptSid then 1 else 0 else 0 := by
  obtain ⟨members, hnodup, hsnap, hmem⟩ := hs.snapshot_eq sel exceptSid
  rw [hsnap, hs.countP_snapshot hnodup]
  split
  · exact if_congr (and_congr_left' (hmem sid)) rfl rfl
  · rfl

theorem count_bucket {sids : List SessionId} {exceptSid : SessionId}
    (hsid : ownerOf n sid = some w) : (bucket sids exceptSid w).count sid =
      if sid = 0 ∨ sid = exceptSid then 0 else sids.count sid := by
  rw [bucket]
  split
  case isTrue h =>
    refine List.count_eq_zero.2 fun hmem => ?_
    have hkept := (List.mem_filter.1 hmem).2
    rcases h with h | h <;> simp [h] at hkept
  case isFalse h =>
    rw [not_or] at h
    exact List.count_filter (by simp [h.1, h.2, hsid])

/-- A task finds a session as often as its call selects it, if the session is stored. -/
theorem Good.countP_targets (hs : Good w s) {tag : Tag (Fin n)} {i : Issue} {task : Task n}
    (htask : i.partFor tag w = some task) (hsid : ownerOf n sid = some w) :
    (task.targets s).countP (·.id = sid) =
      if (s.reg.find sid).isSome then i.call.times s.reg sid else 0 := by
  rw [Issue.partFor] at htask
  cases hcall : i.call with
  | sendTo x opcode body =>
    simp only [hcall, Option.ite_none_right_eq_some] at htask
    have hlist : (s.reg.tryGetHandle x).toList = [x].filterMap s.reg.tryGetHandle := by
      cases hx : s.reg.tryGetHandle x <;> simp [hx]
    rw [← Option.some.inj htask.2, Task.targets, Call.times, hlist,
      countP_filterMap_handle fun x h heq => (hs.tryGetHandle heq).2, hs.isSome_tryGetHandle,
      List.count_singleton]
    simp only [beq_iff_eq]
  | multicast sids opcode body exceptSid =>
    simp only [hcall, Option.ite_none_left_eq_some] at htask
    rw [← Option.some.inj htask.2, Task.targets, Call.times,
      countP_filterMap_handle fun x h heq => (hs.tryGetHandle heq).2, hs.isSome_tryGetHandle,
      count_bucket hsid]
  | broadcast sel opcode body exceptSid =>
    simp only [hcall] at htask
    rw [← Option.some.inj htask, Task.targets, Call.times]
    exact hs.countP_selector sel exceptSid sid

end Times

/-! ## Every run -/

section Run

variable {tag : Tag (Fin n)} {v : Fin n}

theorem partFor_ne_routed {i : Issue} {task : Task n} (h : i.partFor tag v = some task)
    (g : List SessionHandle) (p : RoutedPacketU16 n) : task ≠ .routed g p := by
  rintro rfl
  rw [Issue.partFor] at h
  cases hcall : i.call <;> simp [hcall] at h

/-- A call with no task for a worker selects none of its sessions. -/
theorem times_eq_zero {i : Issue} {sid : SessionId} (hpart : i.partFor tag v = none)
    (hsid : ownerOf n sid = some v) (reg : Registry) : i.call.times reg sid = 0 := by
  rw [Issue.partFor] at hpart
  cases hcall : i.call with
  | sendTo x opcode body =>
    simp only [hcall, ite_eq_right_iff, reduceCtorEq, imp_false] at hpart
    refine if_neg ?_
    rintro rfl
    exact hpart hsid
  | multicast sids opcode body exceptSid =>
    simp only [hcall, ite_eq_left_iff, reduceCtorEq, imp_false, not_not] at hpart
    rw [Call.times, ← count_bucket hsid, hpart, List.count_nil]
  | broadcast sel opcode body exceptSid => simp [hcall] at hpart

/-- The packet a call sends to a session. -/
def Issue.sent (i : Issue) (tag : Tag (Fin n)) (sid : SessionId) : Sent n :=
  ⟨tag, sid, i.call.opcode, i.passed⟩

theorem sent_partFor {i : Issue} {task : Task n} (h : i.partFor tag v = some task)
    (t : SessionHandle) : task.packet.sent t = i.sent tag t.id := by
  rw [RoutedPacketU16.sent, RoutedPacketU16.view, tag_partFor h, Issue.sent, ← i.copied]

/-- What has become of a call at the worker that owns a session: it has no task there and
does not select the session; its task is waiting and nothing has been sent; or its task was
run once, in a state `s`, and the session is sent what the call selected it for. -/
inductive Fate (c : Workers n) (tag : Tag (Fin n)) (i : Issue) (v : Fin n) (sid : SessionId) :
    Prop where
  | unaddressed (times : ∀ reg, i.call.times reg sid = 0)
      (transit : c.transit (rules n) tag v = []) (evaluated : c.evaluated (rules n) tag v = [])
      (output : c.output (rules n) tag v = [])
  | waiting (task : Task n) (transit : c.transit (rules n) tag v = [task])
      (evaluated : c.evaluated (rules n) tag v = []) (output : c.output (rules n) tag v = [])
  | done (task : Task n) (s : Local) (transit : c.transit (rules n) tag v = [])
      (evaluated : c.evaluated (rules n) tag v = [(task, s)])
      (output : (c.output (rules n) tag v).filter (·.sid = sid) =
        List.replicate (if (s.reg.find sid).isSome then i.call.times s.reg sid else 0)
          (i.sent tag sid))

theorem fate_run (es : List (Event n)) {i : Issue} {sid : SessionId}
    (hi : ((Workers.run es) tag.sender).issued[tag.number]? = some i)
    (hsid : ownerOf n sid = some v) : Fate (Workers.run es) tag i v sid := by
  have hs := sound_run es
  have hparts := partsTo_parts tag i v
  cases hpart : i.partFor tag v with
  | none =>
    rw [hpart] at hparts
    obtain ⟨htransit, heval, hout⟩ := hs.no_part hi hparts
    exact .unaddressed (times_eq_zero hpart hsid) htransit heval hout
  | some task =>
    rw [hpart] at hparts
    rcases hs.one_part hi hparts with ⟨htransit, heval, hout⟩ | ⟨s, hgood, htransit, heval, hout⟩
    · exact .waiting task htransit heval hout
    · refine .done task s htransit heval ?_
      have hmap : (outs v s task).filter (·.sid = sid) =
          ((task.targets s).filter (·.id = sid)).map task.packet.sent := by
        rw [outs, List.filter_map]
        rfl
      rw [hout, hmap, List.eq_replicate_iff, List.length_map, ← List.countP_eq_length_filter,
        hgood.countP_targets hpart hsid]
      refine ⟨rfl, fun out hmem => ?_⟩
      obtain ⟨t, ht, rfl⟩ := List.mem_map.1 hmem
      rw [sent_partFor hpart, of_decide_eq_true (List.mem_filter.1 ht).2]

/-- A packet is handed out by the owner of its session, for a call that was made. -/
theorem handed_run (es : List (Event n)) (v : Fin n) {out : Sent n}
    (hout : out ∈ ((Workers.run es) v).handed) :
    ownerOf n out.sid = some v ∧ out.tag.number < (callsOf out.tag.sender es).length := by
  have hs := sound_run es
  have hknown : out.tag.number < _ := hs.known_hands v out (List.mem_append_left _ hout)
  obtain ⟨i, hi⟩ : ∃ i, ((Workers.run es) out.tag.sender).issued[out.tag.number]? = some i :=
    ⟨_, List.getElem?_eq_getElem hknown⟩
  refine ⟨?_, by rwa [← call_issued, List.length_map]⟩
  have hmem : out ∈ (Workers.run es).output (rules n) out.tag v :=
    List.mem_filter.2 ⟨List.mem_append_left _ hout, decide_eq_true rfl⟩
  have hparts := partsTo_parts out.tag i v
  cases hpart : i.partFor out.tag v with
  | none =>
    rw [hpart] at hparts
    rw [(hs.no_part hi hparts).2.2] at hmem
    cases hmem
  | some task =>
    rw [hpart] at hparts
    rcases hs.one_part hi hparts with ⟨-, -, hnil⟩ | ⟨s, hgood, -, -, heq⟩
    · rw [hnil] at hmem
      cases hmem
    · rw [heq] at hmem
      obtain ⟨t, ht, rfl⟩ := List.mem_map.1 hmem
      exact workerOf_eq_some.2 (hgood.targets_owned task (partFor_ne_routed hpart) t ht).2.2

theorem ordered_before {a : Fin n} {k m : Nat} (hk : k < m) (es : List (Event n))
    (h : (callsOf a es).length ≤ m) : Relay.Ordered (rules n) a k m (Workers.run es) := by
  induction es using List.reverseRecOn with
  | nil => exact Relay.ordered_init _ a hk
  | append_singleton es e ih =>
    rw [callsOf, List.filterMap_append, List.length_append] at h
    rw [Workers.run, List.foldl_append]
    refine (ih (Nat.le_of_add_right_le h)).step rules_direct (sound_run es) e.toRelay ?_
    intro make he hlen
    rw [← List.length_map Issue.call, call_issued] at hlen
    cases e with
    | call w call =>
      cases he
      rw [← callsOf, hlen] at h
      simp at h
    | registry | write | proceed | drainTask => cases he

/-- A call keeps its place behind an earlier one that its worker is done with. -/
theorem ordered_run {a : Fin n} {k : Nat} (call : Call) (before after : List (Event n))
    (hk : k < (callsOf a before).length)
    (hfree : ∀ x ∈ ((Workers.run before) a).todo, (rules n).actionTag x ≠ ⟨a, k⟩) :
    Relay.Ordered (rules n) a k (callsOf a before).length
      (Workers.run (before ++ .call a call :: after)) := by
  have hnext := (ordered_before hk before (Nat.le_refl _)).step rules_direct (sound_run before)
    (Event.call a call).toRelay fun _ _ _ => hfree
  have hissued : (callsOf a before).length <
      ((Workers.step (Workers.run before) (.call a call)) a).issued.length := by
    rw [Workers.step, Relay.issued_step, ← call_issued]
    simp [Event.toRelay, Relay.Event.issuedAt]
  rw [Workers.run, List.foldl_append, List.foldl_cons, ← Workers.run]
  refine (Reentrant.foldl_invariant (I := fun c => Relay.Sound (rules n) Good outs [] c ∧
      (callsOf a before).length < (c a).issued.length ∧ Relay.Ordered (rules n) a k _ c) ?_ _
    ⟨(sound_run before).step rules_direct (Event.call a call).proper, hissued, hnext⟩ after).2.2
  rintro c e ⟨hs, hm, ho⟩
  refine ⟨hs.step rules_direct e.proper, ?_, ho.step rules_direct hs _ fun _ _ heq => ?_⟩
  · rw [Workers.step, Relay.issued_step, List.length_append]
    exact Nat.lt_add_right _ hm
  · exact absurd heq hm.ne'

/-- The workers go on with what they have to do. -/
def Event.IsWork : Event n → Prop
  | .call _ _ => False
  | .registry _ _ _ => False
  | .write _ _ => False
  | .proceed _ => True
  | .drainTask _ => True

theorem exists_work (es : List (Relay.Event (Fin n) Local Issue)) (h : ∀ e ∈ es, e.IsWork) :
    ∃ work : List (Event n), (∀ e ∈ work, e.IsWork) ∧ work.map Event.toRelay = es := by
  induction es with
  | nil => exact ⟨[], List.forall_mem_nil _, rfl⟩
  | cons e es ih =>
    obtain ⟨he, hes⟩ := List.forall_mem_cons.1 h
    obtain ⟨work, hwork, rfl⟩ := ih hes
    cases e with
    | issue w make | change w f => exact he.elim
    | act w => exact ⟨.proceed w :: work, List.forall_mem_cons.2 ⟨trivial, hwork⟩, rfl⟩
    | next w => exact ⟨.drainTask w :: work, List.forall_mem_cons.2 ⟨trivial, hwork⟩, rfl⟩

/-- Going on with their work the workers come to rest. -/
theorem comes_to_rest (es : List (Event n)) : ∃ work : List (Event n),
    (∀ e ∈ work, e.IsWork) ∧ (Workers.run (es ++ work)).Quiet := by
  obtain ⟨rs, hrs, hquiet⟩ := (sound_run es).exists_quiet rules_direct
  obtain ⟨work, hwork, rfl⟩ := exists_work rs hrs
  refine ⟨work, hwork, ?_⟩
  rw [Workers.run, List.foldl_append]
  rwa [Stations.run, List.foldl_map] at hquiet

/-- Every call a worker makes is run once by each worker it has a task for, in every run, and a
session is sent the packet as often as the call selects it there, if the registry has it then:
under the opcode and with the bytes passed, by the owner only.  At rest nothing is left to be sent.
Packets of a call are sent after those of every earlier call of the same worker, except for one
that the worker was still busy with when the call was made. -/
theorem sent_once_in_order (es : List (Event n)) :
    (∀ a call before after, es = before ++ .call a call :: after →
      (∀ v sid, ownerOf n sid = some v →
        Fate (Workers.run es) (tagOf a before) (issueOf a call before) v sid) ∧
      ∀ k < (callsOf a before).length,
        (∀ x ∈ ((Workers.run before) a).todo, (rules n).actionTag x ≠ ⟨a, k⟩) →
        ∀ v, ((Workers.run es) v).handed.Pairwise fun x y =>
          x.tag = tagOf a before → y.tag ≠ ⟨a, k⟩) ∧
    (∀ v, ∀ out ∈ ((Workers.run es) v).handed, ownerOf n out.sid = some v ∧
      out.tag.number < (callsOf out.tag.sender es).length) ∧
    (∃ work : List (Event n), (∀ e ∈ work, e.IsWork) ∧ (Workers.run (es ++ work)).Quiet) ∧
    ((Workers.run es).Quiet → ∀ tag v, (Workers.run es).transit (rules n) tag v = [] ∧
      (Workers.run es).output (rules n) tag v =
        ((Workers.run es) v).handed.filter (·.tag = tag)) := by
  refine ⟨?_, fun v out hout => handed_run es v hout, comes_to_rest es,
    fun hq tag v => ⟨hq.transit tag v, hq.output tag v⟩⟩
  rintro a call before after rfl
  refine ⟨fun v sid hsid => fate_run _ (issued_call a call before after) hsid, ?_⟩
  intro k hk hfree v
  exact List.pairwise_map.1 ((ordered_run call before after hk hfree).handed v)

/-- Each of two workers has a session.  The first broadcasts, and then sends to the session of the
second. -/
def sendAfterBroadcast : List (Event 2) :=
  [.registry 0 (.add ⟨1, 0⟩ 0 0) (show SessionHandle.OwnedBy 0 ⟨1, 0⟩ by decide),
    .registry 1 (.add ⟨0x100000001, 1⟩ 0 0)
      (show SessionHandle.OwnedBy 1 ⟨0x100000001, 1⟩ by decide),
    .call 0 (.broadcast .all 7 ⟨none, 0⟩ 0), .proceed 0, .proceed 0, .proceed 0,
    .call 0 (.sendTo 0x100000001 8 ⟨none, 0⟩), .proceed 0, .drainTask 1, .proceed 1, .drainTask 1,
    .proceed 1]

/-- The packet that is sent comes behind the one of the broadcast. -/
theorem sent_once_in_order_after_broadcast :
    let c := Workers.run sendAfterBroadcast
    (c 1).handed.map Sent.opcode = [7, 8] ∧
      (c 1).handed.Pairwise (fun x y => x.tag = ⟨0, 1⟩ → y.tag ≠ ⟨0, 0⟩) ∧
      Fate c ⟨0, 1⟩ (issueOf 0 (.sendTo 0x100000001 8 ⟨none, 0⟩) (sendAfterBroadcast.take 6)) 1
        0x100000001 := by
  obtain ⟨hfate, horder⟩ := (sent_once_in_order sendAfterBroadcast).1 0 _
    (sendAfterBroadcast.take 6) (sendAfterBroadcast.drop 7) rfl
  exact ⟨by decide +kernel, horder 0 (by decide) (by decide +kernel) 1, hfate 1 _ (by decide)⟩

/-- Sessions 1 and 2 on one worker.  A broadcast hands its packet to session 2, which ends
on it; the hook of its end sends session 1 a packet, which is handed out before the
broadcast goes on. -/
def sendOnEnd : List (Event 1) :=
  [.registry 0 (.add ⟨1, 0⟩ 0 0) (show SessionHandle.OwnedBy 0 ⟨1, 0⟩ by decide),
    .registry 0 (.add ⟨2, 0⟩ 0 0) (show SessionHandle.OwnedBy 0 ⟨2, 0⟩ by decide),
    .call 0 (.broadcast .all 7 ⟨none, 0⟩ 0), .proceed 0, .proceed 0,
    .registry 0 (.remove 2) trivial, .call 0 (.sendTo 1 8 ⟨none, 0⟩), .proceed 0, .proceed 0,
    .proceed 0]

/-- Session 1 is handed the packet of call 1 before that of call 0. -/
theorem sendOnEnd_overtakes : (((Workers.run sendOnEnd) 0).handed.filter
    fun out => out.tag.sender = 0 ∧ out.sid = 1) = [⟨⟨0, 1⟩, 1, 8, []⟩, ⟨⟨0, 0⟩, 1, 7, []⟩] := by
  decide +kernel

theorem count_snapshot {s : Local} (hs : Good v s) (sel : Selector) (exceptSid sid : SessionId) :
    ((sel.snapshot s.reg exceptSid).map SessionHandle.id).count sid =
      if (s.reg.find sid).isSome ∧ sel.Selects s.reg sid ∧ sid ≠ exceptSid then 1 else 0 := by
  have hcount := hs.countP_selector sel exceptSid sid
  rw [List.count, List.countP_map]
  refine Eq.trans (List.countP_congr fun h _ => ?_) (hcount.trans ?_)
  · simp
  · by_cases hstored : (s.reg.find sid).isSome
    · simp [hstored]
    · simp [hstored]

/-- Every worker runs its part of a broadcast once, and then sends the packet to just the
sessions that its registry has and that are selected at that moment, but for the excepted
one; once to each. -/
theorem broadcast_reaches_members (es : List (Event n)) :
    (∀ a sel opcode body exceptSid before after,
      es = before ++ .call a (.broadcast sel opcode body exceptSid) :: after →
      let tag := tagOf a before
      ∀ v, ((Workers.run es).transit (rules n) tag v).length +
          ((Workers.run es).evaluated (rules n) tag v).length = 1 ∧
        ((Workers.run es).evaluated (rules n) tag v = [] →
          (Workers.run es).output (rules n) tag v = []) ∧
        ∀ e ∈ (Workers.run es).evaluated (rules n) tag v,
          (((Workers.run es).output (rules n) tag v).map Sent.sid).Nodup ∧
          (∀ sid, sid ∈ ((Workers.run es).output (rules n) tag v).map Sent.sid ↔
            (e.2.reg.find sid).isSome ∧ sel.Selects e.2.reg sid ∧ sid ≠ exceptSid) ∧
          ∀ out ∈ (Workers.run es).output (rules n) tag v,
            out = (issueOf a (.broadcast sel opcode body exceptSid) before).sent tag out.sid) ∧
    (∃ work : List (Event n), (∀ e ∈ work, e.IsWork) ∧ (Workers.run (es ++ work)).Quiet) ∧
    ((Workers.run es).Quiet → ∀ tag v, (Workers.run es).transit (rules n) tag v = [] ∧
      (Workers.run es).output (rules n) tag v =
        ((Workers.run es) v).handed.filter (·.tag = tag)) := by
  refine ⟨?_, comes_to_rest es, fun hq tag v => ⟨hq.transit tag v, hq.output tag v⟩⟩
  rintro a sel opcode body exceptSid before after rfl tag v
  have hi : ((Workers.run _) tag.sender).issued[tag.number]? = some _ :=
    issued_call a (.broadcast sel opcode body exceptSid) before after
  generalize hissue : issueOf a (.broadcast sel opcode body exceptSid) before = i at hi ⊢
  have hcall : i.call = .broadcast sel opcode body exceptSid := hissue ▸ rfl
  have hpart : i.partFor tag v = some (.broadcast sel exceptSid ⟨opcode, i.payload, tag⟩) := by
    rw [Issue.partFor, hcall]
    rfl
  have hparts := partsTo_parts tag i v
  rw [hpart] at hparts
  rcases (sound_run _).one_part hi hparts with
    ⟨htransit, heval, hout⟩ | ⟨s, hgood, htransit, heval, hout⟩
  · rw [htransit, heval, hout]
    exact ⟨rfl, fun _ => rfl, List.forall_mem_nil _⟩
  · rw [htransit, heval, hout]
    refine ⟨rfl, fun hnil => absurd hnil (List.cons_ne_nil _ _), fun e he => ?_⟩
    rw [List.mem_singleton.1 he]
    have hsids : (outs v s (.broadcast sel exceptSid ⟨opcode, i.payload, tag⟩)).map Sent.sid =
        (sel.snapshot s.reg exceptSid).map SessionHandle.id := by
      rw [outs, List.map_map]
      rfl
    rw [hsids]
    refine ⟨List.nodup_iff_count_le_one.2 fun sid => ?_, fun sid => ?_, fun out hmem => ?_⟩
    · rw [count_snapshot hgood]
      split <;> simp
    · rw [← List.count_pos_iff, count_snapshot hgood]
      split
      case isTrue h => exact ⟨fun _ => h, fun _ => Nat.one_pos⟩
      case isFalse h => exact ⟨fun h0 => absurd h0 (Nat.lt_irrefl 0), fun h' => absurd h' h⟩
    · obtain ⟨t, -, rfl⟩ := List.mem_map.1 hmem
      exact sent_partFor hpart t

theorem broadcast_reaches_members_two_workers :
    let c := Workers.run sendAfterBroadcast
    (c.output (rules 2) ⟨0, 0⟩ 1).map Sent.sid = [0x100000001] ∧
      (c.evaluated (rules 2) ⟨0, 0⟩ 1).length = 1 ∧
      ∀ e ∈ c.evaluated (rules 2) ⟨0, 0⟩ 1, ∀ sid,
        sid ∈ (c.output (rules 2) ⟨0, 0⟩ 1).map Sent.sid ↔
          (e.2.reg.find sid).isSome ∧ Selector.all.Selects e.2.reg sid ∧ sid ≠ 0 := by
  obtain ⟨-, -, hmembers⟩ := (broadcast_reaches_members sendAfterBroadcast).1 0 _ _ _ _
    (sendAfterBroadcast.take 2) (sendAfterBroadcast.drop 3) rfl 1
  exact ⟨by decide +kernel, by decide +kernel, fun e he => (hmembers e he).2.1⟩

end Run

end HyperNet.App
