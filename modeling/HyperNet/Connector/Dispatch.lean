import HyperNet.Connector.Requests
import HyperNet.Net.Moves

/-!
# Requests made for a session

`sendAsyncToDispatcher` (`engine/src/hypernet/connector/ConnectorManager.cpp`) sends a request
on behalf of a session.  An answer comes back to that session as a message, through
`SessionManager::dispatchInjected`; a failure, whether of the connector, by timeout or for want
of a connector, calls `SessionManager::closeAllByPolicy`.

Here the connectors of `HyperNet.Connector.Requests` stand next to the worker of
`HyperNet.Net.Worker` they belong to.  The manager of the connectors calls back last
(`Manager.step_last`), so a turn is one call into it followed by the callback it makes, if any
(`invoked_step`), and the callback is a task of the worker.  What the application calls from
there, a failing request of its own included, is part of the reactions `Turn.user`.

`dispatchInjected` closes the session it is about and no other.  The branch for a failure has
the session at hand and closes them all, so other sessions are left alone just when there are
none (`failure_local_iff`).
-/

namespace HyperNet.Connector

open Reentrant

/-! ## Callbacks -/

/-- The callbacks that requests are made with. -/
inductive Completion where
  /-- That of `sendAsyncToDispatcher`. -/
  | dispatch (session : UInt64) (resumeOpcode : UInt16)
  /-- One of the application's own. -/
  | user (react : Response → Net.Client)

/-- `sendAsyncToDispatcher`; another thread posts the call to the owner. -/
def Call.sendAsyncToDispatcher (inOwnerThread : Bool) (name : String) (opt : SendOptions)
    (session : UInt64) (resumeOpcode : UInt16) (request : List UInt8) : Call Completion :=
  .sendAsync inOwnerThread { name, opt, request, cb := some (.dispatch session resumeOpcode) }

/-- The body of a callback; `order` is the order in which `sessions_` is iterated. -/
def Completion.body (order : List UInt64) (user : Net.Callback → Net.World → Net.Client)
    (r : Response) : Completion → Net.Client
  | .dispatch session resumeOpcode =>
    if r.ok = false then
      .call (.closeAllByPolicy (some "connector_failed") 0 order) user fun _ => .done
    else .call (.dispatchInjected session resumeOpcode r.payload) user fun _ => .done
  | .user react => react r

/-- The callback that a call makes, with the number of its request. -/
def Manager.answered {κ : Type} (m : Manager κ) (c : Call κ) : Option (Nat × κ × Response) :=
  (m.step c passive).invoked[m.invoked.length]?

/-! ## A worker and its connectors -/

structure Worker where
  connectors : Manager Completion := {}
  net : Net.World

/-- A call into the connectors, with what the application and the kernel do in the callback. -/
structure Turn where
  call : Call Completion
  order : List UInt64 := []
  user : Net.Callback → Net.World → Net.Client := fun _ _ => .done
  writes : List Net.WriteResult := []
  ctls : List (Option Nat) := []
  now : Nat := 0

/-- The callback as a step of the event loop. -/
def Turn.task (t : Turn) (cb : Completion) (r : Response) : Net.Step where
  input := .task (cb.body t.order t.user r)
  writes := t.writes
  ctls := t.ctls
  now := t.now

def Worker.step (w : Worker) (t : Turn) : Worker where
  connectors := w.connectors.step t.call passive
  net :=
    match w.connectors.answered t.call with
    | none => w.net
    | some (_, cb, r) => Net.step w.net (t.task cb r)

/-- The callbacks called in a turn are the one of `answered`. -/
theorem Manager.invoked_step {κ : Type} (m : Manager κ) (c : Call κ) :
    (m.step c passive).invoked = m.invoked ++ (m.answered c).toList := by
  obtain ⟨a, ha⟩ := (step_last c m).answers
  have hanswered : m.answered c = a := by
    unfold answered
    rw [ha, List.getElem?_append_right (Nat.le_refl _), Nat.sub_self]
    cases a with
    | none => rfl
    | some _ => rfl
  rw [hanswered, ha]

/-! ## Failures -/

/-- A session in use. -/
structure Serving (w : Net.World) (id : UInt64) (o : Nat) : Prop where
  listed : (id, o) ∈ w.sessions
  state : (w.obj o).state = .connected

/-- A session keeps its state, its entry in `sessions_` and its buffers. -/
structure Kept (w w' : Net.World) (id : UInt64) (o : Nat) : Prop where
  listed : (id, o) ∈ w'.sessions
  state : (w'.obj o).state = (w.obj o).state
  recvRing : (w'.obj o).recvRing = (w.obj o).recvRing
  sendRing : (w'.obj o).sendRing = (w.obj o).sendRing

/-- After a failure no session of before is in use. -/
theorem failure_ends {w : Net.World} (hw : w.Bounded) (t : Turn) (session : UInt64)
    (resumeOpcode : UInt16) {r : Response} (hfail : r.ok = false) {id : UInt64} {o : Nat}
    (hlisted : (id, o) ∈ w.sessions) :
    (Net.step w (t.task (.dispatch session resumeOpcode) r)).Ended id o := by
  have hbody : (Completion.dispatch session resumeOpcode).body t.order t.user r =
      .call (.closeAllByPolicy (some "connector_failed") 0 t.order) t.user fun _ => .done :=
    if_pos hfail
  have happ : ∀ c v, Net.Goes none v (respond Net.call t.user c v) := fun c v =>
    Net.client_goes (t.user c v) v
  unfold Net.step Turn.task
  rw [hbody]
  generalize hv : ({ w with writes := _, ctls := _, now := _ } : Net.World) = v
  have hgoes : Net.Goes none w v := hv ▸ .of_same rfl rfl rfl (.refl _)
  have hsessions : v.sessions = w.sessions := hv ▸ rfl
  exact Net.closeAllByPolicy_ended happ ((hgoes hw).bounded hw) (hsessions ▸ hlisted) _ 0 t.order

/-- **Failures are not local.**  A request of `sendAsyncToDispatcher` for a session fails.  All
other sessions of the worker keep their state, their entry and their buffers if and only if
there are none, whatever the application does in the callbacks made on the way. -/
theorem failure_local_iff (m : Manager Completion) {w : Net.World} (hw : w.Bounded) (t : Turn)
    {n : Nat} {session : UInt64} {resumeOpcode : UInt16} {r : Response}
    (hanswered : m.answered t.call = some (n, .dispatch session resumeOpcode, r))
    (hfail : r.ok = false) :
    (∀ id o, Serving w id o → id ≠ session → Kept w (Worker.step ⟨m, w⟩ t).net id o) ↔
      ∀ id o, Serving w id o → id = session := by
  constructor
  · intro hkept id o hserving
    by_contra hne
    have hstep : (Worker.step ⟨m, w⟩ t).net =
        Net.step w (t.task (.dispatch session resumeOpcode) r) := by
      unfold Worker.step
      dsimp only
      rw [hanswered]
    have hother := hkept id o hserving hne
    rw [hstep] at hother
    exact failure_ends hw t session resumeOpcode hfail hserving.listed hother.listed
      (hother.state.trans hserving.state)
  · intro hnone id o hserving hne
    exact absurd (hnone id o hserving) hne

/-- A worker with two sessions and no connector. -/
def sampleWorker : Worker where
  net := Net.run Net.sampleConfig 2 [{ input := .accept 5 true }, { input := .accept 6 true }]

/-- The first session asks a connector that is not there. -/
def sampleTurn : Turn where
  call := .sendAsyncToDispatcher true "db" {} 4294967297 7 []

theorem failure_local_iff_sample :
    (∀ id o, Serving sampleWorker.net id o → id ≠ 4294967297 →
      Kept sampleWorker.net (sampleWorker.step sampleTurn).net id o) ↔
    ∀ id o, Serving sampleWorker.net id o → id = 4294967297 :=
  failure_local_iff {} (Net.resting_run _ _ _).bounded sampleTurn (n := 0)
    (r := .fail "unknown_connector") rfl rfl

/-- The second session, which has nothing to do with the request, is closed with the first. -/
theorem unknown_connector_closes_others :
    sampleWorker.connectors.answered sampleTurn.call =
      some (0, .dispatch 4294967297 7, .fail "unknown_connector") ∧
    sampleWorker.net.sessions = [(4294967297, 0), (4294967298, 1)] ∧
    (sampleWorker.net.obj 1).state = .connected ∧
    (sampleWorker.step sampleTurn).net.sessions = [] ∧
    ((sampleWorker.step sampleTurn).net.obj 1).state = .closed :=
  ⟨rfl, by decide, by decide, by decide, by decide⟩

end HyperNet.Connector
