import HyperNet.Lib.Ledger
import HyperNet.Lib.Reentrant
import Mathlib.Data.List.Induction

/-!
# Requests to connectors

The request half of `ConnectorManager`
(`engine/src/hypernet/connector/ConnectorManager.cpp`): a request is filed in
`pending_`, handed to a connector, tried again once if that was asked for and the
first attempt times out, and ends in a call of its callback.

The manager leaves its own code at two places, `IConnector::send` and the callback of
a request, and whatever happens there may come back to it: a connector may complete
the request inside `send`, a callback may send the next request.  So every function
takes `app`, what is done at these places.  `Call` lists the ways into the manager,
and a run is a `Script` of them.  Both places are the last thing a function does
(`RepliesLast`), so each run is the sequence of its calls, and the states in which
control changes hands are those between two of them (`run_eq_after`).

Timers fire in any order.  A request is known by the number of its call of
`sendAsync`, since its id may come round again; that number, and the last three
fields of `Manager`, are history.

Requests are answered once (`Ledger.Once`) exactly as long as two things do not
happen.  A connector must not complete an attempt that has been superseded:
`onComplete_` takes the request off `pending_` before it looks at the attempt, and
then does not call the callback.  And `nextRequestId_` must not come round to a
request still pending.
-/

namespace HyperNet.Connector

open Reentrant

/-! ## State -/

abbrev RequestId := UInt64

structure SendOptions where
  timeoutMs : UInt32 := 3000
  retryOnce : Bool := false
deriving DecidableEq, Repr

structure Response where
  ok : Bool := false
  payload : List UInt8 := []
deriving DecidableEq, Repr

/-- `Response::fail`, which does not keep the reason. -/
def Response.fail (_reason : String) : Response := { ok := false }

/-- The arguments of `sendAsync`; the callbacks are of any type. -/
structure Request (κ : Type) where
  name : String
  opt : SendOptions := {}
  request : List UInt8 := []
  cb : Option κ

structure Pending (κ : Type) where
  connectorName : String
  opt : SendOptions
  request : List UInt8
  cb : Option κ
  attempt : Int := 0
  timeoutResolved : Nat := 0
  /-- The number of the request. -/
  serial : Nat

/-- An armed `onTimeout_`. -/
structure Timer where
  id : RequestId
  attempt : Int
  timeout : Nat
deriving DecidableEq, Repr

/-- The calls into the manager. -/
inductive Call (κ : Type) where
  | add (name : String)
  | sendAsync (inOwnerThread : Bool) (q : Request κ)
  /-- The loop runs the next posted `sendAsync`. -/
  | runTask
  /-- A connector calls its completion hook. -/
  | complete (id : RequestId) (attempt : Int) (r : Response)
  /-- One of the armed timers fires. -/
  | timeout (i : Nat)

/-- The calls the manager makes. -/
inductive Out (κ : Type) where
  | send (name : String) (id : RequestId) (attempt : Int) (opt : SendOptions) (data : List UInt8)
  | callback (cb : κ) (r : Response)

structure Manager (κ : Type) where
  /-- The names in `connectors_`. -/
  connectors : List String := []
  pending : RequestId → Option (Pending κ) := fun _ => none
  defaultTimeout : Nat := 3000
  nextRequestId : RequestId := 1
  timers : List Timer := []
  posted : List (Request κ) := []
  /-- The callbacks of the requests `sendAsync` took, in order. -/
  requests : List (Option κ) := []
  /-- The callbacks called, with the number of their request. -/
  invoked : List (Nat × κ × Response) := []
  /-- The calls into the manager. -/
  calls : List (Call κ) := []

variable {κ : Type}

namespace Manager

/-! ## The manager -/

/-- `add`, for a connector that is not null. -/
def add (w : Manager κ) (name : String) : Manager κ × Bool :=
  if name = "" then (w, false)
  else if name ∈ w.connectors then (w, false)
  else ({ w with connectors := w.connectors ++ [name] }, true)

/-- `find_`. -/
def find (w : Manager κ) (name : String) : Option String := w.connectors.find? (· = name)

/-- `resolveTimeout_`. -/
def resolveTimeout (w : Manager κ) (opt : SendOptions) : Nat :=
  if opt.timeoutMs ≤ 0 then w.defaultTimeout else opt.timeoutMs.toNat

/-- `pending_.erase`. -/
def erase (w : Manager κ) (id : RequestId) : Manager κ :=
  { w with pending := fun id' => if id' = id then none else w.pending id' }

/-- An entry of `pending_` is written. -/
def assign (w : Manager κ) (id : RequestId) (p : Pending κ) : Manager κ :=
  { w with pending := fun id' => if id' = id then some p else w.pending id' }

/-- `pending_.emplace`, which does not replace an entry. -/
def emplace (w : Manager κ) (id : RequestId) (p : Pending κ) : Manager κ :=
  if (w.pending id).isSome then w else w.assign id p

def addTimer (w : Manager κ) (t : Timer) : Manager κ := { w with timers := w.timers ++ [t] }

/-- A callback is called, if it is not null. -/
def invoke (app : Out κ → Manager κ → Manager κ) (w : Manager κ) (serial : Nat) (cb : Option κ)
    (r : Response) : Manager κ :=
  match cb with
  | none => w
  | some cb => app (.callback cb r) { w with invoked := w.invoked ++ [(serial, cb, r)] }

/-- `onComplete_`. -/
def onComplete (app : Out κ → Manager κ → Manager κ) (w : Manager κ) (id : RequestId)
    (attempt : Int) (r : Response) : Manager κ :=
  match w.pending id with
  | none => w
  | some p =>
    let w := w.erase id
    if attempt ≠ p.attempt then w else invoke app w p.serial p.cb r

/-- `startAttempt_`. -/
def startAttempt (app : Out κ → Manager κ → Manager κ) (w : Manager κ) (id : RequestId) :
    Manager κ :=
  match w.pending id with
  | none => w
  | some p =>
    match w.find p.connectorName with
    | none => onComplete app w id p.attempt (.fail "unknown_connector")
    | some c =>
      app (.send c id p.attempt p.opt p.request) (w.addTimer ⟨id, p.attempt, p.timeoutResolved⟩)

/-- `onTimeout_`. -/
def onTimeout (app : Out κ → Manager κ → Manager κ) (w : Manager κ) (id : RequestId)
    (expectedAttempt : Int) : Manager κ :=
  match w.pending id with
  | none => w
  | some p =>
    if p.attempt ≠ expectedAttempt then w
    else if p.opt.retryOnce = true ∧ p.attempt = 0 then
      startAttempt app (w.assign id { p with attempt := 1 }) id
    else onComplete app w id p.attempt (.fail "timeout")

/-- The entry `sendAsync` files. -/
def newPending (w : Manager κ) (q : Request κ) : Pending κ where
  connectorName := q.name
  opt := q.opt
  request := q.request
  cb := q.cb
  attempt := 0
  timeoutResolved := w.resolveTimeout q.opt
  serial := w.requests.length

/-- `sendAsync` in the owner thread. -/
def send (app : Out κ → Manager κ → Manager κ) (w : Manager κ) (q : Request κ) : Manager κ :=
  let asked := { w with requests := w.requests ++ [q.cb] }
  match w.find q.name with
  | none => invoke app asked w.requests.length q.cb (.fail "unknown_connector")
  | some _ =>
    let id := w.nextRequestId
    let numbered := { asked with nextRequestId := id + 1 }
    startAttempt app (numbered.emplace id (w.newPending q)) id

/-- `sendAsync`; another thread posts the call to the owner. -/
def sendAsync (app : Out κ → Manager κ → Manager κ) (w : Manager κ) (inOwnerThread : Bool)
    (q : Request κ) : Manager κ :=
  if inOwnerThread then send app w q else { w with posted := w.posted ++ [q] }

/-- The loop runs the next posted call. -/
def runTask (app : Out κ → Manager κ → Manager κ) (w : Manager κ) : Manager κ :=
  match w.posted with
  | [] => w
  | q :: posted => sendAsync app { w with posted } true q

/-- The `i`-th armed timer fires. -/
def fire (app : Out κ → Manager κ → Manager κ) (w : Manager κ) (i : Nat) : Manager κ :=
  match w.timers[i]? with
  | none => w
  | some t => onTimeout app { w with timers := w.timers.eraseIdx i } t.id t.attempt

/-- What a call does, … -/
def exec (c : Call κ) (app : Out κ → Manager κ → Manager κ) (w : Manager κ) : Manager κ :=
  match c with
  | .add name => (w.add name).1
  | .sendAsync inOwnerThread q => sendAsync app w inOwnerThread q
  | .runTask => runTask app w
  | .complete id attempt r => onComplete app w id attempt r
  | .timeout i => fire app w i

/-- … with the record of the call. -/
def step (c : Call κ) (app : Out κ → Manager κ → Manager κ) (w : Manager κ) : Manager κ :=
  exec c app { w with calls := w.calls ++ [c] }

/-- A run of a new manager. -/
def run (script : Script (Call κ) (Out κ) (Manager κ)) : Manager κ := script.run step {}

/-- The state after a sequence of calls. -/
def after (calls : List (Call κ)) : Manager κ := inSequence step calls {}

/-- The requests as a ledger. -/
def ledger (w : Manager κ) : Ledger RequestId κ Response where
  requests := w.requests
  table id := (w.pending id).map fun p => (p.serial, p.cb)
  answers := w.invoked

/-! ## Every function calls back once at most, and last -/

/-- There is no callback, or one that is the last thing done; so at most one answer is added to
those given before. -/
structure RepliesLast (past : List (Nat × κ × Response))
    (f : (Out κ → Manager κ → Manager κ) → Manager κ) : Prop where
  last : CallsBackLast f
  answers : ∃ a : Option (Nat × κ × Response), (f passive).invoked = past ++ a.toList

section

variable (w : Manager κ)

theorem RepliesLast.quiet : RepliesLast w.invoked fun _ => w :=
  ⟨.inl fun _ => rfl, none, (List.append_nil _).symm⟩

theorem invoke_last (serial : Nat) (cb : Option κ) (r : Response) :
    RepliesLast w.invoked fun app => invoke app w serial cb r := by
  cases cb with
  | none => exact .quiet w
  | some cb => exact ⟨.inr ⟨.callback cb r, fun _ => rfl⟩, some (serial, cb, r), rfl⟩

theorem onComplete_last (id : RequestId) (attempt : Int) (r : Response) :
    RepliesLast w.invoked fun app => onComplete app w id attempt r := by
  unfold onComplete
  split
  · exact .quiet w
  · split
    · exact .quiet (w.erase id)
    · exact invoke_last (w.erase id) _ _ r

theorem startAttempt_last (id : RequestId) :
    RepliesLast w.invoked fun app => startAttempt app w id := by
  unfold startAttempt
  split
  · exact .quiet w
  · split
    · exact onComplete_last w id _ _
    · exact ⟨.inr ⟨_, fun _ => rfl⟩, none, (List.append_nil _).symm⟩

theorem onTimeout_last (id : RequestId) (expectedAttempt : Int) :
    RepliesLast w.invoked fun app => onTimeout app w id expectedAttempt := by
  unfold onTimeout
  split
  · exact .quiet w
  · split
    · exact .quiet w
    · split
      · exact startAttempt_last (w.assign id _) id
      · exact onComplete_last w id _ _

theorem invoked_emplace (id : RequestId) (p : Pending κ) :
    (w.emplace id p).invoked = w.invoked := by
  unfold emplace
  split
  · rfl
  · rfl

theorem send_last (q : Request κ) : RepliesLast w.invoked fun app => send app w q := by
  unfold send
  split
  · exact invoke_last { w with requests := w.requests ++ [q.cb] } _ q.cb _
  · have h := startAttempt_last (emplace { w with requests := w.requests ++ [q.cb]
                                                  nextRequestId := w.nextRequestId + 1 }
      w.nextRequestId (w.newPending q)) w.nextRequestId
    rwa [invoked_emplace] at h

end

theorem exec_last (c : Call κ) (w : Manager κ) :
    RepliesLast w.invoked fun app => exec c app w := by
  cases c with
  | add name =>
    refine ⟨.inl fun _ => rfl, none, Eq.trans ?_ (List.append_nil _).symm⟩
    change (w.add name).1.invoked = _
    unfold add
    split
    · rfl
    · split
      · rfl
      · rfl
  | sendAsync inOwnerThread q =>
    cases inOwnerThread with
    | true => exact send_last w q
    | false => exact .quiet { w with posted := w.posted ++ [q] }
  | runTask =>
    change RepliesLast w.invoked fun app => runTask app w
    unfold runTask
    split
    · exact .quiet w
    next q posted _ => exact send_last { w with posted } q
  | complete id attempt r => exact onComplete_last w id attempt r
  | timeout i =>
    change RepliesLast w.invoked fun app => fire app w i
    unfold fire
    split
    · exact .quiet w
    next t _ => exact onTimeout_last { w with timers := w.timers.eraseIdx i } t.id _

theorem step_last (c : Call κ) (w : Manager κ) :
    RepliesLast w.invoked fun app => step c app w :=
  exec_last c { w with calls := w.calls ++ [c] }

/-! ## The moves of the ledger -/

theorem ledger_erase (w : Manager κ) (id : RequestId) :
    (w.erase id).ledger = w.ledger.strike id := by
  unfold ledger Ledger.strike erase
  congr 1
  funext id'
  exact apply_ite (Option.map _) (id' = id) none (w.pending id')

theorem ledger_assign (w : Manager κ) (id : RequestId) (p : Pending κ) :
    (w.assign id p).ledger = w.ledger.file id p.serial p.cb := by
  unfold ledger Ledger.file assign
  congr 1
  funext id'
  exact apply_ite (Option.map _) (id' = id) (some p) (w.pending id')

variable {w : Manager κ} {id : RequestId} {p : Pending κ}

theorem table_of_pending (h : w.pending id = some p) : w.ledger.table id = some (p.serial, p.cb) :=
  congrArg (Option.map _) h

theorem table_of_none (h : w.pending id = none) : w.ledger.table id = none :=
  congrArg (Option.map _) h

/-- The next attempt of a request leaves the ledger as it is. -/
theorem ledger_assign_attempt (h : w.pending id = some p) (attempt : Int) :
    (w.assign id { p with attempt }).ledger = w.ledger := by
  rw [ledger_assign, Ledger.file]
  congr 1
  funext id'
  split
  · rename_i hid
    rw [hid]
    exact (table_of_pending h).symm
  · rfl

/-- What a function of the manager does, up to its callback: it moves the ledger and
does not touch the record of the calls. -/
structure Moves (lossy : Prop) (w w' : Manager κ) : Prop where
  path : Ledger.Path lossy w.ledger w'.ledger
  calls : w'.calls = w.calls

namespace Moves

variable {lossy : Prop} {u v : Manager κ}

theorem refl (w : Manager κ) : Moves lossy w w := ⟨.refl, rfl⟩

theorem of_move (h : Ledger.Move lossy u.ledger v.ledger) (hcalls : v.calls = u.calls) :
    Moves lossy u v :=
  ⟨.single h, hcalls⟩

theorem trans (h : Moves lossy u v) (h' : Moves lossy v w) : Moves lossy u w :=
  ⟨h.path.trans h'.path, h'.calls.trans h.calls⟩

end Moves

variable {lossy : Prop}

/-- A request off the table is answered, or had no callback. -/
theorem finish_moves (h : w.pending id = some p) (r : Response) :
    Moves lossy w (invoke passive (w.erase id) p.serial p.cb r) := by
  have htable := table_of_pending h
  have herase := ledger_erase w id
  generalize p.cb = cb at htable ⊢
  cases cb with
  | none =>
    refine .of_move ?_ rfl
    change Ledger.Move lossy w.ledger (w.erase id).ledger
    rw [herase]
    exact .strike htable nofun
  | some cb =>
    refine .of_move ?_ rfl
    change Ledger.Move lossy w.ledger ((w.erase id).ledger.answer p.serial cb r)
    rw [herase]
    exact .finish r htable

theorem onComplete_moves (w : Manager κ) (id : RequestId) (attempt : Int) (r : Response)
    (h : ∀ p, w.pending id = some p → p.cb.isSome → attempt ≠ p.attempt → lossy) :
    Moves lossy w (onComplete passive w id attempt r) := by
  unfold onComplete
  split
  · exact .refl w
  · rename_i p hp
    split
    · rename_i hne
      refine .of_move ?_ rfl
      change Ledger.Move lossy w.ledger (w.erase id).ledger
      rw [ledger_erase]
      exact .strike (table_of_pending hp) fun hcb => h p hp hcb hne
    · exact finish_moves hp r

theorem onComplete_current_moves (h : w.pending id = some p) (r : Response) :
    Moves lossy w (onComplete passive w id p.attempt r) := by
  refine onComplete_moves w id p.attempt r fun p' hp' _ hne => absurd ?_ hne
  rw [Option.some.inj (h.symm.trans hp')]

section

variable (w)

theorem startAttempt_moves (id : RequestId) : Moves lossy w (startAttempt passive w id) := by
  unfold startAttempt
  split
  · exact .refl w
  · rename_i p hp
    split
    · exact onComplete_current_moves hp _
    · exact ⟨.refl, rfl⟩

theorem onTimeout_moves (id : RequestId) (expectedAttempt : Int) :
    Moves lossy w (onTimeout passive w id expectedAttempt) := by
  unfold onTimeout
  split
  · exact .refl w
  · rename_i p hp
    split
    · exact .refl w
    · split
      · have hassign : Moves lossy w (w.assign id { p with attempt := 1 }) :=
          ⟨by rw [ledger_assign_attempt hp], rfl⟩
        exact hassign.trans (startAttempt_moves _ id)
      · exact onComplete_current_moves hp _

/-- A new request gets an id that is free, if its callback is to be called. -/
def IdFree (w : Manager κ) (q : Request κ) : Prop :=
  (w.find q.name).isSome → q.cb.isSome → w.pending w.nextRequestId = none

theorem send_moves (q : Request κ) (h : ¬ w.IdFree q → lossy) :
    Moves lossy w (send passive w q) := by
  unfold send
  split
  · cases hcb : q.cb with
    | none => exact .of_move (.ignore none nofun) rfl
    | some cb => exact .of_move (.refuse cb _) rfl
  · rename_i c hfind
    refine .trans ?_ (startAttempt_moves _ _)
    unfold emplace
    split
    · rename_i hsome
      refine .of_move (.ignore q.cb fun hcb => h fun hfree => ?_) rfl
      rw [hfree (by rw [hfind]; rfl) hcb] at hsome
      exact Bool.noConfusion hsome
    · rename_i hnone
      refine .of_move ?_ rfl
      rw [ledger_assign]
      exact .file w.nextRequestId q.cb (table_of_none (Option.not_isSome_iff_eq_none.1 hnone))

theorem runTask_moves (h : ∀ q ∈ w.posted.head?, ¬ w.IdFree q → lossy) :
    Moves lossy w (runTask passive w) := by
  unfold runTask
  split
  · exact .refl w
  · rename_i q posted hposted
    have hhead : q ∈ w.posted.head? := congrArg List.head? hposted
    have hsend : Moves lossy { w with posted } _ := send_moves _ q (h q hhead)
    exact ⟨hsend.path, hsend.calls⟩

theorem fire_moves (i : Nat) : Moves lossy w (fire passive w i) := by
  unfold fire
  split
  · exact .refl w
  · rename_i t ht
    have htimeout : Moves lossy { w with timers := w.timers.eraseIdx i } _ :=
      onTimeout_moves _ t.id t.attempt
    exact ⟨htimeout.path, htimeout.calls⟩

theorem add_moves (name : String) : Moves lossy w (w.add name).1 := by
  unfold add
  split
  · exact .refl w
  · split
    · exact .refl w
    · exact ⟨.refl, rfl⟩

end

/-- A request that finds its id taken is lost. -/
theorem send_lost (hw : w.ledger.Sound) {q : Request κ} (h : ¬ w.IdFree q) :
    ∃ n cb, (send passive w q).ledger.Lost n cb := by
  unfold IdFree at h
  push Not at h
  obtain ⟨hfind, hcb, htaken⟩ := h
  obtain ⟨c, hfind⟩ := Option.isSome_iff_exists.1 hfind
  obtain ⟨cb, hcb⟩ := Option.isSome_iff_exists.1 hcb
  refine ⟨w.requests.length, cb, ?_⟩
  unfold send
  rw [hfind]
  refine Ledger.Lost.path ?_ (startAttempt_moves _ _ : Moves False _ _).path
  unfold emplace
  rw [if_pos (Option.isSome_iff_ne_none.2 htaken), hcb]
  exact hw.lost_ask cb

theorem runTask_lost (hw : w.ledger.Sound) {q : Request κ} (hq : q ∈ w.posted.head?)
    (h : ¬ w.IdFree q) : ∃ n cb, (runTask passive w).ledger.Lost n cb := by
  unfold runTask
  split
  · rename_i hposted
    rw [hposted] at hq
    exact nomatch hq
  · rename_i q' posted hposted
    rw [hposted] at hq
    obtain rfl := Option.some.inj hq
    exact send_lost (w := { w with posted }) hw h

/-- So is one that is completed with another attempt than its current one. -/
theorem onComplete_lost (hw : w.ledger.Sound) (hp : w.pending id = some p) (hcb : p.cb.isSome)
    {attempt : Int} (hne : attempt ≠ p.attempt) (r : Response) :
    ∃ n cb, (onComplete passive w id attempt r).ledger.Lost n cb := by
  obtain ⟨cb, hcb⟩ := Option.isSome_iff_exists.1 hcb
  refine ⟨p.serial, cb, ?_⟩
  unfold onComplete
  rw [hp]
  dsimp only
  rw [if_pos hne, ledger_erase]
  exact hw.lost_strike (by rw [table_of_pending hp, hcb])

end Manager

/-! ## Runs -/

/-- A call in a state in which it loses no request: a completion is of the current
attempt, and a new request gets an id that is free. -/
def Call.Orderly (w : Manager κ) : Call κ → Prop
  | .add _ => True
  | .sendAsync inOwnerThread q => inOwnerThread = true → w.IdFree q
  | .runTask => ∀ q ∈ w.posted.head?, w.IdFree q
  | .complete id attempt _ =>
    ∀ p, w.pending id = some p → p.cb.isSome → attempt = p.attempt
  | .timeout _ => True

namespace Manager

theorem step_moves (w : Manager κ) (c : Call κ) :
    Moves (¬ c.Orderly w) { w with calls := w.calls ++ [c] } (step c passive w) := by
  cases c with
  | add name => exact add_moves _ name
  | sendAsync inOwnerThread q =>
    cases inOwnerThread with
    | true => exact send_moves _ q fun h horderly => h (horderly rfl)
    | false => exact ⟨.refl, rfl⟩
  | runTask => exact runTask_moves _ fun q hq h horderly => h (horderly q hq)
  | complete id attempt r =>
    exact onComplete_moves _ id attempt r fun p hp hcb hne horderly => hne (horderly p hp hcb)
  | timeout i => exact fire_moves _ i

theorem step_lost {w : Manager κ} (hw : w.ledger.Sound) {c : Call κ} (h : ¬ c.Orderly w) :
    ∃ n cb, (step c passive w).ledger.Lost n cb := by
  unfold step
  change Ledger.Sound (ledger { w with calls := w.calls ++ [c] }) at hw
  change ¬ c.Orderly { w with calls := w.calls ++ [c] } at h
  generalize { w with calls := w.calls ++ [c] } = w at hw h ⊢
  cases c with
  | add name => exact absurd trivial h
  | sendAsync inOwnerThread q =>
    cases inOwnerThread with
    | true => exact send_lost hw fun hfree => h fun _ => hfree
    | false => exact absurd nofun h
  | runTask =>
    simp only [Call.Orderly, not_forall] at h
    obtain ⟨q, hq, hfree⟩ := h
    exact runTask_lost hw hq hfree
  | complete id attempt r =>
    simp only [Call.Orderly, not_forall] at h
    obtain ⟨p, hp, hcb, hne⟩ := h
    exact onComplete_lost hw hp hcb hne r
  | timeout i => exact absurd trivial h

theorem after_concat (calls : List (Call κ)) (c : Call κ) :
    after (calls ++ [c]) = step c passive (after calls) :=
  List.foldl_append

theorem sound_after (calls : List (Call κ)) : (after calls).ledger.Sound :=
  foldl_invariant (I := fun w : Manager κ => w.ledger.Sound)
    (fun w c hw => hw.path (step_moves w c).path) {} Ledger.sound_empty calls

theorem calls_after (calls : List (Call κ)) : (after calls).calls = calls := by
  induction calls using List.reverseRecOn with
  | nil => rfl
  | append_singleton calls c ih =>
    rw [after_concat, (step_moves _ c).calls, ih]

/-- A run is the sequence of its calls. -/
theorem run_eq_after (script : Script (Call κ) (Out κ) (Manager κ)) :
    run script = after (run script).calls := by
  obtain ⟨calls, hcalls⟩ := Script.run_eq_inSequence (fun c w => (step_last c w).last) script {}
  have hrun : run script = after calls := hcalls
  rw [hrun, calls_after]

/-- What an orderly call does, the requests of before are still answered once after. -/
theorem once_step {w : Manager κ} (hw : w.ledger.Sound) (honce : w.ledger.Once) {c : Call κ}
    (h : c.Orderly w) : (step c passive w).ledger.Once :=
  hw.once_path honce ((step_moves w c).path.mono fun hn => hn h)

/-- In every run, with re-entrant connectors and callbacks, no callback is called
twice; and every request is pending, or has been answered once, in every state in
which the manager is left, as long as all calls into it are orderly and no longer. -/
theorem once_iff_orderly (script : Script (Call κ) (Out κ) (Manager κ)) :
    (∀ past, past <+: (run script).calls →
      ∀ n, ((after past).ledger.answersTo n).length ≤ 1) ∧
    ((∀ past, past <+: (run script).calls → (after past).ledger.Once) ↔
      ∀ past c, past ++ [c] <+: (run script).calls → c.Orderly (after past)) := by
  refine ⟨fun past _ n => (sound_after past).answersTo_length_le n, ?_, ?_⟩
  · intro honce past c hpast
    by_contra hdisorder
    obtain ⟨n, cb, hlost⟩ := step_lost (sound_after past) hdisorder
    have hsound := sound_after (past ++ [c])
    have hnext := honce (past ++ [c]) hpast
    rw [hsound.once_iff, after_concat] at hnext
    exact hnext n cb hlost
  · intro horderly past hpast
    induction past using List.reverseRecOn with
    | nil => exact fun n cb h => nomatch h
    | append_singleton past c ih =>
      rw [after_concat]
      have honce := ih ((List.prefix_append past [c]).trans hpast)
      exact once_step (sound_after past) honce (horderly past c hpast)

/-- The first attempt times out and is made again; then its answer arrives after all.
The request is gone, and its callback is not called, not even when the second attempt
succeeds. -/
theorem late_answer_loses_request :
    let ok : Response := { ok := true }
    let calls : List (Call String) :=
      [.add "db",
        .sendAsync true { name := "db", opt := { retryOnce := true }, cb := some "reply" },
        .timeout 0, .complete 1 0 ok, .complete 1 1 ok, .timeout 0]
    let w := run (.sequence calls)
    w.requests = [some "reply"] ∧ (∀ id, w.pending id = none) ∧ w.invoked = [] := by
  refine ⟨rfl, fun id => ?_, rfl⟩
  by_cases hid : id = 1
  · subst hid
    rfl
  · change (if id = 1 then none else if id = 1 then _ else if id = 1 then _ else none) = none
    rw [if_neg hid, if_neg hid, if_neg hid]

end Manager

end HyperNet.Connector
