import HyperNet.Net.Identity
import HyperNet.Net.Timeouts

/-!
# The controllers of a worker

`CompositeController` (`domains/trading/src/trading/controllers/CompositeController.cpp`) passes
`onSessionStart` and `onSessionEnd` on to its children, one after the other;
`WorkerControllerAppBase` (`apps/common/WorkerControllerAppBase.hpp`) passes them to the controller
of the session's worker.  A child may close the session in its start hook, and then
`onSessionEnd` goes through all children while the loop of `onSessionStart` is still on its way.

`controllers_told_iff` says what each child hears of a session over any run: one start, at most
one end, and in this order just if the session was still listed when the child's turn came.

The registry that `runtime_` keeps is no part of the state of a worker here.  The hooks are assumed
to return, and the calls of hooks are written down by the loop that makes them.
-/

namespace HyperNet.Net

open Reentrant

/-! ## The history of hooks -/

/-- A hook of a child is about to be called. -/
def World.noteHook (w : World) (child : Nat) (hook : Hook) (id : UInt64) : World :=
  { w with hookCalls := w.hookCalls ++ [⟨child, hook, id, (w.find id).isSome⟩] }

/-- What a child has been told of a session. -/
def World.calls (w : World) (child : Nat) (id : UInt64) : List HookCall :=
  w.hookCalls.filter fun c => c.child = child ∧ c.id = id

/-- The manager has the session. -/
def World.lists (w : World) (o : Nat) : Bool := w.sessions.any (·.2 = o)

theorem World.lists_congr {v w : World} (h : v.sessions = w.sessions) : v.lists = w.lists := by
  funext o
  rw [World.lists, h, World.lists]

theorem World.calls_congr {v w : World} (h : v.hookCalls = w.hookCalls) : v.calls = w.calls := by
  funext k id
  rw [World.calls, h, World.calls]

/-- Nothing of what is written down about sessions and hooks changes. -/
structure World.SameBook (w w' : World) : Prop where
  cfg : w'.cfg = w.cfg
  created : w'.created = w.created
  sessions : w'.sessions = w.sessions
  localCounter : w'.localCounter = w.localCounter
  arrivals : w'.arrivals = w.arrivals
  hookCalls : w'.hookCalls = w.hookCalls
  id : ∀ o, (w'.obj o).id = (w.obj o).id

namespace World.SameBook

variable {u v w : World}

theorem trans (h : u.SameBook v) (h' : v.SameBook w) : u.SameBook w :=
  ⟨h'.cfg.trans h.cfg, h'.created.trans h.created, h'.sessions.trans h.sessions,
    h'.localCounter.trans h.localCounter, h'.arrivals.trans h.arrivals,
    h'.hookCalls.trans h.hookCalls, fun o => (h'.id o).trans (h.id o)⟩

theorem of_aside (h : w.Aside v) : w.SameBook v where
  __ := h
  id o := by rw [h.obj]

theorem of_sets {o : Nat} (h : w.Sets o v) : w.SameBook v where
  __ := h
  id o' := by
    by_cases heq : o' = o
    · rw [heq, h.own.id]
    · rw [h.others o' heq]

theorem modify {o : Nat} {f : Session → Session} (h : (f (w.obj o)).id = (w.obj o).id) :
    w.SameBook (w.modify o f) := by
  refine ⟨rfl, rfl, rfl, rfl, rfl, rfl, fun o' => ?_⟩
  by_cases heq : o' = o
  · rw [heq, World.modify, World.obj_setObj_self, h]
  · rw [World.modify, World.obj_setObj_ne w heq]

theorem takeDown (w : World) (o : Nat) (reason : String) : w.SameBook (takeDown o reason w) := by
  have htouches := World.Touches.takeDown w o reason
  have hbook : (Net.takeDown o reason w).sessions = w.sessions ∧
      (Net.takeDown o reason w).localCounter = w.localCounter ∧
      (Net.takeDown o reason w).arrivals = w.arrivals ∧
      (Net.takeDown o reason w).hookCalls = w.hookCalls := by
    unfold Net.takeDown
    dsimp only
    split <;> exact ⟨rfl, rfl, rfl, rfl⟩
  obtain ⟨hsessions, hcounter, harrivals, hcalls⟩ := hbook
  refine ⟨htouches.cfg, htouches.created, hsessions, hcounter, harrivals, hcalls, fun o' => ?_⟩
  by_cases heq : o' = o
  · rw [heq, obj_takeDown]
  · rw [htouches.obj o' heq]

theorem armTimerAfter (kind : TimerKind) (o delayMs : Nat) (w : World) :
    w.SameBook (armTimerAfter kind o delayMs w) := by
  rcases armTimerAfter_cases kind o delayMs w with heq | heq
  · rw [heq]
    exact ⟨rfl, rfl, rfl, rfl, rfl, rfl, fun _ => rfl⟩
  · rw [heq]
    exact .trans (v := w.addTimer _) ⟨rfl, rfl, rfl, rfl, rfl, rfl, fun _ => rfl⟩
      (modify (Session.id_setTimerArmed _ _ _))

theorem disarm (w : World) (i : Nat) (timer : Timer) : w.SameBook (w.disarm i timer) :=
  .trans (v := { w with timers := w.timers.eraseIdx i })
    ⟨rfl, rfl, rfl, rfl, rfl, rfl, fun _ => rfl⟩
    (modify (Session.id_setTimerArmed _ _ _))

theorem startTimeouts (o : Nat) (idleTimeoutMs heartbeatIntervalMs : UInt32) (w : World) :
    w.SameBook (startTimeouts o idleTimeoutMs heartbeatIntervalMs w) := by
  rw [startTimeouts_eq]
  exact (trans (modify rfl) (armTimerAfter _ o _ _)).trans (armTimerAfter _ o _ _)

theorem lists (h : w.SameBook v) : v.lists = w.lists := World.lists_congr h.sessions

theorem calls (h : w.SameBook v) : v.calls = w.calls := World.calls_congr h.hookCalls

end World.SameBook

def Hook.callback : Hook → UInt64 → Callback
  | .onSessionStart, id => .onSessionStart id
  | .onSessionEnd, id => .onSessionEnd id

end HyperNet.Net

namespace HyperNet.App

open Net Protocol Reentrant

/-! ## The source -/

/-- Who is called: a child, or a handler that the children have installed. -/
abbrev ChildCall := Option Nat × Callback

/-- What the children do while they are in control. -/
abbrev Children := Script Api ChildCall World

section Source

variable (react : ChildCall → World → World)

/-- The loops over `children_`. -/
def CompositeController.forEach (hook : Hook) (id : UInt64) (children : List Nat) (w : World) :
    World :=
  children.foldl (fun w k => react (some k, hook.callback id) (w.noteHook k hook id)) w

def CompositeController.onSessionStart (children : Nat) (id : UInt64) (w : World) : World :=
  forEach react .onSessionStart id (List.range children) w

def CompositeController.onSessionEnd (children : Nat) (id : UInt64) (w : World) : World :=
  forEach react .onSessionEnd id (List.range children) w

/-- `controllersByWorker_`: for each worker its controller, if any, by the number of its
children. -/
def getController (controllersByWorker : List (Option Nat)) (wid : Int) : Option Nat :=
  if 0 ≤ wid ∧ wid.toNat < controllersByWorker.length then controllersByWorker[wid.toNat]?.join
  else none

variable (controllersByWorker : List (Option Nat))

def WorkerControllerAppBase.onSessionStart (id : UInt64) (w : World) : World :=
  match getController controllersByWorker (ownerWorkerFromId id).toInt with
  | some children => CompositeController.onSessionStart react children id w
  | none => w

def WorkerControllerAppBase.onSessionEnd (id : UInt64) (w : World) : World :=
  match getController controllersByWorker (ownerWorkerFromId id).toInt with
  | some children => CompositeController.onSessionEnd react children id w
  | none => w

/-- The application as the manager sees it. -/
def WorkerControllerAppBase.app : Callback → World → World
  | .onSessionStart id => onSessionStart react controllersByWorker id
  | .onSessionEnd id => onSessionEnd react controllersByWorker id
  | .onMessage id opcode body => react (none, .onMessage id opcode body)
  | .onDialed id => react (none, .onDialed id)

end Source

/-- A call a child makes, during which the application may be called. -/
def callFrom (controllersByWorker : List (Option Nat)) (a : Api)
    (react : ChildCall → World → World) : World → World :=
  call a (WorkerControllerAppBase.app react controllersByWorker)

/-- One step of the event loop; a task is code of the children as well. -/
structure ChildStep where
  input : { input : Input // ∀ client, input ≠ .task client } ⊕ Children
  hooks : ChildCall → World → Children := fun _ _ => .done
  writes : List WriteResult := []
  ctls : List (Option Nat) := []
  now : Nat := 0

def childStep (controllersByWorker : List (Option Nat)) (w : World) (t : ChildStep) : World :=
  let w := { w with writes := t.writes, ctls := t.ctls, now := max w.now t.now }
  match t.input with
  | .inl input => input.1.exec (WorkerControllerAppBase.app
      (respond (callFrom controllersByWorker) t.hooks) controllersByWorker) w
  | .inr task => task.run (callFrom controllersByWorker) w

/-- A worker's run under its controllers. -/
def childRun (controllersByWorker : List (Option Nat)) (cfg : Config) (arrivals : Nat)
    (steps : List ChildStep) : World :=
  steps.foldl (childStep controllersByWorker) { cfg, arrivals }

/-! ## What a child hears -/

/-- The end of a session, if it ended between two moments. -/
def ending (k : Nat) (id : UInt64) (before after : Bool) : List HookCall :=
  if before = true ∧ after = false then [⟨k, .onSessionEnd, id, false⟩] else []

theorem ending_self (k : Nat) (id : UInt64) (listed : Bool) : ending k id listed listed = [] := by
  cases listed <;> rfl

theorem ending_append {k : Nat} {id : UInt64} {p q r : Bool} (hq : q = true → p = true)
    (hr : r = true → q = true) : ending k id p q ++ ending k id q r = ending k id p r := by
  revert hq hr
  cases p <;> cases q <;> cases r <;> first | exact fun _ _ => rfl | (intro hq hr; simp at hq hr)

/-- What a child has heard of a session from its start on: nothing but the start while the session
is listed, and then also its end, in the right order only if it was listed at the start. -/
inductive Heard (k : Nat) (id : UInt64) : Bool → List HookCall → Prop
  | started : Heard k id true [⟨k, .onSessionStart, id, true⟩]
  | ended : Heard k id false [⟨k, .onSessionStart, id, true⟩, ⟨k, .onSessionEnd, id, false⟩]
  | reversed : Heard k id false [⟨k, .onSessionEnd, id, false⟩, ⟨k, .onSessionStart, id, false⟩]

theorem Heard.later {k : Nat} {id : UInt64} {before after : Bool} {calls : List HookCall}
    (h : Heard k id before calls) (hle : after = true → before = true) :
    Heard k id after (calls ++ ending k id before after) := by
  cases h with
  | started =>
    cases after with
    | true => exact .started
    | false => exact .ended
  | ended =>
    cases after with
    | true => cases hle rfl
    | false => exact .ended
  | reversed =>
    cases after with
    | true => cases hle rfl
    | false => exact .reversed

/-- A start that is passed on while the session may end. -/
theorem Heard.of_start {k : Nat} {id : UInt64} {turn after : Bool}
    (hle : after = true → turn = true) :
    Heard k id after (ending k id true turn ++ [⟨k, .onSessionStart, id, turn⟩] ++
      ending k id turn after) := by
  cases turn with
  | true =>
    cases after with
    | true => exact .started
    | false => exact .ended
  | false =>
    cases after with
    | true => cases hle rfl
    | false => exact .reversed

section Tells

variable (controllersByWorker : List (Option Nat)) (n : Nat)

/-- The books of a worker whose controller has `n` children: ids that name it and are given once. -/
structure Booked (w : World) : Prop where
  worker : w.cfg.ownerWorkerId.toNat < 2 ^ 31
  controller : getController controllersByWorker w.cfg.ownerWorkerId.toNat = some n
  positive : 0 < w.localCounter.toNat
  bound : w.localCounter.toNat + w.arrivals ≤ 2 ^ 32
  issued : ∀ o < w.created, ∃ c, 0 < c ∧ c < w.localCounter.toNat ∧
    (w.obj o).id = sessionId w.cfg.ownerWorkerId c
  distinct : ∀ o < w.created, ∀ o' < w.created, (w.obj o).id = (w.obj o').id → o = o'
  entries : ∀ e ∈ w.sessions, e.2 < w.created ∧ (w.obj e.2).id = e.1
  known : ∀ c ∈ w.hookCalls, ∃ o < w.created, (w.obj o).id = c.id

/-- What a child is told of a session that is there already. -/
def Follows (k o : Nat) (w w' : World) : Prop :=
  w'.calls k (w.obj o).id = w.calls k (w.obj o).id ++ ending k (w.obj o).id (w.lists o) (w'.lists o)

/-- What the children are told between two moments, but for the session `x`. -/
structure Tells (x : Option Nat) (w w' : World) : Prop where
  booked : Booked controllersByWorker n w'
  cfg : w'.cfg = w.cfg
  created : w.created ≤ w'.created
  id : ∀ o < w.created, (w'.obj o).id = (w.obj o).id
  lists : ∀ o < w.created, w'.lists o = true → w.lists o = true
  old : ∀ o < w.created, x ≠ some o → ∀ k < n, Follows k o w w'
  new : ∀ o, w.created ≤ o → o < w'.created → x ≠ some o → ∀ k < n,
    Heard k (w'.obj o).id (w'.lists o) (w'.calls k (w'.obj o).id)

/-- From a state whose books are in order the children are told what they should be. -/
def Telling (x : Option Nat) (w w' : World) : Prop :=
  Booked controllersByWorker n w → Tells controllersByWorker n x w w'

variable {controllersByWorker} {n} {x : Option Nat} {u v w : World} {o k : Nat}
  {react : ChildCall → World → World} {id : UInt64}

theorem Follows.refl (k o : Nat) (w : World) : Follows k o w w := by
  rw [Follows, ending_self, List.append_nil]

theorem Follows.trans (h : Follows k o u v) (h' : Follows k o v w)
    (hid : (v.obj o).id = (u.obj o).id) (hlists : v.lists o = true → u.lists o = true)
    (hlists' : w.lists o = true → v.lists o = true) : Follows k o u w := by
  unfold Follows at h h' ⊢
  rw [hid] at h'
  rw [h', h, List.append_assoc, ending_append hlists hlists']

namespace Tells

theorem refl (x : Option Nat) (hw : Booked controllersByWorker n w) :
    Tells controllersByWorker n x w w where
  booked := hw
  cfg := rfl
  created := Nat.le_refl _
  id _ _ := rfl
  lists _ _ h := h
  old o _ _ k _ := .refl k o w
  new _ hle hlt := absurd hlt (Nat.not_lt_of_le hle)

theorem trans (h : Tells controllersByWorker n x u v) (h' : Tells controllersByWorker n x v w) :
    Tells controllersByWorker n x u w where
  booked := h'.booked
  cfg := h'.cfg.trans h.cfg
  created := h.created.trans h'.created
  id o ho := (h'.id o (Nat.lt_of_lt_of_le ho h.created)).trans (h.id o ho)
  lists o ho hlisted := h.lists o ho (h'.lists o (Nat.lt_of_lt_of_le ho h.created) hlisted)
  old o ho hx k hk := by
    have ho' := Nat.lt_of_lt_of_le ho h.created
    exact (h.old o ho hx k hk).trans (h'.old o ho' hx k hk) (h.id o ho) (h.lists o ho)
      (h'.lists o ho')
  new o hle hlt hx k hk := by
    rcases Nat.lt_or_ge o v.created with hlt' | hge
    · have hheard := (h.new o hle hlt' hx k hk).later (h'.lists o hlt')
      have hfollows : w.calls k (v.obj o).id = _ := h'.old o hlt' hx k hk
      rw [h'.id o hlt', hfollows]
      exact hheard
    · exact h'.new o hge hlt hx k hk

theorem of_none (h : Tells controllersByWorker n none v w) : Tells controllersByWorker n x v w where
  __ := h
  old o ho _ := h.old o ho nofun
  new o hle hlt _ := h.new o hle hlt nofun

/-- Nobody is told anything where no session starts or ends. -/
theorem of_unchanged (booked : Booked controllersByWorker n v) (cfg : v.cfg = w.cfg)
    (created : v.created = w.created) (sessions : v.sessions = w.sessions)
    (hookCalls : v.hookCalls = w.hookCalls) (id : ∀ o, (v.obj o).id = (w.obj o).id) :
    Tells controllersByWorker n x w v where
  booked := booked
  cfg := cfg
  created := created.ge
  id o _ := id o
  lists o _ hlisted := World.lists_congr sessions ▸ hlisted
  old o _ _ k _ := by
    rw [Follows, World.calls_congr hookCalls, World.lists_congr sessions, ending_self,
      List.append_nil]
  new o hle hlt := absurd (created ▸ hlt) (Nat.not_lt_of_le hle)

/-- A session that was there need not be left out if its children were told of its end. -/
theorem settle_old (h : Tells controllersByWorker n (some o) v w) (ho : o < v.created)
    (hold : ∀ k < n, Follows k o v w) : Tells controllersByWorker n none v w where
  __ := h
  old o' ho' _ k hk := by
    by_cases heq : o' = o
    · exact heq ▸ hold k hk
    · exact h.old o' ho' (fun hx => heq (Option.some.inj hx).symm) k hk
  new o' hle hlt _ := h.new o' hle hlt fun hx =>
    Nat.not_lt_of_le hle (Option.some.inj hx ▸ ho)

/-- Nor need a new one, if they were told of its start. -/
theorem settle_new (h : Tells controllersByWorker n (some o) v w) (ho : v.created ≤ o)
    (hnew : ∀ k < n, Heard k (w.obj o).id (w.lists o) (w.calls k (w.obj o).id)) :
    Tells controllersByWorker n none v w where
  __ := h
  old o' ho' _ := h.old o' ho' fun hx => Nat.not_lt_of_le ho (Option.some.inj hx ▸ ho')
  new o' hle hlt _ k hk := by
    by_cases heq : o' = o
    · exact heq ▸ hnew k hk
    · exact h.new o' hle hlt (fun hx => heq (Option.some.inj hx).symm) k hk

end Tells

theorem Booked.same (hw : Booked controllersByWorker n w) (h : w.SameBook v) :
    Booked controllersByWorker n v where
  worker := h.cfg ▸ hw.worker
  controller := h.cfg ▸ hw.controller
  positive := h.localCounter ▸ hw.positive
  bound := by
    rw [h.localCounter, h.arrivals]
    exact hw.bound
  issued o ho := by
    rw [h.localCounter, h.id, h.cfg]
    exact hw.issued o (h.created ▸ ho)
  distinct o ho o' ho' heq := by
    rw [h.id, h.id] at heq
    exact hw.distinct o (h.created ▸ ho) o' (h.created ▸ ho') heq
  entries e he := by
    rw [h.created, h.id]
    exact hw.entries e (h.sessions ▸ he)
  known c hc := by
    obtain ⟨o, ho, hid⟩ := hw.known c (h.hookCalls ▸ hc)
    exact ⟨o, h.created ▸ ho, (h.id o).trans hid⟩

namespace Telling

theorem refl (w : World) : Telling controllersByWorker n x w w := fun hw => .refl x hw

theorem trans (h : Telling controllersByWorker n x u v) (h' : Telling controllersByWorker n x v w) :
    Telling controllersByWorker n x u w := fun hu => (h hu).trans (h' (h hu).booked)

theorem of_same (h : w.SameBook v) : Telling controllersByWorker n x w v := fun hw =>
  .of_unchanged (hw.same h) h.cfg h.created h.sessions h.hookCalls h.id

end Telling

/-! ## The loop over the children -/

theorem lists_iff (w : World) (o : Nat) : w.lists o = true ↔ ∃ id, (id, o) ∈ w.sessions := by
  rw [World.lists, List.any_eq_true]
  constructor
  · rintro ⟨⟨id, o'⟩, he, heq⟩
    exact ⟨id, of_decide_eq_true heq ▸ he⟩
  · rintro ⟨id, he⟩
    exact ⟨_, he, decide_eq_true rfl⟩

/-- A session is found by its id just if it is listed. -/
theorem Booked.isSome_find (hw : Booked controllersByWorker n w) (ho : o < w.created) :
    (w.find (w.obj o).id).isSome = w.lists o := by
  rw [Bool.eq_iff_iff, lists_iff]
  constructor
  · intro hfind
    obtain ⟨o', ho'⟩ := Option.isSome_iff_exists.mp hfind
    have hmem := World.mem_of_find ho'
    obtain ⟨hlt, hid⟩ := hw.entries _ hmem
    obtain rfl := hw.distinct o' hlt o ho hid
    exact ⟨_, hmem⟩
  · rintro ⟨id, he⟩
    obtain ⟨-, hid⟩ := hw.entries _ he
    cases hfind : w.find (w.obj o).id with
    | none => exact absurd hid (bne_iff_ne.mp (List.lookup_eq_none_iff.mp hfind _ he))
    | some o' => rfl

theorem calls_noteHook_self (w : World) (k : Nat) (hook : Hook) (id : UInt64) :
    (w.noteHook k hook id).calls k id = w.calls k id ++ [⟨k, hook, id, (w.find id).isSome⟩] := by
  simp [World.calls, World.noteHook]

theorem calls_noteHook_ne (w : World) {k k' : Nat} (hook : Hook) {id id' : UInt64}
    (h : k' ≠ k ∨ id' ≠ id) : (w.noteHook k hook id).calls k' id' = w.calls k' id' := by
  have hother : ¬ (k = k' ∧ id = id') := fun ⟨hk, hid⟩ =>
    h.elim (fun hne => hne hk.symm) fun hne => hne hid.symm
  simp [World.calls, World.noteHook, hother]

/-- Writing down a hook for one session. -/
theorem noteHook_tells (hw : Booked controllersByWorker n w) (ho : o < w.created) (k : Nat)
    (hook : Hook) : Tells controllersByWorker n (some o) w (w.noteHook k hook (w.obj o).id) where
  booked := { hw with
    known := fun c hc => by
      rcases List.mem_append.mp hc with hold | hnew
      · exact hw.known c hold
      · rw [List.mem_singleton.mp hnew]
        exact ⟨o, ho, rfl⟩ }
  cfg := rfl
  created := Nat.le_refl _
  id _ _ := rfl
  lists _ _ h := h
  old o' ho' hx k' _ := by
    have hne : (w.obj o').id ≠ (w.obj o).id := fun heq =>
      hx (congrArg some (hw.distinct o' ho' o ho heq).symm)
    have hlists : (w.noteHook k hook (w.obj o).id).lists o' = w.lists o' := rfl
    rw [Follows, calls_noteHook_ne w hook (.inr hne), hlists, ending_self, List.append_nil]
  new _ hle hlt := absurd hlt (Nat.not_lt_of_le hle)

/-- A child hears a hook at its turn, and of the session's end before or after. -/
def Hears (hook : Hook) (k o : Nat) (w w' : World) : Prop :=
  ∃ turn, (turn = true → w.lists o = true) ∧ (w'.lists o = true → turn = true) ∧
    w'.calls k (w.obj o).id = w.calls k (w.obj o).id ++
      (ending k (w.obj o).id (w.lists o) turn ++ [⟨k, hook, (w.obj o).id, turn⟩] ++
        ending k (w.obj o).id turn (w'.lists o))

theorem Follows.hears {hook : Hook} (h : Follows k o u v) (h' : Hears hook k o v w)
    (hid : (v.obj o).id = (u.obj o).id) (hlists : v.lists o = true → u.lists o = true) :
    Hears hook k o u w := by
  obtain ⟨turn, hturn, hafter, hcalls⟩ := h'
  refine ⟨turn, fun hlisted => hlists (hturn hlisted), hafter, ?_⟩
  unfold Follows at h
  rw [hid] at hcalls
  rw [hcalls, h, List.append_assoc, ← List.append_assoc (ending _ _ _ (v.lists o)),
    ← List.append_assoc (ending _ _ _ (v.lists o)), ending_append hlists hturn]

/-- The turn of a child. -/
theorem Follows.of_note (hw : Booked controllersByWorker n w) (ho : o < w.created) {hook : Hook}
    (h : Follows k o (w.noteHook k hook (w.obj o).id) v)
    (hlists : v.lists o = true → w.lists o = true) : Hears hook k o w v := by
  refine ⟨w.lists o, fun hlisted => hlisted, hlists, ?_⟩
  have hcalls : v.calls k (w.obj o).id = (w.noteHook k hook (w.obj o).id).calls k (w.obj o).id ++
    ending k (w.obj o).id (w.lists o) (v.lists o) := h
  rw [hcalls, calls_noteHook_self, hw.isSome_find ho, ending_self, List.nil_append,
    List.append_assoc]

theorem forEach_tells (hreact : ∀ c w, Telling controllersByWorker n none w (react c w))
    (hook : Hook) {children : List Nat} (hnodup : children.Nodup)
    (hw : Booked controllersByWorker n w) (ho : o < w.created) :
    Tells controllersByWorker n (some o) w
        (CompositeController.forEach react hook (w.obj o).id children w) ∧
      ∀ k < n,
        (k ∉ children →
          Follows k o w (CompositeController.forEach react hook (w.obj o).id children w)) ∧
        (k ∈ children →
          Hears hook k o w (CompositeController.forEach react hook (w.obj o).id children w)) := by
  induction children generalizing w with
  | nil =>
    exact ⟨.refl _ hw, fun k _ => ⟨fun _ => .refl k o w, fun hk => absurd hk List.not_mem_nil⟩⟩
  | cons k₀ rest ih =>
    obtain ⟨hk₀, hrest⟩ := List.nodup_cons.mp hnodup
    have hnote := noteHook_tells hw ho k₀ hook
    have hreacted := hreact (some k₀, hook.callback (w.obj o).id) _ hnote.booked
    have hturn := hnote.trans hreacted.of_none
    have hother : ∀ k < n, k ≠ k₀ → Follows k o w (w.noteHook k₀ hook (w.obj o).id) := by
      intro k _ hne
      have hlists : (w.noteHook k₀ hook (w.obj o).id).lists o = w.lists o := rfl
      rw [Follows, calls_noteHook_ne w hook (.inl hne), hlists, ending_self, List.append_nil]
    have hafter : ∀ k < n, Follows k o (w.noteHook k₀ hook (w.obj o).id) _ :=
      hreacted.old o ho nofun
    have hcons : CompositeController.forEach react hook (w.obj o).id (k₀ :: rest) w =
        CompositeController.forEach react hook (w.obj o).id rest
          (react (some k₀, hook.callback (w.obj o).id) (w.noteHook k₀ hook (w.obj o).id)) := rfl
    have hid : ((w.noteHook k₀ hook (w.obj o).id).obj o).id = (w.obj o).id := rfl
    rw [hcons]
    generalize hw₁ : w.noteHook k₀ hook (w.obj o).id = w₁
      at hnote hother hafter hturn hreacted hid ⊢
    generalize react (some k₀, hook.callback (w.obj o).id) w₁ = w₂ at hafter hturn hreacted ⊢
    have ho₁ := Nat.lt_of_lt_of_le ho hnote.created
    have ho₂ := Nat.lt_of_lt_of_le ho hturn.created
    have hloop := ih hrest hturn.booked ho₂
    rw [hturn.id o ho] at hloop
    obtain ⟨htail, hchildren⟩ := hloop
    generalize CompositeController.forEach react hook (w.obj o).id rest w₂ = w'
      at htail hchildren ⊢
    have htold : ∀ k < n, k ≠ k₀ → Follows k o w w₂ := fun k hk hne =>
      (hother k hk hne).trans (hafter k hk) hid (hnote.lists o ho) (hreacted.lists o ho₁)
    refine ⟨hturn.trans htail, fun k hk => ⟨fun hnot => ?_, fun hmem => ?_⟩⟩
    · obtain ⟨hne, hnot⟩ := not_or.mp fun hor => hnot (List.mem_cons.mpr hor)
      exact (htold k hk hne).trans ((hchildren k hk).1 hnot) (hturn.id o ho) (hturn.lists o ho)
        (htail.lists o ho₂)
    · by_cases heq : k = k₀
      · -- its own turn; the rest of the loop is about others
        subst heq
        have hfollows := (hafter k hk).trans ((hchildren k hk).1 hk₀) (hreacted.id o ho₁)
          (hreacted.lists o ho₁) (htail.lists o ho₂)
        rw [← hw₁] at hfollows
        exact Follows.of_note hw ho hfollows fun hlisted =>
          hturn.lists o ho (htail.lists o ho₂ hlisted)
      · have hrest := (hchildren k hk).2 ((List.mem_cons.mp hmem).resolve_left heq)
        exact (htold k hk heq).hears hrest (hturn.id o ho) (hturn.lists o ho)

/-! ## What a worker does -/

/-- The id of a session names its worker, whose controller is called. -/
theorem Booked.app_eq (hw : Booked controllersByWorker n w) (ho : o < w.created)
    (react : ChildCall → World → World) (hook : Hook) :
    WorkerControllerAppBase.app react controllersByWorker (hook.callback (w.obj o).id) =
      CompositeController.forEach react hook (w.obj o).id (List.range n) := by
  obtain ⟨c, hpos, hc, hid⟩ := hw.issued o ho
  have hbound := hw.bound
  have howner := (sessionId_owner hw.worker hpos (lt_idSpace (by omega))).2
  rw [← hid] at howner
  funext v
  cases hook with
  | onSessionStart =>
    change WorkerControllerAppBase.onSessionStart react controllersByWorker _ v = _
    rw [WorkerControllerAppBase.onSessionStart, howner, hw.controller]
    rfl
  | onSessionEnd =>
    change WorkerControllerAppBase.onSessionEnd react controllersByWorker _ v = _
    rw [WorkerControllerAppBase.onSessionEnd, howner, hw.controller]
    rfl

/-- An entry of `sessions_` goes. -/
theorem lists_erase (hw : Booked controllersByWorker n w) (hlisted : (id, o) ∈ w.sessions)
    (o' : Nat) : (w.erase id).lists o' = (w.lists o' && decide (o' ≠ o)) := by
  obtain ⟨ho, hid⟩ := hw.entries _ hlisted
  rw [Bool.eq_iff_iff, Bool.and_eq_true, decide_eq_true_iff, lists_iff, lists_iff]
  constructor
  · rintro ⟨id', he⟩
    obtain ⟨hmem, hne⟩ := List.mem_filter.mp he
    refine ⟨⟨id', hmem⟩, ?_⟩
    rintro rfl
    exact of_decide_eq_true hne ((hw.entries _ hmem).2.symm.trans hid)
  · rintro ⟨⟨id', hmem⟩, hne⟩
    obtain ⟨ho', hid'⟩ := hw.entries _ hmem
    refine ⟨id', List.mem_filter.mpr ⟨hmem, decide_eq_true fun heq => hne ?_⟩⟩
    exact hw.distinct o' ho' o ho (hid'.trans (heq.trans hid.symm))

/-- All children are told of an end. -/
theorem ends_telling (hreact : ∀ c w, Telling controllersByWorker n none w (react c w))
    (hfind : w.find id = some o) : Telling controllersByWorker n none w
      (WorkerControllerAppBase.app react controllersByWorker (.onSessionEnd (w.obj o).id)
        ((w.erase id).sessionEnded o)) := by
  intro hw
  have hlisted := World.mem_of_find hfind
  obtain ⟨ho, hid⟩ := hw.entries _ hlisted
  have herase : ∀ o', ((w.erase id).sessionEnded o).lists o' =
      (w.lists o' && decide (o' ≠ o)) := lists_erase hw hlisted
  have hfirst : Tells controllersByWorker n (some o) w ((w.erase id).sessionEnded o) := {
    booked := { hw with entries := fun e he => hw.entries e (List.mem_of_mem_filter he) }
    cfg := rfl
    created := Nat.le_refl _
    id := fun _ _ => rfl
    lists := fun o' _ hlists => by
      rw [herase, Bool.and_eq_true] at hlists
      exact hlists.1
    old := fun o' _ hx k _ => by
      have hne : o' ≠ o := fun heq => hx (congrArg some heq.symm)
      rw [Follows, herase, decide_eq_true hne, Bool.and_true, ending_self, List.append_nil]
      rfl
    new := fun _ hle hlt => absurd hlt (Nat.not_lt_of_le hle) }
  have hgone : ((w.erase id).sessionEnded o).lists o = false := by
    rw [herase, decide_eq_false (fun hne => hne rfl), Bool.and_false]
  have hthere : w.lists o = true := (lists_iff w o).mpr ⟨id, hlisted⟩
  have happ : WorkerControllerAppBase.app react controllersByWorker (.onSessionEnd (w.obj o).id) =
      CompositeController.forEach react .onSessionEnd (w.obj o).id (List.range n) :=
    hfirst.booked.app_eq ho react .onSessionEnd
  rw [happ]
  obtain ⟨hloop, hchildren⟩ := forEach_tells hreact .onSessionEnd List.nodup_range hfirst.booked ho
  refine (hfirst.trans hloop).settle_old ho fun k hk => ?_
  obtain ⟨turn, hturn, hafter, hcalls⟩ := (hchildren k hk).2 (List.mem_range.mpr hk)
  rw [hgone] at hturn hcalls
  obtain rfl : turn = false := Bool.eq_false_of_not_eq_true fun h => Bool.false_ne_true (hturn h)
  rw [Follows, hthere]
  generalize CompositeController.forEach react .onSessionEnd _ (List.range n) _ = w'
    at hafter hcalls ⊢
  have hstill : w'.lists o = false :=
    Bool.eq_false_of_not_eq_true fun h => Bool.false_ne_true (hafter h)
  rw [hstill] at hcalls ⊢
  exact hcalls

theorem Booked.nextSessionId_eq (w : World) :
    nextSessionId w = sessionId w.cfg.ownerWorkerId w.localCounter.toNat := by
  rw [nextSessionId, sessionId, UInt64.ofNat_toNat]

/-- The id that is given next is nobody's. -/
theorem Booked.fresh (hw : Booked controllersByWorker n w) (harr : 0 < w.arrivals)
    (ho : o < w.created) : (w.obj o).id ≠ nextSessionId w := by
  obtain ⟨c, hpos, hc, hid⟩ := hw.issued o ho
  have hbound := hw.bound
  rw [hid, Booked.nextSessionId_eq]
  intro heq
  have hsame := sessionId_inj (by omega) (by omega) hpos hw.positive heq
  exact Nat.ne_of_lt hc hsame

theorem Booked.toNat_issued (hw : Booked controllersByWorker n w) (h : w.arrive.issueId.Aside v) :
    v.localCounter.toNat = w.localCounter.toNat + 1 := by
  have hbound := hw.bound
  have hone : (1 : UInt64).toNat = 1 := rfl
  have hissued : v.localCounter = w.localCounter + 1 := h.localCounter
  rw [hissued, UInt64.toNat_add, hone]
  exact Nat.mod_eq_of_lt (by omega)

/-- An id is given, to a session or in vain. -/
theorem issued_telling (harr : 0 < w.arrivals) (h : w.arrive.issueId.Aside v) :
    Telling controllersByWorker n x w v := by
  intro hw
  have hbound := hw.bound
  have hcounter := hw.toNat_issued h
  have harrivals : v.arrivals = w.arrivals - 1 := h.arrivals
  have hobj : v.obj = w.obj := h.obj
  have hcreated : v.created = w.created := h.created
  have hcfg : v.cfg = w.cfg := h.cfg
  have hbooked : Booked controllersByWorker n v := {
    worker := hcfg ▸ hw.worker
    controller := hcfg ▸ hw.controller
    positive := by omega
    bound := by omega
    issued := fun o ho => by
      obtain ⟨c, hpos, hc, hid⟩ := hw.issued o (hcreated ▸ ho)
      rw [hobj, hcfg]
      exact ⟨c, hpos, by omega, hid⟩
    distinct := by
      rw [hobj, hcreated]
      exact hw.distinct
    entries := by
      rw [hobj, hcreated, h.sessions]
      exact hw.entries
    known := by
      rw [hobj, hcreated, h.hookCalls]
      exact hw.known }
  exact .of_unchanged hbooked hcfg hcreated h.sessions h.hookCalls fun o => by rw [hobj]

theorem Booked.find_fresh (hw : Booked controllersByWorker n w)
    (hfresh : ∀ o < w.created, (w.obj o).id ≠ id) : w.find id = none := by
  cases hfind : w.find id with
  | none => rfl
  | some o =>
    obtain ⟨ho, hid⟩ := hw.entries _ (World.mem_of_find hfind)
    exact absurd hid (hfresh o ho)

theorem Booked.calls_fresh (hw : Booked controllersByWorker n w)
    (hfresh : ∀ o < w.created, (w.obj o).id ≠ id) (k : Nat) : w.calls k id = [] := by
  refine List.filter_eq_nil_iff.mpr fun c hc => ?_
  rw [decide_eq_true_iff]
  obtain ⟨o, ho, hid⟩ := hw.known c hc
  exact fun heq => hfresh o ho (hid.trans heq.2)

/-- A new object, listed. -/
def enter (w : World) (id : UInt64) (s : Session) : World :=
  { w.allocate s with sessions := w.sessions ++ [(id, w.created)] }

theorem Booked.emplace_eq (hw : Booked controllersByWorker n w) (s : Session)
    (hfresh : ∀ o < w.created, (w.obj o).id ≠ id) :
    (w.allocate s).emplace id w.created = enter w id s := by
  have hfind : (w.allocate s).find id = none := hw.find_fresh hfresh
  rw [World.emplace, hfind]
  rfl

theorem lists_enter (w : World) (id : UInt64) (s : Session) (o : Nat) :
    (enter w id s).lists o = (w.lists o || decide (w.created = o)) := by
  rw [World.lists, enter, List.any_append, World.lists, List.any_cons, List.any_nil,
    Bool.or_false]

/-- A session is listed under an id that is nobody's. -/
theorem enter_tells (hw : Booked controllersByWorker n w) {s : Session} (hid : s.id = id)
    (hfresh : ∀ o < w.created, (w.obj o).id ≠ id)
    (hissued : ∃ c, 0 < c ∧ c < w.localCounter.toNat ∧ id = sessionId w.cfg.ownerWorkerId c) :
    Tells controllersByWorker n (some w.created) w (enter w id s) := by
  have hself : ((enter w id s).obj w.created).id = id :=
    (congrArg Session.id (World.obj_setObj_self _ _ s)).trans hid
  have hother : ∀ o < w.created, (enter w id s).obj o = w.obj o := fun o ho =>
    World.obj_setObj_ne _ (Nat.ne_of_lt ho) s
  have hcreated : (enter w id s).created = w.created + 1 := rfl
  have hcases : ∀ {o}, o < (enter w id s).created → o < w.created ∨ o = w.created :=
    fun ho => Nat.lt_succ_iff_lt_or_eq.mp ho
  exact {
    booked := {
      __ := hw
      issued := fun o ho => by
        rcases hcases ho with hlt | rfl
        · rw [hother o hlt]
          exact hw.issued o hlt
        · rw [hself]
          exact hissued
      distinct := fun o ho o' ho' heq => by
        rcases hcases ho with hlt | rfl
        · rcases hcases ho' with hlt' | rfl
          · rw [hother o hlt, hother o' hlt'] at heq
            exact hw.distinct o hlt o' hlt' heq
          · rw [hother o hlt, hself] at heq
            exact absurd heq (hfresh o hlt)
        · rcases hcases ho' with hlt' | rfl
          · rw [hself, hother o' hlt'] at heq
            exact absurd heq.symm (hfresh o' hlt')
          · rfl
      entries := fun e he => by
        rcases List.mem_append.mp he with hold | hnew
        · obtain ⟨hlt, hkey⟩ := hw.entries e hold
          rw [hother e.2 hlt]
          exact ⟨Nat.lt_succ_of_lt hlt, hkey⟩
        · rw [List.mem_singleton.mp hnew]
          exact ⟨Nat.lt_succ_self _, hself⟩
      known := fun c hc => by
        obtain ⟨o, ho, hkey⟩ := hw.known c hc
        exact ⟨o, Nat.lt_succ_of_lt ho, (congrArg Session.id (hother o ho)).trans hkey⟩ }
    cfg := rfl
    created := Nat.le_succ _
    id := fun o ho => by rw [hother o ho]
    lists := fun o ho hlisted => by
      rw [lists_enter, decide_eq_false (Nat.ne_of_gt ho), Bool.or_false] at hlisted
      exact hlisted
    old := fun o ho _ k _ => by
      rw [Follows, lists_enter, decide_eq_false (Nat.ne_of_gt ho), Bool.or_false, ending_self,
        List.append_nil]
      rfl
    new := fun o hle hlt hx => by
      rcases hcases hlt with hlt | rfl
      · exact absurd hlt (Nat.not_lt_of_le hle)
      · exact absurd rfl hx }

/-- A session that gets a fresh id is entered, watched and announced. -/
theorem Booked.enlist_eq (hw : Booked controllersByWorker n w) (app : Callback → World → World)
    (s : Session) (hfresh : ∀ o < w.created, (w.obj o).id ≠ id) :
    enlist app id s w = app (.onSessionStart id) ((startTimeouts w.created w.cfg.idleTimeoutMs
      w.cfg.heartbeatIntervalMs (enter w id s)).sessionStarted w.created) := by
  have hkept : ((w.allocate s).find id).isNone = true :=
    Option.isNone_iff_eq_none.mpr (hw.find_fresh hfresh)
  unfold enlist
  dsimp only
  rw [hkept, if_pos rfl, hw.emplace_eq s hfresh]
  rfl

/-- All children are told of the start of a session that is listed and that they have not heard
of. -/
theorem start_tells (hreact : ∀ c w, Telling controllersByWorker n none w (react c w))
    (h : Tells controllersByWorker n (some o) w v) (hnew : w.created ≤ o) (ho : o < v.created)
    (hlists : v.lists o = true) (hcalls : ∀ k, v.calls k (v.obj o).id = []) :
    Tells controllersByWorker n none w (WorkerControllerAppBase.app react controllersByWorker
      (.onSessionStart (v.obj o).id) v) := by
  have happ : WorkerControllerAppBase.app react controllersByWorker
      (.onSessionStart (v.obj o).id) =
      CompositeController.forEach react .onSessionStart (v.obj o).id (List.range n) :=
    h.booked.app_eq ho react .onSessionStart
  obtain ⟨hloop, hchildren⟩ := forEach_tells hreact .onSessionStart List.nodup_range h.booked ho
  rw [happ]
  refine (h.trans hloop).settle_new hnew fun k hk => ?_
  obtain ⟨turn, -, hafter, htold⟩ := (hchildren k hk).2 (List.mem_range.mpr hk)
  rw [hlists, hcalls, List.nil_append] at htold
  rw [hloop.id o ho, htold]
  exact .of_start hafter

/-- A session starts. -/
theorem starts_telling (hreact : ∀ c w, Telling controllersByWorker n none w (react c w))
    (harr : 0 < w.arrivals) (h : w.arrive.issueId.Aside v) {s : Session}
    (hs : s.New (nextSessionId w)) :
    Telling controllersByWorker n none w
      (enlist (WorkerControllerAppBase.app react controllersByWorker) (nextSessionId w) s v) := by
  intro hw
  have hissue : Tells controllersByWorker n none w v := issued_telling harr h hw
  have hobj : v.obj = w.obj := h.obj
  have hcreated : v.created = w.created := h.created
  have hfresh : ∀ o < v.created, (v.obj o).id ≠ nextSessionId w := fun o ho => by
    rw [hobj]
    exact hw.fresh harr (hcreated ▸ ho)
  have hissued : ∃ c, 0 < c ∧ c < v.localCounter.toNat ∧
      nextSessionId w = sessionId v.cfg.ownerWorkerId c := by
    refine ⟨w.localCounter.toNat, hw.positive, ?_, ?_⟩
    · rw [hw.toNat_issued h]
      exact Nat.lt_succ_self _
    · rw [hissue.cfg]
      exact Booked.nextSessionId_eq w
  have hentered := enter_tells hissue.booked hs.id hfresh hissued
  -- neither the timeouts nor the metrics are in the books
  have hsame : (enter v (nextSessionId w) s).SameBook ((startTimeouts v.created
      v.cfg.idleTimeoutMs v.cfg.heartbeatIntervalMs
      (enter v (nextSessionId w) s)).sessionStarted v.created) :=
    .trans (.startTimeouts _ _ _ _) ⟨rfl, rfl, rfl, rfl, rfl, rfl, fun _ => rfl⟩
  rw [hissue.booked.enlist_eq _ s hfresh]
  generalize (startTimeouts v.created v.cfg.idleTimeoutMs v.cfg.heartbeatIntervalMs
    (enter v (nextSessionId w) s)).sessionStarted v.created = u at hsame ⊢
  have hid : (u.obj v.created).id = nextSessionId w :=
    (hsame.id _).trans ((congrArg Session.id (World.obj_setObj_self _ _ s)).trans hs.id)
  have hlt : v.created < u.created := hsame.created ▸ Nat.lt_succ_self _
  have hlists : u.lists v.created = true := by
    rw [hsame.lists, lists_enter, decide_eq_true rfl, Bool.or_true]
  have hcalls : ∀ k, u.calls k (u.obj v.created).id = [] := fun k => by
    rw [hsame.calls, hid]
    exact hissue.booked.calls_fresh hfresh k
  have hbefore : Tells controllersByWorker n (some v.created) w u :=
    (hissue.of_none.trans hentered).trans (Telling.of_same hsame hentered.booked)
  rw [← hid]
  exact start_tells hreact hbefore hcreated.ge hlt hlists hcalls

/-! ## Runs -/

section

variable (hreact : ∀ c w, Telling controllersByWorker n none w (react c w))
include hreact

/-- Each change tells the children what it should, if what the children do in their hooks does. -/
theorem does_telling {scope : Scope}
    (h : Does (WorkerControllerAppBase.app react controllersByWorker) scope w v) :
    Telling controllersByWorker n none w v := by
  cases h with
  | aside h => exact .of_same (.of_aside h)
  | touches o h => exact .of_same (.of_sets h)
  | accepts o packet | reads o recvRing | receives o recvRing bytes =>
    exact .of_same (.modify rfl)
  | closes o reason h =>
    exact .of_same ((World.SameBook.of_sets h).trans (.takeDown _ o reason))
  | ends id o hfind => exact ends_telling hreact hfind
  | refuses harr h => exact issued_telling harr h
  | starts fd memory s harr h _ hs => exact starts_telling hreact harr h (createSession_new hs)
  | message id opcode body => exact hreact (none, .onMessage id opcode body) w
  | dialed id => exact hreact (none, .onDialed id) w

theorem trail_telling
    (h : Trail (WorkerControllerAppBase.app react controllersByWorker) .all w v) :
    Telling controllersByWorker n none w v :=
  h.rel Telling.refl Telling.trans (does_telling hreact)

theorem fires_telling {i : Nat} {timer : Timer}
    (h : Fires (WorkerControllerAppBase.app react controllersByWorker) i timer w v) :
    Telling controllersByWorker n none w v := by
  cases h with
  | lapsed => exact .of_same ⟨rfl, rfl, rfl, rfl, rfl, rfl, fun _ => rfl⟩
  | rests id => exact .of_same (.disarm w i timer)
  | closes id =>
    refine .trans (.of_same (.disarm w i timer)) ?_
    exact trail_telling hreact (beginClose_trail trivial timer.obj 0 _)
  | rearms id delayMs =>
    exact .of_same (.trans (.disarm w i timer) (.armTimerAfter timer.kind timer.obj delayMs _))
  | probes id delayMs =>
    refine .trans (.of_same (.disarm w i timer)) (.trans ?_ (.of_same (.armTimerAfter _ _ _ _)))
    exact trail_telling hreact (sendPacketU16_trail trivial _ _)

end

theorem callFrom_telling (a : Api) (react : ChildCall → World → World) (w : World)
    (hreact : ∀ c w, Telling controllersByWorker n none w (react c w)) :
    Telling controllersByWorker n none w (callFrom controllersByWorker a react w) :=
  trail_telling hreact (call_trail a.within_all w)

theorem childStep_telling (w : World) (t : ChildStep) :
    Telling controllersByWorker n none w (childStep controllersByWorker w t) := by
  have hreact : ∀ c w, Telling controllersByWorker n none w
      (respond (callFrom controllersByWorker) t.hooks c w) :=
    respond_rel Telling.refl Telling.trans callFrom_telling t.hooks
  unfold childStep
  refine .trans (.of_same (v := { w with
    writes := t.writes, ctls := t.ctls, now := max w.now t.now })
    ⟨rfl, rfl, rfl, rfl, rfl, rfl, fun _ => rfl⟩) ?_
  dsimp only
  split
  next input _ =>
    obtain ⟨input, htask⟩ := input
    by_cases htimer : ∃ i, input = .timer i
    · obtain ⟨i, rfl⟩ := htimer
      rw [Input.exec]
      generalize { w with writes := t.writes, ctls := t.ctls, now := max w.now t.now } = v
      cases htimer : v.timers[i]? with
      | none =>
        rw [fireTimer_stale _ htimer]
        exact .refl v
      | some timer => exact fires_telling hreact (fireTimer_fires _ htimer)
    · exact trail_telling hreact
        (Input.exec_trail (not_exists.mp htimer) htask (fun _ _ _ _ => trivial) _)
  next task _ => exact Script.run_rel Telling.refl Telling.trans callFrom_telling task _

theorem childRun_tells {cfg : Config} {arrivals : Nat} (hwid : cfg.ownerWorkerId.toNat < 2 ^ 31)
    (hcontroller : getController controllersByWorker cfg.ownerWorkerId.toNat = some n)
    (harr : arrivals < 2 ^ 32) (steps : List ChildStep) :
    Tells controllersByWorker n none { cfg, arrivals }
      (childRun controllersByWorker cfg arrivals steps) := by
  have hstart : Booked controllersByWorker n { cfg, arrivals } := {
    worker := hwid
    controller := hcontroller
    positive := Nat.one_pos
    bound := Nat.one_add arrivals ▸ harr
    issued := fun o ho => absurd ho (Nat.not_lt_zero o)
    distinct := fun o ho => absurd ho (Nat.not_lt_zero o)
    entries := fun e he => absurd he List.not_mem_nil
    known := fun c hc => absurd hc List.not_mem_nil }
  exact foldl_rel Telling.refl Telling.trans childStep_telling _ steps hstart

end Tells

/-- What `Heard` says about the number of the hooks and their order. -/
theorem Heard.counts {k : Nat} {id : UInt64} {listed : Bool} {calls : List HookCall}
    (h : Heard k id listed calls) :
    calls.countP (·.hook = .onSessionStart) = 1 ∧ calls.countP (·.hook = .onSessionEnd) ≤ 1 ∧
      (calls.Pairwise (fun c c' => ¬ (c.hook = .onSessionEnd ∧ c'.hook = .onSessionStart)) ↔
        ∀ c ∈ calls, c.hook = .onSessionStart → c.listed = true) := by
  cases h <;> simp

/-- Each child hears of the start of a session once and of its end at most once; it hears of the
start first just if the manager still had the session when the child's turn came. -/
theorem controllers_told_iff (controllersByWorker : List (Option Nat)) (n : Nat) (cfg : Config)
    (hwid : cfg.ownerWorkerId.toNat < 2 ^ 31)
    (hcontroller : getController controllersByWorker cfg.ownerWorkerId.toNat = some n)
    (arrivals : Nat) (harr : arrivals < 2 ^ 32) (steps : List ChildStep) (o k : Nat)
    (ho : o < (childRun controllersByWorker cfg arrivals steps).created) (hk : k < n) :
    let w := childRun controllersByWorker cfg arrivals steps
    let calls := w.calls k (w.obj o).id
    calls.countP (·.hook = .onSessionStart) = 1 ∧ calls.countP (·.hook = .onSessionEnd) ≤ 1 ∧
      (calls.Pairwise (fun c c' => ¬ (c.hook = .onSessionEnd ∧ c'.hook = .onSessionStart)) ↔
        ∀ c ∈ calls, c.hook = .onSessionStart → c.listed = true) := by
  have htells := childRun_tells hwid hcontroller harr steps
  exact (htells.new o (Nat.zero_le o) ho nofun k hk).counts

/-- A connection arrives, and the first child closes every session it hears the start of. -/
def sampleRefusal : ChildStep where
  input := .inl ⟨.accept 3 true, by rintro client ⟨⟩⟩
  hooks c _ :=
    match c with
    | (some 0, .onSessionStart id) =>
      .call (.beginClose id none 0) (fun _ _ => .done) fun _ => .done
    | _ => .done

/-- Two workers whose controllers have two children each. -/
def sampleControllers : List (Option Nat) := [some 2, some 2]

theorem controllers_told_iff_sample :
    let w := childRun sampleControllers sampleConfig 1 [sampleRefusal]
    let calls := w.calls 0 (w.obj 0).id
    calls.countP (·.hook = .onSessionStart) = 1 ∧ calls.countP (·.hook = .onSessionEnd) ≤ 1 ∧
      (calls.Pairwise (fun c c' => ¬ (c.hook = .onSessionEnd ∧ c'.hook = .onSessionStart)) ↔
        ∀ c ∈ calls, c.hook = .onSessionStart → c.listed = true) :=
  controllers_told_iff sampleControllers 2 sampleConfig (by decide) (by decide) 1 (by decide)
    [sampleRefusal] 0 0 (by decide) (by decide)

/-- The first child closes the session in its start hook: the second hears of the end, and then of
the start. -/
theorem start_told_after_end :
    let w := childRun sampleControllers sampleConfig 1 [sampleRefusal]
    w.calls 1 (w.obj 0).id = [⟨1, .onSessionEnd, (w.obj 0).id, false⟩,
      ⟨1, .onSessionStart, (w.obj 0).id, false⟩] := by
  decide

end HyperNet.App
