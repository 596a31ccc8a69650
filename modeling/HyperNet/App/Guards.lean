import HyperNet.App.Registry

/-!
# Guarded packet handlers

A packet handler is registered with the set of session states it may run in.  On a worker
the registration goes through `SessionStateMachine`, which keeps the set in a table by
opcode; before the worker shards exist it goes through a lambda of `AppRuntime` that has
captured the set.  The handler itself goes to the `Dispatcher`, which keeps the first one of
each opcode.

The table keeps the last set of each opcode instead.  `guards_enforced_iff` says when this makes no
difference: exactly when, for each opcode first registered through the table, the last set
registered there agrees with the first.

The model is that of one worker: its dispatcher, its shard once there is one, and the
deferred registrations.  It records the registrations made, each with the path it took.
-/

namespace HyperNet.App

abbrev Bytes := List UInt8

def ConnState.toUInt32 : ConnState → UInt32
  | .Connected => 0
  | .Handshaked => 1
  | .Authed => 2
  | .Joined => 3
  | .Active => 4
  | .Closing => 5

def stateBit (s : ConnState) : UInt32 := 1 <<< s.toUInt32

/-- The state is in the mask. -/
def allows (mask : UInt32) (s : ConnState) : Bool := mask &&& stateBit s != 0

/-- The arguments of a `registerPacketHandlerCtx` call for packets of type `π`; the bodies
of handlers are left to their names in `κ`. -/
structure Registration (π κ : Type) where
  opcode : UInt16
  allowedMask : UInt32
  /-- `PacketType::read`: the packet and the bytes after it. -/
  read : Bytes → Option (π × Bytes)
  fn : κ
  onBadPacket : Option κ := none
  strict : Bool := true

/-- What comes of a message. -/
inductive Outcome (π κ : Type) where
  | unknown
  | dropped
  | badPacket (handler : Option κ) (ctx : SessionContext)
  | ran (fn : κ) (pkt : π) (ctx : SessionContext)
  deriving DecidableEq

/-- A worker's part of the runtime: its registry and the table of its state machine. -/
structure Shard where
  reg : Registry := {}
  allowed : AList fun _ : UInt16 => UInt32 := ∅

/-- A handler in the dispatcher.  It sees the shard of the worker it runs on. -/
abbrev Handler (π κ : Type) := Option Shard → SessionHandle → Bytes → Outcome π κ

structure Runtime (π κ : Type) where
  dispatcher : AList fun _ : UInt16 => Handler π κ := ∅
  shard : Option Shard := none
  deferredAllowed : List (UInt16 × UInt32) := []
  /-- History: the registrations, and whether the state machine's table guards them. -/
  registered : List (Bool × Registration π κ) := []

variable {π κ : Type}

/-- The part of a handler behind the guard. -/
def Registration.parse (r : Registration π κ) (raw : Bytes) (ctx : SessionContext) :
    Outcome π κ :=
  match r.read raw with
  | none => .badPacket r.onBadPacket ctx
  | some (pkt, rest) =>
    if !r.strict || rest.isEmpty then .ran r.fn pkt ctx else .badPacket r.onBadPacket ctx

/-- `Dispatcher::registerHandler`: an opcode that is taken stays as it is. -/
def registerHandler (d : AList fun _ : UInt16 => Handler π κ) (opcode : UInt16)
    (handler : Handler π κ) : AList fun _ : UInt16 => Handler π κ :=
  if (d.lookup opcode).isSome then d else d.insert opcode handler

namespace Shard

def setAllowedStates (sh : Shard) (opcode : UInt16) (mask : UInt32) : Shard :=
  { sh with allowed := sh.allowed.insert opcode mask }

def tryGetAllowedContext (sh : Shard) (sid : SessionId) (opcode : UInt16) :
    Option SessionContext :=
  match sh.allowed.lookup opcode with
  | none => none
  | some mask =>
    match sh.reg.tryGetContext sid with
    | none => none
    | some ctx => if allows mask ctx.state then some ctx else none

end Shard

/-- The handler `SessionStateMachine` registers: the mask is looked up when it runs. -/
def guardedByTable (r : Registration π κ) : Handler π κ
  | none, _, _ => .dropped
  | some sh, s, raw =>
    match sh.tryGetAllowedContext s.id r.opcode with
    | none => .dropped
    | some ctx => r.parse raw ctx

/-- The handler `AppRuntime` registers itself: the mask is captured. -/
def guardedByCapture (r : Registration π κ) : Handler π κ
  | none, _, _ => .dropped
  | some sh, s, raw =>
    match sh.reg.tryGetContext s.id with
    | none => .dropped
    | some ctx => if allows r.allowedMask ctx.state then r.parse raw ctx else .dropped

namespace Runtime

def recordDeferredAllowed (rt : Runtime π κ) (opcode : UInt16) (mask : UInt32) : Runtime π κ :=
  { rt with deferredAllowed := rt.deferredAllowed ++ [(opcode, mask)] }

/-- `registerPacketHandlerCtx`, on the worker's thread or on one without a shard. -/
def registerPacketHandlerCtx (rt : Runtime π κ) (onWorker : Bool) (r : Registration π κ) :
    Runtime π κ :=
  match onWorker, rt.shard with
  | true, some sh =>
    { rt with
      shard := some (sh.setAllowedStates r.opcode r.allowedMask)
      dispatcher := registerHandler rt.dispatcher r.opcode (guardedByTable r)
      registered := rt.registered ++ [(true, r)] }
  | _, _ =>
    { rt.recordDeferredAllowed r.opcode r.allowedMask with
      dispatcher := registerHandler rt.dispatcher r.opcode (guardedByCapture r)
      registered := rt.registered ++ [(false, r)] }

/-- The shards are made, and the deferred masks go to their tables. -/
def setWorkerScheduler (rt : Runtime π κ) : Runtime π κ :=
  match rt.shard with
  | some _ => rt
  | none =>
    { rt with shard := some (rt.deferredAllowed.foldl
        (fun sh entry => sh.setAllowedStates entry.1 entry.2) {}) }

/-- The registry of the worker changes. -/
def changeRegistry (rt : Runtime π κ) (op : Registry.Op) : Runtime π κ :=
  { rt with shard := rt.shard.map fun sh => { sh with reg := sh.reg.step op } }

def dispatch (rt : Runtime π κ) (opcode : UInt16) (s : SessionHandle) (raw : Bytes) :
    Outcome π κ :=
  match rt.dispatcher.lookup opcode with
  | none => .unknown
  | some handler => handler rt.shard s raw

/-- What happens to the worker's part of the runtime.  The deferred masks are shared, so
registrations for the dispatchers of other workers add to them too. -/
inductive Event (π κ : Type) where
  | register (onWorker : Bool) (r : Registration π κ)
  | registerElsewhere (opcode : UInt16) (mask : UInt32)
  | setWorkerScheduler
  | changeRegistry (op : Registry.Op)

def step (rt : Runtime π κ) : Event π κ → Runtime π κ
  | .register onWorker r => rt.registerPacketHandlerCtx onWorker r
  | .registerElsewhere opcode mask => rt.recordDeferredAllowed opcode mask
  | .setWorkerScheduler => rt.setWorkerScheduler
  | .changeRegistry op => rt.changeRegistry op

def run (events : List (Event π κ)) : Runtime π κ := events.foldl step {}

/-! ## What the guards are to enforce -/

/-- The registrations of an opcode. -/
def registeredFor (rt : Runtime π κ) (opcode : UInt16) : List (Bool × Registration π κ) :=
  rt.registered.filter (·.2.opcode = opcode)

/-- The context of a session in the worker's registry. -/
def context (rt : Runtime π κ) (s : SessionHandle) : Option SessionContext :=
  rt.shard.bind fun sh => sh.reg.tryGetContext s.id

/-- What should come of a message: the first registration of its opcode decides, with its
own mask, whichever path it took. -/
def expected (rt : Runtime π κ) (opcode : UInt16) (s : SessionHandle) (raw : Bytes) :
    Outcome π κ :=
  match (rt.registeredFor opcode).head? with
  | none => .unknown
  | some (_, r) =>
    match rt.context s with
    | none => .dropped
    | some ctx => if allows r.allowedMask ctx.state then r.parse raw ctx else .dropped

/-- Every later message is treated as expected, whatever becomes of the sessions. -/
def Enforced (rt : Runtime π κ) : Prop :=
  ∀ (later : List Registry.Op) opcode s raw,
    (later.foldl changeRegistry rt).dispatch opcode s raw =
      (later.foldl changeRegistry rt).expected opcode s raw

/-- For an opcode first registered through the table, the last registration there has a
mask with the same states. -/
def MasksAgree (rt : Runtime π κ) : Prop :=
  ∀ opcode r last, (rt.registeredFor opcode).head? = some (true, r) →
    ((rt.registeredFor opcode).filter (·.1)).getLast? = some last →
    ∀ st, allows r.allowedMask st = allows last.2.allowedMask st

/-! ## What the registrations leave behind -/

/-- The dispatcher has the first registration of each opcode, the table the last mask of
each opcode first registered through it. -/
structure Tracks (rt : Runtime π κ) : Prop where
  handler : ∀ opcode, rt.dispatcher.lookup opcode = (rt.registeredFor opcode).head?.map
    fun e => if e.1 then guardedByTable e.2 else guardedByCapture e.2
  shard : ∀ e ∈ rt.registered, e.1 = true → rt.shard.isSome
  mask : ∀ sh opcode r, rt.shard = some sh →
    (rt.registeredFor opcode).head? = some (true, r) →
    sh.allowed.lookup opcode =
      ((rt.registeredFor opcode).filter (·.1)).getLast?.map (·.2.allowedMask)

theorem tracks_empty : Tracks ({} : Runtime π κ) where
  handler _ := rfl
  shard _ h := by cases h
  mask _ _ _ h := by cases h

/-- The registrations of an opcode after one more. -/
theorem registeredFor_append (rt rt' : Runtime π κ) (e : Bool × Registration π κ)
    (h : rt'.registered = rt.registered ++ [e]) (opcode : UInt16) :
    rt'.registeredFor opcode =
      rt.registeredFor opcode ++ if e.2.opcode = opcode then [e] else [] := by
  rw [registeredFor, h, List.filter_append, ← registeredFor]
  by_cases hop : e.2.opcode = opcode <;> simp [hop]

/-- The first registration of an opcode reaches the dispatcher, a later one does not. -/
theorem lookup_registerHandler {d : AList fun _ : UInt16 => Handler π κ}
    {entries : UInt16 → List (Bool × Registration π κ)}
    {make : Bool × Registration π κ → Handler π κ}
    (h : ∀ opcode, d.lookup opcode = (entries opcode).head?.map make)
    (e : Bool × Registration π κ) (opcode : UInt16) :
    (registerHandler d e.2.opcode (make e)).lookup opcode =
      (entries opcode ++ if e.2.opcode = opcode then [e] else []).head?.map make := by
  by_cases hop : e.2.opcode = opcode
  · subst hop
    have hd := h e.2.opcode
    rw [registerHandler, if_pos rfl]
    cases hentries : entries e.2.opcode with
    | nil =>
      rw [hentries, List.head?_nil, Option.map_none] at hd
      rw [hd, if_neg (by simp), AList.lookup_insert]
      rfl
    | cons first others =>
      rw [hentries, List.head?_cons, Option.map_some] at hd
      rw [if_pos (hd ▸ rfl), hd]
      rfl
  · rw [if_neg hop, List.append_nil, ← h opcode, registerHandler]
    split
    · rfl
    · exact AList.lookup_insert_ne (Ne.symm hop)

section

variable {rt : Runtime π κ} (h : rt.Tracks)
include h

theorem Tracks.register (onWorker : Bool) (r : Registration π κ) :
    (rt.registerPacketHandlerCtx onWorker r).Tracks := by
  unfold registerPacketHandlerCtx
  split
  case h_1 sh hsh =>
    refine ⟨fun opcode => ?_, fun _ _ _ => rfl, ?_⟩
    · rw [registeredFor_append rt _ (true, r) rfl]
      exact lookup_registerHandler h.handler (true, r) opcode
    · intro sh' opcode first hsh' hfirst
      obtain rfl := Option.some.inj hsh'
      rw [registeredFor_append rt _ (true, r) rfl] at hfirst ⊢
      dsimp only at hfirst ⊢
      by_cases hop : r.opcode = opcode
      · subst hop
        simp [Shard.setAllowedStates]
      · rw [if_neg hop, List.append_nil] at hfirst ⊢
        rw [Shard.setAllowedStates, AList.lookup_insert_ne (Ne.symm hop)]
        exact h.mask sh opcode first hsh hfirst
  case h_2 =>
    refine ⟨fun opcode => ?_, ?_, ?_⟩
    · rw [registeredFor_append rt _ (false, r) rfl]
      exact lookup_registerHandler h.handler (false, r) opcode
    · intro e he hflag
      rcases List.mem_append.1 he with he | he
      · exact h.shard e he hflag
      · obtain rfl := List.mem_singleton.1 he
        cases hflag
    · intro sh opcode first hsh hfirst
      rw [registeredFor_append rt _ (false, r) rfl] at hfirst ⊢
      rw [List.head?_append] at hfirst
      cases hhead : (rt.registeredFor opcode).head? with
      | none =>
        rw [hhead, Option.none_or] at hfirst
        split at hfirst <;> cases hfirst
      | some first' =>
        rw [hhead, Option.some_or] at hfirst
        rw [hfirst] at hhead
        have hmask := h.mask sh opcode first hsh hhead
        rw [hmask, List.filter_append]
        dsimp only
        split <;> simp

theorem Tracks.setWorkerScheduler : rt.setWorkerScheduler.Tracks := by
  rw [Runtime.setWorkerScheduler]
  split
  case h_1 => exact h
  case h_2 hnone =>
    -- without a shard nothing can have gone through the table
    refine ⟨h.handler, fun _ _ _ => rfl, ?_⟩
    intro sh opcode r _ hfirst
    have hmem : (true, r) ∈ rt.registered :=
      List.mem_of_mem_filter (List.mem_of_mem_head? hfirst)
    have := h.shard _ hmem rfl
    rw [hnone] at this
    cases this

theorem Tracks.changeRegistry (op : Registry.Op) : (rt.changeRegistry op).Tracks := by
  refine ⟨h.handler, fun e he hflag => ?_, ?_⟩
  · rw [Runtime.changeRegistry, Option.isSome_map]
    exact h.shard e he hflag
  · intro sh opcode r hsh hfirst
    obtain ⟨old, hold, rfl⟩ := Option.map_eq_some_iff.1 hsh
    exact h.mask old opcode r hold hfirst

theorem Tracks.step : ∀ event, (rt.step event).Tracks
  | .register onWorker r => h.register onWorker r
  | .registerElsewhere _ _ => ⟨h.handler, h.shard, h.mask⟩
  | .setWorkerScheduler => h.setWorkerScheduler
  | .changeRegistry op => h.changeRegistry op

end

theorem tracks_run (events : List (Event π κ)) : (run events).Tracks :=
  Reentrant.foldl_invariant (I := Tracks) (fun _ event h => h.step event) {} tracks_empty events

variable {rt : Runtime π κ}

theorem Tracks.after (h : rt.Tracks) (later : List Registry.Op) :
    (later.foldl Runtime.changeRegistry rt).Tracks :=
  Reentrant.foldl_invariant (I := Tracks) (fun _ op h => h.changeRegistry op) rt h later

theorem registered_after (rt : Runtime π κ) (later : List Registry.Op) :
    (later.foldl changeRegistry rt).registered = rt.registered := by
  refine Reentrant.foldl_invariant (I := fun v : Runtime π κ => v.registered = rt.registered)
    ?_ rt rfl later
  exact fun _ _ h => h

/-! ## What a message meets -/

/-- The mask a message really meets: that of the last registration through the table, if
the first one went there. -/
def effectiveMask (rt : Runtime π κ) (e : Bool × Registration π κ) : UInt32 :=
  if e.1 then
    (((rt.registeredFor e.2.opcode).filter (·.1)).getLast?.map (·.2.allowedMask)).getD 0
  else e.2.allowedMask

theorem allows_zero (st : ConnState) : allows 0 st = false := by
  simp [allows]

theorem dispatch_eq (h : rt.Tracks) (opcode : UInt16) (s : SessionHandle) (raw : Bytes) :
    rt.dispatch opcode s raw =
      match (rt.registeredFor opcode).head? with
      | none => .unknown
      | some e =>
        match rt.context s with
        | none => .dropped
        | some ctx =>
          if allows (rt.effectiveMask e) ctx.state then e.2.parse raw ctx else .dropped := by
  rw [dispatch, h.handler]
  cases hhead : (rt.registeredFor opcode).head? with
  | none => rfl
  | some e =>
    obtain ⟨flag, r⟩ := e
    have hop : r.opcode = opcode := by
      simpa using List.of_mem_filter (List.mem_of_mem_head? hhead)
    cases hsh : rt.shard with
    | none =>
      rw [context, hsh]
      cases flag <;> rfl
    | some sh =>
      simp only [context, hsh, effectiveMask, Option.map_some, Option.bind_some]
      cases flag with
      | false => rfl
      | true =>
        -- the table has the mask of the last registration
        have hmask := h.mask sh opcode r hsh hhead
        rw [← hop] at hmask
        simp only [if_true, ← hmask, guardedByTable, Shard.tryGetAllowedContext]
        cases hctx : sh.reg.tryGetContext s.id with
        | none => cases sh.allowed.lookup r.opcode <;> rfl
        | some ctx =>
          cases sh.allowed.lookup r.opcode with
          | none => simp [allows_zero]
          | some mask =>
            rw [Option.getD_some]
            dsimp only
            cases allows mask ctx.state <;> rfl

theorem parse_ne_dropped (r : Registration π κ) (raw : Bytes) (ctx : SessionContext) :
    r.parse raw ctx ≠ .dropped := by
  unfold Registration.parse
  split
  · simp
  · split <;> simp

/-- A session in a given state: the registry is of no help in hiding a wrong mask. -/
theorem exists_context (hsh : rt.shard.isSome) (st : ConnState) :
    ∃ (later : List Registry.Op) (s : SessionHandle) (ctx : SessionContext),
      (later.foldl changeRegistry rt).context s = some ctx ∧ ctx.state = st := by
  obtain ⟨sh, hsh⟩ := Option.isSome_iff_exists.1 hsh
  refine ⟨[.add ⟨1, 0⟩ 0 0, .setState 1 st], ⟨1, 0⟩, { state := st }, ?_, rfl⟩
  simp [context, changeRegistry, hsh, Registry.step, Registry.add, Registry.setState,
    Registry.modifyContext, Registry.find, Registry.tryGetContext]

theorem masksAgree_iff :
    rt.MasksAgree ↔ ∀ opcode e, (rt.registeredFor opcode).head? = some e →
      ∀ st, allows (rt.effectiveMask e) st = allows e.2.allowedMask st := by
  have hop : ∀ opcode e, (rt.registeredFor opcode).head? = some e → e.2.opcode = opcode :=
    fun opcode e hhead => by simpa using List.of_mem_filter (List.mem_of_mem_head? hhead)
  constructor
  · rintro h opcode ⟨flag, r⟩ hhead st
    cases flag with
    | false => rfl
    | true =>
      have hmem : (true, r) ∈ (rt.registeredFor opcode).filter (·.1) :=
        List.mem_filter.2 ⟨List.mem_of_mem_head? hhead, rfl⟩
      have hlast := List.getLast?_eq_some_getLast (List.ne_nil_of_mem hmem)
      rw [effectiveMask, if_pos rfl, hop opcode _ hhead, hlast, Option.map_some,
        Option.getD_some]
      exact (h opcode r _ hhead hlast st).symm
  · intro h opcode r last hhead hlast st
    have := h opcode (true, r) hhead st
    rw [effectiveMask, if_pos rfl, hop opcode _ hhead, hlast, Option.map_some,
      Option.getD_some] at this
    exact this.symm

theorem registeredFor_after (rt : Runtime π κ) (later : List Registry.Op) (opcode : UInt16) :
    (later.foldl changeRegistry rt).registeredFor opcode = rt.registeredFor opcode := by
  rw [registeredFor, registered_after, registeredFor]

theorem effectiveMask_after (rt : Runtime π κ) (later : List Registry.Op)
    (e : Bool × Registration π κ) :
    (later.foldl changeRegistry rt).effectiveMask e = rt.effectiveMask e := by
  rw [effectiveMask, registeredFor_after, effectiveMask]

theorem Tracks.enforced_iff (h : rt.Tracks) : rt.Enforced ↔ rt.MasksAgree := by
  rw [masksAgree_iff]
  constructor
  · rintro henforced opcode ⟨flag, r⟩ hhead st
    cases flag with
    | false => rfl
    | true =>
      -- a later session in state `st` tells the masks apart
      have hmem : (true, r) ∈ rt.registered :=
        List.mem_of_mem_filter (List.mem_of_mem_head? hhead)
      obtain ⟨later, s, ctx, hctx, rfl⟩ := exists_context (h.shard _ hmem rfl) st
      have hsame := henforced later opcode s []
      rw [dispatch_eq (h.after later), expected, registeredFor_after, hhead, hctx] at hsame
      simp only [effectiveMask_after] at hsame
      have hparse := parse_ne_dropped r [] ctx
      cases heff : allows (rt.effectiveMask (true, r)) ctx.state <;>
        cases hmask : allows r.allowedMask ctx.state <;> simp_all
  · intro hmasks later opcode s raw
    rw [dispatch_eq (h.after later), expected, registeredFor_after]
    cases hhead : (rt.registeredFor opcode).head? with
    | none => rfl
    | some e =>
      simp only [effectiveMask_after, hmasks opcode e hhead]

/-- What is expected depends on the registrations and not on the path they took. -/
theorem expected_congr {rt rt' : Runtime π κ}
    (hreg : rt.registered.map Prod.snd = rt'.registered.map Prod.snd) {s : SessionHandle}
    (hctx : rt.context s = rt'.context s) (opcode : UInt16) (raw : Bytes) :
    rt.expected opcode s raw = rt'.expected opcode s raw := by
  have hfirst : ∀ v : Runtime π κ, (v.registeredFor opcode).head?.map Prod.snd =
      ((v.registered.map Prod.snd).filter (·.opcode = opcode)).head? := by
    intro v
    rw [registeredFor, List.filter_map, List.head?_map]
    rfl
  have heq : (rt.registeredFor opcode).head?.map Prod.snd =
      (rt'.registeredFor opcode).head?.map Prod.snd := by
    rw [hfirst rt, hreg, ← hfirst rt']
  rw [expected, expected, hctx]
  cases h : (rt.registeredFor opcode).head? <;> cases h' : (rt'.registeredFor opcode).head? <;>
    simp_all

/-- The guards are enforced as registered exactly when the table's last masks agree with
the first ones.  Where they are, the path a registration took makes no difference. -/
theorem guards_enforced_iff :
    (∀ events : List (Event π κ), (run events).Enforced ↔ (run events).MasksAgree) ∧
    ∀ events events' : List (Event π κ), (run events).MasksAgree → (run events').MasksAgree →
      (run events).registered.map Prod.snd = (run events').registered.map Prod.snd →
      ∀ opcode s raw, (run events).context s = (run events').context s →
        (run events).dispatch opcode s raw = (run events').dispatch opcode s raw := by
  refine ⟨fun events => (tracks_run events).enforced_iff, ?_⟩
  intro events events' hmasks hmasks' hreg opcode s raw hctx
  have h := (tracks_run events).enforced_iff.2 hmasks [] opcode s raw
  have h' := (tracks_run events').enforced_iff.2 hmasks' [] opcode s raw
  exact h.trans ((expected_congr hreg hctx opcode raw).trans h'.symm)

/-- A second registration of opcode 7 for fresh connections is refused by the dispatcher,
but opens the first handler, which is for sessions that have shaken hands, to them. -/
theorem refused_registration_opens_guard :
    let read := fun raw : Bytes => some ((), raw)
    let r : Registration Unit Nat := ⟨7, stateBit .Handshaked, read, 0, none, true⟩
    let r' : Registration Unit Nat := ⟨7, stateBit .Connected, read, 1, none, true⟩
    let rt := run [.setWorkerScheduler, .register true r, .register true r',
      .changeRegistry (.add ⟨1, 0⟩ 0 0)]
    rt.dispatch 7 ⟨1, 0⟩ [] = .ran 0 () {} ∧ rt.expected 7 ⟨1, 0⟩ [] = .dropped ∧
      ¬ rt.Enforced := by
  intro read r r' rt
  have hran : rt.dispatch 7 ⟨1, 0⟩ [] = .ran 0 () {} := by decide +kernel
  have hexpected : rt.expected 7 ⟨1, 0⟩ [] = .dropped := by decide +kernel
  refine ⟨hran, hexpected, fun h => ?_⟩
  have := h [] 7 ⟨1, 0⟩ []
  rw [List.foldl_nil, hran, hexpected] at this
  cases this

end Runtime

end HyperNet.App
