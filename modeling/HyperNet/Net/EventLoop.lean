import Mathlib.Algebra.Order.Ring.Nat
import Mathlib.Data.List.Induction
import Mathlib.Tactic.Common

/-!
# The event loop's table of registrations

`EventLoop::addFd`, `updateFd`, `removeFd` and the dispatch of one batch of
`EventLoop::runOnce` (`engine/src/hypernet/net/EventLoop.cpp`) over
`EpollReactor` (`engine/src/hypernet/net/EpollReactor.cpp`).  `fdContexts_` is a
partial function of descriptors; the answers of `epoll_ctl` are arguments, `none`
for success and the `errno` for a failure.

A handler is any value, since a context refers to it by pointer and the loop only
ever passes it on; `addFd` refuses a null handler, so a context always has one.
The fields of `FdContext` that are only logged (`tag`, `debugId`, `ownerPtr`) are
left out.  `registration` is history: it numbers the successful calls of `addFd`,
so that two registrations of one descriptor can be told apart.

The last section is about a whole batch.  `EpollReactor::wait` reports descriptors,
and the loop looks each one up again when its turn comes; the handlers of earlier
events may have changed the table by then.  `delivered_registered_iff` says exactly
when every event still reaches a registration that existed when `wait` returned.
-/

namespace HyperNet.Net

def EBADF : Nat := 9

def EINVAL : Nat := 22

def ENOENT : Nat := 2

namespace Event

def read : UInt32 := 0x001

def write : UInt32 := 0x004

def error : UInt32 := 0x008

def hangup : UInt32 := 0x010

def readHangup : UInt32 := 0x2000

def edgeTriggered : UInt32 := 0x80000000

end Event

def makeEventMask (events : List UInt32) : UInt32 := events.foldl (· ||| ·) 0

/-- `EpollReactor::ReadyEvent`. -/
structure ReadyEvent where
  fd : Int
  events : UInt32
deriving DecidableEq, Repr

/-- `FdContext`. -/
structure FdContext (H : Type) where
  fd : Int
  handler : H
  registeredEvents : UInt32
  registration : Nat
deriving DecidableEq, Repr

/-- A context as its registration, without the events asked for. -/
def FdContext.key {H : Type} (ctx : FdContext H) : Nat × H := (ctx.registration, ctx.handler)

/-- `EventLoop`: `fdContexts_`, and the number of registrations ever made. -/
structure EventLoop (H : Type) where
  fdContexts : Int → Option (FdContext H)
  registrations : Nat

namespace EventLoop

variable {H : Type} {loop : EventLoop H}

/-- `EpollReactor::registerFd`, `modifyFd` and `unregisterFd`: the `errno` of a
failure. -/
def reactorCtl (fd : Int) (answer : Option Nat) : Option Nat :=
  if fd < 0 then some EBADF else answer

/-- A loop without registrations. -/
def empty : EventLoop H := ⟨fun _ => none, 0⟩

/-- The table with the entry of `fd` replaced. -/
def set (loop : EventLoop H) (fd : Int) (ctx : Option (FdContext H)) : EventLoop H :=
  { loop with fdContexts := fun fd' => if fd' = fd then ctx else loop.fdContexts fd' }

/-- `addFd`, with the `errno` where it returns `false`. -/
def addFd (loop : EventLoop H) (answer : Option Nat) (fd : Int) (events : UInt32)
    (handler : Option H) : EventLoop H × Option Nat :=
  if fd < 0 then (loop, some EBADF)
  else
    match handler with
    | none => (loop, some EINVAL)
    | some handler =>
      match reactorCtl fd answer with
      | some e => (loop, some e)
      | none =>
        -- an entry that is already there is overwritten
        let loop := loop.set fd (some ⟨fd, handler, events, loop.registrations⟩)
        ({ loop with registrations := loop.registrations + 1 }, none)

/-- `updateFd`, with the `errno` where it returns `false`. -/
def updateFd (loop : EventLoop H) (answer : Option Nat) (fd : Int) (events : UInt32) :
    EventLoop H × Option Nat :=
  if fd < 0 then (loop, some EBADF)
  else
    match loop.fdContexts fd with
    | none => (loop, some ENOENT)
    | some ctx =>
      match reactorCtl fd answer with
      | some e => (loop, some e)
      | none => (loop.set fd (some { ctx with registeredEvents := events }), none)

/-- `removeFd`: the entry goes whatever `epoll_ctl` answers. -/
def removeFd (loop : EventLoop H) (answer : Option Nat) (fd : Int) : EventLoop H × Option Nat :=
  if fd < 0 then (loop, some EBADF)
  else (loop.set fd none, reactorCtl fd answer)

section

variable (loop)

@[simp] theorem fdContexts_set_self (fd : Int) (ctx : Option (FdContext H)) :
    (loop.set fd ctx).fdContexts fd = ctx := if_pos rfl

theorem fdContexts_set_ne {fd fd' : Int} (h : fd' ≠ fd) (ctx : Option (FdContext H)) :
    (loop.set fd ctx).fdContexts fd' = loop.fdContexts fd' :=
  if_neg h

/-- `addFd` succeeds, or leaves the loop as it is. -/
theorem addFd_cases (answer : Option Nat) (fd : Int) (events : UInt32) (handler : Option H) :
    (∃ h, 0 ≤ fd ∧ handler = some h ∧ answer = none ∧
      loop.addFd answer fd events handler =
        (⟨(loop.set fd (some ⟨fd, h, events, loop.registrations⟩)).fdContexts,
          loop.registrations + 1⟩, none)) ∨
    ((∃ e, loop.addFd answer fd events handler = (loop, some e)) ∧
      ¬ (0 ≤ fd ∧ handler.isSome = true ∧ answer = none)) := by
  unfold addFd reactorCtl
  split
  next hneg => exact .inr ⟨⟨_, rfl⟩, fun h => absurd h.1 (Int.not_le.mpr hneg)⟩
  next hfd =>
    cases handler with
    | none => exact .inr ⟨⟨_, rfl⟩, fun h => nomatch h.2.1⟩
    | some h =>
      cases answer with
      | none => exact .inl ⟨h, Int.not_lt.mp hfd, rfl, rfl, rfl⟩
      | some e => exact .inr ⟨⟨e, rfl⟩, fun h => nomatch h.2.2⟩

/-- `updateFd` replaces the events of an entry, or leaves the loop as it is. -/
theorem updateFd_cases (answer : Option Nat) (fd : Int) (events : UInt32) :
    (∃ ctx, loop.fdContexts fd = some ctx ∧ loop.updateFd answer fd events =
      (loop.set fd (some { ctx with registeredEvents := events }), none)) ∨
    ∃ e, loop.updateFd answer fd events = (loop, some e) := by
  unfold updateFd reactorCtl
  split
  · exact .inr ⟨_, rfl⟩
  next hfd =>
    cases hctx : loop.fdContexts fd with
    | none => exact .inr ⟨_, rfl⟩
    | some ctx =>
      cases answer with
      | none => exact .inl ⟨ctx, rfl, rfl⟩
      | some e => exact .inr ⟨e, rfl⟩

/-- `removeFd` clears the entry of a descriptor. -/
theorem removeFd_of_nonneg (answer : Option Nat) {fd : Int} (h : 0 ≤ fd) :
    (loop.removeFd answer fd).1 = loop.set fd none := by
  rw [removeFd, if_neg (Int.not_lt.mpr h)]

theorem removeFd_of_neg (answer : Option Nat) {fd : Int} (h : fd < 0) :
    (loop.removeFd answer fd).1 = loop := by
  rw [removeFd, if_pos h]

end

/-! ## What handlers do to the table -/

/-- A call a handler makes. -/
inductive FdOp (H : Type) where
  | add (fd : Int) (events : UInt32) (handler : Option H) (answer : Option Nat)
  | update (fd : Int) (events : UInt32) (answer : Option Nat)
  | remove (fd : Int) (answer : Option Nat)
deriving DecidableEq, Repr

def exec (loop : EventLoop H) : FdOp H → EventLoop H
  | .add fd events handler answer => (loop.addFd answer fd events handler).1
  | .update fd events answer => (loop.updateFd answer fd events).1
  | .remove fd answer => (loop.removeFd answer fd).1

def execAll (loop : EventLoop H) (ops : List (FdOp H)) : EventLoop H := ops.foldl exec loop

/-- How a call changes whether a descriptor is registered. -/
inductive Touch where
  | added
  | removed
deriving DecidableEq, Repr

/-- What a call does to the registration of `fd`, if it succeeds in touching it. -/
def FdOp.touch (fd : Int) : FdOp H → Option Touch
  | .add fd' _ handler answer =>
    if fd' = fd ∧ 0 ≤ fd ∧ handler.isSome = true ∧ answer = none then some .added else none
  | .update _ _ _ => none
  | .remove fd' _ => if fd' = fd ∧ 0 ≤ fd then some .removed else none

/-- The last of the calls that touched `fd`. -/
def lastTouch (fd : Int) (ops : List (FdOp H)) : Option Touch :=
  ops.foldl (fun last op => (op.touch fd).or last) none

theorem lastTouch_append_singleton (fd : Int) (ops : List (FdOp H)) (op : FdOp H) :
    lastTouch fd (ops ++ [op]) = (op.touch fd).or (lastTouch fd ops) := by
  simp only [lastTouch, List.foldl_append, List.foldl_cons, List.foldl_nil]

theorem execAll_append (loop : EventLoop H) (ops ops' : List (FdOp H)) :
    loop.execAll (ops ++ ops') = (loop.execAll ops).execAll ops' := List.foldl_append

/-- What one call leaves in the table at `fd`. -/
theorem exec_spec (loop : EventLoop H) (op : FdOp H) (fd : Int) :
    loop.registrations ≤ (loop.exec op).registrations ∧
      match op.touch fd with
      | some .added => ∃ ctx, (loop.exec op).fdContexts fd = some ctx ∧
          loop.registrations ≤ ctx.registration
      | some .removed => (loop.exec op).fdContexts fd = none
      | none => ((loop.exec op).fdContexts fd).map FdContext.key =
          (loop.fdContexts fd).map FdContext.key := by
  cases op with
  | add fd' events handler answer =>
    rw [exec, FdOp.touch]
    rcases loop.addFd_cases answer fd' events handler with
      ⟨h, hfd, rfl, rfl, hadd⟩ | ⟨⟨e, hadd⟩, hfail⟩
    · rw [hadd]
      refine ⟨Nat.le_succ _, ?_⟩
      by_cases heq : fd' = fd
      · subst heq
        rw [if_pos ⟨rfl, hfd, rfl, rfl⟩]
        exact ⟨_, loop.fdContexts_set_self _ _, Nat.le_refl _⟩
      · rw [if_neg fun h => heq h.1]
        exact congrArg _ (loop.fdContexts_set_ne (Ne.symm heq) _)
    · rw [hadd, if_neg]
      · exact ⟨Nat.le_refl _, rfl⟩
      · rintro ⟨rfl, hok⟩
        exact hfail hok
  | update fd' events answer =>
    rw [exec, FdOp.touch]
    rcases loop.updateFd_cases answer fd' events with ⟨ctx, hctx, hupd⟩ | ⟨e, hupd⟩
    · rw [hupd]
      refine ⟨Nat.le_refl _, ?_⟩
      by_cases heq : fd = fd'
      · subst heq
        rw [hctx, fdContexts_set_self]
        rfl
      · exact congrArg _ (loop.fdContexts_set_ne heq _)
    · rw [hupd]
      exact ⟨Nat.le_refl _, rfl⟩
  | remove fd' answer =>
    rw [exec, FdOp.touch]
    rcases Int.lt_or_le fd' 0 with hneg | hfd
    · rw [loop.removeFd_of_neg answer hneg, if_neg]
      · exact ⟨Nat.le_refl _, rfl⟩
      · rintro ⟨rfl, hle⟩
        exact absurd hle (Int.not_le.mpr hneg)
    · rw [loop.removeFd_of_nonneg answer hfd]
      refine ⟨Nat.le_refl _, ?_⟩
      by_cases heq : fd' = fd
      · subst heq
        rw [if_pos ⟨rfl, hfd⟩]
        exact loop.fdContexts_set_self _ _
      · rw [if_neg fun h => heq h.1]
        exact congrArg _ (loop.fdContexts_set_ne (Ne.symm heq) _)

/-- What a sequence of calls leaves in the table at `fd`: the last one that touched
it decides. -/
theorem execAll_spec (loop : EventLoop H) (ops : List (FdOp H)) (fd : Int) :
    loop.registrations ≤ (loop.execAll ops).registrations ∧
      match lastTouch fd ops with
      | some .added => ∃ ctx, (loop.execAll ops).fdContexts fd = some ctx ∧
          loop.registrations ≤ ctx.registration
      | some .removed => (loop.execAll ops).fdContexts fd = none
      | none => ((loop.execAll ops).fdContexts fd).map FdContext.key =
          (loop.fdContexts fd).map FdContext.key := by
  induction ops using List.reverseRecOn with
  | nil => exact ⟨Nat.le_refl _, rfl⟩
  | append_singleton ops op ih =>
    obtain ⟨hle, hlast⟩ := ih
    obtain ⟨hle', hop⟩ := (loop.execAll ops).exec_spec op fd
    rw [execAll_append, lastTouch_append_singleton]
    refine ⟨Nat.le_trans hle hle', ?_⟩
    cases htouch : op.touch fd with
    | none =>
      rw [htouch] at hop
      rw [Option.none_or]
      revert hlast
      cases lastTouch fd ops with
      | none => exact fun hlast => hop.trans hlast
      | some touch =>
        cases touch with
        | added =>
          rintro ⟨ctx, hctx, hreg⟩
          rw [hctx] at hop
          obtain ⟨ctx', hctx', hkey⟩ := Option.map_eq_some_iff.mp hop
          refine ⟨ctx', hctx', ?_⟩
          rw [show ctx'.registration = ctx.registration from congrArg Prod.fst hkey]
          exact hreg
        | removed =>
          intro hlast
          rw [hlast] at hop
          exact Option.map_eq_none_iff.mp hop
    | some touch =>
      rw [htouch] at hop
      cases touch with
      | added =>
        obtain ⟨ctx, hctx, hreg⟩ := hop
        exact ⟨ctx, hctx, Nat.le_trans hle hreg⟩
      | removed => exact hop

/-- The registrations in the table are among those made. -/
def Valid (loop : EventLoop H) : Prop :=
  ∀ fd ctx, loop.fdContexts fd = some ctx → ctx.registration < loop.registrations

theorem Valid.set (h : loop.Valid) (fd : Int) {ctx : Option (FdContext H)} {n : Nat}
    (hn : loop.registrations ≤ n) (hctx : ∀ c, ctx = some c → c.registration < n) :
    Valid ⟨(loop.set fd ctx).fdContexts, n⟩ := by
  intro fd' ctx' hctx'
  change (loop.set fd ctx).fdContexts fd' = some ctx' at hctx'
  by_cases heq : fd' = fd
  · subst heq
    rw [fdContexts_set_self] at hctx'
    exact hctx ctx' hctx'
  · rw [loop.fdContexts_set_ne heq] at hctx'
    exact Nat.lt_of_lt_of_le (h fd' ctx' hctx') hn

theorem Valid.exec (h : loop.Valid) (op : FdOp H) : (loop.exec op).Valid := by
  cases op with
  | add fd events handler answer =>
    rw [EventLoop.exec]
    rcases loop.addFd_cases answer fd events handler with
      ⟨hd, hfd, rfl, rfl, hadd⟩ | ⟨⟨e, hadd⟩, hfail⟩
    · rw [hadd]
      refine h.set fd (Nat.le_succ _) ?_
      rintro c ⟨⟩
      exact Nat.lt_succ_self _
    · rw [hadd]
      exact h
  | update fd events answer =>
    rw [EventLoop.exec]
    rcases loop.updateFd_cases answer fd events with ⟨ctx, hctx, hupd⟩ | ⟨e, hupd⟩
    · rw [hupd]
      refine h.set fd (Nat.le_refl _) ?_
      rintro c ⟨⟩
      exact h fd ctx hctx
    · rw [hupd]
      exact h
  | remove fd answer =>
    rw [EventLoop.exec]
    rcases Int.lt_or_le fd 0 with hneg | hfd
    · rw [loop.removeFd_of_neg answer hneg]
      exact h
    · rw [loop.removeFd_of_nonneg answer hfd]
      exact h.set fd (Nat.le_refl _) nofun

theorem valid_execAll_empty (ops : List (FdOp H)) : (execAll empty ops).Valid := by
  induction ops using List.reverseRecOn with
  | nil => exact fun _ _ h => nomatch h
  | append_singleton ops op ih =>
    rw [execAll_append]
    exact ih.exec op

/-! ## One batch -/

/-- A ready event of a batch, with the calls its handler makes if it runs. -/
structure Turn (H : Type) where
  event : ReadyEvent
  calls : List (FdOp H)

/-- An event and the context whose handler it was given to. -/
structure Delivery (H : Type) where
  event : ReadyEvent
  context : FdContext H
deriving DecidableEq, Repr

/-- The dispatch loop of `runOnce`: each event is looked up when its turn comes and
dropped if nothing is registered. -/
def dispatchBatch (loop : EventLoop H) : List (Turn H) → EventLoop H × List (Delivery H)
  | [] => (loop, [])
  | turn :: batch =>
    match loop.fdContexts turn.event.fd with
    | none => dispatchBatch loop batch
    | some ctx =>
      let rest := dispatchBatch (loop.execAll turn.calls) batch
      (rest.1, ⟨turn.event, ctx⟩ :: rest.2)

/-- The calls made by the handlers that ran. -/
def performed (loop : EventLoop H) : List (Turn H) → List (FdOp H)
  | [] => []
  | turn :: batch =>
    match loop.fdContexts turn.event.fd with
    | none => performed loop batch
    | some _ => turn.calls ++ performed (loop.execAll turn.calls) batch

/-- The registration an event was delivered to is one of this table. -/
def Registered (loop : EventLoop H) (d : Delivery H) : Prop :=
  ∃ ctx, loop.fdContexts d.event.fd = some ctx ∧ ctx.key = d.context.key

/-- After some calls, a context found for `fd` is one of the table before them
unless the last call that touched `fd` added it. -/
theorem registered_iff (h : loop.Valid) (ops : List (FdOp H)) {ev : ReadyEvent} {ctx : FdContext H}
    (hctx : (loop.execAll ops).fdContexts ev.fd = some ctx) :
    loop.Registered ⟨ev, ctx⟩ ↔ lastTouch ev.fd ops ≠ some .added := by
  obtain ⟨-, hspec⟩ := loop.execAll_spec ops ev.fd
  rw [hctx] at hspec
  revert hspec
  cases lastTouch ev.fd ops with
  | none =>
    intro hkey
    refine iff_of_true ?_ nofun
    obtain ⟨ctx', hctx', hkey'⟩ := Option.map_eq_some_iff.mp hkey.symm
    exact ⟨ctx', hctx', hkey'⟩
  | some touch =>
    cases touch with
    | removed => exact nofun
    | added =>
      rintro ⟨ctx', hctx', hreg⟩
      cases hctx'
      refine iff_of_false ?_ (not_not_intro rfl)
      rintro ⟨ctx', hctx', hkey⟩
      have hlt := h _ _ hctx'
      rw [show ctx'.registration = ctx.registration from congrArg Prod.fst hkey] at hlt
      exact Nat.not_le_of_lt hlt hreg

theorem not_added_of_none {ops : List (FdOp H)} {fd : Int}
    (hctx : (loop.execAll ops).fdContexts fd = none) : lastTouch fd ops ≠ some .added := by
  obtain ⟨-, hspec⟩ := loop.execAll_spec ops fd
  intro hadded
  rw [hadded] at hspec
  obtain ⟨ctx, hctx', -⟩ := hspec
  exact nomatch hctx.symm.trans hctx'

/-- Splitting a list at any of its elements. -/
theorem forall_split_cons {α : Type} {P : List α → α → Prop} {a : α} {l : List α} :
    (∀ pre b post, a :: l = pre ++ b :: post → P pre b) ↔
      P [] a ∧ ∀ pre b post, l = pre ++ b :: post → P (a :: pre) b := by
  constructor
  · intro h
    refine ⟨h [] a l rfl, fun pre b post hl => h (a :: pre) b post ?_⟩
    rw [hl]
    rfl
  · rintro ⟨hnil, hcons⟩ pre b post hl
    cases pre with
    | nil =>
      cases hl
      exact hnil
    | cons c pre =>
      obtain ⟨rfl, hl'⟩ := List.cons.inj hl
      exact hcons pre b post hl'

/-- The dispatch loop, some calls after `wait` has returned. -/
theorem dispatchBatch_registered_iff (h : loop.Valid) (ops : List (FdOp H))
    (batch : List (Turn H)) :
    (∀ d ∈ ((loop.execAll ops).dispatchBatch batch).2, loop.Registered d) ↔
      ∀ pre turn post, batch = pre ++ turn :: post →
        lastTouch turn.event.fd (ops ++ (loop.execAll ops).performed pre) ≠ some .added := by
  induction batch generalizing ops with
  | nil => exact iff_of_true nofun fun pre _ _ h => nomatch (List.append_ne_nil_of_right_ne_nil pre
      (List.cons_ne_nil _ _)) h.symm
  | cons turn batch ih =>
    rw [forall_split_cons (P := fun pre turn =>
      lastTouch turn.event.fd (ops ++ (loop.execAll ops).performed pre) ≠ some .added)]
    simp only [performed, List.append_nil]
    rw [dispatchBatch]
    cases hctx : (loop.execAll ops).fdContexts turn.event.fd with
    | none =>
      rw [ih ops]
      exact (and_iff_right (not_added_of_none hctx)).symm
    | some ctx =>
      have hrest := ih (ops ++ turn.calls)
      rw [execAll_append] at hrest
      simp only [List.forall_mem_cons, hrest, registered_iff h ops hctx, List.append_assoc]

/-- **Events and registrations.**  In a loop with any past, each event of a batch
is delivered to a registration that existed when `wait` returned, if it is
delivered at all, exactly if none of the events concerns a descriptor whose last
change in this batch was a new registration. -/
theorem delivered_registered_iff (past : List (FdOp H)) (batch : List (Turn H)) :
    (∀ d ∈ ((execAll empty past).dispatchBatch batch).2, (execAll empty past).Registered d) ↔
      ∀ pre turn post, batch = pre ++ turn :: post →
        lastTouch turn.event.fd ((execAll empty past).performed pre) ≠ some .added :=
  dispatchBatch_registered_iff (valid_execAll_empty past) [] batch

/-- An acceptor on 3 and a session on 5. -/
def acceptorAndSession : List (FdOp Nat) :=
  [.add 3 Event.read (some 0) none, .add 5 Event.read (some 1) none]

/-- Both are ready at once; the first handler closes the session on 5 and accepts a
connection that the kernel gives the same number. -/
def closeThenAccept : List (Turn Nat) :=
  [⟨⟨3, Event.read⟩, [.remove 5 none, .add 5 Event.read (some 2) none]⟩, ⟨⟨5, Event.hangup⟩, []⟩]

/-- The hang-up of the closed session reaches the new one. -/
theorem reused_fd_gets_stale_event :
    (⟨⟨5, Event.hangup⟩, ⟨5, 2, Event.read, 2⟩⟩ : Delivery Nat) ∈
        ((execAll empty acceptorAndSession).dispatchBatch closeThenAccept).2 ∧
      ¬ (execAll empty acceptorAndSession).Registered
        ⟨⟨5, Event.hangup⟩, ⟨5, 2, Event.read, 2⟩⟩ := by
  refine ⟨by decide, ?_⟩
  rintro ⟨ctx, hctx, hkey⟩
  cases hctx
  cases hkey

end EventLoop

end HyperNet.Net
