import HyperNet.Net.Worker
import Mathlib.Data.List.Nodup

/-!
# What the functions of a worker do to its tables

Every function of `HyperNet.Net.Worker` is a path of a few kinds of changes, its
`Effect`s: bytes move on the send side, a mask follows the loop's table, a session
is closed with all that belongs to it, one is enrolled, a descriptor of another
owner comes or goes.  The application is called back only between effects.
`Lifecycle` is what holds between them; it is preserved by each effect and is in
turn what makes the functions take these paths, so the two are proved together:
`Reach w w'` says that from a `Lifecycle` state `w` a path leads to `w'`.

What an invariant of whole runs needs is then a proof for each effect, and no look
at the functions.

Effects are stated up to `Quiet` changes: the clock, the timers, the counters that
are only reported and the kernel's answers to come.  The index of `Effect` is the
session that is being read from, if any: no other receive side changes, and an
application's own calls touch none.

All of this is about a worker whose ids have not begun to repeat, which takes `2 ^ 32`
connections (`Lifecycle.bound`; see `HyperNet.Net.Identity`).
-/

namespace HyperNet.Net

open Buffer Protocol Reentrant

/-! ## Objects -/

namespace World

@[simp] theorem obj_setObj_self (w : World) (o : Nat) (s : Session) : (w.setObj o s).obj o = s :=
  if_pos rfl

theorem obj_setObj_ne (w : World) {o o' : Nat} (h : o' ≠ o) (s : Session) :
    (w.setObj o s).obj o' = w.obj o' := if_neg h

@[simp] theorem setObj_setObj (w : World) (o : Nat) (s s' : Session) :
    (w.setObj o s).setObj o s' = w.setObj o s' := by
  simp only [setObj, World.mk.injEq, true_and, and_true]
  funext o'
  split <;> rfl

theorem setObj_obj (w : World) (o : Nat) : w.setObj o (w.obj o) = w := by
  have h : (fun o' => if o' = o then w.obj o else w.obj o') = w.obj := by
    funext o'
    split
    next h => rw [h]
    · rfl
  rw [setObj, h]

end World

/-! ## Quiet changes -/

/-- A session without the fields that only timers use, the record of the last write and the
mark the last bytes left. -/
def Session.core (s : Session) : Session :=
  { s with idleTimeoutMs := 0, heartbeatIntervalMs := 0, lastRxAt := 0,
           idleTimerArmed := false, heartbeatTimerArmed := false, lastWrite := none,
           acceptedAtRx := 0 }

/-- A worker without its clock, timers, reported counters and kernel answers, and without what an
application notes for itself. -/
def World.core (w : World) : World :=
  { w with obj := fun o => (w.obj o).core, errors := 0, rxMessages := 0, now := 0, timers := [],
           writes := [], ctls := [], hookCalls := [] }

/-- Nothing changes but what `core` leaves out. -/
def Quiet (w w' : World) : Prop := w'.core = w.core

namespace Quiet

variable {u v w : World}

theorem refl (w : World) : Quiet w w := Eq.refl _

section

variable (h : Quiet u v)
include h

theorem trans (h' : Quiet v w) : Quiet u w := Eq.trans h' h

theorem cfg : v.cfg = u.cfg := (congrArg World.cfg h :)

theorem loop : v.loop = u.loop := (congrArg World.loop h :)

theorem isOpen : v.isOpen = u.isOpen := (congrArg World.isOpen h :)

theorem sessions : v.sessions = u.sessions := (congrArg World.sessions h :)

theorem created : v.created = u.created := (congrArg World.created h :)

theorem localCounter : v.localCounter = u.localCounter :=
  (congrArg World.localCounter h :)

theorem arrivals : v.arrivals = u.arrivals := (congrArg World.arrivals h :)

theorem obj_core (o : Nat) : (v.obj o).core = (u.obj o).core :=
  congrFun (congrArg World.obj h) o

theorem state (o : Nat) : (v.obj o).state = (u.obj o).state :=
  (congrArg Session.state (h.obj_core o) :)

theorem sessionStarted (o : Nat) : Quiet (u.sessionStarted o) (v.sessionStarted o) :=
  congrArg (fun w : World => w.sessionStarted o) h

end

/-- Timer fields of one session. -/
theorem setObj {o : Nat} {s : Session} (h : s.core = (w.obj o).core) : Quiet w (w.setObj o s) := by
  have hobj : (fun o' => ((w.setObj o s).obj o').core) = fun o' => (w.obj o').core := by
    funext o'
    by_cases heq : o' = o
    · subst heq
      rw [World.obj_setObj_self, h]
    · rw [World.obj_setObj_ne w heq]
  simp only [Quiet, World.core, hobj]
  rfl

end Quiet

/-! ## Effects -/

/-- The send side of a session, without the kernel's answers. -/
def Session.pipe (s : Session) : Pipe := ⟨s.sendRing, s.sent, [], none⟩

/-- What happens to the send side of a session that stays open. -/
inductive Session.Sends (s : Session) : Session → Prop
  /-- Queued bytes went to the kernel. -/
  | flushed (p : Pipe) : s.pipe.Carries p [] →
      Sends s { s with sendRing := p.ring, sent := p.sent }
  /-- A call of `sendPacketU16` returned `true`. -/
  | packet (p : Pipe) (packet : Packet) : s.pipe.Carries p packet.frame →
      Sends s { s with sendRing := p.ring, sent := p.sent,
                       accepted := s.accepted ++ [packet], inCall := none }

/-- What happens to the send side of a session right before it is closed. -/
inductive Session.Stops (s : Session) : Session → Prop
  | idle : Stops s s
  /-- A call of `sendPacketU16` ends the session. -/
  | inCall (p : Pipe) (packet : Packet) : s.sent <+: p.sent →
      p.sent <+: s.pipe.stream ++ packet.frame → p.ring.capacity = s.sendRing.capacity →
      Stops s { s with sendRing := p.ring, sent := p.sent, inCall := some packet }

/-- What happens to the receive side. -/
inductive Session.Receives (s : Session) : Session → Prop
  | mk (recvRing : Ring) (received : List UInt8) (payloads : List (List UInt8))
      (dispatched : List Packet) (closedInDispatch : Bool) :
      recvRing.capacity = s.recvRing.capacity →
      Receives s { s with recvRing, received, payloads, dispatched, closedInDispatch }

namespace World

/-- A session is closed and everything about it taken back. -/
def detach (w : World) (o : Nat) (reason : String) : World :=
  { w with
    loop := w.loop.set (w.obj o).fd none
    isOpen := fun fd => if fd = (w.obj o).fd then false else w.isOpen fd
    sessions := w.sessions.filter (·.1 ≠ (w.obj o).id)
    currentConnections := w.currentConnections - 1
    trace := w.trace ++ [AppEvent.ended o] }.setObj o
    { w.obj o with fd := -1, state := .closed, closeReason := some reason }

theorem id_detach (w : World) (o : Nat) (reason : String) (o' : Nat) :
    ((w.detach o reason).obj o').id = (w.obj o').id := by
  by_cases heq : o' = o
  · rw [heq, detach, obj_setObj_self]
  · rw [detach, obj_setObj_ne _ heq]

/-- The mask of a session and of its registration. -/
def mask (w : World) (o : Nat) (ctx : FdContext Handler) (events : UInt32) : World :=
  (w.setLoop (w.loop.set (w.obj o).fd (some { ctx with registeredEvents := events }))).setObj o
    { w.obj o with currentEpollMask := events }

/-- A new session on `fd`. -/
def enroll (w : World) (fd : Int) (s : Session) : World :=
  { w with
    loop := ⟨(w.loop.set fd (some ⟨fd, .session w.created, baseEpollMask,
      w.loop.registrations⟩)).fdContexts, w.loop.registrations + 1⟩
    isOpen := fun fd' => if fd' = fd then true else w.isOpen fd'
    created := w.created + 1
    sessions := w.sessions ++ [(s.id, w.created)]
    localCounter := w.localCounter + 1
    arrivals := w.arrivals - 1
    accepts := w.accepts + 1
    currentConnections := w.currentConnections + 1
    trace := w.trace ++ [AppEvent.started w.created] }.setObj w.created s

/-- A connection that does not become a session. -/
def refuse (w : World) (fd : Int) : World :=
  { w with
    loop := w.loop.set fd none
    isOpen := fun fd' => if fd' = fd then false else w.isOpen fd'
    localCounter := w.localCounter + 1
    arrivals := w.arrivals - 1
    accepts := w.accepts + 1 }

/-- Another owner's descriptor is registered. -/
def register (w : World) (fd : Int) (events : UInt32) (tag : Nat) : World :=
  { w with
    loop := ⟨(w.loop.set fd (some ⟨fd, .other tag, events, w.loop.registrations⟩)).fdContexts,
      w.loop.registrations + 1⟩
    isOpen := fun fd' => if fd' = fd then true else w.isOpen fd' }

/-- Another owner's descriptor is given back. -/
def release (w : World) (fd : Int) : World :=
  { w with
    loop := w.loop.set fd none
    isOpen := fun fd' => if fd' = fd then false else w.isOpen fd' }

/-- A descriptor that is free for a new session: not open, or that of a dial. -/
def Vacant (w : World) (fd : Int) : Prop := w.isOpen fd = false ∨ w.isOther fd = true

end World

/-- The session `onAccepted` starts with. -/
structure Session.Fresh (cfg : Config) (id : UInt64) (fd : Int) (s : Session) : Prop where
  id : s.id = id
  fd : s.fd = fd
  state : s.state = .connected
  mask : s.currentEpollMask = baseEpollMask
  recvRing : s.recvRing.contents = [] ∧ s.recvRing.capacity = cfg.recvRingCapacity
  sendRing : s.sendRing.contents = [] ∧ s.sendRing.capacity = cfg.sendRingCapacity
  send : s.sent = [] ∧ s.accepted = [] ∧ s.inCall = none
  receive : s.received = [] ∧ s.payloads = [] ∧ s.dispatched = [] ∧ s.closedInDispatch = false

/-- One change of a worker's tables; `r` is the session whose receive side may change. -/
inductive Effect : Option Nat → World → World → Prop
  | quiet {r w w'} : Quiet w w' → Effect r w w'
  | sends {r w w'} (o : Nat) (s : Session) : o < w.created → (w.obj o).state = .connected →
      (w.obj o).Sends s → Quiet (w.setObj o s) w' → Effect r w w'
  | masked {r w w'} (o : Nat) (ctx : FdContext Handler) (events : UInt32) : o < w.created →
      (w.obj o).state = .connected → w.loop.fdContexts (w.obj o).fd = some ctx →
      Quiet (w.mask o ctx events) w' → Effect r w w'
  | closed {r w w'} (o : Nat) (s : Session) (reason : String) : o < w.created →
      (w.obj o).state = .connected → (w.obj o).Stops s →
      Quiet ((w.setObj o s).detach o reason) w' → Effect r w w'
  | enrolled {r w w'} (fd : Int) (s : Session) : 0 ≤ fd → w.Vacant fd → 0 < w.arrivals →
      s.Fresh w.cfg (nextSessionId w) fd → Quiet (w.enroll fd s) w' → Effect r w w'
  | refused {r w w'} (fd : Int) : w.Vacant fd → 0 < w.arrivals →
      Quiet (w.refuse fd) w' → Effect r w w'
  | registered {r w w'} (fd : Int) (events : UInt32) (tag : Nat) : 0 ≤ fd →
      w.isOpen fd = false → Quiet (w.register fd events tag) w' → Effect r w w'
  | released {r w w'} (fd : Int) : w.isOther fd = true → Quiet (w.release fd) w' → Effect r w w'
  | received {w w'} (o : Nat) (s : Session) : o < w.created → (w.obj o).Receives s →
      Quiet (w.setObj o s) w' → Effect (some o) w w'

/-! ## The invariant -/

/-- The id of the `c`-th call of `onAccepted`. -/
def sessionId (ownerWorkerId : UInt32) (c : Nat) : UInt64 :=
  (ownerWorkerId.toUInt64 <<< 32) ||| UInt64.ofNat c

/-- The upper half of an id is the worker's number with the upper half of the counter
over it. -/
theorem toNat_sessionId (wid : UInt32) {c : Nat} (hc : c < 2 ^ 64) :
    (sessionId wid c).toNat = (wid.toNat ||| c / 2 ^ 32) * 2 ^ 32 + c % 2 ^ 32 := by
  have hwid := wid.toNat_lt
  have hlow : c % 2 ^ 32 < 2 ^ 32 := Nat.mod_lt _ (by decide)
  have hsplit : c = (c / 2 ^ 32) <<< 32 ||| c % 2 ^ 32 := by
    rw [← Nat.shiftLeft_add_eq_or_of_lt hlow, Nat.shiftLeft_eq, Nat.mul_comm]
    exact (Nat.div_add_mod c _).symm
  have hwidth : wid.toNat <<< 32 < 2 ^ 64 := by
    rw [Nat.shiftLeft_eq]
    omega
  rw [sessionId, UInt64.toNat_or, UInt64.toNat_shiftLeft, UInt32.toNat_toUInt64,
    UInt64.toNat_ofNat', show (32 : UInt64).toNat % 64 = 32 from rfl, Nat.mod_eq_of_lt hwidth,
    Nat.mod_eq_of_lt hc]
  calc wid.toNat <<< 32 ||| c
      = wid.toNat <<< 32 ||| ((c / 2 ^ 32) <<< 32 ||| c % 2 ^ 32) := congrArg _ hsplit
    _ = (wid.toNat ||| c / 2 ^ 32) <<< 32 ||| c % 2 ^ 32 := by
        rw [← Nat.or_assoc, ← Nat.shiftLeft_or_distrib]
    _ = (wid.toNat ||| c / 2 ^ 32) * 2 ^ 32 + c % 2 ^ 32 := by
        rw [← Nat.shiftLeft_add_eq_or_of_lt hlow, Nat.shiftLeft_eq]

theorem or_one (n : Nat) : n ||| 1 = n + (1 - n % 2) := by
  have hlow : n % 2 < 2 ^ 1 := Nat.mod_lt _ (by decide)
  have hsplit : n = (n / 2) <<< 1 ||| n % 2 := by
    rw [← Nat.shiftLeft_add_eq_or_of_lt hlow, Nat.shiftLeft_eq, Nat.mul_comm]
    exact (Nat.div_add_mod n 2).symm
  have hbit : n % 2 ||| 1 = 1 := by
    rcases Nat.mod_two_eq_zero_or_one n with h | h <;> rw [h] <;> rfl
  calc n ||| 1 = ((n / 2) <<< 1 ||| n % 2) ||| 1 := congrArg (· ||| 1) hsplit
    _ = (n / 2) <<< 1 + 1 := by
        rw [Nat.or_assoc, hbit, ← Nat.shiftLeft_add_eq_or_of_lt (by decide)]
    _ = n + (1 - n % 2) := by
        rw [Nat.shiftLeft_eq]
        omega

/-- The number of calls of `onAccepted` from which on the ids of a worker are no longer
its own: the counter's bit 32 falls on the lowest bit of the worker's number. -/
def idSpace (wid : UInt32) : Nat := 2 ^ 32 + wid.toNat % 2

variable {r : Option Nat} {w w' : World} {o : Nat} {wid : UInt32}

theorem lt_idSpace {n : Nat} (h : n < 2 ^ 32) : n < idSpace wid :=
  Nat.lt_of_lt_of_le h (Nat.le_add_right _ _)

theorem le_of_lt_idSpace {n : Nat} (h : n < idSpace wid) : n ≤ 2 ^ 32 := by
  unfold idSpace at h
  omega

/-- Up to there, worker and counter are the two halves of the id. -/
theorem toNat_sessionId_of_lt {c : Nat} (hc : c < idSpace wid) :
    (sessionId wid c).toNat = wid.toNat * 2 ^ 32 + c % 2 ^ 32 := by
  have hle := le_of_lt_idSpace hc
  rw [toNat_sessionId wid (Nat.lt_of_le_of_lt hle (by decide))]
  rcases Nat.lt_or_eq_of_le hle with hlt | rfl
  · rw [Nat.div_eq_of_lt hlt, Nat.or_zero]
  · have hodd : wid.toNat % 2 = 1 := by
      unfold idSpace at hc
      omega
    rw [Nat.div_self (by decide), or_one, hodd]
    rfl

theorem sessionId_inj {c c' : Nat} (hc : c ≤ 2 ^ 32) (hc' : c' ≤ 2 ^ 32) (hpos : 0 < c)
    (hpos' : 0 < c') (h : sessionId wid c = sessionId wid c') : c = c' := by
  have h' := congrArg UInt64.toNat h
  rw [toNat_sessionId wid (by omega), toNat_sessionId wid (by omega)] at h'
  omega

/-- A session in use: connected, listed, its socket open and registered for it. -/
structure Live (w : World) (o : Nat) : Prop where
  state : (w.obj o).state = .connected
  listed : ((w.obj o).id, o) ∈ w.sessions
  nonneg : 0 ≤ (w.obj o).fd
  isOpen : w.isOpen (w.obj o).fd = true
  context : ∃ ctx, w.loop.fdContexts (w.obj o).fd = some ctx ∧ ctx.handler = .session o ∧
    ctx.registeredEvents = (w.obj o).currentEpollMask

/-- A session that has ended. -/
structure Gone (w : World) (o : Nat) : Prop where
  state : (w.obj o).state = .closed
  unlisted : ∀ id, (id, o) ∉ w.sessions
  fd : (w.obj o).fd = -1

/-- What holds of a worker between effects. -/
structure Lifecycle (w : World) : Prop where
  bound : w.accepts + w.arrivals < idSpace w.cfg.ownerWorkerId
  counter : w.localCounter = UInt64.ofNat (w.accepts + 1)
  issued : ∀ o < w.created, ∃ c, 0 < c ∧ c ≤ w.accepts ∧
    (w.obj o).id = sessionId w.cfg.ownerWorkerId c
  distinct : ∀ o < w.created, ∀ o' < w.created, (w.obj o).id = (w.obj o').id → o = o'
  cases : ∀ o < w.created, Live w o ∨ Gone w o
  entries : ∀ e ∈ w.sessions, e.2 < w.created ∧ (w.obj e.2).id = e.1
  nodup : w.sessions.Nodup
  contexts : ∀ fd ctx, w.loop.fdContexts fd = some ctx → 0 ≤ fd ∧ w.isOpen fd = true ∧
    ∀ o, ctx.handler = .session o → o < w.created ∧ (w.obj o).state = .connected ∧
      (w.obj o).fd = fd
  gauge : w.currentConnections = w.sessions.length

theorem lifecycle_core {w : World} : Lifecycle w.core ↔ Lifecycle w := by
  constructor
  · rintro ⟨h₁, h₂, h₃, h₄, h₅, h₆, h₇, h₈, h₉⟩
    refine ⟨h₁, h₂, h₃, h₄, fun o ho => ?_, h₆, h₇, h₈, h₉⟩
    rcases h₅ o ho with ⟨g₁, g₂, g₃, g₄, g₅⟩ | ⟨g₁, g₂, g₃⟩
    · exact .inl ⟨g₁, g₂, g₃, g₄, g₅⟩
    · exact .inr ⟨g₁, g₂, g₃⟩
  · rintro ⟨h₁, h₂, h₃, h₄, h₅, h₆, h₇, h₈, h₉⟩
    refine ⟨h₁, h₂, h₃, h₄, fun o ho => ?_, h₆, h₇, h₈, h₉⟩
    rcases h₅ o ho with ⟨g₁, g₂, g₃, g₄, g₅⟩ | ⟨g₁, g₂, g₃⟩
    · exact .inl ⟨g₁, g₂, g₃, g₄, g₅⟩
    · exact .inr ⟨g₁, g₂, g₃⟩

theorem World.mem_of_find {w : World} {id : UInt64} (hf : w.find id = some o) :
    (id, o) ∈ w.sessions := by
  obtain ⟨l₁, l₂, hl, -⟩ := List.lookup_eq_some_iff.mp hf
  rw [hl]
  exact List.mem_append_right _ (List.mem_cons_self ..)

/-- Sessions in use have their own descriptors. -/
theorem Live.fd_inj {w : World} {o o' : Nat} (hl : Live w o) (hl' : Live w o')
    (hfd : (w.obj o).fd = (w.obj o').fd) : o = o' := by
  obtain ⟨ctx, hctx, hhandler, -⟩ := hl.context
  obtain ⟨ctx', hctx', hhandler', -⟩ := hl'.context
  rw [hfd, hctx'] at hctx
  cases hctx
  exact Handler.session.inj (hhandler.symm.trans hhandler')

/-- A session in use stays so where nothing of it changes. -/
theorem Live.frame (hl : Live w o) (hobj : w'.obj o = w.obj o)
    (hlisted : ((w.obj o).id, o) ∈ w'.sessions)
    (hopen : w'.isOpen (w.obj o).fd = w.isOpen (w.obj o).fd)
    (hctx : w'.loop.fdContexts (w.obj o).fd = w.loop.fdContexts (w.obj o).fd) : Live w' o := by
  obtain ⟨h₁, -, h₃, h₄, h₅⟩ := hl
  rw [← hopen] at h₄
  rw [← hctx] at h₅
  rw [← hobj] at h₁ hlisted h₃ h₄ h₅
  exact ⟨h₁, hlisted, h₃, h₄, h₅⟩

theorem Gone.frame (hg : Gone w o) (hobj : w'.obj o = w.obj o)
    (hunlisted : ∀ id, (id, o) ∉ w'.sessions) : Gone w' o := by
  obtain ⟨h₁, -, h₃⟩ := hg
  rw [← hobj] at h₁ h₃
  exact ⟨h₁, hunlisted, h₃⟩

namespace Lifecycle

section

variable (h : Lifecycle w)
include h

theorem quiet (hq : Quiet w w') : Lifecycle w' := by
  have h' := lifecycle_core.mpr h
  rw [← show w'.core = w.core from hq] at h'
  exact lifecycle_core.mp h'

theorem live (ho : o < w.created) (hc : (w.obj o).state = .connected) : Live w o := by
  rcases h.cases o ho with hlive | hgone
  · exact hlive
  · exact absurd (hc.symm.trans hgone.state) nofun

theorem find_of_mem {id : UInt64} (hmem : (id, o) ∈ w.sessions) : w.find id = some o := by
  cases hf : w.find id with
  | none =>
    have hne := List.lookup_eq_none_iff.mp hf _ hmem
    exact absurd hne (by simp)
  | some o' =>
    obtain ⟨ho, hid⟩ := h.entries _ hmem
    obtain ⟨ho', hid'⟩ := h.entries _ (World.mem_of_find hf)
    rw [h.distinct o' ho' o ho (hid'.trans hid.symm)]

/-- A session that is found is in use. -/
theorem live_of_find {id : UInt64} (hf : w.find id = some o) :
    o < w.created ∧ Live w o ∧ (w.obj o).id = id := by
  have hmem := World.mem_of_find hf
  obtain ⟨ho, hid⟩ := h.entries _ hmem
  refine ⟨ho, ?_, hid⟩
  rcases h.cases o ho with hlive | hgone
  · exact hlive
  · exact absurd hmem (hgone.unlisted id)

/-- Changes of a session that concern neither its tables nor its state. -/
theorem setObj {s : Session} (hid : s.id = (w.obj o).id) (hfd : s.fd = (w.obj o).fd)
    (hstate : s.state = (w.obj o).state) (hmask : s.currentEpollMask = (w.obj o).currentEpollMask) :
    Lifecycle (w.setObj o s) := by
  have hobj : ∀ o', ((w.setObj o s).obj o').id = (w.obj o').id ∧
      ((w.setObj o s).obj o').fd = (w.obj o').fd ∧
      ((w.setObj o s).obj o').state = (w.obj o').state ∧
      ((w.setObj o s).obj o').currentEpollMask = (w.obj o').currentEpollMask := by
    intro o'
    by_cases heq : o' = o
    · subst heq
      rw [World.obj_setObj_self]
      exact ⟨hid, hfd, hstate, hmask⟩
    · rw [World.obj_setObj_ne w heq]
      exact ⟨rfl, rfl, rfl, rfl⟩
  obtain ⟨h₁, h₂, h₃, h₄, h₅, h₆, h₇, h₈, h₉⟩ := h
  refine ⟨h₁, h₂, fun o' ho' => ?_, fun o₁ ho₁ o₂ ho₂ heq => ?_, fun o' ho' => ?_,
    fun e he => ?_, h₇, fun fd ctx hctx => ?_, h₉⟩
  · rw [(hobj o').1]
    exact h₃ o' ho'
  · rw [(hobj o₁).1, (hobj o₂).1] at heq
    exact h₄ o₁ ho₁ o₂ ho₂ heq
  · obtain ⟨hid', hfd', hstate', hmask'⟩ := hobj o'
    rcases h₅ o' ho' with ⟨g₁, g₂, g₃, g₄, g₅⟩ | ⟨g₁, g₂, g₃⟩
    · refine .inl ⟨hstate'.trans g₁, ?_, ?_, ?_, ?_⟩
      · rw [hid']
        exact g₂
      · rw [hfd']
        exact g₃
      · rw [hfd']
        exact g₄
      · rw [hfd', hmask']
        exact g₅
    · exact .inr ⟨hstate'.trans g₁, g₂, hfd'.trans g₃⟩
  · rw [(hobj e.2).1]
    exact h₆ e he
  · obtain ⟨g₁, g₂, g₃⟩ := h₈ fd ctx hctx
    refine ⟨g₁, g₂, fun o' ho' => ?_⟩
    rw [(hobj o').2.2.1, (hobj o').2.1]
    exact g₃ o' ho'

/-- Removing the entry of a session shortens the list by one. -/
theorem length_filter (hl : Live w o) :
    (w.sessions.filter (·.1 ≠ (w.obj o).id)).length + 1 = w.sessions.length := by
  have hone : w.sessions.countP (fun e => decide ¬ decide (e.1 ≠ (w.obj o).id) = true) = 1 := by
    rw [← List.count_eq_one_of_mem h.nodup hl.listed, List.count]
    refine List.countP_congr fun e he => ?_
    obtain ⟨ho', hid⟩ := h.entries e he
    simp only [decide_eq_true_eq, beq_iff_eq, not_not]
    constructor
    · intro heq
      have ho := (h.entries _ hl.listed).1
      exact Prod.ext heq (h.distinct _ ho' _ ho (hid.trans heq))
    · rintro rfl
      rfl
  rw [← List.countP_eq_length_filter, ← hone]
  exact (List.length_eq_countP_add_countP _).symm

theorem mask (hl : Live w o) {ctx : FdContext Handler} (events : UInt32)
    (hctx : w.loop.fdContexts (w.obj o).fd = some ctx) : Lifecycle (w.mask o ctx events) := by
  have hhandler : ctx.handler = .session o := by
    obtain ⟨ctx', hctx', hhandler, -⟩ := hl.context
    rw [hctx] at hctx'
    cases hctx'
    exact hhandler
  have hid : ∀ o', ((w.mask o ctx events).obj o').id = (w.obj o').id ∧
      ((w.mask o ctx events).obj o').fd = (w.obj o').fd ∧
      ((w.mask o ctx events).obj o').state = (w.obj o').state := by
    intro o'
    by_cases heq : o' = o
    · subst heq
      rw [World.mask, World.obj_setObj_self]
      exact ⟨rfl, rfl, rfl⟩
    · rw [World.mask, World.obj_setObj_ne _ heq]
      exact ⟨rfl, rfl, rfl⟩
  refine ⟨h.bound, h.counter, fun o' ho' => ?_, fun o₁ ho₁ o₂ ho₂ heq => ?_, fun o' ho' => ?_,
    fun e he => ?_, h.nodup, fun fd ctx' hctx' => ?_, h.gauge⟩
  · rw [(hid o').1]
    exact h.issued o' ho'
  · rw [(hid o₁).1, (hid o₂).1] at heq
    exact h.distinct o₁ ho₁ o₂ ho₂ heq
  · by_cases heq : o' = o
    · subst heq
      refine .inl ⟨?_, ?_, ?_, ?_, ?_⟩
      all_goals rw [World.mask, World.obj_setObj_self]
      · exact hl.state
      · exact hl.listed
      · exact hl.nonneg
      · exact hl.isOpen
      · exact ⟨_, EventLoop.fdContexts_set_self _ _ _, hhandler, rfl⟩
    · have hobj : (w.mask o ctx events).obj o' = w.obj o' := World.obj_setObj_ne _ heq _
      rcases h.cases o' ho' with hl' | hg'
      · refine .inl (hl'.frame hobj hl'.listed rfl ?_)
        exact EventLoop.fdContexts_set_ne _ (fun hfd => heq (hl'.fd_inj hl hfd)) _
      · exact .inr (hg'.frame hobj hg'.unlisted)
  · rw [(hid e.2).1]
    exact h.entries e he
  · by_cases hfd : fd = (w.obj o).fd
    · subst hfd
      refine ⟨hl.nonneg, hl.isOpen, fun o' ho' => ?_⟩
      have hset : some { ctx with registeredEvents := events } = some ctx' :=
        (EventLoop.fdContexts_set_self _ _ _).symm.trans hctx'
      cases hset
      obtain rfl := Handler.session.inj (hhandler.symm.trans ho')
      rw [(hid o).2.1, (hid o).2.2]
      exact ⟨(h.entries _ hl.listed).1, hl.state, rfl⟩
    · have hold : w.loop.fdContexts fd = some ctx' :=
        (EventLoop.fdContexts_set_ne _ hfd _).symm.trans hctx'
      obtain ⟨g₁, g₂, g₃⟩ := h.contexts fd ctx' hold
      refine ⟨g₁, g₂, fun o' ho' => ?_⟩
      rw [(hid o').2.1, (hid o').2.2]
      exact g₃ o' ho'

theorem detach (hl : Live w o) (reason : String) : Lifecycle (w.detach o reason) := by
  obtain ⟨ho, -⟩ := h.entries _ hl.listed
  have hne : ∀ o', o' ≠ o → (w.detach o reason).obj o' = w.obj o' := fun o' heq =>
    World.obj_setObj_ne _ heq _
  have hself : (w.detach o reason).obj o =
      { w.obj o with fd := -1, state := .closed, closeReason := some reason } :=
    World.obj_setObj_self _ _ _
  have hid := World.id_detach w o reason
  have hmem : ∀ e, e ∈ (w.detach o reason).sessions ↔ e ∈ w.sessions ∧ e.1 ≠ (w.obj o).id := by
    intro e
    change e ∈ w.sessions.filter _ ↔ _
    rw [List.mem_filter, decide_eq_true_eq]
  refine ⟨h.bound, h.counter, fun o' ho' => ?_, fun o₁ ho₁ o₂ ho₂ heq => ?_, fun o' ho' => ?_,
    fun e he => ?_, h.nodup.filter _, fun fd ctx hctx => ?_, ?_⟩
  · rw [hid o']
    exact h.issued o' ho'
  · rw [hid o₁, hid o₂] at heq
    exact h.distinct o₁ ho₁ o₂ ho₂ heq
  · by_cases heq : o' = o
    · subst heq
      refine .inr ⟨by rw [hself], fun id hlisted => ?_, by rw [hself]⟩
      obtain ⟨hlisted, hother⟩ := (hmem _).mp hlisted
      exact hother (h.entries _ hlisted).2.symm
    · rcases h.cases o' ho' with hl' | hg'
      · have hfd : (w.obj o').fd ≠ (w.obj o).fd := fun hfd => heq (hl'.fd_inj hl hfd)
        refine .inl (hl'.frame (hne o' heq) ?_ (if_neg hfd) (EventLoop.fdContexts_set_ne _ hfd _))
        exact (hmem _).mpr ⟨hl'.listed, fun hid => heq (h.distinct o' ho' o ho hid)⟩
      · exact .inr (hg'.frame (hne o' heq) fun id hlisted =>
          hg'.unlisted id ((hmem _).mp hlisted).1)
  · rw [hid e.2]
    exact h.entries e ((hmem e).mp he).1
  · by_cases hfd : fd = (w.obj o).fd
    · subst hfd
      exact nomatch (EventLoop.fdContexts_set_self _ _ _).symm.trans hctx
    · have hold : w.loop.fdContexts fd = some ctx :=
        (EventLoop.fdContexts_set_ne _ hfd _).symm.trans hctx
      obtain ⟨g₁, g₂, g₃⟩ := h.contexts fd ctx hold
      refine ⟨g₁, (if_neg hfd).trans g₂, fun o' ho' => ?_⟩
      obtain ⟨k₁, k₂, k₃⟩ := g₃ o' ho'
      rw [hne o' (fun heq => hfd (by rw [← k₃, heq]))]
      exact ⟨k₁, k₂, k₃⟩
  · have hlen := h.length_filter hl
    have hgauge := h.gauge
    change w.currentConnections - 1 = ((w.sessions.filter (·.1 ≠ (w.obj o).id)).length : Int)
    omega

end

/-- No session in use is on a vacant descriptor. -/
theorem fd_ne_of_vacant {fd : Int} (hv : w.Vacant fd) (hl : Live w o) : (w.obj o).fd ≠ fd := by
  rintro rfl
  rcases hv with hclosed | hother
  · exact nomatch hl.isOpen.symm.trans hclosed
  · obtain ⟨ctx, hctx, hhandler, -⟩ := hl.context
    simp only [World.isOther, hctx, hhandler] at hother
    exact nomatch hother

section

variable {fd : Int} (h : Lifecycle w)
include h

/-- Changes at a vacant descriptor that do not bring in a session. -/
theorem of_vacant (hv : w.Vacant fd) {accepts arrivals : Nat} (loop : EventLoop Handler)
    (isOpen : Int → Bool) (hbound : accepts + arrivals < idSpace w.cfg.ownerWorkerId)
    (hle : w.accepts ≤ accepts) (hctx : ∀ fd' ≠ fd, loop.fdContexts fd' = w.loop.fdContexts fd')
    (hopen : ∀ fd' ≠ fd, isOpen fd' = w.isOpen fd') (hnew : ∀ ctx, loop.fdContexts fd = some ctx →
      0 ≤ fd ∧ isOpen fd = true ∧ ∀ o, ctx.handler ≠ .session o) :
    Lifecycle { w with loop, isOpen, accepts, arrivals,
                       localCounter := UInt64.ofNat (accepts + 1) } := by
  refine ⟨hbound, rfl, fun o ho => ?_, h.distinct, fun o ho => ?_, h.entries, h.nodup,
    fun fd' ctx hctx' => ?_, h.gauge⟩
  · obtain ⟨c, hpos, hc, hid⟩ := h.issued o ho
    exact ⟨c, hpos, Nat.le_trans hc hle, hid⟩
  · rcases h.cases o ho with hl | hg
    · have hfd := fd_ne_of_vacant hv hl
      exact .inl (hl.frame rfl hl.listed (hopen _ hfd) (hctx _ hfd))
    · exact .inr (hg.frame rfl hg.unlisted)
  · by_cases hfd : fd' = fd
    · subst hfd
      obtain ⟨g₁, g₂, g₃⟩ := hnew ctx hctx'
      exact ⟨g₁, g₂, fun o ho => absurd ho (g₃ o)⟩
    · rw [show loop.fdContexts fd' = _ from hctx fd' hfd] at hctx'
      obtain ⟨g₁, g₂, g₃⟩ := h.contexts fd' ctx hctx'
      exact ⟨g₁, (hopen fd' hfd).trans g₂, g₃⟩

theorem succ_counter : w.localCounter + 1 = UInt64.ofNat (w.accepts + 1 + 1) := by
  rw [h.counter]
  exact (UInt64.ofNat_add (w.accepts + 1) 1).symm

theorem refuse (hv : w.Vacant fd) (harr : 0 < w.arrivals) : Lifecycle (w.refuse fd) := by
  have hbound : w.accepts + 1 + (w.arrivals - 1) < idSpace w.cfg.ownerWorkerId := by
    have := h.bound
    omega
  have h' := h.of_vacant hv (w.loop.set fd none)
    (fun fd' => if fd' = fd then false else w.isOpen fd') hbound (Nat.le_succ _)
    (fun fd' hfd => EventLoop.fdContexts_set_ne _ hfd _) (fun fd' hfd => if_neg hfd)
    (fun ctx hctx => nomatch (EventLoop.fdContexts_set_self _ _ _).symm.trans hctx)
  rw [← h.succ_counter] at h'
  exact h'

theorem register (hfd : 0 ≤ fd) (hopen : w.isOpen fd = false) (events : UInt32) (tag : Nat) :
    Lifecycle (w.register fd events tag) := by
  have h' := h.of_vacant (.inl hopen)
    ⟨(w.loop.set fd (some ⟨fd, .other tag, events, w.loop.registrations⟩)).fdContexts,
      w.loop.registrations + 1⟩
    (fun fd' => if fd' = fd then true else w.isOpen fd') h.bound (Nat.le_refl _)
    (fun fd' hne => EventLoop.fdContexts_set_ne _ hne _) (fun fd' hne => if_neg hne) ?_
  · rw [← h.counter] at h'
    exact h'
  · intro ctx hctx
    cases (EventLoop.fdContexts_set_self _ _ _).symm.trans hctx
    exact ⟨hfd, if_pos rfl, nofun⟩

theorem release (hother : w.isOther fd = true) : Lifecycle (w.release fd) := by
  have h' := h.of_vacant (.inr hother) (w.loop.set fd none)
    (fun fd' => if fd' = fd then false else w.isOpen fd') h.bound (Nat.le_refl _)
    (fun fd' hfd => EventLoop.fdContexts_set_ne _ hfd _) (fun fd' hfd => if_neg hfd)
    (fun ctx hctx => nomatch (EventLoop.fdContexts_set_self _ _ _).symm.trans hctx)
  rw [← h.counter] at h'
  exact h'

theorem nextSessionId_eq : nextSessionId w = sessionId w.cfg.ownerWorkerId (w.accepts + 1) := by
  rw [nextSessionId, h.counter]
  rfl

/-- The next id has not been given to a session yet. -/
theorem id_ne_nextSessionId (harr : 0 < w.arrivals) (ho : o < w.created) :
    (w.obj o).id ≠ nextSessionId w := by
  obtain ⟨c, hpos, hc, hid⟩ := h.issued o ho
  have hbound := le_of_lt_idSpace h.bound
  rw [hid, h.nextSessionId_eq]
  intro heq
  exact absurd (sessionId_inj (by omega) (by omega) hpos (Nat.succ_pos _) heq) (by omega)

theorem enroll {s : Session} (hfd : 0 ≤ fd) (hv : w.Vacant fd) (harr : 0 < w.arrivals)
    (hs : s.Fresh w.cfg (nextSessionId w) fd) : Lifecycle (w.enroll fd s) := by
  have hbound : w.accepts + 1 + (w.arrivals - 1) < idSpace w.cfg.ownerWorkerId := by
    have := h.bound
    omega
  have hnew : (w.enroll fd s).obj w.created = s := World.obj_setObj_self _ _ _
  have hold : ∀ o < w.created, (w.enroll fd s).obj o = w.obj o := fun o ho =>
    World.obj_setObj_ne _ (Nat.ne_of_lt ho) _
  have hid : s.id = sessionId w.cfg.ownerWorkerId (w.accepts + 1) :=
    hs.id.trans h.nextSessionId_eq
  have hfresh : ∀ o < w.created, (w.obj o).id ≠ s.id := fun o ho =>
    hs.id ▸ h.id_ne_nextSessionId harr ho
  refine ⟨hbound, h.succ_counter, fun o ho => ?_, fun o₁ ho₁ o₂ ho₂ heq => ?_, fun o ho => ?_,
    fun e he => ?_, ?_, fun fd' ctx hctx => ?_, ?_⟩
  · rcases Nat.lt_succ_iff_lt_or_eq.mp ho with ho | rfl
    · obtain ⟨c, hpos, hc, hid⟩ := h.issued o ho
      rw [hold o ho]
      exact ⟨c, hpos, Nat.le_succ_of_le hc, hid⟩
    · rw [hnew]
      exact ⟨w.accepts + 1, Nat.succ_pos _, Nat.le_refl _, hid⟩
  · rcases Nat.lt_succ_iff_lt_or_eq.mp ho₁ with ho₁ | rfl <;>
      rcases Nat.lt_succ_iff_lt_or_eq.mp ho₂ with ho₂ | rfl
    · rw [hold o₁ ho₁, hold o₂ ho₂] at heq
      exact h.distinct o₁ ho₁ o₂ ho₂ heq
    · rw [hold o₁ ho₁, hnew] at heq
      exact absurd heq (hfresh o₁ ho₁)
    · rw [hold o₂ ho₂, hnew] at heq
      exact absurd heq.symm (hfresh o₂ ho₂)
    · rfl
  · rcases Nat.lt_succ_iff_lt_or_eq.mp ho with ho | rfl
    · rcases h.cases o ho with hl | hg
      · have hne := fd_ne_of_vacant hv hl
        exact .inl (hl.frame (hold o ho) (List.mem_append_left _ hl.listed) (if_neg hne)
          (EventLoop.fdContexts_set_ne _ hne _))
      · refine .inr (hg.frame (hold o ho) fun id hlisted => ?_)
        rcases List.mem_append.mp hlisted with hlisted | hlisted
        · exact hg.unlisted id hlisted
        · cases List.mem_singleton.mp hlisted
          exact Nat.lt_irrefl _ ho
    · refine .inl ⟨?_, ?_, ?_, ?_, ?_⟩
      all_goals rw [hnew]
      · exact hs.state
      · exact List.mem_append_right _ (List.mem_singleton.mpr rfl)
      · rw [hs.fd]
        exact hfd
      · rw [hs.fd]
        exact if_pos rfl
      · rw [hs.fd, hs.mask]
        exact ⟨_, EventLoop.fdContexts_set_self _ _ _, rfl, rfl⟩
  · rcases List.mem_append.mp he with he | he
    · obtain ⟨ho, hid⟩ := h.entries e he
      rw [hold e.2 ho]
      exact ⟨Nat.lt_succ_of_lt ho, hid⟩
    · cases List.mem_singleton.mp he
      exact ⟨Nat.lt_succ_self _, congrArg Session.id hnew⟩
  · refine List.nodup_append.mpr ⟨h.nodup, List.nodup_singleton _, ?_⟩
    rintro e he e' he' rfl
    cases List.mem_singleton.mp he'
    exact Nat.lt_irrefl _ (h.entries _ he).1
  · by_cases hne : fd' = fd
    · subst hne
      cases (EventLoop.fdContexts_set_self _ _ _).symm.trans hctx
      refine ⟨hfd, if_pos rfl, ?_⟩
      rintro o ⟨⟩
      rw [hnew]
      exact ⟨Nat.lt_succ_self _, hs.state, hs.fd⟩
    · have hctx' : w.loop.fdContexts fd' = some ctx :=
        (EventLoop.fdContexts_set_ne _ hne _).symm.trans hctx
      obtain ⟨g₁, g₂, g₃⟩ := h.contexts fd' ctx hctx'
      refine ⟨g₁, (if_neg hne).trans g₂, fun o ho => ?_⟩
      obtain ⟨k₁, k₂⟩ := g₃ o ho
      rw [hold o k₁]
      exact ⟨Nat.lt_succ_of_lt k₁, k₂⟩
  · have hgauge := h.gauge
    change w.currentConnections + 1 = ((w.sessions ++ [(s.id, w.created)]).length : Int)
    rw [List.length_append]
    simp only [List.length_singleton]
    omega

end

end Lifecycle

/-! ## Paths -/

theorem Effect.lifecycle (e : Effect r w w') (h : Lifecycle w) : Lifecycle w' := by
  cases e with
  | quiet hq => exact h.quiet hq
  | sends o s ho hc hs hq =>
    refine Lifecycle.quiet ?_ hq
    cases hs <;> exact h.setObj rfl rfl rfl rfl
  | masked o ctx events ho hc hctx hq => exact (h.mask (h.live ho hc) events hctx).quiet hq
  | closed o s reason ho hc hs hq =>
    refine Lifecycle.quiet ?_ hq
    have h' : Lifecycle (w.setObj o s) := by
      cases hs <;> exact h.setObj rfl rfl rfl rfl
    refine h'.detach (h'.live ho ?_) reason
    rw [World.obj_setObj_self]
    cases hs <;> exact hc
  | enrolled fd s hfd hv harr hs hq => exact (h.enroll hfd hv harr hs).quiet hq
  | refused fd hv harr hq => exact (h.refuse hv harr).quiet hq
  | registered fd events tag hfd hopen hq => exact (h.register hfd hopen events tag).quiet hq
  | released fd hother hq => exact (h.release hother).quiet hq
  | received o s ho hs hq =>
    refine Lifecycle.quiet ?_ hq
    cases hs
    exact h.setObj rfl rfl rfl rfl

theorem Effect.of_none (e : Effect none w w') : Effect r w w' := by
  cases e with
  | quiet hq => exact .quiet hq
  | sends o s ho hc hs hq => exact .sends o s ho hc hs hq
  | masked o ctx events ho hc hctx hq => exact .masked o ctx events ho hc hctx hq
  | closed o s reason ho hc hs hq => exact .closed o s reason ho hc hs hq
  | enrolled fd s hfd hv harr hs hq => exact .enrolled fd s hfd hv harr hs hq
  | refused fd hv harr hq => exact .refused fd hv harr hq
  | registered fd events tag hfd hopen hq => exact .registered fd events tag hfd hopen hq
  | released fd hother hq => exact .released fd hother hq

/-- Any number of effects. -/
abbrev Path (r : Option Nat) : World → World → Prop := Relation.ReflTransGen (Effect r)

theorem Path.lifecycle (p : Path r w w') (h : Lifecycle w) :
    Lifecycle w' := path_invariant (fun e => e.lifecycle) p h

/-- From a state that satisfies the invariant a path leads on. -/
def Reach (r : Option Nat) (w w' : World) : Prop := Lifecycle w → Path r w w'

namespace Reach

variable {u v : World}

theorem refl (w : World) : Reach r w w := fun _ => .refl

theorem trans (h : Reach r u v) (h' : Reach r v w) : Reach r u w := fun hu =>
  (h hu).trans (h' ((h hu).lifecycle hu))

theorem of_effect (h : Lifecycle u → Effect r u v) : Reach r u v := fun hu => .single (h hu)

theorem of_quiet (h : Quiet u v) : Reach r u v := .of_effect fun _ => .quiet h

theorem of_none (h : Reach none u v) : Reach r u v := fun hu =>
  Relation.ReflTransGen.mono (fun _ _ e => e.of_none) _ _ (h hu)

end Reach

/-! ## What becomes of a session -/

/-- What an effect may do to a session; `p` tells whether its receive side may change. -/
inductive Session.Change (p : Prop) (s s' : Session) : Prop
  | quiet : s'.core = s.core → Change p s s'
  | sends (t : Session) : s.state = .connected → s.Sends t → s'.core = t.core → Change p s s'
  | masked (events : UInt32) : s'.core = { s with currentEpollMask := events }.core → Change p s s'
  | closed (t : Session) (reason : String) : s.state = .connected → s.Stops t →
      s'.core = { t with fd := -1, state := .closed, closeReason := some reason }.core →
      Change p s s'
  | receives (t : Session) : p → s.Receives t → s'.core = t.core → Change p s s'

/-- One session changes, whatever becomes of the tables. -/
theorem World.change_setObj {p : Nat → Prop} {w v w' : World} {s : Session}
    (hq : Quiet (v.setObj o s) w') (hobj : ∀ o' ≠ o, v.obj o' = w.obj o')
    (h : ∀ s', s'.core = s.core → (w.obj o).Change (p o) s') (o' : Nat) :
    (w.obj o').Change (p o') (w'.obj o') := by
  have hcore := hq.obj_core o'
  by_cases heq : o' = o
  · subst heq
    rw [World.obj_setObj_self] at hcore
    exact h _ hcore
  · rw [World.obj_setObj_ne v heq, hobj o' heq] at hcore
    exact .quiet hcore

theorem Effect.change (e : Effect r w w') (ho : o < w.created) :
    (w.obj o).Change (r = some o) (w'.obj o) := by
  cases e with
  | quiet hq => exact .quiet (hq.obj_core o)
  | sends o' s ho' hc hs hq =>
    exact World.change_setObj (p := fun o => r = some o) hq (fun _ _ => rfl)
      (fun s' hs' => .sends s hc hs hs') o
  | masked o' ctx events ho' hc hctx hq =>
    exact World.change_setObj (p := fun o => r = some o) hq (fun _ _ => rfl)
      (fun s' hs' => .masked events hs') o
  | closed o' s reason ho' hc hs hq =>
    rw [World.detach, World.obj_setObj_self] at hq
    exact World.change_setObj (p := fun o => r = some o) hq
      (fun o'' hne => World.obj_setObj_ne w hne s) (fun s' hs' => .closed s reason hc hs hs') o
  | enrolled fd s hfd hv harr hs hq =>
    refine .quiet ((hq.obj_core o).trans ?_)
    rw [World.enroll, World.obj_setObj_ne _ (Nat.ne_of_lt ho)]
  | refused fd hv harr hq | registered fd events tag hfd hopen hq | released fd hother hq =>
    exact .quiet (hq.obj_core o)
  | received o' s ho' hs hq =>
    exact World.change_setObj (p := fun o => some o' = some o) hq (fun _ _ => rfl)
      (fun s' hs' => .receives s rfl hs hs') o

theorem Session.Fresh.of_core {cfg : Config} {id : UInt64} {fd : Int} {s s' : Session}
    (h : s.Fresh cfg id fd) (hs : s'.core = s.core) : s'.Fresh cfg id fd := by
  have h' : s'.core.Fresh cfg id fd := by
    rw [hs]
    exact ⟨h.id, h.fd, h.state, h.mask, h.recvRing, h.sendRing, h.send, h.receive⟩
  exact ⟨h'.id, h'.fd, h'.state, h'.mask, h'.recvRing, h'.sendRing, h'.send, h'.receive⟩

/-- A session that an effect brings in is a fresh one. -/
theorem Effect.fresh (e : Effect r w w') :
    w'.cfg = w.cfg ∧ w.created ≤ w'.created ∧
    ∀ o < w'.created, w.created ≤ o → ∃ id fd, (w'.obj o).Fresh w.cfg id fd := by
  have hsame : ∀ v : World, Quiet v w' → v.cfg = w.cfg → v.created = w.created →
      w'.cfg = w.cfg ∧ w.created ≤ w'.created ∧
      ∀ o < w'.created, w.created ≤ o → ∃ id fd, (w'.obj o).Fresh w.cfg id fd := by
    intro v hq hcfg hcreated
    have hcreated' : w'.created = w.created := hq.created.trans hcreated
    refine ⟨hq.cfg.trans hcfg, Nat.le_of_eq hcreated'.symm, fun o ho hle => ?_⟩
    exact absurd (hcreated' ▸ ho) (Nat.not_lt_of_ge hle)
  cases e with
  | quiet hq => exact hsame w hq rfl rfl
  | sends o s ho hc hs hq | masked o ctx events ho hc hctx hq | closed o s reason ho hc hs hq =>
    exact hsame _ hq rfl rfl
  | enrolled fd s hfd hv harr hs hq =>
    have hcreated : w'.created = w.created + 1 := hq.created
    refine ⟨hq.cfg, by rw [hcreated]; exact Nat.le_succ _, fun o ho hle => ?_⟩
    rw [hcreated] at ho
    obtain rfl : o = w.created := Nat.le_antisymm (Nat.le_of_lt_succ ho) hle
    refine ⟨_, fd, hs.of_core ((hq.obj_core w.created).trans ?_)⟩
    rw [World.enroll, World.obj_setObj_self]
  | refused fd hv harr hq | registered fd events tag hfd hopen hq | released fd hother hq
  | received o s ho hs hq => exact hsame _ hq rfl rfl

/-- The rule for what holds of every session: it holds at the start of each, and each
change keeps it. -/
theorem Effect.sessions {P : Nat → Session → Prop} (e : Effect r w w')
    (fresh : ∀ o id fd s, w.created ≤ o → s.Fresh w.cfg id fd → P o s)
    (change : ∀ o s s', s.Change (r = some o) s' → P o s → P o s')
    (h : ∀ o < w.created, P o (w.obj o)) : ∀ o < w'.created, P o (w'.obj o) := by
  intro o ho
  obtain ⟨-, -, hfresh⟩ := e.fresh
  rcases Nat.lt_or_ge o w.created with hold | hnew
  · exact change o _ _ (e.change hold) (h o hold)
  · obtain ⟨id, fd, hs⟩ := hfresh o ho hnew
    exact fresh o id fd _ hnew hs

theorem Path.sessions {P : Nat → Session → Prop} (path : Path r w w')
    (fresh : ∀ o id fd s, w.created ≤ o → s.Fresh w.cfg id fd → P o s)
    (change : ∀ o s s', s.Change (r = some o) s' → P o s → P o s')
    (h : ∀ o < w.created, P o (w.obj o)) : ∀ o < w'.created, P o (w'.obj o) := by
  have hall := path_invariant
    (I := fun v => v.cfg = w.cfg ∧ w.created ≤ v.created ∧ ∀ o < v.created, P o (v.obj o))
    (fun {u v} (e : Effect r u v) hu => ?_) path ⟨rfl, Nat.le_refl _, h⟩
  · exact hall.2.2
  · obtain ⟨hcfg, hcreated, hP⟩ := hu
    obtain ⟨hcfg', hcreated', -⟩ := e.fresh
    refine ⟨hcfg'.trans hcfg, Nat.le_trans hcreated hcreated', e.sessions ?_ change hP⟩
    intro o id fd s hnew hs
    rw [hcfg] at hs
    exact fresh o id fd s (Nat.le_trans hcreated hnew) hs

/-- What a session has taken in. -/
structure Intake where
  recvRing : Ring
  received : List UInt8
  payloads : List (List UInt8)
  dispatched : List Packet

def Session.intake (s : Session) : Intake := ⟨s.recvRing, s.received, s.payloads, s.dispatched⟩

/-- The receive side of a session. -/
def Session.recvSide (s : Session) : Intake × Bool := (s.intake, s.closedInDispatch)

/-- What any number of effects may do to a session; `p` tells whether its receive side
may change. -/
structure Session.Evolves (p : Prop) (s s' : Session) : Prop where
  id : s'.id = s.id
  state : s'.state = .connected → s.state = .connected
  closed : s.state = .closed → s'.state = .closed
  closeReason : s.state = .closed → s'.closeReason = s.closeReason
  sent : s.sent <+: s'.sent
  recvSide : ¬ p → s'.recvSide = s.recvSide

namespace Session.Evolves

variable {p : Prop} {s s' s'' : Session}

theorem refl (p : Prop) (s : Session) : Evolves p s s :=
  ⟨rfl, fun h => h, fun h => h, fun _ => rfl, List.prefix_refl _, fun _ => rfl⟩

theorem trans (h : Evolves p s s') (h' : Evolves p s' s'') : Evolves p s s'' :=
  ⟨h'.id.trans h.id, fun hc => h.state (h'.state hc), fun hc => h'.closed (h.closed hc),
    fun hc => (h'.closeReason (h.closed hc)).trans (h.closeReason hc), h.sent.trans h'.sent,
    fun hp => (h'.recvSide hp).trans (h.recvSide hp)⟩

theorem of_core (h : s'.core = s.core) : Evolves p s s' := by
  have hid : s'.id = s.id := (congrArg Session.id h :)
  have hstate : s'.state = s.state := (congrArg Session.state h :)
  have hsent : s'.sent = s.sent := (congrArg Session.sent h :)
  exact ⟨hid, fun hc => hstate.symm.trans hc, fun hc => hstate.trans hc,
    fun _ => (congrArg Session.closeReason h :), hsent ▸ List.prefix_refl _,
    fun _ => (congrArg Session.recvSide h :)⟩

end Session.Evolves

theorem Session.Change.evolves {p : Prop} {s s' : Session} (h : s.Change p s') :
    s.Evolves p s' := by
  cases h with
  | quiet hs => exact .of_core hs
  | sends t hc ht hs =>
    refine Evolves.trans ?_ (.of_core hs)
    cases ht with
    | flushed q hq => exact ⟨rfl, fun h => h, fun h => h, fun _ => rfl, hq.sent, fun _ => rfl⟩
    | packet q packet hq =>
      exact ⟨rfl, fun h => h, fun h => h, fun _ => rfl, hq.sent, fun _ => rfl⟩
  | masked events hs =>
    refine Evolves.trans ?_ (.of_core hs)
    exact ⟨rfl, fun h => h, fun h => h, fun _ => rfl, List.prefix_refl _, fun _ => rfl⟩
  | closed t reason hc ht hs =>
    have hopen : s.state ≠ .closed := by
      rw [hc]
      nofun
    refine Evolves.trans ?_ (.of_core hs)
    cases ht with
    | idle =>
      exact ⟨rfl, nofun, fun _ => rfl, fun h => absurd h hopen, List.prefix_refl _,
        fun _ => rfl⟩
    | inCall q packet hsent _ _ =>
      exact ⟨rfl, nofun, fun _ => rfl, fun h => absurd h hopen, hsent, fun _ => rfl⟩
  | receives t hp ht hs =>
    refine Evolves.trans ?_ (.of_core hs)
    cases ht
    exact ⟨rfl, fun h => h, fun h => h, fun _ => rfl, List.prefix_refl _,
      fun hne => absurd hp hne⟩

/-- What any number of effects may do to a worker's objects. -/
structure World.Evolves (r : Option Nat) (w w' : World) : Prop where
  cfg : w'.cfg = w.cfg
  created : w.created ≤ w'.created
  obj : ∀ o < w.created, (w.obj o).Evolves (r = some o) (w'.obj o)

theorem Effect.evolves (e : Effect r w w') : w.Evolves r w' :=
  ⟨e.fresh.1, e.fresh.2.1, fun _ ho => (e.change ho).evolves⟩

theorem Path.evolves (path : Path r w w') : w.Evolves r w' := by
  induction path with
  | refl => exact ⟨rfl, Nat.le_refl _, fun _ _ => .refl _ _⟩
  | tail _ e ih =>
    have hev := e.evolves
    exact ⟨hev.cfg.trans ih.cfg, Nat.le_trans ih.created hev.created, fun o ho =>
      (ih.obj o ho).trans (hev.obj o (Nat.lt_of_lt_of_le ho ih.created))⟩

/-- One part of a function after another, about an object that exists. -/
theorem Reach.then {u v w : World} (h : Reach r u v) (ho : o < u.created)
    (h' : o < v.created → Reach r v w) : Reach r u w := fun hu =>
  h.trans (h' (Nat.lt_of_lt_of_le ho (h hu).evolves.created)) hu

end HyperNet.Net
