import HyperNet.Connector.DialTable

/-!
# How far a dial may get

`Track` is what tells how often a dial has tried: the dials with their attempts, the timers,
and the histories of a worker.  `Counted` is the bookkeeping that bounds the calls of
`connect`: a dial has made at most one more than the number of its attempt, and only a dial
with `retryOnce` gets to attempt 1.

The bookkeeping survives every function but one: `dialStartAttempt` has to be called for the
attempt after the one the dial is in (`Startable`).  Ids of dials must not come round, since
timers know dials by their ids.

`Logs` has next to this what the functions add to the histories: sockets are reported to be
connected only if `connect` said so at once.  The readiness event of a dial is not a case of
it and is looked at in `HyperNet.Connector.DialAttempts`.
-/

namespace HyperNet.Connector

open Reentrant

variable {κ : Type}

structure Track (κ : Type) where
  dials : DialId → Option (DialState κ)
  timers : List DialTimer
  nextDialId : DialId
  issued : Nat
  requests : List (DialTcpOptions × κ)
  sockets : Nat
  attempts : List Nat
  torn : List Nat
  immediate : List Nat
  reported : List Nat
  promoted : List (Nat × Nat)

/-- How often a dial may connect. -/
def DialTcpOptions.totalAttempts (opt : DialTcpOptions) : Nat :=
  if opt.retryOnce = true then 2 else 1

/-- A dial as a new attempt finds it. -/
def DialState.restart (st : DialState κ) (attempt : UInt32) : DialState κ :=
  { st with sock := none, connectedEventRegistered := false, attemptIndex := attempt }

namespace Track

/-- One of the ids used so far. -/
def Issued (x : Track κ) (id : DialId) : Prop := ∃ j < x.issued, id = UInt64.ofNat (j + 1)

structure Counted (x : Track κ) : Prop where
  torn : x.torn = []
  limit : ∀ {k opt cb}, x.requests[k]? = some (opt, cb) → x.attempts.count k ≤ opt.totalAttempts
  numbered : ∀ {k}, k ∈ x.attempts → k < x.requests.length
  next : x.nextDialId = UInt64.ofNat (x.issued + 1)
  issued : ∀ {id st}, x.dials id = some st → x.Issued id
  filed : ∀ {id st}, x.dials id = some st → ∃ cb, x.requests[st.serial]? = some (st.opt, cb)
  inj : ∀ {id id' st st'}, x.dials id = some st → x.dials id' = some st' →
    st.serial = st'.serial → id = id'
  count : ∀ {id st}, x.dials id = some st → st.completed = false →
    x.attempts.count st.serial ≤ st.attemptIndex.toNat + 1
  index : ∀ {id st}, x.dials id = some st → st.completed = false →
    st.attemptIndex = 0 ∨
      (st.attemptIndex = 1 ∧ st.opt.retryOnce = true ∧ st.sock.isSome = true)
  retries : ∀ {id attempt delay}, .retry id attempt delay ∈ x.timers →
    attempt = 1 ∧ x.Issued id ∧ ∀ st, x.dials id = some st → st.opt.retryOnce = true

/-- Where `ok`, the bookkeeping stays right. -/
structure Counts (ok : Prop) (x y : Track κ) : Prop where
  issued : x.issued ≤ y.issued
  torn : x.torn ⊆ y.torn
  counted : ok → y.issued ≤ 2 ^ 64 → x.Counted → y.Counted

structure Logs (ok : Prop) (x y : Track κ) : Prop extends Counts ok x y where
  sockets : x.sockets ≤ y.sockets
  reported : y.reported = x.reported
  immediate_sub : x.immediate ⊆ y.immediate
  immediate : ∀ n ∈ y.immediate, n ∈ x.immediate ∨ (x.sockets ≤ n ∧ n < y.sockets)
  promoted_sub : x.promoted ⊆ y.promoted
  promoted : ∀ p ∈ y.promoted, p ∈ x.promoted ∨ p.2 ∈ y.immediate
  held : ∀ {id st s}, y.dials id = some st → st.sock = some s →
    (∃ st₀, x.dials id = some st₀ ∧ st₀.sock = some s) ∨
      (x.sockets ≤ s.serial ∧ s.serial < y.sockets ∧
        (s.serial ∈ y.immediate → s.serial ∈ x.immediate))

section Rules

variable {x y z : Track κ} {ok ok' : Prop}

theorem Counts.refl (x : Track κ) : Counts ok x x := ⟨Nat.le_refl _, fun _ hk => hk, fun _ _ h => h⟩

theorem Counts.trans_of (h : Counts ok x y) (h' : Counts ok' y z)
    (hok' : ok → y.issued ≤ 2 ^ 64 → x.Counted → ok') : Counts ok x z where
  issued := Nat.le_trans h.issued h'.issued
  torn := List.Subset.trans h.torn h'.torn
  counted hok hids hx :=
    have hids' := Nat.le_trans h'.issued hids
    h'.counted (hok' hok hids' hx) hids (h.counted hok hids' hx)

theorem Counts.trans (h : Counts ok x y) (h' : Counts True y z) : Counts ok x z :=
  h.trans_of h' fun _ _ _ => trivial

theorem Counts.mono (h : Counts ok x y) (hok : ok' → ok) : Counts ok' x y :=
  { h with counted := fun hok' => h.counted (hok hok') }

theorem Logs.refl (x : Track κ) : Logs ok x x where
  toCounts := .refl x
  sockets := Nat.le_refl _
  reported := rfl
  immediate_sub _ hn := hn
  immediate _ hn := .inl hn
  promoted_sub _ hp := hp
  promoted _ hp := .inl hp
  held hid hs := .inl ⟨_, hid, hs⟩

theorem Logs.trans_of (h : Logs ok x y) (h' : Logs ok' y z)
    (hok' : ok → y.issued ≤ 2 ^ 64 → x.Counted → ok') : Logs ok x z where
  toCounts := h.toCounts.trans_of h'.toCounts hok'
  sockets := Nat.le_trans h.sockets h'.sockets
  reported := h'.reported.trans h.reported
  immediate_sub := List.Subset.trans h.immediate_sub h'.immediate_sub
  immediate n hn := by
    rcases h'.immediate n hn with hold | ⟨hle, hlt⟩
    · exact (h.immediate n hold).imp_right fun hn => ⟨hn.1, Nat.lt_of_lt_of_le hn.2 h'.sockets⟩
    · exact .inr ⟨Nat.le_trans h.sockets hle, hlt⟩
  promoted_sub := List.Subset.trans h.promoted_sub h'.promoted_sub
  promoted p hp := by
    rcases h'.promoted p hp with hold | hnew
    · exact (h.promoted p hold).imp_right fun hp => h'.immediate_sub hp
    · exact .inr hnew
  held {id st s} hid hs := by
    rcases h'.held hid hs with ⟨st', hid', hs'⟩ | ⟨hle, hlt, himm⟩
    · refine (h.held hid' hs').imp_right fun ⟨hle, hlt, himm⟩ =>
        ⟨hle, Nat.lt_of_lt_of_le hlt h'.sockets, fun hmem => ?_⟩
      rcases h'.immediate _ hmem with hold | hnew
      · exact himm hold
      · exact absurd hlt (Nat.not_lt.mpr hnew.1)
    · refine .inr ⟨Nat.le_trans h.sockets hle, hlt, fun hmem => ?_⟩
      rcases h.immediate _ (himm hmem) with hold | hnew
      · exact hold
      · exact absurd hnew.2 (Nat.not_lt.mpr hle)

theorem Logs.trans (h : Logs ok x y) (h' : Logs True y z) : Logs ok x z :=
  h.trans_of h' fun _ _ _ => trivial

theorem Logs.mono (h : Logs ok x y) (hok : ok' → ok) : Logs ok' x y :=
  { h with toCounts := h.toCounts.mono hok }

/-- Nothing is noted of sockets, and no dial takes one. -/
theorem Counts.logs (h : Counts ok x y)
    (hsame : (y.sockets, y.reported, y.immediate, y.promoted) =
      (x.sockets, x.reported, x.immediate, x.promoted))
    (hheld : ∀ {id st s}, y.dials id = some st → st.sock = some s →
      ∃ st₀, x.dials id = some st₀ ∧ st₀.sock = some s) : Logs ok x y := by
  obtain ⟨hsockets, hreported, himmediate, hpromoted⟩ :
      y.sockets = x.sockets ∧ y.reported = x.reported ∧ y.immediate = x.immediate ∧
        y.promoted = x.promoted := by
    simpa only [Prod.mk.injEq] using hsame
  exact
    { toCounts := h
      sockets := Nat.le_of_eq hsockets.symm
      reported := hreported
      immediate_sub := himmediate ▸ List.Subset.refl _
      immediate := fun n hn => .inl (himmediate ▸ hn)
      promoted_sub := hpromoted ▸ List.Subset.refl _
      promoted := fun p hp => .inl (hpromoted ▸ hp)
      held := fun hid hs => .inl (hheld hid hs) }

end Rules

/-! ## Dials change and go -/

section Dials

variable {x : Track κ} {id : DialId} {st st' : DialState κ}

def setDial (x : Track κ) (id : DialId) (st : DialState κ) : Track κ :=
  { x with dials := fun id' => if id' = id then some st else x.dials id' }

theorem of_setDial {id' : DialId} {st'' : DialState κ}
    (h : (x.setDial id st').dials id' = some st'') :
    (id' = id ∧ st'' = st') ∨ (id' ≠ id ∧ x.dials id' = some st'') := by
  change (if id' = id then some st' else x.dials id') = some st'' at h
  split at h
  next heq => exact .inl ⟨heq, (Option.some.inj h).symm⟩
  next hne => exact .inr ⟨hne, h⟩

/-- A dial stays the same dial. -/
theorem Counted.setDial (h : x.Counted) (hid : x.dials id = some st)
    (hserial : st'.serial = st.serial) (hopt : st'.opt = st.opt)
    (hopen : st'.completed = false → x.attempts.count st.serial ≤ st'.attemptIndex.toNat + 1 ∧
      (st'.attemptIndex = 0 ∨
        (st'.attemptIndex = 1 ∧ st.opt.retryOnce = true ∧ st'.sock.isSome = true))) :
    (x.setDial id st').Counted where
  __ := h
  issued hid' := by
    rcases of_setDial hid' with ⟨rfl, -⟩ | ⟨-, hid'⟩
    · exact h.issued hid
    · exact h.issued hid'
  filed hid' := by
    rcases of_setDial hid' with ⟨-, rfl⟩ | ⟨-, hid'⟩
    · rw [hserial, hopt]
      exact h.filed hid
    · exact h.filed hid'
  inj h₁ h₂ heq := by
    rcases of_setDial h₁ with ⟨rfl, rfl⟩ | ⟨-, hold₁⟩
    · rcases of_setDial h₂ with ⟨rfl, -⟩ | ⟨-, hold₂⟩
      · rfl
      · exact h.inj hid hold₂ (hserial.symm.trans heq)
    · rcases of_setDial h₂ with ⟨rfl, rfl⟩ | ⟨-, hold₂⟩
      · exact h.inj hold₁ hid (heq.trans hserial)
      · exact h.inj hold₁ hold₂ heq
  count hid' hc := by
    rcases of_setDial hid' with ⟨-, rfl⟩ | ⟨-, hid'⟩
    · rw [hserial]
      exact (hopen hc).1
    · exact h.count hid' hc
  index hid' hc := by
    rcases of_setDial hid' with ⟨-, rfl⟩ | ⟨-, hid'⟩
    · rw [hopt]
      exact (hopen hc).2
    · exact h.index hid' hc
  retries hmem := by
    obtain ⟨hattempt, hissued, honce⟩ := h.retries hmem
    refine ⟨hattempt, hissued, fun st'' hid' => ?_⟩
    rcases of_setDial hid' with ⟨rfl, rfl⟩ | ⟨-, hid'⟩
    · rw [hopt]
      exact honce st hid
    · exact honce st'' hid'

/-- A dial is finished. -/
theorem finish_logs (hid : x.dials id = some st) : Logs True x (x.setDial id st.finished) := by
  refine Counts.logs ⟨Nat.le_refl _, fun _ hk => hk, fun _ _ h => ?_⟩ rfl fun hid' hs => ?_
  · exact h.setDial hid rfl rfl fun hc => by cases hc
  · rcases of_setDial hid' with ⟨-, rfl⟩ | ⟨-, hid'⟩
    · cases hs
    · exact ⟨_, hid', hs⟩

def erase (x : Track κ) (id : DialId) : Track κ :=
  { x with dials := fun id' => if id' = id then none else x.dials id' }

theorem of_erase {id' : DialId} (h : (x.erase id).dials id' = some st) : x.dials id' = some st := by
  change (if id' = id then none else x.dials id') = some st at h
  split at h
  next => cases h
  next => exact h

theorem erase_logs (x : Track κ) (id : DialId) : Logs True x (x.erase id) := by
  refine Counts.logs ⟨Nat.le_refl _, fun _ hk => hk, fun _ _ h => ?_⟩ rfl
    fun hid hs => ⟨_, of_erase hid, hs⟩
  exact
    { torn := h.torn
      __ := h
      issued := fun hid => h.issued (of_erase hid)
      filed := fun hid => h.filed (of_erase hid)
      inj := fun h₁ h₂ => h.inj (of_erase h₁) (of_erase h₂)
      count := fun hid => h.count (of_erase hid)
      index := fun hid => h.index (of_erase hid)
      retries := fun hmem => ⟨(h.retries hmem).1, (h.retries hmem).2.1,
        fun st hid => (h.retries hmem).2.2 st (of_erase hid)⟩ }

end Dials

/-! ## Dials come -/

section Filing

variable {x : Track κ} {opt : DialTcpOptions} {cb : κ}

/-- A call of `dialTcpSession` is noted. -/
def ask (x : Track κ) (opt : DialTcpOptions) (cb : κ) : Track κ :=
  { x with requests := x.requests ++ [(opt, cb)] }

theorem getElem?_ask {k : Nat} {q : DialTcpOptions × κ} (h : x.requests[k]? = some q) :
    (x.ask opt cb).requests[k]? = some q := by
  obtain ⟨hk, -⟩ := List.getElem?_eq_some_iff.mp h
  exact (List.getElem?_append_left hk).trans h

/-- It has not connected yet. -/
theorem Counted.count_length (h : x.Counted) : x.attempts.count x.requests.length = 0 :=
  List.count_eq_zero.mpr fun hmem => Nat.lt_irrefl _ (h.numbered hmem)

theorem ask_logs (x : Track κ) (opt : DialTcpOptions) (cb : κ) : Logs True x (x.ask opt cb) := by
  refine Counts.logs ⟨Nat.le_refl _, fun _ hk => hk, fun _ _ h => ?_⟩ rfl
    fun hid hs => ⟨_, hid, hs⟩
  exact
    { h with
      limit := fun {k opt' cb'} hk => by
        change (x.requests ++ [(opt, cb)])[k]? = some (opt', cb') at hk
        rcases Nat.lt_trichotomy k x.requests.length with hlt | rfl | hgt
        · rw [List.getElem?_append_left hlt] at hk
          exact h.limit hk
        · exact h.count_length.symm ▸ Nat.zero_le _
        · rw [List.getElem?_eq_none (by rw [List.length_append]; exact hgt)] at hk
          cases hk
      numbered := fun hmem => by
        change _ < (x.requests ++ [(opt, cb)]).length
        rw [List.length_append]
        exact Nat.lt_add_right _ (h.numbered hmem)
      filed := fun hid => (h.filed hid).imp fun _ hk => getElem?_ask hk }

/-- An id is used. -/
def issue (x : Track κ) : Track κ :=
  { x with nextDialId := x.nextDialId + 1, issued := x.issued + 1 }

theorem Issued.issue {id : DialId} (h : x.Issued id) : x.issue.Issued id := by
  obtain ⟨j, hj, hid⟩ := h
  exact ⟨j, Nat.lt_succ_of_lt hj, hid⟩

theorem issue_logs (x : Track κ) : Logs True x x.issue := by
  refine Counts.logs ⟨Nat.le_succ _, fun _ hk => hk, fun _ _ h => ?_⟩ rfl
    fun hid hs => ⟨_, hid, hs⟩
  exact
    { h with
      next := by
        change x.nextDialId + 1 = UInt64.ofNat (x.issued + 1 + 1)
        rw [h.next]
        exact (UInt64.ofNat_add (x.issued + 1) 1).symm
      issued := fun hid => (h.issued hid).issue
      retries := fun hmem => by
        obtain ⟨hattempt, hissued, honce⟩ := h.retries hmem
        exact ⟨hattempt, hissued.issue, honce⟩ }

/-- Ids do not repeat before they come round. -/
theorem Counted.not_issued (h : x.Counted) (hids : x.issued < 2 ^ 64) :
    ¬ x.Issued x.nextDialId := by
  rintro ⟨j, hj, heq⟩
  rw [h.next] at heq
  have hmod := congrArg UInt64.toNat heq
  rw [UInt64.toNat_ofNat', UInt64.toNat_ofNat'] at hmod
  omega

/-- A new dial. -/
def emplace (x : Track κ) (opt : DialTcpOptions) (cb : κ) : Track κ :=
  ((x.ask opt cb).issue).setDial x.nextDialId { opt, cb, serial := x.requests.length }

theorem Counted.emplace (h : x.Counted) (hids : x.issued < 2 ^ 64) (opt : DialTcpOptions)
    (cb : κ) : (x.emplace opt cb).Counted := by
  have hx := ((ask_logs x opt cb).trans (issue_logs _)).counted trivial hids h
  have hnew := h.not_issued hids
  have hserial {id st} (hid : x.dials id = some st) : st.serial < x.requests.length := by
    obtain ⟨cb, hk⟩ := h.filed hid
    exact (List.getElem?_eq_some_iff.mp hk).1
  exact
    { torn := hx.torn
      __ := hx
      issued := fun hid => by
        rcases of_setDial hid with ⟨rfl, -⟩ | ⟨-, hid⟩
        · exact ⟨x.issued, Nat.lt_succ_self _, h.next⟩
        · exact hx.issued hid
      filed := fun hid => by
        rcases of_setDial hid with ⟨-, rfl⟩ | ⟨-, hid⟩
        · exact ⟨cb, List.getElem?_concat_length⟩
        · exact hx.filed hid
      inj := fun h₁ h₂ heq => by
        rcases of_setDial h₁ with ⟨rfl, rfl⟩ | ⟨-, hold₁⟩
        · rcases of_setDial h₂ with ⟨rfl, -⟩ | ⟨-, hold₂⟩
          · rfl
          · exact absurd heq.symm (Nat.ne_of_lt (hserial hold₂))
        · rcases of_setDial h₂ with ⟨-, rfl⟩ | ⟨-, hold₂⟩
          · exact absurd heq (Nat.ne_of_lt (hserial hold₁))
          · exact hx.inj hold₁ hold₂ heq
      count := fun hid hc => by
        rcases of_setDial hid with ⟨-, rfl⟩ | ⟨-, hid⟩
        · exact Nat.le_of_eq h.count_length |>.trans (Nat.zero_le _)
        · exact hx.count hid hc
      index := fun hid hc => by
        rcases of_setDial hid with ⟨-, rfl⟩ | ⟨-, hid⟩
        · exact .inl rfl
        · exact hx.index hid hc
      retries := fun hmem => by
        obtain ⟨hattempt, hissued, honce⟩ := hx.retries hmem
        refine ⟨hattempt, hissued, fun st hid => ?_⟩
        rcases of_setDial hid with ⟨rfl, -⟩ | ⟨-, hid⟩
        · exact absurd (h.retries hmem).2.1 hnew
        · exact honce st hid }

theorem emplace_logs (x : Track κ) (opt : DialTcpOptions) (cb : κ) :
    Logs True x (x.emplace opt cb) := by
  refine Counts.logs ⟨Nat.le_succ _, fun _ hk => hk, fun _ hids h => h.emplace hids opt cb⟩ rfl
    fun hid hs => ?_
  rcases of_setDial hid with ⟨-, rfl⟩ | ⟨-, hid⟩
  · cases hs
  · exact ⟨_, hid, hs⟩

end Filing

/-! ## Timers, sockets and sessions -/

section Other

variable {x : Track κ}

/-- Timers go, or retries are armed for dials that have one. -/
theorem Counted.timers (hx : x.Counted) {timers : List DialTimer}
    (h : ∀ {id attempt delay}, .retry id attempt delay ∈ timers →
      .retry id attempt delay ∈ x.timers ∨
        (attempt = 1 ∧ ∃ st, x.dials id = some st ∧ st.opt.retryOnce = true)) :
    Counted { x with timers } := by
  refine { hx with retries := fun {id attempt delay} hmem => ?_ }
  rcases h hmem with hold | ⟨hattempt, st, hid, honce⟩
  · exact hx.retries hold
  · refine ⟨hattempt, hx.issued hid, fun st' hid' => ?_⟩
    cases hid.symm.trans hid'
    exact honce

theorem timers_logs (x : Track κ) {timers : List DialTimer}
    (h : ∀ {id attempt delay}, .retry id attempt delay ∈ timers →
      .retry id attempt delay ∈ x.timers ∨
        (attempt = 1 ∧ ∃ st, x.dials id = some st ∧ st.opt.retryOnce = true)) :
    Logs True x { x with timers } :=
  Counts.logs ⟨Nat.le_refl _, fun _ hk => hk, fun _ _ hx => hx.timers h⟩ rfl
    fun hid hs => ⟨_, hid, hs⟩

theorem openSocket_logs (x : Track κ) : Logs True x { x with sockets := x.sockets + 1 } where
  issued := Nat.le_refl _
  torn _ hk := hk
  counted _ _ h := { h with }
  sockets := Nat.le_succ _
  reported := rfl
  immediate_sub _ hn := hn
  immediate _ hn := .inl hn
  promoted_sub _ hp := hp
  promoted _ hp := .inl hp
  held hid hs := .inl ⟨_, hid, hs⟩

/-- A socket that was connected at once is passed on. -/
theorem promote_logs {l : List (Nat × Nat)} (h : ∀ p ∈ l, p.2 ∈ x.immediate) :
    Logs True x { x with promoted := x.promoted ++ l } where
  issued := Nat.le_refl _
  torn _ hk := hk
  counted _ _ h := { h with }
  sockets := Nat.le_refl _
  reported := rfl
  immediate_sub _ hn := hn
  immediate _ hn := .inl hn
  promoted_sub := List.subset_append_left _ _
  promoted p hp := (List.mem_append.mp hp).imp_right (h p)
  held hid hs := .inl ⟨_, hid, hs⟩

end Other

/-! ## Attempts -/

section Attempts

variable {x : Track κ} {id : DialId} {st st' : DialState κ} {attempt : UInt32}

/-- The attempt is the next one that the dial has. -/
structure Startable (x : Track κ) (st : DialState κ) (attempt : UInt32) : Prop where
  count : x.attempts.count st.serial ≤ attempt.toNat
  index : attempt = 0 ∨ (attempt = 1 ∧ st.opt.retryOnce = true)

/-- What an attempt may come to before the application hears of it: the dial, the timers, the
calls of `connect`, the sockets and those connected at once. -/
inductive Outcome (x : Track κ) (id : DialId) (st : DialState κ) (attempt : UInt32) :
    DialState κ → List DialTimer → List Nat → Nat → List Nat → Prop
  /-- There is no socket, … -/
  | noSocket : Outcome x id st attempt (st.restart attempt).finished x.timers x.attempts x.sockets
      x.immediate
  /-- … `connect` or `addFd` fails, … -/
  | failed : Outcome x id st attempt (st.restart attempt).finished x.timers
      (x.attempts ++ [st.serial]) (x.sockets + 1) x.immediate
  /-- … `connect` fails and there will be a retry, … -/
  | retry (delay : Nat) (honce : st.opt.retryOnce = true) (hattempt : attempt = 0) :
      Outcome x id st attempt (st.restart attempt) (x.timers ++ [.retry id 1 delay])
        (x.attempts ++ [st.serial]) (x.sockets + 1) x.immediate
  /-- … it connects at once … -/
  | connected (client : Socket) :
      Outcome x id st attempt { st.restart attempt with sock := some client }.finished x.timers
        (x.attempts ++ [st.serial]) (x.sockets + 1) (x.immediate ++ [x.sockets])
  /-- … or the dial waits, with a timeout or without. -/
  | waiting (fd : Int) :
      Outcome x id st attempt
        { st.restart attempt with sock := some ⟨fd, x.sockets⟩, connectedEventRegistered := true }
        x.timers (x.attempts ++ [st.serial]) (x.sockets + 1) x.immediate
  | timed (fd : Int) (delay : Nat) :
      Outcome x id st attempt
        { st.restart attempt with sock := some ⟨fd, x.sockets⟩, connectedEventRegistered := true }
        (x.timers ++ [.timeout id attempt delay]) (x.attempts ++ [st.serial]) (x.sockets + 1)
        x.immediate

def attempted (x : Track κ) (id : DialId) (st : DialState κ) (timers : List DialTimer)
    (attempts : List Nat) (sockets : Nat) (immediate : List Nat) : Track κ :=
  { x.setDial id st with timers, attempts, sockets, immediate }

/-- The state of the dial in between does not matter. -/
theorem setDial_attempted (x : Track κ) (id : DialId) (st₁ st₂ : DialState κ)
    (timers : List DialTimer) (attempts : List Nat) (sockets : Nat) (immediate : List Nat) :
    (x.attempted id st₁ timers attempts sockets immediate).setDial id st₂ =
      x.attempted id st₂ timers attempts sockets immediate := by
  unfold attempted setDial
  congr 1
  funext id'
  dsimp only
  split
  next => rfl
  next => rfl

/-- The dial, if an attempt of it is cleared away that is not the one before. -/
def tearing (st : DialState κ) (attempt : UInt32) : List Nat :=
  if st.sock.isSome = true ∧ ¬ st.attemptIndex < attempt then [st.serial] else []

theorem tear_logs (x : Track κ) (l : List Nat) : Logs (l = []) x { x with torn := x.torn ++ l } :=
  Counts.logs ⟨Nat.le_refl _, List.subset_append_left _ _,
    fun hl _ h => { h with torn := by rw [hl, List.append_nil]; exact h.torn }⟩ rfl
    fun hid hs => ⟨_, hid, hs⟩

/-- A dial that may connect does. -/
theorem Counted.connect (h : x.Counted) (hid : x.dials id = some st)
    (hlimit : x.attempts.count st.serial < st.opt.totalAttempts)
    (hopen : st.completed = false → x.attempts.count st.serial ≤ st.attemptIndex.toNat) :
    Counted { x with attempts := x.attempts ++ [st.serial] } := by
  have hcount (k : Nat) : (x.attempts ++ [st.serial]).count k =
      x.attempts.count k + if st.serial = k then 1 else 0 := by
    rw [List.count_append, List.count_singleton]
    simp only [beq_iff_eq]
  obtain ⟨cb₀, hfiled⟩ := h.filed hid
  exact
    { h with
      limit := fun {k opt cb} hk => by
        change (x.attempts ++ [st.serial]).count k ≤ _
        rw [hcount]
        split
        next heq =>
          subst heq
          cases hfiled.symm.trans hk
          exact hlimit
        next => exact h.limit hk
      numbered := fun hmem => by
        rcases List.mem_append.mp hmem with hold | hnew
        · exact h.numbered hold
        · cases List.mem_singleton.mp hnew
          exact (List.getElem?_eq_some_iff.mp hfiled).1
      count := fun {id' st'} hid' hc => by
        change (x.attempts ++ [st.serial]).count st'.serial ≤ _
        rw [hcount]
        split
        next heq =>
          cases h.inj hid hid' heq
          cases hid.symm.trans hid'
          exact Nat.succ_le_succ (hopen hc)
        next => exact h.count hid' hc }

theorem Startable.lt_totalAttempts (h : x.Startable st attempt) :
    x.attempts.count st.serial < st.opt.totalAttempts := by
  unfold DialTcpOptions.totalAttempts
  rcases h.index with rfl | ⟨rfl, honce⟩
  · have hcount := h.count
    rw [Nat.le_zero.mp hcount]
    split
    next => decide
    next => decide
  · rw [if_pos honce]
    exact Nat.lt_succ_of_le h.count

variable {timers : List DialTimer} {attempts immediate : List Nat} {sockets : Nat}

namespace Outcome

variable (ho : Outcome x id st attempt st' timers attempts sockets immediate)
include ho

theorem same : st'.serial = st.serial ∧ st'.opt = st.opt := by
  cases ho with
  | _ => exact ⟨rfl, rfl⟩

/-- A dial that goes on is in this attempt. -/
theorem going_on (hc : st'.completed = false) :
    st'.attemptIndex = attempt ∧ (attempt = 0 ∨ st'.sock.isSome = true) := by
  cases ho with
  | retry delay honce hattempt => exact ⟨rfl, .inl hattempt⟩
  | waiting fd | timed fd delay => exact ⟨rfl, .inr rfl⟩
  | _ => cases hc

theorem attempts_eq : attempts = x.attempts ∨ attempts = x.attempts ++ [st.serial] := by
  cases ho with
  | noSocket => exact .inl rfl
  | _ => exact .inr rfl

theorem sockets_le : x.sockets ≤ sockets := by
  cases ho with
  | noSocket => exact Nat.le_refl _
  | _ => exact Nat.le_succ _

theorem retries {id' : DialId} {attempt' : UInt32} {delay : Nat}
    (hmem : .retry id' attempt' delay ∈ timers) : .retry id' attempt' delay ∈ x.timers ∨
      (attempt' = 1 ∧ id' = id ∧ st.opt.retryOnce = true) := by
  cases ho with
  | retry delay honce hattempt =>
    refine (List.mem_append.mp hmem).imp_right fun hnew => ?_
    cases List.mem_singleton.mp hnew
    exact ⟨rfl, rfl, honce⟩
  | timed fd delay =>
    refine (List.mem_append.mp hmem).imp_right fun hnew => ?_
    cases List.mem_singleton.mp hnew
  | _ => exact .inl hmem

theorem immediate_cases : immediate = x.immediate ∨
    (immediate = x.immediate ++ [x.sockets] ∧ sockets = x.sockets + 1) := by
  cases ho with
  | connected client => exact .inr ⟨rfl, rfl⟩
  | _ => exact .inl rfl

theorem sock_eq {s : Socket} (hs : st'.sock = some s) :
    s.serial = x.sockets ∧ sockets = x.sockets + 1 ∧ immediate = x.immediate := by
  cases ho with
  | waiting fd | timed fd delay =>
    cases hs
    exact ⟨rfl, rfl, rfl⟩
  | _ => cases hs

theorem counted (hid : x.dials id = some st) (h : x.Counted) (hs : x.Startable st attempt) :
    (x.attempted id st' timers attempts sockets immediate).Counted := by
  obtain ⟨hserial, hopt⟩ := ho.same
  have hset : (x.setDial id st').Counted := by
    refine h.setDial hid hserial hopt fun hc => ?_
    obtain ⟨hattempt, hsock⟩ := ho.going_on hc
    rw [hattempt]
    refine ⟨Nat.le_succ_of_le hs.count, ?_⟩
    rcases hs.index with hzero | ⟨hone, honce⟩
    · exact .inl hzero
    · exact hsock.imp_right fun hsock => ⟨hone, honce, hsock⟩
  have hconnect : Counted { x.setDial id st' with attempts } := by
    rcases ho.attempts_eq with rfl | rfl
    · exact hset
    · rw [← hserial]
      refine hset.connect (if_pos rfl) ?_ fun hc => ?_
      · rw [hserial, hopt]
        exact hs.lt_totalAttempts
      · rw [hserial, (ho.going_on hc).1]
        exact hs.count
  have htimers : Counted { x.setDial id st' with attempts, timers } := by
    refine hconnect.timers fun hmem => (ho.retries hmem).imp_right ?_
    rintro ⟨rfl, rfl, honce⟩
    exact ⟨rfl, st', if_pos rfl, hopt ▸ honce⟩
  exact { htimers with }

theorem logs (hid : x.dials id = some st) : Logs (x.Startable st attempt) x
    (x.attempted id st' timers attempts sockets immediate) where
  issued := Nat.le_refl _
  torn _ hk := hk
  counted hs _ h := ho.counted hid h hs
  sockets := ho.sockets_le
  reported := rfl
  immediate_sub n hn := by
    rcases ho.immediate_cases with rfl | ⟨rfl, -⟩
    · exact hn
    · exact List.mem_append_left _ hn
  immediate n hn := by
    rcases ho.immediate_cases with rfl | ⟨rfl, rfl⟩
    · exact .inl hn
    · refine (List.mem_append.mp hn).imp_right fun hn => ?_
      cases List.mem_singleton.mp hn
      exact ⟨Nat.le_refl _, Nat.lt_succ_self _⟩
  promoted_sub _ hp := hp
  promoted _ hp := .inl hp
  held hid' hs := by
    rcases of_setDial hid' with ⟨-, rfl⟩ | ⟨-, hid'⟩
    · obtain ⟨hserial, rfl, rfl⟩ := ho.sock_eq hs
      rw [hserial]
      exact .inr ⟨Nat.le_refl _, Nat.lt_succ_self _, fun hmem => hmem⟩
    · exact .inl ⟨_, hid', hs⟩

end Outcome

end Attempts

end Track

/-! ## The functions -/

namespace Dialer

def track (w : Dialer κ) : Track κ where
  dials := w.dials
  timers := w.timers
  nextDialId := w.nextDialId
  issued := w.issued
  requests := w.requests
  sockets := w.sockets
  attempts := w.attempts
  torn := w.torn
  immediate := w.immediate
  reported := w.reported
  promoted := w.promoted

/-- What the function adds to the histories is in order, where `ok` its bookkeeping too. -/
abbrev Logs (ok : Prop) (w w' : Dialer κ) : Prop := Track.Logs ok w.track w'.track

theorem Logs.of_track {w w' : Dialer κ} (h : w'.track = w.track) : Logs True w w' := by
  unfold Logs
  rw [h]
  exact .refl _

theorem track_deregister (st : DialState κ) (w : Dialer κ) : (deregister st w).track = w.track := by
  unfold deregister
  split
  next =>
    split
    next => rfl
    next => rfl
  next => rfl

theorem track_closeSock (st : DialState κ) (w : Dialer κ) : (closeSock st w).track = w.track := by
  unfold closeSock
  split
  next => rfl
  next => rfl

theorem list_logs (w : Dialer κ) (sid : UInt64) (s : Socket) : Logs True w (w.list sid s) := by
  unfold list
  split
  next => exact .of_track rfl
  next => exact .of_track rfl

section Source

variable {app : DialCallback κ → Dialer κ → Dialer κ} (happ : ∀ c w, Logs True w (app c w))
include happ

theorem onAccepted_logs (sock : Option Socket) (w : Dialer κ) :
    Logs True w (onAccepted app sock w).1 := by
  unfold onAccepted
  extract_lets id created w₁
  change Logs True w₁ _
  cases sock with
  | none => exact .of_track rfl
  | some s =>
    dsimp only
    split
    next => exact .of_track rfl
    next =>
      generalize w₁.loop.addFd w₁.ctl s.fd sessionMask (some (.session s.serial)) = r
      obtain ⟨loop, e⟩ := r
      cases e with
      | some e => exact .of_track rfl
      | none =>
        have hstart := (list_logs (w₁.setLoop loop).popCtl id s).trans
          (happ (.onSessionStart id) _)
        dsimp only
        split
        next => exact hstart
        next => exact hstart

theorem closeSession_logs (id : UInt64) (w : Dialer κ) : Logs True w (closeSession app id w) := by
  unfold closeSession
  split
  next => exact .refl _
  next s _ =>
    dsimp only
    generalize hw₁ : { (w.removeFd s.fd).close s.fd with
      sessions := ((w.removeFd s.fd).close s.fd).sessions.filter (·.1 ≠ id) } = w₁
    have hsame : Logs True w w₁ := .of_track (hw₁ ▸ rfl)
    exact hsame.trans (happ _ w₁)

theorem conclude_logs (id : DialId) (st : DialState κ) (r : Dialed) (w : Dialer κ) :
    Logs True w (conclude app id st r w) :=
  (happ (.dialed st.cb r) w).trans (Track.erase_logs _ id)

end Source

section Finish

variable {w : Dialer κ} {id : DialId} {st : DialState κ}

theorem track_finish (w : Dialer κ) (id : DialId) (st : DialState κ) :
    ((closeSock st (deregister st w)).setDial id st.finished).track =
      w.track.setDial id st.finished := by
  change (closeSock st (deregister st w)).track.setDial id st.finished = _
  rw [track_closeSock, track_deregister]

theorem track_hand (w : Dialer κ) (id : DialId) (st : DialState κ) :
    ((deregister st w).setDial id st.finished).track = w.track.setDial id st.finished := by
  change (deregister st w).track.setDial id st.finished = _
  rw [track_deregister]

end Finish

/-- `connect` is called once, and may succeed at once. -/
theorem connect_cases (w : Dialer κ) (serial : Nat) (client : Socket) :
    ((w.connect serial client).2 = none ∧ (w.connect serial client).1.track =
      { w.track with
        attempts := w.attempts ++ [serial], immediate := w.immediate ++ [client.serial] }) ∨
    ((∃ e, (w.connect serial client).2 = some e) ∧ (w.connect serial client).1.track =
      { w.track with attempts := w.attempts ++ [serial] }) := by
  unfold connect
  split
  next => exact .inl ⟨rfl, rfl⟩
  next e _ => exact .inr ⟨⟨e, rfl⟩, rfl⟩

theorem socket_track (w : Dialer κ) (serial : Nat) :
    ((w.socket serial).2 = none ∧ (w.socket serial).1.track = w.track) ∨
    ∃ fd, (w.socket serial).2 = some ⟨fd, w.sockets⟩ ∧
      (w.socket serial).1.track = { w.track with sockets := w.sockets + 1 } := by
  unfold socket
  split
  next => exact .inl ⟨rfl, rfl⟩
  next fd _ =>
    split
    next => exact .inl ⟨rfl, rfl⟩
    next => exact .inr ⟨fd, rfl, rfl⟩

theorem track_tearDown (st : DialState κ) (attempt : UInt32) (w : Dialer κ) :
    (tearDown st attempt w).track =
      { w.track with torn := w.torn ++ Track.tearing st attempt } := by
  have hcleared : (closeSock st (deregister st w)).track = w.track := by
    rw [track_closeSock, track_deregister]
  unfold tearDown Track.tearing
  dsimp only
  split
  next =>
    change { (closeSock st (deregister st w)).track with
      torn := (closeSock st (deregister st w)).track.torn ++ [st.serial] } = _
    rw [hcleared]
    rfl
  next =>
    rw [hcleared, List.append_nil]
    rfl

/-- A dial waits for its socket. -/
theorem waiting_logs {x : Track κ} {w : Dialer κ} {id : DialId} {st : DialState κ}
    {attempt : UInt32} (hid : x.dials id = some st) (fd : Int)
    (hw : w.track = x.attempted id (st.restart attempt) x.timers
      (x.attempts ++ [st.serial]) (x.sockets + 1) x.immediate) :
    let w₁ := w.setDial id
      { st.restart attempt with sock := some ⟨fd, x.sockets⟩, connectedEventRegistered := true }
    Track.Logs (x.Startable st attempt) x w₁.track ∧ ∀ delay,
      Track.Logs (x.Startable st attempt) x (w₁.addTimer (.timeout id attempt delay)).track := by
  intro w₁
  have hw₁ : w₁.track = w.track.setDial id _ := rfl
  rw [hw, Track.setDial_attempted] at hw₁
  refine ⟨?_, fun delay => ?_⟩
  · rw [hw₁]
    exact (Track.Outcome.waiting fd).logs hid
  · change Track.Logs _ x { w₁.track with timers := w₁.track.timers ++ [_] }
    rw [hw₁]
    exact (Track.Outcome.timed fd delay).logs hid

/-- A dial that has a retry gets one. -/
theorem retry_logs {w : Dialer κ} {id : DialId} {st : DialState κ} (hid : w.dials id = some st)
    (honce : st.opt.retryOnce = true) (delay : Nat) :
    Logs True w (w.addTimer (.retry id 1 delay)) := by
  refine Track.timers_logs w.track fun hmem => (List.mem_append.mp hmem).imp_right fun hnew => ?_
  cases List.mem_singleton.mp hnew
  exact ⟨rfl, st, hid, honce⟩

/-- A new dial is filed, or the id is lost. -/
theorem emplace_cases (w : Dialer κ) (opt : DialTcpOptions) (cb : κ) :
    let w₁ := emplace w.nextDialId opt cb
      { w with nextDialId := w.nextDialId + 1, issued := w.issued + 1 }
    (w.dials w.nextDialId = none ∧ w₁.track = w.track.emplace opt cb) ∨
      ((∃ st, w.dials w.nextDialId = some st) ∧ w₁.track = w.track.issue) := by
  intro w₁
  cases hid : w.dials w.nextDialId with
  | none => exact .inl ⟨rfl, by
      change track (if (w.dials w.nextDialId).isSome = true then _ else _) = _
      rw [hid]
      rfl⟩
  | some st => exact .inr ⟨⟨st, rfl⟩, by
      change track (if (w.dials w.nextDialId).isSome = true then _ else _) = _
      rw [hid]
      rfl⟩

section Source

variable {app : DialCallback κ → Dialer κ → Dialer κ} (happ : ∀ c w, Logs True w (app c w))
include happ

theorem finishDialFail_logs (id : DialId) (attemptIndex : UInt32) (err : DialError)
    (w : Dialer κ) : Logs True w (finishDialFail app id attemptIndex err w) := by
  rcases w.unfinished_cases id attemptIndex with hskip | ⟨st, hid, hst, rfl⟩
  · rw [finishDialFail_skip app hskip]
    exact .refl _
  · rw [finishDialFail_eq app hid hst]
    have hfinish : Logs True w ((closeSock st (deregister st w)).setDial id st.finished) := by
      unfold Logs
      rw [track_finish]
      exact Track.finish_logs hid
    exact hfinish.trans (conclude_logs happ id _ _ _)

section Attempt

variable {x : Track κ} {w : Dialer κ} {id : DialId} {st : DialState κ} {attempt : UInt32}
  {timers : List DialTimer} {attempts immediate : List Nat} {sockets : Nat}
  (hid : x.dials id = some st) (hst : st.completed = false)
include hid hst

/-- An attempt fails. -/
theorem fail_logs
    (hw : w.track = x.attempted id (st.restart attempt) timers attempts sockets immediate)
    (ho : x.Outcome id st attempt (st.restart attempt).finished timers attempts sockets immediate)
    (err : DialError) :
    Track.Logs (x.Startable st attempt) x (finishDialFail app id attempt err w).track := by
  have hid' : w.dials id = some (st.restart attempt) :=
    (congrFun (congrArg Track.dials hw) id).trans (if_pos rfl)
  have heq := finishDialFail_eq app hid' hst err
  change finishDialFail app id attempt err w = _ at heq
  rw [heq]
  have hpre := ho.logs hid
  rw [← Track.setDial_attempted x id (st.restart attempt), ← hw, ← track_finish] at hpre
  exact hpre.trans (conclude_logs happ id _ _ _)

/-- An attempt connects at once. -/
theorem ok_logs {client : Socket} (hclient : client.serial = x.sockets)
    (hw : w.track = x.attempted id (st.restart attempt) x.timers
      (x.attempts ++ [st.serial]) (x.sockets + 1) (x.immediate ++ [x.sockets])) :
    Track.Logs (x.Startable st attempt) x (finishDialOk app id attempt
      (w.setDial id { st.restart attempt with sock := some client })).track := by
  generalize hst₁ : ({ st.restart attempt with sock := some client } : DialState κ) = st₁
  have hsock : st₁.sock = some client := hst₁ ▸ rfl
  have hid₁ : (w.setDial id st₁).dials id = some st₁ := if_pos rfl
  have heq := finishDialOk_eq app hid₁ (hst₁ ▸ hst)
  rw [show st₁.attemptIndex = attempt from hst₁ ▸ rfl, hsock] at heq
  rw [heq]
  have ho : x.Outcome id st attempt st₁.finished x.timers (x.attempts ++ [st.serial])
      (x.sockets + 1) (x.immediate ++ [x.sockets]) := by
    subst hst₁
    exact .connected client
  have hpre := ho.logs hid
  rw [← Track.setDial_attempted x id st₁,
    ← Track.setDial_attempted x id (st.restart attempt), ← hw] at hpre
  change Track.Logs _ x ((w.setDial id st₁).track.setDial id st₁.finished) at hpre
  rw [← track_hand] at hpre
  have himm :
      x.sockets ∈ ((deregister st₁ (w.setDial id st₁)).setDial id st₁.finished).immediate := by
    change _ ∈ ((deregister st₁ (w.setDial id st₁)).setDial id st₁.finished).track.immediate
    rw [track_hand]
    change _ ∈ w.track.immediate
    rw [hw]
    exact List.mem_append_right _ (List.mem_singleton_self _)
  generalize (deregister st₁ (w.setDial id st₁)).setDial id st₁.finished = u at hpre himm
  have hsession := onAccepted_logs happ (some client) u
  generalize onAccepted app (some client) u = r at hsession
  dsimp only
  split
  next => exact (hpre.trans hsession).trans (conclude_logs happ id _ _ _)
  next =>
    have hpromote : Track.Logs True r.1.track { r.1.track with
        promoted := r.1.promoted ++ [(st₁.serial, client.serial)] } := by
      refine Track.promote_logs fun p hp => ?_
      cases List.mem_singleton.mp hp
      exact hclient ▸ hsession.immediate_sub himm
    refine ((hpre.trans hsession).trans hpromote).trans ?_
    exact conclude_logs happ id st₁.finished _
      { r.1 with promoted := r.1.promoted ++ [(st₁.serial, client.serial)] }

theorem connectClient_logs (fd : Int)
    (hw : w.track = x.attempted id (st.restart attempt) x.timers x.attempts
      (x.sockets + 1) x.immediate) :
    Track.Logs (x.Startable st attempt) x
      (connectClient app id attempt (st.restart attempt) ⟨fd, x.sockets⟩ w).track := by
  unfold connectClient
  have hattempts : w.attempts = x.attempts := congrArg Track.attempts hw
  have himmediate : w.immediate = x.immediate := congrArg Track.immediate hw
  have hcases := w.connect_cases (st.restart attempt).serial ⟨fd, x.sockets⟩
  generalize w.connect (st.restart attempt).serial ⟨fd, x.sockets⟩ = r at hcases ⊢
  obtain ⟨w₁, e⟩ := r
  rcases hcases with ⟨hnone, hw₁⟩ | ⟨⟨e, hsome⟩, hw₁⟩
  · cases hnone
    rw [hw, hattempts, himmediate] at hw₁
    exact ok_logs happ hid hst rfl hw₁
  · cases hsome
    rw [hw, hattempts] at hw₁
    have hfailed : x.Outcome id st attempt (st.restart attempt).finished x.timers
      (x.attempts ++ [st.serial]) (x.sockets + 1) x.immediate := .failed
    dsimp only at hw₁ ⊢
    split
    next =>
      split
      next honce =>
        have honce : st.opt.retryOnce = true ∧ attempt = 0 := honce
        change Track.Logs _ x { w₁.track with timers := w₁.track.timers ++ [_] }
        rw [hw₁]
        exact (Track.Outcome.retry _ honce.1 honce.2).logs hid
      next => exact fail_logs happ hid hst hw₁ hfailed (.errno e)
    next =>
      generalize w₁.loop.addFd w₁.ctl fd dialMask (some (.dial id x.sockets)) = r
      obtain ⟨loop, e⟩ := r
      cases e with
      | some e =>
        exact fail_logs happ (w := (w₁.setLoop loop).popCtl.close fd) hid hst hw₁ hfailed _
      | none =>
        have hwaiting := waiting_logs (w := (w₁.setLoop loop).popCtl) hid fd hw₁
        dsimp only
        split
        next => exact hwaiting.2 _
        next => exact hwaiting.1

theorem createClient_logs
    (hw : w.track = x.attempted id (st.restart attempt) x.timers x.attempts x.sockets x.immediate) :
    Track.Logs (x.Startable st attempt) x
      (createClient app id attempt (st.restart attempt) w).track := by
  unfold createClient
  have hsockets : w.sockets = x.sockets := congrArg Track.sockets hw
  rcases w.socket_track (st.restart attempt).serial with ⟨hnone, hw₁⟩ | ⟨fd, hsome, hw₁⟩
  · generalize w.socket (st.restart attempt).serial = r at hnone hw₁ ⊢
    obtain ⟨w₁, client⟩ := r
    cases hnone
    exact fail_logs happ hid hst (hw₁.trans hw) .noSocket _
  · generalize w.socket (st.restart attempt).serial = r at hsome hw₁ ⊢
    obtain ⟨w₁, client⟩ := r
    cases hsome
    rw [hw, hsockets] at hw₁
    dsimp only
    rw [hsockets]
    exact connectClient_logs happ hid hst fd hw₁

end Attempt

/-- From the clearing of the last attempt on. -/
theorem dialStartAttempt_tear {id : DialId} {st : DialState κ} {w : Dialer κ}
    (hid : w.dials id = some st) (hst : st.completed = false) (attempt : UInt32) :
    Track.Logs (w.track.Startable st attempt)
      { w.track with torn := w.torn ++ Track.tearing st attempt }
      (dialStartAttempt app id attempt w).track := by
  unfold dialStartAttempt
  rw [hid]
  dsimp only
  rw [if_neg (Bool.not_eq_true _ ▸ hst)]
  generalize hx : { w.track with torn := w.torn ++ Track.tearing st attempt } = x
  have hcleared : ((tearDown st attempt w).setDial id (st.restart attempt)).track =
      x.setDial id (st.restart attempt) := by
    change (tearDown st attempt w).track.setDial id (st.restart attempt) = _
    rw [track_tearDown, hx]
  have hid' : x.dials id = some st := by
    rw [← hx]
    exact hid
  refine (createClient_logs happ hid' hst hcleared).mono fun hs => ⟨?_, hs.index⟩
  rw [← hx]
  exact hs.count

/-- An attempt adds what it should, if it is the dial's next. -/
theorem dialStartAttempt_logs (id : DialId) (attempt : UInt32) (w : Dialer κ) :
    Logs (∀ st, w.dials id = some st → st.completed = false →
        Track.tearing st attempt = [] ∧ w.track.Startable st attempt) w
      (dialStartAttempt app id attempt w) := by
  cases hid : w.dials id with
  | none =>
    unfold dialStartAttempt
    rw [hid]
    exact .refl _
  | some st =>
    cases hst : st.completed with
    | true =>
      unfold dialStartAttempt
      rw [hid]
      dsimp only
      rw [if_pos hst]
      exact .refl _
    | false =>
      refine ((Track.tear_logs w.track _).mono fun hok => (hok st rfl hst).1).trans_of
        (dialStartAttempt_tear happ hid hst attempt) fun hok _ _ => (hok st rfl hst).2

theorem dialTimeout_logs (id : DialId) (expectedAttempt : UInt32) (w : Dialer κ) :
    Logs True w (dialTimeout app id expectedAttempt w) := by
  unfold dialTimeout
  cases hid : w.dials id with
  | none => exact .refl _
  | some st =>
    dsimp only
    split
    next => exact .refl _
    next =>
      split
      next honce => exact retry_logs hid honce.1 _
      next => exact finishDialFail_logs happ id _ _ w

theorem dialTcpSession_logs (opt : DialTcpOptions) (cb : Option κ) (w : Dialer κ) :
    Logs True w (dialTcpSession app opt cb w) := by
  unfold dialTcpSession
  cases cb with
  | none => exact .refl _
  | some cb =>
    dsimp only
    split
    next =>
      have hback := happ (.dialed cb ⟨false, 0, .text "dialTcpSession: invalid host/port"⟩) w
      generalize app _ w = w₁ at hback ⊢
      exact hback.trans (Track.ask_logs w₁.track opt cb)
    next =>
      have hcases := w.emplace_cases opt cb
      generalize emplace w.nextDialId opt cb
        { w with nextDialId := w.nextDialId + 1, issued := w.issued + 1 } = w₁ at hcases
      have hstart := dialStartAttempt_logs happ w.nextDialId 0 w₁
      rcases hcases with ⟨-, hw₁⟩ | ⟨⟨st, hid⟩, hw₁⟩
      · have hfiled : Logs True w w₁ := by
          unfold Logs
          rw [hw₁]
          exact Track.emplace_logs w.track opt cb
        refine hfiled.trans_of hstart fun _ _ hx st hid _ => ?_
        rw [hw₁]
        have hnew : some _ = some st :=
          ((congrFun (congrArg Track.dials hw₁) _).trans (if_pos rfl)).symm.trans hid
        cases hnew
        exact ⟨rfl, Nat.le_of_eq hx.count_length, .inl rfl⟩
      · have hissue : Logs True w w₁ := by
          unfold Logs
          rw [hw₁]
          exact Track.issue_logs w.track
        -- an id that is in use is not the next one
        refine hissue.trans_of hstart fun _ hids hx => ?_
        rw [hw₁] at hids
        exact absurd (hx.issued hid) (hx.not_issued hids)

theorem accept_logs (fd : Int) (w : Dialer κ) : Logs True w (accept app fd w) := by
  unfold accept
  split
  next => exact .refl _
  next =>
    have hopen : Logs True w (w.openSocket fd) := Track.openSocket_logs w.track
    exact hopen.trans (onAccepted_logs happ _ _)

theorem runTask_logs (w : Dialer κ) : Logs True w (runTask app w) := by
  unfold runTask
  split
  next => exact .refl _
  next opt cb posted _ => exact dialTcpSession_logs happ opt cb { w with posted }

theorem call_logs (a : DialApi κ) (w : Dialer κ) : Logs True w (call a app w) := by
  cases a with
  | dialTcpSession opt cb => exact dialTcpSession_logs happ opt cb w
  | closeSession id => exact closeSession_logs happ id w

/-- A retry finds its dial in the attempt before. -/
def InTime (w : Dialer κ) (i : Nat) : Prop :=
  ∀ id attempt delay st, w.timers[i]? = some (.retry id attempt delay) →
    w.dials id = some st → st.attemptIndex < attempt

theorem fire_logs (i : Nat) (w : Dialer κ) : Logs (w.InTime i) w (fire app i w) := by
  unfold fire
  cases ht : w.timers[i]? with
  | none => exact .refl _
  | some t =>
    have herase : Logs (w.InTime i) w { w with timers := w.timers.eraseIdx i } :=
      (Track.timers_logs w.track fun hmem =>
        .inl (List.mem_of_mem_eraseIdx hmem)).mono fun _ => trivial
    cases t with
    | timeout id expectedAttempt delay =>
      exact herase.trans (dialTimeout_logs happ id expectedAttempt _)
    | retry id attempt delay =>
      refine herase.trans_of (dialStartAttempt_logs happ id attempt _) ?_
      intro hintime _ hx st hid hst
      have hlt := hintime id attempt delay st ht hid
      obtain ⟨rfl, -, honce⟩ := hx.retries (List.mem_of_getElem? ht)
      have hzero : st.attemptIndex = 0 := by
        refine (hx.index hid hst).resolve_right fun hone => ?_
        rw [hone.1] at hlt
        exact UInt32.lt_irrefl _ hlt
      have hcount := hx.count hid hst
      rw [hzero] at hcount
      exact ⟨if_neg fun hsock => hsock.2 hlt, hcount, .inr ⟨rfl, honce st hid⟩⟩

end Source

end Dialer

end HyperNet.Connector
