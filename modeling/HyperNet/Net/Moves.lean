import HyperNet.Net.Trail

/-!
# What a worker does to one session

`HyperNet.Net.Effects` follows all tables of a worker at once and needs ids that do not
repeat.  What the two sides of a single connection go through does not depend on ids.  This
file says for every trail of `HyperNet.Net.Trail` what it does to the rings and the mask of
each session, from any state and for any number of connections.

`Session.Moves` is that: a session that is connected was connected before, its receive ring
is the same unless it is the session being read from, and its send side is at rest if it was.
`Does.goes` finds it of each change, and `backlog_awaits_edge` is the result for whole runs.
-/

namespace HyperNet.Net

open Buffer Protocol Reentrant

/-! ## Sessions -/

/-- What the functions of a worker do to a session; `p` tells whether it is being read
from. -/
structure Session.Moves (p : Prop) (s s' : Session) : Prop where
  state : s'.state = .connected → s.state = .connected
  fd : s'.state = .connected → s'.fd = s.fd
  recvRing : ¬ p → s'.state = .connected → s'.recvRing = s.recvRing
  atRest : s'.state = .connected → 0 ≤ s.fd → s.AtRest → s'.AtRest

namespace Session.Moves

variable {p : Prop} {s s' s'' : Session}

theorem refl (p : Prop) (s : Session) : s.Moves p s :=
  ⟨fun h => h, fun _ => rfl, fun _ _ => rfl, fun _ _ h => h⟩

theorem trans (h : s.Moves p s') (h' : s'.Moves p s'') : s.Moves p s'' where
  state hc := h.state (h'.state hc)
  fd hc := (h'.fd hc).trans (h.fd (h'.state hc))
  recvRing hp hc := (h'.recvRing hp hc).trans (h.recvRing hp (h'.state hc))
  atRest hc hfd hrest :=
    h'.atRest hc (h.fd (h'.state hc) ▸ hfd) (h.atRest (h'.state hc) hfd hrest)

theorem of_ended (h : s'.state ≠ .connected) : s.Moves p s' :=
  ⟨fun hc => absurd hc h, fun hc => absurd hc h, fun _ hc => absurd hc h, fun hc => absurd hc h⟩

/-- Neither ring nor mask changes. -/
theorem aside (hstate : s'.state = s.state) (hfd : s'.fd = s.fd)
    (hrecv : s'.recvRing = s.recvRing) (hsend : s'.sendRing = s.sendRing)
    (hmask : s'.currentEpollMask = s.currentEpollMask) (hlast : s'.lastWrite = s.lastWrite) :
    s.Moves p s' where
  state hc := hstate ▸ hc
  fd _ := hfd
  recvRing _ _ := hrecv
  atRest _ _ hrest := hrest.of_same hsend hmask hlast

/-- The receive ring of the session being read from. -/
theorem reading (hp : p) (hstate : s'.state = s.state) (hfd : s'.fd = s.fd)
    (hsend : s'.sendRing = s.sendRing) (hmask : s'.currentEpollMask = s.currentEpollMask)
    (hlast : s'.lastWrite = s.lastWrite) : s.Moves p s' where
  state hc := hstate ▸ hc
  fd _ := hfd
  recvRing hnp := absurd hp hnp
  atRest _ _ hrest := hrest.of_same hsend hmask hlast

end Session.Moves

/-! ## Workers -/

/-- The entries of `sessions_` refer to objects that exist, one for each key, and so does
everything connected. -/
structure World.Bounded (w : World) : Prop where
  sessions : ∀ e ∈ w.sessions, e.2 < w.created
  keys : (w.sessions.map Prod.fst).Nodup
  obj : ∀ o, (w.obj o).state = .connected → o < w.created

theorem World.Bounded.find_of_mem {w : World} (h : w.Bounded) {id : UInt64} {o : Nat}
    (hmem : (id, o) ∈ w.sessions) : w.find id = some o := by
  cases hf : w.find id with
  | none => exact absurd rfl (bne_iff_ne.mp (List.lookup_eq_none_iff.mp hf _ hmem))
  | some o' =>
    have heq := List.inj_on_of_nodup_map h.keys (World.mem_of_find hf) hmem rfl
    exact congrArg (fun e => some e.2) heq

/-- A session that was made meanwhile.  One that did not get into `sessions_` is gone. -/
def World.Joined (r : Option Nat) (w : World) (cfg : Config) (o : Nat) : Prop :=
  (∀ id, (id, o) ∉ w.sessions) ∨ ((w.obj o).state = .connected →
    0 ≤ (w.obj o).fd ∧ (w.obj o).AtRest ∧ (r ≠ some o →
      (w.obj o).recvRing.contents = [] ∧ (w.obj o).recvRing.capacity = cfg.recvRingCapacity))

/-- What the functions of a worker do to its sessions; `r` is the session being read from,
if any. -/
structure World.Moves (r : Option Nat) (w w' : World) : Prop where
  cfg : w'.cfg = w.cfg
  created : w.created ≤ w'.created
  obj : ∀ o, o < w.created ∨ w'.created ≤ o → (w.obj o).Moves (r = some o) (w'.obj o)
  sessions : ∀ e ∈ w'.sessions, e ∈ w.sessions ∨ w.created ≤ e.2 ∧ e.2 < w'.created
  keys : (w.sessions.map Prod.fst).Nodup → (w'.sessions.map Prod.fst).Nodup
  joined : ∀ o < w'.created, w.created ≤ o → w'.Joined r w.cfg o

namespace World.Moves

variable {r : Option Nat} {u v w : World} {o : Nat}

theorem bounded (h : v.Moves r w) (hv : v.Bounded) : w.Bounded where
  sessions e he := by
    rcases h.sessions e he with hold | hnew
    · exact Nat.lt_of_lt_of_le (hv.sessions e hold) h.created
    · exact hnew.2
  keys := h.keys hv.keys
  obj o hc := by
    by_contra hge
    have hle := Nat.le_of_not_lt hge
    have hlt := hv.obj o ((h.obj o (.inr hle)).state hc)
    exact hge (Nat.lt_of_lt_of_le hlt h.created)

theorem trans (h : u.Moves r v) (h' : v.Moves r w) : u.Moves r w where
  cfg := h'.cfg.trans h.cfg
  created := h.created.trans h'.created
  obj o ho := (h.obj o (ho.imp_right h'.created.trans)).trans
    (h'.obj o (ho.imp_left fun hlt => Nat.lt_of_lt_of_le hlt h.created))
  sessions e he := by
    rcases h'.sessions e he with hv | ⟨hle, hlt⟩
    · exact (h.sessions e hv).imp_right fun hnew => ⟨hnew.1, Nat.lt_of_lt_of_le hnew.2 h'.created⟩
    · exact .inr ⟨h.created.trans hle, hlt⟩
  keys hnodup := h'.keys (h.keys hnodup)
  joined o ho hle := by
    rcases Nat.lt_or_ge o v.created with hlt | hge
    · rcases h.joined o hlt hle with hgone | hfresh
      · refine .inl fun id hid => ?_
        rcases h'.sessions _ hid with hv | hnew
        · exact hgone id hv
        · exact Nat.not_lt_of_le hnew.1 hlt
      · refine .inr fun hc => ?_
        have hmove := h'.obj o (.inl hlt)
        obtain ⟨hfd, hrest, hring⟩ := hfresh (hmove.state hc)
        refine ⟨hmove.fd hc ▸ hfd, hmove.atRest hc hfd hrest, fun hr => ?_⟩
        rw [hmove.recvRing hr hc]
        exact hring hr
    · rw [← h.cfg]
      exact h'.joined o ho hge

theorem of_none (h : v.Moves none w) : v.Moves r w where
  __ := h
  obj o ho := { h.obj o ho with recvRing := fun _ => (h.obj o ho).recvRing nofun }
  joined o ho hle := (h.joined o ho hle).imp_right fun hfresh hc =>
    ⟨(hfresh hc).1, (hfresh hc).2.1, fun _ => (hfresh hc).2.2 nofun⟩

end World.Moves

/-- Only the object `o` changes, and entries of `sessions_` only go. -/
structure World.Touches (o : Nat) (w w' : World) : Prop where
  cfg : w'.cfg = w.cfg
  created : w'.created = w.created
  obj : ∀ o' ≠ o, w'.obj o' = w.obj o'
  sessions : w'.sessions.Sublist w.sessions

namespace World.Touches

variable {r : Option Nat} {u v w : World} {o : Nat}

theorem refl (o : Nat) (w : World) : w.Touches o w := ⟨rfl, rfl, fun _ _ => rfl, .refl _⟩

theorem trans (h : u.Touches o v) (h' : v.Touches o w) : u.Touches o w :=
  ⟨h'.cfg.trans h.cfg, h'.created.trans h.created,
    fun o' ho' => (h'.obj o' ho').trans (h.obj o' ho'), h'.sessions.trans h.sessions⟩

section

variable (w) (o)

theorem setObj (s : Session) : w.Touches o (w.setObj o s) :=
  ⟨rfl, rfl, fun _ ho' => World.obj_setObj_ne w ho' s, .refl _⟩

theorem modify (f : Session → Session) : w.Touches o (w.modify o f) :=
  setObj w o (f (w.obj o))

theorem closeFd (fd : Int) : w.Touches o (w.closeFd fd) :=
  ⟨rfl, rfl, fun _ _ => rfl, .refl _⟩

theorem removeFd (fd : Int) : w.Touches o (w.removeFd fd) :=
  ⟨rfl, rfl, fun _ _ => rfl, .refl _⟩

theorem closeSocket : w.Touches o (w.closeSocket o) :=
  (closeFd w o (w.obj o).fd).trans (modify _ o _)

end

theorem of_sets (h : w.Sets o v) : w.Touches o v :=
  ⟨h.cfg, h.created, h.others, h.sessions ▸ .refl _⟩

theorem moves (h : w.Touches o v) (hobj : (w.obj o).Moves (r = some o) (v.obj o)) :
    w.Moves r v where
  cfg := h.cfg
  created := h.created.ge
  obj o' _ := by
    by_cases heq : o' = o
    · exact heq ▸ hobj
    · exact h.obj o' heq ▸ .refl _ _
  sessions e he := .inl (h.sessions.subset he)
  keys hnodup := hnodup.sublist (h.sessions.map Prod.fst)
  joined o' ho' hle := absurd (h.created ▸ ho') (Nat.not_lt_of_le hle)

end World.Touches

/-- An object made meanwhile that is not listed may be taken apart. -/
theorem World.Moves.drop {u v w : World} {r : Option Nat} {o : Nat} (h : u.Moves r v)
    (ho : u.created ≤ o) (hlt : o < v.created) (hgone : ∀ id, (id, o) ∉ v.sessions)
    (ht : v.Touches o w) : u.Moves r w where
  cfg := ht.cfg.trans h.cfg
  created := ht.created ▸ h.created
  obj o' ho' := by
    rw [ht.created] at ho'
    have hne : o' ≠ o := by
      rintro rfl
      exact ho'.elim (Nat.not_lt_of_le ho) (Nat.not_le_of_lt hlt)
    rw [ht.obj o' hne]
    exact h.obj o' ho'
  sessions e he := ht.created ▸ h.sessions e (ht.sessions.subset he)
  keys hnodup := (h.keys hnodup).sublist (ht.sessions.map Prod.fst)
  joined o' ho' hle := by
    by_cases heq : o' = o
    · exact .inl fun id hid => hgone id (heq ▸ ht.sessions.subset hid)
    · rw [World.Joined, ht.obj o' heq]
      exact (h.joined o' (ht.created ▸ ho') hle).imp_left fun hout id hid =>
        hout id (ht.sessions.subset hid)

/-- A session that is not kept closes its socket on the way out. -/
theorem World.Moves.leave {u v w : World} {r : Option Nat} {kept : Bool} (h : u.Moves r v)
    (hlt : u.created < v.created) (hgone : kept = false → ∀ id, (id, u.created) ∉ v.sessions)
    (h' : v.Moves r w) : u.Moves r (if kept = true then w else w.closeSocket u.created) := by
  split
  · exact h.trans h'
  next hkept =>
    refine (h.trans h').drop (Nat.le_refl _) (Nat.lt_of_lt_of_le hlt h'.created) ?_
      (.closeSocket w u.created)
    intro id hid
    rcases h'.sessions _ hid with hv | hnew
    · exact hgone (Bool.eq_false_of_not_eq_true hkept) id hv
    · exact Nat.not_lt_of_le hnew.1 hlt

/-- An entry of `sessions_` is gone, or its session has ended. -/
def World.Ended (w : World) (id : UInt64) (o : Nat) : Prop :=
  (id, o) ∈ w.sessions → (w.obj o).state ≠ .connected

/-- From a state whose table is in order a function moves the sessions. -/
def Goes (r : Option Nat) (w w' : World) : Prop := w.Bounded → w.Moves r w'

namespace Goes

variable {r : Option Nat} {u v w : World} {o : Nat}

theorem of_touches (h : w.Touches o v) (hobj : (w.obj o).Moves (r = some o) (v.obj o)) :
    Goes r w v := fun _ => h.moves hobj

/-- No object changes. -/
theorem of_same (hcfg : v.cfg = w.cfg) (hcreated : v.created = w.created) (hobj : v.obj = w.obj)
    (hsessions : v.sessions.Sublist w.sessions) : Goes r w v :=
  of_touches (o := 0) ⟨hcfg, hcreated, fun o' _ => congrFun hobj o', hsessions⟩
    (congrFun hobj 0 ▸ .refl _ _)

theorem refl (w : World) : Goes r w w := of_same rfl rfl rfl (.refl _)

theorem trans (h : Goes r u v) (h' : Goes r v w) : Goes r u w := fun hu =>
  (h hu).trans (h' ((h hu).bounded hu))

theorem of_none (h : Goes none v w) : Goes r v w := fun hv => (h hv).of_none

theorem modify {f : Session → Session} (h : (w.obj o).Moves (r = some o) (f (w.obj o))) :
    Goes r w (w.modify o f) := by
  refine of_touches (.modify w o f) ?_
  rw [World.modify, World.obj_setObj_self]
  exact h

theorem ended (h : Goes r w v) (hw : w.Bounded) (ho : o < w.created) {id : UInt64}
    (hended : w.Ended id o) : v.Ended id o := by
  intro hlisted hc
  have hmoves := h hw
  rcases hmoves.sessions _ hlisted with hold | hnew
  · exact hended hold ((hmoves.obj o (.inl ho)).state hc)
  · exact Nat.not_lt_of_le hnew.1 ho

end Goes

variable {app : Callback → World → World} {r : Option Nat} {v w : World} {o : Nat}

/-! ## Closing -/

theorem World.Touches.takeDown (w : World) (o : Nat) (reason : String) :
    w.Touches o (takeDown o reason w) := by
  unfold Net.takeDown
  dsimp only
  refine .trans ?_ (.modify _ o _)
  refine .trans ?_ (.closeSocket _ o)
  split
  · exact .trans (.modify w o _) (.removeFd _ o _)
  · exact .modify w o _

theorem takeDown_state (w : World) (o : Nat) (reason : String) :
    ((takeDown o reason w).obj o).state = .closed := by
  unfold takeDown
  dsimp only
  rw [World.modify, World.obj_setObj_self]

/-! ## Timers -/

theorem setTimerArmed_goes (o : Nat) (armed : Bool) (kind : TimerKind) (w : World) :
    Goes r w (w.modify o (·.setTimerArmed armed kind)) :=
  .modify (by cases kind <;> exact .aside rfl rfl rfl rfl rfl rfl)

theorem armTimerAfter_goes (kind : TimerKind) (o delayMs : Nat) (w : World) :
    Goes r w (armTimerAfter kind o delayMs w) := by
  rcases armTimerAfter_cases kind o delayMs w with heq | heq
  · rw [heq]
    exact .refl w
  · rw [heq]
    have hadd : Goes r w (w.addTimer ⟨o, kind, delayMs, w.now⟩) := .of_same rfl rfl rfl (.refl _)
    exact hadd.trans (setTimerArmed_goes o true kind _)

theorem startTimeouts_goes (o : Nat) (idleTimeoutMs heartbeatIntervalMs : UInt32) (w : World) :
    Goes r w (startTimeouts o idleTimeoutMs heartbeatIntervalMs w) := by
  rw [startTimeouts_eq]
  generalize hw₁ : w.modify o _ = w₁
  have h₁ : Goes r w w₁ := hw₁ ▸ .modify (.aside rfl rfl rfl rfl rfl rfl)
  exact (h₁.trans (armTimerAfter_goes _ o _ _)).trans (armTimerAfter_goes _ o _ _)

/-! ## New sessions -/

theorem sessionStarted_goes (o : Nat) (w : World) : Goes r w (w.sessionStarted o) :=
  .of_same rfl rfl rfl (.refl _)

theorem World.emplace_cases (w : World) (id : UInt64) (o : Nat) :
    (w.find id).isNone = true ∧ w.emplace id o = { w with sessions := w.sessions ++ [(id, o)] } ∨
      (w.find id).isNone = false ∧ w.emplace id o = w := by
  unfold World.emplace
  cases (w.find id).isNone with
  | true => exact .inl ⟨rfl, rfl⟩
  | false => exact .inr ⟨rfl, rfl⟩

theorem World.created_emplace (w : World) (id : UInt64) (o : Nat) :
    (w.emplace id o).created = w.created := by
  rcases w.emplace_cases id o with ⟨-, heq⟩ | ⟨-, heq⟩
  · rw [heq]
  · rw [heq]

theorem World.not_mem_emplace (id : UInt64) (h : ∀ e ∈ w.sessions, e.2 < o)
    (htaken : (w.find id).isNone = false) (id' : UInt64) :
    (id', o) ∉ (w.emplace id o).sessions := by
  intro hid
  rcases w.emplace_cases id o with ⟨hfree, -⟩ | ⟨-, heq⟩
  · exact Bool.false_ne_true (htaken.symm.trans hfree)
  · rw [heq] at hid
    exact Nat.lt_irrefl o (h _ hid)

theorem World.keys_emplace (id : UInt64) (o : Nat) (h : (w.sessions.map Prod.fst).Nodup) :
    ((w.emplace id o).sessions.map Prod.fst).Nodup := by
  rcases w.emplace_cases id o with ⟨hfree, heq⟩ | ⟨-, heq⟩
  · rw [heq, List.map_append]
    refine h.append (List.nodup_singleton id) (List.disjoint_singleton.mpr fun hmem => ?_)
    obtain ⟨e, he, rfl⟩ := List.mem_map.mp hmem
    have hnone := List.lookup_eq_none_iff.mp (Option.isNone_iff_eq_none.mp hfree) e he
    exact bne_iff_ne.mp hnone rfl
  · rw [heq]
    exact h

/-- A new session is at rest, with nothing received. -/
theorem createSession_joins {cfg : Config} {id : UInt64} {fd : Int} {now : Nat} {memory : Bool}
    {s : Session} (h : createSession cfg id fd now memory = some s) :
    s.fd = fd ∧ s.AtRest ∧ s.recvRing.contents = [] ∧
      s.recvRing.capacity = cfg.recvRingCapacity := by
  unfold createSession at h
  split at h
  next hpos =>
    cases h
    have hempty : (Ring.make cfg.sendRingCapacity hpos.2.2).empty = true :=
      (Ring.empty_iff _).mpr (Ring.contents_make _ hpos.2.2)
    refine ⟨rfl, ⟨?_, ?_⟩, Ring.contents_make _ hpos.2.1, rfl⟩
    · rw [hempty]
      rfl
    · rw [hempty]
      rintro ⟨⟩
  · cases h

/-- A new object, listed if its id is not in use. -/
theorem emplace_moves {s : Session} (id : UInt64) (hcfg : v.cfg = w.cfg)
    (hcreated : v.created = w.created) (hobj : v.obj = w.obj) (hsessions : v.sessions = w.sessions)
    (hfd : 0 ≤ s.fd) (hrest : s.AtRest) (hring : s.recvRing.contents = [])
    (hcap : s.recvRing.capacity = w.cfg.recvRingCapacity) :
    w.Moves r ((v.allocate s).emplace id w.created) := by
  have hself : (v.allocate s).obj w.created = s := hcreated ▸ World.obj_setObj_self _ _ s
  have hother : ∀ o ≠ w.created, (v.allocate s).obj o = w.obj o := fun o ho =>
    (World.obj_setObj_ne _ (hcreated ▸ ho) s).trans (congrFun hobj o)
  have hsame : ((v.allocate s).emplace id w.created).cfg = v.cfg ∧
      ((v.allocate s).emplace id w.created).created = v.created + 1 ∧
      ((v.allocate s).emplace id w.created).obj = (v.allocate s).obj ∧
      ∀ e ∈ ((v.allocate s).emplace id w.created).sessions,
        e ∈ v.sessions ∨ e = (id, w.created) := by
    rcases (v.allocate s).emplace_cases id w.created with ⟨-, heq⟩ | ⟨-, heq⟩
    · rw [heq]
      exact ⟨rfl, rfl, rfl, fun e he => (List.mem_append.mp he).imp_right List.mem_singleton.mp⟩
    · rw [heq]
      exact ⟨rfl, rfl, rfl, fun e he => .inl he⟩
  have hkeys := World.keys_emplace (w := v.allocate s) id w.created
  generalize (v.allocate s).emplace id w.created = u at hsame hkeys
  obtain ⟨hucfg, hucreated, huobj, husessions⟩ := hsame
  rw [hcreated] at hucreated
  refine ⟨hucfg.trans hcfg, ?_, fun o ho => ?_, fun e he => ?_, fun h => hkeys (hsessions ▸ h),
    fun o ho hle => ?_⟩
  · rw [hucreated]
    exact Nat.le_succ _
  · have hne : o ≠ w.created := by
      rintro rfl
      rw [hucreated] at ho
      exact ho.elim (Nat.lt_irrefl _) (Nat.not_succ_le_self _)
    rw [huobj, hother o hne]
    exact .refl _ _
  · rcases husessions e he with hold | rfl
    · exact .inl (hsessions ▸ hold)
    · exact .inr ⟨Nat.le_refl _, hucreated ▸ Nat.lt_succ_self _⟩
  · rw [hucreated] at ho
    have heq : o = w.created := Nat.le_antisymm (Nat.le_of_lt_succ ho) hle
    rw [World.Joined, huobj, heq, hself]
    exact .inr fun _ => ⟨hfd, hrest, fun _ => ⟨hring, hcap⟩⟩

/-- A connection becomes a session. -/
theorem enlist_goes (happ : ∀ c w, Goes r w (app c w)) {fd : Int} {memory : Bool} {s : Session}
    (h : w.arrive.issueId.Aside v) (hfd : 0 ≤ fd)
    (hcreate : createSession w.cfg (nextSessionId w) fd w.now memory = some s) :
    Goes r w (enlist app (nextSessionId w) s v) := by
  intro hbound
  obtain ⟨hsfd, hrest, hring, hcap⟩ := createSession_joins hcreate
  have hcreated : v.created = w.created := h.created
  have hnew : w.Moves r ((v.allocate s).emplace (nextSessionId w) w.created) :=
    emplace_moves _ h.cfg hcreated h.obj h.sessions (hsfd ▸ hfd) hrest hring hcap
  have hlt : w.created < ((v.allocate s).emplace (nextSessionId w) w.created).created := by
    rw [World.created_emplace, ← hcreated]
    exact Nat.lt_succ_self _
  have hsessions : (v.allocate s).sessions = w.sessions := h.sessions
  have hgone := World.not_mem_emplace (w := v.allocate s) (nextSessionId w)
    (hsessions ▸ hbound.sessions)
  unfold enlist
  dsimp only
  rw [hcreated]
  generalize (v.allocate s).emplace (nextSessionId w) w.created = u at hnew hlt hgone ⊢
  have hstart : Goes r u (app (.onSessionStart (nextSessionId w))
      (World.sessionStarted
        (startTimeouts w.created u.cfg.idleTimeoutMs u.cfg.heartbeatIntervalMs u) w.created)) :=
    ((startTimeouts_goes _ _ _ u).trans (sessionStarted_goes _ _)).trans (happ _ _)
  exact hnew.leave hlt hgone (hstart (hnew.bounded hbound))

/-! ## Trails -/

section Trails

variable (happ : ∀ c w, Goes r w (app c w))
include happ

/-- Each change moves the sessions. -/
theorem Does.goes (h : Does app (.reading r) w v) : Goes r w v := by
  cases h with
  | aside h => exact .of_same h.cfg h.created h.obj (h.sessions ▸ .refl _)
  | touches o h hrest =>
    exact .of_touches (.of_sets h)
      ⟨fun hc => h.own.state ▸ hc, fun _ => h.fd, fun _ _ => h.recvRing, hrest⟩
  | accepts o packet _ => exact .modify (.aside rfl rfl rfl rfl rfl rfl)
  | reads o recvRing hr => exact .modify (.reading hr rfl rfl rfl rfl rfl)
  | receives o recvRing bytes hr _ _ => exact .modify (.reading hr rfl rfl rfl rfl rfl)
  | closes o reason h _ _ =>
    exact .of_touches ((World.Touches.of_sets h).trans (.takeDown _ o reason))
      (.of_ended (by rw [takeDown_state]; rintro ⟨⟩))
  | ends id o _ =>
    have herase : Goes r w ((w.erase id).sessionEnded o) :=
      .of_same rfl rfl rfl List.filter_sublist
    exact herase.trans (happ _ _)
  | refuses _ h => exact .of_same h.cfg h.created h.obj (h.sessions ▸ .refl _)
  | starts fd memory s _ h hfd hcreate => exact enlist_goes happ h hfd hcreate
  | message id opcode body => exact happ _ w
  | dialed id => exact happ _ w

theorem Trail.goes (h : Trail app (.reading r) w v) : Goes r w v :=
  h.rel .refl .trans (Does.goes happ)

end Trails

theorem Api.within_reading (r : Option Nat) (a : Api) : a.Within (.reading r) := by
  cases a <;> trivial

theorem client_goes (client : Client) (w : World) : Goes none w (client.run call w) :=
  client_rel .refl .trans (fun happ _ _ => Does.goes happ)
    (Script.only_of_forall (Api.within_reading none) _) w

theorem Step.app_goes (t : Step) (c : Callback) (w : World) : Goes none w (t.app c w) :=
  client_goes (t.user c w) w

/-! ## Closing all sessions -/

section Closing

variable (happ : ∀ c w, Goes r w (app c w))
include happ

/-- Closing a session leaves it closed, whatever the application does about it. -/
theorem beginClose_ended (hw : w.Bounded) (ho : o < w.created) (reason : String) (err : Nat) :
    ((beginClose app o reason err w).obj o).state ≠ .connected := by
  intro hc
  by_cases hconn : (w.obj o).state = .connected
  · have hdown := World.Touches.takeDown w o reason
    have hended : ((takeDown o reason w).obj o).state ≠ .connected := by
      rw [takeDown_state]
      rintro ⟨⟩
    have hbounded := (hdown.moves (r := r) (.of_ended hended)).bounded hw
    have hmoves := (beginClose_after hconn reason err).goes happ hbounded
    exact hended ((hmoves.obj o (.inl (hdown.created ▸ ho))).state hc)
  · rw [beginClose_of_ended hconn] at hc
    exact hconn hc

theorem closeByPolicy_goes (id : UInt64) (reason : Option String) (err : Nat) (w : World) :
    Goes r w (closeByPolicy app id reason err w) :=
  (closeByPolicy_trail trivial id err w).goes happ

theorem closeByPolicy_ended (hw : w.Bounded) (ho : o < w.created) (id : UInt64)
    (reason : Option String) (err : Nat) : (closeByPolicy app id reason err w).Ended id o := by
  have hgoes := closeByPolicy_goes happ id reason err w
  by_cases hlisted : (id, o) ∈ w.sessions
  · -- the keys are distinct, so this is the session that is found
    unfold closeByPolicy
    rw [hw.find_of_mem hlisted]
    exact fun _ => beginClose_ended happ hw ho _ err
  · exact hgoes.ended hw ho fun hmem => absurd hmem hlisted

/-- Every session that was listed has ended once all of them are closed by policy, whatever
the application does meanwhile. -/
theorem closeAllByPolicy_ended (hw : w.Bounded) {id : UInt64} (hlisted : (id, o) ∈ w.sessions)
    (reason : Option String) (err : Nat) (order : List UInt64) :
    (closeAllByPolicy app reason err order w).Ended id o := by
  unfold closeAllByPolicy
  dsimp only
  have hkey : id ∈ w.sessions.map Prod.fst := List.mem_map.mpr ⟨_, hlisted, rfl⟩
  have hids : id ∈ if order.isPerm (w.sessions.map Prod.fst) = true then order
      else w.sessions.map Prod.fst := by
    split
    next hperm => exact (List.isPerm_iff.mp hperm).mem_iff.mpr hkey
    · exact hkey
  generalize (if order.isPerm (w.sessions.map Prod.fst) = true then order
    else w.sessions.map Prod.fst) = ids at hids ⊢
  obtain ⟨before, after, rfl⟩ := List.append_of_mem hids
  rw [List.foldl_append, List.foldl_cons]
  have hall : ∀ (ids : List UInt64) (w : World),
      Goes r w (ids.foldl (fun w id => closeByPolicy app id reason err w) w) := fun ids w =>
    foldl_rel .refl .trans (fun w id => closeByPolicy_goes happ id reason err w) w ids
  have hbefore := hall before w hw
  generalize before.foldl (fun w id => closeByPolicy app id reason err w) w = w₁ at hbefore ⊢
  have hw₁ := hbefore.bounded hw
  have ho₁ : o < w₁.created := Nat.lt_of_lt_of_le (hw.sessions _ hlisted) hbefore.created
  have hturn := closeByPolicy_goes happ id reason err w₁ hw₁
  exact (hall after _).ended (hturn.bounded hw₁) (Nat.lt_of_lt_of_le ho₁ hturn.created)
    (closeByPolicy_ended happ hw₁ ho₁ id reason err)

end Closing

/-! ## Events -/

section Events

variable (happ : ∀ c w, Goes none w (app c w))
include happ

/-- What a message leads to leaves every receive ring alone, that of its session too. -/
theorem dispatchOnMessage_goes (o : Nat) (message : List UInt8) (w : World) :
    Goes none w (dispatchOnMessage app o message w) :=
  (dispatchOnMessage_trail o message w).goes happ

theorem onReadable_goes (o : Nat) (script : RecvScript) (w : World) :
    Goes (some o) w (onReadable app o script w) :=
  (onReadable_trail rfl script w).goes fun c w => (happ c w).of_none

/-- Once it has read, `handleEvent` leaves the receive rings alone. -/
theorem handleEvent_goes_after (o : Nat) (events : UInt32) (script : RecvScript) (w : World) :
    ∃ v, (v = w ∨ v = onReadable app o script w) ∧
      Goes none v (handleEvent app o events script w) := by
  obtain ⟨v, hv, hafter⟩ := handleEvent_trail_after app (.reading none) o events script w
  exact ⟨v, hv, hafter.goes happ⟩

theorem Fires.goes {i : Nat} {timer : Timer} (h : Fires app i timer w v) : Goes none w v := by
  have herase : Goes none w { w with timers := w.timers.eraseIdx i } :=
    .of_same rfl rfl rfl (.refl _)
  have hdisarm : Goes none w (w.disarm i timer) := herase.trans (setTimerArmed_goes _ _ _ _)
  cases h with
  | lapsed _ => exact herase
  | rests _ _ _ => exact hdisarm
  | closes _ _ _ _ _ => exact hdisarm.trans ((beginClose_trail trivial _ 0 _).goes happ)
  | rearms _ delayMs _ _ _ _ => exact hdisarm.trans (armTimerAfter_goes _ _ delayMs _)
  | probes _ delayMs _ _ _ _ _ _ =>
    exact (hdisarm.trans ((sendPacketU16_trail trivial _ _).goes happ)).trans
      (armTimerAfter_goes _ _ delayMs _)

theorem fireTimer_goes (i : Nat) (w : World) : Goes none w (fireTimer app i w) := by
  cases h : w.timers[i]? with
  | none =>
    rw [fireTimer_stale app h]
    exact .refl w
  | some timer => exact (fireTimer_fires app h).goes happ

/-- Everything an event loop does but reading leaves the receive rings alone. -/
theorem Input.exec_goes (input : Input) (hready : ∀ ev script, input ≠ .ready ev script)
    (w : World) : Goes none w (input.exec app w) := by
  by_cases htimer : ∃ i, input = .timer i
  · obtain ⟨i, rfl⟩ := htimer
    exact fireTimer_goes happ i w
  by_cases htask : ∃ client, input = .task client
  · obtain ⟨client, rfl⟩ := htask
    exact client_goes client w
  have htrail : Trail app (.reading none) w (input.exec app w) :=
    Input.exec_trail (not_exists.mp htimer) (not_exists.mp htask)
      (fun ev script heq => absurd heq (hready ev script)) w
  exact htrail.goes happ

end Events

theorem answered_goes (w : World) (t : Step) : Goes r w (w.answered t) :=
  .of_same rfl rfl rfl (.refl _)

theorem ready_eq (app : Callback → World → World) (w : World) (ev : ReadyEvent)
    (script : RecvScript) :
    (Input.ready ev script).exec app w = w ∨
      ∃ o, (Input.ready ev script).exec app w = handleEvent app o ev.events script w := by
  rw [Input.exec]
  split
  · split
    next o _ => exact .inr ⟨o, rfl⟩
    · exact .inl rfl
  · exact .inl rfl

/-- A step is an event for a session, or leaves the receive rings alone. -/
theorem step_goes (w : World) (t : Step) :
    Goes none w (step w t) ∨
    ∃ o events script, step w t = handleEvent t.app o events script (w.answered t) := by
  have hanswered : Goes none w (w.answered t) := answered_goes w t
  change Goes none w (t.input.exec t.app (w.answered t)) ∨ _
  by_cases hready : ∃ ev script, t.input = .ready ev script
  · obtain ⟨ev, script, hinput⟩ := hready
    rw [step, hinput]
    rcases ready_eq t.app (w.answered t) ev script with heq | ⟨o, heq⟩
    · exact .inl (heq.symm ▸ hanswered)
    · exact .inr ⟨o, ev.events, script, heq⟩
  · refine .inl (hanswered.trans (Input.exec_goes t.app_goes t.input ?_ _))
    exact fun ev script hinput => hready ⟨ev, script, hinput⟩

theorem step_goes_some (w : World) (t : Step) : ∃ r, Goes r w (step w t) := by
  rcases step_goes w t with hgoes | ⟨o, events, script, heq⟩
  · exact ⟨none, hgoes⟩
  · refine ⟨some o, ?_⟩
    rw [heq]
    exact (answered_goes w t).trans
      ((handleEvent_trail rfl events script _).goes fun c w => (t.app_goes c w).of_none)

/-! ## Runs -/

theorem World.bounded_init (cfg : Config) (arrivals : Nat) : World.Bounded { cfg, arrivals } where
  sessions _ he := absurd he List.not_mem_nil
  keys := List.nodup_nil
  obj _ hc := by cases hc

/-- Every connection of the table has a socket, and its send side is at rest. -/
structure World.Resting (w : World) : Prop where
  bounded : w.Bounded
  rest : ∀ e ∈ w.sessions, (w.obj e.2).state = .connected →
    0 ≤ (w.obj e.2).fd ∧ (w.obj e.2).AtRest

theorem Goes.resting (h : Goes r w v) (hw : w.Resting) : v.Resting := by
  have hmoves := h hw.bounded
  refine ⟨hmoves.bounded hw.bounded, fun e he hc => ?_⟩
  rcases hmoves.sessions e he with hold | ⟨hle, hlt⟩
  · have hmove := hmoves.obj e.2 (.inl (hw.bounded.sessions e hold))
    obtain ⟨hfd, hrest⟩ := hw.rest e hold (hmove.state hc)
    exact ⟨(hmove.fd hc).symm ▸ hfd, hmove.atRest hc hfd hrest⟩
  · rcases hmoves.joined e.2 hlt hle with hgone | hfresh
    · exact absurd he (hgone e.1)
    · exact ⟨(hfresh hc).1, (hfresh hc).2.1⟩

theorem resting_run (cfg : Config) (arrivals : Nat) (steps : List Step) :
    (run cfg arrivals steps).Resting := by
  refine foldl_invariant (fun w t hw => ?_) _ ⟨World.bounded_init cfg arrivals, ?_⟩ steps
  · obtain ⟨r, hgoes⟩ := step_goes_some w t
    exact hgoes.resting hw
  · exact fun e he => absurd he List.not_mem_nil

theorem interestMask_write (enable : Bool) :
    interestMask enable &&& Event.write ≠ 0 ↔ enable = true := by
  cases enable with
  | true => exact iff_of_true (by decide) rfl
  | false => exact iff_of_false (by decide) Bool.false_ne_true

/-- **No stalled backlog.**  Between the steps of an event loop a connected session asks for
`EPOLLOUT` just when bytes are queued, and then its last write was answered by `EAGAIN`: the
kernel will report the socket writable. -/
theorem backlog_awaits_edge (cfg : Config) (arrivals : Nat) (steps : List Step) {id : UInt64}
    {o : Nat} (hlisted : (id, o) ∈ (run cfg arrivals steps).sessions)
    (hc : ((run cfg arrivals steps).obj o).state = .connected) :
    (((run cfg arrivals steps).obj o).currentEpollMask &&& Event.write ≠ 0 ↔
      ((run cfg arrivals steps).obj o).sendRing.empty = false) ∧
    (((run cfg arrivals steps).obj o).sendRing.empty = false →
      ((run cfg arrivals steps).obj o).lastWrite = some .eagain) := by
  obtain ⟨-, hrest⟩ := (resting_run cfg arrivals steps).rest _ hlisted hc
  refine ⟨?_, hrest.owed⟩
  rw [hrest.mask, interestMask_write]
  exact iff_of_eq (Bool.not_eq_true' _)

/-- A connection is accepted, and the kernel takes three of the eight bytes of a packet. -/
def sampleBacklog : List Step :=
  [{ input := .accept 5 true },
   { input := .task (.call (.sendPacketU16 4294967297 7 (.bytes [1, 2]))
       (fun _ _ => .done) fun _ => .done),
     writes := [.taken 3, .eagain] }]

theorem backlog_awaits_edge_sample :
    (4294967297, 0) ∈ (run sampleConfig 1 sampleBacklog).sessions ∧
    ((run sampleConfig 1 sampleBacklog).obj 0).state = .connected ∧
    ((run sampleConfig 1 sampleBacklog).obj 0).sendRing.empty = false ∧
    (((run sampleConfig 1 sampleBacklog).obj 0).currentEpollMask &&& Event.write ≠ 0 ↔
      ((run sampleConfig 1 sampleBacklog).obj 0).sendRing.empty = false) ∧
    (((run sampleConfig 1 sampleBacklog).obj 0).sendRing.empty = false →
      ((run sampleConfig 1 sampleBacklog).obj 0).lastWrite = some .eagain) :=
  have hlisted : (4294967297, 0) ∈ (run sampleConfig 1 sampleBacklog).sessions := by decide
  ⟨hlisted, by decide, by decide, backlog_awaits_edge _ _ _ hlisted (by decide)⟩

end HyperNet.Net
