import HyperNet.Net.Paths

/-!
# Sessions from start to end

Two results about whole runs of a worker, both read off the effects its functions
take.  Between two steps of the event loop the state of a session, the manager's
map, the socket, the loop's table and the gauge all tell the same story
(`run_tables_agree`).  And the application is told of the start and the end of a
session once each and in this order — as long as the worker is not shut down: the
sessions `shutdownInOwnerThread` finds are closed without a word
(`shutdown_paired_iff`).
-/

namespace HyperNet.Net

open Reentrant

variable {r : Option Nat} {w w' : World} {o : Nat}

/-! ## The tables -/

/-- The session's id is a key of `sessions_`. -/
def World.Listed (w : World) (o : Nat) : Prop := (w.obj o).id ∈ w.sessions.map Prod.fst

def World.SocketOpen (w : World) (o : Nat) : Prop :=
  0 ≤ (w.obj o).fd ∧ w.isOpen (w.obj o).fd = true

/-- `fdContexts_` maps the session's descriptor to it, under the session's mask. -/
def World.Mapped (w : World) (o : Nat) : Prop :=
  ∃ ctx, w.loop.fdContexts (w.obj o).fd = some ctx ∧ ctx.handler = .session o ∧
    ctx.registeredEvents = (w.obj o).currentEpollMask

/-- All tables agree on which sessions are in use. -/
structure World.TablesAgree (w : World) : Prop where
  listed : ∀ o < w.created, (w.obj o).state = .connected ↔ w.Listed o
  socketOpen : ∀ o < w.created, (w.obj o).state = .connected ↔ w.SocketOpen o
  mapped : ∀ o < w.created, (w.obj o).state = .connected ↔ w.Mapped o
  gauge : w.currentConnections = w.sessions.length

theorem Lifecycle.tablesAgree (h : Lifecycle w) : w.TablesAgree := by
  refine ⟨fun o ho => ⟨fun hc => ?_, fun hlisted => ?_⟩,
    fun o ho => ⟨fun hc => ?_, fun hopen => ?_⟩,
    fun o ho => ⟨fun hc => (h.live ho hc).context, fun hmapped => ?_⟩, h.gauge⟩
  · exact List.mem_map.mpr ⟨_, (h.live ho hc).listed, rfl⟩
  · obtain ⟨e, he, heq⟩ := List.mem_map.mp hlisted
    obtain ⟨ho', hid⟩ := h.entries e he
    -- ids are distinct, so the entry is the session's own
    obtain rfl := h.distinct e.2 ho' o ho (hid.trans heq)
    rcases h.cases e.2 ho with hl | hg
    · exact hl.state
    · exact absurd he (hg.unlisted e.1)
  · exact ⟨(h.live ho hc).nonneg, (h.live ho hc).isOpen⟩
  · rcases h.cases o ho with hl | hg
    · exact hl.state
    · exact absurd hopen.1 (by rw [hg.fd]; decide)
  · obtain ⟨ctx, hctx, hhandler, -⟩ := hmapped
    exact ((h.contexts _ ctx hctx).2.2 o hhandler).2.1

/-- However a worker has run, its tables agree, and a session that has ended stays so. -/
theorem run_tables_agree (cfg : Config) {arrivals : Nat} (h : arrivals < 2 ^ 32)
    (steps more : List Step) :
    (run cfg arrivals steps).TablesAgree ∧
    ∀ o < (run cfg arrivals steps).created, ((run cfg arrivals steps).obj o).state = .closed →
      ((run cfg arrivals (steps ++ more)).obj o).state = .closed := by
  have hrun := lifecycle_run cfg (lt_idSpace h) steps
  refine ⟨hrun.tablesAgree, fun o ho hclosed => ?_⟩
  rw [run, List.foldl_append]
  have hkept := steps_invariant
    (I := fun w => o < w.created ∧ (w.obj o).state = .closed)
    (fun e hw => ⟨Nat.lt_of_lt_of_le hw.1 e.evolves.created, (e.evolves.obj o hw.1).closed hw.2⟩)
    hrun ⟨ho, hclosed⟩ more
  exact hkept.2.2

theorem run_tables_agree_accept :
    (run sampleConfig 1 [{ input := .accept 5 true }]).created = 1 ∧
    (run sampleConfig 1 [{ input := .accept 5 true }]).TablesAgree ∧
    ∀ o < (run sampleConfig 1 [{ input := .accept 5 true }]).created,
      ((run sampleConfig 1 [{ input := .accept 5 true }]).obj o).state = .closed →
      ((run sampleConfig 1 ([{ input := .accept 5 true }] ++
        [{ input := .ready ⟨5, Event.hangup⟩ ⟨[], [], .eagain⟩ }])).obj o).state = .closed :=
  ⟨rfl, run_tables_agree sampleConfig (by decide) _ _⟩

/-! ## What the application is told -/

/-- The session an event is about. -/
def AppEvent.about : AppEvent → Nat
  | .started o => o
  | .ended o => o

/-- The events about one session. -/
def eventsOf (o : Nat) (trace : List AppEvent) : List AppEvent :=
  trace.filter (·.about = o)

/-- Every session that was started was ended, once and after its start. -/
def Paired (trace : List AppEvent) : Prop :=
  ∀ o, .started o ∈ trace → eventsOf o trace = [.started o, .ended o]

/-- What the application should know of a session. -/
def World.known (w : World) (o : Nat) : List AppEvent :=
  if o < w.created then
    if (w.obj o).state = .closed then [.started o, .ended o] else [.started o]
  else []

/-- The application knows what it should. -/
def World.Told (w : World) : Prop := ∀ o, eventsOf o w.trace = w.known o

theorem eventsOf_append_self {trace : List AppEvent} {e : AppEvent} (h : e.about = o) :
    eventsOf o (trace ++ [e]) = eventsOf o trace ++ [e] := by
  simp only [eventsOf, List.filter_append, List.filter_cons, h, decide_true, if_true,
    List.filter_nil]

theorem eventsOf_append_ne {trace : List AppEvent} {e : AppEvent} (h : e.about ≠ o) :
    eventsOf o (trace ++ [e]) = eventsOf o trace := by
  simp only [eventsOf, List.filter_append, List.filter_cons, h, decide_false, Bool.false_eq_true,
    if_false, List.filter_nil, List.append_nil]

namespace World.Told

/-- Where no session starts or ends there is nothing to tell. -/
theorem frame (h : w.Told) (w' : World) (htrace : w'.trace = w.trace)
    (hcreated : w'.created = w.created) (hstate : ∀ o, (w'.obj o).state = (w.obj o).state) :
    w'.Told := by
  intro o
  rw [htrace, h o, World.known, World.known, hcreated, hstate o]

theorem quiet (h : w.Told) (hq : Quiet w w') : w'.Told :=
  h.frame w' (congrArg World.trace hq :) hq.created hq.state

/-- Changes of one session that keep its state. -/
theorem setObj (h : w.Told) {s : Session} (hs : s.state = (w.obj o).state) :
    (w.setObj o s).Told := by
  refine h.frame _ rfl rfl fun o' => ?_
  by_cases heq : o' = o
  · rw [heq, World.obj_setObj_self, hs]
  · rw [World.obj_setObj_ne w heq]

theorem detach (h : w.Told) (ho : o < w.created) (hc : (w.obj o).state = .connected)
    (reason : String) : (w.detach o reason).Told := by
  intro o'
  change eventsOf o' (w.trace ++ [.ended o]) = _
  by_cases heq : o' = o
  · subst heq
    have hclosed : ((w.detach o' reason).obj o').state = .closed := by
      rw [World.detach, World.obj_setObj_self]
    rw [eventsOf_append_self (o := o') rfl, h o', World.known, World.known, if_pos ho,
      if_neg (by rw [hc]; rintro ⟨⟩), hclosed,
      if_pos (show o' < (w.detach o' reason).created from ho), if_pos rfl]
    rfl
  · have hobj : (w.detach o reason).obj o' = w.obj o' := World.obj_setObj_ne _ heq _
    rw [eventsOf_append_ne (Ne.symm heq), h o', World.known, World.known, hobj]
    rfl

theorem enroll (h : w.Told) {fd : Int} {s : Session} (hs : s.state = .connected) :
    (w.enroll fd s).Told := by
  intro o
  change eventsOf o (w.trace ++ [.started w.created]) = _
  rw [World.known, show (w.enroll fd s).created = w.created + 1 from rfl]
  rcases Nat.lt_trichotomy o w.created with hlt | rfl | hgt
  · have hobj : (w.enroll fd s).obj o = w.obj o := World.obj_setObj_ne _ (Nat.ne_of_lt hlt) _
    rw [eventsOf_append_ne (Nat.ne_of_gt hlt), h o, World.known, hobj, if_pos hlt,
      if_pos (Nat.lt_succ_of_lt hlt)]
  · have hobj : (w.enroll fd s).obj w.created = s := World.obj_setObj_self _ _ _
    rw [eventsOf_append_self (o := w.created) rfl, h w.created, World.known, hobj,
      if_neg (Nat.lt_irrefl _), if_pos (Nat.lt_succ_self _), hs]
    rfl
  · rw [eventsOf_append_ne (Nat.ne_of_lt hgt), h o, World.known, if_neg (Nat.not_lt_of_gt hgt),
      if_neg (Nat.not_lt_of_ge (Nat.succ_le_of_lt hgt))]

end World.Told

theorem Effect.told (e : Effect r w w') (h : w.Told) : w'.Told := by
  cases e with
  | quiet hq => exact h.quiet hq
  | sends o s ho hc hs hq =>
    refine World.Told.quiet (h.setObj ?_) hq
    cases hs <;> rfl
  | masked o ctx events ho hc hctx hq =>
    have hloop : (w.setLoop (w.loop.set (w.obj o).fd
        (some { ctx with registeredEvents := events }))).Told := h.frame _ rfl rfl fun _ => rfl
    refine World.Told.quiet ?_ hq
    exact hloop.setObj rfl
  | closed o s reason ho hc hs hq =>
    have hstate : s.state = (w.obj o).state := by
      cases hs <;> rfl
    refine World.Told.quiet (World.Told.detach (h.setObj hstate) ho ?_ reason) hq
    rw [World.obj_setObj_self, hstate, hc]
  | enrolled fd s hfd hv harr hs hq => exact (h.enroll hs.state).quiet hq
  | refused fd hv harr hq => exact (h.frame (w.refuse fd) rfl rfl fun _ => rfl).quiet hq
  | registered fd events tag hfd hopen hq =>
    exact (h.frame (w.register fd events tag) rfl rfl fun _ => rfl).quiet hq
  | released fd hother hq => exact (h.frame (w.release fd) rfl rfl fun _ => rfl).quiet hq
  | received o s ho hs hq =>
    refine World.Told.quiet (h.setObj ?_) hq
    cases hs
    rfl

theorem told_run (cfg : Config) {arrivals : Nat} (h : arrivals < 2 ^ 32) (steps : List Step) :
    (run cfg arrivals steps).Told :=
  (steps_invariant (fun e => e.told) (lifecycle_init cfg (lt_idSpace h)) (fun _ => rfl) steps).2

/-! ## Shutdown -/

/-- Neither what the application was told nor the gauge. -/
theorem shutdownInOwnerThread_silent (dials : List Int) (w : World) :
    (shutdownInOwnerThread dials w).trace = w.trace ∧
    (shutdownInOwnerThread dials w).currentConnections = w.currentConnections := by
  have hrelease : ∀ (w : World) fd, (w.releaseOther fd).trace = w.trace ∧
      (w.releaseOther fd).currentConnections = w.currentConnections := by
    intro w fd
    unfold World.releaseOther
    split <;> exact ⟨rfl, rfl⟩
  have hclose : ∀ (w : World) (e : UInt64 × Nat),
      (closeFromManager e.2 "worker_shutdown" w).trace = w.trace ∧
      (closeFromManager e.2 "worker_shutdown" w).currentConnections = w.currentConnections := by
    intro w e
    unfold closeFromManager takeDown
    dsimp only
    split
    · exact ⟨rfl, rfl⟩
    · split <;> exact ⟨rfl, rfl⟩
  have hdials := foldl_invariant (I := fun v => v.trace = w.trace ∧
    v.currentConnections = w.currentConnections)
    (fun v fd hv => ⟨(hrelease v fd).1.trans hv.1, (hrelease v fd).2.trans hv.2⟩) w ⟨rfl, rfl⟩ dials
  exact foldl_invariant (I := fun v => v.trace = w.trace ∧
    v.currentConnections = w.currentConnections)
    (fun v e hv => ⟨(hclose v e).1.trans hv.1, (hclose v e).2.trans hv.2⟩) _ hdials _

/-- Every session of a worker has ended exactly if none is listed. -/
theorem Lifecycle.paired_iff (h : Lifecycle w) (ht : w.Told) :
    Paired w.trace ↔ w.sessions = [] := by
  constructor
  · intro hpaired
    cases hsessions : w.sessions with
    | nil => rfl
    | cons e rest =>
      have he : e ∈ w.sessions := by
        rw [hsessions]
        exact List.mem_cons_self ..
      obtain ⟨ho, -⟩ := h.entries e he
      have hl : Live w e.2 := (h.cases e.2 ho).resolve_right fun hg => hg.unlisted e.1 he
      have hknown : eventsOf e.2 w.trace = [.started e.2] := by
        rw [ht e.2, World.known, if_pos ho, if_neg (by rw [hl.state]; nofun)]
      have hstarted : .started e.2 ∈ eventsOf e.2 w.trace := by
        rw [hknown]
        exact List.mem_singleton.mpr rfl
      have hended := hpaired e.2 (List.mem_of_mem_filter hstarted)
      rw [hknown] at hended
      cases hended
  · intro hempty o hstarted
    have hmem : .started o ∈ eventsOf o w.trace :=
      List.mem_filter.mpr ⟨hstarted, decide_eq_true rfl⟩
    rw [ht o, World.known] at hmem
    split at hmem
    next ho =>
      have hg : Gone w o := (h.cases o ho).resolve_left fun hl =>
        List.ne_nil_of_mem hl.listed hempty
      rw [ht o, World.known, if_pos ho, if_pos hg.state]
    · cases hmem

/-- After a run that ends with the worker's shutdown, every start has its end and the
gauge is back where it was exactly if no session was open when the shutdown began. -/
theorem shutdown_paired_iff (cfg : Config) {arrivals : Nat} (h : arrivals < 2 ^ 32)
    (steps : List Step) (dials : List Int) :
    (Paired (shutdownInOwnerThread dials (run cfg arrivals steps)).trace ∧
      (shutdownInOwnerThread dials (run cfg arrivals steps)).currentConnections =
        (run cfg arrivals []).currentConnections) ↔
    (run cfg arrivals steps).sessions = [] := by
  obtain ⟨htrace, hgauge⟩ := shutdownInOwnerThread_silent dials (run cfg arrivals steps)
  have hrun := lifecycle_run cfg (lt_idSpace h) steps
  rw [htrace, hgauge, hrun.paired_iff (told_run cfg h steps), hrun.gauge]
  exact ⟨And.left, fun hempty => ⟨hempty, by rw [hempty]; rfl⟩⟩

/-- A session that is open at shutdown: started, never ended, and still counted. -/
theorem shutdown_leaves_session_unended :
    let w := shutdownInOwnerThread [] (run sampleConfig 1 [{ input := .accept 5 true }])
    (w.obj 0).state = .closed ∧ w.sessions = [] ∧ w.trace = [.started 0] ∧
      ¬ Paired w.trace ∧ w.currentConnections = 1 := by
  refine ⟨rfl, rfl, rfl, fun hpaired => ?_, rfl⟩
  exact nomatch hpaired 0 (List.mem_singleton.mpr rfl)

/-- A session that ends in time. -/
theorem shutdown_paired_after_hangup :
    (run sampleConfig 1 [{ input := .accept 5 true },
      { input := .ready ⟨5, Event.hangup⟩ ⟨[], [], .eagain⟩ }]).sessions = [] ∧
    Paired (shutdownInOwnerThread [] (run sampleConfig 1 [{ input := .accept 5 true },
      { input := .ready ⟨5, Event.hangup⟩ ⟨[], [], .eagain⟩ }])).trace :=
  have hempty : (run sampleConfig 1 [{ input := .accept 5 true },
      { input := .ready ⟨5, Event.hangup⟩ ⟨[], [], .eagain⟩ }]).sessions = [] := by decide
  ⟨hempty, ((shutdown_paired_iff sampleConfig (by decide) _ []).mpr hempty).1⟩

end HyperNet.Net
