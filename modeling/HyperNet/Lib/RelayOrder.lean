import HyperNet.Lib.Relay
import Mathlib.Algebra.BigOperators.Group.Finset.Basic
import Mathlib.Data.Fintype.BigOperators
import Mathlib.Tactic.Linarith

/-!
# What becomes of an issue, and in which order

Two readings of the account `Sound` keeps.  A part of an issue is either in transit or has
been started once, and then its outputs are those of that start; work steps alone bring the
stations to rest, where nothing is in transit.  And on the way from one station to another two
issues stay in their order if the second is made when its station is done with the first.
-/

namespace HyperNet.Relay

variable {W S I T O : Type}

namespace Stations

variable [DecidableEq W] (R : Rules W S I T O) (c : Stations W S I T O)

/-- The tasks of an issue on their way to a station. -/
def transit (tag : Tag W) (v : W) : List T :=
  (fansTo v (c tag.sender).todo ++ (c v).queue).filter (R.taskTag · = tag)

/-- The starts of an issue at a station, each with the state it happened in. -/
def evaluated (tag : Tag W) (v : W) : List (T × S) := (c v).started.filter (R.taskTag ·.1 = tag)

/-- What a station has handed out for an issue, and what it has still to. -/
def output (tag : Tag W) (v : W) : List O :=
  ((c v).handed ++ hands (c v).todo).filter (R.outTag · = tag)

def run (es : List (Event W S I)) : Stations W S I T O := es.foldl (step R) c

/-- No station has anything to do. -/
def Quiet : Prop := ∀ w, (c w).todo = [] ∧ (c w).queue = []

end Stations

section Parts

variable [DecidableEq W] {R : Rules W S I T O} {Good : W → S → Prop} {outs : W → S → T → List O}
  {c : Stations W S I T O}

theorem whereabouts_eq (c : Stations W S I T O) (tag : Tag W) (v : W) :
    c.whereabouts R [] tag v = c.transit R tag v ++ (c.evaluated R tag v).map Prod.fst := by
  rw [Stations.whereabouts, Stations.transit, Stations.evaluated, partsTo_nil, List.nil_append,
    List.filter_append, List.filter_map]
  rfl

theorem Sound.output_eq (h : Sound R Good outs [] c) (tag : Tag W) (v : W) :
    c.output R tag v = (c.evaluated R tag v).flatMap fun e => outs v e.2 e.1 :=
  h.outputs v tag

/-- Nothing comes of an issue at a station it has no part for. -/
theorem Sound.no_part (h : Sound R Good outs [] c) {tag : Tag W} {i : I} {v : W}
    (hi : (c tag.sender).issued[tag.number]? = some i) (hv : partsTo v (R.parts tag i) = []) :
    c.transit R tag v = [] ∧ c.evaluated R tag v = [] ∧ c.output R tag v = [] := by
  have hperm := h.parts tag i hi v
  rw [hv, whereabouts_eq, List.perm_nil, List.append_eq_nil_iff, List.map_eq_nil_iff] at hperm
  refine ⟨hperm.1, hperm.2, ?_⟩
  rw [h.output_eq, hperm.2, List.flatMap_nil]

/-- The part of an issue for a station is in transit, or it has been started once and came
to the outputs it comes to in the state it was started in. -/
theorem Sound.one_part (h : Sound R Good outs [] c) {tag : Tag W} {i : I} {v : W} {task : T}
    (hi : (c tag.sender).issued[tag.number]? = some i)
    (hv : partsTo v (R.parts tag i) = [task]) :
    (c.transit R tag v = [task] ∧ c.evaluated R tag v = [] ∧ c.output R tag v = []) ∨
      ∃ s, Good v s ∧ c.transit R tag v = [] ∧ c.evaluated R tag v = [(task, s)] ∧
        c.output R tag v = outs v s task := by
  have hperm := h.parts tag i hi v
  rw [hv, whereabouts_eq, List.perm_singleton, List.append_eq_singleton_iff] at hperm
  rcases hperm with ⟨htransit, heval⟩ | ⟨htransit, heval⟩
  · obtain ⟨e, heq, rfl⟩ := List.map_eq_singleton_iff.1 heval
    have hmem : e ∈ (c v).started := List.mem_of_mem_filter (heq ▸ List.mem_singleton.2 rfl)
    refine .inr ⟨e.2, h.started_good v e hmem, htransit, heq, ?_⟩
    rw [h.output_eq, heq, List.flatMap_singleton]
  · have hnil := List.map_eq_nil_iff.1 heval
    exact .inl ⟨htransit, hnil, by rw [h.output_eq, hnil, List.flatMap_nil]⟩

/-- At rest nothing is in transit and everything has been handed out. -/
theorem Stations.Quiet.transit (hc : c.Quiet) (tag : Tag W) (v : W) :
    c.transit R tag v = [] := by
  rw [Stations.transit, (hc tag.sender).1, (hc v).2]
  rfl

theorem Stations.Quiet.output (hc : c.Quiet) (tag : Tag W) (v : W) :
    c.output R tag v = (c v).handed.filter (R.outTag · = tag) := by
  rw [Stations.output, (hc v).1, hands_nil, List.append_nil]

end Parts

/-! ## Coming to rest -/

section Rest

variable {R : Rules W S I T O} {Good : W → S → Prop} {outs : W → S → T → List O}
  {c : Stations W S I T O}

/-- What work steps leave as it is. -/
def Station.fixed (st : Station W S I T O) : S × List I := (st.state, st.issued)

/-- What an event issues at a station. -/
def Event.issuedAt [DecidableEq W] (c : Stations W S I T O) (a : W) : Event W S I → List I
  | .issue w make => if w = a then [make (c w).state] else []
  | _ => []

/-- A step by which a station goes on with its work. -/
def Event.IsWork : Event W S I → Prop
  | .issue _ _ => False
  | .change _ _ => False
  | .act _ => True
  | .next _ => True

variable (outs) in
/-- How many steps an action takes, with the stations in these states. -/
def actionWeight (s : W → S) : Action W T O → Nat
  | .fan v task => (outs v (s v) task).length + 2
  | .hand _ => 1

variable (outs) in
def stationWeight (s : W → S) (w : W) (st : Station W S I T O) : Nat :=
  (st.todo.map (actionWeight outs s)).sum +
    (st.queue.map fun task => (outs w (s w) task).length + 1).sum

theorem sum_actionWeight_hands (s : W → S) (l : List O) :
    ((l.map (.hand : O → Action W T O)).map (actionWeight outs s)).sum = l.length := by
  induction l with
  | nil => rfl
  | cons out l ih =>
    rw [List.map_cons, List.map_cons, List.sum_cons, ih, List.length_cons, actionWeight]
    exact Nat.add_comm _ _

variable [DecidableEq W] [Fintype W]

/-- What a change at one station does to a sum over the stations. -/
theorem sum_update {A M : Type} [AddCommMonoid M] (f : W → A → M) (c : W → A) (w : W) (a : A) :
    ∑ u, f u (Function.update c w a u) + f w (c w) = ∑ u, f u (c u) + f w a := by
  have hupdate : ∀ u, f u (Function.update c w a u) =
      Function.update (fun u => f u (c u)) w (f w a) u := Function.apply_update f c w a
  rw [Finset.sum_congr rfl fun u _ => hupdate u, Finset.sum_update_of_mem (Finset.mem_univ w),
    Finset.sdiff_singleton_eq_erase, add_assoc, add_comm (Finset.sum _ _) (f w (c w)),
    Finset.add_sum_erase _ (fun u => f u (c u)) (Finset.mem_univ w), add_comm]

theorem sum_modify (f : W → Station W S I T O → Nat) (c : Stations W S I T O) (w : W)
    (g : Station W S I T O → Station W S I T O) :
    ∑ u, f u (c.modify w g u) + f w (c w) = ∑ u, f u (c u) + f w (g (c w)) :=
  sum_update f c w (g (c w))

variable (outs) in
/-- How many work steps are left. -/
def weight (s : W → S) (c : Stations W S I T O) : Nat := ∑ w, stationWeight outs s w (c w)

theorem weight_start (hR : R.Direct Good outs) {w : W} (hgood : Good w (c w).state) (s : W → S)
    (hs : s w = (c w).state) (task : T) :
    weight outs s (c.start R w task) = weight outs s c + (outs w (s w) task).length := by
  have hsum := sum_modify (stationWeight outs s) c w fun st =>
    { st with
      todo := R.start w st.state task ++ st.todo
      started := st.started ++ [(task, st.state)] }
  simp only [stationWeight, hR.start w _ task hgood, List.map_append, List.sum_append,
    sum_actionWeight_hands] at hsum
  rw [weight, weight, Stations.start, hs]
  simp only [stationWeight]
  omega

theorem weight_post (s : W → S) (v : W) (task : T) :
    weight outs s (c.post v task) = weight outs s c + ((outs v (s v) task).length + 1) := by
  have hsum := sum_modify (stationWeight outs s) c v fun st =>
    { st with queue := st.queue ++ [task] }
  simp only [stationWeight, List.map_append, List.sum_append, List.map_singleton,
    List.sum_singleton] at hsum
  rw [weight, weight, Stations.post]
  simp only [stationWeight]
  omega

/-- A station with something to do does it in one step less. -/
theorem weight_act (hR : R.Direct Good outs) (h : Sound R Good outs [] c) (s : W → S)
    (hs : ∀ w, s w = (c w).state) {w : W} (htodo : (c w).todo ≠ []) :
    weight outs s (c.act R w) < weight outs s c := by
  unfold Stations.act
  split
  case h_1 hnil => exact absurd hnil htodo
  case h_2 v task rest heq =>
    have hsum := sum_modify (stationWeight outs s) c w fun st => { st with todo := rest }
    simp only [stationWeight, heq, List.map_cons, List.sum_cons, actionWeight] at hsum
    dsimp only
    split
    case isTrue hv =>
      subst hv
      rw [weight_start hR (by rw [Stations.modify_self]; exact h.good v) s
        (by rw [Stations.modify_self]; exact hs v), weight, weight]
      simp only [stationWeight]
      omega
    case isFalse =>
      rw [weight_post, weight, weight]
      simp only [stationWeight]
      omega
  case h_3 out rest heq =>
    have hsum := sum_modify (stationWeight outs s) c w fun st =>
      { st with todo := rest, handed := st.handed ++ [out] }
    simp only [stationWeight, heq, List.map_cons, List.sum_cons, actionWeight] at hsum
    rw [weight, weight]
    simp only [stationWeight]
    omega

theorem weight_next (hR : R.Direct Good outs) (h : Sound R Good outs [] c) (s : W → S)
    (hs : ∀ w, s w = (c w).state) {w : W} (htodo : (c w).todo = []) (hqueue : (c w).queue ≠ []) :
    weight outs s (c.next R w) < weight outs s c := by
  unfold Stations.next
  split
  case h_1 task rest _ heq =>
    have hsum := sum_modify (stationWeight outs s) c w fun st => { st with queue := rest }
    simp only [stationWeight, heq, List.map_cons, List.sum_cons] at hsum
    rw [weight_start hR (by rw [Stations.modify_self]; exact h.good w) s
      (by rw [Stations.modify_self]; exact hs w), weight, weight]
    simp only [stationWeight]
    omega
  case h_2 hnot =>
    obtain ⟨task, rest, heq⟩ := List.exists_cons_of_ne_nil hqueue
    exact absurd heq (hnot task rest htodo)

omit [Fintype W] in
theorem fixed_modify {w : W} {f : Station W S I T O → Station W S I T O}
    (hf : (f (c w)).fixed = (c w).fixed) (u : W) : (c.modify w f u).fixed = (c u).fixed := by
  by_cases hu : u = w
  · rw [hu, Stations.modify_self, hf]
  · rw [Stations.modify_ne hu]

omit [Fintype W] in
theorem fixed_act (w u : W) : (c.act R w u).fixed = (c u).fixed := by
  unfold Stations.act
  rcases (c w).todo with _ | ⟨⟨v, task⟩ | out, rest⟩
  · rfl
  · by_cases hv : v = w
    · dsimp only
      rw [if_pos hv]
      exact (fixed_modify rfl u).trans (fixed_modify rfl u)
    · dsimp only
      rw [if_neg hv]
      exact (fixed_modify rfl u).trans (fixed_modify rfl u)
  · exact fixed_modify rfl u

omit [Fintype W] in
theorem fixed_next (w u : W) : (c.next R w u).fixed = (c u).fixed := by
  unfold Stations.next
  rcases (c w).todo with _ | ⟨a, rest⟩
  · rcases (c w).queue with _ | ⟨task, rest⟩
    · rfl
    · exact (fixed_modify rfl u).trans (fixed_modify rfl u)
  · rfl

omit [Fintype W] in
/-- The issues of a station are those of the events. -/
theorem issued_step (c : Stations W S I T O) (e : Event W S I) (a : W) :
    (c.step R e a).issued = (c a).issued ++ e.issuedAt c a := by
  cases e with
  | issue w make =>
    rw [Stations.step, Stations.issue_apply, Event.issuedAt]
    simp only [eq_comm]
  | change w f =>
    rw [Stations.step, Stations.change_apply]
    exact (List.append_nil _).symm
  | act w => exact (congrArg Prod.snd (fixed_act w a)).trans (List.append_nil _).symm
  | next w => exact (congrArg Prod.snd (fixed_next w a)).trans (List.append_nil _).symm

/-- Work steps bring the stations to rest. -/
theorem Sound.exists_quiet (hR : R.Direct Good outs) (h : Sound R Good outs [] c) :
    ∃ es : List (Event W S I), (∀ e ∈ es, e.IsWork) ∧ (c.run R es).Quiet := by
  -- induction on the number of steps left, the states staying as they are
  obtain ⟨s, hs⟩ : ∃ s : W → S, ∀ w, s w = (c w).state := ⟨fun w => (c w).state, fun _ => rfl⟩
  induction hn : weight outs s c using Nat.strong_induction_on generalizing c with
  | _ n ih =>
    subst hn
    by_cases hquiet : c.Quiet
    · exact ⟨[], List.forall_mem_nil _, hquiet⟩
    · simp only [Stations.Quiet, not_forall] at hquiet
      obtain ⟨w, hw⟩ := hquiet
      by_cases htodo : (c w).todo = []
      · have hqueue : (c w).queue ≠ [] := fun hnil => hw ⟨htodo, hnil⟩
        obtain ⟨es, hes, hrest⟩ := ih _ (weight_next hR h s hs htodo hqueue) (h.next hR w)
          (fun u => (hs u).trans (congrArg Prod.fst (fixed_next w u)).symm) rfl
        exact ⟨.next w :: es, List.forall_mem_cons.2 ⟨trivial, hes⟩, hrest⟩
      · obtain ⟨es, hes, hrest⟩ := ih _ (weight_act hR h s hs htodo) (h.act hR w)
          (fun u => (hs u).trans (congrArg Prod.fst (fixed_act w u)).symm) rfl
        exact ⟨.act w :: es, List.forall_mem_cons.2 ⟨trivial, hes⟩, hrest⟩

end Rest

/-! ## Order -/

/-- The later one of two issues does not come before the earlier one. -/
def Follows (a : W) (k m : Nat) (x y : Tag W) : Prop := x = ⟨a, m⟩ → y ≠ ⟨a, k⟩

/-- Something is put in between. -/
theorem pairwise_insert {α : Type} {P : α → α → Prop} {l n r : List α}
    (h : (l ++ r).Pairwise P) (hn : n.Pairwise P) (hl : ∀ x ∈ l, ∀ y ∈ n, P x y)
    (hr : ∀ x ∈ n, ∀ y ∈ r, P x y) : (l ++ (n ++ r)).Pairwise P := by
  obtain ⟨hleft, hright, hcross⟩ := List.pairwise_append.1 h
  refine List.pairwise_append.2 ⟨hleft, List.pairwise_append.2 ⟨hn, hright, hr⟩, ?_⟩
  intro x hx y hy
  rcases List.mem_append.1 hy with hy | hy
  exacts [hl x hx y hy, hcross x hx y hy]

theorem Follows.of_sender_ne {a : W} {k m : Nat} {x : Tag W} (h : x.sender ≠ a) (y : Tag W) :
    Follows a k m x y ∧ Follows a k m y x := by
  constructor
  · rintro rfl
    exact absurd rfl h
  · rintro - rfl
    exact h rfl

section Order

variable [DecidableEq W]

/-- The tags of what has come to a station: handed out, to be handed out, in the queue. -/
def Stations.reached (R : Rules W S I T O) (c : Stations W S I T O) (b : W) : List (Tag W) :=
  ((c b).handed ++ hands (c b).todo).map R.outTag ++ (c b).queue.map R.taskTag

/-- … and with what another one is to pass on. -/
def Stations.line (R : Rules W S I T O) (c : Stations W S I T O) (a b : W) : List (Tag W) :=
  c.reached R b ++ (fansTo b (c a).todo).map R.taskTag

/-- Two issues of a station keep their order. -/
structure Ordered (R : Rules W S I T O) (a : W) (k m : Nat) (c : Stations W S I T O) : Prop where
  lt : k < m
  /-- The station's own work does not go by its queue. -/
  self : ∀ task ∈ (c a).queue, (R.taskTag task).sender ≠ a
  /-- When the later one has been made the station is done with the earlier one. -/
  apart : m < (c a).issued.length → ∀ x ∈ (c a).todo, R.actionTag x ≠ ⟨a, k⟩
  line : ∀ b, (c.line R a b).Pairwise (Follows a k m)

variable {R : Rules W S I T O} {Good : W → S → Prop} {outs : W → S → T → List O}
  {c : Stations W S I T O} {a : W} {k m : Nat}

theorem ordered_init (s : W → S) (a : W) (h : k < m) :
    Ordered R a k m fun w => { state := s w } where
  lt := h
  self _ hmem := by cases hmem
  apart hm := by cases hm
  line _ := List.Pairwise.nil

theorem Ordered.pairwise_same (h : Ordered R a k m c) {l : List (Tag W)} {tag : Tag W}
    (hl : ∀ x ∈ l, x = tag) : l.Pairwise (Follows a k m) := by
  refine List.pairwise_of_forall_mem_list fun x hx y hy hm => ?_
  rw [hl y hy, ← hl x hx, hm]
  exact fun heq => h.lt.ne' (congrArg Tag.number heq)

theorem Sound.known_reached (h : Sound R Good outs [] c) {b : W} {tag : Tag W}
    (hmem : tag ∈ c.reached R b) : c.Known tag := by
  rcases List.mem_append.1 hmem with hmem | hmem
  · obtain ⟨out, hout, rfl⟩ := List.mem_map.1 hmem
    exact h.known_hands b out hout
  · obtain ⟨task, htask, rfl⟩ := List.mem_map.1 hmem
    exact h.known_tasks b task (List.mem_append_left _ htask)

/-- What puts nothing on the way keeps the order. -/
theorem Ordered.of_sublist {c' : Stations W S I T O} (h : Ordered R a k m c)
    (hself : ∀ task ∈ (c' a).queue, (R.taskTag task).sender ≠ a)
    (hissued : (c' a).issued = (c a).issued) (htodo : ∀ x ∈ (c' a).todo, x ∈ (c a).todo)
    (hline : ∀ b, (c'.line R a b).Sublist (c.line R a b)) : Ordered R a k m c' where
  lt := h.lt
  self := hself
  apart hm x hx := h.apart (hissued ▸ hm) x (htodo x hx)
  line b := (h.line b).sublist (hline b)

theorem Ordered.issue (hR : R.Direct Good outs) (hs : Sound R Good outs [] c)
    (h : Ordered R a k m c) {w : W}
    (hfree : c.nextTag w = ⟨a, m⟩ → ∀ x ∈ (c a).todo, R.actionTag x ≠ ⟨a, k⟩) (i : I) :
    Ordered R a k m (c.issue R w i) := by
  have htag := hR.part_tag (c.nextTag w) i
  have hlt := h.lt
  refine ⟨hlt, ?_, ?_, fun b => ?_⟩
  · intro task hmem
    rw [Stations.issue_apply] at hmem
    exact h.self task hmem
  · intro hm x hx
    rw [Stations.issue_apply] at hm hx
    dsimp only at hm hx
    split at hx
    case isFalse ha =>
      rw [if_neg ha, List.append_nil] at hm
      exact h.apart hm x hx
    case isTrue ha =>
      subst ha
      rw [if_pos rfl, List.length_append, List.length_singleton] at hm
      rcases List.mem_append.1 hx with hx | hx
      · obtain ⟨p, hp, rfl⟩ := List.mem_map.1 hx
        rw [Rules.actionTag, htag p hp]
        intro heq
        have hk : (c a).issued.length = k := congrArg Tag.number heq
        omega
      · rcases Nat.lt_succ_iff_lt_or_eq.1 hm with hm | rfl
        · exact h.apart hm x hx
        · exact hfree rfl x hx
  · have hreached : (c.issue R w i).reached R b = c.reached R b := by
      rw [Stations.reached, Stations.issue_apply]
      dsimp only
      split <;> simp [Stations.reached]
    rw [Stations.line, hreached, Stations.issue_apply, fansTo_append, List.map_append]
    split
    case isFalse => exact h.line b
    case isTrue ha =>
      subst ha
      rw [fansTo_map_fan]
      have hnew : ∀ x ∈ (partsTo b (R.parts (c.nextTag a) i)).map R.taskTag, x = c.nextTag a := by
        intro x hx
        obtain ⟨task, hmem, rfl⟩ := List.mem_map.1 hx
        obtain ⟨p, hp, hsome⟩ := List.mem_filterMap.1 hmem
        split at hsome
        · rw [← Option.some.inj hsome, htag p hp]
        · cases hsome
      refine pairwise_insert (h.line b) (h.pairwise_same hnew) ?_ ?_
      · rintro x hx y hy rfl heq
        have hknown : m < (c a).issued.length := hs.known_reached hx
        have hk : (c a).issued.length = k := congrArg Tag.number ((hnew y hy).symm.trans heq)
        omega
      · intro x hx y hy hm
        obtain ⟨task, hmem, rfl⟩ := List.mem_map.1 hy
        exact hfree ((hnew x hx).symm.trans hm) _ (mem_fansTo.1 hmem)

/-- A task is put into a queue, behind all that has come there. -/
theorem Ordered.post (h : Ordered R a k m c) {v : W} {task : T}
    (hself : (R.taskTag task).sender = a → v ≠ a)
    (hbehind : ∀ x ∈ c.reached R v, Follows a k m x (R.taskTag task))
    (hbefore : ∀ y ∈ (fansTo v (c a).todo).map R.taskTag, Follows a k m (R.taskTag task) y) :
    Ordered R a k m (c.post v task) := by
  refine ⟨h.lt, ?_, ?_, fun b => ?_⟩
  · intro t hmem
    rw [Stations.post_apply] at hmem
    rcases List.mem_append.1 hmem with hmem | hmem
    · exact h.self t hmem
    · rw [partsTo_singleton] at hmem
      split at hmem
      case isTrue hv => exact List.mem_singleton.1 hmem ▸ fun heq => hself heq hv
      case isFalse => cases hmem
  · rw [Stations.post_apply]
    exact h.apart
  · have hreached : (c.post v task).reached R b =
        c.reached R b ++ (partsTo b [(v, task)]).map R.taskTag := by
      rw [Stations.reached, Stations.post_apply, Stations.reached]
      simp only [List.map_append, List.append_assoc]
    rw [Stations.line, hreached, Stations.post_apply, partsTo_singleton, List.append_assoc]
    split
    case isFalse => exact h.line b
    case isTrue hv =>
      subst hv
      exact pairwise_insert (h.line v) (List.pairwise_singleton _ _)
        (fun x hx y hy => List.mem_singleton.1 hy ▸ hbehind x hx)
        (fun x hx y hy => List.mem_singleton.1 hx ▸ hbefore y hy)

/-- A task is started, before all that is still to be done. -/
theorem Ordered.start (hR : R.Direct Good outs) (h : Ordered R a k m c) {w : W}
    (hgood : Good w (c w).state) {task : T}
    (hown : w = a → m < (c a).issued.length → R.taskTag task ≠ ⟨a, k⟩)
    (hbehind : ∀ x ∈ (c w).handed.map R.outTag, Follows a k m x (R.taskTag task))
    (hbefore : ∀ y ∈ (hands (c w).todo).map R.outTag ++
      ((c w).queue.map R.taskTag ++ (fansTo w (c a).todo).map R.taskTag),
      Follows a k m (R.taskTag task) y) :
    Ordered R a k m (c.start R w task) := by
  have hall := Stations.start_apply hR hgood task
  refine ⟨h.lt, ?_, ?_, fun b => ?_⟩
  · rw [hall]
    exact h.self
  · intro hm x hx
    rw [hall] at hm hx
    rcases List.mem_append.1 hx with hx | hx
    · split at hx
      case isTrue ha =>
        obtain ⟨out, hmem, rfl⟩ := List.mem_map.1 hx
        rw [Rules.actionTag, hR.tag _ _ _ out hmem]
        exact hown ha.symm hm
      case isFalse => cases hx
    · exact h.apart hm x hx
  · have hfans : fansTo b (if a = w then (outs w (c w).state task).map .hand
        else ([] : List (Action W T O))) = [] := by
      split <;> simp
    have hold := h.line b
    simp only [Stations.line, Stations.reached, hall, hands_append, fansTo_append, hfans,
      List.nil_append, List.map_append, List.append_assoc] at hold ⊢
    split
    case isFalse => exact hold
    case isTrue hb =>
      subst hb
      rw [hands_map_hand]
      have hnew : ∀ x ∈ (outs b (c b).state task).map R.outTag, x = R.taskTag task := by
        intro x hx
        obtain ⟨out, hmem, rfl⟩ := List.mem_map.1 hx
        exact hR.tag _ _ _ out hmem
      exact pairwise_insert hold (h.pairwise_same hnew) (fun x hx y hy => hnew y hy ▸ hbehind x hx)
        (fun x hx y hy => hnew x hx ▸ hbefore y hy)

/-- The first thing to do is taken off. -/
theorem Ordered.setTodo (h : Ordered R a k m c) {w : W} {x : Action W T O}
    {rest : List (Action W T O)} (htodo : (c w).todo = x :: rest) :
    Ordered R a k m (c.modify w fun st => { st with todo := rest }) := by
  have hall := c.setTodo_apply w rest
  have hrest : ∀ u, (if u = w then rest else (c u).todo).Sublist (c u).todo := by
    intro u
    split
    case isTrue hu => exact hu ▸ htodo ▸ List.sublist_cons_self x rest
    case isFalse => exact .refl _
  refine h.of_sublist ?_ ?_ ?_ fun b => ?_
  · rw [hall]
    exact h.self
  · rw [hall]
  · rw [hall]
    exact (hrest a).subset
  · simp only [Stations.line, Stations.reached, hall]
    refine List.Sublist.append (List.Sublist.append_right ?_ _) (((hrest a).filterMap _).map _)
    exact (((hrest b).filterMap _).append_left _).map _

section

variable (hR : R.Direct Good outs) (hs : Sound R Good outs [] c) (h : Ordered R a k m c)
include hR hs h

theorem Ordered.next (w : W) : Ordered R a k m (c.next R w) := by
  unfold Stations.next
  split
  case h_2 => exact h
  case h_1 task rest htodo hqueue =>
    have hall := c.setQueue_apply w rest
    have hrest : ∀ u, (if u = w then rest else (c u).queue).Sublist (c u).queue := by
      intro u
      split
      case isTrue hu => exact hu ▸ hqueue ▸ List.sublist_cons_self task rest
      case isFalse => exact .refl _
    have htaken : Ordered R a k m (c.modify w fun st => { st with queue := rest }) := by
      refine h.of_sublist ?_ ?_ ?_ fun b => ?_
      · rw [hall]
        exact fun t ht => h.self t ((hrest a).subset ht)
      · rw [hall]
      · rw [hall]
        exact fun x hx => hx
      · simp only [Stations.line, Stations.reached, hall]
        exact (((hrest b).map _).append_left _).append_right _
    -- the task was the first in the queue, and nothing was still to be handed out
    have hline := h.line w
    rw [Stations.line, Stations.reached, htodo, hqueue, hands_nil, List.append_nil, List.map_cons,
      List.append_assoc, List.cons_append, List.pairwise_append] at hline
    obtain ⟨-, hright, hcross⟩ := hline
    refine htaken.start hR (by rw [hall]; exact hs.good w) ?_ ?_ ?_
    · rintro rfl - heq
      exact h.self task (hqueue ▸ List.mem_cons_self) (heq ▸ rfl)
    · rw [hall]
      exact fun x hx => hcross x hx _ List.mem_cons_self
    · simp only [hall, htodo, if_true]
      exact (List.pairwise_cons.1 hright).1

/-- A station starts its own part of an issue: of an earlier one it has nothing left to do. -/
theorem Ordered.startOwn {w : W} {task : T} {rest : List (Action W T O)}
    (htodo : (c w).todo = .fan w task :: rest) :
    Ordered R a k m ((c.modify w fun st => { st with todo := rest }).start R w task) := by
  have hall := c.setTodo_apply w rest
  have hfirst : .fan w task ∈ (c w).todo := htodo ▸ List.mem_cons_self
  obtain ⟨hsender, hknown⟩ := hs.fans w w task hfirst
  refine (h.setTodo htodo).start hR (by rw [hall]; exact hs.good w) ?_ ?_ ?_
  · rintro rfl hm
    rw [hall] at hm
    exact h.apart hm _ hfirst
  all_goals by_cases hw : w = a
  · subst hw
    rw [hall]
    intro x hx
    refine (List.pairwise_append.1 (h.line w)).2.2 x ?_ _
      (List.mem_map_of_mem (mem_fansTo.2 hfirst))
    rw [Stations.reached, List.map_append, List.append_assoc]
    exact List.mem_append_left _ hx
  · exact fun x _ => (Follows.of_sender_ne (hsender ▸ hw) x).2
  · subst hw
    simp only [hall, if_true]
    intro y hy hm
    have hissued : m < (c w).issued.length := by rwa [hm] at hknown
    have hleft : ∀ x ∈ rest, R.actionTag x ≠ ⟨w, k⟩ := fun x hx =>
      h.apart hissued x (htodo ▸ List.mem_cons_of_mem _ hx)
    rcases List.mem_append.1 hy with hy | hy
    · obtain ⟨out, hmem, rfl⟩ := List.mem_map.1 hy
      exact hleft _ (mem_hands.1 hmem)
    · rcases List.mem_append.1 hy with hy | hy
      · obtain ⟨t, hmem, rfl⟩ := List.mem_map.1 hy
        exact fun heq => h.self t hmem (heq ▸ rfl)
      · obtain ⟨t, hmem, rfl⟩ := List.mem_map.1 hy
        exact hleft _ (mem_fansTo.1 hmem)
  · exact fun y _ => (Follows.of_sender_ne (hsender ▸ hw) y).1

theorem Ordered.act (w : W) : Ordered R a k m (c.act R w) := by
  unfold Stations.act
  split
  case h_1 => exact h
  case h_2 v task rest htodo =>
    dsimp only
    split
    case isTrue hv =>
      subst hv
      exact h.startOwn hR hs htodo
    case isFalse hv =>
      obtain ⟨hsender, -⟩ := hs.fans w v task (htodo ▸ List.mem_cons_self)
      have hall := c.setTodo_apply w rest
      refine (h.setTodo htodo).post (fun heq hva => hv (hva.trans (heq.symm.trans hsender))) ?_ ?_
      all_goals by_cases hw : w = a
      · subst hw
        simp only [Stations.reached, hall, Stations.hands_rest_of_fan htodo]
        refine fun x hx => (List.pairwise_append.1 (h.line v)).2.2 x hx _ ?_
        exact List.mem_map_of_mem (mem_fansTo.2 (htodo ▸ List.mem_cons_self))
      · exact fun x _ => (Follows.of_sender_ne (hsender ▸ hw) x).2
      · subst hw
        have hfans := (List.pairwise_append.1 (h.line v)).2.1
        rw [htodo, fansTo_cons_fan, if_pos rfl, List.map_cons] at hfans
        simp only [hall, if_true]
        exact (List.pairwise_cons.1 hfans).1
      · exact fun y _ => (Follows.of_sender_ne (hsender ▸ hw) y).1
  case h_3 out rest htodo =>
    have hall := c.hand_apply w out rest
    refine h.of_sublist ?_ ?_ ?_ fun b => ?_
    · rw [hall]
      exact h.self
    · rw [hall]
    · rw [hall]
      exact fun x hx => Stations.mem_todo_of_rest htodo hx
    · simp only [Stations.line, Stations.reached, hall, Stations.fansTo_rest_of_hand htodo,
        Stations.handed_rest_of_hand htodo]
      exact .refl _

/-- Every step keeps the order if the later issue is not made while the station has something to
do for the earlier one. -/
theorem Ordered.step (e : Event W S I)
    (hfree : ∀ make, e = .issue a make → (c a).issued.length = m →
      ∀ x ∈ (c a).todo, R.actionTag x ≠ ⟨a, k⟩) : Ordered R a k m (c.step R e) := by
  cases e with
  | issue w make =>
    refine h.issue hR hs (fun heq => ?_) _
    obtain rfl : w = a := congrArg Tag.sender heq
    exact hfree make rfl (congrArg Tag.number heq)
  | change w f =>
    have hall := c.change_apply w f
    refine h.of_sublist ?_ ?_ ?_ fun b => ?_
    · rw [Stations.step, hall]
      exact h.self
    · rw [Stations.step, hall]
    · rw [Stations.step, hall]
      exact fun x hx => hx
    · simp only [Stations.step, Stations.line, Stations.reached, hall]
      exact .refl _
  | act w => exact h.act hR hs w
  | next w => exact h.next hR hs w

end

/-- At every station the earlier issue is handed out first. -/
theorem Ordered.handed (h : Ordered R a k m c) (b : W) :
    ((c b).handed.map R.outTag).Pairwise (Follows a k m) := by
  refine (h.line b).sublist ?_
  rw [Stations.line, Stations.reached, List.map_append, List.append_assoc, List.append_assoc]
  exact List.sublist_append_left _ _

end Order

end HyperNet.Relay
