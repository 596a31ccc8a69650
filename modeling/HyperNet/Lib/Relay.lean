import Mathlib.Data.List.Basic
import Mathlib.Data.List.Perm.Basic
import Mathlib.Logic.Function.Basic
import Mathlib.Tactic.Common

/-!
# Stations that pass work to each other

Stations, numbered, each run on a thread of their own.  A station fans work out: to itself
at once, to another one by its queue.  Work that is started at a station comes to outputs,
which the station hands out one after the other; in between it may be interrupted by work
of its own, at any depth.  What is still to be done, innermost first, is its `todo` list.
One action of one station is one step, so every interleaving of the stations is a run.

Each piece of work carries the tag of the issue it stems from: the station that issued it
and a running number there.  `Sound` accounts for every issue: each of its parts is at
exactly one place, and what has been handed out for it, with what is still to be handed
out, is what the started parts came to.
-/

namespace HyperNet.Relay

@[ext]
structure Tag (W : Type) where
  sender : W
  number : Nat
  deriving DecidableEq

/-- What a station has to do: pass a task on, or hand an output out. -/
inductive Action (W T O : Type) where
  | fan (station : W) (task : T)
  | hand (out : O)
  deriving DecidableEq

/-- One station: its own state and queue, what it has to do, and the history of what it
issued, started and handed out.  A start is recorded with the state it happened in. -/
structure Station (W S I T O : Type) where
  state : S
  queue : List T := []
  todo : List (Action W T O) := []
  issued : List I := []
  started : List (T × S) := []
  handed : List O := []

/-- The parameters: the tasks an issue comes to and for which stations, what starting a task
comes to, and the tags of tasks and outputs. -/
structure Rules (W S I T O : Type) where
  parts : Tag W → I → List (W × T)
  start : W → S → T → List (Action W T O)
  taskTag : T → Tag W
  outTag : O → Tag W

variable {W S I T O : Type}

abbrev Stations (W S I T O : Type) := W → Station W S I T O

/-- An issue depends on the state it is made in. -/
inductive Event (W S I : Type) where
  | issue (w : W) (make : S → I)
  | change (w : W) (f : S → S)
  | act (w : W)
  | next (w : W)

def Rules.actionTag (R : Rules W S I T O) : Action W T O → Tag W
  | .fan _ task => R.taskTag task
  | .hand out => R.outTag out

/-- The outputs to be handed out. -/
def hands (todo : List (Action W T O)) : List O :=
  todo.filterMap fun a => match a with
    | .fan _ _ => none
    | .hand out => some out

@[simp] theorem hands_append (l l' : List (Action W T O)) :
    hands (l ++ l') = hands l ++ hands l' := List.filterMap_append

@[simp] theorem hands_nil : hands ([] : List (Action W T O)) = [] := rfl

@[simp] theorem hands_cons_fan (u : W) (task : T) (l : List (Action W T O)) :
    hands (.fan u task :: l) = hands l := rfl

@[simp] theorem hands_cons_hand (out : O) (l : List (Action W T O)) :
    hands (.hand out :: l) = out :: hands l := rfl

@[simp] theorem hands_map_fan (parts : List (W × T)) :
    hands (parts.map fun p => (.fan p.1 p.2 : Action W T O)) = [] := by
  induction parts with
  | nil => rfl
  | cons p parts ih => exact ih

@[simp] theorem hands_map_hand (outs : List O) :
    hands (outs.map fun out => (.hand out : Action W T O)) = outs := by
  induction outs with
  | nil => rfl
  | cons out outs ih => exact congrArg (out :: ·) ih

theorem mem_hands {out : O} {l : List (Action W T O)} : out ∈ hands l ↔ .hand out ∈ l := by
  induction l with
  | nil => simp
  | cons a l ih =>
    cases a with
    | fan u t | hand o => simp [ih]

variable [DecidableEq W]

namespace Stations

variable (R : Rules W S I T O)

def modify (c : Stations W S I T O) (w : W) (f : Station W S I T O → Station W S I T O) :
    Stations W S I T O :=
  Function.update c w (f (c w))

/-- The tag of the next issue of a station. -/
def nextTag (c : Stations W S I T O) (w : W) : Tag W := ⟨w, (c w).issued.length⟩

def issue (c : Stations W S I T O) (w : W) (i : I) : Stations W S I T O :=
  let parts := R.parts (c.nextTag w) i
  c.modify w fun st =>
    { st with
      todo := parts.map (fun p => .fan p.1 p.2) ++ st.todo
      issued := st.issued ++ [i] }

/-- A task is started: it comes to actions that are done before the others. -/
def start (c : Stations W S I T O) (w : W) (task : T) : Stations W S I T O :=
  c.modify w fun st =>
    { st with
      todo := R.start w st.state task ++ st.todo
      started := st.started ++ [(task, st.state)] }

def post (c : Stations W S I T O) (w : W) (task : T) : Stations W S I T O :=
  c.modify w fun st => { st with queue := st.queue ++ [task] }

/-- The first thing to do is done. -/
def act (c : Stations W S I T O) (w : W) : Stations W S I T O :=
  match (c w).todo with
  | [] => c
  | .fan v task :: rest =>
    let c := c.modify w fun st => { st with todo := rest }
    if v = w then c.start R w task else c.post v task
  | .hand out :: rest =>
    c.modify w fun st => { st with todo := rest, handed := st.handed ++ [out] }

/-- A station with nothing left to do takes the next task from its queue. -/
def next (c : Stations W S I T O) (w : W) : Stations W S I T O :=
  match (c w).todo, (c w).queue with
  | [], task :: rest => (c.modify w fun st => { st with queue := rest }).start R w task
  | _, _ => c

def step (c : Stations W S I T O) : Event W S I → Stations W S I T O
  | .issue w make => c.issue R w (make (c w).state)
  | .change w f => c.modify w fun st => { st with state := f st.state }
  | .act w => c.act R w
  | .next w => c.next R w

end Stations

/-! ## Where the parts of an issue are -/

/-- The tasks to be passed to a station. -/
def fansTo (v : W) (todo : List (Action W T O)) : List T :=
  todo.filterMap fun a => match a with
    | .fan u task => if u = v then some task else none
    | .hand _ => none

/-- The parts of an issue for a station. -/
def partsTo (v : W) (parts : List (W × T)) : List T :=
  parts.filterMap fun p => if p.1 = v then some p.2 else none

@[simp] theorem partsTo_nil (v : W) : partsTo v ([] : List (W × T)) = [] := rfl

@[simp] theorem partsTo_singleton (v u : W) (task : T) :
    partsTo v [(u, task)] = if u = v then [task] else [] := by
  by_cases h : u = v <;> simp [partsTo, h]

@[simp] theorem fansTo_append (v : W) (l l' : List (Action W T O)) :
    fansTo v (l ++ l') = fansTo v l ++ fansTo v l' := List.filterMap_append

@[simp] theorem fansTo_nil (v : W) : fansTo v ([] : List (Action W T O)) = [] := rfl

@[simp] theorem fansTo_cons_fan (v u : W) (task : T) (l : List (Action W T O)) :
    fansTo v (.fan u task :: l) = if u = v then task :: fansTo v l else fansTo v l := by
  by_cases h : u = v <;> simp [fansTo, h]

@[simp] theorem fansTo_cons_hand (v : W) (out : O) (l : List (Action W T O)) :
    fansTo v (.hand out :: l) = fansTo v l := rfl

@[simp] theorem fansTo_map_fan (v : W) (parts : List (W × T)) :
    fansTo v (parts.map fun p => (.fan p.1 p.2 : Action W T O)) = partsTo v parts := by
  simp only [fansTo, partsTo, List.filterMap_map]
  rfl

@[simp] theorem fansTo_map_hand (v : W) (outs : List O) :
    fansTo v (outs.map fun out => (.hand out : Action W T O)) = [] := by
  induction outs with
  | nil => rfl
  | cons out outs ih => exact ih

theorem mem_fansTo {v : W} {task : T} {l : List (Action W T O)} :
    task ∈ fansTo v l ↔ .fan v task ∈ l := by
  induction l with
  | nil => simp
  | cons a l ih =>
    cases a with
    | fan u t =>
      by_cases h : u = v
      · simp [h, ih]
      · simp [h, ih, Ne.symm h]
    | hand out => simp [ih]

/-! ## Accounting -/

namespace Stations

@[simp] theorem modify_self (c : Stations W S I T O) (w : W)
    (f : Station W S I T O → Station W S I T O) : c.modify w f w = f (c w) :=
  Function.update_self ..

theorem modify_ne {c : Stations W S I T O} {w v : W} {f : Station W S I T O → Station W S I T O}
    (h : v ≠ w) : c.modify w f v = c v := Function.update_of_ne h ..

/-- The tag is that of an issue. -/
def Known (c : Stations W S I T O) (tag : Tag W) : Prop := tag.number < (c tag.sender).issued.length

end Stations

/-- An issue has at most one part for each station, and a task started in a good state comes
to nothing but outputs; all under the tag of the issue. -/
structure Rules.Direct (R : Rules W S I T O) (Good : W → S → Prop) (outs : W → S → T → List O) :
    Prop where
  part_tag : ∀ tag i, ∀ p ∈ R.parts tag i, R.taskTag p.2 = tag
  part_single : ∀ tag i v, (partsTo v (R.parts tag i)).length ≤ 1
  start : ∀ w s task, Good w s → R.start w s task = (outs w s task).map .hand
  tag : ∀ w s task, ∀ out ∈ outs w s task, R.outTag out = R.taskTag task

/-- The tasks of an issue for a station, wherever they are: in hand, still to be passed on,
in the queue, or started. -/
def Stations.whereabouts (R : Rules W S I T O) (held : List (W × T)) (c : Stations W S I T O)
    (tag : Tag W) (v : W) : List T :=
  (partsTo v held ++ fansTo v (c tag.sender).todo ++ (c v).queue ++
    (c v).started.map Prod.fst).filter (R.taskTag · = tag)

/-- Every issue is accounted for.  `held` is what a step in progress has taken from one
place and not yet put at the next. -/
structure Sound (R : Rules W S I T O) (Good : W → S → Prop) (outs : W → S → T → List O)
    (held : List (W × T)) (c : Stations W S I T O) : Prop where
  good : ∀ w, Good w (c w).state
  started_good : ∀ w, ∀ e ∈ (c w).started, Good w e.2
  fans : ∀ w v task, .fan v task ∈ (c w).todo →
    (R.taskTag task).sender = w ∧ c.Known (R.taskTag task)
  known_hands : ∀ w, ∀ out ∈ (c w).handed ++ hands (c w).todo, c.Known (R.outTag out)
  known_tasks : ∀ w, ∀ task ∈ partsTo w held ++ (c w).queue ++ (c w).started.map Prod.fst,
    c.Known (R.taskTag task)
  parts : ∀ tag i, (c tag.sender).issued[tag.number]? = some i →
    ∀ v, (c.whereabouts R held tag v).Perm (partsTo v (R.parts tag i))
  outputs : ∀ v tag, ((c v).handed ++ hands (c v).todo).filter (R.outTag · = tag) =
    ((c v).started.filter (R.taskTag ·.1 = tag)).flatMap fun e => outs v e.2 e.1

/-- What an event must be like: a change keeps the state good. -/
def Event.Proper (Good : W → S → Prop) : Event W S I → Prop
  | .change w f => ∀ s, Good w s → Good w (f s)
  | .issue _ _ => True
  | .act _ => True
  | .next _ => True

section Sound

variable {R : Rules W S I T O} {Good : W → S → Prop} {outs : W → S → T → List O}
  {c : Stations W S I T O} {w : W}

theorem sound_init {s : W → S} (h : ∀ w, Good w (s w)) :
    Sound R Good outs [] fun w => { state := s w } where
  good := h
  started_good _ _ h := by cases h
  fans _ _ _ h := by cases h
  known_hands _ _ h := by cases h
  known_tasks _ _ h := by cases h
  parts _ _ h := by cases h
  outputs _ _ := rfl

/-- Nothing has the next tag yet. -/
theorem Sound.whereabouts_nextTag (h : Sound R Good outs [] c) (w v : W) :
    c.whereabouts R [] (c.nextTag w) v = [] := by
  rw [Stations.whereabouts, List.filter_eq_nil_iff]
  intro task hmem heq
  have hknown : c.Known (R.taskTag task) := by
    rcases List.mem_append.1 hmem with hmem | hstarted
    · rcases List.mem_append.1 hmem with hfan | hqueue
      · exact (h.fans _ _ _ (mem_fansTo.1 hfan)).2
      · exact h.known_tasks v _ (List.mem_append_left _ hqueue)
    · exact h.known_tasks v _ (List.mem_append_right _ hstarted)
  rw [of_decide_eq_true heq] at hknown
  exact Nat.lt_irrefl _ hknown

theorem partsTo_filter {parts : List (W × T)} {tag tag' : Tag W} (v : W)
    (htag : ∀ p ∈ parts, R.taskTag p.2 = tag) :
    (partsTo v parts).filter (R.taskTag · = tag') = if tag = tag' then partsTo v parts else [] := by
  have hall : ∀ task ∈ partsTo v parts, R.taskTag task = tag := by
    intro task hmem
    obtain ⟨p, hp, heq⟩ := List.mem_filterMap.1 hmem
    split at heq
    · exact Option.some.inj heq ▸ htag p hp
    · cases heq
  split
  case isTrue heq =>
    exact List.filter_eq_self.2 fun task hmem => decide_eq_true ((hall task hmem).trans heq)
  case isFalse hne =>
    exact List.filter_eq_nil_iff.2 fun task hmem h =>
      hne ((hall task hmem).symm.trans (of_decide_eq_true h))

theorem Stations.issue_apply (c : Stations W S I T O) (w : W) (i : I) (v : W) :
    c.issue R w i v =
      { c v with
        todo := (if v = w then (R.parts (c.nextTag w) i).map (fun p => .fan p.1 p.2) else []) ++
          (c v).todo
        issued := (c v).issued ++ if v = w then [i] else [] } := by
  by_cases hv : v = w
  · subst hv
    simp [Stations.issue]
  · simp [Stations.issue, modify_ne hv, hv]

/-- The issues after one more: those before, and the new one under the next tag. -/
theorem Stations.issued_issue {c : Stations W S I T O} {i : I} {tag : Tag W} {j : I}
    (h : (c.issue R w i tag.sender).issued[tag.number]? = some j) :
    c.nextTag w = tag ∧ j = i ∨
      c.nextTag w ≠ tag ∧ (c tag.sender).issued[tag.number]? = some j := by
  rw [Stations.issue_apply] at h
  dsimp only at h
  by_cases hw : tag.sender = w
  · rw [if_pos hw, List.getElem?_append] at h
    split at h
    case isTrue hlt =>
      refine .inr ⟨?_, h⟩
      rintro rfl
      exact Nat.lt_irrefl _ hlt
    case isFalse hge =>
      have hzero : tag.number - (c tag.sender).issued.length = 0 := by
        by_contra hpos
        rw [List.getElem?_eq_none (Nat.one_le_iff_ne_zero.2 hpos)] at h
        cases h
      rw [hzero] at h
      refine .inl ⟨?_, (Option.some.inj h).symm⟩
      rw [Stations.nextTag, ← hw]
      ext
      · rfl
      · exact Nat.le_antisymm (Nat.le_of_not_lt hge) (Nat.le_of_sub_eq_zero hzero)
  · rw [if_neg hw, List.append_nil] at h
    refine .inr ⟨?_, h⟩
    rintro rfl
    exact hw rfl

/-- The parts of a new issue are under its tag, and all else is where it was. -/
theorem Stations.whereabouts_issue (hR : R.Direct Good outs) (w : W) (i : I) (tag : Tag W)
    (v : W) : (c.issue R w i).whereabouts R [] tag v =
      (if c.nextTag w = tag then partsTo v (R.parts (c.nextTag w) i) else []) ++
        c.whereabouts R [] tag v := by
  rw [Stations.whereabouts, Stations.whereabouts, Stations.issue_apply,
    Stations.issue_apply c w i v]
  simp only [partsTo_nil, List.nil_append, fansTo_append, List.append_assoc]
  rw [List.filter_append]
  congr 1
  split
  case isTrue => rw [fansTo_map_fan, partsTo_filter v (hR.part_tag (c.nextTag w) i)]
  case isFalse hne =>
    rw [if_neg (by rintro rfl; exact hne rfl)]
    rfl

theorem Sound.issue (hR : R.Direct Good outs) (h : Sound R Good outs [] c) (w : W) (i : I) :
    Sound R Good outs [] (c.issue R w i) := by
  have htag := hR.part_tag (c.nextTag w) i
  have hmono : ∀ tag, c.Known tag → (c.issue R w i).Known tag := by
    intro tag hknown
    rw [Stations.Known, Stations.issue_apply, List.length_append]
    exact Nat.lt_add_right _ hknown
  have hnew : (c.issue R w i).Known (c.nextTag w) := by
    rw [Stations.Known, Stations.issue_apply]
    simp [Stations.nextTag]
  have hhands : ∀ v, hands (c.issue R w i v).todo = hands (c v).todo := by
    intro v
    rw [Stations.issue_apply, hands_append]
    split <;> simp
  constructor
  case good => exact fun v => by rw [Stations.issue_apply]; exact h.good v
  case started_good => exact fun v e he => h.started_good v e (by rwa [Stations.issue_apply] at he)
  case fans =>
    intro v u task hmem
    rw [Stations.issue_apply] at hmem
    rcases List.mem_append.1 hmem with hmem | hmem
    · split at hmem
      case isTrue hv =>
        obtain ⟨p, hp, heq⟩ := List.mem_map.1 hmem
        cases heq
        rw [htag p hp, hv]
        exact ⟨rfl, hnew⟩
      case isFalse => cases hmem
    · exact (h.fans v u task hmem).imp_right (hmono _)
  case known_hands =>
    intro v out hmem
    rw [hhands, Stations.issue_apply] at hmem
    exact hmono _ (h.known_hands v out hmem)
  case known_tasks =>
    exact fun v task ht => hmono _ (h.known_tasks v task (by rwa [Stations.issue_apply] at ht))
  case parts =>
    intro tag j hj v
    rw [Stations.whereabouts_issue hR]
    rcases Stations.issued_issue hj with ⟨rfl, rfl⟩ | ⟨hne, hold⟩
    · rw [if_pos rfl, h.whereabouts_nextTag, List.append_nil]
    · rw [if_neg hne]
      exact h.parts tag j hold v
  case outputs =>
    intro v tag
    rw [hhands, Stations.issue_apply]
    exact h.outputs v tag

/-- A step that makes no issue keeps the account if it keeps the tasks of each issue for
each station, and the outputs. -/
theorem Sound.of_moved {held held' : List (W × T)} {c' : Stations W S I T O}
    (h : Sound R Good outs held c) (hissued : ∀ v, (c' v).issued = (c v).issued)
    (hgood : ∀ w, Good w (c' w).state) (hstarted : ∀ w, ∀ e ∈ (c' w).started, Good w e.2)
    (hfan : ∀ w v task, .fan v task ∈ (c' w).todo → .fan v task ∈ (c w).todo)
    (hhands : ∀ w, ∀ out ∈ (c' w).handed ++ hands (c' w).todo, c.Known (R.outTag out))
    (hknown : ∀ w, ∀ task ∈ partsTo w held' ++ (c' w).queue ++ (c' w).started.map Prod.fst,
      c.Known (R.taskTag task))
    (hwhere : ∀ tag v, (c'.whereabouts R held' tag v).Perm (c.whereabouts R held tag v))
    (houtputs : ∀ v tag, ((c' v).handed ++ hands (c' v).todo).filter (R.outTag · = tag) =
      ((c' v).started.filter (R.taskTag ·.1 = tag)).flatMap fun e => outs v e.2 e.1) :
    Sound R Good outs held' c' := by
  have hiff : ∀ tag, c'.Known tag ↔ c.Known tag := fun tag => by
    rw [Stations.Known, hissued, Stations.Known]
  constructor
  case good => exact hgood
  case started_good => exact hstarted
  case fans =>
    exact fun w v task hmem => (h.fans w v task (hfan w v task hmem)).imp_right (hiff _).2
  case known_hands => exact fun w out hmem => (hiff _).2 (hhands w out hmem)
  case known_tasks => exact fun w task hmem => (hiff _).2 (hknown w task hmem)
  case parts =>
    exact fun tag i hi v => (hwhere tag v).trans (h.parts tag i (hissued _ ▸ hi) v)
  case outputs => exact houtputs

theorem Sound.known_held {task : T} (h : Sound R Good outs [(w, task)] c) :
    c.Known (R.taskTag task) := h.known_tasks w task (by simp)

/-! What a step does to each station. -/

section

variable (c) (w)

theorem Stations.modify_apply (f : Station W S I T O → Station W S I T O) (u : W) :
    c.modify w f u = if u = w then f (c u) else c u := by
  split
  case isTrue hu => rw [hu, modify_self]
  case isFalse hu => rw [modify_ne hu]

theorem Stations.setTodo_apply (rest : List (Action W T O)) (u : W) :
    (c.modify w fun st => { st with todo := rest }) u =
      { c u with todo := if u = w then rest else (c u).todo } := by
  rw [modify_apply]
  split <;> rfl

theorem Stations.setQueue_apply (rest : List T) (u : W) :
    (c.modify w fun st => { st with queue := rest }) u =
      { c u with queue := if u = w then rest else (c u).queue } := by
  rw [modify_apply]
  split <;> rfl

theorem Stations.post_apply (task : T) (u : W) :
    c.post w task u = { c u with queue := (c u).queue ++ partsTo u [(w, task)] } := by
  by_cases hu : u = w
  · subst hu
    simp [Stations.post]
  · simp [Stations.post, Stations.modify_ne hu, Ne.symm hu]

end

theorem Stations.start_apply (hR : R.Direct Good outs) (hgood : Good w (c w).state) (task : T)
    (u : W) :
    c.start R w task u =
      { c u with
        todo := (if u = w then (outs w (c w).state task).map .hand else []) ++ (c u).todo
        started := (c u).started ++ if u = w then [(task, (c w).state)] else [] } := by
  by_cases hu : u = w
  · subst hu
    simp [Stations.start, hR.start u _ task hgood]
  · simp [Stations.start, Stations.modify_ne hu, hu]

theorem Stations.hand_apply (c : Stations W S I T O) (w : W) (out : O)
    (rest : List (Action W T O)) (u : W) :
    (c.modify w fun st => { st with todo := rest, handed := st.handed ++ [out] }) u =
      { c u with
        todo := if u = w then rest else (c u).todo
        handed := if u = w then (c u).handed ++ [out] else (c u).handed } := by
  rw [modify_apply]
  split <;> rfl

theorem Stations.change_apply (c : Stations W S I T O) (w : W) (f : S → S) (u : W) :
    (c.modify w fun st => { st with state := f st.state }) u =
      { c u with state := if u = w then f (c u).state else (c u).state } := by
  rw [modify_apply]
  split <;> rfl

section First

variable {rest : List (Action W T O)}

/-! The first thing to do is gone from a station. -/

theorem Stations.mem_todo_of_rest {u : W} {a x : Action W T O} (htodo : (c w).todo = a :: rest)
    (h : x ∈ if u = w then rest else (c u).todo) : x ∈ (c u).todo := by
  split at h
  case isTrue hu =>
    rw [hu, htodo]
    exact List.mem_cons_of_mem _ h
  case isFalse => exact h

theorem Stations.hands_rest_of_fan {v : W} {task : T} (htodo : (c w).todo = .fan v task :: rest)
    (u : W) : hands (if u = w then rest else (c u).todo) = hands (c u).todo := by
  split
  case isTrue hu => rw [hu, htodo, hands_cons_fan]
  case isFalse => rfl

theorem Stations.fansTo_rest_of_hand {out : O} (htodo : (c w).todo = .hand out :: rest) (v u : W) :
    fansTo v (if u = w then rest else (c u).todo) = fansTo v (c u).todo := by
  split
  case isTrue hu => rw [hu, htodo, fansTo_cons_hand]
  case isFalse => rfl

theorem Stations.handed_rest_of_hand {out : O} (htodo : (c w).todo = .hand out :: rest) (u : W) :
    (if u = w then (c u).handed ++ [out] else (c u).handed) ++
      hands (if u = w then rest else (c u).todo) = (c u).handed ++ hands (c u).todo := by
  split
  case isTrue hu => rw [hu, htodo, hands_cons_hand, List.append_assoc]; rfl
  case isFalse => rfl

end First

/-- The first thing to do is taken in hand to be passed on. -/
theorem Sound.takeFan (h : Sound R Good outs [] c) {w v : W} {task : T}
    {rest : List (Action W T O)} (htodo : (c w).todo = .fan v task :: rest) :
    Sound R Good outs [(v, task)] (c.modify w fun st => { st with todo := rest }) := by
  obtain ⟨hsender, hknown⟩ := h.fans w v task (htodo ▸ List.mem_cons_self)
  have hall := c.setTodo_apply w rest
  have hhands := Stations.hands_rest_of_fan htodo
  refine h.of_moved (fun u => by rw [hall]) (fun u => by rw [hall]; exact h.good u)
    (fun u => by rw [hall]; exact h.started_good u) ?fan ?hands ?known ?places ?outputs
  case fan =>
    intro u x t hmem
    rw [hall] at hmem
    exact Stations.mem_todo_of_rest htodo hmem
  case hands =>
    intro u
    rw [hall]
    dsimp only
    rw [hhands]
    exact h.known_hands u
  case known =>
    intro u t hmem
    rw [hall, List.append_assoc] at hmem
    rcases List.mem_append.1 hmem with hmem | hmem
    · rw [partsTo_singleton] at hmem
      split at hmem
      · rw [List.mem_singleton.1 hmem]
        exact hknown
      · cases hmem
    · exact h.known_tasks u t hmem
  case places =>
    intro tag u
    simp only [Stations.whereabouts, hall, partsTo_singleton, partsTo_nil, List.nil_append]
    by_cases hs : tag.sender = w
    · rw [if_pos hs, hs, htodo, fansTo_cons_fan]
      split <;> simp
    · rw [if_neg hs]
      split
      · have hne : R.taskTag task ≠ tag := fun heq => hs (heq ▸ hsender)
        simp [hne]
      · simp
  case outputs =>
    intro u tag
    rw [hall]
    dsimp only
    rw [hhands]
    exact h.outputs u tag

/-- Tasks move between a queue and the hand. -/
theorem Sound.of_requeued {held held' : List (W × T)} {c' : Stations W S I T O}
    {queue : W → List T} (h : Sound R Good outs held c)
    (hall : ∀ u, c' u = { c u with queue := queue u })
    (hperm : ∀ u, (partsTo u held' ++ queue u).Perm (partsTo u held ++ (c u).queue)) :
    Sound R Good outs held' c' := by
  refine h.of_moved (fun u => by rw [hall]) (fun u => by rw [hall]; exact h.good u)
    (fun u => by rw [hall]; exact h.started_good u) (fun u v t => by rw [hall]; exact id)
    (fun u => by rw [hall]; exact h.known_hands u) ?known ?places
    (fun u tag => by rw [hall]; exact h.outputs u tag)
  case known =>
    intro u t hmem
    rw [hall] at hmem
    exact h.known_tasks u t (((hperm u).append_right _).subset hmem)
  case places =>
    intro tag u
    -- what is still to be passed on stands between the hand and the queue
    have hswap (fans hand q : List T) : (hand ++ fans ++ q).Perm (fans ++ (hand ++ q)) := by
      rw [← List.append_assoc]
      exact List.perm_append_comm.append_right q
    rw [Stations.whereabouts, Stations.whereabouts, hall, hall]
    refine List.Perm.filter _ (List.Perm.append_right _ ?_)
    exact (hswap _ _ _).trans (((hperm u).append_left _).trans (hswap _ _ _).symm)

/-- The next task of the queue is taken in hand. -/
theorem Sound.takeNext (h : Sound R Good outs [] c) {task : T} {rest : List T}
    (hqueue : (c w).queue = task :: rest) :
    Sound R Good outs [(w, task)] (c.modify w fun st => { st with queue := rest }) := by
  have hall := c.setQueue_apply w rest
  have htake : ∀ u,
      (partsTo u [(w, task)] ++ if u = w then rest else (c u).queue) = (c u).queue := by
    intro u
    rw [partsTo_singleton]
    split
    case isTrue hu => rw [← hu, hqueue]; simp
    case isFalse hu => rw [if_neg (Ne.symm hu)]; rfl
  refine h.of_requeued hall fun u => ?_
  rw [htake]
  exact .refl _

/-- What is in hand is put into a queue. -/
theorem Sound.post {task : T} (h : Sound R Good outs [(w, task)] c) :
    Sound R Good outs [] (c.post w task) := by
  refine h.of_requeued (c.post_apply w task) fun u => ?_
  rw [partsTo_nil, List.nil_append]
  exact List.perm_append_comm

section

variable {task : T} (hR : R.Direct Good outs)
include hR

/-- A task in hand is the only one of its issue for its station, so none has been started. -/
theorem Sound.not_started_held (h : Sound R Good outs [(w, task)] c) :
    (c w).started.filter (R.taskTag ·.1 = R.taskTag task) = [] := by
  obtain ⟨i, hi⟩ : ∃ i,
      (c (R.taskTag task).sender).issued[(R.taskTag task).number]? = some i :=
    ⟨_, List.getElem?_eq_getElem h.known_held⟩
  have hlen := (h.parts _ _ hi w).length_eq
  have hone := hR.part_single (R.taskTag task) i w
  rw [Stations.whereabouts, partsTo_singleton, if_pos rfl] at hlen
  simp only [List.filter_append, List.length_append, List.filter_map, List.length_map,
    List.filter_singleton, decide_true, cond_true, List.length_singleton] at hlen
  have hzero : ((c w).started.filter
      ((fun t => decide (R.taskTag t = R.taskTag task)) ∘ Prod.fst)).length = 0 := by omega
  exact List.length_eq_zero_iff.1 hzero

/-- A task that is started leaves the hand and stays with its station. -/
theorem Stations.whereabouts_start (hgood : Good w (c w).state) (task : T) (tag : Tag W) (u : W) :
    ((c.start R w task).whereabouts R [] tag u).Perm (c.whereabouts R [(w, task)] tag u) := by
  have hnone : fansTo u (if tag.sender = w then (outs w (c w).state task).map .hand
      else ([] : List (Action W T O))) = [] := by
    split <;> simp
  have hmap : (if u = w then [(task, (c w).state)] else []).map Prod.fst =
      partsTo u [(w, task)] := by
    rw [partsTo_singleton]
    split
    case isTrue hu => rw [if_pos hu.symm]; rfl
    case isFalse hu => rw [if_neg (Ne.symm hu)]; rfl
  simp only [Stations.whereabouts, Stations.start_apply hR hgood, partsTo_nil, List.nil_append,
    fansTo_append, hnone, List.map_append, hmap]
  refine List.Perm.filter _ ?_
  rw [← List.append_assoc]
  refine List.perm_append_comm.trans ?_
  simp only [List.append_assoc]
  rfl

/-- The outputs of a task that is started are the first of its issue at the station. -/
theorem Sound.outputs_start (h : Sound R Good outs [(w, task)] c) (u : W) (tag : Tag W) :
    ((c.start R w task u).handed ++ hands (c.start R w task u).todo).filter (R.outTag · = tag) =
      ((c.start R w task u).started.filter (R.taskTag ·.1 = tag)).flatMap
        fun e => outs u e.2 e.1 := by
  rw [Stations.start_apply hR (h.good w)]
  simp only [hands_append, List.filter_append, List.flatMap_append]
  have hold := h.outputs u tag
  rw [List.filter_append] at hold
  split
  case isFalse => simpa using hold
  case isTrue hu =>
    subst hu
    rw [hands_map_hand]
    by_cases htag : R.taskTag task = tag
    · subst htag
      rw [h.not_started_held hR] at hold ⊢
      obtain ⟨hhanded, htodo⟩ := List.append_eq_nil_iff.1 hold
      rw [hhanded, htodo,
        List.filter_eq_self.2 fun out hmem => decide_eq_true (hR.tag _ _ _ out hmem)]
      simp
    · rw [List.filter_eq_nil_iff.2 fun out hmem h =>
        htag ((hR.tag _ _ _ out hmem).symm.trans (of_decide_eq_true h)), List.nil_append, hold]
      simp [htag]

/-- What is in hand is started. -/
theorem Sound.start (h : Sound R Good outs [(w, task)] c) :
    Sound R Good outs [] (c.start R w task) := by
  have hall := Stations.start_apply hR (h.good w) task
  refine h.of_moved (fun u => by rw [hall]) (fun u => by rw [hall]; exact h.good u) ?good ?fan
    ?hands ?known (fun tag u => Stations.whereabouts_start hR (h.good w) task tag u)
    (h.outputs_start hR)
  case good =>
    intro u e he
    rw [hall] at he
    rcases List.mem_append.1 he with he | he
    · exact h.started_good u e he
    · split at he
      case isTrue hu => rw [List.mem_singleton.1 he, hu]; exact h.good w
      case isFalse => cases he
  case fan =>
    intro u x t hmem
    rw [hall] at hmem
    rcases List.mem_append.1 hmem with hmem | hmem
    · split at hmem
      · obtain ⟨out, -, heq⟩ := List.mem_map.1 hmem
        cases heq
      · cases hmem
    · exact hmem
  case hands =>
    intro u out hmem
    rw [hall] at hmem
    rcases List.mem_append.1 hmem with hmem | hmem
    · exact h.known_hands u out (List.mem_append_left _ hmem)
    · rw [hands_append] at hmem
      rcases List.mem_append.1 hmem with hmem | hmem
      · split at hmem
        · rw [hands_map_hand] at hmem
          rw [hR.tag _ _ _ out hmem]
          exact h.known_held
        · cases hmem
      · exact h.known_hands u out (List.mem_append_right _ hmem)
  case known =>
    intro u t hmem
    rw [hall] at hmem
    rcases List.mem_append.1 hmem with hmem | hmem
    · exact h.known_tasks u t (List.mem_append_left _ (List.mem_append_right _ hmem))
    · obtain ⟨e, he, rfl⟩ := List.mem_map.1 hmem
      rcases List.mem_append.1 he with he | he
      · exact h.known_tasks u _ (List.mem_append_right _ (List.mem_map_of_mem he))
      · split at he
        · rw [List.mem_singleton.1 he]
          exact h.known_held
        · cases he

end

/-- The first output is handed out. -/
theorem Sound.hand (h : Sound R Good outs [] c) {out : O} {rest : List (Action W T O)}
    (htodo : (c w).todo = .hand out :: rest) : Sound R Good outs []
      (c.modify w fun st => { st with todo := rest, handed := st.handed ++ [out] }) := by
  have hall := c.hand_apply w out rest
  have hsame := Stations.handed_rest_of_hand htodo
  refine h.of_moved (fun u => by rw [hall]) (fun u => by rw [hall]; exact h.good u)
    (fun u => by rw [hall]; exact h.started_good u) ?fan
    (fun u => by rw [hall]; dsimp only; rw [hsame]; exact h.known_hands u)
    (fun u t => by rw [hall]; exact h.known_tasks u t) ?places
    (fun u tag => by rw [hall]; dsimp only; rw [hsame]; exact h.outputs u tag)
  case fan =>
    intro u x t hmem
    rw [hall] at hmem
    exact Stations.mem_todo_of_rest htodo hmem
  case places =>
    intro tag u
    simp only [Stations.whereabouts, hall, Stations.fansTo_rest_of_hand htodo]
    rfl

theorem Sound.change (h : Sound R Good outs [] c) {f : S → S} (hf : ∀ s, Good w s → Good w (f s)) :
    Sound R Good outs [] (c.modify w fun st => { st with state := f st.state }) := by
  have hall := c.change_apply w f
  refine h.of_moved (fun u => by rw [hall]) ?good (fun u => by rw [hall]; exact h.started_good u)
    (fun u v t => by rw [hall]; exact id) (fun u => by rw [hall]; exact h.known_hands u)
    (fun u t => by rw [hall]; exact h.known_tasks u t)
    (fun tag u => by simp only [Stations.whereabouts, hall]; rfl)
    (fun u tag => by rw [hall]; exact h.outputs u tag)
  case good =>
    intro u
    rw [hall]
    dsimp only
    split
    case isTrue hu => exact hu ▸ hf _ (hu ▸ h.good u)
    case isFalse => exact h.good u

theorem Sound.act (hR : R.Direct Good outs) (h : Sound R Good outs [] c) (w : W) :
    Sound R Good outs [] (c.act R w) := by
  unfold Stations.act
  split
  · exact h
  case h_2 v task rest htodo =>
    split
    case isTrue hv =>
      subst hv
      exact Sound.start hR (h.takeFan htodo)
    case isFalse => exact (h.takeFan htodo).post
  case h_3 out rest htodo => exact h.hand htodo

theorem Sound.next (hR : R.Direct Good outs) (h : Sound R Good outs [] c) (w : W) :
    Sound R Good outs [] (c.next R w) := by
  unfold Stations.next
  split
  case h_1 task rest _ hqueue => exact Sound.start hR (h.takeNext hqueue)
  case h_2 => exact h

theorem Sound.step (hR : R.Direct Good outs) (h : Sound R Good outs [] c) {e : Event W S I}
    (he : e.Proper Good) : Sound R Good outs [] (c.step R e) := by
  cases e with
  | issue w make => exact h.issue hR w _
  | change w f => exact h.change he
  | act w => exact h.act hR w
  | next w => exact h.next hR w

end Sound

end HyperNet.Relay
