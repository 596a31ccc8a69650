import HyperNet.Buffer.RingBuffer

/-!
# The ring buffer as a bounded queue

`Op` lists the calls a client can make on a `RingBuffer` and `exec` performs one.
`Op.Spec` says what the same call does to a bounded queue of bytes, as a relation
between the queue before, the returned result and the queue after; it knows no
index and no wrap position.  `exec_refines_fifo` is the refinement: over every
sequence of calls on a fresh buffer, every call behaves as the queue does.

`Ring` is the form in which the sessions use the buffer: a `RingBuffer` together
with its invariant.  Its lemmas are those of `RingBuffer` with the invariant
discharged.
-/

namespace HyperNet.Buffer

/-- A call on a ring buffer.  `receive` is the pair `writeIov`, `commitWrite`
around filling the offered fragments: at most `maxLen` bytes are asked for, the
fragments are filled from `data`, and `n` of the bytes put there are committed. -/
inductive Op where
  | write (data : List UInt8)
  | read (len : Nat)
  | peek (len : Nat)
  | peekView (maxLen : Nat)
  | readView (maxLen : Nat)
  | peekIov (maxLen : Nat)
  | receive (maxLen : Nat) (data : List UInt8) (n : Nat)
  | clear
deriving DecidableEq, Repr

/-- What a call hands back. -/
inductive Result where
  | count (n : Nat)
  | copied (bytes : List UInt8) (n : Nat)
  | view (bytes : List UInt8)
  | fragments (iov : List (List UInt8))
  | offered (n : Nat)
  | done
deriving DecidableEq, Repr

namespace RingBuffer

/-- `writeIov maxLen`, filling the fragments from `data`, `commitWrite n` with `n`
at most the number of bytes put there. -/
def receive (r : RingBuffer) (maxLen : Nat) (data : List UInt8) (n : Nat) : RingBuffer :=
  let fs := r.writeIov maxLen
  let filled := data.take (offered fs)
  (r.scatter fs filled).commitWrite (min n filled.length)

/-- Perform one call. -/
def exec (r : RingBuffer) : Op → RingBuffer × Result
  | .write data => ((r.write data).1, .count (r.write data).2)
  | .read len => ((r.read len).1, .copied (r.read len).2.1 (r.read len).2.2)
  | .peek len => (r, .copied (r.peek len).1 (r.peek len).2)
  | .peekView maxLen => (r, .view (r.peekView maxLen))
  | .readView maxLen => ((r.readView maxLen).1, .view (r.readView maxLen).2)
  | .peekIov maxLen => (r, .fragments (r.peekIov maxLen))
  | .receive maxLen data n => (r.receive maxLen data n, .offered (offered (r.writeIov maxLen)))
  | .clear => (r.clear, .done)

/-- Perform calls one after the other. -/
def run (r : RingBuffer) (ops : List Op) : RingBuffer := ops.foldl (fun r op => (r.exec op).1) r

end RingBuffer

/-- What a call does to a queue of at most `cap` bytes: `op.Spec cap L res L'` says
that on the queue `L` it may return `res` and leave `L'`. -/
def Op.Spec (cap : Nat) (L : List UInt8) : Op → Result → List UInt8 → Prop
  | .write data, res, L' =>
    res = .count (min data.length (cap - L.length)) ∧
      L' = L ++ data.take (min data.length (cap - L.length))
  | .read len, res, L' =>
    res = .copied (L.take (min len L.length)) (min len L.length) ∧
      L' = L.drop (min len L.length)
  | .peek len, res, L' =>
    res = .copied (L.take (min len L.length)) (min len L.length) ∧ L' = L
  | .peekView maxLen, res, L' =>
    L' = L ∧ ∃ v, res = .view v ∧ v <+: L ∧ v.length ≤ maxLen ∧
      (0 < maxLen → L ≠ [] → v ≠ [])
  | .readView maxLen, res, L' =>
    ∃ v, res = .view v ∧ L = v ++ L' ∧ v.length ≤ maxLen ∧ (0 < maxLen → L ≠ [] → v ≠ [])
  | .peekIov maxLen, res, L' =>
    L' = L ∧ ∃ iov, res = .fragments iov ∧ iov.length ≤ 2 ∧
      iov.flatten = L.take (min maxLen L.length)
  | .receive maxLen data n, res, L' =>
    res = .offered (min maxLen (cap - L.length)) ∧
      L' = L ++ (data.take (min maxLen (cap - L.length))).take n
  | .clear, res, L' => res = .done ∧ L' = []

namespace RingBuffer

variable {r : RingBuffer}

theorem receive_spec (h : Valid r) (maxLen : Nat) (data : List UInt8) (n : Nat) :
    Valid (r.receive maxLen data n) ∧
      (r.receive maxLen data n).contents =
        r.contents ++ (data.take (min maxLen r.freeSpace)).take n ∧
      (r.receive maxLen data n).capacity = r.capacity := by
  have hoff := offered_writeIov h maxLen
  obtain ⟨hv, hc, hcap⟩ := commitWrite_spec h maxLen (data.take (min maxLen r.freeSpace))
    (min n (data.take (min maxLen r.freeSpace)).length) (List.length_take_le _ _)
    (Nat.min_le_right _ _)
  simp only [receive, hoff]
  refine ⟨hv, ?_, hcap⟩
  rw [hc, List.take_eq_take_iff.mpr]
  omega

/-- A view is a prefix, not longer than asked for, and not empty unless it has
to be. -/
theorem view_spec (h : Valid r) (maxLen : Nat) :
    (r.contents.take (r.viewLen maxLen)).length ≤ maxLen ∧
      (0 < maxLen → r.contents ≠ [] → r.contents.take (r.viewLen maxLen) ≠ []) := by
  have hlen : (r.contents.take (r.viewLen maxLen)).length = r.viewLen maxLen := by
    rw [← peekView_spec h, length_peekView h]
  refine ⟨by rw [hlen]; exact Nat.min_le_left _ _, fun hm hne hnil => ?_⟩
  have hsize : 0 < r.size := by
    rw [← h.length_contents]
    exact List.length_pos_of_ne_nil hne
  have hpos := viewLen_pos h hm hsize
  rw [hnil, List.length_nil] at hlen
  omega

theorem length_peekIov_le (r : RingBuffer) (maxLen : Nat) : (r.peekIov maxLen).length ≤ 2 := by
  unfold peekIov
  split
  · exact Nat.zero_le _
  · dsimp only
    split
    · exact Nat.zero_le _
    · split <;> simp

/-- One call: the invariant is kept, the capacity does not change, and the queue
behaves as specified. -/
theorem exec_spec (h : Valid r) (op : Op) :
    Valid (r.exec op).1 ∧ (r.exec op).1.capacity = r.capacity ∧
      op.Spec r.capacity r.contents (r.exec op).2 (r.exec op).1.contents := by
  have hlen := h.length_contents
  cases op with
  | write data =>
    obtain ⟨hv, hc, hcap, hn⟩ := write_spec h data
    refine ⟨hv, hcap, ?_, ?_⟩
    · change Result.count (r.write data).2 = _
      rw [hn, hlen, freeSpace]
    · change (r.write data).1.contents = _
      rw [hc, hlen, ← freeSpace, List.take_eq_take_iff.mpr]
      omega
  | read len =>
    obtain ⟨hv, hc, hcap, hres⟩ := read_spec h len
    refine ⟨hv, hcap, ?_, by rw [hlen]; exact hc⟩
    change Result.copied (r.read len).2.1 (r.read len).2.2 = _
    rw [hres, hlen]
  | peek len =>
    refine ⟨h, rfl, ?_, rfl⟩
    change Result.copied (r.peek len).1 (r.peek len).2 = _
    rw [peek_spec h, hlen]
  | peekView maxLen =>
    obtain ⟨hle, hne⟩ := view_spec h maxLen
    refine ⟨h, rfl, rfl, _, rfl, ?_⟩
    rw [peekView_spec h]
    exact ⟨List.take_prefix _ _, hle, hne⟩
  | readView maxLen =>
    obtain ⟨hv, hc, hcap, hres⟩ := readView_spec h maxLen
    obtain ⟨hle, hne⟩ := view_spec h maxLen
    refine ⟨hv, hcap, _, rfl, ?_⟩
    rw [hres]
    refine ⟨?_, hle, hne⟩
    change r.contents = _ ++ (r.readView maxLen).1.contents
    rw [hc, List.take_append_drop]
  | peekIov maxLen =>
    refine ⟨h, rfl, rfl, _, rfl, length_peekIov_le r maxLen, ?_⟩
    rw [flatten_peekIov h, hlen]
  | receive maxLen data n =>
    obtain ⟨hv, hc, hcap⟩ := receive_spec h maxLen data n
    refine ⟨hv, hcap, ?_, by rw [hlen]; exact hc⟩
    change Result.offered (offered (r.writeIov maxLen)) = _
    rw [offered_writeIov h, hlen, freeSpace]
  | clear =>
    obtain ⟨hv, hc, hcap⟩ := clear_spec h
    exact ⟨hv, hcap, rfl, hc⟩

theorem run_concat (r : RingBuffer) (ops : List Op) (op : Op) :
    r.run (ops ++ [op]) = ((r.run ops).exec op).1 := by
  simp [run, List.foldl_append]

/-- Whole sequences of calls keep the invariant. -/
theorem run_valid (h : Valid r) (ops : List Op) :
    Valid (r.run ops) ∧ (r.run ops).capacity = r.capacity := by
  induction ops generalizing r with
  | nil => exact ⟨h, rfl⟩
  | cons op ops ih =>
    obtain ⟨hv, hcap, -⟩ := exec_spec h op
    obtain ⟨hv', hcap'⟩ := ih hv
    exact ⟨hv', hcap'.trans hcap⟩

/-- **Refinement.**  A buffer of capacity `C ≥ 1` is a queue of at most `C` bytes:
it starts empty, after any sequence of calls its indices satisfy the invariant and
its contents have `size` bytes, and the next call returns and leaves what the queue
specification says. -/
theorem exec_refines_fifo {C : Nat} (hC : 1 ≤ C) :
    ∃ r₀, make C = .ok r₀ ∧ r₀.contents = [] ∧
      ∀ (ops : List Op) (op : Op),
        (r₀.run ops).head < C ∧ (r₀.run ops).tail < C ∧ (r₀.run ops).size ≤ C ∧
        (r₀.run ops).tail = ((r₀.run ops).head + (r₀.run ops).size) % C ∧
        (r₀.run ops).contents.length = (r₀.run ops).size ∧
        op.Spec C (r₀.run ops).contents ((r₀.run ops).exec op).2
          (r₀.run (ops ++ [op])).contents := by
  obtain ⟨r₀, hmake⟩ : ∃ r₀, make C = .ok r₀ := ⟨_, if_neg (by omega)⟩
  obtain ⟨hv₀, hnil, hcap₀⟩ := make_spec hmake
  refine ⟨r₀, hmake, hnil, fun ops op => ?_⟩
  obtain ⟨hv, hcap⟩ := run_valid hv₀ ops
  rw [hcap₀] at hcap
  obtain ⟨-, -, hspec⟩ := exec_spec hv op
  rw [hcap] at hspec
  refine ⟨hcap ▸ hv.head_lt, hcap ▸ hv.tail_lt, hcap ▸ hv.size_le, ?_, hv.length_contents, ?_⟩
  · rw [hv.tail_eq, hcap]
  · rw [run_concat]
    exact hspec

/-- Three cells, of which two were read and filled again: what is read next lies on both sides of
the end. -/
theorem exec_refines_fifo_wrapped :
    ∃ r₀, make 3 = .ok r₀ ∧
      let r := r₀.run [.write [1, 2, 3], .read 2, .write [4, 5]]
      r.head = 2 ∧ r.tail = (r.head + r.size) % 3 ∧ r.contents = [3, 4, 5] ∧
        (Op.read 3).Spec 3 [3, 4, 5] (r.exec (.read 3)).2 [] := by
  obtain ⟨r₀, hmake, -, hrun⟩ := exec_refines_fifo (C := 3) (by decide)
  obtain rfl : _ = r₀ := Except.ok.inj hmake
  obtain ⟨-, -, -, htail, -, hspec⟩ := hrun [.write [1, 2, 3], .read 2, .write [4, 5]] (.read 3)
  exact ⟨_, hmake, by decide, htail, by decide, hspec⟩

end RingBuffer

/-! ## The buffer together with its invariant -/

/-- A ring buffer in a valid state. -/
structure Ring where
  raw : RingBuffer
  valid : raw.Valid
deriving DecidableEq

namespace Ring

/-- A fresh buffer of positive capacity; the constructor throws on `0`. -/
def make (capacity : Nat) (h : 0 < capacity) : Ring where
  raw := { buffer := List.replicate capacity 0, capacity := capacity }
  valid := (RingBuffer.make_spec (if_neg (by omega))).1

def contents (r : Ring) : List UInt8 := r.raw.contents

def capacity (r : Ring) : Nat := r.raw.capacity

def available (r : Ring) : Nat := r.raw.available

def freeSpace (r : Ring) : Nat := r.raw.freeSpace

def empty (r : Ring) : Bool := r.raw.empty

def write (r : Ring) (data : List UInt8) : Ring × Nat :=
  (⟨(r.raw.write data).1, (RingBuffer.write_spec r.valid data).1⟩, (r.raw.write data).2)

def read (r : Ring) (len : Nat) : Ring × List UInt8 × Nat :=
  (⟨(r.raw.read len).1, (RingBuffer.read_spec r.valid len).1⟩, (r.raw.read len).2)

def peek (r : Ring) (len : Nat) : List UInt8 × Nat := r.raw.peek len

def peekView (r : Ring) (maxLen : Nat) : List UInt8 := r.raw.peekView maxLen

def readView (r : Ring) (maxLen : Nat) : Ring × List UInt8 :=
  (⟨(r.raw.readView maxLen).1, (RingBuffer.readView_spec r.valid maxLen).1⟩,
    (r.raw.readView maxLen).2)

def peekIov (r : Ring) (maxLen : Nat) : List (List UInt8) := r.raw.peekIov maxLen

def writeIov (r : Ring) (maxLen : Nat) : List RingBuffer.Fragment := r.raw.writeIov maxLen

def receive (r : Ring) (maxLen : Nat) (data : List UInt8) (n : Nat) : Ring :=
  ⟨r.raw.receive maxLen data n, (RingBuffer.receive_spec r.valid maxLen data n).1⟩

/-- How far a contiguous view reaches. -/
def viewLen (r : Ring) (maxLen : Nat) : Nat := r.raw.viewLen maxLen

@[simp] theorem contents_make (capacity : Nat) (h : 0 < capacity) :
    (make capacity h).contents = [] := (RingBuffer.make_spec (if_neg (by omega))).2.1

@[simp] theorem capacity_make (capacity : Nat) (h : 0 < capacity) :
    (make capacity h).capacity = capacity := rfl

section

variable {len : Nat} (r : Ring)

theorem available_eq : r.available = r.contents.length :=
  r.valid.length_contents.symm

theorem freeSpace_eq : r.freeSpace = r.capacity - r.contents.length := by
  rw [← available_eq]
  rfl

theorem empty_iff : r.empty = true ↔ r.contents = [] := RingBuffer.empty_iff r.valid

@[simp] theorem contents_write (data : List UInt8) :
    (r.write data).1.contents = r.contents ++ data.take r.freeSpace :=
  (RingBuffer.write_spec r.valid data).2.1

@[simp] theorem capacity_write (data : List UInt8) :
    (r.write data).1.capacity = r.capacity := (RingBuffer.write_spec r.valid data).2.2.1

@[simp] theorem write_snd (data : List UInt8) :
    (r.write data).2 = min data.length r.freeSpace := (RingBuffer.write_spec r.valid data).2.2.2

@[simp] theorem contents_read (len : Nat) : (r.read len).1.contents = r.contents.drop len := by
  have h := (RingBuffer.read_spec r.valid len).2.1
  rw [← r.valid.length_contents] at h
  change (r.raw.read len).1.contents = r.raw.contents.drop len
  rw [h]
  rcases Nat.le_total len r.raw.contents.length with hl | hl
  · rw [Nat.min_eq_left hl]
  · rw [Nat.min_eq_right hl, List.drop_of_length_le (Nat.le_refl _), List.drop_of_length_le hl]

@[simp] theorem capacity_read (len : Nat) :
    (r.read len).1.capacity = r.capacity := (RingBuffer.read_spec r.valid len).2.2.1

theorem min_size_eq (h : len ≤ r.contents.length) : min len r.raw.size = len := by
  rw [← r.valid.length_contents]
  exact Nat.min_eq_left h

theorem read_snd (h : len ≤ r.contents.length) : (r.read len).2 = (r.contents.take len, len) := by
  have hres := (RingBuffer.read_spec r.valid len).2.2.2
  rw [r.min_size_eq h] at hres
  exact hres

theorem peek_eq (h : len ≤ r.contents.length) : r.peek len = (r.contents.take len, len) := by
  have hres := RingBuffer.peek_spec r.valid len
  rw [r.min_size_eq h] at hres
  exact hres

theorem length_peekView (maxLen : Nat) :
    (r.peekView maxLen).length = r.viewLen maxLen := RingBuffer.length_peekView r.valid maxLen

@[simp] theorem contents_readView (maxLen : Nat) :
    (r.readView maxLen).1.contents = r.contents.drop (r.viewLen maxLen) :=
  (RingBuffer.readView_spec r.valid maxLen).2.1

@[simp] theorem capacity_readView (maxLen : Nat) : (r.readView maxLen).1.capacity = r.capacity :=
  (RingBuffer.readView_spec r.valid maxLen).2.2.1

@[simp] theorem readView_snd (maxLen : Nat) :
    (r.readView maxLen).2 = r.contents.take (r.viewLen maxLen) :=
  (RingBuffer.readView_spec r.valid maxLen).2.2.2

theorem viewLen_le (maxLen : Nat) :
    r.viewLen maxLen ≤ maxLen ∧ r.viewLen maxLen ≤ r.contents.length := by
  rw [← available_eq]
  exact ⟨Nat.min_le_left _ _, Nat.le_trans (Nat.min_le_right _ _) (Nat.min_le_left _ _)⟩

theorem viewLen_pos {maxLen : Nat} (hm : 0 < maxLen) (hne : r.contents ≠ []) :
    0 < r.viewLen maxLen := by
  refine RingBuffer.viewLen_pos r.valid hm ?_
  rw [← r.valid.length_contents]
  exact List.length_pos_of_ne_nil hne

/-- The fragments of the whole contents. -/
@[simp] theorem flatten_peekIov : (r.peekIov r.available).flatten = r.contents := by
  have h := RingBuffer.flatten_peekIov r.valid r.available
  rw [show min r.available r.raw.size = r.raw.size from Nat.min_self _,
    ← r.valid.length_contents, List.take_length] at h
  exact h

theorem offered_writeIov (maxLen : Nat) :
    RingBuffer.offered (r.writeIov maxLen) = min maxLen r.freeSpace :=
  RingBuffer.offered_writeIov r.valid maxLen

/-- All free room is offered, and there is no fragment exactly if there is none. -/
theorem offered_freeSpace : RingBuffer.offered (r.writeIov r.freeSpace) = r.freeSpace := by
  rw [offered_writeIov, Nat.min_self]

theorem writeIov_freeSpace_eq_nil : r.writeIov r.freeSpace = [] ↔ r.freeSpace = 0 := by
  constructor
  · intro h
    rw [← r.offered_freeSpace, h]
    rfl
  · intro h
    rw [h]
    rfl

@[simp] theorem contents_receive (maxLen : Nat) (data : List UInt8) (n : Nat) :
    (r.receive maxLen data n).contents =
      r.contents ++ (data.take (min maxLen r.freeSpace)).take n :=
  (RingBuffer.receive_spec r.valid maxLen data n).2.1

@[simp] theorem capacity_receive (maxLen : Nat) (data : List UInt8) (n : Nat) :
    (r.receive maxLen data n).capacity = r.capacity :=
  (RingBuffer.receive_spec r.valid maxLen data n).2.2

end

end Ring

end HyperNet.Buffer
