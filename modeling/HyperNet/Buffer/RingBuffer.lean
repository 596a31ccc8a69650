import HyperNet.Lib.Circular

/-!
# The byte ring buffer

`hypernet::buffer::RingBuffer` (`engine/src/hypernet/buffer/RingBuffer.cpp`), one
definition per method.  A `std::memcpy` into the storage is `Circular.splice`; a
pointer and a length handed to a method are the list of the bytes they denote, and
a view handed back is the list of the bytes it shows at that moment.

`RingBuffer.Valid` is the representation invariant and `RingBuffer.contents` the
queue of bytes a valid buffer stands for.  Every method has one lemma that says
what it does to the contents; `Ring` bundles a buffer with its invariant, so that
the layers above never mention an index.
-/

namespace HyperNet.Buffer

open Circular

/-- The data members of `RingBuffer`. -/
structure RingBuffer where
  buffer : List UInt8
  capacity : Nat
  head : Nat := 0
  tail : Nat := 0
  size : Nat := 0
deriving DecidableEq, Repr

namespace RingBuffer

/-! ## The methods -/

/-- The constructor. -/
def make (capacity : Nat) : Except String RingBuffer :=
  if capacity = 0 then .error "RingBuffer capacity must be greater than 0"
  else .ok { buffer := List.replicate capacity 0, capacity := capacity }

def available (r : RingBuffer) : Nat := r.size

def freeSpace (r : RingBuffer) : Nat := r.capacity - r.size

def empty (r : RingBuffer) : Bool := r.size == 0

def full (r : RingBuffer) : Bool := r.size == r.capacity

def write (r : RingBuffer) (data : List UInt8) : RingBuffer × Nat :=
  if data.length = 0 then (r, 0)
  else
    let toWrite := min data.length r.freeSpace
    if toWrite = 0 then (r, 0)
    else
      let endSpace := r.capacity - r.tail
      let firstPart := min toWrite endSpace
      let r₁ := { r with
        buffer := splice r.buffer r.tail (data.take firstPart)
        tail := (r.tail + firstPart) % r.capacity
        size := r.size + firstPart }
      let remaining := toWrite - firstPart
      let r₂ := if 0 < remaining then
          { r₁ with
            buffer := splice r₁.buffer r₁.tail ((data.drop firstPart).take remaining)
            tail := (r₁.tail + remaining) % r₁.capacity
            size := r₁.size + remaining }
        else r₁
      (r₂, toWrite)

/-- The buffer afterwards, the bytes copied to `dest`, and the returned count. -/
def read (r : RingBuffer) (len : Nat) : RingBuffer × List UInt8 × Nat :=
  if len = 0 then (r, [], 0)
  else
    let toRead := min len r.size
    if toRead = 0 then (r, [], 0)
    else
      let endData := r.capacity - r.head
      let firstPart := min toRead endData
      let dest := (r.buffer.drop r.head).take firstPart
      let r₁ := { r with
        head := (r.head + firstPart) % r.capacity
        size := r.size - firstPart }
      let remaining := toRead - firstPart
      if 0 < remaining then
        let dest := dest ++ (r₁.buffer.drop r₁.head).take remaining
        let r₂ := { r₁ with
          head := (r₁.head + remaining) % r₁.capacity
          size := r₁.size - remaining }
        (r₂, dest, toRead)
      else (r₁, dest, toRead)

/-- The bytes copied to `dest` and the returned count. -/
def peek (r : RingBuffer) (len : Nat) : List UInt8 × Nat :=
  if len = 0 then ([], 0)
  else
    let toCopy := min len r.size
    if toCopy = 0 then ([], 0)
    else
      let endData := r.capacity - r.head
      let firstPart := min toCopy endData
      let dest := (r.buffer.drop r.head).take firstPart
      let remaining := toCopy - firstPart
      if 0 < remaining then (dest ++ r.buffer.take remaining, toCopy)
      else (dest, toCopy)

def peekView (r : RingBuffer) (maxLen : Nat) : List UInt8 :=
  if maxLen = 0 ∨ r.size = 0 then []
  else
    let contiguous := min r.size (r.capacity - r.head)
    let viewSize := min maxLen contiguous
    if viewSize = 0 then [] else (r.buffer.drop r.head).take viewSize

def readView (r : RingBuffer) (maxLen : Nat) : RingBuffer × List UInt8 :=
  let view := r.peekView maxLen
  if view.isEmpty then (r, view)
  else
    let consumed := view.length
    ({ r with head := (r.head + consumed) % r.capacity, size := r.size - consumed }, view)

/-- The fragments `out[0]`, `out[1]` that are set; the returned count is their
number. -/
def peekIov (r : RingBuffer) (maxLen : Nat) : List (List UInt8) :=
  if maxLen = 0 ∨ r.size = 0 then []
  else
    let toRead := min maxLen r.size
    if toRead = 0 then []
    else
      let endData := r.capacity - r.head
      let firstPart := min toRead endData
      let remaining := toRead - firstPart
      let out₀ := (r.buffer.drop r.head).take firstPart
      if 0 < remaining then [out₀, r.buffer.take remaining] else [out₀]

/-- A writable fragment of the storage: `iov_base` as an offset, and `iov_len`. -/
structure Fragment where
  base : Nat
  len : Nat
deriving DecidableEq, Repr

def writeIov (r : RingBuffer) (maxLen : Nat) : List Fragment :=
  if maxLen = 0 then []
  else
    let free := r.freeSpace
    if free = 0 then []
    else
      let toWrite := min maxLen free
      if toWrite = 0 then []
      else
        let endSpace := r.capacity - r.tail
        let firstPart := min toWrite endSpace
        let remaining := toWrite - firstPart
        if 0 < remaining then [⟨r.tail, firstPart⟩, ⟨0, remaining⟩]
        else [⟨r.tail, firstPart⟩]

/-- What `readv`-like calls do with the fragments of `writeIov`: fill them one
after the other with `data`, as far as it goes. -/
def scatter (r : RingBuffer) : List Fragment → List UInt8 → RingBuffer
  | [], _ => r
  | f :: fs, data =>
    scatter { r with buffer := splice r.buffer f.base (data.take f.len) } fs (data.drop f.len)

def commitWrite (r : RingBuffer) (n : Nat) : RingBuffer :=
  if n = 0 then r
  else
    let free := r.freeSpace
    let n := if free < n then free else n
    { r with tail := (r.tail + n) % r.capacity, size := r.size + n }

def clear (r : RingBuffer) : RingBuffer := { r with head := 0, tail := 0, size := 0 }

/-! ## The invariant and the queue it stands for -/

/-- The representation invariant. -/
structure Valid (r : RingBuffer) : Prop where
  length_buffer : r.buffer.length = r.capacity
  head_lt : r.head < r.capacity
  size_le : r.size ≤ r.capacity
  tail_eq : r.tail = (r.head + r.size) % r.capacity

/-- The queued bytes, oldest first. -/
def contents (r : RingBuffer) : List UInt8 := window r.buffer r.head r.size

namespace Valid

variable {r : RingBuffer} (h : Valid r)
include h

theorem tail_lt : r.tail < r.capacity := by
  rw [h.tail_eq]
  exact Nat.mod_lt _ (Nat.lt_of_le_of_lt (Nat.zero_le _) h.head_lt)

theorem length_contents : r.contents.length = r.size :=
  length_window (by rw [h.length_buffer]; exact Nat.le_of_lt h.head_lt)
    (by rw [h.length_buffer]; exact h.size_le)

/-- The bytes up to the end of the storage followed by the wrapped ones: the
shape every reading method computes. -/
theorem take_contents {n : Nat} (hn : n ≤ r.size) :
    r.contents.take n =
      (r.buffer.drop r.head).take (min n (r.capacity - r.head)) ++
        r.buffer.take (n - (r.capacity - r.head)) := by
  rw [contents, take_window _ _ hn, ← h.length_buffer]
  exact window_eq_append (by rw [h.length_buffer]; exact Nat.le_of_lt h.head_lt) n

/-- Dropping `n` bytes from the front, as every consuming method does it. -/
theorem advance {n : Nat} (hn : n ≤ r.size) :
    let r' := { r with head := (r.head + n) % r.capacity, size := r.size - n }
    Valid r' ∧ r'.contents = r.contents.drop n := by
  have hpos : 0 < r.capacity := Nat.lt_of_le_of_lt (Nat.zero_le _) h.head_lt
  refine ⟨⟨h.length_buffer, Nat.mod_lt _ hpos, ?_, ?_⟩, ?_⟩
  · exact Nat.le_trans (Nat.sub_le _ _) h.size_le
  · change r.tail = ((r.head + n) % r.capacity + (r.size - n)) % r.capacity
    rw [h.tail_eq, Nat.mod_add_mod]
    congr 1
    omega
  · change window r.buffer ((r.head + n) % r.capacity) (r.size - n) = r.contents.drop n
    rw [contents, drop_window (by rw [h.length_buffer]; exact h.head_lt) hn
      (by rw [h.length_buffer]; exact h.size_le), h.length_buffer]

/-- Appending `d` at the tail, as every producing method does it. -/
theorem append {d : List UInt8} (hd : r.size + d.length ≤ r.capacity) :
    let r' := { r with
      buffer := put r.buffer r.tail d
      tail := (r.tail + d.length) % r.capacity
      size := r.size + d.length }
    Valid r' ∧ r'.contents = r.contents ++ d := by
  refine ⟨⟨?_, h.head_lt, hd, ?_⟩, ?_⟩
  · exact (length_put (by rw [h.length_buffer]; exact Nat.le_of_lt h.tail_lt)
      (by rw [h.length_buffer]; omega)).trans h.length_buffer
  · change (r.tail + d.length) % r.capacity = (r.head + (r.size + d.length)) % r.capacity
    rw [h.tail_eq, Nat.mod_add_mod, Nat.add_assoc]
  · change window (put r.buffer r.tail d) r.head (r.size + d.length) = r.contents ++ d
    rw [contents, h.tail_eq, ← h.length_buffer]
    exact window_put (by rw [h.length_buffer]; exact h.head_lt) (by rw [h.length_buffer]; exact hd)

end Valid

/-! ## What each method does to the queue -/

section Methods

variable {r : RingBuffer}

theorem empty_iff (h : Valid r) : r.empty = true ↔ r.contents = [] := by
  rw [← List.length_eq_zero_iff, h.length_contents, empty, beq_iff_eq]

theorem make_spec {capacity : Nat} {r : RingBuffer} (h : make capacity = .ok r) :
    Valid r ∧ r.contents = [] ∧ r.capacity = capacity := by
  by_cases hc : capacity = 0
  · simp [make, hc] at h
  · simp only [make, hc, if_false, Except.ok.injEq] at h
    subst h
    refine ⟨⟨List.length_replicate, Nat.pos_of_ne_zero hc, Nat.zero_le _, ?_⟩, ?_, rfl⟩
    · exact (Nat.zero_mod _).symm
    · exact window_zero _ _

section

variable (h : Valid r)
include h

/-- `write` in one step: the two `memcpy` calls are one wrapping write. -/
theorem write_eq_put (data : List UInt8) :
    r.write data =
      ({ r with
          buffer := put r.buffer r.tail (data.take r.freeSpace)
          tail := (r.tail + (data.take r.freeSpace).length) % r.capacity
          size := r.size + (data.take r.freeSpace).length },
        (data.take r.freeSpace).length) := by
  have htail := h.tail_lt
  have hlen : (data.take r.freeSpace).length = min data.length r.freeSpace := by
    rw [List.length_take, Nat.min_comm]
  by_cases hzero : min data.length r.freeSpace = 0
  · have hnil : data.take r.freeSpace = [] := List.length_eq_zero_iff.mp (hlen.trans hzero)
    have hput : put r.buffer r.tail [] = r.buffer := by simp [put, splice]
    have hw : r.write data = (r, 0) := by
      unfold write
      split
      · rfl
      · rw [if_pos hzero]
    rw [hw, hnil, hput]
    simp [Nat.mod_eq_of_lt htail]
  · have hne : ¬ data.length = 0 := by omega
    have hfirst : (data.take r.freeSpace).take (r.capacity - r.tail) =
        data.take (min (min data.length r.freeSpace) (r.capacity - r.tail)) := by
      rw [List.take_take, List.take_eq_take_iff]
      omega
    simp only [write, hne, hzero, if_false, hlen]
    unfold put
    rw [h.length_buffer, hfirst]
    by_cases hrem : r.capacity - r.tail < min data.length r.freeSpace
    · have hmin : min (min data.length r.freeSpace) (r.capacity - r.tail) =
          r.capacity - r.tail := by omega
      have hsecond : (data.take r.freeSpace).drop (r.capacity - r.tail) =
          (data.drop (r.capacity - r.tail)).take
            (min data.length r.freeSpace - (r.capacity - r.tail)) := by
        rw [List.drop_take, List.take_eq_take_iff, List.length_drop]
        omega
      have hwrap : (r.tail + (r.capacity - r.tail)) % r.capacity = 0 := by
        rw [show r.tail + (r.capacity - r.tail) = r.capacity by omega, Nat.mod_self]
      have hback : (r.tail + min data.length r.freeSpace) % r.capacity =
          (min data.length r.freeSpace - (r.capacity - r.tail)) % r.capacity := by
        rw [show r.tail + min data.length r.freeSpace = r.capacity +
          (min data.length r.freeSpace - (r.capacity - r.tail)) by omega, Nat.add_mod_left]
      simp only [hmin, hwrap, hsecond, hback, Nat.zero_add]
      rw [if_pos (by omega)]
      refine Prod.ext ?_ rfl
      simp only [RingBuffer.mk.injEq, true_and]
      omega
    · have hmin : min (min data.length r.freeSpace) (r.capacity - r.tail) =
          min data.length r.freeSpace := by omega
      have hsecond : (data.take r.freeSpace).drop (r.capacity - r.tail) = [] := by
        rw [List.drop_eq_nil_iff, hlen]
        omega
      simp only [hmin, hsecond, Nat.sub_self, Nat.lt_irrefl, if_false]
      simp [splice]

/-- `write` appends the bytes that fit and returns their number. -/
theorem write_spec (data : List UInt8) :
    Valid (r.write data).1 ∧
      (r.write data).1.contents = r.contents ++ data.take r.freeSpace ∧
      (r.write data).1.capacity = r.capacity ∧
      (r.write data).2 = min data.length r.freeSpace := by
  have hsize := h.size_le
  have hfit : r.size + (data.take r.freeSpace).length ≤ r.capacity := by
    rw [List.length_take]
    unfold freeSpace
    omega
  obtain ⟨hv, hc⟩ := h.append hfit
  rw [write_eq_put h data]
  exact ⟨hv, hc, rfl, by rw [List.length_take, Nat.min_comm]⟩

/-- The two fragments `read`, `peek` and `peekIov` copy, together. -/
theorem fragments_eq_take {n : Nat} (hn : n ≤ r.size) :
    (r.buffer.drop r.head).take (min n (r.capacity - r.head)) ++
        r.buffer.take (n - min n (r.capacity - r.head)) = r.contents.take n := by
  rw [h.take_contents hn, show n - min n (r.capacity - r.head) = n - (r.capacity - r.head) by omega]

/-- `read` returns the first bytes and drops them. -/
theorem read_spec (len : Nat) :
    Valid (r.read len).1 ∧
      (r.read len).1.contents = r.contents.drop (min len r.size) ∧
      (r.read len).1.capacity = r.capacity ∧
      (r.read len).2 = (r.contents.take (min len r.size), min len r.size) := by
  by_cases hzero : min len r.size = 0
  · have hr : r.read len = (r, [], 0) := by
      unfold read
      split
      · rfl
      · rw [if_pos hzero]
    rw [hr, hzero]
    exact ⟨h, rfl, rfl, rfl⟩
  · have hlen : ¬ len = 0 := by omega
    have hhead := h.head_lt
    obtain ⟨hv, hc⟩ := h.advance (Nat.min_le_right len r.size)
    have hr : r.read len =
        ({ r with
            head := (r.head + min len r.size) % r.capacity
            size := r.size - min len r.size },
          r.contents.take (min len r.size), min len r.size) := by
      rw [← fragments_eq_take h (Nat.min_le_right len r.size)]
      simp only [read, hlen, hzero, if_false]
      by_cases hrem : r.capacity - r.head < min len r.size
      · have hmin : min (min len r.size) (r.capacity - r.head) = r.capacity - r.head := by omega
        have hwrap : (r.head + (r.capacity - r.head)) % r.capacity = 0 := by
          rw [show r.head + (r.capacity - r.head) = r.capacity by omega, Nat.mod_self]
        have hback : (r.head + min len r.size) % r.capacity =
            (min len r.size - (r.capacity - r.head)) % r.capacity := by
          rw [show r.head + min len r.size = r.capacity +
            (min len r.size - (r.capacity - r.head)) by omega, Nat.add_mod_left]
        simp only [hmin, hwrap, hback, Nat.zero_add, List.drop_zero]
        rw [if_pos (by omega)]
        refine Prod.ext ?_ rfl
        simp only [RingBuffer.mk.injEq, true_and]
        omega
      · have hmin : min (min len r.size) (r.capacity - r.head) = min len r.size := by omega
        simp only [hmin, Nat.sub_self, Nat.lt_irrefl, if_false, List.take_zero, List.append_nil]
    rw [hr]
    exact ⟨hv, hc, rfl, rfl⟩

/-- `peek` returns the first bytes. -/
theorem peek_spec (len : Nat) :
    r.peek len = (r.contents.take (min len r.size), min len r.size) := by
  by_cases hzero : min len r.size = 0
  · rw [hzero]
    unfold peek
    split
    · rfl
    · rw [if_pos hzero]
      rfl
  · have hlen : ¬ len = 0 := by omega
    rw [← fragments_eq_take h (Nat.min_le_right len r.size)]
    simp only [peek, hlen, hzero, if_false]
    split
    · rfl
    · next hrem =>
      rw [show min len r.size - min (min len r.size) (r.capacity - r.head) = 0 by omega]
      simp

/-- How far `peekView` reaches. -/
def viewLen (r : RingBuffer) (maxLen : Nat) : Nat :=
  min maxLen (min r.size (r.capacity - r.head))

theorem viewLen_pos {maxLen : Nat} (hm : 0 < maxLen) (hs : 0 < r.size) : 0 < r.viewLen maxLen := by
  have := h.head_lt
  unfold viewLen
  omega

/-- `peekView` shows a prefix. -/
theorem peekView_spec (maxLen : Nat) : r.peekView maxLen = r.contents.take (r.viewLen maxLen) := by
  have hle : r.viewLen maxLen ≤ r.size := by unfold viewLen; omega
  rw [h.take_contents hle]
  have hmin : min (r.viewLen maxLen) (r.capacity - r.head) = r.viewLen maxLen := by
    unfold viewLen; omega
  have hrest : r.viewLen maxLen - (r.capacity - r.head) = 0 := by unfold viewLen; omega
  rw [hmin, hrest, List.take_zero, List.append_nil]
  unfold peekView
  split
  · next hz =>
    have : r.viewLen maxLen = 0 := by unfold viewLen; omega
    rw [this, List.take_zero]
  · dsimp only
    split
    · next hz => rw [show r.viewLen maxLen = 0 from hz, List.take_zero]
    · rfl

theorem length_peekView (maxLen : Nat) : (r.peekView maxLen).length = r.viewLen maxLen := by
  rw [peekView_spec h, List.length_take, h.length_contents]
  unfold viewLen
  omega

/-- `readView` shows the prefix `peekView` shows, and drops it. -/
theorem readView_spec (maxLen : Nat) :
    Valid (r.readView maxLen).1 ∧
      (r.readView maxLen).1.contents = r.contents.drop (r.viewLen maxLen) ∧
      (r.readView maxLen).1.capacity = r.capacity ∧
      (r.readView maxLen).2 = r.contents.take (r.viewLen maxLen) := by
  have hlen := length_peekView h maxLen
  have hle : r.viewLen maxLen ≤ r.size := by unfold viewLen; omega
  simp only [readView]
  split
  · next he =>
    have hz : r.viewLen maxLen = 0 := by rw [← hlen, List.isEmpty_iff.mp he, List.length_nil]
    rw [hz]
    exact ⟨h, rfl, rfl, by rw [List.isEmpty_iff.mp he, List.take_zero]⟩
  · obtain ⟨hv, hc⟩ := h.advance hle
    rw [hlen]
    exact ⟨hv, hc, rfl, peekView_spec h maxLen⟩

/-- The fragments of `peekIov` concatenate to the first bytes. -/
theorem flatten_peekIov (maxLen : Nat) :
    (r.peekIov maxLen).flatten = r.contents.take (min maxLen r.size) := by
  unfold peekIov
  split
  · next hz => rw [show min maxLen r.size = 0 by omega]; rfl
  · rw [← fragments_eq_take h (Nat.min_le_right maxLen r.size)]
    dsimp only
    split
    · next hz => rw [hz]; simp
    · split
      · simp
      · next hrem =>
        rw [show min maxLen r.size - min (min maxLen r.size) (r.capacity - r.head) = 0 by omega]
        simp

/-- The bytes `writeIov` offers room for. -/
def offered (fs : List Fragment) : Nat := (fs.map Fragment.len).sum

theorem offered_writeIov (maxLen : Nat) : offered (r.writeIov maxLen) = min maxLen r.freeSpace := by
  have := h.tail_lt
  unfold writeIov
  split
  · next hz => simp [hz, offered]
  · dsimp only
    split
    · next hz => simp [hz, offered]
    · split
      · next hz => simp [hz, offered]
      · split <;> simp only [offered, List.map_cons, List.map_nil, List.sum_cons, List.sum_nil] <;>
          omega

/-- Filling the fragments of `writeIov` is one wrapping write at the tail. -/
theorem scatter_writeIov (maxLen : Nat) (data : List UInt8)
    (hd : data.length ≤ min maxLen r.freeSpace) :
    r.scatter (r.writeIov maxLen) data = { r with buffer := put r.buffer r.tail data } := by
  have htail := h.tail_lt
  have hput : put r.buffer r.tail [] = r.buffer := by simp [put, splice]
  unfold writeIov
  split
  · next hz =>
    have hnil : data = [] := List.length_eq_zero_iff.mp (by omega)
    rw [hnil, hput]
    rfl
  · dsimp only
    split
    · next hz =>
      have hnil : data = [] := List.length_eq_zero_iff.mp (by omega)
      rw [hnil, hput]
      rfl
    · split
      · next hz =>
        have hnil : data = [] := List.length_eq_zero_iff.mp (by omega)
        rw [hnil, hput]
        rfl
      · unfold put
        rw [h.length_buffer]
        split
        · next hrem =>
          have hmin : min (min maxLen r.freeSpace) (r.capacity - r.tail) =
              r.capacity - r.tail := by omega
          simp only [scatter, hmin]
          rw [List.take_of_length_le (l := data.drop (r.capacity - r.tail))
            (by rw [List.length_drop]; omega)]
        · next hrem =>
          have hshort : data.length ≤ r.capacity - r.tail := by omega
          simp only [scatter]
          rw [List.take_of_length_le (by omega), List.take_of_length_le hshort,
            List.drop_of_length_le hshort]
          simp [splice]

/-- Filling the offered fragments and committing `n` of the bytes put there
appends exactly these. -/
theorem commitWrite_spec (maxLen : Nat) (data : List UInt8) (n : Nat)
    (hd : data.length ≤ min maxLen r.freeSpace) (hn : n ≤ data.length) :
    let r' := (r.scatter (r.writeIov maxLen) data).commitWrite n
    Valid r' ∧ r'.contents = r.contents ++ data.take n ∧ r'.capacity = r.capacity := by
  have hsize := h.size_le
  have hfit : r.size + data.length ≤ r.capacity := by unfold freeSpace at hd; omega
  obtain ⟨hv, hc⟩ := h.append hfit
  have hcells : (put r.buffer r.tail data).length = r.capacity := hv.length_buffer
  rw [scatter_writeIov h maxLen data hd]
  have heq : ({ r with buffer := put r.buffer r.tail data } : RingBuffer).commitWrite n =
      { r with
        buffer := put r.buffer r.tail data
        tail := (r.tail + n) % r.capacity
        size := r.size + n } := by
    unfold commitWrite
    split
    · next hz => simp [hz, Nat.mod_eq_of_lt h.tail_lt]
    · have hfree :
          ¬ ({ r with buffer := put r.buffer r.tail data } : RingBuffer).freeSpace < n := by
        change ¬ r.capacity - r.size < n
        omega
      simp only [hfree, if_false]
  rw [heq]
  refine ⟨⟨hcells, h.head_lt, by change r.size + n ≤ r.capacity; omega, ?_⟩, ?_, rfl⟩
  · change (r.tail + n) % r.capacity = (r.head + (r.size + n)) % r.capacity
    rw [h.tail_eq, Nat.mod_add_mod, Nat.add_assoc]
  · change window (put r.buffer r.tail data) r.head (r.size + n) = r.contents ++ data.take n
    have hall : window (put r.buffer r.tail data) r.head (r.size + data.length) =
        r.contents ++ data := hc
    rw [← take_window _ _ (show r.size + n ≤ r.size + data.length by omega), hall,
      List.take_append, h.length_contents, Nat.add_sub_cancel_left,
      List.take_of_length_le (by rw [h.length_contents]; omega)]

theorem clear_spec : Valid r.clear ∧ r.clear.contents = [] ∧ r.clear.capacity = r.capacity := by
  have hpos : 0 < r.capacity := Nat.lt_of_le_of_lt (Nat.zero_le _) h.head_lt
  exact ⟨⟨h.length_buffer, hpos, Nat.zero_le _, (Nat.zero_mod _).symm⟩, window_zero _ _, rfl⟩

end

end Methods

end RingBuffer

end HyperNet.Buffer
