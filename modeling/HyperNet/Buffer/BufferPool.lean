import HyperNet.Core.Options
import Mathlib.Algebra.Order.Ring.Nat
import Mathlib.Data.List.Perm.Basic

/-!
# The pool of blocks

A `BufferPool` cuts one piece of storage into blocks of one size and keeps the free ones on a
stack.  Its size is a product in `std::size_t`, which the configuration does not bound; so are the
places of the blocks.

The user of a pool gives back only blocks it holds; what it holds is kept beside the pool in a
`Usage`.  As long as the product does not wrap, the free blocks and the held ones are at every time
all the blocks there are, each once (`Usage.Accounted`), and everything else follows from where the
blocks are.
-/

namespace HyperNet.Buffer

/-- What `new std::byte[size]` returns: a place for all bytes that is not null. -/
structure Storage (size : UInt64) where
  base : UInt64
  base_ne : base ≠ 0
  fits : base.toNat + size.toNat < 2 ^ 64

/-- Whether there is memory for the storage, and for a list of pointers. -/
structure Memory where
  new : (size : UInt64) → Option (Storage size)
  reserve : (count : UInt64) → Bool

inductive PoolError where
  | invalid_argument (what : String)
  | no_memory
deriving DecidableEq, Repr

/-- The free list has its back first. -/
structure BufferPool where
  blockSize : UInt64
  blockCount : UInt64
  storage : Storage (blockSize * blockCount)
  freeList : List UInt64

namespace BufferPool

/-- `storage_.get() + (i * blockSize_)`. -/
def block {size : UInt64} (storage : Storage size) (blockSize : UInt64) (i : Nat) : UInt64 :=
  storage.base + UInt64.ofNat i * blockSize

def make (memory : Memory) (blockSize blockCount : UInt64) : Except PoolError BufferPool :=
  if blockSize = 0 then
    .error (.invalid_argument "BufferPool blockSize must be greater than 0")
  else if blockCount = 0 then
    .error (.invalid_argument "BufferPool blockCount must be greater than 0")
  else
    match memory.new (blockSize * blockCount) with
    | none => .error .no_memory
    | some storage =>
      if memory.reserve blockCount = false then .error .no_memory
      else
        -- pushed in order, so the last block is at the back
        let pushed := (List.range blockCount.toNat).map (block storage blockSize)
        .ok { blockSize, blockCount, storage, freeList := pushed.reverse }

variable (p : BufferPool)

def capacity : Nat := p.blockCount.toNat

def freeBlocks : Nat := p.freeList.length

/-- 0 is the null pointer. -/
def allocate : UInt64 × BufferPool :=
  match p.freeList with
  | [] => (0, p)
  | ptr :: freeList => (ptr, { p with freeList })

/-- The assertions of a debug build. -/
def Checks (ptr : UInt64) : Prop :=
  let base := p.storage.base
  let last := base + p.blockSize * p.blockCount
  (base ≤ ptr ∧ ptr < last) ∧ (ptr - base) % p.blockSize = 0 ∧ ptr ∉ p.freeList

instance (ptr : UInt64) : Decidable (p.Checks ptr) :=
  inferInstanceAs (Decidable ((_ ∧ _) ∧ _ ∧ _))

/-- Nothing is returned where an assertion fails. -/
def deallocate (debug : Bool) (ptr : UInt64) : Option BufferPool :=
  if ptr = 0 then some p
  else if debug = true ∧ ¬ p.Checks ptr then none
  else some { p with freeList := ptr :: p.freeList }

end BufferPool

/-! ## A pool and its user -/

structure Usage where
  pool : BufferPool
  outstanding : List UInt64 := []

inductive PoolCall where
  | allocate
  | deallocate (ptr : UInt64)
deriving DecidableEq, Repr

namespace Usage

/-- A call of the user, which gives back only what it holds. -/
def step (debug : Bool) (u : Usage) : PoolCall → Option Usage
  | .allocate =>
    let (ptr, pool) := u.pool.allocate
    if ptr = 0 then some { u with pool }
    else some { pool, outstanding := ptr :: u.outstanding }
  | .deallocate ptr =>
    if ptr ∈ u.outstanding then
      (u.pool.deallocate debug ptr).map
        fun pool => { pool, outstanding := u.outstanding.erase ptr }
    else some u

def run (debug : Bool) (u : Usage) (calls : List PoolCall) : Option Usage :=
  calls.foldlM (step debug) u

/-- Two blocks without a byte in common. -/
def Apart (size : Nat) (a b : UInt64) : Prop :=
  a.toNat + size ≤ b.toNat ∨ b.toNat + size ≤ a.toNat

/-- What a pool is for. -/
structure Good (u : Usage) : Prop where
  apart : u.outstanding.Pairwise (Apart u.pool.blockSize.toNat)
  inside : ∀ ptr ∈ u.outstanding, u.pool.storage.base.toNat ≤ ptr.toNat ∧
    ptr.toNat + u.pool.blockSize.toNat ≤
      u.pool.storage.base.toNat + (u.pool.blockSize * u.pool.blockCount).toNat
  count : u.pool.freeBlocks + u.outstanding.length = u.pool.capacity
  null_iff : u.pool.allocate.1 = 0 ↔ u.outstanding.length = u.pool.capacity

end Usage

/-! ## Where the blocks are -/

namespace BufferPool

/-- All blocks, in their order. -/
def blocks (p : BufferPool) : List UInt64 :=
  (List.range p.capacity).map (block p.storage p.blockSize)

/-- The storage has room for all blocks. -/
structure Roomy (p : BufferPool) : Prop where
  pos : 0 < p.blockSize.toNat
  room : p.blockSize.toNat * p.blockCount.toNat < 2 ^ 64

/-- The place of a block that starts within the storage does not wrap. -/
theorem toNat_block {size blockSize : UInt64} (storage : Storage size) {i : Nat}
    (hpos : 0 < blockSize.toNat) (h : i * blockSize.toNat ≤ size.toNat) :
    (block storage blockSize i).toNat = storage.base.toNat + i * blockSize.toNat := by
  have hsize := size.toNat_lt
  have hi : i < 2 ^ 64 := (Nat.le_mul_of_pos_right i hpos).trans_lt (h.trans_lt hsize)
  have hmul : (UInt64.ofNat i * blockSize).toNat = i * blockSize.toNat := by
    rw [UInt64.toNat_mul, UInt64.toNat_ofNat_of_lt' hi, Nat.mod_eq_of_lt (h.trans_lt hsize)]
  have hfits := storage.fits
  rw [block, UInt64.toNat_add, hmul]
  exact Nat.mod_eq_of_lt (by omega)

variable {p : BufferPool}

namespace Roomy

theorem toNat_size (h : p.Roomy) :
    (p.blockSize * p.blockCount).toNat = p.blockSize.toNat * p.blockCount.toNat := by
  rw [UInt64.toNat_mul, Nat.mod_eq_of_lt h.room]

/-- A block ends within the storage. -/
theorem end_le (h : p.Roomy) {i : Nat} (hi : i < p.capacity) :
    i * p.blockSize.toNat + p.blockSize.toNat ≤ (p.blockSize * p.blockCount).toNat := by
  rw [h.toNat_size, ← Nat.succ_mul, Nat.mul_comm p.blockSize.toNat]
  exact Nat.mul_le_mul_right _ hi

theorem toNat_block (h : p.Roomy) {i : Nat} (hi : i < p.capacity) :
    (block p.storage p.blockSize i).toNat =
      p.storage.base.toNat + i * p.blockSize.toNat :=
  BufferPool.toNat_block p.storage h.pos ((Nat.le_add_right _ _).trans (h.end_le hi))

theorem of_mem_blocks (h : p.Roomy) {ptr : UInt64} (hptr : ptr ∈ p.blocks) :
    ∃ i < p.capacity, ptr.toNat = p.storage.base.toNat + i * p.blockSize.toNat := by
  obtain ⟨i, hi, rfl⟩ := List.mem_map.mp hptr
  have hlt := List.mem_range.mp hi
  exact ⟨i, hlt, h.toNat_block hlt⟩

theorem blocks_apart (h : p.Roomy) : p.blocks.Pairwise (Usage.Apart p.blockSize.toNat) := by
  rw [blocks, List.pairwise_map]
  refine List.Pairwise.imp_of_mem ?_ List.pairwise_lt_range
  intro i j hi hj hij
  rw [Usage.Apart, h.toNat_block (List.mem_range.mp hi), h.toNat_block (List.mem_range.mp hj)]
  have hle : i * p.blockSize.toNat + p.blockSize.toNat ≤ j * p.blockSize.toNat := by
    rw [← Nat.succ_mul]
    exact Nat.mul_le_mul_right _ hij
  exact .inl (by omega)

theorem ne_zero_of_mem (h : p.Roomy) {ptr : UInt64} (hptr : ptr ∈ p.blocks) : ptr ≠ 0 := by
  obtain ⟨i, -, hi⟩ := h.of_mem_blocks hptr
  rintro rfl
  have hbase : p.storage.base.toNat ≠ 0 := fun h0 => p.storage.base_ne (UInt64.toNat_inj.mp h0)
  rw [UInt64.toNat_zero] at hi
  omega

end Roomy

end BufferPool

namespace Usage

theorem Apart.symm {size : Nat} {a b : UInt64} (h : Apart size a b) : Apart size b a := Or.symm h

theorem Apart.ne {size : Nat} {a b : UInt64} (hpos : 0 < size) (h : Apart size a b) : a ≠ b := by
  rintro rfl
  rcases h with h | h <;> omega

/-! ## Every block is free or held -/

structure Accounted (u : Usage) : Prop where
  roomy : u.pool.Roomy
  perm : (u.pool.freeList ++ u.outstanding).Perm u.pool.blocks

variable {u : Usage}

namespace Accounted

section

variable {ptr : UInt64} (h : u.Accounted)
include h

theorem mem_of_free (hptr : ptr ∈ u.pool.freeList) :
    ptr ∈ u.pool.blocks := h.perm.subset (List.mem_append_left _ hptr)

theorem mem_of_held (hptr : ptr ∈ u.outstanding) :
    ptr ∈ u.pool.blocks := h.perm.subset (List.mem_append_right _ hptr)

theorem apart : (u.pool.freeList ++ u.outstanding).Pairwise (Apart u.pool.blockSize.toNat) :=
  h.roomy.blocks_apart.perm h.perm.symm Apart.symm

theorem count : u.pool.freeBlocks + u.outstanding.length = u.pool.capacity := by
  have hlen := h.perm.length_eq
  rwa [List.length_append, BufferPool.blocks, List.length_map, List.length_range] at hlen

theorem good : u.Good where
  apart := (List.pairwise_append.mp h.apart).2.1
  inside ptr hptr := by
    obtain ⟨i, hi, hplace⟩ := h.roomy.of_mem_blocks (h.mem_of_held hptr)
    have hend := h.roomy.end_le hi
    omega
  count := h.count
  null_iff := by
    have hcount := h.count
    unfold BufferPool.allocate
    split
    next hnil =>
      rw [BufferPool.freeBlocks, hnil, List.length_nil, Nat.zero_add] at hcount
      exact iff_of_true rfl hcount
    next ptr rest hfree =>
      rw [BufferPool.freeBlocks, hfree, List.length_cons] at hcount
      refine iff_of_false ?_ (by omega)
      exact h.roomy.ne_zero_of_mem (h.mem_of_free (hfree ▸ List.mem_cons_self))

/-- A block that is held passes the assertions. -/
theorem checks (hptr : ptr ∈ u.outstanding) : u.pool.Checks ptr := by
  obtain ⟨i, hi, hplace⟩ := h.roomy.of_mem_blocks (h.mem_of_held hptr)
  have hend := h.roomy.end_le hi
  have hfits := u.pool.storage.fits
  have hpos := h.roomy.pos
  have hbase : u.pool.storage.base ≤ ptr := UInt64.le_iff_toNat_le.mpr (by omega)
  refine ⟨⟨hbase, ?_⟩, ?_, ?_⟩
  · rw [UInt64.lt_iff_toNat_lt, UInt64.toNat_add, Nat.mod_eq_of_lt hfits]
    omega
  · apply UInt64.toNat_inj.mp
    rw [UInt64.toNat_mod, UInt64.toNat_sub_of_le _ _ hbase, hplace, Nat.add_sub_cancel_left,
      Nat.mul_mod_left]
    rfl
  · intro hfree
    have hapart := (List.pairwise_append.mp h.apart).2.2 ptr hfree ptr hptr
    exact hapart.ne hpos rfl

theorem step (debug : Bool) (c : PoolCall) : ∃ u', u.step debug c = some u' ∧ u'.Accounted := by
  cases c with
  | allocate =>
    cases hfree : u.pool.freeList with
    | nil =>
      refine ⟨u, ?_, h⟩
      rw [Usage.step, BufferPool.allocate, hfree]
      rfl
    | cons ptr freeList =>
      have hne : ptr ≠ 0 :=
        h.roomy.ne_zero_of_mem (h.mem_of_free (hfree ▸ List.mem_cons_self))
      refine ⟨{ pool := { u.pool with freeList }, outstanding := ptr :: u.outstanding }, ?_, ?_⟩
      · rw [Usage.step, BufferPool.allocate, hfree]
        exact if_neg hne
      · refine ⟨⟨h.roomy.pos, h.roomy.room⟩, List.Perm.trans ?_ h.perm⟩
        rw [hfree]
        exact List.perm_middle
  | deallocate ptr =>
    by_cases hheld : ptr ∈ u.outstanding
    · have hne := h.roomy.ne_zero_of_mem (h.mem_of_held hheld)
      have hpass : ¬ (debug = true ∧ ¬ u.pool.Checks ptr) := fun hf => hf.2 (h.checks hheld)
      refine ⟨{ pool := { u.pool with freeList := ptr :: u.pool.freeList }
                outstanding := u.outstanding.erase ptr }, ?_, ?_⟩
      · rw [Usage.step, if_pos hheld, BufferPool.deallocate, if_neg hne, if_neg hpass]
        rfl
      · refine ⟨⟨h.roomy.pos, h.roomy.room⟩, List.Perm.trans ?_ h.perm⟩
        refine List.perm_middle.symm.trans ?_
        exact (List.perm_cons_erase hheld).symm.append_left _
    · exact ⟨u, if_neg hheld, h⟩

theorem run (debug : Bool) (calls : List PoolCall) :
    ∃ u', u.run debug calls = some u' ∧ u'.Accounted := by
  induction calls generalizing u with
  | nil => exact ⟨u, rfl, h⟩
  | cons c calls ih =>
    obtain ⟨u₁, hstep, h₁⟩ := h.step debug c
    obtain ⟨u', hrun, h'⟩ := ih h₁
    refine ⟨u', ?_, h'⟩
    rw [Usage.run, List.foldlM_cons, hstep]
    exact hrun

end

end Accounted

end Usage

/-! ## A new pool -/

/-- What the constructor accepts, and what it leaves. -/
theorem BufferPool.of_make {memory : Memory} {blockSize blockCount : UInt64} {p : BufferPool}
    (h : make memory blockSize blockCount = .ok p) :
    0 < blockSize.toNat ∧ p.blockSize = blockSize ∧ p.blockCount = blockCount ∧
      p.freeList = p.blocks.reverse := by
  unfold make at h
  split at h
  · cases h
  next hsize =>
    split at h
    · cases h
    · split at h
      · cases h
      · split at h
        · cases h
        · cases h
          exact ⟨Nat.pos_of_ne_zero fun h0 => hsize (UInt64.toNat_inj.mp h0), rfl, rfl, rfl⟩

/-- The blocks that are taken one after the other are held, but for a null pointer. -/
theorem Usage.run_allocate (debug : Bool) (u : Usage) {taken : List UInt64}
    (h : u.pool.freeList = taken) :
    ∃ u', u.run debug (List.replicate taken.length .allocate) = some u' ∧
      (∀ ptr ∈ taken ++ u.outstanding, ptr ≠ 0 → ptr ∈ u'.outstanding) ∧
      u'.pool = { u.pool with freeList := [] } := by
  induction taken generalizing u with
  | nil =>
    refine ⟨u, rfl, fun ptr hptr _ => hptr, ?_⟩
    rw [← h]
  | cons first taken ih =>
    have hstep : ∃ u₁, u.step debug .allocate = some u₁ ∧
        (∀ ptr ∈ first :: u.outstanding, ptr ≠ 0 → ptr ∈ u₁.outstanding) ∧
        u₁.pool = { u.pool with freeList := taken } := by
      rw [step, BufferPool.allocate, h]
      dsimp only
      split
      next hnull =>
        refine ⟨_, rfl, ?_, rfl⟩
        intro ptr hptr hne
        exact (List.mem_cons.mp hptr).resolve_left fun heq => hne (heq.trans hnull)
      · exact ⟨_, rfl, fun ptr hptr _ => hptr, rfl⟩
    obtain ⟨u₁, hstep, hheld₁, hpool₁⟩ := hstep
    obtain ⟨u', hrun, hheld, hpool⟩ := ih u₁ (congrArg BufferPool.freeList hpool₁)
    refine ⟨u', ?_, ?_, ?_⟩
    · rw [List.length_cons, List.replicate_succ, run, List.foldlM_cons, hstep]
      exact hrun
    · intro ptr hptr hne
      refine hheld ptr ?_ hne
      rw [List.cons_append, List.mem_cons, List.mem_append] at hptr
      rcases hptr with rfl | htaken | hout
      · exact List.mem_append_right _ (hheld₁ _ List.mem_cons_self hne)
      · exact List.mem_append_left _ htaken
      · exact List.mem_append_right _ (hheld₁ ptr (List.mem_cons_of_mem _ hout) hne)
    · rw [hpool, hpool₁]

/-- If the storage is smaller than its blocks, one of them goes beyond its end. -/
theorem BufferPool.exists_beyond {p : BufferPool} (hpos : 0 < p.blockSize.toNat)
    (h : ¬ p.blockSize.toNat * p.blockCount.toNat < 2 ^ 64) :
    ∃ ptr ∈ p.blocks, ptr ≠ 0 ∧ p.storage.base.toNat + (p.blockSize * p.blockCount).toNat <
      ptr.toNat + p.blockSize.toNat := by
  -- the first block that does not end within the storage still starts there
  generalize hsize : (p.blockSize * p.blockCount).toNat = size
  have hlt : size < p.blockSize.toNat * p.blockCount.toNat := by
    have := (p.blockSize * p.blockCount).toNat_lt
    omega
  have hle : size / p.blockSize.toNat * p.blockSize.toNat ≤ size := Nat.div_mul_le_self _ _
  have hplace : (block p.storage p.blockSize (size / p.blockSize.toNat)).toNat =
      p.storage.base.toNat + size / p.blockSize.toNat * p.blockSize.toNat :=
    BufferPool.toNat_block p.storage hpos (hle.trans hsize.ge)
  have hbase : p.storage.base.toNat ≠ 0 := fun h0 => p.storage.base_ne (UInt64.toNat_inj.mp h0)
  refine ⟨_, List.mem_map.mpr ⟨size / p.blockSize.toNat, ?_, rfl⟩, ?_, ?_⟩
  · exact List.mem_range.mpr ((Nat.div_lt_iff_lt_mul hpos).mpr (Nat.mul_comm _ _ ▸ hlt))
  · intro hnull
    rw [hnull, UInt64.toNat_zero] at hplace
    omega
  · rw [hplace, Nat.add_assoc]
    exact Nat.add_lt_add_left (Nat.lt_div_mul_add hpos) _

/-- A new pool hands out disjoint blocks within its storage, as many as it has, through all calls
of a user that gives back what it holds, exactly if the size of the storage does not wrap. -/
theorem pool_blocks_iff {memory : Memory} {blockSize blockCount : UInt64} {p : BufferPool}
    (h : BufferPool.make memory blockSize blockCount = .ok p) (debug : Bool) :
    (∀ calls, ∃ u, Usage.run debug { pool := p } calls = some u ∧ u.Good) ↔
      blockSize.toNat * blockCount.toNat < 2 ^ 64 := by
  obtain ⟨hpos, rfl, rfl, hfree⟩ := BufferPool.of_make h
  constructor
  · intro hgood
    by_contra hwrap
    obtain ⟨u, hrun, hheld, hpool⟩ := Usage.run_allocate debug { pool := p } hfree
    obtain ⟨u', hrun', hinside⟩ := hgood (List.replicate p.blocks.reverse.length .allocate)
    cases hrun.symm.trans hrun'
    obtain ⟨ptr, hptr, hne, hbeyond⟩ := BufferPool.exists_beyond hpos hwrap
    have hmem : ptr ∈ u.outstanding :=
      hheld ptr (List.mem_append_left _ (List.mem_reverse.mpr hptr)) hne
    have hle := (hinside.inside ptr hmem).2
    rw [hpool] at hle
    exact Nat.not_le_of_lt hbeyond hle
  · intro hroom calls
    have hnew : Usage.Accounted { pool := p } := by
      refine ⟨⟨hpos, hroom⟩, ?_⟩
      rw [List.append_nil, hfree]
      exact List.reverse_perm _
    obtain ⟨u, hrun, hu⟩ := hnew.run debug calls
    exact ⟨u, hrun, hu.good⟩

/-- All memory from the second page on. -/
def Memory.ample : Memory where
  new size :=
    if h : 4096 + size.toNat < 2 ^ 64 then
      some { base := 4096, base_ne := by decide, fits := h }
    else none
  reserve _ := true

/-- Three blocks of the smallest size that the configuration admits. -/
theorem pool_blocks_iff_three :
    ∃ p, BufferPool.make .ample 256 3 = .ok p ∧
      ((∀ calls, ∃ u, Usage.run true { pool := p } calls = some u ∧ u.Good) ↔
        (256 : UInt64).toNat * (3 : UInt64).toNat < 2 ^ 64) := by
  have hmake : ∃ p, BufferPool.make .ample 256 3 = .ok p := ⟨_, rfl⟩
  obtain ⟨p, hp⟩ := hmake
  exact ⟨p, hp, pool_blocks_iff hp true⟩

/-- Four blocks of `2 ^ 62` bytes are accepted, by the check of the configuration too, and have a
storage of no bytes; the first block that is handed out is not in it. -/
theorem wrapped_storage :
    Core.validateEngineConfig 1
        { bufferBlockSize := 0x4000000000000000, bufferBlockCount := 4 } = .ok () ∧
      ∃ p u, BufferPool.make .ample 0x4000000000000000 4 = .ok p ∧
        (p.blockSize * p.blockCount).toNat = 0 ∧
        Usage.run false { pool := p } [.allocate] = some u ∧
        u.outstanding = [0xC000000000001000] ∧ ¬ u.Good := by
  refine ⟨rfl, _, _, rfl, rfl, rfl, rfl, ?_⟩
  intro hgood
  exact absurd (hgood.inside _ List.mem_cons_self).2 (by decide)

end HyperNet.Buffer
