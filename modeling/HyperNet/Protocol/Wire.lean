import Mathlib.Algebra.Order.Ring.Nat
import Mathlib.Data.List.Basic
import Mathlib.Tactic.Common

/-!
# The wire format

Big-endian integers (`engine/include/hypernet/protocol/Endian.hpp`), the message
header (`Dispatcher.hpp`), the builtin opcodes and the opcode split
(`OpcodeU16.hpp`).  A frame is

    [Length : u32 big-endian] [Opcode : u16 big-endian] [Body ...]

where `Length` counts the opcode and the body but not itself.
-/

namespace HyperNet.Protocol

/-! ## Big-endian integers -/

def storeU16Be (v : UInt16) : List UInt8 :=
  [((v >>> 8) &&& 0xFF).toUInt8, ((v >>> 0) &&& 0xFF).toUInt8]

def storeU32Be (v : UInt32) : List UInt8 :=
  [((v >>> 24) &&& 0xFF).toUInt8, ((v >>> 16) &&& 0xFF).toUInt8,
    ((v >>> 8) &&& 0xFF).toUInt8, ((v >>> 0) &&& 0xFF).toUInt8]

def storeU64Be (v : UInt64) : List UInt8 :=
  [((v >>> 56) &&& 0xFF).toUInt8, ((v >>> 48) &&& 0xFF).toUInt8,
    ((v >>> 40) &&& 0xFF).toUInt8, ((v >>> 32) &&& 0xFF).toUInt8,
    ((v >>> 24) &&& 0xFF).toUInt8, ((v >>> 16) &&& 0xFF).toUInt8,
    ((v >>> 8) &&& 0xFF).toUInt8, ((v >>> 0) &&& 0xFF).toUInt8]

/-- The first two bytes; `0` when there are fewer, which no caller passes. -/
def loadU16Be : List UInt8 → UInt16
  | p₀ :: p₁ :: _ => (p₀.toUInt16 <<< 8) ||| (p₁.toUInt16 <<< 0)
  | _ => 0

/-- The first four bytes; `0` when there are fewer, which no caller passes. -/
def loadU32Be : List UInt8 → UInt32
  | p₀ :: p₁ :: p₂ :: p₃ :: _ =>
    (p₀.toUInt32 <<< 24) ||| (p₁.toUInt32 <<< 16) ||| (p₂.toUInt32 <<< 8) |||
      (p₃.toUInt32 <<< 0)
  | _ => 0

/-- The first eight bytes; `0` when there are fewer, which no caller passes. -/
def loadU64Be : List UInt8 → UInt64
  | p₀ :: p₁ :: p₂ :: p₃ :: p₄ :: p₅ :: p₆ :: p₇ :: _ =>
    (p₀.toUInt64 <<< 56) ||| (p₁.toUInt64 <<< 48) ||| (p₂.toUInt64 <<< 40) |||
      (p₃.toUInt64 <<< 32) ||| (p₄.toUInt64 <<< 24) ||| (p₅.toUInt64 <<< 16) |||
      (p₆.toUInt64 <<< 8) ||| (p₇.toUInt64 <<< 0)
  | _ => 0

@[simp] theorem length_storeU16Be (v : UInt16) : (storeU16Be v).length = 2 := rfl

@[simp] theorem length_storeU32Be (v : UInt32) : (storeU32Be v).length = 4 := rfl

/-- A low byte, as `& 0xFF` and the narrowing conversion cut it out. -/
theorem and_ff (n : Nat) : n % 256 &&& 255 = n % 256 := by
  have h := Nat.and_two_pow_sub_one_eq_mod (n % 256) 8
  rw [show (2 ^ 8 - 1 : Nat) = 255 from rfl, show (2 ^ 8 : Nat) = 256 from rfl, Nat.mod_mod] at h
  exact h

theorem toNat_loadU16Be (p₀ p₁ : UInt8) (rest : List UInt8) :
    (loadU16Be (p₀ :: p₁ :: rest)).toNat = p₀.toNat * 2 ^ 8 + p₁.toNat := by
  have h₀ := p₀.toNat_lt
  have h₁ := p₁.toNat_lt
  simp only [loadU16Be, UInt16.toNat_or, UInt16.toNat_shiftLeft, UInt8.toNat_toUInt16]
  simp only [show (8 : UInt16).toNat % 16 = 8 from rfl, show (0 : UInt16).toNat % 16 = 0 from rfl,
    Nat.shiftLeft_zero]
  rw [Nat.mod_eq_of_lt (by rw [Nat.shiftLeft_eq]; omega), Nat.mod_eq_of_lt (by omega),
    ← Nat.shiftLeft_add_eq_or_of_lt h₁, Nat.shiftLeft_eq]

theorem toNat_loadU32Be (p₀ p₁ p₂ p₃ : UInt8) (rest : List UInt8) :
    (loadU32Be (p₀ :: p₁ :: p₂ :: p₃ :: rest)).toNat =
      p₀.toNat * 2 ^ 24 + p₁.toNat * 2 ^ 16 + p₂.toNat * 2 ^ 8 + p₃.toNat := by
  have h₀ := p₀.toNat_lt
  have h₁ := p₁.toNat_lt
  have h₂ := p₂.toNat_lt
  have h₃ := p₃.toNat_lt
  simp only [loadU32Be, UInt32.toNat_or, UInt32.toNat_shiftLeft, UInt8.toNat_toUInt32]
  simp only [show (24 : UInt32).toNat % 32 = 24 from rfl,
    show (16 : UInt32).toNat % 32 = 16 from rfl,
    show (8 : UInt32).toNat % 32 = 8 from rfl, show (0 : UInt32).toNat % 32 = 0 from rfl,
    Nat.shiftLeft_zero]
  rw [Nat.mod_eq_of_lt (a := p₀.toNat <<< 24) (by rw [Nat.shiftLeft_eq]; omega),
    Nat.mod_eq_of_lt (a := p₁.toNat <<< 16) (by rw [Nat.shiftLeft_eq]; omega),
    Nat.mod_eq_of_lt (a := p₂.toNat <<< 8) (by rw [Nat.shiftLeft_eq]; omega),
    Nat.mod_eq_of_lt (a := p₃.toNat) (by omega), Nat.or_assoc, Nat.or_assoc,
    ← Nat.shiftLeft_add_eq_or_of_lt h₃, ← Nat.shiftLeft_add_eq_or_of_lt
      (show p₂.toNat <<< 8 + p₃.toNat < 2 ^ 16 by rw [Nat.shiftLeft_eq]; omega),
    ← Nat.shiftLeft_add_eq_or_of_lt
      (show p₁.toNat <<< 16 + (p₂.toNat <<< 8 + p₃.toNat) < 2 ^ 24 by
        rw [Nat.shiftLeft_eq, Nat.shiftLeft_eq]; omega)]
  simp only [Nat.shiftLeft_eq]
  omega

/-- A byte in its place within eight. -/
theorem toNat_byte_shiftLeft (p : UInt8) {k : Nat} (hk : k ≤ 56) :
    (p.toNat <<< k) % 2 ^ 64 = p.toNat * 2 ^ k := by
  rw [Nat.shiftLeft_eq]
  apply Nat.mod_eq_of_lt
  calc p.toNat * 2 ^ k < 2 ^ 8 * 2 ^ k := Nat.mul_lt_mul_of_pos_right p.toNat_lt (Nat.two_pow_pos k)
    _ ≤ 2 ^ 8 * 2 ^ 56 := Nat.mul_le_mul_left _ (Nat.pow_le_pow_right (by decide) hk)
    _ = 2 ^ 64 := by decide

theorem toNat_loadU64Be (p₀ p₁ p₂ p₃ p₄ p₅ p₆ p₇ : UInt8) (rest : List UInt8) :
    (loadU64Be (p₀ :: p₁ :: p₂ :: p₃ :: p₄ :: p₅ :: p₆ :: p₇ :: rest)).toNat =
      p₀.toNat * 2 ^ 56 + p₁.toNat * 2 ^ 48 + p₂.toNat * 2 ^ 40 + p₃.toNat * 2 ^ 32 +
        p₄.toNat * 2 ^ 24 + p₅.toNat * 2 ^ 16 + p₆.toNat * 2 ^ 8 + p₇.toNat := by
  have h₁ := p₁.toNat_lt
  have h₂ := p₂.toNat_lt
  have h₃ := p₃.toNat_lt
  have h₄ := p₄.toNat_lt
  have h₅ := p₅.toNat_lt
  have h₆ := p₆.toNat_lt
  have h₇ := p₇.toNat_lt
  -- a place and all below it do not overlap
  have hor {k : Nat} (a b : Nat) (hb : b < 2 ^ k) : a * 2 ^ k ||| b = a * 2 ^ k + b := by
    rw [← Nat.shiftLeft_eq, Nat.shiftLeft_add_eq_or_of_lt hb]
  simp only [loadU64Be, UInt64.toNat_or, UInt64.toNat_shiftLeft, UInt8.toNat_toUInt64]
  simp only [show (56 : UInt64).toNat % 64 = 56 from rfl,
    show (48 : UInt64).toNat % 64 = 48 from rfl,
    show (40 : UInt64).toNat % 64 = 40 from rfl, show (32 : UInt64).toNat % 64 = 32 from rfl,
    show (24 : UInt64).toNat % 64 = 24 from rfl, show (16 : UInt64).toNat % 64 = 16 from rfl,
    show (8 : UInt64).toNat % 64 = 8 from rfl, show (0 : UInt64).toNat % 64 = 0 from rfl]
  rw [toNat_byte_shiftLeft p₀ (Nat.le_refl 56), toNat_byte_shiftLeft p₁ (k := 48) (by decide),
    toNat_byte_shiftLeft p₂ (k := 40) (by decide), toNat_byte_shiftLeft p₃ (k := 32) (by decide),
    toNat_byte_shiftLeft p₄ (k := 24) (by decide), toNat_byte_shiftLeft p₅ (k := 16) (by decide),
    toNat_byte_shiftLeft p₆ (k := 8) (by decide), toNat_byte_shiftLeft p₇ (k := 0) (by decide)]
  simp only [Nat.or_assoc]
  rw [hor p₆.toNat _ (by omega), hor p₅.toNat _ (by omega), hor p₄.toNat _ (by omega),
    hor p₃.toNat _ (by omega), hor p₂.toNat _ (by omega), hor p₁.toNat _ (by omega),
    hor p₀.toNat _ (by omega)]
  omega

/-- A byte of a number, on top of what is below it. -/
theorem byte_add_mod (n k : Nat) : n / 2 ^ k % 256 * 2 ^ k + n % 2 ^ k = n % 2 ^ (k + 8) := by
  rw [Nat.pow_add, Nat.mod_mul, Nat.mul_comm, Nat.add_comm]

/-- Loading back a stored `u16`. -/
@[simp] theorem loadU16Be_storeU16Be (v : UInt16) (rest : List UInt8) :
    loadU16Be (storeU16Be v ++ rest) = v := by
  apply UInt16.toNat_inj.mp
  have hv := v.toNat_lt
  change (loadU16Be (_ :: _ :: rest)).toNat = _
  rw [toNat_loadU16Be]
  simp [Nat.shiftRight_eq_div_pow, and_ff]
  omega

/-- Loading back a stored `u32`. -/
@[simp] theorem loadU32Be_storeU32Be (v : UInt32) (rest : List UInt8) :
    loadU32Be (storeU32Be v ++ rest) = v := by
  apply UInt32.toNat_inj.mp
  have hv := v.toNat_lt
  change (loadU32Be (_ :: _ :: _ :: _ :: rest)).toNat = _
  rw [toNat_loadU32Be]
  simp [Nat.shiftRight_eq_div_pow, and_ff]
  omega

/-- Loading back a stored `u64`. -/
@[simp] theorem loadU64Be_storeU64Be (v : UInt64) (rest : List UInt8) :
    loadU64Be (storeU64Be v ++ rest) = v := by
  have hbytes : v.toNat / 2 ^ 56 % 256 * 2 ^ 56 + (v.toNat / 2 ^ 48 % 256 * 2 ^ 48 +
      (v.toNat / 2 ^ 40 % 256 * 2 ^ 40 + (v.toNat / 2 ^ 32 % 256 * 2 ^ 32 +
      (v.toNat / 2 ^ 24 % 256 * 2 ^ 24 + (v.toNat / 2 ^ 16 % 256 * 2 ^ 16 +
      (v.toNat / 2 ^ 8 % 256 * 2 ^ 8 + v.toNat % 2 ^ 8)))))) = v.toNat := by
    rw [byte_add_mod, byte_add_mod, byte_add_mod, byte_add_mod, byte_add_mod, byte_add_mod,
      byte_add_mod]
    exact Nat.mod_eq_of_lt v.toNat_lt
  apply UInt64.toNat_inj.mp
  change (loadU64Be (_ :: _ :: _ :: _ :: _ :: _ :: _ :: _ :: rest)).toNat = _
  rw [toNat_loadU64Be]
  simpa [Nat.shiftRight_eq_div_pow, and_ff, Nat.add_assoc] using hbytes

/-- Storing again a loaded `u32` gives back its four bytes. -/
theorem storeU32Be_loadU32Be (p₀ p₁ p₂ p₃ : UInt8) (rest : List UInt8) :
    storeU32Be (loadU32Be (p₀ :: p₁ :: p₂ :: p₃ :: rest)) = [p₀, p₁, p₂, p₃] := by
  have h := toNat_loadU32Be p₀ p₁ p₂ p₃ rest
  generalize loadU32Be (p₀ :: p₁ :: p₂ :: p₃ :: rest) = v at h
  have h₀ := p₀.toNat_lt
  have h₁ := p₁.toNat_lt
  have h₂ := p₂.toNat_lt
  have h₃ := p₃.toNat_lt
  simp only [storeU32Be, List.cons.injEq, ← UInt8.toNat_inj]
  simp [Nat.shiftRight_eq_div_pow, and_ff]
  omega

theorem storeU64Be_loadU64Be (p₀ p₁ p₂ p₃ p₄ p₅ p₆ p₇ : UInt8) (rest : List UInt8) :
    storeU64Be (loadU64Be (p₀ :: p₁ :: p₂ :: p₃ :: p₄ :: p₅ :: p₆ :: p₇ :: rest)) =
      [p₀, p₁, p₂, p₃, p₄, p₅, p₆, p₇] := by
  have h := toNat_loadU64Be p₀ p₁ p₂ p₃ p₄ p₅ p₆ p₇ rest
  generalize loadU64Be (p₀ :: p₁ :: p₂ :: p₃ :: p₄ :: p₅ :: p₆ :: p₇ :: rest) = v at h
  have h₀ := p₀.toNat_lt
  have h₁ := p₁.toNat_lt
  have h₂ := p₂.toNat_lt
  have h₃ := p₃.toNat_lt
  have h₄ := p₄.toNat_lt
  have h₅ := p₅.toNat_lt
  have h₆ := p₆.toNat_lt
  have h₇ := p₇.toNat_lt
  simp only [storeU64Be, List.cons.injEq, ← UInt8.toNat_inj]
  simp [Nat.shiftRight_eq_div_pow, and_ff]
  omega

/-- Only the first four bytes matter. -/
theorem loadU32Be_append {hdr : List UInt8} (h : 4 ≤ hdr.length) (rest : List UInt8) :
    loadU32Be (hdr ++ rest) = loadU32Be hdr := by
  rcases hdr with _ | ⟨p₀, _ | ⟨p₁, _ | ⟨p₂, _ | ⟨p₃, tail⟩⟩⟩⟩
  · simp at h
  · simp at h
  · simp at h
  · simp at h
  · rfl

theorem loadU16Be_append {hdr : List UInt8} (h : 2 ≤ hdr.length) (rest : List UInt8) :
    loadU16Be (hdr ++ rest) = loadU16Be hdr := by
  rcases hdr with _ | ⟨p₀, _ | ⟨p₁, tail⟩⟩
  on_goal 3 => rfl
  all_goals simp at h

theorem loadU64Be_append {hdr : List UInt8} (h : 8 ≤ hdr.length) (rest : List UInt8) :
    loadU64Be (hdr ++ rest) = loadU64Be hdr := by
  rcases hdr with _ | ⟨p₀, _ | ⟨p₁, _ | ⟨p₂, _ | ⟨p₃, _ | ⟨p₄, _ | ⟨p₅, _ | ⟨p₆, _ |
    ⟨p₇, tail⟩⟩⟩⟩⟩⟩⟩⟩
  on_goal 9 => rfl
  all_goals simp at h

theorem loadU32Be_take {bytes : List UInt8} (h : 4 ≤ bytes.length) :
    loadU32Be (bytes.take 4) = loadU32Be bytes := by
  conv_rhs => rw [← List.take_append_drop 4 bytes]
  exact (loadU32Be_append (by rw [List.length_take]; omega) _).symm

/-! ## Header, opcode, body -/

/-- `MessageHeader`. -/
structure MessageHeader where
  payloadLen : UInt32
  opcode : UInt16
deriving DecidableEq, Repr

namespace MessageHeader

def kLengthFieldBytes : Nat := 4

def kOpcodeFieldBytes : Nat := 2

def kMaxPayloadLenU64 : Nat := 0xFFFFFFFF

def encodeLen (h : MessageHeader) : List UInt8 := storeU32Be h.payloadLen

def encodeOpcode (h : MessageHeader) : List UInt8 := storeU16Be h.opcode

/-- In `std::size_t` arithmetic. -/
def payloadLenForBody (bodyLen : Nat) : Nat := (kOpcodeFieldBytes + bodyLen) % 2 ^ 64

end MessageHeader

def kOpcodePing : UInt16 := 0xFFFE

def kOpcodePong : UInt16 := 0xFFFF

/-- `splitOpcodeU16Be`: opcode and body, or `none` where it returns `false`. -/
def splitOpcodeU16Be (msg : List UInt8) : Option (UInt16 × List UInt8) :=
  if msg.length < 2 then none else some (loadU16Be msg, msg.drop 2)

/-- The payload of a packet: opcode and body. -/
def payload (opcode : UInt16) (body : List UInt8) : List UInt8 := storeU16Be opcode ++ body

/-- A payload behind its length field. -/
def framed (p : List UInt8) : List UInt8 := storeU32Be (UInt32.ofNat p.length) ++ p

/-- The bytes one packet puts on the wire, `len32be(2 + |body|) ++ op16be ++ body`. -/
def frame (opcode : UInt16) (body : List UInt8) : List UInt8 :=
  storeU32Be (UInt32.ofNat (2 + body.length)) ++ storeU16Be opcode ++ body

@[simp] theorem length_payload (opcode : UInt16) (body : List UInt8) :
    (payload opcode body).length = 2 + body.length := by
  simp [payload]

@[simp] theorem length_framed (p : List UInt8) : (framed p).length = 4 + p.length := by
  simp [framed]

section

variable (opcode : UInt16) (body : List UInt8)

theorem framed_payload : framed (payload opcode body) = frame opcode body := by
  simp [framed, frame, payload, Nat.add_comm]

theorem frame_ne_nil : frame opcode body ≠ [] := by
  simp [frame, storeU32Be]

/-- Splitting gives back what was put together. -/
@[simp] theorem splitOpcodeU16Be_payload :
    splitOpcodeU16Be (payload opcode body) = some (opcode, body) := by
  have hlen : ¬ (payload opcode body).length < 2 := by rw [length_payload]; omega
  rw [splitOpcodeU16Be, if_neg hlen, payload, loadU16Be_storeU16Be]
  rfl

/-- The two header fields as `sendPacketU16` encodes them, followed by the body,
are the frame; also when `2 + |body|` exceeds the width of `std::size_t`. -/
theorem encode_eq_frame : let hdr : MessageHeader :=
      ⟨UInt32.ofNat (MessageHeader.payloadLenForBody body.length), opcode⟩
    hdr.encodeLen ++ hdr.encodeOpcode ++ body = frame opcode body := by
  have hmod : UInt32.ofNat (MessageHeader.payloadLenForBody body.length) =
      UInt32.ofNat (2 + body.length) := by
    apply UInt32.toNat_inj.mp
    simp only [MessageHeader.payloadLenForBody, MessageHeader.kOpcodeFieldBytes,
      UInt32.toNat_ofNat']
    omega
  simp only [MessageHeader.encodeLen, MessageHeader.encodeOpcode, hmod, frame]

end

end HyperNet.Protocol
