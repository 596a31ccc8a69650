import HyperNet.Lib.Parsing
import HyperNet.Lib.Reentrant
import HyperNet.Protocol.Wire

/-!
# Reading and writing fields

There are two codecs for the fields of a message: `PacketWriter` and `PacketReader` of the
application runtime (`hyperapp/protocol/`), and `ByteWriter` and `ByteReader` of the engine
(`hypernet/protocol/MessageCodec.hpp`), which has no strings.  They are written separately, and
they guard a read differently: a `PacketReader` compares the length with what remains, a
`ByteReader` adds it to the offset and compares the sum with the size.

What both are to do is a `Parser` for each type of field.  A `PacketReader` implements these, and
a `ByteReader` those of the integers as long as the sum does not wrap; round trips
(`codec_round_trip`) and the refusal of truncated input are then facts about the parsers.  What the
sum does for other lengths is said by `reader_bounds_iff`, and what a `PacketReader` that refuses
has already taken by `failed_read_stays_iff`.
-/

namespace HyperNet.Protocol

open HyperNet.Parsing HyperNet.Reentrant

/-! ## Fields -/

inductive Width where
  | u8
  | u16
  | u32
  | u64
deriving DecidableEq, Repr

/-- An integer field. -/
inductive Word where
  | u8 (v : UInt8)
  | u16 (v : UInt16)
  | u32 (v : UInt32)
  | u64 (v : UInt64)
deriving DecidableEq, Repr

def Word.width : Word → Width
  | .u8 _ => .u8
  | .u16 _ => .u16
  | .u32 _ => .u32
  | .u64 _ => .u64

/-- A string whose length fits its length field. -/
abbrev Str := { s : List UInt8 // s.length ≤ 0xFFFF }

/-- At most `n` bytes. -/
def upTo (n : Nat) (l : List UInt8) : { s : List UInt8 // s.length ≤ n } :=
  ⟨l.take n, List.length_take_le n l⟩

/-- A string of at most the length that a length field gives. -/
def Str.ofLen (len : UInt16) (s : { s : List UInt8 // s.length ≤ len.toNat }) : Str :=
  ⟨s.1, s.2.trans (Nat.le_of_lt_succ len.toNat_lt)⟩

inductive Field where
  | word (w : Word)
  | str (s : Str)
deriving DecidableEq

inductive FieldType where
  | word (width : Width)
  | str
deriving DecidableEq, Repr

def Field.type : Field → FieldType
  | .word w => .word w.width
  | .str _ => .str

/-! ## Writers -/

structure PacketWriter where
  buf : List UInt8 := []

namespace PacketWriter

variable (p : PacketWriter)

def writeU8 (v : UInt8) : PacketWriter := ⟨p.buf ++ [v]⟩

def writeU16Be (v : UInt16) : PacketWriter := ⟨p.buf ++ storeU16Be v⟩

def writeU32Be (v : UInt32) : PacketWriter := ⟨p.buf ++ storeU32Be v⟩

def writeU64Be (v : UInt64) : PacketWriter := ⟨p.buf ++ storeU64Be v⟩

def writeBytes (bytes : List UInt8) : PacketWriter :=
  if bytes.length = 0 then p else ⟨p.buf ++ bytes⟩

/-- Longer strings are cut. -/
def writeStringU16 (s : List UInt8) : PacketWriter :=
  let s := if 0xFFFF < s.length then s.take 0xFFFF else s
  (p.writeU16Be (UInt16.ofNat s.length)).writeBytes s

/-- Longer strings are refused. -/
def writeStringU16Checked (s : List UInt8) (maxLen : UInt16) : Bool × PacketWriter :=
  if maxLen.toNat < s.length then (false, p)
  else if 0xFFFF < s.length then (false, p)
  else (true, (p.writeU16Be (UInt16.ofNat s.length)).writeBytes s)

def write : Field → PacketWriter
  | .word (.u8 v) => p.writeU8 v
  | .word (.u16 v) => p.writeU16Be v
  | .word (.u32 v) => p.writeU32Be v
  | .word (.u64 v) => p.writeU64Be v
  | .str s => p.writeStringU16 s.1

def writeAll (fields : List Field) : PacketWriter := fields.foldl write p

/-- The bytes for a reader; a null pointer where there are none. -/
def view : Option (List UInt8) := if p.buf = [] then none else some p.buf

end PacketWriter

structure ByteWriter where
  buf : List UInt8 := []

namespace ByteWriter

variable (p : ByteWriter)

/-- `buf_.push_back`. -/
def push (b : UInt8) : ByteWriter := ⟨p.buf ++ [b]⟩

def writeU8 (v : UInt8) : ByteWriter := p.push v

def writeU16Be (v : UInt16) : ByteWriter :=
  (p.push ((v >>> 8) &&& 0xFF).toUInt8).push ((v >>> 0) &&& 0xFF).toUInt8

def writeU32Be (v : UInt32) : ByteWriter :=
  (((p.push ((v >>> 24) &&& 0xFF).toUInt8).push ((v >>> 16) &&& 0xFF).toUInt8).push
    ((v >>> 8) &&& 0xFF).toUInt8).push ((v >>> 0) &&& 0xFF).toUInt8

def writeU64Be (v : UInt64) : ByteWriter :=
  (((((((p.push ((v >>> 56) &&& 0xFF).toUInt8).push ((v >>> 48) &&& 0xFF).toUInt8).push
    ((v >>> 40) &&& 0xFF).toUInt8).push ((v >>> 32) &&& 0xFF).toUInt8).push
    ((v >>> 24) &&& 0xFF).toUInt8).push ((v >>> 16) &&& 0xFF).toUInt8).push
    ((v >>> 8) &&& 0xFF).toUInt8).push ((v >>> 0) &&& 0xFF).toUInt8

def write : Word → ByteWriter
  | .u8 v => p.writeU8 v
  | .u16 v => p.writeU16Be v
  | .u32 v => p.writeU32Be v
  | .u64 v => p.writeU64Be v

def writeAll (words : List Word) : ByteWriter := words.foldl write p

end ByteWriter

/-! ## Readers -/

structure PacketReader where
  data : List UInt8 := []
  pos : Nat := 0

namespace PacketReader

/-- A view without bytes is read as an empty one, whatever its pointer. -/
def reset (v : Option (List UInt8)) : PacketReader :=
  match v with
  | none => {}
  | some data => if data.length = 0 then {} else { data }

variable (r : PacketReader)

def size : Nat := r.data.length

def remaining : Nat := if r.pos ≤ r.size then r.size - r.pos else 0

def eof : Bool := r.pos = r.size

def skip (n : Nat) : Bool × PacketReader :=
  if r.remaining < n then (false, r) else (true, { r with pos := r.pos + n })

/-- A read of `n` bytes: the guard, the value and the step. -/
def fixed {α : Type} (n : Nat) (load : List UInt8 → α) : Reader PacketReader α := fun r =>
  if r.remaining < n then (none, r)
  else (some (load (r.data.drop r.pos)), { r with pos := r.pos + n })

def readU8 : Reader PacketReader UInt8 := fixed 1 fun data => data.headD 0

def readU16Be : Reader PacketReader UInt16 := fixed 2 loadU16Be

def readU32Be : Reader PacketReader UInt32 := fixed 4 loadU32Be

def readU64Be : Reader PacketReader UInt64 := fixed 8 loadU64Be

def readBytes (n : Nat) : Reader PacketReader { s : List UInt8 // s.length ≤ n } := fixed n (upTo n)

/-- The length stays read where the bytes behind it are not all there. -/
def readStringU16 : Reader PacketReader Str :=
  .bind readU16Be fun len => .map (.ofLen len) (readBytes len.toNat)

def readWord : Width → Reader PacketReader Word
  | .u8 => .map .u8 readU8
  | .u16 => .map .u16 readU16Be
  | .u32 => .map .u32 readU32Be
  | .u64 => .map .u64 readU64Be

def read : FieldType → Reader PacketReader Field
  | .word width => (readWord width).map .word
  | .str => .map .str readStringU16

end PacketReader

/-- A span and an offset into it; sizes and offsets are of type `std::size_t`. -/
structure ByteReader where
  data : List UInt8
  size_lt : data.length < 2 ^ 64
  off : UInt64 := 0

namespace ByteReader

variable (r : ByteReader)

def size : UInt64 := UInt64.ofNat r.data.length

def remaining : UInt64 := r.size - r.off

def atEnd : Bool := r.off = r.size

/-- `ensure_`, in `std::size_t` arithmetic. -/
def ensure (n : UInt64) : Bool := r.off + n ≤ r.size

/-- A read of `n` bytes: the guard, the value and the step. -/
def fixed {α : Type} (n : UInt64) (load : List UInt8 → α) : Reader ByteReader α := fun r =>
  if r.ensure n = true then
    (some (load (r.data.drop r.off.toNat)), { r with off := r.off + n })
  else (none, r)

def readU8 : Reader ByteReader UInt8 := fixed 1 fun data => data.headD 0

def readU16Be : Reader ByteReader UInt16 :=
  fixed 2 fun
    | b₀ :: b₁ :: _ => (b₀.toUInt16 <<< 8) ||| (b₁.toUInt16 <<< 0)
    | _ => 0

def readU32Be : Reader ByteReader UInt32 :=
  fixed 4 fun
    | b₀ :: b₁ :: b₂ :: b₃ :: _ =>
      (b₀.toUInt32 <<< 24) ||| (b₁.toUInt32 <<< 16) ||| (b₂.toUInt32 <<< 8) |||
        (b₃.toUInt32 <<< 0)
    | _ => 0

def readU64Be : Reader ByteReader UInt64 :=
  fixed 8 fun
    | b₀ :: b₁ :: b₂ :: b₃ :: b₄ :: b₅ :: b₆ :: b₇ :: _ =>
      (b₀.toUInt64 <<< 56) ||| (b₁.toUInt64 <<< 48) ||| (b₂.toUInt64 <<< 40) |||
        (b₃.toUInt64 <<< 32) ||| (b₄.toUInt64 <<< 24) ||| (b₅.toUInt64 <<< 16) |||
        (b₆.toUInt64 <<< 8) ||| (b₇.toUInt64 <<< 0)
    | _ => 0

/-- The destination may be a null pointer. -/
def readBytes (null : Bool) (len : UInt64) : Reader ByteReader (List UInt8) := fun r =>
  if len = 0 then (some [], r)
  else if null = true then (none, r)
  else fixed len (fun data => data.take len.toNat) r

def readBytesView (len : UInt64) : Reader ByteReader (List UInt8) :=
  fixed len fun data => data.take len.toNat

def skip (len : UInt64) : Bool × ByteReader :=
  if r.ensure len = true then (true, { r with off := r.off + len }) else (false, r)

def readWord : Width → Reader ByteReader Word
  | .u8 => .map .u8 readU8
  | .u16 => .map .u16 readU16Be
  | .u32 => .map .u32 readU32Be
  | .u64 => .map .u64 readU64Be

end ByteReader

/-! ## What is written -/

def Word.bytes : Word → List UInt8
  | .u8 v => [v]
  | .u16 v => storeU16Be v
  | .u32 v => storeU32Be v
  | .u64 v => storeU64Be v

def Field.bytes : Field → List UInt8
  | .word w => w.bytes
  | .str s => storeU16Be (UInt16.ofNat s.1.length) ++ s.1

namespace PacketWriter

theorem buf_writeBytes (p : PacketWriter) (bytes : List UInt8) :
    (p.writeBytes bytes).buf = p.buf ++ bytes := by
  unfold writeBytes
  split
  next h => rw [List.length_eq_zero_iff.mp h, List.append_nil]
  · rfl

theorem buf_write (p : PacketWriter) (field : Field) :
    (p.write field).buf = p.buf ++ field.bytes := by
  match field with
  | .word (.u8 _) | .word (.u16 _) | .word (.u32 _) | .word (.u64 _) => rfl
  | .str s =>
    rw [write, writeStringU16, if_neg (Nat.not_lt_of_le s.2), buf_writeBytes, writeU16Be,
        List.append_assoc]
    rfl

theorem buf_writeAll (p : PacketWriter) (fields : List Field) :
    (p.writeAll fields).buf = p.buf ++ fields.flatMap Field.bytes := by
  induction fields generalizing p with
  | nil => exact (List.append_nil _).symm
  | cons field fields ih =>
    rw [writeAll, List.foldl_cons, ← writeAll, ih, buf_write, List.flatMap_cons,
      List.append_assoc]

end PacketWriter

namespace ByteWriter

theorem buf_write (p : ByteWriter) (word : Word) : (p.write word).buf = p.buf ++ word.bytes := by
  cases word <;> simp [write, writeU8, writeU16Be, writeU32Be, writeU64Be, push, Word.bytes,
    storeU16Be, storeU32Be, storeU64Be]

theorem buf_writeAll (p : ByteWriter) (words : List Word) :
    (p.writeAll words).buf = p.buf ++ words.flatMap Word.bytes := by
  induction words generalizing p with
  | nil => exact (List.append_nil _).symm
  | cons word words ih =>
    rw [writeAll, List.foldl_cons, ← writeAll, ih, buf_write, List.flatMap_cons,
      List.append_assoc]

end ByteWriter

/-! ## The parsers of the fields -/

def Width.bytes : Width → Nat
  | .u8 => 1
  | .u16 => 2
  | .u32 => 4
  | .u64 => 8

def Word.load : Width → List UInt8 → Word
  | .u8, l => .u8 (l.headD 0)
  | .u16, l => .u16 (loadU16Be l)
  | .u32, l => .u32 (loadU32Be l)
  | .u64, l => .u64 (loadU64Be l)

def Word.parse (width : Width) : Parser UInt8 Word := .fixed width.bytes (Word.load width)

def Str.parse : Parser UInt8 Str :=
  (Parser.fixed 2 loadU16Be).bind fun len =>
    (Parser.fixed len.toNat (upTo len.toNat)).map (.ofLen len)

def Field.parse : FieldType → Parser UInt8 Field
  | .word width => (Word.parse width).map .word
  | .str => Str.parse.map .str

theorem Word.length_bytes (w : Word) : w.bytes.length = w.width.bytes := by
  cases w <;> rfl

theorem Word.load_bytes (w : Word) (rest : List UInt8) :
    Word.load w.width (w.bytes ++ rest) = w := by
  cases w with
  | u8 v => rfl
  | u16 v => exact congrArg Word.u16 (loadU16Be_storeU16Be v rest)
  | u32 v => exact congrArg Word.u32 (loadU32Be_storeU32Be v rest)
  | u64 v => exact congrArg Word.u64 (loadU64Be_storeU64Be v rest)

theorem Word.load_append {width : Width} {l : List UInt8} (more : List UInt8)
    (h : width.bytes ≤ l.length) : Word.load width (l ++ more) = Word.load width l := by
  cases width with
  | u8 =>
    cases l with
    | nil => cases h
    | cons b l => rfl
  | u16 => exact congrArg Word.u16 (loadU16Be_append h more)
  | u32 => exact congrArg Word.u32 (loadU32Be_append h more)
  | u64 => exact congrArg Word.u64 (loadU64Be_append h more)

theorem Word.parse_bytes (w : Word) (rest : List UInt8) :
    Word.parse w.width (w.bytes ++ rest) = some (w, rest) := by
  have hlen : w.width.bytes ≤ (w.bytes ++ rest).length := by
    rw [List.length_append, w.length_bytes]
    exact Nat.le_add_right _ _
  rw [Word.parse, Parser.fixed_of_le hlen, Word.load_bytes, ← w.length_bytes, List.drop_left]

theorem Word.stable_parse (width : Width) : (Word.parse width).Stable :=
  Parser.stable_fixed fun _ more h => Word.load_append more h

theorem Str.parse_bytes (s : Str) (rest : List UInt8) :
    Str.parse (storeU16Be (UInt16.ofNat s.1.length) ++ s.1 ++ rest) = some (s, rest) := by
  have hlen : (UInt16.ofNat s.1.length).toNat = s.1.length :=
    UInt16.toNat_ofNat_of_lt' (Nat.lt_succ_of_le s.2)
  have hfits : (UInt16.ofNat s.1.length).toNat ≤ (s.1 ++ rest).length := by
    rw [hlen, List.length_append]
    exact Nat.le_add_right _ _
  rw [Str.parse, List.append_assoc, Parser.bind_some (Parser.fixed_of_le (by simp)),
    loadU16Be_storeU16Be, List.drop_left' (length_storeU16Be _),
    Parser.map_some _ (Parser.fixed_of_le hfits)]
  refine congrArg some (Prod.ext (Subtype.ext ?_) ?_)
  · change (s.1 ++ rest).take _ = s.1
    rw [hlen, List.take_left]
  · change (s.1 ++ rest).drop _ = rest
    rw [hlen, List.drop_left]

theorem Str.stable_parse : Str.parse.Stable := by
  refine (Parser.stable_fixed fun _ more h => loadU16Be_append h more).bind fun len => ?_
  refine (Parser.stable_fixed fun l more h => Subtype.ext ?_).map
  exact List.take_append_of_le_length h

theorem Field.parse_bytes (field : Field) (rest : List UInt8) :
    Field.parse field.type (field.bytes ++ rest) = some (field, rest) := by
  cases field with
  | word w => exact congrArg (Option.map (Prod.map Field.word id)) (w.parse_bytes rest)
  | str s => exact congrArg (Option.map (Prod.map Field.str id)) (s.parse_bytes rest)

theorem Field.stable_parse (type : FieldType) : (Field.parse type).Stable := by
  cases type with
  | word width => exact (Word.stable_parse width).map
  | str => exact Str.stable_parse.map

/-! ## The readers implement the parsers -/

namespace PacketReader

/-- The bytes ahead. -/
def rest (r : PacketReader) : List UInt8 := r.data.drop r.pos

/-- Not behind the end. -/
def Within (r : PacketReader) : Prop := r.pos ≤ r.size

theorem remaining_eq (r : PacketReader) : r.remaining = r.rest.length := by
  rw [remaining, rest, List.length_drop]
  split
  · rfl
  next h => exact (Nat.sub_eq_zero_of_le (Nat.le_of_not_le h)).symm

theorem rest_reset (data : List UInt8) : (reset (some data)).rest = data := by
  cases data <;> rfl

theorem within_reset (data : List UInt8) : (reset (some data)).Within := by
  cases data <;> exact Nat.zero_le _

variable {α γ : Type} {n : Nat} {load : List UInt8 → α}

def advance (r : PacketReader) (n : Nat) : PacketReader := { r with pos := r.pos + n }

theorem rest_advance (r : PacketReader) (n : Nat) : (r.advance n).rest = r.rest.drop n :=
  (List.drop_drop ..).symm

theorem remaining_advance (r : PacketReader) (n : Nat) :
    (r.advance n).remaining = r.remaining - n := by
  rw [remaining_eq, remaining_eq, rest_advance, List.length_drop]

theorem fixed_of_le {r : PacketReader} (h : n ≤ r.remaining) :
    fixed n load r = (some (load r.rest), r.advance n) :=
  if_neg (Nat.not_lt_of_le h)

theorem fixed_of_lt {r : PacketReader} (h : r.remaining < n) : fixed n load r = (none, r) :=
  if_pos h

theorem follows_fixed : Follows rest Within (fixed n load) (.fixed n load) := by
  intro r a l hgood hp
  obtain ⟨hle, rfl, rfl⟩ := Parser.of_fixed hp
  refine ⟨r.advance n, ?_, ?_, ?_⟩
  · exact fixed_of_le (r.remaining_eq ▸ hle)
  · exact rest_advance r n
  · rw [rest, List.length_drop] at hle
    exact Nat.add_le_of_le_sub' hgood hle

theorem refuses_fixed : Refuses rest Within (fixed n load) (.fixed n load) := by
  intro r _ hp
  have hlt : r.remaining < n := r.remaining_eq ▸ Parser.lt_of_fixed hp
  rw [fixed_of_lt hlt]

theorem map_fixed (f : α → γ) : (fixed n load).map f = fixed n (f ∘ load) := by
  funext r
  rw [Reader.map, fixed, fixed]
  split <;> rfl

theorem readWord_eq (width : Width) : readWord width = fixed width.bytes (Word.load width) := by
  cases width <;> exact map_fixed _

theorem follows_read (type : FieldType) : Follows rest Within (read type) (Field.parse type) := by
  cases type with
  | word width =>
    rw [read, readWord_eq]
    exact follows_fixed.map Field.word
  | str =>
    refine Follows.map ?_ Field.str
    exact follows_fixed.bind fun len => follows_fixed.map _

theorem refuses_read (type : FieldType) : Refuses rest Within (read type) (Field.parse type) := by
  cases type with
  | word width =>
    rw [read, readWord_eq]
    exact refuses_fixed.map Field.word
  | str =>
    refine Refuses.map ?_ Field.str
    exact refuses_fixed.bind follows_fixed fun len => refuses_fixed.map _

end PacketReader

namespace ByteReader

/-- The bytes ahead. -/
def rest (r : ByteReader) : List UInt8 := r.data.drop r.off.toNat

/-- Not behind the end, and `n` bytes behind the end are still no wrap. -/
def Clear (n : Nat) (r : ByteReader) : Prop :=
  r.off.toNat ≤ r.data.length ∧ r.data.length + n < 2 ^ 64

theorem toNat_size (r : ByteReader) : r.size.toNat = r.data.length :=
  UInt64.toNat_ofNat_of_lt' r.size_lt

theorem ensure_iff (r : ByteReader) (n : UInt64) :
    r.ensure n = true ↔ (r.off.toNat + n.toNat) % 2 ^ 64 ≤ r.data.length := by
  rw [ensure, decide_eq_true_iff, UInt64.le_iff_toNat_le, UInt64.toNat_add, toNat_size]

variable {α γ : Type} {n : UInt64} {load : List UInt8 → α} {k : Nat}

theorem follows_fixed : Follows rest (Clear k) (fixed n load) (.fixed n.toNat load) := by
  intro r a l hgood hp
  obtain ⟨hle, rfl, rfl⟩ := Parser.of_fixed hp
  rw [rest, List.length_drop] at hle
  have hsum : r.off.toNat + n.toNat ≤ r.data.length := Nat.add_le_of_le_sub' hgood.1 hle
  -- the sum is within the data, which is within the machine's range
  have hmod : (r.off.toNat + n.toNat) % 2 ^ 64 = r.off.toNat + n.toNat :=
    Nat.mod_eq_of_lt (hsum.trans_lt r.size_lt)
  refine ⟨{ r with off := r.off + n }, ?_, ?_, ?_, hgood.2⟩
  · exact if_pos ((r.ensure_iff n).mpr (hmod.symm ▸ hsum))
  · rw [rest, rest, UInt64.toNat_add, hmod, List.drop_drop]
  · rw [UInt64.toNat_add, hmod]
    exact hsum

theorem refuses_fixed (hn : n.toNat ≤ k) :
    Refuses rest (Clear k) (fixed n load) (.fixed n.toNat load) := by
  intro r hgood hp
  have hlt := Parser.lt_of_fixed hp
  rw [rest, List.length_drop] at hlt
  have hmod : (r.off.toNat + n.toNat) % 2 ^ 64 = r.off.toNat + n.toNat :=
    Nat.mod_eq_of_lt ((Nat.add_le_add hgood.1 hn).trans_lt hgood.2)
  have hshort : ¬ r.ensure n = true := by
    rw [ensure_iff, hmod]
    exact Nat.not_le_of_lt (Nat.sub_lt_iff_lt_add' hgood.1 |>.mp hlt)
  rw [fixed, if_neg hshort]

theorem map_fixed (f : α → γ) : (fixed n load).map f = fixed n (f ∘ load) := by
  funext r
  rw [Reader.map, fixed, fixed]
  split <;> rfl

section

variable (width : Width)

/-- The two codecs load alike. -/
theorem readWord_eq : readWord width = fixed (UInt64.ofNat width.bytes) (Word.load width) := by
  cases width <;> exact map_fixed _

theorem toNat_bytes : (UInt64.ofNat width.bytes).toNat = width.bytes := by
  cases width <;> rfl

theorem bytes_le : width.bytes ≤ 8 := by
  cases width <;> decide

theorem follows_readWord : Follows rest (Clear k) (readWord width) (Word.parse width) := by
  have h : Follows rest (Clear k) (readWord width)
      (.fixed (UInt64.ofNat width.bytes).toNat (Word.load width)) :=
    readWord_eq width ▸ follows_fixed
  rwa [toNat_bytes] at h

theorem refuses_readWord : Refuses rest (Clear 8) (readWord width) (Word.parse width) := by
  have hn : (UInt64.ofNat width.bytes).toNat ≤ 8 := (toNat_bytes width).trans_le (bytes_le width)
  have h : Refuses rest (Clear 8) (readWord width)
      (.fixed (UInt64.ofNat width.bytes).toNat (Word.load width)) :=
    readWord_eq width ▸ refuses_fixed hn
  rwa [toNat_bytes] at h

end

end ByteReader

/-! ## Round trips -/

theorem parse_fields (fields : List Field) :
    Parser.all Field.parse (fields.map Field.type) (fields.flatMap Field.bytes) =
      some (fields, []) := by
  have h := Parser.all_of_each Field.parse_bytes fields []
  rwa [List.append_nil] at h

theorem parse_words (words : List Word) :
    Parser.all Word.parse (words.map Word.width) (words.flatMap Word.bytes) =
      some (words, []) := by
  have h := Parser.all_of_each Word.parse_bytes words []
  rwa [List.append_nil] at h

theorem PacketReader.reset_view (p : PacketWriter) : reset p.view = reset (some p.buf) := by
  rw [PacketWriter.view]
  split
  next h => rw [h]; rfl
  · rfl

theorem PacketReader.eof_of_rest {r : PacketReader} (hwithin : r.Within) (h : r.rest = []) :
    r.eof = true :=
  decide_eq_true (Nat.le_antisymm hwithin (List.drop_eq_nil_iff.mp h))

theorem ByteReader.atEnd_of_rest {r : ByteReader} {k : Nat} (hclear : r.Clear k)
    (h : r.rest = []) : r.atEnd = true := by
  refine decide_eq_true (UInt64.toNat_inj.mp ?_)
  rw [toNat_size]
  exact Nat.le_antisymm hclear.1 (List.drop_eq_nil_iff.mp h)

/-- What a `PacketWriter` writes, a `PacketReader` reads back to the end, and no strict prefix of it
is read; a `ByteWriter` writes the same bytes for integers, and a `ByteReader` reads them back
too. -/
theorem codec_round_trip (fields : List Field) (words : List Word) :
    let bytes := (PacketWriter.writeAll {} fields).buf
    let ints := (PacketWriter.writeAll {} (words.map .word)).buf
    let packet := Reader.all PacketReader.read (fields.map Field.type)
    let engine := Reader.all ByteReader.readWord (words.map Word.width)
    (∃ r, packet (.reset (PacketWriter.writeAll {} fields).view) = (some fields, r) ∧
      r.eof = true) ∧
    (∀ n < bytes.length, (packet (.reset (some (bytes.take n)))).1 = none) ∧
    (ByteWriter.writeAll {} words).buf = ints ∧
    (∀ h : ints.length < 2 ^ 64,
      ∃ r, engine { data := ints, size_lt := h } = (some words, r) ∧ r.atEnd = true) ∧
    (∀ n < ints.length, ∀ h : (ints.take n).length < 2 ^ 64, ints.length + 8 ≤ 2 ^ 64 →
      (engine { data := ints.take n, size_lt := h }).1 = none) := by
  intro bytes ints packet engine
  have hbytes : bytes = fields.flatMap Field.bytes := PacketWriter.buf_writeAll {} fields
  have hints : ints = words.flatMap Word.bytes :=
    (PacketWriter.buf_writeAll {} (words.map .word)).trans (List.flatMap_map ..)
  have hpacket : Parser.all Field.parse (fields.map Field.type) bytes = some (fields, []) :=
    hbytes ▸ parse_fields fields
  have hengine : Parser.all Word.parse (words.map Word.width) ints = some (words, []) :=
    hints ▸ parse_words words
  refine ⟨?_, ?_, ?_, ?_, ?_⟩
  · rw [PacketReader.reset_view]
    obtain ⟨r, hread, hrest, hwithin⟩ := follows_all PacketReader.follows_read _ _ _ _
      (PacketReader.within_reset bytes) ((PacketReader.rest_reset bytes).symm ▸ hpacket)
    exact ⟨r, hread, PacketReader.eof_of_rest hwithin hrest⟩
  · intro n hn
    have hnone := (Parser.stable_all Field.stable_parse _).take_eq_none hpacket hn
    exact refuses_all PacketReader.follows_read PacketReader.refuses_read _ _
      (PacketReader.within_reset _) ((PacketReader.rest_reset (bytes.take n)).symm ▸ hnone)
  · exact (ByteWriter.buf_writeAll {} words).trans hints.symm
  · intro h
    obtain ⟨r, hread, hrest, hclear⟩ := follows_all ByteReader.follows_readWord _
      { data := ints, size_lt := h } _ _ (show ByteReader.Clear 0 _ from ⟨Nat.zero_le _, h⟩) hengine
    exact ⟨r, hread, ByteReader.atEnd_of_rest hclear hrest⟩
  · intro n hn h hroom
    have hnone := (Parser.stable_all Word.stable_parse _).take_eq_none hengine hn
    have hclear : ByteReader.Clear 8 { data := ints.take n, size_lt := h } := by
      refine ⟨Nat.zero_le _, ?_⟩
      rw [List.length_take_of_le hn.le]
      exact (Nat.add_lt_add_right hn 8).trans_le hroom
    exact refuses_all ByteReader.follows_readWord ByteReader.refuses_readWord _ _ hclear hnone

/-! ## Lengths near the end of the machine's range -/

/-- A read of a `ByteReader` with the length its caller gives; the destination is not null. -/
inductive ReadCall where
  | readU8
  | readU16Be
  | readU32Be
  | readU64Be
  | readBytes (len : UInt64)
  | readBytesView (len : UInt64)
  | skip (len : UInt64)
deriving DecidableEq, Repr

namespace ReadCall

def len : ReadCall → UInt64
  | readU8 => 1
  | readU16Be => 2
  | readU32Be => 4
  | readU64Be => 8
  | readBytes len => len
  | readBytesView len | skip len => len

end ReadCall

/-- Whether the call succeeds, and the reader after it. -/
def ByteReader.call (r : ByteReader) : ReadCall → Bool × ByteReader
  | .readU8 => Prod.map Option.isSome id r.readU8
  | .readU16Be => Prod.map Option.isSome id r.readU16Be
  | .readU32Be => Prod.map Option.isSome id r.readU32Be
  | .readU64Be => Prod.map Option.isSome id r.readU64Be
  | .readBytes len => Prod.map Option.isSome id (r.readBytes false len)
  | .readBytesView len => Prod.map Option.isSome id (r.readBytesView len)
  | .skip len => r.skip len

/-- The same call of a `PacketReader`, whose `readBytes` is a view. -/
def PacketReader.call (r : PacketReader) : ReadCall → Bool × PacketReader
  | .readU8 => Prod.map Option.isSome id r.readU8
  | .readU16Be => Prod.map Option.isSome id r.readU16Be
  | .readU32Be => Prod.map Option.isSome id r.readU32Be
  | .readU64Be => Prod.map Option.isSome id r.readU64Be
  | .readBytes len | .readBytesView len => Prod.map Option.isSome id (r.readBytes len.toNat)
  | .skip len => r.skip len.toNat

/-- The `PacketReader` at the same place. -/
def ByteReader.packet (r : ByteReader) : PacketReader := { data := r.data, pos := r.off.toNat }

def ByteReader.calls (r : ByteReader) (cs : List ReadCall) : ByteReader :=
  cs.foldl (fun r c => (r.call c).2) r

theorem PacketReader.call_eq (r : PacketReader) (c : ReadCall) :
    r.call c = r.skip c.len.toNat := by
  have hfixed {α : Type} (n : Nat) (load : List UInt8 → α) :
      Prod.map Option.isSome id (fixed n load r) = r.skip n := by
    unfold fixed skip
    split <;> rfl
  cases c with
  | readU8 => rw [call, readU8, hfixed]; rfl
  | readU16Be => rw [call, readU16Be, hfixed]; rfl
  | readU32Be => rw [call, readU32Be, hfixed]; rfl
  | readU64Be => rw [call, readU64Be, hfixed]; rfl
  | readBytes len | readBytesView len => exact hfixed len.toNat _
  | skip len => rfl

namespace ByteReader

/-- All calls guard and step alike; a `readBytes` of nothing does not even look. -/
theorem call_eq {r : ByteReader} (hwithin : r.off.toNat ≤ r.data.length) (c : ReadCall) :
    r.call c = r.skip c.len := by
  have hfixed {α : Type} (n : UInt64) (load : List UInt8 → α) :
      Prod.map Option.isSome id (fixed n load r) = r.skip n := by
    unfold fixed skip
    split <;> rfl
  cases c with
  | readU8 => rw [call, readU8, hfixed]; rfl
  | readU16Be => rw [call, readU16Be, hfixed]; rfl
  | readU32Be => rw [call, readU32Be, hfixed]; rfl
  | readU64Be => rw [call, readU64Be, hfixed]; rfl
  | readBytes len =>
    by_cases hlen : len = 0
    · have hensure : r.ensure 0 = true := by
        rw [ensure_iff, UInt64.toNat_zero, Nat.add_zero, Nat.mod_eq_of_lt r.off.toNat_lt]
        exact hwithin
      rw [call, readBytes, if_pos hlen, ReadCall.len, hlen, skip, if_pos hensure, UInt64.add_zero]
      rfl
    · rw [call, readBytes, if_neg hlen, if_neg Bool.false_ne_true]
      exact hfixed len _
  | readBytesView len => exact hfixed len _
  | skip len => rfl

theorem within_skip {r : ByteReader} (h : r.off.toNat ≤ r.data.length) (n : UInt64) :
    (r.skip n).2.off.toNat ≤ (r.skip n).2.data.length := by
  unfold skip
  split
  next hensure =>
    rw [ensure_iff, ← UInt64.toNat_add] at hensure
    exact hensure
  · exact h

/-- Whatever the lengths, the offset stays within the data. -/
theorem within_calls {r : ByteReader} (h : r.off.toNat ≤ r.data.length) (cs : List ReadCall) :
    (r.calls cs).off.toNat ≤ (r.calls cs).data.length := by
  refine foldl_invariant (I := fun r => r.off.toNat ≤ r.data.length) ?_ r h cs
  intro r c h
  rw [call_eq h]
  exact within_skip h c.len

section Skip

variable {r : ByteReader} {n : UInt64} (h : r.off.toNat ≤ r.data.length)

include h

theorem le_remaining_iff : n ≤ r.remaining ↔ r.off.toNat + n.toNat ≤ r.data.length := by
  have hle : r.off ≤ r.size := UInt64.le_iff_toNat_le.mpr (r.toNat_size ▸ h)
  rw [UInt64.le_iff_toNat_le, remaining, UInt64.toNat_sub_of_le _ _ hle, toNat_size]
  exact Nat.le_sub_iff_add_le' h

theorem skip_of_clear (hclear : r.off.toNat + n.toNat < 2 ^ 64) :
    r.off ≤ (r.skip n).2.off ∧ ((r.skip n).1 = true ↔ n ≤ r.remaining) ∧
      r.packet.skip n.toNat = ((r.skip n).1, (r.skip n).2.packet) := by
  have hadd : (r.off + n).toNat = r.off.toNat + n.toNat := by
    rw [UInt64.toNat_add, Nat.mod_eq_of_lt hclear]
  have hensure : r.ensure n = true ↔ r.off.toNat + n.toNat ≤ r.data.length := by
    rw [ensure_iff, Nat.mod_eq_of_lt hclear]
  have hremaining : r.packet.remaining < n.toNat ↔ ¬ r.ensure n = true := by
    rw [hensure, PacketReader.remaining, if_pos (show r.packet.pos ≤ r.packet.size from h),
      Nat.not_le]
    exact Nat.sub_lt_iff_lt_add' h
  rw [le_remaining_iff h, ← hensure, PacketReader.skip, skip]
  by_cases he : r.ensure n = true
  · rw [if_pos he, if_neg (fun hlt => hremaining.mp hlt he)]
    refine ⟨UInt64.le_iff_toNat_le.mpr (hadd ▸ Nat.le_add_right _ _),
      ⟨fun _ => he, fun _ => rfl⟩, ?_⟩
    rw [packet, packet, hadd]
  · rw [if_neg he, if_pos (hremaining.mpr he)]
    exact ⟨UInt64.le_refl _, ⟨fun hf => absurd hf Bool.false_ne_true, fun hp => absurd hp he⟩, rfl⟩

/-- A sum that wraps is always within the data, and behind the offset. -/
theorem skip_of_wrap (hwrap : 2 ^ 64 ≤ r.off.toNat + n.toNat) :
    (r.skip n).2.off < r.off := by
  have hn := n.toNat_lt
  have hoff := r.off.toNat_lt
  have hmod : (r.off.toNat + n.toNat) % 2 ^ 64 < r.off.toNat := by omega
  have hensure : r.ensure n = true := (r.ensure_iff n).mpr (hmod.le.trans h)
  rw [skip, if_pos hensure, UInt64.lt_iff_toNat_lt, UInt64.toNat_add]
  exact hmod

end Skip

end ByteReader

/-- After any calls with any lengths the offset is within the data.  The next call does not move it
back, succeeds exactly for a length that remains and does what a `PacketReader` does, exactly if
the sum that guards it does not wrap. -/
theorem reader_bounds_iff (data : List UInt8) (size_lt : data.length < 2 ^ 64)
    (cs : List ReadCall) (c : ReadCall) :
    let r := ByteReader.calls { data, size_lt } cs
    r.off ≤ r.size ∧
    ((r.off ≤ (r.call c).2.off ∧ ((r.call c).1 = true ↔ c.len ≤ r.remaining) ∧
        r.packet.call c = ((r.call c).1, (r.call c).2.packet)) ↔
      r.off.toNat + c.len.toNat < 2 ^ 64) := by
  intro r
  have hwithin : r.off.toNat ≤ r.data.length := ByteReader.within_calls (Nat.zero_le _) cs
  refine ⟨UInt64.le_iff_toNat_le.mpr (r.toNat_size ▸ hwithin), ?_⟩
  rw [PacketReader.call_eq, ByteReader.call_eq hwithin]
  constructor
  · rintro ⟨hle, -⟩
    by_contra hwrap
    exact absurd (ByteReader.skip_of_wrap hwithin (Nat.le_of_not_lt hwrap)) (UInt64.not_lt.mpr hle)
  · exact ByteReader.skip_of_clear hwithin

theorem reader_bounds_iff_sample :
    let r := ByteReader.calls { data := [7, 8], size_lt := by decide } [.readU8]
    r.off ≤ r.size ∧
    ((r.off ≤ (r.call (.skip 1)).2.off ∧ ((r.call (.skip 1)).1 = true ↔ 1 ≤ r.remaining) ∧
        r.packet.call (.skip 1) = ((r.call (.skip 1)).1, (r.call (.skip 1)).2.packet)) ↔
      r.off.toNat + 1 < 2 ^ 64) :=
  reader_bounds_iff [7, 8] (by decide) [.readU8] (.skip 1)

/-- After one byte, a skip of `2 ^ 64 - 1` bytes of nothing succeeds and goes back to the start. -/
theorem skip_rewinds :
    let r := ByteReader.calls { data := [7], size_lt := by decide } [.readU8]
    r.off = 1 ∧ r.remaining = 0 ∧ (r.call (.skip 0xFFFFFFFFFFFFFFFF)).1 = true ∧
      (r.call (.skip 0xFFFFFFFFFFFFFFFF)).2.off = 0 ∧
      (r.packet.call (.skip 0xFFFFFFFFFFFFFFFF)).1 = false := by
  decide

/-! ## Failed reads -/

/-- A read of a `PacketReader`. -/
inductive PacketRead where
  | call (c : ReadCall)
  | readStringU16
deriving DecidableEq, Repr

/-- Whether the read succeeds, and the reader after it. -/
def PacketReader.attempt (r : PacketReader) : PacketRead → Bool × PacketReader
  | .call c => r.call c
  | .readStringU16 => Prod.map Option.isSome id r.readStringU16

namespace PacketReader

variable {r : PacketReader}

/-- A length field is ahead, and it announces more bytes than there are behind it. -/
def CutShort (r : PacketReader) : Prop :=
  2 ≤ r.remaining ∧ r.remaining < 2 + (loadU16Be r.rest).toNat

/-- The guard comes before the step. -/
theorem skip_of_false {n : Nat} (h : (r.skip n).1 = false) : (r.skip n).2 = r := by
  unfold skip at h ⊢
  split at h
  next hlt => rw [if_pos hlt]
  · cases h

theorem skip_eq_false_iff {n : Nat} : (r.skip n).1 = false ↔ r.remaining < n := by
  unfold skip
  split
  next hlt => exact iff_of_true rfl hlt
  next hle => exact iff_of_false Bool.false_ne_true.symm hle

/-- The length is taken in a step of its own. -/
theorem attempt_readStringU16 (h : 2 ≤ r.remaining) :
    r.attempt .readStringU16 = (r.advance 2).skip (loadU16Be r.rest).toNat := by
  rw [attempt, readStringU16, Reader.bind, readU16Be, fixed_of_le h]
  dsimp only
  rw [Reader.map, readBytes]
  unfold fixed skip
  split <;> rfl

theorem attempt_of_short (h : r.remaining < 2) : r.attempt .readStringU16 = (false, r) := by
  rw [attempt, readStringU16, Reader.bind, readU16Be, fixed_of_lt h]
  rfl

end PacketReader

/-- A read that fails leaves the reader where it is, exactly unless it is the read of a string that
is cut short. -/
theorem failed_read_stays_iff (r : PacketReader) (op : PacketRead) :
    ((r.attempt op).1 = false →
        (r.attempt op).2.pos = r.pos ∧ (r.attempt op).2.rest = r.rest) ↔
      ¬ (op = .readStringU16 ∧ r.CutShort) := by
  cases op with
  | call c =>
    refine iff_of_true ?_ (fun h => by cases h.1)
    rw [PacketReader.attempt, PacketReader.call_eq]
    intro h
    rw [PacketReader.skip_of_false h]
    exact ⟨rfl, rfl⟩
  | readStringU16 =>
    rcases Nat.lt_or_ge r.remaining 2 with hshort | hlen
    · refine iff_of_true ?_ (fun h => absurd h.2.1 (Nat.not_le_of_lt hshort))
      intro _
      rw [PacketReader.attempt_of_short hshort]
      exact ⟨rfl, rfl⟩
    · rw [PacketReader.attempt_readStringU16 hlen]
      have hbehind := r.remaining_advance 2
      constructor
      · rintro hstays ⟨-, -, hcut⟩
        -- the length is behind the reader, and its bytes are not there
        have hlt : (r.advance 2).remaining < (loadU16Be r.rest).toNat := by omega
        have hfalse := PacketReader.skip_eq_false_iff.mpr hlt
        have hpos := (hstays hfalse).1
        rw [PacketReader.skip_of_false hfalse] at hpos
        exact absurd hpos (Nat.ne_of_gt (Nat.lt_add_of_pos_right Nat.two_pos))
      · intro hwhole hfalse
        refine absurd ⟨rfl, hlen, ?_⟩ hwhole
        have hlt := PacketReader.skip_eq_false_iff.mp hfalse
        omega

/-- A string of five bytes that are not there: its length field is gone after the refusal. -/
theorem refused_string_moves :
    let r := PacketReader.reset (some [0, 5])
    (r.attempt .readStringU16).1 = false ∧ r.pos = 0 ∧ (r.attempt .readStringU16).2.pos = 2 ∧
      (r.attempt (.call .readU16Be)).1 = true ∧
      ((r.attempt .readStringU16).2.attempt (.call .readU16Be)).1 = false := by
  decide

end HyperNet.Protocol
