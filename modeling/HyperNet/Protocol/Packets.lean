import HyperNet.Protocol.Codec

/-!
# The packets of the application

The packets of the trading domain (`FepPackets.hpp`) and the notices of the framework
(`Builders.hpp`, `Parsers.hpp`), with the reads as they are written: some look at what remains
before they read, some at every single read, and some at none after the first look.

A strict parser reads a packet from a body and then asks for its end.  For each type it is the
parser of one `Format` (`PacketType.parse_eq`), so that the round trips are those of formats.
-/

namespace HyperNet.Protocol

open HyperNet.Parsing

/-- An enumeration over a byte: any byte is a value of it. -/
structure PeerRole where
  byte : UInt8
deriving DecidableEq, Repr

namespace PeerRole

def Client : PeerRole := ⟨1⟩
def Gateway : PeerRole := ⟨2⟩
def Exchange : PeerRole := ⟨3⟩

end PeerRole

structure HelloResult where
  byte : UInt8
deriving DecidableEq, Repr

namespace HelloResult

def Ok : HelloResult := ⟨0⟩
def Reject : HelloResult := ⟨1⟩

end HelloResult

/-- The value of a read that is not asked whether it succeeds: a variable that is not read keeps
what it had. -/
def kept {α : Type} (old : α) (result : Option α × PacketReader) : α × PacketReader :=
  (result.1.getD old, result.2)

/-! ## Handshake -/

structure RoleHelloReqPkt where
  role : PeerRole := .Client
deriving DecidableEq, Repr

namespace RoleHelloReqPkt

def kReserveBytes : Nat := 4

def read (pkt : RoleHelloReqPkt) : Reader PacketReader RoleHelloReqPkt := fun r =>
  if r.remaining < kReserveBytes then (none, r)
  else
    match r.readU8 with
    | (none, r) => (none, r)
    | (some temp, r) =>
      let pkt := { pkt with role := ⟨temp⟩ }
      match r.skip 3 with
      | (false, r) => (none, r)
      | (true, r) => (some pkt, r)

def write (pkt : RoleHelloReqPkt) (w : PacketWriter) : PacketWriter :=
  ((w.writeU8 pkt.role.byte).writeU8 0).writeU16Be 0

end RoleHelloReqPkt

structure RoleHelloAckPkt where
  result : HelloResult := .Reject
  role : PeerRole := .Client
deriving DecidableEq, Repr

namespace RoleHelloAckPkt

def kReserveBytes : Nat := 4

def read (pkt : RoleHelloAckPkt) : Reader PacketReader RoleHelloAckPkt := fun r =>
  if r.remaining < kReserveBytes then (none, r)
  else
    match r.readU8 with
    | (none, r) => (none, r)
    | (some temp, r) =>
      let pkt := { pkt with result := ⟨temp⟩ }
      match r.readU8 with
      | (none, r) => (none, r)
      | (some temp, r) =>
        let pkt := { pkt with role := ⟨temp⟩ }
        match r.skip 2 with
        | (false, r) => (none, r)
        | (true, r) => (some pkt, r)

def write (pkt : RoleHelloAckPkt) (w : PacketWriter) : PacketWriter :=
  ((w.writeU8 pkt.result.byte).writeU8 pkt.role.byte).writeU16Be 0

end RoleHelloAckPkt

/-! ## Measurements -/

/-- The fields of a `PerfPingPkt` and of a `PerfPongPkt`. -/
structure PerfPkt where
  client_sid : UInt64 := 0
  seq : UInt64 := 0
  t1 : UInt64 := 0
  t2 : UInt64 := 0
  t3 : UInt64 := 0
  t4 : UInt64 := 0
deriving DecidableEq, Repr

namespace PerfPkt

def write (pkt : PerfPkt) (w : PacketWriter) : PacketWriter :=
  (((((w.writeU64Be pkt.client_sid).writeU64Be pkt.seq).writeU64Be pkt.t1).writeU64Be
    pkt.t2).writeU64Be pkt.t3).writeU64Be pkt.t4

/-- After the first look no read is asked whether it succeeds. -/
def read (pkt : PerfPkt) : Reader PacketReader PerfPkt := fun r =>
  if r.remaining < 48 then (none, r)
  else
    let (client_sid, r) := kept pkt.client_sid r.readU64Be
    let (seq, r) := kept pkt.seq r.readU64Be
    let (t1, r) := kept pkt.t1 r.readU64Be
    let (t2, r) := kept pkt.t2 r.readU64Be
    let (t3, r) := kept pkt.t3 r.readU64Be
    let (t4, r) := kept pkt.t4 r.readU64Be
    (some { client_sid, seq, t1, t2, t3, t4 }, r)

end PerfPkt

abbrev PerfPingPkt := PerfPkt

namespace PerfPingPkt

def write : PerfPingPkt → PacketWriter → PacketWriter := PerfPkt.write

def read : PerfPingPkt → Reader PacketReader PerfPingPkt := PerfPkt.read

end PerfPingPkt

abbrev PerfPongPkt := PerfPkt

namespace PerfPongPkt

def write : PerfPongPkt → PacketWriter → PacketWriter := PerfPkt.write

def read : PerfPongPkt → Reader PacketReader PerfPongPkt := PerfPkt.read

end PerfPongPkt

/-- The parse in `registerPacketHandlerCtx`: a packet is read into a fresh one, and a strict parse
asks for the end. -/
def parsePacket {α : Type} (read : α → Reader PacketReader α) (fresh : α) (strict : Bool)
    (raw : Option (List UInt8)) : Option α :=
  match read fresh (.reset raw) with
  | (none, _) => none
  | (some pkt, r) => if (! strict || r.eof) = true then some pkt else none

/-! ## Notices of the framework -/

structure EnterNotify where
  sid : UInt64 := 0
deriving DecidableEq, Repr

structure LeaveNotify where
  sid : UInt64 := 0
deriving DecidableEq, Repr

structure TopicMoveAck where
  world : UInt32 := 0
  channel : UInt32 := 0
deriving DecidableEq, Repr

def buildEnterNotify (sid : UInt64) : PacketWriter := PacketWriter.writeU64Be {} sid

def buildLeaveNotify (sid : UInt64) : PacketWriter := PacketWriter.writeU64Be {} sid

def buildTopicMoveAck (world channel : UInt32) : PacketWriter :=
  (PacketWriter.writeU32Be {} world).writeU32Be channel

/-- `r.expectEnd()` after the reads. -/
def expectEnd {α : Type} : Option α × PacketReader → Option α
  | (none, _) => none
  | (some a, r) => if r.eof = true then some a else none

def parseEnterNotify (body : Option (List UInt8)) : Option EnterNotify :=
  expectEnd (Reader.map (fun sid => { sid }) PacketReader.readU64Be (.reset body))

def parseLeaveNotify (body : Option (List UInt8)) : Option LeaveNotify :=
  expectEnd (Reader.map (fun sid => { sid }) PacketReader.readU64Be (.reset body))

def parseTopicMoveAck (body : Option (List UInt8)) : Option TopicMoveAck :=
  let read := Reader.bind PacketReader.readU32Be fun world =>
    Reader.map (fun channel => { world, channel }) PacketReader.readU32Be
  expectEnd (read (.reset body))

/-! ## The types of packets -/

inductive PacketType where
  | roleHelloReq
  | roleHelloAck
  | perfPing
  | perfPong
  | enterNotify
  | leaveNotify
  | topicMoveAck
deriving DecidableEq, Repr

namespace PacketType

/-- The values of the fields. -/
def Value : PacketType → Type
  | roleHelloReq => RoleHelloReqPkt
  | roleHelloAck => RoleHelloAckPkt
  | perfPing => PerfPingPkt
  | perfPong => PerfPongPkt
  | enterNotify => EnterNotify
  | leaveNotify => LeaveNotify
  | topicMoveAck => TopicMoveAck

/-- The body as it is sent. -/
def write : (type : PacketType) → type.Value → PacketWriter
  | roleHelloReq, pkt => RoleHelloReqPkt.write pkt {}
  | roleHelloAck, pkt => RoleHelloAckPkt.write pkt {}
  | perfPing, pkt => PerfPingPkt.write pkt {}
  | perfPong, pkt => PerfPongPkt.write pkt {}
  | enterNotify, pkt => buildEnterNotify (EnterNotify.sid pkt)
  | leaveNotify, pkt => buildLeaveNotify (LeaveNotify.sid pkt)
  | topicMoveAck, pkt => buildTopicMoveAck (TopicMoveAck.world pkt) (TopicMoveAck.channel pkt)

/-- The strict parse of a body. -/
def parse : (type : PacketType) → Option (List UInt8) → Option type.Value
  | roleHelloReq => parsePacket RoleHelloReqPkt.read {} true
  | roleHelloAck => parsePacket RoleHelloAckPkt.read {} true
  | perfPing => parsePacket PerfPingPkt.read {} true
  | perfPong => parsePacket PerfPongPkt.read {} true
  | enterNotify => parseEnterNotify
  | leaveNotify => parseLeaveNotify
  | topicMoveAck => parseTopicMoveAck

def length : PacketType → Nat
  | roleHelloReq | roleHelloAck => 4
  | perfPing | perfPong => 48
  | enterNotify | leaveNotify | topicMoveAck => 8

/-- The places of the bytes that are not looked at. -/
def padding : PacketType → List Nat
  | roleHelloReq => [1, 2, 3]
  | roleHelloAck => [2, 3]
  | _ => []

/-- A body with its padding as it is written. -/
def blanked (type : PacketType) (body : List UInt8) : List UInt8 :=
  body.mapIdx fun i b => if i ∈ type.padding then 0 else b

end PacketType

/-! ## Formats of the fields -/

namespace Field

def u8 : Format UInt8 UInt8 where
  length := 1
  bytes v := [v]
  load l := l.headD 0
  blank := id
  length_bytes _ := rfl
  load_append l more h := by
    obtain ⟨b, rfl⟩ := List.length_eq_one_iff.mp h
    rfl
  load_bytes _ := rfl
  bytes_load l h := by
    obtain ⟨b, rfl⟩ := List.length_eq_one_iff.mp h
    rfl

def u32 : Format UInt8 UInt32 where
  length := 4
  bytes := storeU32Be
  load := loadU32Be
  blank := id
  length_bytes _ := rfl
  load_append l more h := loadU32Be_append h.ge more
  load_bytes v := by
    have h := loadU32Be_storeU32Be v []
    rwa [List.append_nil] at h
  bytes_load l h := by
    match l, h with
    | [p₀, p₁, p₂, p₃], _ => exact storeU32Be_loadU32Be p₀ p₁ p₂ p₃ []

def u64 : Format UInt8 UInt64 where
  length := 8
  bytes := storeU64Be
  load := loadU64Be
  blank := id
  length_bytes _ := rfl
  load_append l more h := loadU64Be_append h.ge more
  load_bytes v := by
    have h := loadU64Be_storeU64Be v []
    rwa [List.append_nil] at h
  bytes_load l h := by
    match l, h with
    | [p₀, p₁, p₂, p₃, p₄, p₅, p₆, p₇], _ => exact storeU64Be_loadU64Be p₀ p₁ p₂ p₃ p₄ p₅ p₆ p₇ []

end Field

/-! ## The formats of the packets -/

def RoleHelloReqPkt.format : Format UInt8 RoleHelloReqPkt :=
  (Field.u8.seq (.pad [0, 0, 0])).map
    { toFun p := { role := ⟨p.1⟩ }
      invFun pkt := (pkt.role.byte, ())
      left_inv _ := rfl
      right_inv _ := rfl }

def RoleHelloAckPkt.format : Format UInt8 RoleHelloAckPkt :=
  (Field.u8.seq (Field.u8.seq (.pad [0, 0]))).map
    { toFun p := { result := ⟨p.1⟩, role := ⟨p.2.1⟩ }
      invFun pkt := (pkt.result.byte, pkt.role.byte, ())
      left_inv _ := rfl
      right_inv _ := rfl }

def PerfPkt.format : Format UInt8 PerfPkt :=
  (Field.u64.seq (Field.u64.seq (Field.u64.seq (Field.u64.seq (Field.u64.seq Field.u64))))).map
    { toFun p := { client_sid := p.1, seq := p.2.1, t1 := p.2.2.1, t2 := p.2.2.2.1,
                   t3 := p.2.2.2.2.1, t4 := p.2.2.2.2.2 }
      invFun pkt := (pkt.client_sid, pkt.seq, pkt.t1, pkt.t2, pkt.t3, pkt.t4)
      left_inv _ := rfl
      right_inv _ := rfl }

def EnterNotify.equiv : UInt64 ≃ EnterNotify where
  toFun sid := { sid }
  invFun := sid
  left_inv _ := rfl
  right_inv _ := rfl

def EnterNotify.format : Format UInt8 EnterNotify := Field.u64.map equiv

def LeaveNotify.equiv : UInt64 ≃ LeaveNotify where
  toFun sid := { sid }
  invFun := sid
  left_inv _ := rfl
  right_inv _ := rfl

def LeaveNotify.format : Format UInt8 LeaveNotify := Field.u64.map equiv

def TopicMoveAck.format : Format UInt8 TopicMoveAck :=
  (Field.u32.seq Field.u32).map
    { toFun p := { world := p.1, channel := p.2 }
      invFun pkt := (pkt.world, pkt.channel)
      left_inv _ := rfl
      right_inv _ := rfl }

namespace PacketType

def format : (type : PacketType) → Format UInt8 type.Value
  | roleHelloReq => RoleHelloReqPkt.format
  | roleHelloAck => RoleHelloAckPkt.format
  | perfPing | perfPong => PerfPkt.format
  | enterNotify => EnterNotify.format
  | leaveNotify => LeaveNotify.format
  | topicMoveAck => TopicMoveAck.format

theorem length_format (type : PacketType) : type.format.length = type.length := by
  cases type <;> rfl

theorem buf_write (type : PacketType) (pkt : type.Value) :
    (type.write pkt).buf = type.format.bytes pkt := by
  cases type with
  | roleHelloReq | roleHelloAck | enterNotify | leaveNotify | topicMoveAck => rfl
  | perfPing | perfPong =>
    simp [write, PerfPingPkt.write, PerfPongPkt.write, PerfPkt.write, PacketWriter.writeU64Be,
      format, PerfPkt.format, Format.map, Format.seq, Field.u64]

theorem blanked_of_padding_nil {type : PacketType} (h : type.padding = []) (body : List UInt8) :
    type.blanked body = body := by
  rw [blanked, h]
  simp [List.mapIdx_eq_zipIdx_map]

theorem length_blanked (type : PacketType) (body : List UInt8) :
    (type.blanked body).length = body.length := List.length_mapIdx

theorem blank_format (type : PacketType) {body : List UInt8} (h : body.length = type.length) :
    type.format.blank body = type.blanked body := by
  cases type with
  | roleHelloReq | roleHelloAck =>
    match body, h with
    | [b₀, b₁, b₂, b₃], _ => rfl
  | perfPing | perfPong =>
    rw [blanked_of_padding_nil rfl]
    simp [format, PerfPkt.format, Format.map, Format.seq, Field.u64]
  | enterNotify | leaveNotify => exact (blanked_of_padding_nil rfl body).symm
  | topicMoveAck =>
    rw [blanked_of_padding_nil rfl]
    simp [format, TopicMoveAck.format, Format.map, Format.seq, Field.u32]

end PacketType

/-! ## The reads follow the formats -/

/-- What is read, and how far, where there are enough bytes; that nothing is where there are not. -/
structure Reads {α : Type} (read : Reader PacketReader α) (f : Format UInt8 α) : Prop where
  enough : ∀ r : PacketReader, f.length ≤ r.remaining →
    read r = (some (f.load r.rest), r.advance f.length)
  short : ∀ r : PacketReader, r.remaining < f.length → (read r).1 = none

theorem Reads.roleHelloReq (pkt : RoleHelloReqPkt) : Reads pkt.read RoleHelloReqPkt.format where
  enough r h := by
    change 4 ≤ r.remaining at h
    have hpad : ¬ (r.advance 1).remaining < 3 := by
      rw [r.remaining_advance]
      omega
    rw [RoleHelloReqPkt.read, RoleHelloReqPkt.kReserveBytes, if_neg (Nat.not_lt_of_le h),
      PacketReader.readU8, PacketReader.fixed_of_le (by omega)]
    dsimp only
    rw [PacketReader.skip, if_neg hpad]
    rfl
  short r h := congrArg Prod.fst (if_pos h)

theorem Reads.roleHelloAck (pkt : RoleHelloAckPkt) : Reads pkt.read RoleHelloAckPkt.format where
  enough r h := by
    change 4 ≤ r.remaining at h
    have hrole : 1 ≤ (r.advance 1).remaining := by
      rw [r.remaining_advance]
      omega
    have hpad : ¬ ((r.advance 1).advance 1).remaining < 2 := by
      rw [PacketReader.remaining_advance, r.remaining_advance]
      omega
    rw [RoleHelloAckPkt.read, RoleHelloAckPkt.kReserveBytes, if_neg (Nat.not_lt_of_le h),
      PacketReader.readU8, PacketReader.fixed_of_le (by omega)]
    dsimp only
    rw [PacketReader.fixed_of_le hrole]
    dsimp only
    rw [PacketReader.skip, if_neg hpad, PacketReader.rest_advance]
    rfl
  short r h := congrArg Prod.fst (if_pos h)

theorem kept_readU64Be (old : UInt64) {r : PacketReader} (h : 8 ≤ r.remaining) :
    kept old r.readU64Be = (loadU64Be r.rest, r.advance 8) := by
  rw [kept, PacketReader.readU64Be, PacketReader.fixed_of_le h]
  rfl

theorem Reads.perf (pkt : PerfPkt) : Reads pkt.read PerfPkt.format where
  enough r h := by
    change 48 ≤ r.remaining at h
    rw [PerfPkt.read, if_neg (Nat.not_lt_of_le h)]
    simp (disch := (try simp only [PacketReader.remaining_advance]) <;> omega) only
      [kept_readU64Be, PacketReader.rest_advance]
    rfl
  short r h := congrArg Prod.fst (if_pos h)

theorem Reads.u64 : Reads PacketReader.readU64Be Field.u64 where
  enough _ h := PacketReader.fixed_of_le h
  short _ h := congrArg Prod.fst (PacketReader.fixed_of_lt h)

theorem Reads.map {α γ : Type} {read : Reader PacketReader α} {f : Format UInt8 α}
    (h : Reads read f) (e : α ≃ γ) : Reads (read.map e) (f.map e) where
  enough r hle := congrArg (Prod.map (Option.map e) id) (h.enough r hle)
  short r hlt := congrArg (Option.map e) (h.short r hlt)

theorem Reads.enterNotify :
    Reads (Reader.map (fun sid => ({ sid } : EnterNotify)) PacketReader.readU64Be)
      EnterNotify.format := Reads.u64.map EnterNotify.equiv

theorem Reads.leaveNotify :
    Reads (Reader.map (fun sid => ({ sid } : LeaveNotify)) PacketReader.readU64Be)
      LeaveNotify.format := Reads.u64.map LeaveNotify.equiv

theorem Reads.topicMoveAck :
    Reads (Reader.bind PacketReader.readU32Be fun world =>
      Reader.map (fun channel => ({ world, channel } : TopicMoveAck)) PacketReader.readU32Be)
      TopicMoveAck.format where
  enough r h := by
    change 8 ≤ r.remaining at h
    have hchannel : 4 ≤ (r.advance 4).remaining := by
      rw [r.remaining_advance]
      omega
    rw [Reader.bind, PacketReader.readU32Be, PacketReader.fixed_of_le (by omega)]
    dsimp only
    rw [Reader.map, PacketReader.fixed_of_le hchannel, PacketReader.rest_advance]
    rfl
  short r h := by
    change r.remaining < 8 at h
    rw [Reader.bind]
    rcases Nat.lt_or_ge r.remaining 4 with hlt | hle
    · rw [PacketReader.readU32Be, PacketReader.fixed_of_lt hlt]
    · have hchannel : (r.advance 4).remaining < 4 := by
        rw [r.remaining_advance]
        omega
      rw [PacketReader.readU32Be, PacketReader.fixed_of_le hle]
      dsimp only
      rw [Reader.map, PacketReader.fixed_of_lt hchannel]
      rfl

/-- A body is read to its end exactly if it has the length of the format. -/
theorem Reads.expectEnd {α : Type} {read : Reader PacketReader α} {f : Format UInt8 α}
    (h : Reads read f) (body : Option (List UInt8)) :
    Protocol.expectEnd (read (.reset body)) =
      if (body.getD []).length = f.length then some (f.load (body.getD [])) else none := by
  have hreset : PacketReader.reset body = .reset (some (body.getD [])) := by
    cases body <;> rfl
  rw [hreset]
  generalize body.getD [] = bytes
  have hrest := PacketReader.rest_reset bytes
  have hwithin := PacketReader.within_reset bytes
  have hsize : (PacketReader.reset (some bytes)).size = bytes.length := by
    cases bytes <;> rfl
  have hpos : (PacketReader.reset (some bytes)).pos = 0 := by
    cases bytes <;> rfl
  generalize PacketReader.reset (some bytes) = r at hrest hwithin hsize hpos
  have hremaining : r.remaining = bytes.length := r.remaining_eq.trans (congrArg _ hrest)
  rcases Nat.lt_or_ge bytes.length f.length with hlt | hle
  · have hnone := h.short r (hremaining.trans_lt hlt)
    rw [if_neg (Nat.ne_of_lt hlt)]
    generalize read r = result at hnone
    obtain ⟨value, r'⟩ := result
    cases hnone
    rfl
  · rw [h.enough r (hremaining.symm ▸ hle), hrest, Protocol.expectEnd, PacketReader.eof]
    have hend : decide ((r.advance f.length).pos = (r.advance f.length).size) = true ↔
        bytes.length = f.length := by
      rw [decide_eq_true_iff]
      change r.pos + f.length = r.size ↔ _
      rw [hpos, hsize, Nat.zero_add, eq_comm]
    exact if_congr hend rfl rfl

namespace PacketType

/-- The strict parse of each type is the parse of its format. -/
theorem parse_eq (type : PacketType) (body : Option (List UInt8)) :
    type.parse body = if (body.getD []).length = type.length
      then some (type.format.load (body.getD [])) else none := by
  have hpacket {α : Type} (read : α → Reader PacketReader α) (fresh : α) :
      parsePacket read fresh true body = expectEnd (read fresh (.reset body)) := by
    rw [parsePacket]
    cases read fresh (.reset body) with
    | mk value r => cases value <;> rfl
  rw [← length_format]
  cases type with
  | roleHelloReq => exact (hpacket _ _).trans ((Reads.roleHelloReq {}).expectEnd body)
  | roleHelloAck => exact (hpacket _ _).trans ((Reads.roleHelloAck {}).expectEnd body)
  | perfPing | perfPong => exact (hpacket _ _).trans ((Reads.perf {}).expectEnd body)
  | enterNotify => exact Reads.enterNotify.expectEnd body
  | leaveNotify => exact Reads.leaveNotify.expectEnd body
  | topicMoveAck => exact Reads.topicMoveAck.expectEnd body

end PacketType

/-- Every value of every type is read back from the body it is sent with; a body is read exactly if
it has the length of the type; and what is read is sent again as the same body, with the bytes that
are not looked at set to 0. -/
theorem packet_round_trip (type : PacketType) :
    (∀ pkt, type.parse (type.write pkt).view = some pkt) ∧
    (∀ body, (∃ pkt, type.parse body = some pkt) ↔ (body.getD []).length = type.length) ∧
    (∀ body pkt, type.parse body = some pkt →
      (type.write pkt).buf = type.blanked (body.getD [])) ∧
    (∀ bytes, type.parse (some (type.blanked bytes)) = type.parse (some bytes)) := by
  refine ⟨?_, ?_, ?_, ?_⟩
  · intro pkt
    have hbytes : (type.write pkt).view.getD [] = type.format.bytes pkt := by
      rw [← type.buf_write, PacketWriter.view]
      split
      next hnil => exact hnil.symm
      · rfl
    rw [type.parse_eq, hbytes, if_pos ((type.format.length_bytes pkt).trans type.length_format),
      type.format.load_bytes]
  · intro body
    rw [type.parse_eq]
    constructor
    · rintro ⟨pkt, h⟩
      split at h
      · assumption
      · cases h
    · intro hlen
      exact ⟨_, if_pos hlen⟩
  · intro body pkt h
    rw [type.parse_eq] at h
    split at h
    next hlen =>
      cases h
      rw [type.buf_write, type.format.bytes_load _ (hlen.trans type.length_format.symm),
        type.blank_format hlen]
    · cases h
  · intro bytes
    rw [type.parse_eq, type.parse_eq]
    change (if (type.blanked bytes).length = _ then some (type.format.load (type.blanked bytes))
      else none) = if bytes.length = _ then some (type.format.load bytes) else none
    rw [type.length_blanked]
    split
    next hlen =>
      rw [← type.blank_format hlen, type.format.load_blank (hlen.trans type.length_format.symm)]
    · rfl

end HyperNet.Protocol
