import HyperNet.Buffer.Fifo
import HyperNet.Protocol.Wire

/-!
# The length-prefix framer and the reference parser

`tryFrame` is `LengthPrefixFramer::tryFrame`
(`engine/include/hypernet/protocol/LengthPrefixFramer.hpp`) on a ring buffer, with
both ways of taking the payload out: the zero-copy view and the copy through the
scratch buffer.

`nextFrame` says what a framer of the same limits finds at the front of a plain
list of bytes, and `tryFrame_eq` that the code computes it whatever the wrap
position.  `parse` iterates `nextFrame` over a whole stream and stops where the
receiving session gives up on it: it is the specification of the receive path.
`parse_append` is what makes the receive path independent of how the stream was
cut: what was parsed stays parsed when more bytes follow.
-/

namespace HyperNet.Protocol

open Buffer

/-- The result of `tryFrame`, with the payload view of `Framed` and
`lastErrorReason_` of `Invalid`. -/
inductive FrameResult where
  | needMore
  | framed (payload : List UInt8)
  | invalid (reason : String)
deriving DecidableEq, Repr

def tryFrame (maxPayloadLen : UInt32) (input : Ring) : Ring × FrameResult :=
  let kHeaderSize := MessageHeader.kLengthFieldBytes
  if input.available < kHeaderSize then (input, .needMore)
  else
    let hdr := input.peek kHeaderSize
    if hdr.2 ≠ kHeaderSize then (input, .invalid "ringbuffer_peek_short")
    else
      let payloadLen32 := loadU32Be hdr.1
      let payloadLen := payloadLen32.toNat
      if maxPayloadLen < payloadLen32 then (input, .invalid "payload_len_exceeds_max")
      else if (2 ^ 64 - 1) - kHeaderSize < payloadLen then (input, .invalid "size_overflow")
      else
        let totalFrameBytes := kHeaderSize + payloadLen
        if input.capacity < totalFrameBytes then (input, .invalid "frame_exceeds_ring_capacity")
        else if input.available < totalFrameBytes then (input, .needMore)
        else
          let tmp := input.read kHeaderSize
          if tmp.2.2 ≠ kHeaderSize then (tmp.1, .invalid "ringbuffer_read_header_failed")
          else if payloadLen = 0 then (tmp.1, .framed [])
          else
            let contiguous := tmp.1.peekView payloadLen
            if contiguous.length = payloadLen then
              let payloadView := tmp.1.readView payloadLen
              (payloadView.1, .framed payloadView.2)
            else
              let scratch := tmp.1.read payloadLen
              if scratch.2.2 ≠ payloadLen then
                (scratch.1, .invalid "ringbuffer_read_payload_short")
              else (scratch.1, .framed scratch.2.1)

/-! ## What the code finds -/

/-- What stands at the front of a list of bytes. -/
inductive Front where
  | needMore
  | invalid
  | framed (payload rest : List UInt8)
deriving DecidableEq, Repr

/-- The front of `c` for a framer with `maxPayloadLen = M` on a ring of capacity
`C`. -/
def nextFrame (C : Nat) (M : UInt32) (c : List UInt8) : Front :=
  if c.length < 4 then .needMore
  else if M.toNat < (loadU32Be c).toNat ∨ C < 4 + (loadU32Be c).toNat then .invalid
  else if c.length < 4 + (loadU32Be c).toNat then .needMore
  else .framed ((c.drop 4).take (loadU32Be c).toNat) (c.drop (4 + (loadU32Be c).toNat))

/-- What `tryFrame` does behind the header. -/
def takePayload (t : Ring) (n : Nat) : Ring × FrameResult :=
  if n = 0 then (t, .framed [])
  else if (t.peekView n).length = n then ((t.readView n).1, .framed (t.readView n).2)
  else if (t.read n).2.2 ≠ n then ((t.read n).1, .invalid "ringbuffer_read_payload_short")
  else ((t.read n).1, .framed (t.read n).2.1)

/-- A payload that is there is taken off the ring, whether it is in one piece or not. -/
theorem takePayload_eq {t : Ring} {n : Nat} (hn : n ≤ t.contents.length) :
    ∃ r', takePayload t n = (r', .framed (t.contents.take n)) ∧
      r'.contents = t.contents.drop n ∧ r'.capacity = t.capacity := by
  unfold takePayload
  split
  next hz =>
    subst hz
    exact ⟨t, rfl, rfl, rfl⟩
  split
  next hview =>
    rw [Ring.length_peekView] at hview
    refine ⟨_, by rw [Ring.readView_snd, hview], ?_, t.capacity_readView n⟩
    rw [Ring.contents_readView, hview]
  rw [t.read_snd hn, if_neg (not_not.mpr rfl)]
  exact ⟨_, rfl, t.contents_read n, t.capacity_read n⟩

/-- `tryFrame` once the length field is there. -/
theorem tryFrame_header (M : UInt32) {r : Ring} (h4 : 4 ≤ r.contents.length) :
    tryFrame M r =
      if M < loadU32Be r.contents then (r, .invalid "payload_len_exceeds_max")
      else if r.capacity < 4 + (loadU32Be r.contents).toNat then
        (r, .invalid "frame_exceeds_ring_capacity")
      else if r.contents.length < 4 + (loadU32Be r.contents).toNat then (r, .needMore)
      else takePayload (r.read 4).1 (loadU32Be r.contents).toNat := by
  have hk : MessageHeader.kLengthFieldBytes = 4 := rfl
  have hover : ¬ (2 ^ 64 - 1) - 4 < (loadU32Be r.contents).toNat := by
    have hlt := (loadU32Be r.contents).toNat_lt
    omega
  unfold tryFrame
  dsimp only
  rw [hk, r.available_eq, if_neg (Nat.not_lt_of_le h4), r.peek_eq h4, if_neg (not_not.mpr rfl),
    loadU32Be_take h4, if_neg hover, r.read_snd h4, if_neg (not_not.mpr rfl)]
  rfl

theorem tryFrame_short (M : UInt32) {r : Ring} (h4 : r.contents.length < 4) :
    tryFrame M r = (r, .needMore) := by
  unfold tryFrame
  dsimp only
  rw [r.available_eq]
  exact if_pos h4

/-- Behind the header the payload is taken from a ring that holds at least it. -/
theorem takePayload_read {r : Ring} {n : Nat} (hfull : 4 + n ≤ r.contents.length) :
    ∃ r', takePayload (r.read 4).1 n = (r', .framed ((r.contents.drop 4).take n)) ∧
      r'.contents = r.contents.drop (4 + n) ∧ r'.capacity = r.capacity := by
  have hbody : (r.read 4).1.contents = r.contents.drop 4 := r.contents_read 4
  have hn : n ≤ (r.read 4).1.contents.length := by
    rw [hbody, List.length_drop]
    exact Nat.le_sub_of_add_le' hfull
  obtain ⟨r', htake, hrest, hcap⟩ := takePayload_eq hn
  rw [hbody] at htake hrest
  exact ⟨r', htake, hrest.trans List.drop_drop, hcap.trans (r.capacity_read 4)⟩

/-- `tryFrame` finds exactly the front of the contents; only a found frame is
consumed. -/
theorem tryFrame_eq (M : UInt32) (r : Ring) :
    match nextFrame r.capacity M r.contents with
    | .needMore => tryFrame M r = (r, .needMore)
    | .invalid => ∃ reason, tryFrame M r = (r, .invalid reason)
    | .framed p rest => ∃ r', tryFrame M r = (r', .framed p) ∧ r'.contents = rest ∧
        r'.capacity = r.capacity := by
  unfold nextFrame
  by_cases h4 : r.contents.length < 4
  · rw [if_pos h4]
    exact tryFrame_short M h4
  rw [if_neg h4, tryFrame_header M (Nat.le_of_not_lt h4)]
  by_cases hM : M < loadU32Be r.contents
  · rw [if_pos (.inl (UInt32.lt_iff_toNat_lt.mp hM)), if_pos hM]
    exact ⟨_, rfl⟩
  rw [if_neg hM]
  by_cases hC : r.capacity < 4 + (loadU32Be r.contents).toNat
  · rw [if_pos (.inr hC), if_pos hC]
    exact ⟨_, rfl⟩
  rw [if_neg (not_or.mpr ⟨fun h => hM (UInt32.lt_iff_toNat_lt.mpr h), hC⟩), if_neg hC]
  by_cases hfull : r.contents.length < 4 + (loadU32Be r.contents).toNat
  · rw [if_pos hfull, if_pos hfull]
  rw [if_neg hfull, if_neg hfull]
  exact takePayload_read (Nat.le_of_not_lt hfull)

/-- When each front is found. -/
theorem nextFrame_cases (C : Nat) (M : UInt32) (c : List UInt8) :
    let n := (loadU32Be c).toNat
    (nextFrame C M c = .needMore ∧
      (c.length < 4 ∨ n ≤ M.toNat ∧ 4 + n ≤ C ∧ c.length < 4 + n)) ∨
    (nextFrame C M c = .invalid ∧ 4 ≤ c.length ∧ (M.toNat < n ∨ C < 4 + n)) ∨
    (nextFrame C M c = .framed ((c.drop 4).take n) (c.drop (4 + n)) ∧
      4 ≤ c.length ∧ n ≤ M.toNat ∧ 4 + n ≤ C ∧ 4 + n ≤ c.length) := by
  intro n
  unfold nextFrame
  split
  next h4 => exact .inl ⟨rfl, .inl h4⟩
  next h4 =>
  have h4 := Nat.le_of_not_lt h4
  split
  next hbad => exact .inr (.inl ⟨rfl, h4, hbad⟩)
  next hgood =>
  obtain ⟨hM, hC⟩ := not_or.mp hgood
  have hM := Nat.le_of_not_lt hM
  have hC := Nat.le_of_not_lt hC
  split
  next hshort => exact .inl ⟨rfl, .inr ⟨hM, hC, hshort⟩⟩
  next hfull => exact .inr (.inr ⟨rfl, h4, hM, hC, Nat.le_of_not_lt hfull⟩)

/-- The contract of `IFramer::tryFrame`, for every ring with these contents: where they
wrap makes no difference, and neither does the way the payload is taken out. -/
theorem tryFrame_contract (M : UInt32) (r : Ring) :
    let c := r.contents
    let n := (loadU32Be c).toNat
    ((tryFrame M r).2 = .needMore ↔
      c.length < 4 ∨ n ≤ M.toNat ∧ 4 + n ≤ r.capacity ∧ c.length < 4 + n) ∧
    ((∃ reason, (tryFrame M r).2 = .invalid reason) ↔
      4 ≤ c.length ∧ (M.toNat < n ∨ r.capacity < 4 + n)) ∧
    (∀ out, (tryFrame M r).2 = .framed out ↔
      (4 ≤ c.length ∧ n ≤ M.toNat ∧ 4 + n ≤ r.capacity ∧ 4 + n ≤ c.length) ∧
        out = (c.drop 4).take n) ∧
    ((∃ out, (tryFrame M r).2 = .framed out) → (tryFrame M r).1.contents = c.drop (4 + n)) ∧
    ((∀ out, (tryFrame M r).2 ≠ .framed out) → (tryFrame M r).1.contents = c) := by
  dsimp only
  have hfront := tryFrame_eq M r
  rcases nextFrame_cases r.capacity M r.contents with ⟨heq, hc⟩ | ⟨heq, hc⟩ | ⟨heq, hc⟩
  · rw [heq] at hfront
    rw [hfront]
    refine ⟨iff_of_true rfl hc, iff_of_false (by rintro ⟨_, ⟨⟩⟩) (by omega), fun out => ?_, ?_, ?_⟩
    · exact iff_of_false nofun (by omega)
    · rintro ⟨_, ⟨⟩⟩
    · exact fun _ => rfl
  · rw [heq] at hfront
    obtain ⟨reason, hfront⟩ := hfront
    rw [hfront]
    refine ⟨iff_of_false nofun (by omega), iff_of_true ⟨_, rfl⟩ hc, fun out => ?_, ?_, ?_⟩
    · exact iff_of_false nofun (by omega)
    · rintro ⟨_, ⟨⟩⟩
    · exact fun _ => rfl
  · rw [heq] at hfront
    obtain ⟨r', hfront, hrest, -⟩ := hfront
    rw [hfront]
    refine ⟨iff_of_false nofun (by omega), iff_of_false (by rintro ⟨_, ⟨⟩⟩) (by omega),
      fun out => ?_, fun _ => hrest, fun hnot => absurd rfl (hnot _)⟩
    constructor
    · rintro ⟨⟩
      exact ⟨hc, rfl⟩
    · rintro ⟨-, rfl⟩
      rfl

/-! ## The front of a stream and what follows it -/

theorem capacity_tryFrame (M : UInt32) (r : Ring) : (tryFrame M r).1.capacity = r.capacity := by
  have h := tryFrame_eq M r
  split at h
  · rw [h]
  · obtain ⟨reason, h⟩ := h
    rw [h]
  · obtain ⟨r', h, -, hcap⟩ := h
    rw [h]
    exact hcap

variable {M : UInt32} {C : Nat}

theorem nextFrame_of_needMore {r r' : Ring} (h : tryFrame M r = (r', .needMore)) :
    r' = r ∧ nextFrame r.capacity M r.contents = .needMore := by
  have hfront := tryFrame_eq M r
  cases hnext : nextFrame r.capacity M r.contents with
  | needMore =>
    rw [hnext] at hfront
    cases h.symm.trans hfront
    exact ⟨rfl, rfl⟩
  | invalid =>
    rw [hnext] at hfront
    obtain ⟨reason, hinvalid⟩ := hfront
    cases h.symm.trans hinvalid
  | framed p rest =>
    rw [hnext] at hfront
    obtain ⟨r'', hframed, -⟩ := hfront
    cases h.symm.trans hframed

theorem nextFrame_of_framed {r r' : Ring} {p : List UInt8} (h : tryFrame M r = (r', .framed p)) :
    nextFrame r.capacity M r.contents = .framed p r'.contents := by
  have hfront := tryFrame_eq M r
  cases hnext : nextFrame r.capacity M r.contents with
  | needMore =>
    rw [hnext] at hfront
    cases h.symm.trans hfront
  | invalid =>
    rw [hnext] at hfront
    obtain ⟨reason, hinvalid⟩ := hfront
    cases h.symm.trans hinvalid
  | framed q rest =>
    rw [hnext] at hfront
    obtain ⟨r'', hframed, hrest, -⟩ := hfront
    cases h.symm.trans hframed
    rw [hrest]

/-- No frame is too large for a ring with room for the greatest payload. -/
theorem tryFrame_ne_exceeds {r : Ring} (hfit : M.toNat + 4 ≤ r.capacity) :
    (tryFrame M r).2 ≠ .invalid "frame_exceeds_ring_capacity" := by
  by_cases h4 : r.contents.length < 4
  · rw [tryFrame_short M h4]
    rintro ⟨⟩
  rw [tryFrame_header M (Nat.le_of_not_lt h4)]
  split
  · exact fun heq => absurd (FrameResult.invalid.inj heq) (by decide)
  next hlimit =>
  have hle := UInt32.le_iff_toNat_le.mp (UInt32.not_lt.mp hlimit)
  rw [if_neg (show ¬ r.capacity < 4 + (loadU32Be r.contents).toNat by omega)]
  split
  · rintro ⟨⟩
  next hfull =>
  obtain ⟨r', htake, -⟩ := takePayload_read (Nat.le_of_not_lt hfull)
  rw [htake]
  rintro ⟨⟩

theorem nextFrame_framed {c p rest : List UInt8} (h : nextFrame C M c = .framed p rest) :
    c = framed p ++ rest ∧ p.length ≤ M.toNat ∧ 4 + p.length ≤ C := by
  rcases nextFrame_cases C M c with ⟨heq, -⟩ | ⟨heq, -⟩ | ⟨heq, h4, hM, hC, hfull⟩
  · cases heq.symm.trans h
  · cases heq.symm.trans h
  have hlen : ((c.drop 4).take (loadU32Be c).toNat).length = (loadU32Be c).toNat := by
    rw [List.length_take, List.length_drop]
    exact Nat.min_eq_left (Nat.le_sub_of_add_le' hfull)
  injection heq.symm.trans h with hp hrest
  subst hp hrest
  refine ⟨?_, hlen.symm ▸ hM, hlen.symm ▸ hC⟩
  rw [framed, hlen, UInt32.ofNat_toNat]
  have hsplit : c = c.take 4 ++ ((c.drop 4).take (loadU32Be c).toNat ++
      c.drop (4 + (loadU32Be c).toNat)) := by
    rw [← List.drop_drop, List.take_append_drop, List.take_append_drop]
  have hhdr : c.take 4 = storeU32Be (loadU32Be c) := by
    rcases c with _ | ⟨p₀, _ | ⟨p₁, _ | ⟨p₂, _ | ⟨p₃, tail⟩⟩⟩⟩
    · simp at h4
    · simp at h4
    · simp at h4
    · simp at h4
    · rw [storeU32Be_loadU32Be]
      rfl
  rw [← hhdr, List.append_assoc]
  exact hsplit

/-- A frame within the limits is found at the front, whatever follows it. -/
theorem nextFrame_framed_append {p : List UInt8} (hM : p.length ≤ M.toNat) (hC : 4 + p.length ≤ C)
    (rest : List UInt8) : nextFrame C M (framed p ++ rest) = .framed p rest := by
  have hlt := M.toNat_lt
  have hload : (loadU32Be (framed p ++ rest)).toNat = p.length := by
    rw [framed, List.append_assoc, loadU32Be_storeU32Be, UInt32.toNat_ofNat']
    exact Nat.mod_eq_of_lt (by omega)
  have hlen : (framed p ++ rest).length = 4 + p.length + rest.length := by
    rw [List.length_append, length_framed]
  rw [nextFrame, hload, if_neg (by omega), if_neg (by omega), if_neg (by omega)]
  congr 1
  · rw [framed, List.append_assoc, List.drop_left' (length_storeU32Be _), List.take_left]
  · exact List.drop_left' (length_framed p)

/-- More bytes behind a broken header do not repair it. -/
theorem nextFrame_invalid_append {c : List UInt8} (h : nextFrame C M c = .invalid)
    (d : List UInt8) : nextFrame C M (c ++ d) = .invalid := by
  rcases nextFrame_cases C M c with ⟨heq, -⟩ | ⟨-, h4, hlim⟩ | ⟨heq, -⟩
  · cases heq.symm.trans h
  · have hmore : ¬ (c ++ d).length < 4 := by
      rw [List.length_append]
      exact Nat.not_lt_of_le (Nat.le_add_right_of_le h4)
    rw [nextFrame, if_neg hmore, loadU32Be_append h4, if_pos hlim]
  · cases heq.symm.trans h

/-- A found frame stays found when more bytes follow. -/
theorem nextFrame_framed_mono {c p rest : List UInt8} (h : nextFrame C M c = .framed p rest)
    (d : List UInt8) : nextFrame C M (c ++ d) = .framed p (rest ++ d) := by
  obtain ⟨hc, hM, hC⟩ := nextFrame_framed h
  rw [hc, List.append_assoc]
  exact nextFrame_framed_append hM hC (rest ++ d)

/-- A frame that has not arrived in full is waited for. -/
theorem nextFrame_incomplete {c p : List UInt8} (hM : p.length ≤ M.toNat) (hC : 4 + p.length ≤ C)
    (h : c <+: framed p) (hlt : c.length < (framed p).length) : nextFrame C M c = .needMore := by
  obtain ⟨d, hd⟩ := h
  have hwhole : nextFrame C M (c ++ d) = .framed p [] := by
    rw [hd, ← List.append_nil (framed p)]
    exact nextFrame_framed_append hM hC []
  cases hnext : nextFrame C M c with
  | needMore => rfl
  | invalid => exact nomatch hwhole.symm.trans (nextFrame_invalid_append hnext d)
  | framed q rest =>
    have hsame := hwhole.symm.trans (nextFrame_framed_mono hnext d)
    injection hsame with _ hrest
    rw [← hd, (List.append_eq_nil_iff.mp hrest.symm).2, List.append_nil] at hlt
    exact absurd hlt (Nat.lt_irrefl _)

theorem nextFrame_rest_lt {c p rest : List UInt8} (h : nextFrame C M c = .framed p rest) :
    rest.length < c.length := by
  obtain ⟨hc, -, -⟩ := nextFrame_framed h
  rw [hc, List.length_append, length_framed]
  omega

/-- While more bytes are awaited a ring of at least four bytes has room for them:
the branch `recv_overflow` of the receive loop has no inhabitant. -/
theorem length_lt_of_needMore {c : List UInt8} (hC : 4 ≤ C) (h : nextFrame C M c = .needMore) :
    c.length < C := by
  rcases nextFrame_cases C M c with ⟨-, hshort | ⟨-, hfits, hshort⟩⟩ | ⟨heq, -⟩ | ⟨heq, -⟩
  · exact Nat.lt_of_lt_of_le hshort hC
  · exact Nat.lt_of_lt_of_le hshort hfits
  · cases heq.symm.trans h
  · cases heq.symm.trans h

/-! ## Whole streams -/

/-- How a stream ends for the receiver: it waits behind the frames it was given,
or it has given up on the stream. -/
inductive Verdict where
  | waiting (rest : List UInt8)
  | framerInvalid
  | invalidOpcodePrefix
  | unknownOpcode
deriving DecidableEq, Repr

/-- The reason the session is closed with. -/
def Verdict.closeReason : Verdict → Option String
  | .waiting _ => none
  | .framerInvalid => some "framer_invalid"
  | .invalidOpcodePrefix => some "invalid_opcode_prefix"
  | .unknownOpcode => some "unknown_opcode"

/-- Why the engine itself refuses a payload, if it does; `handled` tells the
opcodes that have a handler. -/
def refusal (handled : UInt16 → Bool) (p : List UInt8) : Option Verdict :=
  match splitOpcodeU16Be p with
  | none => some .invalidOpcodePrefix
  | some (opcode, _) =>
    if opcode = kOpcodePing ∨ opcode = kOpcodePong ∨ handled opcode = true then none
    else some .unknownOpcode

theorem refusal_ne_waiting {handled : UInt16 → Bool} {p : List UInt8} {v : Verdict}
    (h : refusal handled p = some v) (rest : List UInt8) : v ≠ .waiting rest := by
  unfold refusal at h
  split at h
  · cases h
    nofun
  · split at h <;> cases h
    nofun

/-- The reference parser: the payloads of a stream, up to the one the receiver
gives up on, and how the stream ends. -/
def parse (C : Nat) (M : UInt32) (handled : UInt16 → Bool) (c : List UInt8) :
    List (List UInt8) × Verdict :=
  match h : nextFrame C M c with
  | .needMore => ([], .waiting c)
  | .invalid => ([], .framerInvalid)
  | .framed p rest =>
    match refusal handled p with
    | some v => ([p], v)
    | none =>
      have := nextFrame_rest_lt h
      let tail := parse C M handled rest
      (p :: tail.1, tail.2)
termination_by c.length

section Parse

variable {handled : UInt16 → Bool}

theorem parse_needMore {c : List UInt8} (h : nextFrame C M c = .needMore) :
    parse C M handled c = ([], .waiting c) := by
  rw [parse]
  split <;> simp_all

theorem parse_invalid {c : List UInt8} (h : nextFrame C M c = .invalid) :
    parse C M handled c = ([], .framerInvalid) := by
  rw [parse]
  split <;> simp_all

theorem parse_refused {c p rest : List UInt8} {v : Verdict}
    (h : nextFrame C M c = .framed p rest) (hv : refusal handled p = some v) :
    parse C M handled c = ([p], v) := by
  rw [parse]
  split <;> simp_all

theorem parse_framed {c p rest : List UInt8} (h : nextFrame C M c = .framed p rest)
    (hv : refusal handled p = none) :
    parse C M handled c =
      (p :: (parse C M handled rest).1, (parse C M handled rest).2) := by
  rw [parse]
  split <;> simp_all

/-- Induction along the frames of a stream. -/
theorem parse_induction (C : Nat) (M : UInt32) (handled : UInt16 → Bool)
    {motive : List UInt8 → Prop}
    (needMore : ∀ c, nextFrame C M c = .needMore → motive c)
    (invalid : ∀ c, nextFrame C M c = .invalid → motive c)
    (refused : ∀ c p rest v, nextFrame C M c = .framed p rest → refusal handled p = some v →
      motive c)
    (framed : ∀ c p rest, nextFrame C M c = .framed p rest → refusal handled p = none →
      motive rest → motive c) (c : List UInt8) : motive c := by
  induction hn : c.length using Nat.strongRecOn generalizing c with
  | _ n ih =>
    cases h : nextFrame C M c with
    | needMore => exact needMore c h
    | invalid => exact invalid c h
    | framed p rest =>
      cases hv : refusal handled p with
      | some v => exact refused c p rest v h hv
      | none => exact framed c p rest h hv (ih _ (hn ▸ nextFrame_rest_lt h) rest rfl)

/-- What was parsed stays parsed: more bytes only extend what the receiver still
waits for. -/
theorem parse_append (c d : List UInt8) :
    parse C M handled (c ++ d) =
      match (parse C M handled c).2 with
      | .waiting rest =>
        ((parse C M handled c).1 ++ (parse C M handled (rest ++ d)).1,
          (parse C M handled (rest ++ d)).2)
      | _ => parse C M handled c := by
  induction c using parse_induction C M handled with
  | needMore c h => rw [parse_needMore h]; rfl
  | invalid c h => rw [parse_invalid h, parse_invalid (nextFrame_invalid_append h d)]
  | refused c p rest v h hv =>
    rw [parse_refused h hv, parse_refused (nextFrame_framed_mono h d) hv]
    cases v with
    | waiting rest => exact absurd rfl (refusal_ne_waiting hv rest)
    | _ => rfl
  | framed c p rest h hv ih =>
    rw [parse_framed h hv, parse_framed (nextFrame_framed_mono h d) hv, ih]
    obtain ⟨ps, v⟩ := parse C M handled rest
    cases v <;> rfl

theorem parse_append_of_waiting {c rest : List UInt8} {ps : List (List UInt8)}
    (h : parse C M handled c = (ps, .waiting rest)) (d : List UInt8) :
    parse C M handled (c ++ d) =
      (ps ++ (parse C M handled (rest ++ d)).1, (parse C M handled (rest ++ d)).2) := by
  rw [parse_append, h]

theorem parse_append_of_ne_waiting {c : List UInt8}
    (h : ∀ rest, (parse C M handled c).2 ≠ .waiting rest) (d : List UInt8) :
    parse C M handled (c ++ d) = parse C M handled c := by
  rw [parse_append]
  cases hv : (parse C M handled c).2 with
  | waiting rest => exact absurd hv (h rest)
  | _ => rfl

/-- While the receiver waits, the bytes it was given are the frames it passed on
and the bytes it keeps. -/
theorem parse_waiting {c rest : List UInt8} (h : (parse C M handled c).2 = .waiting rest) :
    c = ((parse C M handled c).1.map Protocol.framed).flatten ++ rest ∧
      nextFrame C M rest = .needMore := by
  induction c using parse_induction C M handled with
  | needMore c hc =>
    rw [parse_needMore hc] at h ⊢
    cases h
    exact ⟨rfl, hc⟩
  | invalid c hc => rw [parse_invalid hc] at h; cases h
  | refused c p rest' v hc hv =>
    rw [parse_refused hc hv] at h
    exact absurd h (refusal_ne_waiting hv rest)
  | framed c p rest' hc hv ih =>
    rw [parse_framed hc hv] at h ⊢
    obtain ⟨hrest, hneed⟩ := ih h
    refine ⟨?_, hneed⟩
    rw [List.map_cons, List.flatten_cons, List.append_assoc, ← hrest]
    exact (nextFrame_framed hc).1

end Parse

end HyperNet.Protocol
