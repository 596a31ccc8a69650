import HyperNet.Core.Options
import HyperNet.Net.ReadLoop
import HyperNet.Net.Timeouts

/-!
# The limits of the two ends

`sendPacketU16` bounds a packet by the width of the length field, the receiver's framer by
its `maxPayloadLen` and its ring.  With the options both ends derive from one configuration
the ring never binds, so what the framer accepts is a matter of `maxPayloadLen` alone
(`accepts_iff`), and the sender lets longer packets through (`oversized_packet_rejected`).
The receiver in turn never runs out of room (`read_turns_within_ring`).
-/

namespace HyperNet.Net

open Buffer Protocol HyperNet.Core

/-- A framer on a ring of capacity `C` frames the payload wherever the stream is cut: it
waits while the frame is incomplete and then finds the payload. -/
def Accepts (C : Nat) (M : UInt32) (p : List UInt8) : Prop :=
  ∀ (r : Ring) (rest : List UInt8), r.capacity = C → r.contents <+: framed p ++ rest →
    (tryFrame M r).2 =
      if r.contents.length < (framed p).length then .needMore else .framed p

variable {C : Nat}

/-- A ring that holds the first bytes of a stream. -/
theorem exists_ring (c : List UInt8) (hpos : 0 < C) (h : c.length ≤ C) :
    ∃ r : Ring, r.capacity = C ∧ r.contents = c := by
  refine ⟨((Ring.make C hpos).write c).1, by simp, ?_⟩
  rw [Ring.contents_write, Ring.freeSpace_eq, Ring.contents_make, Ring.capacity_make,
    List.length_nil, Nat.sub_zero, List.nil_append, List.take_of_length_le h]

variable {p : List UInt8}

theorem accepts_of_le {M : UInt32} (hfit : M.toNat + 4 ≤ C) (hle : p.length ≤ M.toNat) :
    Accepts C M p := by
  intro r rest hcap hprefix
  have hspec := tryFrame_eq M r
  rw [hcap] at hspec
  split
  case isTrue hlt =>
    have hpart : r.contents <+: framed p :=
      List.prefix_of_prefix_length_le hprefix (List.prefix_append _ _) (Nat.le_of_lt hlt)
    rw [nextFrame_incomplete hle (by omega) hpart hlt] at hspec
    rw [hspec]
  case isFalse hge =>
    have hwhole : framed p <+: r.contents :=
      List.prefix_of_prefix_length_le (List.prefix_append _ _) hprefix (Nat.le_of_not_lt hge)
    obtain ⟨d, hd⟩ := hwhole
    rw [← hd, nextFrame_framed_append hle (by omega)] at hspec
    obtain ⟨r', hr', -⟩ := hspec
    rw [hr']

/-- The framer waits at a part of an accepted frame, which the header must allow. -/
theorem Accepts.header {M : UInt32} (h : Accepts C M p) {k : Nat} (hfour : 4 ≤ k) (hC : k ≤ C)
    (hk : k < 4 + p.length) : p.length % 2 ^ 32 ≤ M.toNat ∧ k < 4 + p.length % 2 ^ 32 := by
  have hlen : ((framed p).take k).length = k := by
    rw [List.length_take, length_framed, Nat.min_eq_left (Nat.le_of_lt hk)]
  obtain ⟨r, hcap, hr⟩ := exists_ring ((framed p).take k) (by omega) (hlen ▸ hC)
  have hwait := h r [] hcap (by rw [hr, List.append_nil]; exact List.take_prefix _ _)
  rw [hr, hlen, length_framed, if_pos hk] at hwait
  have hload : (loadU32Be ((framed p).take k)).toNat = p.length % 2 ^ 32 := by
    have hpart := loadU32Be_append (hlen ▸ hfour) ((framed p).drop k)
    rw [← hpart, List.take_append_drop, framed, loadU32Be_storeU32Be, UInt32.toNat_ofNat']
  have hspec := tryFrame_eq M r
  rw [hcap, hr, nextFrame, hlen, hload, if_neg (Nat.not_lt.2 hfour)] at hspec
  split at hspec
  case h_1 hneed =>
    split at hneed
    case isTrue => cases hneed
    case isFalse hlim =>
      split at hneed
      · exact ⟨Nat.le_of_not_lt fun hlt => hlim (.inl hlt), ‹_›⟩
      · cases hneed
  case h_2 =>
    obtain ⟨reason, hinvalid⟩ := hspec
    rw [hinvalid] at hwait
    cases hwait
  case h_3 =>
    obtain ⟨r', hframed, -⟩ := hspec
    rw [hframed] at hwait
    cases hwait

/-- A payload that is accepted is within the limit: one that is longer shows a length
beyond the limit, or one so short that the framer would cut the payload. -/
theorem le_of_accepts {M : UInt32} (hfit : M.toNat + 4 ≤ C) (h : Accepts C M p) :
    p.length ≤ M.toNat := by
  by_contra hgt
  have hshown := (h.header (Nat.le_refl 4) (by omega) (by omega)).1
  have hM := M.toNat_lt
  have hcut := (h.header (k := 4 + p.length % 2 ^ 32) (by omega) (by omega) (by omega)).2
  exact Nat.lt_irrefl _ hcut

theorem accepts_iff {M : UInt32} (hfit : M.toNat + 4 ≤ C) : Accepts C M p ↔ p.length ≤ M.toNat :=
  ⟨le_of_accepts hfit, accepts_of_le hfit⟩

/-! ## A packet that was sent -/

section Sending

variable {app : Callback → World → World}

/-- The bytes `sendPacketU16` hands to the session for a packet. -/
def packetBytes (opcode : UInt16) (body : Body) : List UInt8 :=
  let hdr : MessageHeader := ⟨UInt32.ofNat (MessageHeader.payloadLenForBody body.len), opcode⟩
  hdr.encodeLen ++ hdr.encodeOpcode ++ body.data

/-- The peer's framer, with these options, frames the packet: it never finds the bytes
invalid, however much of them has arrived, and gives out the payload in the end. -/
def FramedByPeer (opt : WorkerOptions) (opcode : UInt16) (body : Body) : Prop :=
  ∀ (r : Ring) (rest : List UInt8), r.capacity = opt.recvCapacity.toNat →
    r.contents <+: packetBytes opcode body ++ rest →
    (tryFrame opt.maxPayloadLen r).2 =
      if r.contents.length < (packetBytes opcode body).length then .needMore
      else .framed (payload opcode body.data)

/-- A body that is sent is there: only an empty one may be null. -/
theorem len_eq_of_sent {id : UInt64} {opcode : UInt16} {body : Body} {w : World}
    (h : (sendPacketU16 app id opcode body w).2 = true) : body.len = body.data.length := by
  cases body with
  | bytes data => rfl
  | null len =>
    rcases Nat.eq_zero_or_pos len with rfl | hpos
    · rfl
    · have hrefused : ∀ v o lenHdr opHdr,
          (enqueuePacketU16Coalesced app o lenHdr opHdr (.null len) v).2 = false := by
        intro v o lenHdr opHdr
        rw [enqueuePacketU16Coalesced]
        split
        · rfl
        · rw [if_pos ⟨hpos, rfl⟩]
      unfold sendPacketU16 at h
      dsimp only at h
      split at h
      · cases h
      · split at h
        · cases h
        · split at h
          · cases h
          · rename_i henqueue
            exact absurd (congrArg Prod.snd henqueue) (by rw [hrefused]; exact Bool.false_ne_true)

theorem packetBytes_eq {opcode : UInt16} {body : Body} (h : body.len = body.data.length) :
    packetBytes opcode body = framed (payload opcode body.data) := by
  rw [packetBytes, h, framed_payload]
  exact encode_eq_frame opcode body.data

/-- A packet that was sent is framed by a peer of the same configuration exactly if opcode
and body are within `maxPayloadLen`. -/
theorem sent_packet_framed_iff {hardwareConcurrency : UInt32} {cfg : EngineConfig}
    (hcfg : validateEngineConfig hardwareConcurrency cfg = .ok ()) {id : UInt64}
    {opcode : UInt16} {body : Body} {w : World}
    (hsent : (sendPacketU16 app id opcode body w).2 = true) :
    let opt := (makeEffectiveEngineOptions hardwareConcurrency cfg).workerDefaults
    FramedByPeer opt opcode body ↔ 2 + body.len ≤ opt.maxPayloadLen.toNat := by
  intro opt
  have hlen := len_eq_of_sent hsent
  rw [FramedByPeer, packetBytes_eq hlen, hlen, ← length_payload opcode]
  exact accepts_iff (maxPayloadLen_le hcfg)

end Sending

/-- The parameters of a worker's manager. -/
def managerConfig (opt : WorkerOptions) (ownerWorkerId : UInt32) (handled : UInt16 → Bool) :
    Config :=
  { ownerWorkerId, recvRingCapacity := opt.recvCapacity.toNat,
    sendRingCapacity := opt.sendCapacity.toNat, maxPayloadLen := opt.maxPayloadLen, handled }

/-- A configuration with small rings and payloads of at most 8 bytes. -/
def sampleEngineConfig : EngineConfig :=
  { recvRingCapacity := 1024, sendRingCapacity := 1024, maxPayloadLen := 8 }

/-- A worker of that configuration with one connection. -/
def sampleWorker : World :=
  run (managerConfig (makeEffectiveEngineOptions 1 sampleEngineConfig).workerDefaults 0
    fun _ => true) 1 [{ input := .accept 5 true }]

/-- A packet of eight bytes is sent and framed. -/
theorem sent_packet_framed_eight_bytes :
    FramedByPeer (makeEffectiveEngineOptions 1 sampleEngineConfig).workerDefaults 7
      (.bytes [1, 2, 3, 4, 5, 6]) :=
  (sent_packet_framed_iff (w := sampleWorker) (by decide +kernel)
    (show (sendPacketU16 (fun _ w => w) 1 7 (.bytes [1, 2, 3, 4, 5, 6]) sampleWorker).2 = true by
      decide +kernel)).2 (by decide +kernel)

/-- A packet of nine bytes is sent as well, and a peer of the same configuration rejects its
length field. -/
theorem oversized_packet_rejected :
    let opt := (makeEffectiveEngineOptions 1 sampleEngineConfig).workerDefaults
    let body := Body.bytes [1, 2, 3, 4, 5, 6, 7]
    validateEngineConfig 1 sampleEngineConfig = .ok () ∧
    (sendPacketU16 (fun _ w => w) 1 7 body sampleWorker).2 = true ∧
    ∃ r : Ring, r.capacity = opt.recvCapacity.toNat ∧ r.contents <+: packetBytes 7 body ∧
      (tryFrame opt.maxPayloadLen r).2 = .invalid "payload_len_exceeds_max" := by
  refine ⟨by decide +kernel, by decide +kernel,
    ((Ring.make 1024 (by decide)).write (packetBytes 7 (.bytes [1, 2, 3, 4, 5, 6, 7]))).1,
    by decide +kernel, ?_, by decide +kernel⟩
  decide +kernel

/-! ## Reading -/

def ReadPoint.world : ReadPoint → World
  | receive _ w | frame _ w => w

section Roomy

variable {scope : Scope} {app : Callback → World → World} {manager : Config} {o : Nat} {w' : World}
  {p q : ReadPoint} (happ : ∀ c w, Watches scope none w (app c w))

theorem watches_setRecvRing (w : World) (o : Nat) (recvRing : Ring) :
    Watches scope none w (w.setRecvRing o recvRing) :=
  .modify (.of_aside (by constructor <;> rfl))

theorem watches_receive {w : World} (hc : (w.obj o).state = .connected) {queue : List UInt8}
    {n : Nat} (hbytes : queue.take n ≠ []) : Watches scope none w (w.receive o queue n) := by
  unfold World.receive
  exact .modify (.receive hc _ hbytes)

include happ

theorem ReadPoint.Next.watches (h : Next app o p q) (hp : p.Sound manager o) :
    Watches scope none p.world q.world := by
  cases h with
  | eintr => exact .refl _
  | data _ hrecv => exact watches_receive hp.1.state (recvmsg_data hrecv)
  | framed =>
    exact (watches_setRecvRing _ o _).trans ((dispatchOnMessage_trail o _ _).watches happ)
  | needMore => exact watches_setRecvRing _ o _

/-- The last turn closes a session for a plain reason, unless the ring is full. -/
theorem ReadPoint.Ends.watches (h : p.Ends app o w') (hroom : ¬ p.Overflows o) :
    Watches scope none p.world w' := by
  have hclose {reason : String} (hplain : IsPlain reason) (err : Nat) (w : World) :
      Watches scope none w (beginClose app o reason err w) :=
    (beginClose_trail (scope.reason_of_plain hplain) o err w).watches happ
  cases h with
  | overflow hfull => exact absurd hfull hroom
  | @ended _ _ _ ending =>
    cases ending with
    | zero => exact hclose (by decide) 0 _
    | eagain => exact .refl _
    | failed e => exact hclose (by decide) e _
  | invalid => exact (watches_setRecvRing _ o _).trans (hclose (by decide) 0 _)
  | closed => exact (watches_setRecvRing _ o _).trans ((dispatchOnMessage_trail o _ _).watches happ)

theorem ReadPoint.Leads.watches (hgoes : ∀ c w, Goes none w (app c w)) (h : Leads app o p q)
    (hp : p.Sound manager o) : Watches scope none p.world q.world := by
  refine (Reentrant.path_invariant (R := Next app o)
    (I := fun q => q.Sound manager o ∧ Watches scope none p.world q.world) ?_ h ⟨hp, .refl _⟩).2
  exact fun hnext hq => ⟨hnext.sound hgoes hq.1, hq.2.trans (hnext.watches happ hq.1)⟩

end Roomy

/-- With the options of an accepted configuration no turn of a receive loop finds the ring
full or a frame too large for it: not for any connection of any run, whatever arrives and in
whatever pieces, and whatever the application does in between.  `onReadable` consists of such
turns up to the one that it ends with.  It closes no session with `recv_overflow`, if the
application does not do so itself. -/
theorem read_turns_within_ring {hardwareConcurrency : UInt32} {cfg : EngineConfig}
    (hcfg : validateEngineConfig hardwareConcurrency cfg = .ok ()) :
    let opt := (makeEffectiveEngineOptions hardwareConcurrency cfg).workerDefaults
    opt.Usable ∧
    ∀ manager : Config, manager.recvRingCapacity = opt.recvCapacity.toNat →
      manager.maxPayloadLen = opt.maxPayloadLen →
    ∀ (arrivals : Nat) (steps : List Step) (t : Step) (id : UInt64) (o : Nat),
      (id, o) ∈ (run manager arrivals steps).sessions →
      ((run manager arrivals steps).obj o).state = .connected →
    ∀ script : RecvScript,
      let w := (run manager arrivals steps).answered t
      (∀ p, ReadPoint.Leads t.app o (.receive script w) p → ¬ p.Overflows o ∧ ¬ p.Exceeds o) ∧
      (∃ p, ReadPoint.Leads t.app o (.receive script w) p ∧
        p.Ends t.app o (onReadable t.app o script w)) ∧
      (t.Within .roomy → ∀ o' < w.created,
        ((onReadable t.app o script w).obj o').closeReason = some "recv_overflow" →
        (w.obj o').closeReason = some "recv_overflow") := by
  intro opt
  have husable : opt.Usable := workerDefaults_usable hcfg
  refine ⟨husable, fun manager hcap hlen arrivals steps t id o hlisted hc script => ?_⟩
  intro w
  have hfit : manager.maxPayloadLen.toNat + 4 ≤ manager.recvRingCapacity := by
    rw [hcap, hlen]
    exact husable.maxPayloadLen
  have hwaiting : w.Waiting manager :=
    (answered_goes _ t).waiting (waiting_run manager arrivals steps)
  have hstart := hwaiting.sound hlisted hc script
  have hroom : ∀ p, ReadPoint.Leads t.app o (.receive script w) p →
      ¬ p.Overflows o ∧ ¬ p.Exceeds o := by
    intro p hleads
    have hsound := ReadPoint.Leads.sound t.app_goes hleads hstart
    exact ⟨hsound.not_overflows (Nat.le_trans (Nat.le_add_left 4 _) hfit),
      hsound.not_exceeds hfit⟩
  obtain ⟨p, hleads, hends⟩ := onReadable_ends t.app_goes script hstart
  refine ⟨hroom, ⟨p, hleads, hends⟩, fun ht o' ho' hreason => ?_⟩
  have happ := Step.app_watches ht
  have hwatches : Watches .roomy none w (onReadable t.app o script w) :=
    (hleads.watches happ t.app_goes hstart).trans (hends.watches happ (hroom p hleads).1)
  have hkeeps := hwatches ((supervised_run manager arrivals steps).answered t).tidy
  exact ((hkeeps.obj o' ho' nofun).reason hreason).resolve_right fun hne => hne rfl

/-- Three bytes of a length field arrive, and then the end of the stream. -/
def sampleArrival : RecvScript := ⟨[0, 0, 0], [], .zero⟩

/-- The three bytes are awaited in the ring when the peer closes. -/
theorem read_turns_within_ring_first_bytes :
    let w := sampleWorker.answered { input := .releaseOther 0 }
    validateEngineConfig 1 sampleEngineConfig = .ok () ∧
    ¬ (ReadPoint.receive sampleArrival w).Overflows 0 ∧
    ¬ (ReadPoint.frame ⟨[], [], .zero⟩ (w.receive 0 [0, 0, 0] 3)).Exceeds 0 ∧
    ((onReadable (fun _ w => w) 0 sampleArrival w).obj 0).closeReason = some "peer_close" := by
  have hvalid : validateEngineConfig 1 sampleEngineConfig = .ok () := by decide +kernel
  have hlisted : ((1 : UInt64), 0) ∈ sampleWorker.sessions := by decide +kernel
  have hturns := ((read_turns_within_ring hvalid).2 _ rfl rfl 1 [{ input := .accept 5 true }]
    { input := .releaseOther 0 } 1 0 hlisted (by decide +kernel) sampleArrival).1
  refine ⟨hvalid, (hturns _ .refl).1, (hturns _ (.single (.data ?_ ?_))).2, ?_⟩
  · decide +kernel
  · decide +kernel
  · decide +kernel

end HyperNet.Net
