import HyperNet.Buffer.Fifo

/-!
# The send side of a session

`Session::flushSend_`, `Session::enqueueSendNoFlush_` and the body of
`Session::enqueuePacketU16Coalesced` (`engine/src/hypernet/net/Session.cpp`), as
functions of the send ring and of what the kernel answers.  Every early return of
the source that goes through `beginClose_` is a `close` outcome here, with the
reason and the error it passes on; the session acts on it in `HyperNet.Net.Worker`.
No application code runs in between, so the session is `Connected` throughout and
the source's own tests of `state_` inside these functions are always passed.

The kernel is a list of answers, one for each `sendmsg` or `writev`; where the
list ends the kernel answers `EAGAIN`.  `sent` and `last` are history: the bytes the
kernel took, in order, and what the last call returned.  The specifications say that
the bytes taken followed by the bytes queued only ever grow at the end, by the segments
of the packet.
-/

namespace HyperNet.Net

open Buffer

/-- What one `sendmsg` or `writev` returns: a count, `0`, or an `errno`. -/
inductive WriteResult where
  | taken (n : Nat)
  | zero
  | eintr
  | eagain
  | failed (err : Nat)
deriving DecidableEq, Repr

/-- The bytes the kernel takes of those offered: at least one, at most all. -/
def taken (n offered : Nat) : Nat := max 1 (min n offered)

/-- The send ring, the bytes taken by the kernel so far, its answers to come and the last
one it gave. -/
structure Pipe where
  ring : Ring
  sent : List UInt8
  answers : List WriteResult
  last : Option WriteResult
deriving DecidableEq

/-- How a step of the send path leaves the session. -/
inductive Outcome where
  | keep
  | close (reason : String) (err : Nat)
deriving DecidableEq, Repr

namespace Pipe

/-- All bytes the session has taken on: sent or queued. -/
def stream (p : Pipe) : List UInt8 := p.sent ++ p.ring.contents

end Pipe

/-! ## The source -/

/-- The loop of `flushSend_` that removes `totalSent` bytes, view by view. -/
def consumeSent : (fuel : Nat) → (totalSent : Nat) → Ring → Ring
  | 0, _, sendRing => sendRing
  | fuel + 1, totalSent, sendRing =>
    if totalSent = 0 then sendRing
    else
      let consumed := sendRing.readView totalSent
      if consumed.2.length = 0 then consumed.1
      else consumeSent fuel (totalSent - consumed.2.length) consumed.1

/-- The `consumeRing` of `enqueuePacketU16Coalesced`, which also stops at an empty
ring. -/
def consumeRing : (fuel : Nat) → (nbytes : Nat) → Ring → Ring
  | 0, _, sendRing => sendRing
  | fuel + 1, nbytes, sendRing =>
    if nbytes = 0 ∨ sendRing.empty = true then sendRing
    else
      let v := sendRing.readView nbytes
      if v.2.length = 0 then v.1
      else consumeRing fuel (nbytes - v.2.length) v.1

/-- `flushSend_`; each turn of its loop takes one answer of the kernel. -/
def flushSend (sendRing : Ring) (sent : List UInt8) (last : Option WriteResult) :
    List WriteResult → Pipe × Outcome
  -- an empty ring and `EAGAIN` both leave the loop
  | [] => (⟨sendRing, sent, [], if sendRing.empty = true then last else some .eagain⟩, .keep)
  | answer :: answers =>
    if sendRing.empty = true then (⟨sendRing, sent, answer :: answers, last⟩, .keep)
    else
      let iov := sendRing.peekIov sendRing.available
      if iov.length = 0 then (⟨sendRing, sent, answer :: answers, last⟩, .keep)
      else
        match answer with
        | .taken n =>
          let totalSent := taken n iov.flatten.length
          flushSend (consumeSent totalSent totalSent sendRing)
            (sent ++ iov.flatten.take totalSent) (some (.taken n)) answers
        | .zero => (⟨sendRing, sent, answers, some .zero⟩, .close "send_zero" 0)
        | .eintr => flushSend sendRing sent (some .eintr) answers
        | .eagain => (⟨sendRing, sent, answers, some .eagain⟩, .keep)
        | .failed e => (⟨sendRing, sent, answers, some (.failed e)⟩, .close "send_failed" e)

def enqueueSendNoFlush (p : Pipe) (data : List UInt8) : Pipe × Outcome :=
  if data.length = 0 then (p, .keep)
  else if p.ring.freeSpace < data.length then (p, .close "send_overflow" 0)
  else
    let written := p.ring.write data
    if written.2 ≠ data.length then
      ({ p with ring := written.1 }, .close "send_ring_write_mismatch" 0)
    else ({ p with ring := written.1 }, .keep)

/-- `enqueueRemainder`: queue what is left of the segments behind the first `skip`
bytes. -/
def enqueueRemainder (p : Pipe) (skip : Nat) : List (List UInt8) → Pipe × Outcome
  | [] => (p, .keep)
  | seg :: segs =>
    if seg.length = 0 then enqueueRemainder p skip segs
    else if seg.length ≤ skip then enqueueRemainder p (skip - seg.length) segs
    else
      match enqueueSendNoFlush p (seg.drop skip) with
      | (p, .close reason err) => (p, .close reason err)
      | (p, .keep) => enqueueRemainder p 0 segs

/-- What `enqueuePacketU16Coalesced` comes to: whether `EPOLLOUT` is wanted, or a
close. -/
inductive SendOutcome where
  | interest (enable : Bool)
  | close (reason : String) (err : Nat)
deriving DecidableEq, Repr

/-- After a partial `sendmsg`: queue the rest, flush once. -/
def afterPartial (p : Pipe) (skip : Nat) (segs : List (List UInt8)) : Pipe × SendOutcome :=
  match enqueueRemainder p skip segs with
  | (p, .close reason err) => (p, .close reason err)
  | (p, .keep) =>
    match flushSend p.ring p.sent p.last p.answers with
    | (p, .close reason err) => (p, .close reason err)
    | (p, .keep) => (p, .interest !p.ring.empty)

/-- After a complete `sendmsg`: flush once; its result is not looked at, but a
session it closed takes no interest any more. -/
def afterComplete (p : Pipe) : Pipe × SendOutcome :=
  match flushSend p.ring p.sent p.last p.answers with
  | (p, .close reason err) => (p, .close reason err)
  | (p, .keep) => (p, .interest !p.ring.empty)

/-- After `EAGAIN`: queue everything. -/
def afterAgain (p : Pipe) (segs : List (List UInt8)) : Pipe × SendOutcome :=
  match enqueueRemainder p 0 segs with
  | (p, .close reason err) => (p, .close reason err)
  | (p, .keep) => (p, .interest true)

/-- The loop of `enqueuePacketU16Coalesced`: the backlog and the segments of the
packet in one `sendmsg`. -/
def sendCoalesced (sendRing : Ring) (sent : List UInt8) (segs : List (List UInt8)) :
    List WriteResult → Pipe × SendOutcome
  | [] => afterAgain ⟨sendRing, sent, [], some .eagain⟩ segs
  | answer :: answers =>
    let ringIov := if sendRing.empty = true then []
      else (sendRing.peekIov sendRing.available).filter (·.length ≠ 0)
    let ringAvail := (ringIov.map List.length).sum
    let iov := ringIov ++ segs.filter (·.length ≠ 0)
    match answer with
    | .taken n =>
      let n := taken n iov.flatten.length
      let sentFromRing := if n ≤ ringAvail then n else ringAvail
      let sendRing' :=
        if 0 < sentFromRing then consumeRing sentFromRing sentFromRing sendRing else sendRing
      let p : Pipe := ⟨sendRing', sent ++ iov.flatten.take n, answers, some answer⟩
      let newTotal := (segs.map List.length).sum
      if n - sentFromRing < newTotal then afterPartial p (n - sentFromRing) segs
      else afterComplete p
    | .zero => (⟨sendRing, sent, answers, some .zero⟩, .close "send_zero" 0)
    | .eintr => sendCoalesced sendRing sent segs answers
    | .eagain => afterAgain ⟨sendRing, sent, answers, some .eagain⟩ segs
    | .failed e => (⟨sendRing, sent, answers, some (.failed e)⟩, .close "send_failed" e)

/-! ## Consuming -/

/-- Removing up to as many bytes as are queued removes exactly these. -/
theorem consumeSent_spec {fuel n : Nat} {r : Ring} (hf : n ≤ fuel) (hn : n ≤ r.contents.length) :
    (consumeSent fuel n r).contents = r.contents.drop n ∧
      (consumeSent fuel n r).capacity = r.capacity := by
  induction fuel generalizing n r with
  | zero =>
    obtain rfl := Nat.le_zero.mp hf
    exact ⟨rfl, rfl⟩
  | succ fuel ih =>
    rcases Nat.eq_zero_or_pos n with rfl | hpos
    · exact ⟨rfl, rfl⟩
    have hne : r.contents ≠ [] := List.ne_nil_of_length_pos (Nat.lt_of_lt_of_le hpos hn)
    have hview := r.viewLen_pos hpos hne
    obtain ⟨hle, hlen⟩ := r.viewLen_le n
    have hviewLen : (r.readView n).2.length = r.viewLen n := by
      rw [Ring.readView_snd, List.length_take, Nat.min_eq_left hlen]
    simp only [consumeSent, hviewLen, if_neg (Nat.ne_of_gt hpos), if_neg (Nat.ne_of_gt hview)]
    obtain ⟨hc, hcap⟩ := ih (n := n - r.viewLen n) (r := (r.readView n).1) (by omega)
      (by rw [Ring.contents_readView, List.length_drop]; omega)
    refine ⟨?_, hcap.trans (r.capacity_readView n)⟩
    rw [hc, Ring.contents_readView, List.drop_drop, Nat.add_sub_of_le hle]

/-- The other loop does the same: its test of an empty ring never fires. -/
theorem consumeRing_eq {fuel n : Nat} {r : Ring} (hn : n ≤ r.contents.length) :
    consumeRing fuel n r = consumeSent fuel n r := by
  induction fuel generalizing n r with
  | zero => rfl
  | succ fuel ih =>
    rcases Nat.eq_zero_or_pos n with rfl | hpos
    · rfl
    have hempty : ¬ (n = 0 ∨ r.empty = true) := by
      rintro (rfl | hempty)
      · exact Nat.lt_irrefl 0 hpos
      · rw [r.empty_iff.mp hempty] at hn
        exact Nat.not_le_of_lt hpos hn
    have hview : n - (r.readView n).2.length ≤ (r.readView n).1.contents.length := by
      rw [Ring.readView_snd, Ring.contents_readView, List.length_take, List.length_drop]
      omega
    simp only [consumeRing, consumeSent, hempty, if_false, if_neg (Nat.ne_of_gt hpos), ih hview]

theorem taken_pos (n offered : Nat) : 0 < taken n offered := Nat.le_max_left 1 _

theorem taken_le {n offered : Nat} (h : 0 < offered) : taken n offered ≤ offered :=
  Nat.max_le.mpr ⟨h, Nat.min_le_right n offered⟩

/-! ## Flushing -/

/-- What the send path does to the bytes a session has taken on: `added` joins
their end, the kernel takes some from the front, the ring keeps its size. -/
structure Pipe.Carries (p p' : Pipe) (added : List UInt8) : Prop where
  stream : p'.stream = p.stream ++ added
  sent : p.sent <+: p'.sent
  capacity : p'.ring.capacity = p.ring.capacity

namespace Pipe.Carries

variable {p p' p'' : Pipe} {added added' : List UInt8}

theorem refl (p : Pipe) (answers : List WriteResult) (last : Option WriteResult) :
    p.Carries { p with answers, last } [] :=
  ⟨(List.append_nil _).symm, List.prefix_refl _, rfl⟩

theorem trans (h : p.Carries p' added) (h' : p'.Carries p'' added') :
    p.Carries p'' (added ++ added') :=
  ⟨by rw [h'.stream, h.stream, List.append_assoc], h.sent.trans h'.sent,
    h'.capacity.trans h.capacity⟩

end Pipe.Carries

/-- Handing the first `n` queued bytes to the kernel. -/
theorem carries_consume {r : Ring} {sent : List UInt8} {answers answers' : List WriteResult}
    {last last' : Option WriteResult} {n : Nat} (hn : n ≤ r.contents.length) :
    Pipe.Carries ⟨r, sent, answers, last⟩
      ⟨consumeSent n n r, sent ++ r.contents.take n, answers', last'⟩ [] := by
  obtain ⟨hc, hcap⟩ := consumeSent_spec (Nat.le_refl n) hn
  refine ⟨?_, List.prefix_append _ _, hcap⟩
  simp only [Pipe.stream, hc, List.append_assoc, List.take_append_drop, List.append_nil]

/-- Flushing moves bytes from the queue to the kernel and nothing else. -/
theorem flushSend_spec (r : Ring) (sent : List UInt8) (last : Option WriteResult)
    (answers : List WriteResult) :
    Pipe.Carries ⟨r, sent, answers, last⟩ (flushSend r sent last answers).1 [] := by
  induction answers generalizing r sent last with
  | nil => exact .refl _ [] _
  | cons answer answers ih =>
    rw [flushSend]
    split
    · exact .refl _ _ _
    next hempty =>
    dsimp only
    by_cases hiov : (r.peekIov r.available).length = 0
    · rw [if_pos hiov]
      exact .refl _ _ _
    rw [if_neg hiov, Ring.flatten_peekIov]
    cases answer with
    | taken n =>
      have hpos : 0 < r.contents.length :=
        List.length_pos_of_ne_nil fun hnil => hempty (r.empty_iff.mpr hnil)
      exact (carries_consume (taken_le hpos)).trans (ih _ _ _)
    | zero => exact .refl _ answers _
    | eintr => exact (Pipe.Carries.refl _ answers _).trans (ih r sent _)
    | eagain | failed e => exact .refl _ answers _

/-- The loop is left with bytes queued only after `EAGAIN`. -/
theorem flushSend_last (r : Ring) (sent : List UInt8) (last : Option WriteResult)
    (answers : List WriteResult) (hkeep : (flushSend r sent last answers).2 = .keep)
    (hqueued : (flushSend r sent last answers).1.ring.empty = false) :
    (flushSend r sent last answers).1.last = some .eagain := by
  induction answers generalizing r sent last with
  | nil =>
    change r.empty = false at hqueued
    change (if r.empty = true then last else some .eagain) = _
    rw [hqueued]
    rfl
  | cons answer answers ih =>
    rw [flushSend] at hkeep hqueued ⊢
    split
    next hempty =>
      rw [if_pos hempty] at hqueued
      exact absurd (hqueued.symm.trans hempty) Bool.false_ne_true
    next hempty =>
      have hiov : ¬ (r.peekIov r.available).length = 0 := by
        intro hnil
        have hflat := r.flatten_peekIov
        rw [List.length_eq_zero_iff.mp hnil] at hflat
        exact hempty (r.empty_iff.mpr hflat.symm)
      rw [if_neg hempty] at hkeep hqueued
      dsimp only at hkeep hqueued ⊢
      rw [if_neg hiov] at hkeep hqueued ⊢
      cases answer with
      | taken n => exact ih _ _ _ hkeep hqueued
      | zero => cases hkeep
      | eintr => exact ih _ _ _ hkeep hqueued
      | eagain => rfl
      | failed e => cases hkeep

/-! ## Queueing -/

/-- One segment is queued whole, or the session closes and nothing is queued. -/
theorem enqueueSendNoFlush_spec (p : Pipe) (data : List UInt8) :
    ((enqueueSendNoFlush p data).2 = .keep ∧
        p.Carries (enqueueSendNoFlush p data).1 data ∧
        (enqueueSendNoFlush p data).1.sent = p.sent) ∨
      enqueueSendNoFlush p data = (p, .close "send_overflow" 0) := by
  unfold enqueueSendNoFlush
  split
  next hnil =>
    obtain rfl := List.eq_nil_of_length_eq_zero hnil
    exact .inl ⟨rfl, .refl p p.answers p.last, rfl⟩
  · split
    · exact .inr rfl
    next hroom =>
      have hfit : data.length ≤ p.ring.freeSpace := Nat.le_of_not_lt hroom
      have hwritten : (p.ring.write data).2 = data.length := by
        rw [Ring.write_snd, Nat.min_eq_left hfit]
      rw [if_neg (not_not_intro hwritten)]
      refine .inl ⟨rfl, ⟨?_, List.prefix_refl _, p.ring.capacity_write data⟩, rfl⟩
      simp only [Pipe.stream, Ring.contents_write, List.take_of_length_le hfit,
        List.append_assoc]

/-- The remainder is queued whole, or the session closes with nothing more sent. -/
theorem enqueueRemainder_spec (p : Pipe) (skip : Nat) (segs : List (List UInt8)) :
    (enqueueRemainder p skip segs).1.sent = p.sent ∧
      (enqueueRemainder p skip segs).1.ring.capacity = p.ring.capacity ∧
      ((enqueueRemainder p skip segs).2 = .keep →
        p.Carries (enqueueRemainder p skip segs).1 (segs.flatten.drop skip)) := by
  induction segs generalizing p skip with
  | nil =>
    refine ⟨rfl, rfl, fun _ => ?_⟩
    rw [List.flatten_nil, List.drop_nil]
    exact .refl p p.answers p.last
  | cons seg segs ih =>
    rw [enqueueRemainder, List.flatten_cons]
    split
    next hnil =>
      obtain rfl := List.eq_nil_of_length_eq_zero hnil
      exact ih p skip
    split
    next hle =>
      rw [List.drop_append, List.drop_of_length_le hle, List.nil_append]
      exact ih p (skip - seg.length)
    next hlt =>
      rw [List.drop_append_of_le_length (Nat.le_of_not_le hlt)]
      rcases enqueueSendNoFlush_spec p (seg.drop skip) with ⟨hkeep, hcarry, hsent⟩ | hclose
      · generalize enqueueSendNoFlush p (seg.drop skip) = queued at hkeep hcarry hsent ⊢
        obtain ⟨p', out⟩ := queued
        cases hkeep
        obtain ⟨hsent', hcap', hrest⟩ := ih p' 0
        refine ⟨hsent'.trans hsent, hcap'.trans hcarry.capacity, fun hk => ?_⟩
        exact hcarry.trans (hrest hk)
      · rw [hclose]
        exact ⟨rfl, rfl, nofun⟩

/-! ## Whole packets -/

/-- What sending a packet of bytes `bytes` comes to.  While the session is kept,
all of them are sent or queued and `EPOLLOUT` is wanted exactly if some are queued;
if it closes, what was ever sent stops somewhere in them. -/
def SendSpec (p : Pipe) (bytes : List UInt8) (res : Pipe × SendOutcome) : Prop :=
  match res.2 with
  | .interest enable => p.Carries res.1 bytes ∧ enable = !res.1.ring.empty
  | .close _ _ => p.sent <+: res.1.sent ∧ res.1.sent <+: p.stream ++ bytes ∧
      res.1.ring.capacity = p.ring.capacity

theorem SendSpec.of_carries {p p' : Pipe} {bytes rest : List UInt8} {res : Pipe × SendOutcome}
    (h : p.Carries p' bytes) (h' : SendSpec p' rest res) : SendSpec p (bytes ++ rest) res := by
  obtain ⟨q, out⟩ := res
  cases out with
  | interest enable => exact ⟨h.trans h'.1, h'.2⟩
  | close reason err =>
    obtain ⟨hsent, hle, hcap⟩ := h'
    refine ⟨h.sent.trans hsent, ?_, hcap.trans h.capacity⟩
    rw [← List.append_assoc, ← h.stream]
    exact hle

/-- Closing before more is sent. -/
theorem SendSpec.of_sent_eq {p q : Pipe} (hsent : q.sent = p.sent)
    (hcap : q.ring.capacity = p.ring.capacity) (bytes : List UInt8) (reason : String) (err : Nat) :
    SendSpec p bytes (q, .close reason err) := by
  refine ⟨hsent ▸ List.prefix_refl _, ?_, hcap⟩
  change q.sent <+: _
  rw [hsent]
  exact (List.prefix_append _ _).trans (List.prefix_append _ _)

theorem afterComplete_spec (p : Pipe) : SendSpec p [] (afterComplete p) := by
  have hflush := flushSend_spec p.ring p.sent p.last p.answers
  unfold afterComplete
  generalize flushSend p.ring p.sent p.last p.answers = res at hflush
  obtain ⟨q, out⟩ := res
  cases out with
  | keep => exact ⟨hflush, rfl⟩
  | close reason err =>
    refine ⟨hflush.sent, ?_, hflush.capacity⟩
    change q.sent <+: _
    exact hflush.stream ▸ List.prefix_append _ _

theorem afterPartial_spec (p : Pipe) (skip : Nat) (segs : List (List UInt8)) :
    SendSpec p (segs.flatten.drop skip) (afterPartial p skip segs) := by
  obtain ⟨hsent, hcap, hkeep⟩ := enqueueRemainder_spec p skip segs
  unfold afterPartial
  generalize enqueueRemainder p skip segs = res at hsent hcap hkeep
  obtain ⟨q, out⟩ := res
  cases out with
  | keep =>
    have h := SendSpec.of_carries (hkeep rfl) (afterComplete_spec q)
    rw [List.append_nil] at h
    exact h
  | close reason err => exact .of_sent_eq hsent hcap _ reason err

theorem afterAgain_spec (p : Pipe) {segs : List (List UInt8)} (hne : segs.flatten ≠ []) :
    SendSpec p segs.flatten (afterAgain p segs) := by
  obtain ⟨hsent, hcap, hkeep⟩ := enqueueRemainder_spec p 0 segs
  unfold afterAgain
  generalize enqueueRemainder p 0 segs = res at hsent hcap hkeep
  obtain ⟨q, out⟩ := res
  cases out with
  | keep =>
    have hcarry : p.Carries q segs.flatten := hkeep rfl
    -- nothing more was sent, so the whole packet is in the ring
    have hring : q.ring.contents = p.ring.contents ++ segs.flatten := by
      have hstream := hcarry.stream
      rw [Pipe.stream, Pipe.stream, show q.sent = p.sent from hsent, List.append_assoc] at hstream
      exact List.append_cancel_left hstream
    have hempty : q.ring.empty = false := by
      refine Bool.eq_false_iff.mpr fun h => hne ?_
      rw [q.ring.empty_iff, hring] at h
      exact (List.append_eq_nil_iff.mp h).2
    refine ⟨hcarry, ?_⟩
    change true = !q.ring.empty
    rw [hempty]
    rfl
  | close reason err => exact .of_sent_eq hsent hcap _ reason err

/-- Leaving out empty fragments changes nothing. -/
theorem flatten_filter_length (l : List (List UInt8)) :
    (l.filter (·.length ≠ 0)).flatten = l.flatten := by
  induction l with
  | nil => rfl
  | cons seg l ih =>
    cases seg with
    | nil => exact ih
    | cons b seg => exact congrArg ((b :: seg) ++ ·) ih

/-- The kernel took `n` of the backlog and the packet: the backlog gave what it
had, the packet the rest. -/
theorem carries_taken {r : Ring} {n k : Nat} (sent bytes : List UInt8)
    (answers answers' : List WriteResult) (last last' : Option WriteResult)
    (hk : k = if n ≤ r.contents.length then n else r.contents.length) :
    Pipe.Carries ⟨r, sent, answers, last⟩
      ⟨if 0 < k then consumeRing k k r else r, sent ++ (r.contents ++ bytes).take n, answers',
        last'⟩
      (bytes.take (n - k)) := by
  have hring : k ≤ r.contents.length := by
    rw [hk]
    split
    · assumption
    · exact Nat.le_refl _
  have hconsumed : (if 0 < k then consumeRing k k r else r) = consumeSent k k r := by
    rcases Nat.eq_zero_or_pos k with rfl | hpos
    · rfl
    · rw [if_pos hpos, consumeRing_eq hring]
  rw [hconsumed]
  by_cases hle : n ≤ r.contents.length
  · rw [if_pos hle] at hk
    subst hk
    rw [List.take_append_of_le_length hle, Nat.sub_self, List.take_zero]
    exact carries_consume hle
  · rw [if_neg hle] at hk
    subst hk
    obtain ⟨hc, hcap⟩ := consumeSent_spec (Nat.le_refl r.contents.length) (Nat.le_refl _)
    refine ⟨?_, List.prefix_append _ _, hcap⟩
    rw [Pipe.stream, Pipe.stream, List.take_append,
      List.take_of_length_le (Nat.le_of_not_le hle), hc,
      List.drop_length, List.append_nil, List.append_assoc]

/-- **The send path.**  Whatever the kernel answers, the packet's bytes join the
stream at its end, or the session closes. -/
theorem sendCoalesced_spec (r : Ring) (sent : List UInt8) {segs : List (List UInt8)}
    (hne : segs.flatten ≠ []) (answers : List WriteResult) (last : Option WriteResult) :
    SendSpec ⟨r, sent, answers, last⟩ segs.flatten (sendCoalesced r sent segs answers) := by
  induction answers with
  | nil => exact .of_carries (.refl _ [] (some .eagain)) (afterAgain_spec _ hne)
  | cons answer answers ih =>
    have hskip : ∀ last', Pipe.Carries ⟨r, sent, answer :: answers, last⟩
        ⟨r, sent, answers, last'⟩ [] := fun last' => .refl _ answers last'
    cases answer with
    | zero => exact .of_sent_eq rfl rfl _ "send_zero" 0
    | eintr => exact .of_carries (hskip last) ih
    | eagain => exact .of_carries (hskip _) (afterAgain_spec _ hne)
    | failed e => exact .of_sent_eq rfl rfl _ "send_failed" e
    | taken n =>
      have hiov : (if r.empty = true then []
          else (r.peekIov r.available).filter (·.length ≠ 0)).flatten = r.contents := by
        split
        next hempty => exact (r.empty_iff.mp hempty).symm
        next => rw [flatten_filter_length, Ring.flatten_peekIov]
      rw [sendCoalesced]
      simp only [List.flatten_append, flatten_filter_length, ← List.length_flatten, hiov]
      generalize taken n (r.contents ++ segs.flatten).length = m
      generalize hk : (if m ≤ r.contents.length then m else r.contents.length) = k
      have hcarry := carries_taken sent segs.flatten (.taken n :: answers) answers last
        (some (.taken n)) hk.symm
      split
      · have h := SendSpec.of_carries hcarry (afterPartial_spec _ (m - k) segs)
        rw [List.take_append_drop] at h
        exact h
      next hall =>
        have h := SendSpec.of_carries hcarry (afterComplete_spec _)
        rw [List.append_nil, List.take_of_length_le (Nat.le_of_not_lt hall)] at h
        exact h

/-- A session that is kept with bytes queued has last been told `EAGAIN`. -/
def Pipe.Owed (res : Pipe × SendOutcome) : Prop :=
  ∀ enable, res.2 = .interest enable → res.1.ring.empty = false → res.1.last = some .eagain

theorem enqueueSendNoFlush_last (p : Pipe) (data : List UInt8) :
    (enqueueSendNoFlush p data).1.last = p.last := by
  unfold enqueueSendNoFlush
  split
  · rfl
  · split
    · rfl
    · dsimp only
      split <;> rfl

theorem enqueueRemainder_last (p : Pipe) (skip : Nat) (segs : List (List UInt8)) :
    (enqueueRemainder p skip segs).1.last = p.last := by
  induction segs generalizing p skip with
  | nil => rfl
  | cons seg segs ih =>
    rw [enqueueRemainder]
    split
    · exact ih p skip
    · split
      · exact ih p (skip - seg.length)
      · have hlast := enqueueSendNoFlush_last p (seg.drop skip)
        generalize enqueueSendNoFlush p (seg.drop skip) = queued at hlast ⊢
        obtain ⟨q, out⟩ := queued
        cases out with
        | keep => exact (ih q 0).trans hlast
        | close reason err => exact hlast

theorem afterComplete_owed (p : Pipe) : Pipe.Owed (afterComplete p) := by
  have hlast := flushSend_last p.ring p.sent p.last p.answers
  unfold afterComplete
  generalize flushSend p.ring p.sent p.last p.answers = res at hlast
  obtain ⟨q, out⟩ := res
  cases out with
  | keep => exact fun _ _ hqueued => hlast rfl hqueued
  | close reason err => rintro _ ⟨⟩

theorem afterPartial_owed (p : Pipe) (skip : Nat) (segs : List (List UInt8)) :
    Pipe.Owed (afterPartial p skip segs) := by
  unfold afterPartial
  generalize enqueueRemainder p skip segs = res
  obtain ⟨q, out⟩ := res
  cases out with
  | keep => exact afterComplete_owed q
  | close reason err => rintro _ ⟨⟩

theorem afterAgain_owed {p : Pipe} (hlast : p.last = some .eagain) (segs : List (List UInt8)) :
    Pipe.Owed (afterAgain p segs) := by
  have hsame := enqueueRemainder_last p 0 segs
  unfold afterAgain
  generalize enqueueRemainder p 0 segs = res at hsame
  obtain ⟨q, out⟩ := res
  cases out with
  | keep => exact fun _ _ _ => hsame.trans hlast
  | close reason err => rintro _ ⟨⟩

theorem sendCoalesced_owed (r : Ring) (sent : List UInt8) (segs : List (List UInt8))
    (answers : List WriteResult) : Pipe.Owed (sendCoalesced r sent segs answers) := by
  induction answers with
  | nil => exact afterAgain_owed rfl segs
  | cons answer answers ih =>
    cases answer with
    | taken n =>
      have howed : ∀ (partly : Prop) [Decidable partly] (p q : Pipe) (skip : Nat),
          Pipe.Owed (if partly then afterPartial p skip segs else afterComplete q) := by
        intro partly _ p q skip
        split
        exacts [afterPartial_owed p skip segs, afterComplete_owed q]
      rw [sendCoalesced]
      exact howed _ _ _ _
    | zero => rintro _ ⟨⟩
    | eintr => exact ih
    | eagain => exact afterAgain_owed rfl segs
    | failed e => rintro _ ⟨⟩

end HyperNet.Net
