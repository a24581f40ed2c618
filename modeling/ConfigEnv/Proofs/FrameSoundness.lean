/-
Module: ConfigEnv.Proofs.FrameSoundness
Layer: Proofs
Purpose: What a poll is answered by. The frame that ends a poll is a whole UBX frame of the stream,
  up to its checksum. An answer has the checksum tested, and its line holds class, id, length and
  payload; the branch for a rejection does not look at the checksum, so that it is as good as the
  frame that completes there.
Trusted boundary: none
Main exports: UbxFrame.withSum, exists_withSum, UbxFrame.Rejects, complete_withSum, EndsPoll.frame,
  ok_answers, NaksSummed, rejected_iff
Open obligations: none
-/
import ConfigEnv.Proofs.FrameWindow

namespace ConfigEnv.Gps

/-! ### Frames with any checksum -/

namespace UbxFrame

/-- The message on the line with two bytes in the place of its checksum. -/
def withSum (m : UbxFrame) (ck : u8 × u8) : List u8 :=
  ubxSyncChar1 :: ubxSyncChar2 :: (m.body ++ [ck.1, ck.2])

theorem withSum_ckOf (m : UbxFrame) : m.withSum (ckOf m.body) = m.bytes := rfl

@[simp] theorem length_withSum (m : UbxFrame) (ck : u8 × u8) :
    (m.withSum ck).length = m.payload.length + 8 := by
  simp [withSum]

/-- The checksum test passes when the two bytes are the sums over the body. -/
theorem doChecksum_withSum (m : UbxFrame) (ck : u8 × u8) :
    doChecksum ((m.withSum ck).drop 2) ((m.withSum ck).length - 2) = true ↔ ck = ckOf m.body := by
  have hdrop : (m.withSum ck).drop 2 = m.body ++ [ck.1, ck.2] := rfl
  have hcount : (m.withSum ck).length - 2 = m.body.length + 2 := by
    rw [length_withSum, length_body]
    omega
  have htake : (m.body ++ [ck.1, ck.2]).take m.body.length = m.body := List.take_left
  rw [hdrop, hcount, doChecksum, Nat.add_sub_cancel, htake, decide_eq_true_iff, Prod.ext_iff,
    eq_comm (a := ck.1), eq_comm (a := ck.2)]
  simp [-length_body]

end UbxFrame

/-- The two bytes of a length field, from the length. -/
theorem length_bytes_eq (l0 l1 : u8) :
    BitVec.ofNat 8 (l1 ++ l0 : u16).toNat = l0 ∧
      BitVec.ofNat 8 ((l1 ++ l0 : u16).toNat / 256) = l1 := by
  have h0 := l0.isLt
  have h1 := l1.isLt
  have happend : (l1 ++ l0 : u16).toNat = l1.toNat * 256 + l0.toNat := by
    rw [BitVec.toNat_append, ← Nat.shiftLeft_add_eq_or_of_lt h0, Nat.shiftLeft_eq]
  rw [happend]
  constructor
  · apply BitVec.eq_of_toNat_eq
    rw [BitVec.toNat_ofNat]
    omega
  · apply BitVec.eq_of_toNat_eq
    rw [BitVec.toNat_ofNat]
    omega

/-- Bytes that begin with the sync characters and are as many as their length field says. -/
theorem exists_withSum {w : List u8} (hsync : [ubxSyncChar1, ubxSyncChar2] <+: w)
    (hlen : w.length = (w.getD 5 0 ++ w.getD 4 0 : u16).toNat + 8) :
    ∃ m : UbxFrame, ∃ ck, w = m.withSum ck := by
  obtain ⟨rest, rfl⟩ := hsync
  obtain ⟨c, i, l0, l1, tail, rfl⟩ : ∃ c i l0 l1 tail, rest = c :: i :: l0 :: l1 :: tail := by
    rcases rest with _ | ⟨c, _ | ⟨i, _ | ⟨l0, _ | ⟨l1, tail⟩⟩⟩⟩
    · simp at hlen
    · simp at hlen
    · simp at hlen
    · simp at hlen
    · exact ⟨c, i, l0, l1, tail, rfl⟩
  obtain ⟨h0, h1⟩ := length_bytes_eq l0 l1
  have htail : tail.length = (l1 ++ l0 : u16).toNat + 2 := by
    simpa using hlen
  have hlt : (l1 ++ l0 : u16).toNat < 65536 := (l1 ++ l0 : u16).isLt
  generalize (l1 ++ l0 : u16).toNat = n at h0 h1 htail hlt
  have hpayload : (tail.take n).length = n := by
    rw [List.length_take]
    omega
  obtain ⟨a, b, hck⟩ : ∃ a b, tail.drop n = [a, b] := by
    rw [← List.length_eq_two, List.length_drop]
    omega
  refine ⟨{ classId := c, msgId := i, payload := tail.take n, payload_lt := by rwa [hpayload] },
    (a, b), ?_⟩
  simp only [UbxFrame.withSum, UbxFrame.body, hpayload, h0, h1, ← hck, List.cons_append,
    List.nil_append, List.take_append_drop]

/-! ### The branches for a complete frame -/

/-- The message is an ACK-NAK for the poll. -/
structure UbxFrame.Rejects (m : UbxFrame) (poll : UbxCfgPoll) : Prop where
  classId_eq : m.classId = 0x05
  msgId_eq : m.msgId = 0x00
  names : 2 ≤ m.payload.length
  class_eq : m.payload.getD 0 0 = poll.msgClass
  id_eq : m.payload.getD 1 0 = poll.msgId

/-- The message has the class and id of the poll. -/
def UbxFrame.Answers (m : UbxFrame) (poll : UbxCfgPoll) : Prop :=
  m.classId = poll.msgClass ∧ m.msgId = poll.msgId

section Complete

variable {poll : UbxCfgPoll} {f : Framer} {m : UbxFrame} {ck : u8 × u8}

/-- The test of the branch for a rejection. -/
theorem rejects_iff (hframe : f.frame = m.withSum ck) (hlen : f.expectedLen = f.frame.length) :
    (f.frame.getD 2 0 = 0x05 ∧ f.frame.getD 3 0 = 0x00) ∧ f.expectedLen ≥ 10 ∧
        f.frame.getD 6 0 = poll.msgClass ∧ f.frame.getD 7 0 = poll.msgId ↔ m.Rejects poll := by
  have hten : f.expectedLen ≥ 10 ↔ 2 ≤ m.payload.length := by
    rw [hlen, hframe, UbxFrame.length_withSum]
    omega
  have hnames : 2 ≤ m.payload.length →
      f.frame.getD 6 0 = m.payload.getD 0 0 ∧ f.frame.getD 7 0 = m.payload.getD 1 0 := by
    intro htwo
    rw [hframe]
    have hget : ∀ k, (m.withSum ck).getD (k + 6) 0 = (m.payload ++ [ck.1, ck.2]).getD k 0 :=
      fun _ => rfl
    rw [hget 0, hget 1, List.getD_append _ _ _ _ (by omega), List.getD_append _ _ _ _ (by omega)]
    exact ⟨rfl, rfl⟩
  have hclass : f.frame.getD 2 0 = m.classId := by rw [hframe]; rfl
  have hid : f.frame.getD 3 0 = m.msgId := by rw [hframe]; rfl
  rw [hten, hclass, hid]
  constructor
  · rintro ⟨⟨h2, h3⟩, htwo, h6, h7⟩
    obtain ⟨h60, h71⟩ := hnames htwo
    exact ⟨h2, h3, htwo, h60.symm.trans h6, h71.symm.trans h7⟩
  · rintro ⟨h2, h3, htwo, h6, h7⟩
    obtain ⟨h60, h71⟩ := hnames htwo
    exact ⟨⟨h2, h3⟩, htwo, h60.trans h6, h71.trans h7⟩

/-- A frame that ends the poll rejects it, or answers it with a good checksum. -/
theorem complete_withSum (hframe : f.frame = m.withSum ck)
    (hlen : f.expectedLen = f.frame.length) (hdone : f.done = .zero)
    (hends : (f.complete poll).done ≠ .zero) :
    (m.Rejects poll ∧ f.complete poll = { f with done := .nak }) ∨
      (m.Answers poll ∧ ck = ckOf m.body ∧
        f.complete poll = { f with done := .ok, out := f.out ++ [m.line poll] }) := by
  have hrejects : _ ↔ m.Rejects poll := rejects_iff hframe hlen
  have hsum : doChecksum (f.frame.drop 2) (f.expectedLen - 2) = true ↔ ck = ckOf m.body := by
    rw [hlen, hframe]
    exact m.doChecksum_withSum ck
  have hline : (f.frame.drop 2).take (f.expectedLen - 4) = m.body := by
    have hcount : f.expectedLen - 4 = m.body.length := by
      rw [hlen, hframe, UbxFrame.length_withSum, UbxFrame.length_body]
      omega
    rw [hcount, hframe]
    exact List.take_left
  have hclass : f.frame.getD 2 0 = m.classId := by rw [hframe]; rfl
  have hid : f.frame.getD 3 0 = m.msgId := by rw [hframe]; rfl
  rw [Framer.complete] at hends ⊢
  simp only at hends ⊢
  split_ifs at hends ⊢ with hack hnak hcls hck
  · exact .inl ⟨hrejects.1 ⟨hack, hnak⟩, rfl⟩
  · exact absurd hdone hends
  · refine .inr ⟨⟨hclass ▸ hcls.1, hid ▸ hcls.2⟩, hsum.1 hck, ?_⟩
    rw [hline]
    rfl
  · exact absurd hdone hends
  · exact absurd hdone hends

end Complete

/-- A buffer that is full holds a frame. -/
theorem Framer.Windowed.frame {f : Framer} {bs : List u8} (h : f.Windowed bs)
    (hstate : f.state = .payload) {b : u8} (hlen : f.expectedLen = (f.push b).frame.length) :
    ∃ m : UbxFrame, ∃ ck, (f.push b).frame = m.withSum ck := by
  apply exists_withSum
  · exact (h.sync (.inr hstate)).trans (List.prefix_append f.frame [b])
  · rw [← hlen, h.length_eq hstate, ← Framer.lengthField_push (h.payload_ge hstate) b]
    rfl

/-- What has ended a poll. -/
theorem ended_frame {poll : UbxCfgPoll} {stream : List u8}
    (h : (Framer.start.bytes poll stream).done ≠ .zero) :
    ∃ m : UbxFrame, ∃ ck, EndsPoll poll stream (m.withSum ck) ∧
      ((m.Rejects poll ∧ (Framer.start.bytes poll stream).done = .nak ∧
          (Framer.start.bytes poll stream).out = []) ∨
        (m.Answers poll ∧ ck = ckOf m.body ∧ (Framer.start.bytes poll stream).done = .ok ∧
          (Framer.start.bytes poll stream).out = [m.line poll])) := by
  obtain ⟨q, b, rest, hstream, hdone, hbyte⟩ := exists_end h
  rw [← hbyte] at h ⊢
  have hwin := Framer.windowed poll q hdone
  have hnil : (Framer.start.bytes poll q).out = [] := Framer.bytes_out hdone
  obtain ⟨hstate, hlen, hcomplete⟩ := Framer.byte_ends hwin hdone h
  obtain ⟨m, ck, hframe⟩ := hwin.frame hstate hlen
  refine ⟨m, ck, ⟨q, b, rest, hstream, hdone, h, hframe.symm⟩, ?_⟩
  rw [hcomplete] at h ⊢
  rcases complete_withSum hframe hlen hdone h with ⟨hrej, heq⟩ | ⟨hans, hck, heq⟩
  · exact .inl ⟨hrej, by rw [heq]; rfl, by rw [heq]; exact hnil⟩
  · refine .inr ⟨hans, hck, by rw [heq]; rfl, ?_⟩
    rw [heq]
    simp [Framer.rehunt, Framer.push, hnil]

/-! ### What a poll returns -/

section Poll

variable (poll : UbxCfgPoll) (timeout : u32) (written : Int) (tsMs : u32) (rounds : List Round)

/-- A poll that returns `POLL_MSG_OK` has written one line, for a frame of the stream that answers
it; otherwise it has written nothing. -/
theorem ok_answers (r : PollReturn)
    (h : pollUbxData poll timeout written tsMs rounds = some r) :
    (r.ret = .ok → ∃ m : UbxFrame, m.bytes <:+: received poll timeout written tsMs rounds ∧
        m.Answers poll ∧ r.out = [m.line poll]) ∧
      (r.ret ≠ .ok → r.out = []) := by
  rw [pollUbxData_some h]
  constructor
  · intro hok
    have hdone := (Framer.result_ret (.inl rfl)).1 hok
    obtain ⟨m, ck, hends, hcase⟩ := ended_frame (by rw [hdone]; exact PollMsg.noConfusion)
    rcases hcase with ⟨-, hnak, -⟩ | ⟨hans, rfl, -, hout⟩
    · rw [hdone] at hnak
      cases hnak
    · exact ⟨m, hends.infix, hans, hout⟩
  · intro hret
    have hwithin : Framer.Within poll _
        (Framer.start.bytes poll (received poll timeout written tsMs rounds)) :=
      (Framer.hunting_start.within rfl).bytes _
    exact hwithin.out_nil fun hdone => hret ((Framer.result_ret (.inl rfl)).2 hdone)

end Poll

/-- The answer to the poll for the version. -/
theorem ok_answers_version :
    ∃ r, pollUbxData monVer 1000 8 0 (romRounds []) = some r ∧ r.ret = .ok ∧
      ∃ m : UbxFrame, m.bytes <:+: received monVer 1000 8 0 (romRounds []) ∧ m.Answers monVer ∧
        r.out = [m.line monVer] := by
  have hr : pollUbxData monVer 1000 8 0 (romRounds []) =
      some { ret := .ok, out := [romFrame.line monVer] } := by decide
  exact ⟨_, hr, rfl, (ok_answers monVer 1000 8 0 (romRounds []) _ hr).1 rfl⟩

/-! ### Rejections -/

/-- The byte `b` completes a frame that is taken for a rejection. -/
structure Framer.CompletesNak (poll : UbxCfgPoll) (f : Framer) (b : u8) : Prop where
  done_eq : f.done = .zero
  state_eq : f.state = .payload
  full : f.expectedLen ≤ (f.push b).frame.length
  ack : (f.push b).frame.getD 2 0 = 0x05 ∧ (f.push b).frame.getD 3 0 = 0x00
  names : f.expectedLen ≥ 10 ∧ (f.push b).frame.getD 6 0 = poll.msgClass ∧
    (f.push b).frame.getD 7 0 = poll.msgId

/-- A frame that is taken for a rejection passes the checksum test that answers are put to. -/
def NaksSummed (poll : UbxCfgPoll) (stream : List u8) : Prop :=
  ∀ q b rest, stream = q ++ b :: rest → (Framer.start.bytes poll q).CompletesNak poll b →
    doChecksum (((Framer.start.bytes poll q).push b).frame.drop 2)
      ((Framer.start.bytes poll q).expectedLen - 2) = true

/-- The frame that ends the poll as rejected is a rejection with a good checksum. -/
def RejectedByFrame (poll : UbxCfgPoll) (timeout : u32) (written : Int) (tsMs : u32)
    (rounds : List Round) : Prop :=
  ∀ r, pollUbxData poll timeout written tsMs rounds = some r → r.ret = .nak →
    ∃ m : UbxFrame, m.bytes <:+: received poll timeout written tsMs rounds ∧ m.Rejects poll ∧
      EndsPoll poll (received poll timeout written tsMs rounds) m.bytes

/-- The last byte of a negative acknowledgement ends the wait with it. -/
theorem Framer.CompletesNak.byte_done {poll : UbxCfgPoll} {f : Framer} {b : u8}
    (h : f.CompletesNak poll b) : (f.byte poll b).done = .nak := by
  have hfull := h.full
  simp only [Framer.push_frame, List.length_append, List.length_singleton] at hfull
  rw [Framer.byte_last h.state_eq hfull, Framer.complete]
  dsimp only
  rw [if_pos h.ack, Framer.push_expectedLen, if_pos h.names]
  rfl

/-- A poll is rejected by genuine rejections exactly when no frame with a wrong checksum completes
in the branch for rejections. -/
theorem rejected_iff (poll : UbxCfgPoll) (timeout : u32) (written : Int) (tsMs : u32)
    (rounds : List Round) : RejectedByFrame poll timeout written tsMs rounds ↔
    NaksSummed poll (received poll timeout written tsMs rounds) := by
  constructor
  · intro h q b rest hstream hnak
    have hends : ((Framer.start.bytes poll q).byte poll b).done ≠ .zero := by
      rw [hnak.byte_done]
      exact PollMsg.noConfusion
    have hdone : (Framer.start.bytes poll
        (received poll timeout written tsMs rounds)).done = .nak := by
      rw [hstream, done_after_end hnak.done_eq hends, hnak.byte_done]
    have hreturn := pollUbxData_received (by rw [hdone]; exact PollMsg.noConfusion)
    obtain ⟨m, -, -, hm⟩ := h _ hreturn ((Framer.result_ret (.inr rfl)).2 hdone)
    -- the frame that has ended the poll is the one that `b` completes
    have hframe : ((Framer.start.bytes poll q).push b).frame = m.bytes :=
      EndsPoll.unique ⟨q, b, rest, hstream, hnak.done_eq, hends, rfl⟩ hm
    obtain ⟨-, hlen, -⟩ :=
      Framer.byte_ends (Framer.windowed poll q hnak.done_eq) hnak.done_eq hends
    rw [hlen, hframe]
    exact (m.doChecksum_withSum (ckOf m.body)).2 rfl
  · intro h r hr hret
    rw [pollUbxData_some hr] at hret
    have hdone := (Framer.result_ret (.inr rfl)).1 hret
    obtain ⟨m, ck, hends, hcase⟩ := ended_frame (by rw [hdone]; exact PollMsg.noConfusion)
    rcases hcase with ⟨hrej, -, -⟩ | ⟨-, -, hok, -⟩
    · obtain ⟨q, b, rest, hstream, hq, hbyte, hframe⟩ := hends
      obtain ⟨hstate, hlen, -⟩ := Framer.byte_ends (Framer.windowed poll q hq) hq hbyte
      have hwhole : ((Framer.start.bytes poll q).push b).frame = m.withSum ck := hframe.symm
      obtain ⟨hack, hnames⟩ := (rejects_iff hwhole hlen).2 hrej
      have hsum := h q b rest hstream ⟨hq, hstate, hlen.le, hack, hnames⟩
      rw [hlen, hwhole, m.doChecksum_withSum] at hsum
      subst hsum
      have hm : EndsPoll poll (received poll timeout written tsMs rounds) m.bytes :=
        ⟨q, b, rest, hstream, hq, hbyte, hframe⟩
      exact ⟨m, hm.infix, hrej, hm⟩
    · rw [hdone] at hok
      cases hok

/-- A rejection of the poll for the version with zeros in the place of its checksum. -/
def corruptNak : List u8 := [0xB5, 0x62, 0x05, 0x00, 0x02, 0x00, 0x0A, 0x04, 0x00, 0x00]

/-- It ends the poll, although there is no rejection in the stream. -/
theorem corrupt_nak_rejects :
    ¬ ∀ (poll : UbxCfgPoll) (timeout : u32) (written : Int) (tsMs : u32) (rounds : List Round)
      (r : PollReturn), pollUbxData poll timeout written tsMs rounds = some r → r.ret = .nak →
        ∃ m : UbxFrame, m.bytes <:+: received poll timeout written tsMs rounds ∧
          m.Rejects poll := by
  intro h
  obtain ⟨m, hin, hrej⟩ := h monVer 1000 8 0 [{ input := .read corruptNak, tsMs := 0 }]
    { ret := .nak, out := [] } (by decide) rfl
  have hstream : received monVer 1000 8 0 [{ input := .read corruptNak, tsMs := 0 }] =
      corruptNak := by decide
  rw [hstream] at hin
  have hlong : corruptNak.length ≤ m.bytes.length := by
    have htwo := hrej.names
    rw [UbxFrame.length_bytes]
    change 10 ≤ _
    omega
  have hsum := (m.doChecksum_withSum (ckOf m.body)).2 rfl
  rw [m.withSum_ckOf, hin.eq_of_length_le hlong] at hsum
  exact absurd hsum (by decide)

end ConfigEnv.Gps
