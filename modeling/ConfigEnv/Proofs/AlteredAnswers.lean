/-
Module: ConfigEnv.Proofs.AlteredAnswers
Layer: Proofs
Purpose: Which alterations of an answer the checksum of a UBX frame lets through. The sums of the
  checksum are additive over the bytes modulo 256, so that an answer that was altered on the line
  is taken for one exactly when the alteration of the body sums up to the alteration of the check
  bytes; otherwise the poll ends with the checksum error and writes nothing. Two altered bytes are
  let through when their sum is kept and 256 divides their distance times the difference.
Trusted boundary: none
Main exports: ckOf_eq_sums, Framer.bytes_withSum, Framer.complete_answer, Arrives,
  Arrives.returns, altered_answer_iff, AltersTwo, two_bytes_iff
Open obligations: none
-/
import ConfigEnv.Lib.Fletcher
import ConfigEnv.Proofs.FrameSoundness
import Mathlib.Data.BitVec

namespace ConfigEnv.Gps

/-- The checksum is a pair of running sums. -/
theorem ckOf_eq_sums (bs : List u8) : ckOf bs = Fletcher.sums bs := rfl

/-! ### A frame with any checksum -/

namespace Framer

variable {poll : UbxCfgPoll} {f : Framer} {m : UbxFrame} {ck : u8 × u8}

/-- The framer with a whole frame in its buffer, whatever its checksum. -/
def fullSum (f : Framer) (m : UbxFrame) (ck : u8 × u8) : Framer :=
  { f with state := .payload, frame := m.withSum ck, expectedLen := m.bytes.length }

/-- A frame with any checksum runs through the framer up to the comparison of the sums. -/
theorem bytes_withSum (h : f.Hunting) (hlen : m.bytes.length ≤ ubxFrameMax) :
    f.bytes poll (m.withSum ck) = ((f.fullSum m ck).complete poll).rehunt := by
  let headed : Framer :=
    { f with state := .payload, frame := m.head, expectedLen := m.bytes.length }
  let body : List u8 := m.payload ++ [ck.1]
  let almost : Framer := { headed with frame := m.head ++ body }
  have hsplit : m.withSum ck = m.head ++ (body ++ [ck.2]) := by
    simp [UbxFrame.withSum, UbxFrame.body, UbxFrame.head, body]
  have hlast : almost.expectedLen = almost.frame.length + 1 := by
    simp only [almost, headed, body, UbxFrame.length_bytes, List.length_append,
      UbxFrame.length_head, List.length_singleton]
    omega
  have hroom : headed.frame.length + body.length < headed.expectedLen := by
    simp only [headed, body, UbxFrame.length_bytes, List.length_append, UbxFrame.length_head,
      List.length_singleton]
    omega
  have hpush : almost.push ck.2 = f.fullSum m ck := by
    simp only [push, fullSum, almost, headed, hsplit, List.append_assoc]
  calc f.bytes poll (m.withSum ck)
      = (headed.bytes poll body).bytes poll [ck.2] := by
        rw [hsplit, bytes_append, bytes_head h hlen, bytes_append]
    _ = almost.bytes poll [ck.2] := by
        rw [bytes_collect (f := headed) rfl h.done_eq hroom]
    _ = almost.byte poll ck.2 := by
        rw [bytes_cons (f := almost) h.done_eq]
        rfl
    _ = ((f.fullSum m ck).complete poll).rehunt := by
        rw [byte_last rfl hlast.le, hpush]

/-- What a frame of the class and id that were asked for does. -/
theorem complete_answer (hanswers : m.Answers poll)
    (hack : ¬ (m.classId = 0x05 ∧ m.msgId = 0x00)) :
    (f.fullSum m ck).complete poll =
      if ck = ckOf m.body then
        { f.fullSum m ck with done := .ok, out := f.out ++ [m.line poll] }
      else { f.fullSum m ck with cksumErrSeen := true } := by
  have hlen : (f.fullSum m ck).expectedLen = (m.withSum ck).length := by
    rw [UbxFrame.length_withSum]
    exact m.length_bytes
  have hsum : doChecksum ((f.fullSum m ck).frame.drop 2) ((f.fullSum m ck).expectedLen - 2) = true ↔
      ck = ckOf m.body := by
    rw [hlen]
    exact m.doChecksum_withSum ck
  have hline : ((f.fullSum m ck).frame.drop 2).take ((f.fullSum m ck).expectedLen - 4) =
      m.body := by
    have hcount : (f.fullSum m ck).expectedLen - 4 = m.body.length := by
      rw [hlen, UbxFrame.length_withSum, UbxFrame.length_body]
      omega
    rw [hcount]
    exact List.take_left
  have hcls : (f.fullSum m ck).frame.getD 2 0 = m.classId := rfl
  have hmid : (f.fullSum m ck).frame.getD 3 0 = m.msgId := rfl
  have hcond : m.classId = poll.msgClass ∧ m.msgId = poll.msgId := hanswers
  simp only [complete, hcls, hmid, if_neg hack, if_pos hcond, hsum, hline]
  rfl

end Framer

/-! ### The return value -/

section Poll

variable {poll : UbxCfgPoll} {timeout : u32} {written : Int} {tsMs : u32} {rounds : List Round}
  {noise : List u8} {m : UbxFrame} {ck : u8 × u8} {r : PollReturn}

/-- What is received is noise that leaves the hunt at its start, and then the frame of a message
with the class and id of the poll, with some checksum. -/
structure Arrives (poll : UbxCfgPoll) (timeout : u32) (written : Int) (tsMs : u32)
    (rounds : List Round) (noise : List u8) (m : UbxFrame) (ck : u8 × u8) : Prop where
  noise_free : ¬ [ubxSyncChar1, ubxSyncChar2] <:+: noise
  even : Even (Framer.syncRun noise)
  answers : m.Answers poll
  not_ack : ¬ (m.classId = 0x05 ∧ m.msgId = 0x00)
  fits : m.bytes.length ≤ ubxFrameMax
  stream_eq : received poll timeout written tsMs rounds = noise ++ m.withSum ck

/-- The checksum decides between the line of the answer and the checksum error. -/
theorem Arrives.returns (h : Arrives poll timeout written tsMs rounds noise m ck)
    (hr : pollUbxData poll timeout written tsMs rounds = some r) :
    r = if ck = ckOf m.body then { ret := .ok, out := [m.line poll] }
      else { ret := .cksumErr, out := [] } := by
  have hafter := Framer.bytes_noise poll Framer.hunting_start noise h.noise_free
  rw [if_pos h.even] at hafter
  have hnil : (Framer.start.bytes poll noise).out = [] := Framer.bytes_out hafter.done_eq
  rw [pollUbxData_some hr, h.stream_eq, Framer.bytes_append,
    Framer.bytes_withSum hafter h.fits, Framer.complete_answer h.answers h.not_ack, hnil]
  by_cases hck : ck = ckOf m.body
  · rw [if_pos hck, if_pos hck]
    rfl
  · rw [if_neg hck, if_neg hck]
    simp [Framer.result, Framer.rehunt, Framer.fullSum, hafter.done_eq, hnil]

/-- An answer is let through exactly when the checksum is right. -/
theorem Arrives.ok_iff (h : Arrives poll timeout written tsMs rounds noise m ck)
    (hr : pollUbxData poll timeout written tsMs rounds = some r) :
    r.ret = .ok ↔ ck = ckOf m.body := by
  rw [h.returns hr]
  by_cases hck : ck = ckOf m.body
  · simp [hck]
  · simp [hck]

end Poll

/-! ### Alterations -/

/-- The sums of the differences are the differences of the sums. -/
theorem ckOf_diff_body {m m' : UbxFrame} (h : m'.payload.length = m.payload.length) :
    ckOf (Fletcher.diff m'.body m.body) = ckOf m'.body - ckOf m.body := by
  have hlen : m'.body.length = m.body.length := by
    rw [UbxFrame.length_body, UbxFrame.length_body, h]
  exact Fletcher.sums_diff hlen

/-- The answer `m` was altered on the line, to `m'` with the checksum `ck'`; it has kept its length,
class and id. It is taken for an answer exactly when the checksum of the alteration of its body is
the alteration of its checksum; otherwise nothing is written and the poll returns
`POLL_MSG_CKSUM_ERR`. -/
theorem altered_answer_iff (poll : UbxCfgPoll) (timeout : u32) (written : Int) (tsMs : u32)
    (rounds : List Round) (noise : List u8) (m m' : UbxFrame) (ck' : u8 × u8) (r : PollReturn)
    (hsame : m'.payload.length = m.payload.length)
    (harrives : Arrives poll timeout written tsMs rounds noise m' ck')
    (hr : pollUbxData poll timeout written tsMs rounds = some r) :
    (r = { ret := .ok, out := [m'.line poll] } ↔
        ckOf (Fletcher.diff m'.body m.body) = ck' - ckOf m.body) ∧
      (r ≠ { ret := .ok, out := [m'.line poll] } → r = { ret := .cksumErr, out := [] }) := by
  have hreturns := harrives.returns hr
  have hok : r = { ret := .ok, out := [m'.line poll] } ↔ ck' = ckOf m'.body := by
    rw [hreturns]
    by_cases hck : ck' = ckOf m'.body
    · simp [hck]
    · simp [hck]
  constructor
  · rw [hok, ckOf_diff_body hsame, sub_left_inj, eq_comm]
  · intro hne
    rw [hreturns, if_neg fun hck => hne (hok.2 hck)]

/-- The answer to the poll for the version with the high bits of two bytes turned over. -/
def flippedRom : UbxFrame :=
  { classId := 0x0A, msgId := 0x04, payload := [0xD2, 0x4F, 0xCD], payload_lt := by decide }

/-- It is read with the checksum of the answer. -/
def flippedRounds : List Round :=
  [{ input := .read (flippedRom.withSum (ckOf romFrame.body)), tsMs := 1000 }]

/-- The altered answer arrives whole, behind nothing. -/
theorem arrives_flipped :
    Arrives monVer 1000 8 0 flippedRounds [] flippedRom (ckOf romFrame.body) where
  noise_free := by decide
  even := by decide
  answers := ⟨rfl, rfl⟩
  not_ack := by decide
  fits := by decide
  stream_eq := by decide

/-- The poll takes it for the answer. -/
theorem polls_flipped : pollUbxData monVer 1000 8 0 flippedRounds =
    some { ret := .ok, out := [flippedRom.line monVer] } := by
  decide

theorem altered_answer_flipped :
    pollUbxData monVer 1000 8 0 flippedRounds =
        some { ret := .ok, out := [flippedRom.line monVer] } ∧
      ckOf (Fletcher.diff flippedRom.body romFrame.body) =
        ckOf romFrame.body - ckOf romFrame.body :=
  ⟨polls_flipped, (altered_answer_iff monVer 1000 8 0 flippedRounds [] romFrame flippedRom
    (ckOf romFrame.body) _ rfl arrives_flipped polls_flipped).1.1 rfl⟩

/-! ### Two bytes -/

/-- Multiples of a byte. -/
theorem nsmul_byte_eq_zero_iff (k : Nat) (b : u8) : k • b = 0 ↔ 256 ∣ k * b.toNat := by
  have htoNat : (k • b).toNat = k * b.toNat % 256 := by
    induction k with
    | zero => simp
    | succ k ih =>
        rw [succ_nsmul, BitVec.toNat_add, ih, Nat.mod_add_mod, Nat.succ_mul]
  constructor
  · intro h
    rw [h] at htoNat
    exact Nat.dvd_of_mod_eq_zero htoNat.symm
  · intro h
    apply BitVec.eq_of_toNat_eq
    rw [htoNat, Nat.mod_eq_zero_of_dvd h]
    rfl

/-- Two bytes of the payload were altered, `q.length + 1` places apart, and the rest of the answer
was not. -/
structure AltersTwo (m m' : UbxFrame) (q : List u8) (x x' y y' : u8) : Prop where
  classId_eq : m'.classId = m.classId
  msgId_eq : m'.msgId = m.msgId
  payload_eq : ∃ p s, m.payload = p ++ (x :: (q ++ [y]) ++ s) ∧
    m'.payload = p ++ (x' :: (q ++ [y']) ++ s)

/-- Two altered bytes leave both sums alone exactly when the sums of the two bytes agree and their
distance times the change is a multiple of 256. -/
theorem AltersTwo.ckOf_eq_iff {m m' : UbxFrame} {q : List u8} {x x' y y' : u8}
    (h : AltersTwo m m' q x x' y y') :
    ckOf m.body = ckOf m'.body ↔ x' + y' = x + y ∧ 256 ∣ (q.length + 1) * (x' - x).toNat := by
  obtain ⟨p, s, hp, hp'⟩ := h.payload_eq
  have hsame : m'.payload.length = m.payload.length := by
    rw [hp, hp']
    simp
  let head : List u8 := [m.classId, m.msgId, BitVec.ofNat 8 m.payload.length,
    BitVec.ofNat 8 (m.payload.length / 256)]
  have hbody : m.body = head ++ p ++ (x :: (q ++ [y]) ++ s) := by
    rw [List.append_assoc, ← hp]
    rfl
  have hbody' : m'.body = head ++ p ++ (x' :: (q ++ [y']) ++ s) := by
    rw [List.append_assoc, ← hp', UbxFrame.body, hsame, h.classId_eq, h.msgId_eq]
    rfl
  have hzero : ckOf m.body = ckOf m'.body ↔
      Fletcher.sums (Fletcher.diff m'.body m.body) = 0 := by
    rw [← ckOf_eq_sums, ckOf_diff_body hsame, sub_eq_zero, eq_comm]
  rw [hzero, hbody, hbody', Fletcher.sums_within_eq_zero_iff (head ++ p) s (by simp),
    Fletcher.sums_two_iff, nsmul_byte_eq_zero_iff]

/-- Two altered bytes behind an unaltered checksum are let through exactly when one has gained what
the other has lost, and 256 divides their distance times that. -/
theorem two_bytes_iff (poll : UbxCfgPoll) (timeout : u32) (written : Int) (tsMs : u32)
    (rounds : List Round) (noise : List u8) (m m' : UbxFrame) (q : List u8) (x x' y y' : u8)
    (r : PollReturn) (halters : AltersTwo m m' q x x' y y')
    (harrives : Arrives poll timeout written tsMs rounds noise m' (ckOf m.body))
    (hr : pollUbxData poll timeout written tsMs rounds = some r) :
    r.ret = .ok ↔ x' + y' = x + y ∧ 256 ∣ (q.length + 1) * (x' - x).toNat := by
  rw [harrives.ok_iff hr, halters.ckOf_eq_iff]

theorem two_bytes_flipped :
    pollUbxData monVer 1000 8 0 flippedRounds =
        some { ret := .ok, out := [flippedRom.line monVer] } ∧
      (0xD2 + 0xCD : u8) = 0x52 + 0x4D ∧ 256 ∣ (1 + 1) * (0xD2 - 0x52 : u8).toNat :=
  ⟨polls_flipped, (two_bytes_iff monVer 1000 8 0 flippedRounds [] romFrame flippedRom [0x4F]
    0x52 0xD2 0x4D 0xCD _ ⟨rfl, rfl, [], [], rfl, rfl⟩ arrives_flipped polls_flipped).1 rfl⟩

end ConfigEnv.Gps
