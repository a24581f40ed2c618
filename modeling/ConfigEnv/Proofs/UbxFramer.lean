/-
Module: ConfigEnv.Proofs.UbxFramer
Layer: Proofs
Purpose: What the hunt finds in a stream of bytes. The chunks of the rounds do not matter, only the
  bytes that they add up to. From the state that looks for the first sync character a frame is read
  to its end and nothing happens before; noise without a sync pair leaves that state or, behind an
  odd number of first sync characters, the one that has just seen one of them, and then the next
  frame is taken for noise.
Trusted boundary: none
Main exports: Framer.bytes_append, delivered, pollLoop_done, Framer.bytes_frame,
  Framer.bytes_frame_take, Framer.bytes_noise, FindsResponse, finds_response_iff
Open obligations: none
-/
import ConfigEnv.Gps.Ubx
import Mathlib.Data.List.DropRight
import Mathlib.Data.List.Induction
import Mathlib.Algebra.Group.Nat.Even

namespace ConfigEnv.Gps

namespace Framer

variable {poll : UbxCfgPoll} {f : Framer}

/-! ### Bytes and chunks -/

/-- What follows a decision is not read. -/
theorem bytes_done (h : f.done ≠ .zero) (bs : List u8) : f.bytes poll bs = f := by
  cases bs with
  | nil => rfl
  | cons b bs => exact if_neg h

theorem bytes_cons (h : f.done = .zero) (b : u8) (bs : List u8) :
    f.bytes poll (b :: bs) = (f.byte poll b).bytes poll bs :=
  if_pos h

/-- Two pieces of a stream are read one after the other. -/
theorem bytes_append (f : Framer) (bs cs : List u8) :
    f.bytes poll (bs ++ cs) = (f.bytes poll bs).bytes poll cs := by
  induction bs generalizing f with
  | nil => rfl
  | cons b bs ih =>
      by_cases h : f.done = .zero
      · rw [List.cons_append, bytes_cons h, bytes_cons h, ih]
      · rw [bytes_done h, bytes_done h, bytes_done h]

/-- A line is only written together with the end of the poll. -/
theorem complete_out (h : (f.complete poll).done = .zero) : (f.complete poll).out = f.out := by
  revert h
  simp only [complete]
  split_ifs <;> simp

/-- A byte that decides nothing prints nothing. -/
theorem byte_out {b : u8} (h : (f.byte poll b).done = .zero) : (f.byte poll b).out = f.out := by
  revert h
  cases hstate : f.state with
  | sync1 => simp only [byte, hstate]; split <;> simp
  | sync2 => simp only [byte, hstate]; split <;> simp [push]
  | header => simp only [byte, hstate]; split_ifs <;> simp [push, rehunt]
  | payload =>
      simp only [byte, hstate]
      split
      · exact fun h => complete_out (f := f.push b) h
      · exact fun _ => rfl

/-- While nothing is decided, nothing is printed. -/
theorem bytes_out {bs : List u8} (h : (f.bytes poll bs).done = .zero) :
    (f.bytes poll bs).out = f.out := by
  induction bs generalizing f with
  | nil => rfl
  | cons b bs ih =>
      by_cases hdone : f.done = .zero
      · rw [bytes_cons hdone] at h ⊢
        have hbyte : (f.byte poll b).done = .zero := by
          by_contra hne
          rw [bytes_done hne] at h
          exact hne h
        rw [ih h, byte_out hbyte]
      · rw [bytes_done hdone]

end Framer

/-- The bytes that the rounds read until the clock or an error of `select` ends the loop. -/
def delivered (tsEndMs : u32) : List Round → List u8
  | [] => []
  | r :: rounds =>
      if r.input = .selectError then []
      else r.input.buf ++ if r.inTime tsEndMs = true then delivered tsEndMs rounds else []

section Loop

variable {poll : UbxCfgPoll} {tsEndMs : u32}

theorem pollRound_error {r : Round} (h : r.input = .selectError) (f : Framer) :
    pollRound poll tsEndMs f r = (f, false) :=
  if_pos h

/-- The bytes of the round are looked at; an error of `select` gives none. -/
theorem pollRound_fst (poll : UbxCfgPoll) (tsEndMs : u32) (f : Framer) (r : Round) :
    (pollRound poll tsEndMs f r).1 = f.bytes poll r.input.buf := by
  by_cases herr : r.input = .selectError
  · rw [pollRound_error herr, herr]
    rfl
  · rw [pollRound, if_neg herr]

/-- A round goes on while it is in time and nothing is decided. -/
theorem pollRound_snd (poll : UbxCfgPoll) (tsEndMs : u32) {r : Round}
    (h : r.input ≠ .selectError) (f : Framer) :
    (pollRound poll tsEndMs f r).2 = true ↔
      r.inTime tsEndMs = true ∧ (f.bytes poll r.input.buf).done = .zero := by
  rw [pollRound, if_neg h]
  simp

/-- A loop that has ended has looked at what was delivered. -/
theorem pollLoop_some {rounds : List Round} {f f' : Framer}
    (h : pollLoop poll tsEndMs f rounds = some f') :
    f' = f.bytes poll (delivered tsEndMs rounds) := by
  induction rounds generalizing f with
  | nil => cases h
  | cons r rounds ih =>
      rw [pollLoop] at h
      rw [delivered]
      by_cases herr : r.input = .selectError
      · rw [pollRound_error herr] at h
        cases h
        rw [if_pos herr]
        rfl
      · have hmore := pollRound_snd poll tsEndMs herr f
        rw [pollRound_fst] at h
        rw [if_neg herr, Framer.bytes_append]
        by_cases htime : r.inTime tsEndMs = true
        · rw [if_pos htime]
          by_cases hdone : (f.bytes poll r.input.buf).done = .zero
          · rw [if_pos (hmore.2 ⟨htime, hdone⟩)] at h
            exact ih h
          · rw [if_neg fun htrue => hdone (hmore.1 htrue).2] at h
            cases h
            rw [Framer.bytes_done hdone]
        · rw [if_neg fun htrue => htime (hmore.1 htrue).1] at h
          cases h
          rw [if_neg htime]
          rfl

/-- And when that ends the poll, the loop has ended. -/
theorem pollLoop_done {rounds : List Round} {f : Framer} (hstart : f.done = .zero)
    (h : (f.bytes poll (delivered tsEndMs rounds)).done ≠ .zero) :
    pollLoop poll tsEndMs f rounds = some (f.bytes poll (delivered tsEndMs rounds)) := by
  induction rounds generalizing f with
  | nil => exact absurd hstart h
  | cons r rounds ih =>
      rw [delivered] at h
      by_cases herr : r.input = .selectError
      · rw [if_pos herr] at h
        exact absurd hstart h
      · have hmore := pollRound_snd poll tsEndMs herr f
        rw [if_neg herr, Framer.bytes_append] at h
        rw [pollLoop, delivered, if_neg herr, Framer.bytes_append, pollRound_fst]
        by_cases hdone : (f.bytes poll r.input.buf).done = .zero
        · by_cases htime : r.inTime tsEndMs = true
          · rw [if_pos htime] at h ⊢
            rw [if_pos (hmore.2 ⟨htime, hdone⟩)]
            exact ih hdone h
          · rw [if_neg htime] at h
            exact absurd hdone h
        · rw [if_neg fun htrue => hdone (hmore.1 htrue).2, Framer.bytes_done hdone]

end Loop

/-! ### One frame -/

/-- The two bytes of the length field. -/
theorem toNat_length_bytes {n : Nat} (hn : n < 65536) :
    (BitVec.ofNat 8 (n / 256) ++ BitVec.ofNat 8 n : u16).toNat = n := by
  have hhigh : n / 256 < 256 := by omega
  rw [BitVec.toNat_append, BitVec.toNat_ofNat, BitVec.toNat_ofNat, Nat.mod_eq_of_lt hhigh,
    ← Nat.shiftLeft_add_eq_or_of_lt (Nat.mod_lt n (by decide)), Nat.shiftLeft_eq]
  omega

namespace UbxFrame

/-- The bytes up to the length field. -/
def head (m : UbxFrame) : List u8 :=
  [ubxSyncChar1, ubxSyncChar2, m.classId, m.msgId, BitVec.ofNat 8 m.payload.length,
    BitVec.ofNat 8 (m.payload.length / 256)]

/-- The payload and the checksum. -/
def tail (m : UbxFrame) : List u8 := m.payload ++ [(ckOf m.body).1, (ckOf m.body).2]

theorem bytes_eq (m : UbxFrame) : m.bytes = m.head ++ m.tail := rfl

@[simp] theorem length_head (m : UbxFrame) : m.head.length = 6 := rfl

end UbxFrame

namespace Framer

variable {poll : UbxCfgPoll} {f : Framer} {m : UbxFrame}

/-- The state in which the hunt for a frame starts. -/
structure Hunting (f : Framer) : Prop where
  state_eq : f.state = .sync1
  done_eq : f.done = .zero

theorem hunting_start : start.Hunting := ⟨rfl, rfl⟩

/-- Part of the header leaves nothing. -/
theorem bytes_head_take (h : f.Hunting) {k : Nat} (hk : k < 6) :
    (f.bytes poll (m.head.take k)).done = .zero := by
  obtain ⟨state, frame, expectedLen, cksumErrSeen, done, out⟩ := f
  obtain ⟨rfl, rfl⟩ := h
  have hcases : k = 0 ∨ k = 1 ∨ k = 2 ∨ k = 3 ∨ k = 4 ∨ k = 5 := by omega
  rcases hcases with rfl | rfl | rfl | rfl | rfl | rfl <;>
    simp [UbxFrame.head, bytes, byte, push]

/-- The last byte of the header, when the length fits the buffer. -/
theorem byte_header {b : u8} (hstate : f.state = .header) (hfull : 5 ≤ f.frame.length)
    (hgood : ¬ ((f.push b).lengthField > ubxFrameMax ∨ (f.push b).lengthField < 8)) :
    f.byte poll b = { f.push b with expectedLen := (f.push b).lengthField, state := .payload } := by
  have hsix : (f.push b).frame.length ≥ 6 := by
    simp only [push, List.length_append, List.length_singleton]
    omega
  simp only [byte, hstate, if_pos hsix, if_neg hgood]

/-- A byte of the payload before the last. -/
theorem byte_payload {b : u8} (hstate : f.state = .payload)
    (hmore : f.frame.length + 1 < f.expectedLen) : f.byte poll b = f.push b := by
  have hshort : ¬ (f.push b).frame.length ≥ f.expectedLen := by
    simp only [push, List.length_append, List.length_singleton]
    omega
  simp only [byte, hstate, if_neg hshort]

/-- The last byte of a frame. -/
theorem byte_last {b : u8} (hstate : f.state = .payload)
    (hlast : f.expectedLen ≤ f.frame.length + 1) :
    f.byte poll b = ((f.push b).complete poll).rehunt := by
  have hfull : (f.push b).frame.length ≥ f.expectedLen := by
    simp only [push, List.length_append, List.length_singleton]
    omega
  simp only [byte, hstate, if_pos hfull]

/-- The header sets the length of the frame. -/
theorem bytes_head (h : f.Hunting) (hlen : m.bytes.length ≤ ubxFrameMax) :
    f.bytes poll m.head =
      { f with state := .payload, frame := m.head, expectedLen := m.bytes.length } := by
  let five : Framer := { f with state := .header, frame := m.head.take 5 }
  have hfive : f.bytes poll (m.head.take 5) = five := by
    obtain ⟨state, frame, expectedLen, cksumErrSeen, done, out⟩ := f
    obtain ⟨rfl, rfl⟩ := h
    simp [five, UbxFrame.head, bytes, byte, push]
  have hfield : (five.push (BitVec.ofNat 8 (m.payload.length / 256))).lengthField =
      m.bytes.length := by
    rw [UbxFrame.length_bytes]
    exact congrArg (· + 8) (toNat_length_bytes m.payload_lt)
  have hgood : ¬ (m.bytes.length > ubxFrameMax ∨ m.bytes.length < 8) := by
    rw [UbxFrame.length_bytes] at hlen ⊢
    omega
  have hdone : five.done = .zero := h.done_eq
  have hsplit : m.head = m.head.take 5 ++ [BitVec.ofNat 8 (m.payload.length / 256)] := rfl
  calc f.bytes poll m.head
      = five.bytes poll [BitVec.ofNat 8 (m.payload.length / 256)] := by
        rw [hsplit, bytes_append, hfive]
    _ = five.byte poll (BitVec.ofNat 8 (m.payload.length / 256)) := by
        rw [bytes_cons hdone]
        rfl
    _ = { f with state := .payload, frame := m.head, expectedLen := m.bytes.length } := by
        rw [byte_header rfl (le_refl 5) (hfield.symm ▸ hgood), hfield]
        rfl

/-- In the payload bytes are collected. -/
theorem bytes_collect {bs : List u8} (hstate : f.state = .payload) (hdone : f.done = .zero)
    (hlen : f.frame.length + bs.length < f.expectedLen) :
    f.bytes poll bs = { f with frame := f.frame ++ bs } := by
  induction bs generalizing f with
  | nil => simp [bytes]
  | cons b bs ih =>
      rw [List.length_cons] at hlen
      have hpushed : (f.push b).frame.length + bs.length < (f.push b).expectedLen := by
        simp only [push, List.length_append, List.length_singleton]
        omega
      rw [bytes_cons hdone, byte_payload hstate (by omega), ih (f := f.push b) hstate hdone hpushed]
      simp [push]

/-- The framer with a whole frame in its buffer. -/
def full (f : Framer) (m : UbxFrame) : Framer :=
  { f with state := .payload, frame := m.bytes, expectedLen := m.bytes.length }

/-- A frame is handled when its last byte is there. -/
theorem bytes_frame (h : f.Hunting) (hlen : m.bytes.length ≤ ubxFrameMax) :
    f.bytes poll m.bytes = ((f.full m).complete poll).rehunt := by
  let headed : Framer :=
    { f with state := .payload, frame := m.head, expectedLen := m.bytes.length }
  let body : List u8 := m.payload ++ [(ckOf m.body).1]
  let almost : Framer := { headed with frame := m.head ++ body }
  have hsplit : m.bytes = m.head ++ (body ++ [(ckOf m.body).2]) := by
    simp [UbxFrame.bytes_eq, UbxFrame.tail, body]
  have hlast : almost.expectedLen = almost.frame.length + 1 := by
    simp only [almost, headed, body, UbxFrame.length_bytes, List.length_append,
      UbxFrame.length_head, List.length_singleton]
    omega
  have hroom : headed.frame.length + body.length < headed.expectedLen := by
    simp only [headed, body, UbxFrame.length_bytes, List.length_append, UbxFrame.length_head,
      List.length_singleton]
    omega
  have hpush : almost.push (ckOf m.body).2 = f.full m := by
    simp only [push, full, almost, headed, hsplit, List.append_assoc]
  calc f.bytes poll m.bytes
      = (headed.bytes poll body).bytes poll [(ckOf m.body).2] := by
        rw [hsplit, bytes_append, bytes_head h hlen, bytes_append]
    _ = almost.bytes poll [(ckOf m.body).2] := by
        rw [bytes_collect (f := headed) rfl h.done_eq hroom]
    _ = almost.byte poll (ckOf m.body).2 := by
        rw [bytes_cons (f := almost) h.done_eq]
        rfl
    _ = ((f.full m).complete poll).rehunt := by
        rw [byte_last rfl hlast.le, hpush]

/-- Before that nothing happens. -/
theorem bytes_frame_take (h : f.Hunting) (hlen : m.bytes.length ≤ ubxFrameMax) {k : Nat}
    (hk : k < m.bytes.length) : (f.bytes poll (m.bytes.take k)).done = .zero := by
  by_cases hhead : k < 6
  · have htake : m.bytes.take k = m.head.take k := by
      rw [UbxFrame.bytes_eq, List.take_append_of_le_length (Nat.le_of_lt hhead)]
    rw [htake]
    exact bytes_head_take h hhead
  · have htake : m.bytes.take k = m.head ++ m.tail.take (k - 6) := by
      rw [UbxFrame.bytes_eq, List.take_append, List.take_of_length_le (not_lt.1 hhead),
        UbxFrame.length_head]
    let headed : Framer :=
      { f with state := .payload, frame := m.head, expectedLen := m.bytes.length }
    have hroom : headed.frame.length + (m.tail.take (k - 6)).length < headed.expectedLen := by
      rw [UbxFrame.length_bytes] at hk
      simp only [headed, UbxFrame.length_bytes, UbxFrame.length_head, List.length_take]
      omega
    rw [htake, bytes_append, bytes_head h hlen, bytes_collect (f := headed) rfl h.done_eq hroom]
    exact h.done_eq

/-- What a frame that answers the poll does. -/
theorem complete_full (hclass : m.classId = poll.msgClass) (hid : m.msgId = poll.msgId)
    (hack : ¬ (m.classId = 0x05 ∧ m.msgId = 0x00)) :
    (f.full m).complete poll =
      { f.full m with done := .ok, out := f.out ++ [{ desc := poll.desc, buf := m.body }] } := by
  have hck : doChecksum ((f.full m).frame.drop 2) ((f.full m).expectedLen - 2) = true := by
    have hdrop : (f.full m).frame.drop 2 = m.body ++ [(ckOf m.body).1, (ckOf m.body).2] := rfl
    have hcount : (f.full m).expectedLen - 2 = m.body.length + 2 := by
      simp only [full, UbxFrame.length_bytes, UbxFrame.length_body]
      omega
    have htake : (m.body ++ [(ckOf m.body).1, (ckOf m.body).2]).take m.body.length = m.body :=
      List.take_left
    rw [hdrop, hcount, doChecksum, Nat.add_sub_cancel, htake]
    simp [-UbxFrame.length_body]
  have hbody : ((f.full m).frame.drop 2).take ((f.full m).expectedLen - 4) = m.body := by
    have hcount : (f.full m).expectedLen - 4 = m.body.length := by
      simp only [full, UbxFrame.length_bytes, UbxFrame.length_body]
      omega
    rw [hcount]
    exact List.take_left
  have hcls : (f.full m).frame.getD 2 0 = m.classId := rfl
  have hmid : (f.full m).frame.getD 3 0 = m.msgId := rfl
  simp only [complete, hcls, hmid, if_neg hack, if_pos (And.intro hclass hid), if_pos hck, hbody]
  rfl

/-- An acknowledgement never counts as the answer to a poll. -/
theorem complete_full_ack (hack : m.classId = 0x05 ∧ m.msgId = 0x00) (hdone : f.done ≠ .ok) :
    ((f.full m).complete poll).done ≠ .ok := by
  have hcls : (f.full m).frame.getD 2 0 = m.classId := rfl
  have hmid : (f.full m).frame.getD 3 0 = m.msgId := rfl
  simp only [complete, hcls, hmid, if_pos hack]
  split
  · exact PollMsg.noConfusion
  · exact hdone

/-! ### Noise -/

/-- How many first sync characters stand at the end. -/
def syncRun (noise : List u8) : Nat := (noise.rtakeWhile (· = ubxSyncChar1)).length

/-- A first sync character has just been seen. -/
structure SeenSync (f : Framer) : Prop where
  state_eq : f.state = .sync2
  done_eq : f.done = .zero

/-- What a byte of noise does: the hunt goes back and forth between the two sync states. -/
theorem byte_hunting (poll : UbxCfgPoll) (h : f.Hunting) (b : u8) :
    if b = ubxSyncChar1 then (f.byte poll b).SeenSync else (f.byte poll b).Hunting := by
  by_cases hb : b = ubxSyncChar1
  · rw [if_pos hb]
    simp only [byte, h.state_eq, if_pos hb]
    exact ⟨rfl, h.done_eq⟩
  · rw [if_neg hb]
    simp only [byte, h.state_eq, if_neg hb]
    exact h

/-- Behind a first sync byte, anything but the second one starts over. -/
theorem byte_seenSync (poll : UbxCfgPoll) (h : f.SeenSync) {b : u8} (hb : b ≠ ubxSyncChar2) :
    (f.byte poll b).Hunting := by
  simp only [byte, h.state_eq, if_neg hb]
  exact ⟨rfl, h.done_eq⟩

theorem syncRun_concat (noise : List u8) (b : u8) :
    syncRun (noise ++ [b]) = if b = ubxSyncChar1 then syncRun noise + 1 else 0 := by
  rw [syncRun, List.rtakeWhile_concat]
  by_cases hb : b = ubxSyncChar1
  · rw [if_pos hb, if_pos (decide_eq_true hb)]
    exact List.length_append
  · rw [if_neg hb, if_neg fun htrue => hb (of_decide_eq_true htrue)]
    rfl

/-- Behind a first sync character the noise has no second one. -/
theorem ne_syncChar2 {noise : List u8} {b : u8}
    (hnoise : ¬ [ubxSyncChar1, ubxSyncChar2] <:+: noise ++ [b]) (hrun : 0 < syncRun noise) :
    b ≠ ubxSyncChar2 := by
  intro hb
  have hlast : ¬ ∀ hl : noise ≠ [], ¬ (noise.getLast hl = ubxSyncChar1) := by
    intro hall
    have hnil : noise.rtakeWhile (· = ubxSyncChar1) = [] :=
      List.rtakeWhile_eq_nil_iff.2 fun hl => by simpa using hall hl
    rw [syncRun, hnil] at hrun
    exact Nat.lt_irrefl 0 hrun
  push Not at hlast
  obtain ⟨hl, hlast⟩ := hlast
  refine hnoise ⟨noise.dropLast, [], ?_⟩
  calc noise.dropLast ++ [ubxSyncChar1, ubxSyncChar2] ++ []
      = (noise.dropLast ++ [noise.getLast hl]) ++ [b] := by simp [hlast, hb]
    _ = noise ++ [b] := by rw [List.dropLast_append_getLast]

/-- Noise leaves the hunt in the state that the parity of the last sync characters says. -/
theorem bytes_noise (poll : UbxCfgPoll) (h : f.Hunting) (noise : List u8)
    (hnoise : ¬ [ubxSyncChar1, ubxSyncChar2] <:+: noise) :
    if Even (syncRun noise) then (f.bytes poll noise).Hunting
    else (f.bytes poll noise).SeenSync := by
  induction noise using List.reverseRecOn with
  | nil => simpa [syncRun, bytes] using h
  | append_singleton noise b ih =>
      specialize ih fun hin => hnoise (hin.trans List.infix_append_left)
      rw [bytes_append, syncRun_concat]
      by_cases heven : Even (syncRun noise)
      · rw [if_pos heven] at ih
        rw [bytes_cons ih.done_eq]
        have hbyte := byte_hunting poll ih b
        by_cases hb : b = ubxSyncChar1
        · rw [if_pos hb] at hbyte ⊢
          rwa [if_neg (by simpa [Nat.even_add_one] using heven)]
        · rw [if_neg hb] at hbyte ⊢
          rwa [if_pos Even.zero]
      · rw [if_neg heven] at ih
        rw [bytes_cons ih.done_eq]
        have hrun : 0 < syncRun noise := Nat.pos_of_ne_zero fun hzero => heven (hzero ▸ Even.zero)
        have hbyte := byte_seenSync poll ih (ne_syncChar2 hnoise hrun)
        by_cases hb : b = ubxSyncChar1
        · rw [if_pos hb]
          rwa [if_pos (by simpa [Nat.even_add_one] using heven)]
        · rw [if_neg hb]
          rwa [if_pos Even.zero]

/-! ### A frame without its sync characters -/

/-- After `n` bytes nothing longer than they are has been collected, and a line that has been
written is shorter by the two sync characters and the checksum. -/
structure Within (poll : UbxCfgPoll) (n : Nat) (f : Framer) : Prop where
  frame_le : f.state ≠ .sync1 → f.frame.length ≤ n
  header_le : f.state = .payload → 4 ≤ f.frame.length
  out_nil : f.done ≠ .ok → f.out = []
  out_line : f.done = .ok →
    ∃ buf, f.out = [{ desc := poll.desc, buf := buf }] ∧ buf.length + 4 ≤ n

/-- A frame that is complete prints no more than was read. -/
theorem Within.complete {n : Nat} (h : f.Within poll n) (hdone : f.done = .zero)
    (hstate : f.state = .payload) (hfull : f.expectedLen ≤ f.frame.length) :
    ((f.complete poll).rehunt).Within poll n := by
  have hnil : f.out = [] := h.out_nil (by rw [hdone]; exact PollMsg.noConfusion)
  have hquiet : f.rehunt.Within poll n :=
    ⟨fun hne => absurd rfl hne, Hunt.noConfusion, fun _ => hnil,
      fun hok => absurd (hok.symm.trans hdone) PollMsg.noConfusion⟩
  have hline : ((f.frame.drop 2).take (f.expectedLen - 4)).length + 4 ≤ n := by
    have hframe := h.frame_le (by rw [hstate]; exact Hunt.noConfusion)
    have hheader := h.header_le hstate
    rw [List.length_take]
    omega
  simp only [Framer.complete]
  split_ifs
  · exact ⟨fun hne => absurd rfl hne, Hunt.noConfusion, fun _ => hnil, PollMsg.noConfusion⟩
  · exact hquiet
  · refine ⟨fun hne => absurd rfl hne, Hunt.noConfusion, fun hne => absurd rfl hne, fun _ => ?_⟩
    exact ⟨_, by rw [rehunt, hnil]; rfl, hline⟩
  · exact ⟨fun hne => absurd rfl hne, Hunt.noConfusion, fun _ => hnil, hquiet.out_line⟩
  · exact hquiet

/-- One more byte, one more place. -/
theorem Within.byte {n : Nat} (h : f.Within poll n) (hdone : f.done = .zero) (b : u8) :
    (f.byte poll b).Within poll (n + 1) := by
  have hnil : f.out = [] := h.out_nil (by rw [hdone]; exact PollMsg.noConfusion)
  have hno : ¬ f.done = .ok := by rw [hdone]; exact PollMsg.noConfusion
  have hpush : (f.push b).frame.length = f.frame.length + 1 := by simp [push]
  have hlong : f.state ≠ .sync1 → (f.push b).frame.length ≤ n + 1 := fun hne => by
    rw [hpush]
    exact Nat.succ_le_succ (h.frame_le hne)
  cases hstate : f.state with
  | sync1 =>
      simp only [Framer.byte, hstate]
      split
      · exact ⟨fun _ => by simp, Hunt.noConfusion, fun _ => hnil, fun hok => absurd hok hno⟩
      · exact ⟨fun hne => absurd hstate hne, fun hpay => absurd (hstate.symm.trans hpay)
          Hunt.noConfusion, fun _ => hnil, fun hok => absurd hok hno⟩
  | sync2 =>
      have hne : f.state ≠ .sync1 := by rw [hstate]; exact Hunt.noConfusion
      simp only [Framer.byte, hstate]
      split
      · exact ⟨fun _ => hlong hne, Hunt.noConfusion, fun _ => hnil, fun hok => absurd hok hno⟩
      · exact ⟨fun hne => absurd rfl hne, Hunt.noConfusion, fun _ => hnil,
          fun hok => absurd hok hno⟩
  | header =>
      have hne : f.state ≠ .sync1 := by rw [hstate]; exact Hunt.noConfusion
      simp only [Framer.byte, hstate]
      split_ifs with hsix
      · exact ⟨fun hne => absurd rfl hne, Hunt.noConfusion, fun _ => hnil,
          fun hok => absurd hok hno⟩
      · exact ⟨fun _ => hlong hne, fun _ => le_trans (by decide) hsix, fun _ => hnil,
          fun hok => absurd hok hno⟩
      · exact ⟨fun _ => hlong hne, fun hpay => absurd (hstate.symm.trans hpay) Hunt.noConfusion,
          fun _ => hnil, fun hok => absurd hok hno⟩
  | payload =>
      have hne : f.state ≠ .sync1 := by rw [hstate]; exact Hunt.noConfusion
      have hpushed : (f.push b).Within poll (n + 1) :=
        ⟨fun _ => hlong hne, fun hpay => by rw [hpush]; exact Nat.le_succ_of_le (h.header_le hpay),
          fun _ => hnil, fun hok => absurd hok hno⟩
      simp only [Framer.byte, hstate]
      split
      · next hfull => exact hpushed.complete hdone hstate hfull
      · exact hpushed

/-- The framer prints no more than was read. -/
theorem Within.bytes {n : Nat} (h : f.Within poll n) (bs : List u8) :
    (f.bytes poll bs).Within poll (n + bs.length) := by
  induction bs generalizing f n with
  | nil => exact h
  | cons b bs ih =>
      by_cases hdone : f.done = .zero
      · rw [bytes_cons hdone, List.length_cons, ← Nat.add_assoc, Nat.add_right_comm]
        exact ih (h.byte hdone b)
      · rw [bytes_done hdone]
        refine ⟨fun hne => (h.frame_le hne).trans (Nat.le_add_right n _), h.header_le, h.out_nil,
          fun hok => ?_⟩
        obtain ⟨buf, hout, hbuf⟩ := h.out_line hok
        exact ⟨buf, hout, hbuf.trans (Nat.le_add_right n _)⟩

/-- Where the hunt starts. -/
theorem Hunting.within (h : f.Hunting) (hnil : f.out = []) : f.Within poll 0 :=
  ⟨fun hne => absurd h.state_eq hne, fun hpay => absurd (h.state_eq.symm.trans hpay)
    Hunt.noConfusion, fun _ => hnil, fun hok => absurd (hok.symm.trans h.done_eq)
    PollMsg.noConfusion⟩

/-- A frame whose first byte is taken for the second sync character. -/
theorem bytes_seenSync (h : f.SeenSync) (hnil : f.out = [])
    (hok : (f.bytes poll m.bytes).done = .ok) :
    ∃ buf, (f.bytes poll m.bytes).out = [{ desc := poll.desc, buf := buf }] ∧
      buf.length < m.body.length := by
  let rest : List u8 := ubxSyncChar2 :: (m.body ++ [(ckOf m.body).1, (ckOf m.body).2])
  have hhunt : (f.byte poll ubxSyncChar1).Hunting := byte_seenSync poll h (by decide)
  have hsplit : f.bytes poll m.bytes = (f.byte poll ubxSyncChar1).bytes poll rest :=
    bytes_cons h.done_eq ubxSyncChar1 rest
  have hout : (f.byte poll ubxSyncChar1).out = [] := (byte_out hhunt.done_eq).trans hnil
  have hrest : rest.length = m.body.length + 3 := by simp [rest]
  rw [hsplit] at hok ⊢
  obtain ⟨buf, hline, hbuf⟩ := ((hhunt.within hout).bytes rest).out_line hok
  exact ⟨buf, hline, by omega⟩

end Framer

/-! ### The answer to a poll -/

/-- The line that the answer `m` is to leave. -/
def UbxFrame.line (poll : UbxCfgPoll) (m : UbxFrame) : CfgLine :=
  { desc := poll.desc, buf := m.body }

/-- What is delivered to a poll before its timeout; nothing when the poll could not be sent. -/
def received (poll : UbxCfgPoll) (timeout : u32) (written : Int) (tsMs : u32)
    (rounds : List Round) : List u8 :=
  if written ≠ poll.pollLen.toNat then [] else delivered (tsMs + timeout) rounds

/-- The poll returns `POLL_MSG_OK`, and `m` is the answer that it wrote. -/
def FindsResponse (poll : UbxCfgPoll) (timeout : u32) (written : Int) (tsMs : u32)
    (rounds : List Round) (m : UbxFrame) : Prop :=
  ∃ r, pollUbxData poll timeout written tsMs rounds = some r ∧ r.ret = .ok ∧
    r.text = (m.line poll).text

/-- The length of a printed line. -/
theorem CfgLine.length_text (line : CfgLine) :
    line.text.length = line.desc.length + 3 * line.buf.length + 3 := by
  have hhex : ∀ bs : List u8,
      (bs.flatMap fun b => [' ', hexDigit (b.toNat / 16), hexDigit (b.toNat % 16)]).length =
        3 * bs.length := by
    intro bs
    induction bs with
    | nil => rfl
    | cons b bs ih =>
        rw [List.flatMap_cons, List.length_append, ih, List.length_cons, List.length_cons]
        simp only [List.length_cons, List.length_nil]
        omega
  rw [CfgLine.text, String.length_ofList]
  simp only [List.length_append, hhex, List.length_cons, List.length_nil, String.length_toList]
  omega

theorem PollReturn.text_singleton {r : PollReturn} {line : CfgLine} (h : r.out = [line]) :
    r.text = line.text := by
  simp [PollReturn.text, h]

/-- A poll that was sent and has received something that ends it has returned. -/
theorem pollUbxData_received {poll : UbxCfgPoll} {timeout : u32} {written : Int} {tsMs : u32}
    {rounds : List Round}
    (h : (Framer.start.bytes poll (received poll timeout written tsMs rounds)).done ≠ .zero) :
    pollUbxData poll timeout written tsMs rounds =
      some (Framer.start.bytes poll (received poll timeout written tsMs rounds)).result := by
  by_cases hwritten : written ≠ poll.pollLen.toNat
  · rw [received, if_pos hwritten] at h
    exact absurd rfl h
  · rw [received, if_neg hwritten] at h ⊢
    rw [pollUbxData, if_neg hwritten, pollLoop_done rfl h]
    rfl

/-- What a poll returns comes from what it received. -/
theorem pollUbxData_some {poll : UbxCfgPoll} {timeout : u32} {written : Int} {tsMs : u32}
    {rounds : List Round} {r : PollReturn}
    (h : pollUbxData poll timeout written tsMs rounds = some r) :
    r = (Framer.start.bytes poll (received poll timeout written tsMs rounds)).result := by
  by_cases hwritten : written ≠ poll.pollLen.toNat
  · rw [pollUbxData, if_pos hwritten] at h
    cases h
    rw [received, if_pos hwritten]
    rfl
  · rw [pollUbxData, if_neg hwritten, Option.map_eq_some_iff] at h
    obtain ⟨f, hloop, rfl⟩ := h
    rw [received, if_neg hwritten, ← pollLoop_some hloop]

/-- Apart from the checksum error the return value is how the hunt ended. -/
theorem Framer.result_ret {f : Framer} {ret : PollMsg} (hret : ret = .ok ∨ ret = .nak) :
    f.result.ret = ret ↔ f.done = ret := by
  rw [Framer.result]
  dsimp only
  split
  · next h =>
      rw [h.1]
      rcases hret with rfl | rfl <;> simp
  · rfl

/-- A wait that ends well has read an answer, and prints it. -/
theorem pollUbxData_ok {poll : UbxCfgPoll} {timeout : u32} {written : Int} {tsMs : u32}
    {rounds : List Round} {r : PollReturn}
    (h : pollUbxData poll timeout written tsMs rounds = some r) (hok : r.ret = .ok) :
    (Framer.start.bytes poll (received poll timeout written tsMs rounds)).done = .ok ∧
      r.out = (Framer.start.bytes poll (received poll timeout written tsMs rounds)).out := by
  rw [pollUbxData_some h] at hok ⊢
  exact ⟨(Framer.result_ret (.inl rfl)).1 hok, rfl⟩

/-- The answer behind noise is found exactly when an even number of first sync characters stands
before it, and when it is no acknowledgement. -/
theorem finds_response_iff (poll : UbxCfgPoll) (timeout : u32) (written : Int) (tsMs : u32)
    (rounds : List Round) (noise : List u8) (m : UbxFrame)
    (hnoise : ¬ [ubxSyncChar1, ubxSyncChar2] <:+: noise) (hlen : m.bytes.length ≤ ubxFrameMax)
    (hclass : m.classId = poll.msgClass) (hid : m.msgId = poll.msgId)
    (hstream : received poll timeout written tsMs rounds = noise ++ m.bytes) :
    FindsResponse poll timeout written tsMs rounds m ↔
      Even (Framer.syncRun noise) ∧ ¬ (m.classId = 0x05 ∧ m.msgId = 0x00) := by
  have hafter := Framer.bytes_noise poll Framer.hunting_start noise hnoise
  have hread : Framer.start.bytes poll (received poll timeout written tsMs rounds) =
      (Framer.start.bytes poll noise).bytes poll m.bytes := by
    rw [hstream, Framer.bytes_append]
  constructor
  · rintro ⟨r, hr, hok, htext⟩
    obtain ⟨hdone, hout⟩ := pollUbxData_ok hr hok
    rw [hread] at hdone hout
    by_cases heven : Even (Framer.syncRun noise)
    · rw [if_pos heven] at hafter
      refine ⟨heven, fun hack => ?_⟩
      rw [Framer.bytes_frame hafter hlen] at hdone
      exact Framer.complete_full_ack hack (by rw [hafter.done_eq]; exact PollMsg.noConfusion) hdone
    · rw [if_neg heven] at hafter
      have hnil : (Framer.start.bytes poll noise).out = [] := Framer.bytes_out hafter.done_eq
      obtain ⟨buf, hline, hbuf⟩ := Framer.bytes_seenSync hafter hnil hdone
      have hlength := congrArg String.length htext
      rw [PollReturn.text_singleton (hout.trans hline), CfgLine.length_text,
        CfgLine.length_text] at hlength
      simp only [UbxFrame.line] at hlength
      omega
  · rintro ⟨heven, hack⟩
    rw [if_pos heven] at hafter
    have hnil : (Framer.start.bytes poll noise).out = [] := Framer.bytes_out hafter.done_eq
    have hfull := Framer.complete_full hclass hid hack (f := Framer.start.bytes poll noise)
    have hdone : (Framer.start.bytes poll (received poll timeout written tsMs rounds)).done =
        .ok := by
      rw [hread, Framer.bytes_frame hafter hlen, hfull]
      rfl
    have hout : (Framer.start.bytes poll (received poll timeout written tsMs rounds)).out =
        [m.line poll] := by
      rw [hread, Framer.bytes_frame hafter hlen, hfull]
      simp only [Framer.rehunt, hnil]
      rfl
    refine ⟨_, pollUbxData_received (by rw [hdone]; exact PollMsg.noConfusion), ?_, ?_⟩
    · simp [Framer.result, hdone]
    · exact PollReturn.text_singleton hout

/-- The poll for the version, and an answer to it. -/
def monVer : UbxCfgPoll :=
  { desc := "MON-VER", msg := [0xB5, 0x62, 0x0A, 0x04, 0x00, 0x00, 0x0E, 0x34] }

def romFrame : UbxFrame :=
  { classId := 0x0A, msgId := 0x04, payload := [0x52, 0x4F, 0x4D], payload_lt := by decide }

/-- A round that reads some bytes and then the answer, with the time over. -/
def romRounds (noise : List u8) : List Round :=
  [{ input := .read (noise ++ romFrame.bytes), tsMs := 1000 }]

theorem finds_response_two_syncs :
    FindsResponse monVer 1000 8 0 (romRounds [0xB5, 0xB5]) romFrame :=
  (finds_response_iff monVer 1000 8 0 (romRounds [0xB5, 0xB5]) [0xB5, 0xB5] romFrame (by decide)
    (by decide) rfl rfl (by decide)).2 ⟨by decide, by decide⟩

/-- One stray first sync character, and the answer is lost. -/
theorem response_lost :
    ¬ ∀ (poll : UbxCfgPoll) (timeout : u32) (written : Int) (tsMs : u32) (rounds : List Round)
      (noise : List u8) (m : UbxFrame), ¬ [ubxSyncChar1, ubxSyncChar2] <:+: noise →
      m.bytes.length ≤ ubxFrameMax → m.classId = poll.msgClass → m.msgId = poll.msgId →
      received poll timeout written tsMs rounds = noise ++ m.bytes →
      FindsResponse poll timeout written tsMs rounds m := by
  intro hall
  obtain ⟨r, hr, hok, -⟩ := hall monVer 1000 8 0 (romRounds [0xB5]) [0xB5] romFrame (by decide)
    (by decide) rfl rfl (by decide)
  have hzero : pollUbxData monVer 1000 8 0 (romRounds [0xB5]) =
      some { ret := .zero, out := [] } := by decide
  rw [hzero] at hr
  cases hr
  cases hok

end ConfigEnv.Gps
