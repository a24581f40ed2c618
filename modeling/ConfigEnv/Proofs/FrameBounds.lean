/-
Module: ConfigEnv.Proofs.FrameBounds
Layer: Proofs
Purpose: The array of `poll_ubx_data`. With the stream in any reads, every store is inside of the
  array and every load is of a byte of the current frame, so that the machine with the array does
  what the machine with a list does; the invariant of the window bounds the stores.
Trusted boundary: none
Main exports: FrameMemory.Simulates, FrameMemory.Simulates.complete, FrameMemory.Simulates.byte,
  FrameMemory.Simulates.bytes, frame_buffer_safe
Open obligations: none
-/
import ConfigEnv.Gps.UbxBuffer
import ConfigEnv.Proofs.FrameWindow

namespace ConfigEnv.Gps

namespace FrameMemory

variable {poll : UbxCfgPoll} {m : FrameMemory} {f : Framer} {bs : List u8}

/-- The machine with the array is in the state of the machine with the list. -/
structure Simulates (m : FrameMemory) (f : Framer) : Prop where
  state_eq : m.state = f.state
  frame : m.frame.Holds f.frame
  expectedLen_eq : m.expectedLen = f.expectedLen
  cksumErrSeen_eq : m.cksumErrSeen = f.cksumErrSeen
  done_eq : m.done = f.done
  out_eq : m.out = f.out

theorem ok_bind {α β ε : Type} (a : α) (k : α → Except ε β) :
    ((.ok a : Except ε α) >>= k) = k a := rfl

/-- `do_checksum` reads the two checksum bytes and what is before them. -/
theorem doChecksum_ok {frame : FillBuffer ubxFrameMax u8} {l : List u8} {len : Nat}
    (h : frame.Holds l) (htwo : 2 ≤ len) (hlen : len + 2 ≤ l.length) :
    doChecksum frame len = .ok (Gps.doChecksum (l.drop 2) len) := by
  have hget : ∀ i, (l.drop 2).getD i 0 = l.getD (2 + i) 0 := by
    intro i
    rw [List.getD_eq_getElem?_getD, List.getElem?_drop, ← List.getD_eq_getElem?_getD]
  have hloads : frame.loads 2 (len - 2) = .ok ((l.drop 2).take (len - 2)) := h.loads (by omega)
  have hckA : frame.load (2 + (len - 2)) = .ok (l.getD (2 + (len - 2)) 0) := h.load (by omega) 0
  have hckB : frame.load (2 + (len - 1)) = .ok (l.getD (2 + (len - 1)) 0) := h.load (by omega) 0
  rw [doChecksum, hloads, ok_bind, hckA, ok_bind, hckB, Gps.doChecksum, hget, hget]
  by_cases heq : (ckOf ((l.drop 2).take (len - 2))).1 = l.getD (2 + (len - 2)) 0
  · rw [if_pos heq, ok_bind]
    simp only [heq, true_and]
  · rw [if_neg heq]
    exact congrArg Except.ok (decide_eq_false fun hand => heq hand.1).symm

/-- The bytes that name the poll are read when the frame is long enough for them. -/
theorem namesPoll_ok (h : m.Simulates f) (hlen : f.expectedLen ≤ f.frame.length) :
    m.namesPoll poll = .ok (decide (f.expectedLen ≥ 10 ∧
      f.frame.getD 6 0 = poll.msgClass ∧ f.frame.getD 7 0 = poll.msgId)) := by
  rw [namesPoll, h.expectedLen_eq]
  by_cases hten : f.expectedLen ≥ 10
  · have h6 : m.frame.load 6 = .ok (f.frame.getD 6 0) := h.frame.load (by omega) 0
    have h7 : m.frame.load 7 = .ok (f.frame.getD 7 0) := h.frame.load (by omega) 0
    rw [if_pos hten, h6, ok_bind, h7]
    by_cases hclass : f.frame.getD 6 0 = poll.msgClass
    · rw [if_pos hclass, ok_bind]
      simp only [hten, hclass, true_and]
    · rw [if_neg hclass]
      exact congrArg Except.ok (decide_eq_false fun hand => hclass hand.2.1).symm
  · rw [if_neg hten]
    exact congrArg Except.ok (decide_eq_false fun hand => hten hand.1).symm

/-- The branches on a complete frame. -/
theorem Simulates.complete (poll : UbxCfgPoll) (h : m.Simulates f)
    (hlen : f.expectedLen = f.frame.length) (hmin : 8 ≤ f.expectedLen) :
    ∃ m', m.complete poll = .ok m' ∧ m'.Simulates (f.complete poll) := by
  have h2 : m.frame.load 2 = .ok (f.frame.getD 2 0) := h.frame.load (by omega) 0
  have h3 : m.frame.load 3 = .ok (f.frame.getD 3 0) := h.frame.load (by omega) 0
  have hbuf : m.frame.loads 2 (f.expectedLen - 4) =
      .ok ((f.frame.drop 2).take (f.expectedLen - 4)) := h.frame.loads (by omega)
  rw [FrameMemory.complete, h2, ok_bind, h3, ok_bind, namesPoll_ok h hlen.le, ok_bind,
    h.expectedLen_eq, doChecksum_ok h.frame (by omega) (by omega), ok_bind, hbuf, ok_bind]
  simp only [decide_eq_true_eq, Framer.complete]
  split_ifs
  · exact ⟨_, rfl, h.state_eq, h.frame, rfl, h.cksumErrSeen_eq, rfl, h.out_eq⟩
  · exact ⟨m, rfl, h⟩
  · exact ⟨_, rfl, h.state_eq, h.frame, rfl, h.cksumErrSeen_eq, rfl,
      congrArg (· ++ _) h.out_eq⟩
  · exact ⟨_, rfl, h.state_eq, h.frame, rfl, rfl, h.done_eq, h.out_eq⟩
  · exact ⟨m, rfl, h⟩

/-- One byte: the bounds of the window are those of the stores. -/
theorem Simulates.byte (poll : UbxCfgPoll) (h : m.Simulates f) (hwin : f.Windowed bs) (b : u8) :
    ∃ m', m.byte poll b = .ok m' ∧ m'.Simulates (f.byte poll b) := by
  cases hstate : f.state with
  | sync1 =>
      simp only [FrameMemory.byte, h.state_eq, hstate, Framer.byte]
      split
      · obtain ⟨frame, hpush, hframe⟩ :=
          (FillBuffer.Holds.clear m.frame).push (by decide : 0 < ubxFrameMax) b
        rw [hpush]
        exact ⟨_, rfl, rfl, hframe, h.expectedLen_eq, h.cksumErrSeen_eq, h.done_eq, h.out_eq⟩
      · exact ⟨m, rfl, h⟩
  | sync2 =>
      simp only [FrameMemory.byte, h.state_eq, hstate, Framer.byte]
      split
      · have hroom : f.frame.length < ubxFrameMax := by
          rw [hwin.sync2 hstate]
          decide
        obtain ⟨frame, hpush, hframe⟩ := h.frame.push hroom b
        rw [hpush]
        exact ⟨_, rfl, rfl, hframe, h.expectedLen_eq, h.cksumErrSeen_eq, h.done_eq, h.out_eq⟩
      · exact ⟨_, rfl, rfl, h.frame, h.expectedLen_eq, h.cksumErrSeen_eq, h.done_eq, h.out_eq⟩
  | header =>
      have hroom : f.frame.length < ubxFrameMax :=
        Nat.lt_of_lt_of_le (hwin.header_lt hstate) (by decide)
      obtain ⟨frame, hpush, hframe⟩ := h.frame.push hroom b
      change frame.Holds (f.push b).frame at hframe
      simp only [FrameMemory.byte, h.state_eq, hstate, Framer.byte, hpush, ok_bind, hframe.len_eq]
      by_cases hsix : (f.push b).frame.length ≥ 6
      · have h5 : frame.load 5 = .ok ((f.push b).frame.getD 5 0) := hframe.load (by omega) 0
        have h4 : frame.load 4 = .ok ((f.push b).frame.getD 4 0) := hframe.load (by omega) 0
        have hfield : ((f.push b).frame.getD 5 0 ++ (f.push b).frame.getD 4 0 : u16).toNat + 8 =
            (f.push b).lengthField := rfl
        rw [if_pos hsix, if_pos hsix, h5, ok_bind, h4, ok_bind, hfield]
        by_cases hbogus : (f.push b).lengthField > ubxFrameMax ∨ (f.push b).lengthField < 8
        · rw [if_pos hbogus, if_pos hbogus]
          exact ⟨_, rfl, rfl, .clear frame, rfl, h.cksumErrSeen_eq, h.done_eq, h.out_eq⟩
        · rw [if_neg hbogus, if_neg hbogus]
          exact ⟨_, rfl, rfl, hframe, rfl, h.cksumErrSeen_eq, h.done_eq, h.out_eq⟩
      · rw [if_neg hsix, if_neg hsix]
        exact ⟨_, rfl, hstate.symm, hframe, h.expectedLen_eq, h.cksumErrSeen_eq, h.done_eq,
          h.out_eq⟩
  | payload =>
      have hlt := hwin.payload_lt hstate
      have hroom : f.frame.length < ubxFrameMax := Nat.lt_of_lt_of_le hlt (hwin.fits hstate)
      obtain ⟨frame, hpush, hframe⟩ := h.frame.push hroom b
      have hpushed : FrameMemory.Simulates { m with frame := frame } (f.push b) :=
        ⟨h.state_eq, hframe, h.expectedLen_eq, h.cksumErrSeen_eq, h.done_eq, h.out_eq⟩
      have hfull_iff : frame.len ≥ m.expectedLen ↔ (f.push b).frame.length ≥ f.expectedLen := by
        rw [hframe.len_eq, h.expectedLen_eq]
        rfl
      simp only [FrameMemory.byte, h.state_eq, hstate, Framer.byte, hpush, ok_bind]
      by_cases hfull : (f.push b).frame.length ≥ f.expectedLen
      · have hlen : (f.push b).expectedLen = (f.push b).frame.length := by
          simp only [Framer.push_expectedLen, Framer.push_frame, List.length_append,
            List.length_singleton] at hfull ⊢
          omega
        have hmin : 8 ≤ (f.push b).expectedLen := by
          rw [Framer.push_expectedLen, hwin.length_eq hstate]
          exact Nat.le_add_left 8 _
        obtain ⟨m', hcomplete, hsim⟩ := hpushed.complete poll hlen hmin
        simp only [h.state_eq, hstate] at hcomplete
        rw [if_pos (hfull_iff.2 hfull), if_pos hfull, hcomplete]
        exact ⟨_, rfl, rfl, .clear m'.frame, hsim.expectedLen_eq, hsim.cksumErrSeen_eq,
          hsim.done_eq, hsim.out_eq⟩
      · rw [if_neg fun hge => hfull (hfull_iff.1 hge), if_neg hfull]
        exact ⟨_, rfl, hstate.symm, hframe, h.expectedLen_eq, h.cksumErrSeen_eq, h.done_eq,
          h.out_eq⟩

theorem simulates_start (cells : Fin ubxFrameMax → u8) :
    (FrameMemory.start cells).Simulates Framer.start :=
  ⟨rfl, ⟨rfl, Nat.zero_le _, fun _ _ h => absurd h (Nat.not_lt_zero _)⟩, rfl, rfl, rfl, rfl⟩

/-- The bytes of a read. -/
theorem Simulates.bytes {stream : List u8} (h : m.Simulates (Framer.start.bytes poll stream))
    (buf : List u8) :
    ∃ m', m.bytes poll buf = .ok m' ∧
      m'.Simulates (Framer.start.bytes poll (stream ++ buf)) := by
  induction buf generalizing m stream with
  | nil =>
      rw [List.append_nil]
      exact ⟨m, rfl, h⟩
  | cons b buf ih =>
      rw [FrameMemory.bytes, h.done_eq]
      by_cases hdone : (Framer.start.bytes poll stream).done = .zero
      · obtain ⟨m1, hbyte, hsim⟩ := h.byte poll (windowed_all poll stream) b
        have hnext : (Framer.start.bytes poll stream).byte poll b =
            Framer.start.bytes poll (stream ++ [b]) := by
          rw [Framer.bytes_append, Framer.bytes_cons hdone]
          rfl
        rw [hnext] at hsim
        obtain ⟨m', hbytes, hsim'⟩ := ih hsim
        rw [List.append_assoc, List.singleton_append] at hsim'
        rw [if_pos hdone, hbyte]
        exact ⟨m', hbytes, hsim'⟩
      · rw [if_neg hdone]
        refine ⟨m, rfl, ?_⟩
        rwa [Framer.bytes_append, Framer.bytes_done hdone]

/-- Over all reads, the array follows the framer and never faults. -/
theorem Simulates.reads {stream : List u8} (h : m.Simulates (Framer.start.bytes poll stream))
    (bufs : List (List u8)) :
    ∃ m', m.reads poll bufs = .ok m' ∧
      m'.Simulates (Framer.start.bytes poll (stream ++ bufs.flatten)) := by
  induction bufs generalizing m stream with
  | nil =>
      rw [List.flatten_nil, List.append_nil]
      exact ⟨m, rfl, h⟩
  | cons buf bufs ih =>
      obtain ⟨m1, hbytes, hsim⟩ := h.bytes buf
      obtain ⟨m', hreads, hsim'⟩ := ih hsim
      rw [FrameMemory.reads, hbytes]
      refine ⟨m', hreads, ?_⟩
      rwa [List.flatten_cons, ← List.append_assoc]

end FrameMemory

/-- In any stream, read in any chunks, no store is past the end of the array and no load is of a
byte that is not of the current frame; `frame_len` keeps its bounds, the bytes below it are the last
ones of the stream, and the outcome is that of the machine with a list. -/
theorem frame_buffer_safe (poll : UbxCfgPoll) (cells : Fin ubxFrameMax → u8)
    (bufs : List (List u8)) :
    ∃ m, (FrameMemory.start cells).reads poll bufs = .ok m ∧
      m.frame.len ≤ ubxFrameMax ∧
      (m.state = .payload → 6 ≤ m.frame.len ∧ m.frame.len < m.expectedLen ∧
        m.expectedLen ≤ ubxFrameMax) ∧
      (m.state ≠ .sync1 → m.frame.filled <:+ bufs.flatten) ∧
      m.Simulates (Framer.start.bytes poll bufs.flatten) := by
  have hstart : (FrameMemory.start cells).Simulates (Framer.start.bytes poll []) :=
    FrameMemory.simulates_start cells
  obtain ⟨m, hreads, hsim⟩ := hstart.reads bufs
  rw [List.nil_append] at hsim
  have hwin := windowed_all poll bufs.flatten
  refine ⟨m, hreads, ?_, fun hstate => ?_, fun hstate => ?_, hsim⟩
  · rw [hsim.frame.len_eq]
    exact hsim.frame.le
  · rw [hsim.state_eq] at hstate
    rw [hsim.frame.len_eq, hsim.expectedLen_eq]
    exact ⟨hwin.payload_ge hstate, hwin.payload_lt hstate, hwin.fits hstate⟩
  · rw [hsim.state_eq] at hstate
    rw [hsim.frame.filled_eq]
    exact hwin.suffix hstate

end ConfigEnv.Gps
