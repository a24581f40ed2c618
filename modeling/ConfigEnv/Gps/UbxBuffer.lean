/-
Module: ConfigEnv.Gps.UbxBuffer
Layer: Gps
Purpose: The state machine of `poll_ubx_data` with its array: `frame` has `UBX_FRAME_MAX` bytes,
  which are not initialized, and `frame_len` says how many of them belong to the current frame. A
  store past the end of the array is a fault, and so is a load of a byte that is not of the current
  frame. The calls of `do_checksum` and `write_msg_to_file` read the array where the source does.
Trusted boundary: none
Main exports: FrameMemory, FrameMemory.doChecksum, FrameMemory.complete, FrameMemory.byte,
  FrameMemory.bytes, FrameMemory.reads
Open obligations: none
-/
import ConfigEnv.Gps.Ubx
import ConfigEnv.Lib.FillBuffer

namespace ConfigEnv.Gps

/-- The variables of `poll_ubx_data` that a byte can change, with the array `frame` and `frame_len`.
-/
structure FrameMemory where
  state : Hunt
  frame : FillBuffer ubxFrameMax u8
  expectedLen : Nat
  cksumErrSeen : Bool
  done : PollMsg
  out : List CfgLine

namespace FrameMemory

open FillBuffer (Fault)

/-- `frame` holds anything at first. -/
def start (cells : Fin ubxFrameMax → u8) : FrameMemory :=
  { state := .sync1, frame := { cells := cells, len := 0 }, expectedLen := 0
    cksumErrSeen := false, done := .zero, out := [] }

/-- `do_checksum(&frame[2], len)`. -/
def doChecksum (frame : FillBuffer ubxFrameMax u8) (len : Nat) : Except Fault Bool := do
  let bs ← frame.loads 2 (len - 2)
  let ckA ← frame.load (2 + (len - 2))
  if (ckOf bs).1 = ckA then
    let ckB ← frame.load (2 + (len - 1))
    .ok (decide ((ckOf bs).2 = ckB))
  else .ok false

/-- `expected_len >= 10 && frame[6] == msg_class && frame[7] == msg_id`. -/
def namesPoll (poll : UbxCfgPoll) (m : FrameMemory) : Except Fault Bool :=
  if m.expectedLen ≥ 10 then do
    let cls ← m.frame.load 6
    if cls = poll.msgClass then
      let id ← m.frame.load 7
      .ok (decide (id = poll.msgId))
    else .ok false
  else .ok false

/-- The branches on class and id. -/
def complete (poll : UbxCfgPoll) (m : FrameMemory) : Except Fault FrameMemory := do
  let cls ← m.frame.load 2
  let id ← m.frame.load 3
  if cls = 0x05 ∧ id = 0x00 then
    if ← m.namesPoll poll then .ok { m with done := .nak } else .ok m
  else if cls = poll.msgClass ∧ id = poll.msgId then
    if ← doChecksum m.frame (m.expectedLen - 2) then
      let buf ← m.frame.loads 2 (m.expectedLen - 4)
      .ok { m with done := .ok, out := m.out ++ [{ desc := poll.desc, buf := buf }] }
    else .ok { m with cksumErrSeen := true }
  else .ok m

/-- The switch on `state`. -/
def byte (poll : UbxCfgPoll) (m : FrameMemory) (b : u8) : Except Fault FrameMemory :=
  match m.state with
  | .sync1 =>
      if b = ubxSyncChar1 then do
        let frame ← m.frame.clear.push b
        .ok { m with frame := frame, state := .sync2 }
      else .ok m
  | .sync2 =>
      if b = ubxSyncChar2 then do
        let frame ← m.frame.push b
        .ok { m with frame := frame, state := .header }
      else .ok { m with state := .sync1 }
  | .header => do
      let frame ← m.frame.push b
      if frame.len ≥ 6 then
        let hi ← frame.load 5
        let lo ← frame.load 4
        let expectedLen := (hi ++ lo : u16).toNat + 8
        if expectedLen > ubxFrameMax ∨ expectedLen < 8 then
          .ok { m with frame := frame.clear, expectedLen := expectedLen, state := .sync1 }
        else .ok { m with frame := frame, expectedLen := expectedLen, state := .payload }
      else .ok { m with frame := frame }
  | .payload => do
      let frame ← m.frame.push b
      if frame.len ≥ m.expectedLen then
        let m ← complete poll { m with frame := frame }
        .ok { m with frame := m.frame.clear, state := .sync1 }
      else .ok { m with frame := frame }

/-- `for(int i = 0; i < bytes_read && !done; i++)`. -/
def bytes (poll : UbxCfgPoll) (m : FrameMemory) : List u8 → Except Fault FrameMemory
  | [] => .ok m
  | b :: bs =>
      if m.done = .zero then do
        let m ← m.byte poll b
        m.bytes poll bs
      else .ok m

/-- The bytes of some reads. -/
def reads (poll : UbxCfgPoll) (m : FrameMemory) : List (List u8) → Except Fault FrameMemory
  | [] => .ok m
  | buf :: bufs => do
      let m ← m.bytes poll buf
      m.reads poll bufs

end FrameMemory

end ConfigEnv.Gps
