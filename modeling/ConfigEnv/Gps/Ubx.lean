/-
Module: ConfigEnv.Gps.Ubx
Layer: Gps
Purpose: The dialogue with the GNSS receiver in main.c: one poll, and the hunt for the frame that
  answers it. `poll_ubx_data` reads whatever chunks the serial line gives and feeds them byte by
  byte to a machine of four states, until a frame ends the poll or the clock does. A round of its
  loop is what `select` and `read` return and what the clock says afterwards; the clock counts
  milliseconds in 32 bits. What the front-end flag prints is left out.
Trusted boundary: none
Main exports: UbxCfgPoll, doChecksum, CfgLine, Framer, Framer.byte, Framer.bytes, Round, pollRound,
  pollLoop, PollReturn, pollUbxData, UbxFrame
Open obligations: none
-/
import Mathlib.Data.List.GetD
import Mathlib.Tactic.Common

namespace ConfigEnv.Gps

/-- A byte of the line. -/
abbrev u8 := BitVec 8

/-- `uint16_t`. -/
abbrev u16 := BitVec 16

/-- `uint32_t`. -/
abbrev u32 := BitVec 32

/-- `UBX_SYNC_CHAR1`. -/
abbrev ubxSyncChar1 : u8 := 0xB5

/-- `UBX_SYNC_CHAR2`. -/
abbrev ubxSyncChar2 : u8 := 0x62

/-- `UBX_FRAME_MAX`. -/
abbrev ubxFrameMax : Nat := 2048

/-! ### Polls -/

/-- `struct ubx_cfg_poll`; the bytes of `msg` past its initializer are zero. -/
structure UbxCfgPoll where
  desc : String
  msg : List u8
deriving DecidableEq, Repr

namespace UbxCfgPoll

/-- The class in the message of a poll. -/
def msgClass (poll : UbxCfgPoll) : u8 := poll.msg.getD 2 0

/-- Its id. -/
def msgId (poll : UbxCfgPoll) : u8 := poll.msg.getD 3 0

/-- The length field, two bytes with the low one first, and the eight bytes around the payload. -/
def pollLen (poll : UbxCfgPoll) : u16 := (poll.msg.getD 5 0 ++ poll.msg.getD 4 0 : u16) + 8

end UbxCfgPoll

/-- `POLL_MSG_OK`, `POLL_MSG_NAK` and `POLL_MSG_CKSUM_ERR`, and 0. -/
inductive PollMsg where
  | zero
  | ok
  | nak
  | cksumErr
deriving DecidableEq, Repr

/-! ### Checksum -/

/-- The body of the loop in `do_checksum`, on `CK_A` and `CK_B`. -/
def ckStep (ck : u8 × u8) (b : u8) : u8 × u8 := (ck.1 + b, ck.2 + (ck.1 + b))

/-- The two sums of the checksum over some bytes. -/
def ckOf (bs : List u8) : u8 × u8 := bs.foldl ckStep (0, 0)

/-- `do_checksum(buf, len)`. -/
def doChecksum (buf : List u8) (len : Nat) : Bool :=
  (ckOf (buf.take (len - 2))).1 = buf.getD (len - 2) 0 ∧
    (ckOf (buf.take (len - 2))).2 = buf.getD (len - 1) 0

/-! ### The line of a response -/

/-- A call of `write_msg_to_file`. -/
structure CfgLine where
  desc : String
  buf : List u8
deriving DecidableEq, Repr

/-- A digit of `%02X`. -/
def hexDigit (n : Nat) : Char := "0123456789ABCDEF".toList.getD n '0'

/-- What the call prints. -/
def CfgLine.text (line : CfgLine) : String :=
  String.ofList (line.desc.toList ++ [' ', '-'] ++
    line.buf.flatMap (fun b => [' ', hexDigit (b.toNat / 16), hexDigit (b.toNat % 16)]) ++ ['\n'])

/-! ### The hunt for a frame -/

/-- `state`: 0, 1, 2 and 3. -/
inductive Hunt where
  | sync1
  | sync2
  | header
  | payload
deriving DecidableEq, Repr

/-- The variables of `poll_ubx_data` that a byte can change. `frame` holds its first `frame_len`
bytes, and `out` is what has been written to `fp`. -/
structure Framer where
  state : Hunt
  frame : List u8
  expectedLen : Nat
  cksumErrSeen : Bool
  done : PollMsg
  out : List CfgLine
deriving DecidableEq, Repr

namespace Framer

/-- The framer at the start of a poll. -/
def start : Framer :=
  { state := .sync1, frame := [], expectedLen := 0, cksumErrSeen := false, done := .zero
    out := [] }

/-- A frame that is all there: the branches on its class and id. -/
def complete (poll : UbxCfgPoll) (f : Framer) : Framer :=
  let cls := f.frame.getD 2 0
  let id := f.frame.getD 3 0
  if cls = 0x05 ∧ id = 0x00 then
    if f.expectedLen ≥ 10 ∧ f.frame.getD 6 0 = poll.msgClass ∧ f.frame.getD 7 0 = poll.msgId then
      { f with done := .nak }
    else f
  else if cls = poll.msgClass ∧ id = poll.msgId then
    if doChecksum (f.frame.drop 2) (f.expectedLen - 2) then
      let line : CfgLine :=
        { desc := poll.desc, buf := (f.frame.drop 2).take (f.expectedLen - 4) }
      { f with done := .ok, out := f.out ++ [line] }
    else { f with cksumErrSeen := true }
  else f

/-- `state = 0; frame_len = 0;`. -/
def rehunt (f : Framer) : Framer := { f with state := .sync1, frame := [] }

/-- `frame[frame_len++] = b`. -/
def push (f : Framer) (b : u8) : Framer := { f with frame := f.frame ++ [b] }

/-- `(frame[5] << 8 | frame[4]) + 8`. -/
def lengthField (f : Framer) : Nat := (f.frame.getD 5 0 ++ f.frame.getD 4 0 : u16).toNat + 8

/-- The switch on `state`. -/
def byte (poll : UbxCfgPoll) (f : Framer) (b : u8) : Framer :=
  match f.state with
  | .sync1 => if b = ubxSyncChar1 then { f with frame := [b], state := .sync2 } else f
  | .sync2 =>
      if b = ubxSyncChar2 then { f.push b with state := .header } else { f with state := .sync1 }
  | .header =>
      if (f.push b).frame.length ≥ 6 then
        let expectedLen := (f.push b).lengthField
        if expectedLen > ubxFrameMax ∨ expectedLen < 8 then
          { (f.push b).rehunt with expectedLen := expectedLen }
        else { f.push b with expectedLen := expectedLen, state := .payload }
      else f.push b
  | .payload =>
      if (f.push b).frame.length ≥ f.expectedLen then ((f.push b).complete poll).rehunt
      else f.push b

/-- `for(int i = 0; i < bytes_read && !done; i++)`. -/
def bytes (poll : UbxCfgPoll) (f : Framer) : List u8 → Framer
  | [] => f
  | b :: bs => if f.done = .zero then (f.byte poll b).bytes poll bs else f

end Framer

/-! ### The poll -/

/-- What a round of the loop gets: `select` fails, with an error to retry or another one, or times
out, `read` gives nothing, or bytes. -/
inductive Input where
  | selectRetry
  | selectError
  | timeout
  | readNothing
  | read (buf : List u8)
deriving DecidableEq, Repr

/-- The bytes that a round reads. -/
def Input.buf : Input → List u8
  | .read buf => buf
  | _ => []

/-- A round, with the clock at its end. -/
structure Round where
  input : Input
  tsMs : u32
deriving DecidableEq, Repr

/-- `ts_ms < ts_end_ms`. -/
def Round.inTime (tsEndMs : u32) (r : Round) : Bool := r.tsMs < tsEndMs

/-- The body of the do loop and its condition: whether there is another round. -/
def pollRound (poll : UbxCfgPoll) (tsEndMs : u32) (f : Framer) (r : Round) : Framer × Bool :=
  if r.input = .selectError then (f, false)
  else
    let f := f.bytes poll r.input.buf
    (f, r.inTime tsEndMs && f.done = .zero)

/-- The do loop, up to the round after which it ends; `none` while it goes on. -/
def pollLoop (poll : UbxCfgPoll) (tsEndMs : u32) (f : Framer) : List Round → Option Framer
  | [] => none
  | r :: rounds =>
      if (pollRound poll tsEndMs f r).2 = true then
        pollLoop poll tsEndMs (pollRound poll tsEndMs f r).1 rounds
      else some (pollRound poll tsEndMs f r).1

/-- The return value of `poll_ubx_data`, and the lines that it wrote. -/
structure PollReturn where
  ret : PollMsg
  out : List CfgLine
deriving DecidableEq, Repr

/-- What it prints to `fp`. -/
def PollReturn.text (r : PollReturn) : String := String.join (r.out.map CfgLine.text)

/-- What the poll returns when the framer is left: an error of a checksum counts when nothing else
has ended the poll. -/
def Framer.result (f : Framer) : PollReturn :=
  { ret := if f.done = .zero ∧ f.cksumErrSeen = true then .cksumErr else f.done, out := f.out }

/-- `poll_ubx_data`: `written` is what `write` returns, `tsMs` the clock after it. -/
def pollUbxData (poll : UbxCfgPoll) (timeout : u32) (written : Int) (tsMs : u32)
    (rounds : List Round) : Option PollReturn :=
  if written ≠ poll.pollLen.toNat then some { ret := .zero, out := [] }
  else (pollLoop poll (tsMs + timeout) Framer.start rounds).map Framer.result

/-! ### UBX frames -/

/-- A UBX message: the payload is as long as the length field can say. -/
structure UbxFrame where
  classId : u8
  msgId : u8
  payload : List u8
  payload_lt : payload.length < 65536
deriving DecidableEq

namespace UbxFrame

/-- Class, id, length and payload. -/
def body (m : UbxFrame) : List u8 :=
  m.classId :: m.msgId :: BitVec.ofNat 8 m.payload.length ::
    BitVec.ofNat 8 (m.payload.length / 256) :: m.payload

/-- The message on the line: behind the two sync characters, with its checksum. -/
def bytes (m : UbxFrame) : List u8 :=
  ubxSyncChar1 :: ubxSyncChar2 :: (m.body ++ [(ckOf m.body).1, (ckOf m.body).2])

@[simp] theorem length_body (m : UbxFrame) : m.body.length = m.payload.length + 4 := rfl

@[simp] theorem length_bytes (m : UbxFrame) : m.bytes.length = m.payload.length + 8 := by
  simp [bytes]

end UbxFrame

end ConfigEnv.Gps
