/-
Module: ConfigEnv.Gps.CfgDump
Layer: Gps
Purpose: `dump_ubx_cfg` of main.c together with the receiver at the other end of the line. The
  program goes through its table and polls every entry up to three times; the receiver answers the
  polls that reach it in their order, each with one frame or not at all, whenever it likes; a frame
  comes in byte by byte. The program's steps are the calls in which the line or the clock can
  change: `tcflush`, `write`, a round of the loop, and the end of a try. What a step looks at that
  the program does not know, the queue of the terminal apart, is the receiver's.
Trusted boundary: none
Main exports: Phase, Dump, Event, dumpStep, Dump.start
Open obligations: none
-/
import ConfigEnv.Gps.CfgTables
import ConfigEnv.Lib.Run

namespace ConfigEnv.Gps

abbrev maxRetry : Nat := 2

/-- The table and the timeout that `dump_ubx_cfg` takes for `modem`. -/
def cfgPolls (modem : Int) : List UbxCfgPoll := if modem = 9 then glUbxM9CfgPoll else glUbxM8CfgPoll

/-- How long `dump_ubx_cfg` waits for an answer of the modem. -/
def cfgTimeout (modem : Int) : u32 := if modem = 9 then 3000 else 1000

/-- Entry `i` of a table of polls. -/
def pollAt (polls : List UbxCfgPoll) (i : Nat) : UbxCfgPoll :=
  polls.getD i { desc := "", msg := [] }

/-- Where the program stands in its loops: in a poll before `tcflush`, before `write`, or in the do
loop; behind a poll; behind the loops. -/
inductive Phase where
  | flush
  | write
  | rounds (f : Framer) (tsEndMs : u32)
  | returned (ret : PollMsg)
  | finished
deriving DecidableEq, Repr

/-- The program with its `i` and `retry` and what it has written for which entry, the input queue of
the terminal, and the receiver: the entries of the polls that wait for an answer, the answers under
way with the entries that they are for, the rest of the answer whose beginning has come in, and
every answer that was given. -/
structure Dump where
  entry : Nat
  retry : Nat
  phase : Phase
  file : List (Nat × CfgLine)
  input : List u8
  pending : List Nat
  inFlight : List (Nat × UbxFrame)
  cut : List u8
  answered : List (Nat × UbxFrame)
deriving DecidableEq

/-- `answer` is the receiver's answer to the oldest poll that waits, `arrive` a byte that comes in.
-/
inductive Event where
  | flush
  | write (written : Int) (tsMs : u32)
  | round (r : Round)
  | next (glExit : Bool)
  | answer (resp : Option UbxFrame)
  | arrive

namespace Dump

/-- The state behind `fopen`; the terminal may hold old input. -/
def start (input : List u8) : Dump :=
  { entry := 0, retry := 0, phase := .flush, file := [], input := input, pending := []
    inFlight := [], cut := [], answered := [] }

/-- `cfg_poll[i]`. -/
def poll (polls : List UbxCfgPoll) (d : Dump) : UbxCfgPoll := pollAt polls d.entry

/-- The poll is over: what it wrote is in the file. -/
def leave (d : Dump) (r : PollReturn) : Dump :=
  { d with phase := .returned r.ret, file := d.file ++ r.out.map (d.entry, ·) }

/-- A round takes a chunk from the front of the queue. -/
def take (d : Dump) (r : Round) : Option Dump :=
  match r.input with
  | .read buf =>
      if buf ≠ [] ∧ buf.length ≤ 2048 ∧ buf <+: d.input then
        some { d with input := d.input.drop buf.length }
      else none
  | _ => some d

/-- The heads of the two loops. -/
def advance (polls : List UbxCfgPoll) (d : Dump) (ret : PollMsg) (glExit : Bool) : Dump :=
  if ¬ (ret = .nak ∨ ret = .ok) ∧ d.retry + 1 < maxRetry + 1 then
    { d with retry := d.retry + 1, phase := .flush }
  else if glExit = true ∨ polls.length ≤ d.entry + 1 then { d with phase := .finished }
  else { d with entry := d.entry + 1, retry := 0, phase := .flush }

end Dump

/-- One step; an event that cannot happen now is an error. -/
def dumpStep (polls : List UbxCfgPoll) (timeout : u32) (d : Dump) :
    Event → Except Unit (Dump × Unit)
  | .flush =>
      match d.phase with
      | .flush => .ok ({ d with input := [], phase := .write }, ())
      | _ => .error ()
  | .write written tsMs =>
      match d.phase with
      | .write =>
          if written ≠ (d.poll polls).pollLen.toNat then
            .ok (d.leave { ret := .zero, out := [] }, ())
          else
            .ok ({ d with
              phase := .rounds Framer.start (tsMs + timeout)
              pending := d.pending ++ [d.entry] }, ())
      | _ => .error ()
  | .round r =>
      match d.phase, d.take r with
      | .rounds f tsEndMs, some d =>
          let (f, more) := pollRound (d.poll polls) tsEndMs f r
          if more = true then .ok ({ d with phase := .rounds f tsEndMs }, ())
          else .ok (d.leave f.result, ())
      | _, _ => .error ()
  | .next glExit =>
      match d.phase with
      | .returned ret => .ok (d.advance polls ret glExit, ())
      | _ => .error ()
  | .answer resp =>
      match d.pending with
      | [] => .error ()
      | i :: pending =>
          let sent := resp.toList.map (i, ·)
          .ok ({ d with
            pending := pending
            inFlight := d.inFlight ++ sent
            answered := d.answered ++ sent }, ())
  | .arrive =>
      match d.cut, d.inFlight with
      | b :: cut, _ => .ok ({ d with cut := cut, input := d.input ++ [b] }, ())
      | [], a :: inFlight =>
          .ok ({ d with
            inFlight := inFlight, cut := a.2.bytes.tail, input := d.input ++ a.2.bytes.take 1 }, ())
      | [], [] => .error ()

/-- `dump_ubx_cfg` for `modem` as a transition relation. -/
def dumpMachine (modem : Int) : Machine.Step Dump Event Unit :=
  Machine.ofExcept (dumpStep (cfgPolls modem) (cfgTimeout modem))

end ConfigEnv.Gps
