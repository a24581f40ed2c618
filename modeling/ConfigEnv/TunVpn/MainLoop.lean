/-
Module: ConfigEnv.TunVpn.MainLoop
Layer: TunVpn
Purpose: The loop of `main` in ustun.c among the calls of the other threads. A pass reads packets
  and sends them, reads the clock, and cleans up the two tables when the last cleanup is longer ago
  than `CONN_TIMEOUT`; the receiver threads call in between. Both builds are covered: the one with
  io_uring comes to the test of the clock in every pass, the other one not in a pass without a
  packet.
Trusted boundary: none
Main exports: MainAt, MainLoop, LoopEvent, loopStep, loopMachine, MainLoop.start
Open obligations: none
-/
import ConfigEnv.TunVpn.ServerCalls

namespace ConfigEnv.TunVpn.Ustun

/-- Where `main` is: in a pass before its test, or at one of the two cleanups of the pass that has
read `now`. -/
inductive MainAt where
  | polling
  | gateways (now : Int)
  | connections (now : Int)

/-- The process, and the variables of `main`. -/
structure MainLoop where
  p : Process
  lastCleanup : Int
  pc : MainAt

/-- A call that a receiver thread makes, as opposed to those that only `main` makes. -/
def Call.ofReceiver : Call → Bool
  | .updateGatewayMap .. | .updateConnTable .. => true
  | .openSock .. | .closeSock .. | .clearSock .. => true
  | .sendToGateway .. | .cleanupExpiredGateways .. | .cleanupExpiredConnections .. => false

/-- A step of `main` or of a receiver thread. -/
inductive LoopEvent where
  /-- A call of a receiver thread. -/
  | receiver (call : Call)
  /-- `send_to_gateway`, on a packet that was read in this pass. -/
  | send (ts : Int) (headMem : GatewayAddr) (codec : FecCodec) (pkg : TunPkg) (len : Nat)
  /-- `now = time(NULL)`, and the test. -/
  | check (now : Int)
  /-- `cleanup_expired_gateways(0)`, which reads the clock itself. -/
  | cleanGateways (ts : Int)
  /-- `cleanup_expired_connections(0)`, and `last_cleanup = now`. -/
  | cleanConnections (ts : Int)

/-- The calls behind an event. -/
def LoopEvent.call : LoopEvent → Option Call
  | .receiver call => some call
  | .send ts headMem codec pkg len => some (.sendToGateway ts headMem codec pkg len)
  | .check _ => none
  | .cleanGateways ts => some (.cleanupExpiredGateways ts false)
  | .cleanConnections ts => some (.cleanupExpiredConnections ts false)

/-- When an event can come. -/
def LoopEvent.Enabled (m : MainLoop) : LoopEvent → Prop
  | .receiver call => call.ofReceiver = true ∧ call.Enabled m.p
  | .send .. | .check _ => m.pc = .polling
  | .cleanGateways _ => ∃ now, m.pc = .gateways now
  | .cleanConnections _ => ∃ now, m.pc = .connections now

/-- The test at the end of a pass. -/
def MainLoop.due (m : MainLoop) (now : Int) : Bool := now - m.lastCleanup > connTimeout

/-- What an event does to the variables of `main`. -/
def MainLoop.advance (m : MainLoop) : LoopEvent → Int × MainAt
  | .receiver _ | .send .. => (m.lastCleanup, m.pc)
  | .check now => (m.lastCleanup, if m.due now then .gateways now else .polling)
  | .cleanGateways _ =>
      match m.pc with
      | .gateways now => (m.lastCleanup, .connections now)
      | pc => (m.lastCleanup, pc)
  | .cleanConnections _ =>
      match m.pc with
      | .connections now => (now, .polling)
      | pc => (m.lastCleanup, pc)

/-- The state after an event, and the datagrams that were sent. -/
def loopStep (m : MainLoop) (e : LoopEvent) : MainLoop × List Sent :=
  let (lastCleanup, pc) := m.advance e
  let (p, sent) := match e.call with
    | some call => callStep m.p call
    | none => (m.p, [])
  ({ p := p, lastCleanup := lastCleanup, pc := pc }, sent)

/-- `main` and the receiver threads, one event after another. -/
abbrev loopMachine : Machine.Step MainLoop LoopEvent (List Sent) :=
  fun m e out m' => e.Enabled m ∧ loopStep m e = (m', out)

/-- `last_cleanup` is read once the threads have been started; `init_dedup_state` was called at
`ts`. -/
def MainLoop.start (glFec : Bool) (ts lastCleanup : Int) : MainLoop :=
  { p := Process.start glFec ts, lastCleanup := lastCleanup, pc := .polling }

end ConfigEnv.TunVpn.Ustun
