/-
Module: ConfigEnv.Mptcp.SsRedir
Layer: Mptcp
Purpose: ss-redir.sh, which sends the TCP connections of the machine and of those behind it, and in
  one mode the UDP flows, through a transparent proxy. The rules of the mangle table are data that
  `iptables` compares; packets run through them together with the mark of their connection. The
  script goes on when a command fails. The proxy process, the configuration file and what is printed
  are left out.
Trusted boundary: `&>` redirects, as in the shell of the router; no packet passes between two
  commands of one phase of the script; connection tracking tells the connection of a packet
Main exports: Config, Packet, Test, Change, ssredirRules, outputRules, preroutingRules,
  startIptables, stopIptables, Kernel, start, stop, Gateway, Event, gatewayStep, gatewayMachine
Open obligations: none
-/
import ConfigEnv.Lib.Netfilter
import ConfigEnv.Lib.Run

namespace ConfigEnv.SsRedir

open Netfilter (Meaning Flow runChain)

/-- An IPv4 address. -/
abbrev Addr := BitVec 32

/-- A port. -/
abbrev Port := BitVec 16

/-- A packet mark or connection mark. -/
abbrev Mark := BitVec 32

/-- The values of `mode`. -/
inductive Mode where
  | tcpOnly
  | tcpAndUdp
  | udpOnly
deriving DecidableEq, Repr

/-- The variables at the head of the script. -/
structure Config where
  vps : Addr
  sport : Port
  mode : Mode
deriving DecidableEq, Repr

/-- The values that stand there. -/
def Config.script : Config where
  vps := 47#8 ++ 109#8 ++ 150#8 ++ 68#8
  sport := 65101
  mode := .tcpOnly

/-- `0x2333`. -/
def proxyMark : Mark := 0x2333

/-- The routing table of the proxied packets. -/
def proxyTable : Nat := 100

/-! ### Packets -/

/-- The protocols that the rules tell apart. -/
inductive Proto where
  | tcp
  | udp
  | other
deriving DecidableEq, Repr

/-- What the rules look at. `syn` is the test of `--syn`, `ctNew` the state NEW. -/
structure Packet where
  proto : Proto
  src : Addr
  dst : Addr
  dport : Port
  syn : Bool
  ctNew : Bool
deriving DecidableEq, Repr

/-- A packet in a chain, with its mark and the mark of its connection. -/
structure Traffic where
  packet : Packet
  mark : Mark
  connmark : Mark
deriving DecidableEq, Repr

/-- What a rule asks of a packet. -/
inductive Test where
  | proto (q : Proto)
  | dst (net : Addr) (len : Nat)
  | dport (q : Port)
  | syn
  | ctNew
  | mark (m : Mark)
  | srcLocal (yes : Bool)
  | dstLocal (yes : Bool)
deriving DecidableEq, Repr

/-- What a target does to a packet that goes on. -/
inductive Change where
  | restoreMark
  | saveMark
  | setMark (m : Mark)
deriving DecidableEq, Repr

/-- The chains of the mangle table that the script uses. -/
inductive Chain where
  | prerouting
  | output
  | ssredir
deriving DecidableEq, Repr

instance : Fintype Chain where
  elems := {.prerouting, .output, .ssredir}
  complete chain := by cases chain <;> decide

/-- What ends the way of a packet. -/
inductive Verdict where
  | tproxy (onIp : Addr) (onPort : Port)
deriving DecidableEq, Repr

/-- A rule of the mangle table. -/
abbrev Rule := Netfilter.Rule Chain Test Change Verdict

/-- The mangle table. -/
abbrev Table := Netfilter.Table Chain Test Change Verdict

/-- The address lies in the network. -/
def inNet (net : Addr) (len : Nat) (addr : Addr) : Bool := (addr ^^^ net) >>> (32 - len) = 0

/-- `isLocal` are the addresses of type LOCAL. -/
def Test.holds (isLocal : Addr → Bool) (t : Traffic) : Test → Bool
  | .proto q => t.packet.proto = q
  | .dst net len => inNet net len t.packet.dst
  | .dport q => t.packet.dport = q
  | .syn => t.packet.syn
  | .ctNew => t.packet.ctNew
  | .mark m => t.mark = m
  | .srcLocal yes => isLocal t.packet.src = yes
  | .dstLocal yes => isLocal t.packet.dst = yes

/-- The marks after such a target. -/
def Change.act (t : Traffic) : Change → Traffic
  | .restoreMark => { t with mark := t.connmark }
  | .saveMark => { t with connmark := t.mark }
  | .setMark m => { t with mark := m }

/-- The meaning of tests and changes. -/
def meaning (isLocal : Addr → Bool) : Meaning Test Change Traffic where
  holds test t := test.holds isLocal t
  act change t := change.act t

/-! ### The rules of the script -/

variable (cfg : Config)

/-- What stands under `if [ "$mode" = "tcp_and_udp" ]`. -/
def whenUdp {α : Type} (a : α) : List α := if cfg.mode = .tcpAndUdp then [a] else []

/-- An address by its four bytes. -/
def ipv4 (a b c d : BitVec 8) : Addr := a ++ b ++ c ++ d

/-- The reserved addresses. -/
def reserved : List (Addr × Nat) :=
  [(ipv4 0 0 0 0, 8), (ipv4 10 0 0 0, 8), (ipv4 100 64 0 0, 10), (ipv4 127 0 0 0, 8),
    (ipv4 169 254 0 0, 16), (ipv4 172 16 0 0, 12), (ipv4 192 0 0 0, 24), (ipv4 192 0 2 0, 24),
    (ipv4 192 88 99 0, 24), (ipv4 192 168 0 0, 16), (ipv4 198 18 0 0, 15),
    (ipv4 198 51 100 0, 24), (ipv4 203 0 113 0, 24), (ipv4 224 0 0 0, 4), (ipv4 240 0 0 0, 4),
    (ipv4 255 255 255 255, 32)]

/-- The rules with which a packet returns unmarked. -/
def exceptions : List (List Test) :=
  [[.proto .tcp, .dst cfg.vps 32, .dport cfg.sport]] ++
    whenUdp cfg [.proto .udp, .dst cfg.vps 32, .dport cfg.sport] ++
    reserved.map fun net => [.dst net.1 net.2]

/-- The rules that mark the first packet of a connection. -/
def markRules : List Rule :=
  [{ tests := [.proto .tcp, .syn], target := .act (.setMark proxyMark) }] ++
    whenUdp cfg { tests := [.proto .udp, .ctNew], target := .act (.setMark proxyMark) }

/-- The rules of SSREDIR in the order of `start_iptables`. -/
def ssredirRules : List Rule :=
  [{ tests := [], target := .act .restoreMark },
    { tests := [.mark proxyMark], target := .ret }] ++
    (exceptions cfg).map (fun tests => { tests := tests, target := .ret }) ++
    markRules cfg ++
    [{ tests := [], target := .act .saveMark }]

/-- The rules of the script in OUTPUT. -/
def outputRules : List Rule :=
  [{ tests := [.proto .tcp, .srcLocal true, .dstLocal false], target := .jump .ssredir }] ++
    whenUdp cfg
      { tests := [.proto .udp, .srcLocal true, .dstLocal false], target := .jump .ssredir }

/-- The jumps of PREROUTING. -/
def forwardRules : List Rule :=
  [{ tests := [.proto .tcp, .srcLocal false, .dstLocal false], target := .jump .ssredir }] ++
    whenUdp cfg
      { tests := [.proto .udp, .srcLocal false, .dstLocal false], target := .jump .ssredir }

/-- The rules that hand marked packets over. -/
def tproxyRules : List Rule :=
  [{ tests := [.proto .tcp, .mark proxyMark], target := .stop (.tproxy (ipv4 127 0 0 1) 60080) }] ++
    whenUdp cfg
      { tests := [.proto .udp, .mark proxyMark], target := .stop (.tproxy (ipv4 127 0 0 1) 60080) }

/-- The rules of the script in PREROUTING. -/
def preroutingRules : List Rule := forwardRules cfg ++ tproxyRules cfg

/-- `start_iptables`. -/
def startIptables (t : Table) : Table :=
  let t := t.newChain .ssredir
  let t := (ssredirRules cfg).foldl (fun t r => t.append .ssredir r) t
  let t := (outputRules cfg).foldl (fun t r => t.append .output r) t
  (preroutingRules cfg).foldl (fun t r => t.append .prerouting r) t

/-- `stop_iptables`. -/
def stopIptables (t : Table) : Table :=
  let t := (tproxyRules cfg ++ forwardRules cfg).foldl (fun t r => t.delete .prerouting r) t
  let t := (outputRules cfg).foldl (fun t r => t.delete .output r) t
  let t := t.flush .ssredir
  t.deleteChain .ssredir

/-! ### The kernel -/

/-- A rule of `ip rule` that looks at the mark. -/
structure FwRule where
  fwmark : Mark
  table : Nat
deriving DecidableEq, Repr

/-- The mangle table, the rules on marks, newest first, and the tables in which everything is
local. -/
structure Kernel where
  mangle : Table
  rules : List FwRule
  localTables : List Nat

/-- `start_iproute2`; either command fails when there is such an entry. -/
def startIproute2 (k : Kernel) : Kernel :=
  { k with
    localTables := if proxyTable ∈ k.localTables then k.localTables
      else proxyTable :: k.localTables
    rules := if ⟨proxyMark, proxyTable⟩ ∈ k.rules then k.rules
      else ⟨proxyMark, proxyTable⟩ :: k.rules }

/-- `stop_iproute2`. -/
def stopIproute2 (k : Kernel) : Kernel :=
  { k with
    rules := k.rules.eraseP fun r => r.table = proxyTable
    localTables := k.localTables.filter fun table => table ≠ proxyTable }

/-- `start`, without the processes. -/
def start (k : Kernel) : Kernel :=
  startIproute2 { k with mangle := startIptables cfg k.mangle }

/-- `stop`, without the processes. -/
def stop (k : Kernel) : Kernel :=
  let k := stopIproute2 k
  { k with mangle := stopIptables cfg k.mangle }

/-! ### Packets and the script -/

/-- Where a packet comes from: another machine, or a process on this one. -/
inductive Hook where
  | forwarded
  | generated
deriving DecidableEq, Repr

variable (isLocal : Addr → Bool)

/-- One chain; no chain of the table jumps into one that jumps. -/
def Kernel.runChain (k : Kernel) (chain : Chain) (t : Traffic) : Option (Flow Verdict Traffic) :=
  Netfilter.runChain (meaning isLocal) (fun c => (k.mangle.chain c).getD []) 2 chain t

/-- The mark sends a packet to the machine itself. -/
def Kernel.routedLocal (k : Kernel) (mark : Mark) : Bool :=
  k.rules.any fun r => r.fwmark = mark && decide (r.table ∈ k.localTables)

/-- PREROUTING: the mark of the connection behind it, and whether the proxy gets the packet. -/
def Kernel.prerouting (k : Kernel) (t : Traffic) : Option (Mark × Bool) := do
  let flow ← k.runChain isLocal .prerouting t
  match flow with
  | .stopped (.tproxy _ _) t => some (t.connmark, k.routedLocal t.mark)
  | .next t | .returned t => some (t.connmark, false)

/-- A packet without a mark of its own. One that a process has sent comes back through PREROUTING
when its new mark sends it to the machine itself. -/
def Kernel.packet (k : Kernel) (hook : Hook) (p : Packet) (connmark : Mark) :
    Option (Mark × Bool) :=
  match hook with
  | .forwarded => k.prerouting isLocal { packet := p, mark := 0, connmark := connmark }
  | .generated => do
      let flow ← k.runChain isLocal .output { packet := p, mark := 0, connmark := connmark }
      match flow with
      | .next t | .returned t | .stopped _ t =>
          if k.routedLocal t.mark then k.prerouting isLocal t else some (t.connmark, false)

/-- The router: its kernel and the marks of the connections. -/
structure Gateway (ν : Type) where
  kernel : Kernel
  connmark : ν → Mark

/-- A phase of the script, `restart` being `stop` and `start`; a packet of a connection; or the end
of the tracking of a connection. -/
inductive Event (ν : Type) where
  | start
  | stop
  | packet (conn : ν) (hook : Hook) (p : Packet)
  | forget (conn : ν)

/-- The step of an event; for a packet, whether the proxy gets it. -/
def gatewayStep {ν : Type} [DecidableEq ν] (g : Gateway ν) :
    Event ν → Option (Gateway ν × Option Bool)
  | .start => some ({ g with kernel := start cfg g.kernel }, none)
  | .stop => some ({ g with kernel := stop cfg g.kernel }, none)
  | .packet conn hook p => do
      let (connmark, proxied) ← g.kernel.packet isLocal hook p (g.connmark conn)
      some ({ g with connmark := Function.update g.connmark conn connmark }, some proxied)
  | .forget conn => some ({ g with connmark := Function.update g.connmark conn 0 }, none)

/-- The router under the script and its traffic. -/
abbrev gatewayMachine (ν : Type) [DecidableEq ν] :
    Machine.Step (Gateway ν) (Event ν) (Option Bool) :=
  fun g e out g' => gatewayStep cfg isLocal g e = some (g', out)

end ConfigEnv.SsRedir
