/-
Module: ConfigEnv.Spec.TransparentProxy
Layer: Spec
Purpose: What ss-redir.sh is for. A proxy is on or off and has taken some connections. While it is
  on it gets a packet that is offered to it if it has taken the connection before, or if the packet
  opens the connection and its destination is not excepted, and then it has taken it. It keeps the
  connections that it has taken, switched off or not, until connection tracking forgets them. There
  are no chains and no marks here; the kernel is compared with this elsewhere.
Trusted boundary: none
Main exports: Config.carries, Config.offers, Config.excepts, Packet.opens, Proxy, proxyStep,
  proxyMachine
Open obligations: none
-/
import ConfigEnv.Mptcp.SsRedir

namespace ConfigEnv.SsRedir

/-- The protocols of the mode. -/
def Config.carries (cfg : Config) : Proto → Bool
  | .tcp => true
  | .udp => cfg.mode = .tcpAndUdp
  | .other => false

/-- A packet of one other machine to another, or of this machine to another. -/
def Config.offers (cfg : Config) (isLocal : Addr → Bool) (hook : Hook) (p : Packet) : Bool :=
  cfg.carries p.proto && decide (isLocal p.src = decide (hook = .generated)) && !isLocal p.dst

/-- Packets to the server of the proxy itself and to reserved addresses. -/
def Config.excepts (cfg : Config) (p : Packet) : Bool :=
  (p.dst = cfg.vps && p.dport = cfg.sport) || reserved.any fun net => inNet net.1 net.2 p.dst

/-- The first packet of a connection. -/
def Packet.opens (p : Packet) : Bool :=
  match p.proto with
  | .tcp => p.syn
  | .udp => p.ctNew
  | .other => false

/-- The proxy is on or off, and remembers the connections that it has taken. -/
structure Proxy (ν : Type) where
  on : Bool
  taken : ν → Bool

variable {ν : Type} [DecidableEq ν]

/-- What the proxy does on an event. -/
def proxyStep (cfg : Config) (isLocal : Addr → Bool) (q : Proxy ν) :
    Event ν → Proxy ν × Option Bool
  | .start => ({ q with on := true }, none)
  | .stop => ({ q with on := false }, none)
  | .packet conn hook p =>
      if q.on && cfg.offers isLocal hook p then
        let takes := q.taken conn || (p.opens && !cfg.excepts p)
        ({ q with taken := Function.update q.taken conn takes }, some takes)
      else (q, some false)
  | .forget conn => ({ q with taken := Function.update q.taken conn false }, none)

/-- The runs of the proxy. -/
abbrev proxyMachine (ν : Type) [DecidableEq ν] (cfg : Config) (isLocal : Addr → Bool) :
    Machine.Step (Proxy ν) (Event ν) (Option Bool) :=
  fun q e out q' => proxyStep cfg isLocal q e = (q', out)

end ConfigEnv.SsRedir
