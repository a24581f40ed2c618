/-
Module: ConfigEnv.Spec.Tunnel
Layer: Spec
Purpose: What glorytun-tcp.sh is for. A tunnel is down or up, and there are the rules and routes of
  other programs. To start it takes a gateway for each link from these routes and puts default
  routes of its own over the links in the place of all others; to stop it takes back what belongs to
  the tunnel, and of the routes over the links only the one to the server. What belongs to the
  tunnel is told by its phase; the router is compared with this elsewhere.
Trusted boundary: none
Main exports: Phase, Tunnel, relinked, tunnelStep, tunnelMachine
Open obligations: none
-/
import ConfigEnv.Mptcp.Glorytun

namespace ConfigEnv.Glorytun

/-- A tunnel that is up may have lost its process, and its device or its routes. -/
inductive Phase where
  | down
  | up (running device : Bool)
deriving DecidableEq, Repr

namespace Phase

/-- The script has started the tunnel and not stopped it. -/
def isUp : Phase → Bool
  | .down => false
  | .up _ _ => true

/-- There is a process. -/
def running : Phase → Bool
  | .down => false
  | .up running _ => running

/-- There is a device. -/
def device : Phase → Bool
  | .down => false
  | .up _ device => device

/-- The phase after a crash. -/
def crashed : Phase → Phase
  | .down => .down
  | .up _ _ => .up false false

end Phase

/-- The tunnel, and the entries of other programs. The routes over the links count as theirs. -/
structure Tunnel where
  phase : Phase
  rules : List Rule
  routes : List Route
  nat : List NatRule
deriving DecidableEq, Repr

/-- The default routes over the links instead of all default routes, and the route to the server. -/
def relinked (gw1 gw2 : Word) (routes : List Route) : List Route :=
  let routes := addUplink (ipRouteFlushDefault routes) gw1 dev1 table1
  balance (addUplink routes gw2 dev2 table2) gw1 gw2

/-- A stop takes the tunnel down, and the route to the server. -/
def Tunnel.stop (q : Tunnel) : Tunnel :=
  { q with phase := .down, routes := ipRouteDelVps q.routes }

/-- A start stops what there was, and needs two gateways. -/
def Tunnel.start (devUp : Bool) (q : Tunnel) : Tunnel × Bool :=
  match getNetworkInfo q.stop.routes with
  | some (gw1, gw2) =>
      ({ q with phase := .up true devUp, routes := relinked gw1 gw2 q.stop.routes }, true)
  | none => (q.stop, false)

/-- What the tunnel does on an event, and the outcome. -/
def tunnelStep (q : Tunnel) : Event → Tunnel × Bool
  | .start devUp => q.start devUp
  | .stop => (q.stop, true)
  | .restart devUp => q.stop.start devUp
  | .crash => ({ q with phase := q.phase.crashed }, true)
  | .change rules main nat =>
      ({ q with
        rules := rules.filter fun r => !r.ofScript
        routes := main.filter fun r => !r.viaTunnel
        nat := nat.filter fun r => !decide (r = masquerade) }, true)

/-- The runs of the tunnel. -/
abbrev tunnelMachine : Machine.Step Tunnel Event Bool :=
  fun q e out q' => tunnelStep q e = (q', out)

end ConfigEnv.Glorytun
