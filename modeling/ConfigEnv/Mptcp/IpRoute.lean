/-
Module: ConfigEnv.Mptcp.IpRoute
Layer: Mptcp
Purpose: ip_route_add.sh, which sends the traffic of two interfaces through tables of their own. The
  rules and the routes are the lists that `ip rule` and `ip route` show; the interfaces are what
  `ip` prints about them. Deleting removes the first entry that matches; adding fails when there is
  such an entry already. The MPTCP endpoints and the messages are left out.
Trusted boundary: an `ip` command fails only when its object is missing or taken
Main exports: Rule, Route, Iface, Net, Routing, ipRuleAdd, addRulesForInterface,
  removeRulesForInterface, start, stop, restart, Event, routingStep, routingMachine
Open obligations: none
-/
import ConfigEnv.Lib.Run

namespace ConfigEnv.Mptcp

/-- An IPv4 address. -/
abbrev Addr := BitVec 32

/-- `DEV1`. -/
abbrev dev1 : String := "apn01"

/-- `DEV2`. -/
abbrev dev2 : String := "apn11"

/-- `PRIORITY1`. -/
abbrev priority1 : Nat := 150

/-- `PRIORITY2`. -/
abbrev priority2 : Nat := 151

/-- `TABLE1`. -/
abbrev table1 : Nat := 200

/-- `TABLE2`. -/
abbrev table2 : Nat := 201

/-- A rule; without a source it is for all addresses. -/
structure Rule where
  src : Option Addr
  table : Nat
  priority : Nat
deriving DecidableEq, Repr

/-- A route; without a destination it is a default route. -/
structure Route where
  dst : Option Addr
  via : Option Addr
  dev : String
  table : Nat
deriving DecidableEq, Repr

/-- What `ip` prints about an interface: its addresses, and the gateways of its default routes and
of its other routes in the main table. -/
structure Iface where
  addrs : List Addr
  defaults : List Addr
  vias : List Addr
deriving DecidableEq, Repr

/-- The two interfaces. -/
structure Net where
  dev1 : Iface
  dev2 : Iface
deriving DecidableEq, Repr

/-- The rules and routes, and the interfaces as `ip` prints them. -/
structure Routing where
  rules : List Rule
  routes : List Route
  net : Net
deriving DecidableEq, Repr

/-! ### ip -/

/-- `ip rule add`: behind the rules of the same priority. -/
def ipRuleAdd (rules : List Rule) (rule : Rule) : Option (List Rule) :=
  if rule ∈ rules then none
  else some (rules.takeWhile (fun r => r.priority ≤ rule.priority) ++
    rule :: rules.dropWhile (fun r => r.priority ≤ rule.priority))

/-- `ip rule del table`: the first rule of the table. -/
def ipRuleDelTable (rules : List Rule) (table : Nat) : List Rule :=
  rules.eraseP fun r => r.table = table

/-- `ip route flush table`. -/
def ipRouteFlush (routes : List Route) (table : Nat) : List Route :=
  routes.filter fun r => r.table ≠ table

/-- `ip route add`, which refuses a second route to one destination in a table. -/
def ipRouteAdd (routes : List Route) (route : Route) : List Route :=
  if routes.any (fun r => r.table = route.table && r.dst = route.dst) = true then routes
  else routes ++ [route]

/-! ### The script -/

/-- The address that `get_network_info` takes for an interface. -/
def Iface.ip (iface : Iface) : Option Addr := iface.addrs.head?

/-- The gateway; a default route comes first. -/
def Iface.gw (iface : Iface) : Option Addr := iface.defaults.head?.or iface.vias.head?

/-- Whether `get_network_info` succeeds. -/
def Net.hasGateways (net : Net) : Bool := net.dev1.gw.isSome && net.dev2.gw.isSome

/-- `add_rules_for_interface`. -/
def addRulesForInterface (s : Routing) (dev : String) (iface : Iface) (table priority : Nat) :
    Routing :=
  match iface.ip, iface.gw with
  | some ip, some gw =>
      let rule : Rule := { src := some ip, table := table, priority := priority }
      let rules := s.rules.erase rule
      match ipRuleAdd rules rule with
      | none => { s with rules := rules }
      | some rules' =>
          let routes := ipRouteFlush s.routes table
          let link : Route := { dst := some ip, via := none, dev := dev, table := table }
          let default : Route := { dst := none, via := some gw, dev := dev, table := table }
          let routes := ipRouteAdd (ipRouteAdd routes link) default
          { s with rules := rules', routes := routes }
  | _, _ => s

/-- `remove_rules_for_interface`. -/
def removeRulesForInterface (s : Routing) (iface : Iface) (table priority : Nat) : Routing :=
  match iface.ip with
  | some ip =>
      { s with
        rules := s.rules.erase { src := some ip, table := table, priority := priority }
        routes := ipRouteFlush s.routes table }
  | none => s

/-- `start`, and whether it has been completed. -/
def start (s : Routing) : Routing × Bool :=
  if s.net.hasGateways = true then
    let s := addRulesForInterface s dev1 s.net.dev1 table1 priority1
    (addRulesForInterface s dev2 s.net.dev2 table2 priority2, true)
  else (s, false)

/-- `stop`. -/
def stop (s : Routing) : Routing :=
  if s.net.hasGateways = true then
    let s := removeRulesForInterface s s.net.dev1 table1 priority1
    removeRulesForInterface s s.net.dev2 table2 priority2
  else
    { s with
      rules := ipRuleDelTable (ipRuleDelTable s.rules table1) table2
      routes := ipRouteFlush (ipRouteFlush s.routes table1) table2 }

/-- `restart`. -/
def restart (s : Routing) : Routing × Bool := start (stop s)

/-! ### Runs -/

/-- The script is run, or the interfaces change, and the routes of the tables may change with them.
A change in the middle of `restart` is one between `stop` and `start`. -/
inductive Event where
  | change (net : Net) (routes : List Route)
  | start
  | stop
  | restart
deriving DecidableEq, Repr

/-- One event; the output is whether it has been completed. -/
def routingStep (s : Routing) : Event → Except Unit (Routing × Bool)
  | .change net routes => .ok ({ s with net := net, routes := routes }, true)
  | .start => .ok (start s)
  | .stop => .ok (stop s, true)
  | .restart => .ok (restart s)

/-- The script and the interfaces as a transition relation. -/
def routingMachine : Machine.Step Routing Event Bool := Machine.ofExcept routingStep

end ConfigEnv.Mptcp
