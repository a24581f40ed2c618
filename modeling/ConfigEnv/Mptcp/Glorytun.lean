/-
Module: ConfigEnv.Mptcp.Glorytun
Layer: Mptcp
Purpose: glorytun-tcp.sh, which sends the default traffic of a router through a tunnel, and the
  tunnel itself over two mobile links. The rules, the routes of the main table and of the table of
  the tunnel, and the chain POSTROUTING are the lists that `ip` and `iptables` show; other programs
  write to three of them as well. The script goes on when a command fails. `clean_all` is called
  with the variables for the gateways, which are empty whenever it is. The addresses that
  `get_network_info` reads and does not use, the scope of routes, the log and what is printed are
  left out.
Trusted boundary: an `ip` command fails only when its object is missing or taken, or when a word is
  no address; the gateway of a link can be reached over it; a process that is killed takes its
  device along, and a device its routes
Main exports: Word, Route, Rule, NatRule, Sys, ipRuleAdd, ipRuleDel, ipRouteAdd, ipRouteReplace,
  cleanAll, getNetworkInfo, startTunnel, addRoutes, addPolicyRules, start, stop, restart, Event,
  scriptStep, scriptMachine
Open obligations: none
-/
import ConfigEnv.Lib.Run
import ConfigEnv.Lib.Shares

namespace ConfigEnv.Glorytun

open Shares (replaceFirst)

/-- An IPv4 address. -/
abbrev Addr := BitVec 32

/-- The addresses that begin with the first `len` bits of `addr`. -/
structure Net where
  addr : Addr
  len : Nat
deriving DecidableEq, Repr

/-- The net of one address. -/
def host (a : Addr) : Net := { addr := a, len := 32 }

/-! ### The variables at the head of the script -/

/-- `VPS`. -/
def vps : Net := host (47#8 ++ 109#8 ++ 150#8 ++ 68#8)

/-- `DEV`, the device of the tunnel. -/
def dev : String := "gt-tun0"

/-- `LOCALIP`. -/
def localIp : Addr := 10#8 ++ 255#8 ++ 255#8 ++ 2#8

/-- `REMOTEIP`. -/
def remoteIp : Addr := 10#8 ++ 255#8 ++ 255#8 ++ 1#8

/-- `DEV1`, the first link. -/
def dev1 : String := "apn01"

/-- `DEV2`, the second link. -/
def dev2 : String := "apn11"

/-- `TABLE1`. -/
abbrev table1 : Nat := 200

/-- `TABLE2`. -/
abbrev table2 : Nat := 201

/-- `PRIORITY1`. -/
abbrev priority1 : Nat := 150

/-- `PRIORITY2`. -/
abbrev priority2 : Nat := 151

/-- `PRIORITY3`. -/
abbrev priority3 : Nat := 152

/-- `TUNNEL_TABLE`. -/
abbrev tunnelTable : Nat := 1200

/-! ### The state of the router -/

/-- A word where a gateway is expected. -/
inductive Word where
  | addr (a : Addr)
  | name (s : String)
deriving DecidableEq, Repr

/-- A next hop; on a link without gateways it has none. -/
structure Hop where
  via : Option Addr
  dev : String
  weight : Nat
deriving DecidableEq, Repr

/-- A route, a default route without a destination. `static` is `proto static`. -/
structure Route where
  dst : Option Net
  hops : List Hop
  static : Bool
  metric : Nat
deriving DecidableEq, Repr

/-- A rule, which may ask for a source and for an outgoing device. -/
structure Rule where
  src : Option Addr
  oif : Option String
  table : Nat
  priority : Nat
deriving DecidableEq, Repr

/-- A rule of the chain POSTROUTING, as it is written. -/
abbrev NatRule := List String

/-- `tunnel` are the routes of TUNNEL_TABLE, `procs` the glorytun processes; `hasDev` says that
there is a device of the tunnel, and `key` that there is a key file. -/
structure Sys where
  rules : List Rule
  main : List Route
  tunnel : List Route
  nat : List NatRule
  procs : Nat
  hasDev : Bool
  key : Bool
deriving DecidableEq, Repr

/-! ### ip -/

/-- `ip rule add`: behind the rules of the same priority. -/
def ipRuleAdd (rules : List Rule) (rule : Rule) : List Rule :=
  if rule ∈ rules then rules
  else rules.takeWhile (fun r => r.priority ≤ rule.priority) ++
    rule :: rules.dropWhile (fun r => r.priority ≤ rule.priority)

/-- What `spec` leaves open is not asked of a rule. -/
def Rule.fits (spec r : Rule) : Bool :=
  (spec.src = none ∨ r.src = spec.src) ∧ (spec.oif = none ∨ r.oif = spec.oif) ∧
    r.table = spec.table ∧ r.priority = spec.priority

/-- `ip rule del`: the first rule that fits. -/
def ipRuleDel (rules : List Rule) (spec : Rule) : List Rule := rules.eraseP spec.fits

/-- Two routes of a table differ in one of these. -/
def Route.key (r : Route) : Option Net × Nat := (r.dst, r.metric)

/-- `ip route add`. The script adds default routes in the order of their metrics. -/
def ipRouteAdd (routes : List Route) (route : Route) : List Route :=
  if routes.any (fun r => r.key = route.key) then routes else routes ++ [route]

/-- `ip route replace`. -/
def ipRouteReplace (routes : List Route) (route : Route) : List Route :=
  replaceFirst (fun r => r.key = route.key) route routes

/-- A route with one next hop. -/
def Route.single (dst : Option Net) (via : Option Addr) (dev : String) (static : Bool)
    (metric : Nat) : Route :=
  { dst := dst, hops := [{ via := via, dev := dev, weight := 1 }], static := static
    metric := metric }

/-- The route leads through the tunnel. -/
def Route.viaTunnel (r : Route) : Bool := r.hops.any fun h => h.dev = dev

/-- `ip route flush default`. -/
def ipRouteFlushDefault (routes : List Route) : List Route := routes.filter fun r => r.dst ≠ none

/-- The device of the tunnel is down or gone. -/
def Sys.loseDev (s : Sys) : Sys :=
  { s with
    main := s.main.filter fun r => !r.viaTunnel
    tunnel := s.tunnel.filter fun r => !r.viaTunnel
    hasDev := false }

/-! ### What the script adds -/

/-- The rule that `add_iptables` appends. -/
def masquerade : NatRule := ["-o", dev, "-j", "MASQUERADE"]

/-- `oif DEV1 table TABLE1 priority PRIORITY1`. -/
def oifRule1 : Rule := { src := none, oif := some dev1, table := table1, priority := priority1 }

/-- `oif DEV2 table TABLE2 priority PRIORITY2`. -/
def oifRule2 : Rule := { src := none, oif := some dev2, table := table2, priority := priority2 }

/-- `from LOCALIP table TUNNEL_TABLE priority PRIORITY3`. -/
def fromRule : Rule :=
  { src := some localIp, oif := none, table := tunnelTable, priority := priority3 }

/-- `oif DEV table TUNNEL_TABLE priority PRIORITY3`. -/
def oifRule : Rule := { src := none, oif := some dev, table := tunnelTable, priority := priority3 }

/-- The route to the other end that comes with the address of the device. -/
def peerRoute : Route := .single (some (host remoteIp)) none dev false 0

/-- The default route through the tunnel. -/
def tunnelDefault : Route := .single none (some remoteIp) dev true 0

/-- The two routes of TUNNEL_TABLE. -/
def localRoute : Route := .single (some (host localIp)) none dev false 0

/-- The default route of the tunnel's table. -/
def remoteRoute : Route := .single none (some remoteIp) dev false 0

/-- The default route over a link. -/
def uplink (gw : Addr) (dev : String) (metric : Nat) : Route :=
  .single none (some gw) dev true metric

/-- The route to the server over both links. -/
def vpsRoute (gw1 gw2 : Addr) : Route where
  dst := some vps
  hops := [{ via := some gw1, dev := dev1, weight := 5 },
    { via := some gw2, dev := dev2, weight := 6 }]
  static := false
  metric := 1

/-! ### The functions of the script -/

/-- `ip route del default via gw dev dev proto static [metric m]`; without a metric any will do. -/
def ipRouteDelDefault (routes : List Route) (gw : Addr) (dev : String) (metric : Option Nat) :
    List Route :=
  routes.eraseP fun r => r.dst = none ∧ r.hops.map (fun h => (h.via, h.dev)) = [(some gw, dev)] ∧
    r.static = true ∧ (metric = none ∨ metric = some r.metric)

/-- The command under `if [ -n "$DEV1_GW" ]`. -/
def delUplink (routes : List Route) (gw : Option Word) (dev : String) (metric : Nat) :
    List Route :=
  match gw with
  | some (.addr a) => ipRouteDelDefault routes a dev (some metric)
  | _ => routes

/-- `ip route del "$VPS" metric 1`. -/
def ipRouteDelVps (routes : List Route) : List Route :=
  routes.eraseP fun r => r.key = (some vps, 1)

/-- A route of TUNNEL_TABLE with this destination, gateway and device. -/
def ipRouteDelTunnel (routes : List Route) (dst : Option Net) (via : Option Addr) : List Route :=
  routes.eraseP fun r => r.dst = dst ∧ r.hops.map (fun h => (h.via, h.dev)) = [(via, dev)]

/-- `clean_all`, with DEV1_GW and DEV2_GW. -/
def cleanAll (gw1 gw2 : Option Word) (s : Sys) : Sys :=
  let nat := s.nat.erase masquerade
  let rules := ipRuleDel (ipRuleDel s.rules oifRule1) oifRule2
  let rules := ipRuleDel (ipRuleDel rules fromRule) oifRule
  let main := ipRouteDelDefault (ipRouteDelVps s.main) remoteIp dev none
  let main := delUplink (delUplink main gw1 dev1 table1) gw2 dev2 table2
  let tunnel := ipRouteDelTunnel s.tunnel (some (host localIp)) none
  let tunnel := ipRouteDelTunnel tunnel none (some remoteIp)
  Sys.loseDev
    { s with nat := nat, rules := rules, main := main, tunnel := tunnel, procs := 0, key := false }

/-- `grep -w "dev $1"` on a line with the device `d`: no letter follows, no digit and no underscore.
-/
def grepsDev (pat d : String) : Bool :=
  pat.toList <+: d.toList &&
    match d.toList.drop pat.toList.length with
    | [] => true
    | c :: _ => !(c.isAlphanum || c == '_')

/-- The third word of a line for a next hop. -/
def Hop.word (h : Hop) : Word :=
  match h.via with
  | some a => .addr a
  | none => .name h.dev

/-- The gateway in a line of `ip route show dev`, if it is one with `via` and without `default`. -/
def Route.viaOn (r : Route) (d : String) : Option Word :=
  match r.dst, r.hops with
  | some _, [h] => if h.dev = d then h.via.map Word.addr else none
  | _, _ => none

/-- The gateway of a link: of the first default route over it, or of the first other route. -/
def gatewayOf (routes : List Route) (d : String) : Option Word :=
  let hops := (routes.filter fun r => r.dst = none).flatMap Route.hops
  ((hops.find? fun h => grepsDev d h.dev).map Hop.word).or (routes.findSome? (Route.viaOn · d))

/-- `get_network_info`: DEV1_GW and DEV2_GW, unless one of them is empty. -/
def getNetworkInfo (main : List Route) : Option (Word × Word) :=
  match gatewayOf main dev1, gatewayOf main dev2 with
  | some gw1, some gw2 => some (gw1, gw2)
  | _, _ => none

/-- `start_tunnel`; `devUp` says whether there is a device after two seconds. -/
def startTunnel (devUp : Bool) (s : Sys) : Sys :=
  { s with
    key := true
    procs := s.procs + 1
    hasDev := devUp
    main := if devUp then s.main ++ [peerRoute] else s.main }

/-- `ip route add default via gw dev dev proto static metric m`. -/
def addUplink (routes : List Route) (gw : Word) (dev : String) (metric : Nat) : List Route :=
  match gw with
  | .addr a => ipRouteAdd routes (uplink a dev metric)
  | .name _ => routes

/-- `ip route replace "$VPS" metric 1 nexthop .. nexthop ..`. -/
def balance (routes : List Route) (gw1 gw2 : Word) : List Route :=
  match gw1, gw2 with
  | .addr a1, .addr a2 => ipRouteReplace routes (vpsRoute a1 a2)
  | _, _ => routes

/-- `add_routes`. -/
def addRoutes (gw1 gw2 : Word) (s : Sys) : Sys :=
  let main := ipRouteFlushDefault s.main
  let main := if s.hasDev then ipRouteAdd main tunnelDefault else main
  let main := addUplink (addUplink main gw1 dev1 table1) gw2 dev2 table2
  { s with main := balance main gw1 gw2 }

/-- `add_policy_rules`. -/
def addPolicyRules (s : Sys) : Sys :=
  let rules := ipRuleAdd (ipRuleAdd s.rules oifRule1) oifRule2
  let rules := ipRuleAdd (ipRuleAdd rules fromRule) oifRule
  { s with
    rules := rules
    tunnel := if s.hasDev then ipRouteReplace (ipRouteReplace s.tunnel localRoute) remoteRoute
      else s.tunnel }

/-- `add_iptables`. -/
def addIptables (s : Sys) : Sys := { s with nat := s.nat ++ [masquerade] }

/-- `start`, and whether it has been completed. -/
def start (devUp : Bool) (s : Sys) : Sys × Bool :=
  let s := cleanAll none none s
  match getNetworkInfo s.main with
  | some (gw1, gw2) =>
      (addIptables (addPolicyRules (addRoutes gw1 gw2 (startTunnel devUp s))), true)
  | none => (s, false)

/-- `stop`. -/
def stop (s : Sys) : Sys := cleanAll none none s

/-- `restart`. -/
def restart (devUp : Bool) (s : Sys) : Sys × Bool := start devUp (stop s)

/-! ### Runs -/

/-- The rules that a deletion of the script would take. -/
def Rule.ofScript (r : Rule) : Bool :=
  oifRule1.fits r || oifRule2.fits r || fromRule.fits r || oifRule.fits r

/-- The script is run, the tunnel ends by itself, or other programs change the lists. A change in
the middle of `restart` is one between `stop` and `start`. -/
inductive Event where
  | start (devUp : Bool)
  | stop
  | restart (devUp : Bool)
  | crash
  | change (rules : List Rule) (main : List Route) (nat : List NatRule)
deriving DecidableEq, Repr

/-- Other programs leave alone what belongs to the tunnel. -/
def Event.Enabled (s : Sys) : Event → Prop
  | .change rules main nat =>
      rules.filter Rule.ofScript = s.rules.filter Rule.ofScript ∧
        main.filter Route.viaTunnel = s.main.filter Route.viaTunnel ∧
        nat.filter (· = masquerade) = s.nat.filter (· = masquerade)
  | _ => True

/-- The state after an event, and whether it has been completed. -/
def scriptStep (s : Sys) : Event → Sys × Bool
  | .start devUp => start devUp s
  | .stop => (stop s, true)
  | .restart devUp => restart devUp s
  | .crash => ({ s.loseDev with procs := 0 }, true)
  | .change rules main nat => ({ s with rules := rules, main := main, nat := nat }, true)

/-- The runs of the script, with what else happens to the router. -/
abbrev scriptMachine : Machine.Step Sys Event Bool :=
  fun s e out s' => e.Enabled s ∧ scriptStep s e = (s', out)

end ConfigEnv.Glorytun
