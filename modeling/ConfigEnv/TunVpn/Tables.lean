/-
Module: ConfigEnv.TunVpn.Tables
Layer: TunVpn
Purpose: The two tables of ustun.c, `gateway_addrs` and `conn_table`, and the functions under their
  mutexes. Both are circular intrusive lists to which `ih_list_add` adds at the front, so they are
  lists here, newest entry first. A traversal that runs through ends with its cursor computed from
  the list head, which is not a null pointer; `GatewayPtr` keeps that case apart.
Trusted boundary: none
Main exports: GatewayAddr, updateGatewayMap, getGatewayAddr, cleanupExpiredGateways, GatewayOp,
  gatewayMachine, ConnEntry, updateConnTable, findGatewayForPacket, cleanupExpiredConnections,
  ConnOp, connMachine
Open obligations: none
-/
import ConfigEnv.Lib.Run
import ConfigEnv.TunVpn.Wire

namespace ConfigEnv.TunVpn

/-- Apply `f` to the first entry that satisfies `p`, the way a traversal with an early return does.
-/
def touchFirst {α : Type} (p : α → Bool) (f : α → α) : List α → Option (List α)
  | [] => none
  | a :: as => if p a then some (f a :: as) else (touchFirst p f as).map (a :: ·)

/-! ### Gateway map -/

/-- The fields of `struct sockaddr_in` that an address is told by. -/
structure SockAddr where
  addr : u32
  port : u16
deriving DecidableEq, Repr

/-- `gateway_addr_t`. -/
structure GatewayAddr where
  addrApn : Fin maxGwApn → SockAddr
  lastSeenApn : Fin maxGwApn → Int
  lastUsed : Int
  gatewayId : u8

/-- The entry that `malloc` and `memset` leave. -/
def GatewayAddr.zero : GatewayAddr :=
  { addrApn := fun _ => { addr := 0, port := 0 }, lastSeenApn := fun _ => 0
    lastUsed := 0, gatewayId := 0 }

/-- Record that path `i` was seen at `ts` from `addr`. -/
def GatewayAddr.seen (gw : GatewayAddr) (i : Fin maxGwApn) (addr : SockAddr) (ts : Int) :
    GatewayAddr :=
  { gw with
    addrApn := fun j => if j = i then addr else gw.addrApn j
    lastSeenApn := fun j => if j = i then ts else gw.lastSeenApn j
    lastUsed := ts }

/-- `update_gateway_map(gateway_id, addr, path_id)`; `alloc` says whether `malloc` succeeds. -/
def updateGatewayMap (gws : List GatewayAddr) (ts : Int) (alloc : Bool) (gatewayId : u8)
    (addr : SockAddr) (pathId : u8) : List GatewayAddr :=
  let path := pathId - 1
  if h : path.toNat < maxGwApn then
    let i : Fin maxGwApn := ⟨path.toNat, h⟩
    match touchFirst (fun gw => gw.gatewayId = gatewayId ∧ gw.lastUsed > 0)
        (fun gw => gw.seen i addr ts) gws with
    | some gws' => gws'
    | none =>
        if alloc then { GatewayAddr.zero.seen i addr ts with gatewayId := gatewayId } :: gws
        else gws
  else gws

/-- What `get_gateway_addr` returns: an element, or the address computed from the list head. -/
inductive GatewayPtr where
  | entry (gw : GatewayAddr)
  | listHead

/-- `get_gateway_addr(gateway_id)`. -/
def getGatewayAddr (gws : List GatewayAddr) (gatewayId : u8) : GatewayPtr :=
  match gws.find? fun gw => gw.gatewayId = gatewayId with
  | some gw => .entry gw
  | none => .listHead

/-- Path `i` has been seen, and not for `CONN_TIMEOUT`. -/
def GatewayAddr.expired (gw : GatewayAddr) (now : Int) (i : Fin maxGwApn) : Bool :=
  gw.lastSeenApn i ≠ 0 ∧ now - gw.lastSeenApn i > connTimeout

/-- The loop over the paths of one entry. -/
def GatewayAddr.expire (gw : GatewayAddr) (now : Int) : GatewayAddr :=
  { gw with lastSeenApn := fun i => if gw.expired now i then 0 else gw.lastSeenApn i }

/-- `cnt` after that loop: the paths that expired in it, not those that had expired before. -/
def GatewayAddr.expiredPaths (gw : GatewayAddr) (now : Int) : Nat :=
  ((List.finRange maxGwApn).filter (gw.expired now)).length

/-- `cleanup_expired_gateways(expire)`. -/
def cleanupExpiredGateways (gws : List GatewayAddr) (now : Int) (expire : Bool) :
    List GatewayAddr :=
  (gws.filter fun gw => !(expire || decide (gw.expiredPaths now ≥ maxGwApn))).map
    (GatewayAddr.expire · now)

/-- A call that changes `gateway_addrs`, with the time of the call. -/
inductive GatewayOp where
  | update (gatewayId : u8) (addr : SockAddr) (pathId : u8) (ts : Int) (alloc : Bool)
  | cleanup (now : Int) (expire : Bool)

/-- The table of gateways after a call. -/
def gatewayStep (gws : List GatewayAddr) : GatewayOp → List GatewayAddr
  | .update gatewayId addr pathId ts alloc => updateGatewayMap gws ts alloc gatewayId addr pathId
  | .cleanup now expire => cleanupExpiredGateways gws now expire

/-- The calls on the map, one after another under its mutex. -/
abbrev gatewayMachine : Machine.Step (List GatewayAddr) GatewayOp Unit :=
  fun gws op _ gws' => gatewayStep gws op = gws'

/-! ### Connection table -/

/-- The fields of `conn_key_t` that are ever set to something but zero. -/
structure ConnKey where
  srcIp : u32
  dstIp : u32
  hashVal : u32
deriving DecidableEq, Repr

/-- `conn_entry_t`. -/
structure ConnEntry where
  key : ConnKey
  gatewayId : u8
  lastUsed : Int
deriving DecidableEq, Repr

/-- `*(uint32_t *)(mem + off)` on a little-endian machine. -/
def load32 (mem : List u8) (off : Nat) : u32 :=
  mem.getD (off + 3) 0 ++ mem.getD (off + 2) 0 ++ mem.getD (off + 1) 0 ++ mem.getD off 0

/-- `conn_hash_cal`. -/
def connHashCal (ipPacket : List u8) : ConnKey :=
  let srcIp := load32 ipPacket 12
  let dstIp := load32 ipPacket 16
  { srcIp := srcIp, dstIp := dstIp, hashVal := srcIp + dstIp }

/-- `(ip_packet[0] >> 4) & 0x0F`. -/
def ipVersion (ipPacket : List u8) : u8 := (ipPacket.getD 0 0 >>> 4) &&& 0x0F

/-- The test of both traversals, and what a hit does to the entry. -/
def ConnEntry.hit (hashVal : u32) (entry : ConnEntry) : Bool := entry.key.hashVal = hashVal

/-- The entry is used at `ts`. -/
def ConnEntry.use (ts : Int) (entry : ConnEntry) : ConnEntry := { entry with lastUsed := ts }

/-- `update_conn_table(gateway_id, client_addr, ip_packet, ip_len)`. -/
def updateConnTable (conns : List ConnEntry) (ts : Int) (alloc : Bool) (gatewayId : u8)
    (ipPacket : List u8) : List ConnEntry :=
  if ipVersion ipPacket ≠ 4 then conns
  else
    let key := connHashCal ipPacket
    match touchFirst (ConnEntry.hit key.hashVal) (ConnEntry.use ts) conns with
    | some conns' => conns'
    | none =>
        if alloc then { key := key, gatewayId := gatewayId, lastUsed := ts } :: conns else conns

/-- `find_gateway_for_packet(ip_packet, ip_len)`. -/
def findGatewayForPacket (conns : List ConnEntry) (ts : Int) (ipPacket : List u8) :
    List ConnEntry × u8 :=
  if ipVersion ipPacket ≠ 4 then (conns, 0)
  else
    let key := connHashCal ipPacket
    match conns.find? (ConnEntry.hit key.hashVal) with
    | some entry =>
        ((touchFirst (ConnEntry.hit key.hashVal) (ConnEntry.use ts) conns).getD conns,
          entry.gatewayId)
    | none => (conns, 0)

/-- `cleanup_expired_connections(expire)`. -/
def cleanupExpiredConnections (conns : List ConnEntry) (now : Int) (expire : Bool) :
    List ConnEntry :=
  conns.filter fun entry => !(expire || decide (now - entry.lastUsed > connTimeout))

/-- A call that touches `conn_table`, with the time of the call. -/
inductive ConnOp where
  | update (gatewayId : u8) (ipPacket : List u8) (ts : Int) (alloc : Bool)
  | find (ipPacket : List u8) (ts : Int)
  | cleanup (now : Int) (expire : Bool)

/-- The table after a call, and the gateway that a lookup returned. -/
def connStep (conns : List ConnEntry) : ConnOp → List ConnEntry × Option u8
  | .update gatewayId ipPacket ts alloc => (updateConnTable conns ts alloc gatewayId ipPacket, none)
  | .find ipPacket ts =>
      let (conns, gatewayId) := findGatewayForPacket conns ts ipPacket
      (conns, some gatewayId)
  | .cleanup now expire => (cleanupExpiredConnections conns now expire, none)

/-- The calls on the table, one after another under its mutex. -/
abbrev connMachine : Machine.Step (List ConnEntry) ConnOp (Option u8) :=
  fun conns op out conns' => connStep conns op = (conns', out)

end ConfigEnv.TunVpn
