/-
Module: ConfigEnv.TunVpn.ListTables
Layer: TunVpn
Purpose: The functions of ustun.c on `gateway_addrs` and `conn_table` as they work on memory: the
  two static list heads, the entries that `malloc` gave, the macros of ih_list.h between them. An
  entry is read and written only while it is a block. The answer of `malloc` comes with the call.
Trusted boundary: `malloc` returns no address of an allocated block
Main exports: Statics, TableMem, updateGatewayMapAt, getGatewayAddrAt, cleanupExpiredGatewaysAt,
  updateConnTableAt, findGatewayForPacketAt, cleanupExpiredConnectionsAt, TableOp, tableStep,
  tableMachine
Open obligations: none
-/
import ConfigEnv.TunVpn.IhList
import ConfigEnv.TunVpn.Tables

namespace ConfigEnv.TunVpn

open Circular (Ptr Links)

/-- The addresses of the two list heads. -/
structure Statics where
  gatewayAddrs : Ptr
  connTable : Ptr
  distinct : gatewayAddrs ≠ connTable

/-- Memory: the list heads, and what stands beside them in an entry of either kind. -/
structure TableMem where
  heap : Heap
  gw : Ptr → GatewayAddr
  conn : Ptr → ConnEntry

namespace TableMem

variable (m : TableMem)

/-- Read a `gateway_addr_t`. -/
def readGw {α : Type} (f : GatewayAddr → α) (p : Ptr) : Option α :=
  if p ∈ m.heap.blocks then some (f (m.gw p)) else none

/-- Fill the fields of a gateway's block. -/
def writeGw (p : Ptr) (gw : GatewayAddr) : Option TableMem :=
  if p ∈ m.heap.blocks then some { m with gw := Function.update m.gw p gw } else none

/-- Read a `conn_entry_t`. -/
def readConn {α : Type} (f : ConnEntry → α) (p : Ptr) : Option α :=
  if p ∈ m.heap.blocks then some (f (m.conn p)) else none

/-- Fill the fields of a connection's block. -/
def writeConn (p : Ptr) (entry : ConnEntry) : Option TableMem :=
  if p ∈ m.heap.blocks then some { m with conn := Function.update m.conn p entry } else none

end TableMem

/-- `IH_LIST_HEAD` twice, with whatever the rest of memory holds. -/
def TableMem.start (st : Statics) (links : Links) (gw : Ptr → GatewayAddr)
    (conn : Ptr → ConnEntry) : TableMem :=
  { heap :=
      { links := (links.link st.gatewayAddrs st.gatewayAddrs).link st.connTable st.connTable
        blocks := [st.gatewayAddrs, st.connTable] }
    gw := gw
    conn := conn }

variable (st : Statics)

/-- A traversal of a table until an entry passes the test. -/
def TableMem.findUntil (m : TableMem) (head : Ptr) (test : Ptr → Option Bool) : Option Ptr := do
  let first ← m.heap.next head
  forEachUntil m.heap head test (m.heap.blocks.length + 1) first

/-- A traversal of a table whose body may free the entry. -/
def TableMem.forAllSafe (m : TableMem) (head : Ptr) (body : TableMem → Ptr → Option TableMem) :
    Option TableMem := do
  let pos ← m.heap.next head
  let n ← m.heap.next pos
  forEachSafe TableMem.heap head body (m.heap.blocks.length + 1) m pos n

/-- `ih_list_del(&p->entries); free(p);`. -/
def TableMem.delFree (m : TableMem) (p : Ptr) : Option TableMem := do
  let heap ← ihListDel m.heap p
  let heap ← heap.free p
  some { m with heap := heap }

/-! ### Gateway map -/

/-- `update_gateway_map(gateway_id, addr, path_id)`. -/
def updateGatewayMapAt (m : TableMem) (ts : Int) (alloc : Option Ptr) (gatewayId : u8)
    (addr : SockAddr) (pathId : u8) : Option TableMem :=
  let path := pathId - 1
  if h : path.toNat < maxGwApn then do
    let i : Fin maxGwApn := ⟨path.toNat, h⟩
    let gw ← m.findUntil st.gatewayAddrs
      (m.readGw fun gw => gw.gatewayId = gatewayId ∧ gw.lastUsed > 0)
    if gw ≠ st.gatewayAddrs then m.writeGw gw ((m.gw gw).seen i addr ts)
    else
      match alloc with
      | none => some m
      | some gw => do
          let m := { m with heap := m.heap.malloc gw }
          let heap ← ihInitListHead m.heap gw
          let m := { m with heap := heap }
          let m ← m.writeGw gw { GatewayAddr.zero.seen i addr ts with gatewayId := gatewayId }
          let heap ← ihListAdd m.heap gw st.gatewayAddrs
          some { m with heap := heap }
  else some m

/-- `get_gateway_addr(gateway_id)`: the address it returns. -/
def getGatewayAddrAt (m : TableMem) (gatewayId : u8) : Option Ptr :=
  m.findUntil st.gatewayAddrs (m.readGw fun gw => gw.gatewayId = gatewayId)

/-- The body of the loop of `cleanup_expired_gateways`. -/
def expireGatewayAt (now : Int) (expire : Bool) (m : TableMem) (gw : Ptr) : Option TableMem := do
  let old ← m.readGw id gw
  let m ← m.writeGw gw (old.expire now)
  if expire || decide (old.expiredPaths now ≥ maxGwApn) then m.delFree gw else some m

/-- `cleanup_expired_gateways` on the memory. -/
def cleanupExpiredGatewaysAt (m : TableMem) (now : Int) (expire : Bool) : Option TableMem :=
  m.forAllSafe st.gatewayAddrs (expireGatewayAt now expire)

/-! ### Connection table -/

/-- `update_conn_table(gateway_id, client_addr, ip_packet, ip_len)`. -/
def updateConnTableAt (m : TableMem) (ts : Int) (alloc : Option Ptr) (gatewayId : u8)
    (ipPacket : List u8) : Option TableMem :=
  if ipVersion ipPacket ≠ 4 then some m
  else do
    let key := connHashCal ipPacket
    let entry ← m.findUntil st.connTable (m.readConn (ConnEntry.hit key.hashVal))
    if entry ≠ st.connTable then m.writeConn entry ((m.conn entry).use ts)
    else
      match alloc with
      | none => some m
      | some entry => do
          let m := { m with heap := m.heap.malloc entry }
          let m ← m.writeConn entry { key := key, gatewayId := gatewayId, lastUsed := ts }
          let heap ← ihInitListHead m.heap entry
          let heap ← ihListAdd heap entry st.connTable
          some { m with heap := heap }

/-- `find_gateway_for_packet(ip_packet, ip_len)`. -/
def findGatewayForPacketAt (m : TableMem) (ts : Int) (ipPacket : List u8) :
    Option (TableMem × u8) :=
  if ipVersion ipPacket ≠ 4 then some (m, 0)
  else do
    let key := connHashCal ipPacket
    let entry ← m.findUntil st.connTable (m.readConn (ConnEntry.hit key.hashVal))
    if entry ≠ st.connTable then do
      let gwId := (m.conn entry).gatewayId
      let m ← m.writeConn entry ((m.conn entry).use ts)
      some (m, gwId)
    else some (m, 0)

/-- The body of the loop of `cleanup_expired_connections`. -/
def expireConnAt (now : Int) (expire : Bool) (m : TableMem) (entry : Ptr) : Option TableMem := do
  let lastUsed ← m.readConn ConnEntry.lastUsed entry
  if expire || decide (now - lastUsed > connTimeout) then m.delFree entry else some m

/-- `cleanup_expired_connections` on the memory. -/
def cleanupExpiredConnectionsAt (m : TableMem) (now : Int) (expire : Bool) : Option TableMem :=
  m.forAllSafe st.connTable (expireConnAt now expire)

/-! ### Calls -/

/-- A call of one of the functions, with the time it reads and the answer of its `malloc`. -/
inductive TableOp where
  | updateGateway (gatewayId : u8) (addr : SockAddr) (pathId : u8) (ts : Int) (alloc : Option Ptr)
  | getGateway (gatewayId : u8)
  | cleanupGateways (now : Int) (expire : Bool)
  | updateConn (gatewayId : u8) (ipPacket : List u8) (ts : Int) (alloc : Option Ptr)
  | findGateway (ipPacket : List u8) (ts : Int)
  | cleanupConns (now : Int) (expire : Bool)

/-- What `malloc` returns to the call, if it is made. -/
def TableOp.alloc : TableOp → Option Ptr
  | .updateGateway _ _ _ _ alloc => alloc
  | .updateConn _ _ _ alloc => alloc
  | _ => none

/-- What a call gives back: nothing, what the returned pointer points at, or a gateway. -/
inductive TableOut where
  | done
  | gateway (gw : GatewayPtr)
  | gatewayId (id : u8)

/-- One call on memory; `none` is an access to something that is no block. -/
def tableStep (m : TableMem) : TableOp → Option (TableMem × TableOut)
  | .updateGateway gatewayId addr pathId ts alloc => do
      let m ← updateGatewayMapAt st m ts alloc gatewayId addr pathId
      some (m, .done)
  | .getGateway gatewayId => do
      let gw ← getGatewayAddrAt st m gatewayId
      some (m, .gateway (if gw = st.gatewayAddrs then .listHead else .entry (m.gw gw)))
  | .cleanupGateways now expire => do
      let m ← cleanupExpiredGatewaysAt st m now expire
      some (m, .done)
  | .updateConn gatewayId ipPacket ts alloc => do
      let m ← updateConnTableAt st m ts alloc gatewayId ipPacket
      some (m, .done)
  | .findGateway ipPacket ts => do
      let (m, gwId) ← findGatewayForPacketAt st m ts ipPacket
      some (m, .gatewayId gwId)
  | .cleanupConns now expire => do
      let m ← cleanupExpiredConnectionsAt st m now expire
      some (m, .done)

/-- `malloc` gives out no block that is allocated. -/
def Fresh (m : TableMem) (op : TableOp) : Prop := ∀ p, op.alloc = some p → p ∉ m.heap.blocks

/-- The calls on memory, one after another under the mutexes. -/
abbrev tableMachine : Machine.Step TableMem TableOp TableOut :=
  fun m op out m' => Fresh m op ∧ tableStep st m op = some (m', out)

/-- The same calls on the tables as lists. -/
def listStep (s : List GatewayAddr × List ConnEntry) :
    TableOp → (List GatewayAddr × List ConnEntry) × TableOut
  | .updateGateway gatewayId addr pathId ts alloc =>
      ((updateGatewayMap s.1 ts alloc.isSome gatewayId addr pathId, s.2), .done)
  | .getGateway gatewayId => (s, .gateway (getGatewayAddr s.1 gatewayId))
  | .cleanupGateways now expire => ((cleanupExpiredGateways s.1 now expire, s.2), .done)
  | .updateConn gatewayId ipPacket ts alloc =>
      ((s.1, updateConnTable s.2 ts alloc.isSome gatewayId ipPacket), .done)
  | .findGateway ipPacket ts =>
      let (conns, gwId) := findGatewayForPacket s.2 ts ipPacket
      ((s.1, conns), .gatewayId gwId)
  | .cleanupConns now expire => ((s.1, cleanupExpiredConnections s.2 now expire), .done)

/-- The runs of the tables as plain lists. -/
abbrev listMachine : Machine.Step (List GatewayAddr × List ConnEntry) TableOp TableOut :=
  fun s op out s' => listStep s op = (s', out)

end ConfigEnv.TunVpn
