/-
Module: ConfigEnv.Proofs.SendChecks
Layer: Proofs
Purpose: What `send_to_gateway` makes sure of before it sends. The gateway number comes from the
  connection table and the record from the gateway map, and the two tables expire on their own. The
  record is the one of the number exactly when the map still has one: after a fruitless traversal
  the cursor points at the list head, and the test for a null pointer does not see it.
Trusted boundary: none
Main exports: HasGateway, SendChecked, send_uses_known_gateway
Open obligations: none
-/
import ConfigEnv.Proofs.ConnTable
import ConfigEnv.TunVpn.ServerCalls

namespace ConfigEnv.TunVpn

open Machine

/-! ### The gateway map -/

/-- The map has a record for the number. -/
def HasGateway (gws : List GatewayAddr) (gatewayId : u8) : Prop :=
  ∃ gw ∈ gws, gw.gatewayId = gatewayId

/-- A record that the traversal stops at is one of the map, with the number asked for. -/
theorem getGatewayAddr_entry {gws : List GatewayAddr} {gatewayId : u8} {gw : GatewayAddr}
    (h : getGatewayAddr gws gatewayId = .entry gw) : gw ∈ gws ∧ gw.gatewayId = gatewayId := by
  unfold getGatewayAddr at h
  cases hfind : gws.find? fun gw => gw.gatewayId = gatewayId with
  | none =>
      rw [hfind] at h
      cases h
  | some found =>
      rw [hfind] at h
      cases h
      exact ⟨List.mem_of_find?_eq_some hfind, by simpa using List.find?_some hfind⟩

/-- A gateway is there exactly when the lookup gives an entry. -/
theorem hasGateway_iff {gws : List GatewayAddr} {gatewayId : u8} :
    HasGateway gws gatewayId ↔ ∃ gw, getGatewayAddr gws gatewayId = .entry gw := by
  constructor
  · rintro ⟨gw, hmem, hid⟩
    unfold getGatewayAddr
    cases hfind : gws.find? fun gw => gw.gatewayId = gatewayId with
    | some found => exact ⟨found, rfl⟩
    | none => exact absurd (decide_eq_true hid) (List.find?_eq_none.1 hfind gw hmem)
  · rintro ⟨gw, hgw⟩
    exact ⟨gw, getGatewayAddr_entry hgw⟩

namespace Ustun

/-! ### The record that is used -/

section Send

variable {sv : Server} {ts : Int} {headMem : GatewayAddr} {codec : FecCodec} {pkg : TunPkg}
  {len : Nat}

/-- The number that the connection table gives for a packet. -/
abbrev Server.gatewayOf (sv : Server) (ts : Int) (pkg : TunPkg) : u8 :=
  (findGatewayForPacket sv.conns ts pkg.payload).2

/-- The server after the lookup, which is a use of the entry it hits. -/
abbrev Server.lookedUp (sv : Server) (ts : Int) (pkg : TunPkg) : Server :=
  { sv with conns := (findGatewayForPacket sv.conns ts pkg.payload).1 }

/-- Without a gateway the packet is dropped. -/
theorem sendToGateway_dropped (hgw : sv.gatewayOf ts pkg = 0) :
    sendToGateway sv ts headMem codec pkg len =
      { sv := sv.lookedUp ts pkg, pkg := pkg, sent := [] } := by
  unfold sendToGateway
  exact if_pos hgw

/-- When the gateway number passes, the record that is used is one of the map and has this number;
when the map has none, nothing is sent, and nothing changes after the lookup. -/
structure SendChecked (sv : Server) (ts : Int) (headMem : GatewayAddr) (codec : FecCodec)
    (pkg : TunPkg) (len : Nat) : Prop where
  record : sv.gatewayOf ts pkg ≠ 0 → ∃ gw ∈ sv.gateways, gw.gatewayId = sv.gatewayOf ts pkg ∧
    gatewayRecord headMem (getGatewayAddr sv.gateways (sv.gatewayOf ts pkg)) = gw
  absent : ¬ HasGateway sv.gateways (sv.gatewayOf ts pkg) →
    sendToGateway sv ts headMem codec pkg len =
      { sv := sv.lookedUp ts pkg, pkg := pkg, sent := [] }

/-- A send is checked exactly when its packet has no gateway or the map has a record for it. -/
theorem sendChecked_iff : SendChecked sv ts headMem codec pkg len ↔
    sv.gatewayOf ts pkg = 0 ∨ HasGateway sv.gateways (sv.gatewayOf ts pkg) := by
  constructor
  · intro h
    by_cases hgw : sv.gatewayOf ts pkg = 0
    · exact .inl hgw
    · obtain ⟨gw, hmem, hid, -⟩ := h.record hgw
      exact .inr ⟨gw, hmem, hid⟩
  · intro h
    rcases h with hgw | hhas
    · exact ⟨fun hne => absurd hgw hne, fun _ => sendToGateway_dropped hgw⟩
    · obtain ⟨gw, hentry⟩ := hasGateway_iff.1 hhas
      obtain ⟨hmem, hid⟩ := getGatewayAddr_entry hentry
      refine ⟨fun _ => ⟨gw, hmem, hid, ?_⟩, fun habsent => absurd hhas habsent⟩
      rw [hentry]
      rfl

end Send

/-- A call that sends checks its gateway. -/
def CallChecked (p : Process) : Call → Prop
  | .sendToGateway ts headMem codec pkg len => SendChecked p.sv ts headMem codec pkg len
  | _ => True

/-- The number that the packet is looked up to is 0, or the map still has a record for it. -/
def GatewayPresent (p : Process) : Call → Prop
  | .sendToGateway ts _ _ pkg _ =>
      p.sv.gatewayOf ts pkg = 0 ∨ HasGateway p.sv.gateways (p.sv.gatewayOf ts pkg)
  | _ => True

/-- A call is checked exactly when the gateway it uses is there. -/
theorem callChecked_iff (p : Process) (call : Call) :
    CallChecked p call ↔ GatewayPresent p call := by
  cases call with
  | sendToGateway ts headMem codec pkg len => exact sendChecked_iff
  | updateGatewayMap | updateConnTable | cleanupExpiredGateways | cleanupExpiredConnections
  | openSock | closeSock | clearSock => exact Iff.rfl

/-- In any interleaving of the calls, the server sends through gateways of its map only, if and only
if at every packet the gateway of the packet's connection is still in the map. -/
theorem send_uses_known_gateway (glFec : Bool) (ts : Int) (calls : List Call) :
    Always callMachine (Process.start glFec ts) calls CallChecked ↔
      Always callMachine (Process.start glFec ts) calls GatewayPresent :=
  Always.congr fun _ call _ p _ _ => callChecked_iff p call

/-- A packet of 20 bytes from `10.0.0.4` to `10.0.0.1`, in storage of its own. -/
def replyPkg : TunPkg := { hdr := PkgHeader.zero, payload := flowPacket 4 1 }

/-- A call that sends it at `ts`. -/
def sendReply (ts : Int) : Call := .sendToGateway ts GatewayAddr.zero FecCodec.new replyPkg 20

/-- Gateway 7 is heard on both of its paths and sends a packet of the flow; then it falls silent,
and a reply keeps the connection from expiring with it. -/
def silentGateway : List Call :=
  [.updateGatewayMap 7 { addr := 1, port := 1 } 1 1 true,
    .updateGatewayMap 7 { addr := 2, port := 2 } 2 1 true,
    .updateConnTable 7 (flowPacket 1 4) 1 true,
    sendReply 100, .cleanupExpiredGateways 200 false, .cleanupExpiredConnections 200 false]

/-- The next reply is sent through the record of no gateway. -/
theorem send_uses_no_gateway :
    ¬ Always callMachine (Process.start false 0) (silentGateway ++ [sendReply 201])
      CallChecked := by
  intro h
  have hlast := ((((((h.tail ⟨trivial, rfl⟩).tail ⟨trivial, rfl⟩).tail ⟨trivial, rfl⟩).tail
    ⟨trivial, rfl⟩).tail ⟨trivial, rfl⟩).tail ⟨trivial, rfl⟩).head
  rcases (callChecked_iff _ _).1 hlast with hzero | ⟨gw, hmem, -⟩
  · exact absurd hzero (by decide +kernel)
  · cases hmem

end Ustun

end ConfigEnv.TunVpn
