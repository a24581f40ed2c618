/-
Module: ConfigEnv.Spec.FlowMap
Layer: Spec
Purpose: What the connection table is for. A flow is an unordered pair of addresses, and the map
  binds it to the gateway that sent the last packet of the flow, for as long as packets of the flow
  keep passing in either direction. The calls on `conn_table` are read as operations on this map;
  the table itself is compared with it elsewhere.
Trusted boundary: none
Main exports: flowOf, flowSum, FlowMap, flowStep, flowMachine
Open obligations: none
-/
import ConfigEnv.Lib.Leases
import ConfigEnv.TunVpn.Tables
import Mathlib.Data.Sym.Sym2

namespace ConfigEnv.TunVpn

open Leases

/-- The unordered pair of addresses of a key. -/
def ConnKey.flow (key : ConnKey) : Sym2 u32 := s(key.srcIp, key.dstIp)

/-- The flow of a packet. -/
def flowOf (ipPacket : List u8) : Sym2 u32 := (connHashCal ipPacket).flow

/-- The sum of the two addresses. -/
def flowSum (k : Sym2 u32) : u32 := Sym2.lift ⟨fun a b => a + b, BitVec.add_comm⟩ k

theorem hashVal_eq_flowSum (ipPacket : List u8) :
    (connHashCal ipPacket).hashVal = flowSum (flowOf ipPacket) := rfl

/-- The gateway that carries a flow. -/
abbrev FlowMap := LeaseMap (Sym2 u32) u8

/-- The calls on the table as operations on the map. A flow whose entry could not be allocated is
not bound. -/
def flowStep (flows : FlowMap) : ConnOp → FlowMap × Option u8
  | .update gatewayId ipPacket ts alloc =>
      if ipVersion ipPacket = 4 ∧ ((flows (flowOf ipPacket)).isSome ∨ alloc) then
        (assign flows (flowOf ipPacket) gatewayId ts, none)
      else (flows, none)
  | .find ipPacket ts =>
      if ipVersion ipPacket = 4 then
        (touch flows (flowOf ipPacket) ts,
          some (((flows (flowOf ipPacket)).map Lease.value).getD 0))
      else (flows, some 0)
  | .cleanup now expire =>
      (keep flows fun l => !(expire || decide (now - l.lastUsed > connTimeout)), none)

/-- The runs of the map. -/
abbrev flowMachine : Machine.Step FlowMap ConnOp (Option u8) :=
  fun flows op out flows' => flowStep flows op = (flows', out)

/-- No two flows that are bound have the same sum. -/
def NoSharedSum (flows : FlowMap) : Prop :=
  ∀ k k', flows k ≠ none → flows k' ≠ none → flowSum k = flowSum k' → k = k'

/-- No flow but the packet's own is bound under its sum. -/
def SumIsOwn (flows : FlowMap) (ipPacket : List u8) : Prop :=
  ∀ k, flows k ≠ none → flowSum k = flowSum (flowOf ipPacket) → k = flowOf ipPacket

/-- The call is on a flow that shares its sum with no bound flow, and an update comes from the
gateway that carries the flow already, if one does. -/
def FlowStays (flows : FlowMap) : ConnOp → Prop
  | .update gatewayId ipPacket _ _ => ipVersion ipPacket = 4 →
      SumIsOwn flows ipPacket ∧ ∀ l, flows (flowOf ipPacket) = some l → l.value = gatewayId
  | .find ipPacket _ => ipVersion ipPacket = 4 → SumIsOwn flows ipPacket
  | .cleanup _ _ => True

end ConfigEnv.TunVpn
