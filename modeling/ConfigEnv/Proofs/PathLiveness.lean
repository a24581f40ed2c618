/-
Module: ConfigEnv.Proofs.PathLiveness
Layer: Proofs
Purpose: On which paths a packet leaves the server. The branch without FEC asks of every path
  whether the gateway was seen there and whether the socket number is positive; the FEC branch takes
  the worker whose turn it is and asks only whether its number is negative. Both are compared with
  the paths that are alive: the socket is open, and the gateway has been seen and has not expired.
Trusted boundary: none
Main exports: Process.SocketOpen, Process.LivePath, SendsOnLivePaths, PicksLivePaths,
  send_on_live_paths
Open obligations: none
-/
import ConfigEnv.Proofs.FecPath
import ConfigEnv.Proofs.SendChecks

namespace ConfigEnv.TunVpn.Ustun

open Machine

/-! ### Paths -/

/-- `i % UDP_WORKER`, the worker of path `i`. -/
abbrev pathSock (i : Fin maxGwApn) : Fin udpWorker := Fin.ofNat udpWorker i.val

/-- There are as many workers as paths. -/
theorem pathSock_self (i : Fin udpWorker) : pathSock i = i := by
  apply Fin.ext
  exact Nat.mod_eq_of_lt i.isLt

namespace Process

/-- `udp_sock[i]` is a descriptor that a worker has opened and not yet closed. -/
def SocketOpen (p : Process) (i : Fin udpWorker) : Prop :=
  ∃ id, p.opened id = some (p.sv.udpSock i)

/-- The path is alive for the gateway. -/
structure LivePath (p : Process) (gw : GatewayAddr) (i : Fin maxGwApn) : Prop where
  opened : p.SocketOpen (pathSock i)
  seen : 0 < gw.lastSeenApn i

/-- Workers have descriptors above 0 only. -/
def DescriptorsPos (p : Process) : Prop := ∀ id sock, p.opened id = some sock → 0 < sock

end Process

/-- Every call keeps the workers' descriptors positive. -/
theorem descriptorsPos_step {p p' : Process} {call : Call} {out : List Sent}
    (hstep : callMachine p call out p') (h : p.DescriptorsPos) : p'.DescriptorsPos := by
  obtain ⟨henabled, hcall⟩ := hstep
  cases call with
  | updateGatewayMap | updateConnTable | cleanupExpiredGateways | cleanupExpiredConnections
  | sendToGateway | clearSock =>
      cases hcall
      exact h
  | openSock worker sock =>
      cases hcall
      intro id fd hfd
      by_cases hid : id = worker
      · subst hid
        simp only [Function.update_self, Option.some.injEq] at hfd
        exact hfd ▸ henabled.1
      · simp only [Function.update_of_ne hid] at hfd
        exact h id fd hfd
  | closeSock worker =>
      cases hcall
      intro id fd hfd
      by_cases hid : id = worker
      · subst hid
        simp at hfd
      · simp only [Function.update_of_ne hid] at hfd
        exact h id fd hfd

/-- In every run the workers' descriptors are positive. -/
theorem descriptorsPos_run {glFec : Bool} {ts : Int} {t : List (Call × List Sent)} {p : Process}
    (hrun : Run callMachine (Process.start glFec ts) t p) : p.DescriptorsPos := by
  apply hrun.invariant Process.DescriptorsPos
  · intro id sock hsock
    cases hsock
  · intro e _ q q' hq hstep
    exact descriptorsPos_step hstep hq

/-! ### The two branches -/

section Branches

variable {sv : Server} {ts : Int} {headMem gw : GatewayAddr} {codec : FecCodec} {pkg : TunPkg}
  {len : Nat}

/-- The record that is used for a packet. -/
abbrev Server.recordOf (sv : Server) (ts : Int) (headMem : GatewayAddr) (pkg : TunPkg) :
    GatewayAddr :=
  gatewayRecord headMem (getGatewayAddr sv.gateways (sv.gatewayOf ts pkg))

/-- The worker that the FEC branch takes for the next packet. -/
abbrev Server.nextWorker (sv : Server) : Fin udpWorker := pickWorker sv.udpSock (sv.sequence + 1)

/-- The packet is long enough for the FEC branch, and FEC is on. -/
abbrev Server.usesFec (sv : Server) (len : Nat) : Prop :=
  sv.glFec = true ∧ pkgFecEncodeMinLen < len

/-- The FEC branch sends its three datagrams on one path. -/
theorem sendToGateway_fec_path (headMem : GatewayAddr) (codec : FecCodec)
    (hgw : sv.gatewayOf ts pkg ≠ 0) (hfec : sv.usesFec len) :
    (sendToGateway sv ts headMem codec pkg len).sent.map (fun d => (d.sock, d.addr)) =
      List.replicate shardCount
        (sv.nextWorker, (sv.recordOf ts headMem pkg).addrApn sv.nextWorker) := by
  have hrs : (fillHeader sv pkg.hdr (sv.gatewayOf ts pkg) len).fecRs ≠ 0 :=
    (fillHeader_fecRs _ _ _ _).2 hfec
  unfold sendToGateway
  simp only [fillHeader_conns, if_neg hgw, if_pos hrs, encodePayload_eq, if_true, List.map_map]
  rfl

/-- Every shard goes to the address of the next worker's path. -/
theorem sendToGateway_fec_mem (hgw : sv.gatewayOf ts pkg ≠ 0) (hfec : sv.usesFec len) {d : Sent}
    (hd : d ∈ (sendToGateway sv ts headMem codec pkg len).sent) :
    d.sock = sv.nextWorker ∧ d.addr = (sv.recordOf ts headMem pkg).addrApn sv.nextWorker := by
  have hmem := List.mem_map_of_mem (f := fun d => (d.sock, d.addr)) hd
  rw [sendToGateway_fec_path headMem codec hgw hfec] at hmem
  exact Prod.mk.inj (List.eq_of_mem_replicate hmem)

/-- The other branch sends one datagram on each path that passes its two tests. -/
theorem sendToGateway_direct_path (headMem : GatewayAddr) (codec : FecCodec)
    (hgw : sv.gatewayOf ts pkg ≠ 0) (hfec : ¬ sv.usesFec len) :
    (sendToGateway sv ts headMem codec pkg len).sent.map (fun d => (d.sock, d.addr)) =
      ((List.finRange maxGwApn).filter fun i =>
        (sv.recordOf ts headMem pkg).lastSeenApn i > 0 ∧ sv.udpSock (pathSock i) > 0).map fun i =>
          (pathSock i, (sv.recordOf ts headMem pkg).addrApn i) := by
  have hrs : (fillHeader sv pkg.hdr (sv.gatewayOf ts pkg) len).fecRs = 0 :=
    not_not.1 (mt (fillHeader_fecRs _ _ _ _).1 hfec)
  unfold sendToGateway
  simp only [fillHeader_conns, if_neg hgw, hrs, ne_eq, not_true_eq_false, if_false, List.map_map]
  rfl

end Branches

/-! ### Liveness of what is sent -/

/-- Every datagram leaves on an open socket, to an address at which the gateway has been seen; and
when the gateway has a live path, the packet goes out, on live paths only. -/
structure SendsOnLivePaths (p : Process) (ts : Int) (headMem : GatewayAddr) (codec : FecCodec)
    (pkg : TunPkg) (len : Nat) : Prop where
  each : ∀ d ∈ (sendToGateway p.sv ts headMem codec pkg len).sent, p.SocketOpen d.sock ∧
    ∃ gw, getGatewayAddr p.sv.gateways (p.sv.gatewayOf ts pkg) = .entry gw ∧
      ∃ i, d.addr = gw.addrApn i ∧ 0 < gw.lastSeenApn i
  live : ∀ gw, p.sv.gatewayOf ts pkg ≠ 0 →
    getGatewayAddr p.sv.gateways (p.sv.gatewayOf ts pkg) = .entry gw →
    (∃ i, p.LivePath gw i) →
      (sendToGateway p.sv ts headMem codec pkg len).sent ≠ [] ∧
      ∀ d ∈ (sendToGateway p.sv ts headMem codec pkg len).sent,
        ∃ i, p.LivePath gw i ∧ d.sock = pathSock i ∧ d.addr = gw.addrApn i

/-- The gateway is in the map; with FEC the worker whose turn it is has a live path, and without
FEC the paths with a positive socket number on which the gateway was seen have open sockets. -/
def PicksLivePaths (p : Process) (ts : Int) (pkg : TunPkg) (len : Nat) : Prop :=
  p.sv.gatewayOf ts pkg = 0 ∨
    ∃ gw, getGatewayAddr p.sv.gateways (p.sv.gatewayOf ts pkg) = .entry gw ∧
      if p.sv.usesFec len then p.LivePath gw p.sv.nextWorker
      else ∀ i, 0 < gw.lastSeenApn i → 0 < p.sv.udpSock (pathSock i) → p.SocketOpen (pathSock i)

section Send

variable {p : Process} {ts : Int} {headMem gw : GatewayAddr} {codec : FecCodec} {pkg : TunPkg}
  {len : Nat}

/-- A packet that leaves on live paths, and does leave if there are any, is sent as it should. -/
theorem sendsOnLivePaths_of_paths
    (hentry : getGatewayAddr p.sv.gateways (p.sv.gatewayOf ts pkg) = .entry gw)
    (hpaths : ∀ d ∈ (sendToGateway p.sv ts headMem codec pkg len).sent,
      ∃ i, p.LivePath gw i ∧ d.sock = pathSock i ∧ d.addr = gw.addrApn i)
    (hsome : (∃ i, p.LivePath gw i) → (sendToGateway p.sv ts headMem codec pkg len).sent ≠ []) :
    SendsOnLivePaths p ts headMem codec pkg len where
  each d hd := by
    obtain ⟨i, hlive, hsock, haddr⟩ := hpaths d hd
    refine ⟨?_, gw, hentry, i, haddr, hlive.seen⟩
    rw [hsock]
    exact hlive.opened
  live gw' _ hentry' hlive := by
    rw [hentry] at hentry'
    cases hentry'
    exact ⟨hsome hlive, hpaths⟩

/-- The record that is used is the one that is found. -/
theorem recordOf_entry
    (hentry : getGatewayAddr p.sv.gateways (p.sv.gatewayOf ts pkg) = .entry gw) :
    p.sv.recordOf ts headMem pkg = gw := by
  unfold Server.recordOf
  rw [hentry]
  rfl

/-- A packet in shards goes to a live path when the next worker's path is live. -/
theorem sendsOnLivePaths_fec (hgw : p.sv.gatewayOf ts pkg ≠ 0)
    (hentry : getGatewayAddr p.sv.gateways (p.sv.gatewayOf ts pkg) = .entry gw)
    (hfec : p.sv.usesFec len) (hlive : p.LivePath gw p.sv.nextWorker) :
    SendsOnLivePaths p ts headMem codec pkg len := by
  apply sendsOnLivePaths_of_paths hentry
  · intro d hd
    obtain ⟨hsock, haddr⟩ := sendToGateway_fec_mem hgw hfec hd
    rw [recordOf_entry hentry] at haddr
    exact ⟨p.sv.nextWorker, hlive, hsock.trans (pathSock_self p.sv.nextWorker).symm, haddr⟩
  · intro _ hnil
    have hpath := sendToGateway_fec_path headMem codec hgw hfec
    rw [hnil] at hpath
    cases hpath

/-- A direct packet goes to live paths when the sockets of the seen paths are open. -/
theorem sendsOnLivePaths_direct (hpos : p.DescriptorsPos) (hgw : p.sv.gatewayOf ts pkg ≠ 0)
    (hentry : getGatewayAddr p.sv.gateways (p.sv.gatewayOf ts pkg) = .entry gw)
    (hfec : ¬ p.sv.usesFec len)
    (hopen : ∀ i, 0 < gw.lastSeenApn i → 0 < p.sv.udpSock (pathSock i) →
      p.SocketOpen (pathSock i)) :
    SendsOnLivePaths p ts headMem codec pkg len := by
  have hpath := sendToGateway_direct_path headMem codec hgw hfec
  rw [recordOf_entry hentry] at hpath
  apply sendsOnLivePaths_of_paths hentry
  · intro d hd
    have hmem := List.mem_map_of_mem (f := fun d => (d.sock, d.addr)) hd
    rw [hpath] at hmem
    obtain ⟨i, hi, heq⟩ := List.mem_map.1 hmem
    obtain ⟨hsock, haddr⟩ := Prod.mk.inj heq
    obtain ⟨hseen, hnum⟩ := of_decide_eq_true (List.mem_filter.1 hi).2
    exact ⟨i, ⟨hopen i hseen hnum, hseen⟩, hsock.symm, haddr.symm⟩
  · rintro ⟨i, hlive⟩ hnil
    obtain ⟨id, hid⟩ := hlive.opened
    have hmem : i ∈ (List.finRange maxGwApn).filter fun i =>
        gw.lastSeenApn i > 0 ∧ p.sv.udpSock (pathSock i) > 0 := by
      rw [List.mem_filter]
      exact ⟨List.mem_finRange i, decide_eq_true ⟨hlive.seen, hpos id _ hid⟩⟩
    rw [hnil, List.map_nil, eq_comm, List.map_eq_nil_iff] at hpath
    rw [hpath] at hmem
    cases hmem

/-- With FEC, the worker whose turn it is has to have a live path as soon as there is one. -/
theorem SendsOnLivePaths.nextWorker_live (h : SendsOnLivePaths p ts headMem codec pkg len)
    (hgw : p.sv.gatewayOf ts pkg ≠ 0)
    (hentry : getGatewayAddr p.sv.gateways (p.sv.gatewayOf ts pkg) = .entry gw)
    (hfec : p.sv.usesFec len) (hlive : ∃ i, p.LivePath gw i) : p.LivePath gw p.sv.nextWorker := by
  obtain ⟨hne, hpaths⟩ := h.live gw hgw hentry hlive
  obtain ⟨d, hd⟩ := List.exists_mem_of_ne_nil _ hne
  obtain ⟨i, hi, hsock, -⟩ := hpaths d hd
  rw [(sendToGateway_fec_mem hgw hfec hd).1, pathSock_self] at hsock
  exact hsock ▸ hi

/-- Under the condition a packet is sent on live paths, by either branch. -/
theorem sendsOnLivePaths_of_picks (hpos : p.DescriptorsPos) (h : PicksLivePaths p ts pkg len) :
    SendsOnLivePaths p ts headMem codec pkg len := by
  by_cases hgw : p.sv.gatewayOf ts pkg = 0
  · constructor
    · rw [sendToGateway_dropped hgw]
      intro d hd
      cases hd
    · intro _ hne
      exact absurd hgw hne
  · obtain ⟨gw, hentry, hpicks⟩ := h.resolve_left hgw
    by_cases hfec : p.sv.usesFec len
    · rw [if_pos hfec] at hpicks
      exact sendsOnLivePaths_fec hgw hentry hfec hpicks
    · rw [if_neg hfec] at hpicks
      exact sendsOnLivePaths_direct hpos hgw hentry hfec hpicks

end Send

/-! ### Runs -/

/-- A call that sends, sends on live paths. -/
def CallOnLivePaths (p : Process) : Call → Prop
  | .sendToGateway ts headMem codec pkg len => SendsOnLivePaths p ts headMem codec pkg len
  | _ => True

/-- A call that sends picks live paths; the other calls send nothing. -/
def CallPicksLivePaths (p : Process) : Call → Prop
  | .sendToGateway ts _ _ pkg len => PicksLivePaths p ts pkg len
  | _ => True

/-- In every interleaving of the calls in which each packet meets the condition, every packet is
sent on live paths. -/
theorem send_on_live_paths (glFec : Bool) (ts : Int) (calls : List Call)
    (hpicks : Always callMachine (Process.start glFec ts) calls CallPicksLivePaths) :
    Always callMachine (Process.start glFec ts) calls CallOnLivePaths := by
  intro pre call post t p hcalls ht hrun
  have hcond := hpicks pre call post t p hcalls ht hrun
  cases call with
  | sendToGateway => exact sendsOnLivePaths_of_picks (descriptorsPos_run hrun) hcond
  | updateGatewayMap | updateConnTable | cleanupExpiredGateways | cleanupExpiredConnections
  | openSock | closeSock | clearSock => trivial

/-! ### One gateway -/

/-- A packet from `10.0.0.4` to `10.0.0.1` that is long enough for FEC. -/
def longReplyPkg : TunPkg :=
  { hdr := PkgHeader.zero
    payload := tunRead zeroPayload (flowPacket 4 1 ++ List.replicate 1181 0) }

def sendLongReply (ts : Int) : Call :=
  .sendToGateway ts GatewayAddr.zero FecCodec.new longReplyPkg 1201

/-- Both workers open their sockets, and gateway 7 sends a packet on its first path. -/
def onePath : List Call :=
  [.openSock 0 3, .openSock 1 4, .updateGatewayMap 7 { addr := 1, port := 1 } 1 1 true,
    .updateConnTable 7 (flowPacket 1 4) 1 true]

/-- A short packet takes the first path, and it is this path's turn when a long one follows. -/
theorem send_on_live_paths_both :
    Always callMachine (Process.start true 0)
      (onePath ++ [sendReply 2, sendLongReply 3]) CallOnLivePaths := by
  apply send_on_live_paths
  refine .cons trivial fun _ _ ⟨_, h⟩ => ?_
  cases h
  refine .cons trivial fun _ _ ⟨_, h⟩ => ?_
  cases h
  refine .cons trivial fun _ _ ⟨_, h⟩ => ?_
  cases h
  refine .cons trivial fun _ _ ⟨_, h⟩ => ?_
  cases h
  refine .cons (.inr ⟨_, rfl, ?_⟩) fun _ _ ⟨_, h⟩ => ?_
  · rw [if_neg (by decide)]
    intro i _ _
    exact ⟨pathSock i, by revert i; decide⟩
  cases h
  refine .cons (.inr ⟨_, rfl, ?_⟩) fun _ _ _ => .nil
  rw [if_pos (by decide)]
  exact ⟨⟨0, rfl⟩, by decide⟩

/-- The first long packet takes the second path, on which the gateway was never seen, although the
first one is live. -/
theorem send_leaves_live_path :
    ¬ Always callMachine (Process.start true 0) (onePath ++ [sendLongReply 2])
      CallOnLivePaths := by
  intro h
  have hlast := ((((h.tail ⟨⟨by decide, rfl, rfl⟩, rfl⟩).tail ⟨⟨by decide, rfl, rfl⟩, rfl⟩).tail
    ⟨trivial, rfl⟩).tail ⟨trivial, rfl⟩).head
  have hnext := hlast.nextWorker_live (by decide +kernel) rfl ⟨rfl, by decide⟩
    ⟨0, ⟨0, rfl⟩, by decide⟩
  exact absurd hnext.seen (by decide)

end ConfigEnv.TunVpn.Ustun
