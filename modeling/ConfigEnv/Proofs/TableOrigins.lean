/-
Module: ConfigEnv.Proofs.TableOrigins
Layer: Proofs
Purpose: What the connection table is learnt from. The receiver passes the payload of every datagram
  to `update_conn_table` before it looks at the FEC fields. The payload of a whole packet and of
  shard 0 begins with the header of the packet; shard 1 begins in its middle and shard 2 is parity,
  and when their first byte happens to read as version 4 the bytes where the addresses would be make
  an entry. Without such shards every entry has the addresses of a packet that was sent.
Trusted boundary: none
Main exports: Ustun.ClientsEvent, Ustun.clientsMachine, received_head, BeginsPacket,
  conn_entries_are_sent
Open obligations: none
-/
import ConfigEnv.Proofs.BufferReads
import ConfigEnv.Spec.Arrivals

namespace ConfigEnv.TunVpn

open Machine Memory

/-! ### Where a payload begins -/

section Payload

variable (S : Stream) (d : Datagram) (old : List u8)

/-- What follows the header on the wire. -/
def Stream.body : List u8 :=
  match d.part with
  | some i => List.ofFn ((S d.num).rows i)
  | none => (S d.num).data

/-- The payload in the receive buffer reads as that, as far as it goes. -/
theorem received_body : Agree (0 : u8) (min (S.body d).length (bufferSize - pktOffset))
    (S.received d old).payload (S.body d) := by
  have hpayload : (S.received d old).payload =
      (S.body d).take (bufferSize - pktOffset) ++ old.drop (pktOffset + (S.body d).length) :=
    received_payload old (S.header d) (S.body d)
  have hlen : ((S.body d).take (bufferSize - pktOffset)).length =
      min (S.body d).length (bufferSize - pktOffset) := by
    rw [List.length_take, min_comm]
  rw [hpayload]
  have hcut := Agree.append_nil (0 : u8) ((S.body d).take (bufferSize - pktOffset))
    (old.drop (pktOffset + (S.body d).length))
  rw [hlen] at hcut
  exact hcut.trans ((Agree.take 0 _ (S.body d)).mono (min_le_right _ _))

/-- The first row is the beginning of the packet. -/
theorem rows_head (p : Packet) (hlen : 20 ≤ p.data.length) :
    Agree (0 : u8) 20 (List.ofFn (p.rows 0)) p.data := by
  intro k hk
  have hrow : 20 ≤ fecRsT := by decide
  have hdata : p.rows 0 = fecBuf (tunRead p.stale p.data) 0 := codewordRows_data _ (by decide)
  have hplace : fecRsT * (0 : Fin shardCount).val + k = k := by
    have hzero : (0 : Fin shardCount).val = 0 := rfl
    rw [hzero, Nat.mul_zero, Nat.zero_add]
  have hfirst : fecBuf (tunRead p.stale p.data) 0 ⟨k, hk.trans_le hrow⟩ =
      (tunRead p.stale p.data).getD k 0 :=
    congrArg ((tunRead p.stale p.data).getD · 0) hplace
  calc (List.ofFn (p.rows 0)).getD k 0
      = p.rows 0 ⟨k, hk.trans_le hrow⟩ := ofFn_getD (p.rows 0) ⟨k, hk.trans_le hrow⟩
    _ = (tunRead p.stale p.data).getD k 0 := (congrFun hdata _).trans hfirst
    _ = p.data.getD k 0 := List.getD_append _ _ _ _ (hk.trans_le hlen)

/-- A datagram whose payload begins a packet: the whole packet, or its first row. -/
def BeginsPacket (d : Datagram) : Prop := ∀ i, d.part = some i → i.val = 0

/-- Its payload begins as the packet does. -/
theorem received_head (hbegins : BeginsPacket d) (hlen : 20 ≤ (S d.num).data.length) :
    Agree (0 : u8) 20 (S.received d old).payload (S d.num).data := by
  have hbody : Agree (0 : u8) 20 (S.body d) (S d.num).data ∧ 20 ≤ (S.body d).length := by
    unfold Stream.body
    cases hpart : d.part with
    | none => exact ⟨fun _ _ => rfl, hlen⟩
    | some i =>
        have hzero : i = 0 := Fin.ext (hbegins i hpart)
        subst hzero
        refine ⟨rows_head (S d.num) hlen, ?_⟩
        rw [List.length_ofFn]
        decide
  have hfits : 20 ≤ min (S.body d).length (bufferSize - pktOffset) :=
    le_min hbody.2 (by decide)
  exact ((received_body S d old).mono hfits).trans hbody.1

end Payload

namespace Ustun

/-! ### The server and its clients -/

/-- A datagram of a client arrives, or `main` looks a packet up or cleans the table. -/
inductive ClientsEvent (κ : Type) where
  | receive (client : κ) (a : Arrival)
  | find (ipPacket : List u8) (ts : Int)
  | cleanup (now : Int) (expire : Bool)

variable {κ : Type} (S : κ → Stream)

/-- One step of the server with several clients. -/
def clientsStep (sv : Server) : ClientsEvent κ → Except Fault (Server × Option TunWrite)
  | .receive client a => streamStep (S client) sv a
  | .find ipPacket ts =>
      .ok ({ sv with conns := (findGatewayForPacket sv.conns ts ipPacket).1 }, none)
  | .cleanup now expire =>
      .ok ({ sv with conns := cleanupExpiredConnections sv.conns now expire }, none)

/-- The server, with any datagrams of its clients in any order. -/
abbrev clientsMachine : Step Server (ClientsEvent κ) (Option TunWrite) := ofExcept (clientsStep S)

/-- The call that an event makes on the connection table. -/
def ClientsEvent.connOp : ClientsEvent κ → ConnOp
  | .receive client a =>
      .update (a.rx (S client)).gateway (((S client).received a.dg a.old).payload) a.clock.conn
        a.allocConn
  | .find ipPacket ts => .find ipPacket ts
  | .cleanup now expire => .cleanup now expire

theorem start_conns (glFec : Bool) (udpSock : Fin udpWorker → Int) (ts : Int) :
    (start glFec udpSock ts).conns = [] := by
  unfold start initDedupState
  split <;> rfl

section Step

variable {S} {sv sv' : Server} {e : ClientsEvent κ} {out : Option TunWrite}

/-- An event does that call, and nothing else, to the table. -/
theorem clientsStep_conns (hstep : clientsMachine S sv e out sv') :
    ∃ found, connMachine sv.conns (e.connOp S) found sv'.conns := by
  cases e with
  | receive client a =>
      obtain ⟨st', -, rfl⟩ := streamStep_iff.1 hstep
      exact ⟨none, congrArg (·, none) (learn_conns sv (a.rx (S client))).symm⟩
  | find ipPacket ts =>
      cases hstep
      exact ⟨some _, rfl⟩
  | cleanup now expire =>
      cases hstep
      exact ⟨none, rfl⟩

end Step

/-! ### What entries come from -/

/-- Some datagram of the history belongs to a version 4 packet with these addresses. -/
def SentKey (t : List (ClientsEvent κ × Option TunWrite)) (key : ConnKey) : Prop :=
  ∃ client a out, (ClientsEvent.receive client a, out) ∈ t ∧
    ipVersion (S client a.dg.num).data = 4 ∧ connHashCal (S client a.dg.num).data = key

/-- What was sent stays sent in a longer run. -/
theorem SentKey.append {t t' : List (ClientsEvent κ × Option TunWrite)} {key : ConnKey}
    (h : SentKey S t key) : SentKey S (t ++ t') key := by
  obtain ⟨client, a, out, hmem, hsent⟩ := h
  exact ⟨client, a, out, List.mem_append_left t' hmem, hsent⟩

/-- A datagram begins a packet, or it makes no entry: it does not read as version 4, its sum is in
the table already, or there is no memory. -/
def LearnsHeader (sv : Server) : ClientsEvent κ → Prop
  | .receive client a =>
      let body := (S client).body a.dg
      BeginsPacket a.dg ∨ ipVersion body ≠ 4 ∨
        (∃ entry ∈ sv.conns, entry.hit (connHashCal body).hashVal = true) ∨ a.allocConn = false
  | _ => True

section Origin

variable {S} {sv sv' : Server} {client : κ} {a : Arrival} {out : Option TunWrite}

/-- A datagram that is not the beginning of a packet is a row, and is read as that. -/
theorem received_row {S : Stream} {d : Datagram} {old : List u8} (h : ¬ BeginsPacket d) :
    Agree (0 : u8) 20 (S.received d old).payload (S.body d) := by
  cases hpart : d.part with
  | none =>
      refine absurd (fun i hi => ?_) h
      rw [hpart] at hi
      cases hi
  | some i =>
      apply (received_body S d old).mono
      have hlen : (S.body d).length = fecRsT := by
        unfold Stream.body
        rw [hpart, List.length_ofFn]
      rw [hlen]
      decide

/-- A new entry has the addresses of the packet that the datagram belongs to. -/
theorem receive_origin (hheader : ∀ k n, 20 ≤ (S k n).data.length)
    (hlearns : LearnsHeader S sv (.receive client a))
    (hstep : clientsMachine S sv (.receive client a) out sv') {entry : ConnEntry}
    (hmem : entry ∈ sv'.conns) :
    (∃ old ∈ sv.conns, entry.key = old.key) ∨
      ipVersion (S client a.dg.num).data = 4 ∧
        connHashCal (S client a.dg.num).data = entry.key := by
  obtain ⟨found, hconns⟩ := clientsStep_conns hstep
  rcases connStep_entries hconns hmem with
    ⟨old, hold, hkey, -⟩ | ⟨ipPacket, ts, hop, hv4, hkey, hnew⟩
  · exact .inl ⟨old, hold, hkey⟩
  · obtain ⟨-, hpayload, -, halloc⟩ := ConnOp.update.inj hop
    subst hpayload
    by_cases hbegins : BeginsPacket a.dg
    · have hhead := received_head (S client) a.dg a.old hbegins (hheader client a.dg.num)
      have hversion : ipVersion ((S client).received a.dg a.old).payload =
          ipVersion (S client a.dg.num).data := ipVersion_reads _ _ (hhead.mono (by decide))
      exact .inr ⟨hversion ▸ hv4, (connHashCal_reads _ _ hhead).symm.trans hkey⟩
    · -- the bytes of a row that would be learnt
      have hrow : Agree (0 : u8) 20 ((S client).received a.dg a.old).payload
          ((S client).body a.dg) := received_row hbegins
      have hversion : ipVersion ((S client).received a.dg a.old).payload =
          ipVersion ((S client).body a.dg) := ipVersion_reads _ _ (hrow.mono (by decide))
      rcases hlearns with h | h | ⟨old, hold, hhit⟩ | h
      · exact absurd h hbegins
      · exact absurd (hversion ▸ hv4) h
      · rw [← connHashCal_reads _ _ hrow] at hhit
        exact absurd hhit (touchFirst_eq_none.1 hnew old hold)
      · rw [h] at halloc
        cases halloc

end Origin

/-- In every run in which no other row makes an entry, every entry has the addresses of a packet
that was sent. -/
theorem conn_entries_are_sent (hheader : ∀ k n, 20 ≤ (S k n).data.length) (glFec : Bool)
    (udpSock : Fin udpWorker → Int) (ts : Int) (t : List (ClientsEvent κ × Option TunWrite))
    (sv : Server) (hrun : Run (clientsMachine S) (start glFec udpSock ts) t sv)
    (hlearns : Always (clientsMachine S) (start glFec udpSock ts) (t.map Prod.fst)
      (LearnsHeader S)) :
    ∀ entry ∈ sv.conns, SentKey S t entry.key := by
  apply Run.historyInvariant (fun t sv => ∀ entry ∈ sv.conns, SentKey S t entry.key) hrun
  · rw [start_conns]
    exact fun _ hmem => absurd hmem List.not_mem_nil
  · intro pre e post q q' ht hpre ih hstep entry hmem
    have hcond : LearnsHeader S q e.1 := by
      apply hlearns (pre.map Prod.fst) e.1 (post.map Prod.fst) pre q ?_ rfl hpre
      rw [ht, List.map_append, List.map_cons]
    have hkept : (∃ old ∈ q.conns, entry.key = old.key) → SentKey S (pre ++ [e]) entry.key := by
      rintro ⟨old, hold, hkey⟩
      rw [hkey]
      exact (ih old hold).append
    obtain ⟨event, out⟩ := e
    cases event with
    | receive client a =>
        rcases receive_origin hheader hcond hstep hmem with hold | hsent
        · exact hkept hold
        · exact ⟨client, a, out, List.mem_append_right pre List.mem_cons_self, hsent⟩
    | find | cleanup =>
        obtain ⟨found, hconns⟩ := clientsStep_conns hstep
        rcases connStep_entries hconns hmem with ⟨old, hold, hkey, -⟩ | ⟨_, _, hop, -⟩
        · exact hkept ⟨old, hold, hkey⟩
        · cases hop

/-! ### One FEC packet -/

/-- A client that sends one packet over and over, with FEC. -/
def repeated (data : List u8) (hdata : data.length ≤ bufferSize) : Stream := fun _ =>
  { fec := true, data := data, stale := zeroPayload, spare := PkgHeader.zero
    data_le := hdata, stale_length := length_zeroPayload }

/-- Shard `i` of its first packet, at the server. -/
def shardArrival (i : Fin shardCount) : Arrival :=
  { dg := { num := 0, part := some i, gw := 1, apn := 1 }, worker := 0
    clock := { init := 4, gateway := 4, conn := 4, recv := 4 }
    allocGateway := true, allocConn := true, addr := { addr := 1, port := 1 }, old := [] }

def shardEvent (i : Fin shardCount) : ClientsEvent Unit := .receive () (shardArrival i)

/-- The server, with both sockets open. -/
abbrev openServer : Server := start true (fun _ => 3) 4

/-- A packet from 10.0.0.1 to 10.0.0.4, and zeros behind the header but for byte 750. -/
def middlePacket (c : u8) : List u8 :=
  flowPacket 1 4 ++ List.replicate 730 0 ++ c :: List.replicate 450 0

theorem middlePacket_length (c : u8) : (middlePacket c).length = 1201 := by
  simp only [middlePacket, flowPacket, List.length_append, List.length_cons, List.length_nil,
    List.length_replicate]

def middleStream (c : u8) : Unit → Stream := fun _ =>
  repeated (middlePacket c) (by rw [middlePacket_length]; decide)

/-- Row 1 begins with byte 750. -/
theorem middle_row (c : u8) :
    Agree (0 : u8) 20 (List.ofFn ((middleStream c () 0).rows 1)) (c :: List.replicate 450 0) := by
  intro k hk
  have hrow : 20 ≤ fecRsT := by decide
  have hfront : (flowPacket 1 4 ++ List.replicate 730 0).length =
      fecRsT * (1 : Fin shardCount) := by
    rw [List.length_append, List.length_replicate]
    rfl
  have hdata : (middleStream c () 0).rows 1 = fecBuf (tunRead zeroPayload (middlePacket c)) 1 :=
    codewordRows_data _ (by decide)
  have hlen : k < (c :: List.replicate 450 (0 : u8)).length := by
    rw [List.length_cons, List.length_replicate]
    omega
  calc (List.ofFn ((middleStream c () 0).rows 1)).getD k 0
      = (middleStream c () 0).rows 1 ⟨k, hk.trans_le hrow⟩ := ofFn_getD _ ⟨k, hk.trans_le hrow⟩
    _ = (tunRead zeroPayload (middlePacket c)).getD (fecRsT * (1 : Fin shardCount) + k) 0 :=
        congrFun hdata _
    _ = (c :: List.replicate 450 0).getD k 0 := by
        rw [tunRead, middlePacket, List.append_assoc, List.getD_append_right _ _ _ _
          (by rw [hfront]; exact Nat.le_add_right _ _), hfront, Nat.add_sub_cancel_left,
          List.getD_append _ _ _ _ hlen]

/-- Every list of these shards has a run. -/
theorem shardEvents_run (c : u8) (is : List (Fin shardCount)) :
    ∃ t sv, t.map Prod.fst = is.map shardEvent ∧
      Run (clientsMachine (middleStream c)) openServer t sv := by
  apply exists_run (fun _ => True) (is.map shardEvent) trivial
  intro e he q _
  obtain ⟨i, -, rfl⟩ := List.mem_map.1 he
  obtain ⟨q', out, hstep⟩ := streamStep_ok (middleStream c ()) q _
  exact ⟨q', out, hstep, trivial⟩

/-- Row 1 of a packet with a zero there comes first. -/
theorem conn_entries_are_sent_shards :
    ∃ t sv, t.map Prod.fst = [shardEvent 1, shardEvent 0] ∧
      Run (clientsMachine (middleStream 0)) openServer t sv ∧
      ∀ entry ∈ sv.conns, SentKey (middleStream 0) t entry.key := by
  obtain ⟨t, sv, ht, hrun⟩ := shardEvents_run 0 [1, 0]
  refine ⟨t, sv, ht, hrun,
    conn_entries_are_sent (middleStream 0) ?_ true (fun _ => 3) 4 t sv hrun ?_⟩
  · intro _ _
    change 20 ≤ (middlePacket 0).length
    rw [middlePacket_length]
    decide
  · rw [ht]
    apply Always.of_mem
    intro e he q
    rcases List.mem_pair.1 he with rfl | rfl
    · have hversion : ipVersion ((middleStream 0 ()).body (shardArrival 1).dg) =
          ipVersion (0 :: List.replicate 450 0) :=
        ipVersion_reads _ _ ((middle_row 0).mono (by decide))
      refine .inr (.inl ?_)
      rw [hversion]
      decide
    · exact .inl fun i hi => by cases hi; rfl

/-- Row 1 of a packet with `0x45` there makes an entry for two addresses that are in no packet. -/
theorem conn_entry_of_middle :
    ¬ ∀ t sv, Run (clientsMachine (middleStream 0x45)) openServer t sv →
      ∀ entry ∈ sv.conns, SentKey (middleStream 0x45) t entry.key := by
  intro h
  obtain ⟨t, sv, ht, hrun⟩ := shardEvents_run 0x45 [1]
  obtain ⟨out, rfl⟩ := map_fst_eq_singleton ht
  obtain ⟨sv', hstep, hend⟩ := hrun.cons_inv
  cases hend
  obtain ⟨st', -, rfl⟩ := streamStep_iff.1 hstep
  have hrow : Agree (0 : u8) 20 ((middleStream 0x45 ()).received (shardArrival 1).dg []).payload
      (0x45 :: List.replicate 450 0) :=
    (received_row fun h => absurd (h 1 rfl) (by decide)).trans (middle_row 0x45)
  have hv4 : ipVersion ((middleStream 0x45 ()).received (shardArrival 1).dg []).payload = 4 := by
    rw [ipVersion_reads _ _ (hrow.mono (by decide))]
    decide
  have hkey : connHashCal ((middleStream 0x45 ()).received (shardArrival 1).dg []).payload =
      { srcIp := 0, dstIp := 0, hashVal := 0 } := by
    rw [connHashCal_reads _ _ hrow]
    decide
  let rx := (shardArrival 1).rx (middleStream 0x45 ())
  have hconns : (openServer.learn rx).conns =
      [{ key := connHashCal rx.pkg.payload, gatewayId := rx.gateway, lastUsed := 4 }] := by
    have hempty : openServer.conns = [] := start_conns true (fun _ => 3) 4
    rw [learn_conns, hempty]
    exact updateConnTable_first hv4 4 rx.gateway
  have hentry : { key := connHashCal rx.pkg.payload, gatewayId := rx.gateway, lastUsed := 4 } ∈
      (openServer.learn rx).conns := by
    rw [hconns]
    exact List.mem_singleton_self _
  have hall := h _ _ hrun
  dsimp only at hall
  obtain ⟨client, a, out', -, -, hsent⟩ := hall _ hentry
  have hmiddle : connHashCal (middlePacket 0x45) = { srcIp := 0, dstIp := 0, hashVal := 0 } :=
    hsent.trans hkey
  exact absurd hmiddle (by decide)

end Ustun

end ConfigEnv.TunVpn
