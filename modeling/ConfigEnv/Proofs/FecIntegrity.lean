/-
Module: ConfigEnv.Proofs.FecIntegrity
Layer: Proofs
Purpose: What the receivers write out of a FEC slot. From the first shard of a packet on its slot
  holds rows of this packet only, if that shard found the slot with another number or finished: then
  every write equals the packet. The argument is the same for both programs; the server may in
  addition set the numbers of all the slots to the filling number between two shards.
Trusted boundary: none
Main exports: FecSlot.Open, FecSlot.Serves, deliver_serves, fec_writes_are_packets
Open obligations: none
-/
import ConfigEnv.Proofs.Delivery
import ConfigEnv.Proofs.FecPath

namespace ConfigEnv.TunVpn

open Machine

/-! ### A slot while it serves a packet -/

/-- The slot takes a new number as a new packet, or takes nothing. -/
def FecSlot.Open (slot : FecSlot) (seq : u16) : Prop := slot.seq ≠ seq ∨ fecRsK ≤ slot.cnt.toNat

/-- The slot has the number of the packet, or was filled over. With the number it is finished or
collects the packet. -/
structure FecSlot.Serves (slot : FecSlot) (seq : u16) (p : Packet) : Prop where
  seq_or : slot.seq = seq ∨ slot.seq = fecSeqFill
  state : slot.seq = seq → fecRsK ≤ slot.cnt.toNat ∨ slot.Collects seq p.plen p.rows

namespace FecSlot.Serves

variable {slot : FecSlot} {seq : u16} {p : Packet}

/-- A slot that serves the packet takes another of its shards in one of the three ways of
`shard_step`. -/
theorem cases (h : slot.Serves seq p) :
    slot.seq ≠ seq ∨ fecRsK ≤ slot.cnt.toNat ∨ slot.Collects seq p.plen p.rows := by
  by_cases hseq : slot.seq = seq
  · exact .inr (h.state hseq)
  · exact .inl hseq

/-- Filling the number over keeps the account. -/
theorem fill (h : slot.Serves seq p) : { slot with seq := fecSeqFill }.Serves seq p := by
  constructor
  · exact .inr rfl
  · intro hfill
    -- the number is the filling number itself, so the slot did not change
    have hseq : slot.seq = seq := by
      rcases h.seq_or with hseq | hseq
      · exact hseq
      · exact hseq.trans hfill
    have hsame : { slot with seq := fecSeqFill } = slot := by
      have heq : fecSeqFill = slot.seq := hfill.trans hseq.symm
      rw [heq]
    rw [hsame]
    exact h.state hseq

end FecSlot.Serves

/-! ### One datagram -/

section Deliver

variable {S : Stream} {st st' : RecvState} {worker : Fin udpWorker} {ts : Int} {d : Datagram}
  {old : List u8} {plen : Nat} {out : Option TunWrite}

/-- A shard at a slot that is open, or serves its packet: the slot serves the packet afterwards, and
what is written is the packet. -/
theorem deliver_serves {i : Fin shardCount} (hpart : d.part = some i)
    (hslot : (st.fec (slotIdx (seqOf d.num))).Open (seqOf d.num) ∨
      (st.fec (slotIdx (seqOf d.num))).Serves (seqOf d.num) (S d.num))
    (hstep : deliver st worker ts (S.received d old) plen = .ok (st', out)) :
    (st'.fec (slotIdx (seqOf d.num))).Serves (seqOf d.num) (S d.num) ∧
      ∀ w, out = some w → w.bytes = (S d.num).data := by
  obtain ⟨r, hr, rfl, rfl⟩ := (deliver_shard S hpart).1 hstep
  have hcases : (st.fec (slotIdx (seqOf d.num))).seq ≠ seqOf d.num ∨
      fecRsK ≤ (st.fec (slotIdx (seqOf d.num))).cnt.toNat ∨
      (st.fec (slotIdx (seqOf d.num))).Collects (seqOf d.num) (S d.num).plen (S d.num).rows := by
    rcases hslot with (hseq | hcnt) | hserves
    · exact .inl hseq
    · exact .inr (.inl hcnt)
    · exact hserves.cases
  obtain ⟨r', hr', hseq, hstate, hdone⟩ := shard_step (codewordRows_codeword _) hcases
    (received_isShard S d old hpart) ts (st.codec worker)
  rw [hr] at hr'
  cases hr'
  constructor
  · rw [afterShard_same]
    exact ⟨.inl hseq, fun _ => hstate⟩
  · intro w hw
    obtain ⟨hd, rfl⟩ := FecRecv.write_eq_some.1 hw
    exact complete_bytes (hdone hd)

/-- Datagrams that share the remainder of a packet only when they are of it keep its slot serving
it. -/
theorem deliver_keeps_serving {n : Nat} (hsame : d.num % seqMapSize = n % seqMapSize → d.num = n)
    (hserves : (st.fec (slotIdx (seqOf n))).Serves (seqOf n) (S n))
    (hstep : deliver st worker ts (S.received d old) plen = .ok (st', out)) :
    (st'.fec (slotIdx (seqOf n))).Serves (seqOf n) (S n) := by
  by_cases hmod : d.num % seqMapSize = n % seqMapSize
  · obtain rfl := hsame hmod
    cases hpart : d.part with
    | none =>
        rw [deliver_whole S hpart] at hstep
        cases hstep
        exact hserves
    | some i => exact (deliver_serves hpart (.inr hserves) hstep).1
  · rw [deliver_fec_other S hmod hstep]
    exact hserves

end Deliver

/-! ### Runs -/

/-- A receiver loop on the datagrams of a sender, as far as its slots go: the slots it has between
two arrivals, and those that a datagram finds, which may have been filled over. -/
structure SlotReceiver (S : Stream) (σ α : Type) where
  step : Step σ α (Option TunWrite)
  dg : α → Datagram
  honest : α → Prop
  slots : σ → Fin seqMapSize → FecSlot
  found : σ → α → Fin seqMapSize → FecSlot
  filled : ∀ q a, found q a = slots q ∨ found q a = fun i => { slots q i with seq := fecSeqFill }
  delivers : ∀ {q a out q'}, honest a → step q a out q' →
    ∃ st st' worker ts old plen, st.fec = found q a ∧ slots q' = st'.fec ∧
      deliver st worker ts (S.received (dg a) old) plen = .ok (st', out)

namespace SlotReceiver

variable {S : Stream} {σ α : Type} (M : SlotReceiver S σ α)

/-- Meeting an arrival leaves a slot serving its number. -/
theorem found_serves {q : σ} {n : Nat} (a : α)
    (h : (M.slots q (slotIdx (seqOf n))).Serves (seqOf n) (S n)) :
    (M.found q a (slotIdx (seqOf n))).Serves (seqOf n) (S n) := by
  rcases M.filled q a with hfound | hfound
  · rw [hfound]
    exact h
  · rw [hfound]
    exact h.fill

/-- A shard that finds its slot open, or serving its packet, leaves the slot serving it, and what is
written is the packet. -/
theorem step_serves {q q' : σ} {a : α} {out : Option TunWrite} {i : Fin shardCount}
    (ha : M.honest a) (hpart : (M.dg a).part = some i) (hstep : M.step q a out q')
    (hslot : (M.found q a (slotIdx (seqOf (M.dg a).num))).Open (seqOf (M.dg a).num) ∨
      (M.slots q (slotIdx (seqOf (M.dg a).num))).Serves (seqOf (M.dg a).num) (S (M.dg a).num)) :
    (M.slots q' (slotIdx (seqOf (M.dg a).num))).Serves (seqOf (M.dg a).num) (S (M.dg a).num) ∧
      ∀ w, out = some w → w.bytes = (S (M.dg a).num).data := by
  obtain ⟨st, st', worker, ts, old, plen, hfound, hslots, hdeliver⟩ := M.delivers ha hstep
  rw [hslots]
  apply deliver_serves hpart ?_ hdeliver
  rw [hfound]
  cases hslot with
  | inl hopen => exact .inl hopen
  | inr hserves => exact .inr (M.found_serves a hserves)

/-- A run keeps a slot serving its packet. -/
theorem run_serves {q q' : σ} {mid : List (α × Option TunWrite)} {n : Nat}
    (hmid : Run M.step q mid q') (hhonest : ∀ e ∈ mid, M.honest e.1)
    (hsame : ∀ e ∈ mid, (M.dg e.1).num % seqMapSize = n % seqMapSize → (M.dg e.1).num = n)
    (h : (M.slots q (slotIdx (seqOf n))).Serves (seqOf n) (S n)) :
    (M.slots q' (slotIdx (seqOf n))).Serves (seqOf n) (S n) := by
  apply hmid.invariant (fun q => (M.slots q (slotIdx (seqOf n))).Serves (seqOf n) (S n)) h
  intro e he q q' hq hstep
  obtain ⟨st, st', worker, ts, old, plen, hfound, hslots, hdeliver⟩ :=
    M.delivers (hhonest e he) hstep
  have hserves := M.found_serves e.1 hq
  rw [← hfound] at hserves
  rw [hslots]
  exact deliver_keeps_serving (hsame e he) hserves hdeliver

/-- The first shard of every packet finds the slot of its number open. -/
def FindsOpen (s : σ) (t : List (α × Option TunWrite)) : Prop :=
  ∀ pre e post q, t = pre ++ e :: post → Run M.step s pre q → (M.dg e.1).part.isSome = true →
    (∀ e' ∈ pre, (M.dg e'.1).num ≠ (M.dg e.1).num) →
    (M.found q e.1 (slotIdx (seqOf (M.dg e.1).num))).Open (seqOf (M.dg e.1).num)

/-- Then every write for a shard is the packet of the shard. -/
theorem write_eq_packet {s st : σ} {t : List (α × Option TunWrite)} (hrun : Run M.step s t st)
    (hhonest : ∀ e ∈ t, M.honest e.1 ∧ (M.dg e.1).Honest S)
    (hwindow : Window.Displaced seqMapSize (t.map fun e => (M.dg e.1).num))
    (hopen : M.FindsOpen s t) {y : α} {w : TunWrite} (hy : (y, some w) ∈ t)
    (hpart : (M.dg y).part.isSome = true) : w.bytes = (S (M.dg y).num).data := by
  obtain ⟨before, post, ht⟩ := List.append_of_mem hy
  obtain ⟨j, hj⟩ := Option.isSome_iff_exists.1 hpart
  by_cases hseen : ∃ e ∈ before, (M.dg e.1).num = (M.dg y).num
  · -- a shard of the packet came before, and the slot has served it since the first
    obtain ⟨z, hz, hznum⟩ := hseen
    obtain ⟨pre, x, mid, rfl, hxnum, hfirst⟩ :=
      Window.exists_first (p := fun e : α × Option TunWrite => (M.dg e.1).num = (M.dg y).num) hz
        hznum
    rw [List.append_assoc, List.cons_append] at ht
    subst ht
    obtain ⟨s1, s2, hpre, hstepx, hrest⟩ := hrun.middle
    obtain ⟨s3, s4, hmid, hstepy, -⟩ := hrest.middle
    obtain ⟨hhx, hdx⟩ := hhonest x (by simp)
    obtain ⟨hhy, hdy⟩ := hhonest (y, some w) (by simp)
    have hpartx : (M.dg x.1).part.isSome = true := by
      rw [hdx, hxnum, ← hdy]
      exact hpart
    obtain ⟨i, hi⟩ := Option.isSome_iff_exists.1 hpartx
    have hslot := hopen pre x (mid ++ (y, some w) :: post) s1 rfl hpre hpartx (hxnum.symm ▸ hfirst)
    have hfirstServes := (M.step_serves hhx hi hstepx (.inl hslot)).1
    have hserves := M.run_serves hmid (fun e he => (hhonest e (by simp [he])).1)
      (fun e he hmod => hwindow.between (f := fun e : α × Option TunWrite => (M.dg e.1).num)
        hxnum he hmod) hfirstServes
    rw [hxnum] at hserves
    exact (M.step_serves hhy hj hstepy (.inr hserves)).2 w rfl
  · -- the write comes with the first shard
    subst ht
    obtain ⟨s1, s2, hpre, hstepy, -⟩ := hrun.middle
    obtain ⟨hhy, -⟩ := hhonest (y, some w) (by simp)
    have hfirst : ∀ e ∈ before, (M.dg e.1).num ≠ (M.dg y).num :=
      fun e he hnum => hseen ⟨e, he, hnum⟩
    have hslot := hopen before (y, some w) post s1 rfl hpre hpart hfirst
    exact (M.step_serves hhy hj hstepy (.inl hslot)).2 w rfl

end SlotReceiver

/-! ### The two receivers -/

/-- The receivers of the client. -/
def Uctun.slotReceiver (S : Stream) : SlotReceiver S RecvState Arrival where
  step := streamMachine S
  dg := Arrival.dg
  honest a := a.Honest S
  slots := RecvState.fec
  found st _ := st.fec
  filled _ _ := .inl rfl
  delivers := by
    intro q a out q' ha hstep
    exact ⟨q, q', a.worker, a.ts, a.old, _, rfl, rfl, (streamStep_eq ha q).symm.trans hstep⟩

/-- The receivers of the server, which learn the sender before the shard is handled. -/
def Ustun.slotReceiver (S : Stream) : SlotReceiver S Server Arrival where
  step := streamMachine S
  dg := Arrival.dg
  honest _ := True
  slots sv := sv.recv.fec
  found sv a := (sv.atDelivery S a).fec
  filled sv a := atDelivery_fec S sv a
  delivers := by
    intro sv a out sv' _ hstep
    obtain ⟨st', hdeliver, rfl⟩ := streamStep_iff.1 hstep
    exact ⟨sv.atDelivery S a, st', a.worker, a.clock.recv, a.old, _, rfl, rfl, hdeliver⟩

/-- Both receivers, on the datagrams of one honest sender: whatever is written out of a FEC slot is
the payload of one packet that was sent, when every packet finds its slot open. -/
theorem fec_writes_are_packets (S : Stream) :
    (∀ ts t st, Run (Uctun.streamMachine S) (Uctun.start ts) t st →
      (∀ e ∈ t, e.1.Honest S) → Window.Displaced seqMapSize (t.map fun e => e.1.dg.num) →
      (Uctun.slotReceiver S).FindsOpen (Uctun.start ts) t →
      ∀ a w, (a, some w) ∈ t → a.dg.part.isSome = true → w.bytes = (S a.dg.num).data) ∧
    (∀ glFec udpSock ts t sv, Run (Ustun.streamMachine S) (Ustun.start glFec udpSock ts) t sv →
      (∀ e ∈ t, e.1.dg.Honest S) → Window.Displaced seqMapSize (t.map fun e => e.1.dg.num) →
      (Ustun.slotReceiver S).FindsOpen (Ustun.start glFec udpSock ts) t →
      ∀ a w, (a, some w) ∈ t → a.dg.part.isSome = true → w.bytes = (S a.dg.num).data) := by
  constructor
  · intro ts t st hrun hhonest hwindow hopen a w ha hpart
    exact (Uctun.slotReceiver S).write_eq_packet hrun (fun e he => ⟨hhonest e he, (hhonest e he).1⟩)
      hwindow hopen ha hpart
  · intro glFec udpSock ts t sv hrun hhonest hwindow hopen a w ha hpart
    exact (Ustun.slotReceiver S).write_eq_packet hrun (fun e he => ⟨trivial, hhonest e he⟩)
      hwindow hopen ha hpart

/-! ### Two shards of one packet -/

/-- A stream that sends `zeroPacket` with FEC again and again. -/
def zeroStream : Stream := fun _ =>
  { fec := true, data := zeroPacket, stale := zeroPayload, spare := PkgHeader.zero
    data_le := zeroPacket_length_le
    stale_length := length_zeroPayload }

def zeroShard (n : Nat) (i : Fin shardCount) : Datagram :=
  { num := n, part := some i, gw := gatewayId, apn := 1 }

theorem zeroShard_honest (n : Nat) (i : Fin shardCount) : (zeroShard n i).Honest zeroStream := rfl

/-- Shard `i` of packet `n` at the client, and at the server. -/
def Uctun.zeroArrival (n : Nat) (i : Fin shardCount) : Arrival :=
  { dg := zeroShard n i, worker := 0, ts := 0, old := [] }

def Ustun.zeroArrival (n : Nat) (i : Fin shardCount) : Arrival :=
  { dg := zeroShard n i, worker := 0, clock := { init := 4, gateway := 4, conn := 4, recv := 4 }
    allocGateway := true, allocConn := true, addr := { addr := 0, port := 0 }, old := [] }

theorem Uctun.zeroArrival_honest (n : Nat) (i : Fin shardCount) :
    (Uctun.zeroArrival n i).Honest zeroStream := ⟨zeroShard_honest n i, rfl⟩

/-- With two shards of one packet, only the first has to find the slot open. -/
theorem SlotReceiver.findsOpen_pair {S : Stream} {σ α : Type} (M : SlotReceiver S σ α) {s : σ}
    {a b : α} {oa ob : Option TunWrite} (hnum : (M.dg a).num = (M.dg b).num)
    (hopen : (M.found s a (slotIdx (seqOf (M.dg a).num))).Open (seqOf (M.dg a).num)) :
    M.FindsOpen s [(a, oa), (b, ob)] := by
  intro pre e post q hsplit hpre _ hfirst
  match pre with
  | [] =>
      obtain ⟨rfl, -⟩ := List.cons.inj hsplit
      rw [hpre.nil_inv]
      exact hopen
  | [e'] =>
      cases hsplit
      exact absurd hnum (hfirst (a, oa) List.mem_cons_self)
  | e1 :: e2 :: pre => simp at hsplit

/-- The parity shard of packet 0 and then a data shard, at each of the two receivers. -/
theorem fec_writes_are_packets_pair :
    (∃ t st w, t.map Prod.fst = [Uctun.zeroArrival 0 2, Uctun.zeroArrival 0 1] ∧
      Run (Uctun.streamMachine zeroStream) (Uctun.start 0) t st ∧
      (Uctun.zeroArrival 0 1, some w) ∈ t ∧ w.bytes = zeroPacket) ∧
    (∃ t sv, t.map Prod.fst = [Ustun.zeroArrival 0 2, Ustun.zeroArrival 0 1] ∧
      Run (Ustun.streamMachine zeroStream) (Ustun.start true (fun _ => 3) 4) t sv ∧
      ∀ a w, (a, some w) ∈ t → w.bytes = zeroPacket) := by
  constructor
  · obtain ⟨t, st, ht, hrun⟩ := Uctun.exists_stream_run (S := zeroStream)
      [Uctun.zeroArrival 0 2, Uctun.zeroArrival 0 1] (by simp [Uctun.zeroArrival_honest])
      (Uctun.start 0)
    obtain ⟨o0, t1, rfl, ht1⟩ := map_fst_eq_cons ht
    obtain ⟨o1, rfl⟩ := map_fst_eq_singleton ht1
    obtain ⟨s1, hstep0, hrest⟩ := hrun.cons_inv
    obtain ⟨s2, hstep1, -⟩ := hrest.cons_inv
    have hfresh : (Uctun.zeroArrival 0 2).FreshAt (Uctun.start 0) := by
      intro hheld
      exact absurd hheld (by decide)
    have hone := Uctun.holdsOne_of_fresh (Uctun.zeroArrival_honest 0 2) rfl hfresh hstep0
    obtain ⟨w, hw, -⟩ := Uctun.write_of_second (Uctun.zeroArrival_honest 0 1) rfl (by decide) hone
      hstep1
    have hmem : (Uctun.zeroArrival 0 1, some w) ∈
        [(Uctun.zeroArrival 0 2, o0), (Uctun.zeroArrival 0 1, o1)] := by
      rw [← show o1 = some w from hw]
      simp
    refine ⟨_, st, w, ht, hrun, hmem, ?_⟩
    apply (fec_writes_are_packets zeroStream).1 0 _ st hrun ?_ ?_ ?_ _ w hmem rfl
    · simp [Uctun.zeroArrival_honest]
    · simp [Window.Displaced, Uctun.zeroArrival, zeroShard]
    · exact (Uctun.slotReceiver zeroStream).findsOpen_pair rfl (.inl (by decide))
  · obtain ⟨t, sv, ht, hrun⟩ := Ustun.exists_stream_run zeroStream
      [Ustun.zeroArrival 0 2, Ustun.zeroArrival 0 1] (Ustun.start true (fun _ => 3) 4)
    obtain ⟨o0, t1, rfl, ht1⟩ := map_fst_eq_cons ht
    obtain ⟨o1, rfl⟩ := map_fst_eq_singleton ht1
    refine ⟨_, sv, ht, hrun, ?_⟩
    intro a w hmem
    have hpart : a.dg.part.isSome = true := by
      simp only [List.mem_cons, List.not_mem_nil, or_false, Prod.mk.injEq] at hmem
      rcases hmem with ⟨rfl, -⟩ | ⟨rfl, -⟩ <;> rfl
    apply (fec_writes_are_packets zeroStream).2 true (fun _ => 3) 4 _ sv hrun ?_ ?_ ?_ a w hmem
      hpart
    · simp [Ustun.zeroArrival, zeroShard_honest]
    · simp [Window.Displaced, Ustun.zeroArrival, zeroShard]
    · exact (Ustun.slotReceiver zeroStream).findsOpen_pair rfl (.inl (by decide))

/-! ### A slot that is not reset -/

/-- A slot that has the number without having been claimed for it, with no row marked as missing:
the second shard decodes whatever is there, under the length that is there. -/
theorem unclaimed_slot_decodes {slot : FecSlot} {seq : u16} {pkg pkg' : TunPkg} {ts ts' : Int}
    {codec codec' : FecCodec} {r r' : FecRecv} (hseq : slot.seq = seq) (hcnt : slot.cnt = 0#8)
    (hmarks : ∀ i, slot.marks i = 0#8) (hidx : pkg.hdr.fecIdx.toNat < shardCount)
    (hidx' : pkg'.hdr.fecIdx.toNat < shardCount)
    (hr : fecRecvDone slot ts seq pkg codec = .ok r)
    (hr' : fecRecvDone r.slot ts' seq pkg' codec' = .ok r') :
    r'.done = true ∧ r'.slot.plen = slot.plen := by
  have hclaim : slot.claim seq pkg.hdr.plen = slot := FecSlot.claim_of_eq hseq
  rw [fecRecvDone_store (by rw [hclaim, hcnt]) hidx, hclaim] at hr
  cases hr
  have hclaim' : (slot.addShard ⟨_, hidx⟩ pkg.payload ts).claim seq pkg'.hdr.plen =
      slot.addShard ⟨_, hidx⟩ pkg.payload ts := FecSlot.claim_of_eq hseq
  have hcnt' : ((slot.addShard ⟨_, hidx⟩ pkg.payload ts).claim seq pkg'.hdr.plen).cnt = 1#8 := by
    rw [hclaim', FecSlot.addShard_cnt, hcnt]
    rfl
  rw [fecRecvDone_decode hcnt' hidx', hclaim'] at hr'
  cases hr'
  refine ⟨?_, rfl⟩
  have hzero : ∀ j, ((slot.addShard ⟨_, hidx⟩ pkg.payload ts).addShard ⟨_, hidx'⟩ pkg'.payload
      ts').marks j = 0#8 := by
    intro j
    simp only [FecSlot.addShard, Function.update_apply, hmarks]
    split_ifs <;> rfl
  apply FecSlot.decode_done
  intro a b ha
  exact absurd (hzero a) ha

/-- Packet 43605 carries the number that `init_dedup_state` leaves in the slots. After a start the
first two of its shards are decoded under the length zero, and nothing of the packet is written. -/
theorem fec_write_is_no_packet :
    ∃ t st a w, t.map Prod.fst = [Uctun.zeroArrival 43605 0, Uctun.zeroArrival 43605 1] ∧
      Run (Uctun.streamMachine zeroStream) (Uctun.start 0) t st ∧
      (∀ e ∈ t, e.1.Honest zeroStream) ∧
      Window.Displaced seqMapSize (t.map fun e => e.1.dg.num) ∧
      (a, some w) ∈ t ∧ a.dg.part.isSome = true ∧ ∀ n, w.bytes ≠ (zeroStream n).data := by
  obtain ⟨t, st, ht, hrun⟩ := Uctun.exists_stream_run (S := zeroStream)
    [Uctun.zeroArrival 43605 0, Uctun.zeroArrival 43605 1]
    (by simp [Uctun.zeroArrival_honest]) (Uctun.start 0)
  obtain ⟨o0, t1, rfl, ht1⟩ := map_fst_eq_cons ht
  obtain ⟨o1, rfl⟩ := map_fst_eq_singleton ht1
  obtain ⟨s1, hstep0, hrest⟩ := hrun.cons_inv
  obtain ⟨s2, hstep1, -⟩ := hrest.cons_inv
  have hpart0 : (Uctun.zeroArrival 43605 0).dg.part = some 0 := rfl
  have hpart1 : (Uctun.zeroArrival 43605 1).dg.part = some 1 := rfl
  obtain ⟨r0, hr0, rfl, -⟩ := (deliver_shard zeroStream hpart0).1
    (Uctun.step_deliver (Uctun.zeroArrival_honest 43605 0) hstep0)
  obtain ⟨r1, hr1, -, hout⟩ := (deliver_shard zeroStream hpart1).1
    (Uctun.step_deliver (Uctun.zeroArrival_honest 43605 1) hstep1)
  have hidx : ∀ i, (zeroStream.received (Uctun.zeroArrival 43605 i).dg []).hdr.fecIdx.toNat <
      shardCount := by
    intro i
    rw [(received_isShard zeroStream (Uctun.zeroArrival 43605 i).dg [] rfl).fecIdx_eq]
    exact i.isLt
  have hslot : ((Uctun.start 0).afterShard (Uctun.zeroArrival 43605 0).worker
      (seqOf (Uctun.zeroArrival 43605 0).dg.num) r0).fec
        (slotIdx (seqOf (Uctun.zeroArrival 43605 1).dg.num)) = r0.slot :=
    afterShard_same _ _ _ r0
  rw [hslot] at hr1
  obtain ⟨hdone, hplen⟩ := unclaimed_slot_decodes rfl rfl (fun _ => rfl) (hidx 0) (hidx 1) hr0 hr1
  have hplen0 : r1.slot.plen = 0#16 := hplen
  let w : TunWrite := { pbuf := fecFlat r1.slot.buf, plen := r1.slot.plen.toNat }
  have hw : o1 = some w := hout.trans (FecRecv.write_eq_some.2 ⟨hdone, rfl⟩)
  refine ⟨_, st, Uctun.zeroArrival 43605 1, w, ht, hrun, by simp [Uctun.zeroArrival_honest],
    by simp [Window.Displaced, Uctun.zeroArrival, zeroShard], ?_, rfl, ?_⟩
  · rw [hw]
    simp
  · intro n
    have hbytes : w.bytes = [] := by
      simp only [w, TunWrite.bytes, hplen0]
      rfl
    rw [hbytes]
    exact (List.cons_ne_nil _ _).symm

end ConfigEnv.TunVpn
