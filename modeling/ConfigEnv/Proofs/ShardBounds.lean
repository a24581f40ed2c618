/-
Module: ConfigEnv.Proofs.ShardBounds
Layer: Proofs
Purpose: The indices that a received shard leads to. Two of them are not checked: `fec_idx` is a
  field of three bits and there are three rows, and the decoder looks for a second zero mark that a
  repeated shard did not leave. `ShardFits` says on the slot before the call that neither happens;
  it is met exactly when every index stays in range, for one call and so for every run.
Trusted boundary: none
Main exports: FecSlot.ShardFits, ShardSafe, shardSafe_iff, ShardCall, ShardCall.HasRow, deliver_ok,
  receivers_shard_safe_iff
Open obligations: none
-/
import ConfigEnv.Proofs.Datagram
import ConfigEnv.Proofs.Receive

namespace ConfigEnv.TunVpn

/-! ### One call of `fec_recv_done` -/

/-- The call stores within the rows of the slot, and the decoder reads within the marks. -/
def ShardSafe (slot : FecSlot) (ts : Int) (seq : u16) (pkg : TunPkg) (codec : FecCodec) : Prop :=
  ∃ r, fecRecvDone slot ts seq pkg codec = .ok r ∧ ∀ j ∈ r.reads, j < shardCount

/-- A slot that takes one more shard is given an index below three, and if that makes it two for
this number then one of the other indices was the first. -/
def FecSlot.ShardFits (slot : FecSlot) (seq : u16) (idx : Nat) : Prop :=
  slot.seq ≠ seq ∨ slot.cnt.toNat < fecRsK →
    idx < shardCount ∧
      (slot.seq = seq → slot.cnt = 1#8 → ∃ j : Fin shardCount, j.val ≠ idx ∧ slot.marks j = 0#8)

/-- Two rows are there once a shard is added exactly when another one was there before. -/
theorem atMostOneLost_update_iff {marks : Fin shardCount → u8} {i : Fin shardCount} :
    AtMostOneLost (Function.update marks i 0) ↔ ∃ j, j.val ≠ i.val ∧ marks j = 0#8 := by
  constructor
  · intro h
    by_contra hnone
    have hmarked : ∀ j, j ≠ i → Function.update marks i 0 j ≠ 0#8 := by
      intro j hj hzero
      rw [Function.update_of_ne hj] at hzero
      exact hnone ⟨j, fun hv => hj (Fin.ext hv), hzero⟩
    have hne : ∀ i : Fin shardCount, i + 1 ≠ i ∧ i + 2 ≠ i ∧ i + 1 ≠ i + 2 := by decide
    obtain ⟨h1, h2, h12⟩ := hne i
    exact h12 (h _ _ (hmarked _ h1) (hmarked _ h2))
  · rintro ⟨j, hj, hzero⟩
    exact atMostOneLost_update hzero fun hij => hj (congrArg Fin.val hij.symm)

/-- The reads of the decoder are in range exactly when it can decode. -/
theorem FecSlot.decode_reads (slot : FecSlot) (codec : FecCodec) :
    (∀ j ∈ (slot.decode codec).reads, j < shardCount) ↔ AtMostOneLost slot.marks := by
  constructor
  · intro h
    by_contra hlost
    obtain ⟨-, hread⟩ := decode_fails codec slot.buf slot.marks [slot.cnt, 0] hlost
    exact absurd (h 3 hread) (by decide)
  · intro hone
    exact decode_reads_lt codec slot.buf slot.marks [slot.cnt, 0] hone

section Call

variable {slot : FecSlot} {ts : Int} {seq : u16} {pkg : TunPkg} {codec : FecCodec}

/-- A slot that takes a shard stores it under its index. -/
theorem ShardSafe.idx_lt (h : ShardSafe slot ts seq pkg codec)
    (htakes : slot.seq ≠ seq ∨ slot.cnt.toNat < fecRsK) :
    pkg.hdr.fecIdx.toNat < shardCount := by
  obtain ⟨r, hr, -⟩ := h
  exact fecRecvDone_ok_iff.1 ⟨r, hr⟩ htakes

/-- The second shard of a number is safe when the first one was another. -/
theorem shardSafe_decode (hseq : slot.seq = seq) (hcnt : slot.cnt = 1#8)
    (hidx : pkg.hdr.fecIdx.toNat < shardCount) :
    ShardSafe slot ts seq pkg codec ↔
      ∃ j : Fin shardCount, j.val ≠ pkg.hdr.fecIdx.toNat ∧ slot.marks j = 0#8 := by
  have hclaim : slot.claim seq pkg.hdr.plen = slot := FecSlot.claim_of_eq hseq
  have hcall : fecRecvDone slot ts seq pkg codec =
      .ok ((slot.addShard ⟨_, hidx⟩ pkg.payload ts).decode codec) := by
    rw [fecRecvDone_decode (by rw [hclaim, hcnt]) hidx, hclaim]
  have hdecode := FecSlot.decode_reads (slot.addShard ⟨_, hidx⟩ pkg.payload ts) codec
  apply Iff.trans ?_ (hdecode.trans (atMostOneLost_update_iff (i := ⟨_, hidx⟩)))
  constructor
  · rintro ⟨r, hr, hlt⟩
    rw [hcall] at hr
    cases hr
    exact hlt
  · intro hlt
    exact ⟨_, hcall, hlt⟩

/-- One call keeps its indices in range exactly when the slot and the index fit. -/
theorem shardSafe_iff :
    ShardSafe slot ts seq pkg codec ↔ slot.ShardFits seq pkg.hdr.fecIdx.toNat := by
  rcases FecSlot.cnt_cases (slot.claim seq pkg.hdr.plen).cnt with hcnt | hcnt | hfull
  · -- the first shard is stored and nothing is decoded
    constructor
    · intro h htakes
      refine ⟨h.idx_lt htakes, ?_⟩
      intro hseq hone
      rw [FecSlot.claim_of_eq hseq, hone] at hcnt
      cases hcnt
    · intro h
      have htakes : slot.seq ≠ seq ∨ slot.cnt.toNat < fecRsK := by
        apply FecSlot.claim_takes.1
        rw [hcnt]
        decide
      exact ⟨_, fecRecvDone_store hcnt (h htakes).1, by simp⟩
  · -- the second shard: the slot had this number, and decoding is tried
    have hseq : slot.seq = seq := by
      apply FecSlot.seq_eq_of_claim_cnt
      rw [hcnt]
      decide
    rw [FecSlot.claim_of_eq hseq] at hcnt
    constructor
    · intro h htakes
      have hidx := h.idx_lt htakes
      exact ⟨hidx, fun _ _ => (shardSafe_decode hseq hcnt hidx).1 h⟩
    · intro h
      have hlow : slot.cnt.toNat < fecRsK := by
        rw [hcnt]
        decide
      obtain ⟨hidx, hother⟩ := h (.inr hlow)
      exact (shardSafe_decode hseq hcnt hidx).2 (hother hseq hcnt)
  · -- a finished slot stores nothing and decodes nothing
    constructor
    · intro _ htakes
      exact absurd (FecSlot.claim_takes.2 htakes) (not_lt.2 hfull)
    · intro _
      exact ⟨_, fecRecvDone_full hfull, by simp⟩

end Call

/-! ### The receiver loops -/

/-- What a receiver has at hand when it gets to `fec_recv_done`. -/
structure ShardCall where
  slot : FecSlot
  ts : Int
  pkg : TunPkg
  codec : FecCodec

/-- The call stays within its slot. -/
def ShardCall.Safe (call : ShardCall) : Prop :=
  ShardSafe call.slot call.ts call.pkg.hdr.seq call.pkg call.codec

/-- The shard has a row in the slot, and the decoder finds what it reads. -/
def ShardCall.Fits (call : ShardCall) : Prop :=
  call.slot.ShardFits call.pkg.hdr.seq call.pkg.hdr.fecIdx.toNat

/-- The slot has a row for the shard or takes none. -/
def ShardCall.HasRow (call : ShardCall) : Prop :=
  call.slot.HasRow call.pkg.hdr.seq call.pkg.hdr.fecIdx.toNat

/-- A safe call has a row in its slot. -/
theorem ShardCall.Safe.hasRow {call : ShardCall} (h : call.Safe) : call.HasRow := by
  obtain ⟨r, hr, -⟩ := h
  exact fecRecvDone_ok_iff.1 ⟨r, hr⟩

/-- The call for a message with FEC: `deliver` looks the slot and the codec up. -/
def RecvState.shardCall (st : RecvState) (worker : Fin udpWorker) (ts : Int) (pkg : TunPkg) :
    ShardCall :=
  { slot := st.fec (slotIdx pkg.hdr.seq), ts := ts, pkg := pkg, codec := st.codec worker }

/-- The call that a message leads to in uctun.c, if it leads to one. -/
def Uctun.shardCall (st : RecvState) (rx : Uctun.Rx) : Option ShardCall :=
  let pkg := TunPkg.ofBytes rx.msg.buffer
  if Uctun.accepts rx.msg = true ∧ pkg.hdr.fecRs ≠ 0 then some (st.shardCall rx.worker rx.ts pkg)
  else none

/-- The call that a message leads to in ustun.c; a `GATEWAY_START` has been obeyed by then. -/
def Ustun.shardCall (sv : Ustun.Server) (rx : Ustun.Rx) : Option ShardCall :=
  if Ustun.accepts rx.msg = true ∧ rx.pkg.hdr.fecRs ≠ 0 then
    some ((sv.learn rx).recv.shardCall rx.worker rx.clock.recv rx.pkg)
  else none

/-- `deliver` gets through when the shard has a row. -/
theorem deliver_ok {st : RecvState} {worker : Fin udpWorker} {ts : Int} {pkg : TunPkg} {plen : Nat}
    (h : pkg.hdr.fecRs ≠ 0 → (st.shardCall worker ts pkg).HasRow) :
    ∃ r, deliver st worker ts pkg plen = .ok r := by
  by_cases hfec : pkg.hdr.fecRs = 0
  · exact ⟨_, deliver_filter hfec⟩
  · obtain ⟨r, hr⟩ := fecRecvDone_ok_iff.2 (h hfec)
    exact ⟨_, (deliver_slot hfec).2 ⟨r, hr, rfl, rfl⟩⟩

/-- The client's receiver never fails on a shard with a row. -/
theorem Uctun.receiverStep_ok {st : RecvState} {rx : Uctun.Rx}
    (h : ∀ call ∈ Uctun.shardCall st rx, call.HasRow) :
    ∃ r, Uctun.receiverStep st rx = .ok r := by
  unfold Uctun.receiverStep
  by_cases hacc : Uctun.accepts rx.msg = true
  · rw [if_pos hacc]
    apply deliver_ok
    intro hfec
    apply h
    rw [Uctun.shardCall, if_pos ⟨hacc, hfec⟩]
    rfl
  · rw [if_neg hacc]
    exact ⟨_, rfl⟩

/-- The server's receiver never fails on a shard with a row. -/
theorem Ustun.receiverStep_ok {sv : Ustun.Server} {rx : Ustun.Rx}
    (h : ∀ call ∈ Ustun.shardCall sv rx, call.HasRow) :
    ∃ r, Ustun.receiverStep sv rx = .ok r := by
  by_cases hacc : Ustun.accepts rx.msg = true
  · obtain ⟨r, hdeliver⟩ : ∃ r, deliver (sv.learn rx).recv rx.worker rx.clock.recv
        rx.pkg (rx.msg.msgLen - pktOffset) = .ok r := by
      apply deliver_ok
      intro hfec
      apply h
      rw [Ustun.shardCall, if_pos ⟨hacc, hfec⟩]
      rfl
    exact ⟨_, (Ustun.receiverStep_accepted hacc).2 ⟨r.1, hdeliver, rfl⟩⟩
  · exact ⟨_, Ustun.receiverStep_rejected hacc⟩

open Machine in
/-- In every run of a functional machine whose steps meet the condition, and in no other, every call
is safe and no step faults. -/
theorem shard_safe_always {σ ι ο : Type} {f : σ → ι → Except Fault (σ × ο)}
    (call : σ → ι → Option ShardCall)
    (hok : ∀ q i, (∀ c ∈ call q i, c.HasRow) → ∃ r, f q i = .ok r) (s : σ) (inputs : List ι) :
    Always (ofExcept f) s inputs (fun q i => ∀ c ∈ call q i, c.Fits) ↔
      Always (ofExcept f) s inputs (fun q i => ∀ c ∈ call q i, c.Safe) ∧
        ∃ t s', t.map Prod.fst = inputs ∧ Run (ofExcept f) s t s' := by
  constructor
  · intro h
    have hsafe : Always (ofExcept f) s inputs fun q i => ∀ c ∈ call q i, c.Safe :=
      h.imp fun q i hfits c hc => shardSafe_iff.2 (hfits c hc)
    exact ⟨hsafe, hsafe.exists_run fun q i hq => hok q i fun c hc => (hq c hc).hasRow⟩
  · rintro ⟨hsafe, -⟩
    exact hsafe.imp fun q i hs c hc => shardSafe_iff.1 (hs c hc)

open Machine in
/-- Every index stays in range on a run of either receiver exactly when every shard that arrives
fits the slot it finds. -/
theorem receivers_shard_safe_iff (ts : Int) (glFec : Bool) (udpSock : Fin udpWorker → Int) :
    (∀ rxs : List Uctun.Rx,
      Always Uctun.machine (Uctun.start ts) rxs
          (fun st rx => ∀ call ∈ Uctun.shardCall st rx, call.Fits) ↔
        Always Uctun.machine (Uctun.start ts) rxs
            (fun st rx => ∀ call ∈ Uctun.shardCall st rx, call.Safe) ∧
          ∃ t st', t.map Prod.fst = rxs ∧ Run Uctun.machine (Uctun.start ts) t st') ∧
    (∀ rxs : List Ustun.Rx,
      Always Ustun.machine (Ustun.start glFec udpSock ts) rxs
          (fun sv rx => ∀ call ∈ Ustun.shardCall sv rx, call.Fits) ↔
        Always Ustun.machine (Ustun.start glFec udpSock ts) rxs
            (fun sv rx => ∀ call ∈ Ustun.shardCall sv rx, call.Safe) ∧
          ∃ t sv', t.map Prod.fst = rxs ∧
            Run Ustun.machine (Ustun.start glFec udpSock ts) t sv') := by
  constructor
  · intro rxs
    exact shard_safe_always Uctun.shardCall (fun _ _ => Uctun.receiverStep_ok) _ rxs
  · intro rxs
    exact shard_safe_always Ustun.shardCall (fun _ _ => Ustun.receiverStep_ok) _ rxs

/-- Eight bytes: a shard with index 7. -/
def seventhShard : List u8 := [0x5A, 0x1D, 0x01, 0x01, 0x00, 0x00, 0x00, 0x00]

def seventhShardRx : Uctun.Rx := { worker := 0, ts := 0, msg := recvmmsg [] seventhShard }

/-- The first datagram of a run of the client, with an index that no row has. -/
theorem receivers_shard_unsafe :
    ¬ Machine.Always Uctun.machine (Uctun.start 0) [seventhShardRx]
      (fun st rx => ∀ call ∈ Uctun.shardCall st rx, call.Safe) := by
  intro h
  have hcall : Uctun.shardCall (Uctun.start 0) seventhShardRx =
      some ((Uctun.start 0).shardCall 0 0 (TunPkg.ofBytes seventhShardRx.msg.buffer)) := rfl
  have hsafe := h.head _ hcall
  have hfits := (shardSafe_iff.1 hsafe) (.inl (by decide))
  exact absurd hfits.1 (by decide)

end ConfigEnv.TunVpn
