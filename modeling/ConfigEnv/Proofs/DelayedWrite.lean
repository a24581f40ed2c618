/-
Module: ConfigEnv.Proofs.DelayedWrite
Layer: Proofs
Purpose: What a worker writes when the other one runs in between. The slot that it decoded keeps its
  rows and its length through the steps of the other worker, as long as none of these brings the
  slot another number or stores past the rows of a slot: a finished slot ignores the shards of its
  own number. A worker that is not interrupted does what `deliver` does in one step
  (`deliver_calls`).
Trusted boundary: none
Main exports: deliver_calls, Workers.Holds, holds_of_decoded, Workers.Holds.other, NoReuse, InRows,
  WrittenAsDecoded, written_as_decoded
Open obligations: none
-/
import ConfigEnv.Proofs.WriteLength
import ConfigEnv.TunVpn.WorkerCalls

namespace ConfigEnv.TunVpn

open Machine

/-! ### A call of `fec_recv_done` -/

/-- The workers when the mutex is released. -/
def Workers.afterShard (s : Workers) (worker : Fin udpWorker) (seq : u16) (r : FecRecv) : Workers :=
  { recv := s.recv.afterShard worker seq r
    ofec := if r.done then Function.update s.ofec worker (some (slotIdx seq)) else s.ofec }

section Call

variable {s s' : Workers} {worker : Fin udpWorker} {ts : Int} {msg : TunPkg} {out : Option TunWrite}

theorem Workers.afterShard_fec (s : Workers) (worker : Fin udpWorker) (seq : u16) (r : FecRecv) :
    (s.afterShard worker seq r).recv.fec (slotIdx seq) = r.slot :=
  afterShard_same s.recv worker seq r

/-- A worker that decoded a packet points at its slot. -/
theorem Workers.ofec_done {r : FecRecv} (hdone : r.done = true) (s : Workers)
    (worker : Fin udpWorker) (seq : u16) :
    (s.afterShard worker seq r).ofec = Function.update s.ofec worker (some (slotIdx seq)) :=
  if_pos hdone

theorem Workers.ofec_other {other : Fin udpWorker} (hne : other ≠ worker) (s : Workers)
    (seq : u16) (r : FecRecv) : (s.afterShard worker seq r).ofec other = s.ofec other := by
  cases hdone : r.done with
  | false => exact congrFun (if_neg (by rw [hdone]; decide)) other
  | true =>
      rw [Workers.ofec_done hdone]
      exact Function.update_of_ne hne _ _

/-- A step of a shard is a call of `fec_recv_done` on the slot of its number. -/
theorem workerStep_fecRecvDone :
    workerStep s (.fecRecvDone worker ts msg) = .ok (s', out) ↔
      ∃ r, fecRecvDone (s.recv.fec (slotIdx msg.hdr.seq)) ts msg.hdr.seq msg
          (s.recv.codec worker) = .ok r ∧
        s' = s.afterShard worker msg.hdr.seq r ∧ out = r.write := by
  unfold workerStep
  dsimp only
  cases hr : fecRecvDone (s.recv.fec (slotIdx msg.hdr.seq)) ts msg.hdr.seq msg
      (s.recv.codec worker) with
  | error fault => simp
  | ok r =>
      constructor
      · intro h
        cases h
        exact ⟨r, rfl, rfl, rfl⟩
      · intro h
        obtain ⟨r', hr', rfl, rfl⟩ := h
        cases hr'
        rfl

/-- A worker that writes at once, if it decoded a packet, does what `deliver` does in one step. -/
theorem deliver_calls {st : RecvState} {plen : Nat} (hfec : msg.hdr.fecRs ≠ 0)
    (hfree : s.ofec worker = none)
    (h : deliver s.recv worker ts msg plen = .ok (st, out)) :
    Run workerMachine s
      ((.fecRecvDone worker ts msg, out) :: out.toList.map fun w => (.write worker, some w))
      { s with recv := st } := by
  obtain ⟨r, hr, rfl, rfl⟩ := (deliver_slot hfec).1 h
  have hcall : workerMachine s (.fecRecvDone worker ts msg) r.write
      (s.afterShard worker msg.hdr.seq r) :=
    ⟨hfree, unchecked_of_ofExcept (workerStep_fecRecvDone.2 ⟨r, hr, rfl, rfl⟩)⟩
  apply Run.cons hcall
  cases hdone : r.done with
  | false =>
      have hafter : s.afterShard worker msg.hdr.seq r =
          { s with recv := s.recv.afterShard worker msg.hdr.seq r } := by
        rw [Workers.afterShard, if_neg (by rw [hdone]; decide)]
      have hnone : r.write = none := if_neg (by rw [hdone]; decide)
      rw [hafter, hnone]
      exact .nil _
  | true =>
      have hofec := Workers.ofec_done hdone s worker msg.hdr.seq
      have hpending : (s.afterShard worker msg.hdr.seq r).ofec worker =
          some (slotIdx msg.hdr.seq) := by
        rw [hofec, Function.update_self]
      have hback : Function.update s.ofec worker none = s.ofec := by
        rw [← hfree, Function.update_eq_self]
      have hwrite : r.write = some r.slot.written := if_pos hdone
      rw [hwrite]
      refine .cons ⟨?_, ?_⟩ (.nil _)
      · change (s.afterShard worker msg.hdr.seq r).ofec worker ≠ none
        rw [hpending]
        exact Option.some_ne_none _
      · apply unchecked_of_ofExcept
        simp only [workerStep, hpending, Option.map_some, Workers.afterShard_fec, hofec,
          Function.update_idem, hback]
        rfl

end Call

/-! ### A decoded packet until it is written -/

/-- The worker points at a finished slot that would be written as `w`. -/
def Workers.Holds (s : Workers) (worker : Fin udpWorker) (w : TunWrite) : Prop :=
  ∃ idx, s.ofec worker = some idx ∧ fecRsK ≤ (s.recv.fec idx).cnt.toNat ∧
    (s.recv.fec idx).written = w

/-- No shard with another number comes to a slot that a worker has yet to write from. -/
def NoReuse (s : Workers) : WorkerCall → Prop
  | .fecRecvDone _ _ msg => ∀ other, s.ofec other = some (slotIdx msg.hdr.seq) →
      (s.recv.fec (slotIdx msg.hdr.seq)).seq = msg.hdr.seq
  | _ => True

/-- The step stays within the rows of the slot: the shard has one, if the slot takes one more, and
the write ends before the last of them does. -/
def InRows (s : Workers) : WorkerCall → Prop
  | .fecRecvDone _ _ msg =>
      (s.recv.fec (slotIdx msg.hdr.seq)).HasRow msg.hdr.seq msg.hdr.fecIdx.toNat
  | .write worker => ∀ idx ∈ s.ofec worker, (s.recv.fec idx).plen.toNat ≤ shardCount * fecRsT
  | _ => True

/-- Such a step is one that the functions have a result for. -/
theorem InRows.step {s s' : Workers} {call : WorkerCall} {out : Option TunWrite}
    (h : InRows s call) (hstep : workerMachine s call out s') :
    workerStep s call = .ok (s', out) := by
  apply ofExcept_of_unchecked ?_ hstep.2
  cases call with
  | fecRecvDone worker ts msg =>
      obtain ⟨r, hr⟩ := fecRecvDone_ok_iff.2 h
      exact ⟨_, workerStep_fecRecvDone.2 ⟨r, hr, rfl, rfl⟩⟩
  | clearSeqMap | clearSlot | isDuplicate | write => exact ⟨_, rfl⟩

/-- And leads to one state. -/
theorem InRows.det {s s' : Workers} {call : WorkerCall} {out : Option TunWrite}
    (h : InRows s call) (hstep : workerMachine s call out s') :
    ∀ out' s'', workerMachine s call out' s'' → s'' = s' := by
  intro out' s'' hstep'
  exact congrArg Prod.fst (Except.ok.inj ((h.step hstep').symm.trans (h.step hstep)))

section Pending

variable {s s' : Workers} {worker : Fin udpWorker} {ts : Int} {msg : TunPkg} {call : WorkerCall}
  {w : TunWrite} {out : Option TunWrite}

/-- A worker that decoded a packet holds what its call produced. -/
theorem holds_of_decoded
    (hstep : workerStep s (.fecRecvDone worker ts msg) = .ok (s', some w)) :
    s'.Holds worker w := by
  obtain ⟨r, hr, rfl, hout⟩ := workerStep_fecRecvDone.1 hstep
  obtain ⟨hdone, rfl⟩ := FecRecv.write_eq_some.1 hout.symm
  refine ⟨slotIdx msg.hdr.seq, ?_, ?_, ?_⟩
  · rw [Workers.ofec_done hdone, Function.update_self]
  · rw [Workers.afterShard_fec]
    exact fecRecvDone_done_cnt hr hdone
  · rw [Workers.afterShard_fec]
    rfl

/-- It holds it through the steps of the other worker that bring no other number to the slot. -/
theorem Workers.Holds.other (h : s.Holds worker w) (hother : call.worker ≠ worker)
    (hreuse : NoReuse s call) (hstep : workerStep s call = .ok (s', out)) : s'.Holds worker w := by
  obtain ⟨idx, hidx, hcnt, hw⟩ := h
  cases call with
  | clearSeqMap _ _ =>
      cases hstep
      exact ⟨idx, hidx, hcnt, hw⟩
  | clearSlot _ i =>
      cases hstep
      by_cases hi : idx = i
      · subst hi
        exact ⟨idx, hidx, by simpa using hcnt, by simpa [FecSlot.written] using hw⟩
      · exact ⟨idx, hidx, by simpa [Function.update_of_ne hi] using hcnt,
          by simpa [Function.update_of_ne hi] using hw⟩
  | isDuplicate _ _ _ =>
      cases hstep
      exact ⟨idx, hidx, hcnt, hw⟩
  | fecRecvDone worker' ts' msg' =>
      obtain ⟨r, hr, rfl, -⟩ := workerStep_fecRecvDone.1 hstep
      have hne : worker ≠ worker' := fun heq => hother heq.symm
      have hofec : (s.afterShard worker' msg'.hdr.seq r).ofec worker = some idx := by
        rw [Workers.ofec_other hne, hidx]
      have hslot : (s.afterShard worker' msg'.hdr.seq r).recv.fec idx = s.recv.fec idx := by
        by_cases hi : idx = slotIdx msg'.hdr.seq
        · -- a further shard of the finished number
          subst hi
          have hlate := late_shard (hreuse worker hidx) hcnt msg' ts' (s.recv.codec worker')
          rw [hlate] at hr
          cases hr
          exact afterShard_same s.recv worker' msg'.hdr.seq _
        · exact afterShard_other s.recv worker' r hi
      exact ⟨idx, hofec, by rw [hslot]; exact hcnt, by rw [hslot]; exact hw⟩
  | write worker' =>
      cases hstep
      have hne : worker ≠ worker' := fun heq => hother heq.symm
      have hofec : Function.update s.ofec worker' none worker = some idx := by
        rw [Function.update_of_ne hne, hidx]
      exact ⟨idx, hofec, hcnt, hw⟩

/-- It holds it as long as the other worker runs. -/
theorem Workers.Holds.run {t : List (WorkerCall × Option TunWrite)} (h : s.Holds worker w)
    (hrun : Run workerMachine s t s')
    (halone : Always workerMachine s (t.map Prod.fst) fun q call => NoReuse q call ∧ InRows q call)
    (hother : ∀ e ∈ t, e.1.worker ≠ worker) : s'.Holds worker w := by
  induction hrun with
  | nil _ => exact h
  | cons hstep _ ih =>
      obtain ⟨hreuse, hrows⟩ := halone.head
      have hnext := h.other (hother _ List.mem_cons_self) hreuse (hrows.step hstep)
      exact ih hnext (halone.tail hstep) fun e he => hother e (List.mem_cons_of_mem _ he)

/-- A packet that its rows hold is written from them. -/
theorem Workers.Holds.inRows (h : s.Holds worker w) (hlen : w.plen ≤ shardCount * fecRsT) :
    InRows s (.write worker) := by
  obtain ⟨idx, hidx, -, rfl⟩ := h
  intro idx' hidx'
  cases hidx.symm.trans hidx'
  exact hlen

/-- And then writes it, from its rows alone. -/
theorem Workers.Holds.written (h : s.Holds worker w) (hrows : InRows s (.write worker))
    (hstep : workerMachine s (.write worker) out s') :
    out = some w ∧ w.plen ≤ w.pbuf.length := by
  obtain ⟨idx, hidx, -, rfl⟩ := h
  have hout := congrArg Prod.snd (Except.ok.inj (hrows.step hstep))
  dsimp only at hout
  rw [hidx] at hout
  refine ⟨hout.symm, ?_⟩
  have hplen := hrows idx hidx
  rwa [FecSlot.written, length_fecFlat]

end Pending

/-! ### Interleavings -/

/-- What a worker writes is what its own call of `fec_recv_done` had produced, and nothing past it.
The steps between the two are not its own. -/
def WrittenAsDecoded (t : List (WorkerCall × Option TunWrite)) : Prop :=
  ∀ pre mid post worker ts msg decoded written,
    t = pre ++ (.fecRecvDone worker ts msg, some decoded) :: (mid ++
      (.write worker, written) :: post) →
    (∀ e ∈ mid, e.1.worker ≠ worker) →
    written = some decoded ∧ decoded.plen ≤ decoded.pbuf.length

/-- In every interleaving in which no slot is reused under a worker and no step goes past the rows
of a slot, every packet is written as it was decoded. -/
theorem written_as_decoded (recv : RecvState) (t : List (WorkerCall × Option TunWrite))
    (s' : Workers) (hrun : Run workerMachine (Workers.start recv) t s')
    (halone : Always workerMachine (Workers.start recv) (t.map Prod.fst)
      fun s call => NoReuse s call ∧ InRows s call) :
    WrittenAsDecoded t := by
  intro pre mid post worker ts msg decoded written ht hmid
  subst ht
  obtain ⟨s1, s2, hpre, hdecode, hrest⟩ := hrun.middle
  obtain ⟨s3, s4, hbetween, hwrite, -⟩ := hrest.middle
  rw [List.map_append, List.map_cons, List.map_append] at halone
  have hcall := halone.after hpre
  have hafter := hcall.tail hdecode
  have hholds : s3.Holds worker decoded :=
    (holds_of_decoded (hcall.head.2.step hdecode)).run hbetween hafter.append_left hmid
  exact hholds.written (hafter.after hbetween).head.2 hwrite

/-! ### A packet and one more shard -/

/-- A shard that announces a length, at a worker. -/
def announcedCall (worker : Fin udpWorker) (seq plen : u16) (i : Fin shardCount) : WorkerCall :=
  .fecRecvDone worker 0 (announcedPkg seq plen i)

theorem announcedCall_inRows (s : Workers) (worker : Fin udpWorker) (seq plen : u16)
    (i : Fin shardCount) : InRows s (announcedCall worker seq plen i) :=
  fun _ => announced_idx i

/-- A shard with an announced length is a step of an idle worker. -/
theorem announcedCall_step {s : Workers} {worker : Fin udpWorker} {seq plen : u16}
    {i : Fin shardCount} {r : FecRecv} (hfree : s.ofec worker = none)
    (hr : fecRecvDone (s.recv.fec (slotIdx seq)) 0 seq (announcedPkg seq plen i)
      (s.recv.codec worker) = .ok r) :
    workerMachine s (announcedCall worker seq plen i) r.write (s.afterShard worker seq r) := by
  refine ⟨hfree, unchecked_of_ofExcept (workerStep_fecRecvDone.2 ⟨r, ?_⟩)⟩
  rw [announced_hdr]
  exact ⟨hr, rfl, rfl⟩

/-- A worker that has decoded writes what the slot holds now. -/
theorem write_step {s : Workers} {worker : Fin udpWorker} {idx : Fin seqMapSize}
    (hidx : s.ofec worker = some idx) :
    workerMachine s (.write worker) (some (s.recv.fec idx).written)
      { s with ofec := Function.update s.ofec worker none } := by
  constructor
  · change s.ofec worker ≠ none
    rw [hidx]
    exact Option.some_ne_none idx
  · apply unchecked_of_ofExcept
    simp only [workerStep, hidx, Option.map_some]

/-- Where no worker is about to write, nothing is reused. -/
theorem noReuse_of_idle {s : Workers} (h : s.ofec = fun _ => none) (call : WorkerCall) :
    NoReuse s call := by
  cases call with
  | fecRecvDone _ _ _ =>
      intro other hother
      rw [h] at hother
      cases hother
  | clearSeqMap | clearSlot | isDuplicate | write => trivial

/-- Worker 0 decodes a packet of 20 bytes. -/
theorem announced_decoded :
    ∃ s s' w, workerMachine (Workers.start (Uctun.start 0)) (announcedCall 0 0 20 0) none s ∧
      workerMachine s (announcedCall 0 0 20 1) (some w) s' ∧ s.ofec = (fun _ => none) ∧
      s'.ofec = Function.update (fun _ => none) 0 (some (slotIdx 0)) ∧
      (s'.recv.fec (slotIdx 0)).seq = 0 ∧ w.plen = 20 := by
  have hslot : ((Uctun.start 0).fec (slotIdx 0)).seq ≠ 0 := by decide
  obtain ⟨r, hr, hdone, hsecond⟩ := announced_pair hslot 20 0 ((Uctun.start 0).codec 0)
  let s : Workers := (Workers.start (Uctun.start 0)).afterShard 0 0 r
  obtain ⟨r', hr', hdone', hcomplete⟩ := hsecond 0 (s.recv.codec 0)
  have hnone : r.write = none := if_neg (by rw [hdone]; decide)
  have hwrite : r'.write = some r'.slot.written := if_pos hdone'
  have hfree : s.ofec = fun _ => none := if_neg (by rw [hdone]; decide)
  have hslot' : s.recv.fec (slotIdx 0) = r.slot := Workers.afterShard_fec _ 0 0 r
  have hfirst : workerMachine (Workers.start (Uctun.start 0)) (announcedCall 0 0 20 0) r.write s :=
    announcedCall_step rfl hr
  have hdecode : workerMachine s (announcedCall 0 0 20 1) r'.write (s.afterShard 0 0 r') := by
    apply announcedCall_step
    · rw [hfree]
    · rw [hslot']
      exact hr'
  rw [hnone] at hfirst
  rw [hwrite] at hdecode
  refine ⟨s, s.afterShard 0 0 r', r'.slot.written, hfirst, hdecode, hfree, ?_, ?_,
    congrArg BitVec.toNat hcomplete.plen_eq⟩
  · rw [Workers.ofec_done hdone', hfree]
  · rw [Workers.afterShard_fec]
    exact hcomplete.seq_eq

/-- Its third shard comes to the other worker before the write. -/
theorem written_as_decoded_late :
    ∃ t s', t.map Prod.fst =
        [announcedCall 0 0 20 0, announcedCall 0 0 20 1, announcedCall 1 0 20 2, .write 0] ∧
      Run workerMachine (Workers.start (Uctun.start 0)) t s' ∧ WrittenAsDecoded t := by
  obtain ⟨s1, s2, w, hfirst, hdecode, hfree, hofec, hseq, hplen⟩ := announced_decoded
  obtain ⟨r, hr⟩ : ∃ r, fecRecvDone (s2.recv.fec (slotIdx 0)) 0 0 (announcedPkg 0 20 2)
      (s2.recv.codec 1) = .ok r := fecRecvDone_ok (announced_idx 2) _ _ _ _
  have hne : (0 : Fin udpWorker) ≠ 1 := by decide
  have hworker : (announcedCall 1 0 20 2).worker ≠ 0 := hne.symm
  have hidx : s2.ofec 0 = some (slotIdx 0) := by rw [hofec, Function.update_self]
  have hshard := announcedCall_step (by rw [hofec]; rfl) hr
  have hwrite := write_step ((Workers.ofec_other hne s2 0 r).trans hidx)
  have hrun := Run.cons (e := (_, _)) hfirst (.cons (e := (_, _)) hdecode
    (.cons (e := (_, _)) hshard (.cons (e := (_, _)) hwrite (.nil _))))
  have hlate : NoReuse s2 (announcedCall 1 0 20 2) := by
    intro _ _
    rw [announced_hdr]
    exact hseq
  have hrows := announcedCall_inRows
  have hholds : (s2.afterShard 1 0 r).Holds 0 w :=
    (holds_of_decoded ((hrows s1 0 0 20 1).step hdecode)).other hworker hlate
      ((hrows s2 1 0 20 2).step hshard)
  have hinside := hholds.inRows (by rw [hplen]; decide)
  refine ⟨_, _, rfl, hrun, written_as_decoded (Uctun.start 0) _ _ hrun ?_⟩
  refine .cons_of_det ⟨noReuse_of_idle rfl _, hrows _ _ _ _ _⟩ ((hrows _ _ _ _ _).det hfirst) ?_
  refine .cons_of_det ⟨noReuse_of_idle hfree _, hrows _ _ _ _ _⟩ ((hrows _ _ _ _ _).det hdecode) ?_
  refine .cons_of_det ⟨hlate, hrows _ _ _ _ _⟩ ((hrows _ _ _ _ _).det hshard) ?_
  exact .cons_of_det ⟨trivial, hinside⟩ (hinside.det hwrite) .nil

/-- A shard of packet 8192 comes to the other worker before the write: as many bytes are written as
that one announces. -/
theorem written_not_as_decoded :
    ∃ t s', t.map Prod.fst =
        [announcedCall 0 0 20 0, announcedCall 0 0 20 1, announcedCall 1 8192 40 0, .write 0] ∧
      Run workerMachine (Workers.start (Uctun.start 0)) t s' ∧ ¬ WrittenAsDecoded t := by
  obtain ⟨s1, s2, w, hfirst, hdecode, hfree, hofec, hseq, hplen⟩ := announced_decoded
  have hidx : slotIdx 8192 = slotIdx 0 := by decide
  have hother : (s2.recv.fec (slotIdx 8192)).seq ≠ 8192 := by
    rw [hidx, hseq]
    decide
  have hisShard : IsShard (announcedPkg 8192 40 0) 40 (codewordRows zeroPayload) 0 :=
    announced_isShard 0
  obtain ⟨r, hr, hdone, hcol, -, -⟩ := first_shard hother hisShard 0 (s2.recv.codec 1)
  have hshard := announcedCall_step (by rw [hofec]; rfl) hr
  have hpending : (s2.afterShard 1 8192 r).ofec 0 = some (slotIdx 8192) := by
    rw [Workers.ofec_other (by decide), hofec, hidx]
    rfl
  have hwrite := write_step hpending
  rw [Workers.afterShard_fec] at hwrite
  have hrun := Run.cons (e := (_, _)) hfirst (.cons (e := (_, _)) hdecode
    (.cons (e := (_, _)) hshard (.cons (e := (_, _)) hwrite (.nil _))))
  refine ⟨_, _, rfl, hrun, fun h => ?_⟩
  obtain ⟨heq, -⟩ := h [_] [_] [] 0 0 _ w _ rfl (by simp [WorkerCall.worker])
  have hlen : r.slot.plen.toNat = w.plen := congrArg TunWrite.plen (Option.some.inj heq)
  rw [hcol.plen_eq, hplen] at hlen
  exact absurd hlen (by decide)

end ConfigEnv.TunVpn
