/-
Module: ConfigEnv.TunVpn.Dedup
Layer: TunVpn
Purpose: The receive side that ustun.c and uctun.c have in common: `is_duplicate`, `fec_recv_done`,
  and the end of the receiver loop that calls one of them and writes to the TUN device. The two
  files keep their own copies of this code; the copies agree line for line except for
  `init_dedup_state`, which is modelled with each program. A call to `time` is an argument. Both
  functions make it before they take the mutex, so the readings may come out of order; the threads
  in `LateReadings` and `ReceiverCalls` read the clock in a step of its own. The locked regions run
  one at a time, so each function is a step on the tables; the write that follows the region is part
  of the step, and sees the slot as the region left it. `deliver_calls` takes it apart.
Trusted boundary: a shard index past the rows is an error here; `unchecked` runs go on after it
Main exports: DedupState, isDuplicate, FecSlot, fecRecvDone, RecvState, deliver
Open obligations: none
-/
import ConfigEnv.TunVpn.ReedSolomon

namespace ConfigEnv.TunVpn

/-! ### Duplicate filter -/

/-- `dedup_state_t`. -/
structure DedupState where
  seqMap : Fin seqMapSize → u16
  lastUpdate : Int

/-- `seq % SEQ_MAP_SIZE`. -/
def slotIdx (seq : u16) : Fin seqMapSize := Fin.ofNat seqMapSize seq.toNat

/-- `memset(seq_map, 0x55AA, ...)`: `memset` stores the low byte of its argument, so every entry of
the table reads `0xAAAA`. -/
abbrev seqMapFill : u16 := 0xAAAA

/-- The filter after its `memset`. -/
def DedupState.cleared (ts : Int) : DedupState :=
  { seqMap := fun _ => seqMapFill, lastUpdate := ts }

/-- The clearing of expired state at the start of `is_duplicate`. -/
def DedupState.expire (st : DedupState) (ts : Int) : DedupState :=
  if ts - st.lastUpdate > connTimeout then DedupState.cleared ts else st

/-- `is_duplicate(seq)` at time `ts`. -/
def isDuplicate (st : DedupState) (ts : Int) (seq : u16) : DedupState × Bool :=
  let st := st.expire ts
  if seq ≠ st.seqMap (slotIdx seq) then
    ({ seqMap := Function.update st.seqMap (slotIdx seq) seq, lastUpdate := ts }, false)
  else (st, true)

/-! ### FEC slots -/

/-- `fec_dedup_state_t`.  `pfec_buf` always points at the rows of `buf`. -/
structure FecSlot where
  seq : u16
  plen : u16
  buf : Shards shardCount fecRsT
  marks : Fin shardCount → u8
  cnt : u8
  lastUpdate : Int

/-- A slot in zeroed static storage. -/
def FecSlot.zero : FecSlot :=
  { seq := 0, plen := 0, buf := fun _ _ => 0, marks := fun _ => 0, cnt := 0, lastUpdate := 0 }

/-- `fec->seq = 0xAA55`, the number that `init_dedup_state` leaves in every slot. -/
abbrev fecSeqFill : u16 := 0xAA55

/-- The memory from `fec->marks` on: the marks, `cnt`, and the padding before `pfec_buf`, which is
zero in a static object. -/
def FecSlot.marksMem (slot : FecSlot) : List u8 := List.ofFn slot.marks ++ [slot.cnt, 0]

/-- The start of a new packet in a slot. -/
def FecSlot.reset (slot : FecSlot) (seq plen : u16) : FecSlot :=
  { slot with seq := seq, plen := plen, cnt := 0, marks := fun _ => 1 }

/-- `if(fec->seq != seq)` and its block. -/
def FecSlot.claim (slot : FecSlot) (seq plen : u16) : FecSlot :=
  if slot.seq ≠ seq then slot.reset seq plen else slot

/-- `memcpy(row, mem, FEC_RS_T)`. -/
def rowOfMem (mem : List u8) : Row fecRsT := fun k => mem.getD k 0

/-- Copy a shard into its row, mark it received and count it. -/
def FecSlot.addShard (slot : FecSlot) (i : Fin shardCount) (mem : List u8) (ts : Int) : FecSlot :=
  { slot with
    buf := Function.update slot.buf i (rowOfMem mem)
    marks := Function.update slot.marks i 0
    cnt := slot.cnt + 1
    lastUpdate := ts }

/-- A store outside the rows of a slot.  The program has no defined behaviour after it. -/
inductive Fault where
  | shardStore (idx : Nat)
deriving DecidableEq, Repr

/-- Result of `fec_recv_done` on a slot: the slot, the codec, the return value, and the indices with
which the decoder read `marks` and `data`. -/
structure FecRecv where
  slot : FecSlot
  codec : FecCodec
  done : Bool
  reads : List Nat

/-- The block under `if(fec->cnt >= FEC_RS_K)`: decode in place. -/
def FecSlot.decode (slot : FecSlot) (codec : FecCodec) : FecRecv :=
  let d := reedSolomonDecode codec.rs slot.buf slot.marksMem
  { slot := { slot with buf := d.data }
    codec := codec.withWrk d.rs.wrk
    done := d.ret = 0
    reads := d.reads }

/-- `fec_recv_done(seq, pkg, rs, ofec)` at time `ts`, on the slot of `seq`. -/
def fecRecvDone (slot : FecSlot) (ts : Int) (seq : u16) (pkg : TunPkg) (codec : FecCodec) :
    Except Fault FecRecv :=
  let fec := slot.claim seq pkg.hdr.plen
  if fec.cnt.toNat < fecRsK then
    if h : pkg.hdr.fecIdx.toNat < shardCount then
      let fec := fec.addShard ⟨pkg.hdr.fecIdx.toNat, h⟩ pkg.payload ts
      if fec.cnt.toNat ≥ fecRsK then .ok (fec.decode codec)
      else .ok { slot := fec, codec := codec, done := false, reads := [] }
    else .error (.shardStore pkg.hdr.fecIdx.toNat)
  else .ok { slot := fec, codec := codec, done := false, reads := [] }

/-! ### The end of the receiver loops -/

/-- The tables that the receiver threads of a program share, and the codec of each thread. -/
structure RecvState where
  dedup : DedupState
  fec : Fin seqMapSize → FecSlot
  codec : Fin udpWorker → FecCodec

/-- Static storage before `init_dedup_state`, with the codecs of the threads built. -/
def RecvState.zero : RecvState :=
  { dedup := { seqMap := fun _ => 0, lastUpdate := 0 }
    fec := fun _ => FecSlot.zero
    codec := fun _ => FecCodec.new }

/-- One accepted datagram: FEC frames go to `fec_recv_done`, the others through `is_duplicate`; what
passes is written.  A FEC write starts at `fec->buf` and takes its count from `fec->plen`. -/
def deliver (st : RecvState) (worker : Fin udpWorker) (ts : Int) (msg : TunPkg) (plen : Nat) :
    Except Fault (RecvState × Option TunWrite) :=
  let seq := msg.hdr.seq
  if msg.hdr.fecRs ≠ 0 then
    match fecRecvDone (st.fec (slotIdx seq)) ts seq msg (st.codec worker) with
    | .error fault => .error fault
    | .ok r =>
        let st' : RecvState :=
          { st with
            fec := Function.update st.fec (slotIdx seq) r.slot
            codec := Function.update st.codec worker r.codec }
        .ok (st', if r.done then some { pbuf := fecFlat r.slot.buf, plen := r.slot.plen.toNat }
          else none)
  else
    let (dedup, duplicate) := isDuplicate st.dedup ts seq
    .ok ({ st with dedup := dedup },
      if duplicate then none else some { pbuf := msg.payload, plen := plen })

end ConfigEnv.TunVpn
