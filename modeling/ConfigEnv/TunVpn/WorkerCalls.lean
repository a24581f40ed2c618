/-
Module: ConfigEnv.TunVpn.WorkerCalls
Layer: TunVpn
Purpose: The two worker threads of a program with an FEC datagram handled in two steps. A worker
  runs `fec_recv_done` under `dedup_mutex` and gets a pointer to the slot back; it writes
  `fec->plen` bytes from that slot after the mutex was released, when the other worker may have been
  at the slot. `init_dedup_state` takes no mutex, so its stores come one at a time between the
  others.
Trusted boundary: a shard with an index past the rows of its slot is stored over other slots; after
  such a step the workers may be in any state
Main exports: Workers, WorkerCall, workerStep, workerMachine, Workers.start
Open obligations: none
-/
import ConfigEnv.Lib.Run
import ConfigEnv.TunVpn.Dedup

namespace ConfigEnv.TunVpn

/-- The tables that the workers share, and the slot that `fec` of a worker points at while it has
decoded a packet and not yet written it. -/
structure Workers where
  recv : RecvState
  ofec : Fin udpWorker → Option (Fin seqMapSize)

/-- A step of a worker. -/
inductive WorkerCall where
  /-- `memset(seq_map, ...)` and `last_update = ts` in `init_dedup_state`. -/
  | clearSeqMap (worker : Fin udpWorker) (ts : Int)
  /-- `fec_dedup_state[i].seq = 0xAA55` in `init_dedup_state`. -/
  | clearSlot (worker : Fin udpWorker) (i : Fin seqMapSize)
  | isDuplicate (worker : Fin udpWorker) (ts : Int) (seq : u16)
  | fecRecvDone (worker : Fin udpWorker) (ts : Int) (msg : TunPkg)
  /-- `write(tun_fd, fec->buf, fec->plen)`. -/
  | write (worker : Fin udpWorker)

/-- The thread that makes the step. -/
def WorkerCall.worker : WorkerCall → Fin udpWorker
  | .clearSeqMap worker _ | .clearSlot worker _ | .isDuplicate worker _ _
  | .fecRecvDone worker _ _ | .write worker => worker

/-- After a packet was decoded the next step of the worker is the write. -/
def WorkerCall.Enabled (s : Workers) : WorkerCall → Prop
  | .write worker => s.ofec worker ≠ none
  | call => s.ofec call.worker = none

/-- What a write from the slot would take now. -/
def FecSlot.written (slot : FecSlot) : TunWrite :=
  { pbuf := fecFlat slot.buf, plen := slot.plen.toNat }

/-- The workers after a step. Of `fec_recv_done` the output is what the slot holds when the mutex is
released, if a packet was decoded; of `write` it is what is written. -/
def workerStep (s : Workers) : WorkerCall → Except Fault (Workers × Option TunWrite)
  | .clearSeqMap _ ts =>
      .ok ({ s with recv := { s.recv with dedup := DedupState.cleared ts } }, none)
  | .clearSlot _ i =>
      let fec := Function.update s.recv.fec i { s.recv.fec i with seq := fecSeqFill }
      .ok ({ s with recv := { s.recv with fec := fec } }, none)
  | .isDuplicate _ ts seq =>
      .ok ({ s with recv := { s.recv with dedup := (isDuplicate s.recv.dedup ts seq).1 } }, none)
  | .fecRecvDone worker ts msg =>
      let idx := slotIdx msg.hdr.seq
      match fecRecvDone (s.recv.fec idx) ts msg.hdr.seq msg (s.recv.codec worker) with
      | .error fault => .error fault
      | .ok r =>
          let recv : RecvState :=
            { s.recv with
              fec := Function.update s.recv.fec idx r.slot
              codec := Function.update s.recv.codec worker r.codec }
          let ofec := if r.done then Function.update s.ofec worker (some idx) else s.ofec
          .ok ({ recv := recv, ofec := ofec }, if r.done then some r.slot.written else none)
  | .write worker =>
      .ok ({ s with ofec := Function.update s.ofec worker none },
        (s.ofec worker).map fun idx => (s.recv.fec idx).written)

/-- The steps of both workers, in any order. Nothing stops a store past the rows of a slot. -/
abbrev workerMachine : Machine.Step Workers WorkerCall (Option TunWrite) :=
  fun s call out s' => call.Enabled s ∧ Machine.unchecked workerStep s call out s'

/-- Before their first step the workers have decoded nothing. -/
def Workers.start (recv : RecvState) : Workers := { recv := recv, ofec := fun _ => none }

end ConfigEnv.TunVpn
