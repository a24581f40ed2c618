/-
Module: ConfigEnv.TunVpn.ReceiverCalls
Layer: TunVpn
Purpose: Both threads of the server in the loop body of `udp_receiver_thread`. `init_dedup_state`
  takes no mutex, so its test of the rate limit and each of its stores is a step of its own, between
  any steps of the other thread. `is_duplicate` and `fec_recv_done` call `time` before they take
  `dedup_mutex`, so a datagram is taken when the clock is read for it and acted on under the mutex.
  What lies between the two, the gateway map and the connection table, has mutexes of its own and
  shares nothing with the filter; it is not part of this state.
Trusted boundary: `memset` stores an entry of `seq_map` at once.
Main exports: ResetState, Store, resetStores, ResetState.after, Stage, Receivers, LoopCall,
  threadStep, receiverLoop, Orderly, arrived, delivered
Open obligations: none
-/
import ConfigEnv.Lib.Delayed
import ConfigEnv.TunVpn.Ustun

namespace ConfigEnv.TunVpn.Ustun

open Machine

/-! ### The stores of a reset -/

/-- What `init_dedup_state` and the two functions of the tables have in common. -/
structure ResetState where
  lastTs : Int
  recv : RecvState

/-- The part of the server that a reset changes. -/
def Server.resetState (sv : Server) : ResetState := { lastTs := sv.lastTs, recv := sv.recv }

/-- A store of `init_dedup_state`. -/
inductive Store where
  /-- `last_ts = ts`. -/
  | lastTs (ts : Int)
  /-- One entry of `memset(seq_map, ...)`. -/
  | seqMap (i : Fin seqMapSize)
  /-- `dedup_state.last_update = ts`. -/
  | lastUpdate (ts : Int)
  /-- `fec_dedup_state[i].seq = 0xAA55`. -/
  | fecSeq (i : Fin seqMapSize)

/-- The state after a store. -/
def Store.apply (st : ResetState) : Store → ResetState
  | .lastTs ts => { st with lastTs := ts }
  | .seqMap i =>
      let seqMap := Function.update st.recv.dedup.seqMap i seqMapFill
      { st with recv := { st.recv with dedup := { st.recv.dedup with seqMap := seqMap } } }
  | .lastUpdate ts =>
      { st with recv := { st.recv with dedup := { st.recv.dedup with lastUpdate := ts } } }
  | .fecSeq i =>
      let fec := Function.update st.recv.fec i { st.recv.fec i with seq := fecSeqFill }
      { st with recv := { st.recv with fec := fec } }

/-- The block under `if(ts - last_ts > 3)`. The pointers `pfec_buf` never change after the start. -/
def resetStores (ts : Int) : List Store :=
  .lastTs ts :: ((List.finRange seqMapSize).map .seqMap ++
    .lastUpdate ts :: (List.finRange seqMapSize).map .fecSeq)

/-- What a call of `init_dedup_state` for the datagram leads to, when nothing comes in between. -/
def ResetState.after (st : ResetState) (rx : Rx) : ResetState :=
  if rx.starts = true ∧ rx.clock.init - st.lastTs > 3 then
    (resetStores rx.clock.init).foldl Store.apply st
  else st

/-! ### The loop body -/

/-- Where a thread is: between two datagrams, in `init_dedup_state` with these stores to go, or past
it. -/
inductive Stage where
  | idle
  | resetting (rx : Rx) (todo : List Store)
  | ready (rx : Rx)

/-- The thread is in the block of `init_dedup_state`. -/
def Stage.Resets : Stage → Prop
  | .resetting _ _ => True
  | _ => False

/-- The shared state, and how far each thread is with its datagram. -/
structure Receivers where
  st : ResetState
  stage : Fin udpWorker → Stage

/-- No thread has a datagram. -/
def Receivers.start (st : ResetState) : Receivers := { st := st, stage := fun _ => .idle }

/-- A step of a thread. -/
inductive LoopCall where
  /-- From the head of the loop body to the test `ts - last_ts > 3`. -/
  | arrive (rx : Rx)
  /-- The next store of `init_dedup_state`, or its return. -/
  | reset (worker : Fin udpWorker)
  /-- `fec_recv_done` or `is_duplicate` under the mutex, and the write. -/
  | deliver (rx : Rx)

/-- The thread that makes the step. -/
def LoopCall.worker : LoopCall → Fin udpWorker
  | .arrive rx | .deliver rx => rx.worker
  | .reset worker => worker

/-- A thread handles one datagram after another, and each in this order. -/
def LoopCall.Enabled (s : Receivers) : LoopCall → Prop
  | .arrive rx => s.stage rx.worker = .idle ∧ accepts rx.msg = true
  | .reset worker => (s.stage worker).Resets
  | .deliver rx => s.stage rx.worker = .ready rx

/-- Where the test of the rate limit leads. -/
def Rx.stage (rx : Rx) (lastTs : Int) : Stage :=
  if rx.starts = true ∧ rx.clock.init - lastTs > 3 then .resetting rx (resetStores rx.clock.init)
  else .ready rx

/-- A step of a thread. -/
def threadStep (s : Receivers) : LoopCall → Except Fault (Receivers × Option TunWrite)
  | .arrive rx =>
      .ok ({ s with stage := Function.update s.stage rx.worker (rx.stage s.st.lastTs) }, none)
  | .reset worker =>
      match s.stage worker with
      | .resetting rx [] =>
          .ok ({ s with stage := Function.update s.stage worker (.ready rx) }, none)
      | .resetting rx (store :: todo) =>
          .ok ({ st := store.apply s.st
                 stage := Function.update s.stage worker (.resetting rx todo) }, none)
      | _ => .ok (s, none)
  | .deliver rx =>
      match deliver s.st.recv rx.worker rx.clock.recv rx.pkg (rx.msg.msgLen - pktOffset) with
      | .error fault => .error fault
      | .ok (recv, out) =>
          .ok ({ st := { s.st with recv := recv }
                 stage := Function.update s.stage rx.worker .idle }, out)

/-- The steps of both threads, in any order. -/
abbrev threadMachine : Step Receivers LoopCall (Option TunWrite) :=
  fun s call out s' => call.Enabled s ∧ threadStep s call = .ok (s', out)

/-! ### The clock before the mutex -/

/-- The calls for which a thread reads the clock before it takes the mutex. -/
def LoopCall.owner : LoopCall → Option (Fin udpWorker)
  | .deliver rx => some rx.worker
  | _ => none

/-- The clock is read once the thread is past `init_dedup_state`. -/
def LoopCall.Ready (s : Receivers) : LoopCall → Prop
  | .deliver rx => s.stage rx.worker = .ready rx
  | _ => False

/-- The two threads, step by step. -/
abbrev receiverLoop :
    Step (Threads Receivers (Fin udpWorker) LoopCall) (Act LoopCall) (Option TunWrite) :=
  Delayed threadMachine LoopCall.owner LoopCall.Ready

/-- Datagrams whose readings of the clock are in order. -/
def LoopCall.NotAfter : LoopCall → LoopCall → Prop
  | .deliver rx, .deliver rx' => rx.clock.recv ≤ rx'.clock.recv
  | _, _ => True

/-- The step does not meet a reset of the other thread, and no reading of the clock is passed by a
later one. -/
def Orderly (s : Threads Receivers (Fin udpWorker) LoopCall) (a : Act LoopCall) : Prop :=
  InTurn LoopCall.NotAfter LoopCall.owner s a ∧
    match a with
    | .act (.arrive rx) =>
        rx.starts = true → ∀ w, w ≠ rx.worker → ¬ (s.state.stage w).Resets
    | .act (.deliver rx) => ∀ w, w ≠ rx.worker → ¬ (s.state.stage w).Resets
    | _ => True

/-! ### What a run has done -/

/-- The datagrams that have arrived at the threads. -/
def arrived (t : List (LoopCall × Option TunWrite)) : List Rx :=
  t.filterMap fun e =>
    match e.1 with
    | .arrive rx => some rx
    | _ => none

/-- The datagrams that have been handled, with what was written of each. -/
def delivered (t : List (LoopCall × Option TunWrite)) : List (Rx × Option TunWrite) :=
  t.filterMap fun e =>
    match e.1 with
    | .deliver rx => some (rx, e.2)
    | _ => none

section Lists

variable {rx : Rx} {worker : Fin udpWorker} {out : Option TunWrite}
  {t t' : List (LoopCall × Option TunWrite)}

@[simp] theorem arrived_nil : arrived [] = [] := rfl
@[simp] theorem arrived_arrive : arrived ((.arrive rx, out) :: t) = rx :: arrived t := rfl
@[simp] theorem arrived_reset : arrived ((.reset worker, out) :: t) = arrived t := rfl
@[simp] theorem arrived_deliver : arrived ((.deliver rx, out) :: t) = arrived t := rfl
@[simp] theorem delivered_nil : delivered [] = [] := rfl
@[simp] theorem delivered_arrive : delivered ((.arrive rx, out) :: t) = delivered t := rfl
@[simp] theorem delivered_reset : delivered ((.reset worker, out) :: t) = delivered t := rfl
@[simp] theorem delivered_deliver :
    delivered ((.deliver rx, out) :: t) = (rx, out) :: delivered t := rfl

@[simp] theorem arrived_append : arrived (t ++ t') = arrived t ++ arrived t' :=
  List.filterMap_append

@[simp] theorem delivered_append : delivered (t ++ t') = delivered t ++ delivered t' :=
  List.filterMap_append

end Lists

end ConfigEnv.TunVpn.Ustun
