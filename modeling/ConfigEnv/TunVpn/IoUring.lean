/-
Module: ConfigEnv.TunVpn.IoUring
Layer: TunVpn
Purpose: The read loop of ustun.c over one io_uring. A buffer is its index in `tun_buf.msg`, which
  is also the `user_data` of its read. The kernel's part is one event: it completes any read in
  flight with any result. A completion that arrives while `io_uring_poll` runs goes to the end of
  the queue and is visited by the same loop, so it may as well have arrived before the call; the
  call is one step.
Trusted boundary: liburing: `io_uring_for_each_cqe` visits every unconsumed completion from the
  head, and `io_uring_cq_advance` consumes the oldest ones
Main exports: Cqe, Ring, tunBufInit, ioUringPoll, RingEvent, ringStep
Open obligations: none
-/
import ConfigEnv.Lib.Run

namespace ConfigEnv.TunVpn

/-- `TUN_BATCH_SIZE`. -/
abbrev tunBatchSize : Nat := 32
/-- `EAGAIN` on Linux. -/
abbrev eagain : Int := 11

/-- A completion queue entry. `serial` counts the completions of the run; the program does not see
it. -/
structure Cqe where
  serial : Nat
  userData : Nat
  res : Int
deriving DecidableEq, Repr

/-- The ring: reads prepared and not submitted, reads in flight, and the completions not consumed.
`made` and `handed` record the completions of the run and the calls of `send_to_gateway`. -/
structure Ring where
  sqes : List Nat
  inFlight : List Nat
  cq : List Cqe
  made : List Cqe
  handed : List Cqe
deriving DecidableEq, Repr

/-- Why a step cannot be taken: `io_uring_get_sqe` returned the null pointer that the program writes
through; `io_uring_wait_cqe` is still waiting; there is no such read. -/
inductive RingStop where
  | nullSqe
  | waits
  | noRead
deriving DecidableEq, Repr

/-- `io_uring_get_sqe` and `io_uring_prep_read` for buffer `idx`. -/
def Ring.prepRead (r : Ring) (idx : Nat) : Except RingStop Ring :=
  if r.sqes.length < tunBatchSize then .ok { r with sqes := r.sqes ++ [idx] } else .error .nullSqe

/-- `io_uring_submit`. -/
def Ring.submit (r : Ring) : Ring := { r with sqes := [], inFlight := r.inFlight ++ r.sqes }

/-- `io_uring_cq_advance(n)`. -/
def Ring.cqAdvance (r : Ring) (n : Nat) : Ring := { r with cq := r.cq.drop n }

/-- `tun_buf_init`. -/
def tunBufInit : Except RingStop Ring :=
  ((List.range tunBatchSize).foldlM Ring.prepRead
    { sqes := [], inFlight := [], cq := [], made := [], handed := [] }).map Ring.submit

/-- The body of `io_uring_for_each_cqe`, with `count`. -/
def visitCqe (s : Ring × Nat) (cqe : Cqe) : Except RingStop (Ring × Nat) :=
  if cqe.res = -eagain then .ok s
  else if cqe.res > 0 then
    match Ring.prepRead { s.1 with handed := s.1.handed ++ [cqe] } cqe.userData with
    | .ok r => .ok (r, s.2 + 1)
    | .error e => .error e
  else .ok s

/-- `io_uring_poll(rs, fd)`; `ret` is what `io_uring_wait_cqe` returns. -/
def ioUringPoll (r : Ring) (ret : Int) : Except RingStop Ring :=
  if ret < 0 then .ok r
  else if r.cq = [] then .error .waits
  else
    match r.cq.foldlM visitCqe (r, 0) with
    | .ok (r', count) => .ok (if count > 0 then r'.submit.cqAdvance count else r')
    | .error e => .error e

/-- The kernel completes a read, or the program calls `io_uring_poll`. -/
inductive RingEvent where
  | complete (k : Nat) (res : Int)
  | poll (ret : Int)
deriving DecidableEq, Repr

/-- The read at place `k` of those in flight completes. -/
def Ring.complete (r : Ring) (k : Nat) (res : Int) : Except RingStop Ring :=
  match r.inFlight[k]? with
  | some idx =>
      let cqe : Cqe := { serial := r.made.length, userData := idx, res := res }
      .ok { r with inFlight := r.inFlight.eraseIdx k, cq := r.cq ++ [cqe], made := r.made ++ [cqe] }
  | none => .error .noRead

/-- An event at the ring. -/
def ringStep (r : Ring) (e : RingEvent) : Except RingStop (Ring × Unit) :=
  (match e with
    | .complete k res => r.complete k res
    | .poll ret => ioUringPoll r ret).map fun r' => (r', ())

/-- The runs of the ring. -/
abbrev ringMachine : Machine.Step Ring RingEvent Unit := Machine.ofExcept ringStep

end ConfigEnv.TunVpn
