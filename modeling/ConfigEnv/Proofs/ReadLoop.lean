/-
Module: ConfigEnv.Proofs.ReadLoop
Layer: Proofs
Purpose: Conservation of the buffers of the io_uring read loop. A call of `io_uring_poll` serves the
  positive completions and then consumes that many entries from the front of the queue, so it keeps
  the buffers together exactly when no positive completion waits behind another kind. The invariant
  says where every buffer and every positive completion is.
Trusted boundary: none
Main exports: Ring.BuffersConserved, Ring.HandedOnce, Ring.Accounted, ioUringPoll_eq,
  io_uring_conserves_iff
Open obligations: none
-/
import ConfigEnv.Lib.Queue
import ConfigEnv.TunVpn.IoUring

namespace ConfigEnv.TunVpn

open Machine

/-! ### What is conserved -/

/-- A completion that carries a packet. -/
def Cqe.good (cqe : Cqe) : Bool := cqe.res > 0

/-- Every buffer index occurs exactly once among the reads in flight and the completions that were
not consumed. -/
def Ring.BuffersConserved (r : Ring) : Prop :=
  (r.inFlight ++ r.cq.map Cqe.userData).Perm (List.range tunBatchSize)

/-- Every completion so far with a positive result was handed to `send_to_gateway` exactly once. -/
def Ring.HandedOnce (r : Ring) : Prop :=
  ∀ cqe ∈ r.made, cqe.res > 0 → r.handed.count cqe = 1

/-- Where every buffer and every positive completion is between two calls. -/
structure Ring.Accounted (r : Ring) : Prop where
  sqes_nil : r.sqes = []
  buffers : r.BuffersConserved
  handed : (r.handed ++ r.cq.filter Cqe.good).Perm (r.made.filter Cqe.good)
  serials : r.made.map Cqe.serial = List.range r.made.length

/-- No positive completion waits behind one that is not. -/
def PollOrderly (r : Ring) : RingEvent → Prop
  | .complete _ _ => True
  | .poll ret => 0 ≤ ret → Queue.Leading Cqe.good r.cq

/-! ### The start -/

/-- The ring after `tun_buf_init`: all the reads are in flight. -/
def ringStart : Ring :=
  { sqes := [], inFlight := List.range tunBatchSize, cq := [], made := [], handed := [] }

/-- The ring has room for every read of `tun_buf_init`. -/
theorem tunBufInit_eq : tunBufInit = .ok ringStart := by
  decide

theorem ringStart_accounted : ringStart.Accounted where
  sqes_nil := rfl
  buffers := by
    unfold Ring.BuffersConserved
    simp [ringStart]
  handed := .refl _
  serials := rfl

/-! ### Consequences of the invariant -/

namespace Ring.Accounted

variable {r : Ring}

/-- No two completions carry the same buffer. -/
theorem labels_nodup (h : r.Accounted) : (r.cq.map Cqe.userData).Nodup := by
  have hall : (r.inFlight ++ r.cq.map Cqe.userData).Nodup :=
    h.buffers.nodup_iff.2 List.nodup_range
  exact (List.nodup_append.1 hall).2.1

/-- There are never more positive completions than submission entries. -/
theorem countP_le (h : r.Accounted) : r.cq.countP Cqe.good ≤ tunBatchSize := by
  have hlen := h.buffers.length_eq
  rw [List.length_append, List.length_map, List.length_range] at hlen
  have hle : r.cq.countP Cqe.good ≤ r.cq.length := List.countP_le_length
  omega

/-- With no positive completion waiting, each was handed over once. -/
theorem handedOnce (h : r.Accounted) (hnone : r.cq.filter Cqe.good = []) : r.HandedOnce := by
  intro cqe hmem hpos
  have hperm := h.handed
  rw [hnone, List.append_nil] at hperm
  have hnodup : (r.made.filter Cqe.good).Nodup := by
    refine List.Nodup.filter _ (List.Nodup.of_map Cqe.serial ?_)
    rw [h.serials]
    exact List.nodup_range
  have hgood : cqe ∈ r.made.filter Cqe.good :=
    List.mem_filter.2 ⟨hmem, decide_eq_true hpos⟩
  rw [hperm.count_eq]
  exact List.count_eq_one_of_mem hnodup hgood

end Ring.Accounted

/-! ### One completion -/

/-- A completion keeps every buffer accounted for. -/
theorem complete_accounted {r r' : Ring} {k : Nat} {res : Int} (h : r.Accounted)
    (hstep : r.complete k res = .ok r') : r'.Accounted := by
  unfold Ring.complete at hstep
  cases hidx : r.inFlight[k]? with
  | none =>
      rw [hidx] at hstep
      cases hstep
  | some idx =>
      rw [hidx] at hstep
      cases hstep
      obtain ⟨hk, hget⟩ := List.getElem?_eq_some_iff.1 hidx
      constructor
      · exact h.sqes_nil
      · -- the index moves from the reads in flight to the end of the queue
        have hmove : (r.inFlight.eraseIdx k ++ (r.cq.map Cqe.userData ++ [idx])).Perm
            (r.inFlight ++ r.cq.map Cqe.userData) := by
          have herase := List.getElem_cons_eraseIdx_perm hk
          rw [hget] at herase
          rw [← List.append_assoc]
          exact List.perm_append_comm.trans (herase.append_right _)
        unfold Ring.BuffersConserved
        rw [List.map_append]
        exact hmove.trans h.buffers
      · rw [List.filter_append, List.filter_append, ← List.append_assoc]
        exact h.handed.append_right _
      · rw [List.map_append, h.serials, List.length_append, List.length_singleton,
          List.range_succ]
        rfl

/-! ### One call of `io_uring_poll` -/

/-- What the loop over the completions makes of the ring and of `count`. -/
theorem foldlM_visitCqe (l : List Cqe) (r : Ring) (n : Nat)
    (hroom : r.sqes.length + l.countP Cqe.good ≤ tunBatchSize) :
    l.foldlM visitCqe (r, n) =
      .ok ({ r with
              sqes := r.sqes ++ (l.filter Cqe.good).map Cqe.userData
              handed := r.handed ++ l.filter Cqe.good },
        n + l.countP Cqe.good) := by
  induction l generalizing r n with
  | nil =>
      simp only [List.foldlM_nil, List.filter_nil, List.map_nil, List.append_nil, List.countP_nil,
        Nat.add_zero]
      rfl
  | cons cqe l ih =>
      by_cases hgood : cqe.good = true
      · -- a packet: its buffer is prepared again
        have hpos : cqe.res > 0 := of_decide_eq_true hgood
        have hagain : ¬ cqe.res = -eagain := by
          intro h
          rw [h] at hpos
          exact absurd hpos (by decide)
        rw [List.countP_cons_of_pos hgood] at hroom ⊢
        have hlt : r.sqes.length < tunBatchSize := by omega
        have hvisit : visitCqe (r, n) cqe =
            .ok ({ r with sqes := r.sqes ++ [cqe.userData], handed := r.handed ++ [cqe] },
              n + 1) := by
          unfold visitCqe Ring.prepRead
          simp only [if_neg hagain, if_pos hpos, if_pos hlt]
        rw [List.foldlM_cons, hvisit]
        refine (ih _ (n + 1) ?_).trans ?_
        · rw [List.length_append, List.length_singleton]
          omega
        · simp only [List.filter_cons_of_pos hgood, List.map_cons, List.append_assoc,
            List.singleton_append, Nat.add_assoc, Nat.add_comm 1]
      · -- no packet: nothing happens but a message
        have hpos : ¬ cqe.res > 0 := fun h => hgood (decide_eq_true h)
        have hvisit : visitCqe (r, n) cqe = .ok (r, n) := by
          unfold visitCqe
          rw [if_neg hpos, ite_self]
        rw [List.countP_cons_of_neg hgood] at hroom ⊢
        rw [List.foldlM_cons, hvisit, List.filter_cons_of_neg hgood]
        exact ih r n hroom

/-- A call that gets past `io_uring_wait_cqe`: the good completions are handed over and their
buffers submitted, and as many entries leave the front of the queue. -/
theorem ioUringPoll_eq {r : Ring} {ret : Int} (hsqes : r.sqes = [])
    (hroom : r.cq.countP Cqe.good ≤ tunBatchSize) (hret : 0 ≤ ret) (hcq : r.cq ≠ []) :
    ioUringPoll r ret = .ok
      { sqes := []
        inFlight := r.inFlight ++ (r.cq.filter Cqe.good).map Cqe.userData
        cq := r.cq.drop (r.cq.countP Cqe.good)
        made := r.made
        handed := r.handed ++ r.cq.filter Cqe.good } := by
  have hfold := foldlM_visitCqe r.cq r 0 (by rw [hsqes]; simpa using hroom)
  unfold ioUringPoll
  rw [if_neg (Int.not_lt.2 hret), if_neg hcq, hfold]
  simp only [Nat.zero_add, hsqes, List.nil_append]
  by_cases hcount : r.cq.countP Cqe.good > 0
  · rw [if_pos hcount]
    rfl
  · have hzero : r.cq.countP Cqe.good = 0 := by omega
    have hnone : r.cq.filter Cqe.good = [] :=
      List.filter_eq_nil_iff.2 (List.countP_eq_zero.1 hzero)
    simp [hzero, hnone]

/-- A call on an orderly queue keeps the account, and leaves nothing waiting. -/
theorem poll_accounted {r r' : Ring} {ret : Int} (h : r.Accounted) (hret : 0 ≤ ret)
    (horder : Queue.Leading Cqe.good r.cq) (hstep : ioUringPoll r ret = .ok r') :
    r'.Accounted ∧ r'.cq.filter Cqe.good = [] := by
  have hcq : r.cq ≠ [] := by
    intro hnil
    unfold ioUringPoll at hstep
    rw [if_neg (Int.not_lt.2 hret), if_pos hnil] at hstep
    cases hstep
  rw [ioUringPoll_eq h.sqes_nil h.countP_le hret hcq] at hstep
  cases hstep
  have hleft := Queue.filter_drop_eq_nil horder
  refine ⟨?_, hleft⟩
  constructor
  · rfl
  · -- the buffers served are the buffers taken off the queue
    unfold Ring.BuffersConserved
    rw [List.append_assoc, ← Queue.take_eq_filter horder, ← List.map_append, List.take_append_drop]
    exact h.buffers
  · rw [hleft, List.append_nil]
    exact h.handed
  · exact h.serials

/-- If the buffers survive a call, the queue was orderly. -/
theorem orderly_of_poll {r r' : Ring} {ret : Int} (h : r.Accounted) (hret : 0 ≤ ret)
    (hcq : r.cq ≠ []) (hstep : ioUringPoll r ret = .ok r') (hbuffers : r'.BuffersConserved) :
    Queue.Leading Cqe.good r.cq := by
  rw [ioUringPoll_eq h.sqes_nil h.countP_le hret hcq] at hstep
  cases hstep
  apply Queue.leading_of_take_perm h.labels_nodup
  -- both sides leave the same reads in flight and the same rest of the queue
  have hbefore : (r.inFlight ++ ((r.cq.take (r.cq.countP Cqe.good)).map Cqe.userData ++
      (r.cq.drop (r.cq.countP Cqe.good)).map Cqe.userData)).Perm (List.range tunBatchSize) := by
    rw [← List.map_append, List.take_append_drop]
    exact h.buffers
  have hafter : (r.inFlight ++ ((r.cq.filter Cqe.good).map Cqe.userData ++
      (r.cq.drop (r.cq.countP Cqe.good)).map Cqe.userData)).Perm (List.range tunBatchSize) := by
    rw [← List.append_assoc]
    exact hbuffers
  have hsame := (List.perm_append_left_iff _).1 (hafter.trans hbefore.symm)
  exact (List.perm_append_right_iff _).1 hsame

/-! ### Runs -/

theorem ringStep_complete {r r' : Ring} {k : Nat} {res : Int} :
    ringMachine r (.complete k res) () r' ↔ r.complete k res = .ok r' := by
  change (r.complete k res).map (fun q => (q, ())) = .ok (r', ()) ↔ _
  cases r.complete k res <;> simp [Except.map]

theorem ringStep_poll {r r' : Ring} {ret : Int} :
    ringMachine r (.poll ret) () r' ↔ ioUringPoll r ret = .ok r' := by
  change (ioUringPoll r ret).map (fun q => (q, ())) = .ok (r', ()) ↔ _
  cases ioUringPoll r ret <;> simp [Except.map]

/-- One event keeps the account, if a call finds the queue orderly. -/
theorem ringStep_accounted {r r' : Ring} {e : RingEvent} (h : r.Accounted)
    (horder : PollOrderly r e) (hstep : ringMachine r e () r') : r'.Accounted := by
  cases e with
  | complete k res => exact complete_accounted h (ringStep_complete.1 hstep)
  | poll ret =>
      have hpoll := ringStep_poll.1 hstep
      by_cases hret : 0 ≤ ret
      · exact (poll_accounted h hret (horder hret) hpoll).1
      · -- the wait failed, and nothing was touched
        unfold ioUringPoll at hpoll
        rw [if_pos (Int.not_le.1 hret)] at hpoll
        cases hpoll
        exact h

/-- Conversely, a queue that is not orderly loses a buffer in the next call. -/
theorem pollOrderly_of_step {r : Ring} {e : RingEvent} (h : r.Accounted)
    (hbuffers : ∀ r', ringMachine r e () r' → r'.BuffersConserved) : PollOrderly r e := by
  cases e with
  | complete k res => trivial
  | poll ret =>
      intro hret
      by_cases hcq : r.cq = []
      · rw [hcq]
        exact List.Pairwise.nil
      · have hpoll := ioUringPoll_eq h.sqes_nil h.countP_le hret hcq
        exact orderly_of_poll h hret hcq hpoll (hbuffers _ (ringStep_poll.2 hpoll))

/-- The account after a run whose calls all found an orderly queue; after a call every packet was
handed over. -/
theorem accounted_of_orderly {events post : List RingEvent} {t : List (RingEvent × Unit)} {r : Ring}
    (horder : Always ringMachine ringStart events PollOrderly)
    (hevents : events = t.map Prod.fst ++ post) (hrun : Run ringMachine ringStart t r) :
    r.Accounted ∧ ∀ ret, 0 ≤ ret → (t.map Prod.fst).getLast? = some (.poll ret) → r.HandedOnce := by
  apply Run.historyInvariant (fun t r => r.Accounted ∧ ∀ ret, 0 ≤ ret →
    (t.map Prod.fst).getLast? = some (.poll ret) → r.HandedOnce) hrun
  · exact ⟨ringStart_accounted, by simp⟩
  · intro pre e post' q q' ht hpre hq hstep
    have he : PollOrderly q e.1 := by
      apply horder (pre.map Prod.fst) e.1 (post'.map Prod.fst ++ post) pre q ?_ rfl hpre
      rw [hevents, ht, List.map_append, List.map_cons, List.append_assoc, List.cons_append]
    refine ⟨ringStep_accounted hq.1 he hstep, ?_⟩
    intro ret hret hlast
    rw [List.map_append, List.map_singleton, List.getLast?_concat] at hlast
    have hpoll : e.1 = .poll ret := Option.some.inj hlast
    rw [hpoll] at he hstep
    obtain ⟨hacc, hnone⟩ := poll_accounted hq.1 hret (he hret) (ringStep_poll.1 hstep)
    exact hacc.handedOnce hnone

/-- The account after a run that has lost no buffer so far. -/
theorem accounted_of_conserved {events post : List RingEvent} {t : List (RingEvent × Unit)}
    {r : Ring}
    (hconserved : ∀ pre post t r, events = pre ++ post → t.map Prod.fst = pre →
      Run ringMachine ringStart t r → r.BuffersConserved)
    (hevents : events = t.map Prod.fst ++ post) (hrun : Run ringMachine ringStart t r) :
    r.Accounted := by
  apply Run.historyInvariant (fun _ r => r.Accounted) hrun ringStart_accounted
  intro pre e post' q q' ht hpre hq hstep
  apply ringStep_accounted hq ?_ hstep
  apply pollOrderly_of_step hq
  intro q'' hstep'
  apply hconserved (pre.map Prod.fst ++ [e.1]) (post'.map Prod.fst ++ post) (pre ++ [(e.1, ())])
    q'' ?_ ?_ (hpre.snoc hstep')
  · simp [hevents, ht]
  · simp

/-- After `tun_buf_init`, in the runs in which every call finds the positive completions in front,
and in no others, no buffer is lost or doubled, and after a call every packet was handed over
exactly once. -/
theorem io_uring_conserves_iff (events : List RingEvent) :
    ∃ start, tunBufInit = .ok start ∧
      (Always ringMachine start events PollOrderly ↔
        ∀ pre post t r, events = pre ++ post → t.map Prod.fst = pre → Run ringMachine start t r →
          r.BuffersConserved ∧
            ∀ ret, 0 ≤ ret → pre.getLast? = some (.poll ret) → r.HandedOnce) := by
  refine ⟨ringStart, tunBufInit_eq, ?_, ?_⟩
  · intro horder pre post t r hevents ht hrun
    subst ht
    obtain ⟨hacc, hhanded⟩ := accounted_of_orderly horder hevents hrun
    exact ⟨hacc.buffers, hhanded⟩
  · intro h pre e post t r hevents ht hrun
    subst ht
    have hconserved : ∀ pre post t r, events = pre ++ post → t.map Prod.fst = pre →
        Run ringMachine ringStart t r → r.BuffersConserved := by
      intro pre post t r hsplit hin hrun'
      exact (h pre post t r hsplit hin hrun').1
    apply pollOrderly_of_step (accounted_of_conserved hconserved hevents hrun)
    intro r' hstep
    apply hconserved (t.map Prod.fst ++ [e]) post (t ++ [(e, ())]) r' ?_ ?_ (hrun.snoc hstep)
    · simp [hevents]
    · simp

/-- Buffer 0 would block, then buffer 1 brings 60 bytes, and both are there at the first call. -/
def blockedFirst : List RingEvent := [.complete 0 (-eagain), .complete 0 60, .poll 0]

/-- Buffer 0 is lost, and buffer 1 is read into while its completion waits to be handed over again.
-/
theorem io_uring_loses_buffer :
    ∃ start, tunBufInit = .ok start ∧ ∃ t r, t.map Prod.fst = blockedFirst ∧
      Run ringMachine start t r ∧ ¬ r.BuffersConserved := by
  let cqe0 : Cqe := { serial := 0, userData := 0, res := -eagain }
  let cqe1 : Cqe := { serial := 1, userData := 1, res := 60 }
  let r1 : Ring := { ringStart with inFlight := List.range' 1 31, cq := [cqe0], made := [cqe0] }
  let r2 : Ring :=
    { ringStart with inFlight := List.range' 2 30, cq := [cqe0, cqe1], made := [cqe0, cqe1] }
  let r3 : Ring :=
    { r2 with inFlight := List.range' 2 30 ++ [1], cq := [cqe1], handed := [cqe1] }
  refine ⟨ringStart, tunBufInit_eq, blockedFirst.map fun e => (e, ()), r3, rfl, ?_, ?_⟩
  · have h1 : ringMachine ringStart (.complete 0 (-eagain)) () r1 := ringStep_complete.2 rfl
    have h2 : ringMachine r1 (.complete 0 60) () r2 := ringStep_complete.2 rfl
    have h3 : ringMachine r2 (.poll 0) () r3 := ringStep_poll.2 rfl
    exact .cons h1 (.cons h2 (.cons h3 (.nil r3)))
  · intro h
    exact absurd (h.mem_iff.2 (List.mem_range.2 (by decide : 0 < tunBatchSize))) (by decide)

end ConfigEnv.TunVpn
