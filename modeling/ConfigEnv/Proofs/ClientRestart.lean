/-
Module: ConfigEnv.Proofs.ClientRestart
Layer: Proofs
Purpose: A client starts again from number 0 and announces it with its first packet. The server
  resets its duplicate filter at an announcement, unless the last reset was less than three seconds
  ago, and it does so at either copy of the packet. When the threads are orderly and no copy finds
  the limit open again, what they do to the filter after the first datagram is a run of
  `is_duplicate` without resets, and there each packet is written once.
Trusted boundary: none
Main exports: Ustun.Session, Ustun.Filtered, Ustun.WrittenOnce, Ustun.restarted_client_served_once
Open obligations: none
-/
import ConfigEnv.Proofs.ReceiverLoop
import ConfigEnv.Proofs.ServerRestart

namespace ConfigEnv.TunVpn.Ustun

open Machine

/-! ### One datagram at the filter -/

section Filter

variable {st st' : DedupState} {rx : Rx} {out : Option TunWrite} {seq : u16} {since : Int}

/-- What one datagram does to the filter, and what is written. -/
theorem filter_eq (h : filterMachine st rx out st') :
    st' = (isDuplicate st rx.clock.recv rx.pkg.hdr.seq).1 ∧
      out = if (isDuplicate st rx.clock.recv rx.pkg.hdr.seq).2 then none
        else some { pbuf := rx.pkg.payload, plen := rx.msg.msgLen - pktOffset } := by
  cases h
  exact ⟨rfl, rfl⟩

/-- It is written when its place is free by the time the filter looks. -/
theorem filter_writes (h : filterMachine st rx out st')
    (hfree : (st.expire rx.clock.recv).Free rx.pkg.hdr.seq) : out.isSome = true := by
  rw [(filter_eq h).2, isDuplicate_fresh hfree]
  rfl

/-- A datagram that is written is known from then on. -/
theorem filter_knows (h : filterMachine st rx out st') (hout : out.isSome = true) :
    st'.Knows rx.pkg.hdr.seq rx.clock.recv := by
  obtain ⟨rfl, rfl⟩ := filter_eq h
  apply isDuplicate_knows
  by_contra hdup
  rw [Bool.not_eq_false] at hdup
  rw [hdup] at hout
  cases hout

/-- A datagram that is known and comes in time is not written. -/
theorem filter_silent (h : filterMachine st rx out st') (hknown : st.Knows rx.pkg.hdr.seq since)
    (hts : rx.clock.recv ≤ since + connTimeout) : out = none := by
  rw [(filter_eq h).2, hknown.duplicate hts]
  rfl

end Filter

/-! ### A session at the filter -/

/-- Datagrams with small numbers, in the order of the clock, and the copies of each within the
timeout. -/
structure Filtered (l : List (Rx × Option TunWrite)) : Prop where
  small : ∀ e ∈ l, e.1.pkg.hdr.seq.toNat < seqMapSize
  clock : l.Pairwise fun e e' => e.1.clock.recv ≤ e'.1.clock.recv
  spread : ∀ e ∈ l, ∀ e' ∈ l, e.1.pkg.hdr.seq = e'.1.pkg.hdr.seq →
    e'.1.clock.recv ≤ e.1.clock.recv + connTimeout

section Session

variable {st st' : DedupState} {l : List (Rx × Option TunWrite)} {seq seq' : u16}

theorem seqOf_toNat_eq (seq : u16) : seqOf seq.toNat = seq := by
  simp [seqOf]

/-- Small numbers have places of their own. -/
theorem eq_of_place_eq (h : seq.toNat < seqMapSize) (h' : seq'.toNat < seqMapSize)
    (hplace : slotIdx seq = slotIdx seq') : seq = seq' := by
  rw [← seqOf_toNat_eq seq, ← seqOf_toNat_eq seq'] at hplace ⊢
  rw [eq_of_slotIdx_eq h h' hplace]

/-- A packet that was written is not written again. -/
theorem Filtered.at_most_once (h : Filtered l) (hrun : Run filterMachine st l st') (seq : u16) :
    (l.filter fun e => decide (e.1.pkg.hdr.seq = seq) && e.2.isSome).length ≤ 1 := by
  apply length_filter_le_one
  intro pre x mid y post hl hx hy
  subst hl
  rw [Bool.and_eq_true, decide_eq_true_eq] at hx hy
  obtain ⟨rfl, houtx⟩ := hx
  obtain ⟨hyx, houty⟩ := hy
  obtain ⟨s1, s2, -, hstepx, hrest⟩ := hrun.middle
  obtain ⟨s3, s4, hmid, hstepy, -⟩ := hrest.middle
  -- the clock between the two copies
  have hclock := h.clock
  rw [List.pairwise_append, List.pairwise_cons, List.pairwise_append] at hclock
  obtain ⟨-, ⟨hafter, -, -, hbefore⟩, -⟩ := hclock
  have hlate : y.1.clock.recv ≤ x.1.clock.recv + connTimeout :=
    h.spread x (by simp) y (by simp) hyx.symm
  -- nothing that comes between them shares the place
  have hknown : s3.Knows x.1.pkg.hdr.seq x.1.clock.recv := by
    apply hmid.invariant (fun q => q.Knows x.1.pkg.hdr.seq x.1.clock.recv)
    · exact filter_knows hstepx houtx
    · intro e he q q' hq hstep
      rw [(filter_eq hstep).1]
      apply hq.step (hafter e (by simp [he]))
      · exact (hbefore e he y List.mem_cons_self).trans hlate
      · exact eq_of_place_eq (h.small e (by simp [he])) (h.small x (by simp))
  rw [← hyx] at hknown
  rw [filter_silent hstepy hknown hlate] at houty
  cases houty

/-- Other packets leave a free number free. -/
theorem run_free (hrun : Run filterMachine st l st') (hfill : seq ≠ seqMapFill)
    (hother : ∀ e ∈ l, e.1.pkg.hdr.seq ≠ seq) (hfree : st.Free seq) : st'.Free seq := by
  apply hrun.invariant (fun q => q.Free seq) hfree
  intro e he q q' hq hstep
  rw [(filter_eq hstep).1]
  exact DedupState.Free.step (hq.expire hfill _) (hother e he)

/-- A packet whose number is free when the first datagram comes is written. -/
theorem run_writes (hrun : Run filterMachine st l st') (hfill : seq ≠ seqMapFill)
    (hfree : ∀ e ∈ l.head?, (st.expire e.1.clock.recv).Free seq)
    (hcopy : ∃ e ∈ l, e.1.pkg.hdr.seq = seq) :
    ∃ e ∈ l, e.1.pkg.hdr.seq = seq ∧ e.2.isSome = true := by
  obtain ⟨y, hy, hyseq⟩ := hcopy
  obtain ⟨pre, x, post, rfl, rfl, hpre⟩ :=
    Window.exists_first (p := fun e : Rx × Option TunWrite => e.1.pkg.hdr.seq = seq) hy hyseq
  obtain ⟨s1, s2, hbefore, hstepx, -⟩ := hrun.middle
  refine ⟨x, by simp, rfl, filter_writes hstepx ?_⟩
  cases pre with
  | nil =>
      obtain rfl := hbefore.nil_inv
      exact hfree x rfl
  | cons e pre =>
      obtain ⟨s0, hstep, hrest⟩ := hbefore.cons_inv
      have hfirst : s0.Free x.1.pkg.hdr.seq := by
        rw [(filter_eq hstep).1]
        exact DedupState.Free.step (hfree e rfl) (hpre e List.mem_cons_self)
      have hlater : s1.Free x.1.pkg.hdr.seq :=
        run_free hrest hfill (fun e' he' => hpre e' (List.mem_cons_of_mem e he')) hfirst
      exact hlater.expire hfill _

end Session

/-! ### The new session -/

/-- The datagrams of a session of whole packets, fewer than the filter has places, with the copies
of a packet within the timeout.  Packet 0 asks for a reset, and no other packet does. -/
structure Session (S : Stream) (rxs : List Rx) : Prop where
  sent : ∀ rx ∈ rxs, ∃ a : Arrival,
    rx = a.rx S ∧ a.dg.part = none ∧ a.dg.num < seqMapSize ∧ (rx.starts = true ↔ a.dg.num = 0)
  spread : ∀ rx ∈ rxs, ∀ rx' ∈ rxs, rx.pkg.hdr.seq = rx'.pkg.hdr.seq →
    rx'.clock.recv ≤ rx.clock.recv + connTimeout

/-- The packet is written once, as much of it as the receive buffer holds. -/
def WrittenOnce (S : Stream) (l : List (Rx × Option TunWrite)) (n : Nat) : Prop :=
  (l.filter fun e => decide (e.1.pkg.hdr.seq = seqOf n) && e.2.isSome).length = 1 ∧
    ∀ e ∈ l, e.1.pkg.hdr.seq = seqOf n → ∀ w, e.2 = some w →
      w.bytes = (S n).data.take (bufferSize - pktOffset)

section Restarted

variable {S : Stream} {rxs : List Rx} {rx : Rx}
  {s : Threads Receivers (Fin udpWorker) LoopCall} {t : List (Act LoopCall × Option TunWrite)}

theorem hdr_of_sent (S : Stream) (a : Arrival) : (a.rx S).pkg.hdr = S.header a.dg :=
  received_header S a.dg a.old

theorem Session.small (h : Session S rxs) (hrx : rx ∈ rxs) :
    rx.pkg.hdr.seq.toNat < seqMapSize := by
  obtain ⟨a, rfl, -, hnum, -⟩ := h.sent rx hrx
  rw [hdr_of_sent, show (S.header a.dg).seq = seqOf a.dg.num from rfl, seqOf_toNat hnum]
  exact hnum

theorem Session.fecRs (h : Session S rxs) (hrx : rx ∈ rxs) : rx.pkg.hdr.fecRs = 0 := by
  obtain ⟨a, rfl, hpart, -, -⟩ := h.sent rx hrx
  rw [hdr_of_sent]
  simp [Stream.header, hpart]

/-- What is written of a packet. -/
theorem Session.bytes {st st' : DedupState} {n : Nat} {w : TunWrite} (h : Session S rxs)
    (hrx : rx ∈ rxs) (hn : n < seqMapSize) (hseq : rx.pkg.hdr.seq = seqOf n)
    (hstep : filterMachine st rx (some w) st') :
    w.bytes = (S n).data.take (bufferSize - pktOffset) := by
  obtain ⟨a, rfl, hpart, hnum, -⟩ := h.sent rx hrx
  have hsame : a.dg.num = n := by
    rw [hdr_of_sent, show (S.header a.dg).seq = seqOf a.dg.num from rfl] at hseq
    by_contra hne
    exact seqOf_ne hnum hn hne hseq
  subst hsame
  have hout := (filter_eq hstep).2
  split at hout
  · cases hout
  · cases hout
    exact received_whole S a.dg a.old hpart

/-- What the threads have handled has arrived. -/
theorem arrived_of_delivered {st : ResetState} (hrun : Run receiverLoop (.start (.start st)) t s)
    {e : Rx × Option TunWrite} (he : e ∈ delivered (acted t)) : e.1 ∈ arrived (acted t) := by
  rcases has_or_arrived hrun he with ⟨w, hhas⟩ | harrived
  · cases hhas
  · exact harrived

/-- Orderly threads handle the datagrams of a session in the order of the clock. -/
theorem Session.filtered {st : ResetState} (h : Session S (arrived (acted t)))
    (hrun : Run receiverLoop (.start (.start st)) t s)
    (hclock : (taken t).Pairwise LoopCall.NotAfter)
    (horderly : Always receiverLoop (.start (.start st)) (t.map Prod.fst) Orderly) :
    Filtered (delivered (acted t)) := by
  have hin : ∀ e ∈ delivered (acted t), e.1 ∈ arrived (acted t) := fun e he =>
    arrived_of_delivered hrun he
  constructor
  · intro e he
    exact h.small (hin e he)
  · have hheld : ∀ w j,
        (Threads.start (.start st) : Threads Receivers (Fin udpWorker) LoopCall).held w = some j →
          ∀ i ∈ taken t, j.NotAfter i := by
      intro w j hj
      cases hj
    have hacted := acted_pairwise hrun hheld hclock (horderly.imp fun _ _ hstep => hstep.1)
    unfold delivered
    rw [List.pairwise_filterMap]
    apply hacted.imp
    rintro ⟨call, out⟩ ⟨call', out'⟩ hcalls e he e' he'
    cases call with
    | deliver rx =>
        cases call' with
        | deliver rx' =>
            cases he
            cases he'
            exact hcalls rfl rfl
        | arrive rx' => cases he'
        | reset w => cases he'
    | arrive rx => cases he
    | reset w => cases he
  · intro e he e' he'
    exact h.spread e.1 (hin e he) e'.1 (hin e' he')

/-- A client starts again. If its announcement finds the rate limit open, or the filter without the
numbers that are handled, and no later copy of it finds the limit open again, then each packet of
the session of which a copy is handled is written once. The threads are orderly: none of them
handles a datagram while the other one is in a reset. -/
theorem restarted_client_served_once (S : Stream) (st : ResetState) (x : Rx)
    (t : List (Act LoopCall × Option TunWrite)) (s : Threads Receivers (Fin udpWorker) LoopCall)
    (hrun : Run receiverLoop (.start (.start st)) ((.act (.arrive x), none) :: t) s)
    (hsession : Session S (x :: arrived (acted t))) (hfirst : x.starts = true)
    (hclock : (taken t).Pairwise LoopCall.NotAfter)
    (horderly : Always receiverLoop (.start (.start st)) (.act (.arrive x) :: t.map Prod.fst)
      Orderly)
    (hready : x.clock.init - st.lastTs > 3 ∨
      ∀ e ∈ (delivered (acted t)).head?, ∀ e' ∈ delivered (acted t),
        (st.recv.dedup.expire e.1.clock.recv).Free e'.1.pkg.hdr.seq)
    (hquiet : ∀ rx ∈ arrived (acted t), rx.starts = true →
      rx.clock.init - (st.after x).lastTs ≤ 3)
    (n : Nat) (hn : n < seqMapSize)
    (hcopy : ∃ e ∈ delivered (acted t), e.1.pkg.hdr.seq = seqOf n) :
    WrittenOnce S (delivered (acted t)) n := by
  have hfiltered : Filtered (delivered (acted t)) :=
    Session.filtered (t := (.act (.arrive x), none) :: t) hsession hrun hclock horderly
  have hin : ∀ e ∈ delivered (acted t), e.1 ∈ x :: arrived (acted t) := fun e he =>
    arrived_of_delivered hrun he
  have hfill := seqOf_ne_fill hn
  -- what the threads do to the filter
  obtain ⟨s1, hstep, hrest⟩ := hrun.cons_inv
  have htracks : Tracks (st.after x).lastTs (st.after x).recv.dedup s1.state := by
    cases hstep with
    | act howner _ _ => cases howner
    | direct _ hloop => exact tracks_first hloop
  obtain ⟨dedup, hfilter⟩ := run_delivered hrest (horderly.tail hstep) hquiet
    (fun e he => hsession.fecRs (hin e he)) htracks
  -- the number is free when the first datagram comes there
  have hfree : ∀ e ∈ (delivered (acted t)).head?,
      ((st.after x).recv.dedup.expire e.1.clock.recv).Free (seqOf n) := by
    intro e he
    unfold ResetState.after
    by_cases hopen : x.starts = true ∧ x.clock.init - st.lastTs > 3
    · rw [if_pos hopen, foldl_resetStores]
      exact (DedupState.free_cleared hfill x.clock.init).expire hfill e.1.clock.recv
    · rw [if_neg hopen]
      obtain ⟨y, hy, hyn⟩ := hcopy
      rw [← hyn]
      exact hready.resolve_left (fun hlimit => hopen ⟨hfirst, hlimit⟩) e he y hy
  obtain ⟨y, hy, hyn, hout⟩ := run_writes hfilter hfill hfree hcopy
  constructor
  · apply Nat.le_antisymm (hfiltered.at_most_once hfilter (seqOf n))
    apply List.length_pos_of_mem (a := y)
    rw [List.mem_filter, Bool.and_eq_true, decide_eq_true_eq]
    exact ⟨hy, hyn, hout⟩
  · intro e he hen w hw
    obtain ⟨pre, post, hl⟩ := List.append_of_mem he
    rw [hl] at hfilter
    obtain ⟨q1, q2, -, hstepe, -⟩ := hfilter.middle
    rw [hw] at hstepe
    exact hsession.bytes (hin e he) hn hen hstepe

end Restarted

/-- A copy of packet 0 at `ts`, with the announcement that the client starts. -/
def announcement (ts : Int) : Arrival :=
  { dg := { num := 0, part := none, gw := gatewayId ||| gatewayStart, apn := 1 }
    worker := 0, clock := { init := ts, gateway := ts, conn := ts, recv := ts }
    allocGateway := true, allocConn := true, addr := { addr := 1, port := 1 }, old := [] }

/-- The message that it becomes. -/
abbrev announced (ts : Int) : Rx := (announcement ts).rx Uctun.plainStream

theorem announced_starts (ts : Int) : (announced ts).starts = true := by
  have hgw : (Uctun.plainStream.header (announcement ts).dg).gw = gatewayId ||| gatewayStart := rfl
  unfold Rx.starts
  rw [hdr_of_sent, hgw]
  decide

theorem announced_seq (ts : Int) : (announced ts).pkg.hdr.seq = seqOf 0 := by
  rw [hdr_of_sent]
  rfl

/-- A server whose last reset was at its start, at time 10. -/
abbrev runningServer : Server := start false (fun _ => 0) 10

/-- Announcements alone are a session. -/
theorem announcements_session {rxs : List Rx} (ts : Int) (h : ∀ rx ∈ rxs, rx = announced ts) :
    Session Uctun.plainStream rxs where
  sent rx hrx := by
    refine ⟨announcement ts, h rx hrx, rfl, Nat.zero_lt_succ 8191, ?_⟩
    rw [h rx hrx, announced_starts]
    exact ⟨fun _ => rfl, fun _ => rfl⟩
  spread rx hrx rx' hrx' _ := by
    rw [h rx hrx, h rx' hrx']
    exact Int.le_add_of_nonneg_right (by decide)

/-- An announcement that a thread handles by itself. -/
theorem handles_announcement {s : Threads Receivers (Fin udpWorker) LoopCall} (sv : Server)
    (ts : Int) (hstate : s.state.st = sv.resetState) (hidle : s.state.stage 0 = .idle)
    (hfree : s.held 0 = none) :
    ∃ sv' out t, receiverStep sv (announced ts) = .ok (sv', out) ∧
      Run receiverLoop s ((.act (.arrive (announced ts)), none) :: t)
        { state := { st := sv'.resetState, stage := s.state.stage }, held := s.held } ∧
      taken t = [.deliver (announced ts)] ∧ arrived (acted t) = [] ∧
      delivered (acted t) = [(announced ts, out)] ∧ ∀ e ∈ t, ByThread 0 e.1 := by
  obtain ⟨sv', out, hstep⟩ := streamStep_ok Uctun.plainStream sv (announcement ts)
  have haccepts : accepts (announced ts).msg = true :=
    accepts_received (announcement ts).old (Uctun.plainStream.header (announcement ts).dg) _ rfl
  obtain ⟨t, ht⟩ := handled_alone hstate hidle hfree haccepts hstep
  exact ⟨sv', out, t, hstep, ht⟩

/-- Both copies of packet 0, one after the other, ten seconds after the last reset. -/
theorem restarted_client_served_first :
    ∃ t s, arrived (acted t) = [announced 20] ∧
      Run receiverLoop (.start (.start runningServer.resetState))
        ((.act (.arrive (announced 20)), none) :: t) s ∧
      WrittenOnce Uctun.plainStream (delivered (acted t)) 0 := by
  obtain ⟨sv1, out1, t1, -, hrun1, htaken1, harrived1, hdelivered1, halone1⟩ :=
    handles_announcement (s := .start (.start runningServer.resetState)) runningServer 20
      rfl rfl rfl
  obtain ⟨sv2, out2, t2, -, hrun2, htaken2, harrived2, hdelivered2, halone2⟩ :=
    handles_announcement (s := .start (.start sv1.resetState)) sv1 20 rfl rfl rfl
  have hrun := hrun1.append hrun2
  let t := t1 ++ (.act (.arrive (announced 20)), none) :: t2
  have harrived : arrived (acted t) = [announced 20] := by
    simp [t, harrived1, harrived2]
  have hdelivered : delivered (acted t) = [(announced 20, out1), (announced 20, out2)] := by
    simp [t, hdelivered1, hdelivered2]
  have htaken : taken t = [.deliver (announced 20), .deliver (announced 20)] := by
    simp [t, htaken1, htaken2]
  have hbythread : ∀ a ∈ .act (.arrive (announced 20)) :: t.map Prod.fst, ByThread 0 a := by
    intro a ha
    simp only [t, List.map_append, List.map_cons, List.mem_cons, List.mem_append,
      List.mem_map] at ha
    rcases ha with rfl | ⟨e, he, rfl⟩ | rfl | ⟨e, he, rfl⟩
    · exact ⟨_, .inl rfl, rfl⟩
    · exact halone1 e he
    · exact ⟨_, .inl rfl, rfl⟩
    · exact halone2 e he
  have hlast : (runningServer.resetState.after (announced 20)).lastTs = 20 := by
    have hopen : (announced 20).starts = true ∧
        (announced 20).clock.init - runningServer.resetState.lastTs > 3 :=
      ⟨announced_starts 20, by decide⟩
    rw [ResetState.after, if_pos hopen, foldl_resetStores]
    rfl
  refine ⟨t, _, harrived, hrun, restarted_client_served_once Uctun.plainStream _ (announced 20) t _
    hrun ?_ (announced_starts 20) ?_ (orderly_alone hbythread) (.inl (by decide)) ?_ 0
    (Nat.zero_lt_succ 8191) ⟨(announced 20, out1), ?_, announced_seq 20⟩⟩
  · rw [harrived]
    exact announcements_session 20 (by simp)
  · rw [htaken]
    simp [LoopCall.NotAfter]
  · intro rx hrx _
    rw [harrived] at hrx
    rw [List.mem_singleton.1 hrx, hlast]
    decide
  · rw [hdelivered]
    exact List.mem_cons_self

/-- An announcement within three seconds of the last reset goes to the filter as it is. -/
theorem announcement_filtered {sv sv' : Server} {ts : Int} {out : Option TunWrite}
    (hstep : receiverStep sv (announced ts) = .ok (sv', out)) (hclosed : ts - sv.lastTs ≤ 3) :
    filterMachine sv.recv.dedup (announced ts) out sv'.recv.dedup ∧ sv'.lastTs = sv.lastTs := by
  have haccepts : accepts (announced ts).msg = true :=
    accepts_received (announcement ts).old (Uctun.plainStream.header (announcement ts).dg) _ rfl
  obtain ⟨recv, hdeliver, rfl⟩ := (receiverStep_accepted haccepts).1 hstep
  have hsame : (sv.learn (announced ts)).resetState = sv.resetState := by
    rw [learn_resetState, ResetState.after, if_neg]
    exact fun hopen => absurd hclosed (not_le.2 hopen.2)
  have hrecv : (sv.learn (announced ts)).recv = sv.recv := congrArg ResetState.recv hsame
  have hsession : Session Uctun.plainStream [announced ts] := announcements_session ts (by simp)
  have hfec : (announced ts).pkg.hdr.fecRs = 0 := hsession.fecRs List.mem_cons_self
  rw [hrecv, deliver_filter hfec] at hdeliver
  cases hdeliver
  exact ⟨rfl, congrArg ResetState.lastTs hsame⟩

/-- A client that starts again two seconds after the last reset is not heard: its packet 0 is taken
for the one of the session before. -/
theorem restarted_client_not_served :
    ∃ told s t s', Run receiverLoop (.start (.start runningServer.resetState)) told s ∧
      Session Uctun.plainStream (arrived (acted told)) ∧ (∀ w, s.state.stage w = .idle) ∧
      Run receiverLoop s t s' ∧ Session Uctun.plainStream (arrived (acted t)) ∧
      (∃ e ∈ delivered (acted t), e.1 = announced 12) ∧
      ¬ WrittenOnce Uctun.plainStream (delivered (acted t)) 0 := by
  obtain ⟨sv1, out1, t1, hstep1, hrun1, -, harrived1, -, -⟩ :=
    handles_announcement (s := .start (.start runningServer.resetState)) runningServer 11
      rfl rfl rfl
  obtain ⟨sv2, out2, t2, hstep2, hrun2, -, harrived2, hdelivered2, -⟩ :=
    handles_announcement (s := .start (.start sv1.resetState)) sv1 12 rfl rfl rfl
  -- neither announcement finds the rate limit open
  obtain ⟨hfilter1, hlast⟩ := announcement_filtered hstep1 (by decide)
  obtain ⟨hfilter2, -⟩ := announcement_filtered hstep2 (by rw [hlast]; decide)
  -- so the first session leaves packet 0 known, and the second one finds it
  have hfree : (runningServer.recv.dedup.expire 11).Free (announced 11).pkg.hdr.seq := by
    rw [announced_seq]
    intro hheld
    exact absurd hheld (by decide)
  have hknown := filter_knows hfilter1 (filter_writes hfilter1 hfree)
  rw [announced_seq, ← announced_seq 12] at hknown
  have hsilent : out2 = none := filter_silent hfilter2 hknown (by decide)
  refine ⟨_, _, _, _, hrun1, ?_, fun _ => rfl, hrun2, ?_, ?_, ?_⟩
  · simp only [acted_act, arrived_arrive, harrived1]
    exact announcements_session 11 (by simp)
  · simp only [acted_act, arrived_arrive, harrived2]
    exact announcements_session 12 (by simp)
  · simp only [acted_act, delivered_arrive, hdelivered2]
    exact ⟨_, List.mem_cons_self, rfl⟩
  · simp only [acted_act, delivered_arrive, hdelivered2]
    rintro ⟨hlen, -⟩
    simp [hsilent] at hlen

end ConfigEnv.TunVpn.Ustun
