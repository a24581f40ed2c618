/-
Module: ConfigEnv.Proofs.Delivery
Layer: Proofs
Purpose: How often the client writes a packet. Between two datagrams of one packet only datagrams of
  that packet reach its place in the filter or its slot, because arrivals are displaced by less than
  the tables are long. So once a packet was written its place stays taken (at most once, when the
  datagrams reach the tables in order), and from the first of its datagrams on nothing else disturbs
  it (delivery, if that first one found the place free of its number). The datagrams are those of an
  honest stream; what the server sends is one by `Ustun.sendToGateway_honest`.
Trusted boundary: none
Main exports: DedupState.Knows, FecSlot.Finished, Uctun.Arrival.MayPrecede, ordered_at_most_once,
  Uctun.Arrival.FreshAt, client_delivers_fresh
Open obligations: none
-/
import ConfigEnv.Lib.Window
import ConfigEnv.Spec.Arrivals

namespace ConfigEnv.TunVpn

open Machine

/-! ### The duplicate filter -/

section Filter

variable {st : DedupState} {ts since : Int} {seq seq' : u16}

/-- The filter has the number in its place, and has been updated at `since` or later. -/
structure DedupState.Knows (st : DedupState) (seq : u16) (since : Int) : Prop where
  seq_eq : st.seqMap (slotIdx seq) = seq
  since_le : since ≤ st.lastUpdate

/-- A number that passed is known from then on. -/
theorem isDuplicate_knows (h : (isDuplicate st ts seq).2 = false) :
    (isDuplicate st ts seq).1.Knows seq ts := by
  by_cases hseq : (st.expire ts).seqMap (slotIdx seq) = seq
  · rw [isDuplicate_stale hseq] at h
    cases h
  · rw [isDuplicate_fresh hseq]
    constructor
    · exact Function.update_self _ _ _
    · exact le_refl ts

/-- Within the timeout a known number does not pass. -/
theorem DedupState.Knows.duplicate (h : st.Knows seq since) (hts : ts ≤ since + connTimeout) :
    isDuplicate st ts seq = (st, true) := by
  have hsince := h.since_le
  have hrecent : st.expire ts = st := DedupState.expire_recent (by omega)
  rw [isDuplicate_stale (by rw [hrecent]; exact h.seq_eq), hrecent]

/-- Within the timeout the filter goes on knowing a number, whatever else passes through other
places. -/
theorem DedupState.Knows.step (h : st.Knows seq since) (hle : since ≤ ts)
    (hts : ts ≤ since + connTimeout) (hplace : slotIdx seq' = slotIdx seq → seq' = seq) :
    (isDuplicate st ts seq').1.Knows seq since := by
  have hsince := h.since_le
  have hrecent : st.expire ts = st := DedupState.expire_recent (by omega)
  by_cases hstale : (st.expire ts).seqMap (slotIdx seq') = seq'
  · rw [isDuplicate_stale hstale, hrecent]
    exact h
  · rw [isDuplicate_fresh hstale]
    have hother : slotIdx seq ≠ slotIdx seq' := by
      intro heq
      have hsame := hplace heq.symm
      rw [hrecent, hsame] at hstale
      exact hstale h.seq_eq
    constructor
    · have hkept := Function.update_of_ne hother seq' (st.expire ts).seqMap
      rw [hrecent] at hkept ⊢
      exact hkept.trans h.seq_eq
    · exact hle

end Filter

/-! ### The slots -/

/-- The slot is done with the number. -/
structure FecSlot.Finished (slot : FecSlot) (seq : u16) : Prop where
  seq_eq : slot.seq = seq
  cnt_le : fecRsK ≤ slot.cnt.toNat

/-- A slot that has just given a packet is done with its number. -/
theorem finished_of_done {slot : FecSlot} {ts : Int} {seq : u16} {pkg : TunPkg} {codec : FecCodec}
    {r : FecRecv} (hr : fecRecvDone slot ts seq pkg codec = .ok r) (hdone : r.done = true) :
    r.slot.Finished seq := by
  constructor
  · exact fecRecvDone_seq hr
  · exact fecRecvDone_done_cnt hr hdone

/-- A finished slot gives nothing and stays finished. -/
theorem FecSlot.Finished.ignores {slot : FecSlot} {ts : Int} {seq : u16} {pkg : TunPkg}
    {codec : FecCodec} {r : FecRecv} (h : slot.Finished seq)
    (hr : fecRecvDone slot ts seq pkg codec = .ok r) : r.done = false ∧ r.slot = slot := by
  rw [late_shard h.seq_eq h.cnt_le] at hr
  cases hr
  exact ⟨rfl, rfl⟩

namespace Uctun

variable {S : Stream} {st st' : RecvState} {a : Arrival} {out : Option TunWrite} {n : Nat}

/-! ### One arrival -/

/-- An honest datagram is handed to `deliver` as it was received. -/
theorem step_deliver (ha : a.Honest S) (hstep : streamMachine S st a out st') :
    deliver st a.worker a.ts (S.received a.dg a.old)
      ((recvmmsg a.old (S.bytes a.dg)).msgLen - pktOffset) = .ok (st', out) :=
  (streamStep_eq ha st).symm.trans hstep

/-- A whole packet that is written is known afterwards. -/
theorem knows_of_write (ha : a.Honest S) (hpart : a.dg.part = none)
    (hstep : streamMachine S st a out st') (hout : out.isSome = true) :
    st'.dedup.Knows (seqOf a.dg.num) a.ts := by
  have hdeliver := step_deliver ha hstep
  rw [deliver_whole S hpart] at hdeliver
  cases hdeliver
  apply isDuplicate_knows
  cases hdup : (isDuplicate st.dedup a.ts (seqOf a.dg.num)).2 with
  | false => rfl
  | true =>
      rw [hdup] at hout
      cases hout

/-- Whole packets that share the remainder of a known one only when they are it keep it known. -/
theorem keeps_known {since : Int} (ha : a.Honest S) (hstep : streamMachine S st a out st')
    (hsame : a.dg.part = none → a.dg.num % seqMapSize = n % seqMapSize → a.dg.num = n)
    (hclock : a.dg.part = none → since ≤ a.ts ∧ a.ts ≤ since + connTimeout)
    (h : st.dedup.Knows (seqOf n) since) : st'.dedup.Knows (seqOf n) since := by
  have hdeliver := step_deliver ha hstep
  cases hpart : a.dg.part with
  | none =>
      rw [deliver_whole S hpart] at hdeliver
      cases hdeliver
      obtain ⟨hle, hts⟩ := hclock hpart
      apply h.step hle hts
      intro hplace
      rw [hsame hpart (slotIdx_eq_iff.1 hplace)]
  | some i =>
      obtain ⟨r, -, rfl, -⟩ := (deliver_shard S hpart).1 hdeliver
      exact h

/-- A known packet is not written. -/
theorem silent_of_known {since : Int} (ha : a.Honest S) (hpart : a.dg.part = none)
    (hstep : streamMachine S st a out st') (h : st.dedup.Knows (seqOf a.dg.num) since)
    (hts : a.ts ≤ since + connTimeout) : out = none := by
  have hdeliver := step_deliver ha hstep
  rw [deliver_whole S hpart, h.duplicate hts] at hdeliver
  cases hdeliver
  rfl

/-- A shard that makes the client write finishes its slot. -/
theorem finished_of_write {i : Fin shardCount} (ha : a.Honest S) (hpart : a.dg.part = some i)
    (hstep : streamMachine S st a out st') (hout : out.isSome = true) :
    (st'.fec (slotIdx (seqOf a.dg.num))).Finished (seqOf a.dg.num) := by
  obtain ⟨r, hr, rfl, rfl⟩ := (deliver_shard S hpart).1 (step_deliver ha hstep)
  rw [afterShard_same]
  apply finished_of_done hr
  unfold FecRecv.write at hout
  cases hdone : r.done with
  | true => rfl
  | false =>
      rw [hdone] at hout
      cases hout

/-- Shards that share the remainder of a finished packet only when they are of it keep it finished.
-/
theorem keeps_finished (ha : a.Honest S) (hstep : streamMachine S st a out st')
    (hsame : a.dg.part.isSome = true → a.dg.num % seqMapSize = n % seqMapSize → a.dg.num = n)
    (h : (st.fec (slotIdx (seqOf n))).Finished (seqOf n)) :
    (st'.fec (slotIdx (seqOf n))).Finished (seqOf n) := by
  have hdeliver := step_deliver ha hstep
  cases hpart : a.dg.part with
  | none =>
      rw [deliver_whole S hpart] at hdeliver
      cases hdeliver
      exact h
  | some i =>
      by_cases hmod : a.dg.num % seqMapSize = n % seqMapSize
      · obtain rfl := hsame (by rw [hpart]; rfl) hmod
        obtain ⟨r, hr, rfl, -⟩ := (deliver_shard S hpart).1 hdeliver
        rw [afterShard_same, (h.ignores hr).2]
        exact h
      · rw [deliver_fec_other S hmod hdeliver]
        exact h

/-- A finished packet is not written. -/
theorem silent_of_finished {i : Fin shardCount} (ha : a.Honest S) (hpart : a.dg.part = some i)
    (hstep : streamMachine S st a out st')
    (h : (st.fec (slotIdx (seqOf a.dg.num))).Finished (seqOf a.dg.num)) : out = none := by
  obtain ⟨r, hr, -, rfl⟩ := (deliver_shard S hpart).1 (step_deliver ha hstep)
  unfold FecRecv.write
  rw [(h.ignores hr).1]
  rfl

/-! ### At most once -/

/-- Within the timeout a run keeps a packet known. -/
theorem run_keeps_known {mid : List (Arrival × Option TunWrite)} {since : Int}
    (hmid : Run (streamMachine S) st mid st') (hhonest : ∀ e ∈ mid, e.1.Honest S)
    (hsame : ∀ e ∈ mid, e.1.dg.part = none → e.1.dg.num % seqMapSize = n % seqMapSize →
      e.1.dg.num = n)
    (hclock : ∀ e ∈ mid, e.1.dg.part = none → since ≤ e.1.ts ∧ e.1.ts ≤ since + connTimeout)
    (h : st.dedup.Knows (seqOf n) since) : st'.dedup.Knows (seqOf n) since := by
  apply hmid.invariant (fun q => q.dedup.Knows (seqOf n) since) h
  intro e he q q' hq hstep
  exact keeps_known (hhonest e he) hstep (hsame e he) (hclock e he) hq

/-- A run keeps a packet finished. -/
theorem run_keeps_finished {mid : List (Arrival × Option TunWrite)}
    (hmid : Run (streamMachine S) st mid st') (hhonest : ∀ e ∈ mid, e.1.Honest S)
    (hsame : ∀ e ∈ mid, e.1.dg.part.isSome = true → e.1.dg.num % seqMapSize = n % seqMapSize →
      e.1.dg.num = n)
    (h : (st.fec (slotIdx (seqOf n))).Finished (seqOf n)) :
    (st'.fec (slotIdx (seqOf n))).Finished (seqOf n) := by
  apply hmid.invariant (fun q => (q.fec (slotIdx (seqOf n))).Finished (seqOf n)) h
  intro e he q q' hq hstep
  exact keeps_finished (hhonest e he) hstep (hsame e he) hq

/-- The two kinds of datagrams of one packet are not mixed. -/
theorem part_isSome_eq {x y : Arrival} (hx : x.Honest S) (hy : y.Honest S)
    (hnum : y.dg.num = x.dg.num) : y.dg.part.isSome = x.dg.part.isSome := by
  rw [hy.1, hx.1, hnum]

/-- One datagram may reach the tables before another one. Datagrams of different kinds meet in no
table; of one kind those that share a place go by the numbers of their packets, and those that share
the clock of the filter by their readings of it. -/
structure Arrival.MayPrecede (a b : Arrival) : Prop where
  num_le : a.dg.part.isSome = b.dg.part.isSome →
    a.dg.num % seqMapSize = b.dg.num % seqMapSize → a.dg.num ≤ b.dg.num
  ts_le : a.dg.part = none → b.dg.part = none → a.ts ≤ b.ts

/-- A datagram between two of one packet that are of its kind, and share its place, is of it too. -/
theorem Arrival.MayPrecede.between {x z y : Arrival} (hxz : x.MayPrecede z) (hzy : z.MayPrecede y)
    (hnum : y.dg.num = x.dg.num) (hkind : z.dg.part.isSome = x.dg.part.isSome)
    (hkind' : y.dg.part.isSome = x.dg.part.isSome)
    (hmod : z.dg.num % seqMapSize = x.dg.num % seqMapSize) : z.dg.num = x.dg.num := by
  apply Nat.le_antisymm
  · rw [← hnum]
    apply hzy.num_le (hkind.trans hkind'.symm)
    rw [hmod, hnum]
  · exact hxz.num_le hkind.symm hmod.symm

/-- Each packet number causes at most one write, when the datagrams reach the tables in order. -/
theorem ordered_at_most_once (S : Stream) {t : List (Arrival × Option TunWrite)}
    (hrun : Run (streamMachine S) st t st') (hhonest : ∀ e ∈ t, e.1.Honest S)
    (hordered : t.Pairwise fun e e' => e.1.MayPrecede e'.1)
    (hspread : ∀ e ∈ t, ∀ e' ∈ t, e.1.dg.num = e'.1.dg.num → e'.1.ts ≤ e.1.ts + connTimeout)
    (n : Nat) :
    (t.filter fun e => decide (e.1.dg.num = n) && e.2.isSome).length ≤ 1 := by
  -- of two writes for one packet, the second would have had to pass a place that is taken
  apply length_filter_le_one
  intro pre x mid y post ht hx hy
  subst ht
  rw [Bool.and_eq_true, decide_eq_true_eq] at hx hy
  obtain ⟨hxn, houtx⟩ := hx
  obtain ⟨hyn, houty⟩ := hy
  subst hxn
  -- the states around the two writes
  obtain ⟨s1, s2, -, hstepx, hrest⟩ := hrun.middle
  obtain ⟨s3, s4, hmid, hstepy, -⟩ := hrest.middle
  have hhx : x.1.Honest S := hhonest x (by simp)
  have hhy : y.1.Honest S := hhonest y (by simp)
  have hhmid : ∀ e ∈ mid, e.1.Honest S := fun e he => hhonest e (by simp [he])
  have hmode := part_isSome_eq hhx hhy hyn
  -- what lies between them
  rw [List.pairwise_append, List.pairwise_cons, List.pairwise_append] at hordered
  obtain ⟨-, ⟨hafter, -, -, hbefore⟩, -⟩ := hordered
  have hxz : ∀ e ∈ mid, x.1.MayPrecede e.1 := fun e he => hafter e (by simp [he])
  have hzy : ∀ e ∈ mid, e.1.MayPrecede y.1 := fun e he => hbefore e he y List.mem_cons_self
  cases hpart : x.1.dg.part with
  | none =>
      have hparty : y.1.dg.part = none := by
        rw [hpart] at hmode
        exact Option.not_isSome_iff_eq_none.1 (by simp [hmode])
      have hsame : ∀ e ∈ mid, e.1.dg.part = none →
          e.1.dg.num % seqMapSize = x.1.dg.num % seqMapSize → e.1.dg.num = x.1.dg.num := by
        intro e he hparte hmod
        apply (hxz e he).between (hzy e he) hyn ?_ hmode hmod
        rw [hparte, hpart]
      -- the clock between the two, and the spread of the copies
      have hy180 : y.1.ts ≤ x.1.ts + connTimeout :=
        hspread x (by simp) y (by simp) hyn.symm
      have hmidclock : ∀ e ∈ mid, e.1.dg.part = none →
          x.1.ts ≤ e.1.ts ∧ e.1.ts ≤ x.1.ts + connTimeout := by
        intro e he hparte
        constructor
        · exact (hxz e he).ts_le hpart hparte
        · exact ((hzy e he).ts_le hparte hparty).trans hy180
      have hknown := run_keeps_known hmid hhmid hsame hmidclock
        (knows_of_write hhx hpart hstepx houtx)
      rw [← hyn] at hknown
      have hsilent : y.2 = none := silent_of_known hhy hparty hstepy hknown hy180
      rw [hsilent] at houty
      cases houty
  | some i =>
      obtain ⟨j, hparty⟩ : ∃ j, y.1.dg.part = some j := by
        rw [hpart] at hmode
        exact Option.isSome_iff_exists.1 hmode
      have hsame : ∀ e ∈ mid, e.1.dg.part.isSome = true →
          e.1.dg.num % seqMapSize = x.1.dg.num % seqMapSize → e.1.dg.num = x.1.dg.num := by
        intro e he hparte hmod
        apply (hxz e he).between (hzy e he) hyn ?_ hmode hmod
        rw [hparte, hpart]
        rfl
      have hfinished := run_keeps_finished hmid hhmid hsame
        (finished_of_write hhx hpart hstepx houtx)
      rw [← hyn] at hfinished
      have hsilent : y.2 = none := silent_of_finished hhy hparty hstepy hfinished
      rw [hsilent] at houty
      cases houty

/-! ### Delivery -/

/-- The place of the packet in the filter, after expiry, or its slot, does not hold its number yet.
-/
def Arrival.FreshAt (a : Arrival) (st : RecvState) : Prop :=
  match a.dg.part with
  | none => (st.dedup.expire a.ts).seqMap (slotIdx (seqOf a.dg.num)) ≠ seqOf a.dg.num
  | some _ => (st.fec (slotIdx (seqOf a.dg.num))).seq ≠ seqOf a.dg.num

/-- A fresh whole packet is written. -/
theorem write_of_fresh (ha : a.Honest S) (hpart : a.dg.part = none) (hfresh : a.FreshAt st)
    (hstep : streamMachine S st a out st') :
    ∃ w, out = some w ∧ w.bytes = (S a.dg.num).data.take (bufferSize - pktOffset) := by
  have hdeliver := step_deliver ha hstep
  simp only [Arrival.FreshAt, hpart] at hfresh
  rw [deliver_whole S hpart, isDuplicate_fresh hfresh] at hdeliver
  cases hdeliver
  exact ⟨_, rfl, received_whole S a.dg a.old hpart⟩

/-- A whole packet that is not fresh is dropped. -/
theorem silent_of_not_fresh (ha : a.Honest S) (hpart : a.dg.part = none) (hstale : ¬ a.FreshAt st)
    (hstep : streamMachine S st a out st') : out = none := by
  have hdeliver := step_deliver ha hstep
  simp only [Arrival.FreshAt, hpart, ne_eq, not_not] at hstale
  rw [deliver_whole S hpart, isDuplicate_stale hstale] at hdeliver
  cases hdeliver
  rfl

/-- The slot holds one shard of the packet, part `i`. -/
structure HoldsOne (st : RecvState) (p : Packet) (n : Nat) (i : Fin shardCount) : Prop where
  collects : (st.fec (slotIdx (seqOf n))).Collects (seqOf n) p.plen p.rows
  cnt_eq : (st.fec (slotIdx (seqOf n))).cnt = 1#8
  mark_eq : (st.fec (slotIdx (seqOf n))).marks i = 0#8

/-- The first shard of a packet at a slot with another number. -/
theorem holdsOne_of_fresh {i : Fin shardCount} (ha : a.Honest S) (hpart : a.dg.part = some i)
    (hfresh : a.FreshAt st) (hstep : streamMachine S st a out st') :
    HoldsOne st' (S a.dg.num) a.dg.num i := by
  simp only [Arrival.FreshAt, hpart] at hfresh
  obtain ⟨r, hr, rfl, -⟩ := (deliver_shard S hpart).1 (step_deliver ha hstep)
  obtain ⟨r', hr', -, hcol, hcnt, hmark⟩ :=
    first_shard hfresh (received_isShard S a.dg a.old hpart) a.ts (st.codec a.worker)
  rw [hr] at hr'
  cases hr'
  constructor
  · rw [afterShard_same]
    exact hcol
  · rw [afterShard_same]
    exact hcnt
  · rw [afterShard_same]
    exact hmark

/-- A run in which nothing of the packet's remainder comes leaves the slot alone. -/
theorem run_keeps_one {mid : List (Arrival × Option TunWrite)} {p : Packet} {i : Fin shardCount}
    (hmid : Run (streamMachine S) st mid st') (hhonest : ∀ e ∈ mid, e.1.Honest S)
    (hother : ∀ e ∈ mid, e.1.dg.num % seqMapSize ≠ n % seqMapSize) (h : HoldsOne st p n i) :
    HoldsOne st' p n i := by
  apply hmid.invariant (fun q => HoldsOne q p n i) h
  intro e he q q' hq hstep
  have hsame := deliver_fec_other S (hother e he) (step_deliver (hhonest e he) hstep)
  constructor
  · rw [hsame]
    exact hq.collects
  · rw [hsame]
    exact hq.cnt_eq
  · rw [hsame]
    exact hq.mark_eq

/-- Another shard of the packet completes it, and it is written as it was sent. -/
theorem write_of_second {i j : Fin shardCount} (ha : a.Honest S) (hpart : a.dg.part = some j)
    (hij : j ≠ i) (hone : HoldsOne st (S a.dg.num) a.dg.num i)
    (hstep : streamMachine S st a out st') :
    ∃ w, out = some w ∧ w.bytes = (S a.dg.num).data := by
  obtain ⟨r, hr, -, rfl⟩ := (deliver_shard S hpart).1 (step_deliver ha hstep)
  obtain ⟨r', hr', hdone, hcomplete⟩ :=
    second_shard (codewordRows_codeword _) hone.collects hone.cnt_eq hone.mark_eq hij
      (received_isShard S a.dg a.old hpart) a.ts (st.codec a.worker)
  rw [hr] at hr'
  cases hr'
  unfold FecRecv.write
  rw [if_pos hdone]
  exact ⟨_, rfl, complete_bytes hcomplete⟩

/-- Enough of the packet arrives: a copy of it, or two of its shards. -/
def Arrived (S : Stream) (t : List (Arrival × Option TunWrite)) (n : Nat) : Prop :=
  ((S n).fec = false ∧ ∃ e ∈ t, e.1.dg.num = n) ∨
    ((S n).fec = true ∧ ∃ e ∈ t, ∃ e' ∈ t, e.1.dg.num = n ∧ e'.1.dg.num = n ∧
      e.1.dg.part ≠ e'.1.dg.part)

/-- The packet is written; without FEC, as much of it as the receive buffer holds. -/
def Written (S : Stream) (t : List (Arrival × Option TunWrite)) (n : Nat) : Prop :=
  ∃ e ∈ t, e.1.dg.num = n ∧ ∃ w, e.2 = some w ∧
    w.bytes = if (S n).fec then (S n).data else (S n).data.take (bufferSize - pktOffset)

/-- No shard is duplicated by the network. -/
def ShardsOnce (t : List (Arrival × Option TunWrite)) : Prop :=
  t.Pairwise fun e e' => e.1.dg.num = e'.1.dg.num → e.1.dg.part.isSome = true →
    e.1.dg.part ≠ e'.1.dg.part

/-- Some datagram of a packet that arrives is the first one. -/
theorem Arrived.first {t : List (Arrival × Option TunWrite)} (h : Arrived S t n) :
    ∃ pre x rest, t = pre ++ x :: rest ∧ x.1.dg.num = n ∧ ∀ e ∈ pre, e.1.dg.num ≠ n := by
  have hsome : ∃ e ∈ t, e.1.dg.num = n := by
    rcases h with ⟨-, e, he, hen⟩ | ⟨-, e, he, -, -, hen, -⟩
    · exact ⟨e, he, hen⟩
    · exact ⟨e, he, hen⟩
  obtain ⟨y, hy, hyn⟩ := hsome
  exact Window.exists_first (p := fun e : Arrival × Option TunWrite => e.1.dg.num = n) hy hyn

/-- With FEC another one comes after it. -/
theorem Arrived.second {pre rest : List (Arrival × Option TunWrite)} {x : Arrival × Option TunWrite}
    (h : Arrived S (pre ++ x :: rest) n) (hmode : (S n).fec = true)
    (hfirst : ∀ e ∈ pre, e.1.dg.num ≠ n) :
    ∃ mid y post, rest = mid ++ y :: post ∧ y.1.dg.num = n ∧ ∀ e ∈ mid, e.1.dg.num ≠ n := by
  have hlater : ∀ e ∈ pre ++ x :: rest, e.1.dg.num = n → e = x ∨ e ∈ rest := by
    intro e he hen
    rcases List.mem_append.1 he with he | he
    · exact absurd hen (hfirst e he)
    · exact List.mem_cons.1 he
  have hsome : ∃ e ∈ rest, e.1.dg.num = n := by
    rcases h with ⟨hno, -⟩ | ⟨-, e, he, e', he', hen, hen', hne⟩
    · rw [hmode] at hno
      cases hno
    · rcases hlater e he hen with rfl | hmem
      · rcases hlater e' he' hen' with rfl | hmem'
        · exact absurd rfl hne
        · exact ⟨e', hmem', hen'⟩
      · exact ⟨e, hmem, hen⟩
  obtain ⟨z, hz, hzn⟩ := hsome
  exact Window.exists_first (p := fun e : Arrival × Option TunWrite => e.1.dg.num = n) hz hzn

/-- Two shards of one packet in a run without duplicates are two different ones. -/
theorem ShardsOnce.parts_ne {pre mid post : List (Arrival × Option TunWrite)}
    {x y : Arrival × Option TunWrite} (h : ShardsOnce (pre ++ x :: (mid ++ y :: post)))
    (hnum : y.1.dg.num = x.1.dg.num) (hpart : x.1.dg.part.isSome = true) :
    x.1.dg.part ≠ y.1.dg.part := by
  unfold ShardsOnce at h
  rw [List.pairwise_append, List.pairwise_cons] at h
  obtain ⟨-, ⟨hx, -⟩, -⟩ := h
  exact hx y (by simp) hnum.symm hpart

/-- A packet that arrives, and whose first datagram finds its place free of its number, is written.
-/
theorem client_delivers_fresh (S : Stream) (ts : Int) (t : List (Arrival × Option TunWrite))
    (st : RecvState) (hrun : Run (streamMachine S) (start ts) t st)
    (hhonest : ∀ e ∈ t, e.1.Honest S)
    (hwindow : Window.Displaced seqMapSize (t.map fun e => e.1.dg.num)) (honce : ShardsOnce t)
    (n : Nat)
    (hfresh : ∀ pre e post q, t = pre ++ e :: post → Run (streamMachine S) (start ts) pre q →
      e.1.dg.num = n → (∀ e' ∈ pre, e'.1.dg.num ≠ n) → e.1.FreshAt q)
    (harrived : Arrived S t n) : Written S t n := by
  obtain ⟨pre, x, rest, ht, hxn, hfirst⟩ := harrived.first
  subst ht
  subst hxn
  obtain ⟨s1, s2, hpre, hstepx, hrest⟩ := hrun.middle
  have hhx : x.1.Honest S := hhonest x (by simp)
  have hfx : x.1.FreshAt s1 := hfresh pre x rest s1 rfl hpre rfl hfirst
  cases hpart : x.1.dg.part with
  | none =>
      have hmode : (S x.1.dg.num).fec = false := by
        rw [← hhx.1, hpart]
        rfl
      obtain ⟨w, hw, hbytes⟩ := write_of_fresh hhx hpart hfx hstepx
      refine ⟨x, by simp, rfl, w, hw, ?_⟩
      rw [hbytes]
      simp [hmode]
  | some i =>
      have hmode : (S x.1.dg.num).fec = true := by
        rw [← hhx.1, hpart]
        rfl
      -- the next datagram of the packet, with nothing of its remainder in between
      obtain ⟨mid, y, post, hsplit, hyn, hbetween⟩ := harrived.second hmode hfirst
      subst hsplit
      obtain ⟨s3, s4, hmid, hstepy, -⟩ := hrest.middle
      have hhy : y.1.Honest S := hhonest y (by simp)
      have hhmid : ∀ e ∈ mid, e.1.Honest S := fun e he => hhonest e (by simp [he])
      have hother : ∀ e ∈ mid, e.1.dg.num % seqMapSize ≠ x.1.dg.num % seqMapSize := by
        intro e he hmod
        apply hbetween e he
        exact hwindow.between (f := fun e : Arrival × Option TunWrite => e.1.dg.num) hyn.symm he
          hmod
      have hone := run_keeps_one hmid hhmid hother (holdsOne_of_fresh hhx hpart hfx hstepx)
      -- it is another shard, so it completes the packet
      have hsome := part_isSome_eq hhx hhy hyn
      rw [hpart] at hsome
      obtain ⟨j, hparty⟩ := Option.isSome_iff_exists.1 hsome
      have hij : j ≠ i := by
        intro hji
        apply honce.parts_ne hyn (by simp [hpart])
        rw [hpart, hparty, hji]
      rw [← hyn] at hone
      obtain ⟨w, hw, hbytes⟩ := write_of_second hhy hparty hij hone hstepy
      refine ⟨y, by simp, hyn, w, hw, ?_⟩
      rw [hbytes, hyn, if_pos hmode]

/-- A stream of one-byte packets without FEC. -/
def plainStream : Stream := fun _ =>
  { fec := false, data := [0x45], stale := zeroPayload, spare := PkgHeader.zero
    data_le := by decide, stale_length := length_zeroPayload }

/-- A copy of packet `n` on a path. -/
def plainCopy (n : Nat) (path : Fin udpWorker) : Arrival :=
  { dg := { num := n, part := none, gw := gatewayId, apn := BitVec.ofNat 8 (path.val + 1) }
    worker := path, ts := 0, old := [] }

theorem plainCopy_honest (n : Nat) (path : Fin udpWorker) :
    (plainCopy n path).Honest plainStream := ⟨rfl, rfl⟩

theorem plainCopy_fresh : (plainCopy 0 0).FreshAt (start 0) := by
  intro hheld
  exact absurd hheld (by decide)

/-- One copy of packet 0. -/
theorem client_delivers_first :
    ∃ t st, t.map Prod.fst = [plainCopy 0 0] ∧ Run (streamMachine plainStream) (start 0) t st ∧
      Written plainStream t 0 := by
  obtain ⟨t, st, ht, hrun⟩ := exists_stream_run (S := plainStream) [plainCopy 0 0]
    (by simp [plainCopy_honest]) (start 0)
  obtain ⟨o, rfl⟩ := map_fst_eq_singleton ht
  refine ⟨_, st, ht, hrun, ?_⟩
  refine client_delivers_fresh plainStream 0 _ st hrun ?_ ?_ ?_ 0 ?_ ?_
  · simp [plainCopy_honest]
  · simp [Window.Displaced]
  · simp [ShardsOnce]
  · intro pre e post q hsplit hpre _ _
    obtain ⟨rfl, rfl⟩ : pre = [] ∧ e = (plainCopy 0 0, o) := by
      cases pre with
      | nil => exact ⟨rfl, (List.cons.inj hsplit).1.symm⟩
      | cons e' pre => simp at hsplit
    rw [hpre.nil_inv]
    exact plainCopy_fresh
  · exact .inl ⟨rfl, _, List.mem_singleton_self _, rfl⟩

/-- Packet 43690 carries the number that `memset` fills the filter with: after a start, and after
every idle clear, its copies are dropped as duplicates. -/
theorem client_drops_filling_number :
    ∃ t st, t.map Prod.fst = [plainCopy 43690 0] ∧ Run (streamMachine plainStream) (start 0) t st ∧
      (∀ e ∈ t, e.1.Honest plainStream) ∧
      Window.Displaced seqMapSize (t.map fun e => e.1.dg.num) ∧ ShardsOnce t ∧
      Arrived plainStream t 43690 ∧ ¬ Written plainStream t 43690 := by
  obtain ⟨t, st, ht, hrun⟩ := exists_stream_run (S := plainStream) [plainCopy 43690 0]
    (by simp [plainCopy_honest]) (start 0)
  obtain ⟨o, rfl⟩ := map_fst_eq_singleton ht
  obtain ⟨st', hstep, -⟩ := hrun.cons_inv
  have hstale : ¬ (plainCopy 43690 0).FreshAt (start 0) := fun hfresh => hfresh rfl
  have ho : o = none := silent_of_not_fresh (plainCopy_honest 43690 0) rfl hstale hstep
  refine ⟨_, st, ht, hrun, by simp [plainCopy_honest], by simp [Window.Displaced],
    by simp [ShardsOnce], .inl ⟨rfl, _, List.mem_singleton_self _, rfl⟩, ?_⟩
  rintro ⟨e, he, -, w, hw, -⟩
  rw [List.mem_singleton.1 he, ho] at hw
  cases hw

end Uctun

end ConfigEnv.TunVpn
