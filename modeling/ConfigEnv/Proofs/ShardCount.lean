/-
Module: ConfigEnv.Proofs.ShardCount
Layer: Proofs
Purpose: When a slot reports a packet as complete. The slot counts datagrams and the decoder looks
  at the marks, so the two agree as long as the first two datagrams carry different shards. A shard
  that comes twice in a row at the start fills the count, the decoder finds one row, and whatever
  comes later is ignored.
Trusted boundary: none
Main exports: SeqCall, seqStep, CountsDistinct, CountsDistinct.once, SecondIsNew, shards_counted_iff
Open obligations: none
-/
import ConfigEnv.Lib.Run
import ConfigEnv.Lib.Window
import ConfigEnv.Proofs.ShardBounds
import Mathlib.Data.Finset.Card

namespace ConfigEnv.TunVpn

open Machine

/-! ### Datagrams of one number -/

/-- A call of `fec_recv_done`: the clock, the datagram, and the codec of the worker. -/
structure SeqCall where
  ts : Int
  pkg : TunPkg
  codec : FecCodec

/-- The shard that the datagram carries. -/
def SeqCall.idx (c : SeqCall) : BitVec 3 := c.pkg.hdr.fecIdx

/-- The slot of number `seq` after a call, and what the call returns. -/
def seqStep (seq : u16) (slot : FecSlot) (c : SeqCall) : Except Fault (FecSlot × Bool) :=
  match fecRecvDone slot c.ts seq c.pkg c.codec with
  | .error fault => .error fault
  | .ok r => .ok (r.slot, r.done)

abbrev seqMachine (seq : u16) : Step FecSlot SeqCall Bool := ofExcept (seqStep seq)

theorem seqStep_ok {seq : u16} {slot : FecSlot} {c : SeqCall} {r : FecRecv}
    (hr : fecRecvDone slot c.ts seq c.pkg c.codec = .ok r) :
    seqStep seq slot c = .ok (r.slot, r.done) := by
  unfold seqStep
  rw [hr]

/-- How many different shards the calls have brought. -/
def distinct (t : List (SeqCall × Bool)) : Nat := (t.map fun e => e.1.idx).toFinset.card

/-- A call returns true exactly when its datagram brings the number of different shards to
`FEC_RS_K`. -/
def CountsDistinct (t : List (SeqCall × Bool)) : Prop :=
  ∀ pre e post, t = pre ++ e :: post →
    (e.2 = true ↔ distinct pre < fecRsK ∧ fecRsK ≤ distinct (pre ++ [e]))

/-- More calls have no fewer indices. -/
theorem distinct_mono {s t : List (SeqCall × Bool)} (h : s ⊆ t) : distinct s ≤ distinct t := by
  apply Finset.card_le_card
  intro i hi
  rw [List.mem_toFinset] at hi ⊢
  exact List.map_subset _ h hi

/-- So at most one call returns true. -/
theorem CountsDistinct.once {t : List (SeqCall × Bool)} (h : CountsDistinct t) :
    (t.filter Prod.snd).length ≤ 1 := by
  apply length_filter_le_one
  intro pre x mid y post ht hx hy
  have hfull : fecRsK ≤ distinct (pre ++ [x]) := ((h pre x _ ht).1 hx).2
  have hlast : distinct (pre ++ x :: mid) < fecRsK := by
    apply ((h (pre ++ x :: mid) y post ?_).1 hy).1
    rw [ht, List.append_assoc, List.cons_append]
  have hle : distinct (pre ++ [x]) ≤ distinct (pre ++ x :: mid) := by
    apply distinct_mono
    intro e he
    rcases List.mem_append.1 he with he | he
    · exact List.mem_append_left _ he
    · rw [List.mem_singleton.1 he]
      exact List.mem_append_right _ List.mem_cons_self
  omega

/-- The second index is not the first one again, or no other one ever comes. -/
def SecondIsNew (idxs : List (BitVec 3)) : Prop :=
  ∀ i rest, idxs = i :: i :: rest → ∀ k ∈ rest, k = i

/-! ### Counting -/

section Counting

variable {i : BitVec 3} {t : List (SeqCall × Bool)} {e : SeqCall × Bool}

/-- Calls with one index have one index at most. -/
theorem distinct_le_one (h : ∀ e ∈ t, e.1.idx = i) : distinct t ≤ 1 := by
  apply Finset.card_le_one.2
  intro a ha b hb
  rw [List.mem_toFinset] at ha hb
  obtain ⟨x, hx, rfl⟩ := List.mem_map.1 ha
  obtain ⟨y, hy, rfl⟩ := List.mem_map.1 hb
  rw [h x hx, h y hy]

/-- Two different shards among the calls. -/
theorem two_le_distinct (e e' : SeqCall × Bool) (he : e ∈ t) (he' : e' ∈ t)
    (hne : e.1.idx ≠ e'.1.idx) : fecRsK ≤ distinct t := by
  apply Finset.one_lt_card.2
  refine ⟨e.1.idx, ?_, e'.1.idx, ?_, hne⟩
  · rw [List.mem_toFinset]
    exact List.mem_map_of_mem he
  · rw [List.mem_toFinset]
    exact List.mem_map_of_mem he'

end Counting

/-! ### The calls on a slot -/

section Slot

variable {seq : u16} {slot : FecSlot} {c : SeqCall}

/-- A slot that has counted enough returns false from then on. -/
theorem finished_returns {slot' : FecSlot} {t : List (SeqCall × Bool)}
    (hrun : Run (seqMachine seq) slot t slot') (hseq : slot.seq = seq)
    (hcnt : fecRsK ≤ slot.cnt.toNat) : ∀ e ∈ t, e.2 = false := by
  have hall : Always (seqMachine seq) slot (t.map Prod.fst) fun _ _ => True :=
    .of_mem fun _ _ _ => trivial
  refine (Always.invariant (fun q => q.seq = seq ∧ fecRsK ≤ q.cnt.toNat)
    (fun _ done => done = false) hrun hall ⟨hseq, hcnt⟩ ?_).2
  intro q c done q' hq _ hstep
  have hlate := seqStep_ok (late_shard hq.1 hq.2 c.pkg c.ts c.codec)
  have heq : seqStep seq q c = .ok (q', done) := hstep
  rw [hlate] at heq
  cases heq
  exact ⟨hq, rfl⟩

/-- The slot after the first datagram of its number. -/
def FecSlot.started (slot : FecSlot) (seq : u16) (c : SeqCall) (hidx : c.idx.toNat < shardCount) :
    FecSlot :=
  (slot.reset seq c.pkg.hdr.plen).addShard ⟨c.idx.toNat, hidx⟩ c.pkg.payload c.ts

/-- The first datagram is stored under its index. -/
theorem seqStep_first (hseq : slot.seq ≠ seq) (hidx : c.idx.toNat < shardCount) :
    seqStep seq slot c = .ok (slot.started seq c hidx, false) := by
  have hclaim : slot.claim seq c.pkg.hdr.plen = slot.reset seq c.pkg.hdr.plen :=
    FecSlot.claim_of_ne hseq
  have hcnt : (slot.claim seq c.pkg.hdr.plen).cnt = 0#8 := by
    rw [hclaim]
    rfl
  rw [seqStep_ok (fecRecvDone_store hcnt hidx), hclaim]
  rfl

/-- Only its row is there. -/
theorem started_marks {hidx : c.idx.toNat < shardCount} {j : Fin shardCount} :
    (slot.started seq c hidx).marks j = 0#8 ↔ j.val = c.idx.toNat := by
  change Function.update (fun _ => 1#8) ⟨c.idx.toNat, hidx⟩ 0#8 j = 0#8 ↔ _
  by_cases hj : j = ⟨c.idx.toNat, hidx⟩
  · rw [hj, Function.update_self]
    exact ⟨fun _ => rfl, fun _ => rfl⟩
  · rw [Function.update_of_ne hj]
    constructor
    · intro h
      cases h
    · intro h
      exact absurd (Fin.ext h) hj

/-- The second one completes the packet exactly when it is another shard. -/
theorem seqStep_second {c' : SeqCall} (hidx : c.idx.toNat < shardCount)
    (hidx' : c'.idx.toNat < shardCount) :
    ∃ slot', seqStep seq (slot.started seq c hidx) c' = .ok (slot', decide (c'.idx ≠ c.idx)) ∧
      slot'.seq = seq ∧ fecRsK ≤ slot'.cnt.toNat := by
  have hclaim : (slot.started seq c hidx).claim seq c'.pkg.hdr.plen = slot.started seq c hidx :=
    FecSlot.claim_of_eq rfl
  have hcnt : ((slot.started seq c hidx).claim seq c'.pkg.hdr.plen).cnt = 1#8 := by
    rw [hclaim]
    rfl
  have hcall : fecRecvDone (slot.started seq c hidx) c'.ts seq c'.pkg c'.codec = _ :=
    fecRecvDone_decode hcnt hidx'
  rw [hclaim] at hcall
  -- the decoder finds two rows when the first one is another
  have hrows : AtMostOneLost ((slot.started seq c hidx).addShard ⟨c'.idx.toNat, hidx'⟩
      c'.pkg.payload c'.ts).marks ↔ c'.idx ≠ c.idx := by
    apply atMostOneLost_update_iff.trans
    constructor
    · rintro ⟨j, hj, hzero⟩ heq
      rw [started_marks] at hzero
      exact hj (hzero.trans (congrArg BitVec.toNat heq).symm)
    · intro hne
      refine ⟨⟨c.idx.toNat, hidx⟩, ?_, started_marks.2 rfl⟩
      exact fun heq => hne (BitVec.eq_of_toNat_eq heq.symm)
  have hdone : (((slot.started seq c hidx).addShard ⟨c'.idx.toNat, hidx'⟩ c'.pkg.payload
      c'.ts).decode c'.codec).done = decide (c'.idx ≠ c.idx) := by
    by_cases hne : c'.idx ≠ c.idx
    · rw [FecSlot.decode_done (hrows.2 hne), decide_eq_true hne]
    · rw [FecSlot.decode_lost fun h => hne (hrows.1 h), decide_eq_false hne]
  refine ⟨(((slot.started seq c hidx).addShard ⟨c'.idx.toNat, hidx'⟩ c'.pkg.payload
    c'.ts).decode c'.codec).slot, ?_, rfl, ?_⟩
  · rw [seqStep_ok hcall, ← hdone]
    rfl
  · change fecRsK ≤ (1#8 + 1#8).toNat
    decide

/-- What the calls return: the second one decides. -/
theorem run_returns {c' : SeqCall} {o o' : Bool} {t : List (SeqCall × Bool)} {slot' : FecSlot}
    (hrun : Run (seqMachine seq) slot ((c, o) :: (c', o') :: t) slot') (hseq : slot.seq ≠ seq)
    (hidx : c.idx.toNat < shardCount) (hidx' : c'.idx.toNat < shardCount) :
    o = false ∧ o' = decide (c'.idx ≠ c.idx) ∧ ∀ e ∈ t, e.2 = false := by
  obtain ⟨q, hfirst, hrest⟩ := hrun.cons_inv
  have heq : seqStep seq slot c = .ok (q, o) := hfirst
  rw [seqStep_first hseq hidx] at heq
  cases heq
  obtain ⟨q', hsecond, hlate⟩ := hrest.cons_inv
  obtain ⟨q'', hstep, hq, hcnt⟩ := @seqStep_second seq slot c c' hidx hidx'
  have heq' : seqStep seq (slot.started seq c hidx) c' = .ok (q', o') := hsecond
  rw [hstep] at heq'
  cases heq'
  exact ⟨rfl, rfl, finished_returns hlate hq hcnt⟩

end Slot

/-! ### All sequences -/

section Sequences

variable {seq : u16} {slot slot' : FecSlot} {t : List (SeqCall × Bool)} {e e' : SeqCall × Bool}

/-- When the first two shards differ the second call returns true and no other one does. -/
theorem countsDistinct_of_ne (he : e.2 = false) (he' : e'.2 = true) (ht : ∀ x ∈ t, x.2 = false)
    (hne : e'.1.idx ≠ e.1.idx) : CountsDistinct (e :: e' :: t) := by
  intro pre x post hpre
  rcases pre with _ | ⟨y, _ | ⟨y', pre⟩⟩
  · obtain ⟨rfl, -⟩ := List.cons.inj hpre
    have hone : distinct [e] ≤ 1 := distinct_le_one (i := e.1.idx) (by simp)
    rw [he]
    constructor
    · intro h
      cases h
    · intro h
      exact absurd (h.2.trans hone) (by decide)
  · obtain ⟨rfl, hrest⟩ := List.cons.inj hpre
    obtain ⟨rfl, -⟩ := List.cons.inj hrest
    have hone : distinct [e] ≤ 1 := distinct_le_one (i := e.1.idx) (by simp)
    have htwo : fecRsK ≤ distinct ([e] ++ [e']) :=
      two_le_distinct e' e (by simp) (by simp) hne
    exact ⟨fun _ => ⟨Nat.lt_succ_of_le hone, htwo⟩, fun _ => he'⟩
  · obtain ⟨rfl, hrest⟩ := List.cons.inj hpre
    obtain ⟨rfl, rfl⟩ := List.cons.inj hrest
    have htwo : fecRsK ≤ distinct (e :: e' :: pre) :=
      two_le_distinct e' e (by simp) (by simp) hne
    have hx : x.2 = false := ht x (by simp)
    rw [hx]
    constructor
    · intro h
      cases h
    · intro h
      exact absurd h.1 (not_lt.2 htwo)

/-- When they do not, no call returns true, which is right as long as no other shard comes. -/
theorem countsDistinct_iff_of_eq (ht : ∀ x ∈ e :: e' :: t, x.2 = false)
    (heq : e'.1.idx = e.1.idx) :
    CountsDistinct (e :: e' :: t) ↔ ∀ x ∈ t, x.1.idx = e.1.idx := by
  constructor
  · intro h
    by_contra hno
    obtain ⟨x, hx, hne⟩ : ∃ x ∈ t, x.1.idx ≠ e.1.idx := by
      by_contra hall
      exact hno fun x hx => not_not.1 fun hne => hall ⟨x, hx, hne⟩
    obtain ⟨pre, y, post, rfl, hy, hfirst⟩ :=
      Window.exists_first (p := fun x : SeqCall × Bool => x.1.idx ≠ e.1.idx) hx hne
    have hsame : ∀ z ∈ e :: e' :: pre, z.1.idx = e.1.idx := by
      intro z hz
      rcases List.mem_cons.1 hz with rfl | hz
      · rfl
      · rcases List.mem_cons.1 hz with rfl | hz
        · exact heq
        · exact not_not.1 (hfirst z hz)
    have hdone : y.2 = true := by
      apply (h (e :: e' :: pre) y post rfl).2
      refine ⟨Nat.lt_succ_of_le (distinct_le_one hsame), ?_⟩
      exact two_le_distinct y e (by simp) (by simp) hy
    rw [ht y (by simp)] at hdone
    cases hdone
  · intro hall pre x post hpre
    have hx : x ∈ e :: e' :: t := hpre ▸ List.mem_append_right pre List.mem_cons_self
    rw [ht x hx]
    constructor
    · intro h
      cases h
    · rintro ⟨-, htwo⟩
      have hone : distinct (pre ++ [x]) ≤ 1 := by
        apply distinct_le_one (i := e.1.idx)
        intro z hz
        have hmem : z ∈ e :: e' :: t := by
          rw [hpre, ← List.singleton_append, ← List.append_assoc]
          exact List.mem_append_left post hz
        rcases List.mem_cons.1 hmem with rfl | hmem
        · rfl
        · rcases List.mem_cons.1 hmem with rfl | hmem
          · exact heq
          · exact hall z hmem
      exact absurd (htwo.trans hone) (by decide)

/-- A run counts the shards exactly when the second index is new, or no other one ever comes. -/
theorem countsDistinct_iff (hrun : Run (seqMachine seq) slot t slot') (hslot : slot.seq ≠ seq)
    (hvalid : ∀ e ∈ t, e.1.idx.toNat < shardCount) :
    CountsDistinct t ↔ SecondIsNew (t.map fun e => e.1.idx) := by
  rcases t with _ | ⟨⟨c, o⟩, _ | ⟨⟨c', o'⟩, t⟩⟩
  · constructor
    · intro _ i rest hidx
      cases hidx
    · intro _ pre e post hpre
      cases pre <;> cases hpre
  · obtain ⟨q, hfirst, -⟩ := hrun.cons_inv
    have hstep : seqStep seq slot c = .ok (q, o) := hfirst
    rw [seqStep_first hslot (hvalid (c, o) (by simp))] at hstep
    cases hstep
    constructor
    · intro _ i rest hidx
      cases hidx
    · intro _ pre e post hpre
      rcases pre with _ | ⟨y, pre⟩
      · obtain ⟨rfl, -⟩ := List.cons.inj hpre
        have hone : distinct [(c, false)] ≤ 1 := distinct_le_one (i := c.idx) (by simp)
        constructor
        · intro h
          cases h
        · intro h
          exact absurd (h.2.trans hone) (by decide)
      · cases pre <;> cases hpre
  · obtain ⟨rfl, rfl, hlate⟩ := run_returns hrun hslot (hvalid (c, o) (by simp))
      (hvalid (c', o') (by simp))
    by_cases hne : c'.idx = c.idx
    · have hfalse : decide (c'.idx ≠ c.idx) = false := decide_eq_false (not_not.2 hne)
      rw [hfalse, countsDistinct_iff_of_eq ?_ hne]
      · constructor
        · intro hall i rest hidx k hk
          obtain ⟨rfl, hrest⟩ := List.cons.inj hidx
          obtain ⟨-, rfl⟩ := List.cons.inj hrest
          obtain ⟨x, hx, rfl⟩ := List.mem_map.1 hk
          exact hall x hx
        · intro hall x hx
          apply hall c.idx (t.map fun e => e.1.idx) ?_ x.1.idx (List.mem_map_of_mem hx)
          rw [List.map_cons, List.map_cons, hne]
      · intro x hx
        rcases List.mem_cons.1 hx with rfl | hx
        · rfl
        · rcases List.mem_cons.1 hx with rfl | hx
          · rfl
          · exact hlate x hx
    · constructor
      · intro _ i rest hidx
        obtain ⟨rfl, hrest⟩ := List.cons.inj hidx
        exact absurd (List.cons.inj hrest).1 hne
      · intro _
        exact countsDistinct_of_ne rfl (decide_eq_true hne) hlate hne

end Sequences

/-- No valid shard faults. -/
theorem exists_seq_run {calls : List SeqCall} (seq : u16) (slot : FecSlot)
    (hvalid : ∀ c ∈ calls, c.idx.toNat < shardCount) :
    ∃ t slot', t.map Prod.fst = calls ∧ Run (seqMachine seq) slot t slot' := by
  apply exists_run (fun _ => True) calls trivial
  intro c hc q _
  obtain ⟨r, hr⟩ := fecRecvDone_ok (hvalid c hc) q c.ts seq c.codec
  exact ⟨r.slot, r.done, seqStep_ok hr, trivial⟩

/-- Every sequence of shards of one number has a run, and the run counts the different shards
exactly when the second index is not the first one again, or no other one ever comes. -/
theorem shards_counted_iff (seq : u16) (slot : FecSlot) (calls : List SeqCall)
    (hslot : slot.seq ≠ seq) (hvalid : ∀ c ∈ calls, c.idx.toNat < shardCount) :
    ∃ t slot', t.map Prod.fst = calls ∧ Run (seqMachine seq) slot t slot' ∧
      (CountsDistinct t ↔ SecondIsNew (calls.map SeqCall.idx)) := by
  obtain ⟨t, slot', ht, hrun⟩ := exists_seq_run seq slot hvalid
  refine ⟨t, slot', ht, hrun, ?_⟩
  have hidx : ∀ e ∈ t, e.1.idx.toNat < shardCount := by
    intro e he
    exact hvalid e.1 (ht ▸ List.mem_map_of_mem he)
  rw [countsDistinct_iff hrun hslot hidx, ← ht, List.map_map]
  rfl

/-- A call with shard `i` of number 5. -/
def shardOf (i : BitVec 3) : SeqCall :=
  { ts := 0
    pkg := { hdr := { PkgHeader.zero with seq := 5, fecIdx := i }, payload := [] }
    codec := FecCodec.new }

/-- Shards 0 and 1. -/
theorem shards_counted_pair :
    ∃ t slot', t.map Prod.fst = [shardOf 0, shardOf 1] ∧
      Run (seqMachine 5) FecSlot.zero t slot' ∧
      (CountsDistinct t ↔ SecondIsNew ([shardOf 0, shardOf 1].map SeqCall.idx)) :=
  shards_counted_iff 5 FecSlot.zero [shardOf 0, shardOf 1] (by decide) (by decide)

/-- Shard 0 twice and then shard 1: the packet is complete at the third call, which returns
false. -/
theorem shards_not_counted :
    ∃ t slot', t.map Prod.fst = [shardOf 0, shardOf 0, shardOf 1] ∧
      Run (seqMachine 5) FecSlot.zero t slot' ∧ (∀ e ∈ t, e.2 = false) ∧ ¬ CountsDistinct t := by
  have hvalid : ∀ c ∈ [shardOf 0, shardOf 0, shardOf 1], c.idx.toNat < shardCount := by decide
  obtain ⟨t, slot', ht, hrun⟩ := exists_seq_run 5 FecSlot.zero hvalid
  obtain ⟨o0, t1, rfl, ht1⟩ := map_fst_eq_cons ht
  obtain ⟨o1, t2, rfl, ht2⟩ := map_fst_eq_cons ht1
  obtain ⟨o2, rfl⟩ := map_fst_eq_singleton ht2
  obtain ⟨rfl, rfl, hlate⟩ := run_returns hrun (by decide) (by decide) (by decide)
  have hfalse : ∀ e ∈ [(shardOf 0, false), (shardOf 0, decide ((shardOf 0).idx ≠ (shardOf 0).idx)),
      (shardOf 1, o2)], e.2 = false := by
    intro e he
    simp only [List.mem_cons, List.not_mem_nil, or_false] at he
    rcases he with rfl | rfl | rfl
    · rfl
    · rfl
    · exact hlate _ List.mem_cons_self
  refine ⟨_, slot', rfl, hrun, hfalse, ?_⟩
  rw [countsDistinct_iff_of_eq hfalse rfl]
  intro hall
  exact absurd (hall _ List.mem_cons_self) (by decide : ¬ (shardOf 1).idx = (shardOf 0).idx)

end ConfigEnv.TunVpn
