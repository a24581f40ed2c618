/-
Module: ConfigEnv.Proofs.ServerRestart
Layer: Proofs
Purpose: The server starts again from number 0 while the client keeps its duplicate filter. A number
  of the new session passes when its place does not hold it, and a place that does not hold its
  number comes to hold it only by a datagram of that number. The client has nothing but the idle
  clear to make places free, so a number that it held stays held until then.
Trusted boundary: none
Main exports: DedupState.Free, seqOf_ne, eq_of_slotIdx_eq, Uctun.AfterIdleClear,
  Uctun.restarted_server_served_iff
Open obligations: none
-/
import ConfigEnv.Proofs.Delivery

namespace ConfigEnv.TunVpn

open Machine

/-! ### The duplicate filter -/

section Filter

variable {st : DedupState} {ts : Int} {seq seq' : u16}

/-- The place of the number holds another one. -/
def DedupState.Free (st : DedupState) (seq : u16) : Prop := st.seqMap (slotIdx seq) ≠ seq

/-- The idle clear frees every number but the filling one. -/
theorem DedupState.free_cleared (hfill : seq ≠ seqMapFill) (ts : Int) :
    (DedupState.cleared ts).Free seq :=
  hfill.symm

/-- An expiry takes no number. -/
theorem DedupState.Free.expire (h : st.Free seq) (hfill : seq ≠ seqMapFill) (ts : Int) :
    (st.expire ts).Free seq := by
  unfold DedupState.Free
  rcases DedupState.expire_seqMap st ts with hmap | hmap
  · rw [hmap]
    exact h
  · rw [hmap]
    exact hfill.symm

/-- A number stays free while others pass. -/
theorem DedupState.Free.step (h : (st.expire ts).Free seq) (hne : seq' ≠ seq) :
    (isDuplicate st ts seq').1.Free seq := by
  unfold DedupState.Free
  rw [isDuplicate_seqMap]
  by_cases hplace : slotIdx seq = slotIdx seq'
  · rw [hplace, Function.update_self]
    exact hne
  · rw [Function.update_of_ne hplace]
    exact h

/-- A number that is held stays held while the filter is in use and others pass elsewhere. -/
theorem DedupState.held_step (h : ¬ st.Free seq) (hrecent : ts ≤ st.lastUpdate + connTimeout)
    (hplace : slotIdx seq' = slotIdx seq → seq' = seq) : ¬ (isDuplicate st ts seq').1.Free seq := by
  have hheld : st.seqMap (slotIdx seq) = seq := not_not.1 h
  unfold DedupState.Free
  rw [not_not, isDuplicate_seqMap, DedupState.expire_recent hrecent]
  by_cases hsame : slotIdx seq = slotIdx seq'
  · rw [hsame, Function.update_self]
    exact hplace hsame.symm
  · rw [Function.update_of_ne hsame]
    exact hheld

end Filter

/-! ### The numbers of a short session -/

section Numbers

variable {m n : Nat}

theorem seqOf_toNat (hn : n < seqMapSize) : (seqOf n).toNat = n := by
  simp only [seqMapSize] at hn
  simp only [seqOf, BitVec.toNat_ofNat]
  omega

/-- In a session with fewer packets than places, every packet has a number of its own. -/
theorem seqOf_ne (hm : m < seqMapSize) (hn : n < seqMapSize) (h : m ≠ n) : seqOf m ≠ seqOf n := by
  intro heq
  apply h
  rw [← seqOf_toNat hm, heq, seqOf_toNat hn]

/-- And a place of its own. -/
theorem eq_of_slotIdx_eq (hm : m < seqMapSize) (hn : n < seqMapSize)
    (h : slotIdx (seqOf m) = slotIdx (seqOf n)) : m = n := by
  have hmod := slotIdx_eq_iff.1 h
  rwa [Nat.mod_eq_of_lt hm, Nat.mod_eq_of_lt hn] at hmod

theorem seqOf_ne_fill (hn : n < seqMapSize) : seqOf n ≠ seqMapFill := by
  intro heq
  have hval := congrArg BitVec.toNat heq
  rw [seqOf_toNat hn] at hval
  subst hval
  exact absurd hn (by decide)

end Numbers

/-! ### The new session at the client -/

namespace Uctun

variable {S : Stream} {st st' : RecvState} {a : Arrival} {out : Option TunWrite} {n : Nat}
  {t : List (Arrival × Option TunWrite)}

/-- The datagram clears the filter: it goes there, and nothing new has passed for the timeout. -/
def Arrival.Clears (a : Arrival) (st : RecvState) : Prop :=
  a.dg.part = none ∧ a.ts - st.dedup.lastUpdate > connTimeout

/-- Other datagrams leave a free number free. -/
theorem free_arrival (ha : a.Honest S) (hstep : streamMachine S st a out st')
    (hnum : a.dg.num < seqMapSize) (hn : n < seqMapSize) (hne : a.dg.num ≠ n)
    (h : st.dedup.Free (seqOf n) ∨ a.Clears st) : st'.dedup.Free (seqOf n) := by
  have hdeliver := step_deliver ha hstep
  have hfill := seqOf_ne_fill hn
  cases hpart : a.dg.part with
  | none =>
      rw [deliver_whole S hpart] at hdeliver
      cases hdeliver
      apply DedupState.Free.step ?_ (seqOf_ne hnum hn hne)
      rcases h with hfree | hclears
      · exact hfree.expire hfill a.ts
      · unfold DedupState.expire
        rw [if_pos hclears.2]
        exact DedupState.free_cleared hfill a.ts
  | some i =>
      obtain ⟨r, -, rfl, -⟩ := (deliver_shard S hpart).1 hdeliver
      apply h.resolve_right
      intro hclears
      rw [hclears.1] at hpart
      cases hpart

/-- Without an idle clear a held number stays held, and its datagrams are not written. -/
theorem held_arrival (ha : a.Honest S) (hstep : streamMachine S st a out st')
    (hnum : a.dg.num < seqMapSize) (hn : n < seqMapSize) (hclears : ¬ a.Clears st)
    (h : ¬ st.dedup.Free (seqOf n)) :
    ¬ st'.dedup.Free (seqOf n) ∧ (a.dg.num = n → a.dg.part = none → out = none) := by
  have hdeliver := step_deliver ha hstep
  cases hpart : a.dg.part with
  | none =>
      have hrecent : a.ts ≤ st.dedup.lastUpdate + connTimeout := by
        by_contra hlate
        exact hclears ⟨hpart, by omega⟩
      constructor
      · rw [deliver_whole S hpart] at hdeliver
        cases hdeliver
        apply DedupState.held_step h hrecent
        intro hplace
        rw [eq_of_slotIdx_eq hnum hn hplace]
      · rintro rfl -
        apply silent_of_not_fresh ha hpart ?_ hstep
        simp only [Arrival.FreshAt, hpart, DedupState.expire_recent hrecent]
        exact h
  | some i =>
      obtain ⟨r, -, rfl, -⟩ := (deliver_shard S hpart).1 hdeliver
      exact ⟨h, fun _ hnone => absurd hnone (by simp)⟩

/-- The arrivals of a session: datagrams that the sender made, of fewer packets than the filter has
places. -/
structure Session (S : Stream) (t : List (Arrival × Option TunWrite)) : Prop where
  honest : ∀ e ∈ t, e.1.Honest S
  few : ∀ e ∈ t, e.1.dg.num < seqMapSize

/-- A part of a session is one. -/
theorem Session.mono {t' : List (Arrival × Option TunWrite)} (h : Session S t)
    (hsub : ∀ e ∈ t', e ∈ t) : Session S t' where
  honest e he := h.honest e (hsub e he)
  few e he := h.few e (hsub e he)

/-- Some datagram of the packet arrives at or after an idle clear. -/
def AfterIdleClear (S : Stream) (st : RecvState) (t : List (Arrival × Option TunWrite)) (n : Nat) :
    Prop :=
  ∃ pre e post q, t = pre ++ e :: post ∧ Run (streamMachine S) st pre q ∧ e.1.Clears q ∧
    ∃ y ∈ e :: post, y.1.dg.num = n

/-- A packet without FEC is sent whole. -/
theorem part_eq_none (ha : a.Honest S) (hplain : (S a.dg.num).fec = false) : a.dg.part = none := by
  rw [← Option.not_isSome_iff_eq_none, ha.1, hplain]
  exact Bool.false_ne_true

/-- A copy of a packet whose place is free, or that clears the filter itself, is written. -/
theorem written_of_copy {e : Arrival × Option TunWrite} (hmem : e ∈ t) (he : e.1.Honest S)
    (hplain : (S e.1.dg.num).fec = false) (hn : e.1.dg.num < seqMapSize)
    (hstep : streamMachine S st e.1 e.2 st')
    (h : st.dedup.Free (seqOf e.1.dg.num) ∨ e.1.Clears st) : Written S t e.1.dg.num := by
  have hpart := part_eq_none he hplain
  have hfill := seqOf_ne_fill hn
  have hfresh : e.1.FreshAt st := by
    simp only [Arrival.FreshAt, hpart]
    rcases h with hfree | hclears
    · exact hfree.expire hfill e.1.ts
    · unfold DedupState.expire
      rw [if_pos hclears.2]
      exact DedupState.free_cleared hfill e.1.ts
  obtain ⟨w, hw, hbytes⟩ := write_of_fresh he hpart hfresh hstep
  refine ⟨e, hmem, rfl, w, hw, ?_⟩
  rw [hbytes, hplain]
  rfl

/-- The first copy of a packet whose place is free is written. -/
theorem run_writes_free (hrun : Run (streamMachine S) st t st') (hsession : Session S t)
    (hplain : (S n).fec = false) (hn : n < seqMapSize) (hcopy : ∃ e ∈ t, e.1.dg.num = n)
    (h : st.dedup.Free (seqOf n)) : Written S t n := by
  have hkeep : ∀ e ∈ t, ¬ e.1.dg.num = n → ∀ q q' : RecvState, q.dedup.Free (seqOf n) →
      streamMachine S q e.1 e.2 q' → q'.dedup.Free (seqOf n) := by
    intro e he hen q q' hfree hstep
    exact free_arrival (hsession.honest e he) hstep (hsession.few e he) hn hen (.inl hfree)
  obtain ⟨e, he, rfl, q, q', hfree, hstep⟩ :=
    hrun.first (fun q => q.dedup.Free (seqOf n)) (fun a => a.dg.num = n) h hcopy hkeep
  exact written_of_copy he (hsession.honest e he) hplain hn hstep (.inl hfree)

/-- A packet of which a copy comes at or after an idle clear is written. -/
theorem run_writes_cleared (hrun : Run (streamMachine S) st t st') (hsession : Session S t)
    (hplain : (S n).fec = false) (hn : n < seqMapSize) (h : AfterIdleClear S st t n) :
    Written S t n := by
  obtain ⟨pre, e, post, q, rfl, hpre, hclears, y, hy, hyn⟩ := h
  obtain ⟨s1, s2, hpre1, hstep, hpost⟩ := hrun.middle
  obtain ⟨-, rfl⟩ := run_det hpre1 hpre rfl
  have he : e ∈ pre ++ e :: post := List.mem_append_right pre List.mem_cons_self
  by_cases hen : e.1.dg.num = n
  · subst hen
    exact written_of_copy he (hsession.honest e he) hplain hn hstep (.inr hclears)
  · -- The idle clear frees the place, and `e` does not take it.
    have hfree := free_arrival (hsession.honest e he) hstep (hsession.few e he) hn hen
      (.inr hclears)
    have hlater : y ∈ post := by
      rcases List.mem_cons.1 hy with rfl | hlater
      · exact absurd hyn hen
      · exact hlater
    have hsub : ∀ x ∈ post, x ∈ pre ++ e :: post := fun x hx =>
      List.mem_append_right pre (List.mem_cons_of_mem e hx)
    obtain ⟨x, hx, hwritten⟩ :=
      run_writes_free hpost (hsession.mono hsub) hplain hn ⟨y, hlater, hyn⟩ hfree
    exact ⟨x, hsub x hx, hwritten⟩

/-- A packet whose number is held, with no copy at or after an idle clear, is not written. -/
theorem run_drops_held (hrun : Run (streamMachine S) st t st') (hsession : Session S t)
    (hplain : (S n).fec = false) (hn : n < seqMapSize) (hclear : ¬ AfterIdleClear S st t n)
    (h : ¬ st.dedup.Free (seqOf n)) : ¬ Written S t n := by
  rintro ⟨e, he, hen, w, hw, -⟩
  obtain ⟨pre, post, rfl⟩ := List.append_of_mem he
  obtain ⟨q, q', hpre, hstep, -⟩ := hrun.middle
  -- `e` is a copy, so up to it nothing clears the filter.
  have hkeep : ∀ pre' x post' s, pre ++ e :: post = pre' ++ x :: post' → e ∈ x :: post' →
      Run (streamMachine S) st pre' s → ¬ x.1.Clears s := by
    intro pre' x post' s ht hmem hrun' hclears
    exact hclear ⟨pre', x, post', s, ht, hrun', hclears, e, hmem, hen⟩
  have hheld : ¬ q.dedup.Free (seqOf n) := by
    apply hpre.historyInvariant (fun _ q => ¬ q.dedup.Free (seqOf n)) h
    intro pre' x post' s s' ht hrun' hheld hstep'
    have hx : x ∈ pre ++ e :: post := by simp [ht]
    have hnoclear : ¬ x.1.Clears s := by
      apply hkeep pre' x (post' ++ e :: post) s ?_ ?_ hrun'
      · rw [ht, List.append_assoc, List.cons_append]
      · exact List.mem_cons_of_mem x (List.mem_append_right post' List.mem_cons_self)
    exact (held_arrival (hsession.honest x hx) hstep' (hsession.few x hx) hn hnoclear hheld).1
  have hnoclear : ¬ e.1.Clears q := hkeep pre e post q rfl List.mem_cons_self hpre
  have hsilent :=
    (held_arrival (hsession.honest e he) hstep (hsession.few e he) hn hnoclear hheld).2 hen
      (part_eq_none (hsession.honest e he) (hen ▸ hplain))
  rw [hsilent] at hw
  cases hw

/-- A packet of a restarted server of which a copy arrives is written if and only if the client did
not hold its number when the session began, or a copy comes at or after an idle clear. -/
theorem restarted_server_served_iff (S : Stream) (st st' : RecvState)
    (t : List (Arrival × Option TunWrite)) (hrun : Run (streamMachine S) st t st')
    (hsession : Session S t) (n : Nat) (hplain : (S n).fec = false)
    (hcopy : ∃ e ∈ t, e.1.dg.num = n) :
    Written S t n ↔ st.dedup.Free (seqOf n) ∨ AfterIdleClear S st t n := by
  have hn : n < seqMapSize := by
    obtain ⟨e, he, rfl⟩ := hcopy
    exact hsession.few e he
  constructor
  · intro hwritten
    by_contra hnone
    obtain ⟨hheld, hclear⟩ := not_or.1 hnone
    exact run_drops_held hrun hsession hplain hn hclear hheld hwritten
  · intro h
    rcases h with hfree | hcleared
    · exact run_writes_free hrun hsession hplain hn hcopy hfree
    · exact run_writes_cleared hrun hsession hplain hn hcleared

theorem session_first_copy (out : Option TunWrite) :
    Session plainStream [(plainCopy 0 0, out)] where
  honest e he := by
    rw [List.mem_singleton.1 he]
    exact plainCopy_honest 0 0
  few e he := by
    rw [List.mem_singleton.1 he]
    exact Nat.zero_lt_succ 8191

/-- A client that has just been started, and packet 0. -/
theorem restarted_server_served_first :
    ∃ t st', t.map Prod.fst = [plainCopy 0 0] ∧ Run (streamMachine plainStream) (start 0) t st' ∧
      Written plainStream t 0 := by
  obtain ⟨t, st', ht, hrun⟩ := exists_stream_run (S := plainStream) [plainCopy 0 0]
    (by simp [plainCopy_honest]) (start 0)
  obtain ⟨out, rfl⟩ := map_fst_eq_singleton ht
  refine ⟨_, st', ht, hrun, ?_⟩
  rw [restarted_server_served_iff plainStream (start 0) st' _ hrun (session_first_copy out) 0 rfl
    ⟨_, List.mem_singleton_self _, rfl⟩]
  exact .inl plainCopy_fresh

/-- A client that has packet 0 of one session drops packet 0 of the next. -/
theorem restarted_server_not_served :
    ∃ told st t st', Run (streamMachine plainStream) (start 0) told st ∧ Session plainStream told ∧
      Run (streamMachine plainStream) st t st' ∧ Session plainStream t ∧
      (∃ e ∈ t, e.1.dg.num = 0) ∧ ¬ Written plainStream t 0 := by
  obtain ⟨told, st, hold, hrunold⟩ := exists_stream_run (S := plainStream) [plainCopy 0 0]
    (by simp [plainCopy_honest]) (start 0)
  obtain ⟨out, rfl⟩ := map_fst_eq_singleton hold
  obtain ⟨t, st', ht, hrun⟩ := exists_stream_run (S := plainStream) [plainCopy 0 0]
    (by simp [plainCopy_honest]) st
  obtain ⟨out', rfl⟩ := map_fst_eq_singleton ht
  refine ⟨_, st, _, st', hrunold, session_first_copy out, hrun, session_first_copy out',
    ⟨_, List.mem_singleton_self _, rfl⟩, ?_⟩
  obtain ⟨_, hstep, hend⟩ := hrunold.cons_inv
  cases hend
  obtain ⟨s2, hstep', -⟩ := hrun.cons_inv
  -- the first session leaves packet 0 known, and the second one finds it
  obtain ⟨w, hw, -⟩ := write_of_fresh (plainCopy_honest 0 0) rfl plainCopy_fresh hstep
  have hknown : st.dedup.Knows (seqOf 0) 0 :=
    knows_of_write (plainCopy_honest 0 0) rfl hstep (by rw [hw]; rfl)
  have hsilent : out' = none :=
    silent_of_known (plainCopy_honest 0 0) rfl hstep' hknown (by decide)
  rintro ⟨e, he, -, w', hw', -⟩
  rw [List.mem_singleton.1 he, hsilent] at hw'
  cases hw'

end Uctun

end ConfigEnv.TunVpn
