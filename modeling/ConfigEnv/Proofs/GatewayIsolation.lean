/-
Module: ConfigEnv.Proofs.GatewayIsolation
Layer: Proofs
Purpose: The server with and without the datagrams of one gateway. The tables are looked up by
  sequence number alone, so the two runs go the same way for the other gateways only as long as what
  a datagram finds in its place is not the deleted gateway's doing. `Undisturbed` says that of one
  datagram, from the datagrams before it and from the clears in the two runs; the runs are then
  carried along side by side, with the slots that the deleted gateway was not the last to use kept
  alike.
Trusted boundary: none
Main exports: FecSlot.Alike, Ustun.Place, Ustun.lastAt, Ustun.Undisturbed, Ustun.gateway_isolation
Open obligations: none
-/
import ConfigEnv.Proofs.Receive

namespace ConfigEnv.TunVpn

open Machine

/-! ### Two slots side by side -/

/-- The slots agree in everything but their number and the rows that were not received. If no one
else has used them they agree in all rows; otherwise the length stays short of the third row. -/
structure FecSlot.Alike (unshared : Prop) (a b : FecSlot) : Prop where
  plen_eq : a.plen = b.plen
  cnt_eq : a.cnt = b.cnt
  marks_eq : a.marks = b.marks
  rows : ∀ i, a.marks i = 0#8 → a.buf i = b.buf i
  whole : unshared → a.buf = b.buf
  short : a.plen.toNat ≤ fecRsK * fecRsT ∨ unshared

namespace FecSlot

variable {unshared : Prop} {a b : FecSlot} {seq plen : u16}

theorem Alike.refl (h : unshared) (a : FecSlot) : a.Alike unshared a where
  plen_eq := rfl
  cnt_eq := rfl
  marks_eq := rfl
  rows _ _ := rfl
  whole _ := rfl
  short := .inr h

/-- The number of a slot plays no part. -/
theorem Alike.renumber (h : a.Alike unshared b) (seqA seqB : u16) :
    { a with seq := seqA }.Alike unshared { b with seq := seqB } where
  plen_eq := h.plen_eq
  cnt_eq := h.cnt_eq
  marks_eq := h.marks_eq
  rows := h.rows
  whole := h.whole
  short := h.short

/-- Two slots that are reset for one packet are alike. -/
theorem alike_reset (hshort : plen.toNat ≤ fecRsK * fecRsT ∨ unshared)
    (hwhole : unshared → a.buf = b.buf) :
    (a.reset seq plen).Alike unshared (b.reset seq plen) where
  plen_eq := rfl
  cnt_eq := rfl
  marks_eq := rfl
  rows i hi := absurd hi (by simp [FecSlot.reset])
  whole := hwhole
  short := hshort

/-- Two slots are claimed alike if both take the number as new, or have the same number and agree.
-/
theorem alike_claim
    (hseq : (a.seq ≠ seq ∧ b.seq ≠ seq) ∨ (a.seq = b.seq ∧ a.Alike unshared b))
    (hshort : plen.toNat ≤ fecRsK * fecRsT ∨ unshared) (hwhole : unshared → a.buf = b.buf) :
    (a.claim seq plen).Alike unshared (b.claim seq plen) := by
  rcases hseq with ⟨ha, hb⟩ | ⟨hab, halike⟩
  · rw [claim_of_ne ha, claim_of_ne hb]
    exact alike_reset hshort hwhole
  · by_cases ha : a.seq = seq
    · rw [claim_of_eq ha, claim_of_eq (hab ▸ ha)]
      exact halike
    · rw [claim_of_ne ha, claim_of_ne (hab ▸ ha)]
      exact alike_reset hshort hwhole

/-- One shard put into two slots that are alike leaves them alike. -/
theorem Alike.addShard (h : a.Alike unshared b) (i : Fin shardCount) (mem : List u8) (ts : Int) :
    (a.addShard i mem ts).Alike unshared (b.addShard i mem ts) where
  plen_eq := h.plen_eq
  cnt_eq := congrArg (· + 1) h.cnt_eq
  marks_eq := congrArg (fun marks => Function.update marks i 0) h.marks_eq
  rows j hj := by
    by_cases hij : j = i
    · subst hij
      simp [FecSlot.addShard]
    · simp only [FecSlot.addShard, Function.update_of_ne hij] at hj ⊢
      exact h.rows j hj
  whole hown := by
    simp only [FecSlot.addShard, h.whole hown]
  short := h.short

end FecSlot

/-- Two calls of `fec_recv_done` end alike: the same bytes to write, and slots that agree. -/
structure FecRecv.Alike (unshared : Prop) (r r' : FecRecv) : Prop where
  slot : r.slot.Alike unshared r'.slot
  write : r.write.map TunWrite.bytes = r'.write.map TunWrite.bytes

/-- Slots whose received rows agree are decoded to the same packet. -/
theorem FecSlot.Alike.decode {unshared : Prop} {a b : FecSlot} (h : a.Alike unshared b)
    (codec codec' : FecCodec) : (a.decode codec).Alike unshared (b.decode codec') := by
  constructor
  · constructor
    · exact h.plen_eq
    · exact h.cnt_eq
    · exact h.marks_eq
    · intro i hi
      rw [FecSlot.decode_marks] at hi
      rw [FecSlot.decode_buf, FecSlot.decode_buf, ← h.marks_eq, recovered_received hi,
        recovered_received hi]
      exact h.rows i hi
    · intro hown
      rw [FecSlot.decode_buf, FecSlot.decode_buf, h.whole hown, h.marks_eq]
    · exact h.short
  · by_cases hone : AtMostOneLost a.marks
    · have hone' : AtMostOneLost b.marks := h.marks_eq ▸ hone
      have hbytes : (fecFlat (a.decode codec).slot.buf).take a.plen.toNat =
          (fecFlat (b.decode codec').slot.buf).take a.plen.toNat := by
        rw [FecSlot.decode_buf, FecSlot.decode_buf]
        rcases h.short with hlen | hown
        · -- only the data rows are written out
          apply fecFlat_take ?_ (length_fecFlat _) hlen
          intro i hi
          rw [fecBuf_fecFlat, ← h.marks_eq]
          exact recovered_agree h.rows hone hi
        · rw [h.whole hown, h.marks_eq]
      have hplen : b.plen = a.plen := h.plen_eq.symm
      simp only [FecRecv.write, FecSlot.decode_done hone, FecSlot.decode_done hone', if_true,
        Option.map_some, TunWrite.bytes, FecSlot.decode_plen, hplen, hbytes]
    · have hlost : ¬ AtMostOneLost b.marks := h.marks_eq ▸ hone
      simp [FecRecv.write, FecSlot.decode_lost hone, FecSlot.decode_lost hlost]

/-- A shard at two slots that are claimed alike. -/
theorem fecRecvDone_alike {unshared : Prop} {a b : FecSlot} {ts : Int} {seq : u16} {pkg : TunPkg}
    {codec : FecCodec} (codec' : FecCodec) {r : FecRecv}
    (h : (a.claim seq pkg.hdr.plen).Alike unshared (b.claim seq pkg.hdr.plen))
    (hr : fecRecvDone a ts seq pkg codec = .ok r) :
    ∃ r', fecRecvDone b ts seq pkg codec' = .ok r' ∧ r.Alike unshared r' := by
  cases fecRecvDone_outcome hr with
  | full hcnt =>
      exact ⟨_, fecRecvDone_full (h.cnt_eq ▸ hcnt), h, by simp [FecRecv.write]⟩
  | store hidx hcnt =>
      exact ⟨_, fecRecvDone_store (h.cnt_eq ▸ hcnt) hidx, h.addShard _ _ _, by simp [FecRecv.write]⟩
  | decode hidx hcnt =>
      exact ⟨_, fecRecvDone_decode (h.cnt_eq ▸ hcnt) hidx, (h.addShard _ _ _).decode codec codec'⟩

namespace Ustun

/-! ### What a place holds -/

/-- Where a datagram is looked up: in the FEC slots or in the filter, at the index of its number. -/
inductive Place where
  | slot (c : Fin seqMapSize)
  | filter (c : Fin seqMapSize)
deriving DecidableEq

def Rx.seq (rx : Rx) : u16 := rx.pkg.hdr.seq

/-- The place that the datagram uses: its slot, or its place of the filter. -/
def Rx.place (rx : Rx) : Place :=
  if rx.pkg.hdr.fecRs ≠ 0 then .slot (slotIdx rx.seq) else .filter (slotIdx rx.seq)

/-- The message is accepted and is looked up at this place. -/
def Rx.uses (p : Place) (rx : Rx) : Bool := accepts rx.msg && decide (rx.place = p)

/-- The number that is held in a place. -/
def Place.held : Place → RecvState → u16
  | .slot c, st => (st.fec c).seq
  | .filter c, st => st.dedup.seqMap c

/-- The number that a clear leaves there. -/
def Place.fill : Place → u16
  | .slot _ => fecSeqFill
  | .filter _ => seqMapFill

/-- The tables as a datagram finds them, after the reset it may ask for and the idle clear. -/
def Server.meets (sv : Server) (rx : Rx) : RecvState :=
  let st := (sv.learn rx).recv
  if rx.pkg.hdr.fecRs ≠ 0 then st else { st with dedup := st.dedup.expire rx.clock.recv }

/-- The last datagram that was looked up at a place. -/
def lastAt (p : Place) (inputs : List Rx) : Option Rx := (inputs.filter (Rx.uses p)).getLast?

/-- The number it carried; without one, the number that the place held at the start. -/
def lastNumber (s : Server) (p : Place) (inputs : List Rx) : u16 :=
  ((lastAt p inputs).map Rx.seq).getD (p.held s.recv)

section Held

variable {s sv sv' : Server} {rx : Rx} {out : Option TunWrite} {p : Place} {inputs : List Rx}

theorem place_slot (hfec : rx.pkg.hdr.fecRs ≠ 0) : rx.place = .slot (slotIdx rx.seq) := if_pos hfec

theorem place_filter (hfec : rx.pkg.hdr.fecRs = 0) : rx.place = .filter (slotIdx rx.seq) :=
  if_neg (not_not.2 hfec)

theorem uses_place (hacc : accepts rx.msg = true) (hplace : rx.place = p) : rx.uses p = true := by
  simp [Rx.uses, hacc, hplace]

theorem accepts_of_uses (huses : rx.uses p = true) : accepts rx.msg = true :=
  (Bool.and_eq_true_iff.1 huses).1

theorem place_of_uses (huses : rx.uses p = true) : rx.place = p :=
  of_decide_eq_true (Bool.and_eq_true_iff.1 huses).2

/-- The last datagram at a place, after one more. -/
theorem lastAt_snoc :
    lastAt p (inputs ++ [rx]) = if rx.uses p then some rx else lastAt p inputs := by
  unfold lastAt
  rw [List.filter_append]
  cases h : rx.uses p with
  | true => simp [h]
  | false => simp [h]

/-- Before the look-up every place is as it was, or cleared. -/
theorem held_learn (p : Place) (sv : Server) (rx : Rx) :
    p.held (sv.learn rx).recv = p.held sv.recv ∨ p.held (sv.learn rx).recv = p.fill := by
  rcases learn_recv sv rx with h | h
  · rw [h]
    exact .inl rfl
  · rw [h]
    cases p with
    | slot c => exact .inr rfl
    | filter c => exact .inr rfl

/-- An expiry leaves a place of the filter as it is, or fills it. -/
theorem held_expire (p : Place) (st : RecvState) (ts : Int) :
    p.held { st with dedup := st.dedup.expire ts } = p.held st ∨
      p.held { st with dedup := st.dedup.expire ts } = p.fill := by
  cases p with
  | slot c => exact .inl rfl
  | filter c =>
      rcases st.dedup.expire_seqMap ts with h | h
      · exact .inl (congrFun h c)
      · exact .inr (congrFun h c)

/-- Meeting a gateway leaves a place as it is, or fills it. -/
theorem held_meets (p : Place) (sv : Server) (rx : Rx) :
    p.held (sv.meets rx) = p.held sv.recv ∨ p.held (sv.meets rx) = p.fill := by
  have hlearn := held_learn p sv rx
  unfold Server.meets
  by_cases hfec : rx.pkg.hdr.fecRs ≠ 0
  · rw [if_pos hfec]
    exact hlearn
  · rw [if_neg hfec]
    rcases held_expire p (sv.learn rx).recv rx.clock.recv with h | h
    · rw [h]
      exact hlearn
    · exact .inr h

/-- A datagram that is not accepted changes nothing. -/
theorem step_rejected (hacc : ¬ accepts rx.msg = true)
    (hstep : receiverStep sv rx = .ok (sv', out)) : sv' = sv ∧ out = none := by
  rw [receiverStep_rejected hacc] at hstep
  cases hstep
  exact ⟨rfl, rfl⟩

/-- After an accepted datagram its place holds its number, and every other place what the datagram
found there. -/
theorem held_step (hacc : accepts rx.msg = true) (hstep : receiverStep sv rx = .ok (sv', out))
    (p : Place) :
    p.held sv'.recv = if rx.place = p then rx.seq else p.held (sv.meets rx) := by
  obtain ⟨st', hdeliver, rfl⟩ := (receiverStep_accepted hacc).1 hstep
  unfold Server.meets Rx.place
  by_cases hfec : rx.pkg.hdr.fecRs = 0
  · rw [deliver_filter hfec] at hdeliver
    cases hdeliver
    simp only [hfec, ne_eq, not_true_eq_false, if_false]
    cases p with
    | slot c => rfl
    | filter c =>
        show (isDuplicate (sv.learn rx).recv.dedup rx.clock.recv rx.seq).1.seqMap c = _
        rw [isDuplicate_seqMap, Function.update_apply]
        simp only [Place.filter.injEq, eq_comm (a := c)]
        rfl
  · obtain ⟨r, hr, rfl, -⟩ := (deliver_slot hfec).1 hdeliver
    simp only [hfec, ne_eq, not_false_eq_true, if_true]
    cases p with
    | filter c => rfl
    | slot c =>
        by_cases hc : c = slotIdx rx.seq
        · subst hc
          rw [if_pos rfl]
          exact (congrArg FecSlot.seq (afterShard_same _ _ _ r)).trans (fecRecvDone_seq hr)
        · rw [if_neg fun h => hc (Place.slot.inj h).symm]
          exact congrArg FecSlot.seq (afterShard_other _ _ r hc)

/-- In any run a place is cleared or holds the number of the last datagram that was looked up there.
-/
theorem held_run {t : List (Rx × Option TunWrite)} (hrun : Run machine s t sv) (p : Place) :
    p.held sv.recv = p.fill ∨ p.held sv.recv = lastNumber s p (t.map Prod.fst) := by
  apply hrun.historyInvariant fun pre q =>
    p.held q.recv = p.fill ∨ p.held q.recv = lastNumber s p (pre.map Prod.fst)
  · exact .inr rfl
  · intro pre e post q q' _ _ hq hstep
    rw [List.map_append, List.map_singleton]
    unfold lastNumber at hq ⊢
    rw [lastAt_snoc]
    by_cases hacc : accepts e.1.msg = true
    · rw [held_step hacc hstep p]
      by_cases hp : e.1.place = p
      · simp [Rx.uses, hacc, hp]
      · have huses : e.1.uses p = false := by simp [Rx.uses, hp]
        rw [if_neg hp, huses]
        rcases held_meets p q e.1 with h | h
        · rw [h]
          exact hq
        · exact .inl h
    · have huses : e.1.uses p = false := by simp [Rx.uses, hacc]
      rw [(step_rejected hacc hstep).1, huses]
      exact hq

/-- Learning a sender changes nothing of a slot but its number. -/
theorem learn_fec (sv : Server) (rx : Rx) (c : Fin seqMapSize) :
    ∃ seq, (sv.learn rx).recv.fec c = { sv.recv.fec c with seq := seq } := by
  rcases learn_recv sv rx with h | h
  · exact ⟨(sv.recv.fec c).seq, by rw [h]⟩
  · exact ⟨fecSeqFill, by rw [h]⟩

/-- A step leaves the slots of other places alone, but for their number. -/
theorem step_fec (hstep : receiverStep sv rx = .ok (sv', out)) {c : Fin seqMapSize}
    (huses : rx.uses (.slot c) = false) :
    ∃ seq, sv'.recv.fec c = { sv.recv.fec c with seq := seq } := by
  by_cases hacc : accepts rx.msg = true
  · obtain ⟨st', hdeliver, rfl⟩ := (receiverStep_accepted hacc).1 hstep
    by_cases hfec : rx.pkg.hdr.fecRs = 0
    · rw [deliver_filter hfec] at hdeliver
      cases hdeliver
      exact learn_fec sv rx c
    · obtain ⟨r, -, rfl, -⟩ := (deliver_slot hfec).1 hdeliver
      have hother : c ≠ slotIdx rx.pkg.hdr.seq := by
        intro hc
        have hplace : rx.place = .slot c := by
          rw [place_slot hfec, hc]
          rfl
        rw [uses_place hacc hplace] at huses
        cases huses
      show ∃ seq, ((sv.learn rx).recv.afterShard _ _ r).fec c = _
      rw [afterShard_other _ _ r hother]
      exact learn_fec sv rx c
  · rw [(step_rejected hacc hstep).1]
    exact ⟨(sv.recv.fec c).seq, rfl⟩

end Held

/-! ### Deleting a gateway -/

/-- The datagrams that stay when those of gateway `g` are deleted. -/
def keeps (g : u8) (rx : Rx) : Bool := rx.gateway ≠ g

/-- The gateway was not the last to use the place. -/
def LastKept (g : u8) (inputs : List Rx) (p : Place) : Prop :=
  ∀ rx, lastAt p inputs = some rx → keeps g rx = true

/-- The gateway never used the place. -/
def Unshared (g : u8) (inputs : List Rx) (p : Place) : Prop :=
  ∀ rx ∈ inputs, rx.uses p = true → keeps g rx = true

/-- The number is new at its place with the datagrams of the gateway and without them, and it is not
the number that a clear leaves. -/
structure NewNumber (g : u8) (s : Server) (inputs : List Rx) (rx : Rx) : Prop where
  ne_fill : rx.seq ≠ rx.place.fill
  ne_last : rx.seq ≠ lastNumber s rx.place inputs
  ne_lastKept : rx.seq ≠ lastNumber s rx.place (inputs.filter (keeps g))

/-- The gateway was not the last at the place, and the clears have emptied it in both runs or in
neither. -/
structure SameNumber (g : u8) (inputs : List Rx) (joint solo : Server) (rx : Rx) : Prop where
  lastKept : LastKept g inputs rx.place
  cleared : rx.place.held (joint.meets rx) = rx.place.fill ↔
    rx.place.held (solo.meets rx) = rx.place.fill

/-- What a datagram finds is not the doing of gateway `g`. The third row of a slot is not cleared
between packets, so a length that reaches it needs a slot that the gateway never used. -/
structure Undisturbed (g : u8) (s : Server) (inputs : List Rx) (joint solo : Server) (rx : Rx) :
    Prop where
  number : NewNumber g s inputs rx ∨ SameNumber g inputs joint solo rx
  length : rx.pkg.hdr.fecRs ≠ 0 →
    rx.pkg.hdr.plen.toNat ≤ fecRsK * fecRsT ∨ Unshared g inputs rx.place

section Histories

variable {g : u8} {s joint solo : Server} {rx : Rx} {p : Place} {inputs : List Rx}

theorem lastKept_snoc_other (h : rx.uses p = false) :
    LastKept g (inputs ++ [rx]) p ↔ LastKept g inputs p := by
  unfold LastKept
  rw [lastAt_snoc, h]
  rfl

theorem LastKept.keeps_snoc (h : LastKept g (inputs ++ [rx]) p) (huses : rx.uses p = true) :
    keeps g rx = true := by
  apply h
  rw [lastAt_snoc, huses]
  rfl

theorem unshared_snoc (h : rx.uses p = true → keeps g rx = true) :
    Unshared g (inputs ++ [rx]) p ↔ Unshared g inputs p := by
  constructor
  · intro hall rx' hmem
    exact hall rx' (List.mem_append_left _ hmem)
  · intro hall rx' hmem
    rcases List.mem_append.1 hmem with hmem | hmem
    · exact hall rx' hmem
    · rw [List.mem_singleton.1 hmem]
      exact h

theorem Unshared.lastKept (h : Unshared g inputs p) : LastKept g inputs p := by
  intro rx hlast
  have hmem := List.mem_of_getLast? hlast
  rw [List.mem_filter] at hmem
  exact h rx hmem.1 hmem.2

/-- Deleting the datagrams of a gateway that was not the last leaves the last one. -/
theorem LastKept.lastAt_filter (h : LastKept g inputs p) :
    lastAt p (inputs.filter (keeps g)) = lastAt p inputs := by
  induction inputs using List.reverseRecOn with
  | nil => rfl
  | append_singleton inputs rx ih =>
      rw [List.filter_append]
      cases huses : rx.uses p with
      | true =>
          rw [List.filter_cons_of_pos (h.keeps_snoc huses), List.filter_nil, lastAt_snoc,
            lastAt_snoc, huses]
          rfl
      | false =>
          have hrest := ih ((lastKept_snoc_other huses).1 h)
          rw [lastAt_snoc, huses]
          cases hkeep : keeps g rx with
          | true =>
              rw [List.filter_cons_of_pos hkeep, List.filter_nil, lastAt_snoc, huses]
              exact hrest
          | false =>
              rw [List.filter_cons_of_neg (by simp [hkeep]), List.filter_nil, List.append_nil]
              exact hrest

/-- An undisturbed datagram finds its number in neither run, or the same number in both. -/
theorem Undisturbed.found (h : Undisturbed g s inputs joint solo rx)
    (hjoint : rx.place.held joint.recv = rx.place.fill ∨
      rx.place.held joint.recv = lastNumber s rx.place inputs)
    (hsolo : rx.place.held solo.recv = rx.place.fill ∨
      rx.place.held solo.recv = lastNumber s rx.place (inputs.filter (keeps g))) :
    (rx.place.held (joint.meets rx) ≠ rx.seq ∧ rx.place.held (solo.meets rx) ≠ rx.seq) ∨
      (LastKept g inputs rx.place ∧
        rx.place.held (joint.meets rx) = rx.place.held (solo.meets rx)) := by
  have hj : rx.place.held (joint.meets rx) = rx.place.fill ∨
      rx.place.held (joint.meets rx) = lastNumber s rx.place inputs := by
    rcases held_meets rx.place joint rx with h | h
    · rw [h]
      exact hjoint
    · exact .inl h
  have hq : rx.place.held (solo.meets rx) = rx.place.fill ∨
      rx.place.held (solo.meets rx) = lastNumber s rx.place (inputs.filter (keeps g)) := by
    rcases held_meets rx.place solo rx with h | h
    · rw [h]
      exact hsolo
    · exact .inl h
  cases h.number with
  | inl hnew =>
      refine .inl ⟨?_, ?_⟩
      · rcases hj with h | h
        · rw [h]
          exact hnew.ne_fill.symm
        · rw [h]
          exact hnew.ne_last.symm
      · rcases hq with h | h
        · rw [h]
          exact hnew.ne_fill.symm
        · rw [h]
          exact hnew.ne_lastKept.symm
  | inr hsame =>
      refine .inr ⟨hsame.lastKept, ?_⟩
      have hlast : lastNumber s rx.place (inputs.filter (keeps g)) =
          lastNumber s rx.place inputs := by
        unfold lastNumber
        rw [hsame.lastKept.lastAt_filter]
      by_cases hfill : rx.place.held (joint.meets rx) = rx.place.fill
      · rw [hfill, hsame.cleared.1 hfill]
      · have hfill' : rx.place.held (solo.meets rx) ≠ rx.place.fill :=
          fun h => hfill (hsame.cleared.2 h)
        rw [hj.resolve_left hfill, hq.resolve_left hfill', hlast]

end Histories

/-! ### The two runs side by side -/

/-- The slots that the gateway was not the last to use are alike in the two runs. -/
def Parallel (g : u8) (inputs : List Rx) (joint solo : Server) : Prop :=
  ∀ c, LastKept g inputs (.slot c) →
    (joint.recv.fec c).Alike (Unshared g inputs (.slot c)) (solo.recv.fec c)

section Parallel

variable {g : u8} {s joint joint' solo solo' : Server} {rx : Rx} {inputs : List Rx}
  {out out' : Option TunWrite}

/-- An undisturbed datagram is handled the same way in both runs. -/
theorem undisturbed_step (hacc : accepts rx.msg = true) (hR : Parallel g inputs joint solo)
    (hfound : (rx.place.held (joint.meets rx) ≠ rx.seq ∧ rx.place.held (solo.meets rx) ≠ rx.seq) ∨
      (LastKept g inputs rx.place ∧
        rx.place.held (joint.meets rx) = rx.place.held (solo.meets rx)))
    (hlength : rx.pkg.hdr.fecRs ≠ 0 →
      rx.pkg.hdr.plen.toNat ≤ fecRsK * fecRsT ∨ Unshared g inputs rx.place)
    (hstep : receiverStep joint rx = .ok (joint', out)) :
    ∃ solo' out', receiverStep solo rx = .ok (solo', out') ∧
      out.map TunWrite.bytes = out'.map TunWrite.bytes ∧
      ∀ c, rx.place = .slot c →
        (joint'.recv.fec c).Alike (Unshared g inputs rx.place) (solo'.recv.fec c) := by
  obtain ⟨st', hdeliver, rfl⟩ := (receiverStep_accepted hacc).1 hstep
  by_cases hfec : rx.pkg.hdr.fecRs = 0
  · -- the filter gives the same verdict
    rw [deliver_filter hfec] at hdeliver
    cases hdeliver
    have hverdict : (isDuplicate (joint.learn rx).recv.dedup rx.clock.recv rx.pkg.hdr.seq).2 =
        (isDuplicate (solo.learn rx).recv.dedup rx.clock.recv rx.pkg.hdr.seq).2 := by
      rw [isDuplicate_verdict, isDuplicate_verdict]
      unfold Server.meets at hfound
      rw [place_filter hfec, if_neg (not_not.2 hfec), if_neg (not_not.2 hfec)] at hfound
      rcases hfound with ⟨hj, hq⟩ | ⟨-, heq⟩
      · exact (decide_eq_false hj).trans (decide_eq_false hq).symm
      · exact congrArg (fun held : u16 => decide (held = rx.pkg.hdr.seq)) heq
    refine ⟨_, _, (receiverStep_accepted hacc).2 ⟨_, deliver_filter hfec, rfl⟩, ?_, ?_⟩
    · rw [hverdict]
    · intro c hc
      rw [place_filter hfec] at hc
      cases hc
  · -- the slots are claimed alike
    obtain ⟨r, hr, rfl, rfl⟩ := (deliver_slot hfec).1 hdeliver
    have hplace : rx.place = .slot (slotIdx rx.pkg.hdr.seq) := place_slot hfec
    obtain ⟨seqJ, hseqJ⟩ := learn_fec joint rx (slotIdx rx.pkg.hdr.seq)
    obtain ⟨seqQ, hseqQ⟩ := learn_fec solo rx (slotIdx rx.pkg.hdr.seq)
    unfold Server.meets at hfound
    rw [hplace, if_pos hfec, if_pos hfec] at hfound
    rw [hplace] at hlength ⊢
    have hclaim : (((joint.learn rx).recv.fec (slotIdx rx.pkg.hdr.seq)).claim rx.pkg.hdr.seq
          rx.pkg.hdr.plen).Alike (Unshared g inputs (.slot (slotIdx rx.pkg.hdr.seq)))
        (((solo.learn rx).recv.fec (slotIdx rx.pkg.hdr.seq)).claim rx.pkg.hdr.seq
          rx.pkg.hdr.plen) := by
      apply FecSlot.alike_claim ?_ (hlength hfec)
      · intro hown
        rw [hseqJ, hseqQ]
        exact (hR _ hown.lastKept).whole hown
      · cases hfound with
        | inl hne => exact .inl hne
        | inr heq =>
            refine .inr ⟨heq.2, ?_⟩
            rw [hseqJ, hseqQ]
            exact (hR _ heq.1).renumber seqJ seqQ
    obtain ⟨r', hr', halike⟩ := fecRecvDone_alike ((solo.learn rx).recv.codec rx.worker) hclaim hr
    have hsolo : deliver (solo.learn rx).recv rx.worker rx.clock.recv rx.pkg
        (rx.msg.msgLen - pktOffset) = _ :=
      (deliver_slot hfec).2 ⟨r', hr', rfl, rfl⟩
    refine ⟨_, _, (receiverStep_accepted hacc).2 ⟨_, hsolo, rfl⟩, halike.write, ?_⟩
    intro c hc
    cases hc
    show (((joint.learn rx).recv.afterShard _ _ r).fec _).Alike _
      (((solo.learn rx).recv.afterShard _ _ r').fec _)
    rw [afterShard_same, afterShard_same]
    exact halike.slot

/-- A datagram of the gateway leaves the slots that it was not the last to use alike. -/
theorem parallel_deleted (hR : Parallel g inputs joint solo) (hgone : keeps g rx = false)
    (hstep : receiverStep joint rx = .ok (joint', out)) :
    Parallel g (inputs ++ [rx]) joint' solo := by
  intro c hlast
  have huses : rx.uses (.slot c) = false := by
    by_contra huses
    have hkeep := hlast.keeps_snoc (Bool.not_eq_false _ ▸ huses)
    rw [hgone] at hkeep
    cases hkeep
  obtain ⟨seq, hseq⟩ := step_fec hstep huses
  have hold := (hR c ((lastKept_snoc_other huses).1 hlast)).renumber seq (solo.recv.fec c).seq
  rw [unshared_snoc (by simp [huses]), hseq]
  exact hold

/-- A datagram of another gateway that both runs handle the same way does so too. -/
theorem parallel_kept (hR : Parallel g inputs joint solo) (hkeep : keeps g rx = true)
    (hjoint : receiverStep joint rx = .ok (joint', out))
    (hsolo : receiverStep solo rx = .ok (solo', out'))
    (hsame : ∀ c, rx.uses (.slot c) = true →
      (joint'.recv.fec c).Alike (Unshared g inputs (.slot c)) (solo'.recv.fec c)) :
    Parallel g (inputs ++ [rx]) joint' solo' := by
  intro c hlast
  rw [unshared_snoc fun _ => hkeep]
  cases huses : rx.uses (.slot c) with
  | true => exact hsame c huses
  | false =>
      obtain ⟨seqJ, hseqJ⟩ := step_fec hjoint huses
      obtain ⟨seqQ, hseqQ⟩ := step_fec hsolo huses
      rw [hseqJ, hseqQ]
      exact (hR c ((lastKept_snoc_other huses).1 hlast)).renumber seqJ seqQ

end Parallel

/-- The byte strings written because of the datagrams of a gateway, in order. -/
def writes (g : u8) (t : List (Rx × Option TunWrite)) : List (List u8) :=
  t.filterMap fun e => if e.1.gateway = g then e.2.map TunWrite.bytes else none

/-- Every datagram that stays is undisturbed by gateway `g`, with the runs up to it taken with and
without the datagrams of `g`. -/
def UndisturbedRun (g : u8) (s : Server) (t : List (Rx × Option TunWrite)) : Prop :=
  ∀ pre e post joint before solo, t = pre ++ e :: post → Run machine s pre joint →
    Run machine s before solo → before.map Prod.fst = (pre.map Prod.fst).filter (keeps g) →
    accepts e.1.msg = true → keeps g e.1 = true →
    Undisturbed g s (pre.map Prod.fst) joint solo e.1

/-- Leaving out what belongs to another gateway leaves out no write of this one. -/
theorem writes_filter {g1 g2 : u8} (hne : g1 ≠ g2) (t : List (Rx × Option TunWrite)) :
    writes g1 (t.filter fun e => keeps g2 e.1) = writes g1 t := by
  unfold writes
  rw [List.filterMap_filter]
  apply List.filterMap_congr
  intro e _
  by_cases hg : e.1.gateway = g1
  · have hkeep : keeps g2 e.1 = true := by simp [keeps, hg, hne]
    rw [if_pos hkeep]
  · rw [if_neg hg]
    split_ifs <;> rfl

/-- Runs that agree datagram by datagram write the same. -/
theorem writes_agree {g : u8} {t t' : List (Rx × Option TunWrite)}
    (h : List.Forall₂ (fun e e' => e.1 = e'.1 ∧
      e.2.map TunWrite.bytes = e'.2.map TunWrite.bytes) t t') : writes g t = writes g t' := by
  unfold writes
  induction h with
  | nil => rfl
  | cons hhead _ ih =>
      rw [List.filterMap_cons, List.filterMap_cons, ih, hhead.1, hhead.2]

/-- One step of a run without disturbance: a datagram of the gateway keeps the slots alike, and any
other is handled in both runs, with the same bytes written. -/
theorem isolated_step {g : u8} {s : Server} {t pre post before : List (Rx × Option TunWrite)}
    {e : Rx × Option TunWrite} {joint joint' solo : Server} (hquiet : UndisturbedRun g s t)
    (ht : t = pre ++ e :: post) (hpre : Run machine s pre joint)
    (hbefore : Run machine s before solo)
    (hin : before.map Prod.fst = (pre.map Prod.fst).filter (keeps g))
    (hR : Parallel g (pre.map Prod.fst) joint solo) (hstep : machine joint e.1 e.2 joint') :
    if keeps g e.1 then
      ∃ out solo', machine solo e.1 out solo' ∧ e.2.map TunWrite.bytes = out.map TunWrite.bytes ∧
        Parallel g (pre.map Prod.fst ++ [e.1]) joint' solo'
    else Parallel g (pre.map Prod.fst ++ [e.1]) joint' solo := by
  cases hkeep : keeps g e.1 with
  | false => exact parallel_deleted hR hkeep hstep
  | true =>
      by_cases hacc : accepts e.1.msg = true
      · have hund := hquiet pre e post joint before solo ht hpre hbefore hin hacc hkeep
        have hheld := held_run hbefore e.1.place
        rw [hin] at hheld
        have hfound := hund.found (held_run hpre e.1.place) hheld
        obtain ⟨solo', out, hsolo, hbytes, hslots⟩ :=
          undisturbed_step hacc hR hfound hund.length hstep
        refine ⟨out, solo', hsolo, hbytes, ?_⟩
        apply parallel_kept hR hkeep hstep hsolo
        intro c huses
        have hplace : e.1.place = .slot c := place_of_uses huses
        rw [← hplace]
        exact hslots c hplace
      · -- a rejected message changes nothing and writes nothing
        have hsolo : receiverStep solo e.1 = .ok (solo, none) := receiverStep_rejected hacc
        refine ⟨none, solo, hsolo, ?_, ?_⟩
        · rw [(step_rejected hacc hstep).2]
        · apply parallel_kept hR hkeep hstep hsolo
          intro c huses
          exact absurd (accepts_of_uses huses) hacc

/-- In a run in which gateway `g2` disturbs nobody, what is written for another gateway is what
would be written without the datagrams of `g2`. -/
theorem gateway_isolation (g1 g2 : u8) (hne : g1 ≠ g2) (s sv : Server)
    (t : List (Rx × Option TunWrite)) (hrun : Run machine s t sv) (hquiet : UndisturbedRun g2 s t) :
    ∃ solo sv', Run machine s solo sv' ∧ solo.map Prod.fst = (t.map Prod.fst).filter (keeps g2) ∧
      writes g1 solo = writes g1 t := by
  have hstart : Parallel g2 [] s s := by
    intro c _
    apply FecSlot.Alike.refl
    intro rx hmem
    cases hmem
  obtain ⟨solo, sv', hsolo, hin, hout, -⟩ := hrun.unwind (Parallel g2)
    (fun o o' => o.map TunWrite.bytes = o'.map TunWrite.bytes) (keeps g2) hstart
    fun _ _ _ _ _ _ _ ht hpre hbefore hin hR hstep =>
      isolated_step hquiet ht hpre hbefore hin hR hstep
  refine ⟨solo, sv', hsolo, hin, ?_⟩
  rw [← writes_agree hout, writes_filter hne]

/-! ### Two gateways at one place -/

/-- A datagram without FEC of one byte, numbered `256 * seqHi`. Both the numbers 0 and 8192 belong
to place 0 of the filter. -/
def oneByteRx (gw seqHi : u8) : Rx :=
  { worker := 0, clock := { init := 4, gateway := 4, conn := 4, recv := 4 }
    allocGateway := true, allocConn := true, addr := { addr := 0, port := 0 }
    msg := recvmmsg [] [0x5A, 0x00, gw, 0x01, seqHi, 0x00, 0x00, 0x01, 0x45] }

/-- What is written for a gateway in the run on given inputs. -/
def writesOn (g : u8) (s : Server) (inputs : List Rx) : Option (List (List u8)) :=
  match exec receiverStep s inputs with
  | .error _ => none
  | .ok (_, t) => some (writes g t)

/-- The writes of a run are those that its datagrams determine. -/
theorem writesOn_run {g : u8} {s sv : Server} {t : List (Rx × Option TunWrite)}
    (hrun : Run machine s t sv) : writesOn g s (t.map Prod.fst) = some (writes g t) := by
  unfold writesOn
  rw [run_iff_exec.1 ⟨hrun, rfl⟩]

/-- Where the writes are determined, there is a run with them. -/
theorem exists_of_writesOn {g : u8} {s : Server} {inputs : List Rx} {w : List (List u8)}
    (h : writesOn g s inputs = some w) :
    ∃ t sv, Run machine s t sv ∧ t.map Prod.fst = inputs ∧ writes g t = w := by
  unfold writesOn at h
  cases hexec : exec receiverStep s inputs with
  | error fault =>
      rw [hexec] at h
      cases h
  | ok r =>
      rw [hexec] at h
      obtain ⟨hrun, hin⟩ := run_iff_exec.2 hexec
      exact ⟨r.2, r.1, hrun, hin, Option.some.inj h⟩

/-- Gateway 2 sends number 8192 and gateway 1 number 0, by way of one place: both are written. -/
theorem gateway_isolation_newNumber :
    ∃ t sv solo sv', Run machine (start true (fun _ => 3) 4) t sv ∧
      t.map Prod.fst = [oneByteRx 2 32, oneByteRx 1 0] ∧
      Run machine (start true (fun _ => 3) 4) solo sv' ∧
      solo.map Prod.fst = (t.map Prod.fst).filter (keeps 2) ∧
      writes 1 t = [[0x45#8]] ∧ writes 1 solo = writes 1 t := by
  have hwrites : writesOn 1 (start true (fun _ => 3) 4) [oneByteRx 2 32, oneByteRx 1 0] =
      some [[0x45#8]] := by decide
  obtain ⟨t, sv, hrun, hin, hw⟩ := exists_of_writesOn hwrites
  have hquiet : UndisturbedRun 2 (start true (fun _ => 3) 4) t := by
    intro pre e post joint before solo ht _ _ _ _ hkeep
    rw [ht, List.map_append, List.map_cons] at hin
    match pre, hin with
    | [], hin =>
        have he : e.1 = oneByteRx 2 32 := (List.cons.inj hin).1
        rw [he] at hkeep
        cases hkeep
    | [x], hin =>
        obtain ⟨hx, hrest⟩ := List.cons.inj hin
        have he : e.1 = oneByteRx 1 0 := (List.cons.inj hrest).1
        have hpre : [x].map Prod.fst = [oneByteRx 2 32] := congrArg (fun rx => [rx]) hx
        rw [he, hpre]
        constructor
        · left
          constructor
          · decide
          · decide
          · decide
        · intro hfec
          exact absurd rfl hfec
    | x :: y :: pre, hin =>
        have hlen := congrArg List.length hin
        simp at hlen
  obtain ⟨solo, sv', hsolo, hsoloIn, hsame⟩ :=
    gateway_isolation 1 2 (by decide) (start true (fun _ => 3) 4) sv t hrun hquiet
  exact ⟨t, sv, solo, sv', hrun, hin, hsolo, hsoloIn, hw, hsame⟩

/-- Gateway 2 sends number 0 and then gateway 1 does: the packet of gateway 1 is dropped, and
without gateway 2 it is written. -/
theorem gateway_not_isolated :
    ∃ t sv, Run machine (start true (fun _ => 3) 4) t sv ∧
      t.map Prod.fst = [oneByteRx 2 0, oneByteRx 1 0] ∧
      ¬ ∃ solo sv', Run machine (start true (fun _ => 3) 4) solo sv' ∧
        solo.map Prod.fst = (t.map Prod.fst).filter (keeps 2) ∧ writes 1 solo = writes 1 t := by
  have hjoint : writesOn 1 (start true (fun _ => 3) 4) [oneByteRx 2 0, oneByteRx 1 0] =
      some [] := by decide
  obtain ⟨t, sv, hrun, hin, hw⟩ := exists_of_writesOn hjoint
  refine ⟨t, sv, hrun, hin, ?_⟩
  intro h
  obtain ⟨solo, sv', hsolo, hsoloIn, hsame⟩ := h
  have hwrites := writesOn_run (g := 1) hsolo
  have halone : writesOn 1 (start true (fun _ => 3) 4) [oneByteRx 1 0] = some [[0x45#8]] := by
    decide
  have hkept : [oneByteRx 2 0, oneByteRx 1 0].filter (keeps 2) = [oneByteRx 1 0] := rfl
  rw [hsoloIn, hin, hkept, halone, hsame, hw] at hwrites
  cases hwrites

end Ustun

end ConfigEnv.TunVpn
