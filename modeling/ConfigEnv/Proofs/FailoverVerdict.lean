/-
Module: ConfigEnv.Proofs.FailoverVerdict
Layer: Proofs
Purpose: What the verdict of the failover analysis says. OK is sound. NO_LOSS is what is left when
  the log has no step over a number and the curve no visible dip, so it is also the verdict on a log
  without replies and on a file that cannot be read. The count of lost pings is the number of
  missing ones for a log in order, and in every order only for one or two consecutive numbers.
Trusted boundary: none
Main exports: Complete, Seamless, Recovered, Skips, Dips, Covered, lost_eq_gapSum, dipped_iff,
  noLoss_iff, recovered_of_ok, failover_sound_iff, lost_exact_iff
Open obligations: none
-/
import ConfigEnv.Lib.Gaps
import ConfigEnv.Mptcp.Failover

namespace ConfigEnv.Mptcp.Failover

open Gaps (gapSum missing)

variable {args : Args} {replies : List Reply} {file : IperfFile} {c : Curve} {base : ℚ}
  {tp : List (ℚ × ℚ)}

/-! ### What the verdict promises -/

/-- There is a reply, and no number between two replied ones is missing. -/
structure Complete (replies : List Reply) : Prop where
  replied : replies ≠ []
  between : ∀ a ∈ seqs replies, ∀ b ∈ seqs replies, ∀ n, a < n → n < b → n ∈ seqs replies

/-- There are intervals before and after the path went down, and no interval after is below half of
the mean before. -/
def NoDip (args : Args) (file : IperfFile) : Prop :=
  ∃ tp, throughputs file = some tp ∧ pre args tp ≠ [] ∧ post args tp ≠ [] ∧
    ∀ p ∈ post args tp, ¬ p.2 < mean (pre args tp) * (1 / 2)

/-- Nothing was lost, and there was no dip. -/
def Seamless (args : Args) (replies : List Reply) (file : IperfFile) : Prop :=
  Complete replies ∧ NoDip args file

/-- Some entry is below half of `base` and a later one reaches the threshold. -/
def RecoversIn (args : Args) (base : ℚ) (tp : List (ℚ × ℚ)) : Prop :=
  ∃ l p r, tp = l ++ p :: r ∧ p.2 < base * (1 / 2) ∧ ∃ q ∈ r, base * args.recPct / 100 ≤ q.2

/-- The throughput recovers after the dip. -/
def Recovered (args : Args) (file : IperfFile) : Prop :=
  ∃ tp, throughputs file = some tp ∧ RecoversIn args (mean (pre args tp)) (post args tp)

/-! ### What decides it -/

/-- Some reply is more than one ahead of the reply before it in the log. -/
def Skips (replies : List Reply) : Prop :=
  ∃ l a b r, seqs replies = l ++ a :: b :: r ∧ a + 1 < b

/-- The curve has a base to compare with, and an interval below half of it. -/
def Dips (args : Args) (file : IperfFile) : Prop :=
  ∃ tp, throughputs file = some tp ∧ pre args tp ≠ [] ∧ 0 < mean (pre args tp) ∧
    ∃ p ∈ post args tp, p.2 < mean (pre args tp) * (1 / 2)

/-- There are intervals before and after the path went down, and the mean before is positive, or
no interval after is below half of it. -/
def Covered (args : Args) (file : IperfFile) : Prop :=
  ∃ tp, throughputs file = some tp ∧ pre args tp ≠ [] ∧ post args tp ≠ [] ∧
    (0 < mean (pre args tp) ∨ ∀ p ∈ post args tp, mean (pre args tp) * (1 / 2) ≤ p.2)

/-! ### The ping log -/

/-- The loop over the replies adds up the gaps between neighbours. -/
theorem gapLoop_fst (times : ℕ → ℚ) (s : List ℕ) (acc : ℤ × ℚ) :
    (gapLoop times s acc).1 = acc.1 + gapSum s := by
  induction s generalizing acc with
  | nil => simp [gapLoop, gapSum]
  | cons a s ih =>
      cases s with
      | nil => simp [gapLoop, gapSum]
      | cons b s =>
          rw [gapLoop, gapSum]
          split <;> rw [ih] <;> omega

theorem lost_eq_gapSum : (benchFailover args replies file).lost = gapSum (seqs replies) :=
  (gapLoop_fst _ _ _).trans (Int.zero_add _)

/-- No packet counts as lost exactly when the log skips no number. -/
theorem lost_eq_zero_iff (args : Args) (replies : List Reply) (file : IperfFile) :
    (benchFailover args replies file).lost = 0 ↔ ¬ Skips replies := by
  rw [lost_eq_gapSum, Int.natCast_eq_zero, Gaps.gapSum_eq_zero_iff,
    List.isChain_iff_forall_rel_of_append_cons_cons, Skips]
  constructor
  · rintro h ⟨l, a, b, r, hlog, hab⟩
    have hba := h hlog
    omega
  · intro h a b l r hlog
    by_contra hba
    exact h ⟨l, a, b, r, hlog, Nat.not_le.1 hba⟩

/-! ### The curve -/

/-- The loop notices a dip exactly when some interval is below half of the base. -/
theorem recoverLoop_dipped : (recoverLoop args base tp c).dipped = true ↔
    c.dipped = true ∨ ∃ p ∈ tp, p.2 < base * (1 / 2) := by
  induction tp generalizing c with
  | nil => simp [recoverLoop]
  | cons p tp ih =>
      obtain ⟨t, v⟩ := p
      rw [recoverLoop, List.exists_mem_cons_iff]
      dsimp only
      by_cases hlow : v < base * (1 / 2)
      · rw [if_pos hlow, ih]
        exact iff_of_true (.inl rfl) (.inr (.inl hlow))
      · rw [if_neg hlow]
        by_cases hback : c.dipped = true ∧ base * args.recPct / 100 ≤ v
        · rw [if_pos hback]
          exact iff_of_true hback.1 (.inl hback.1)
        · rw [if_neg hback, ih, or_iff_right hlow]

/-- The loop sets the time of the recovery only after a dip. -/
theorem recoverLoop_recover (h : (recoverLoop args base tp c).recover ≠ c.recover) :
    (c.dipped = true ∧ ∃ q ∈ tp, base * args.recPct / 100 ≤ q.2) ∨ RecoversIn args base tp := by
  induction tp generalizing c with
  | nil => exact absurd rfl h
  | cons p tp ih =>
      obtain ⟨t, v⟩ := p
      have hlater : RecoversIn args base tp → RecoversIn args base ((t, v) :: tp) := by
        rintro ⟨l, p, r, rfl, hlow, hback⟩
        exact ⟨(t, v) :: l, p, r, rfl, hlow, hback⟩
      rw [recoverLoop] at h
      by_cases hlow : v < base * (1 / 2)
      · rw [if_pos hlow] at h
        rcases ih h with ⟨-, hback⟩ | hrec
        · exact .inr ⟨[], (t, v), tp, rfl, hlow, hback⟩
        · exact .inr (hlater hrec)
      · rw [if_neg hlow] at h
        by_cases hback : c.dipped = true ∧ base * args.recPct / 100 ≤ v
        · exact .inl ⟨hback.1, (t, v), List.mem_cons_self, hback.2⟩
        · rw [if_neg hback] at h
          rcases ih h with ⟨hdipped, q, hq, hreach⟩ | hrec
          · exact .inl ⟨hdipped, q, List.mem_cons_of_mem _ hq, hreach⟩
          · exact .inr (hlater hrec)

theorem dips_iff (htp : throughputs file = some tp) : Dips args file ↔
    pre args tp ≠ [] ∧ 0 < mean (pre args tp) ∧
      ∃ p ∈ post args tp, p.2 < mean (pre args tp) * (1 / 2) := by
  rw [Dips, htp]
  constructor
  · rintro ⟨_, ⟨⟩, h⟩
    exact h
  · intro h
    exact ⟨tp, rfl, h⟩

/-- The curve is left as it is, or it is read with a positive base. -/
theorem curve_cases (args : Args) (file : IperfFile) :
    (curve args file = .initial ∧ ¬ Dips args file) ∨
    ∃ tp dip, throughputs file = some tp ∧ pre args tp ≠ [] ∧ 0 < mean (pre args tp) ∧
      curve args file = recoverLoop args (mean (pre args tp)) (post args tp)
        { Curve.initial with dip := dip } := by
  rw [curve]
  cases htp : throughputs file with
  | none =>
      refine .inl ⟨rfl, ?_⟩
      rintro ⟨tp, hsome, -⟩
      rw [htp] at hsome
      cases hsome
  | some tp =>
      dsimp only
      rw [dips_iff htp]
      by_cases hpre : pre args tp = []
      · rw [if_pos hpre]
        exact .inl ⟨rfl, fun h => h.1 hpre⟩
      · rw [if_neg hpre]
        cases hpost : post args tp with
        | nil =>
            refine .inl ⟨rfl, ?_⟩
            rintro ⟨-, -, p, hp, -⟩
            cases hp
        | cons p ps =>
            dsimp only
            by_cases hbase : 0 < mean (pre args tp)
            · rw [if_pos hbase]
              exact .inr ⟨tp, _, rfl, hpre, hbase, by rw [hpost]⟩
            · rw [if_neg hbase]
              exact .inl ⟨rfl, fun h => hbase h.2.1⟩

/-- The curve has a dip exactly when the file has one. -/
theorem dipped_iff : (curve args file).dipped = true ↔ Dips args file := by
  rcases curve_cases args file with ⟨hcurve, hno⟩ | ⟨tp, dip, htp, hpre, hbase, hcurve⟩
  · rw [hcurve]
    exact iff_of_false Bool.false_ne_true hno
  · rw [hcurve, recoverLoop_dipped, dips_iff htp]
    constructor
    · rintro (h | h)
      · cases h
      · exact ⟨hpre, hbase, h⟩
    · rintro ⟨-, -, h⟩
      exact .inr h

/-- A recovery that is reported has a dip before it. -/
theorem recovered_of_recover (h : (curve args file).recover ≠ -1) :
    Recovered args file ∧ Dips args file := by
  rcases curve_cases args file with ⟨hcurve, -⟩ | ⟨tp, dip, htp, hpre, hbase, hcurve⟩
  · exact absurd (congrArg Curve.recover hcurve) h
  · rw [hcurve] at h
    rcases recoverLoop_recover h with ⟨hdipped, -⟩ | hrec
    · cases hdipped
    · refine ⟨⟨tp, htp, hrec⟩, (dips_iff htp).2 ⟨hpre, hbase, ?_⟩⟩
      obtain ⟨l, p, r, hpost, hlow, -⟩ := hrec
      exact ⟨p, hpost ▸ List.mem_append_right l List.mem_cons_self, hlow⟩

/-! ### The verdict -/

/-- The verdict `OK` means that the throughput has recovered. -/
theorem recovered_of_ok (h : (benchFailover args replies file).status = .ok) :
    Recovered args file := by
  refine (recovered_of_recover fun hrecover => ?_).1
  change status _ (curve args file) = .ok at h
  rw [status, hrecover, if_neg (by decide)] at h
  split at h
  · split at h <;> cases h
  · cases h

/-- NO_LOSS is what is left without a step over a number and without a visible dip. -/
theorem noLoss_iff : (benchFailover args replies file).status = .noLoss ↔
    ¬ Skips replies ∧ ¬ Dips args file := by
  rw [← lost_eq_zero_iff args replies file, ← dipped_iff]
  change status (benchFailover args replies file).lost (curve args file) = .noLoss ↔ _
  rw [status]
  by_cases hdipped : (curve args file).dipped = true
  · refine iff_of_false (fun h => ?_) fun h => h.2 hdipped
    rw [hdipped] at h
    split at h <;> cases h
  · have hrecover : (curve args file).recover = -1 := by
      by_contra hne
      exact hdipped (dipped_iff.2 (recovered_of_recover hne).2)
    rw [hrecover, if_neg (by decide), if_pos (Bool.eq_false_of_not_eq_true hdipped)]
    split
    · next hlost => exact iff_of_true rfl ⟨hlost, hdipped⟩
    · next hlost => exact iff_of_false (by rintro ⟨⟩) fun h => hlost h.1

/-- The verdict is sound unless the log and the curve show nothing because there is nothing in them,
or because a late reply hides what is missing. -/
theorem failover_sound_iff (args : Args) (replies : List Reply) (file : IperfFile) :
    (((benchFailover args replies file).status = .noLoss → Seamless args replies file) ∧
      ((benchFailover args replies file).status = .ok → Recovered args file)) ↔
    Skips replies ∨ Dips args file ∨ (Complete replies ∧ Covered args file) := by
  constructor
  · rintro ⟨hsound, -⟩
    by_cases hskips : Skips replies
    · exact .inl hskips
    · by_cases hdips : Dips args file
      · exact .inr (.inl hdips)
      · obtain ⟨hcomplete, tp, htp, hpre, hpost, hhigh⟩ :=
          hsound (noLoss_iff.2 ⟨hskips, hdips⟩)
        exact .inr (.inr ⟨hcomplete, tp, htp, hpre, hpost,
          .inr fun p hp => not_lt.1 (hhigh p hp)⟩)
  · intro hwhen
    refine ⟨fun hnoLoss => ?_, recovered_of_ok⟩
    obtain ⟨hskips, hdips⟩ := noLoss_iff.1 hnoLoss
    obtain ⟨hcomplete, tp, htp, hpre, hpost, hbase⟩ :=
      (hwhen.resolve_left hskips).resolve_left hdips
    refine ⟨hcomplete, tp, htp, hpre, hpost, fun p hp hlow => ?_⟩
    rcases hbase with hbase | hhigh
    · exact hdips ((dips_iff htp).2 ⟨hpre, hbase, p, hp, hlow⟩)
    · exact not_lt.2 (hhigh p hp) hlow

/-- A log without replies and a file that cannot be read. -/
theorem nothing_is_noLoss : ¬ ∀ (args : Args) (replies : List Reply) (file : IperfFile),
    ((benchFailover args replies file).status = .noLoss → Seamless args replies file) ∧
      ((benchFailover args replies file).status = .ok → Recovered args file) := by
  intro hall
  exact ((hall { downAt := 20, recPct := 80 } [] none).1 rfl).1.replied rfl

/-! ### The count -/

/-- Another order of the numbers is another order of the replies. -/
theorem exists_perm_seqs {s : List ℕ} (h : s.Perm (seqs replies)) :
    ∃ replies' : List Reply, replies'.Perm replies ∧ seqs replies' = s := by
  have hmap : List.Forall₂ (fun n r => n = Reply.seq r) (seqs replies) replies :=
    List.forall₂_map_left_iff.2 (List.forall₂_same.2 fun _ _ => rfl)
  obtain ⟨replies', hseqs, hperm⟩ := List.perm_comp_forall₂ h hmap
  have heq : List.Forall₂ (· = ·) s (seqs replies') := List.forall₂_map_right_iff.2 hseqs
  rw [List.forall₂_eq_eq_eq] at heq
  exact ⟨replies', hperm, heq.symm⟩

/-- The count is the number of missing pings, in every order of the log, exactly if the log has at
most two numbers and these are consecutive; for a log in order it always is. -/
theorem lost_exact_iff (args : Args) (replies : List Reply) (file : IperfFile) :
    (((benchFailover args replies file).lost = (missing (seqs replies)).card ∧
        ∀ replies' : List Reply, replies'.Perm replies →
          (benchFailover args replies' file).lost = (benchFailover args replies file).lost) ↔
      ∀ a ∈ seqs replies, ∀ b ∈ seqs replies, b ≤ a + 1) ∧
    ((seqs replies).Pairwise (· ≤ ·) →
      (benchFailover args replies file).lost = (missing (seqs replies)).card) := by
  simp only [lost_eq_gapSum, Int.natCast_inj]
  refine ⟨?_, Gaps.gapSum_of_sorted⟩
  rw [← Gaps.gapSum_perm_iff]
  refine and_congr_right fun _ => ⟨fun h s hs => ?_, fun h replies' hperm => ?_⟩
  · obtain ⟨replies', hperm, rfl⟩ := exists_perm_seqs hs
    exact h replies' hperm
  · exact h (seqs replies') (hperm.map Reply.seq)

/-- A late reply: 3 is counted as if 2 were lost. -/
theorem late_reply_counts : ¬ ∀ (args : Args) (replies : List Reply) (file : IperfFile),
    (benchFailover args replies file).lost = (missing (seqs replies)).card ∧
      ∀ replies' : List Reply, replies'.Perm replies →
        (benchFailover args replies' file).lost = (benchFailover args replies file).lost := by
  intro hall
  obtain ⟨hlost, -⟩ := hall { downAt := 20, recPct := 80 }
    [{ time := 1, seq := 1 }, { time := 2, seq := 3 }, { time := 3, seq := 2 }] none
  rw [lost_eq_gapSum, Int.natCast_inj] at hlost
  revert hlost
  decide

end ConfigEnv.Mptcp.Failover
