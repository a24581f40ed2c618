/-
Module: ConfigEnv.Proofs.GatewayExpiry
Layer: Proofs
Purpose: What the gateway map holds after any calls. There is one entry for a gateway, and a path
  that an entry says it has seen was seen last at the time and from the address that it says. Expiry
  is another matter: it takes an entry away when all of its paths expire in the same pass, so that a
  gateway stays for ever when its paths expire one after another or when one of them was never seen.
Trusted boundary: none
Main exports: GatewayOp.time, GatewayOp.updateOf, RecentPaths, gateway_map_recent, GatewayAddr.Live,
  LeavesLiveOnly, PathsExpireTogether, cleanup_leaves_live_iff
Open obligations: none
-/
import ConfigEnv.Proofs.ConnTable
import Mathlib.Tactic.Push

namespace ConfigEnv.TunVpn

open Machine

/-- The clock that a call reads. -/
def GatewayOp.time : GatewayOp → Int
  | .update _ _ _ ts _ => ts
  | .cleanup now _ => now

/-! ### One update -/

section Update

variable {gws : List GatewayAddr} {ts : Int} {alloc : Bool} {gatewayId pathId : u8}
  {addr : SockAddr} {i : Fin maxGwApn}

/-- `path_id--` wraps, so that 0 is out of range as well. -/
theorem path_index (pathId : u8) :
    (pathId - 1).toNat < maxGwApn ↔ pathId ≠ 0 ∧ pathId.toNat ≤ maxGwApn := by
  rw [BitVec.toNat_sub, ne_eq, ← BitVec.toNat_inj]
  have hlt := pathId.isLt
  change (2 ^ 8 - 1 + pathId.toNat) % 2 ^ 8 < 2 ↔ pathId.toNat ≠ 0 ∧ pathId.toNat ≤ 2
  omega

/-- A path that does not exist changes nothing. -/
theorem updateGatewayMap_out_of_range (h : pathId = 0 ∨ maxGwApn < pathId.toNat) :
    updateGatewayMap gws ts alloc gatewayId addr pathId = gws := by
  have hrange : ¬ (pathId - 1).toNat < maxGwApn := by
    rw [path_index]
    rintro ⟨hne, hle⟩
    rcases h with hzero | hbig
    · exact hne hzero
    · exact Nat.not_lt.2 hle hbig
  rw [updateGatewayMap, dif_neg hrange]

/-- The entries of the map are about different gateways, and their times come from a clock that is
positive. -/
structure Keyed (gws : List GatewayAddr) : Prop where
  nodup : (gws.map GatewayAddr.gatewayId).Nodup
  used : ∀ gw ∈ gws, 0 < gw.lastUsed
  seen : ∀ gw ∈ gws, ∀ i, 0 ≤ gw.lastSeenApn i

/-- An update on path `i`: the entry of the gateway is rewritten if there is one, and added
otherwise. -/
theorem updateGatewayMap_path (h : Keyed gws) (hpath : pathId.toNat = i.val + 1) :
    updateGatewayMap gws ts alloc gatewayId addr pathId =
      if ∃ gw ∈ gws, gw.gatewayId = gatewayId then
        gws.map fun gw => if gw.gatewayId = gatewayId then gw.seen i addr ts else gw
      else if alloc then
        { GatewayAddr.zero.seen i addr ts with gatewayId := gatewayId } :: gws
      else gws := by
  let p : GatewayAddr → Bool := fun gw => gw.gatewayId = gatewayId ∧ gw.lastUsed > 0
  have hp : ∀ gw ∈ gws, p gw = true ↔ gw.gatewayId = gatewayId := by
    intro gw hgw
    rw [decide_eq_true_eq]
    exact and_iff_left (h.used gw hgw)
  have hindex : (pathId - 1).toNat = i.val := by
    rw [BitVec.toNat_sub, hpath]
    have hi := i.isLt
    change (2 ^ 8 - 1 + (i.val + 1)) % 2 ^ 8 = i.val
    omega
  have hrange : (pathId - 1).toNat < maxGwApn := hindex ▸ i.isLt
  have hfin : (⟨(pathId - 1).toNat, hrange⟩ : Fin maxGwApn) = i := Fin.ext hindex
  rw [updateGatewayMap]
  simp only [dif_pos hrange, hfin]
  by_cases hfound : ∃ gw ∈ gws, gw.gatewayId = gatewayId
  · rw [if_pos hfound]
    cases htouch : touchFirst p (fun gw => gw.seen i addr ts) gws with
    | none =>
        obtain ⟨gw, hgw, hid⟩ := hfound
        exact absurd ((hp gw hgw).2 hid) (touchFirst_eq_none.1 htouch gw hgw)
    | some gws' =>
        have hone : gws.Pairwise fun a b => p a = true → ¬ p b = true := by
          apply List.Pairwise.imp_of_mem ?_ (List.pairwise_map.1 h.nodup)
          intro a b ha hb hne hpa hpb
          exact hne (((hp a ha).1 hpa).trans ((hp b hb).1 hpb).symm)
        dsimp only
        rw [touchFirst_eq_map hone htouch]
        apply List.map_congr_left
        intro gw hgw
        simp only [hp gw hgw]
  · have hnone : touchFirst p (fun gw => gw.seen i addr ts) gws = none := by
      rw [touchFirst_eq_none]
      intro gw hgw hpgw
      exact hfound ⟨gw, hgw, (hp gw hgw).1 hpgw⟩
    rw [if_neg hfound, hnone]

/-- A path that is in range. -/
theorem exists_path (h : ¬ (pathId = 0 ∨ maxGwApn < pathId.toNat)) :
    ∃ i : Fin maxGwApn, pathId.toNat = i.val + 1 := by
  rw [not_or, Nat.not_lt, ← BitVec.toNat_inj] at h
  obtain ⟨hne, hle⟩ := h
  change pathId.toNat ≠ 0 at hne
  exact ⟨⟨pathId.toNat - 1, by omega⟩, by simp only []; omega⟩

end Update

/-! ### One call -/

section Step

variable {gws : List GatewayAddr} {op : GatewayOp}

/-- What a call writes about path `i` of a gateway. -/
def GatewayOp.updateOf (gatewayId : u8) (i : Fin maxGwApn) : GatewayOp → Option (SockAddr × Int)
  | .update id addr pathId ts _ =>
      if id = gatewayId ∧ pathId.toNat = i.val + 1 then some (addr, ts) else none
  | .cleanup _ _ => none

/-- The entries after a call: an update has written one path of its gateway, and a cleanup has taken
the time from paths that expired. -/
theorem gatewayStep_entries (h : Keyed gws) {gw' : GatewayAddr} (hmem : gw' ∈ gatewayStep gws op) :
    (gw' ∈ gws ∧ ∀ i, op.updateOf gw'.gatewayId i = none) ∨
    (∃ old i addr, (old ∈ gws ∨ ∀ j, old.lastSeenApn j = 0) ∧
      gw' = old.seen i addr op.time ∧
      ∀ j, op.updateOf gw'.gatewayId j = if j = i then some (addr, op.time) else none) ∨
    (∃ old ∈ gws, gw' = old.expire op.time ∧ ∀ i, op.updateOf gw'.gatewayId i = none) := by
  cases op with
  | update gatewayId addr pathId ts alloc =>
      by_cases hrange : pathId = 0 ∨ maxGwApn < pathId.toNat
      · rw [gatewayStep, updateGatewayMap_out_of_range hrange] at hmem
        refine .inl ⟨hmem, fun i => if_neg ?_⟩
        rintro ⟨-, hpath⟩
        rcases hrange with rfl | hbig
        · cases hpath
        · exact absurd i.isLt (by omega)
      · obtain ⟨i, hpath⟩ := exists_path hrange
        rw [gatewayStep, updateGatewayMap_path h hpath] at hmem
        have hother : ∀ gw ∈ gws, gw.gatewayId ≠ gatewayId →
            ∀ j, (GatewayOp.update gatewayId addr pathId ts alloc).updateOf gw.gatewayId j =
              none :=
          fun gw _ hne j => if_neg fun hid => hne hid.1.symm
        have hown : ∀ j, (GatewayOp.update gatewayId addr pathId ts alloc).updateOf gatewayId j =
            if j = i then some (addr, ts) else none := by
          intro j
          simp only [GatewayOp.updateOf, hpath, true_and, Nat.add_right_cancel_iff, Fin.ext_iff,
            eq_comm]
        split at hmem
        · obtain ⟨gw, hgw, rfl⟩ := List.mem_map.1 hmem
          by_cases hid : gw.gatewayId = gatewayId
          · rw [if_pos hid]
            exact .inr (.inl ⟨gw, i, addr, .inl hgw, rfl, hid ▸ hown⟩)
          · rw [if_neg hid]
            exact .inl ⟨hgw, hother gw hgw hid⟩
        · next hfound =>
            have hkept : gw' ∈ gws → ∀ j, (GatewayOp.update gatewayId addr pathId ts alloc).updateOf
                gw'.gatewayId j = none :=
              fun hgw => hother gw' hgw fun hid => hfound ⟨gw', hgw, hid⟩
            split at hmem
            · rcases List.mem_cons.1 hmem with rfl | hgw
              · exact .inr (.inl ⟨{ GatewayAddr.zero with gatewayId := gatewayId }, i, addr,
                .inr fun _ => rfl, rfl, hown⟩)
              · exact .inl ⟨hgw, hkept hgw⟩
            · exact .inl ⟨hmem, hkept hmem⟩
  | cleanup now expire =>
      obtain ⟨old, hold, rfl⟩ := List.mem_map.1 hmem
      exact .inr (.inr ⟨old, (List.mem_filter.1 hold).1, rfl, fun _ => rfl⟩)

/-- The gateways after a call. -/
theorem gatewayStep_nodup (h : Keyed gws) :
    ((gatewayStep gws op).map GatewayAddr.gatewayId).Nodup := by
  cases op with
  | update gatewayId addr pathId ts alloc =>
      by_cases hrange : pathId = 0 ∨ maxGwApn < pathId.toNat
      · rw [gatewayStep, updateGatewayMap_out_of_range hrange]
        exact h.nodup
      · obtain ⟨i, hpath⟩ := exists_path hrange
        rw [gatewayStep, updateGatewayMap_path h hpath]
        split
        · have hids : (gws.map fun gw => if gw.gatewayId = gatewayId then gw.seen i addr ts
              else gw).map GatewayAddr.gatewayId = gws.map GatewayAddr.gatewayId := by
            rw [List.map_map]
            apply List.map_congr_left
            intro gw _
            change (if gw.gatewayId = gatewayId then gw.seen i addr ts else gw).gatewayId = _
            split <;> rfl
          rw [hids]
          exact h.nodup
        · next hfound =>
            split
            · rw [List.map_cons, List.nodup_cons]
              refine ⟨fun hmem => hfound ?_, h.nodup⟩
              exact List.mem_map.1 hmem
            · exact h.nodup
  | cleanup now expire =>
      rw [gatewayStep, cleanupExpiredGateways, List.map_map]
      exact (List.Sublist.map GatewayAddr.gatewayId List.filter_sublist).nodup h.nodup

/-- Every call at a positive time keeps the map keyed. -/
theorem gatewayStep_keyed (h : Keyed gws) (hpos : 0 < op.time) : Keyed (gatewayStep gws op) where
  nodup := gatewayStep_nodup h
  used gw' hmem := by
    rcases gatewayStep_entries h hmem with
      ⟨hgw, -⟩ | ⟨old, i, addr, -, rfl, -⟩ | ⟨old, hold, rfl, -⟩
    · exact h.used gw' hgw
    · exact hpos
    · exact h.used old hold
  seen gw' hmem i := by
    rcases gatewayStep_entries h hmem with
      ⟨hgw, -⟩ | ⟨old, j, addr, hold, rfl, -⟩ | ⟨old, hold, rfl, -⟩
    · exact h.seen gw' hgw i
    · dsimp only [GatewayAddr.seen]
      split
      · exact Int.le_of_lt hpos
      · rcases hold with hold | hzero
        · exact h.seen old hold i
        · exact (hzero i).ge
    · dsimp only [GatewayAddr.expire]
      split
      · exact Int.le_refl 0
      · exact h.seen old hold i

end Step

/-! ### Runs -/

/-- A path that has been seen was seen last at this time and from this address. -/
def RecentPaths (ops : List GatewayOp) (gws : List GatewayAddr) : Prop :=
  ∀ gw ∈ gws, ∀ i, 0 < gw.lastSeenApn i →
    latest (GatewayOp.updateOf gw.gatewayId i) ops = some (gw.addrApn i, gw.lastSeenApn i)

/-- Every call keeps the record of the recent paths. -/
theorem gatewayStep_recent {ops : List GatewayOp} {gws : List GatewayAddr} {op : GatewayOp}
    (hkeyed : Keyed gws) (h : RecentPaths ops gws) :
    RecentPaths (ops ++ [op]) (gatewayStep gws op) := by
  intro gw' hmem i hseen
  rcases gatewayStep_entries hkeyed hmem with
    ⟨hgw, hquiet⟩ | ⟨old, j, addr, hold, rfl, hwrite⟩ | ⟨old, hold, rfl, hquiet⟩
  · rw [latest_concat_none (hquiet i)]
    exact h gw' hgw i hseen
  · specialize hwrite i
    by_cases hij : i = j
    · subst hij
      rw [if_pos rfl] at hwrite
      rw [latest_concat_some hwrite]
      simp [GatewayAddr.seen]
    · rw [if_neg hij] at hwrite
      rw [latest_concat_none hwrite]
      simp only [GatewayAddr.seen, if_neg hij] at hseen ⊢
      rcases hold with hold | hzero
      · exact h old hold i hseen
      · exact absurd (hzero i) hseen.ne'
  · rw [latest_concat_none (hquiet i)]
    -- a path that has expired is no longer seen
    simp only [GatewayAddr.expire] at hseen ⊢
    split at hseen
    · exact absurd hseen (Int.lt_irrefl 0)
    · next hexpired =>
        rw [if_neg hexpired]
        exact h old hold i hseen

/-- In every run on a positive clock the map is keyed. -/
theorem keyed_run {t : List (GatewayOp × Unit)} {gws : List GatewayAddr}
    (hrun : Run gatewayMachine [] t gws) (hclock : ∀ e ∈ t, 0 < e.1.time) : Keyed gws := by
  apply hrun.invariant Keyed
  · exact ⟨List.nodup_nil, by simp, by simp⟩
  · rintro e he q q' hq rfl
    exact gatewayStep_keyed hq (hclock e he)

/-- In any run on a positive clock a gateway has at most one entry, the entry says of every path
that it has seen where and when the gateway was seen there last, and an update whose path id is out
of range changes nothing. -/
theorem gateway_map_recent (t : List (GatewayOp × Unit)) (gws : List GatewayAddr)
    (hrun : Run gatewayMachine [] t gws) (hclock : ∀ e ∈ t, 0 < e.1.time) :
    (gws.map GatewayAddr.gatewayId).Nodup ∧ RecentPaths (t.map Prod.fst) gws ∧
      ∀ (ts : Int) (alloc : Bool) (gatewayId pathId : u8) (addr : SockAddr),
        pathId = 0 ∨ maxGwApn < pathId.toNat →
          updateGatewayMap gws ts alloc gatewayId addr pathId = gws := by
  refine ⟨(keyed_run hrun hclock).nodup, ?_, fun _ _ _ _ _ => updateGatewayMap_out_of_range⟩
  refine Run.historyInvariant (fun t gws => RecentPaths (t.map Prod.fst) gws) hrun ?_ ?_
  · intro gw hgw
    cases hgw
  · rintro pre e post gws gws' rfl hpre ih rfl
    have hkeyed : Keyed gws :=
      keyed_run hpre fun e' he' => hclock e' (List.mem_append_left _ he')
    rw [List.map_append]
    exact gatewayStep_recent hkeyed ih

/-- Gateway 7 from two addresses on its two paths, and an update for a third path. -/
def threeUpdates : List (GatewayOp × Unit) :=
  [(.update 7 { addr := 1, port := 1 } 1 5 true, ()),
    (.update 7 { addr := 2, port := 2 } 2 6 true, ()),
    (.update 7 { addr := 3, port := 3 } 3 7 true, ())]

/-- There is one entry; its second path is the second address, and the third update is lost. -/
theorem gateway_map_recent_two :
    ∃ gws, Run gatewayMachine [] threeUpdates gws ∧ (gws.map GatewayAddr.gatewayId).Nodup ∧
      latest (GatewayOp.updateOf 7 1) (threeUpdates.map Prod.fst) =
        some ({ addr := 2, port := 2 }, 6) ∧
      updateGatewayMap gws 7 true 7 { addr := 3, port := 3 } 3 = gws := by
  have hrun : Run gatewayMachine [] threeUpdates _ :=
    .cons rfl (.cons rfl (.cons rfl (.nil _)))
  have hclock : ∀ e ∈ threeUpdates, 0 < e.1.time := by
    intro e he
    simp only [threeUpdates, List.mem_cons, List.not_mem_nil, or_false] at he
    rcases he with rfl | rfl | rfl <;> decide
  obtain ⟨hnodup, hrecent, hrange⟩ := gateway_map_recent threeUpdates _ hrun hclock
  refine ⟨_, hrun, hnodup, ?_, hrange 7 true 7 3 _ (.inr (by decide))⟩
  exact hrecent _ List.mem_cons_self 1 (by decide)

/-! ### Expiry -/

/-- Some path of the gateway was seen not longer than `CONN_TIMEOUT` ago. -/
def GatewayAddr.Live (gw : GatewayAddr) (now : Int) : Prop :=
  ∃ i, 0 < gw.lastSeenApn i ∧ now - gw.lastSeenApn i ≤ connTimeout

/-- A cleanup leaves the gateways with a live path and no others. -/
def LeavesLiveOnly (gws : List GatewayAddr) : GatewayOp → Prop
  | .cleanup now false =>
      (∀ gw ∈ cleanupExpiredGateways gws now false, gw.Live now) ∧
        ∀ gw ∈ gws, gw.Live now →
          ∃ gw' ∈ cleanupExpiredGateways gws now false, gw'.gatewayId = gw.gatewayId
  | _ => True

/-- When a cleanup finds a gateway without a live path, no path of it is unset: all of them have
been seen, and none has expired in an earlier pass. -/
def PathsExpireTogether (gws : List GatewayAddr) : GatewayOp → Prop
  | .cleanup now false => ∀ gw ∈ gws, ¬ gw.Live now → ∀ i, gw.lastSeenApn i ≠ 0
  | _ => True

section Expiry

variable {gws : List GatewayAddr} {gw : GatewayAddr} {now : Int}

theorem expired_iff {i : Fin maxGwApn} :
    gw.expired now i = true ↔ gw.lastSeenApn i ≠ 0 ∧ now - gw.lastSeenApn i > connTimeout :=
  decide_eq_true_iff

/-- Fewer than all paths expire when one does not. -/
theorem expiredPaths_lt_iff :
    gw.expiredPaths now < maxGwApn ↔ ∃ i, ¬ gw.expired now i = true := by
  have hlen : (List.finRange maxGwApn).length = maxGwApn := List.length_finRange
  constructor
  · intro hlt
    by_contra hall
    push Not at hall
    have hfilter : (List.finRange maxGwApn).filter (gw.expired now) = List.finRange maxGwApn :=
      List.filter_eq_self.2 fun i _ => hall i
    rw [GatewayAddr.expiredPaths, hfilter, hlen] at hlt
    exact Nat.lt_irrefl _ hlt
  · rintro ⟨i, hi⟩
    have hlt := List.length_filter_lt_length_iff_exists.2 ⟨i, List.mem_finRange i, hi⟩
    rwa [hlen] at hlt

/-- A cleanup keeps the entries with a path that has not expired. -/
theorem mem_cleanup {gw' : GatewayAddr} : gw' ∈ cleanupExpiredGateways gws now false ↔
    ∃ gw ∈ gws, (∃ i, ¬ gw.expired now i = true) ∧ gw.expire now = gw' := by
  simp only [cleanupExpiredGateways, List.mem_map, List.mem_filter, Bool.false_or, and_assoc,
    ← expiredPaths_lt_iff, Bool.not_eq_true', decide_eq_false_iff_not, ge_iff_le, Nat.not_le]

/-- Expiry leaves the live paths alone. -/
theorem expire_live : (gw.expire now).Live now ↔ gw.Live now := by
  constructor
  · rintro ⟨i, hpos, hage⟩
    dsimp only [GatewayAddr.expire] at hpos hage
    split at hpos
    · exact absurd hpos (Int.lt_irrefl 0)
    · next hkept =>
        rw [if_neg hkept] at hage
        exact ⟨i, hpos, hage⟩
  · rintro ⟨i, hpos, hage⟩
    have hkept : ¬ gw.expired now i = true := fun hexp => by
      exact absurd (expired_iff.1 hexp).2 (Int.not_lt.2 hage)
    refine ⟨i, ?_, ?_⟩ <;> dsimp only [GatewayAddr.expire] <;> rwa [if_neg hkept]

/-- A live path has not expired, and a gateway without one has nothing but unset and expired paths.
-/
theorem GatewayAddr.Live.unexpired (h : gw.Live now) : ∃ i, ¬ gw.expired now i = true := by
  obtain ⟨i, -, hage⟩ := h
  exact ⟨i, fun hexp => absurd (expired_iff.1 hexp).2 (Int.not_lt.2 hage)⟩

theorem expired_of_not_live (hlive : ¬ gw.Live now) {i : Fin maxGwApn}
    (hseen : 0 < gw.lastSeenApn i) : gw.expired now i = true := by
  rw [expired_iff]
  refine ⟨hseen.ne', Int.not_le.1 fun hage => hlive ⟨i, hseen, hage⟩⟩

/-- A call leaves live entries only, exactly when the paths of every dead one expire together. -/
theorem leavesLiveOnly_iff (h : Keyed gws) (op : GatewayOp) :
    LeavesLiveOnly gws op ↔ PathsExpireTogether gws op := by
  cases op with
  | update => exact Iff.rfl
  | cleanup now expire =>
      cases expire with
      | true => exact Iff.rfl
      | false =>
          constructor
          · rintro ⟨hlive, -⟩ gw hgw hdead i hzero
            apply hdead
            rw [← expire_live]
            apply hlive
            exact mem_cleanup.2 ⟨gw, hgw, ⟨i, fun hexp => (expired_iff.1 hexp).1 hzero⟩, rfl⟩
          · intro htogether
            refine ⟨fun gw' hgw' => ?_, fun gw hgw hlive => ?_⟩
            · obtain ⟨gw, hgw, ⟨i, hkept⟩, rfl⟩ := mem_cleanup.1 hgw'
              rw [expire_live]
              by_contra hdead
              have hset : 0 < gw.lastSeenApn i :=
                lt_of_le_of_ne (h.seen gw hgw i) (htogether gw hgw hdead i).symm
              exact hkept (expired_of_not_live hdead hset)
            · exact ⟨gw.expire now, mem_cleanup.2 ⟨gw, hgw, hlive.unexpired, rfl⟩, rfl⟩

end Expiry

/-- In any run on a positive clock the cleanups leave the gateways with a live path and no others
exactly when every gateway that they find without one has both of its paths set. -/
theorem cleanup_leaves_live_iff (ops : List GatewayOp) (hclock : ∀ op ∈ ops, 0 < op.time) :
    Always gatewayMachine [] ops LeavesLiveOnly ↔
      Always gatewayMachine [] ops PathsExpireTogether := by
  apply Always.congr
  rintro t op post gws rfl hrun
  apply leavesLiveOnly_iff (keyed_run hrun fun e he => hclock e.1 ?_)
  exact List.mem_append_left _ (List.mem_map_of_mem he)

/-- Gateway 7 is seen at time 1, on `paths`, and not again before a cleanup at time 182. -/
def seenOnce (paths : List u8) : List GatewayOp :=
  paths.map (fun pathId => .update 7 { addr := 1, port := 1 } pathId 1 true) ++ [.cleanup 182 false]

/-- On both paths, and it is taken away. -/
theorem cleanup_leaves_live_both : Always gatewayMachine [] (seenOnce [1, 2]) LeavesLiveOnly := by
  have hclock : ∀ op ∈ seenOnce [1, 2], 0 < op.time := by
    intro op hop
    simp only [seenOnce, List.map_cons, List.map_nil, List.cons_append, List.nil_append,
      List.mem_cons, List.not_mem_nil, or_false] at hop
    rcases hop with rfl | rfl | rfl <;> decide
  apply (cleanup_leaves_live_iff (seenOnce [1, 2]) hclock).2
  refine .cons trivial fun _ _ h => ?_
  cases h
  refine .cons trivial fun _ _ h => ?_
  cases h
  refine .cons ?_ fun _ _ _ => .nil
  intro gw hgw _
  rw [List.mem_singleton.1 hgw]
  decide

/-- On one path, and it stays without a live one. -/
theorem cleanup_leaves_dead : ¬ Always gatewayMachine [] (seenOnce [1]) LeavesLiveOnly := by
  intro h
  obtain ⟨hlive, -⟩ := (h.tail (o := ()) rfl).head
  obtain ⟨i, hseen, -⟩ :=
    hlive _ (mem_cleanup.2 ⟨_, List.mem_singleton_self _, ⟨1, by decide⟩, rfl⟩)
  revert i
  decide

end ConfigEnv.TunVpn
