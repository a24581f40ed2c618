/-
Module: ConfigEnv.Proofs.ListTraversal
Layer: Proofs
Purpose: The operations and traversals of ih_list.h on a memory that holds two rings and nothing
  else. On such a memory no access fails: adding a fresh block and deleting and freeing an entry
  lead to such a memory again, a traversal stops at the first entry that passes its test, and a safe
  traversal visits the entries it began with in order, although its body may free them.
Trusted boundary: none
Main exports: Layout, Layout.swap, Layout.add, Layout.delFree, forEachUntil_spec,
  forEachSafe_spec
Open obligations: none
-/
import ConfigEnv.TunVpn.ListTables
import Mathlib.Data.List.Perm.Subperm

namespace ConfigEnv.TunVpn

open Circular (Ptr Links Chain RingOf)

/-- Two rings make up the allocated memory. -/
structure Layout (h : Heap) (a b : Ptr) (ps qs : List Ptr) : Prop where
  ring : RingOf h.links a ps
  other : RingOf h.links b qs
  apart : ∀ p ∈ a :: ps, p ∉ b :: qs
  blocks : ∀ p, p ∈ h.blocks ↔ p ∈ a :: ps ∨ p ∈ b :: qs

/-! ### Operations whose accesses are to blocks -/

section Accesses

variable {h : Heap} {p q : Ptr}

theorem ihInitListHead_eq (hp : p ∈ h.blocks) :
    ihInitListHead h p = some { h with links := h.links.link p p } := by
  simp [ihInitListHead, Heap.setNext, Heap.setPrev, hp, Links.link]

/-- Adding an element links it behind the head. -/
theorem ihListAdd_eq {head : Ptr} (hhead : head ∈ h.blocks) (hnew : p ∈ h.blocks)
    (hnext : h.links.next head ∈ h.blocks) :
    ihListAdd h p head =
      some { h with links := (h.links.link p (h.links.next head)).link head p } := by
  simp [ihListAdd, ihListAddBetween, Heap.next, Heap.setNext, Heap.setPrev, hhead, hnew, hnext,
    Links.link]

/-- What `ih_list_del` leaves in the pointers. -/
def unlinked (l : Links) (p : Ptr) : Links :=
  { next := Function.update (l.link (l.prev p) (l.next p)).next p ihListPoison1
    prev := Function.update (l.link (l.prev p) (l.next p)).prev p ihListPoison2 }

/-- Deleting an element links its neighbours to each other. -/
theorem ihListDel_eq (hp : p ∈ h.blocks) (hprev : h.links.prev p ∈ h.blocks)
    (hnext : h.links.next p ∈ h.blocks) :
    ihListDel h p = some { h with links := unlinked h.links p } := by
  simp [ihListDel, ihListDelBetween, Heap.next, Heap.prev, Heap.setNext, Heap.setPrev, hp, hprev,
    hnext, unlinked, Links.link]

theorem free_eq (hp : p ∈ h.blocks) :
    h.free p = some { h with blocks := h.blocks.filter (· ≠ p) } := if_pos hp

end Accesses

namespace Layout

variable {h : Heap} {a b p : Ptr} {ps qs zs ys : List Ptr}

/-- The two lists of a layout can change places. -/
theorem swap (hl : Layout h a b ps qs) : Layout h b a qs ps where
  ring := hl.other
  other := hl.ring
  apart q hq hmem := hl.apart q hmem hq
  blocks q := (hl.blocks q).trans or_comm

theorem mem_blocks (hl : Layout h a b ps qs) (hp : p ∈ a :: ps) : p ∈ h.blocks :=
  (hl.blocks p).2 (.inl hp)

/-- A traversal with one more step than there are blocks does not run out. -/
theorem length_lt (hl : Layout h a b ps qs) : ps.length < h.blocks.length := by
  have hsub : (a :: ps) ⊆ h.blocks := fun _ hp => hl.mem_blocks hp
  exact (hl.ring.nodup.subperm hsub).length_le

/-! ### Adding and freeing -/

/-- A fresh block becomes the first entry. -/
theorem add (hl : Layout h a b ps qs) (hfresh : p ∉ h.blocks) :
    ∃ h₁ h₂, ihInitListHead (h.malloc p) p = some h₁ ∧ h₁.blocks = p :: h.blocks ∧
      ihListAdd h₁ p a = some h₂ ∧ Layout h₂ a b (p :: ps) qs := by
  have hnew : p ∉ a :: ps ∧ p ∉ b :: qs := by
    rw [hl.blocks, not_or] at hfresh
    exact hfresh
  have hfirst : p ∈ (h.malloc p).blocks := List.mem_cons_self
  have ha : a ∈ h.blocks := hl.mem_blocks List.mem_cons_self
  -- initialising the block changes no other node
  have hring : RingOf (h.links.link p p) a ps := hl.ring.frame hnew.1 hnew.1
  have hother : RingOf (h.links.link p p) b qs := hl.other.frame hnew.2 hnew.2
  have hnext : (h.links.link p p).next a = ps.headD a := hring.next_head
  have hmem : (h.links.link p p).next a ∈ a :: ps := by
    rw [hnext]
    exact Circular.headD_mem a ps
  refine ⟨{ h.malloc p with links := h.links.link p p }, _, ihInitListHead_eq hfirst, rfl,
    ihListAdd_eq (List.mem_cons_of_mem p ha) hfirst (List.mem_cons_of_mem p (hl.mem_blocks hmem)),
    ?_⟩
  have hhead : (ps ++ [a]).head? = some ((h.links.link p p).next a) := by
    rw [hnext, Circular.head?_concat]
  refine ⟨?_, ?_, fun q hq => ?_, fun q => ?_⟩
  · have hempty : RingOf (h.links.link p p) a ([] ++ ps) := hring
    exact hempty.insert hnew.1 rfl hhead
  · apply RingOf.frame
    · apply hother.frame hnew.2
      exact hl.apart _ hmem
    · exact hl.apart a List.mem_cons_self
    · exact hnew.2
  · rcases List.mem_cons.1 hq with rfl | hq
    · exact hl.apart q List.mem_cons_self
    · rcases List.mem_cons.1 hq with rfl | hq
      · exact hnew.2
      · exact hl.apart q (List.mem_cons_of_mem a hq)
  · change q ∈ p :: h.blocks ↔ _
    rw [List.mem_cons, hl.blocks q]
    simp only [List.mem_cons]
    tauto

/-- An entry leaves its ring and the allocated memory. -/
theorem delFree (hl : Layout h a b (zs ++ p :: ys) qs) :
    ∃ h₁ h₂, ihListDel h p = some h₁ ∧ h₁.free p = some h₂ ∧ Layout h₂ a b (zs ++ ys) qs := by
  have hperm : (a :: (zs ++ p :: ys)).Perm (p :: a :: (zs ++ ys)) :=
    (List.perm_middle.cons a).trans (List.Perm.swap p a _)
  have hnodup := hperm.nodup_iff.1 hl.ring.nodup
  have hpmem : p ∈ a :: (zs ++ p :: ys) := hperm.mem_iff.2 List.mem_cons_self
  have hp : p ∈ h.blocks := hl.mem_blocks hpmem
  obtain ⟨hprev, hnext⟩ := hl.ring.neighbours
  have hstay : ∀ q ∈ a :: (zs ++ ys), q ∈ a :: (zs ++ p :: ys) :=
    fun q hq => hperm.mem_iff.2 (List.mem_cons_of_mem p hq)
  have hnot : p ∉ a :: (zs ++ ys) := (List.nodup_cons.1 hnodup).1
  have hother : p ∉ b :: qs := hl.apart p hpmem
  refine ⟨_, _, ihListDel_eq hp (hl.mem_blocks (hstay _ hprev)) (hl.mem_blocks (hstay _ hnext)),
    free_eq hp, ?_⟩
  -- the poison stands in no ring
  have hpoison : ∀ {head : Ptr} {xs : List Ptr},
      RingOf (h.links.link (h.links.prev p) (h.links.next p)) head xs → p ∉ head :: xs →
      RingOf (unlinked h.links p) head xs := by
    intro head xs hring hp
    apply hring.congr
    · intro x hx
      apply Function.update_of_ne
      rintro rfl
      exact hp hx
    · intro x hx
      apply Function.update_of_ne
      rintro rfl
      exact hp hx
  refine ⟨?_, ?_, fun q hq => hl.apart q (hstay q hq), fun q => ?_⟩
  · exact hpoison hl.ring.remove hnot
  · apply hpoison _ hother
    apply hl.other.frame
    · exact hl.apart _ (hstay _ hprev)
    · exact hl.apart _ (hstay _ hnext)
  · change q ∈ h.blocks.filter (· ≠ p) ↔ _
    rw [List.mem_filter, hl.blocks, decide_eq_true_iff, hperm.mem_iff, List.mem_cons]
    constructor
    · rintro ⟨(rfl | hq) | hq, hne⟩
      · exact absurd rfl hne
      · exact .inl hq
      · exact .inr hq
    · rintro (hq | hq)
      · refine ⟨.inl (.inr hq), ?_⟩
        rintro rfl
        exact hnot hq
      · refine ⟨.inr hq, ?_⟩
        rintro rfl
        exact hother hq

end Layout

/-! ### Traversals -/

/-- A traversal ends at the first element that passes the test, or at the head. -/
theorem forEachUntil_spec {h : Heap} {head : Ptr} {test : Ptr → Option Bool} {t : Ptr → Bool}
    {ys : List Ptr} {fuel : Nat} (hchain : Chain h.links (ys ++ [head])) (hhead : head ∉ ys)
    (hblocks : ∀ p ∈ ys, p ∈ h.blocks) (htest : ∀ p ∈ ys, test p = some (t p))
    (hfuel : ys.length < fuel) :
    forEachUntil h head test fuel (ys.headD head) = some ((ys.find? t).getD head) := by
  induction ys generalizing fuel with
  | nil =>
      obtain ⟨fuel, rfl⟩ := Nat.exists_eq_succ_of_ne_zero (Nat.ne_of_gt hfuel)
      exact if_pos rfl
  | cons y ys ih =>
      obtain ⟨fuel, rfl⟩ := Nat.exists_eq_succ_of_ne_zero (Nat.ne_of_gt (Nat.zero_lt_of_lt hfuel))
      have hy : y ≠ head := fun heq => hhead (heq ▸ List.mem_cons_self)
      rw [List.headD_cons, forEachUntil, if_neg hy, htest y List.mem_cons_self]
      cases hfound : t y with
      | true =>
          rw [List.find?_cons_of_pos hfound]
          rfl
      | false =>
          have hnext : h.next y = some (ys.headD head) := by
            rw [Heap.next, if_pos (hblocks y List.mem_cons_self), hchain.next]
          rw [List.find?_cons_of_neg (by simp [hfound])]
          change (h.next y).bind _ = _
          rw [hnext]
          apply ih hchain.tail
          · exact fun hmem => hhead (List.mem_cons_of_mem y hmem)
          · exact fun p hp => hblocks p (List.mem_cons_of_mem y hp)
          · exact fun p hp => htest p (List.mem_cons_of_mem y hp)
          · exact Nat.lt_of_succ_lt_succ hfuel

/-- A safe traversal whose body keeps a ring: `zs` are the entries it has passed and left in, `ys`
those it still has to visit. -/
theorem forEachSafe_spec {σ : Type} {heap : σ → Heap} {head : Ptr} {body : σ → Ptr → Option σ}
    {I : List Ptr → List Ptr → σ → Prop}
    (hring : ∀ zs ys s, I zs ys s →
      RingOf (heap s).links head (zs ++ ys) ∧ ∀ p ∈ head :: (zs ++ ys), p ∈ (heap s).blocks)
    (hbody : ∀ zs y ys s, I zs (y :: ys) s → ∃ zs' s', body s y = some s' ∧ I zs' ys s')
    {zs ys : List Ptr} {s : σ} {fuel : Nat} {n : Ptr} (hs : I zs ys s) (hfuel : ys.length < fuel)
    (hn : ∀ y ys', ys = y :: ys' → n = ys'.headD head) :
    ∃ zs' s', forEachSafe heap head body fuel s (ys.headD head) n = some s' ∧ I zs' [] s' := by
  induction ys generalizing zs s fuel n with
  | nil =>
      obtain ⟨fuel, rfl⟩ := Nat.exists_eq_succ_of_ne_zero (Nat.ne_of_gt hfuel)
      exact ⟨zs, s, if_pos rfl, hs⟩
  | cons y ys ih =>
      obtain ⟨fuel, rfl⟩ := Nat.exists_eq_succ_of_ne_zero (Nat.ne_of_gt (Nat.zero_lt_of_lt hfuel))
      have hy : y ≠ head := by
        rintro rfl
        exact (List.nodup_cons.1 (hring _ _ _ hs).1.nodup).1
          (List.mem_append_right zs List.mem_cons_self)
      obtain ⟨zs₁, s₁, hstep, hs₁⟩ := hbody zs y ys s hs
      obtain ⟨hring₁, hblocks₁⟩ := hring zs₁ ys s₁ hs₁
      -- the entry after the next one is read when the body has run
      have hnext : (heap s₁).next (ys.headD head) =
          some ((heap s₁).links.next (ys.headD head)) := by
        apply if_pos
        apply hblocks₁
        rcases List.mem_cons.1 (Circular.headD_mem head ys) with heq | hmem
        · rw [heq]
          exact List.mem_cons_self
        · exact List.mem_cons_of_mem head (List.mem_append_right zs₁ hmem)
      have hn' : ∀ y' ys', ys = y' :: ys' →
          (heap s₁).links.next (ys.headD head) = ys'.headD head := by
        rintro y' ys' rfl
        exact hring₁.cut.2.next
      obtain ⟨zs', s', hrest, hs'⟩ := ih hs₁ (Nat.lt_of_succ_lt_succ hfuel) hn'
      refine ⟨zs', s', ?_, hs'⟩
      rw [List.headD_cons, forEachSafe, if_neg hy, hstep, hn y ys rfl]
      change ((heap s₁).next _).bind _ = _
      rw [hnext]
      exact hrest

end ConfigEnv.TunVpn
