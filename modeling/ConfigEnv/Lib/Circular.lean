/-
Module: ConfigEnv.Lib.Circular
Layer: Lib
Purpose: Circular doubly linked lists that run through their own nodes. Memory is two arrays of
  pointers; a chain is a sequence of nodes each linked to the next in both arrays, and a ring is a
  chain from a head back to it on which no node comes twice. Every operation on such lists is a few
  calls of `link`, which writes one `next` and the matching `prev`. A chain on which the link
  neither starts before the last node nor ends behind the first keeps, so an operation is shown
  right by cutting the ring at the places it links and joining the pieces.
Trusted boundary: none
Main exports: Links, Links.link, Adjacent, Chain, Chain.frame, Chain.join, RingOf, RingOf.frame,
  RingOf.congr, RingOf.splice, RingOf.insert, RingOf.remove, RingOf.neighbours, RingOf.next_head
Open obligations: none
-/
import Mathlib.Data.List.Chain
import Mathlib.Data.List.Nodup
import Mathlib.Logic.Function.Basic

namespace ConfigEnv.Circular

/-- A node by its address. -/
abbrev Ptr := Nat

/-- The two pointers of every node. -/
structure Links where
  next : Ptr → Ptr
  prev : Ptr → Ptr

/-- Make `q` the successor of `p`. -/
def Links.link (l : Links) (p q : Ptr) : Links where
  next := Function.update l.next p q
  prev := Function.update l.prev q p

/-- Both pointers of a link are set. -/
def Adjacent (l : Links) (p q : Ptr) : Prop := l.next p = q ∧ l.prev q = p

/-- The nodes are linked one to the next. -/
def Chain (l : Links) (us : List Ptr) : Prop := us.IsChain (Adjacent l)

/-- The nodes of a circular list in order, behind its head. -/
structure RingOf (l : Links) (head : Ptr) (xs : List Ptr) : Prop where
  chain : Chain l (head :: xs ++ [head])
  nodup : (head :: xs).Nodup

variable {l l' : Links} {c p q head : Ptr} {us vs ws xs ys : List Ptr}

/-! ### Chains -/

theorem chain_singleton (l : Links) (c : Ptr) : Chain l [c] := List.isChain_singleton c

theorem Chain.left (h : Chain l (us ++ vs)) : Chain l us := (List.isChain_append.1 h).1

theorem Chain.right (h : Chain l (us ++ vs)) : Chain l vs := (List.isChain_append.1 h).2.1

/-- Two chains make one when the seam between them is linked. -/
theorem Chain.join (hu : Chain l us) (hv : Chain l vs) (hp : us.getLast? = some p)
    (hq : vs.head? = some q) (hseam : Adjacent l p q) : Chain l (us ++ vs) := by
  apply List.isChain_append.2
  refine ⟨hu, hv, fun x hx y hy => ?_⟩
  rw [hp, Option.mem_some] at hx
  rw [hq, Option.mem_some] at hy
  rw [← hx, ← hy]
  exact hseam

/-- Two chains end to end are linked where they meet. -/
theorem Chain.seam (h : Chain l (us ++ vs)) (hp : us.getLast? = some p)
    (hq : vs.head? = some q) : Adjacent l p q :=
  (List.isChain_append.1 h).2.2 p hp q hq

/-- A chain depends on the successors of all its nodes but the last and on the predecessors of all
but the first. -/
theorem Chain.congr (h : Chain l us) (hnext : ∀ x ∈ us.dropLast, l'.next x = l.next x)
    (hprev : ∀ x ∈ us.tail, l'.prev x = l.prev x) : Chain l' us := by
  induction us with
  | nil => exact List.isChain_nil
  | cons a us ih =>
      cases us with
      | nil => exact chain_singleton l' a
      | cons b us =>
          obtain ⟨⟨hab, hba⟩, hrest⟩ := List.isChain_cons_cons.1 h
          rw [List.dropLast_cons_cons] at hnext
          rw [List.tail_cons] at hprev
          apply List.isChain_cons_cons.2
          refine ⟨⟨?_, ?_⟩, ?_⟩
          · exact (hnext a List.mem_cons_self).trans hab
          · exact (hprev b List.mem_cons_self).trans hba
          · apply ih hrest
            · exact fun x hx => hnext x (List.mem_cons_of_mem a hx)
            · exact fun x hx => hprev x (List.mem_cons_of_mem b hx)

/-! ### One link -/

theorem adjacent_link (l : Links) (p q : Ptr) : Adjacent (l.link p q) p q :=
  ⟨Function.update_self .., Function.update_self ..⟩

/-- A chain keeps when the link starts at none of its nodes but the last and ends at none but the
first. -/
theorem Chain.frame (h : Chain l us) (hp : p ∉ us.dropLast) (hq : q ∉ us.tail) :
    Chain (l.link p q) us := by
  apply h.congr
  · intro x hx
    apply Function.update_of_ne
    rintro rfl
    exact hp hx
  · intro x hx
    apply Function.update_of_ne
    rintro rfl
    exact hq hx

/-! ### Rings -/

theorem dropLast_ring (head : Ptr) (xs : List Ptr) :
    (head :: xs ++ [head]).dropLast = head :: xs := List.dropLast_concat

theorem mem_tail_ring {x : Ptr} : x ∈ (head :: xs ++ [head]).tail ↔ x ∈ head :: xs := by
  rw [List.cons_append, List.tail_cons, List.mem_append, List.mem_singleton, List.mem_cons, or_comm]

/-- A ring depends on its own nodes only. -/
theorem RingOf.congr (h : RingOf l head xs) (hnext : ∀ x ∈ head :: xs, l'.next x = l.next x)
    (hprev : ∀ x ∈ head :: xs, l'.prev x = l.prev x) : RingOf l' head xs where
  chain := by
    apply h.chain.congr
    · rwa [dropLast_ring]
    · exact fun x hx => hprev x (mem_tail_ring.1 hx)
  nodup := h.nodup

/-- A link between other nodes leaves the ring as it is. -/
theorem RingOf.frame (h : RingOf l head xs) (hp : p ∉ head :: xs) (hq : q ∉ head :: xs) :
    RingOf (l.link p q) head xs where
  chain := by
    apply h.chain.frame
    · rwa [dropLast_ring]
    · rwa [mem_tail_ring]
  nodup := h.nodup

/-- A node linked to itself is an empty ring. -/
theorem ring_self (l : Links) (head : Ptr) : RingOf (l.link head head) head [] where
  chain := List.isChain_pair.2 (adjacent_link l head head)
  nodup := List.nodup_singleton head

/-- The two sides of a place in a ring. -/
theorem RingOf.cut (h : RingOf l head (xs ++ ys)) :
    Chain l (head :: xs) ∧ Chain l (ys ++ [head]) := by
  have hchain := h.chain
  rw [← List.cons_append, List.append_assoc] at hchain
  exact ⟨hchain.left, hchain.right⟩

/-! ### Splicing

A chain of nodes goes in between two neighbours of a ring; inserting a node is the case of one node,
and removing one joins the two sides again. -/

/-- A ring without repetition splits into two sides that share no cell. -/
theorem nodup_sides (h : (head :: (xs ++ ys)).Nodup) :
    (head :: xs).Nodup ∧ (ys ++ [head]).Nodup ∧ (∀ x ∈ head :: xs, x ∉ ys) ∧
      ∀ y ∈ ys ++ [head], y ∉ xs := by
  have hperm : (ys ++ [head]).Perm (head :: ys) := List.perm_append_singleton head ys
  rw [List.nodup_cons, List.mem_append, not_or, List.nodup_append] at h
  obtain ⟨⟨hxs, hys⟩, hnx, hny, hdisj⟩ := h
  refine ⟨List.nodup_cons.2 ⟨hxs, hnx⟩, hperm.nodup_iff.2 (List.nodup_cons.2 ⟨hys, hny⟩), ?_, ?_⟩
  · intro x hx hxy
    rcases List.mem_cons.1 hx with rfl | hx
    · exact hys hxy
    · exact hdisj x hx x hxy rfl
  · intro y hy hyx
    rcases List.mem_cons.1 (hperm.mem_iff.1 hy) with rfl | hy
    · exact hxs hyx
    · exact hdisj y hyx y hy rfl

theorem getLast?_notMem_dropLast (h : us.Nodup) (hp : us.getLast? = some p) : p ∉ us.dropLast := by
  obtain ⟨vs, rfl⟩ := List.getLast?_eq_some_iff.1 hp
  rw [List.dropLast_concat]
  rw [List.nodup_append] at h
  intro hmem
  exact h.2.2 p hmem p (List.mem_singleton_self p) rfl

theorem head?_notMem_tail (h : us.Nodup) (hq : us.head? = some q) : q ∉ us.tail := by
  obtain ⟨vs, rfl⟩ := List.head?_eq_some_iff.1 hq
  exact (List.nodup_cons.1 h).1

theorem exists_getLast (head : Ptr) (xs : List Ptr) : ∃ p, (head :: xs).getLast? = some p :=
  ⟨_, List.getLast?_cons⟩

theorem exists_head (head : Ptr) (ys : List Ptr) : ∃ q, (ys ++ [head]).head? = some q := by
  cases ys with
  | nil => exact ⟨head, rfl⟩
  | cons y ys => exact ⟨y, rfl⟩

/-- Join the two sides of a ring at the seam. -/
theorem ring_of_sides (hu : Chain l (head :: xs)) (hv : Chain l (ys ++ [head]))
    (hnodup : (head :: (xs ++ ys)).Nodup) (hp : (head :: xs).getLast? = some p)
    (hq : (ys ++ [head]).head? = some q) : RingOf (l.link p q) head (xs ++ ys) where
  chain := by
    obtain ⟨hnx, hny, hdisj, hdisj'⟩ := nodup_sides hnodup
    have hpmem := List.mem_of_getLast? hp
    have hqmem := List.mem_of_mem_head? hq
    rw [← List.cons_append, List.append_assoc]
    apply Chain.join _ _ hp hq (adjacent_link l p q)
    · apply hu.frame
      · exact getLast?_notMem_dropLast hnx hp
      · exact hdisj' q hqmem
    · apply hv.frame
      · rw [List.dropLast_concat]
        exact hdisj p hpmem
      · exact head?_notMem_tail hny hq
  nodup := hnodup

/-- A node leaves the ring when its neighbours are linked. -/
theorem RingOf.remove (h : RingOf l head (xs ++ c :: ys)) :
    RingOf (l.link (l.prev c) (l.next c)) head (xs ++ ys) := by
  have hnodup : (head :: (xs ++ ys)).Nodup := by
    apply List.Nodup.sublist _ h.nodup
    exact List.Sublist.cons_cons head (List.Sublist.append_left (List.sublist_cons_self c ys) xs)
  obtain ⟨p, hp⟩ := exists_getLast head xs
  obtain ⟨q, hq⟩ := exists_head head ys
  have hchain : Chain l ((head :: xs) ++ ([c] ++ (ys ++ [head]))) := by
    simpa only [List.cons_append, List.append_assoc, List.nil_append] using h.chain
  have hprev : l.prev c = p := (hchain.seam hp rfl).2
  have hrest : Chain l ([c] ++ (ys ++ [head])) := hchain.right
  have hnext : l.next c = q := (hrest.seam rfl hq).1
  rw [hprev, hnext]
  exact ring_of_sides hchain.left hrest.right hnodup hp hq

/-- A chain goes in between `p` and `q`. -/
theorem RingOf.splice {w w' : Ptr} (h : RingOf l head (xs ++ ys)) (hw : Chain l ws)
    (hws : ws.Nodup) (hdisj : ∀ x ∈ ws, x ∉ head :: (xs ++ ys))
    (hp : (head :: xs).getLast? = some p) (hq : (ys ++ [head]).head? = some q)
    (hfirst : ws.head? = some w) (hlast : ws.getLast? = some w') :
    RingOf ((l.link w' q).link p w) head (xs ++ ws ++ ys) := by
  obtain ⟨hnx, hny, hxy, hyx⟩ := nodup_sides h.nodup
  obtain ⟨hu, hv⟩ := h.cut
  have hpmem : p ∈ head :: xs := List.mem_of_getLast? hp
  have hqmem : q ∈ ys ++ [head] := List.mem_of_mem_head? hq
  have hwmem : w ∈ ws := List.mem_of_mem_head? hfirst
  have hwmem' : w' ∈ ws := List.mem_of_getLast? hlast
  have hout : ∀ x ∈ ws, x ∉ head :: xs ∧ x ∉ ys ∧ x ∉ ys ++ [head] := by
    intro x hx
    have hx := hdisj x hx
    simp only [List.mem_cons, List.mem_append, not_or, List.not_mem_nil, not_false_eq_true,
      and_true] at hx ⊢
    tauto
  have hnodup : (ws ++ (ys ++ [head])).Nodup := by
    rw [List.nodup_append]
    refine ⟨hws, hny, fun x hx y hy => ?_⟩
    rintro rfl
    exact (hout x hx).2.2 hy
  -- the chain is joined to what follows it, then to what comes before
  have hright : Chain (l.link w' q) (ws ++ (ys ++ [head])) := by
    apply Chain.join _ _ hlast hq (adjacent_link l w' q)
    · apply hw.frame
      · exact getLast?_notMem_dropLast hws hlast
      · intro hmem
        exact (hout q (List.mem_of_mem_tail hmem)).2.2 hqmem
    · apply hv.frame
      · rw [List.dropLast_concat]
        exact (hout w' hwmem').2.1
      · exact head?_notMem_tail hny hq
  have hleft : Chain (l.link w' q) (head :: xs) := by
    apply hu.frame
    · intro hmem
      exact (hout w' hwmem').1 (List.dropLast_subset _ hmem)
    · exact hyx q hqmem
  have hhead : (ws ++ (ys ++ [head])).head? = some w := by
    rw [List.head?_append, hfirst, Option.some_or]
  refine ⟨?_, ?_⟩
  · have hassoc : head :: (xs ++ ws ++ ys) ++ [head] =
        (head :: xs) ++ (ws ++ (ys ++ [head])) := by simp
    rw [hassoc]
    apply Chain.join _ _ hp hhead (adjacent_link _ p w)
    · apply hleft.frame
      · exact getLast?_notMem_dropLast hnx hp
      · exact fun hmem => (hout w hwmem).1 (List.mem_cons_of_mem head hmem)
    · apply hright.frame
      · rw [← List.append_assoc, List.dropLast_concat, List.mem_append, not_or]
        exact ⟨fun hmem => (hout p hmem).1 hpmem, hxy p hpmem⟩
      · exact head?_notMem_tail hnodup hhead
  · have hperm : (head :: (xs ++ ws ++ ys)).Perm (ws ++ head :: (xs ++ ys)) := by
      have hswap : (xs ++ ws ++ ys).Perm (ws ++ (xs ++ ys)) := by
        rw [← List.append_assoc]
        exact List.perm_append_comm.append_right ys
      exact (hswap.cons head).trans List.perm_middle.symm
    rw [hperm.nodup_iff, List.nodup_append]
    refine ⟨hws, h.nodup, fun x hx y hy => ?_⟩
    rintro rfl
    exact hdisj x hx hy

/-- One node goes in between `p` and `q`. -/
theorem RingOf.insert (h : RingOf l head (xs ++ ys)) (hc : c ∉ head :: (xs ++ ys))
    (hp : (head :: xs).getLast? = some p) (hq : (ys ++ [head]).head? = some q) :
    RingOf ((l.link c q).link p c) head (xs ++ c :: ys) := by
  have hring := h.splice (chain_singleton l c) (List.nodup_singleton c)
    (by intro x hx; rwa [List.mem_singleton.1 hx]) hp hq rfl rfl
  rwa [List.append_assoc, List.singleton_append] at hring

/-! ### Neighbours -/

/-- The link of a chain's first cell leads to its second. -/
theorem Chain.next (h : Chain l (p :: (ys ++ [head]))) : l.next p = ys.headD head := by
  cases ys with
  | nil => exact (List.isChain_cons_cons.1 h).1.1
  | cons y ys => exact (List.isChain_cons_cons.1 h).1.1

theorem headD_mem (head : Ptr) (ys : List Ptr) : ys.headD head ∈ head :: ys := by
  cases ys with
  | nil => exact List.mem_singleton_self head
  | cons y ys => exact List.mem_cons_of_mem head List.mem_cons_self

/-- The neighbours of a node of a ring are nodes of it. -/
theorem RingOf.neighbours (h : RingOf l head (xs ++ p :: ys)) :
    l.prev p ∈ head :: (xs ++ ys) ∧ l.next p ∈ head :: (xs ++ ys) := by
  obtain ⟨q, hq⟩ := exists_getLast head xs
  have hchain : Chain l ((head :: xs) ++ (p :: (ys ++ [head]))) := by
    simpa only [List.cons_append, List.append_assoc] using h.chain
  constructor
  · rw [(hchain.seam hq rfl).2]
    rcases List.mem_cons.1 (List.mem_of_getLast? hq) with rfl | hmem
    · exact List.mem_cons_self
    · exact List.mem_cons_of_mem head (List.mem_append_left ys hmem)
  · rw [hchain.right.next]
    rcases List.mem_cons.1 (headD_mem head ys) with heq | hmem
    · rw [heq]
      exact List.mem_cons_self
    · exact List.mem_cons_of_mem head (List.mem_append_right xs hmem)

/-- The head's link leads to the first element, or back to the head. -/
theorem RingOf.next_head (h : RingOf l head xs) : l.next head = xs.headD head := h.chain.next

theorem head?_concat (head : Ptr) (ys : List Ptr) :
    (ys ++ [head]).head? = some (ys.headD head) := by
  cases ys <;> rfl

end ConfigEnv.Circular
