/-
Module: ConfigEnv.Lib.Shares
Layer: Lib
Purpose: A list that two parties write to, told apart by a predicate. One party knows its entries,
  in whatever order they stand; of the other one the entries stay in order. The rules say what the
  usual operations on such a list leave of either part: deleting the first entry that a test picks,
  deleting all of them, putting an entry somewhere, adding one at the end, putting one in the place
  of another.
Trusted boundary: none
Main exports: replaceFirst, eraseP_eq_filter, Parts, Parts.mem_ours, Parts.mem_theirs,
  Parts.any_eq, Parts.deleteOurs, Parts.deleteTheirs, Parts.keep, Parts.dropOurs, Parts.insert,
  Parts.addOurs, Parts.addTheirs, Parts.replaceTheirs
Open obligations: none
-/
import Mathlib.Data.List.Perm.Basic
import Mathlib.Tactic.Common

namespace ConfigEnv.Shares

variable {α : Type*}

/-- Put `a` in the place of the first entry that `p` picks, or at the end. -/
def replaceFirst (p : α → Bool) (a : α) : List α → List α
  | [] => [a]
  | b :: l => if p b then a :: l else b :: replaceFirst p a l

/-- Where nothing matches, the new element goes to the end. -/
theorem replaceFirst_concat {p : α → Bool} {l : List α} (a : α) (h : ∀ b ∈ l, p b = false) :
    replaceFirst p a l = l ++ [a] := by
  induction l with
  | nil => rfl
  | cons b l ih =>
      rw [replaceFirst, h b List.mem_cons_self, if_neg Bool.false_ne_true,
        ih fun c hc => h c (List.mem_cons_of_mem b hc), List.cons_append]

/-- Deleting the first entry that `p` picks deletes all of them, when it picks no two. -/
theorem eraseP_eq_filter {p : α → Bool} {l : List α}
    (hone : l.Pairwise fun a b => p a = true → p b = false) :
    l.eraseP p = l.filter fun a => !p a := by
  induction l with
  | nil => rfl
  | cons a l ih =>
      obtain ⟨ha, hl⟩ := List.pairwise_cons.1 hone
      cases hp : p a with
      | false =>
          rw [List.eraseP_cons_of_neg (by simp [hp]), List.filter_cons_of_pos (by simp [hp]),
            ih hl]
      | true =>
          rw [List.eraseP_cons_of_pos hp, List.filter_cons_of_neg (by simp [hp]), eq_comm,
            List.filter_eq_self]
          intro b hb
          rw [ha b hb hp, Bool.not_false]

/-- Of `l` the entries `ours` are of the one party, and `theirs` of the other one. -/
structure Parts (mine : α → Bool) (l ours theirs : List α) : Prop where
  ours_perm : (l.filter mine).Perm ours
  theirs_eq : l.filter (fun a => !mine a) = theirs

namespace Parts

variable {mine p : α → Bool} {l ours theirs : List α} {a : α}

theorem mem_ours (h : Parts mine l ours theirs) : a ∈ ours ↔ a ∈ l ∧ mine a = true := by
  rw [← h.ours_perm.mem_iff, List.mem_filter]

theorem mem_theirs (h : Parts mine l ours theirs) : a ∈ theirs ↔ a ∈ l ∧ mine a = false := by
  rw [← h.theirs_eq, List.mem_filter, Bool.not_eq_true']

/-- Without entries of the one party the list is that of the other one. -/
theorem eq_theirs (h : Parts mine l [] theirs) : l = theirs := by
  rw [← h.theirs_eq, eq_comm, List.filter_eq_self]
  intro a ha
  rw [Bool.not_eq_true', ← Bool.not_eq_true]
  intro hmine
  exact List.not_mem_nil (h.mem_ours.2 ⟨ha, hmine⟩)

/-- A list with nothing of ours is all theirs. -/
theorem of_theirs (h : ∀ a ∈ l, mine a = false) : Parts mine l [] l where
  ours_perm := by
    rw [List.filter_eq_nil_iff.2 fun a ha => by simp [h a ha]]
  theirs_eq := List.filter_eq_self.2 fun a ha => by simp [h a ha]

/-- What a test picks that picks none of our entries. -/
theorem not_ours (h : Parts mine l ours theirs) (hp : ∀ b ∈ ours, p b = false) :
    ∀ b ∈ l, p b = true → mine b = false := by
  intro b hb hpb
  rw [← Bool.not_eq_true]
  intro hmine
  rw [hp b (h.mem_ours.2 ⟨hb, hmine⟩)] at hpb
  cases hpb

/-- A test that picks none of our entries finds the entries that it finds among theirs. -/
theorem any_eq (h : Parts mine l ours theirs) (hp : ∀ b ∈ ours, p b = false) :
    l.any p = theirs.any p := by
  rw [Bool.eq_iff_iff, List.any_eq_true, List.any_eq_true]
  constructor
  · rintro ⟨b, hb, hpb⟩
    exact ⟨b, h.mem_theirs.2 ⟨hb, h.not_ours hp b hb hpb⟩, hpb⟩
  · rintro ⟨b, hb, hpb⟩
    exact ⟨b, (h.mem_theirs.1 hb).1, hpb⟩

/-- Deleting the first of our entries that a test picks, when it can pick only one. -/
theorem deleteOurs (h : Parts mine l ours theirs) (hp : ∀ b, p b = true → mine b = true)
    (hone : ours.Pairwise fun b c => p b = true → p c = true → False) :
    Parts mine (l.eraseP p) (ours.eraseP p) theirs where
  ours_perm := by
    have hmine : (l.eraseP p).filter mine = (l.filter mine).eraseP p := by
      rw [List.eraseP_filter]
      congr 2
      funext b
      cases hb : p b with
      | false => rfl
      | true => rw [hp b hb, Bool.and_self]
    rw [hmine]
    exact (h.ours_perm.symm.eraseP p hone).symm
  theirs_eq := by
    rw [← h.theirs_eq]
    clear h
    induction l with
    | nil => rfl
    | cons b l ih =>
        rw [List.eraseP_cons]
        cases hb : p b with
        | true => rw [cond_true, List.filter_cons_of_neg (by simp [hp b hb])]
        | false => rw [cond_false, List.filter_cons, List.filter_cons, ih]

/-- Deleting the first of their entries that a test picks. -/
theorem deleteTheirs (h : Parts mine l ours theirs) (hp : ∀ b ∈ ours, p b = false) :
    Parts mine (l.eraseP p) ours (theirs.eraseP p) := by
  have hnot := h.not_ours hp
  obtain ⟨hperm, rfl⟩ := h
  clear hp
  suffices hboth : (l.eraseP p).filter mine = l.filter mine ∧
      (l.eraseP p).filter (fun b => !mine b) = (l.filter fun b => !mine b).eraseP p from
    ⟨hboth.1.symm ▸ hperm, hboth.2⟩
  clear hperm
  induction l with
  | nil => exact ⟨rfl, rfl⟩
  | cons b l ih =>
      obtain ⟨hours, htheirs⟩ := ih fun c hc => hnot c (List.mem_cons_of_mem b hc)
      rw [List.eraseP_cons]
      cases hb : p b with
      | true =>
          have hmine := hnot b List.mem_cons_self hb
          simp [hmine, hb]
      | false =>
          cases hmine : mine b with
          | true => simp [hmine, hours, htheirs]
          | false => simp [hmine, hb, hours, htheirs]

/-- Keeping the entries that a test picks. -/
theorem keep (h : Parts mine l ours theirs) (p : α → Bool) :
    Parts mine (l.filter p) (ours.filter p) (theirs.filter p) where
  ours_perm := by
    rw [List.filter_comm]
    exact h.ours_perm.filter p
  theirs_eq := by
    rw [List.filter_comm, h.theirs_eq]

/-- Deleting all of our entries. -/
theorem dropOurs (h : Parts mine l ours theirs) :
    Parts mine (l.filter fun a => !mine a) [] theirs := by
  rw [h.theirs_eq]
  apply of_theirs
  intro a ha
  exact (h.mem_theirs.1 ha).2

/-- Putting an entry of ours somewhere. -/
theorem insert {l' : List α} (h : Parts mine (l ++ l') ours theirs) (ha : mine a = true) :
    Parts mine (l ++ a :: l') (a :: ours) theirs where
  ours_perm := by
    rw [List.filter_append, List.filter_cons_of_pos ha]
    apply List.perm_middle.trans
    rw [← List.filter_append]
    exact h.ours_perm.cons a
  theirs_eq := by
    rw [List.filter_append, List.filter_cons_of_neg (by simp [ha]), ← List.filter_append,
      h.theirs_eq]

/-- Adding one of ours leaves theirs as they are. -/
theorem addOurs (h : Parts mine l ours theirs) (ha : mine a = true) :
    Parts mine (l ++ [a]) (a :: ours) theirs := by
  apply insert _ ha
  rwa [List.append_nil]

/-- Adding one of theirs leaves ours as they are. -/
theorem addTheirs (h : Parts mine l ours theirs) (ha : mine a = false) :
    Parts mine (l ++ [a]) ours (theirs ++ [a]) where
  ours_perm := by
    rw [List.filter_append, List.filter_cons_of_neg (by simp [ha]), List.filter_nil,
      List.append_nil]
    exact h.ours_perm
  theirs_eq := by
    rw [List.filter_append, h.theirs_eq, List.filter_cons_of_pos (by simp [ha]), List.filter_nil]

/-- Putting an entry of theirs in the place of another one of theirs. -/
theorem replaceTheirs (h : Parts mine l ours theirs) (hp : ∀ b ∈ ours, p b = false)
    (ha : mine a = false) :
    Parts mine (replaceFirst p a l) ours (replaceFirst p a theirs) := by
  have hnot := h.not_ours hp
  obtain ⟨hperm, rfl⟩ := h
  clear hp
  suffices hboth : (replaceFirst p a l).filter mine = l.filter mine ∧
      (replaceFirst p a l).filter (fun b => !mine b) =
        replaceFirst p a (l.filter fun b => !mine b) from
    ⟨hboth.1.symm ▸ hperm, hboth.2⟩
  clear hperm
  induction l with
  | nil => simp [replaceFirst, ha]
  | cons b l ih =>
      obtain ⟨hours, htheirs⟩ := ih fun c hc => hnot c (List.mem_cons_of_mem b hc)
      cases hb : p b with
      | true =>
          have hmine := hnot b List.mem_cons_self hb
          simp [replaceFirst, hmine, hb, ha]
      | false =>
          cases hmine : mine b with
          | true => simp [replaceFirst, hmine, hb, hours, htheirs]
          | false => simp [replaceFirst, hmine, hb, hours, htheirs]

end Parts

end ConfigEnv.Shares
