/-
Module: ConfigEnv.Lib.Delayed
Layer: Lib
Purpose: Threads that take an input, with what they read of the world outside, and act on it later.
  A machine gets the inputs in the order in which the threads act, and that need not be the order
  in which they were taken. It is as good as that one, for a relation of inputs, when no thread
  acts out of turn: before another one that holds an input which should have come first.
Trusted boundary: none
Main exports: Act, Threads, Delayed, taken, acted, run_acted, InTurn,
  held_of_run, always_inTurn, acted_pairwise
Open obligations: none
-/
import ConfigEnv.Lib.Run
import Mathlib.Logic.Function.Basic

namespace ConfigEnv.Machine

universe u

variable {σ ι ο ω : Type u}

/-- A thread takes an input, or acts on the one that it has taken. -/
inductive Act (ι : Type u) where
  | take (i : ι)
  | act (i : ι)

/-- The state of the machine, and what each thread holds. -/
structure Threads (σ ω ι : Type u) where
  state : σ
  held : ω → Option ι

/-- Before any thread has taken an input. -/
def Threads.start (s : σ) : Threads σ ω ι := { state := s, held := fun _ => none }

/-- An input that has an owner is taken by this thread, when the machine is ready for it, before the
thread acts on it; any other input is acted on at once. -/
inductive Delayed [DecidableEq ω] (M : Step σ ι (Option ο)) (owner : ι → Option ω)
    (ready : σ → ι → Prop) : Step (Threads σ ω ι) (Act ι) (Option ο) where
  | take {s : Threads σ ω ι} {i : ι} {w : ω} (howner : owner i = some w)
      (hfree : s.held w = none) (hready : ready s.state i) :
      Delayed M owner ready s (.take i) none
        { s with held := Function.update s.held w (some i) }
  | act {s : Threads σ ω ι} {i : ι} {w : ω} {o : Option ο} {q : σ} (howner : owner i = some w)
      (hheld : s.held w = some i) (hstep : M s.state i o q) :
      Delayed M owner ready s (.act i) o { state := q, held := Function.update s.held w none }
  | direct {s : Threads σ ω ι} {i : ι} {o : Option ο} {q : σ} (howner : owner i = none)
      (hstep : M s.state i o q) :
      Delayed M owner ready s (.act i) o { s with state := q }

/-- The inputs in the order in which they were taken. -/
def taken (t : List (Act ι × Option ο)) : List ι :=
  t.filterMap fun e =>
    match e.1 with
    | .take i => some i
    | .act _ => none

/-- What the machine got, with its outputs. -/
def acted (t : List (Act ι × Option ο)) : List (ι × Option ο) :=
  t.filterMap fun e =>
    match e.1 with
    | .take _ => none
    | .act i => some (i, e.2)

section Lists

variable {i : ι} {o : Option ο} {t : List (Act ι × Option ο)}

@[simp] theorem taken_nil : taken ([] : List (Act ι × Option ο)) = [] := rfl
@[simp] theorem acted_nil : acted ([] : List (Act ι × Option ο)) = [] := rfl
@[simp] theorem taken_take : taken ((.take i, o) :: t) = i :: taken t := rfl
@[simp] theorem taken_act : taken ((.act i, o) :: t) = taken t := rfl
@[simp] theorem acted_take : acted ((.take i, o) :: t) = acted t := rfl
@[simp] theorem acted_act : acted ((.act i, o) :: t) = (i, o) :: acted t := rfl

@[simp] theorem taken_append (t t' : List (Act ι × Option ο)) :
    taken (t ++ t') = taken t ++ taken t' :=
  List.filterMap_append

@[simp] theorem acted_append (t t' : List (Act ι × Option ο)) :
    acted (t ++ t') = acted t ++ acted t' :=
  List.filterMap_append

end Lists

section Threads

variable [DecidableEq ω] {M : Step σ ι (Option ο)} {owner : ι → Option ω} {ready : σ → ι → Prop}
  {s s' : Threads σ ω ι} {t : List (Act ι × Option ο)}

/-- What the threads do to the machine is a run of it. -/
theorem run_acted (hrun : Run (Delayed M owner ready) s t s') :
    Run M s.state (acted t) s'.state := by
  induction hrun with
  | nil s => exact .nil s.state
  | @cons _ _ _ e _ hstep _ ih =>
      obtain ⟨a, o⟩ := e
      cases hstep with
      | take _ _ _ => exact ih
      | act _ _ hstep => exact .cons hstep ih
      | direct _ hstep => exact .cons hstep ih

/-- What is held after one more is taken: that one, or what was held before. -/
theorem update_some {held : ω → Option ι} {w w' : ω} {i j : ι}
    (h : Function.update held w (some i) w' = some j) : j = i ∨ held w' = some j := by
  by_cases hw : w' = w
  · subst hw
    rw [Function.update_self] at h
    exact .inl (Option.some.inj h).symm
  · rw [Function.update_of_ne hw] at h
    exact .inr h

/-- What is still held after one is let go, was held by another place before. -/
theorem update_none {held : ω → Option ι} {w w' : ω} {j : ι}
    (h : Function.update held w none w' = some j) : w' ≠ w ∧ held w' = some j := by
  by_cases hw : w' = w
  · subst hw
    rw [Function.update_self] at h
    cases h
  · rw [Function.update_of_ne hw] at h
    exact ⟨hw, h⟩

/-- What is acted on was held at the beginning or has been taken. -/
theorem held_or_taken (hrun : Run (Delayed M owner ready) s t s') {e : ι × Option ο} {w : ω}
    (he : e ∈ acted t) (howner : owner e.1 = some w) : s.held w = some e.1 ∨ e.1 ∈ taken t := by
  induction hrun with
  | nil s => cases he
  | @cons s _ _ x _ hstep _ ih =>
      obtain ⟨a, o⟩ := x
      cases hstep with
      | @take _ i _ _ _ _ =>
          rcases ih he with hheld | htaken
          · rcases update_some hheld with heq | hheld
            · exact .inr (heq ▸ List.mem_cons_self)
            · exact .inl hheld
          · exact .inr (List.mem_cons_of_mem i htaken)
      | @act _ i w' _ _ howner' hheld' _ =>
          rcases List.mem_cons.1 he with rfl | he
          · rw [howner'] at howner
            exact .inl (Option.some.inj howner ▸ hheld')
          · exact (ih he).imp_left fun hheld => (update_none hheld).2
      | direct howner' _ =>
          rcases List.mem_cons.1 he with rfl | he
          · rw [howner'] at howner
            cases howner
          · exact ih he

/-- A thread does not act before another one that holds an input which should have come first. -/
def InTurn (R : ι → ι → Prop) (owner : ι → Option ω) (s : Threads σ ω ι) : Act ι → Prop
  | .take _ => True
  | .act i => ∀ w j, (owner i).isSome = true → owner i ≠ some w → s.held w = some j → R i j

/-- What a thread holds at the end it held at the beginning or has taken. -/
theorem held_of_run (hrun : Run (Delayed M owner ready) s t s') {w : ω} {j : ι}
    (hj : s'.held w = some j) : s.held w = some j ∨ j ∈ taken t := by
  induction hrun with
  | nil s => exact .inl hj
  | @cons s _ _ x _ hstep _ ih =>
      obtain ⟨a, o⟩ := x
      cases hstep with
      | @take _ i _ _ _ _ =>
          rcases ih hj with hheld | htaken
          · rcases update_some hheld with rfl | hheld
            · exact .inr List.mem_cons_self
            · exact .inl hheld
          · exact .inr (List.mem_cons_of_mem i htaken)
      | act _ _ _ => exact (ih hj).imp_left fun hheld => (update_none hheld).2
      | direct _ _ => exact ih hj

/-- Inputs that may come in any order are never acted on out of turn. -/
theorem always_inTurn {R : ι → ι → Prop} {q : σ} {acts : List (Act ι)}
    (h : ∀ i j, Act.act i ∈ acts → Act.take j ∈ acts → R i j) :
    Always (Delayed M owner ready) (Threads.start q) acts (InTurn R owner) := by
  rintro pre a post t s' hacts rfl hrun
  cases a with
  | take _ => trivial
  | act i =>
      intro w j _ _ hj
      rcases held_of_run hrun hj with hnone | hj
      · cases hnone
      · obtain ⟨e, he, heq⟩ := List.mem_filterMap.1 hj
        have htake : e.1 = .take j := by
          cases hact : e.1 with
          | take j' =>
              rw [hact] at heq
              exact congrArg Act.take (Option.some.inj heq)
          | act j' =>
              rw [hact] at heq
              cases heq
        apply h i j
        · rw [hacts]
          exact List.mem_append_right _ List.mem_cons_self
        · rw [hacts, ← htake]
          exact List.mem_append_left _ (List.mem_map_of_mem he)

/-- When the inputs are taken in order, and no thread acts out of turn, they are acted on in order.
-/
theorem acted_pairwise {R : ι → ι → Prop} (hrun : Run (Delayed M owner ready) s t s')
    (hheld : ∀ w j, s.held w = some j → ∀ i ∈ taken t, R j i) (htaken : (taken t).Pairwise R)
    (hturn : Always (Delayed M owner ready) s (t.map Prod.fst) (InTurn R owner)) :
    (acted t).Pairwise fun e e' =>
      (owner e.1).isSome = true → (owner e'.1).isSome = true → R e.1 e'.1 := by
  induction hrun with
  | nil s => exact List.Pairwise.nil
  | @cons s _ _ x t hstep hrest ih =>
      obtain ⟨a, o⟩ := x
      have hlater := hturn.tail hstep
      cases hstep with
      | @take _ i _ _ _ _ =>
          obtain ⟨hfirst, htail⟩ := List.pairwise_cons.1 htaken
          apply ih _ htail hlater
          intro w' j hj i' hi'
          rcases update_some hj with rfl | hj
          · exact hfirst i' hi'
          · exact hheld w' j hj i' (List.mem_cons_of_mem i hi')
      | @act _ i w _ _ howner hi _ =>
          rw [acted_act, List.pairwise_cons]
          constructor
          · -- what is acted on later is held by another thread, or has yet to be taken
            intro e' he' _ howned
            obtain ⟨w', howner'⟩ := Option.isSome_iff_exists.1 howned
            rcases held_or_taken hrest he' howner' with hj | hj
            · obtain ⟨hne, hj⟩ := update_none hj
              apply hturn.head w' e'.1 (by rw [howner]; rfl) ?_ hj
              rw [howner]
              exact fun heq => hne (Option.some.inj heq).symm
            · exact hheld w i hi e'.1 hj
          · apply ih _ htaken hlater
            intro w' j hj
            exact hheld w' j (update_none hj).2
      | direct howner _ =>
          rw [acted_act, List.pairwise_cons]
          constructor
          · intro e' _ howned
            rw [howner] at howned
            cases howned
          · exact ih hheld htaken hlater

end Threads

end ConfigEnv.Machine
