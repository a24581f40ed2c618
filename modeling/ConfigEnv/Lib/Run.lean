/-
Module: ConfigEnv.Lib.Run
Layer: Lib
Purpose: Runs of a transition relation that reads an input and gives an output at every step. A run
  is recorded as the list of its input and output pairs, so a property of a run is a property of a
  list together with the two end states. The rules are the usual ones: cut a run in two, read one
  step out of the middle, carry an invariant along it, carry a relation between two runs along it,
  read off it the run of a part.
  The last two sections are about lists of entries, for statements of the form "at most one step
  does it" and "the last step that does it".
Trusted boundary: none
Main exports: Step, Run, ofExcept, unchecked, Run.split, Run.middle, Run.invariant,
  Run.first, Run.historyInvariant, Run.unwind, Run.simulate, Run.project, exec, run_iff_exec,
  run_det, run_of_endsIn, run_of_putsOut, Always, Always.congr, Always.iff_of_run, Always.cons_iff,
  Always.invariant, Afterwards, Afterwards.cons_iff, always_of_checks, exists_run,
  length_filter_le_one, latest
Open obligations: none
-/
import Mathlib.Data.List.Basic
import Mathlib.Data.List.Forall2
import Mathlib.Data.List.Induction
import Mathlib.Tactic.Common

namespace ConfigEnv.Machine

universe u

variable {σ ι ο ε : Type u}

/-- A transition relation: from a state and an input to an output and a state. -/
abbrev Step (σ ι ο : Type u) := σ → ι → ο → σ → Prop

/-- The steps of a function that may fail; a failing step is no step. -/
def ofExcept (f : σ → ι → Except ε (σ × ο)) : Step σ ι ο :=
  fun s i o s' => f s i = .ok (s', o)

/-- The steps of a function whose failures nothing stops: a failing step is undefined behaviour,
which may leave any state and put out anything. -/
def unchecked (f : σ → ι → Except ε (σ × ο)) : Step σ ι ο :=
  fun s i o s' => ∀ r, f s i = .ok r → r = (s', o)

/-- Where the function does not fail the two readings agree. -/
theorem ofExcept_of_unchecked {f : σ → ι → Except ε (σ × ο)} {s s' : σ} {i : ι} {o : ο}
    (hok : ∃ r, f s i = .ok r) (h : unchecked f s i o s') : f s i = .ok (s', o) := by
  obtain ⟨r, hr⟩ := hok
  rw [hr, h r hr]

/-- A step of the checked machine is one of the unchecked machine. -/
theorem unchecked_of_ofExcept {f : σ → ι → Except ε (σ × ο)} {s s' : σ} {i : ι} {o : ο}
    (h : f s i = .ok (s', o)) : unchecked f s i o s' := by
  intro r hr
  exact Except.ok.inj (hr.symm.trans h)

/-- A run: the pairs of inputs and outputs in order, between two states. -/
inductive Run (M : Step σ ι ο) : σ → List (ι × ο) → σ → Prop where
  | nil (s : σ) : Run M s [] s
  | cons {s s' s'' : σ} {e : ι × ο} {t : List (ι × ο)} :
      M s e.1 e.2 s' → Run M s' t s'' → Run M s (e :: t) s''

variable {M : Step σ ι ο}

namespace Run

/-- An empty run stays where it is. -/
theorem nil_inv {s s' : σ} (h : Run M s [] s') : s' = s := by
  cases h
  rfl

/-- A run splits behind its first event. -/
theorem cons_inv {s s'' : σ} {e : ι × ο} {t : List (ι × ο)} (h : Run M s (e :: t) s'') :
    ∃ s', M s e.1 e.2 s' ∧ Run M s' t s'' := by
  cases h with
  | cons hstep hrest => exact ⟨_, hstep, hrest⟩

/-- Two runs end to end are a run. -/
theorem append {s s' s'' : σ} {t t' : List (ι × ο)} (h : Run M s t s') (h' : Run M s' t' s'') :
    Run M s (t ++ t') s'' := by
  induction h with
  | nil _ => exact h'
  | cons hstep _ ih => exact .cons hstep (ih h')

/-- A run grows by one step at its end. -/
theorem snoc {s s' s'' : σ} {t : List (ι × ο)} {e : ι × ο} (h : Run M s t s')
    (hstep : M s' e.1 e.2 s'') : Run M s (t ++ [e]) s'' :=
  h.append (.cons hstep (.nil _))

/-- A run splits at every place of its trace. -/
theorem split {s s'' : σ} {t t' : List (ι × ο)} (h : Run M s (t ++ t') s'') :
    ∃ s', Run M s t s' ∧ Run M s' t' s'' := by
  induction t generalizing s with
  | nil => exact ⟨s, .nil s, h⟩
  | cons e t ih =>
      obtain ⟨s1, hstep, hrest⟩ := h.cons_inv
      obtain ⟨s', hleft, hright⟩ := ih hrest
      exact ⟨s', .cons hstep hleft, hright⟩

/-- The step at one entry of a run, with the runs on both sides of it. -/
theorem middle {s s'' : σ} {pre post : List (ι × ο)} {e : ι × ο}
    (h : Run M s (pre ++ e :: post) s'') :
    ∃ s1 s2, Run M s pre s1 ∧ M s1 e.1 e.2 s2 ∧ Run M s2 post s'' := by
  obtain ⟨s1, hpre, hrest⟩ := h.split
  obtain ⟨s2, hstep, hpost⟩ := hrest.cons_inv
  exact ⟨s1, s2, hpre, hstep, hpost⟩

/-- A property that every step of the run keeps holds at its end. -/
theorem invariant (I : σ → Prop) {s s' : σ} {t : List (ι × ο)} (h : Run M s t s') (hs : I s)
    (hstep : ∀ e ∈ t, ∀ q q', I q → M q e.1 e.2 q' → I q') : I s' := by
  induction h with
  | nil _ => exact hs
  | cons hfirst _ ih =>
      apply ih (hstep _ List.mem_cons_self _ _ hs hfirst)
      intro e he
      exact hstep e (List.mem_cons_of_mem _ he)

/-- The first entry of a run with a property, when the steps before it keep an invariant. -/
theorem first (I : σ → Prop) (p : ι → Prop) {s s' : σ} {t : List (ι × ο)} (h : Run M s t s')
    (hs : I s) (hex : ∃ e ∈ t, p e.1)
    (hstep : ∀ e ∈ t, ¬ p e.1 → ∀ q q', I q → M q e.1 e.2 q' → I q') :
    ∃ e ∈ t, p e.1 ∧ ∃ q q', I q ∧ M q e.1 e.2 q' := by
  induction h with
  | nil _ =>
      obtain ⟨e, he, -⟩ := hex
      cases he
  | @cons s1 s2 _ x t hfirst _ ih =>
      by_cases hx : p x.1
      · exact ⟨x, List.mem_cons_self, hx, s1, s2, hs, hfirst⟩
      · have hrest : ∃ e ∈ t, p e.1 := by
          obtain ⟨e, he, hp⟩ := hex
          rcases List.mem_cons.1 he with rfl | hrest
          · exact absurd hp hx
          · exact ⟨e, hrest, hp⟩
        have hnext : I s2 := hstep x List.mem_cons_self hx s1 s2 hs hfirst
        obtain ⟨e, he, hfound⟩ := ih hnext hrest fun e he => hstep e (List.mem_cons_of_mem x he)
        exact ⟨e, List.mem_cons_of_mem x he, hfound⟩

/-- An invariant that also speaks about the steps taken so far.  A step may use that the history and
the entry are an initial part of the whole run. -/
theorem historyInvariant (I : List (ι × ο) → σ → Prop) {s s' : σ} {t : List (ι × ο)}
    (h : Run M s t s') (hs : I [] s)
    (hstep : ∀ pre e post q q', t = pre ++ e :: post → Run M s pre q → I pre q →
      M q e.1 e.2 q' → I (pre ++ [e]) q') : I t s' := by
  induction t using List.reverseRecOn generalizing s' with
  | nil => exact h.nil_inv ▸ hs
  | append_singleton t e ih =>
      obtain ⟨q, q', hpre, hlast, hend⟩ := h.middle
      cases hend
      have hq : I t q := by
        apply ih hpre
        intro pre e' post q1 q2 ht
        exact hstep pre e' (post ++ [e]) q1 q2 (by simp [ht])
      exact hstep t e [] q s' rfl hpre hq hlast

/-- Two runs side by side. The second takes only the entries that are kept. A relation between the
two states, which may also look at the inputs so far, is preserved by both kinds of entries, and
where both runs move their outputs are related. -/
theorem unwind (R : List ι → σ → σ → Prop) (O : ο → ο → Prop) (keep : ι → Bool) {s s' q : σ}
    {t : List (ι × ο)} (h : Run M s t s') (hq : R [] s q)
    (hstep : ∀ pre e post solo s1 s2 q1, t = pre ++ e :: post → Run M s pre s1 → Run M q solo q1 →
      solo.map Prod.fst = (pre.map Prod.fst).filter keep → R (pre.map Prod.fst) s1 q1 →
      M s1 e.1 e.2 s2 →
      if keep e.1 then ∃ o q2, M q1 e.1 o q2 ∧ O e.2 o ∧ R (pre.map Prod.fst ++ [e.1]) s2 q2
      else R (pre.map Prod.fst ++ [e.1]) s2 q1) :
    ∃ solo q', Run M q solo q' ∧ solo.map Prod.fst = (t.map Prod.fst).filter keep ∧
      List.Forall₂ (fun e e' => e.1 = e'.1 ∧ O e.2 e'.2) (t.filter fun e => keep e.1) solo ∧
      R (t.map Prod.fst) s' q' := by
  apply historyInvariant (fun pre s1 => ∃ solo q1, Run M q solo q1 ∧
    solo.map Prod.fst = (pre.map Prod.fst).filter keep ∧
    List.Forall₂ (fun e e' => e.1 = e'.1 ∧ O e.2 e'.2) (pre.filter fun e => keep e.1) solo ∧
    R (pre.map Prod.fst) s1 q1) h ⟨[], q, .nil q, rfl, .nil, hq⟩
  intro pre e post s1 s2 ht hpre hI hM
  obtain ⟨solo, q1, hsolo, hin, hout, hR⟩ := hI
  have hnext := hstep pre e post solo s1 s2 q1 ht hpre hsolo hin hR hM
  rw [List.map_append, List.filter_append, List.filter_append]
  cases hkeep : keep e.1 with
  | false =>
      simp only [hkeep, Bool.false_eq_true, if_false] at hnext
      refine ⟨solo, q1, hsolo, ?_, ?_, hnext⟩
      · simp [hin, hkeep]
      · simpa [hkeep] using hout
  | true =>
      simp only [hkeep, if_true] at hnext
      obtain ⟨o, q2, hM', hO, hR'⟩ := hnext
      refine ⟨solo ++ [(e.1, o)], q2, hsolo.snoc hM', ?_, ?_, hR'⟩
      · simp [hin, hkeep]
      · have hlast : List.Forall₂ (fun e e' => e.1 = e'.1 ∧ O e.2 e'.2) [e] [(e.1, o)] :=
          .cons ⟨rfl, hO⟩ .nil
        simpa [hkeep] using List.rel_append hout hlast

/-- A run of one machine is a run of another, when a relation between their states is kept by every
step that the first one takes. -/
theorem simulate {τ : Type u} {N : Step τ ι ο} (R : σ → τ → Prop) {s s' : σ} {q : τ}
    {t : List (ι × ο)} (h : Run M s t s') (hq : R s q)
    (hstep : ∀ pre e post s1 s2 q1, t = pre ++ e :: post → Run N q pre q1 → R s1 q1 →
      M s1 e.1 e.2 s2 → ∃ q2, N q1 e.1 e.2 q2 ∧ R s2 q2) :
    ∃ q', Run N q t q' ∧ R s' q' := by
  apply historyInvariant (fun pre s1 => ∃ q1, Run N q pre q1 ∧ R s1 q1) h ⟨q, .nil q, hq⟩
  intro pre e post s1 s2 ht _ hI hM
  obtain ⟨q1, hpre, hR⟩ := hI
  obtain ⟨q2, hN, hR'⟩ := hstep pre e post s1 s2 q1 ht hpre hR hM
  exact ⟨q2, hpre.snoc hN, hR'⟩

/-- What a run does to a part of its state is a run of the part, on the inputs that concern it. -/
theorem project {τ κ π : Type u} {N : Step τ κ π} (part : σ → τ) (input : ι → Option κ)
    {s s' : σ} {t : List (ι × ο)} (h : Run M s t s')
    (hidle : ∀ q i o q', M q i o q' → input i = none → part q' = part q)
    (hmove : ∀ q i o q' k, M q i o q' → input i = some k → ∃ o', N (part q) k o' (part q')) :
    ∃ t', Run N (part s) t' (part s') ∧ t'.map Prod.fst = (t.map Prod.fst).filterMap input := by
  induction h with
  | nil s => exact ⟨[], .nil _, rfl⟩
  | @cons s1 s2 s3 e t hstep _ ih =>
      obtain ⟨t', hrun, hinputs⟩ := ih
      rw [List.map_cons]
      cases hinput : input e.1 with
      | none =>
          rw [hidle _ _ _ _ hstep hinput] at hrun
          exact ⟨t', hrun, by rw [List.filterMap_cons_none hinput, hinputs]⟩
      | some k =>
          obtain ⟨o', hpart⟩ := hmove _ _ _ _ k hstep hinput
          refine ⟨(k, o') :: t', .cons hpart hrun, ?_⟩
          rw [List.filterMap_cons_some hinput, List.map_cons, hinputs]

end Run

/-! ### Running a function -/

/-- Feed a function with inputs one after another, up to a failing step. -/
def exec (f : σ → ι → Except ε (σ × ο)) (s : σ) : List ι → Except ε (σ × List (ι × ο))
  | [] => .ok (s, [])
  | i :: inputs =>
      match f s i with
      | .error e => .error e
      | .ok (s', o) =>
          match exec f s' inputs with
          | .error e => .error e
          | .ok (s'', t) => .ok (s'', (i, o) :: t)

/-- The runs of a function are what it computes. -/
theorem run_iff_exec {f : σ → ι → Except ε (σ × ο)} {s s' : σ} {t : List (ι × ο)}
    {inputs : List ι} :
    (Run (ofExcept f) s t s' ∧ t.map Prod.fst = inputs) ↔ exec f s inputs = .ok (s', t) := by
  constructor
  · intro h
    obtain ⟨hrun, rfl⟩ := h
    induction hrun with
    | nil _ => rfl
    | cons hstep _ ih =>
        rw [List.map_cons, exec, show f _ _ = _ from hstep]
        simp only [ih]
  · intro h
    induction inputs generalizing s t with
    | nil =>
        cases h
        exact ⟨.nil _, rfl⟩
    | cons i inputs ih =>
        rw [exec] at h
        cases hstep : f s i with
        | error e =>
            rw [hstep] at h
            cases h
        | ok r =>
            cases hrest : exec f r.1 inputs with
            | error e =>
                simp only [hstep, hrest] at h
                cases h
            | ok r' =>
                simp only [hstep, hrest] at h
                cases h
                obtain ⟨hrun, hin⟩ := ih hrest
                refine ⟨.cons hstep hrun, ?_⟩
                rw [List.map_cons, hin]

/-- A function has one run on its inputs. -/
theorem run_det {f : σ → ι → Except ε (σ × ο)} {s q q' : σ} {t t' : List (ι × ο)}
    (h : Run (ofExcept f) s t q) (h' : Run (ofExcept f) s t' q')
    (hinputs : t.map Prod.fst = t'.map Prod.fst) : t = t' ∧ q = q' := by
  have hone := (run_iff_exec.1 ⟨h, hinputs⟩).symm.trans (run_iff_exec.1 ⟨h', rfl⟩)
  cases hone
  exact ⟨rfl, rfl⟩

/-- Whether a function gets through some inputs and ends in a state with a property. -/
def endsIn (f : σ → ι → Except ε (σ × ο)) (s : σ) (inputs : List ι) (p : σ → Bool) : Bool :=
  match exec f s inputs with
  | .error _ => false
  | .ok r => p r.1

/-- Such a run, for a function that has been evaluated. -/
theorem run_of_endsIn {f : σ → ι → Except ε (σ × ο)} {s : σ} {inputs : List ι} {p : σ → Bool}
    (h : endsIn f s inputs p = true) :
    ∃ t s', Run (ofExcept f) s t s' ∧ t.map Prod.fst = inputs ∧ p s' = true := by
  rw [endsIn] at h
  cases hexec : exec f s inputs with
  | error e =>
      rw [hexec] at h
      cases h
  | ok r =>
      rw [hexec] at h
      obtain ⟨hrun, hinputs⟩ := run_iff_exec.2 hexec
      exact ⟨r.2, r.1, hrun, hinputs, h⟩

/-- Whether a function gets through some inputs and puts out a value with a property. -/
def putsOut (f : σ → ι → Except ε (σ × ο)) (s : σ) (inputs : List ι) (p : ο → Bool) : Bool :=
  match exec f s inputs with
  | .error _ => false
  | .ok r => r.2.any fun e => p e.2

/-- A computed run that puts something out is a run with that event in its trace. -/
theorem run_of_putsOut {f : σ → ι → Except ε (σ × ο)} {s : σ} {inputs : List ι} {p : ο → Bool}
    (h : putsOut f s inputs p = true) :
    ∃ t s', Run (ofExcept f) s t s' ∧ t.map Prod.fst = inputs ∧ ∃ e ∈ t, p e.2 = true := by
  rw [putsOut] at h
  cases hexec : exec f s inputs with
  | error e =>
      rw [hexec] at h
      cases h
  | ok r =>
      rw [hexec] at h
      obtain ⟨hrun, hinputs⟩ := run_iff_exec.2 hexec
      exact ⟨r.2, r.1, hrun, hinputs, List.any_eq_true.1 h⟩

/-! ### Conditions on the steps of a list of inputs -/

/-- Whenever a run on an initial part of the inputs has got to a state, `P` holds there of the next
input. -/
def Always (M : Step σ ι ο) (s : σ) (inputs : List ι) (P : σ → ι → Prop) : Prop :=
  ∀ pre i post t q, inputs = pre ++ i :: post → t.map Prod.fst = pre → Run M s t q → P q i

namespace Always

variable {P Q : σ → ι → Prop} {s : σ} {inputs : List ι}

/-- A weaker property holds always where a stronger one does. -/
theorem imp (h : Always M s inputs P) (hPQ : ∀ q i, P q i → Q q i) : Always M s inputs Q := by
  intro pre i post t q hpre ht hrun
  exact hPQ q i (h pre i post t q hpre ht hrun)

/-- Conditions that say the same in the states that are reached. -/
theorem congr (h : ∀ t i post q, inputs = t.map Prod.fst ++ i :: post → Run M s t q →
    (P q i ↔ Q q i)) : Always M s inputs P ↔ Always M s inputs Q := by
  constructor
  · rintro hP pre i post t q hpre rfl hrun
    exact (h t i post q hpre hrun).1 (hP _ i post t q hpre rfl hrun)
  · rintro hQ pre i post t q hpre rfl hrun
    exact (h t i post q hpre hrun).2 (hQ _ i post t q hpre rfl hrun)

/-- A condition that does not depend on the state. -/
theorem of_mem (h : ∀ i ∈ inputs, ∀ q, P q i) : Always M s inputs P := by
  intro pre i post t q hpre _ _
  exact h i (hpre ▸ List.mem_append_right pre List.mem_cons_self) q

theorem nil : Always M s [] P := by
  intro pre i post t q hpre _ _
  cases pre <;> cases hpre

theorem cons {i : ι} (hhead : P s i) (htail : ∀ o s', M s i o s' → Always M s' inputs P) :
    Always M s (i :: inputs) P := by
  intro pre j post t q hpre ht hrun
  cases pre with
  | nil =>
      obtain ⟨rfl, -⟩ := List.cons.inj hpre
      obtain rfl : t = [] := by simpa using ht
      cases hrun
      exact hhead
  | cons i' pre =>
      obtain ⟨rfl, hrest⟩ := List.cons.inj hpre
      cases t with
      | nil => cases ht
      | cons e t =>
          obtain ⟨he, hpre'⟩ := List.cons.inj ht
          subst he
          obtain ⟨s', hstep, hrest'⟩ := hrun.cons_inv
          exact htail e.2 s' hstep pre j post t q hrest hpre' hrest'

/-- When the step on the first input can lead to one state only. -/
theorem cons_of_det {i : ι} {s' : σ} (hhead : P s i) (hdet : ∀ o s'', M s i o s'' → s'' = s')
    (htail : Always M s' inputs P) : Always M s (i :: inputs) P :=
  .cons hhead fun o s'' hstep => hdet o s'' hstep ▸ htail

theorem head {i : ι} (h : Always M s (i :: inputs) P) : P s i :=
  h [] i inputs [] s rfl rfl (.nil s)

theorem tail {i : ι} {o : ο} {s' : σ} (h : Always M s (i :: inputs) P) (hstep : M s i o s') :
    Always M s' inputs P := by
  intro pre j post t q hpre ht hrun
  apply h (i :: pre) j post ((i, o) :: t) q ?_ ?_ (.cons hstep hrun)
  · rw [hpre, List.cons_append]
  · rw [List.map_cons, ht]

/-- Over a machine that computes its step: always is now, and always from the next state on. -/
theorem cons_iff {f : σ → ι → Except ε (σ × ο)} {i : ι} {o : ο} {s' : σ}
    (hstep : f s i = .ok (s', o)) :
    Always (ofExcept f) s (i :: inputs) P ↔ P s i ∧ Always (ofExcept f) s' inputs P := by
  refine ⟨fun h => ⟨h.head, h.tail hstep⟩, fun h => .cons_of_det h.1 (fun o' s'' hstep' => ?_) h.2⟩
  exact congrArg Prod.fst (Except.ok.inj (hstep'.symm.trans hstep))

/-- The rest of the inputs, after a run on the first ones. -/
theorem after {s' : σ} {t : List (ι × ο)} (hrun : Run M s t s')
    (h : Always M s (t.map Prod.fst ++ inputs) P) : Always M s' inputs P := by
  induction hrun with
  | nil _ => exact h
  | cons hfirst _ ih => exact ih (h.tail hfirst)

/-- What holds always holds always along a shorter input. -/
theorem append_left {inputs' : List ι} (h : Always M s (inputs ++ inputs') P) :
    Always M s inputs P := by
  intro pre i post t q hpre ht hrun
  apply h pre i (post ++ inputs') t q ?_ ht hrun
  rw [hpre, List.append_assoc, List.cons_append]

/-- A function has one run on its inputs, so the condition is one on the steps of that run. -/
theorem iff_of_run {f : σ → ι → Except ε (σ × ο)} {s' : σ} {t : List (ι × ο)}
    (hrun : Run (ofExcept f) s t s') :
    Always (ofExcept f) s (t.map Prod.fst) P ↔
      ∀ pre e post q, t = pre ++ e :: post → Run (ofExcept f) s pre q → P q e.1 := by
  constructor
  · intro h pre e post q ht hpre
    apply h (pre.map Prod.fst) e.1 (post.map Prod.fst) pre q ?_ rfl hpre
    rw [ht, List.map_append, List.map_cons]
  · intro h pre i post t' q hinputs ht' hq
    obtain ⟨pre', rest, ht, hpre, hrest⟩ := List.map_eq_append_iff.1 hinputs
    obtain ⟨e, post', rfl, rfl, -⟩ := List.map_eq_cons_iff.1 hrest
    subst ht
    obtain ⟨q', hpre', -⟩ := hrun.split
    obtain ⟨rfl, rfl⟩ := run_det hq hpre' (ht'.trans hpre.symm)
    exact h t' e post' q rfl hq

/-- An invariant that a step keeps under the condition, and what such a step puts out. -/
theorem invariant (I : σ → Prop) (O : ι → ο → Prop) {s' : σ} {t : List (ι × ο)}
    (hrun : Run M s t s') (h : Always M s (t.map Prod.fst) P) (hs : I s)
    (hstep : ∀ q i o q', I q → P q i → M q i o q' → I q' ∧ O i o) :
    I s' ∧ ∀ e ∈ t, O e.1 e.2 := by
  induction hrun with
  | nil s => exact ⟨hs, fun e he => absurd he List.not_mem_nil⟩
  | cons hfirst _ ih =>
      obtain ⟨hnext, hout⟩ := hstep _ _ _ _ hs h.head hfirst
      obtain ⟨hend, houts⟩ := ih (h.tail hfirst) hnext
      refine ⟨hend, fun e he => ?_⟩
      cases he with
      | head _ => exact hout
      | tail _ hmem => exact houts e hmem

/-- Inputs that never meet a failing step have a run. -/
theorem exists_run {f : σ → ι → Except ε (σ × ο)} (h : Always (ofExcept f) s inputs P)
    (hok : ∀ q i, P q i → ∃ r, f q i = .ok r) :
    ∃ t s', t.map Prod.fst = inputs ∧ Run (ofExcept f) s t s' := by
  induction inputs generalizing s with
  | nil => exact ⟨[], s, rfl, .nil s⟩
  | cons i inputs ih =>
      obtain ⟨⟨q, o⟩, hstep⟩ := hok s i h.head
      obtain ⟨t, s', ht, hrun⟩ := ih (h.tail hstep)
      exact ⟨(i, o) :: t, s', by rw [List.map_cons, ht], .cons hstep hrun⟩

end Always

/-- After every step of a run, `P` holds of its input and of the state that it has led to. -/
def Afterwards (M : Step σ ι ο) (s : σ) (t : List (ι × ο)) (P : ι → σ → Prop) : Prop :=
  ∀ pre e post q, t = pre ++ e :: post → Run M s (pre ++ [e]) q → P e.1 q

theorem Afterwards.nil {P : ι → σ → Prop} {s : σ} : Afterwards M s [] P := by
  intro pre e post q ht _
  cases pre <;> cases ht

/-- Over a machine that computes its step: afterwards is at this step, and at all later ones. -/
theorem Afterwards.cons_iff {f : σ → ι → Except ε (σ × ο)} {P : ι → σ → Prop} {s s' : σ}
    {e : ι × ο} {t : List (ι × ο)} (hstep : f s e.1 = .ok (s', e.2)) :
    Afterwards (ofExcept f) s (e :: t) P ↔ P e.1 s' ∧ Afterwards (ofExcept f) s' t P := by
  constructor
  · intro h
    refine ⟨h [] e t s' rfl (.cons hstep (.nil s')), fun pre e' post q ht hrun => ?_⟩
    exact h (e :: pre) e' post q (congrArg (e :: ·) ht) (.cons hstep hrun)
  · rintro ⟨hhead, htail⟩ pre e' post q ht hrun
    cases pre with
    | nil =>
        obtain ⟨rfl, -⟩ := List.cons.inj ht
        obtain ⟨s1, hfirst, hend⟩ := hrun.cons_inv
        obtain rfl : s' = s1 := congrArg Prod.fst (Except.ok.inj (hstep.symm.trans hfirst))
        exact hend.nil_inv ▸ hhead
    | cons e1 pre =>
        obtain ⟨rfl, hrest⟩ := List.cons.inj ht
        obtain ⟨s1, hfirst, hend⟩ := hrun.cons_inv
        obtain rfl : s' = s1 := congrArg Prod.fst (Except.ok.inj (hstep.symm.trans hfirst))
        exact htail pre e' post q hrest hend

/-- Whether a condition holds at every step of a function on some inputs. -/
def checks (f : σ → ι → Except ε (σ × ο)) (p : σ → ι → Bool) (s : σ) : List ι → Bool
  | [] => true
  | i :: inputs =>
      p s i &&
        match f s i with
        | .error _ => true
        | .ok r => checks f p r.1 inputs

/-- A condition that has been evaluated. -/
theorem always_of_checks {f : σ → ι → Except ε (σ × ο)} {p : σ → ι → Bool} {s : σ}
    {inputs : List ι} (h : checks f p s inputs = true) :
    Always (ofExcept f) s inputs fun q i => p q i = true := by
  induction inputs generalizing s with
  | nil => exact .nil
  | cons i inputs ih =>
      rw [checks, Bool.and_eq_true] at h
      refine .cons h.1 fun o s' hstep => ih ?_
      have hrest := h.2
      rw [show f s i = .ok (s', o) from hstep] at hrest
      exact hrest

/-- Reading the inputs of a run one by one. -/
theorem map_fst_eq_cons {i : ι} {inputs : List ι} {t : List (ι × ο)}
    (h : t.map Prod.fst = i :: inputs) :
    ∃ o t', t = (i, o) :: t' ∧ t'.map Prod.fst = inputs := by
  obtain ⟨⟨i', o⟩, t', rfl, rfl, ht'⟩ := List.map_eq_cons_iff.1 h
  exact ⟨o, t', rfl, ht'⟩

theorem map_fst_eq_singleton {i : ι} {t : List (ι × ο)} (h : t.map Prod.fst = [i]) :
    ∃ o, t = [(i, o)] := by
  obtain ⟨o, t', rfl, ht'⟩ := map_fst_eq_cons h
  rw [List.map_eq_nil_iff] at ht'
  exact ⟨o, by rw [ht']⟩

/-- A functional machine that never fails under an invariant has a run on every list of inputs. -/
theorem exists_run {f : σ → ι → Except ε (σ × ο)} (I : σ → Prop) (inputs : List ι) {s : σ}
    (hs : I s) (hstep : ∀ i ∈ inputs, ∀ q, I q → ∃ q' o, f q i = .ok (q', o) ∧ I q') :
    ∃ t s', t.map Prod.fst = inputs ∧ Run (ofExcept f) s t s' := by
  induction inputs generalizing s with
  | nil => exact ⟨[], s, rfl, .nil s⟩
  | cons i inputs ih =>
      obtain ⟨q, o, hi, hq⟩ := hstep i List.mem_cons_self s hs
      obtain ⟨t, s', ht, hrun⟩ := ih hq fun j hj => hstep j (List.mem_cons_of_mem _ hj)
      exact ⟨(i, o) :: t, s', by rw [List.map_cons, ht], .cons hi hrun⟩

/-! ### At most one marked entry -/

/-- A list has at most one entry with a mark when no two of its places carry the mark. -/
theorem length_filter_le_one {α : Type u} (p : α → Bool) (t : List α)
    (h : ∀ pre x mid y post, t = pre ++ x :: (mid ++ y :: post) → p x → ¬ p y) :
    (t.filter p).length ≤ 1 := by
  by_contra hlen
  obtain ⟨x, y, rest, hxy⟩ : ∃ x y rest, t.filter p = x :: y :: rest := by
    rcases hf : t.filter p with _ | ⟨x, _ | ⟨y, rest⟩⟩
    · simp [hf] at hlen
    · simp [hf] at hlen
    · exact ⟨x, y, rest, rfl⟩
  obtain ⟨pre, tail, rfl, -, hx, htail⟩ := List.filter_eq_cons_iff.1 hxy
  obtain ⟨mid, post, rfl, -, hy, -⟩ := List.filter_eq_cons_iff.1 htail
  exact h pre x mid y post rfl hx hy

/-! ### The most recent entry -/

section Latest

variable {τ : Type*} {f : ι → Option τ} {inputs : List ι} {i : ι}

/-- What `f` reads from the last of the inputs from which it reads something. -/
def latest (f : ι → Option τ) (inputs : List ι) : Option τ := (inputs.filterMap f).getLast?

theorem latest_concat_some {v : τ} (h : f i = some v) : latest f (inputs ++ [i]) = some v := by
  rw [latest, List.filterMap_append, List.filterMap_cons_some h, List.filterMap_nil,
    List.getLast?_concat]

theorem latest_concat_none (h : f i = none) : latest f (inputs ++ [i]) = latest f inputs := by
  rw [latest, List.filterMap_append, List.filterMap_cons_none h, List.filterMap_nil,
    List.append_nil, latest]

/-- What is the latest in a later part is the latest in the whole. -/
theorem latest_append {inputs' : List ι} {v : τ} (h : latest f inputs' = some v) :
    latest f (inputs ++ inputs') = some v := by
  rw [latest, List.filterMap_append, List.getLast?_append, ← latest, h]
  rfl

/-- Where one input has a value, there is a latest one. -/
theorem exists_latest {v : τ} (hi : i ∈ inputs) (h : f i = some v) :
    ∃ w, latest f inputs = some w := by
  have hmem : v ∈ inputs.filterMap f := List.mem_filterMap.2 ⟨i, hi, h⟩
  exact ⟨_, List.getLast?_eq_some_getLast (List.ne_nil_of_mem hmem)⟩

/-- The latest value is one of an input. -/
theorem latest_mem {v : τ} (h : latest f inputs = some v) : ∃ i ∈ inputs, f i = some v :=
  List.mem_filterMap.1 (List.mem_of_getLast? h)

end Latest

end ConfigEnv.Machine
