/-
Module: ConfigEnv.Lib.Attach
Layer: Lib
Purpose: A driver that is attached to a device and detached from it, again and again. Its probe is a
  list of stages, each of which gains something; when the call of a stage fails, a list of releases
  follows, and remove is such a list as well. What is held at a point of a run is what the place in
  these lists says, together with what the verdicts of earlier attempts say that these have left
  behind; the releases that found nothing add up over the verdicts too (`balanced`). A device is
  attached at most once at a time. The unchecked calls of an attempt, which the stages do not
  show, are told apart by a variant that the attempt starts with.
Trusted boundary: none
Main exports: Stage, Driver, Place, State, Event, Verdict, Step, heldAt, leftBy, missedBy,
  Balanced, balanced, place_valid, verdict_valid, total_congr
Open obligations: none
-/
import ConfigEnv.Lib.Run
import Mathlib.Algebra.BigOperators.Group.List.Basic
import Mathlib.Algebra.Order.Group.Multiset
import Mathlib.Data.Multiset.Filter

namespace ConfigEnv.Attach

open Machine

variable {ρ ν : Type}

/-- A stage of a probe: a call that may fail, after which `undo` is released in this order and
`code` is returned, or the code of the call where there is none; or an assignment. -/
inductive Stage (ρ : Type) where
  | call (gains undo : List ρ) (code : Option Int)
  | set (gains : List ρ)

namespace Stage

/-- What the stage gains when it succeeds. -/
def gains : Stage ρ → List ρ
  | .call gains _ _ => gains
  | .set gains => gains

/-- What is released when it fails. -/
def undo : Stage ρ → List ρ
  | .call _ undo _ => undo
  | .set _ => []

/-- What the probe returns when the call has failed with `err`. -/
def returns (err : Int) : Stage ρ → Int
  | .call _ _ code => code.getD err
  | .set _ => 0

/-- Only a call can fail. -/
def isCall : Stage ρ → Bool
  | .call .. => true
  | .set _ => false

end Stage

/-- The two functions of a driver; `managed` is what the kernel takes back by itself once the device
is detached. -/
structure Driver (ρ : Type) where
  probe : List (Stage ρ)
  remove : List ρ
  managed : ρ → Bool

namespace Driver

/-- What the first `i` stages gain. -/
def gained (d : Driver ρ) (i : ℕ) : Multiset ρ := ((d.probe.take i).flatMap Stage.gains : List ρ)

/-- What a whole probe gains. -/
def gainedAll (d : Driver ρ) : Multiset ρ := d.gained d.probe.length

/-- The releases after stage `i` has failed. -/
def undo (d : Driver ρ) (i : ℕ) : List ρ := (d.probe[i]?.map Stage.undo).getD []

/-- What has been gained after one more stage. -/
theorem gained_succ (d : Driver ρ) {i : ℕ} {stage : Stage ρ} (h : d.probe[i]? = some stage) :
    d.gained (i + 1) = d.gained i + (stage.gains : Multiset ρ) := by
  rw [gained, gained, List.take_add_one, h, Option.toList_some, List.flatMap_append,
    List.flatMap_singleton, Multiset.coe_add]

end Driver

/-- Where the driver is: in a probe, behind a stage of it that has failed and is to return `ret`, or
in a remove. -/
inductive Place (ν : Type) where
  | detached
  | probing (v : ν) (i : ℕ)
  | undoing (v : ν) (i j : ℕ) (ret : Int)
  | attached (v : ν)
  | removing (v : ν) (j : ℕ)

/-- What the attempt that goes on holds, what earlier ones have left, and the releases of something
that was not held. -/
structure State (ρ ν : Type) where
  place : Place ν
  held : Multiset ρ
  left : Multiset ρ
  missed : Multiset ρ

/-- Nothing is attached yet. -/
def State.start : State ρ ν := { place := .detached, held := 0, left := 0, missed := 0 }

/-- What can happen next. -/
inductive Event (ν : Type) where
  /-- The device is offered to the driver. -/
  | probe (v : ν)
  /-- The next stage succeeds. -/
  | ok
  /-- The next stage fails with this code. -/
  | err (code : Int)
  /-- The next release. -/
  | release
  /-- The function returns. -/
  | done
  /-- The device is taken from the driver. -/
  | remove

/-- What an attempt has come to. -/
inductive Verdict (ν : Type) where
  | failed (v : ν) (i : ℕ) (ret : Int)
  | removed (v : ν)

section Machine

variable [DecidableEq ρ]

/-- A release of `r`. -/
def State.release (s : State ρ ν) (r : ρ) : State ρ ν :=
  if r ∈ s.held then { s with held := s.held.erase r }
  else { s with missed := s.missed + {r} }

/-- The device is detached: what is managed is taken back, and nobody holds the rest any more. -/
def State.detach (s : State ρ ν) (d : Driver ρ) : State ρ ν :=
  { s with
    place := .detached, held := 0
    left := s.left + s.held.filter fun r => d.managed r = false }

/-- The steps of a family of drivers. -/
inductive Step (D : ν → Driver ρ) : Machine.Step (State ρ ν) (Event ν) (Option (Verdict ν)) where
  | probe {s : State ρ ν} (v : ν) (h : s.place = .detached) :
      Step D s (.probe v) none { s with place := .probing v 0 }
  | ok {s : State ρ ν} {v : ν} {i : ℕ} {stage : Stage ρ} (h : s.place = .probing v i)
      (hstage : (D v).probe[i]? = some stage) :
      Step D s .ok none
        { s with place := .probing v (i + 1), held := s.held + (stage.gains : Multiset ρ) }
  | err {s : State ρ ν} {v : ν} {i : ℕ} {stage : Stage ρ} (h : s.place = .probing v i)
      (hstage : (D v).probe[i]? = some stage) (hcall : stage.isCall = true) {code : Int}
      (hcode : code < 0) :
      Step D s (.err code) none { s with place := .undoing v i 0 (stage.returns code) }
  | undo {s : State ρ ν} {v : ν} {i j : ℕ} {ret : Int} {r : ρ} (h : s.place = .undoing v i j ret)
      (hr : ((D v).undo i)[j]? = some r) :
      Step D s .release none { s.release r with place := .undoing v i (j + 1) ret }
  | failed {s : State ρ ν} {v : ν} {i j : ℕ} {ret : Int} (h : s.place = .undoing v i j ret)
      (hend : j = ((D v).undo i).length) :
      Step D s .done (some (.failed v i ret)) (s.detach (D v))
  | attached {s : State ρ ν} {v : ν} {i : ℕ} (h : s.place = .probing v i)
      (hend : i = (D v).probe.length) : Step D s .done none { s with place := .attached v }
  | remove {s : State ρ ν} {v : ν} (h : s.place = .attached v) :
      Step D s .remove none { s with place := .removing v 0 }
  | take {s : State ρ ν} {v : ν} {j : ℕ} {r : ρ} (h : s.place = .removing v j)
      (hr : (D v).remove[j]? = some r) :
      Step D s .release none { s.release r with place := .removing v (j + 1) }
  | removed {s : State ρ ν} {v : ν} {j : ℕ} (h : s.place = .removing v j)
      (hend : j = (D v).remove.length) :
      Step D s .done (some (.removed v)) (s.detach (D v))

/-! ### What a place says -/

/-- What is held at a place. -/
def heldAt (D : ν → Driver ρ) : Place ν → Multiset ρ
  | .detached => 0
  | .probing v i => (D v).gained i
  | .undoing v i j _ => (D v).gained i - (((D v).undo i).take j : List ρ)
  | .attached v => (D v).gainedAll
  | .removing v j => (D v).gainedAll - ((D v).remove.take j : List ρ)

/-- The releases of the current list that have found nothing. -/
def missedAt (D : ν → Driver ρ) : Place ν → Multiset ρ
  | .undoing v i j _ => (((D v).undo i).take j : List ρ) - (D v).gained i
  | .removing v j => ((D v).remove.take j : List ρ) - (D v).gainedAll
  | _ => 0

/-- What an attempt leaves behind. -/
def leftBy (D : ν → Driver ρ) : Verdict ν → Multiset ρ
  | .failed v i _ =>
      ((D v).gained i - ((D v).undo i : Multiset ρ)).filter fun r => (D v).managed r = false
  | .removed v =>
      ((D v).gainedAll - ((D v).remove : Multiset ρ)).filter fun r => (D v).managed r = false

/-- The releases of an attempt that find nothing. -/
def missedBy (D : ν → Driver ρ) : Verdict ν → Multiset ρ
  | .failed v i _ => ((D v).undo i : Multiset ρ) - (D v).gained i
  | .removed v => ((D v).remove : Multiset ρ) - (D v).gainedAll

/-- The sum of a quantity over the verdicts of a run. -/
def total (f : Verdict ν → Multiset ρ) (t : List (Event ν × Option (Verdict ν))) : Multiset ρ :=
  ((t.filterMap Prod.snd).map f).sum

/-! ### Steps -/

variable {D : ν → Driver ρ} {s s' : State ρ ν} {e : Event ν} {out : Option (Verdict ν)}
  {t : List (Event ν × Option (Verdict ν))}

theorem release_held (s : State ρ ν) (r : ρ) : (s.release r).held = s.held - {r} := by
  rw [Multiset.sub_singleton, State.release]
  split
  · rfl
  · next hr => exact (Multiset.erase_of_notMem hr).symm

theorem release_left (s : State ρ ν) (r : ρ) : (s.release r).left = s.left := by
  rw [State.release]
  split <;> rfl

/-- Releasing what is not held is counted as missed. -/
theorem release_missed (s : State ρ ν) (r : ρ) :
    (s.release r).missed = s.missed + if r ∈ s.held then 0 else {r} := by
  rw [State.release]
  split
  · exact (add_zero _).symm
  · rfl

omit [DecidableEq ρ] in
theorem coe_take_succ {l : List ρ} {j : ℕ} {r : ρ} (h : l[j]? = some r) :
    ((l.take (j + 1) : List ρ) : Multiset ρ) = (l.take j : List ρ) + {r} := by
  rw [List.take_add_one, h, Option.toList_some, ← Multiset.coe_singleton, Multiset.coe_add]

/-- One more release finds nothing exactly when what was gained is used up. -/
theorem missed_succ (u g : Multiset ρ) (r : ρ) :
    u + {r} - g = u - g + if r ∈ g - u then 0 else {r} := by
  ext a
  by_cases hr : r ∈ g - u
  · rw [if_pos hr]
    rw [Multiset.mem_sub] at hr
    by_cases ha : a = r
    · subst ha
      simp only [Multiset.count_sub, Multiset.count_add, Multiset.count_singleton_self,
        Multiset.count_zero]
      omega
    · simp only [Multiset.count_sub, Multiset.count_add, Multiset.count_singleton, if_neg ha,
        Multiset.count_zero]
      omega
  · rw [if_neg hr]
    rw [Multiset.mem_sub, Nat.not_lt] at hr
    by_cases ha : a = r
    · subst ha
      simp only [Multiset.count_sub, Multiset.count_add, Multiset.count_singleton_self]
      omega
    · simp only [Multiset.count_sub, Multiset.count_add, Multiset.count_singleton, if_neg ha]
      omega

/-- The books of a run. -/
structure Balanced (D : ν → Driver ρ) (t : List (Event ν × Option (Verdict ν)))
    (s : State ρ ν) : Prop where
  held : s.held = heldAt D s.place
  left : s.left = total (leftBy D) t
  missed : s.missed = total (missedBy D) t + missedAt D s.place

omit [DecidableEq ρ] in
theorem total_concat_none (f : Verdict ν → Multiset ρ) (t : List (Event ν × Option (Verdict ν)))
    (e : Event ν) : total f (t ++ [(e, none)]) = total f t := by
  rw [total, List.filterMap_append, List.filterMap_cons_none rfl, List.filterMap_nil,
    List.append_nil, total]

omit [DecidableEq ρ] in
theorem total_concat_some (f : Verdict ν → Multiset ρ) (t : List (Event ν × Option (Verdict ν)))
    (e : Event ν) (v : Verdict ν) : total f (t ++ [(e, some v)]) = total f t + f v := by
  have hlast : [(e, some v)].filterMap Prod.snd = [v] := rfl
  rw [total, List.filterMap_append, hlast, List.map_append, List.sum_append, List.map_singleton,
    List.sum_singleton, total]

/-- A release from a list, `g` having been gained before the list was begun. -/
theorem Balanced.release {l : List ρ} {j : ℕ} {r : ρ} {g : Multiset ρ} {place : Place ν}
    (h : Balanced D t s) (hr : l[j]? = some r) (hheld : heldAt D s.place = g - (l.take j : List ρ))
    (hmissed : missedAt D s.place = (l.take j : List ρ) - g)
    (hheld' : heldAt D place = g - (l.take (j + 1) : List ρ))
    (hmissed' : missedAt D place = (l.take (j + 1) : List ρ) - g) (e : Event ν) :
    Balanced D (t ++ [(e, none)]) { s.release r with place := place } where
  held := by
    change (s.release r).held = heldAt D place
    rw [release_held, h.held, hheld, hheld', coe_take_succ hr, tsub_add_eq_tsub_tsub]
  left := by
    change (s.release r).left = _
    rw [release_left, h.left, total_concat_none]
  missed := by
    change (s.release r).missed = _ + missedAt D place
    rw [release_missed, h.missed, h.held, hmissed, hheld, total_concat_none, hmissed',
      coe_take_succ hr, missed_succ, add_assoc]

/-- The end of an attempt. -/
theorem Balanced.detach {v : Verdict ν} {d : Driver ρ} (h : Balanced D t s)
    (hleft : leftBy D v = (heldAt D s.place).filter fun r => d.managed r = false)
    (hmissed : missedBy D v = missedAt D s.place) (e : Event ν) :
    Balanced D (t ++ [(e, some v)]) (s.detach d) where
  held := rfl
  left := by
    change s.left + s.held.filter (fun r => d.managed r = false) = _
    rw [h.left, h.held, total_concat_some, hleft]
  missed := by
    change s.missed = _ + missedAt D .detached
    rw [h.missed, total_concat_some, hmissed]
    exact (add_zero _).symm

/-- Every step keeps the books balanced. -/
theorem Balanced.step (h : Balanced D t s) (hstep : Step D s e out s') :
    Balanced D (t ++ [(e, out)]) s' := by
  have hquiet : ∀ {place : Place ν}, heldAt D place = heldAt D s.place →
      missedAt D place = missedAt D s.place → Balanced D (t ++ [(e, none)])
        { s with place := place } := by
    intro place hheld hmissed
    refine ⟨h.held.trans hheld.symm, ?_, ?_⟩
    · rw [total_concat_none]
      exact h.left
    · rw [total_concat_none]
      exact h.missed.trans (congrArg _ hmissed.symm)
  cases hstep with
  | probe v hat =>
      apply hquiet
      · rw [hat]
        rfl
      · rw [hat]
        rfl
  | @ok _ v i stage hat hstage =>
      refine ⟨?_, ?_, ?_⟩
      · change s.held + _ = (D v).gained (i + 1)
        rw [h.held, hat, Driver.gained_succ _ hstage]
        rfl
      · rw [total_concat_none]
        exact h.left
      · rw [total_concat_none]
        have hmissed := h.missed
        rwa [hat] at hmissed
  | @err _ v i stage hat =>
      apply hquiet
      · rw [hat]
        exact tsub_zero ((D v).gained i)
      · rw [hat]
        exact Multiset.zero_sub _
  | undo hat hr =>
      apply h.release hr (by rw [hat]; rfl) (by rw [hat]; rfl) rfl rfl
  | @failed _ v i j ret hat hend =>
      apply h.detach
      · rw [hat, heldAt, hend, List.take_length]
        rfl
      · rw [hat, missedAt, hend, List.take_length]
        rfl
  | @attached _ v i hat hend =>
      apply hquiet
      · rw [hat, heldAt, heldAt, hend]
        rfl
      · rw [hat]
        rfl
  | @remove _ v hat =>
      apply hquiet
      · rw [hat]
        exact tsub_zero (D v).gainedAll
      · rw [hat]
        exact Multiset.zero_sub _
  | take hat hr =>
      apply h.release hr (by rw [hat]; rfl) (by rw [hat]; rfl) rfl rfl
  | @removed _ v j hat hend =>
      apply h.detach
      · rw [hat, heldAt, hend, List.take_length]
        rfl
      · rw [hat, missedAt, hend, List.take_length]
        rfl

/-! ### Runs -/

/-- The books of every run are balanced. -/
theorem balanced (hrun : Run (Step D) State.start t s) : Balanced D t s := by
  apply hrun.historyInvariant (Balanced D)
  · exact ⟨rfl, rfl, rfl⟩
  · rintro pre ⟨e, out⟩ post s1 s2 - - ih hstep
    exact ih.step hstep

/-- The code that a failing stage makes the probe return. -/
def ReturnedBy (d : Driver ρ) (i : ℕ) (ret : Int) : Prop :=
  ∃ stage code, d.probe[i]? = some stage ∧ stage.isCall = true ∧ code < 0 ∧
    ret = stage.returns code

/-- Stage `i` is one that can fail. -/
def Driver.fails (d : Driver ρ) (i : ℕ) : Bool := d.probe[i]?.any Stage.isCall

omit [DecidableEq ρ] in
/-- A stage whose failure comes back as the return value is one of the probe's that can fail. -/
theorem ReturnedBy.fails {d : Driver ρ} {i : ℕ} {ret : Int} (h : ReturnedBy d i ret) :
    i < d.probe.length ∧ d.fails i = true := by
  obtain ⟨stage, code, hstage, hcall, -, -⟩ := h
  refine ⟨(List.getElem?_eq_some_iff.1 hstage).1, ?_⟩
  rw [Driver.fails, hstage]
  exact hcall

/-- A place that lies in the lists of the driver. -/
def Place.Valid (D : ν → Driver ρ) : Place ν → Prop
  | .detached | .attached _ => True
  | .probing v i => i ≤ (D v).probe.length
  | .undoing v i j ret => ReturnedBy (D v) i ret ∧ j ≤ ((D v).undo i).length
  | .removing v j => j ≤ (D v).remove.length

/-- A failed attempt has failed at a stage that can fail. -/
def Verdict.Valid (D : ν → Driver ρ) : Verdict ν → Prop
  | .failed v i ret => ReturnedBy (D v) i ret
  | .removed _ => True

/-- Places and verdicts stay within the driver's stages. -/
theorem Step.valid (hstep : Step D s e out s') (h : s.place.Valid D) :
    s'.place.Valid D ∧ ∀ v ∈ out, v.Valid D := by
  cases hstep with
  | probe v hat => exact ⟨Nat.zero_le _, by simp⟩
  | ok hat hstage =>
      obtain ⟨hlt, -⟩ := List.getElem?_eq_some_iff.1 hstage
      exact ⟨hlt, by simp⟩
  | err hat hstage hcall hcode =>
      exact ⟨⟨⟨_, _, hstage, hcall, hcode, rfl⟩, Nat.zero_le _⟩, by simp⟩
  | undo hat hr =>
      rw [hat] at h
      obtain ⟨hlt, -⟩ := List.getElem?_eq_some_iff.1 hr
      exact ⟨⟨h.1, hlt⟩, by simp⟩
  | failed hat hend =>
      rw [hat] at h
      refine ⟨trivial, fun v hv => ?_⟩
      rw [← Option.some.inj hv]
      exact h.1
  | attached hat hend => exact ⟨trivial, by simp⟩
  | remove hat => exact ⟨Nat.zero_le _, by simp⟩
  | take hat hr =>
      obtain ⟨hlt, -⟩ := List.getElem?_eq_some_iff.1 hr
      exact ⟨hlt, by simp⟩
  | removed hat hend =>
      refine ⟨trivial, fun v hv => ?_⟩
      rw [← Option.some.inj hv]
      trivial

/-- Every reachable place is one of the driver's stages. -/
theorem place_valid (hrun : Run (Step D) State.start t s) : s.place.Valid D := by
  apply hrun.invariant fun s => s.place.Valid D
  · trivial
  · intro e _ s1 s2 h hstep
    exact (hstep.valid h).1

/-- Every verdict of a run names one of the driver's stages. -/
theorem verdict_valid (hrun : Run (Step D) State.start t s) :
    ∀ v ∈ t.filterMap Prod.snd, v.Valid D := by
  intro v hv
  obtain ⟨e, he, hout⟩ := List.mem_filterMap.1 hv
  obtain ⟨pre, post, rfl⟩ := List.append_of_mem he
  obtain ⟨s1, s2, hpre, hstep, -⟩ := hrun.middle
  exact (hstep.valid (place_valid hpre)).2 v hout

/-- Two quantities that agree on every verdict that a run can have have the same total. -/
theorem total_congr {f g : Verdict ν → Multiset ρ} (hrun : Run (Step D) State.start t s)
    (h : ∀ v : Verdict ν, v.Valid D → f v = g v) : total f t = total g t := by
  rw [total, total]
  congr 1
  apply List.map_congr_left
  intro v hv
  exact h v (verdict_valid hrun v hv)

end Machine

end ConfigEnv.Attach
