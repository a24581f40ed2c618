/-
Module: ConfigEnv.Lib.Netfilter
Layer: Lib
Purpose: Packet filter tables as programs. A chain is a list of rules; a packet that passes all
  tests of a rule undergoes its target: it is changed and goes on, leaves the chain, visits another
  chain or stops with a verdict. Tests and changes are whatever a `Meaning` makes of them, so a
  table is syntax, which the commands that add and delete rules compare. A chain that is run twice
  does what it does once when a second run finds nothing left to do, so a table in which rules stand
  several times over can be reasoned about as one in which they stand once.
Trusted boundary: none
Main exports: Target, Rule, Meaning, Flow, runRules, runChain, runRules_append, runRules_returns,
  runRules_replicate, Table, Table.newChain, Table.append, Table.delete, Table.flush,
  Table.deleteChain, diff_block
Open obligations: none
-/
import Mathlib.Data.Fintype.Defs
import Mathlib.Data.Fintype.Basic
import Mathlib.Data.List.Perm.Basic
import Mathlib.Logic.Function.Basic

namespace ConfigEnv.Netfilter

/-- What happens to a packet of which the tests of a rule hold: chains are named by `κ`, changes by
`α`, verdicts by `υ`. -/
inductive Target (κ α υ : Type) where
  | act (change : α)
  | ret
  | jump (chain : κ)
  | stop (verdict : υ)
deriving DecidableEq

/-- A rule: all tests have to hold, then the target is taken. -/
structure Rule (κ μ α υ : Type) where
  tests : List μ
  target : Target κ α υ
deriving DecidableEq

/-- What the tests and the changes mean for a packet and what belongs to it. -/
structure Meaning (μ α σ : Type) where
  holds : μ → σ → Bool
  act : α → σ → σ

/-- How a packet comes out of a list of rules: past the last, by a return, or with a verdict. -/
inductive Flow (υ σ : Type) where
  | next (s : σ)
  | returned (s : σ)
  | stopped (verdict : υ) (s : σ)
deriving DecidableEq

/-- A return leads back behind the jump. -/
def Flow.leave {υ σ : Type} : Flow υ σ → Flow υ σ
  | .returned s => .next s
  | flow => flow

variable {κ μ α υ σ : Type}

/-- All tests of the rule hold. -/
def Rule.covers (M : Meaning μ α σ) (r : Rule κ μ α υ) (s : σ) : Bool :=
  r.tests.all (M.holds · s)

/-- The rules of one chain; `call` runs the others. -/
def runRules (M : Meaning μ α σ) (call : κ → σ → Option (Flow υ σ)) :
    List (Rule κ μ α υ) → σ → Option (Flow υ σ)
  | [], s => some (.next s)
  | r :: rs, s =>
      if r.covers M s then
        match r.target with
        | .act change => runRules M call rs (M.act change s)
        | .ret => some (.returned s)
        | .jump chain =>
            match call chain s with
            | some (.next s) => runRules M call rs s
            | flow => flow
        | .stop verdict => some (.stopped verdict s)
      else runRules M call rs s

/-- A chain with at most `depth` jumps inside one another. -/
def runChain (M : Meaning μ α σ) (chains : κ → List (Rule κ μ α υ)) :
    Nat → κ → σ → Option (Flow υ σ)
  | 0, _, _ => none
  | depth + 1, chain, s => (runRules M (runChain M chains depth) (chains chain) s).map Flow.leave

/-! ### Running rules -/

section Running

variable {M : Meaning μ α σ} {call : κ → σ → Option (Flow υ σ)} {r : Rule κ μ α υ}
  {rs : List (Rule κ μ α υ)} {s : σ}

/-- Two blocks of rules run one after the other, unless the first one ends the chain. -/
theorem runRules_append (rs rs' : List (Rule κ μ α υ)) (s : σ) :
    runRules M call (rs ++ rs') s =
      match runRules M call rs s with
      | some (.next s') => runRules M call rs' s'
      | flow => flow := by
  induction rs generalizing s with
  | nil => rfl
  | cons r rs ih =>
      rw [List.cons_append, runRules, runRules]
      cases r.covers M s with
      | false => exact ih s
      | true =>
          cases r.target with
          | act change => exact ih _
          | ret => rfl
          | jump chain =>
              simp only [if_true]
              cases call chain s with
              | none => rfl
              | some flow =>
                  cases flow with
                  | next s' => exact ih s'
                  | returned s' => rfl
                  | stopped v s' => rfl
          | stop verdict => rfl

theorem runRules_append_next {rs' : List (Rule κ μ α υ)} {s' : σ}
    (h : runRules M call rs s = some (.next s')) :
    runRules M call (rs ++ rs') s = runRules M call rs' s' := by
  rw [runRules_append, h]

theorem runRules_append_returned {rs' : List (Rule κ μ α υ)} {s' : σ}
    (h : runRules M call rs s = some (.returned s')) :
    runRules M call (rs ++ rs') s = some (.returned s') := by
  rw [runRules_append, h]

theorem runRules_append_stopped {rs' : List (Rule κ μ α υ)} {v : υ} {s' : σ}
    (h : runRules M call rs s = some (.stopped v s')) :
    runRules M call (rs ++ rs') s = some (.stopped v s') := by
  rw [runRules_append, h]

/-- A rule that does not match is passed over. -/
theorem runRules_cons_skip (h : r.covers M s = false) :
    runRules M call (r :: rs) s = runRules M call rs s := by
  rw [runRules, h]
  rfl

/-- A matching rule with a change applies it and goes on. -/
theorem runRules_cons_act {change : α} (h : r.covers M s = true) (ht : r.target = .act change) :
    runRules M call (r :: rs) s = runRules M call rs (M.act change s) := by
  rw [runRules, h, ht]
  rfl

theorem runRules_cons_ret (h : r.covers M s = true) (ht : r.target = .ret) :
    runRules M call (r :: rs) s = some (.returned s) := by
  rw [runRules, h, ht]
  rfl

/-- A jump to a chain that falls through goes on behind the rule. -/
theorem runRules_cons_jump {chain : κ} {s' : σ} (h : r.covers M s = true)
    (ht : r.target = .jump chain) (hcall : call chain s = some (.next s')) :
    runRules M call (r :: rs) s = runRules M call rs s' := by
  rw [runRules, h, ht]
  simp only [if_true, hcall]

/-- Of a rule that covers a packet only the target is left. -/
theorem runRules_singleton (h : r.covers M s = true) :
    runRules M call [r] s = runRules M call [{ tests := [], target := r.target }] s := by
  rw [runRules, runRules, h]
  rfl

/-- Rules that a packet does not pass leave it alone. -/
theorem runRules_skip (h : ∀ r ∈ rs, r.covers M s = false) :
    runRules M call rs s = some (.next s) := by
  induction rs with
  | nil => rfl
  | cons r rs ih =>
      rw [runRules_cons_skip (h r List.mem_cons_self)]
      exact ih fun r' hr' => h r' (List.mem_cons_of_mem r hr')

/-- A list of exceptions. -/
theorem runRules_returns (tests : List (List μ)) (s : σ) :
    runRules M call (tests.map fun ts => { tests := ts, target := .ret }) s =
      if tests.any (fun ts => ts.all (M.holds · s)) then some (.returned s)
      else some (.next s) := by
  induction tests with
  | nil => rfl
  | cons ts tests ih =>
      rw [List.map_cons, List.any_cons]
      cases hts : ts.all (M.holds · s) with
      | true => exact runRules_cons_ret hts rfl
      | false =>
          have hskip : ({ tests := ts, target := .ret } : Rule κ μ α υ).covers M s = false := hts
          rw [runRules_cons_skip hskip, ih, Bool.false_or]

/-- Rules that have nothing left to do. -/
theorem runRules_settled {block : List (Rule κ μ α υ)}
    (h : (runRules M call block s).map Flow.leave = some (.next s)) (n : Nat) :
    (runRules M call (List.replicate n block).flatten s).map Flow.leave = some (.next s) := by
  induction n with
  | zero => rfl
  | succ n ih =>
      rw [List.replicate_succ, List.flatten_cons]
      cases hblock : runRules M call block s with
      | none =>
          rw [hblock] at h
          exact absurd h.symm (Option.some_ne_none _)
      | some flow =>
          rw [hblock] at h
          cases flow with
          | next s' =>
              obtain rfl : s' = s := Flow.next.inj (Option.some.inj h)
              rw [runRules_append_next hblock]
              exact ih
          | returned s' =>
              rw [runRules_append_returned hblock]
              exact h
          | stopped v s' => exact nomatch Option.some.inj h

/-- Rules that stand several times over do what they do once, when they have nothing left to do
behind themselves. -/
theorem runRules_replicate {block : List (Rule κ μ α υ)}
    (h : ∀ s', runRules M call block s = some (.next s') →
      (runRules M call block s').map Flow.leave = some (.next s')) (n : Nat) :
    (runRules M call (List.replicate (n + 1) block).flatten s).map Flow.leave =
      (runRules M call block s).map Flow.leave := by
  rw [List.replicate_succ, List.flatten_cons]
  cases hblock : runRules M call block s with
  | none => rw [runRules_append, hblock]
  | some flow =>
      cases flow with
      | next s' =>
          rw [runRules_append_next hblock]
          exact runRules_settled (h s' hblock) n
      | returned s' => rw [runRules_append_returned hblock]
      | stopped v s' => rw [runRules_append_stopped hblock]

end Running

/-! ### Tables -/

/-- The chains of a table. -/
@[ext]
structure Table (κ μ α υ : Type) where
  chain : κ → Option (List (Rule κ μ α υ))

namespace Table

variable [DecidableEq κ]

/-- The table with another chain under a name, or none. -/
def set (t : Table κ μ α υ) (k : κ) (rs : Option (List (Rule κ μ α υ))) : Table κ μ α υ where
  chain := Function.update t.chain k rs

/-- `-N`, which fails when there is such a chain. -/
def newChain (t : Table κ μ α υ) (k : κ) : Table κ μ α υ :=
  match t.chain k with
  | none => t.set k (some [])
  | some _ => t

/-- Whether a rule may stand in the table: it jumps to a chain that exists. -/
def admits (t : Table κ μ α υ) (r : Rule κ μ α υ) : Bool :=
  match r.target with
  | .jump k => (t.chain k).isSome
  | _ => true

/-- `-A`, which fails when the chain or the one that the rule jumps to does not exist. -/
def append (t : Table κ μ α υ) (k : κ) (r : Rule κ μ α υ) : Table κ μ α υ :=
  match t.chain k with
  | none => t
  | some rs => if t.admits r then t.set k (some (rs ++ [r])) else t

/-- `-D` with the text of a rule: the first such rule. -/
def delete [DecidableEq μ] [DecidableEq α] [DecidableEq υ] (t : Table κ μ α υ) (k : κ)
    (r : Rule κ μ α υ) : Table κ μ α υ :=
  match t.chain k with
  | none => t
  | some rs => t.set k (some (rs.erase r))

/-- `-F`. -/
def flush (t : Table κ μ α υ) (k : κ) : Table κ μ α υ :=
  match t.chain k with
  | none => t
  | some _ => t.set k (some [])

/-- Some rule jumps to the chain. -/
def referenced [Fintype κ] [DecidableEq α] [DecidableEq υ] (t : Table κ μ α υ) (k : κ) : Bool :=
  decide (∃ k', ∃ r ∈ (t.chain k').getD [], r.target = .jump k)

/-- `-X`, which fails when the chain has rules or references. -/
def deleteChain [Fintype κ] [DecidableEq μ] [DecidableEq α] [DecidableEq υ] (t : Table κ μ α υ)
    (k : κ) : Table κ μ α υ :=
  if t.chain k = some [] ∧ t.referenced k = false then t.set k none else t

variable {t : Table κ μ α υ} {k k' : κ} {rs old : List (Rule κ μ α υ)}

@[simp] theorem chain_set_self (t : Table κ μ α υ) (k : κ) (rs : Option (List (Rule κ μ α υ))) :
    (t.set k rs).chain k = rs := Function.update_self ..

theorem chain_set_of_ne (h : k' ≠ k) (rs : Option (List (Rule κ μ α υ))) :
    (t.set k rs).chain k' = t.chain k' := Function.update_of_ne h ..

theorem set_set (t : Table κ μ α υ) (k : κ) (rs rs' : Option (List (Rule κ μ α υ))) :
    (t.set k rs).set k rs' = t.set k rs' := by
  ext1
  exact Function.update_idem ..

theorem set_chain (t : Table κ μ α υ) (k : κ) : t.set k (t.chain k) = t := by
  ext1
  exact Function.update_eq_self ..

/-- Flushing a chain leaves every other one as it is. -/
theorem chain_flush_of_ne (t : Table κ μ α υ) (h : k' ≠ k) :
    (t.flush k).chain k' = t.chain k' := by
  unfold flush
  cases t.chain k with
  | none => rfl
  | some _ => exact chain_set_of_ne h _

theorem flush_of_some (h : t.chain k = some old) : (t.flush k).chain k = some [] := by
  unfold flush
  rw [h]
  exact chain_set_self ..

theorem flush_of_none (h : t.chain k = none) : t.flush k = t := by
  unfold flush
  rw [h]

theorem chain_deleteChain_of_ne [Fintype κ] [DecidableEq μ] [DecidableEq α] [DecidableEq υ]
    (t : Table κ μ α υ) (h : k' ≠ k) : (t.deleteChain k).chain k' = t.chain k' := by
  unfold deleteChain
  split
  · exact chain_set_of_ne h _
  · rfl

/-- Changing the rules of a chain leaves the rules that may stand in the table as they are. -/
theorem admits_set (h : (t.chain k).isSome) (rs : List (Rule κ μ α υ)) (r : Rule κ μ α υ) :
    (t.set k (some rs)).admits r = t.admits r := by
  unfold admits
  cases r.target with
  | jump k' =>
      by_cases hk : k' = k
      · subst hk
        change ((t.set k' (some rs)).chain k').isSome = (t.chain k').isSome
        rw [chain_set_self, h]
        rfl
      · exact congrArg Option.isSome (chain_set_of_ne hk _)
  | act change => rfl
  | ret => rfl
  | stop v => rfl

/-- A block of rules is appended. -/
theorem foldl_append (h : t.chain k = some old) (hrs : ∀ r ∈ rs, t.admits r = true) :
    rs.foldl (fun t r => t.append k r) t = t.set k (some (old ++ rs)) := by
  induction rs generalizing t old with
  | nil =>
      rw [List.append_nil, ← h, set_chain]
      rfl
  | cons r rs ih =>
      have hr : t.append k r = t.set k (some (old ++ [r])) := by
        unfold append
        rw [h, hrs r List.mem_cons_self]
        rfl
      rw [List.foldl_cons, hr, ih (chain_set_self ..), set_set, List.append_assoc,
        List.singleton_append]
      intro r' hr'
      rw [admits_set (by rw [h]; rfl)]
      exact hrs r' (List.mem_cons_of_mem r hr')

/-- Rules are deleted one by one. -/
theorem foldl_delete [DecidableEq μ] [DecidableEq α] [DecidableEq υ] (h : t.chain k = some old) :
    rs.foldl (fun t r => t.delete k r) t = t.set k (some (old.diff rs)) := by
  induction rs generalizing t old with
  | nil =>
      rw [List.diff_nil, ← h, set_chain]
      rfl
  | cons r rs ih =>
      have hr : t.delete k r = t.set k (some (old.erase r)) := by
        unfold delete
        rw [h]
      rw [List.foldl_cons, hr, ih (chain_set_self ..), set_set, List.diff_cons]

end Table

/-! ### Blocks of rules -/

section Blocks

variable {β : Type} [DecidableEq β] {own block rest : List β}

/-- Removing a block leaves what stands in front of it. -/
theorem diff_append_of_disjoint (h : ∀ b ∈ block, b ∉ own) (rest : List β) :
    (own ++ rest).diff block = own ++ rest.diff block := by
  induction block generalizing rest with
  | nil => simp only [List.diff_nil]
  | cons b block ih =>
      rw [List.diff_cons, List.diff_cons, List.erase_append_right _ (h b List.mem_cons_self)]
      exact ih (fun b' hb' => h b' (List.mem_cons_of_mem b hb')) _

theorem diff_self_append (block rest : List β) : (block ++ rest).diff block = rest := by
  induction block with
  | nil => rfl
  | cons b block ih =>
      rw [List.cons_append, List.diff_cons, List.erase_cons_head, ih]

/-- Deleting the rules of a block, in any order, takes one of its copies away, if there is one. -/
theorem diff_block {rules : List β} (h : ∀ b ∈ block, b ∉ own) (hperm : rules.Perm block)
    (n : Nat) :
    (own ++ (List.replicate n block).flatten).diff rules =
      own ++ (List.replicate (n - 1) block).flatten := by
  rw [hperm.diff_left, diff_append_of_disjoint h]
  cases n with
  | zero =>
      have hnil : ([] : List β).diff block = [] := by simp
      rw [List.replicate_zero, List.flatten_nil, hnil]
  | succ n =>
      rw [List.replicate_succ, List.flatten_cons, diff_self_append, Nat.add_sub_cancel]

end Blocks

end ConfigEnv.Netfilter
