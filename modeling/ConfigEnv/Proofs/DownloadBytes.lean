/-
Module: ConfigEnv.Proofs.DownloadBytes
Layer: Proofs
Purpose: The download handler sends what it announces. While it waits it has one listener and a
  drain is to come; when the last byte is written it ends the response, whatever the last answer
  was. Every drain event writes at least one chunk, so there are only finitely many.
Trusted boundary: none
Main exports: prologue, Sending, Inv, announced_eq, loop_sends, pump_inv, Counts, drain_inv,
  run_counts, SentExactly, down_sends_announced
Open obligations: none
-/
import ConfigEnv.Speedtest.Download
import Mathlib.Algebra.BigOperators.Group.List.Basic
import Mathlib.Algebra.Order.Group.Unbundled.Int
import Mathlib.Algebra.Ring.Nat

namespace ConfigEnv.Speedtest

open Machine (Run)

variable {bytes : ℕ} {ok : ℕ → Bool} {s : State}

/-! ### The invariant -/

/-- What the log begins with. -/
def prologue (bytes : ℕ) : List Action := if bytes = 0 then [] else [.contentLength bytes]

/-- The response is open and counts what it has written. -/
structure Sending (bytes : ℕ) (s : State) : Prop where
  sizes : ∀ size ∈ writes s.log, 1 ≤ size ∧ size ≤ chunkSize
  total : (writes s.log).sum = s.sent
  bound : s.sent ≤ bytes
  header : ∃ body, s.log = prologue bytes ++ body ∧ ∀ n, .contentLength n ∉ body
  still : .ended ∉ s.log

/-- Between two events the handler waits for a drain that is to come, or it has ended. -/
inductive Inv (bytes : ℕ) (s : State) : Prop where
  | waiting (sending : Sending bytes s) (more : s.sent < bytes) (one : s.listeners = 1)
      (due : s.needDrain = true)
  | done (log : List Action) (sending : Sending bytes { s with log := log })
      (all : s.sent = bytes) (none : s.listeners = 0) (ended : s.log = log ++ [.ended])

/-- The announced length is the requested one, cut at zero and at the maximum. -/
theorem announced_eq (requested : Option ℤ) :
    (announced requested : ℤ) = min (max (requested.getD 0) 0) maxBytes := by
  cases requested with
  | none => rfl
  | some b =>
      rw [announced, Option.getD_some]
      split <;> omega

/-! ### One call of pump -/

@[simp] theorem writes_append (l l' : List Action) : writes (l ++ l') = writes l ++ writes l' :=
  List.filterMap_append

/-- Another action behind the header leaves the header the only one. -/
theorem Sending.header_snoc (h : Sending bytes s) {a : Action} (ha : ∀ n, a ≠ .contentLength n) :
    ∃ body, s.log ++ [a] = prologue bytes ++ body ∧ ∀ n, .contentLength n ∉ body := by
  obtain ⟨body, hlog, hbody⟩ := h.header
  refine ⟨body ++ [a], ?_, fun n hn => ?_⟩
  · rw [hlog, List.append_assoc]
  · rcases List.mem_append.1 hn with hn | hn
    · exact hbody n hn
    · exact ha n (List.mem_singleton.1 hn).symm

theorem Sending.still_snoc (h : Sending bytes s) {a : Action} (ha : a ≠ .ended) :
    .ended ∉ s.log ++ [a] := by
  intro hended
  rcases List.mem_append.1 hended with hended | hended
  · exact h.still hended
  · exact ha (List.mem_singleton.1 hended).symm

/-- A write of the loop counts a chunk that is not empty and fits. -/
theorem Sending.write (h : Sending bytes s) (answer : Bool) (hmore : s.sent < bytes) :
    Sending bytes (s.write (min chunkSize (bytes - s.sent)) answer) ∧
      s.sent < (s.write (min chunkSize (bytes - s.sent)) answer).sent := by
  have hsize : 1 ≤ min chunkSize (bytes - s.sent) := Nat.le_min.2 ⟨by decide, by omega⟩
  refine ⟨⟨?_, ?_, ?_, h.header_snoc (by rintro n ⟨⟩), h.still_snoc (by rintro ⟨⟩)⟩,
    Nat.lt_add_of_pos_right hsize⟩
  · intro size hmem
    rw [State.write, writes_append, List.mem_append] at hmem
    rcases hmem with hmem | hmem
    · exact h.sizes size hmem
    · rw [List.mem_singleton.1 hmem]
      exact ⟨hsize, Nat.min_le_left _ _⟩
  · rw [State.write, writes_append, List.sum_append, h.total]
    rfl
  · change s.sent + min chunkSize (bytes - s.sent) ≤ bytes
    omega

/-- The loop stops before the end only after a false, and writes something unless all is sent. -/
theorem loop_sends (ok : ℕ → Bool) (h : Sending bytes s) :
    Sending bytes (loop bytes ok s) ∧ (loop bytes ok s).listeners = s.listeners ∧
      ((loop bytes ok s).sent < bytes → (loop bytes ok s).needDrain = true) ∧
      s.sent ≤ (loop bytes ok s).sent ∧ (s.sent < bytes → s.sent < (loop bytes ok s).sent) := by
  induction s using loop.induct bytes ok with
  | case1 s hmore size answer hok ih =>
      obtain ⟨hwrite, hlt⟩ := h.write answer hmore
      obtain ⟨hsends, hlisteners, hdue, hle, -⟩ := ih hwrite
      have hstep : loop bytes ok s = loop bytes ok (s.write size answer) := by
        rw [loop, if_pos hmore]
        exact if_pos hok
      have hsent : s.sent < (loop bytes ok (s.write size answer)).sent := Nat.lt_of_lt_of_le hlt hle
      rw [hstep]
      exact ⟨hsends, hlisteners, hdue, Nat.le_of_lt hsent, fun _ => hsent⟩
  | case2 s hmore answer hok =>
      obtain ⟨hwrite, hlt⟩ := h.write answer hmore
      have hstep : loop bytes ok s = s.write (min chunkSize (bytes - s.sent)) answer := by
        rw [loop, if_pos hmore]
        exact if_neg hok
      have hdue : (s.needDrain || !answer) = true := by
        rw [Bool.eq_false_of_not_eq_true hok, Bool.not_false, Bool.or_true]
      rw [hstep]
      exact ⟨hwrite, rfl, fun _ => hdue, Nat.le_of_lt hlt, fun _ => hlt⟩
  | case3 s hdone =>
      rw [loop, if_neg hdone]
      exact ⟨h, rfl, fun hmore => absurd hmore hdone, Nat.le_refl _,
        fun hmore => absurd hmore hdone⟩

/-- A call of `pump` without another listener waits with one, or ends the response. -/
theorem pump_inv (ok : ℕ → Bool) (h : Sending bytes s) (hnone : s.listeners = 0)
    (hmore : s.sent < bytes) :
    Inv bytes (pump bytes ok s) ∧ s.sent < (pump bytes ok s).sent := by
  obtain ⟨hsends, hlisteners, hdue, -, hlt⟩ := loop_sends ok h
  rw [pump]
  by_cases hstop : (loop bytes ok s).sent < bytes
  · rw [if_pos hstop]
    refine ⟨.waiting ⟨?_, ?_, hsends.bound, hsends.header_snoc (by rintro n ⟨⟩),
      hsends.still_snoc (by rintro ⟨⟩)⟩ hstop ?_ (hdue hstop), hlt hmore⟩
    · rw [writes_append]
      exact List.append_nil _ ▸ hsends.sizes
    · rw [writes_append]
      exact (congrArg List.sum (List.append_nil _)).trans hsends.total
    · change (loop bytes ok s).listeners + 1 = 1
      rw [hlisteners, hnone]
  · rw [if_neg hstop]
    have hall : (loop bytes ok s).sent = bytes := Nat.le_antisymm hsends.bound (Nat.not_lt.1 hstop)
    exact ⟨.done _ hsends hall (hlisteners.trans hnone) rfl, hlt hmore⟩

/-! ### Drain events -/

/-- After a run of drain events `t`; every event but one after the end has sent a byte. -/
structure Counts (bytes : ℕ) (t : List (Event × Unit)) (s : State) : Prop where
  inv : Inv bytes s
  waiting : s.sent < bytes → t.length < s.sent
  done : s.sent = bytes → t.length + (if s.needDrain = true then 1 else 0) ≤ bytes

/-- No more is sent than was announced. -/
theorem Inv.bound (h : Inv bytes s) : s.sent ≤ bytes := by
  cases h with
  | waiting sending => exact sending.bound
  | done log sending => exact sending.bound

/-- The handler's first part keeps the count. -/
theorem handler_counts (ok : ℕ → Bool) (requested : Option ℤ) :
    Counts (announced requested) [] (handler ok requested) := by
  rw [handler]
  dsimp only
  by_cases hzero : announced requested = 0
  · rw [if_pos hzero, hzero]
    refine ⟨.done [] ⟨by rintro size ⟨⟩, rfl, Nat.le_refl 0, ⟨[], rfl, by rintro n ⟨⟩⟩,
      by rintro ⟨⟩⟩ rfl rfl rfl, fun h => absurd h (Nat.lt_irrefl 0), fun _ => Nat.le_refl 0⟩
  · rw [if_neg hzero]
    have hpos := Nat.pos_of_ne_zero hzero
    obtain ⟨hinv, hsent⟩ := pump_inv ok (s := { State.initial with
      log := [.contentLength (announced requested)] })
      ⟨by rintro size ⟨⟩, rfl, Nat.zero_le _, ⟨[], by rw [prologue, if_neg hzero]; rfl,
        by rintro n ⟨⟩⟩, by rintro (_ | ⟨_, ⟨⟩⟩)⟩ rfl hpos
    refine ⟨hinv, fun _ => hsent, fun _ => ?_⟩
    rw [List.length_nil]
    split <;> omega

/-- A drain event while the handler waits gets on; after the end it changes nothing that is seen. -/
theorem drain_inv {s' : State} {e : Event} (h : Inv bytes s)
    (hstep : downStep bytes s e = .ok (s', ())) : Inv bytes s' ∧ s.needDrain = true ∧
      (s.sent < s'.sent ∨ (s.sent = bytes ∧ s'.sent = bytes ∧ s'.needDrain = false)) := by
  obtain ⟨ok⟩ := e
  rw [downStep] at hstep
  split at hstep
  · next hdue =>
      cases hstep
      cases h with
      | waiting sending more one due =>
          rw [one]
          have hpump := pump_inv ok (s := { s with listeners := 0, needDrain := false })
            ⟨sending.sizes, sending.total, sending.bound, sending.header, sending.still⟩ rfl more
          exact ⟨hpump.1, hdue, .inl hpump.2⟩
      | done log sending all none ended =>
          rw [none]
          exact ⟨.done log ⟨sending.sizes, sending.total, sending.bound, sending.header,
            sending.still⟩ all rfl ended, hdue, .inr ⟨all, all, rfl⟩⟩
  · cases hstep

/-- Every run of drains keeps the count. -/
theorem run_counts {requested : Option ℤ} {t : List (Event × Unit)}
    (hrun : Run (drains (announced requested)) (handler ok requested) t s) :
    Counts (announced requested) t s := by
  refine hrun.historyInvariant (Counts (announced requested)) (handler_counts ok requested) ?_
  intro before e after q q' _ _ hq hstep
  obtain ⟨hinv, hdue, hprogress⟩ := drain_inv hq.inv hstep
  have hbound := hinv.bound
  have hlength : (before ++ [e]).length = before.length + 1 := by
    rw [List.length_append, List.length_singleton]
  refine ⟨hinv, fun hmore => ?_, fun hall => ?_⟩
  · rw [hlength]
    rcases hprogress with hlt | ⟨-, hall, -⟩
    · have hbefore := hq.waiting (by omega)
      omega
    · omega
  · rw [hlength]
    rcases hprogress with hlt | ⟨hqall, -, hnone⟩
    · have hbefore := hq.waiting (by omega)
      split <;> omega
    · have hbefore := hq.done hqall
      rw [if_pos hdue] at hbefore
      rw [hnone, if_neg Bool.false_ne_true]
      omega

/-! ### The whole response -/

/-- What holds of the response between two events, where `n` bytes are announced. -/
structure SentExactly (n : ℕ) (s : State) : Prop where
  header : ∃ body, s.log = prologue n ++ body ∧ ∀ m, .contentLength m ∉ body
  sizes : ∀ size ∈ writes s.log, 1 ≤ size ∧ size ≤ chunkSize
  bound : (writes s.log).sum ≤ n
  listener : s.listeners ≤ 1
  last : ∀ l r, s.log = l ++ .ended :: r → r = []
  finished : s.needDrain = false ∨ s.listeners = 0 →
    (writes s.log).sum = n ∧ s.log.count .ended = 1

/-- In the invariant, a response that has ended has all its bytes. -/
theorem Inv.sentExactly (h : Inv bytes s) : SentExactly bytes s := by
  cases h with
  | waiting sending more one due =>
      refine ⟨sending.header, sending.sizes, sending.total ▸ sending.bound, one.le, ?_, ?_⟩
      · intro l r hlog
        exact absurd (hlog ▸ List.mem_append_right l List.mem_cons_self) sending.still
      · rintro (hnone | hnone)
        · rw [due] at hnone
          cases hnone
        · omega
  | done log sending all none ended =>
      have hwrites : writes s.log = writes log := by
        rw [ended, writes_append]
        exact List.append_nil _
      have htotal : (writes s.log).sum = bytes := by
        rw [hwrites]
        exact sending.total.trans all
      refine ⟨ended ▸ sending.header_snoc (by rintro n ⟨⟩), hwrites ▸ sending.sizes, htotal.le,
        none.le.trans (Nat.zero_le 1), fun l r hlog => ?_, fun _ => ⟨htotal, ?_⟩⟩
      · rcases List.eq_nil_or_concat r with hnil | ⟨r, a, rfl⟩
        · exact hnil
        · rw [ended, List.concat_eq_append, ← List.cons_append, ← List.append_assoc] at hlog
          have hbefore : log = l ++ .ended :: r := (List.append_inj' hlog rfl).1
          exact absurd (hbefore ▸ List.mem_append_right l List.mem_cons_self) sending.still
      · rw [ended, List.count_append, List.count_eq_zero.2 sending.still]
        rfl

/-- The download handler sends what it announces, in finitely many drain events. -/
theorem down_sends_announced (ok : ℕ → Bool) (requested : Option ℤ) (t : List (Event × Unit))
    (s : State) (hrun : Run (drains (announced requested)) (handler ok requested) t s) :
    (announced requested : ℤ) = min (max (requested.getD 0) 0) maxBytes ∧
      SentExactly (announced requested) s ∧ t.length ≤ announced requested := by
  have hcounts := run_counts hrun
  refine ⟨announced_eq requested, hcounts.inv.sentExactly, ?_⟩
  rcases Nat.lt_or_eq_of_le hcounts.inv.bound with hmore | hall
  · have hlt := hcounts.waiting hmore
    omega
  · have hle := hcounts.done hall
    omega

/-- A request of 300000 bytes with a false for each write and one drain event. -/
theorem down_sends_two_chunks : ∃ s, Run (drains 300000) (handler (fun _ => false) (some 300000))
    [(.drain fun _ => false, ())] s ∧ SentExactly 300000 s := by
  have hloop : ∀ s : State, s.sent < 300000 → loop 300000 (fun _ => false) s =
      s.write (min chunkSize (300000 - s.sent)) false := by
    intro s hmore
    rw [loop, if_pos hmore]
    rfl
  have hdue : (handler (fun _ => false) (some 300000)).needDrain = true := by
    have hbytes : announced (some 300000) = 300000 := by decide
    rw [handler, hbytes]
    dsimp only
    rw [if_neg (by decide), pump, hloop _ (by decide)]
    rfl
  have hrun : Run (drains 300000) (handler (fun _ => false) (some 300000))
      [(.drain fun _ => false, ())] _ := .cons (if_pos hdue) (.nil _)
  exact ⟨_, hrun, (down_sends_announced (fun _ => false) (some 300000) _ _ hrun).2.1⟩

end ConfigEnv.Speedtest
