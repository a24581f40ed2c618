/-
Module: ConfigEnv.Proofs.LateReadings
Layer: Proofs
Purpose: The two receiver threads of the client with the reading of the clock as a step of its own.
  `is_duplicate` and `fec_recv_done` call `time` before they take `dedup_mutex`, so what is read in
  one order may reach the tables in the other. A packet is written at most once as long as no thread
  takes the mutex out of turn. A reading that is behind sets the clock of the filter back, and then
  the filter forgets a packet whose copies come within the timeout.
Trusted boundary: none
Main exports: receiverThreads, client_at_most_once, client_writes_twice
Open obligations: none
-/
import ConfigEnv.Lib.Delayed
import ConfigEnv.Proofs.Delivery

namespace ConfigEnv.TunVpn.Uctun

open Machine

variable {S : Stream} {s s' : Threads RecvState (Fin udpWorker) Arrival}
  {t : List (Act Arrival × Option TunWrite)}

/-- A thread takes a datagram when it reads the clock for it, and acts on it when it has the mutex.
-/
abbrev receiverThreads (S : Stream) :
    Step (Threads RecvState (Fin udpWorker) Arrival) (Act Arrival) (Option TunWrite) :=
  Delayed (streamMachine S) (fun a => some a.worker) fun _ _ => True

/-- What the threads act on they have read the clock for. -/
theorem acted_taken {st : RecvState} (hrun : Run (receiverThreads S) (.start st) t s)
    {e : Arrival × Option TunWrite} (he : e ∈ acted t) : e.1 ∈ taken t := by
  rcases held_or_taken hrun he rfl with hheld | htaken
  · cases hheld
  · exact htaken

/-- Arrivals within the window, read on a clock that does not go back, come in order. -/
theorem mayPrecede_of_window {as : List Arrival}
    (hwindow : Window.Displaced seqMapSize (as.map fun a => a.dg.num))
    (hclock : as.Pairwise fun a a' => a.ts ≤ a'.ts) : as.Pairwise Arrival.MayPrecede := by
  unfold Window.Displaced at hwindow
  rw [List.pairwise_map] at hwindow
  apply (hwindow.and hclock).imp
  intro a a' h
  constructor
  · intro _ hmod
    exact Window.le_of_mod_eq h.1 hmod
  · intro _ _
    exact h.2

/-- Each packet number causes at most one write, when no thread takes the mutex for a datagram while
the other one is about to take it for a datagram that has to come first. -/
theorem client_at_most_once (S : Stream) (ts : Int) (t : List (Act Arrival × Option TunWrite))
    (s : Threads RecvState (Fin udpWorker) Arrival)
    (hrun : Run (receiverThreads S) (.start (start ts)) t s)
    (hhonest : ∀ a ∈ taken t, a.Honest S)
    (hwindow : Window.Displaced seqMapSize ((taken t).map fun a => a.dg.num))
    (hclock : (taken t).Pairwise fun a a' => a.ts ≤ a'.ts)
    (hspread : ∀ a ∈ taken t, ∀ a' ∈ taken t, a.dg.num = a'.dg.num →
      a'.ts ≤ a.ts + connTimeout)
    (hturn : Always (receiverThreads S) (.start (start ts)) (t.map Prod.fst)
      (InTurn Arrival.MayPrecede fun a => some a.worker))
    (n : Nat) :
    ((acted t).filter fun e => decide (e.1.dg.num = n) && e.2.isSome).length ≤ 1 := by
  have hordered : (acted t).Pairwise fun e e' => e.1.MayPrecede e'.1 := by
    have hheld : ∀ w j,
        (Threads.start (start ts) : Threads RecvState (Fin udpWorker) Arrival).held w = some j →
          ∀ i ∈ taken t, j.MayPrecede i := by
      intro w j hj
      cases hj
    apply (acted_pairwise hrun hheld (mayPrecede_of_window hwindow hclock) hturn).imp
    intro e e' h
    exact h rfl rfl
  apply ordered_at_most_once S (run_acted hrun) ?_ hordered ?_ n
  · intro e he
    exact hhonest e.1 (acted_taken hrun he)
  · intro e he e' he'
    exact hspread e.1 (acted_taken hrun he) e'.1 (acted_taken hrun he')

/-! ### Taking and acting -/

/-- The thread has read the clock for the datagram. -/
def took (s : Threads RecvState (Fin udpWorker) Arrival) (a : Arrival) :
    Threads RecvState (Fin udpWorker) Arrival :=
  { s with held := Function.update s.held a.worker (some a) }

/-- The whole packet has been through the filter. -/
def filtered (s : Threads RecvState (Fin udpWorker) Arrival) (a : Arrival) :
    Threads RecvState (Fin udpWorker) Arrival :=
  { state := { s.state with dedup := (isDuplicate s.state.dedup a.ts (seqOf a.dg.num)).1 }
    held := Function.update s.held a.worker none }

/-- An idle worker takes an arrival with its reading. -/
theorem takes {a : Arrival} (hfree : s.held a.worker = none) :
    receiverThreads S s (.take a) none (took s a) := .take rfl hfree trivial

/-- A worker that holds a plain packet filters it with the reading it took. -/
theorem filters {a : Arrival} (ha : a.Honest S) (hpart : a.dg.part = none)
    (hheld : s.held a.worker = some a) :
    ∃ out, out.isSome = !(isDuplicate s.state.dedup a.ts (seqOf a.dg.num)).2 ∧
      receiverThreads S s (.act a) out (filtered s a) := by
  have hstep : streamMachine S s.state a _ _ :=
    (streamStep_eq ha s.state).trans (deliver_whole S hpart)
  refine ⟨_, ?_, .act rfl hheld hstep⟩
  cases (isDuplicate s.state.dedup a.ts (seqOf a.dg.num)).2 <;> rfl

/-- A copy of packet `n`, with the thread that gets it and its reading of the clock. -/
def plainReading (n : Nat) (worker : Fin udpWorker) (ts : Int) : Arrival :=
  { plainCopy n worker with ts := ts }

theorem plainReading_honest (n : Nat) (worker : Fin udpWorker) (ts : Int) :
    (plainReading n worker ts).Honest plainStream := ⟨rfl, rfl⟩

/-- Packet 0 on both paths, each copy held by its thread before one of them goes on. -/
theorem client_at_most_once_both_paths :
    ∃ t s, t.map Prod.fst = [.take (plainReading 0 0 0), .take (plainReading 0 1 0),
        .act (plainReading 0 1 0), .act (plainReading 0 0 0)] ∧
      Run (receiverThreads plainStream) (.start (start 0)) t s ∧
      ((acted t).filter fun e => decide (e.1.dg.num = 0) && e.2.isSome).length ≤ 1 := by
  let s2 := took (took (.start (start 0)) (plainReading 0 0 0)) (plainReading 0 1 0)
  obtain ⟨o1, -, h1⟩ := filters (s := s2) (plainReading_honest 0 1 0) rfl rfl
  obtain ⟨o2, -, h2⟩ := filters (s := filtered s2 (plainReading 0 1 0)) (plainReading_honest 0 0 0)
    rfl rfl
  have hrun : Run (receiverThreads plainStream) (.start (start 0))
      [(.take (plainReading 0 0 0), none), (.take (plainReading 0 1 0), none),
        (.act (plainReading 0 1 0), o1), (.act (plainReading 0 0 0), o2)] _ :=
    .cons (takes rfl) (.cons (takes rfl) (.cons h1 (.cons h2 (.nil _))))
  refine ⟨_, _, rfl, hrun, client_at_most_once plainStream 0 _ _ hrun ?_ ?_ ?_ ?_ ?_ 0⟩
  · simp [plainReading_honest]
  · simp [Window.Displaced, plainReading, plainCopy]
  · simp [plainReading]
  · simp [plainReading]
  · apply always_inTurn
    intro i j hi hj
    simp only [List.map_cons, List.map_nil, List.mem_cons, Act.act.injEq, Act.take.injEq,
      reduceCtorEq, List.not_mem_nil, or_false, false_or] at hi hj
    rcases hi with rfl | rfl <;> rcases hj with rfl | rfl <;>
      exact ⟨fun _ _ => le_refl _, fun _ _ => le_refl _⟩

/-- Packet 7 is read at 100 and waits, packet 6 is read at 101 and written, and then packet 7 sets
the clock of the filter back. The other copy of packet 6 is read at 281, within the timeout of the
first one, and finds an empty filter. -/
theorem client_writes_twice :
    ∃ t s, t.map Prod.fst = [.take (plainReading 7 0 100), .take (plainReading 6 1 101),
        .act (plainReading 6 1 101), .act (plainReading 7 0 100), .take (plainReading 6 0 281),
        .act (plainReading 6 0 281)] ∧
      Run (receiverThreads plainStream) (.start (start 100)) t s ∧
      (∀ a ∈ taken t, a.Honest plainStream) ∧
      Window.Displaced seqMapSize ((taken t).map fun a => a.dg.num) ∧
      (taken t).Pairwise (fun a a' => a.ts ≤ a'.ts) ∧
      (∀ a ∈ taken t, ∀ a' ∈ taken t, a.dg.num = a'.dg.num → a'.ts ≤ a.ts + connTimeout) ∧
      ((acted t).filter fun e => decide (e.1.dg.num = 6) && e.2.isSome).length = 2 := by
  let late := plainReading 7 0 100
  let copy := plainReading 6 1 101
  let again := plainReading 6 0 281
  let s2 := took (took (.start (start 100)) late) copy
  let s4 := filtered (filtered s2 copy) late
  obtain ⟨o1, ho1, h1⟩ := filters (s := s2) (a := copy) (plainReading_honest 6 1 101) rfl rfl
  obtain ⟨o2, -, h2⟩ := filters (s := filtered s2 copy) (a := late) (plainReading_honest 7 0 100)
    rfl rfl
  obtain ⟨o3, ho3, h3⟩ := filters (s := took s4 again) (a := again) (plainReading_honest 6 0 281)
    rfl rfl
  have hwritten : o1.isSome = true := by
    rw [ho1]
    decide
  have hrewritten : o3.isSome = true := by
    rw [ho3]
    decide
  have hrun : Run (receiverThreads plainStream) (.start (start 100)) [(.take late, none),
      (.take copy, none), (.act copy, o1), (.act late, o2), (.take again, none),
      (.act again, o3)] _ :=
    .cons (takes rfl) (.cons (takes rfl) (.cons h1 (.cons h2 (.cons (takes rfl)
      (.cons h3 (.nil _))))))
  refine ⟨_, _, rfl, hrun, ?_, ?_, ?_, ?_, ?_⟩
  · simp [late, copy, again, plainReading_honest]
  · simp [Window.Displaced, late, copy, again, plainReading, plainCopy, seqMapSize]
  · simp [late, copy, again, plainReading]
  · simp [late, copy, again, plainReading, plainCopy, connTimeout]
  · simp [late, copy, again, plainReading, plainCopy, hwritten, hrewritten]

end ConfigEnv.TunVpn.Uctun
