/-
Module: ConfigEnv.Proofs.ReceiverLoop
Layer: Proofs
Purpose: The loop body of the server's receiver threads, step by step, against two simpler views of
  it. A datagram that a thread handles without the other one is handled as `receiverStep` says. And
  as long as the threads are orderly and no datagram finds the rate limit open, what they do to the
  duplicate filter is a run of `is_duplicate` alone, on the filter as the last reset leaves it.
Trusted boundary: none
Main exports: foldl_resetStores, handled_alone, filterMachine, Tracks, run_delivered
Open obligations: none
-/
import ConfigEnv.Proofs.Receive
import ConfigEnv.TunVpn.ReceiverCalls

namespace ConfigEnv.TunVpn.Ustun

open Machine

variable {s s' : Threads Receivers (Fin udpWorker) LoopCall} {rx : Rx}

/-! ### One step of a thread -/

section Steps

variable {q q' : Receivers} {w : Fin udpWorker} {out : Option TunWrite}

/-- A datagram comes to an idle thread. -/
theorem loop_arrive (h : threadMachine q (.arrive rx) out q') :
    q.stage rx.worker = .idle ∧
      q' = { q with stage := Function.update q.stage rx.worker (rx.stage q.st.lastTs) } := by
  obtain ⟨⟨hidle, -⟩, hloop⟩ := h
  cases hloop
  exact ⟨hidle, rfl⟩

/-- A thread that resets makes its next store, or is ready. -/
theorem loop_reset (h : threadMachine q (.reset w) out q') :
    ∃ rx todo, q.stage w = .resetting rx todo ∧
      ((todo = [] ∧ q' = { q with stage := Function.update q.stage w (.ready rx) }) ∨
        ∃ store rest, todo = store :: rest ∧
          q' = { st := store.apply q.st
                 stage := Function.update q.stage w (.resetting rx rest) }) := by
  obtain ⟨hresets, hloop⟩ := h
  cases hstage : q.stage w with
  | idle =>
      simp only [LoopCall.Enabled, hstage] at hresets
      cases hresets
  | ready rx =>
      simp only [LoopCall.Enabled, hstage] at hresets
      cases hresets
  | resetting rx todo =>
      refine ⟨rx, todo, rfl, ?_⟩
      simp only [threadStep, hstage] at hloop
      cases todo with
      | nil =>
          cases hloop
          exact .inl ⟨rfl, rfl⟩
      | cons store rest =>
          cases hloop
          exact .inr ⟨store, rest, rfl, rfl⟩

/-- A thread that is ready delivers its datagram. -/
theorem loop_deliver (h : threadMachine q (.deliver rx) out q') :
    q.stage rx.worker = .ready rx ∧
      ∃ recv, deliver q.st.recv rx.worker rx.clock.recv rx.pkg (rx.msg.msgLen - pktOffset) =
          .ok (recv, out) ∧
        q' = { st := { q.st with recv := recv }
               stage := Function.update q.stage rx.worker .idle } := by
  obtain ⟨hready, hloop⟩ := h
  simp only [threadStep] at hloop
  split at hloop
  · cases hloop
  · cases hloop
    exact ⟨hready, _, ‹_›, rfl⟩

/-- The thread is at work on the datagram. -/
def Stage.Has (rx : Rx) : Stage → Prop
  | .idle => False
  | .resetting rx' _ | .ready rx' => rx' = rx

theorem Rx.eq_of_stage_has {rx' : Rx} {lastTs : Int} (h : (rx.stage lastTs).Has rx') :
    rx = rx' := by
  unfold Rx.stage at h
  split at h
  · exact h
  · exact h

/-- A step is one of its thread, which goes on with its datagram or with one that arrives. -/
theorem loop_stage {call : LoopCall} (h : threadMachine q call out q') :
    ∃ stage, q'.stage = Function.update q.stage call.worker stage ∧
      ∀ rx, stage.Has rx → (q.stage call.worker).Has rx ∨ call = .arrive rx := by
  cases call with
  | arrive rx =>
      obtain ⟨-, rfl⟩ := loop_arrive h
      refine ⟨_, rfl, fun rx' hrx' => .inr ?_⟩
      rw [Rx.eq_of_stage_has hrx']
  | reset w =>
      obtain ⟨rx, todo, hstage, ⟨-, rfl⟩ | ⟨store, rest, -, rfl⟩⟩ := loop_reset h
      · refine ⟨_, rfl, fun rx' hrx' => .inl ?_⟩
        rw [LoopCall.worker, hstage]
        exact hrx'
      · refine ⟨_, rfl, fun rx' hrx' => .inl ?_⟩
        rw [LoopCall.worker, hstage]
        exact hrx'
  | deliver rx =>
      obtain ⟨-, recv, -, rfl⟩ := loop_deliver h
      exact ⟨_, rfl, fun rx' hrx' => absurd hrx' id⟩

theorem has_update {stages : Fin udpWorker → Stage} {w' : Fin udpWorker} {stage : Stage}
    (h : (Function.update stages w stage w').Has rx) : stage.Has rx ∨ (stages w').Has rx := by
  by_cases hw : w' = w
  · subst hw
    rw [Function.update_self] at h
    exact .inl h
  · rw [Function.update_of_ne hw] at h
    exact .inr h

/-- After a step the threads have nothing new but what arrived. -/
theorem has_of_step {call : LoopCall} (h : threadMachine q call out q')
    (hhas : ∃ w, (q'.stage w).Has rx) : (∃ w, (q.stage w).Has rx) ∨ call = .arrive rx := by
  obtain ⟨stage, hstage, hnew⟩ := loop_stage h
  obtain ⟨w, hw⟩ := hhas
  rw [hstage] at hw
  rcases has_update hw with hw | hw
  · exact (hnew rx hw).imp_left fun hown => ⟨call.worker, hown⟩
  · exact .inl ⟨w, hw⟩

end Steps

section Handled

variable {call : LoopCall} {out : Option TunWrite} {l : List (LoopCall × Option TunWrite)}
  {e : Rx × Option TunWrite}

theorem mem_delivered_cons (he : e ∈ delivered ((call, out) :: l)) :
    call = .deliver e.1 ∨ e ∈ delivered l := by
  cases call with
  | arrive rx => exact .inr he
  | reset w => exact .inr he
  | deliver rx =>
      rcases List.mem_cons.1 he with rfl | he
      · exact .inl rfl
      · exact .inr he

theorem mem_arrived_cons (h : call = .arrive rx ∨ rx ∈ arrived l) :
    rx ∈ arrived ((call, out) :: l) := by
  rcases h with rfl | h
  · exact List.mem_cons_self
  · cases call with
    | arrive rx' => exact List.mem_cons_of_mem rx' h
    | reset w => exact h
    | deliver rx' => exact h

/-- What is handled was at a thread at the beginning or has arrived. -/
theorem has_or_arrived {t : List (Act LoopCall × Option TunWrite)} (hrun : Run receiverLoop s t s')
    (he : e ∈ delivered (acted t)) :
    (∃ w, (s.state.stage w).Has e.1) ∨ e.1 ∈ arrived (acted t) := by
  have hloop : ∀ {q q' : Receivers} {call out} {l : List (LoopCall × Option TunWrite)},
      threadMachine q call out q' → e ∈ delivered ((call, out) :: l) →
      (e ∈ delivered l → (∃ w, (q'.stage w).Has e.1) ∨ e.1 ∈ arrived l) →
      (∃ w, (q.stage w).Has e.1) ∨ e.1 ∈ arrived ((call, out) :: l) := by
    intro q q' call out l hstep he ih
    rcases mem_delivered_cons he with rfl | he
    · refine .inl ⟨e.1.worker, ?_⟩
      rw [(loop_deliver hstep).1]
      rfl
    · rcases ih he with hhas | harrived
      · exact (has_of_step hstep hhas).imp_right fun hcall => mem_arrived_cons (.inl hcall)
      · exact .inr (mem_arrived_cons (.inr harrived))
  induction hrun with
  | nil s => cases he
  | @cons _ _ _ x _ hstep _ ih =>
      obtain ⟨a, out⟩ := x
      cases hstep with
      | take _ _ _ => exact ih he
      | act _ _ hstep => exact hloop hstep he ih
      | direct _ hstep => exact hloop hstep he ih

end Handled

/-! ### A reset, store by store -/

/-- The stores to the filter, one after another, fill its places. -/
theorem foldl_seqMap (places : List (Fin seqMapSize)) (st : ResetState) :
    (places.map Store.seqMap).foldl Store.apply st =
      { st with recv := { st.recv with dedup := { st.recv.dedup with
          seqMap := fun i => if i ∈ places then seqMapFill else st.recv.dedup.seqMap i } } } := by
  induction places generalizing st with
  | nil => simp
  | cons i places ih =>
      rw [List.map_cons, List.foldl_cons, ih]
      simp only [Store.apply, List.mem_cons, Function.update_apply]
      congr 3
      funext j
      by_cases hj : j = i <;> simp [hj]

/-- The stores to the slots, one after another, fill their numbers. -/
theorem foldl_fecSeq (slots : List (Fin seqMapSize)) (st : ResetState) :
    (slots.map Store.fecSeq).foldl Store.apply st =
      { st with recv := { st.recv with
          fec := fun i =>
            if i ∈ slots then { st.recv.fec i with seq := fecSeqFill } else st.recv.fec i } } := by
  induction slots generalizing st with
  | nil => simp
  | cons i slots ih =>
      rw [List.map_cons, List.foldl_cons, ih]
      simp only [Store.apply, List.mem_cons, Function.update_apply]
      congr 2
      funext j
      by_cases hj : j = i <;> simp [hj]

/-- All stores of a reset together. -/
theorem foldl_resetStores (st : ResetState) (ts : Int) :
    (resetStores ts).foldl Store.apply st =
      { lastTs := ts
        recv := { st.recv with
          dedup := DedupState.cleared ts
          fec := fun i => { st.recv.fec i with seq := fecSeqFill } } } := by
  rw [resetStores, List.foldl_cons, List.foldl_append, foldl_seqMap, List.foldl_cons, foldl_fecSeq]
  simp [Store.apply, DedupState.cleared]

/-- Learning a sender is the reset as a whole. -/
theorem learn_resetState (sv : Server) (rx : Rx) :
    (sv.learn rx).resetState = sv.resetState.after rx := by
  rw [ResetState.after, foldl_resetStores]
  unfold Server.learn initDedupState Server.resetState
  by_cases hstart : rx.starts = true
  · by_cases hopen : rx.clock.init - sv.lastTs > 3 <;> simp [hstart, hopen]
  · simp [hstart]

/-! ### A datagram that meets no other -/

/-- The step is one of this thread. -/
def ByThread (w : Fin udpWorker) (a : Act LoopCall) : Prop :=
  ∃ call, (a = .act call ∨ a = .take call) ∧ call.worker = w

/-- A thread can make all its stores in a row. -/
theorem run_resets {worker : Fin udpWorker} {todo : List Store}
    (hstage : s.state.stage worker = .resetting rx todo) :
    Run receiverLoop s (List.replicate (todo.length + 1) (.act (.reset worker), none))
      { state := { st := todo.foldl Store.apply s.state.st
                   stage := Function.update s.state.stage worker (.ready rx) }
        held := s.held } := by
  induction todo generalizing s with
  | nil =>
      refine .cons (.direct rfl ⟨?_, ?_⟩) (.nil _)
      · simp only [LoopCall.Enabled, hstage, Stage.Resets]
      · simp only [threadStep, hstage, List.foldl_nil]
  | cons store todo ih =>
      let s1 : Threads Receivers (Fin udpWorker) LoopCall :=
        { state := { st := store.apply s.state.st
                     stage := Function.update s.state.stage worker (.resetting rx todo) }
          held := s.held }
      have hfirst : receiverLoop s (.act (.reset worker)) none s1 := by
        refine .direct rfl ⟨?_, ?_⟩
        · simp only [LoopCall.Enabled, hstage, Stage.Resets]
        · simp only [threadStep, hstage]
      have hrest := ih (s := s1) (Function.update_self _ _ _)
      simp only [s1, Function.update_idem] at hrest
      exact .cons hfirst hrest

/-- Both ways past the test end with the stores that it asks for. -/
theorem run_passes {sv : Server} (hstate : s.state.st = sv.resetState)
    (hstage : s.state.stage rx.worker = rx.stage sv.lastTs) :
    ∃ n, Run receiverLoop s (List.replicate n (.act (.reset rx.worker), none))
      { state := { st := (sv.learn rx).resetState
                   stage := Function.update s.state.stage rx.worker (.ready rx) }
        held := s.held } := by
  rw [learn_resetState, ← hstate]
  have hlast : s.state.st.lastTs = sv.lastTs := by rw [hstate, Server.resetState]
  rw [← hlast] at hstage
  unfold ResetState.after
  by_cases hopen : rx.starts = true ∧ rx.clock.init - s.state.st.lastTs > 3
  · rw [if_pos hopen]
    rw [Rx.stage, if_pos hopen] at hstage
    exact ⟨_, run_resets hstage⟩
  · rw [if_neg hopen]
    rw [Rx.stage, if_neg hopen] at hstage
    rw [← hstage, Function.update_eq_self]
    exact ⟨0, .nil s⟩

/-- A thread that is ready takes its reading and delivers. -/
theorem run_reads {recv : RecvState} {out : Option TunWrite}
    (hstage : s.state.stage rx.worker = .ready rx) (hfree : s.held rx.worker = none)
    (hdeliver : deliver s.state.st.recv rx.worker rx.clock.recv rx.pkg (rx.msg.msgLen - pktOffset) =
      .ok (recv, out)) :
    Run receiverLoop s [(.take (.deliver rx), none), (.act (.deliver rx), out)]
      { state := { st := { s.state.st with recv := recv }
                   stage := Function.update s.state.stage rx.worker .idle }
        held := s.held } := by
  have hheld : Function.update (Function.update s.held rx.worker (some (.deliver rx))) rx.worker
      none = s.held := by
    rw [Function.update_idem, ← hfree, Function.update_eq_self]
  rw [← hheld]
  refine .cons (.take rfl hfree hstage) (.cons (.act rfl (Function.update_self _ _ _) ?_) (.nil _))
  refine ⟨hstage, ?_⟩
  simp only [threadStep, hdeliver]

/-- A datagram that a thread handles without the other one is handled as `receiverStep` says. -/
theorem handled_alone {sv sv' : Server} {out : Option TunWrite}
    (hstate : s.state.st = sv.resetState) (hidle : s.state.stage rx.worker = .idle)
    (hfree : s.held rx.worker = none) (haccepts : accepts rx.msg = true)
    (hstep : receiverStep sv rx = .ok (sv', out)) :
    ∃ t, Run receiverLoop s ((.act (.arrive rx), none) :: t)
        { state := { st := sv'.resetState, stage := s.state.stage }, held := s.held } ∧
      taken t = [.deliver rx] ∧ arrived (acted t) = [] ∧ delivered (acted t) = [(rx, out)] ∧
      ∀ e ∈ t, ByThread rx.worker e.1 := by
  obtain ⟨recv, hdeliver, rfl⟩ := (receiverStep_accepted haccepts).1 hstep
  have hfirst : receiverLoop s (.act (.arrive rx)) none
      { state := { st := s.state.st
                   stage := Function.update s.state.stage rx.worker (rx.stage s.state.st.lastTs) }
        held := s.held } := .direct rfl ⟨⟨hidle, haccepts⟩, rfl⟩
  rw [hstate] at hfirst
  let waiting (stage : Stage) (st : ResetState) : Threads Receivers (Fin udpWorker) LoopCall :=
    { state := { st := st, stage := Function.update s.state.stage rx.worker stage }
      held := s.held }
  obtain ⟨n, hpass⟩ := run_passes (s := waiting (rx.stage sv.lastTs) sv.resetState) rfl
    (Function.update_self rx.worker (rx.stage sv.lastTs) s.state.stage)
  have hread := run_reads (s := waiting (.ready rx) (sv.learn rx).resetState)
    (Function.update_self rx.worker (.ready rx) s.state.stage) hfree hdeliver
  simp only [waiting, Function.update_idem] at hpass hread
  rw [← hidle, Function.update_eq_self] at hread
  refine ⟨_, .cons hfirst (hpass.append hread), ?_, ?_, ?_, ?_⟩
  · simp [taken]
  · simp [acted, arrived]
  · simp [acted, delivered]
  · intro e he
    rcases List.mem_append.1 he with he | he
    · rw [List.eq_of_mem_replicate he]
      exact ⟨.reset rx.worker, .inl rfl, rfl⟩
    · refine ⟨.deliver rx, ?_, rfl⟩
      rcases List.mem_cons.1 he with rfl | he
      · exact .inr rfl
      · rw [List.mem_singleton.1 he]
        exact .inl rfl

theorem worker_of_owner {call : LoopCall} {w : Fin udpWorker} (h : call.owner = some w) :
    call.worker = w := by
  cases call with
  | deliver rx => exact Option.some.inj h
  | arrive rx => cases h
  | reset w' => cases h

/-- A thread that is alone keeps the other ones idle. -/
theorem others_idle {st : ResetState} {w : Fin udpWorker}
    {t : List (Act LoopCall × Option TunWrite)}
    (hrun : Run receiverLoop (.start (.start st)) t s) (h : ∀ e ∈ t, ByThread w e.1) :
    ∀ w', w' ≠ w → s.state.stage w' = .idle ∧ s.held w' = none := by
  apply hrun.invariant (fun q => ∀ w', w' ≠ w → q.state.stage w' = .idle ∧ q.held w' = none)
  · intro w' _
    exact ⟨rfl, rfl⟩
  · intro e he q q' hq hstep w' hw'
    obtain ⟨call, hcall, rfl⟩ := h e he
    obtain ⟨a, out⟩ := e
    obtain ⟨hstage, hheld⟩ := hq w' hw'
    have hloop : ∀ {q1 : Receivers}, threadMachine q.state call out q1 → q1.stage w' = .idle := by
      intro q1 hstep
      obtain ⟨stage, hstage', -⟩ := loop_stage hstep
      rw [hstage', Function.update_of_ne hw', hstage]
    cases hstep with
    | @take _ i w1 howner _ _ =>
        obtain rfl : i = call := by simpa using hcall
        refine ⟨hstage, ?_⟩
        rw [← worker_of_owner howner]
        simp only [Function.update_of_ne hw', hheld]
    | @act _ i w1 _ _ howner _ hstep =>
        obtain rfl : i = call := by simpa using hcall
        refine ⟨hloop hstep, ?_⟩
        rw [← worker_of_owner howner]
        simp only [Function.update_of_ne hw', hheld]
    | @direct _ i _ _ _ hstep =>
        obtain rfl : i = call := by simpa using hcall
        exact ⟨hloop hstep, hheld⟩

/-- And it is orderly. -/
theorem orderly_alone {st : ResetState} {w : Fin udpWorker} {acts : List (Act LoopCall)}
    (h : ∀ a ∈ acts, ByThread w a) : Always receiverLoop (.start (.start st)) acts Orderly := by
  rintro pre a post t q rfl rfl hrun
  have hothers := others_idle hrun fun e he =>
    h e.1 (List.mem_append_left _ (List.mem_map_of_mem he))
  obtain ⟨call, hcall, rfl⟩ := h a (List.mem_append_right _ List.mem_cons_self)
  have hresets : ∀ w', w' ≠ call.worker → ¬ (q.state.stage w').Resets := by
    intro w' hw'
    rw [(hothers w' hw').1]
    exact id
  rcases hcall with rfl | rfl
  · refine ⟨fun w' j howned hne hj => ?_, ?_⟩
    · obtain ⟨w1, howner⟩ := Option.isSome_iff_exists.1 howned
      have hw' : w' ≠ call.worker := by
        rintro rfl
        exact hne (by rw [howner, worker_of_owner howner])
      rw [(hothers w' hw').2] at hj
      cases hj
    · cases call with
      | arrive rx => exact fun _ => hresets
      | reset w1 => trivial
      | deliver rx => exact hresets
  · exact ⟨trivial, trivial⟩

/-! ### The filter by itself -/

/-- A datagram without FEC at the filter. -/
def filterStep (st : DedupState) (rx : Rx) : DedupState × Option TunWrite :=
  let (dedup, duplicate) := isDuplicate st rx.clock.recv rx.pkg.hdr.seq
  (dedup, if duplicate then none
    else some { pbuf := rx.pkg.payload, plen := rx.msg.msgLen - pktOffset })

/-- The filter as a machine of its own. -/
abbrev filterMachine : Step DedupState Rx (Option TunWrite) :=
  fun st rx out st' => filterStep st rx = (st', out)

/-- The filter is as the last reset leaves it, also while that reset has stores to go. -/
structure Tracks (last : Int) (dedup : DedupState) (s : Receivers) : Prop where
  one : ∀ w w', (s.stage w).Resets → (s.stage w').Resets → w = w'
  settled : (∀ w, ¬ (s.stage w).Resets) → s.st.lastTs = last ∧ s.st.recv.dedup = dedup
  pending : ∀ w rx todo, s.stage w = .resetting rx todo →
    (todo.foldl Store.apply s.st).lastTs = last ∧ (todo.foldl Store.apply s.st).recv.dedup = dedup

section Tracks

variable {last : Int} {dedup : DedupState} {q q' : Receivers} {w : Fin udpWorker} {stage : Stage}
  {out : Option TunWrite}

theorem Stage.not_resets_idle : ¬ Stage.idle.Resets := id

theorem Stage.not_resets_ready (rx : Rx) : ¬ (Stage.ready rx).Resets := id

theorem Stage.resets_of_eq {todo : List Store} (h : stage = .resetting rx todo) : stage.Resets := by
  rw [h]
  trivial

/-- A thread that resets after a change to another one, did so before. -/
theorem resets_update {stages : Fin udpWorker → Stage} {w' : Fin udpWorker}
    (hnew : ¬ stage.Resets) (h : (Function.update stages w stage w').Resets) :
    w' ≠ w ∧ (stages w').Resets := by
  by_cases hw : w' = w
  · subst hw
    rw [Function.update_self] at h
    exact absurd h hnew
  · rw [Function.update_of_ne hw] at h
    exact ⟨hw, h⟩

theorem Tracks.of_none (hnone : ∀ w, ¬ (q.stage w).Resets) (hlast : q.st.lastTs = last)
    (hdedup : q.st.recv.dedup = dedup) : Tracks last dedup q where
  one w _ hw _ := absurd hw (hnone w)
  settled _ := ⟨hlast, hdedup⟩
  pending w _ _ hw := absurd (Stage.resets_of_eq hw) (hnone w)

theorem Tracks.of_one {todo : List Store} (hstage : q.stage w = .resetting rx todo)
    (halone : ∀ w', w' ≠ w → ¬ (q.stage w').Resets)
    (hlast : (todo.foldl Store.apply q.st).lastTs = last)
    (hdedup : (todo.foldl Store.apply q.st).recv.dedup = dedup) : Tracks last dedup q := by
  have honly : ∀ w', (q.stage w').Resets → w' = w := fun w' hw' =>
    by_contra fun hne => halone w' hne hw'
  constructor
  · intro w1 w2 h1 h2
    exact (honly w1 h1).trans (honly w2 h2).symm
  · intro hnone
    exact absurd (Stage.resets_of_eq hstage) (hnone w)
  · intro w' rx' todo' hw'
    obtain rfl : w' = w := honly w' (Stage.resets_of_eq hw')
    rw [hstage, Stage.resetting.injEq] at hw'
    rw [← hw'.2]
    exact ⟨hlast, hdedup⟩

/-- A thread that does not reset goes on to something that is not a reset either. -/
theorem Tracks.passes (h : Tracks last dedup q) (hold : ¬ (q.stage w).Resets)
    (hnew : ¬ stage.Resets) :
    Tracks last dedup { q with stage := Function.update q.stage w stage } where
  one w1 w2 h1 h2 := h.one w1 w2 (resets_update hnew h1).2 (resets_update hnew h2).2
  settled hnone := by
    apply h.settled
    intro w' hw'
    by_cases hw : w' = w
    · exact hold (hw ▸ hw')
    · apply hnone w'
      simp only [Function.update_of_ne hw]
      exact hw'
  pending w' rx todo hw' := by
    obtain ⟨hne, -⟩ := resets_update hnew (Stage.resets_of_eq hw')
    simp only [Function.update_of_ne hne] at hw'
    exact h.pending w' rx todo hw'

/-- No reset is under way when the step does not meet one. -/
theorem not_resets (hown : ¬ (q.stage w).Resets)
    (hothers : ∀ w', w' ≠ w → ¬ (q.stage w').Resets) (w' : Fin udpWorker) :
    ¬ (q.stage w').Resets := by
  by_cases hw : w' = w
  · exact hw ▸ hown
  · exact hothers w' hw

/-- A datagram that does not find the rate limit open starts no reset. -/
theorem Tracks.arrive (h : Tracks last dedup q) (hstep : threadMachine q (.arrive rx) out q')
    (hothers : rx.starts = true → ∀ w, w ≠ rx.worker → ¬ (q.stage w).Resets)
    (hquiet : rx.starts = true → rx.clock.init - last ≤ 3) : Tracks last dedup q' := by
  obtain ⟨hidle, rfl⟩ := loop_arrive hstep
  have hown : ¬ (q.stage rx.worker).Resets := by
    rw [hidle]
    exact Stage.not_resets_idle
  apply h.passes hown
  rw [Rx.stage, if_neg]
  · exact Stage.not_resets_ready rx
  · rintro ⟨hstarts, hopen⟩
    rw [(h.settled (not_resets hown (hothers hstarts))).1] at hopen
    exact absurd (hquiet hstarts) (not_le.2 hopen)

/-- A store of a reset, or its end. -/
theorem Tracks.reset (h : Tracks last dedup q) (hstep : threadMachine q (.reset w) out q') :
    Tracks last dedup q' := by
  obtain ⟨rx, todo, hstage, hnext⟩ := loop_reset hstep
  have halone : ∀ w', w' ≠ w → ¬ (q.stage w').Resets := fun w' hw hw' =>
    hw (h.one w' w hw' (Stage.resets_of_eq hstage))
  have hpending := h.pending w rx todo hstage
  obtain ⟨rfl, rfl⟩ | ⟨store, rest, rfl, rfl⟩ := hnext
  · refine .of_none ?_ ?_ ?_
    · intro w' hw'
      obtain ⟨hne, hw'⟩ := resets_update (Stage.not_resets_ready rx) hw'
      exact halone w' hne hw'
    · exact hpending.1
    · exact hpending.2
  · refine .of_one (Function.update_self w (.resetting rx rest) q.stage) ?_ ?_ ?_
    · intro w' hne
      simp only [Function.update_of_ne hne]
      exact halone w' hne
    · exact hpending.1
    · exact hpending.2

/-- A datagram without FEC goes through the filter. -/
theorem Tracks.deliver (h : Tracks last dedup q) (hstep : threadMachine q (.deliver rx) out q')
    (hothers : ∀ w, w ≠ rx.worker → ¬ (q.stage w).Resets) (hfec : rx.pkg.hdr.fecRs = 0) :
    ∃ dedup', filterMachine dedup rx out dedup' ∧ Tracks last dedup' q' := by
  obtain ⟨hready, recv, hdeliver, rfl⟩ := loop_deliver hstep
  have hown : ¬ (q.stage rx.worker).Resets := by
    rw [hready]
    exact Stage.not_resets_ready rx
  obtain ⟨hlast, hdedup⟩ := h.settled (not_resets hown hothers)
  rw [deliver_filter hfec, hdedup] at hdeliver
  cases hdeliver
  refine ⟨(filterStep dedup rx).1, rfl, .of_none ?_ ?_ ?_⟩
  · intro w hw
    exact not_resets hown hothers w (resets_update Stage.not_resets_idle hw).2
  · exact hlast
  · rfl

/-- What orderly threads do to the filter, when no datagram finds the rate limit open. -/
theorem run_delivered {t : List (Act LoopCall × Option TunWrite)} (hrun : Run receiverLoop s t s')
    (horderly : Always receiverLoop s (t.map Prod.fst) Orderly)
    (hquiet : ∀ rx ∈ arrived (acted t), rx.starts = true → rx.clock.init - last ≤ 3)
    (hfec : ∀ e ∈ delivered (acted t), e.1.pkg.hdr.fecRs = 0) (h : Tracks last dedup s.state) :
    ∃ dedup', Run filterMachine dedup (delivered (acted t)) dedup' := by
  induction hrun generalizing dedup with
  | nil s => exact ⟨dedup, .nil dedup⟩
  | @cons s _ _ e t hstep _ ih =>
      obtain ⟨a, out⟩ := e
      have hlater := horderly.tail hstep
      have hnow := horderly.head.2
      cases hstep with
      | take _ _ _ => exact ih hlater hquiet hfec h
      | @act _ call w _ _ howner _ hloop =>
          cases call with
          | arrive rx => cases howner
          | reset w => cases howner
          | deliver rx =>
              obtain ⟨dedup1, hfilter, h1⟩ := h.deliver hloop hnow (hfec (rx, out) (by simp))
              obtain ⟨dedup', hrest⟩ := ih hlater hquiet (fun e he => hfec e (by simp [he])) h1
              exact ⟨dedup', .cons hfilter hrest⟩
      | @direct _ call _ _ howner hloop =>
          cases call with
          | arrive rx =>
              apply ih hlater (fun rx' hrx' => hquiet rx' (by simp [hrx'])) hfec
              exact h.arrive hloop hnow (hquiet rx (by simp))
          | reset w => exact ih hlater hquiet hfec (h.reset hloop)
          | deliver rx => cases howner

/-- From the first datagram on the filter is as that one leaves it. -/
theorem tracks_first {st : ResetState} (hstep : threadMachine (.start st) (.arrive rx) out q') :
    Tracks (st.after rx).lastTs (st.after rx).recv.dedup q' := by
  obtain ⟨-, rfl⟩ := loop_arrive hstep
  change Tracks _ _
    { st := st, stage := Function.update (fun _ => .idle) rx.worker (rx.stage st.lastTs) }
  unfold Rx.stage ResetState.after
  by_cases hopen : rx.starts = true ∧ rx.clock.init - st.lastTs > 3
  · rw [if_pos hopen, if_pos hopen]
    generalize resetStores rx.clock.init = todo
    have hstage : Function.update (fun _ => Stage.idle) rx.worker (.resetting rx todo) rx.worker =
        .resetting rx todo := by
      simp only [Function.update_self]
    refine Tracks.of_one (w := rx.worker) hstage ?_ rfl rfl
    intro w hne
    simp only [Function.update_of_ne hne]
    exact Stage.not_resets_idle
  · rw [if_neg hopen, if_neg hopen]
    refine .of_none ?_ rfl rfl
    intro w hw
    have hresets : (Function.update (fun _ => Stage.idle) rx.worker (.ready rx) w).Resets := hw
    exact Stage.not_resets_idle (resets_update (Stage.not_resets_ready rx) hresets).2

end Tracks

end ConfigEnv.TunVpn.Ustun
