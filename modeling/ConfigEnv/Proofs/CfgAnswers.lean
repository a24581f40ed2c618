/-
Module: ConfigEnv.Proofs.CfgAnswers
Layer: Proofs
Purpose: Which answers end up in which lines of the configuration dump. A poll writes a line only
  for a whole frame of its class and id that it reads from the stream behind its flush; what makes
  up that stream is followed through the run. A line belongs to its entry as long as no answer to
  another entry with the same class and id is under way when the poll starts listening. The program
  does not see to that: the flush empties the queue of the terminal, not the line.
Trusted boundary: none
Main exports: Framer.bytes_frames, LinesBelong, Dump.Apart, Attributed, dumpStep_attributed,
  lines_belong
Open obligations: none
-/
import ConfigEnv.Gps.CfgDump
import ConfigEnv.Proofs.UbxFramer

namespace ConfigEnv.Gps

open Machine (Run Always)

/-- Class and id are all that a frame and a poll are compared by. -/
def UbxCfgPoll.AnsweredBy (poll : UbxCfgPoll) (m : UbxFrame) : Prop :=
  m.classId = poll.msgClass ∧ m.msgId = poll.msgId

instance (poll : UbxCfgPoll) (m : UbxFrame) : Decidable (poll.AnsweredBy m) :=
  inferInstanceAs (Decidable (_ ∧ _))

/-- Bytes that leave the hunt where it was. -/
def Quiet (bs : List u8) : Prop :=
  ¬ [ubxSyncChar1, ubxSyncChar2] <:+: bs ∧ Even (Framer.syncRun bs)

/-! ### A stream of frames -/

namespace Framer

variable {poll : UbxCfgPoll} {f : Framer}

/-- What a whole frame can do: reject the poll, nothing, or answer the poll. -/
theorem bytes_frame_cases (poll : UbxCfgPoll) {m : UbxFrame} (h : f.Hunting)
    (hlen : m.bytes.length ≤ ubxFrameMax) :
    (f.bytes poll m.bytes).done = .nak ∨
      ((f.bytes poll m.bytes).Hunting ∧ (f.bytes poll m.bytes).out = f.out) ∨
      (poll.AnsweredBy m ∧ (f.bytes poll m.bytes).done = .ok ∧
        (f.bytes poll m.bytes).out = f.out ++ [m.line poll]) := by
  rw [bytes_frame h hlen]
  have hcls : (f.full m).frame.getD 2 0 = m.classId := rfl
  have hmid : (f.full m).frame.getD 3 0 = m.msgId := rfl
  by_cases hack : m.classId = 0x05 ∧ m.msgId = 0x00
  · simp only [complete, hcls, hmid, if_pos hack]
    split
    · exact .inl rfl
    · exact .inr (.inl ⟨⟨rfl, h.done_eq⟩, rfl⟩)
  · by_cases hanswers : poll.AnsweredBy m
    · rw [complete_full hanswers.1 hanswers.2 hack]
      exact .inr (.inr ⟨hanswers, rfl, rfl⟩)
    · have hother : ¬ (m.classId = poll.msgClass ∧ m.msgId = poll.msgId) := hanswers
      simp only [complete, hcls, hmid, if_neg hack, if_neg hother]
      exact .inr (.inl ⟨⟨rfl, h.done_eq⟩, rfl⟩)

/-- A poll that is answered somewhere in a stream of frames is answered by one of them. -/
theorem bytes_frames {ms : List UbxFrame} {bs : List u8} (h : f.Hunting)
    (hlen : ∀ m ∈ ms, m.bytes.length ≤ ubxFrameMax) (hbs : bs <+: ms.flatMap UbxFrame.bytes)
    (hok : (f.bytes poll bs).done = .ok) :
    ∃ m ∈ ms, poll.AnsweredBy m ∧ (f.bytes poll bs).out = f.out ++ [m.line poll] := by
  induction ms generalizing f bs with
  | nil =>
      rw [List.flatMap_nil, List.prefix_nil] at hbs
      subst hbs
      exact absurd (hok.symm.trans h.done_eq) PollMsg.noConfusion
  | cons m ms ih =>
      have hm := hlen m List.mem_cons_self
      rw [List.flatMap_cons] at hbs
      by_cases hshort : bs.length < m.bytes.length
      · have htake : bs = m.bytes.take bs.length := List.prefix_iff_eq_take.1
          (List.prefix_of_prefix_length_le hbs (List.prefix_append _ _) hshort.le)
        rw [htake] at hok
        exact absurd (hok.symm.trans (bytes_frame_take h hm hshort)) PollMsg.noConfusion
      · obtain ⟨rest, rfl⟩ : m.bytes <+: bs :=
          List.prefix_of_prefix_length_le (List.prefix_append _ _) hbs (not_lt.1 hshort)
        rw [List.prefix_append_right_inj] at hbs
        rw [bytes_append] at hok ⊢
        rcases bytes_frame_cases poll h hm with hnak | ⟨hhunt, hout⟩ | ⟨hanswers, hdone, hout⟩
        · rw [bytes_done (by rw [hnak]; exact PollMsg.noConfusion), hnak] at hok
          exact absurd hok PollMsg.noConfusion
        · obtain ⟨m', hm', hanswers, hline⟩ :=
            ih hhunt (fun m' hm' => hlen m' (List.mem_cons_of_mem m hm')) hbs hok
          exact ⟨m', List.mem_cons_of_mem m hm', hanswers, by rw [hline, hout]⟩
        · rw [bytes_done (by rw [hdone]; exact PollMsg.noConfusion)]
          exact ⟨m, List.mem_cons_self, hanswers, hout⟩

/-- The same behind bytes that leave the hunt where it was. -/
theorem bytes_quiet_frames {noise : List u8} {ms : List UbxFrame} {bs : List u8} (h : f.Hunting)
    (hquiet : Quiet noise) (hlen : ∀ m ∈ ms, m.bytes.length ≤ ubxFrameMax)
    (hbs : bs <+: noise ++ ms.flatMap UbxFrame.bytes) (hok : (f.bytes poll bs).done = .ok) :
    ∃ m ∈ ms, poll.AnsweredBy m ∧ (f.bytes poll bs).out = f.out ++ [m.line poll] := by
  by_cases hshort : bs.length ≤ noise.length
  · -- inside the noise no frame ends
    have hpart : bs <+: noise := List.prefix_of_prefix_length_le hbs (List.prefix_append _ _) hshort
    have hafter := bytes_noise poll h bs fun hin => hquiet.1 (hin.trans hpart.isInfix)
    have hdone : (f.bytes poll bs).done = .zero := by
      split at hafter
      · exact hafter.done_eq
      · exact hafter.done_eq
    exact absurd (hok.symm.trans hdone) PollMsg.noConfusion
  · obtain ⟨rest, rfl⟩ : noise <+: bs :=
      List.prefix_of_prefix_length_le (List.prefix_append _ _) hbs (Nat.le_of_not_le hshort)
    rw [List.prefix_append_right_inj] at hbs
    have hafter := bytes_noise poll h noise hquiet.1
    rw [if_pos hquiet.2] at hafter
    rw [bytes_append] at hok ⊢
    obtain ⟨m, hm, hanswers, hline⟩ := bytes_frames hafter hlen hbs hok
    exact ⟨m, hm, hanswers, by rw [hline, bytes_out hafter.done_eq]⟩

/-- Only an answered poll has written something. -/
theorem bytes_start_out {bs : List u8} (h : (start.bytes poll bs).done ≠ .ok) :
    (start.bytes poll bs).out = [] :=
  ((hunting_start.within rfl).bytes bs).out_nil h

end Framer

/-! ### What a poll can read -/

/-- The bytes that are still to come in. -/
def Dump.line (d : Dump) : List u8 := d.cut ++ d.inFlight.flatMap (·.2.bytes)

/-- Every line carries an answer to a transmission of its entry. -/
def LinesBelong (polls : List UbxCfgPoll) (d : Dump) : Prop :=
  ∀ e ∈ d.file, ∃ m, (e.1, m) ∈ d.answered ∧ e.2 = m.line (pollAt polls e.1)

/-- An answer that the poll of the current entry may read. -/
def Dump.Own (polls : List UbxCfgPoll) (d : Dump) (a : Nat × UbxFrame) : Prop :=
  a.1 = d.entry ∨ ¬ (d.poll polls).AnsweredBy a.2

/-- The condition on a step: answers fit the buffer of the hunt; when a poll starts, what is still
to come of a cut answer is quiet, and none of the other answers that can still come in is taken for
the poll's own, neither then nor while it waits. -/
def Dump.Apart (polls : List UbxCfgPoll) (d : Dump) : Event → Prop
  | .flush => Quiet d.cut ∧ ∀ a ∈ d.inFlight, d.Own polls a
  | .answer (some m) => m.bytes.length ≤ ubxFrameMax ∧
      ((d.phase = .write ∨ ∃ f tsEndMs, d.phase = .rounds f tsEndMs) →
        ∀ i ∈ d.pending.head?, d.Own polls (i, m))
  | _ => True

/-- What a poll that has read `consumed` since its flush can read: the rest of an answer, and
answers that are its own. -/
def Dump.Hears (polls : List UbxCfgPoll) (d : Dump) (consumed : List u8) : Prop :=
  ∃ (noise : List u8) (answers : List (Nat × UbxFrame)), Quiet noise ∧
    consumed ++ d.input ++ d.line = noise ++ answers.flatMap (·.2.bytes) ∧
    ∀ a ∈ answers, a ∈ d.answered ∧ a.2.bytes.length ≤ ubxFrameMax ∧ d.Own polls a

/-- The invariant. -/
structure Attributed (polls : List UbxCfgPoll) (d : Dump) : Prop where
  lines : LinesBelong polls d
  sent : ∀ a ∈ d.inFlight, a ∈ d.answered ∧ a.2.bytes.length ≤ ubxFrameMax
  write : d.phase = .write → d.Hears polls []
  rounds : ∀ f tsEndMs, d.phase = .rounds f tsEndMs →
    ∃ consumed, f = Framer.start.bytes (d.poll polls) consumed ∧ d.Hears polls consumed

section Steps

variable {polls : List UbxCfgPoll} {timeout : u32} {d d' : Dump} {u : Unit}

theorem attributed_start (input : List u8) : Attributed polls (Dump.start input) where
  lines := fun _ he => absurd he List.not_mem_nil
  sent := fun _ ha => absurd ha List.not_mem_nil
  write := Phase.noConfusion
  rounds := fun _ _ => Phase.noConfusion

/-- In the phases outside a poll nothing is to be shown of the stream. -/
theorem Attributed.outside (h : Attributed polls d) (hlines : LinesBelong polls d')
    (hsent : d'.inFlight = d.inFlight) (hanswered : d'.answered = d.answered)
    (hwrite : d'.phase ≠ .write) (hrounds : ∀ f tsEndMs, d'.phase ≠ .rounds f tsEndMs) :
    Attributed polls d' where
  lines := hlines
  sent := by
    rw [hsent, hanswered]
    exact h.sent
  write := fun hphase => absurd hphase hwrite
  rounds := fun f tsEndMs hphase => absurd hphase (hrounds f tsEndMs)

/-- The line that a poll writes. -/
theorem Dump.Hears.leave {bs consumed : List u8} {d₀ : Dump} (h : d.Hears polls consumed)
    (hbs : bs <+: consumed ++ d.input ++ d.line) (hlines : LinesBelong polls d)
    (hfile : d₀.file = d.file) (hentry : d₀.entry = d.entry) (hanswered : d₀.answered = d.answered)
    (ret : PollMsg) :
    LinesBelong polls (d₀.leave ⟨ret, (Framer.start.bytes (d.poll polls) bs).out⟩) := by
  obtain ⟨noise, answers, hquiet, hstream, hown⟩ := h
  intro e he
  rw [Dump.leave, hfile, hentry, List.mem_append, List.mem_map] at he
  change ∃ m, (e.1, m) ∈ d₀.answered ∧ _
  rw [hanswered]
  rcases he with hold | ⟨line, hline, rfl⟩
  · exact hlines e hold
  · by_cases hok : (Framer.start.bytes (d.poll polls) bs).done = .ok
    · have hmap : answers.flatMap (·.2.bytes) = (answers.map Prod.snd).flatMap UbxFrame.bytes := by
        rw [List.flatMap_map]
      rw [hstream, hmap] at hbs
      have hlen : ∀ m ∈ answers.map Prod.snd, m.bytes.length ≤ ubxFrameMax := by
        intro m hm
        obtain ⟨a, ha, rfl⟩ := List.mem_map.1 hm
        exact (hown a ha).2.1
      obtain ⟨m, hm, hanswers, hout⟩ :=
        Framer.bytes_quiet_frames Framer.hunting_start hquiet hlen hbs hok
      obtain ⟨⟨i, m⟩, ha, rfl⟩ := List.mem_map.1 hm
      obtain ⟨hmem, -, hentry | hother⟩ := hown _ ha
      · rw [hout] at hline
        cases List.mem_singleton.1 hline
        exact ⟨m, hentry ▸ hmem, rfl⟩
      · exact absurd hanswers hother
    · rw [Framer.bytes_start_out hok] at hline
      exact absurd hline List.not_mem_nil

/-- A chunk comes from the front of the queue. -/
theorem Dump.take_some {d₁ : Dump} {r : Round} (h : d.take r = some d₁) :
    ∃ rest, d₁ = { d with input := rest } ∧ d.input = r.input.buf ++ rest := by
  obtain ⟨input, tsMs⟩ := r
  cases input with
  | read buf =>
      rw [Dump.take] at h
      dsimp only at h
      split at h
      · next hread =>
          cases h
          obtain ⟨rest, hrest⟩ := hread.2.2
          refine ⟨rest, ?_, hrest.symm⟩
          rw [← hrest, List.drop_left]
      · cases h
  | selectRetry => cases h; exact ⟨d.input, rfl, rfl⟩
  | selectError => cases h; exact ⟨d.input, rfl, rfl⟩
  | timeout => cases h; exact ⟨d.input, rfl, rfl⟩
  | readNothing => cases h; exact ⟨d.input, rfl, rfl⟩

/-- Emptying the queue at a time that is apart keeps every line where it belongs. -/
theorem attributed_flush (h : Attributed polls d) (hapart : d.Apart polls .flush)
    (hstep : dumpStep polls timeout d .flush = .ok (d', u)) : Attributed polls d' := by
  rw [dumpStep] at hstep
  split at hstep
  · cases hstep
    refine ⟨h.lines, h.sent, fun _ => ?_, fun _ _ => Phase.noConfusion⟩
    refine ⟨d.cut, d.inFlight, hapart.1, rfl, fun a ha => ?_⟩
    exact ⟨(h.sent a ha).1, (h.sent a ha).2, hapart.2 a ha⟩
  · cases hstep

/-- Writing a poll keeps every line where it belongs. -/
theorem attributed_write {written : Int} {tsMs : u32} (h : Attributed polls d)
    (hstep : dumpStep polls timeout d (.write written tsMs) = .ok (d', u)) :
    Attributed polls d' := by
  rw [dumpStep] at hstep
  split at hstep
  · next hphase =>
      split at hstep
      · cases hstep
        refine h.outside ?_ rfl rfl Phase.noConfusion fun _ _ => Phase.noConfusion
        intro e he
        rw [Dump.leave, List.map_nil, List.append_nil] at he
        exact h.lines e he
      · cases hstep
        refine ⟨h.lines, h.sent, Phase.noConfusion, fun f tsEndMs hrounds => ?_⟩
        cases hrounds
        exact ⟨[], rfl, h.write hphase⟩
  · cases hstep

/-- One round of the wait keeps every line where it belongs. -/
theorem attributed_round {r : Round} (h : Attributed polls d)
    (hstep : dumpStep polls timeout d (.round r) = .ok (d', u)) : Attributed polls d' := by
  rw [dumpStep] at hstep
  split at hstep
  · next f tsEndMs d₁ hphase htake =>
      obtain ⟨rest, rfl, hinput⟩ := Dump.take_some htake
      obtain ⟨consumed, hf, hhears⟩ := h.rounds f tsEndMs hphase
      -- what the hunt has seen after the round
      let bs : List u8 := consumed ++ r.input.buf
      have hframer : (pollRound (Dump.poll polls { d with input := rest }) tsEndMs f r).1 =
          Framer.start.bytes (d.poll polls) bs := by
        rw [pollRound_fst, hf, Framer.bytes_append]
        rfl
      have hstream : bs ++ rest ++ d.line = consumed ++ d.input ++ d.line := by
        rw [hinput, List.append_assoc consumed]
      dsimp only at hstep
      split at hstep
      · cases hstep
        refine ⟨h.lines, h.sent, Phase.noConfusion, fun f' tsEndMs' hrounds => ?_⟩
        cases hrounds
        refine ⟨bs, hframer, ?_⟩
        obtain ⟨noise, answers, hquiet, hwhole, hown⟩ := hhears
        exact ⟨noise, answers, hquiet, hstream.trans hwhole, hown⟩
      · cases hstep
        have hread : bs <+: consumed ++ d.input ++ d.line :=
          ⟨rest ++ d.line, by rw [← List.append_assoc, hstream]⟩
        refine h.outside ?_ rfl rfl Phase.noConfusion fun _ _ => Phase.noConfusion
        rw [hframer]
        exact hhears.leave hread h.lines rfl rfl rfl _
  · cases hstep

/-- Going on to the next poll keeps every line where it belongs. -/
theorem attributed_next {glExit : Bool} (h : Attributed polls d)
    (hstep : dumpStep polls timeout d (.next glExit) = .ok (d', u)) : Attributed polls d' := by
  rw [dumpStep] at hstep
  split at hstep
  · cases hstep
    rw [Dump.advance]
    split_ifs
    · exact h.outside h.lines rfl rfl Phase.noConfusion fun _ _ => Phase.noConfusion
    · exact h.outside h.lines rfl rfl Phase.noConfusion fun _ _ => Phase.noConfusion
    · exact h.outside h.lines rfl rfl Phase.noConfusion fun _ _ => Phase.noConfusion
  · cases hstep

/-- An answer at a time that is apart keeps every line where it belongs. -/
theorem attributed_answer {resp : Option UbxFrame} (h : Attributed polls d)
    (hapart : d.Apart polls (.answer resp))
    (hstep : dumpStep polls timeout d (.answer resp) = .ok (d', u)) : Attributed polls d' := by
  rw [dumpStep] at hstep
  split at hstep
  · cases hstep
  · next i pending hpending =>
      cases hstep
      let sent : List (Nat × UbxFrame) := resp.toList.map (i, ·)
      have hmono : ∀ a ∈ d.answered, a ∈ d.answered ++ sent :=
        fun a ha => List.mem_append_left _ ha
      have hfits : ∀ a ∈ sent, a.2.bytes.length ≤ ubxFrameMax := by
        intro a ha
        obtain ⟨m, hm, rfl⟩ := List.mem_map.1 ha
        rw [Option.mem_toList] at hm
        cases hm
        exact hapart.1
      have hown : (d.phase = .write ∨ ∃ f tsEndMs, d.phase = .rounds f tsEndMs) →
          ∀ a ∈ sent, d.Own polls a := by
        intro hphase a ha
        obtain ⟨m, hm, rfl⟩ := List.mem_map.1 ha
        rw [Option.mem_toList] at hm
        cases hm
        exact hapart.2 hphase i (by rw [hpending]; rfl)
      -- the stream grows at its end by the new answer
      have hhears : ∀ consumed, d.Hears polls consumed → (∀ a ∈ sent, d.Own polls a) →
          Dump.Hears polls { d with pending := pending, inFlight := d.inFlight ++ sent
                                    answered := d.answered ++ sent } consumed := by
        rintro consumed ⟨noise, answers, hquiet, hwhole, hread⟩ hnew
        refine ⟨noise, answers ++ sent, hquiet, ?_, fun a ha => ?_⟩
        · simp only [Dump.line, List.flatMap_append, ← List.append_assoc] at hwhole ⊢
          rw [hwhole]
        · rcases List.mem_append.1 ha with hold | hmem
          · exact ⟨hmono a (hread a hold).1, (hread a hold).2⟩
          · exact ⟨List.mem_append_right _ hmem, hfits a hmem, hnew a hmem⟩
      refine ⟨fun e he => ?_, fun a ha => ?_, fun hphase => ?_, fun f tsEndMs hphase => ?_⟩
      · obtain ⟨m, hm, hline⟩ := h.lines e he
        exact ⟨m, hmono _ hm, hline⟩
      · rcases List.mem_append.1 ha with hold | hmem
        · exact ⟨hmono a (h.sent a hold).1, (h.sent a hold).2⟩
        · exact ⟨List.mem_append_right _ hmem, hfits a hmem⟩
      · exact hhears [] (h.write hphase) (hown (.inl hphase))
      · obtain ⟨consumed, hf, hread⟩ := h.rounds f tsEndMs hphase
        exact ⟨consumed, hf, hhears consumed hread (hown (.inr ⟨f, tsEndMs, hphase⟩))⟩

/-- A byte that comes in stays in the stream. -/
theorem attributed_moved (h : Attributed polls d) (input cut : List u8)
    (inFlight : List (Nat × UbxFrame)) (hsub : ∀ a ∈ inFlight, a ∈ d.inFlight)
    (hstream : input ++ (cut ++ inFlight.flatMap (·.2.bytes)) = d.input ++ d.line) :
    Attributed polls { d with input := input, cut := cut, inFlight := inFlight } := by
  have hhears : ∀ consumed, d.Hears polls consumed →
      Dump.Hears polls { d with input := input, cut := cut, inFlight := inFlight } consumed := by
    rintro consumed ⟨noise, answers, hquiet, hwhole, hread⟩
    refine ⟨noise, answers, hquiet, ?_, hread⟩
    rw [← hwhole, List.append_assoc, List.append_assoc, ← hstream]
    rfl
  refine ⟨h.lines, fun a ha => h.sent a (hsub a ha), fun hphase => hhears [] (h.write hphase),
    fun f tsEndMs hphase => ?_⟩
  obtain ⟨consumed, hf, hread⟩ := h.rounds f tsEndMs hphase
  exact ⟨consumed, hf, hhears consumed hread⟩

/-- Bytes that arrive keep every line where it belongs. -/
theorem attributed_arrive (h : Attributed polls d)
    (hstep : dumpStep polls timeout d .arrive = .ok (d', u)) : Attributed polls d' := by
  rw [dumpStep] at hstep
  split at hstep
  · next b cut hcut =>
      cases hstep
      refine attributed_moved h _ _ d.inFlight (fun _ ha => ha) ?_
      simp [Dump.line, hcut]
  · next a inFlight hcut hinFlight =>
      cases hstep
      refine attributed_moved h _ _ _ (fun _ ha => hinFlight ▸ List.mem_cons_of_mem a ha) ?_
      simp [Dump.line, hcut, hinFlight, UbxFrame.bytes]
  · cases hstep

/-- What every step keeps. -/
theorem dumpStep_attributed {e : Event} (h : Attributed polls d) (hapart : d.Apart polls e)
    (hstep : dumpStep polls timeout d e = .ok (d', u)) : Attributed polls d' := by
  cases e with
  | flush => exact attributed_flush h hapart hstep
  | write written tsMs => exact attributed_write h hstep
  | round r => exact attributed_round h hstep
  | next glExit => exact attributed_next h hstep
  | answer resp => exact attributed_answer h hapart hstep
  | arrive => exact attributed_arrive h hstep

end Steps

/-! ### Runs -/

/-- In every run in which no other entry's answer can be taken for the one a poll waits for, every
line carries an answer to its own entry. -/
theorem lines_belong (modem : Int) (input : List u8) {t : List (Event × Unit)} {d : Dump}
    (hrun : Run (dumpMachine modem) (Dump.start input) t d)
    (hapart : Always (dumpMachine modem) (Dump.start input) (t.map Prod.fst)
      fun q e => q.Apart (cfgPolls modem) e) :
    LinesBelong (cfgPolls modem) d := by
  have hkept := hapart.invariant (Attributed (cfgPolls modem)) (fun _ _ => True) hrun
    (attributed_start input)
    fun q e o q' hq hcond hstep => ⟨dumpStep_attributed hq hcond hstep, trivial⟩
  exact hkept.1.lines

/-- The answer comes in and is read. -/
def readAnswer (m : UbxFrame) : List Event :=
  List.replicate m.bytes.length .arrive ++ [.round { input := .read m.bytes, tsMs := 1 }]

theorem readAnswer_apart (m : UbxFrame) {e : Event} (he : e ∈ readAnswer m)
    (polls : List UbxCfgPoll) (d : Dump) : d.Apart polls e := by
  rw [readAnswer, List.mem_append, List.mem_replicate, List.mem_singleton] at he
  rcases he with ⟨-, rfl⟩ | rfl
  · exact trivial
  · exact trivial

/-- A first poll that is answered in time. -/
def answeredInTime : List Event :=
  [.flush, .write 8 0, .answer (some romFrame)] ++ readAnswer romFrame

theorem lines_belong_in_time : ∃ t d, Run (dumpMachine 9) (Dump.start []) t d ∧
    d.file = [(0, romFrame.line monVer)] ∧ LinesBelong glUbxM9CfgPoll d := by
  have hexec : ∃ d t, Machine.exec (dumpStep (cfgPolls 9) (cfgTimeout 9)) (Dump.start [])
      answeredInTime = .ok (d, t) ∧ d.file = [(0, romFrame.line monVer)] :=
    ⟨_, _, rfl, by decide⟩
  obtain ⟨d, t, hexec, hfile⟩ := hexec
  obtain ⟨hrun, hinputs⟩ := Machine.run_iff_exec.2 hexec
  refine ⟨t, d, hrun, hfile, lines_belong 9 [] hrun ?_⟩
  rw [hinputs]
  refine .cons ⟨⟨by decide, by decide⟩, fun a ha => absurd ha List.not_mem_nil⟩ fun _ _ hflush => ?_
  cases hflush
  refine .cons trivial fun _ _ hwrite => ?_
  cases hwrite
  refine .cons ⟨by decide, fun _ i hi => .inl (Option.some.inj hi).symm⟩ fun _ _ _ => ?_
  exact .of_mem fun e he q => readAnswer_apart romFrame he _ q

/-- An answer to CFG-VALGET that reports no value. -/
def valgetFrame : UbxFrame :=
  { classId := 0x06, msgId := 0x8B, payload := [0x01, 0x00, 0x00, 0x00], payload_lt := by decide }

/-- A try whose `write` fails, and one that is over before anything comes in. -/
def failedTry : List Event := [.flush, .write (-1) 0, .next false]

def silentTry : List Event :=
  [.flush, .write 16 0, .round { input := .timeout, tsMs := 3000 }, .next false]

/-- The first try of entry 1 is answered after the last, when entry 2 waits. -/
def answeredLate : List Event :=
  failedTry ++ failedTry ++ failedTry ++ silentTry ++ failedTry ++ failedTry ++
    [.flush, .write 16 0, .answer (some valgetFrame)] ++ readAnswer valgetFrame

/-- The answer to one CFG-VALGET poll is recorded for the next. -/
theorem line_of_other_entry :
    ¬ ∀ (modem : Int) (input : List u8) (t : List (Event × Unit)) (d : Dump),
      Run (dumpMachine modem) (Dump.start input) t d → LinesBelong (cfgPolls modem) d := by
  intro hall
  have hexec : ∃ d t, Machine.exec (dumpStep (cfgPolls 9) (cfgTimeout 9)) (Dump.start [])
      answeredLate = .ok (d, t) ∧ d.file = [(2, valgetFrame.line (pollAt glUbxM9CfgPoll 2))] ∧
        d.answered = [(1, valgetFrame)] := ⟨_, _, rfl, by decide, by decide⟩
  obtain ⟨d, t, hexec, hfile, hanswered⟩ := hexec
  obtain ⟨m, hm, -⟩ := hall 9 [] t d (Machine.run_iff_exec.2 hexec).1 _
    (hfile ▸ List.mem_singleton_self _)
  rw [hanswered, List.mem_singleton] at hm
  cases hm

end ConfigEnv.Gps
