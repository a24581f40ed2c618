/-
Module: ConfigEnv.Proofs.PollRounds
Layer: Proofs
Purpose: The do loop of a poll, round by round. How the stream is cut into reads does not matter to
  what the poll returns. When the loop ends does: the clock and the deadline are milliseconds in 32
  bits, compared as they are, and near the wrap of the clock the loop ends at once or does not end.
Trusted boundary: none
Main exports: Delivers, read_cuts, Unanswered, roundsOf, PollEndsAt, MeetsDeadline,
  poll_deadline_iff
Open obligations: none
-/
import ConfigEnv.Lib.Deadline
import ConfigEnv.Proofs.UbxFramer

namespace ConfigEnv.Gps

open Deadline

/-! ### Reads -/

/-- What a round reads, if it reads something. -/
def Input.chunk : Input → Option (List u8)
  | .read buf => some buf
  | _ => none

theorem Input.flatten_chunk (input : Input) : input.chunk.toList.flatten = input.buf := by
  cases input with
  | read buf => exact List.append_nil buf
  | selectRetry | selectError | timeout | readNothing => rfl

/-- The rounds read these chunks before the deadline: the first round behind which the clock has
passed it, or `select` fails, is among them. -/
def Delivers (tsEndMs : u32) (rounds : List Round) (chunks : List (List u8)) : Prop :=
  ∃ early last rest, rounds = early ++ last :: rest ∧
    (∀ r ∈ early, r.input ≠ .selectError ∧ r.inTime tsEndMs = true) ∧
    (last.input = .selectError ∨ ¬ last.inTime tsEndMs = true) ∧
    chunks = (early ++ [last]).filterMap fun r => r.input.chunk

section Reads

variable {poll : UbxCfgPoll} {tsEndMs : u32} {rounds : List Round} {chunks : List (List u8)}

theorem flatten_chunks (rounds : List Round) :
    (rounds.filterMap fun r => r.input.chunk).flatten = rounds.flatMap fun r => r.input.buf := by
  induction rounds with
  | nil => rfl
  | cons r rounds ih =>
      rw [List.flatMap_cons, ← ih, ← r.input.flatten_chunk, ← List.flatten_append,
        List.filterMap_cons]
      cases r.input.chunk <;> rfl

/-- What the rounds deliver is the stream in its pieces. -/
theorem delivered_of_delivers (h : Delivers tsEndMs rounds chunks) :
    delivered tsEndMs rounds = chunks.flatten := by
  obtain ⟨early, last, rest, rfl, hearly, hlast, rfl⟩ := h
  rw [flatten_chunks]
  induction early with
  | nil =>
      rw [List.nil_append, List.nil_append, delivered, List.flatMap_singleton]
      by_cases herr : last.input = .selectError
      · rw [if_pos herr, herr]
        rfl
      · rw [if_neg herr, if_neg (hlast.resolve_left herr), List.append_nil]
  | cons r early ih =>
      obtain ⟨herr, htime⟩ := hearly r List.mem_cons_self
      rw [List.cons_append, List.cons_append, delivered, List.flatMap_cons, if_neg herr,
        if_pos htime, ih fun r' hr' => hearly r' (List.mem_cons_of_mem r hr')]

/-- Such a loop ends. -/
theorem pollLoop_delivers (poll : UbxCfgPoll) (h : Delivers tsEndMs rounds chunks) (f : Framer) :
    ∃ f', pollLoop poll tsEndMs f rounds = some f' := by
  obtain ⟨early, last, rest, rfl, hearly, hlast, rfl⟩ := h
  induction early generalizing f with
  | nil =>
      rw [List.nil_append, pollLoop, if_neg]
      · exact ⟨_, rfl⟩
      · by_cases herr : last.input = .selectError
        · rw [pollRound_error herr]
          exact Bool.false_ne_true
        · rw [pollRound_snd poll tsEndMs herr]
          exact fun hmore => hlast.resolve_left herr hmore.1
  | cons r early ih =>
      rw [List.cons_append, pollLoop]
      split
      · exact ih _ fun r' hr' => hearly r' (List.mem_cons_of_mem r hr')
      · exact ⟨_, rfl⟩

/-- The wait depends on the stream only, and not on its pieces. -/
theorem pollUbxData_delivers {timeout : u32} {written : Int} {tsMs : u32}
    (h : Delivers (tsMs + timeout) rounds chunks) :
    pollUbxData poll timeout written tsMs rounds =
      some (if written ≠ poll.pollLen.toNat then { ret := .zero, out := [] }
        else (Framer.start.bytes poll chunks.flatten).result) := by
  by_cases hwritten : written ≠ poll.pollLen.toNat
  · rw [pollUbxData, if_pos hwritten, if_pos hwritten]
  · obtain ⟨f, hloop⟩ := pollLoop_delivers poll h Framer.start
    rw [pollUbxData, if_neg hwritten, if_neg hwritten, hloop, pollLoop_some hloop,
      delivered_of_delivers h]
    rfl

end Reads

/-- Two ways of reading one stream before the deadline make one poll. -/
theorem read_cuts (poll : UbxCfgPoll) (timeout timeout' : u32) (written : Int) (tsMs tsMs' : u32)
    (rounds rounds' : List Round) (chunks chunks' : List (List u8))
    (h : Delivers (tsMs + timeout) rounds chunks)
    (h' : Delivers (tsMs' + timeout') rounds' chunks')
    (hstream : chunks.flatten = chunks'.flatten) :
    ∃ r, pollUbxData poll timeout written tsMs rounds = some r ∧
      pollUbxData poll timeout' written tsMs' rounds' = some r := by
  refine ⟨_, pollUbxData_delivers h, ?_⟩
  rw [pollUbxData_delivers h', hstream]

/-- The answer in one read, and cut within the sync characters with a round without data between. -/
theorem read_cuts_sync :
    ∃ r, pollUbxData monVer 1000 8 0 (romRounds []) = some r ∧
      pollUbxData monVer 1000 8 0
        [{ input := .read (romFrame.bytes.take 1), tsMs := 10 }, { input := .timeout, tsMs := 110 },
          { input := .read (romFrame.bytes.drop 1), tsMs := 1000 }] = some r := by
  apply read_cuts monVer 1000 1000 8 0 0 (romRounds []) _ [romFrame.bytes]
    [romFrame.bytes.take 1, romFrame.bytes.drop 1]
  · exact ⟨[], _, [], rfl, by simp, .inr (by decide), rfl⟩
  · exact ⟨[_, _], _, [], rfl, by decide, .inr (by decide), rfl⟩
  · rfl

/-! ### The deadline -/

/-- What the rounds of a poll get when no frame ends it and `select` does not fail. -/
structure Unanswered (poll : UbxCfgPoll) (inputs : Nat → Input) : Prop where
  no_error : ∀ k, inputs k ≠ .selectError
  running : ∀ n, (Framer.start.bytes poll
    ((List.range n).flatMap fun k => (inputs k).buf)).done = .zero

/-- The first `n` rounds; the clock is read in milliseconds, `t 0` before the loop. -/
def roundsOf (inputs : Nat → Input) (t : Nat → Nat) (n : Nat) : List Round :=
  (List.range n).map fun k => { input := inputs k, tsMs := BitVec.ofNat 32 (t (k + 1)) }

/-- The poll as far as its first `n` rounds. -/
def pollFor (poll : UbxCfgPoll) (timeout : u32) (inputs : Nat → Input) (t : Nat → Nat) (n : Nat) :
    Option PollReturn :=
  pollUbxData poll timeout poll.pollLen.toNat (BitVec.ofNat 32 (t 0)) (roundsOf inputs t n)

/-- The poll returns after `n` rounds. -/
structure PollEndsAt (poll : UbxCfgPoll) (timeout : u32) (inputs : Nat → Input) (t : Nat → Nat)
    (n : Nat) : Prop where
  ended : pollFor poll timeout inputs t n ≠ none
  before : ∀ m < n, pollFor poll timeout inputs t m = none

/-- When no frame ends it and no round takes longer than `D` ms, a poll that is sent at `start` ms
returns when its timeout is over, and not `D` ms later. -/
def MeetsDeadline (poll : UbxCfgPoll) (timeout : u32) (start D : Nat) : Prop :=
  ∀ inputs t, Unanswered poll inputs → Readings start D t →
    ∃ n, PollEndsAt poll timeout inputs t n ∧ start + timeout.toNat ≤ t n ∧
      t n < start + timeout.toNat + D

section Rounds

variable {poll : UbxCfgPoll} {timeout tsEndMs : u32} {inputs : Nat → Input} {t : Nat → Nat}

/-- Without a frame that ends it the loop goes on as long as the clock says. -/
theorem pollLoop_eq_none_iff {rounds : List Round} {f : Framer}
    (herr : ∀ r ∈ rounds, r.input ≠ .selectError)
    (hquiet : (f.bytes poll (rounds.flatMap fun r => r.input.buf)).done = .zero) :
    pollLoop poll tsEndMs f rounds = none ↔ ∀ r ∈ rounds, r.inTime tsEndMs = true := by
  induction rounds generalizing f with
  | nil => simp [pollLoop]
  | cons r rounds ih =>
      rw [List.flatMap_cons, Framer.bytes_append] at hquiet
      have hdone : (f.bytes poll r.input.buf).done = .zero := by
        by_contra hne
        rw [Framer.bytes_done hne] at hquiet
        exact hne hquiet
      have hmore := pollRound_snd poll tsEndMs (herr r List.mem_cons_self) f
      rw [and_iff_left hdone] at hmore
      rw [pollLoop, List.forall_mem_cons, pollRound_fst]
      by_cases htime : r.inTime tsEndMs = true
      · rw [if_pos (hmore.2 htime), and_iff_right htime]
        exact ih (fun r' hr' => herr r' (List.mem_cons_of_mem r hr')) hquiet
      · rw [if_neg fun htrue => htime (hmore.1 htrue)]
        exact iff_of_false (Option.some_ne_none _) fun hall => htime hall.1

/-- `ts_ms < ts_end_ms`, with the clock modulo `2 ^ 32`. -/
theorem inTime_iff (start now : Nat) (input : Input) :
    Round.inTime (BitVec.ofNat 32 start + timeout)
        { input := input, tsMs := BitVec.ofNat 32 now } = true ↔
      Pending (2 ^ 32) start timeout.toNat now := by
  rw [Round.inTime, decide_eq_true_iff, BitVec.lt_def, BitVec.toNat_add, BitVec.toNat_ofNat,
    BitVec.toNat_ofNat, Nat.mod_add_mod, Pending]

/-- An unanswered wait goes on exactly as long as its deadline is pending. -/
theorem pollFor_eq_none_iff (hquiet : Unanswered poll inputs) (n : Nat) :
    pollFor poll timeout inputs t n = none ↔
      ∀ k, 0 < k → k ≤ n → Pending (2 ^ 32) (t 0) timeout.toNat (t k) := by
  have hinputs : (roundsOf inputs t n).flatMap (fun r => r.input.buf) =
      (List.range n).flatMap fun k => (inputs k).buf := by
    rw [roundsOf, List.flatMap_map]
  rw [pollFor, pollUbxData, if_neg (not_not.2 rfl), Option.map_eq_none_iff, pollLoop_eq_none_iff]
  · simp only [roundsOf, List.forall_mem_map, List.mem_range, inTime_iff]
    constructor
    · intro h k hpos hle
      have hk := h (k - 1) (by omega)
      rwa [Nat.sub_add_cancel hpos] at hk
    · intro h k hk
      exact h (k + 1) (Nat.succ_pos k) hk
  · simp only [roundsOf, List.forall_mem_map]
    exact fun k _ => hquiet.no_error k
  · rw [hinputs]
    exact hquiet.running n

/-- The poll returns when its loop ends. -/
theorem pollEndsAt_iff (hquiet : Unanswered poll inputs) (n : Nat) :
    PollEndsAt poll timeout inputs t n ↔ EndsAt (2 ^ 32) (t 0) timeout.toNat t n := by
  constructor
  · rintro ⟨hended, hbefore⟩
    have hpos : 0 < n := by
      rw [Nat.pos_iff_ne_zero]
      rintro rfl
      exact hended ((pollFor_eq_none_iff hquiet 0).2 fun k hk hle => by omega)
    have hrest := (pollFor_eq_none_iff hquiet (n - 1)).1 (hbefore (n - 1) (by omega))
    refine ⟨hpos, fun hpending => hended ?_, fun k hk hlt => hrest k hk (by omega)⟩
    rw [pollFor_eq_none_iff hquiet]
    intro k hk hle
    rcases Nat.lt_or_eq_of_le hle with hlt | rfl
    · exact hrest k hk (by omega)
    · exact hpending
  · rintro ⟨hpos, hended, hbefore⟩
    constructor
    · intro hnone
      exact hended ((pollFor_eq_none_iff hquiet n).1 hnone n hpos (Nat.le_refl n))
    · intro m hm
      rw [pollFor_eq_none_iff hquiet]
      exact fun k hk hle => hbefore k hk (by omega)

end Rounds

theorem unanswered_timeouts (poll : UbxCfgPoll) : Unanswered poll fun _ => .timeout where
  no_error _ := Input.noConfusion
  running n := by
    have hnil : ((List.range n).flatMap fun _ => Input.timeout.buf) = [] := by
      rw [List.flatMap_eq_nil_iff]
      exact fun _ _ => rfl
    rw [hnil]
    rfl

/-- A poll keeps its deadline, whatever its rounds take up to `D` ms, exactly when the milliseconds
do not wrap up to `D` ms behind the deadline. -/
theorem poll_deadline_iff (poll : UbxCfgPoll) (timeout : u32) (start D : Nat)
    (htimeout : 0 < timeout.toNat) (hD : 0 < D) (hle : timeout.toNat + D ≤ 2 ^ 32) :
    MeetsDeadline poll timeout start D ↔ start % 2 ^ 32 + timeout.toNat + D ≤ 2 ^ 32 := by
  rw [← meets_iff htimeout hD hle]
  constructor
  · intro h t ht
    obtain ⟨n, hends, hge, hlt⟩ := h _ t (unanswered_timeouts poll) ht
    rw [pollEndsAt_iff (unanswered_timeouts poll), ht.zero] at hends
    exact ⟨n, hends, hge, hlt⟩
  · intro h inputs t hquiet ht
    obtain ⟨n, hends, hge, hlt⟩ := h t ht
    refine ⟨n, ?_, hge, hlt⟩
    rw [pollEndsAt_iff hquiet, ht.zero]
    exact hends

theorem poll_deadline_hour : MeetsDeadline monVer 1000 3600000 200 :=
  (poll_deadline_iff monVer 1000 3600000 200 (by decide) (by decide) (by decide)).2 (by decide)

/-- Half a second before the wrap the first round ends the poll. -/
theorem poll_cut_short : ¬ MeetsDeadline monVer 1000 (2 ^ 32 - 500) 200 := by
  intro h
  have ht : Readings (2 ^ 32 - 500) 200 fun k => 2 ^ 32 - 500 + 100 * k :=
    ⟨rfl, fun k => by omega, fun k => by omega, fun m => ⟨m, by omega⟩⟩
  obtain ⟨n, hends, hge, -⟩ := h _ _ (unanswered_timeouts monVer) ht
  have hone : PollEndsAt monVer 1000 (fun _ => .timeout) (fun k => 2 ^ 32 - 500 + 100 * k) 1 := by
    refine ⟨by decide, fun m hm => ?_⟩
    obtain rfl : m = 0 := by omega
    rfl
  rw [pollEndsAt_iff (unanswered_timeouts monVer)] at hends hone
  rw [hends.unique hone] at hge
  exact absurd hge (by decide)

end ConfigEnv.Gps
