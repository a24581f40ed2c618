/-
Module: ConfigEnv.Proofs.FrameWindow
Layer: Proofs
Purpose: What is in the frame buffer. While a frame is collected the buffer holds the last bytes of
  the stream, from the two sync characters on; the length field has been read when the payload is
  collected, and the frame fits the buffer. The poll ends with the byte that completes a frame, and
  there is one such byte at most.
Trusted boundary: none
Main exports: Framer.Windowed, Framer.Windowed.byte, Framer.windowed, Framer.byte_ends, EndsPoll,
  exists_end, EndsPoll.infix, windowed_all, EndsPoll.unique
Open obligations: none
-/
import ConfigEnv.Proofs.UbxFramer

namespace ConfigEnv.Gps

namespace Framer

variable {poll : UbxCfgPoll} {f : Framer} {bs : List u8} {b : u8}

@[simp] theorem push_frame (f : Framer) (b : u8) : (f.push b).frame = f.frame ++ [b] := rfl

@[simp] theorem push_state (f : Framer) (b : u8) : (f.push b).state = f.state := rfl

@[simp] theorem push_expectedLen (f : Framer) (b : u8) :
    (f.push b).expectedLen = f.expectedLen := rfl

/-- The buffer after the bytes `bs`. -/
structure Windowed (bs : List u8) (f : Framer) : Prop where
  suffix : f.state ≠ .sync1 → f.frame <:+ bs
  sync2 : f.state = .sync2 → f.frame = [ubxSyncChar1]
  sync : f.state = .header ∨ f.state = .payload →
    [ubxSyncChar1, ubxSyncChar2] <+: f.frame
  header_lt : f.state = .header → f.frame.length < 6
  payload_ge : f.state = .payload → 6 ≤ f.frame.length
  payload_lt : f.state = .payload → f.frame.length < f.expectedLen
  fits : f.state = .payload → f.expectedLen ≤ ubxFrameMax
  length_eq : f.state = .payload → f.expectedLen = f.lengthField

/-- In the first state nothing is asked of the buffer. -/
theorem Windowed.of_sync1 (h : f.state = .sync1) : f.Windowed bs := by
  constructor <;> simp [h]

/-- The length field does not change once it is there. -/
theorem lengthField_push (h : 6 ≤ f.frame.length) (b : u8) :
    (f.push b).lengthField = f.lengthField := by
  simp only [lengthField, push_frame]
  rw [List.getD_append _ _ _ _ (by omega), List.getD_append _ _ _ _ (by omega)]

/-- A byte that is kept extends the window to the end of the stream. -/
theorem Windowed.push_suffix (h : f.Windowed bs) (hstate : f.state ≠ .sync1) (b : u8) :
    (f.push b).frame <:+ bs ++ [b] := by
  obtain ⟨front, rfl⟩ := h.suffix hstate
  exact ⟨front, (List.append_assoc front f.frame [b]).symm⟩

/-- One byte; when it completes a frame, the hunt starts again. -/
theorem Windowed.byte (h : f.Windowed bs) (b : u8) : (f.byte poll b).Windowed (bs ++ [b]) := by
  cases hstate : f.state with
  | sync1 =>
      simp only [Framer.byte, hstate]
      split
      · next hb =>
          subst hb
          exact ⟨fun _ => ⟨bs, rfl⟩, fun _ => rfl, by simp, by simp, by simp, by simp, by simp,
            by simp⟩
      · exact .of_sync1 hstate
  | sync2 =>
      simp only [Framer.byte, hstate]
      split
      · next hb =>
          subst hb
          have hframe := h.sync2 hstate
          refine ⟨fun _ => ?_, by simp, fun _ => ?_, fun _ => ?_, by simp, by simp, by simp,
            by simp⟩
          · exact h.push_suffix (by rw [hstate]; decide) ubxSyncChar2
          · simp [push, hframe]
          · simp [push, hframe]
      · exact .of_sync1 rfl
  | header =>
      have hpush := h.push_suffix (by rw [hstate]; decide) b
      have hsync : [ubxSyncChar1, ubxSyncChar2] <+: (f.push b).frame :=
        (h.sync (.inl hstate)).trans (List.prefix_append f.frame [b])
      have hlen := h.header_lt hstate
      simp only [Framer.byte, hstate]
      split_ifs with hsix hbogus
      · exact .of_sync1 rfl
      -- the length field is complete, and the frame fits the buffer
      · rw [not_or, not_lt, not_lt] at hbogus
        simp only [push_frame, List.length_append, List.length_singleton] at hsix
        refine ⟨fun _ => hpush, by simp, fun _ => hsync, by simp, fun _ => ?_, fun _ => ?_,
          fun _ => hbogus.1, fun _ => rfl⟩
        · simpa using hsix
        · simp only [push_frame, List.length_append, List.length_singleton]
          omega
      · refine ⟨fun _ => hpush, ?_, fun _ => hsync, fun _ => not_le.1 hsix, ?_, ?_, ?_, ?_⟩ <;>
          simp [hstate]
  | payload =>
      have hpush := h.push_suffix (by rw [hstate]; decide) b
      have hsync : [ubxSyncChar1, ubxSyncChar2] <+: (f.push b).frame :=
        (h.sync (.inr hstate)).trans (List.prefix_append f.frame [b])
      have hge := h.payload_ge hstate
      simp only [Framer.byte, hstate]
      split
      · exact .of_sync1 rfl
      · next hmore =>
          refine ⟨fun _ => hpush, by simp [hstate], fun _ => hsync, by simp [hstate], fun _ => ?_,
            fun _ => not_le.1 hmore, fun _ => h.fits hstate, fun _ => ?_⟩
          · simp only [push_frame, List.length_append, List.length_singleton]
            omega
          · rw [push_expectedLen, lengthField_push hge]
            exact h.length_eq hstate

/-- While nothing is decided, the frame is a window at the end of the stream. -/
theorem windowed (poll : UbxCfgPoll) (bs : List u8) (h : (start.bytes poll bs).done = .zero) :
    (start.bytes poll bs).Windowed bs := by
  induction bs using List.reverseRecOn with
  | nil => exact .of_sync1 rfl
  | append_singleton bs b ih =>
      rw [bytes_append] at h ⊢
      by_cases hdone : (start.bytes poll bs).done = .zero
      · rw [bytes_cons hdone]
        exact (ih hdone).byte b
      · rw [bytes_done hdone] at h
        exact absurd h hdone

/-- A byte that ends the poll completes a frame. -/
theorem byte_ends (h : f.Windowed bs) (hdone : f.done = .zero)
    (hends : (f.byte poll b).done ≠ .zero) :
    f.state = .payload ∧ f.expectedLen = (f.push b).frame.length ∧
      f.byte poll b = ((f.push b).complete poll).rehunt := by
  cases hstate : f.state with
  | sync1 =>
      exfalso
      revert hends
      simp only [Framer.byte, hstate]
      split <;> simp [hdone]
  | sync2 =>
      exfalso
      revert hends
      simp only [Framer.byte, hstate]
      split <;> simp [hdone, push]
  | header =>
      exfalso
      revert hends
      simp only [Framer.byte, hstate]
      split_ifs <;> simp [hdone, push, rehunt]
  | payload =>
      have hlt := h.payload_lt hstate
      by_cases hfull : f.expectedLen ≤ f.frame.length + 1
      · refine ⟨rfl, ?_, byte_last hstate hfull⟩
        simp only [push_frame, List.length_append, List.length_singleton]
        omega
      · rw [byte_payload hstate (not_le.1 hfull)] at hends
        exact absurd hdone hends

end Framer

/-! ### The end of a poll -/

/-- Some byte of the stream ends the poll, and `w` is the frame that it completes. -/
def EndsPoll (poll : UbxCfgPoll) (stream w : List u8) : Prop :=
  ∃ q b rest, stream = q ++ b :: rest ∧ (Framer.start.bytes poll q).done = .zero ∧
    ((Framer.start.bytes poll q).byte poll b).done ≠ .zero ∧
      w = (Framer.start.bytes poll q).frame ++ [b]

section Ends

variable {poll : UbxCfgPoll} {stream w w' : List u8}

/-- A decision falls at one byte of the stream. -/
theorem exists_end (h : (Framer.start.bytes poll stream).done ≠ .zero) :
    ∃ q b rest, stream = q ++ b :: rest ∧ (Framer.start.bytes poll q).done = .zero ∧
      (Framer.start.bytes poll q).byte poll b = Framer.start.bytes poll stream := by
  induction stream using List.reverseRecOn with
  | nil => exact absurd rfl h
  | append_singleton stream b ih =>
      rw [Framer.bytes_append] at h ⊢
      by_cases hdone : (Framer.start.bytes poll stream).done = .zero
      · exact ⟨stream, b, [], rfl, hdone, (Framer.bytes_cons hdone b []).symm⟩
      · obtain ⟨q, b', rest, rfl, hq, hbyte⟩ := ih hdone
        refine ⟨q, b', rest ++ [b], by simp, hq, ?_⟩
        rw [Framer.bytes_done hdone, hbyte]

/-- The frame is part of the stream. -/
theorem EndsPoll.infix (h : EndsPoll poll stream w) : w <:+: stream := by
  obtain ⟨q, b, rest, rfl, hdone, hends, rfl⟩ := h
  have hwin := Framer.windowed poll q hdone
  obtain ⟨hstate, -, -⟩ := Framer.byte_ends hwin hdone hends
  obtain ⟨front, hfront⟩ := hwin.push_suffix (by rw [hstate]; decide) b
  refine ⟨front, rest, ?_⟩
  rw [show front ++ ((Framer.start.bytes poll q).frame ++ [b]) = q ++ [b] from hfront,
    List.append_assoc, List.singleton_append]

/-- What follows the decision changes nothing. -/
theorem done_after_end {q : List u8} {b : u8} (hdone : (Framer.start.bytes poll q).done = .zero)
    (hends : ((Framer.start.bytes poll q).byte poll b).done ≠ .zero) (rest : List u8) :
    Framer.start.bytes poll (q ++ b :: rest) = (Framer.start.bytes poll q).byte poll b := by
  rw [Framer.bytes_append, Framer.bytes_cons hdone, Framer.bytes_done hends]

/-- When the poll has ended the hunt has started again. -/
theorem windowed_all (poll : UbxCfgPoll) (stream : List u8) :
    (Framer.start.bytes poll stream).Windowed stream := by
  by_cases hdone : (Framer.start.bytes poll stream).done = .zero
  · exact Framer.windowed poll stream hdone
  · obtain ⟨q, b, rest, -, hq, hbyte⟩ := exists_end hdone
    rw [← hbyte] at hdone ⊢
    obtain ⟨-, -, hcomplete⟩ := Framer.byte_ends (Framer.windowed poll q hq) hq hdone
    exact .of_sync1 (by rw [hcomplete]; rfl)

/-- A poll ends once. -/
theorem EndsPoll.unique (h : EndsPoll poll stream w) (h' : EndsPoll poll stream w') : w = w' := by
  obtain ⟨q, b, rest, rfl, hdone, hends, rfl⟩ := h
  obtain ⟨q', b', rest', heq, hdone', hends', rfl⟩ := h'
  rcases List.append_eq_append_iff.1 heq with ⟨mid, rfl, hmid⟩ | ⟨mid, rfl, hmid⟩
  · cases mid with
    | nil =>
        cases hmid
        rw [List.append_nil]
    | cons a mid =>
        cases hmid
        rw [done_after_end hdone hends] at hdone'
        exact absurd hdone' hends
  · cases mid with
    | nil =>
        cases hmid
        rw [List.append_nil]
    | cons a mid =>
        cases hmid
        rw [done_after_end hdone' hends'] at hdone
        exact absurd hdone hends'

end Ends

end ConfigEnv.Gps
