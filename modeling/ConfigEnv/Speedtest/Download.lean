/-
Module: ConfigEnv.Speedtest.Download
Layer: Speedtest
Purpose: The handler of /__down in server.js with its callbacks. The calls that it makes on the
  response are kept in a log. The environment answers each write with true or false, and makes a
  drain event only after a false. The other headers and the content of the chunks are left out.
Trusted boundary: parseInt, and when the stream of a response emits drain
Main exports: maxBytes, chunkSize, Action, writes, State, State.write, loop, pump, announced,
  handler, Event, downStep, drains
Open obligations: none
-/
import ConfigEnv.Lib.Run
import Mathlib.Data.Int.Notation
import Mathlib.Logic.Function.Iterate

namespace ConfigEnv.Speedtest

/-- The most that is sent. -/
def maxBytes : ℕ := 250 * 1024 * 1024

/-- The size of a chunk. -/
def chunkSize : ℕ := 256 * 1024

/-! ### The response -/

/-- What the handler does to the response. -/
inductive Action where
  | contentLength (n : ℕ)
  | write (size : ℕ)
  | onceDrain
  | ended
deriving DecidableEq, Repr

/-- The sizes of the chunks. -/
def writes (log : List Action) : List ℕ :=
  log.filterMap fun
    | .write size => some size
    | _ => none

/-- The response with its log, its listeners for drain and whether a drain is to come. -/
structure State where
  sent : ℕ
  log : List Action
  listeners : ℕ
  needDrain : Bool
deriving DecidableEq, Repr

/-- Before the first chunk. -/
def State.initial : State := { sent := 0, log := [], listeners := 0, needDrain := false }

/-- `res.write` of a chunk with its answer. -/
def State.write (s : State) (size : ℕ) (ok : Bool) : State :=
  { s with
    sent := s.sent + size
    log := s.log ++ [.write size]
    needDrain := s.needDrain || !ok }

/-! ### The handler -/

section Handler

variable (bytes : ℕ) (ok : ℕ → Bool)

/-- The loop of `pump`; `ok i` answers the write number `i`. -/
def loop (s : State) : State :=
  if s.sent < bytes then
    let size := min chunkSize (bytes - s.sent)
    let answer := ok (writes s.log).length
    if answer = true then loop (s.write size answer) else s.write size answer
  else s
termination_by bytes - s.sent
decreasing_by
  change bytes - (s.sent + min chunkSize (bytes - s.sent)) < bytes - s.sent
  have hsize : 0 < min chunkSize (bytes - s.sent) := Nat.lt_min.2 ⟨by decide, by omega⟩
  omega

/-- `pump`: write as long as there is room, then wait for `drain` or end. -/
def pump (s : State) : State :=
  let s := loop bytes ok s
  if s.sent < bytes then { s with log := s.log ++ [.onceDrain], listeners := s.listeners + 1 }
  else { s with log := s.log ++ [.ended] }

end Handler

/-- `bytes` of a request; what is no number is `none`. -/
def announced : Option ℤ → ℕ
  | none => 0
  | some bytes => if bytes < 0 then 0 else min bytes.toNat maxBytes

/-- The handler of a request. -/
def handler (ok : ℕ → Bool) (requested : Option ℤ) : State :=
  let bytes := announced requested
  if bytes = 0 then { State.initial with log := [.ended] }
  else pump bytes ok { State.initial with log := [.contentLength bytes] }

/-! ### Events -/

/-- A drain event, with the answers to the writes in it. -/
inductive Event where
  | drain (ok : ℕ → Bool)

/-- The event takes the listeners off and calls them; without a false before it there is none. -/
def downStep (bytes : ℕ) (s : State) : Event → Except Unit (State × Unit)
  | .drain ok =>
      if s.needDrain = true then
        .ok ((pump bytes ok)^[s.listeners] { s with listeners := 0, needDrain := false }, ())
      else .error ()

/-- The runs of the handler from one `drain` to the next. -/
def drains (bytes : ℕ) : Machine.Step State Event Unit := Machine.ofExcept (downStep bytes)

end ConfigEnv.Speedtest
