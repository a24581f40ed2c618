/-
Module: ConfigEnv.Usb.FindDevice
Layer: Usb
Purpose: How find_device_by_product writes the port path of a device, with a call of snprintf for
  each port. The offset of a call is an int that grows by the length a call would print; the size is
  what is left of the 16 characters, counted without a sign in 64 bits. The search for the device is
  left out.
Trusted boundary: libusb_get_port_numbers returns at most 8 ports
Main exports: u8, nul, PortPath, decimal, piece, pieces, Call, remaining, portLoop, portStr
Open obligations: none
-/
import ConfigEnv.Lib.CharArray
import Mathlib.Algebra.Ring.Nat

namespace ConfigEnv.Usb

/-- `uint8_t`. -/
abbrev u8 := BitVec 8

/-- The terminator of a string. -/
def nul : Char := '\x00'

/-- `port_path` as far as it is filled. -/
structure PortPath where
  ports : List u8
  length_le : ports.length ≤ 8
deriving DecidableEq, Repr

theorem nul_notMem_toDigits (n : ℕ) : nul ∉ Nat.toDigits 10 n :=
  fun h => absurd (Nat.isDigit_of_mem_toDigits (by decide) (by decide) h) (by decide)

/-- `%d` of a port. -/
def decimal (port : u8) : CString nul := ⟨Nat.toDigits 10 port.toNat, nul_notMem_toDigits _⟩

/-- What stands between two ports. -/
def dot : CString nul := ⟨['.'], by decide⟩

/-- What one call prints; there is a dot unless the port is the last. -/
def pieces : List u8 → List (CString nul)
  | [] => []
  | [port] => [decimal port]
  | port :: next :: ports => (decimal port).append dot :: pieces (next :: ports)

/-- The arguments of a call besides what it prints. -/
structure Call where
  offset : ℕ
  size : ℕ
deriving DecidableEq, Repr

/-- `sizeof(port_str) - offset`, which wraps around below zero. -/
def remaining (offset : ℕ) : ℕ := (16 + 2 ^ 64 - offset) % 2 ^ 64

/-- The loop from a call on: the calls that are made, and `port_str` behind them unless one leaves
the array. -/
def portLoop : List (CString nul) → ℕ → CharArray 16 Char →
    List Call × Except CharArray.Fault (CharArray 16 Char)
  | [], _, m => ([], .ok m)
  | p :: ps, offset, m =>
      let call : Call := { offset := offset, size := remaining offset }
      match m.snprintfAt nul offset call.size p with
      | .error e => ([call], .error e)
      | .ok m =>
          let r := portLoop ps (offset + p.1.length) m
          (call :: r.1, r.2)

/-- The loop that prints the ports of a path. -/
def portStr (path : PortPath) : List Call × Except CharArray.Fault (CharArray 16 Char) :=
  portLoop (pieces path.ports) 0 (CharArray.zeroed 16 nul)

end ConfigEnv.Usb
