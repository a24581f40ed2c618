/-
Module: ConfigEnv.TunVpn.Wire
Layer: TunVpn
Purpose: The datagram format that both ends of the tunnel share, and the memory it is read from and
  written to. `tun_pkg_t` is packed and is cast onto raw buffers, so a packet here is its header
  fields together with the memory that follows the header, whatever that memory holds. The bit
  fields of the second byte are laid out from the low end, as gcc does on the two targets of the
  Makefile; `seq` and `plen` are the values after `ntohs`.
Trusted boundary: none
Main exports: PkgHeader, TunPkg, Row, Shards, fecBuf, fecFlat, RecvMsg, recvmmsg, tunRead, TunWrite
Open obligations: none
-/
import Mathlib.Data.Fintype.Basic
import Mathlib.Data.List.GetD
import Mathlib.Data.List.OfFn
import Mathlib.Tactic.Common

namespace ConfigEnv.TunVpn

/-- A byte on the wire. -/
abbrev u8 := BitVec 8

/-- `uint16_t`. -/
abbrev u16 := BitVec 16

/-- `uint32_t`. -/
abbrev u32 := BitVec 32

/-! ### The constants of ustun.c and uctun.c -/

/-- `MAGIC_NUM`. -/
abbrev magicNum : u8 := 0x5A

/-- `BUFFER_SIZE`. -/
abbrev bufferSize : Nat := 1500

/-- `SEQ_MAP_SIZE`. -/
abbrev seqMapSize : Nat := 8192
/-- Seconds. -/
abbrev connTimeout : Int := 180

/-- `PKT_OFFSET`. -/
abbrev pktOffset : Nat := 8

/-- `UDP_WORKER`. -/
abbrev udpWorker : Nat := 2

/-- `PKG_FEC_ENCODE_MIN_LEN`. -/
abbrev pkgFecEncodeMinLen : Nat := 1200

/-- `GATEWAY_ID`. -/
abbrev gatewayId : u8 := 0x01

/-- `GATEWAY_START`. -/
abbrev gatewayStart : u8 := 0x80

/-- `GATEWAY_ID_MASK`. -/
abbrev gatewayIdMask : u8 := 0x7F

/-- `MAX_GW_APN`. -/
abbrev maxGwApn : Nat := 2

/-- `FEC_RS_K`. -/
abbrev fecRsK : Nat := 2

/-- `FEC_RS_N`. -/
abbrev fecRsN : Nat := 1

/-- `FEC_RS_T`. -/
abbrev fecRsT : Nat := 750
/-- `FEC_RS_K + FEC_RS_N`, which is also `UDP_SBATCH_SIZE`. -/
abbrev shardCount : Nat := fecRsK + fecRsN

instance : @NeZero Nat (@Zero.ofOfNat0 Nat (instOfNatNat 0)) udpWorker := ⟨Nat.succ_ne_zero 1⟩

/-! ### Header -/

/-- The eight bytes before the payload of `tun_pkg_t` and of `struct udp_packet_t`. -/
structure PkgHeader where
  magic : u8
  fecRs : BitVec 2
  fecIdx : BitVec 3
  fecNum : BitVec 3
  gw : u8
  apn : u8
  seq : u16
  plen : u16
deriving DecidableEq, Repr

/-- A header in zeroed storage. -/
def PkgHeader.zero : PkgHeader :=
  { magic := 0, fecRs := 0, fecIdx := 0, fecNum := 0, gw := 0, apn := 0, seq := 0, plen := 0 }

/-- The two bytes that `htons` leaves in memory. -/
def htonsBytes (x : u16) : List u8 := [x.extractLsb' 8 8, x.extractLsb' 0 8]

/-- `ntohs` of two bytes in memory. -/
def ntohsBytes (hi lo : u8) : u16 := hi ++ lo

/-- The eight bytes of a header. -/
def PkgHeader.toBytes (h : PkgHeader) : List u8 :=
  [h.magic, h.fecNum ++ h.fecIdx ++ h.fecRs, h.gw, h.apn] ++ htonsBytes h.seq ++ htonsBytes h.plen

/-- The header fields read through a `tun_pkg_t` pointer to `mem`. -/
def PkgHeader.ofBytes (mem : List u8) : PkgHeader :=
  { magic := mem.getD 0 0
    fecRs := (mem.getD 1 0).extractLsb' 0 2
    fecIdx := (mem.getD 1 0).extractLsb' 2 3
    fecNum := (mem.getD 1 0).extractLsb' 5 3
    gw := mem.getD 2 0
    apn := mem.getD 3 0
    seq := ntohsBytes (mem.getD 4 0) (mem.getD 5 0)
    plen := ntohsBytes (mem.getD 6 0) (mem.getD 7 0) }

@[simp] theorem PkgHeader.length_toBytes (h : PkgHeader) : h.toBytes.length = pktOffset := rfl

theorem ntohsBytes_htons (x : u16) :
    ntohsBytes (x.extractLsb' 8 8) (x.extractLsb' 0 8) = x := by
  refine BitVec.eq_of_getLsbD_eq fun i hi => ?_
  simp only [ntohsBytes, BitVec.getLsbD_append, BitVec.getLsbD_extractLsb']
  by_cases h : i < 8
  · simp [h]
  · have hlt : i - 8 < 8 := by omega
    have hsum : 8 + (i - 8) = i := by omega
    simp [h, hlt, hsum]

theorem fecByte_fields : ∀ (num idx : BitVec 3) (rs : BitVec 2),
    ((num ++ idx ++ rs : u8).extractLsb' 0 2 = rs) ∧
    ((num ++ idx ++ rs : u8).extractLsb' 2 3 = idx) ∧
    ((num ++ idx ++ rs : u8).extractLsb' 5 3 = num) := by
  decide

/-- Reading a header back from the memory it was stored in gives its fields. -/
theorem PkgHeader.ofBytes_toBytes (h : PkgHeader) (rest : List u8) :
    PkgHeader.ofBytes (h.toBytes ++ rest) = h := by
  obtain ⟨hrs, hidx, hnum⟩ := fecByte_fields h.fecNum h.fecIdx h.fecRs
  simp only [PkgHeader.ofBytes, PkgHeader.toBytes, htonsBytes, List.cons_append, List.nil_append,
    List.getD_cons_zero, List.getD_cons_succ, ntohsBytes_htons, hrs, hidx, hnum]

/-! ### Packets in memory -/

/-- A `tun_pkg_t` as seen through a pointer: the header and the memory behind it. -/
structure TunPkg where
  hdr : PkgHeader
  payload : List u8
deriving DecidableEq, Repr

/-- The cast `(tun_pkg_t *)mem`. -/
def TunPkg.ofBytes (mem : List u8) : TunPkg :=
  { hdr := PkgHeader.ofBytes mem, payload := mem.drop pktOffset }

/-- A package as it lies in memory. -/
def TunPkg.bytes (pkg : TunPkg) : List u8 := pkg.hdr.toBytes ++ pkg.payload

/-- A package in memory is read back as it is. -/
theorem TunPkg.ofBytes_bytes (pkg : TunPkg) : TunPkg.ofBytes pkg.bytes = pkg := by
  unfold TunPkg.ofBytes TunPkg.bytes
  rw [PkgHeader.ofBytes_toBytes, List.drop_left' pkg.hdr.length_toBytes]

/-- `sizeof` the payload union: `fec_buf` is the longer member. -/
abbrev payloadSize : Nat := shardCount * fecRsT

/-- The payload union in zeroed storage. -/
def zeroPayload : List u8 := List.replicate payloadSize 0

theorem length_zeroPayload : zeroPayload.length = payloadSize := List.length_replicate

/-- A row of `T` bytes, one shard. -/
abbrev Row (T : Nat) := Fin T → u8

/-- What an array of `n` row pointers points to. -/
abbrev Shards (n T : Nat) := Fin n → Row T

/-- `payload.fec_buf`, the same memory as `payload.buf` taken in rows. -/
def fecBuf (payload : List u8) : Shards shardCount fecRsT :=
  fun i k => payload.getD (fecRsT * i + k) 0

/-- A two-dimensional byte array read row after row. -/
def fecFlat {n T : Nat} (rows : Shards n T) : List u8 :=
  List.ofFn fun t : Fin (n * T) => rows t.divNat t.modNat

@[simp] theorem length_fecFlat {n T : Nat} (rows : Shards n T) : (fecFlat rows).length = n * T := by
  simp [fecFlat]

theorem getElem_fecFlat {n T : Nat} (rows : Shards n T) (t : Nat) (ht : t < (fecFlat rows).length) :
    (fecFlat rows)[t] = rows (Fin.divNat (n := T) (m := n) ⟨t, by simpa using ht⟩)
      (Fin.modNat (n := T) (m := n) ⟨t, by simpa using ht⟩) := by
  simp [fecFlat]

/-- Rows taken out of a flattened array are the rows. -/
theorem fecBuf_fecFlat (rows : Shards shardCount fecRsT) : fecBuf (fecFlat rows) = rows := by
  funext i k
  have hlt : fecRsT * i.val + k.val < (fecFlat rows).length := by
    have hi := i.isLt
    have hk := k.isLt
    simp only [length_fecFlat, shardCount, fecRsK, fecRsN, fecRsT] at hi hk ⊢
    omega
  unfold fecBuf
  rw [List.getD_eq_getElem _ _ hlt, getElem_fecFlat]
  congr 1
  · refine Fin.ext ?_
    have hk := k.isLt
    simp only [Fin.coe_divNat, fecRsT] at hk ⊢
    omega
  · refine Fin.ext ?_
    have hk := k.isLt
    simp only [Fin.coe_modNat, fecRsT] at hk ⊢
    omega

/-! ### The TUN device and the sockets -/

/-- `read(tun_fd, payload.buf, sizeof(payload.buf))` of the packet `p`: the rest of the storage
keeps what an earlier packet left. -/
def tunRead (payload p : List u8) : List u8 := p ++ payload.drop p.length

/-- A slot of `udp_rbuf` after `recvmmsg`: the storage behind `iov_base`, and `msg_len`. -/
structure RecvMsg where
  buffer : List u8
  msgLen : Nat
deriving DecidableEq, Repr

/-- `recvmmsg` of the datagram `d` into a slot that held `old`.  `udp_rbuf_init` sets `iov_len` to
`sizeof(buffer[j])`; a longer datagram is cut there. -/
def recvmmsg (old d : List u8) : RecvMsg :=
  { buffer := d.take bufferSize ++ old.drop d.length
    msgLen := min d.length bufferSize }

/-- `write(tun_fd, pbuf, plen)`: the memory from `pbuf` on, and the count. -/
structure TunWrite where
  pbuf : List u8
  plen : Nat
deriving DecidableEq, Repr

/-- What the device receives. -/
def TunWrite.bytes (w : TunWrite) : List u8 := w.pbuf.take w.plen

end ConfigEnv.TunVpn
