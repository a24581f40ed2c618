/-
Module: ConfigEnv.Gps.CfgTables
Layer: Gps
Purpose: The tables of polls in main.c, for the two receiver models. Every entry is a UBX frame with
  its length and checksum right; most entries for the M8 poll CFG-MSG and all but one for the M9
  poll CFG-VALGET, so that class and id do not tell an entry from the next.
Trusted boundary: none
Main exports: glUbxM8CfgPoll, glUbxM9CfgPoll, cfgTables_wellFormed
Open obligations: none
-/
import ConfigEnv.Gps.Ubx

namespace ConfigEnv.Gps

/-- An initializer of `struct ubx_cfg_poll`. -/
def cfgPoll (desc : String) (msg : List Nat) : UbxCfgPoll :=
  { desc := desc, msg := msg.map (BitVec.ofNat 8) }

/-- `gl_ubx_m8_cfg_poll`. -/
def glUbxM8CfgPoll : List UbxCfgPoll :=
  [cfgPoll "MON-VER" [0xB5, 0x62, 0x0A, 0x04, 0x00, 0x00, 0x0E, 0x34],
   cfgPoll "CFG-ANT" [0xB5, 0x62, 0x06, 0x13, 0x00, 0x00, 0x19, 0x51],
   cfgPoll "CFG-DAT" [0xB5, 0x62, 0x06, 0x06, 0x00, 0x00, 0x0C, 0x2A],
   cfgPoll "CFG-DGNSS" [0xB5, 0x62, 0x06, 0x70, 0x00, 0x00, 0x76, 0x68],
   cfgPoll "CFG-DOSC" [0xB5, 0x62, 0x06, 0x61, 0x00, 0x00, 0x67, 0x3B],
   cfgPoll "CFG-EKF" [0xB5, 0x62, 0x06, 0x12, 0x00, 0x00, 0x18, 0x4E],
   cfgPoll "CFG-ESFALG" [0xB5, 0x62, 0x06, 0x56, 0x00, 0x00, 0x5C, 0x1A],
   cfgPoll "CFG-ESFGWT" [0xB5, 0x62, 0x06, 0x29, 0x00, 0x00, 0x2F, 0x93],
   cfgPoll "CFG-ESRC" [0xB5, 0x62, 0x06, 0x60, 0x00, 0x00, 0x66, 0x38],
   cfgPoll "CFG-FXN" [0xB5, 0x62, 0x06, 0x0E, 0x00, 0x00, 0x14, 0x42],
   cfgPoll "CFG-GNSS" [0xB5, 0x62, 0x06, 0x3E, 0x00, 0x00, 0x44, 0xD2],
   cfgPoll "CFG-HNR" [0xB5, 0x62, 0x06, 0x5C, 0x00, 0x00, 0x62, 0x2C],
   cfgPoll "CFG-INF" [0xB5, 0x62, 0x06, 0x02, 0x01, 0x00, 0x00, 0x09, 0x29],
   cfgPoll "CFG-INF" [0xB5, 0x62, 0x06, 0x02, 0x01, 0x00, 0x01, 0x0A, 0x2A],
   cfgPoll "CFG-INF" [0xB5, 0x62, 0x06, 0x02, 0x01, 0x00, 0x03, 0x0C, 0x2C],
   cfgPoll "CFG-INF" [0xB5, 0x62, 0x06, 0x02, 0x01, 0x00, 0x0C, 0x15, 0x35],
   cfgPoll "CFG-INF" [0xB5, 0x62, 0x06, 0x02, 0x01, 0x00, 0x0D, 0x16, 0x36],
   cfgPoll "CFG-INF" [0xB5, 0x62, 0x06, 0x02, 0x01, 0x00, 0x0E, 0x17, 0x37],
   cfgPoll "CFG-INF" [0xB5, 0x62, 0x06, 0x02, 0x01, 0x00, 0x0F, 0x18, 0x38],
   cfgPoll "CFG-ITFM" [0xB5, 0x62, 0x06, 0x39, 0x00, 0x00, 0x3F, 0xC3],
   cfgPoll "CFG-LOGFILTER" [0xB5, 0x62, 0x06, 0x47, 0x00, 0x00, 0x4D, 0xED],
   cfgPoll "CFG-MSG" [0xB5, 0x62, 0x06, 0x01, 0x02, 0x00, 0x05, 0x01, 0x0F, 0x3C],
   cfgPoll "CFG-MSG" [0xB5, 0x62, 0x06, 0x01, 0x02, 0x00, 0x05, 0x00, 0x0E, 0x3B],
   cfgPoll "CFG-MSG" [0xB5, 0x62, 0x06, 0x01, 0x02, 0x00, 0x0B, 0x30, 0x44, 0x77],
   cfgPoll "CFG-MSG" [0xB5, 0x62, 0x06, 0x01, 0x02, 0x00, 0x0B, 0x32, 0x46, 0x79],
   cfgPoll "CFG-MSG" [0xB5, 0x62, 0x06, 0x01, 0x02, 0x00, 0x0B, 0x50, 0x64, 0x97],
   cfgPoll "CFG-MSG" [0xB5, 0x62, 0x06, 0x01, 0x02, 0x00, 0x0B, 0x33, 0x47, 0x7A],
   cfgPoll "CFG-MSG" [0xB5, 0x62, 0x06, 0x01, 0x02, 0x00, 0x0B, 0x31, 0x45, 0x78],
   cfgPoll "CFG-MSG" [0xB5, 0x62, 0x06, 0x01, 0x02, 0x00, 0x0B, 0x02, 0x16, 0x49],
   cfgPoll "CFG-MSG" [0xB5, 0x62, 0x06, 0x01, 0x02, 0x00, 0x0B, 0x01, 0x15, 0x48],
   cfgPoll "CFG-MSG" [0xB5, 0x62, 0x06, 0x01, 0x02, 0x00, 0x0B, 0x00, 0x14, 0x47],
   cfgPoll "CFG-MSG" [0xB5, 0x62, 0x06, 0x01, 0x02, 0x00, 0x10, 0x14, 0x2D, 0x65],
   cfgPoll "CFG-MSG" [0xB5, 0x62, 0x06, 0x01, 0x02, 0x00, 0x10, 0x04, 0x1D, 0x55],
   cfgPoll "CFG-MSG" [0xB5, 0x62, 0x06, 0x01, 0x02, 0x00, 0x10, 0x15, 0x2E, 0x66],
   cfgPoll "CFG-MSG" [0xB5, 0x62, 0x06, 0x01, 0x02, 0x00, 0x10, 0x02, 0x1B, 0x53],
   cfgPoll "CFG-MSG" [0xB5, 0x62, 0x06, 0x01, 0x02, 0x00, 0x10, 0x03, 0x1C, 0x54],
   cfgPoll "CFG-MSG" [0xB5, 0x62, 0x06, 0x01, 0x02, 0x00, 0x10, 0x10, 0x29, 0x61],
   cfgPoll "CFG-MSG" [0xB5, 0x62, 0x06, 0x01, 0x02, 0x00, 0x28, 0x01, 0x32, 0x82],
   cfgPoll "CFG-MSG" [0xB5, 0x62, 0x06, 0x01, 0x02, 0x00, 0x28, 0x02, 0x33, 0x83],
   cfgPoll "CFG-MSG" [0xB5, 0x62, 0x06, 0x01, 0x02, 0x00, 0x28, 0x00, 0x31, 0x81],
   cfgPoll "CFG-MSG" [0xB5, 0x62, 0x06, 0x01, 0x02, 0x00, 0x04, 0x04, 0x11, 0x3D],
   cfgPoll "CFG-MSG" [0xB5, 0x62, 0x06, 0x01, 0x02, 0x00, 0x04, 0x00, 0x0D, 0x39],
   cfgPoll "CFG-MSG" [0xB5, 0x62, 0x06, 0x01, 0x02, 0x00, 0x04, 0x02, 0x0F, 0x3B],
   cfgPoll "CFG-MSG" [0xB5, 0x62, 0x06, 0x01, 0x02, 0x00, 0x04, 0x03, 0x10, 0x3C],
   cfgPoll "CFG-MSG" [0xB5, 0x62, 0x06, 0x01, 0x02, 0x00, 0x04, 0x01, 0x0E, 0x3A],
   cfgPoll "CFG-MSG" [0xB5, 0x62, 0x06, 0x01, 0x02, 0x00, 0x21, 0x0E, 0x38, 0x81],
   cfgPoll "CFG-MSG" [0xB5, 0x62, 0x06, 0x01, 0x02, 0x00, 0x21, 0x08, 0x32, 0x7B],
   cfgPoll "CFG-MSG" [0xB5, 0x62, 0x06, 0x01, 0x02, 0x00, 0x21, 0x0F, 0x39, 0x82],
   cfgPoll "CFG-MSG" [0xB5, 0x62, 0x06, 0x01, 0x02, 0x00, 0x21, 0x0B, 0x35, 0x7E],
   cfgPoll "CFG-MSG" [0xB5, 0x62, 0x06, 0x01, 0x02, 0x00, 0x21, 0x0D, 0x37, 0x80],
   cfgPoll "CFG-MSG" [0xB5, 0x62, 0x06, 0x01, 0x02, 0x00, 0x13, 0x60, 0x7C, 0xB7],
   cfgPoll "CFG-MSG" [0xB5, 0x62, 0x06, 0x01, 0x02, 0x00, 0x13, 0x80, 0x9C, 0xD7],
   cfgPoll "CFG-MSG" [0xB5, 0x62, 0x06, 0x01, 0x02, 0x00, 0x13, 0x21, 0x3D, 0x78],
   cfgPoll "CFG-MSG" [0xB5, 0x62, 0x06, 0x01, 0x02, 0x00, 0x13, 0x10, 0x2C, 0x67],
   cfgPoll "CFG-MSG" [0xB5, 0x62, 0x06, 0x01, 0x02, 0x00, 0x0A, 0x36, 0x49, 0x7B],
   cfgPoll "CFG-MSG" [0xB5, 0x62, 0x06, 0x01, 0x02, 0x00, 0x0A, 0x0B, 0x1E, 0x50],
   cfgPoll "CFG-MSG" [0xB5, 0x62, 0x06, 0x01, 0x02, 0x00, 0x0A, 0x37, 0x4A, 0x7C],
   cfgPoll "CFG-MSG" [0xB5, 0x62, 0x06, 0x01, 0x02, 0x00, 0x0A, 0x09, 0x1C, 0x4E],
   cfgPoll "CFG-MSG" [0xB5, 0x62, 0x06, 0x01, 0x02, 0x00, 0x0A, 0x02, 0x15, 0x47],
   cfgPoll "CFG-MSG" [0xB5, 0x62, 0x06, 0x01, 0x02, 0x00, 0x0A, 0x06, 0x19, 0x4B],
   cfgPoll "CFG-MSG" [0xB5, 0x62, 0x06, 0x01, 0x02, 0x00, 0x0A, 0x35, 0x48, 0x7A],
   cfgPoll "CFG-MSG" [0xB5, 0x62, 0x06, 0x01, 0x02, 0x00, 0x0A, 0x38, 0x4B, 0x7D],
   cfgPoll "CFG-MSG" [0xB5, 0x62, 0x06, 0x01, 0x02, 0x00, 0x0A, 0x07, 0x1A, 0x4C],
   cfgPoll "CFG-MSG" [0xB5, 0x62, 0x06, 0x01, 0x02, 0x00, 0x0A, 0x21, 0x34, 0x66],
   cfgPoll "CFG-MSG" [0xB5, 0x62, 0x06, 0x01, 0x02, 0x00, 0x0A, 0x2E, 0x41, 0x73],
   cfgPoll "CFG-MSG" [0xB5, 0x62, 0x06, 0x01, 0x02, 0x00, 0x0A, 0x31, 0x44, 0x76],
   cfgPoll "CFG-MSG" [0xB5, 0x62, 0x06, 0x01, 0x02, 0x00, 0x0A, 0x39, 0x4C, 0x7E],
   cfgPoll "CFG-MSG" [0xB5, 0x62, 0x06, 0x01, 0x02, 0x00, 0x0A, 0x08, 0x1B, 0x4D],
   cfgPoll "CFG-MSG" [0xB5, 0x62, 0x06, 0x01, 0x02, 0x00, 0x01, 0x60, 0x6A, 0x93],
   cfgPoll "CFG-MSG" [0xB5, 0x62, 0x06, 0x01, 0x02, 0x00, 0x01, 0x05, 0x0F, 0x38],
   cfgPoll "CFG-MSG" [0xB5, 0x62, 0x06, 0x01, 0x02, 0x00, 0x01, 0x22, 0x2C, 0x55],
   cfgPoll "CFG-MSG" [0xB5, 0x62, 0x06, 0x01, 0x02, 0x00, 0x01, 0x36, 0x40, 0x69],
   cfgPoll "CFG-MSG" [0xB5, 0x62, 0x06, 0x01, 0x02, 0x00, 0x01, 0x31, 0x3B, 0x64],
   cfgPoll "CFG-MSG" [0xB5, 0x62, 0x06, 0x01, 0x02, 0x00, 0x01, 0x04, 0x0E, 0x37],
   cfgPoll "CFG-MSG" [0xB5, 0x62, 0x06, 0x01, 0x02, 0x00, 0x01, 0x3D, 0x47, 0x70],
   cfgPoll "CFG-MSG" [0xB5, 0x62, 0x06, 0x01, 0x02, 0x00, 0x01, 0x40, 0x4A, 0x73],
   cfgPoll "CFG-MSG" [0xB5, 0x62, 0x06, 0x01, 0x02, 0x00, 0x01, 0x61, 0x6B, 0x94],
   cfgPoll "CFG-MSG" [0xB5, 0x62, 0x06, 0x01, 0x02, 0x00, 0x01, 0x39, 0x43, 0x6C],
   cfgPoll "CFG-MSG" [0xB5, 0x62, 0x06, 0x01, 0x02, 0x00, 0x01, 0x13, 0x1D, 0x46],
   cfgPoll "CFG-MSG" [0xB5, 0x62, 0x06, 0x01, 0x02, 0x00, 0x01, 0x14, 0x1E, 0x47],
   cfgPoll "CFG-MSG" [0xB5, 0x62, 0x06, 0x01, 0x02, 0x00, 0x01, 0x28, 0x32, 0x5B],
   cfgPoll "CFG-MSG" [0xB5, 0x62, 0x06, 0x01, 0x02, 0x00, 0x01, 0x09, 0x13, 0x3C],
   cfgPoll "CFG-MSG" [0xB5, 0x62, 0x06, 0x01, 0x02, 0x00, 0x01, 0x34, 0x3E, 0x67],
   cfgPoll "CFG-MSG" [0xB5, 0x62, 0x06, 0x01, 0x02, 0x00, 0x01, 0x62, 0x6C, 0x95],
   cfgPoll "CFG-MSG" [0xB5, 0x62, 0x06, 0x01, 0x02, 0x00, 0x01, 0x01, 0x0B, 0x34],
   cfgPoll "CFG-MSG" [0xB5, 0x62, 0x06, 0x01, 0x02, 0x00, 0x01, 0x02, 0x0C, 0x35],
   cfgPoll "CFG-MSG" [0xB5, 0x62, 0x06, 0x01, 0x02, 0x00, 0x01, 0x17, 0x21, 0x4A],
   cfgPoll "CFG-MSG" [0xB5, 0x62, 0x06, 0x01, 0x02, 0x00, 0x01, 0x07, 0x11, 0x3A],
   cfgPoll "CFG-MSG" [0xB5, 0x62, 0x06, 0x01, 0x02, 0x00, 0x01, 0x3C, 0x46, 0x6F],
   cfgPoll "CFG-MSG" [0xB5, 0x62, 0x06, 0x01, 0x02, 0x00, 0x01, 0x35, 0x3F, 0x68],
   cfgPoll "CFG-MSG" [0xB5, 0x62, 0x06, 0x01, 0x02, 0x00, 0x01, 0x32, 0x3C, 0x65],
   cfgPoll "CFG-MSG" [0xB5, 0x62, 0x06, 0x01, 0x02, 0x00, 0x01, 0x43, 0x4D, 0x76],
   cfgPoll "CFG-MSG" [0xB5, 0x62, 0x06, 0x01, 0x02, 0x00, 0x01, 0x42, 0x4C, 0x75],
   cfgPoll "CFG-MSG" [0xB5, 0x62, 0x06, 0x01, 0x02, 0x00, 0x01, 0x06, 0x10, 0x39],
   cfgPoll "CFG-MSG" [0xB5, 0x62, 0x06, 0x01, 0x02, 0x00, 0x01, 0x03, 0x0D, 0x36],
   cfgPoll "CFG-MSG" [0xB5, 0x62, 0x06, 0x01, 0x02, 0x00, 0x01, 0x30, 0x3A, 0x63],
   cfgPoll "CFG-MSG" [0xB5, 0x62, 0x06, 0x01, 0x02, 0x00, 0x01, 0x3B, 0x45, 0x6E],
   cfgPoll "CFG-MSG" [0xB5, 0x62, 0x06, 0x01, 0x02, 0x00, 0x01, 0x24, 0x2E, 0x57],
   cfgPoll "CFG-MSG" [0xB5, 0x62, 0x06, 0x01, 0x02, 0x00, 0x01, 0x25, 0x2F, 0x58],
   cfgPoll "CFG-MSG" [0xB5, 0x62, 0x06, 0x01, 0x02, 0x00, 0x01, 0x23, 0x2D, 0x56],
   cfgPoll "CFG-MSG" [0xB5, 0x62, 0x06, 0x01, 0x02, 0x00, 0x01, 0x20, 0x2A, 0x53],
   cfgPoll "CFG-MSG" [0xB5, 0x62, 0x06, 0x01, 0x02, 0x00, 0x01, 0x26, 0x30, 0x59],
   cfgPoll "CFG-MSG" [0xB5, 0x62, 0x06, 0x01, 0x02, 0x00, 0x01, 0x63, 0x6D, 0x96],
   cfgPoll "CFG-MSG" [0xB5, 0x62, 0x06, 0x01, 0x02, 0x00, 0x01, 0x27, 0x31, 0x5A],
   cfgPoll "CFG-MSG" [0xB5, 0x62, 0x06, 0x01, 0x02, 0x00, 0x01, 0x64, 0x6E, 0x97],
   cfgPoll "CFG-MSG" [0xB5, 0x62, 0x06, 0x01, 0x02, 0x00, 0x01, 0x21, 0x2B, 0x54],
   cfgPoll "CFG-MSG" [0xB5, 0x62, 0x06, 0x01, 0x02, 0x00, 0x01, 0x11, 0x1B, 0x44],
   cfgPoll "CFG-MSG" [0xB5, 0x62, 0x06, 0x01, 0x02, 0x00, 0x01, 0x12, 0x1C, 0x45],
   cfgPoll "CFG-MSG" [0xB5, 0x62, 0x06, 0x01, 0x02, 0x00, 0x29, 0x22, 0x54, 0xA5],
   cfgPoll "CFG-MSG" [0xB5, 0x62, 0x06, 0x01, 0x02, 0x00, 0x29, 0x36, 0x68, 0xB9],
   cfgPoll "CFG-MSG" [0xB5, 0x62, 0x06, 0x01, 0x02, 0x00, 0x29, 0x04, 0x36, 0x87],
   cfgPoll "CFG-MSG" [0xB5, 0x62, 0x06, 0x01, 0x02, 0x00, 0x29, 0x3D, 0x6F, 0xC0],
   cfgPoll "CFG-MSG" [0xB5, 0x62, 0x06, 0x01, 0x02, 0x00, 0x29, 0x09, 0x3B, 0x8C],
   cfgPoll "CFG-MSG" [0xB5, 0x62, 0x06, 0x01, 0x02, 0x00, 0x29, 0x01, 0x33, 0x84],
   cfgPoll "CFG-MSG" [0xB5, 0x62, 0x06, 0x01, 0x02, 0x00, 0x29, 0x02, 0x34, 0x85],
   cfgPoll "CFG-MSG" [0xB5, 0x62, 0x06, 0x01, 0x02, 0x00, 0x29, 0x17, 0x49, 0x9A],
   cfgPoll "CFG-MSG" [0xB5, 0x62, 0x06, 0x01, 0x02, 0x00, 0x29, 0x07, 0x39, 0x8A],
   cfgPoll "CFG-MSG" [0xB5, 0x62, 0x06, 0x01, 0x02, 0x00, 0x29, 0x35, 0x67, 0xB8],
   cfgPoll "CFG-MSG" [0xB5, 0x62, 0x06, 0x01, 0x02, 0x00, 0x29, 0x32, 0x64, 0xB5],
   cfgPoll "CFG-MSG" [0xB5, 0x62, 0x06, 0x01, 0x02, 0x00, 0x29, 0x43, 0x75, 0xC6],
   cfgPoll "CFG-MSG" [0xB5, 0x62, 0x06, 0x01, 0x02, 0x00, 0x29, 0x42, 0x74, 0xC5],
   cfgPoll "CFG-MSG" [0xB5, 0x62, 0x06, 0x01, 0x02, 0x00, 0x29, 0x03, 0x35, 0x86],
   cfgPoll "CFG-MSG" [0xB5, 0x62, 0x06, 0x01, 0x02, 0x00, 0x29, 0x3B, 0x6D, 0xBE],
   cfgPoll "CFG-MSG" [0xB5, 0x62, 0x06, 0x01, 0x02, 0x00, 0x29, 0x24, 0x56, 0xA7],
   cfgPoll "CFG-MSG" [0xB5, 0x62, 0x06, 0x01, 0x02, 0x00, 0x29, 0x25, 0x57, 0xA8],
   cfgPoll "CFG-MSG" [0xB5, 0x62, 0x06, 0x01, 0x02, 0x00, 0x29, 0x23, 0x55, 0xA6],
   cfgPoll "CFG-MSG" [0xB5, 0x62, 0x06, 0x01, 0x02, 0x00, 0x29, 0x20, 0x52, 0xA3],
   cfgPoll "CFG-MSG" [0xB5, 0x62, 0x06, 0x01, 0x02, 0x00, 0x29, 0x26, 0x58, 0xA9],
   cfgPoll "CFG-MSG" [0xB5, 0x62, 0x06, 0x01, 0x02, 0x00, 0x29, 0x63, 0x95, 0xE6],
   cfgPoll "CFG-MSG" [0xB5, 0x62, 0x06, 0x01, 0x02, 0x00, 0x29, 0x27, 0x59, 0xAA],
   cfgPoll "CFG-MSG" [0xB5, 0x62, 0x06, 0x01, 0x02, 0x00, 0x29, 0x21, 0x53, 0xA4],
   cfgPoll "CFG-MSG" [0xB5, 0x62, 0x06, 0x01, 0x02, 0x00, 0x29, 0x11, 0x43, 0x94],
   cfgPoll "CFG-MSG" [0xB5, 0x62, 0x06, 0x01, 0x02, 0x00, 0x29, 0x12, 0x44, 0x95],
   cfgPoll "CFG-MSG" [0xB5, 0x62, 0x06, 0x01, 0x02, 0x00, 0x02, 0x30, 0x3B, 0x65],
   cfgPoll "CFG-MSG" [0xB5, 0x62, 0x06, 0x01, 0x02, 0x00, 0x02, 0x34, 0x3F, 0x69],
   cfgPoll "CFG-MSG" [0xB5, 0x62, 0x06, 0x01, 0x02, 0x00, 0x02, 0x31, 0x3C, 0x66],
   cfgPoll "CFG-MSG" [0xB5, 0x62, 0x06, 0x01, 0x02, 0x00, 0x02, 0x61, 0x6C, 0x96],
   cfgPoll "CFG-MSG" [0xB5, 0x62, 0x06, 0x01, 0x02, 0x00, 0x02, 0x14, 0x1F, 0x49],
   cfgPoll "CFG-MSG" [0xB5, 0x62, 0x06, 0x01, 0x02, 0x00, 0x02, 0x72, 0x7D, 0xA7],
   cfgPoll "CFG-MSG" [0xB5, 0x62, 0x06, 0x01, 0x02, 0x00, 0x02, 0x73, 0x7E, 0xA8],
   cfgPoll "CFG-MSG" [0xB5, 0x62, 0x06, 0x01, 0x02, 0x00, 0x02, 0x15, 0x20, 0x4A],
   cfgPoll "CFG-MSG" [0xB5, 0x62, 0x06, 0x01, 0x02, 0x00, 0x02, 0x10, 0x1B, 0x45],
   cfgPoll "CFG-MSG" [0xB5, 0x62, 0x06, 0x01, 0x02, 0x00, 0x02, 0x59, 0x64, 0x8E],
   cfgPoll "CFG-MSG" [0xB5, 0x62, 0x06, 0x01, 0x02, 0x00, 0x02, 0x32, 0x3D, 0x67],
   cfgPoll "CFG-MSG" [0xB5, 0x62, 0x06, 0x01, 0x02, 0x00, 0x02, 0x13, 0x1E, 0x48],
   cfgPoll "CFG-MSG" [0xB5, 0x62, 0x06, 0x01, 0x02, 0x00, 0x02, 0x11, 0x1C, 0x46],
   cfgPoll "CFG-MSG" [0xB5, 0x62, 0x06, 0x01, 0x02, 0x00, 0x02, 0x36, 0x41, 0x6B],
   cfgPoll "CFG-MSG" [0xB5, 0x62, 0x06, 0x01, 0x02, 0x00, 0x02, 0x33, 0x3E, 0x68],
   cfgPoll "CFG-MSG" [0xB5, 0x62, 0x06, 0x01, 0x02, 0x00, 0x02, 0x20, 0x2B, 0x55],
   cfgPoll "CFG-MSG" [0xB5, 0x62, 0x06, 0x01, 0x02, 0x00, 0x02, 0x74, 0x7F, 0xA9],
   cfgPoll "CFG-MSG" [0xB5, 0x62, 0x06, 0x01, 0x02, 0x00, 0x27, 0x0A, 0x3A, 0x89],
   cfgPoll "CFG-MSG" [0xB5, 0x62, 0x06, 0x01, 0x02, 0x00, 0x27, 0x10, 0x40, 0x8F],
   cfgPoll "CFG-MSG" [0xB5, 0x62, 0x06, 0x01, 0x02, 0x00, 0x27, 0x09, 0x39, 0x88],
   cfgPoll "CFG-MSG" [0xB5, 0x62, 0x06, 0x01, 0x02, 0x00, 0x27, 0x03, 0x33, 0x82],
   cfgPoll "CFG-MSG" [0xB5, 0x62, 0x06, 0x01, 0x02, 0x00, 0x0D, 0x11, 0x27, 0x5C],
   cfgPoll "CFG-MSG" [0xB5, 0x62, 0x06, 0x01, 0x02, 0x00, 0x0D, 0x16, 0x2C, 0x61],
   cfgPoll "CFG-MSG" [0xB5, 0x62, 0x06, 0x01, 0x02, 0x00, 0x0D, 0x13, 0x29, 0x5E],
   cfgPoll "CFG-MSG" [0xB5, 0x62, 0x06, 0x01, 0x02, 0x00, 0x0D, 0x04, 0x1A, 0x4F],
   cfgPoll "CFG-MSG" [0xB5, 0x62, 0x06, 0x01, 0x02, 0x00, 0x0D, 0x03, 0x19, 0x4E],
   cfgPoll "CFG-MSG" [0xB5, 0x62, 0x06, 0x01, 0x02, 0x00, 0x0D, 0x12, 0x28, 0x5D],
   cfgPoll "CFG-MSG" [0xB5, 0x62, 0x06, 0x01, 0x02, 0x00, 0x0D, 0x01, 0x17, 0x4C],
   cfgPoll "CFG-MSG" [0xB5, 0x62, 0x06, 0x01, 0x02, 0x00, 0x0D, 0x15, 0x2B, 0x60],
   cfgPoll "CFG-MSG" [0xB5, 0x62, 0x06, 0x01, 0x02, 0x00, 0x0D, 0x06, 0x1C, 0x51],
   cfgPoll "CFG-MSG" [0xB5, 0x62, 0x06, 0x01, 0x02, 0x00, 0x09, 0x14, 0x26, 0x57],
   cfgPoll "CFG-MSG" [0xB5, 0x62, 0x06, 0x01, 0x02, 0x00, 0xF0, 0x00, 0xF9, 0x11],
   cfgPoll "CFG-MSG" [0xB5, 0x62, 0x06, 0x01, 0x02, 0x00, 0xF0, 0x01, 0xFA, 0x12],
   cfgPoll "CFG-MSG" [0xB5, 0x62, 0x06, 0x01, 0x02, 0x00, 0xF0, 0x02, 0xFB, 0x13],
   cfgPoll "CFG-MSG" [0xB5, 0x62, 0x06, 0x01, 0x02, 0x00, 0xF0, 0x03, 0xFC, 0x14],
   cfgPoll "CFG-MSG" [0xB5, 0x62, 0x06, 0x01, 0x02, 0x00, 0xF0, 0x04, 0xFD, 0x15],
   cfgPoll "CFG-MSG" [0xB5, 0x62, 0x06, 0x01, 0x02, 0x00, 0xF0, 0x05, 0xFE, 0x16],
   cfgPoll "CFG-MSG" [0xB5, 0x62, 0x06, 0x01, 0x02, 0x00, 0xF0, 0x06, 0xFF, 0x17],
   cfgPoll "CFG-MSG" [0xB5, 0x62, 0x06, 0x01, 0x02, 0x00, 0xF0, 0x07, 0x00, 0x18],
   cfgPoll "CFG-MSG" [0xB5, 0x62, 0x06, 0x01, 0x02, 0x00, 0xF0, 0x08, 0x01, 0x19],
   cfgPoll "CFG-MSG" [0xB5, 0x62, 0x06, 0x01, 0x02, 0x00, 0xF0, 0x09, 0x02, 0x1A],
   cfgPoll "CFG-MSG" [0xB5, 0x62, 0x06, 0x01, 0x02, 0x00, 0xF0, 0x0A, 0x03, 0x1B],
   cfgPoll "CFG-MSG" [0xB5, 0x62, 0x06, 0x01, 0x02, 0x00, 0xF0, 0x0D, 0x06, 0x1E],
   cfgPoll "CFG-MSG" [0xB5, 0x62, 0x06, 0x01, 0x02, 0x00, 0xF0, 0x0E, 0x07, 0x1F],
   cfgPoll "CFG-MSG" [0xB5, 0x62, 0x06, 0x01, 0x02, 0x00, 0xF0, 0x0F, 0x08, 0x20],
   cfgPoll "CFG-MSG" [0xB5, 0x62, 0x06, 0x01, 0x02, 0x00, 0xF7, 0x00, 0x00, 0x1F],
   cfgPoll "CFG-MSG" [0xB5, 0x62, 0x06, 0x01, 0x02, 0x00, 0xF7, 0x01, 0x01, 0x20],
   cfgPoll "CFG-MSG" [0xB5, 0x62, 0x06, 0x01, 0x02, 0x00, 0xF7, 0x02, 0x02, 0x21],
   cfgPoll "CFG-MSG" [0xB5, 0x62, 0x06, 0x01, 0x02, 0x00, 0xF7, 0x04, 0x04, 0x23],
   cfgPoll "CFG-MSG" [0xB5, 0x62, 0x06, 0x01, 0x02, 0x00, 0xF7, 0x05, 0x05, 0x24],
   cfgPoll "CFG-MSG" [0xB5, 0x62, 0x06, 0x01, 0x02, 0x00, 0xF7, 0x08, 0x08, 0x27],
   cfgPoll "CFG-MSG" [0xB5, 0x62, 0x06, 0x01, 0x02, 0x00, 0xF7, 0x0D, 0x0D, 0x2C],
   cfgPoll "CFG-MSG" [0xB5, 0x62, 0x06, 0x01, 0x02, 0x00, 0xF1, 0x00, 0xFA, 0x13],
   cfgPoll "CFG-MSG" [0xB5, 0x62, 0x06, 0x01, 0x02, 0x00, 0xF1, 0x01, 0xFB, 0x14],
   cfgPoll "CFG-MSG" [0xB5, 0x62, 0x06, 0x01, 0x02, 0x00, 0xF1, 0x03, 0xFD, 0x16],
   cfgPoll "CFG-MSG" [0xB5, 0x62, 0x06, 0x01, 0x02, 0x00, 0xF1, 0x04, 0xFE, 0x17],
   cfgPoll "CFG-MSG" [0xB5, 0x62, 0x06, 0x01, 0x02, 0x00, 0xF5, 0x05, 0x03, 0x20],
   cfgPoll "CFG-MSG" [0xB5, 0x62, 0x06, 0x01, 0x02, 0x00, 0xF5, 0x4A, 0x48, 0x65],
   cfgPoll "CFG-MSG" [0xB5, 0x62, 0x06, 0x01, 0x02, 0x00, 0xF5, 0x4D, 0x4B, 0x68],
   cfgPoll "CFG-MSG" [0xB5, 0x62, 0x06, 0x01, 0x02, 0x00, 0xF5, 0x54, 0x52, 0x6F],
   cfgPoll "CFG-MSG" [0xB5, 0x62, 0x06, 0x01, 0x02, 0x00, 0xF5, 0x57, 0x55, 0x72],
   cfgPoll "CFG-MSG" [0xB5, 0x62, 0x06, 0x01, 0x02, 0x00, 0xF5, 0x5E, 0x5C, 0x79],
   cfgPoll "CFG-MSG" [0xB5, 0x62, 0x06, 0x01, 0x02, 0x00, 0xF5, 0x61, 0x5F, 0x7C],
   cfgPoll "CFG-MSG" [0xB5, 0x62, 0x06, 0x01, 0x02, 0x00, 0xF5, 0x7C, 0x7A, 0x97],
   cfgPoll "CFG-MSG" [0xB5, 0x62, 0x06, 0x01, 0x02, 0x00, 0xF5, 0x7F, 0x7D, 0x9A],
   cfgPoll "CFG-MSG" [0xB5, 0x62, 0x06, 0x01, 0x02, 0x00, 0xF5, 0xE6, 0xE4, 0x01],
   cfgPoll "CFG-MSG" [0xB5, 0x62, 0x06, 0x01, 0x02, 0x00, 0xF5, 0xFE, 0xFC, 0x19],
   cfgPoll "CFG-MSG" [0xB5, 0x62, 0x06, 0x01, 0x02, 0x00, 0xF5, 0xFD, 0xFB, 0x18],
   cfgPoll "CFG-NAV5" [0xB5, 0x62, 0x06, 0x24, 0x00, 0x00, 0x2A, 0x84],
   cfgPoll "CFG-NAVX5" [0xB5, 0x62, 0x06, 0x23, 0x00, 0x00, 0x29, 0x81],
   cfgPoll "CFG-NMEA" [0xB5, 0x62, 0x06, 0x17, 0x00, 0x00, 0x1D, 0x5D],
   cfgPoll "CFG-ODO" [0xB5, 0x62, 0x06, 0x1E, 0x00, 0x00, 0x24, 0x72],
   cfgPoll "CFG-PM" [0xB5, 0x62, 0x06, 0x32, 0x00, 0x00, 0x38, 0xAE],
   cfgPoll "CFG-PM2" [0xB5, 0x62, 0x06, 0x3B, 0x00, 0x00, 0x41, 0xC9],
   cfgPoll "CFG-PRT" [0xB5, 0x62, 0x06, 0x00, 0x01, 0x00, 0x00, 0x07, 0x21],
   cfgPoll "CFG-PRT" [0xB5, 0x62, 0x06, 0x00, 0x01, 0x00, 0x01, 0x08, 0x22],
   cfgPoll "CFG-PRT" [0xB5, 0x62, 0x06, 0x00, 0x01, 0x00, 0x02, 0x09, 0x23],
   cfgPoll "CFG-PRT" [0xB5, 0x62, 0x06, 0x00, 0x01, 0x00, 0x03, 0x0A, 0x24],
   cfgPoll "CFG-PRT" [0xB5, 0x62, 0x06, 0x00, 0x01, 0x00, 0x04, 0x0B, 0x25],
   cfgPoll "CFG-RATE" [0xB5, 0x62, 0x06, 0x08, 0x00, 0x00, 0x0E, 0x30],
   cfgPoll "CFG-RINV" [0xB5, 0x62, 0x06, 0x34, 0x00, 0x00, 0x3A, 0xB4],
   cfgPoll "CFG-RXM" [0xB5, 0x62, 0x06, 0x11, 0x00, 0x00, 0x17, 0x4B],
   cfgPoll "CFG-SBAS" [0xB5, 0x62, 0x06, 0x16, 0x00, 0x00, 0x1C, 0x5A],
   cfgPoll "CFG-SMGR" [0xB5, 0x62, 0x06, 0x62, 0x00, 0x00, 0x68, 0x3E],
   cfgPoll "CFG-TMODE" [0xB5, 0x62, 0x06, 0x1D, 0x00, 0x00, 0x23, 0x6F],
   cfgPoll "CFG-TMODE2" [0xB5, 0x62, 0x06, 0x3D, 0x00, 0x00, 0x43, 0xCF],
   cfgPoll "CFG-TMODE3" [0xB5, 0x62, 0x06, 0x71, 0x00, 0x00, 0x77, 0x6B],
   cfgPoll "CFG-TP" [0xB5, 0x62, 0x06, 0x07, 0x00, 0x00, 0x0D, 0x2D],
   cfgPoll "CFG-TP5" [0xB5, 0x62, 0x06, 0x31, 0x01, 0x00, 0x00, 0x38, 0xE5],
   cfgPoll "CFG-TP5" [0xB5, 0x62, 0x06, 0x31, 0x01, 0x00, 0x01, 0x39, 0xE6],
   cfgPoll "CFG-TXSLOT" [0xB5, 0x62, 0x06, 0x53, 0x00, 0x00, 0x59, 0x11],
   cfgPoll "CFG-USB" [0xB5, 0x62, 0x06, 0x1B, 0x00, 0x00, 0x21, 0x69]]

/-- `gl_ubx_m9_cfg_poll`. -/
def glUbxM9CfgPoll : List UbxCfgPoll :=
  [cfgPoll "MON-VER" [0xB5, 0x62, 0x0A, 0x04, 0x00, 0x00, 0x0E, 0x34],
   cfgPoll "CFG-VALGET" [0xB5, 0x62, 0x06, 0x8B, 0x08, 0x00, 0x00, 0x00, 0x00, 0x00,
     0x00, 0x00, 0xFF, 0x0F, 0xA7, 0x9E],
   cfgPoll "CFG-VALGET" [0xB5, 0x62, 0x06, 0x8B, 0x08, 0x00, 0x00, 0x00, 0x40, 0x00,
     0x00, 0x00, 0xFF, 0x0F, 0xE7, 0x1E],
   cfgPoll "CFG-VALGET" [0xB5, 0x62, 0x06, 0x8B, 0x08, 0x00, 0x00, 0x00, 0x80, 0x00,
     0x00, 0x00, 0xFF, 0x0F, 0x27, 0x9E],
   cfgPoll "CFG-VALGET" [0xB5, 0x62, 0x06, 0x8B, 0x08, 0x00, 0x00, 0x00, 0xC0, 0x00,
     0x00, 0x00, 0xFF, 0x0F, 0x67, 0x1E],
   cfgPoll "CFG-VALGET" [0xB5, 0x62, 0x06, 0x8B, 0x08, 0x00, 0x00, 0x00, 0x00, 0x01,
     0x00, 0x00, 0xFF, 0x0F, 0xA8, 0xA3],
   cfgPoll "CFG-VALGET" [0xB5, 0x62, 0x06, 0x8B, 0x08, 0x00, 0x00, 0x00, 0x40, 0x01,
     0x00, 0x00, 0xFF, 0x0F, 0xE8, 0x23],
   cfgPoll "CFG-VALGET" [0xB5, 0x62, 0x06, 0x8B, 0x08, 0x00, 0x00, 0x00, 0x80, 0x01,
     0x00, 0x00, 0xFF, 0x0F, 0x28, 0xA3],
   cfgPoll "CFG-VALGET" [0xB5, 0x62, 0x06, 0x8B, 0x08, 0x00, 0x00, 0x00, 0xC0, 0x01,
     0x00, 0x00, 0xFF, 0x0F, 0x68, 0x23],
   cfgPoll "CFG-VALGET" [0xB5, 0x62, 0x06, 0x8B, 0x08, 0x00, 0x00, 0x00, 0x00, 0x02,
     0x00, 0x00, 0xFF, 0x0F, 0xA9, 0xA8],
   cfgPoll "CFG-VALGET" [0xB5, 0x62, 0x06, 0x8B, 0x08, 0x00, 0x00, 0x00, 0x40, 0x02,
     0x00, 0x00, 0xFF, 0x0F, 0xE9, 0x28],
   cfgPoll "CFG-VALGET" [0xB5, 0x62, 0x06, 0x8B, 0x08, 0x00, 0x00, 0x00, 0x80, 0x02,
     0x00, 0x00, 0xFF, 0x0F, 0x29, 0xA8],
   cfgPoll "CFG-VALGET" [0xB5, 0x62, 0x06, 0x8B, 0x08, 0x00, 0x00, 0x00, 0xC0, 0x02,
     0x00, 0x00, 0xFF, 0x0F, 0x69, 0x28],
   cfgPoll "CFG-VALGET" [0xB5, 0x62, 0x06, 0x8B, 0x08, 0x00, 0x00, 0x00, 0x00, 0x03,
     0x00, 0x00, 0xFF, 0x0F, 0xAA, 0xAD],
   cfgPoll "CFG-VALGET" [0xB5, 0x62, 0x06, 0x8B, 0x08, 0x00, 0x00, 0x00, 0x40, 0x03,
     0x00, 0x00, 0xFF, 0x0F, 0xEA, 0x2D],
   cfgPoll "CFG-VALGET" [0xB5, 0x62, 0x06, 0x8B, 0x08, 0x00, 0x00, 0x00, 0x80, 0x03,
     0x00, 0x00, 0xFF, 0x0F, 0x2A, 0xAD],
   cfgPoll "CFG-VALGET" [0xB5, 0x62, 0x06, 0x8B, 0x08, 0x00, 0x00, 0x00, 0xC0, 0x03,
     0x00, 0x00, 0xFF, 0x0F, 0x6A, 0x2D],
   cfgPoll "CFG-VALGET" [0xB5, 0x62, 0x06, 0x8B, 0x08, 0x00, 0x00, 0x00, 0x00, 0x04,
     0x00, 0x00, 0xFF, 0x0F, 0xAB, 0xB2],
   cfgPoll "CFG-VALGET" [0xB5, 0x62, 0x06, 0x8B, 0x08, 0x00, 0x00, 0x00, 0x40, 0x04,
     0x00, 0x00, 0xFF, 0x0F, 0xEB, 0x32],
   cfgPoll "CFG-VALGET" [0xB5, 0x62, 0x06, 0x8B, 0x08, 0x00, 0x00, 0x00, 0x80, 0x04,
     0x00, 0x00, 0xFF, 0x0F, 0x2B, 0xB2],
   cfgPoll "CFG-VALGET" [0xB5, 0x62, 0x06, 0x8B, 0x08, 0x00, 0x00, 0x00, 0xC0, 0x04,
     0x00, 0x00, 0xFF, 0x0F, 0x6B, 0x32],
   cfgPoll "CFG-VALGET" [0xB5, 0x62, 0x06, 0x8B, 0x08, 0x00, 0x00, 0x00, 0x00, 0x05,
     0x00, 0x00, 0xFF, 0x0F, 0xAC, 0xB7],
   cfgPoll "CFG-VALGET" [0xB5, 0x62, 0x06, 0x8B, 0x08, 0x00, 0x00, 0x00, 0x40, 0x05,
     0x00, 0x00, 0xFF, 0x0F, 0xEC, 0x37]]

/-- A poll that the receiver takes: both sync characters, the length of the initializer, and the
checksum. -/
def UbxCfgPoll.WellFormed (poll : UbxCfgPoll) : Prop :=
  poll.msg.take 2 = [ubxSyncChar1, ubxSyncChar2] ∧ poll.pollLen.toNat = poll.msg.length ∧
    doChecksum (poll.msg.drop 2) (poll.msg.length - 2) = true

instance (poll : UbxCfgPoll) : Decidable poll.WellFormed :=
  inferInstanceAs (Decidable (_ ∧ _ ∧ _))

theorem cfgTables_wellFormed : ∀ poll ∈ glUbxM8CfgPoll ++ glUbxM9CfgPoll, poll.WellFormed := by
  decide +kernel

end ConfigEnv.Gps
