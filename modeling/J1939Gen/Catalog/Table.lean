import J1939Gen.Lib.Bitmask

/-!
# The generated signal and PGN catalog

The tables of `MID/j1939_signal_definitions.c` and
`MID/j1939_customer_profiles.c`, record by record, with the lookups of the
same files. Columns no modelled function reads (scale, control kind, minimum
interval, transmission mode, change threshold) are left out.
-/

namespace J1939Gen

/-- `special_codec` (`j1939_signal_definitions.h:77-79`). -/
inductive SpecialCodec
  | none
  | asciiBlob
deriving DecidableEq, Repr, Inhabited

/-- `J1939_Catalog_Signal_t`: one record per catalog index. -/
structure Signal where
  rawMin : UInt32
  rawMax : UInt32
  spn : UInt32
  signalKey : UInt16
  startBit : UInt16
  bitLength : UInt16
  pgnIndex : ℕ
  flags : UInt8
  specialCodec : SpecialCodec
deriving DecidableEq, Repr, Inhabited

/-- `J1939_Catalog_PGN_t`: one record per PGN, ascending by PGN. -/
structure PgnRecord where
  pgn : UInt32
  firstSignal : ℕ
  payloadLength : UInt16
  periodMs : UInt16
  signalCount : ℕ
  priority : UInt8
  sourceAddress : UInt8
  flags : UInt8
deriving DecidableEq, Repr, Inhabited

/-- `J1939_CATALOG_CRC32`. -/
def catalogCrc32 : UInt32 := 0xF155BBF0

/-- `J1939_CATALOG_SIGNAL_COUNT`. -/
abbrev signalCount : ℕ := 179

/-- `J1939_CATALOG_PGN_COUNT`. -/
abbrev pgnCount : ℕ := 60

/-- `J1939_CATALOG_ACTIVE_MASK_BYTES`. -/
abbrev activeMaskBytes : ℕ := 23

/-- `J1939_CATALOG_MAX_PAYLOAD_BYTES`. -/
abbrev maxPayloadBytes : ℕ := 200

/-- `J1939_CATALOG_KEY_MIN`. -/
def keyMin : UInt16 := 1

/-- `J1939_CATALOG_KEY_MAX`. -/
def keyMax : UInt16 := 179

/-- `J1939_VIN_TX_BYTES`. -/
def vinTxBytes : UInt16 := 21

/-- `J1939_VIN_TERMINATOR`, `'*'`. -/
def vinTerminator : UInt8 := 0x2A

/-- `J1939_CAT_SIG_GLOBAL_CONTROL`. -/
def sigGlobalControl : UInt8 := 0x01

/-- `J1939_CAT_SIG_BLOB`. -/
def sigBlob : UInt8 := 0x02

/-- `J1939_CAT_PGN_REQUIRES_TP`. -/
def pgnRequiresTp : UInt8 := 0x01

/-- `J1939_CAT_PGN_VARIABLE_LENGTH`. -/
def pgnVariableLength : UInt8 := 0x02

/-- `J1939_Catalog_Signals`: raw_min, raw_max, spn, key, start_bit, bits,
    pgn_idx, flags, codec. -/
def catalogSignals : List Signal := [
  ⟨0, 3, 5113, 113, 0, 2, 0, 0x00, .none⟩,
  ⟨0, 3, 5114, 114, 8, 2, 0, 0x00, .none⟩,
  ⟨0, 3, 1856, 141, 30, 2, 1, 0x00, .none⟩,
  ⟨0, 15, 900, 84, 0, 4, 2, 0x00, .none⟩,
  ⟨0, 250, 520, 85, 8, 8, 2, 0x01, .none⟩,
  ⟨0, 250, 1715, 86, 40, 8, 2, 0x01, .none⟩,
  ⟨0, 250, 1717, 87, 56, 8, 2, 0x01, .none⟩,
  ⟨0, 3, 563, 122, 4, 2, 3, 0x00, .none⟩,
  ⟨0, 3, 1121, 123, 6, 2, 3, 0x00, .none⟩,
  ⟨0, 250, 521, 124, 8, 8, 3, 0x01, .none⟩,
  ⟨0, 255, 1481, 125, 48, 8, 3, 0x00, .none⟩,
  ⟨0, 3, 2911, 126, 58, 2, 3, 0x00, .none⟩,
  ⟨0, 3, 574, 74, 4, 2, 4, 0x00, .none⟩,
  ⟨0, 250, 522, 75, 24, 8, 4, 0x01, .none⟩,
  ⟨0, 3, 558, 94, 0, 2, 5, 0x00, .none⟩,
  ⟨0, 3, 559, 95, 2, 2, 5, 0x00, .none⟩,
  ⟨0, 3, 1437, 96, 4, 2, 5, 0x00, .none⟩,
  ⟨0, 250, 91, 97, 8, 8, 5, 0x01, .none⟩,
  ⟨0, 250, 92, 98, 16, 8, 5, 0x01, .none⟩,
  ⟨0, 250, 29, 99, 32, 8, 5, 0x01, .none⟩,
  ⟨0, 15, 899, 100, 0, 4, 6, 0x00, .none⟩,
  ⟨0, 250, 512, 101, 8, 8, 6, 0x01, .none⟩,
  ⟨0, 250, 513, 102, 16, 8, 6, 0x01, .none⟩,
  ⟨0, 64255, 190, 103, 24, 16, 6, 0x01, .none⟩,
  ⟨0, 15, 1675, 104, 48, 4, 6, 0x00, .none⟩,
  ⟨0, 250, 2432, 105, 56, 8, 6, 0x01, .none⟩,
  ⟨0, 250, 524, 71, 0, 8, 7, 0x01, .none⟩,
  ⟨0, 64255, 526, 72, 8, 16, 7, 0x01, .none⟩,
  ⟨0, 250, 523, 73, 24, 8, 7, 0x01, .none⟩,
  ⟨0, 64254, 1807, 12, 0, 16, 8, 0x05, .none⟩,
  ⟨0, 64255, 1808, 13, 24, 16, 8, 0x09, .none⟩,
  ⟨0, 64254, 1809, 14, 40, 16, 8, 0x01, .none⟩,
  ⟨0, 250, 1810, 15, 56, 8, 8, 0x01, .none⟩,
  ⟨0, 255, 928, 83, 16, 8, 9, 0x04, .none⟩,
  ⟨0, 64254, 1807, 34, 0, 16, 10, 0x05, .none⟩,
  ⟨0, 4211081215, 5053, 63, 0, 32, 11, 0x01, .none⟩,
  ⟨0, 4211081215, 5054, 64, 32, 32, 11, 0x01, .none⟩,
  ⟨0, 3, 4952, 156, 0, 2, 12, 0x00, .none⟩,
  ⟨0, 3, 4953, 157, 2, 2, 12, 0x00, .none⟩,
  ⟨0, 3, 4962, 158, 20, 2, 12, 0x00, .none⟩,
  ⟨0, 250, 4196, 106, 8, 8, 13, 0x01, .none⟩,
  ⟨0, 250, 4076, 76, 0, 8, 14, 0x01, .none⟩,
  ⟨0, 64255, 3467, 66, 16, 16, 15, 0x01, .none⟩,
  ⟨0, 3, 3948, 38, 48, 2, 16, 0x00, .none⟩,
  ⟨0, 3, 3412, 133, 0, 2, 17, 0x00, .none⟩,
  ⟨0, 3, 3413, 134, 2, 2, 17, 0x00, .none⟩,
  ⟨0, 3, 3414, 135, 4, 2, 17, 0x00, .none⟩,
  ⟨0, 3, 3415, 136, 6, 2, 17, 0x00, .none⟩,
  ⟨0, 3, 3416, 137, 8, 2, 17, 0x00, .none⟩,
  ⟨0, 3, 3417, 138, 10, 2, 17, 0x00, .none⟩,
  ⟨0, 15, 2876, 39, 8, 4, 18, 0x00, .none⟩,
  ⟨0, 3, 2875, 40, 12, 2, 18, 0x00, .none⟩,
  ⟨0, 3, 2403, 47, 0, 2, 19, 0x00, .none⟩,
  ⟨0, 3, 2369, 48, 12, 2, 19, 0x00, .none⟩,
  ⟨0, 3, 2367, 49, 14, 2, 19, 0x00, .none⟩,
  ⟨0, 250, 1761, 162, 0, 8, 20, 0x01, .none⟩,
  ⟨0, 250, 3031, 163, 8, 8, 20, 0x01, .none⟩,
  ⟨0, 64255, 3532, 164, 16, 16, 20, 0x01, .none⟩,
  ⟨0, 3, 1711, 67, 2, 2, 21, 0x00, .none⟩,
  ⟨0, 3, 1710, 68, 4, 2, 21, 0x00, .none⟩,
  ⟨0, 64255, 242, 35, 8, 16, 22, 0x09, .none⟩,
  ⟨0, 64255, 1637, 77, 16, 16, 23, 0x09, .none⟩,
  ⟨0, 15, 1617, 24, 8, 4, 24, 0x00, .none⟩,
  ⟨0, 3, 1614, 25, 14, 2, 24, 0x00, .none⟩,
  ⟨0, 15, 1618, 26, 16, 4, 24, 0x00, .none⟩,
  ⟨0, 3, 1622, 27, 24, 2, 24, 0x00, .none⟩,
  ⟨0, 3, 1621, 28, 26, 2, 24, 0x00, .none⟩,
  ⟨0, 3, 1620, 29, 28, 2, 24, 0x00, .none⟩,
  ⟨0, 3, 1619, 30, 30, 2, 24, 0x00, .none⟩,
  ⟨0, 64255, 1623, 31, 32, 16, 24, 0x01, .none⟩,
  ⟨0, 64255, 1624, 32, 48, 16, 24, 0x01, .none⟩,
  ⟨0, 64255, 1592, 59, 0, 16, 25, 0x01, .none⟩,
  ⟨0, 64255, 1593, 60, 16, 16, 25, 0x01, .none⟩,
  ⟨0, 64255, 1594, 61, 32, 16, 25, 0x01, .none⟩,
  ⟨0, 64255, 1595, 62, 48, 16, 25, 0x01, .none⟩,
  ⟨0, 250, 1586, 172, 0, 8, 26, 0x01, .none⟩,
  ⟨0, 250, 1587, 173, 8, 8, 26, 0x01, .none⟩,
  ⟨0, 250, 1588, 174, 16, 8, 26, 0x01, .none⟩,
  ⟨0, 7, 1590, 175, 24, 3, 26, 0x00, .none⟩,
  ⟨0, 7, 1589, 176, 27, 3, 26, 0x00, .none⟩,
  ⟨0, 3, 1798, 177, 48, 2, 26, 0x00, .none⟩,
  ⟨0, 3, 1797, 178, 50, 2, 26, 0x00, .none⟩,
  ⟨0, 64255, 1585, 139, 0, 16, 27, 0x01, .none⟩,
  ⟨0, 64255, 1760, 140, 16, 16, 27, 0x01, .none⟩,
  ⟨0, 64255, 444, 4, 0, 16, 28, 0x01, .none⟩,
  ⟨0, 64255, 1241, 88, 32, 16, 29, 0x01, .none⟩,
  ⟨0, 64255, 1135, 78, 0, 16, 30, 0x09, .none⟩,
  ⟨0, 64255, 1127, 51, 0, 16, 31, 0x01, .none⟩,
  ⟨0, 64255, 1128, 52, 16, 16, 31, 0x01, .none⟩,
  ⟨0, 64255, 1129, 53, 32, 16, 31, 0x01, .none⟩,
  ⟨0, 64255, 1130, 54, 48, 16, 31, 0x01, .none⟩,
  ⟨0, 250, 1087, 169, 16, 8, 32, 0x01, .none⟩,
  ⟨0, 250, 1088, 170, 24, 8, 32, 0x01, .none⟩,
  ⟨0, 15, 977, 69, 8, 4, 33, 0x00, .none⟩,
  ⟨0, 64255, 1639, 70, 16, 16, 33, 0x01, .none⟩,
  ⟨0, 64255, 904, 115, 0, 16, 34, 0x01, .none⟩,
  ⟨0, 250, 905, 116, 16, 8, 34, 0x01, .none⟩,
  ⟨0, 250, 906, 117, 24, 8, 34, 0x01, .none⟩,
  ⟨0, 250, 907, 118, 32, 8, 34, 0x01, .none⟩,
  ⟨0, 250, 908, 119, 40, 8, 34, 0x01, .none⟩,
  ⟨0, 250, 909, 120, 48, 8, 34, 0x01, .none⟩,
  ⟨0, 250, 910, 121, 56, 8, 34, 0x01, .none⟩,
  ⟨0, 4211081, 917, 10, 0, 32, 35, 0x09, .none⟩,
  ⟨0, 4211081, 918, 11, 32, 32, 35, 0x09, .none⟩,
  ⟨0, 3, 5108, 108, 0, 2, 36, 0x00, .none⟩,
  ⟨0, 3, 5109, 109, 6, 2, 36, 0x00, .none⟩,
  ⟨0, 15, 5110, 110, 8, 4, 36, 0x00, .none⟩,
  ⟨0, 15, 5111, 111, 12, 4, 36, 0x00, .none⟩,
  ⟨0, 250, 241, 112, 32, 8, 36, 0x09, .none⟩,
  ⟨0, 3, 623, 127, 2, 2, 37, 0x00, .none⟩,
  ⟨0, 3, 624, 128, 4, 2, 37, 0x00, .none⟩,
  ⟨0, 4211081215, 235, 50, 32, 32, 38, 0x01, .none⟩,
  ⟨0, 250, 514, 91, 0, 8, 39, 0x01, .none⟩,
  ⟨0, 250, 2978, 92, 32, 8, 39, 0x01, .none⟩,
  ⟨0, 64255, 3236, 93, 40, 16, 39, 0x01, .none⟩,
  ⟨0, 4211081215, 244, 16, 0, 32, 40, 0x01, .none⟩,
  ⟨0, 4211081215, 245, 17, 32, 32, 40, 0x01, .none⟩,
  ⟨0, 15, 901, 36, 0, 4, 41, 0x00, .none⟩,
  ⟨0, 64255, 556, 37, 128, 16, 41, 0x01, .none⟩,
  ⟨0, 64255, 544, 107, 152, 16, 42, 0x01, .none⟩,
  ⟨0, 3, 985, 33, 16, 2, 43, 0x00, .none⟩,
  ⟨0, 4211081215, 247, 65, 0, 32, 44, 0x01, .none⟩,
  ⟨0, 250, 959, 18, 0, 8, 45, 0x01, .none⟩,
  ⟨0, 250, 960, 19, 8, 8, 45, 0x01, .none⟩,
  ⟨0, 250, 961, 20, 16, 8, 45, 0x01, .none⟩,
  ⟨0, 250, 963, 21, 24, 8, 45, 0x01, .none⟩,
  ⟨0, 250, 962, 22, 32, 8, 45, 0x01, .none⟩,
  ⟨0, 250, 964, 23, 40, 8, 45, 0x01, .none⟩,
  ⟨0, 4211081215, 182, 45, 0, 32, 46, 0x01, .none⟩,
  ⟨0, 4211081215, 250, 46, 32, 32, 46, 0x01, .none⟩,
  ⟨0, 255, 928, 1, 0, 8, 47, 0x04, .none⟩,
  ⟨0, 64255, 582, 2, 8, 16, 47, 0x01, .none⟩,
  ⟨0, 255, 237, 3, 0, 1600, 48, 0x02, .asciiBlob⟩,
  ⟨0, 250, 110, 79, 0, 8, 49, 0x01, .none⟩,
  ⟨0, 250, 174, 80, 8, 8, 49, 0x01, .none⟩,
  ⟨0, 64255, 175, 81, 16, 16, 49, 0x09, .none⟩,
  ⟨0, 250, 52, 82, 48, 8, 49, 0x01, .none⟩,
  ⟨0, 250, 98, 89, 16, 8, 50, 0x01, .none⟩,
  ⟨0, 250, 100, 90, 24, 8, 50, 0x01, .none⟩,
  ⟨0, 3, 70, 142, 2, 2, 51, 0x00, .none⟩,
  ⟨0, 3, 3807, 143, 6, 2, 51, 0x00, .none⟩,
  ⟨0, 64255, 84, 144, 8, 16, 51, 0x01, .none⟩,
  ⟨0, 3, 595, 145, 24, 2, 51, 0x00, .none⟩,
  ⟨0, 3, 596, 146, 26, 2, 51, 0x00, .none⟩,
  ⟨0, 3, 597, 147, 28, 2, 51, 0x00, .none⟩,
  ⟨0, 3, 598, 148, 30, 2, 51, 0x00, .none⟩,
  ⟨0, 3, 599, 149, 32, 2, 51, 0x00, .none⟩,
  ⟨0, 3, 600, 150, 34, 2, 51, 0x00, .none⟩,
  ⟨0, 3, 601, 151, 36, 2, 51, 0x00, .none⟩,
  ⟨0, 3, 602, 152, 38, 2, 51, 0x00, .none⟩,
  ⟨0, 250, 86, 153, 40, 8, 51, 0x01, .none⟩,
  ⟨0, 31, 976, 154, 48, 5, 51, 0x00, .none⟩,
  ⟨0, 7, 527, 155, 53, 3, 51, 0x00, .none⟩,
  ⟨0, 64255, 183, 41, 0, 16, 52, 0x01, .none⟩,
  ⟨0, 64255, 184, 42, 16, 16, 52, 0x09, .none⟩,
  ⟨0, 64255, 185, 43, 32, 16, 52, 0x09, .none⟩,
  ⟨0, 250, 51, 44, 48, 8, 52, 0x01, .none⟩,
  ⟨0, 250, 108, 165, 0, 8, 53, 0x01, .none⟩,
  ⟨0, 64255, 170, 166, 8, 16, 53, 0x09, .none⟩,
  ⟨0, 64255, 171, 167, 24, 16, 53, 0x09, .none⟩,
  ⟨0, 250, 172, 168, 40, 8, 53, 0x01, .none⟩,
  ⟨0, 250, 102, 55, 8, 8, 54, 0x01, .none⟩,
  ⟨0, 250, 105, 56, 16, 8, 54, 0x01, .none⟩,
  ⟨0, 250, 106, 57, 24, 8, 54, 0x01, .none⟩,
  ⟨0, 64255, 173, 58, 40, 16, 54, 0x09, .none⟩,
  ⟨0, 250, 114, 5, 0, 8, 55, 0x01, .none⟩,
  ⟨0, 250, 115, 6, 8, 8, 55, 0x01, .none⟩,
  ⟨0, 64255, 167, 7, 16, 16, 55, 0x01, .none⟩,
  ⟨0, 64255, 168, 8, 32, 16, 55, 0x01, .none⟩,
  ⟨0, 64255, 158, 9, 48, 16, 55, 0x01, .none⟩,
  ⟨0, 255, 930, 171, 8, 8, 56, 0x00, .none⟩,
  ⟨0, 250, 116, 159, 0, 8, 57, 0x01, .none⟩,
  ⟨0, 250, 117, 160, 8, 8, 57, 0x01, .none⟩,
  ⟨0, 250, 118, 161, 16, 8, 57, 0x01, .none⟩,
  ⟨0, 250, 96, 129, 8, 8, 58, 0x01, .none⟩,
  ⟨0, 250, 99, 130, 24, 8, 58, 0x01, .none⟩,
  ⟨0, 64255, 169, 131, 32, 16, 58, 0x09, .none⟩,
  ⟨0, 250, 38, 132, 48, 8, 58, 0x01, .none⟩,
  ⟨0, 3, 5179, 179, 12, 2, 59, 0x00, .none⟩]

/-- `J1939_Catalog_PGNs`: pgn, first, length, period, count, prio, sa, flags. -/
def catalogPgns : List PgnRecord := [
  ⟨0x02C8, 0, 8, 10, 2, 6, 0x0B, 0x00⟩,
  ⟨0xE000, 2, 8, 1000, 1, 6, 0x00, 0x00⟩,
  ⟨0xF000, 3, 8, 100, 4, 3, 0x00, 0x00⟩,
  ⟨0xF001, 7, 8, 100, 5, 6, 0x0B, 0x00⟩,
  ⟨0xF002, 12, 8, 10, 2, 6, 0x03, 0x00⟩,
  ⟨0xF003, 14, 8, 50, 6, 3, 0x00, 0x00⟩,
  ⟨0xF004, 20, 8, 5000, 6, 3, 0x00, 0x04⟩,
  ⟨0xF005, 26, 8, 100, 3, 6, 0x03, 0x00⟩,
  ⟨0xF009, 29, 8, 10, 4, 6, 0x0B, 0x00⟩,
  ⟨0xF00B, 33, 8, 20, 1, 6, 0x00, 0x00⟩,
  ⟨0xF01D, 34, 8, 10, 1, 6, 0x00, 0x00⟩,
  ⟨0xFD09, 35, 8, 1000, 2, 6, 0x00, 0x00⟩,
  ⟨0xFD17, 37, 8, 250, 3, 6, 0x00, 0x00⟩,
  ⟨0xFD52, 40, 8, 1000, 1, 6, 0x00, 0x00⟩,
  ⟨0xFD66, 41, 8, 1000, 1, 6, 0x00, 0x00⟩,
  ⟨0xFDA2, 42, 8, 500, 1, 6, 0x00, 0x00⟩,
  ⟨0xFDA4, 43, 8, 100, 1, 6, 0x00, 0x00⟩,
  ⟨0xFDA5, 44, 8, 100, 6, 6, 0x00, 0x00⟩,
  ⟨0xFDCC, 50, 8, 1000, 2, 6, 0x00, 0x00⟩,
  ⟨0xFE41, 52, 8, 1000, 3, 3, 0x00, 0x00⟩,
  ⟨0xFE56, 55, 8, 1000, 3, 6, 0x00, 0x00⟩,
  ⟨0xFE5B, 58, 8, 100, 2, 6, 0x00, 0x00⟩,
  ⟨0xFE5E, 60, 8, 1000, 1, 6, 0x00, 0x00⟩,
  ⟨0xFE69, 61, 8, 1000, 1, 6, 0x00, 0x00⟩,
  ⟨0xFE6C, 62, 8, 50, 9, 3, 0x00, 0x00⟩,
  ⟨0xFE6E, 71, 8, 20, 4, 2, 0x0B, 0x00⟩,
  ⟨0xFE6F, 75, 8, 100, 7, 4, 0x00, 0x00⟩,
  ⟨0xFE70, 82, 8, 1000, 2, 6, 0x00, 0x00⟩,
  ⟨0xFE8D, 84, 8, 1000, 1, 7, 0x00, 0x00⟩,
  ⟨0xFE92, 85, 8, 100, 1, 7, 0x00, 0x00⟩,
  ⟨0xFEA4, 86, 8, 1000, 1, 6, 0x00, 0x00⟩,
  ⟨0xFEA6, 87, 8, 500, 4, 6, 0x00, 0x00⟩,
  ⟨0xFEAE, 91, 8, 1000, 2, 6, 0x00, 0x00⟩,
  ⟨0xFEBD, 93, 8, 1000, 2, 6, 0x00, 0x00⟩,
  ⟨0xFEBF, 95, 8, 100, 7, 6, 0x00, 0x00⟩,
  ⟨0xFEC1, 102, 8, 1000, 2, 6, 0x00, 0x00⟩,
  ⟨0xFEC6, 104, 8, 100, 5, 6, 0x00, 0x04⟩,
  ⟨0xFECA, 109, 8, 1000, 2, 6, 0x00, 0x04⟩,
  ⟨0xFEDC, 111, 8, 1000, 1, 6, 0x00, 0x00⟩,
  ⟨0xFEDF, 112, 8, 250, 3, 6, 0x00, 0x00⟩,
  ⟨0xFEE0, 115, 8, 100, 2, 6, 0x00, 0x00⟩,
  ⟨0xFEE1, 117, 18, 5000, 2, 6, 0x00, 0x01⟩,
  ⟨0xFEE3, 119, 21, 5000, 1, 6, 0x00, 0x01⟩,
  ⟨0xFEE4, 120, 8, 1000, 1, 6, 0x00, 0x00⟩,
  ⟨0xFEE5, 121, 8, 1000, 1, 6, 0x00, 0x00⟩,
  ⟨0xFEE6, 122, 8, 1000, 6, 6, 0x00, 0x00⟩,
  ⟨0xFEE9, 128, 8, 1000, 2, 6, 0x00, 0x00⟩,
  ⟨0xFEEA, 130, 8, 1000, 2, 6, 0x00, 0x00⟩,
  ⟨0xFEEC, 132, 200, 5000, 1, 6, 0x00, 0x03⟩,
  ⟨0xFEEE, 133, 8, 1000, 4, 6, 0x00, 0x00⟩,
  ⟨0xFEEF, 137, 8, 500, 2, 6, 0x00, 0x00⟩,
  ⟨0xFEF1, 139, 8, 100, 14, 6, 0x00, 0x00⟩,
  ⟨0xFEF2, 153, 8, 100, 4, 6, 0x00, 0x00⟩,
  ⟨0xFEF5, 157, 8, 1000, 4, 6, 0x00, 0x00⟩,
  ⟨0xFEF6, 161, 8, 500, 4, 6, 0x00, 0x00⟩,
  ⟨0xFEF7, 165, 8, 1000, 5, 6, 0x00, 0x00⟩,
  ⟨0xFEF9, 170, 8, 1000, 1, 6, 0x00, 0x00⟩,
  ⟨0xFEFA, 171, 8, 1000, 3, 6, 0x0B, 0x00⟩,
  ⟨0xFEFC, 174, 8, 1000, 4, 6, 0x00, 0x00⟩,
  ⟨0xFFB1, 178, 8, 330, 1, 6, 0x00, 0x00⟩]

/-- `J1939_Catalog_Key_To_Index`; `255` marks an unused key. -/
def catalogKeyToIndex : List ℕ := [
  255, 130, 131, 132, 84, 165, 166, 167, 168, 169, 102, 103,
  29, 30, 31, 32, 115, 116, 122, 123, 124, 125, 126, 127,
  62, 63, 64, 65, 66, 67, 68, 69, 70, 120, 34, 60,
  117, 118, 43, 50, 51, 153, 154, 155, 156, 128, 129, 52,
  53, 54, 111, 87, 88, 89, 90, 161, 162, 163, 164, 71,
  72, 73, 74, 35, 36, 121, 42, 58, 59, 93, 94, 26,
  27, 28, 12, 13, 41, 61, 86, 133, 134, 135, 136, 33,
  3, 4, 5, 6, 85, 137, 138, 112, 113, 114, 14, 15,
  16, 17, 18, 19, 20, 21, 22, 23, 24, 25, 40, 119,
  104, 105, 106, 107, 108, 0, 1, 95, 96, 97, 98, 99,
  100, 101, 7, 8, 9, 10, 11, 109, 110, 174, 175, 176,
  177, 44, 45, 46, 47, 48, 49, 82, 83, 2, 139, 140,
  141, 142, 143, 144, 145, 146, 147, 148, 149, 150, 151, 152,
  37, 38, 39, 171, 172, 173, 55, 56, 57, 157, 158, 159,
  160, 91, 92, 170, 75, 76, 77, 78, 79, 80, 81, 178]

/-- `J1939_Catalog_Signals[index]`. -/
def signalAt (index : ℕ) : Signal := catalogSignals.getD index default

/-- `J1939_Catalog_PGNs[index]`. -/
def pgnAt (index : ℕ) : PgnRecord := catalogPgns.getD index default

/-- `J1939_Catalog_Index_From_Key` (`j1939_signal_definitions.c:438-446`);
    `none` is `J1939_CATALOG_INDEX_INVALID`. -/
def indexFromKey (signalKey : UInt16) : Option ℕ :=
  if signalKey < keyMin ∨ signalKey > keyMax then none
  else
    let index := catalogKeyToIndex.getD signalKey.toNat 255
    if index = 255 then none else some index

/-- `(J1939_Catalog_Signals[index].flags & J1939_CAT_SIG_BLOB) != 0u`. -/
def isBlob (index : ℕ) : Bool := ((signalAt index).flags &&& sigBlob) != 0

/-- `prv_blob_capacity` (`j1939_value_store.c:67-72`, repeated in
    `j1939_profile_storage.c:86-92`): `bit_length / 8` bytes, at most the
    blob slot. -/
def blobCapacity (index : ℕ) : UInt16 :=
  let bytes := (signalAt index).bitLength / 8
  if bytes < UInt16.ofNat maxPayloadBytes then bytes else UInt16.ofNat maxPayloadBytes

/-! ## Customer profiles -/

/-- `J1939_Customer_Profile_t`. -/
structure CustomerProfile where
  profileId : UInt8
  signalCount : UInt8
  pgnCount : UInt8
  flags : UInt8
  baselineLoad500kDecipct : UInt8
  unresolvedModeCount : UInt8
  keyMask : List UInt8
deriving DecidableEq, Repr, Inhabited

/-- `J1939_PROFILE_ID_CUSTOM`. -/
def profileIdCustom : UInt8 := 0xFF

/-- `J1939_Customer_Profiles`, in the order ALL, C, K, E, F, M, H, A, D, I, POC. -/
def customerProfiles : List CustomerProfile := [
  ⟨0, 179, 60, 0x02, 229, 0,
    [0xFF, 0xFF, 0xFF, 0xFF, 0xFF, 0xFF, 0xFF, 0xFF, 0xFF, 0xFF, 0xFF, 0xFF, 0xFF, 0xFF, 0xFF, 0xFF, 0xFF, 0xFF, 0xFF, 0xFF, 0xFF, 0xFF, 0x07]⟩,
  ⟨1, 57, 25, 0x01, 180, 0,
    [0x00, 0x6E, 0x01, 0xC0, 0x02, 0x2E, 0x00, 0x3C, 0x01, 0xC5, 0x01, 0x01, 0x43, 0x00, 0xFF, 0xCD, 0x0D, 0xEC, 0x0D, 0xC4, 0x49, 0x00, 0x00]⟩,
  ⟨2, 36, 20, 0x01, 130, 0,
    [0x00, 0x7E, 0x00, 0x80, 0xE2, 0x26, 0x00, 0x00, 0x01, 0x45, 0x00, 0x00, 0x43, 0x00, 0x00, 0xC8, 0x01, 0x8C, 0x01, 0x00, 0x00, 0xF8, 0x03]⟩,
  ⟨3, 61, 29, 0x01, 108, 0,
    [0x88, 0x8E, 0x01, 0xE0, 0xC7, 0xE6, 0x01, 0x00, 0x00, 0x51, 0x01, 0x00, 0xC5, 0xF8, 0x00, 0xC8, 0xF1, 0xB3, 0x04, 0xF8, 0x07, 0x78, 0x01]⟩,
  ⟨4, 16, 13, 0x01, 50, 0,
    [0x00, 0x06, 0x00, 0x00, 0x00, 0x24, 0x00, 0x00, 0x01, 0x44, 0x00, 0x00, 0x43, 0x00, 0x00, 0xC8, 0x01, 0x88, 0x00, 0x00, 0x00, 0x00, 0x00]⟩,
  ⟨5, 23, 13, 0x03, 18, 0,
    [0xF4, 0x03, 0x01, 0x00, 0x00, 0x27, 0x00, 0x00, 0x01, 0xC0, 0x01, 0x00, 0x42, 0x00, 0x00, 0x00, 0x09, 0x8C, 0x00, 0x00, 0x00, 0x00, 0x00]⟩,
  ⟨6, 78, 33, 0x01, 90, 0,
    [0x8B, 0x06, 0xFF, 0xBF, 0x00, 0x2F, 0xBC, 0x00, 0x43, 0xFF, 0x85, 0x93, 0xC3, 0x02, 0x00, 0xCC, 0x0B, 0xE0, 0xFF, 0x07, 0x40, 0x04, 0x04]⟩,
  ⟨7, 29, 14, 0x01, 31, 0,
    [0x03, 0x06, 0x00, 0x80, 0x00, 0x33, 0x00, 0xC0, 0xCC, 0x01, 0x00, 0x60, 0x71, 0x00, 0x00, 0x3A, 0x01, 0x00, 0x08, 0x00, 0x02, 0x00, 0x00]⟩,
  ⟨8, 51, 20, 0x03, 31, 0,
    [0x00, 0x06, 0x00, 0xC0, 0x19, 0x2F, 0xC0, 0x03, 0x30, 0xC1, 0x7B, 0x1E, 0x7D, 0x05, 0x00, 0x00, 0x00, 0x20, 0x0C, 0x01, 0xF6, 0x03, 0x00]⟩,
  ⟨9, 29, 20, 0x01, 88, 0,
    [0x00, 0x06, 0x01, 0x00, 0xC0, 0x24, 0x02, 0x00, 0x01, 0xD4, 0x01, 0x00, 0x41, 0x00, 0x01, 0xCC, 0x09, 0x10, 0x08, 0x18, 0x0A, 0x00, 0x00]⟩,
  ⟨10, 27, 17, 0x01, 57, 0,
    [0x00, 0x6E, 0x01, 0x00, 0x00, 0x20, 0x00, 0x00, 0x01, 0x41, 0x00, 0x00, 0x43, 0x00, 0x78, 0xCC, 0x01, 0x88, 0x01, 0x00, 0x48, 0x00, 0x00]⟩]

/-- `J1939_Customer_Profile_Find` (`j1939_customer_profiles.c:53-61`). -/
def customerProfileFind (profileId : UInt8) : Option CustomerProfile :=
  customerProfiles.find? fun p => p.profileId == profileId

/-- `J1939_Customer_Profile_Has_Key` (`j1939_customer_profiles.c:63-72`) for a
    profile that was found. -/
def CustomerProfile.hasKey (profile : CustomerProfile) (signalKey : UInt16) : Bool :=
  if signalKey < keyMin ∨ signalKey > keyMax then false
  else Bitmask.test (fun i => profile.keyMask.getD i 0) (signalKey.toNat - 1)

end J1939Gen
