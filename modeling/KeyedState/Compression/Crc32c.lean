import KeyedState.Bytes

/-!
# The CRC-32C checksum

The checksum of chunks of a compressed stream: the remainder of the data by the
Castagnoli polynomial, bits taken low end first. Streams hold it masked, so that the
checksum of data that holds checksums stays useful.
-/

namespace KeyedState.Crc32c

/-- One bit of the division. -/
def shiftBit (r : UInt32) : UInt32 :=
  if r &&& 1 = 1 then (r >>> 1) ^^^ 0x82F63B78 else r >>> 1

/-- Eight bits of the division. -/
def shiftByte (r : UInt32) : UInt32 :=
  shiftBit (shiftBit (shiftBit (shiftBit (shiftBit (shiftBit (shiftBit (shiftBit r)))))))

/-- The remainder after one more byte. -/
def step (r : UInt32) (b : UInt8) : UInt32 := shiftByte (r ^^^ b.toUInt32)

/-- The checksum of the data. -/
def checksum (data : Bytes) : UInt32 := data.foldl step 0xFFFFFFFF ^^^ 0xFFFFFFFF

/-- The checksum as a stream holds it: rotated by 15 bits and offset. -/
def masked (data : Bytes) : UInt32 :=
  let c := checksum data
  ((c >>> 15) ||| (c <<< 17)) + 0xA282EAD8

/-- The check value of the digits 1 to 9. -/
example : checksum [0x31, 0x32, 0x33, 0x34, 0x35, 0x36, 0x37, 0x38, 0x39] = 0xE3069283 := by
  decide +kernel

end KeyedState.Crc32c
