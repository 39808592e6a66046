import SeisFeed.Wire.Word
/-!
# Checksum

The cyclic redundancy check over 32 bits with the reflected polynomial `0xEDB88320`, starting from
all ones and inverted at the end: the CRC-32 of zlib, as the format of the messages demands. A login
proves knowledge of its password by it. No theorem depends on what its values are.
-/

namespace SeisFeed.Checksum

/-- One bit of the division: the low bit leaves and, if it was set, the polynomial is subtracted. -/
def shift (crc : UInt32) : UInt32 :=
  if crc &&& 1 = 1 then (crc >>> 1) ^^^ 0xEDB88320 else crc >>> 1

def feed (crc : UInt32) (b : UInt8) : UInt32 :=
  shift (shift (shift (shift (shift (shift (shift (shift (crc ^^^ b.toUInt32))))))))

def crc32 (bytes : Wire.Bytes) : UInt32 :=
  bytes.foldl feed 0xFFFFFFFF ^^^ 0xFFFFFFFF

end SeisFeed.Checksum
