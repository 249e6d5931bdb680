/-! # Cyclic redundancy check

The 32-bit check of a sequence of bytes, with the reflected polynomial `EDB88320`.
-/

namespace Pinout.Gzip

def crcBit (state : UInt32) : UInt32 :=
  if state &&& 1 = 1 then (state >>> 1) ^^^ 0xEDB88320 else state >>> 1

def crcByte (state : UInt32) (byte : UInt8) : UInt32 :=
  Nat.repeat crcBit 8 (state ^^^ byte.toUInt32)

def crc32 (bytes : List UInt8) : UInt32 :=
  bytes.foldl crcByte 0xFFFFFFFF ^^^ 0xFFFFFFFF

end Pinout.Gzip
