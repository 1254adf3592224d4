/-!
The 32-bit cyclic redundancy check of gzip files, bit by bit.
-/
namespace GridOps
namespace Crc32

def polynomial : UInt32 := 0xEDB88320

/-- Divides by the polynomial for as many bits. -/
def shift : Nat → UInt32 → UInt32
  | 0, crc => crc
  | n + 1, crc => shift n (if crc &&& 1 = 1 then (crc >>> 1) ^^^ polynomial else crc >>> 1)

def update (crc : UInt32) (byte : UInt8) : UInt32 := shift 8 (crc ^^^ byte.toUInt32)

def ofBytes (bytes : List UInt8) : UInt32 := bytes.foldl update 0xFFFFFFFF ^^^ 0xFFFFFFFF

end Crc32
end GridOps
