/-
The checksum of archive members: CRC-32 with the reflected polynomial EDB88320, register and result
complemented.
-/
namespace Maintainability.Checksum

/-- One bit of the register shifted out. -/
def shift (r : UInt32) : UInt32 :=
  if r &&& 1 = 1 then (r >>> 1) ^^^ 0xEDB88320 else r >>> 1

/-- The register after one byte. -/
def step (r : UInt32) (b : UInt8) : UInt32 :=
  shift (shift (shift (shift (shift (shift (shift (shift (r ^^^ b.toUInt32))))))))

/-- The checksum of bytes. -/
def crc32 (bytes : List UInt8) : Nat := (bytes.foldl step 0xFFFFFFFF ^^^ 0xFFFFFFFF).toNat

end Maintainability.Checksum
