/-
Module: ForestLink.Lib.Crc32
Purpose: The IEEE CRC-32 checksum, bit by bit on the reflected polynomial.
Trusted boundary: none
Main exports: crc32Le, crc32ChecksumIeee
-/
import Mathlib.Data.List.Basic

namespace ForestLink.Lib

/-- One bit of the reflected shift register. -/
def crc32Shift (crc : UInt32) : UInt32 :=
  if crc &&& 1 = 1 then (crc >>> 1) ^^^ 0xEDB88320 else crc >>> 1

/-- One byte: eight shifts after it is mixed into the low bits. -/
def crc32Byte (crc : UInt32) (byte : UInt8) : UInt32 :=
  (List.range 8).foldl (fun crc _ => crc32Shift crc) (crc ^^^ byte.toUInt32)

/-- `esp_rom_crc32_le`: continue a checksum over more bytes. -/
def crc32Le (crc : UInt32) (data : List UInt8) : UInt32 :=
  ~~~ data.foldl crc32Byte (~~~ crc)

/-- `crc32.ChecksumIEEE` -/
def crc32ChecksumIeee (data : List UInt8) : UInt32 :=
  ~~~ data.foldl crc32Byte 0xFFFFFFFF

/-- The check value of the polynomial, over the digits `1` to `9`. -/
example : crc32ChecksumIeee [49, 50, 51, 52, 53, 54, 55, 56, 57] = 0xCBF43926 := by
  decide +kernel

end ForestLink.Lib
