import Addon.Text.Encoding

/-!
# Archives as bytes

The ZIP form of an archive. Every member stands behind a header of its own; a directory of all
members and a closing record follow. Members are stored as they are, under names in UTF-8.
-/

namespace Addon.File.Archive

/-- A number in a count of bytes, the lowest first. -/
def littleEndian : Nat → Nat → List UInt8
  | 0, _ => []
  | count + 1, n => n.toUInt8 :: littleEndian count (n / 256)

/-- Fields of a header, each a count of bytes and a number. -/
def header (fields : List (Nat × Nat)) : List UInt8 :=
  fields.flatMap fun f => littleEndian f.1 f.2

/-- Moves a checksum on by some bits. -/
def shiftBits : Nat → UInt32 → UInt32
  | 0, c => c
  | count + 1, c => shiftBits count (if c &&& 1 = 1 then (c >>> 1) ^^^ 0xEDB88320 else c >>> 1)

/-- Takes a byte into a checksum. -/
def addByte (c : UInt32) (b : UInt8) : UInt32 :=
  shiftBits 8 (c ^^^ b.toUInt32)

/-- The cyclic redundancy check of 32 bits. -/
def checksum (bytes : List UInt8) : UInt32 :=
  bytes.foldl addByte 0xFFFFFFFF ^^^ 0xFFFFFFFF

/-- A file in an archive. -/
abbrev Member := String × List UInt8

/-- The name of a member. -/
def nameBytes (m : Member) : List UInt8 :=
  Text.encode m.1.toList

/-- The version of the form. -/
def version : Nat := 20

/-- The mark of names in UTF-8. -/
def unicodeNames : Nat := 0x800

/-- The first day that the form can name, the first of January 1980. -/
def firstDay : Nat := 0x21

/-- The fields that stand both in front of a member and in the directory. -/
def sharedFields (m : Member) : List (Nat × Nat) :=
  [(2, version), (2, unicodeNames), (2, 0), (2, 0), (2, firstDay), (4, (checksum m.2).toNat),
    (4, m.2.length), (4, m.2.length), (2, (nameBytes m).length), (2, 0)]

/-- A member behind its header. -/
def memberRecord (m : Member) : List UInt8 :=
  header ((4, 0x04034B50) :: sharedFields m) ++ nameBytes m ++ m.2

/-- The entry in the directory of a member that starts at an offset. -/
def directoryRecord (m : Member) (offset : Nat) : List UInt8 :=
  header ([(4, 0x02014B50), (2, version)] ++ sharedFields m ++
    [(2, 0), (2, 0), (2, 0), (4, 0), (4, offset)]) ++ nameBytes m

/-- The directory of members of which the first starts at an offset. -/
def directory : Nat → List Member → List UInt8
  | _, [] => []
  | offset, m :: rest =>
    directoryRecord m offset ++ directory (offset + (memberRecord m).length) rest

/-- The closing record of an archive. -/
def closingRecord (count size offset : Nat) : List UInt8 :=
  header [(4, 0x06054B50), (2, 0), (2, 0), (2, count), (2, count), (4, size), (4, offset), (2, 0)]

/-- The bytes of an archive. -/
def encode (members : List Member) : List UInt8 :=
  let records := members.flatMap memberRecord
  let entries := directory 0 members
  records ++ entries ++ closingRecord members.length entries.length records.length

end Addon.File.Archive
