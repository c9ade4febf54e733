import SearchRelay.Gzip.Inflate

/-!
Compressed files. A member is a header, compressed data, and the checksum and length of what the
data stands for. Of a file with several members only the first one is read.
-/

namespace SearchRelay.Gzip

open Text (Bytes)

/-! ### The checksum -/

def checksumBit (sum : UInt32) : UInt32 :=
  if sum &&& 1 = 1 then (sum >>> 1) ^^^ 0xEDB88320 else sum >>> 1

def checksumByte (sum : UInt32) (byte : UInt8) : UInt32 :=
  checksumBit <| checksumBit <| checksumBit <| checksumBit <|
    checksumBit <| checksumBit <| checksumBit <| checksumBit (sum ^^^ byte.toUInt32)

def checksum (bytes : Bytes) : UInt32 := (bytes.foldl checksumByte 0xFFFFFFFF) ^^^ 0xFFFFFFFF

/-- A number in some bytes, the lowest one first. -/
def littleEndian : (count n : Nat) → Bytes
  | 0, _ => []
  | count + 1, n => UInt8.ofNat n :: littleEndian count (n / 256)

/-! ### The header -/

/-- A file that begins like this is compressed. -/
def magic : Bytes := [0x1F, 0x8B]

def skipText (bytes : Bytes) : Option Bytes :=
  match bytes.dropWhile (· != 0) with
  | _ :: rest => some rest
  | [] => none

def skipExtra : Bytes → Option Bytes
  | low :: high :: rest =>
    let length := low.toNat + 256 * high.toNat
    if length ≤ rest.length then some (rest.drop length) else none
  | _ => none

/-- Drops the checksum of the header, which has to be right. -/
def skipChecksum (header rest : Bytes) : Option Bytes :=
  let read := header.take (header.length - rest.length)
  if rest.take 2 = littleEndian 2 (checksum read).toNat then some (rest.drop 2) else none

def whenSet (flags : UInt8) (bit : UInt8) (step : Bytes → Option Bytes) (bytes : Bytes) :
    Option Bytes :=
  if flags &&& bit = bit then step bytes else some bytes

/-- The bytes after the header, if it is one. -/
def afterHeader? (bytes : Bytes) : Option Bytes :=
  match bytes with
  | 0x1F :: 0x8B :: 8 :: flags :: rest =>
    if rest.length < 6 ∨ flags &&& 0xE0 ≠ 0 then none
    else do
      let rest ← whenSet flags 4 skipExtra (rest.drop 6)
      let rest ← whenSet flags 8 skipText rest
      let rest ← whenSet flags 16 skipText rest
      whenSet flags 2 (skipChecksum bytes) rest
  | _ => none

/-! ### Members -/

def trailer (bytes : Bytes) : Bytes :=
  littleEndian 4 (checksum bytes).toNat ++ littleEndian 4 bytes.length

/-- The text of a compressed file, and whether all of it could be read. Data that makes no sense
have no text at all; data that are cut off, or that are not what they were, have the text up to
there. -/
def unpack (bytes : Bytes) : Bytes × Bool :=
  match afterHeader? bytes with
  | none => ([], false)
  | some data =>
    match inflate data with
    | (.ok _, state) =>
      let output := state.output.toList
      (output, state.rest.take 8 == trailer output)
    | (.error .cut, state) => (state.output.toList, false)
    | (.error .corrupt, _) => ([], false)

/-- The largest number of bytes in a stored block. -/
def storedLimit : Nat := 65535

def storedBlock (final : Bool) (bytes : Bytes) : Bytes :=
  (if final then 1 else 0) :: littleEndian 2 bytes.length ++
    littleEndian 2 (storedLimit - bytes.length) ++ bytes

def storedBlocks (bytes : Bytes) : Bytes :=
  if storedLimit < bytes.length then
    storedBlock false (bytes.take storedLimit) ++ storedBlocks (bytes.drop storedLimit)
  else storedBlock true bytes
termination_by bytes.length
decreasing_by simp [storedLimit] at *; omega

/-- A file that stands for these bytes. It is no shorter than they are. -/
def pack (bytes : Bytes) : Bytes :=
  magic ++ [8, 0, 0, 0, 0, 0, 0, 255] ++ storedBlocks bytes ++ trailer bytes

end SearchRelay.Gzip
