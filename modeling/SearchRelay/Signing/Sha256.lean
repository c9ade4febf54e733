import SearchRelay.Text.Utf8

/-!
The secure hash of 256 bits, and the hash of a message under a key that is built from it. A message is padded to whole blocks, every block is stretched to a schedule of sixty-four words, and
the words stir a state of eight.
-/

namespace SearchRelay.Sha256

open Text (Bytes)

structure Words where
  a : UInt32
  b : UInt32
  c : UInt32
  d : UInt32
  e : UInt32
  f : UInt32
  g : UInt32
  h : UInt32

namespace Words

def start : Words :=
  ⟨0x6a09e667, 0xbb67ae85, 0x3c6ef372, 0xa54ff53a, 0x510e527f, 0x9b05688c, 0x1f83d9ab, 0x5be0cd19⟩

def add (x y : Words) : Words :=
  ⟨x.a + y.a, x.b + y.b, x.c + y.c, x.d + y.d, x.e + y.e, x.f + y.f, x.g + y.g, x.h + y.h⟩

def toList (w : Words) : List UInt32 := [w.a, w.b, w.c, w.d, w.e, w.f, w.g, w.h]

end Words

def constants : List UInt32 := [
  0x428a2f98, 0x71374491, 0xb5c0fbcf, 0xe9b5dba5, 0x3956c25b, 0x59f111f1, 0x923f82a4, 0xab1c5ed5,
  0xd807aa98, 0x12835b01, 0x243185be, 0x550c7dc3, 0x72be5d74, 0x80deb1fe, 0x9bdc06a7, 0xc19bf174,
  0xe49b69c1, 0xefbe4786, 0x0fc19dc6, 0x240ca1cc, 0x2de92c6f, 0x4a7484aa, 0x5cb0a9dc, 0x76f988da,
  0x983e5152, 0xa831c66d, 0xb00327c8, 0xbf597fc7, 0xc6e00bf3, 0xd5a79147, 0x06ca6351, 0x14292967,
  0x27b70a85, 0x2e1b2138, 0x4d2c6dfc, 0x53380d13, 0x650a7354, 0x766a0abb, 0x81c2c92e, 0x92722c85,
  0xa2bfe8a1, 0xa81a664b, 0xc24b8b70, 0xc76c51a3, 0xd192e819, 0xd6990624, 0xf40e3585, 0x106aa070,
  0x19a4c116, 0x1e376c08, 0x2748774c, 0x34b0bcb5, 0x391c0cb3, 0x4ed8aa4a, 0x5b9cca4f, 0x682e6ff3,
  0x748f82ee, 0x78a5636f, 0x84c87814, 0x8cc70208, 0x90befffa, 0xa4506ceb, 0xbef9a3f7, 0xc67178f2]

def turn (word amount : UInt32) : UInt32 := (word >>> amount) ||| (word <<< (32 - amount))

/-- The bytes of a number, the highest one first. -/
def bigEndian : (count : Nat) → Nat → Bytes
  | 0, _ => []
  | count + 1, value => UInt8.ofNat (value >>> (8 * count)) :: bigEndian count value

/-- A message with a one bit, zeros, and its length in bits, together whole blocks. -/
def pad (message : Bytes) : Bytes :=
  let zeros := (119 - message.length % 64) % 64
  message ++ 0x80 :: (List.replicate zeros 0 ++ bigEndian 8 (8 * message.length))

/-- The words of bytes, four at a time. -/
def words : Bytes → List UInt32 → List UInt32
  | a :: b :: c :: d :: rest, done =>
    words rest ((a.toUInt32 <<< 24 ||| b.toUInt32 <<< 16 ||| c.toUInt32 <<< 8 ||| d.toUInt32) :: done)
  | _, done => done.reverse

def nextWord (schedule : Array UInt32) (place : Nat) : UInt32 :=
  let before (back : Nat) : UInt32 := schedule.getD (place - back) 0
  let near := before 2
  let far := before 15
  (turn near 17 ^^^ turn near 19 ^^^ near >>> 10) + before 7 +
    (turn far 7 ^^^ turn far 18 ^^^ far >>> 3) + before 16

def schedule (block : List UInt32) : Array UInt32 :=
  (List.range' 16 48).foldl (fun schedule place => schedule.push (nextWord schedule place))
    block.toArray

def stir (w : Words) (word : UInt32 × UInt32) : Words :=
  let first := w.h + (turn w.e 6 ^^^ turn w.e 11 ^^^ turn w.e 25) +
    ((w.e &&& w.f) ^^^ (~~~ w.e &&& w.g)) + word.1 + word.2
  let second := (turn w.a 2 ^^^ turn w.a 13 ^^^ turn w.a 22) +
    ((w.a &&& w.b) ^^^ (w.a &&& w.c) ^^^ (w.b &&& w.c))
  ⟨first + second, w.a, w.b, w.c, w.d + first, w.e, w.f, w.g⟩

def compress (state : Words) (block : List UInt32) : Words :=
  state.add ((constants.zip (schedule block).toList).foldl stir state)

/-- Takes blocks of sixteen words; `fuel` bounds their number. -/
def compressAll : (fuel : Nat) → Words → List UInt32 → Words
  | 0, state, _ => state
  | _, state, [] => state
  | fuel + 1, state, words => compressAll fuel (compress state (words.take 16)) (words.drop 16)

def digest (message : Bytes) : Bytes :=
  let words := words (pad message) []
  (compressAll words.length .start words).toList.flatMap fun word => bigEndian 4 word.toNat

def keyed (key message : Bytes) : Bytes :=
  let key := if 64 < key.length then digest key else key
  let key := key ++ List.replicate (64 - key.length) 0
  digest (key.map (· ^^^ 0x5C) ++ digest (key.map (· ^^^ 0x36) ++ message))

end SearchRelay.Sha256
