import SearchRelay.Text.Utf8

/-!
Compressed data: blocks of literals and of copies from what was decoded before, written with prefix
codes that depend on the lengths of their words alone. Decoding stops with a fault where the data
is cut off or makes no sense. What was decoded before that is kept.
-/

namespace SearchRelay.Gzip

open Text (Bytes)

inductive Fault where
  /-- The data ends too early. -/
  | cut
  /-- The data makes no sense. -/
  | corrupt
deriving DecidableEq, Repr

/-- What is left to be read, and what was decoded. The bits of a byte are read from the lowest one
on. -/
structure Decoding where
  /-- The bits of the current byte that were not read yet. -/
  bits : Nat
  /-- How many they are. -/
  count : Nat
  rest : Bytes
  output : Array UInt8

abbrev Inflate := ExceptT Fault (StateM Decoding)

namespace Inflate

def bit : Inflate Nat := do
  let state ← get
  match state.count, state.rest with
  | count + 1, _ =>
    set { state with bits := state.bits / 2, count := count }
    return state.bits % 2
  | 0, byte :: rest =>
    set { state with bits := byte.toNat / 2, count := 7, rest := rest }
    return byte.toNat % 2
  | 0, [] => throw .cut

/-- Reads a number of some bits, the lowest one first. -/
def number : Nat → Inflate Nat
  | 0 => return 0
  | count + 1 => do
    let low ← bit
    let high ← number count
    return low + 2 * high

def align : Inflate Unit := modify fun state => { state with bits := 0, count := 0 }

/-- Reads a whole byte; no bits of an earlier one are left. -/
def byte : Inflate UInt8 := do
  let state ← get
  match state.rest with
  | byte :: rest =>
    set { state with rest := rest }
    return byte
  | [] => throw .cut

/-- Reads a number of two bytes, the lower one first. -/
def pair : Inflate Nat := do
  let low ← byte
  let high ← byte
  return low.toNat + 256 * high.toNat

def emit (byte : UInt8) : Inflate Unit :=
  modify fun state => { state with output := state.output.push byte }

/-- Copies bytes from `distance` bytes back. Before the beginning there are zeros. -/
def copy (distance : Nat) : Nat → Inflate Unit
  | 0 => return ()
  | count + 1 => do
    modify fun state =>
      let byte := if distance ≤ state.output.size then
        state.output.getD (state.output.size - distance) 0 else 0
      { state with output := state.output.push byte }
    copy distance count

end Inflate

/-! ### Prefix codes -/

def maxLength : Nat := 15

/-- A prefix code: how many words there are of each length, and the symbols in the order of their
words. -/
structure PrefixCode where
  counts : Array Nat
  symbols : Array Nat

namespace PrefixCode

/-- The code in which the n-th symbol has a word of the n-th length; a length of zero leaves the
symbol out. -/
def ofLengths (lengths : List Nat) : PrefixCode where
  counts := ((List.range (maxLength + 1)).map fun length => lengths.count length).toArray
  symbols := ((List.range maxLength).flatMap fun length =>
    (lengths.zipIdx.filter fun entry => entry.1 == length + 1).map Prod.snd).toArray

/-- Every sequence of bits begins with a word, or there is at most one word. -/
def isUsable (lengths : List Nat) : Bool :=
  let used := lengths.filter (· != 0)
  used.length ≤ 1 ||
    used.foldl (fun sum length => sum + Nat.pow 2 (maxLength - length)) 0 == Nat.pow 2 maxLength

/-- The code with these lengths, if it can be used. -/
def ofLengths? (lengths : List Nat) : Inflate PrefixCode :=
  if isUsable lengths then return ofLengths lengths else throw .corrupt

/-- Reads a word. Of the words of one length, `first` is the lowest, and `index` symbols have
shorter ones. -/
def symbolFrom (code : PrefixCode) : (left length word first index : Nat) → Inflate Nat
  | 0, _, _, _, _ => throw .corrupt
  | left + 1, length, word, first, index => do
    let bit ← Inflate.bit
    let word := 2 * word + bit
    let count := code.counts.getD length 0
    if word < first + count then
      return code.symbols.getD (index + (word - first)) 0
    else code.symbolFrom left (length + 1) word (2 * (first + count)) (index + count)

def symbol (code : PrefixCode) : Inflate Nat := code.symbolFrom maxLength 1 0 0 0

end PrefixCode

/-! ### Blocks -/

namespace Inflate

def endOfBlock : Nat := 256

def copyLength (symbol : Nat) : Inflate Nat :=
  if symbol < 265 then return symbol - 254
  else if symbol < 285 then do
    let extra := (symbol - 261) / 4
    return (4 + (symbol - 261) % 4) * Nat.pow 2 extra + 3 + (← number extra)
  else if symbol = 285 then return 258
  else throw .corrupt

def copyDistance (symbol : Nat) : Inflate Nat :=
  if symbol < 4 then return symbol + 1
  else if symbol < 30 then do
    let extra := symbol / 2 - 1
    return (2 + symbol % 2) * Nat.pow 2 extra + 1 + (← number extra)
  else throw .corrupt

/-- Decodes symbols up to the end of the block; `fuel` bounds their number. -/
def symbols (literals distances : PrefixCode) : (fuel : Nat) → Inflate Unit
  | 0 => throw .cut
  | fuel + 1 => do
    let symbol ← literals.symbol
    if symbol < endOfBlock then
      emit (UInt8.ofNat symbol)
      symbols literals distances fuel
    else if symbol = endOfBlock then return ()
    else
      let length ← copyLength symbol
      let distance ← copyDistance (← distances.symbol)
      copy distance length
      symbols literals distances fuel

def storedBytes : Nat → Inflate Unit
  | 0 => return ()
  | count + 1 => do
    emit (← byte)
    storedBytes count

def stored : Inflate Unit := do
  align
  let length ← pair
  let complement ← pair
  if length + complement = 65535 then storedBytes length else throw .corrupt

def fixedLiterals : PrefixCode := .ofLengths <|
  List.replicate 144 8 ++ List.replicate 112 9 ++ List.replicate 24 7 ++ List.replicate 8 8

def fixedDistances : PrefixCode := .ofLengths (List.replicate 32 5)

def lengthOrder : List Nat :=
  [16, 17, 18, 0, 8, 7, 9, 6, 10, 5, 11, 4, 12, 3, 13, 2, 14, 1, 15]

def numbers (bits : Nat) : Nat → Inflate (List Nat)
  | 0 => return []
  | count + 1 => do
    let first ← number bits
    return first :: (← numbers bits count)

/-- Reads the lengths of a block's codes, which are given by a code and repetitions. `done` holds
those that were read, the last one first. -/
def lengths (code : PrefixCode) (total : Nat) : (fuel : Nat) → List Nat → Inflate (List Nat)
  | 0, _ => throw .cut
  | fuel + 1, done => do
    if done.length = total then return done.reverse
    let symbol ← code.symbol
    if symbol < 16 then lengths code total fuel (symbol :: done)
    else
      let (value, count) ← match symbol, done with
        | 16, last :: _ => pure (last, 3 + (← number 2))
        | 16, [] => throw .corrupt
        | 17, _ => pure (0, 3 + (← number 3))
        | _, _ => pure (0, 11 + (← number 7))
      if total < done.length + count then throw .corrupt
      lengths code total fuel (List.replicate count value ++ done)

def dynamic (fuel : Nat) : Inflate Unit := do
  let literalCount := (← number 5) + 257
  let distanceCount := (← number 5) + 1
  let given ← numbers 3 ((← number 4) + 4)
  if 286 < literalCount ∨ 30 < distanceCount then throw .corrupt
  let known := lengthOrder.zip given
  let first := (List.range 19).map fun symbol => (known.lookup symbol).getD 0
  let code ← PrefixCode.ofLengths? first
  let all ← lengths code (literalCount + distanceCount) (literalCount + distanceCount + 1) []
  let literals ← PrefixCode.ofLengths? (all.take literalCount)
  let distances ← PrefixCode.ofLengths? (all.drop literalCount)
  symbols literals distances fuel

/-- Decodes blocks up to the last one; `fuel` bounds their number and their lengths. -/
def blocks : (fuel : Nat) → Inflate Unit
  | 0 => throw .cut
  | fuel + 1 => do
    let final ← bit
    match ← number 2 with
    | 0 => stored
    | 1 => symbols fixedLiterals fixedDistances fuel
    | 2 => dynamic fuel
    | _ => throw .corrupt
    if final = 1 then align else blocks fuel

end Inflate

/-- Decodes compressed data. Every block and every symbol takes at least one bit. -/
def inflate (data : Bytes) : Except Fault Unit × Decoding :=
  (Inflate.blocks (8 * data.length + 1)).run ⟨0, 0, data, #[]⟩

end SearchRelay.Gzip
