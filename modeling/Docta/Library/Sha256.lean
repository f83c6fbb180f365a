/-
Module: Docta.Library.Sha256
Purpose: SHA-256 of a list of bytes and its hexadecimal digest.
Trusted boundary: none
Main exports: digest, hexdigest, length_hexdigest, mem_hexDigits_of_mem_hexdigest
-/
import Mathlib.Algebra.GroupWithZero.Nat
import Mathlib.Data.List.GetD

namespace Docta.Sha256

/-! ### Words -/

/-- The bits of a word rotated to the right. -/
def rotate (word : UInt32) (count : UInt32) : UInt32 :=
  (word >>> count) ||| (word <<< (32 - count))

/-- The round constants: fractions of the cube roots of the first primes. -/
def constants : List UInt32 :=
  [0x428a2f98, 0x71374491, 0xb5c0fbcf, 0xe9b5dba5, 0x3956c25b, 0x59f111f1, 0x923f82a4, 0xab1c5ed5,
    0xd807aa98, 0x12835b01, 0x243185be, 0x550c7dc3, 0x72be5d74, 0x80deb1fe, 0x9bdc06a7, 0xc19bf174,
    0xe49b69c1, 0xefbe4786, 0x0fc19dc6, 0x240ca1cc, 0x2de92c6f, 0x4a7484aa, 0x5cb0a9dc, 0x76f988da,
    0x983e5152, 0xa831c66d, 0xb00327c8, 0xbf597fc7, 0xc6e00bf3, 0xd5a79147, 0x06ca6351, 0x14292967,
    0x27b70a85, 0x2e1b2138, 0x4d2c6dfc, 0x53380d13, 0x650a7354, 0x766a0abb, 0x81c2c92e, 0x92722c85,
    0xa2bfe8a1, 0xa81a664b, 0xc24b8b70, 0xc76c51a3, 0xd192e819, 0xd6990624, 0xf40e3585, 0x106aa070,
    0x19a4c116, 0x1e376c08, 0x2748774c, 0x34b0bcb5, 0x391c0cb3, 0x4ed8aa4a, 0x5b9cca4f, 0x682e6ff3,
    0x748f82ee, 0x78a5636f, 0x84c87814, 0x8cc70208, 0x90befffa, 0xa4506ceb, 0xbef9a3f7, 0xc67178f2]

/-- The eight words of the chaining state. -/
structure State where
  a : UInt32
  b : UInt32
  c : UInt32
  d : UInt32
  e : UInt32
  f : UInt32
  g : UInt32
  h : UInt32
deriving DecidableEq, Repr

def State.words (state : State) : List UInt32 :=
  [state.a, state.b, state.c, state.d, state.e, state.f, state.g, state.h]

def initial : State where
  a := 0x6a09e667
  b := 0xbb67ae85
  c := 0x3c6ef372
  d := 0xa54ff53a
  e := 0x510e527f
  f := 0x9b05688c
  g := 0x1f83d9ab
  h := 0x5be0cd19

/-! ### One block -/

/-- The word of four bytes, the first one highest. -/
def wordOf (bytes : List UInt8) : UInt32 :=
  bytes.foldl (fun word byte => (word <<< 8) ||| byte.toUInt32) 0

/-- The words of a block. -/
def blockWords (block : List UInt8) : List UInt32 :=
  (List.range 16).map fun index => wordOf ((block.drop (4 * index)).take 4)

/-- The schedule continued by some words; the latest word comes first. -/
def extend : Nat → List UInt32 → List UInt32
  | 0, words => words
  | count + 1, words =>
      let recent := words.getD 1 0
      let older := words.getD 14 0
      let small0 := rotate older 7 ^^^ rotate older 18 ^^^ (older >>> 3)
      let small1 := rotate recent 17 ^^^ rotate recent 19 ^^^ (recent >>> 10)
      extend count ((words.getD 15 0 + small0 + words.getD 6 0 + small1) :: words)

/-- The words of the sixty-four rounds. -/
def schedule (block : List UInt8) : List UInt32 :=
  (extend 48 (blockWords block).reverse).reverse

/-- One round with its constant and its word. -/
def round (state : State) (input : UInt32 × UInt32) : State :=
  let big1 := rotate state.e 6 ^^^ rotate state.e 11 ^^^ rotate state.e 25
  let choice := (state.e &&& state.f) ^^^ (~~~state.e &&& state.g)
  let first := state.h + big1 + choice + input.1 + input.2
  let big0 := rotate state.a 2 ^^^ rotate state.a 13 ^^^ rotate state.a 22
  let majority := (state.a &&& state.b) ^^^ (state.a &&& state.c) ^^^ (state.b &&& state.c)
  { a := first + big0 + majority
    b := state.a
    c := state.b
    d := state.c
    e := state.d + first
    f := state.e
    g := state.f
    h := state.g }

/-- The state after a block. -/
def compress (state : State) (block : List UInt8) : State :=
  let mixed := (constants.zip (schedule block)).foldl round state
  { a := state.a + mixed.a
    b := state.b + mixed.b
    c := state.c + mixed.c
    d := state.d + mixed.d
    e := state.e + mixed.e
    f := state.f + mixed.f
    g := state.g + mixed.g
    h := state.h + mixed.h }

/-! ### The digest -/

/-- The length in bits, in eight bytes. -/
def lengthBytes (size : Nat) : List UInt8 :=
  (List.range 8).map fun index => UInt8.ofNat (size * 8 / 256 ^ (7 - index))

/-- The message with its end mark, zeros up to a whole block, and its length. -/
def pad (message : List UInt8) : List UInt8 :=
  message ++ 0x80 :: List.replicate ((119 - message.length % 64) % 64) 0 ++
    lengthBytes message.length

/-- Some blocks, one after the other. -/
def compressAll (state : State) (bytes : List UInt8) : Nat → State
  | 0 => state
  | blocks + 1 => compressAll (compress state (bytes.take 64)) (bytes.drop 64) blocks

def digest (message : List UInt8) : State :=
  compressAll initial (pad message) ((pad message).length / 64)

/-- The lower-case digits. -/
def hexDigits : List Char :=
  ['0', '1', '2', '3', '4', '5', '6', '7', '8', '9', 'a', 'b', 'c', 'd', 'e', 'f']

/-- A word in eight digits. -/
def hexWord (word : UInt32) : List Char :=
  (List.range 8).map fun index => hexDigits.getD (word.toNat / 16 ^ (7 - index) % 16) '0'

/-- The digest in hexadecimal. -/
def hexdigest (message : List UInt8) : List Char :=
  (digest message).words.flatMap hexWord

theorem length_hexWord (word : UInt32) : (hexWord word).length = 8 := by
  rw [hexWord, List.length_map, List.length_range]

theorem length_hexdigest (message : List UInt8) : (hexdigest message).length = 64 := by
  rw [hexdigest, State.words]
  simp only [List.flatMap_cons, List.flatMap_nil, List.length_append, length_hexWord,
    List.length_nil]

/-- A digest is made of hexadecimal digits. -/
theorem mem_hexDigits_of_mem_hexdigest {message : List UInt8} {char : Char}
    (member : char ∈ hexdigest message) : char ∈ hexDigits := by
  obtain ⟨word, _, inWord⟩ := List.mem_flatMap.mp member
  obtain ⟨index, _, rfl⟩ := List.mem_map.mp inWord
  have small : word.toNat / 16 ^ (7 - index) % 16 < hexDigits.length := Nat.mod_lt _ (by decide)
  rw [List.getD_eq_getElem _ _ small]
  exact List.getElem_mem small

/-- The digest of the three bytes `abc`. -/
example : hexdigest [0x61, 0x62, 0x63] =
    "ba7816bf8f01cfea414140de5dae2223b00361a396177a9cb410ff61f20015ad".toList := by
  decide +kernel

end Docta.Sha256
