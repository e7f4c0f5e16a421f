import FacLpr.Foundations.Text

/-!
# Infrastructure/Crypto/Sha256 — the digest of a byte string

`transform` folds a block of 64 bytes into eight words, and `sha256` folds in the full blocks of a
message and then the one or two blocks of its padded rest.
-/

namespace FacLpr

namespace Sha256

def kConstants : List UInt32 :=
  [0x428a2f98, 0x71374491, 0xb5c0fbcf, 0xe9b5dba5, 0x3956c25b, 0x59f111f1, 0x923f82a4, 0xab1c5ed5,
   0xd807aa98, 0x12835b01, 0x243185be, 0x550c7dc3, 0x72be5d74, 0x80deb1fe, 0x9bdc06a7, 0xc19bf174,
   0xe49b69c1, 0xefbe4786, 0x0fc19dc6, 0x240ca1cc, 0x2de92c6f, 0x4a7484aa, 0x5cb0a9dc, 0x76f988da,
   0x983e5152, 0xa831c66d, 0xb00327c8, 0xbf597fc7, 0xc6e00bf3, 0xd5a79147, 0x06ca6351, 0x14292967,
   0x27b70a85, 0x2e1b2138, 0x4d2c6dfc, 0x53380d13, 0x650a7354, 0x766a0abb, 0x81c2c92e, 0x92722c85,
   0xa2bfe8a1, 0xa81a664b, 0xc24b8b70, 0xc76c51a3, 0xd192e819, 0xd6990624, 0xf40e3585, 0x106aa070,
   0x19a4c116, 0x1e376c08, 0x2748774c, 0x34b0bcb5, 0x391c0cb3, 0x4ed8aa4a, 0x5b9cca4f, 0x682e6ff3,
   0x748f82ee, 0x78a5636f, 0x84c87814, 0x8cc70208, 0x90befffa, 0xa4506ceb, 0xbef9a3f7, 0xc67178f2]

def rotateRight (value bits : UInt32) : UInt32 := (value >>> bits) ||| (value <<< (32 - bits))

/-- The eight words of the state, and the registers of `transform`. -/
structure State where
  a : UInt32
  b : UInt32
  c : UInt32
  d : UInt32
  e : UInt32
  f : UInt32
  g : UInt32
  h : UInt32
  deriving DecidableEq

def initialState : State :=
  { a := 0x6a09e667, b := 0xbb67ae85, c := 0x3c6ef372, d := 0xa54ff53a
    e := 0x510e527f, f := 0x9b05688c, g := 0x1f83d9ab, h := 0x5be0cd19 }

/-- The first words of the schedule: the bytes of the block, four at a time. -/
def blockWords : List Byte → List UInt32
  | b₀ :: b₁ :: b₂ :: b₃ :: rest =>
      ((b₀.toUInt32 <<< 24) ||| (b₁.toUInt32 <<< 16) ||| (b₂.toUInt32 <<< 8) ||| b₃.toUInt32) ::
        blockWords rest
  | _ => []

/-- One word more: `words[index]` for an `index` from 16 on. -/
def nextWord (words : List UInt32) : UInt32 :=
  let index := words.length
  let word := fun back => words.getD (index - back) 0
  let s0 := rotateRight (word 15) 7 ^^^ rotateRight (word 15) 18 ^^^ (word 15 >>> 3)
  let s1 := rotateRight (word 2) 17 ^^^ rotateRight (word 2) 19 ^^^ (word 2 >>> 10)
  word 16 + s0 + word 7 + s1

/-- The 64 words of a block. -/
def schedule (block : List Byte) : List UInt32 :=
  (List.range 48).foldl (fun words _ => words ++ [nextWord words]) (blockWords block)

/-- One round, with its constant and its word. -/
def round (s : State) (input : UInt32 × UInt32) : State :=
  let sum1 := rotateRight s.e 6 ^^^ rotateRight s.e 11 ^^^ rotateRight s.e 25
  let choice := (s.e &&& s.f) ^^^ (~~~s.e &&& s.g)
  let temp1 := s.h + sum1 + choice + input.1 + input.2
  let sum0 := rotateRight s.a 2 ^^^ rotateRight s.a 13 ^^^ rotateRight s.a 22
  let majority := (s.a &&& s.b) ^^^ (s.a &&& s.c) ^^^ (s.b &&& s.c)
  let temp2 := sum0 + majority
  { a := temp1 + temp2, b := s.a, c := s.b, d := s.c
    e := s.d + temp1, f := s.e, g := s.f, h := s.g }

def transform (s : State) (block : List Byte) : State :=
  let t := (kConstants.zip (schedule block)).foldl round s
  { a := s.a + t.a, b := s.b + t.b, c := s.c + t.c, d := s.d + t.d
    e := s.e + t.e, f := s.f + t.f, g := s.g + t.g, h := s.h + t.h }

/-- The buffer of the padded rest: what is left, a one bit, and the length in bits at the end of
the first or the second block. -/
def paddedTail (rest : List Byte) (size paddedSize : ℕ) : List Byte :=
  let bitLength := UInt64.ofNat size * 8
  let tail := (rest ++ List.replicate (128 - rest.length) 0).set rest.length 0x80
  (List.range 8).foldl (fun tail index =>
    tail.set (paddedSize - 1 - index) (bitLength >>> (UInt64.ofNat index * 8)).toUInt8) tail

/-- The bytes of a word, the first the highest. -/
def wordBytes (word : UInt32) : List Byte :=
  [(word >>> 24).toUInt8, (word >>> 16).toUInt8, (word >>> 8).toUInt8, word.toUInt8]

end Sha256

open Sha256

/-- `sha256`. -/
def sha256 (bytes : List Byte) : List Byte :=
  let blocks := bytes.length / 64
  let absorbed := (List.range blocks).foldl
    (fun s index => transform s ((bytes.drop (index * 64)).take 64)) initialState
  let rest := bytes.drop (blocks * 64)
  let paddedSize := if rest.length < 56 then 64 else 128
  let tail := paddedTail rest bytes.length paddedSize
  let first := transform absorbed (tail.take 64)
  let s := if paddedSize = 128 then transform first (tail.drop 64) else first
  [s.a, s.b, s.c, s.d, s.e, s.f, s.g, s.h].flatMap Sha256.wordBytes

/-- The lower-case digit of a value below sixteen. -/
def hexDigit (value : ℕ) : Byte :=
  if value < 10 then byte '0' + UInt8.ofNat value else byte 'a' + UInt8.ofNat (value - 10)

/-- `sha256_hex`. -/
def sha256Hex (bytes : List Byte) : Text :=
  (sha256 bytes).flatMap fun value => [hexDigit (value.toNat / 16), hexDigit (value.toNat % 16)]

end FacLpr
