/-
  `crypto/sha1`: the digest of a string, as five words of 32 bits, and its text
  in hexadecimal.
-/
import Mathlib.Data.BitVec

namespace Aggregator.Go.Sha1

/-- The message followed by a one bit, zeros, and its length in bits. -/
def pad (bytes : List UInt8) : List UInt8 :=
  let n := bytes.length
  let zeros := (119 - n % 64) % 64
  let bits := 8 * n
  bytes ++ 128 :: List.replicate zeros 0 ++
    (List.range 8).map fun i => UInt8.ofNat (bits / 256 ^ (7 - i))

/-- Four bytes as a big-endian word. -/
def words : List UInt8 → List (BitVec 32)
  | a :: b :: c :: d :: rest =>
    BitVec.ofNat 32 (((a.toNat * 256 + b.toNat) * 256 + c.toNat) * 256 + d.toNat) :: words rest
  | _ => []

/-- The message schedule: `n` more words, the latest one first. -/
def extend : ℕ → List (BitVec 32) → List (BitVec 32)
  | 0, w => w
  | n + 1, w =>
    extend n (((w.getD 2 0 ^^^ w.getD 7 0 ^^^ w.getD 13 0 ^^^ w.getD 15 0).rotateLeft 1) :: w)

structure Digest where
  a : BitVec 32
  b : BitVec 32
  c : BitVec 32
  d : BitVec 32
  e : BitVec 32
deriving DecidableEq, Repr

def init : Digest := ⟨0x67452301, 0xEFCDAB89, 0x98BADCFE, 0x10325476, 0xC3D2E1F0⟩

/-- Round `i`, on the word `w` of the schedule. -/
def round (h : Digest) (i : ℕ) (w : BitVec 32) : Digest :=
  let (f, k) : BitVec 32 × BitVec 32 :=
    if i < 20 then ((h.b &&& h.c) ||| (~~~h.b &&& h.d), 0x5A827999)
    else if i < 40 then (h.b ^^^ h.c ^^^ h.d, 0x6ED9EBA1)
    else if i < 60 then ((h.b &&& h.c) ||| (h.b &&& h.d) ||| (h.c &&& h.d), 0x8F1BBCDC)
    else (h.b ^^^ h.c ^^^ h.d, 0xCA62C1D6)
  ⟨h.a.rotateLeft 5 + f + h.e + k + w, h.a, h.b.rotateLeft 30, h.c, h.d⟩

/-- One block of sixteen words. -/
def block (h : Digest) (ws : List (BitVec 32)) : Digest :=
  let schedule := (extend 64 ws.reverse).reverse
  let r := schedule.zipIdx.foldl (fun r (w, i) => round r i w) h
  ⟨h.a + r.a, h.b + r.b, h.c + r.c, h.d + r.d, h.e + r.e⟩

/-- The blocks of the message, `n` of them. -/
def blocks : ℕ → Digest → List (BitVec 32) → Digest
  | 0, h, _ => h
  | n + 1, h, ws => blocks n (block h (ws.take 16)) (ws.drop 16)

/-- `sha1.Sum`. -/
def sum (bytes : List UInt8) : Digest :=
  let ws := words (pad bytes)
  blocks (ws.length / 16) init ws

/-- A word as eight hexadecimal digits. -/
def hexDigits (w : BitVec 32) : List Char :=
  (List.range 8).map fun i => Nat.digitChar (w.toNat / 16 ^ (7 - i) % 16)

/-- `hex.EncodeToString`. -/
def Digest.hex (h : Digest) : String := String.ofList ([h.a, h.b, h.c, h.d, h.e].flatMap hexDigits)

-- the digest of `abc`
example : (sum [97, 98, 99]).hex = "a9993e364706816aba3e25717850c26c9cd0d89d" := by
  decide +kernel

end Aggregator.Go.Sha1
