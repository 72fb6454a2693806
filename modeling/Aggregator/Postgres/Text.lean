/-
  Texts that Postgres computes: `md5`, and `timestamptz::text` in a session
  whose time zone is UTC.
-/
import Aggregator.Go.Date
import Mathlib.Data.BitVec

namespace Aggregator.Postgres

namespace Md5

/-- The message followed by a one bit, zeros, and its length in bits. -/
def pad (bytes : List UInt8) : List UInt8 :=
  let n := bytes.length
  let zeros := (119 - n % 64) % 64
  let bits := 8 * n
  bytes ++ 128 :: List.replicate zeros 0 ++
    (List.range 8).map fun i => UInt8.ofNat (bits / 256 ^ i)

/-- Four bytes as a little-endian word. -/
def words : List UInt8 → List (BitVec 32)
  | a :: b :: c :: d :: rest =>
    BitVec.ofNat 32 (((d.toNat * 256 + c.toNat) * 256 + b.toNat) * 256 + a.toNat) :: words rest
  | _ => []

structure Digest where
  a : BitVec 32
  b : BitVec 32
  c : BitVec 32
  d : BitVec 32
deriving DecidableEq, Repr

def init : Digest := ⟨0x67452301, 0xEFCDAB89, 0x98BADCFE, 0x10325476⟩

/-- The amounts of the rotations. -/
def shifts : List ℕ :=
  [[7, 12, 17, 22], [5, 9, 14, 20], [4, 11, 16, 23], [6, 10, 15, 21]].flatMap fun s =>
    s ++ s ++ s ++ s

/-- The first 32 bits after the point of the sines of 1, 2, ..., 64. -/
def sines : List (BitVec 32) :=
  [0xd76aa478, 0xe8c7b756, 0x242070db, 0xc1bdceee, 0xf57c0faf, 0x4787c62a, 0xa8304613, 0xfd469501,
   0x698098d8, 0x8b44f7af, 0xffff5bb1, 0x895cd7be, 0x6b901122, 0xfd987193, 0xa679438e, 0x49b40821,
   0xf61e2562, 0xc040b340, 0x265e5a51, 0xe9b6c7aa, 0xd62f105d, 0x02441453, 0xd8a1e681, 0xe7d3fbc8,
   0x21e1cde6, 0xc33707d6, 0xf4d50d87, 0x455a14ed, 0xa9e3e905, 0xfcefa3f8, 0x676f02d9, 0x8d2a4c8a,
   0xfffa3942, 0x8771f681, 0x6d9d6122, 0xfde5380c, 0xa4beea44, 0x4bdecfa9, 0xf6bb4b60, 0xbebfbc70,
   0x289b7ec6, 0xeaa127fa, 0xd4ef3085, 0x04881d05, 0xd9d4d039, 0xe6db99e5, 0x1fa27cf8, 0xc4ac5665,
   0xf4292244, 0x432aff97, 0xab9423a7, 0xfc93a039, 0x655b59c3, 0x8f0ccc92, 0xffeff47d, 0x85845dd1,
   0x6fa87e4f, 0xfe2ce6e0, 0xa3014314, 0x4e0811a1, 0xf7537e82, 0xbd3af235, 0x2ad7d2bb, 0xeb86d391]

/-- Round `i` on a block of sixteen words. -/
def round (ws : List (BitVec 32)) (h : Digest) (i : ℕ) : Digest :=
  let (f, g) : BitVec 32 × ℕ :=
    if i < 16 then ((h.b &&& h.c) ||| (~~~h.b &&& h.d), i)
    else if i < 32 then ((h.d &&& h.b) ||| (~~~h.d &&& h.c), (5 * i + 1) % 16)
    else if i < 48 then (h.b ^^^ h.c ^^^ h.d, (3 * i + 5) % 16)
    else (h.c ^^^ (h.b ||| ~~~h.d), 7 * i % 16)
  let sum := h.a + f + sines.getD i 0 + ws.getD g 0
  ⟨h.d, h.b + sum.rotateLeft (shifts.getD i 0), h.b, h.c⟩

def block (h : Digest) (ws : List (BitVec 32)) : Digest :=
  let r := (List.range 64).foldl (round ws) h
  ⟨h.a + r.a, h.b + r.b, h.c + r.c, h.d + r.d⟩

/-- The blocks of the message, `n` of them. -/
def blocks : ℕ → Digest → List (BitVec 32) → Digest
  | 0, h, _ => h
  | n + 1, h, ws => blocks n (block h (ws.take 16)) (ws.drop 16)

def sum (bytes : List UInt8) : Digest :=
  let ws := words (pad bytes)
  blocks (ws.length / 16) init ws

/-- A word as eight hexadecimal digits, the lowest byte first. -/
def hexDigits (w : BitVec 32) : List Char :=
  (List.range 4).flatMap fun i =>
    let byte := w.toNat / 256 ^ i % 256
    [Nat.digitChar (byte / 16), Nat.digitChar (byte % 16)]

def Digest.hex (h : Digest) : String := String.ofList ([h.a, h.b, h.c, h.d].flatMap hexDigits)

end Md5

/-- `md5`. -/
def md5 (text : String) : String := (Md5.sum text.toUTF8.toList).hex

example : md5 "abc" = "900150983cd24fb0d6963f7d28e17f72" := by decide +kernel

open Go

/-- `timestamptz::text`, the time zone of the session being UTC. -/
def timestamptzText (t : ℤ) : String :=
  let d := dateOfDay (t / day)
  let s := t % day / second
  let micros := t % second / 1000
  let fraction := if micros = 0 then "" else
    "." ++ String.ofList ((padLeft 6 micros).toList.reverse.dropWhile (· = '0')).reverse
  padLeft 4 (if d.year ≤ 0 then 1 - d.year else d.year) ++ "-" ++ padLeft 2 d.month ++ "-" ++
    padLeft 2 d.day ++ " " ++ padLeft 2 (s / 3600) ++ ":" ++ padLeft 2 (s / 60 % 60) ++ ":" ++
    padLeft 2 (s % 60) ++ fraction ++ "+00" ++ if d.year ≤ 0 then " BC" else ""

end Aggregator.Postgres
