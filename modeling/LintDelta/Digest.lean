import LintDelta.Text.Utf8

/-!
# Digests

The SHA-1 digest of bytes, as 40 hexadecimal digits. Content is known by the digest of its kind, its
size and its bytes.
-/

namespace LintDelta.Digest

open Text (Bytes)

def rotate (w n : UInt32) : UInt32 := (w <<< n) ||| (w >>> (32 - n))

/-- The most significant byte comes first. -/
def word (a b c d : UInt8) : UInt32 :=
  (a.toUInt32 <<< 24) ||| (b.toUInt32 <<< 16) ||| (c.toUInt32 <<< 8) ||| d.toUInt32

/-- The words of bytes; a rest of fewer than four bytes is left out. -/
def words : Bytes → List UInt32
  | a :: b :: c :: d :: rest => word a b c d :: words rest
  | _ => []

def eightBytes (n : Nat) : Bytes :=
  (List.range 8).map fun i => UInt8.ofNat (n >>> (8 * (7 - i)))

/-- Bytes with the padding that makes whole blocks of them: a single bit, zeros, and the length. -/
def pad (bytes : Bytes) : Bytes :=
  -- the length takes eight bytes of the last block, and the single bit one more
  let gap := (119 - bytes.length % 64) % 64
  bytes ++ 0x80 :: List.replicate gap 0 ++ eightBytes (8 * bytes.length)

/-- One more word of the schedule, given the words so far in reverse. -/
def extend (ws : List UInt32) : List UInt32 :=
  let back (i : Nat) := ws.getD i 0
  rotate (back 2 ^^^ back 7 ^^^ back 13 ^^^ back 15) 1 :: ws

def schedule (block : List UInt32) : List UInt32 :=
  ((List.range 64).foldl (fun ws _ => extend ws) block.reverse).reverse

structure State where
  a : UInt32
  b : UInt32
  c : UInt32
  d : UInt32
  e : UInt32
  deriving DecidableEq, Repr

def start : State := ⟨0x67452301, 0xEFCDAB89, 0x98BADCFE, 0x10325476, 0xC3D2E1F0⟩

/-- How round `t` mixes three words, and its constant. -/
def mix (t : Nat) (b c d : UInt32) : UInt32 × UInt32 :=
  if t < 20 then ((b &&& c) ||| (~~~b &&& d), 0x5A827999)
  else if t < 40 then (b ^^^ c ^^^ d, 0x6ED9EBA1)
  else if t < 60 then ((b &&& c) ||| (b &&& d) ||| (c &&& d), 0x8F1BBCDC)
  else (b ^^^ c ^^^ d, 0xCA62C1D6)

def round (s : State) (w : UInt32 × Nat) : State :=
  let (f, k) := mix w.2 s.b s.c s.d
  ⟨rotate s.a 5 + f + s.e + k + w.1, s.a, rotate s.b 30, s.c, s.d⟩

def absorb (s : State) (block : List UInt32) : State :=
  let r := (schedule block).zipIdx.foldl round s
  ⟨s.a + r.a, s.b + r.b, s.c + r.c, s.d + r.d, s.e + r.e⟩

def blocks (fuel : Nat) (ws : List UInt32) : List (List UInt32) :=
  match fuel, ws with
  | _, [] => []
  | 0, _ => []
  | fuel + 1, ws => ws.take 16 :: blocks fuel (ws.drop 16)

def wordText (w : UInt32) : List Char :=
  let ds := Nat.toDigits 16 w.toNat
  List.replicate (8 - ds.length) '0' ++ ds

/-- The SHA-1 digest of bytes. -/
def sha1 (bytes : Bytes) : String :=
  let ws := words (pad bytes)
  let s := (blocks ws.length ws).foldl absorb start
  String.ofList ([s.a, s.b, s.c, s.d, s.e].flatMap wordText)

end LintDelta.Digest
