/-!
# The digest of a text

The 256-bit secure hash of the octets of a text, by which files are named after their content.

## Main definitions

* `Montage.Digest.hexOf`: the digest in hexadecimal digits.
-/

namespace Montage.Digest

/-- The additive constants of the rounds. -/
def constants : List UInt32 :=
  [0x428a2f98, 0x71374491, 0xb5c0fbcf, 0xe9b5dba5, 0x3956c25b, 0x59f111f1, 0x923f82a4, 0xab1c5ed5,
    0xd807aa98, 0x12835b01, 0x243185be, 0x550c7dc3, 0x72be5d74, 0x80deb1fe, 0x9bdc06a7, 0xc19bf174,
    0xe49b69c1, 0xefbe4786, 0x0fc19dc6, 0x240ca1cc, 0x2de92c6f, 0x4a7484aa, 0x5cb0a9dc, 0x76f988da,
    0x983e5152, 0xa831c66d, 0xb00327c8, 0xbf597fc7, 0xc6e00bf3, 0xd5a79147, 0x06ca6351, 0x14292967,
    0x27b70a85, 0x2e1b2138, 0x4d2c6dfc, 0x53380d13, 0x650a7354, 0x766a0abb, 0x81c2c92e, 0x92722c85,
    0xa2bfe8a1, 0xa81a664b, 0xc24b8b70, 0xc76c51a3, 0xd192e819, 0xd6990624, 0xf40e3585, 0x106aa070,
    0x19a4c116, 0x1e376c08, 0x2748774c, 0x34b0bcb5, 0x391c0cb3, 0x4ed8aa4a, 0x5b9cca4f, 0x682e6ff3,
    0x748f82ee, 0x78a5636f, 0x84c87814, 0x8cc70208, 0x90befffa, 0xa4506ceb, 0xbef9a3f7, 0xc67178f2]

/-- The state before the first block. -/
def start : List UInt32 :=
  [0x6a09e667, 0xbb67ae85, 0x3c6ef372, 0xa54ff53a, 0x510e527f, 0x9b05688c, 0x1f83d9ab, 0x5be0cd19]

/-- The word turned right by `n` bits. -/
def turn (n : UInt32) (w : UInt32) : UInt32 := (w >>> n) ||| (w <<< (32 - n))

/-- The octets filled up to whole blocks: a one, zeros, and the length in bits. -/
def padded (octets : List UInt8) : List UInt8 :=
  let n := octets.length
  let zeros := (119 - n % 64) % 64
  let size := (List.range 8).map fun i => UInt8.ofNat ((8 * n) >>> (8 * (7 - i)))
  octets ++ [0x80] ++ List.replicate zeros 0 ++ size

/-- The words of four octets each. -/
def words : List UInt8 → List UInt32
  | a :: b :: c :: d :: rest =>
    ((a.toUInt32 <<< 24) ||| (b.toUInt32 <<< 16) ||| (c.toUInt32 <<< 8) ||| d.toUInt32) ::
      words rest
  | _ => []

/-- The word that follows sixteen words of a schedule. -/
def nextWord (block : List UInt32) : UInt32 :=
  match block with
  | [w0, w1, _, _, _, _, _, _, _, w9, _, _, _, _, w14, _] =>
    w0 + (turn 7 w1 ^^^ turn 18 w1 ^^^ (w1 >>> 3)) + w9 +
      (turn 17 w14 ^^^ turn 19 w14 ^^^ (w14 >>> 10))
  | _ => 0

/-- One round with its constant and the word of the schedule. -/
def step (state : List UInt32) (k w : UInt32) : List UInt32 :=
  match state with
  | [a, b, c, d, e, f, g, h] =>
    let t1 := h + (turn 6 e ^^^ turn 11 e ^^^ turn 25 e) + ((e &&& f) ^^^ (~~~e &&& g)) + k + w
    let t2 := (turn 2 a ^^^ turn 13 a ^^^ turn 22 a) + ((a &&& b) ^^^ (a &&& c) ^^^ (b &&& c))
    [t1 + t2, a, b, c, d + t1, e, f, g]
  | s => s

/-- All rounds; the schedule moves on by one word in each. -/
def rounds (state block : List UInt32) : List UInt32 → List UInt32
  | [] => state
  | k :: ks => rounds (step state k (block.head?.getD 0)) (block.drop 1 ++ [nextWord block]) ks

/-- The state after one block. -/
def absorb (state block : List UInt32) : List UInt32 :=
  List.zipWith (· + ·) state (rounds state block constants)

/-- The state after the blocks of `count` times sixteen words. -/
def absorbAll (state : List UInt32) : Nat → List UInt32 → List UInt32
  | 0, _ => state
  | count + 1, ws => absorbAll (absorb state (ws.take 16)) count (ws.drop 16)

/-- A word in eight hexadecimal digits. -/
def hexWord (w : UInt32) : List Char :=
  let ds := Nat.toDigits 16 w.toNat
  List.replicate (8 - ds.length) '0' ++ ds

/-- The digest of octets. -/
def ofOctets (octets : List UInt8) : List UInt32 :=
  let ws := words (padded octets)
  absorbAll start (ws.length / 16) ws

/-- The digest of a text in hexadecimal digits. -/
def hexOf (s : String) : String :=
  String.ofList ((ofOctets s.toUTF8.toList).flatMap hexWord)

end Montage.Digest
