/-!
# Sha256 — the 256-bit digest of a string of bytes

The bytes are padded to blocks of sixteen words.  Each block is spread over sixty-four words, which
are mixed one after another into eight chaining words; the digest is the chaining words at the end.
-/

namespace ValueDocs.Sha256

/-- A word of the digest. -/
abbrev Word := UInt32

/-- The constants of the sixty-four rounds. -/
def roundConstants : List Word := [
    0x428a2f98, 0x71374491, 0xb5c0fbcf, 0xe9b5dba5, 0x3956c25b, 0x59f111f1, 0x923f82a4, 0xab1c5ed5,
    0xd807aa98, 0x12835b01, 0x243185be, 0x550c7dc3, 0x72be5d74, 0x80deb1fe, 0x9bdc06a7, 0xc19bf174,
    0xe49b69c1, 0xefbe4786, 0x0fc19dc6, 0x240ca1cc, 0x2de92c6f, 0x4a7484aa, 0x5cb0a9dc, 0x76f988da,
    0x983e5152, 0xa831c66d, 0xb00327c8, 0xbf597fc7, 0xc6e00bf3, 0xd5a79147, 0x06ca6351, 0x14292967,
    0x27b70a85, 0x2e1b2138, 0x4d2c6dfc, 0x53380d13, 0x650a7354, 0x766a0abb, 0x81c2c92e, 0x92722c85,
    0xa2bfe8a1, 0xa81a664b, 0xc24b8b70, 0xc76c51a3, 0xd192e819, 0xd6990624, 0xf40e3585, 0x106aa070,
    0x19a4c116, 0x1e376c08, 0x2748774c, 0x34b0bcb5, 0x391c0cb3, 0x4ed8aa4a, 0x5b9cca4f, 0x682e6ff3,
    0x748f82ee, 0x78a5636f, 0x84c87814, 0x8cc70208, 0x90befffa, 0xa4506ceb, 0xbef9a3f7, 0xc67178f2]

/-- The eight chaining words. -/
structure Chain where
  a : Word
  b : Word
  c : Word
  d : Word
  e : Word
  f : Word
  g : Word
  h : Word
  deriving DecidableEq, Repr

namespace Chain

/-- The chaining words before the first block. -/
def initial : Chain :=
  ⟨0x6a09e667, 0xbb67ae85, 0x3c6ef372, 0xa54ff53a, 0x510e527f, 0x9b05688c, 0x1f83d9ab, 0x5be0cd19⟩

/-- The sums of the chaining words of two chains. -/
def add (x y : Chain) : Chain :=
  ⟨x.a + y.a, x.b + y.b, x.c + y.c, x.d + y.d, x.e + y.e, x.f + y.f, x.g + y.g, x.h + y.h⟩

/-- The chaining words in order. -/
def words (x : Chain) : List Word := [x.a, x.b, x.c, x.d, x.e, x.f, x.g, x.h]

end Chain

/-- A word turned to the right. -/
def rotate (x n : Word) : Word := (x >>> n) ||| (x <<< (32 - n))

/-! ## One block -/

/-- The words a block is spread over, of which the next sixteen are at hand; `n` are wanted. -/
def schedule : Nat → List Word → List Word
  | 0, _ => []
  | _, [] => []
  | n + 1, w :: ws =>
    let near := ws.getD 0 0
    let far := ws.getD 13 0
    let s0 := rotate near 7 ^^^ rotate near 18 ^^^ (near >>> 3)
    let s1 := rotate far 17 ^^^ rotate far 19 ^^^ (far >>> 10)
    w :: schedule n (ws ++ [w + s0 + ws.getD 8 0 + s1])

/-- One round, with its constant and its word. -/
def round (x : Chain) (constant word : Word) : Chain :=
  let s1 := rotate x.e 6 ^^^ rotate x.e 11 ^^^ rotate x.e 25
  let choice := (x.e &&& x.f) ^^^ (~~~x.e &&& x.g)
  let t1 := x.h + s1 + choice + constant + word
  let s0 := rotate x.a 2 ^^^ rotate x.a 13 ^^^ rotate x.a 22
  let majority := (x.a &&& x.b) ^^^ (x.a &&& x.c) ^^^ (x.b &&& x.c)
  ⟨t1 + s0 + majority, x.a, x.b, x.c, x.d + t1, x.e, x.f, x.g⟩

/-- The chaining words after a block of sixteen words. -/
def mixBlock (x : Chain) (block : List Word) : Chain :=
  x.add ((roundConstants.zip (schedule 64 block)).foldl (fun y (k, w) => round y k w) x)

/-! ## Bytes and words -/

/-- The `n` bytes of a number, highest first. -/
def bytesOf (n value : Nat) : List UInt8 :=
  (List.range n).map fun i => UInt8.ofNat (value >>> (8 * (n - 1 - i)))

/-- The bytes after a message of some length: a mark, zeros, and the length in bits. -/
def padding (length : Nat) : List UInt8 :=
  (0x80 :: List.replicate ((119 - length % 64) % 64) 0) ++ bytesOf 8 (8 * length)

/-- The words that bytes make up, four each. -/
def wordsOf : List UInt8 → List Word
  | a :: b :: c :: d :: rest =>
    ((a.toUInt32 <<< 24) ||| (b.toUInt32 <<< 16) ||| (c.toUInt32 <<< 8) ||| d.toUInt32) ::
      wordsOf rest
  | _ => []

/-- The chaining words after `n` blocks. -/
def mixBlocks : Nat → Chain → List Word → Chain
  | 0, x, _ => x
  | n + 1, x, ws => mixBlocks n (mixBlock x (ws.take 16)) (ws.drop 16)

/-- The digest of some bytes. -/
def digest (bytes : List UInt8) : List UInt8 :=
  let ws := wordsOf (bytes ++ padding bytes.length)
  (mixBlocks (ws.length / 16) .initial ws).words.flatMap fun w => bytesOf 4 w.toNat

/-- The digest of some bytes in hexadecimal digits. -/
def hexDigest (bytes : List UInt8) : String :=
  String.ofList ((digest bytes).flatMap fun b =>
    [Nat.digitChar (b.toNat / 16), Nat.digitChar (b.toNat % 16)])

end ValueDocs.Sha256
