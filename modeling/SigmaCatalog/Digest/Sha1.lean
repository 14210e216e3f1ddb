/-!
# The SHA-1 digest

The message is padded to a multiple of 64 octets with a one bit, zeros and its length in bits, and
the blocks are worked into five 32-bit words one after another.
-/

namespace SigmaCatalog.Digest

/-- The five words of a digest. -/
structure Words where
  a : UInt32
  b : UInt32
  c : UInt32
  d : UInt32
  e : UInt32
  deriving DecidableEq, Repr

/-- The words before the first block. -/
def Words.initial : Words :=
  ⟨0x67452301, 0xEFCDAB89, 0x98BADCFE, 0x10325476, 0xC3D2E1F0⟩

/-- A word turned left by some bits. -/
def rotate (word bits : UInt32) : UInt32 :=
  (word <<< bits) ||| (word >>> (32 - bits))

/-- The last `count` octets of a number, the highest first. -/
def bigEndian (count n : Nat) : List UInt8 :=
  (List.range count).map fun i => (n / Nat.pow 256 (count - 1 - i)).toUInt8

def pad (message : List UInt8) : List UInt8 :=
  let zeros := (119 - message.length % 64) % 64
  message ++ 0x80 :: List.replicate zeros 0 ++ bigEndian 8 (8 * message.length)

/-- The 32-bit words of a list of octets. -/
def toWords : List UInt8 → List UInt32
  | a :: b :: c :: d :: rest =>
    ((a.toUInt32 <<< 24) ||| (b.toUInt32 <<< 16) ||| (c.toUInt32 <<< 8) ||| d.toUInt32) ::
      toWords rest
  | _ => []

/-- Continues the words of a block: each new word comes from those 3, 8, 14 and 16 places before it.
The words are held last first. -/
def expand : Nat → List UInt32 → List UInt32
  | 0, words => words
  | steps + 1, words =>
    let word (back : Nat) : UInt32 := words.getD (back - 1) 0
    expand steps (rotate (word 3 ^^^ word 8 ^^^ word 14 ^^^ word 16) 1 :: words)

/-- One of the 80 rounds of a block. -/
def round (words : Words) (step : Nat) (word : UInt32) : Words :=
  let ⟨a, b, c, d, e⟩ := words
  let (mix, constant) : UInt32 × UInt32 :=
    if step < 20 then ((b &&& c) ||| (~~~b &&& d), 0x5A827999)
    else if step < 40 then (b ^^^ c ^^^ d, 0x6ED9EBA1)
    else if step < 60 then ((b &&& c) ||| (b &&& d) ||| (c &&& d), 0x8F1BBCDC)
    else (b ^^^ c ^^^ d, 0xCA62C1D6)
  ⟨rotate a 5 + mix + e + constant + word, a, rotate b 30, c, d⟩

/-- Works a block of 16 words into the digest. -/
def block (words : Words) (input : List UInt32) : Words :=
  let schedule := (expand 64 input.reverse).reverse
  let after := schedule.zipIdx.foldl (fun words (word, step) => round words step word) words
  ⟨words.a + after.a, words.b + after.b, words.c + after.c, words.d + after.d, words.e + after.e⟩

/-- Works the blocks of a padded message into the digest; `blocks` bounds their number. -/
def blocks : Nat → Words → List UInt32 → Words
  | 0, words, _ => words
  | count + 1, words, input =>
    if input.isEmpty then words else blocks count (block words (input.take 16)) (input.drop 16)

/-- The SHA-1 digest of a message, 20 octets long. -/
def sha1 (message : List UInt8) : List UInt8 :=
  let words := toWords (pad message)
  let digest := blocks words.length .initial words
  [digest.a, digest.b, digest.c, digest.d, digest.e].flatMap fun word => bigEndian 4 word.toNat

end SigmaCatalog.Digest
