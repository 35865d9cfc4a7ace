/-! # MD5

The 128-bit digest of a sequence of bytes: the message is filled up to whole blocks of
64 bytes, and each block is mixed into four words in 64 steps.
-/
namespace Placement
namespace Digest

/-- The four words of a digest in the making. -/
structure State where
  a : UInt32
  b : UInt32
  c : UInt32
  d : UInt32
  deriving DecidableEq

/-- The words before the first block. -/
def initial : State := ⟨0x67452301, 0xefcdab89, 0x98badcfe, 0x10325476⟩

/-- The constants of the 64 steps: the whole parts of `2 ^ 32 * |sin (i + 1)|`. -/
def constants : List UInt32 := [
  0xd76aa478, 0xe8c7b756, 0x242070db, 0xc1bdceee, 0xf57c0faf, 0x4787c62a, 0xa8304613, 0xfd469501,
  0x698098d8, 0x8b44f7af, 0xffff5bb1, 0x895cd7be, 0x6b901122, 0xfd987193, 0xa679438e, 0x49b40821,
  0xf61e2562, 0xc040b340, 0x265e5a51, 0xe9b6c7aa, 0xd62f105d, 0x02441453, 0xd8a1e681, 0xe7d3fbc8,
  0x21e1cde6, 0xc33707d6, 0xf4d50d87, 0x455a14ed, 0xa9e3e905, 0xfcefa3f8, 0x676f02d9, 0x8d2a4c8a,
  0xfffa3942, 0x8771f681, 0x6d9d6122, 0xfde5380c, 0xa4beea44, 0x4bdecfa9, 0xf6bb4b60, 0xbebfbc70,
  0x289b7ec6, 0xeaa127fa, 0xd4ef3085, 0x04881d05, 0xd9d4d039, 0xe6db99e5, 0x1fa27cf8, 0xc4ac5665,
  0xf4292244, 0x432aff97, 0xab9423a7, 0xfc93a039, 0x655b59c3, 0x8f0ccc92, 0xffeff47d, 0x85845dd1,
  0x6fa87e4f, 0xfe2ce6e0, 0xa3014314, 0x4e0811a1, 0xf7537e82, 0xbd3af235, 0x2ad7d2bb, 0xeb86d391]

/-- How far each step rotates. -/
def rotations (step : Nat) : UInt32 :=
  let row : List UInt32 := match step / 16 with
    | 0 => [7, 12, 17, 22]
    | 1 => [5, 9, 14, 20]
    | 2 => [4, 11, 16, 23]
    | _ => [6, 10, 15, 21]
  row.getD (step % 4) 0

/-- Rotate a word to the left; the distance is between 1 and 31. -/
def rotateLeft (x : UInt32) (distance : UInt32) : UInt32 :=
  (x <<< distance) ||| (x >>> (32 - distance))

/-- One step with its constant. -/
def step (words : List UInt32) (s : State) (indexed : UInt32 × Nat) : State :=
  let (constant, i) := indexed
  let (mixed, word) : UInt32 × Nat :=
    match i / 16 with
    | 0 => ((s.b &&& s.c) ||| (~~~s.b &&& s.d), i)
    | 1 => ((s.d &&& s.b) ||| (~~~s.d &&& s.c), (5 * i + 1) % 16)
    | 2 => (s.b ^^^ s.c ^^^ s.d, (3 * i + 5) % 16)
    | _ => (s.c ^^^ (s.b ||| ~~~s.d), 7 * i % 16)
  let sum := s.a + mixed + constant + words.getD word 0
  ⟨s.d, s.b + rotateLeft sum (rotations i), s.b, s.c⟩

/-- The number of four bytes, the lowest first. -/
def littleEndian (bytes : List UInt8) : UInt32 :=
  bytes.foldr (fun b n => n * 256 + b.toUInt32) 0

/-- The bytes of a word, the lowest first. -/
def bytesOf (word : UInt32) : List UInt8 :=
  [0, 8, 16, 24].map fun (shift : UInt32) => (word >>> shift).toUInt8

/-- Cut a list into pieces of `size`; `fuel` bounds their number. -/
def pieces {α : Type} (size : Nat) : Nat → List α → List (List α)
  | 0, _ => []
  | fuel + 1, xs => if xs.isEmpty then [] else xs.take size :: pieces size fuel (xs.drop size)

/-- Mix a block of 64 bytes into the words. -/
def block (s : State) (bytes : List UInt8) : State :=
  let words := (pieces 4 16 bytes).map littleEndian
  let t := constants.zipIdx.foldl (step words) s
  ⟨s.a + t.a, s.b + t.b, s.c + t.c, s.d + t.d⟩

/-- A message filled up to whole blocks: a set bit, zeros, and its length in bits. -/
def fill (message : List UInt8) : List UInt8 :=
  let length := message.length
  let zeros := (119 - length % 64) % 64
  let bits := 8 * length
  message ++ 0x80 :: List.replicate zeros 0
    ++ [0, 8, 16, 24, 32, 40, 48, 56].map fun (shift : Nat) => UInt8.ofNat ((bits >>> shift) % 256)

/-- **The MD5 digest** of a message, 16 bytes. -/
def md5 (message : List UInt8) : List UInt8 :=
  let filled := fill message
  let s := (pieces 64 filled.length filled).foldl block initial
  [s.a, s.b, s.c, s.d].flatMap bytesOf

example : md5 "abc".toUTF8.toList =
    [0x90, 0x01, 0x50, 0x98, 0x3c, 0xd2, 0x4f, 0xb0, 0xd6, 0x96, 0x3f, 0x7d, 0x28, 0xe1, 0x7f,
     0x72] := by cbv

end Digest
end Placement
