/-!
# The BLAKE3 digest

The digest of a text under the BLAKE3 hash function, of 256 bits. Chunks of 1024 bytes are
compressed block by block; the values of the chunks are joined in pairs up to a root, where the
left part of a join is the largest full tree that leaves something for the right.
-/

namespace SourceFacts.Blake3

/-- The initial chaining value. -/
def initial : Array UInt32 :=
  #[0x6A09E667, 0xBB67AE85, 0x3C6EF372, 0xA54FF53A, 0x510E527F, 0x9B05688C, 0x1F83D9AB,
    0x5BE0CD19]

/-- The order in which the next round takes the words of a block. -/
def permutation : List Nat := [2, 6, 3, 10, 7, 0, 4, 13, 1, 11, 12, 5, 9, 14, 15, 8]

/-- Marks the first block of a chunk. -/
def chunkStart : UInt32 := 1

/-- Marks the last block of a chunk. -/
def chunkEnd : UInt32 := 2

/-- Marks a block that joins two digests. -/
def parent : UInt32 := 4

/-- Marks the block that yields the digest of all. -/
def root : UInt32 := 8

/-- Turns a word to the right. -/
def rotate (x : UInt32) (n : UInt32) : UInt32 := (x >>> n) ||| (x <<< (32 - n))

/-- Mixes two words into four words of the state. -/
def mix (s : Array UInt32) (a b c d : Nat) (x y : UInt32) : Array UInt32 :=
  let at_ (i : Nat) : UInt32 := s.getD i 0
  let a1 := at_ a + at_ b + x
  let d1 := rotate (at_ d ^^^ a1) 16
  let c1 := at_ c + d1
  let b1 := rotate (at_ b ^^^ c1) 12
  let a2 := a1 + b1 + y
  let d2 := rotate (d1 ^^^ a2) 8
  let c2 := c1 + d2
  let b2 := rotate (b1 ^^^ c2) 7
  (((s.setIfInBounds a a2).setIfInBounds b b2).setIfInBounds c c2).setIfInBounds d d2

/-- Mixes a block into the state: first the columns, then the diagonals. -/
def round (s m : Array UInt32) : Array UInt32 :=
  let word (i : Nat) : UInt32 := m.getD i 0
  let s := mix s 0 4 8 12 (word 0) (word 1)
  let s := mix s 1 5 9 13 (word 2) (word 3)
  let s := mix s 2 6 10 14 (word 4) (word 5)
  let s := mix s 3 7 11 15 (word 6) (word 7)
  let s := mix s 0 5 10 15 (word 8) (word 9)
  let s := mix s 1 6 11 12 (word 10) (word 11)
  let s := mix s 2 7 8 13 (word 12) (word 13)
  mix s 3 4 9 14 (word 14) (word 15)

/-- So many rounds, with the words of the block reordered after each. -/
def rounds : Nat → Array UInt32 → Array UInt32 → Array UInt32
  | 0, s, _ => s
  | n + 1, s, m => rounds n (round s m) (permutation.map fun i => m.getD i 0).toArray

/-- Compresses a block into a chaining value. -/
def compress (value block : Array UInt32) (counter : Nat) (length flags : UInt32) :
    Array UInt32 :=
  let s := value ++ initial.extract 0 4 ++
    #[UInt32.ofNat counter, UInt32.ofNat (counter / UInt32.size), length, flags]
  let s := rounds 7 s block
  Array.ofFn fun i : Fin 8 => s.getD i 0 ^^^ s.getD (i + 8) 0

/-- The words of a block, filled up with zeros. -/
def words (bytes : List UInt8) : Array UInt32 :=
  Array.ofFn fun i : Fin 16 =>
    let byte (k : Nat) : UInt32 := (bytes.getD (4 * i + k) 0).toUInt32
    byte 0 ||| (byte 1 <<< 8) ||| (byte 2 <<< 16) ||| (byte 3 <<< 24)

/-- Compresses a chunk, block by block; `last` are the flags of its last block. -/
def chunk (counter : Nat) (last : UInt32) :
    (fuel : Nat) → (first : Bool) → Array UInt32 → List UInt8 → Array UInt32
  | 0, _, value, _ => value
  | fuel + 1, first, value, bytes =>
    let start := if first then chunkStart else 0
    let block := bytes.take 64
    let rest := bytes.drop 64
    let length := UInt32.ofNat block.length
    if rest.isEmpty then
      compress value (words block) counter length (start ||| chunkEnd ||| last)
    else
      chunk counter last fuel false (compress value (words block) counter length start) rest

/-- The number of chunks on the left of a join of `n` chunks: the largest power of two below. -/
def leftChunks (n : Nat) : Nat := 1 <<< Nat.log2 (n - 1)

/-- The value of so many chunks, the first of which has the given number. `flags` mark the
root. -/
def tree : (fuel : Nat) → (counter : Nat) → (flags : UInt32) → List UInt8 → Array UInt32
  | 0, _, _, _ => initial
  | fuel + 1, counter, flags, bytes =>
    let n := (bytes.length + 1023) / 1024
    if n ≤ 1 then chunk counter flags 16 true initial bytes
    else
      let k := leftChunks n
      let left := tree fuel counter 0 (bytes.take (1024 * k))
      let right := tree fuel (counter + k) 0 (bytes.drop (1024 * k))
      compress initial (left ++ right) 0 64 (parent ||| flags)

/-- The digest of bytes, as words. -/
def digest (bytes : List UInt8) : Array UInt32 := tree 64 0 root bytes

/-- The two hexadecimal digits of a byte. -/
def hexByte (n : Nat) : List Char :=
  let digit (d : Nat) : Char := if d < 10 then Char.ofNat (48 + d) else Char.ofNat (87 + d)
  [digit (n / 16 % 16), digit (n % 16)]

/-- The bytes of a word, the lowest first, in hexadecimal. -/
def hexWord (w : UInt32) : List Char :=
  [0, 8, 16, 24].flatMap fun k => hexByte ((w.toNat >>> k) % 256)

/-- The digest of a text in hexadecimal. -/
def hex (text : String) : String :=
  String.ofList ((digest text.toUTF8.toList).toList.flatMap hexWord)

end SourceFacts.Blake3
