import LogMarkers.Text.Hex

/-!
# The BLAKE3 digest

A text is hashed as a binary tree over chunks of 1024 bytes, each chunk as a chain of blocks of 64
bytes.

* `compress` mixes one block into a chaining value by seven rounds on sixteen words.
* `chunk` chains the blocks of one chunk, `subtree` splits longer inputs at the largest power of
  two of whole chunks that leaves something on the right.
* `digest` reads the 32 bytes of the root and `hexDigest` writes them in lower case hexadecimals.
-/

namespace LogMarkers.Blake3

/-! ## 1. Words and blocks -/

/-- Sixteen words: a block, or the state of a compression. -/
abbrev Words := Vector UInt32 16

/-- Eight words handed from one compression to the next. -/
abbrev Chain := Vector UInt32 8

/-- The initial chaining value. -/
def initial : Chain :=
  #v[0x6A09E667, 0xBB67AE85, 0x3C6EF372, 0xA54FF53A, 0x510E527F, 0x9B05688C, 0x1F83D9AB, 0x5BE0CD19]

/-- Where each word of a block comes from for the next round. -/
def permutation : Vector (Fin 16) 16 := #v[2, 6, 3, 10, 7, 0, 4, 13, 1, 11, 12, 5, 9, 14, 15, 8]

/-- Marks of a block inside the tree. -/
def chunkStart : UInt32 := 1

/-- The last block of a chunk. -/
def chunkEnd : UInt32 := 2

/-- A node above the chunks. -/
def parentNode : UInt32 := 4

/-- The root of the tree. -/
def rootNode : UInt32 := 8

/-- Rotation to the right. -/
def rotateRight (w n : UInt32) : UInt32 := (w >>> n) ||| (w <<< (32 - n))

/-- Four bytes as a word, the first byte lowest; missing bytes are zero. -/
def wordAt (block : Array UInt8) (i : Nat) : UInt32 :=
  let byte (j : Nat) : UInt32 := (block.getD (4 * i + j) 0).toUInt32
  byte 0 ||| (byte 1 <<< 8) ||| (byte 2 <<< 16) ||| (byte 3 <<< 24)

/-- The words of a block of at most 64 bytes, filled up with zeros. -/
def blockWords (block : List UInt8) : Words :=
  let bytes := block.toArray
  Vector.ofFn fun i => wordAt bytes i.val

/-- The bytes of a word, lowest first. -/
def wordBytes (w : UInt32) : List UInt8 :=
  [w.toUInt8, (w >>> 8).toUInt8, (w >>> 16).toUInt8, (w >>> 24).toUInt8]

/-! ## 2. Compression -/

/-- Mix two words of a block into a column or a diagonal of the state. -/
def mix (s : Words) (a b c d : Fin 16) (x y : UInt32) : Words :=
  let s := s.set a (s.get a + s.get b + x)
  let s := s.set d (rotateRight (s.get d ^^^ s.get a) 16)
  let s := s.set c (s.get c + s.get d)
  let s := s.set b (rotateRight (s.get b ^^^ s.get c) 12)
  let s := s.set a (s.get a + s.get b + y)
  let s := s.set d (rotateRight (s.get d ^^^ s.get a) 8)
  let s := s.set c (s.get c + s.get d)
  s.set b (rotateRight (s.get b ^^^ s.get c) 7)

/-- One round: the four columns, then the four diagonals. -/
def round (s m : Words) : Words :=
  let s := mix s 0 4 8 12 m[0] m[1]
  let s := mix s 1 5 9 13 m[2] m[3]
  let s := mix s 2 6 10 14 m[4] m[5]
  let s := mix s 3 7 11 15 m[6] m[7]
  let s := mix s 0 5 10 15 m[8] m[9]
  let s := mix s 1 6 11 12 m[10] m[11]
  let s := mix s 2 7 8 13 m[12] m[13]
  mix s 3 4 9 14 m[14] m[15]

/-- `n` rounds, the block permuted between each two. -/
def rounds : Nat → Words → Words → Words
  | 0, s, _ => s
  | n + 1, s, m => rounds n (round s m) (Vector.ofFn fun i => m.get (permutation.get i))

/-- What is hashed at one node of the tree. -/
structure Input where
  chain : Chain
  block : Words
  counter : Nat
  length : Nat
  flags : UInt32

/-- The chaining value a node hands on. -/
def compress (i : Input) : Chain :=
  let low : UInt32 := UInt32.ofNat i.counter
  let high : UInt32 := UInt32.ofNat (i.counter >>> 32)
  let start : Words :=
    #v[i.chain[0], i.chain[1], i.chain[2], i.chain[3], i.chain[4], i.chain[5], i.chain[6],
      i.chain[7], initial[0], initial[1], initial[2], initial[3], low, high,
      UInt32.ofNat i.length, i.flags]
  let s := rounds 7 start i.block
  Vector.ofFn fun k => s.get ⟨k.val, by omega⟩ ^^^ s.get ⟨k.val + 8, by omega⟩

/-! ## 3. The tree -/

/-- The last block of a chunk, the blocks before it chained into `chain`. -/
def chunkFrom (chain : Chain) (counter : Nat) (first : UInt32) (bytes : List UInt8) : Input :=
  if bytes.length ≤ 64 then
    ⟨chain, blockWords bytes, counter, bytes.length, first ||| chunkEnd⟩
  else
    let next := compress ⟨chain, blockWords (bytes.take 64), counter, 64, first⟩
    chunkFrom next counter 0 (bytes.drop 64)
termination_by bytes.length
decreasing_by simp; omega

/-- The node of a chunk of at most 1024 bytes. -/
def chunk (counter : Nat) (bytes : List UInt8) : Input :=
  chunkFrom initial counter chunkStart bytes

/-- The node above two chaining values. -/
def parent (left right : Chain) : Input :=
  let block : Words := (left ++ right).cast rfl
  ⟨initial, block, 0, 64, parentNode⟩

/-- How many bytes of `n > 1024` go to the left: the largest power of two of whole chunks that
    leaves at least one byte on the right. -/
def leftLength (n : Nat) : Nat := (1 <<< ((n - 1) / 1024).log2) * 1024

theorem leftLength_pos (n : Nat) : 0 < leftLength n := by
  simp only [leftLength, Nat.shiftLeft_eq, Nat.one_mul]
  exact Nat.mul_pos (Nat.two_pow_pos _) (by omega)

theorem leftLength_lt {n : Nat} (h : 1024 < n) : leftLength n < n := by
  have hc : (n - 1) / 1024 ≠ 0 := by omega
  have := Nat.log2_self_le hc
  simp only [leftLength, Nat.shiftLeft_eq, Nat.one_mul]
  omega

/-- The top node over the given bytes, whose first chunk has the number `counter`. -/
def subtree (counter : Nat) (bytes : List UInt8) : Input :=
  if bytes.length ≤ 1024 then chunk counter bytes
  else
    let n := leftLength bytes.length
    parent (compress (subtree counter (bytes.take n)))
      (compress (subtree (counter + n / 1024) (bytes.drop n)))
termination_by bytes.length
decreasing_by
  · have := leftLength_lt (n := bytes.length) (by omega)
    simp only [List.length_take]
    omega
  · have := leftLength_pos bytes.length
    simp only [List.length_drop]
    omega

/-- The 32 bytes of the digest. -/
def digest (bytes : List UInt8) : List UInt8 :=
  let top := subtree 0 bytes
  (compress { top with flags := top.flags ||| rootNode }).toList.flatMap wordBytes

/-- The digest in lower case hexadecimals. -/
def hexDigest (bytes : List UInt8) : String := Text.hex (digest bytes)

end LogMarkers.Blake3
