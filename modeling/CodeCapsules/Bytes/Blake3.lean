import CodeCapsules.Bytes.Basic

/-!
Contract: the BLAKE3 hash in its plain mode, without a key.

Owns:
- the compression of one block of sixteen words;
- the chain of blocks in a chunk of 1024 bytes;
- the binary tree over the chunks, whose left part is always the largest
  power of two of chunks that leaves something on the right.
-/

namespace CodeCapsules.Blake3

abbrev Chaining : Type := Vector UInt32 8

/-- The words of a block, and also the state of the compression. -/
abbrev Block : Type := Vector UInt32 16

def initial : Chaining :=
  #v[0x6A09E667, 0xBB67AE85, 0x3C6EF372, 0xA54FF53A,
     0x510E527F, 0x9B05688C, 0x1F83D9AB, 0x5BE0CD19]

def chunkStart : UInt32 := 1

def chunkEnd : UInt32 := 2

/-- Marks a block that joins two chaining values. -/
def parentNode : UInt32 := 4

/-- Marks the last compression of all. -/
def rootNode : UInt32 := 8

/-- Rotates a word to the right by a number of places below its width. -/
def rotate (word places : UInt32) : UInt32 := (word >>> places) ||| (word <<< (32 - places))

/-- Mixes two words of the message into four words of the state. -/
def mix (state : Block) (a b c d : Fin 16) (first second : UInt32) : Block :=
  let wordA := state[a] + state[b] + first
  let wordD := rotate (state[d] ^^^ wordA) 16
  let wordC := state[c] + wordD
  let wordB := rotate (state[b] ^^^ wordC) 12
  let wordA := wordA + wordB + second
  let wordD := rotate (wordD ^^^ wordA) 8
  let wordC := wordC + wordD
  let wordB := rotate (wordB ^^^ wordC) 7
  (((state.set a wordA).set b wordB).set c wordC).set d wordD

/-- One round: the columns of the state, then its diagonals. -/
def round (state message : Block) : Block :=
  let state := mix state 0 4 8 12 message[0] message[1]
  let state := mix state 1 5 9 13 message[2] message[3]
  let state := mix state 2 6 10 14 message[4] message[5]
  let state := mix state 3 7 11 15 message[6] message[7]
  let state := mix state 0 5 10 15 message[8] message[9]
  let state := mix state 1 6 11 12 message[10] message[11]
  let state := mix state 2 7 8 13 message[12] message[13]
  mix state 3 4 9 14 message[14] message[15]

/-- The order in which the next round reads the message. -/
def permute (message : Block) : Block :=
  #v[message[2], message[6], message[3], message[10],
     message[7], message[0], message[4], message[13],
     message[1], message[11], message[12], message[5],
     message[9], message[14], message[15], message[8]]

def rounds : Nat → (state message : Block) → Block
  | 0, state, _ => state
  | count + 1, state, message => rounds count (round state message) (permute message)

structure Node where
  chaining : Chaining
  block : Block
  /-- The position of the chunk, for the blocks of a chunk. -/
  counter : UInt64
  /-- How many bytes of the block are used. -/
  size : UInt32
  flags : UInt32

def Node.state (node : Node) (flags : UInt32) : Block :=
  #v[node.chaining[0], node.chaining[1], node.chaining[2], node.chaining[3],
     node.chaining[4], node.chaining[5], node.chaining[6], node.chaining[7],
     initial[0], initial[1], initial[2], initial[3],
     node.counter.toUInt32, (node.counter >>> 32).toUInt32, node.size, flags]

/-- The first eight words of the compression, with `flags` added to those of
the node. -/
def Node.compress (node : Node) (flags : UInt32) : Chaining :=
  let state := rounds 7 (node.state (node.flags ||| flags)) node.block
  Vector.ofFn fun index : Fin 8 =>
    have low : index.val < 16 := by omega
    have high : index.val + 8 < 16 := by omega
    state[index.val] ^^^ state[index.val + 8]

def Node.chain (node : Node) : Chaining := node.compress 0

/-- The words of a block that holds up to 64 bytes, filled with zeros. -/
def wordsOf (bytes : Bytes) : Block :=
  Vector.ofFn fun index : Fin 16 =>
    (Bytes.ofLittle ((bytes.drop (4 * index.val)).take 4)).toUInt32

/-- The byte string in pieces of `size` bytes. The last piece may be shorter,
and the empty string has one empty piece. -/
def pieces (size : Nat) (bytes : Bytes) : List Bytes :=
  if _small : bytes.length ≤ size ∨ size = 0 then [bytes]
  else bytes.take size :: pieces size (bytes.drop size)
termination_by bytes.length
decreasing_by simp only [List.length_drop]; omega

/-- The last node of a chunk whose remaining blocks are `blocks`, behind the
chaining value of those before. -/
def chunkBlocks (counter : UInt64) (chaining : Chaining) (flags : UInt32) : List Bytes → Node
  | [] => ⟨chaining, wordsOf [], counter, 0, flags ||| chunkEnd⟩
  | [last] => ⟨chaining, wordsOf last, counter, last.length.toUInt32, flags ||| chunkEnd⟩
  | block :: rest =>
    let node : Node := ⟨chaining, wordsOf block, counter, block.length.toUInt32, flags⟩
    chunkBlocks counter node.chain 0 rest

def chunk (counter : Nat) (bytes : Bytes) : Node :=
  chunkBlocks counter.toUInt64 initial chunkStart (pieces 64 bytes)

def join (left right : Chaining) : Node :=
  ⟨initial, (left ++ right).cast rfl, 0, 64, parentNode⟩

/-- How many of `count` chunks the left subtree holds: the largest power of two
that leaves some for the right one. -/
def leftCount (count : Nat) : Nat := Nat.pow 2 (Nat.log2 (count - 1))

theorem leftCount_pos (count : Nat) : 0 < leftCount count :=
  Nat.two_pow_pos (Nat.log2 (count - 1))

theorem leftCount_lt {count : Nat} (several : 1 < count) : leftCount count < count := by
  have bound : leftCount count ≤ count - 1 := Nat.log2_self_le (by omega)
  omega

/-- The top node over a list of chunks, the first of which has the number
`counter`. -/
def tree (counter : Nat) (chunks : List Bytes) : Node :=
  if _single : chunks.length ≤ 1 then chunk counter (chunks.headD [])
  else
    let left := leftCount chunks.length
    join (tree counter (chunks.take left)).chain (tree (counter + left) (chunks.drop left)).chain
termination_by chunks.length
decreasing_by
  · have bound := leftCount_lt (Nat.lt_of_not_le _single)
    simp only [List.length_take]
    omega
  · have positive := leftCount_pos chunks.length
    simp only [List.length_drop]
    omega

/-- The digest as eight words; its bytes are theirs, the least significant byte
of each word first. -/
def digest (bytes : Bytes) : Chaining := (tree 0 (pieces 1024 bytes)).compress rootNode

def leadingWord (bytes : Bytes) : UInt32 := (digest bytes)[0]

end CodeCapsules.Blake3
