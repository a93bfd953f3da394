import Settlement.Octets.Basic

/-!
# BLAKE3

The hash behind identifiers. A message is cut into chunks of 1024 octets, each
chunk is folded block by block into a chaining value, and chaining values are
joined in pairs along a binary tree whose left subtrees are full. The node at
the top is compressed once more with the root flag and gives the 32 octets of
the hash. `length_hash` states that number.
-/

namespace Settlement.Blake3

/-- Sixteen 32-bit words: a message block or the state of the compression. -/
abbrev Words := Vector UInt32 16

/-- Eight 32-bit words that stand for all that was hashed below a node. -/
abbrev ChainingValue := Vector UInt32 8

/-- The chaining value before any block, also the key of the unkeyed mode. -/
def initial : ChainingValue :=
  #v[0x6a09e667, 0xbb67ae85, 0x3c6ef372, 0xa54ff53a,
     0x510e527f, 0x9b05688c, 0x1f83d9ab, 0x5be0cd19]

/-- The flag on the first block of a chunk. -/
def chunkStart : UInt32 := 1

/-- The flag on the last block of a chunk. -/
def chunkEnd : UInt32 := 2

/-- The flag on a node that joins two chaining values. -/
def parent : UInt32 := 4

/-- The flag on the node at the top. -/
def root : UInt32 := 8

/-- A word turned right by `n` bits, for `n` between one and thirty-one. -/
def rotateRight (w n : UInt32) : UInt32 := (w >>> n) ||| (w <<< (32 - n))

/-- Mixes two message words into four words of the state. -/
def mix (v : Words) (a b c d : Fin 16) (x y : UInt32) : Words :=
  let va := v[a] + v[b] + x
  let vd := rotateRight (v[d] ^^^ va) 16
  let vc := v[c] + vd
  let vb := rotateRight (v[b] ^^^ vc) 12
  let va := va + vb + y
  let vd := rotateRight (vd ^^^ va) 8
  let vc := vc + vd
  let vb := rotateRight (vb ^^^ vc) 7
  (((v.set a va).set b vb).set c vc).set d vd

/-- One round: mixes the whole block into the columns and the diagonals of the state. -/
def round (v m : Words) : Words :=
  let v := mix v 0 4 8 12 m[0] m[1]
  let v := mix v 1 5 9 13 m[2] m[3]
  let v := mix v 2 6 10 14 m[4] m[5]
  let v := mix v 3 7 11 15 m[6] m[7]
  let v := mix v 0 5 10 15 m[8] m[9]
  let v := mix v 1 6 11 12 m[10] m[11]
  let v := mix v 2 7 8 13 m[12] m[13]
  mix v 3 4 9 14 m[14] m[15]

/-- The order in which the next round takes the words of the block. -/
def permute (m : Words) : Words :=
  #v[m[2], m[6], m[3], m[10], m[7], m[0], m[4], m[13],
     m[1], m[11], m[12], m[5], m[9], m[14], m[15], m[8]]

/-- Runs `count` rounds, permuting the block after each. -/
def rounds : Nat → Words → Words → Words
  | 0, v, _ => v
  | count + 1, v, m => rounds count (round v m) (permute m)

/-- All that a compression takes: a node of the tree before it is known whether it is the root. -/
structure Node where
  chain : ChainingValue
  block : Words
  counter : UInt64
  blockLength : UInt32
  flags : UInt32

/-- The chaining value of a node, with `extra` flags. -/
def Node.compress (n : Node) (extra : UInt32) : ChainingValue :=
  let h := n.chain
  let v : Words :=
    #v[h[0], h[1], h[2], h[3], h[4], h[5], h[6], h[7],
       0x6a09e667, 0xbb67ae85, 0x3c6ef372, 0xa54ff53a,
       n.counter.toUInt32, (n.counter >>> 32).toUInt32, n.blockLength, n.flags ||| extra]
  let v := rounds 7 v n.block
  #v[v[0] ^^^ v[8], v[1] ^^^ v[9], v[2] ^^^ v[10], v[3] ^^^ v[11],
     v[4] ^^^ v[12], v[5] ^^^ v[13], v[6] ^^^ v[14], v[7] ^^^ v[15]]

/-- The word at index `i` of at most 64 octets, which zeros follow. -/
def wordAt (o : Octets) (i : Nat) : UInt32 :=
  UInt32.ofNat (Octets.ofLittleEndian ((o.drop (4 * i)).take 4))

/-- At most 64 octets as a block, with zeros after them. -/
def blockWords (o : Octets) : Words := Vector.ofFn fun i : Fin 16 => wordAt o i

/-- The node of a chunk's last block. `blocks` counts the blocks that come before the last. -/
def chunkBlocks (counter : UInt64) : Nat → ChainingValue → UInt32 → Octets → Node
  | 0, chain, flags, o =>
    ⟨chain, blockWords o, counter, UInt32.ofNat o.length, flags ||| chunkEnd⟩
  | blocks + 1, chain, flags, o =>
    let node : Node := ⟨chain, blockWords (o.take 64), counter, 64, flags⟩
    chunkBlocks counter blocks (node.compress 0) 0 (o.drop 64)

/-- The node of the chunk that has the given number in the message. -/
def chunkNode (counter : UInt64) (chunk : Octets) : Node :=
  chunkBlocks counter ((chunk.length - 1) / 64) initial chunkStart chunk

/-- The node that joins two subtrees. -/
def parentNode (left right : Node) : Node :=
  let l := left.compress 0
  let r := right.compress 0
  ⟨initial, l ++ r, 0, 64, parent⟩

/-- The top node over the octets from chunk `first` on, for at most `2 ^ height` chunks. A tree
that needs the height has a full left subtree of half as many chunks. -/
def tree : (height : Nat) → (first : Nat) → Octets → Node
  | 0, first, o => chunkNode (UInt64.ofNat first) o
  | height + 1, first, o =>
    -- a left subtree is split off only if something remains for the right one
    let left := 2 ^ height * 1024
    if o.length ≤ left then tree height first o
    else parentNode (tree height first (o.take left)) (tree height (first + 2 ^ height) (o.drop left))

/-- A height that is enough for a message of `length` octets. -/
def heightFor (length : Nat) : Nat := Nat.log2 (length / 1024 + 1) + 1

/-- The 32 octets of a message's hash. -/
def hash (message : Octets) : Octets :=
  let value := (tree (heightFor message.length) 0 message).compress root
  value.toList.flatMap fun w => Octets.littleEndian 4 w.toNat

/-- A hash has 32 octets. -/
theorem length_hash (message : Octets) : (hash message).length = 32 := by
  simp [hash, List.length_flatMap, List.map_const']

end Settlement.Blake3
