import RequestSigning.KeyDerivation.Pbkdf2
set_option autoImplicit false

namespace RequestSigning.KeyDerivation

namespace Scrypt

/-- Sixteen words. -/
abbrev Block := Array UInt32

def rotateLeft (x n : UInt32) : UInt32 :=
  x <<< n ||| x >>> (32 - n)

def change (block : Block) (target left right : Nat) (n : UInt32) : Block :=
  block.setIfInBounds target
    (block.getD target 0 ^^^ rotateLeft (block.getD left 0 + block.getD right 0) n)

def quarterRound (block : Block) : Nat × Nat × Nat × Nat → Block
  | (a, b, c, d) =>
    let block := change block b a d 7
    let block := change block c b a 9
    let block := change block d c b 13
    change block a d c 18

/-- The columns and then the rows. -/
def doubleRound (block : Block) : Block :=
  [(0, 4, 8, 12), (5, 9, 13, 1), (10, 14, 2, 6), (15, 3, 7, 11),
    (0, 1, 2, 3), (5, 6, 7, 4), (10, 11, 8, 9), (15, 12, 13, 14)].foldl quarterRound block

/-- Salsa20 with eight rounds. -/
def salsa (block : Block) : Block :=
  let mixed := doubleRound (doubleRound (doubleRound (doubleRound block)))
  Array.zipWith (· + ·) block mixed

def xor (left right : Block) : Block :=
  Array.zipWith (· ^^^ ·) left right

/-- The members at even places and those at odd places. -/
def unshuffle {α : Type} : List α → List α × List α
  | a :: b :: rest => let (evens, odds) := unshuffle rest; (a :: evens, b :: odds)
  | rest => (rest, [])

/-- The blocks after each was added to the running one and mixed. -/
def mixFrom (running : Block) : List Block → List Block
  | [] => []
  | block :: rest =>
    let running := salsa (xor running block)
    running :: mixFrom running rest

def blockMix (blocks : List Block) : List Block :=
  let (evens, odds) := unshuffle (mixFrom (blocks.getLastD #[]) blocks)
  evens ++ odds

/-- `n` successive mixes, each from the one before, and what the last leads to. -/
def fill (n : Nat) (blocks : List Block) : Array (List Block) × List Block :=
  (List.range n).foldl (fun (table, blocks) _ => (table.push blocks, blockMix blocks)) (#[], blocks)

/-- Mixes in a row of the table that the data itself picks. -/
def pick (table : Array (List Block)) (blocks : List Block) : List Block :=
  let place := ((blocks.getLastD #[]).getD 0 0).toNat % table.size
  blockMix (List.zipWith xor blocks (table.getD place []))

def romix (n : Nat) (blocks : List Block) : List Block :=
  let (table, blocks) := fill n blocks
  (List.range n).foldl (fun blocks _ => pick table blocks) blocks

def toBlocks (bytes : Bytes) : List Block :=
  (bytes.chunks 64).map fun piece =>
    ((piece.chunks 4).map fun word => Bytes.toUInt32 word.reverse).toArray

def ofBlocks (blocks : List Block) : Bytes :=
  blocks.flatMap fun block => block.toList.flatMap fun word => (Bytes.ofUInt32 word).reverse

end Scrypt

/-- How much work a scrypt derivation is. -/
structure ScryptCost where
  /-- The rows of the table, a power of two. -/
  rows : Nat
  blockSize : Nat
  parallelism : Nat
  deriving Repr, DecidableEq

/-- The limits on the cost; the table's size in bytes is a 64 bit number. -/
def ScryptCost.IsValid (cost : ScryptCost) : Prop :=
  cost.rows = 1 <<< cost.rows.log2 ∧ 0 < cost.blockSize ∧ 0 < cost.parallelism ∧
  cost.rows.log2 < cost.blockSize * 16 ∧ cost.blockSize * cost.parallelism < 0x40000000 ∧
  cost.rows * cost.blockSize * 128 < 0x10000000000000000

instance (cost : ScryptCost) : Decidable cost.IsValid := by
  unfold ScryptCost.IsValid; infer_instance

def scrypt (password salt : Bytes) (cost : ScryptCost) (length : Nat) : Bytes :=
  let lane := 128 * cost.blockSize
  let start := pbkdf2 .sha256 password salt 1 (cost.parallelism * lane)
  let mixed := (start.chunks lane).flatMap fun bytes =>
    Scrypt.ofBlocks (Scrypt.romix cost.rows (Scrypt.toBlocks bytes))
  pbkdf2 .sha256 password mixed 1 length

end RequestSigning.KeyDerivation
