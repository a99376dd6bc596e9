import NodeQuery.Number.Binary64
import NodeQuery.Text.Lowercase
/-!
How much of a pattern is found in a text. Two sequences are aligned at their longest common block,
of several the one that starts first in the pattern and then first in the text; what lies before the
block is aligned in the same way, and what lies after it. The score is the number of aligned
characters as a fraction of the pattern, without regard to case.
-/
namespace NodeQuery.Alignment

/-- A common block: where it starts in each sequence, and its length. -/
structure Block where
  first : Nat
  second : Nat
  size : Nat
  deriving DecidableEq, Repr

/-- The longer of two blocks, the earlier one if they are equally long. -/
def Block.longer (earlier later : Block) : Block :=
  if earlier.size < later.size then later else earlier

/-- The longest block that starts at a place of the first sequence, given the lengths of the blocks
from each place of the second. -/
def longestOf (first : Nat) : Nat → List Nat → Block
  | second, [] => ⟨first, second, 0⟩
  | second, n :: rest => Block.longer ⟨first, second, n⟩ (longestOf first (second + 1) rest)

/-- The lengths of the common beginnings of `c :: a` with every suffix of `b`, the longest first,
given those of `a`. -/
def extendStarts (c : Char) (b : List Char) (starts : List Nat) : List Nat :=
  List.zipWith (fun d n => if c = d then n + 1 else 0) b (starts.tail ++ [0])

/-- The lengths of the common beginnings of `a` with every suffix of `b`, and the longest common
block, its place in `a` counted from `first`. -/
def scan (first : Nat) : List Char → List Char → List Nat × Block
  | [], b => (b.map fun _ => 0, ⟨first, 0, 0⟩)
  | c :: a, b =>
    let (starts, best) := scan (first + 1) a b
    let starts := extendStarts c b starts
    (starts, Block.longer (longestOf first 0 starts) best)

/-- The longest common block of two sequences. -/
def longest (a b : List Char) : Block :=
  (scan 0 a b).2

/-- The number of aligned characters. Every block shortens the first sequence, so its length is
enough as `fuel`. -/
def alignedWithin : Nat → List Char → List Char → Nat
  | 0, _, _ => 0
  | fuel + 1, a, b =>
    let block := longest a b
    if block.size = 0 then 0
    else
      block.size + alignedWithin fuel (a.take block.first) (b.take block.second) +
        alignedWithin fuel (a.drop (block.first + block.size)) (b.drop (block.second + block.size))

/-- The number of aligned characters of two sequences. -/
def aligned (a b : List Char) : Nat :=
  alignedWithin a.length a b

/-- The fraction of a pattern that is found in a text; the empty pattern is found in full. -/
def score (pattern text : List Char) : Binary64 :=
  if pattern.isEmpty then .finite false 1
  else Binary64.ofQuotient false (aligned (Text.lower pattern) (Text.lower text)) pattern.length

/-- Nothing is aligned with an empty sequence. -/
theorem aligned_nil_left (b : List Char) : aligned [] b = 0 := rfl

end NodeQuery.Alignment
