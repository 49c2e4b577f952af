/-!
# Ranges of characters

A class of characters is a list of ranges, each given by its first and last code point, in
ascending order and apart from one another.
-/

namespace Idl.Text

abbrev Ranges := List (Nat × Nat)

namespace Ranges

def contains (ranges : Ranges) (c : Char) : Bool :=
  ranges.any fun range => range.1 ≤ c.toNat && c.toNat ≤ range.2

def count : Ranges → Nat
  | [] => 0
  | (first, last) :: rest => last + 1 - first + count rest

/-- Every range starts at or after the code point, and leaves a gap to the next one. -/
def ascendsFrom : Nat → Ranges → Bool
  | _, [] => true
  | least, (first, last) :: rest => least ≤ first && first ≤ last && ascendsFrom (last + 2) rest

end Ranges
end Idl.Text
