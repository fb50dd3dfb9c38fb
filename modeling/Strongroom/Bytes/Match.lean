import Strongroom.Bytes.Hex
/-!
# Comparing digests

Two digests are compared without stopping at the first difference: the differences of all places
are gathered in one byte, and only that byte is looked at.
-/

namespace Strongroom.Bytes

/-- The differing bits of two strings of bytes, gathered place by place over `seen`. -/
def gatherDifferences (seen : UInt8) : Bytes → Bytes → UInt8
  | a :: as, b :: bs => gatherDifferences (seen ||| (a ^^^ b)) as bs
  | _, _ => seen

/-- Whether two strings of bytes are the same: of one length, and without a differing bit. -/
def isMatch (a b : Bytes) : Bool :=
  a.length == b.length && gatherDifferences 0 a b == 0

end Strongroom.Bytes
