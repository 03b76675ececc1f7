import TypeInType.Text.Ranges

/-!
Characters that only make space: those of Unicode 14 with white space or a
separator as their bidirectional type, and all space separators.
-/

namespace TypeInType

def spacingRanges : List (Nat × Nat) :=
  [(0x9, 0xd), (0x1c, 0x20), (0x85, 0x85), (0xa0, 0xa0), (0x1680, 0x1680), (0x2000, 0x200a),
   (0x2028, 0x2029), (0x202f, 0x202f), (0x205f, 0x205f), (0x3000, 0x3000)]

def isSpacing (char : Char) : Bool :=
  inRanges spacingRanges char.toNat

end TypeInType
