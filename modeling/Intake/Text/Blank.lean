/-!
Blank characters, those with the Unicode property White_Space, and texts
without blanks at their ends (`trim`).
-/
namespace Intake.Text

/-- The code points with the property White_Space, as inclusive ranges. -/
def blankRanges : List (Nat × Nat) :=
  [(0x9,0xd),(0x20,0x20),(0x85,0x85),(0xa0,0xa0),(0x1680,0x1680),(0x2000,0x200a),(0x2028,0x2029),
   (0x202f,0x202f),(0x205f,0x205f),(0x3000,0x3000)]

/-- Whether a code point lies in one of the ranges. -/
def inRanges (ranges : List (Nat × Nat)) (n : Nat) : Bool :=
  ranges.any fun r => decide (r.1 ≤ n) && decide (n ≤ r.2)

def isBlank (c : Char) : Bool := inRanges blankRanges c.toNat

def trimStart (s : List Char) : List Char := s.dropWhile isBlank

/-- The text without the blanks before and after it. -/
def trim (s : List Char) : List Char := (trimStart (trimStart s).reverse).reverse

/-- Trimming, for a string. -/
def trimmed (s : String) : String := String.ofList (trim s.toList)

end Intake.Text
