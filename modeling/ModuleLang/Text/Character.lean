/-!
Blank characters: those with the property White_Space.
-/

namespace ModuleLang.Text

def isBlank (character : Char) : Bool :=
  let code := character.toNat
  (0x9 ≤ code && code ≤ 0xd) || code == 0x20 || code == 0x85 || code == 0xa0 ||
    code == 0x1680 || (0x2000 ≤ code && code ≤ 0x200a) || code == 0x2028 || code == 0x2029 ||
    code == 0x202f || code == 0x205f || code == 0x3000

/-- Every character that the core library calls whitespace is blank. -/
theorem isBlank_of_isWhitespace {character : Char} (white : character.isWhitespace = true) :
    isBlank character = true := by
  simp only [Char.isWhitespace, Bool.or_eq_true, decide_eq_true_eq] at white
  rcases white with ((rfl | rfl) | rfl) | rfl <;> decide

/-- `\n`, and `\r` with or without `\n`, end a row. -/
def isLineBreak (character : Char) : Bool := character == '\n' || character == '\r'

/-- Without the blanks at either end. -/
def trim (text : List Char) : List Char :=
  ((text.dropWhile isBlank).reverse.dropWhile isBlank).reverse

/-!
Sets of code points given by an ascending table of bounds. The set starts
outside and changes sides at every bound, so a number belongs to it when an odd
count of bounds lies at or below the number.
-/

/-- How many bounds of `bounds` between `low` and `low + width` lie at or below
`value`, added to `low`. The search halves the width at every step and `steps`
limits their number. -/
def upperBound (bounds : Array Nat) (value : Nat) : (steps low width : Nat) → Nat
  | 0, low, _ => low
  | steps + 1, low, width =>
      if width = 0 then low
      else
        let half := width / 2
        if bounds.getD (low + half) 0 ≤ value then
          upperBound bounds value steps (low + half + 1) (width - half - 1)
        else upperBound bounds value steps low half

def inRanges (bounds : Array Nat) (value : Nat) : Bool :=
  upperBound bounds value bounds.size 0 bounds.size % 2 == 1

end ModuleLang.Text
