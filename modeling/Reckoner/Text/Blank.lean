/-!
# Blank characters and words

`isBlank` is the Unicode property White_Space: twenty-five characters, listed as ranges.
`words` are the longest runs of other characters, and `normalize` writes the words of a text
with single spaces between them, reading the text once from left to right.
-/

namespace Reckoner

/-- The code points with the Unicode property White_Space, as ranges with both ends. -/
def blankRanges : List (Nat × Nat) :=
  [(0x09, 0x0D), (0x20, 0x20), (0x85, 0x85), (0xA0, 0xA0), (0x1680, 0x1680), (0x2000, 0x200A),
   (0x2028, 0x2029), (0x202F, 0x202F), (0x205F, 0x205F), (0x3000, 0x3000)]

def isBlank (c : Char) : Bool :=
  blankRanges.any fun (first, last) => first ≤ c.toNat && c.toNat ≤ last

/-- The characters of a text without those that are blank at either end. -/
def trimBlank (cs : List Char) : List Char :=
  ((cs.dropWhile isBlank).reverse.dropWhile isBlank).reverse

/-- The longest runs of characters that are not blank, in order.  A character that is not blank
joins the word that starts right after it. -/
def words : List Char → List (List Char)
  | [] => []
  | c :: cs =>
    if isBlank c then words cs
    else
      match cs, words cs with
      | d :: _, word :: rest => if isBlank d then [c] :: word :: rest else (c :: word) :: rest
      | _, rest => [c] :: rest

/-- Appends the words of a text to what has been written; `gap` says that the last word is
complete and another one must be set off from it. -/
def appendWords (out : String) (gap : Bool) : List Char → String
  | [] => out
  | c :: cs =>
    if isBlank c then appendWords out (!out.isEmpty) cs
    else appendWords ((if gap then out.push ' ' else out).push c) false cs

/-- The words of a text with single spaces between them. -/
def normalize (text : String) : String := appendWords "" false text.toList

end Reckoner
