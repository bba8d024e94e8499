/-! White space: the characters with the Unicode property White_Space, and the texts that hold
nothing else. -/
namespace DocumentStore.Text

/-- The 25 characters with the property White_Space. -/
def isBlank (c : Char) : Bool :=
  let n := c.toNat
  (9 ≤ n && n ≤ 13) || n == 0x20 || n == 0x85 || n == 0xA0 || n == 0x1680 ||
    (0x2000 ≤ n && n ≤ 0x200A) || n == 0x2028 || n == 0x2029 || n == 0x202F || n == 0x205F || n == 0x3000

/-- Nothing but white space, the empty text included. -/
def isBlankText (s : String) : Bool := s.toList.all isBlank

/-- The text from its first character that is no white space. -/
def dropBlank (cs : List Char) : List Char := cs.dropWhile isBlank

end DocumentStore.Text
