import IBLexer.Unicode.Ranges

/-! The property White_Space of Unicode 17.0. The line feed and the carriage return
belong to it; the zero width space U+200B does not. -/
namespace IBLexer.Unicode

def blankRanges : List (Nat × Nat) :=
  [
    (0x9, 0xD), (0x20, 0x20), (0x85, 0x85), (0xA0, 0xA0), (0x1680, 0x1680),
    (0x2000, 0x200A), (0x2028, 0x2029), (0x202F, 0x202F), (0x205F, 0x205F), (0x3000, 0x3000)
  ]

def isBlank (c : Char) : Bool := inRanges blankRanges c

end IBLexer.Unicode
