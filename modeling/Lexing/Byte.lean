/-! The bytes that lexemes are made of. Every class below lies in the ASCII range, so the bytes of
a longer character belong to none of them. -/
namespace Lexing.Byte

abbrev tab : UInt8 := 0x09
abbrev lineFeed : UInt8 := 0x0A
abbrev carriageReturn : UInt8 := 0x0D
abbrev space : UInt8 := 0x20
abbrev quote : UInt8 := 0x22
abbrev point : UInt8 := 0x2E
abbrev backslash : UInt8 := 0x5C
abbrev underscore : UInt8 := 0x5F

/-- Space, tab and carriage return separate lexemes. A line feed does not: it is a lexeme. -/
def isBlank (b : UInt8) : Bool := b == space || b == tab || b == carriageReturn

def isDigit (b : UInt8) : Bool := 0x30 ≤ b && b ≤ 0x39

def isLetter (b : UInt8) : Bool := (0x41 ≤ b && b ≤ 0x5A) || (0x61 ≤ b && b ≤ 0x7A)

def isWordStart (b : UInt8) : Bool := isLetter b || b == underscore

def isWordPart (b : UInt8) : Bool := isWordStart b || isDigit b

/-- ASCII punctuation: every printing character but letters, digits and the space. -/
def isSymbol (b : UInt8) : Bool :=
  (0x21 ≤ b && b ≤ 0x2F) || (0x3A ≤ b && b ≤ 0x40) || (0x5B ≤ b && b ≤ 0x60) ||
    (0x7B ≤ b && b ≤ 0x7E)

def isDelimiter (b : UInt8) : Bool := b == quote || b == backslash

/-- The second, third and fourth bytes of a longer character. -/
def isContinuation (b : UInt8) : Bool := 0x80 ≤ b && b ≤ 0xBF

end Lexing.Byte
