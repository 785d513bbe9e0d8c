import Lexing.Unicode.Extending
import Lexing.Unicode.Unprintable

/-! A character shown between single quotes so that it can be told apart in any message. What
cannot be seen on its own is shown by its code point, and never as itself. -/
namespace Lexing.Text

/-- The halfwidth voicing marks extend what is before them and are shown as themselves all the
same. -/
def isVoicingMark (c : Char) : Bool := c.toNat == 0xFF9E || c.toNat == 0xFF9F

/-- The Hangul fillers count as letters and print as nothing. -/
def isFiller (c : Char) : Bool :=
  c.toNat == 0x115F || c.toNat == 0x1160 || c.toNat == 0x3164 || c.toNat == 0xFFA0

def isInvisible (c : Char) : Bool :=
  (Unicode.extending.contains c && !isVoicingMark c) || isFiller c || Unicode.unprintable.contains c

def codePoint (c : Char) : String := "\\u\x7b" ++ .ofList (Nat.toDigits 16 c.toNat) ++ "\x7d"

def escaped (c : Char) : String :=
  if c.toNat = 0x00 then "\\0"
  else if c.toNat = 0x09 then "\\t"
  else if c.toNat = 0x0A then "\\n"
  else if c.toNat = 0x0D then "\\r"
  else if c.toNat = 0x27 then "\\'"
  else if c.toNat = 0x5C then "\\\\"
  else if isInvisible c then codePoint c
  else .singleton c

def quoted (c : Char) : String := "'" ++ escaped c ++ "'"

end Lexing.Text
