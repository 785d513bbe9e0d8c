import Lexing.Fault
import Lexing.Token

/-! Scanning: the next token from a cursor on, or the fault that stands in its place, together
with the cursor that is left behind. One byte decides which lexeme follows, two if it is a point.
-/
namespace Lexing

structure Scanned where
  answer : Except Fault Token
  cursor : Cursor

inductive Opening where
  | string
  | newline
  | word
  | number
  | symbol
  | stray
deriving DecidableEq, Repr

/-- A point opens a number only if a digit follows. -/
def Opening.ofByte (b : UInt8) (following : Option UInt8) : Opening :=
  if b = Byte.quote then .string
  else if b = Byte.lineFeed then .newline
  else if Byte.isWordStart b then .word
  else if Byte.isDigit b then .number
  else if b = Byte.point ∧ following.any Byte.isDigit then .number
  else if Byte.isSymbol b then .symbol
  else .stray

namespace Cursor

def lexeme (c : Cursor) (kind : Token.Kind) (stop : Cursor) : Token where
  kind := kind
  text := stop.sliceFrom c.offset
  span := ⟨c.pos.offset, stop.pos.offset⟩
  pos := c.pos

def scanWord (c : Cursor) : Scanned :=
  let stop := c.bump.eatWhile Byte.isWordPart
  ⟨.ok (c.lexeme .identifier stop), stop⟩

def scanSymbol (c : Cursor) : Scanned := ⟨.ok (c.lexeme .symbol c.bump), c.bump⟩

def scanNewline (c : Cursor) : Scanned :=
  ⟨.ok { c.lexeme .newline c.bump with text := "" }, c.bump⟩

def eatNumber (c : Cursor) : Cursor :=
  let whole := c.eatWhile Byte.isDigit
  if whole.byte? = some Byte.point then whole.bump.eatWhile Byte.isDigit else whole

def scanNumber (c : Cursor) : Scanned :=
  let stop := c.eatNumber
  if stop.byte? = some Byte.point then ⟨.error (.locate .secondPoint stop.pos stop), stop⟩
  else ⟨.ok (c.lexeme .number stop), stop⟩

/-- Passes the inside of a string up to its closing quote, or up to the end. A backslash takes the
byte after it along, whatever that is. -/
def eatString (c : Cursor) : Cursor :=
  match _ : c.skipToDelimiter with
  | (some b, stop) => if b = Byte.backslash then eatString stop.bump.bump else stop
  | (none, stop) => stop
termination_by c.unread
decreasing_by
  rename_i found _
  have less := unread_bump_lt (byte?_skipToDelimiter found)
  have skipped := unread_skipToDelimiter_le c
  rw [found] at skipped
  exact Nat.lt_of_le_of_lt (unread_bump_le _) (Nat.lt_of_lt_of_le less skipped)

def scanString (c : Cursor) : Scanned :=
  let inside := c.bump
  let stop := inside.eatString
  match stop.byte? with
  | some _ =>
    ⟨.ok { c.lexeme .string stop.bump with text := stop.sliceFrom inside.offset }, stop.bump⟩
  | none => ⟨.error (.locate .unclosedString c.pos stop), stop⟩

/-- The cursor stays at a stray character, so that it is found again. -/
def scanStray (c : Cursor) (b : UInt8) : Scanned :=
  ⟨.error (.locate (.strayCharacter (c.char?.getD (.ofNat b.toNat))) c.pos c), c⟩

def scanHere (c : Cursor) : Scanned :=
  match c.byte? with
  | none => ⟨.ok { c.lexeme .endOfStream c with text := "" }, c⟩
  | some b =>
    match Opening.ofByte b c.following? with
    | .string => c.scanString
    | .newline => c.scanNewline
    | .word => c.scanWord
    | .number => c.scanNumber
    | .symbol => c.scanSymbol
    | .stray => c.scanStray b

def scan (c : Cursor) : Scanned := c.eatBlanks.scanHere

end Cursor

end Lexing
