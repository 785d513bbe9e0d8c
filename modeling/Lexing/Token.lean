import Lexing.Position

/-! Tokens: what a stretch of a source was recognised as, with its text, its range and its place.
-/
namespace Lexing

inductive Token.Kind where
  /-- A letter or an underscore, followed by letters, digits and underscores. -/
  | identifier
  /-- Digits with at most one point among, before or after them. -/
  | number
  /-- A text between double quotes, which the token's text leaves out. -/
  | string
  /-- One punctuation character. -/
  | symbol
  /-- A line feed. The token's text is empty. -/
  | newline
  /-- The end, where it is found again and again. -/
  | endOfStream
deriving DecidableEq, Repr

namespace Token.Kind

def name : Kind → String
  | identifier => "identifier"
  | number => "number"
  | string => "string"
  | symbol => "symbol"
  | newline => "newline"
  | endOfStream => "end of stream"

instance : ToString Kind := ⟨name⟩

end Token.Kind

structure Token where
  kind : Token.Kind
  text : String
  span : Span
  pos : Position
deriving DecidableEq, Repr

namespace Token

def isEndOfStream (t : Token) : Bool := t.kind == .endOfStream

/-- Whether the token stands for something in the source. -/
def hasMore (t : Token) : Bool := !t.isEndOfStream

def isNewline (t : Token) : Bool := t.kind == .newline

theorem hasMore_of_isNewline {t : Token} (newline : t.isNewline = true) : t.hasMore = true := by
  rw [isNewline, beq_iff_eq] at newline
  rw [hasMore, isEndOfStream, newline]
  rfl

/-- Whether the token is of a kind. The end of the stream is reported as of none. -/
def hasKind (t : Token) (k : Kind) : Bool := t.hasMore && t.kind == k

def isSymbol (t : Token) (text : String) : Bool := t.kind == .symbol && t.text == text

def description (t : Token) : String :=
  match t.kind with
  | .newline | .endOfStream => t.kind.name
  | .string => t.kind.name ++ " \"" ++ t.text ++ "\""
  | .identifier | .number | .symbol => t.kind.name ++ " `" ++ t.text ++ "`"

instance : ToString Token := ⟨description⟩

end Token

end Lexing
