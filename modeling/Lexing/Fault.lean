import Lexing.Cursor
import Lexing.Text.Quoted

/-! Faults: the places where a source holds no lexeme. A fault keeps the line it lies on, so that
it can be shown without the source. -/
namespace Lexing

inductive Fault.Cause where
  /-- A string is still open where the source ends. -/
  | unclosedString
  /-- A second point follows a number that already has one. -/
  | secondPoint
  /-- No lexeme starts with this character. -/
  | strayCharacter (found : Char)
deriving DecidableEq, Repr

def Fault.Cause.message : Cause → String
  | unclosedString => "unterminated string"
  | secondPoint => "two dots in a float"
  | strayCharacter found => "unknown token " ++ Text.quoted found

instance : ToString Fault.Cause := ⟨Fault.Cause.message⟩

/-- What is wrong and where. An unclosed string is placed at its opening quote, a second point at
that point, and a stray character at itself. -/
structure Fault where
  cause : Fault.Cause
  pos : Position
  line : Line
deriving DecidableEq, Repr

namespace Fault

def locate (cause : Cause) (pos : Position) (c : Cursor) : Fault :=
  ⟨cause, pos, c.lineAt pos.offset⟩

def message (f : Fault) : String := toString f.pos ++ ": " ++ f.cause.message

instance : ToString Fault := ⟨message⟩

def indent (f : Fault) : String :=
  ((Source.mk f.line.text).slice 0 (f.pos.offset.toNat - f.line.start)).map fun c =>
    if c = '\t' then '\t' else ' '

/-- The message, the line, and a caret under the place of the fault. -/
def render (f : Fault) : String :=
  f.message ++ "\n  " ++ f.line.text ++ "\n  " ++ f.indent ++ "^"

end Fault

end Lexing
