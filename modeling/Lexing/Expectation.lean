import Lexing.Fault
import Lexing.Token
import Lexing.Binary64

/-! What a grammar requires of the next token, and how it can be let down. -/
namespace Lexing

inductive Expected where
  /-- Any token of the kind. -/
  | kind (k : Token.Kind)
  /-- The one symbol with this text. -/
  | symbol (text : String)
deriving DecidableEq, Repr

namespace Expected

def admits : Expected → Token → Bool
  | kind k, t => t.kind == k
  | symbol text, t => t.isSymbol text

def description : Expected → String
  | kind k => k.name
  | symbol text => "symbol `" ++ text ++ "`"

instance : ToString Expected := ⟨description⟩

end Expected

/-- A token that is not the one required. -/
structure Mismatch where
  expected : Expected
  found : Token
deriving DecidableEq, Repr

namespace Mismatch

def pos (m : Mismatch) : Position := m.found.pos

def message (m : Mismatch) : String :=
  toString m.pos ++ ": expected " ++ m.expected.description ++ ", found " ++ m.found.description

instance : ToString Mismatch := ⟨message⟩

end Mismatch

/-- Why a required token was not delivered. -/
inductive Refusal where
  | fault (f : Fault)
  | mismatch (m : Mismatch)
  /-- A number token whose text is no decimal. -/
  | invalidNumber (text : String) (pos : Position)
deriving DecidableEq, Repr

namespace Refusal

def pos : Refusal → Position
  | fault f => f.pos
  | mismatch m => m.pos
  | invalidNumber _ pos => pos

def message : Refusal → String
  | fault f => f.message
  | mismatch m => m.message
  | invalidNumber text pos => toString pos ++ ": invalid number `" ++ text ++ "`"

instance : ToString Refusal := ⟨message⟩

end Refusal

def Token.number (t : Token) : Except Refusal Binary64 :=
  match Decimal.ofText? t.text with
  | some x => .ok (.ofDecimal x)
  | none => .error (.invalidNumber t.text t.pos)

end Lexing
