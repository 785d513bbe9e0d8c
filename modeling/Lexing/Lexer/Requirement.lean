import Lexing.Lexer

/-! Requirements: operations for tokens that a grammar demands. Each consumes one token, whether
it is the one demanded or not. -/
namespace Lexing.Lexer

variable {υ : Type}

/-- Consumes the next token and tells whether it is of a kind. -/
def expect (l : Lexer υ) (k : Token.Kind) : Outcome υ Fault (Token × Bool) :=
  (l.nextToken false).map fun t => (t, t.hasKind k)

/-- Consumes the next token, which has to be as expected. -/
def require (l : Lexer υ) (e : Expected) : Outcome υ Refusal Token :=
  let o := l.nextToken false
  match o.answer with
  | .error f => ⟨.error (.fault f), o.lexer, o.events⟩
  | .ok t =>
    if e.admits t then ⟨.ok t, o.lexer, o.events⟩
    else ⟨.error (.mismatch ⟨e, t⟩), o.lexer, o.events ++ [.mismatched ⟨e, t⟩]⟩

theorem require_cases (l : Lexer υ) (e : Expected) :
    let o := l.nextToken false
    (∃ f, o.answer = .error f ∧ l.require e = ⟨.error (.fault f), o.lexer, o.events⟩) ∨
    (∃ t, o.answer = .ok t ∧ e.admits t = true ∧ l.require e = ⟨.ok t, o.lexer, o.events⟩) ∨
    (∃ t, o.answer = .ok t ∧ e.admits t = false ∧
      l.require e =
        ⟨.error (.mismatch ⟨e, t⟩), o.lexer, o.events ++ [.mismatched ⟨e, t⟩]⟩) := by
  intro o
  cases found : o.answer with
  | error f => exact .inl ⟨f, rfl, by simp [require, o, found]⟩
  | ok t =>
    cases admitted : e.admits t with
    | true => exact .inr (.inl ⟨t, rfl, admitted, by simp [require, o, found, admitted]⟩)
    | false => exact .inr (.inr ⟨t, rfl, admitted, by simp [require, o, found, admitted]⟩)

def requireSymbol (l : Lexer υ) (text : String) : Outcome υ Refusal Token :=
  l.require (.symbol text)

def requireNumber (l : Lexer υ) : Outcome υ Refusal Binary64 :=
  let o := l.require (.kind .number)
  ⟨o.answer.bind Token.number, o.lexer, o.events⟩

def requireString (l : Lexer υ) : Outcome υ Refusal String :=
  (l.require (.kind .string)).map Token.text

def requireIdentifier (l : Lexer υ) : Outcome υ Refusal String :=
  (l.require (.kind .identifier)).map Token.text

end Lexing.Lexer
