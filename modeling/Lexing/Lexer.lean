import Lexing.Event
import Lexing.Scan.Next

/-! Lexers: a cursor that is read token by token, with data of the reader's own carried along
untouched. Whatever consumes a token reports it. Looking ahead neither consumes nor reports. -/
namespace Lexing

structure Lexer (υ : Type) where
  cursor : Cursor
  userData : υ

/-- What an operation on a lexer gives: its answer, the lexer afterwards, and what was reported,
the first event first. -/
structure Outcome (υ ε α : Type) where
  answer : Except ε α
  lexer : Lexer υ
  events : List Event

def Outcome.map {υ ε α β : Type} (f : α → β) (o : Outcome υ ε α) : Outcome υ ε β :=
  ⟨o.answer.map f, o.lexer, o.events⟩

namespace Lexer

variable {υ : Type}

def ofText (text : String) (userData : υ) (tabWidth : UInt32 := defaultTabWidth) : Lexer υ :=
  ⟨{ source := ⟨text⟩, tabWidth := tabWidth }, userData⟩

def plain (text : String) : Lexer Unit := ofText text ()

def position (l : Lexer υ) : Position := l.cursor.pos

def text (l : Lexer υ) : String := l.cursor.source.text

def remaining (l : Lexer υ) : String :=
  l.cursor.source.slice l.cursor.offset l.cursor.source.limit

/-- Whether only blanks remain. -/
def isAtEnd (l : Lexer υ) : Bool := l.remaining.toByteArray.data.all Byte.isBlank

def nextToken (l : Lexer υ) (ignoreNewline : Bool) : Outcome υ Fault Token :=
  let r := l.cursor.nextToken ignoreNewline
  ⟨r.answer, { l with cursor := r.cursor }, [.ofAnswer r.answer]⟩

def peek (l : Lexer υ) (ignoreNewline : Bool) : Except Fault Token :=
  (l.cursor.nextToken ignoreNewline).answer

def isNextKind (l : Lexer υ) (k : Token.Kind) : Except Fault Bool :=
  (l.peek false).map (·.hasKind k)

def eat (l : Lexer υ) : Outcome υ Fault Bool := (l.nextToken false).map Token.hasMore

theorem unread_nextToken_lt_of_isNextKind {l : Lexer υ} {k : Token.Kind}
    (h : l.isNextKind k = .ok true) :
    (l.nextToken false).lexer.cursor.unread < l.cursor.unread := by
  unfold isNextKind peek at h
  cases found : (l.cursor.nextToken false).answer with
  | error f => simp [found, Except.map] at h
  | ok t =>
    simp only [found, Except.map, Except.ok.injEq, Token.hasKind, Bool.and_eq_true] at h
    exact Cursor.unread_nextToken_lt found h.1

/-- Consumes newlines as long as the next token is one, and counts them. A fault behind them is
found by looking ahead. -/
def skipNewlines (l : Lexer υ) : Outcome υ Fault Nat := go l 0 #[]
where
  go (l : Lexer υ) (count : Nat) (events : Array Event) : Outcome υ Fault Nat :=
    match _ : l.isNextKind .newline with
    | .error f => ⟨.error f, l, events.toList⟩
    | .ok false => ⟨.ok count, l, events.toList⟩
    | .ok true =>
      let o := l.nextToken false
      match o.answer with
      | .error f => ⟨.error f, o.lexer, (events ++ o.events).toList⟩
      | .ok _ => go o.lexer (count + 1) (events ++ o.events)
  termination_by l.cursor.unread
  decreasing_by exact unread_nextToken_lt_of_isNextKind (by assumption)

end Lexer

end Lexing
