import Lexing.Lexer.Requirement
import Lexing.TokenStream

/-! Sessions: what can be done with a lexer, in any order. Its calls and the moves of its cursor
stand beside each other, and a session keeps what it was told and the lexers that it saved. -/
namespace Lexing

/-- What a lexer is asked. `take` asks a fresh token stream so many times. -/
inductive Call where
  | next (ignoreNewline : Bool)
  | peek (ignoreNewline : Bool)
  | isNextKind (k : Token.Kind)
  | isAtEnd
  | remaining
  | eat
  | skipNewlines
  | expect (k : Token.Kind)
  | requireSymbol (text : String)
  | requireNumber
  | requireString
  | requireIdentifier
  | take (ignoreNewline : Bool) (n : Nat)

inductive Reply where
  | token (answer : Except Fault Token)
  | flag (answer : Except Fault Bool)
  | count (answer : Except Fault Nat)
  | expected (answer : Except Fault (Token × Bool))
  | required (answer : Except Refusal Token)
  | number (answer : Except Refusal Binary64)
  | text (answer : Except Refusal String)
  | items (items : List (Option (Except Fault Token)))

def answerPlaces {ε α : Type} (fault : ε → Position) (tokens : α → List Position) :
    Except ε α → List Position
  | .ok a => tokens a
  | .error e => [fault e]

def Reply.places : Reply → List Position
  | token answer => answerPlaces Fault.pos (fun t => [t.pos]) answer
  | flag answer => answerPlaces Fault.pos (fun _ => []) answer
  | count answer => answerPlaces Fault.pos (fun _ => []) answer
  | expected answer => answerPlaces Fault.pos (fun t => [t.1.pos]) answer
  | required answer => answerPlaces Refusal.pos (fun t => [t.pos]) answer
  | number answer => answerPlaces Refusal.pos (fun _ => []) answer
  | text answer => answerPlaces Refusal.pos (fun _ => []) answer
  | items is => is.flatMap fun i => (i.map (answerPlaces Fault.pos fun t => [t.pos])).getD []

def Event.pos : Event → Position
  | consumed t => t.pos
  | faulted f => f.pos
  | mismatched m => m.pos

structure Heard (υ : Type) where
  reply : Reply
  lexer : Lexer υ
  events : List Event

variable {υ : Type}

def Outcome.heard {ε α : Type} (reply : Except ε α → Reply) (o : Outcome υ ε α) : Heard υ :=
  ⟨reply o.answer, o.lexer, o.events⟩

def Lexer.ask (l : Lexer υ) : Call → Heard υ
  | .next ignoreNewline => (l.nextToken ignoreNewline).heard .token
  | .peek ignoreNewline => ⟨.token (l.peek ignoreNewline), l, []⟩
  | .isNextKind k => ⟨.flag (l.isNextKind k), l, []⟩
  | .isAtEnd => ⟨.flag (.ok l.isAtEnd), l, []⟩
  | .remaining => ⟨.text (.ok l.remaining), l, []⟩
  | .eat => l.eat.heard .flag
  | .skipNewlines => l.skipNewlines.heard .count
  | .expect k => (l.expect k).heard .expected
  | .requireSymbol text => (l.requireSymbol text).heard .required
  | .requireNumber => l.requireNumber.heard .number
  | .requireString => l.requireString.heard .text
  | .requireIdentifier => l.requireIdentifier.heard .text
  | .take ignoreNewline n =>
    let d := (l.tokens ignoreNewline).pull n
    ⟨.items d.items, d.stream.lexer, d.events⟩

inductive Step where
  | bump
  | advance (n : UInt32)
  | eatWhile (p : UInt8 → Bool)
  | eatBlanks
  | skipToDelimiter
  | save
  /-- Goes back to a saved lexer, which stays saved. -/
  | restore (k : Nat)
  /-- A call of the scanner itself, which reports nothing. -/
  | scan (ignoreNewline : Bool)
  | call (c : Call)

structure Session (υ : Type) where
  lexer : Lexer υ
  saved : List (Lexer υ) := []
  replies : List Reply := []
  events : List Event := []

namespace Session

def move (x : Session υ) (c : Cursor) : Session υ := { x with lexer := { x.lexer with cursor := c } }

def hear (x : Session υ) (h : Heard υ) : Session υ :=
  { x with lexer := h.lexer, replies := x.replies ++ [h.reply], events := x.events ++ h.events }

def step (x : Session υ) : Step → Session υ
  | .bump => x.move x.lexer.cursor.bump
  | .advance n => x.move (x.lexer.cursor.advance n)
  | .eatWhile p => x.move (x.lexer.cursor.eatWhile p)
  | .eatBlanks => x.move x.lexer.cursor.eatBlanks
  | .skipToDelimiter => x.move x.lexer.cursor.skipToDelimiter.2
  | .save => { x with saved := x.saved ++ [x.lexer] }
  | .restore k => { x with lexer := x.saved.getD k x.lexer }
  | .scan ignoreNewline =>
    let r := x.lexer.cursor.nextToken ignoreNewline
    x.hear ⟨.token r.answer, { x.lexer with cursor := r.cursor }, []⟩
  | .call c => x.hear (x.lexer.ask c)

def run (x : Session υ) (steps : List Step) : Session υ := steps.foldl step x

/-- The session that some steps lead to from a fresh lexer. -/
def reached (text : String) (tabWidth : UInt32) (userData : υ) (steps : List Step) : Session υ :=
  run { lexer := Lexer.ofText text userData tabWidth } steps

end Session

end Lexing
