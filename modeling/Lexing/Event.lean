import Lexing.Expectation

/-! Events: what a lexer reports of its work. A token that is consumed is traced, and a failure is
reported for debugging. -/
namespace Lexing

inductive Event where
  | consumed (token : Token)
  | faulted (fault : Fault)
  | mismatched (mismatch : Mismatch)
deriving DecidableEq, Repr

namespace Event

inductive Level where
  | trace
  | debug
deriving DecidableEq, Repr

def Level.name : Level → String
  | trace => "TRACE"
  | debug => "DEBUG"

def level : Event → Level
  | consumed _ => .trace
  | faulted _ | mismatched _ => .debug

def message : Event → String
  | consumed _ => "next_token"
  | faulted _ => "scan failed"
  | mismatched _ => "expectation failed"

def ofAnswer : Except Fault Token → Event
  | .ok t => consumed t
  | .error f => faulted f

end Event

end Lexing
