import Lexing.Proofs.Delivery
import Lexing.Proofs.Standing

/-! Consumption. Whatever a lexer is asked, its cursor moves as calls of the scanner move it, with a
flag for each token consumed, and what it traces are the tokens that those calls find. -/
namespace Lexing

variable {υ : Type}

def Cursor.after : Cursor → List Bool → Cursor
  | c, [] => c
  | c, ignoreNewline :: flags => (c.nextToken ignoreNewline).cursor.after flags

/-- What a call of the scanner keeps is kept by calls that follow on each other. -/
theorem Cursor.all_after {P : Cursor → Prop}
    (next : ∀ {c : Cursor} (ignoreNewline : Bool), P c → P (c.nextToken ignoreNewline).cursor)
    (flags : List Bool) {c : Cursor} (own : P c) : P (c.after flags) := by
  induction flags generalizing c with
  | nil => exact own
  | cons ignoreNewline flags ih => exact ih (next ignoreNewline own)

theorem Cursor.after_append (c : Cursor) (flags more : List Bool) :
    c.after (flags ++ more) = (c.after flags).after more := by
  induction flags generalizing c with
  | nil => rfl
  | cons ignoreNewline flags ih => exact ih _

theorem Cursor.calls_append (c : Cursor) (flags more : List Bool) :
    c.calls (flags ++ more) = c.calls flags ++ (c.after flags).calls more := by
  induction flags generalizing c with
  | nil => rfl
  | cons ignoreNewline flags ih => exact congrArg (_ :: ·) (ih _)

theorem Cursor.length_calls (c : Cursor) (flags : List Bool) :
    (c.calls flags).length = flags.length := by
  induction flags generalizing c with
  | nil => rfl
  | cons ignoreNewline flags ih => exact congrArg (· + 1) (ih _)

def Event.isTraced (e : Event) : Bool := e.level == .trace

def Cursor.reports (c : Cursor) (flags : List Bool) : List Event :=
  (c.calls flags).map fun r => .ofAnswer r.answer

theorem Cursor.reports_append (c : Cursor) (flags more : List Bool) :
    c.reports (flags ++ more) = c.reports flags ++ (c.after flags).reports more := by
  rw [reports, calls_append, List.map_append]
  rfl

/-- The flags with which a call may consume tokens. To look ahead it uses none, and to see whether a
token is the one demanded it uses one, whatever it finds. -/
def Call.Uses : Call → List Bool → Prop
  | next ignoreNewline, flags => flags = [ignoreNewline]
  | peek _, flags | isNextKind _, flags | isAtEnd, flags | remaining, flags => flags = []
  | eat, flags | expect _, flags | requireSymbol _, flags | requireNumber, flags
  | requireString, flags | requireIdentifier, flags => flags = [false]
  | skipNewlines, flags => ∃ n, flags = List.replicate n false
  | take ignoreNewline n, flags => ∃ k ≤ n, flags = List.replicate k ignoreNewline

/-- What is heard comes of calls with these flags, further reports of failure apart. -/
structure Heard.ComesOf (h : Heard υ) (c : Cursor) (flags : List Bool) : Prop where
  cursor : h.lexer.cursor = c.after flags
  trace : h.events.filter Event.isTraced = (c.reports flags).filter Event.isTraced

theorem trace_require (l : Lexer υ) (e : Expected) :
    (l.require e).events.filter Event.isTraced =
      (l.nextToken false).events.filter Event.isTraced := by
  rcases l.require_cases e with ⟨f, -, same⟩ | ⟨t, -, -, same⟩ | ⟨t, -, -, same⟩
  · rw [same]
  · rw [same]
  · rw [same, List.filter_append]
    exact List.append_nil _

theorem comesOf_require (l : Lexer υ) (e : Expected) (reply : Reply) :
    (Heard.mk reply (l.require e).lexer (l.require e).events).ComesOf l.cursor [false] :=
  ⟨congrArg Lexer.cursor (Source.lexer_require l e), trace_require l e⟩

theorem skipNewlines_go (l : Lexer υ) (count : Nat) (events : Array Event) :
    ∃ n ≤ l.cursor.unread,
      (Lexer.skipNewlines.go l count events).lexer.cursor = l.cursor.after (.replicate n false) ∧
      (Lexer.skipNewlines.go l count events).events =
        events.toList ++ l.cursor.reports (.replicate n false) ∧
      ∀ m, (Lexer.skipNewlines.go l count events).answer = .ok m → m = count + n := by
  fun_induction Lexer.skipNewlines.go l count events with
  | case1 l count events f found =>
    refine ⟨0, Nat.zero_le _, rfl, (List.append_nil _).symm, ?_⟩
    intro m answer
    cases answer
  | case2 l count events found =>
    refine ⟨0, Nat.zero_le _, rfl, (List.append_nil _).symm, ?_⟩
    intro m answer
    cases answer
    rfl
  | case3 l count events found o f failed =>
    have less := Lexer.unread_nextToken_lt_of_isNextKind found
    refine ⟨1, by omega, rfl, ?_, ?_⟩
    · rw [Array.toList_appendList]
      rfl
    · intro m answer
      cases answer
  | case4 l count events found o t answered ih =>
    -- A round consumes a newline, and so one byte at least: there are no more rounds than bytes.
    have less : o.lexer.cursor.unread < l.cursor.unread :=
      Lexer.unread_nextToken_lt_of_isNextKind found
    obtain ⟨n, bound, cursor, reports, counted⟩ := ih
    refine ⟨n + 1, by omega, cursor, ?_, ?_⟩
    · rw [reports, Array.toList_appendList, List.append_assoc]
      rfl
    · intro m answer
      have whole := counted m answer
      omega

theorem pull_reports (n : Nat) (ts : TokenStream υ) :
    ∃ k ≤ n,
      (ts.pull n).stream.lexer.cursor = ts.lexer.cursor.after (.replicate k ts.ignoreNewline) ∧
      (ts.pull n).events = ts.lexer.cursor.reports (.replicate k ts.ignoreNewline) := by
  induction n generalizing ts with
  | zero => exact ⟨0, Nat.le_refl 0, rfl, rfl⟩
  | succ n ih =>
    cases fin : ts.finished with
    | true =>
      rw [TokenStream.pull_of_finished fin]
      exact ⟨0, Nat.zero_le _, rfl, rfl⟩
    | false =>
      obtain ⟨lexer, same, first⟩ := TokenStream.next_of_unfinished fin
      obtain ⟨k, bound, cursor, reports⟩ := ih ts.next.stream
      rw [same, lexer] at cursor reports
      refine ⟨k + 1, Nat.succ_le_succ bound, cursor, ?_⟩
      rw [TokenStream.pull, first, reports]
      rfl

theorem exists_comesOf_ask (l : Lexer υ) (c : Call) :
    ∃ flags, c.Uses flags ∧ (l.ask c).ComesOf l.cursor flags := by
  cases c with
  | next ignoreNewline => exact ⟨_, rfl, rfl, rfl⟩
  | peek ignoreNewline => exact ⟨_, rfl, rfl, rfl⟩
  | isNextKind k => exact ⟨_, rfl, rfl, rfl⟩
  | isAtEnd => exact ⟨_, rfl, rfl, rfl⟩
  | remaining => exact ⟨_, rfl, rfl, rfl⟩
  | eat => exact ⟨_, rfl, rfl, rfl⟩
  | skipNewlines =>
    obtain ⟨n, -, cursor, reports, -⟩ := skipNewlines_go l 0 #[]
    exact ⟨_, ⟨n, rfl⟩, cursor, congrArg (List.filter Event.isTraced) reports⟩
  | expect k => exact ⟨_, rfl, rfl, rfl⟩
  | requireSymbol text => exact ⟨_, rfl, comesOf_require l _ _⟩
  | requireNumber => exact ⟨_, rfl, comesOf_require l (.kind .number) _⟩
  | requireString => exact ⟨_, rfl, comesOf_require l (.kind .string) _⟩
  | requireIdentifier => exact ⟨_, rfl, comesOf_require l (.kind .identifier) _⟩
  | take ignoreNewline n =>
    obtain ⟨k, bound, cursor, reports⟩ := pull_reports n (l.tokens ignoreNewline)
    exact ⟨_, ⟨k, bound, rfl⟩, cursor, congrArg (List.filter Event.isTraced) reports⟩

/-- A session of calls is a run of the scanner, and traces the tokens of that run. -/
theorem exists_uses_run (x : Session υ) (calls : List Call) :
    ∃ uses, List.Forall₂ Call.Uses calls uses ∧
      (x.run (calls.map .call)).lexer.cursor = x.lexer.cursor.after uses.flatten ∧
      (x.run (calls.map .call)).events.filter Event.isTraced =
        x.events.filter Event.isTraced ++
          (x.lexer.cursor.reports uses.flatten).filter Event.isTraced := by
  induction calls generalizing x with
  | nil => exact ⟨[], .nil, rfl, (List.append_nil _).symm⟩
  | cons c calls ih =>
    obtain ⟨flags, used, comes⟩ := exists_comesOf_ask x.lexer c
    obtain ⟨uses, all, cursor, trace⟩ := ih (x.hear (x.lexer.ask c))
    have behind : (x.hear (x.lexer.ask c)).lexer.cursor = x.lexer.cursor.after flags := comes.cursor
    have heard : (x.hear (x.lexer.ask c)).events.filter Event.isTraced =
        x.events.filter Event.isTraced ++
          (x.lexer.cursor.reports flags).filter Event.isTraced := by
      rw [← comes.trace]
      exact List.filter_append _ _
    rw [behind] at cursor trace
    rw [heard] at trace
    -- A call may consume no token or many: each has flags of its own, and the run has them all.
    refine ⟨flags :: uses, .cons used all, ?_, ?_⟩
    · rw [List.flatten_cons, Cursor.after_append]
      exact cursor
    · rw [List.flatten_cons, Cursor.reports_append, List.filter_append, ← List.append_assoc]
      exact trace

end Lexing
