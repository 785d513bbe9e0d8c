import Lexing.Proofs.Numbers

/-! Reports of failure. A call that consumes a token reports what it fails with, once and nothing else
for debugging. Passing over newlines is the exception: its faults are found by looking ahead, and
that is silent. -/
namespace Lexing

structure Record where
  level : Event.Level
  message : String
  fields : List (String × String)
deriving DecidableEq, Repr

def Event.fields : Event → List (String × String)
  | consumed t =>
    [("kind", t.kind.name), ("line", toString t.pos.line), ("column", toString t.pos.column),
      ("offset", toString t.pos.offset)]
  | faulted f => [("error", toString f)]
  | mismatched m =>
    [("expected", toString m.expected), ("found", m.found.kind.name), ("line", toString m.pos.line),
      ("column", toString m.pos.column)]

def Event.record (e : Event) : Record := ⟨e.level, e.message, e.fields⟩

def debugRecords (events : List Event) : List Record :=
  (events.map Event.record).filter (·.level == .debug)

/-- A fault is reported with its message, and a mismatch with what was expected and with the kind and
the place of what was found. -/
inductive Record.Reports : Record → Refusal → Prop where
  | fault (f : Fault) : Reports ⟨.debug, "scan failed", [("error", f.message)]⟩ (.fault f)
  | mismatch (m : Mismatch) :
      Reports ⟨.debug, "expectation failed", [("expected", m.expected.description),
        ("found", m.found.kind.name), ("line", toString m.found.pos.line),
        ("column", toString m.found.pos.column)]⟩ (.mismatch m)

def answerRefusals {ε α : Type} (refusal : ε → Refusal) : Except ε α → List Refusal :=
  collected (fun e => [refusal e]) fun _ => []

def itemRefusals (item? : Option (Except Fault Token)) : List Refusal :=
  (item?.map (answerRefusals .fault)).getD []

def Reply.refusals (r : Reply) : List Refusal := r.collect (fun x => [x]) fun _ => []

/-- Looking ahead reports no failure, and passing over newlines looks ahead for its faults. -/
def Call.reportsFailures : Call → Bool
  | peek _ | isNextKind _ | isAtEnd | remaining | skipNewlines => false
  | next _ | eat | expect _ | requireSymbol _ | requireNumber | requireString | requireIdentifier
  | take _ _ => true

variable {υ : Type}

theorem debugRecords_append (es fs : List Event) :
    debugRecords (es ++ fs) = debugRecords es ++ debugRecords fs := by
  simp [debugRecords]

theorem answerRefusals_map {ε α β : Type} (refusal : ε → Refusal) (f : α → β)
    (answer : Except ε α) : answerRefusals refusal (answer.map f) = answerRefusals refusal answer := by
  cases answer <;> rfl

theorem reports_nextToken (l : Lexer υ) (ignoreNewline : Bool) :
    List.Forall₂ Record.Reports (debugRecords (l.nextToken ignoreNewline).events)
      (answerRefusals .fault (l.nextToken ignoreNewline).answer) := by
  unfold Lexer.nextToken
  dsimp only
  cases (l.cursor.nextToken ignoreNewline).answer with
  | ok t => exact .nil
  | error f => exact .cons (.fault f) .nil

theorem Lexer.of_require {l : Lexer υ} {e : Expected} {t : Token}
    (found : (l.require e).answer = .ok t) :
    (l.cursor.nextToken false).answer = .ok t ∧ e.admits t = true := by
  rcases l.require_cases e with ⟨f, -, same⟩ | ⟨u, answer, admitted, same⟩ | ⟨u, -, -, same⟩
  · rw [same] at found
    cases found
  · rw [same] at found
    cases found
    exact ⟨answer, admitted⟩
  · rw [same] at found
    cases found

theorem reports_require (l : Lexer υ) (e : Expected) :
    List.Forall₂ Record.Reports (debugRecords (l.require e).events)
      (answerRefusals id (l.require e).answer) := by
  have consumed := reports_nextToken l false
  rcases l.require_cases e with
    ⟨f, answer, same⟩ | ⟨t, answer, -, same⟩ | ⟨t, answer, -, same⟩
  · rw [answer] at consumed
    rw [same]
    exact consumed
  · rw [answer] at consumed
    rw [same]
    exact consumed
  · rw [answer] at consumed
    rw [same, debugRecords_append]
    exact List.rel_append consumed (.cons (.mismatch ⟨e, t⟩) .nil)

theorem reports_next (ts : TokenStream υ) :
    List.Forall₂ Record.Reports (debugRecords ts.next.events) (itemRefusals ts.next.item?) := by
  cases fin : ts.finished with
  | true =>
    rw [TokenStream.next_of_finished fin]
    exact .nil
  | false =>
    have consumed := reports_nextToken ts.lexer ts.ignoreNewline
    cases found : (ts.lexer.nextToken ts.ignoreNewline).answer with
    | error f =>
      rw [found] at consumed
      rw [TokenStream.next_of_fault fin found]
      exact consumed
    | ok t =>
      rw [found] at consumed
      cases more : t.hasMore with
      | true =>
        rw [TokenStream.next_of_hasMore fin found more]
        exact consumed
      | false =>
        rw [TokenStream.next_of_end fin found more]
        exact consumed

theorem reports_pull (n : Nat) (ts : TokenStream υ) :
    List.Forall₂ Record.Reports (debugRecords (ts.pull n).events)
      ((ts.pull n).items.flatMap itemRefusals) := by
  induction n generalizing ts with
  | zero => exact .nil
  | succ n ih =>
    rw [TokenStream.pull]
    dsimp only
    rw [debugRecords_append, List.flatMap_cons]
    exact List.rel_append (reports_next ts) (ih ts.next.stream)

theorem silent_skipNewlines (l : Lexer υ) (count : Nat) {events : Array Event}
    (silent : debugRecords events.toList = []) :
    debugRecords (Lexer.skipNewlines.go l count events).events = [] := by
  fun_induction Lexer.skipNewlines.go l count events with
  | case1 l count events f found => exact silent
  | case2 l count events found => exact silent
  | case3 l count events found o f failed =>
    obtain ⟨t, answer⟩ := Lexer.answer_of_isNextKind found
    cases answer.symm.trans failed
  | case4 l count events found o t answered ih =>
    have consumed : o.events = [.consumed t] := congrArg (fun a => [Event.ofAnswer a]) answered
    refine ih ?_
    rw [Array.toList_appendList, debugRecords_append, silent, consumed]
    rfl

namespace Source

variable {s : Source} {tabWidth : UInt32}

theorem reports_requireNumber (fits : s.InRange tabWidth) {l : Lexer υ}
    (held : s.Holds tabWidth l.cursor) :
    List.Forall₂ Record.Reports (debugRecords l.requireNumber.events)
      (answerRefusals id l.requireNumber.answer) := by
  have required := reports_require l (.kind .number)
  -- The token that is delivered has a value, so no further refusal comes from reading its text.
  have same : answerRefusals id l.requireNumber.answer =
      answerRefusals id (l.require (.kind .number)).answer := by
    unfold Lexer.requireNumber
    dsimp only
    cases answer : (l.require (.kind .number)).answer with
    | error r => rfl
    | ok t =>
      obtain ⟨found, number⟩ := Lexer.of_require answer
      obtain ⟨v, value⟩ := exists_number fits held found (beq_iff_eq.mp number)
      change answerRefusals id t.number = _
      rw [value]
      rfl
  rw [same]
  exact required

theorem reports_ask (fits : s.InRange tabWidth) {l : Lexer υ} (held : s.Holds tabWidth l.cursor)
    {c : Call} (reporting : c.reportsFailures = true) :
    List.Forall₂ Record.Reports (debugRecords (l.ask c).events) (l.ask c).reply.refusals := by
  have consumed := reports_nextToken l false
  cases c with
  | next ignoreNewline => exact reports_nextToken l ignoreNewline
  | peek ignoreNewline => cases reporting
  | isNextKind k => cases reporting
  | isAtEnd => cases reporting
  | remaining => cases reporting
  | eat =>
    rw [← answerRefusals_map Refusal.fault Token.hasMore] at consumed
    exact consumed
  | skipNewlines => cases reporting
  | expect k =>
    rw [← answerRefusals_map Refusal.fault fun t : Token => (t, t.hasKind k)] at consumed
    exact consumed
  | requireSymbol text => exact reports_require l _
  | requireNumber => exact reports_requireNumber fits held
  | requireString =>
    have required := reports_require l (.kind .string)
    rw [← answerRefusals_map id Token.text] at required
    exact required
  | requireIdentifier =>
    have required := reports_require l (.kind .identifier)
    rw [← answerRefusals_map id Token.text] at required
    exact required
  | take ignoreNewline n => exact reports_pull n _

end Source

theorem silent_ask (l : Lexer υ) {c : Call} (silent : c.reportsFailures = false) :
    debugRecords (l.ask c).events = [] := by
  cases c with
  | peek ignoreNewline => rfl
  | isNextKind k => rfl
  | isAtEnd => rfl
  | remaining => rfl
  | skipNewlines => exact silent_skipNewlines l 0 rfl
  | _ => cases silent

namespace Source

variable {s : Source} {tabWidth : UInt32}

/-- In any state that a session comes to, a call reports its failures or it is silent, and a stream
reports the fault that it delivers. -/
theorem reports_reached (fits : s.InRange tabWidth) (userData : υ) (steps : List Step) :
    let l := (Session.reached s.text tabWidth userData steps).lexer
    (∀ c : Call, c.reportsFailures = true →
      List.Forall₂ Record.Reports (debugRecords (l.ask c).events) (l.ask c).reply.refusals) ∧
    (∀ c : Call, c.reportsFailures = false → debugRecords (l.ask c).events = []) ∧
    (∀ ignoreNewline n, let d := ((l.tokens ignoreNewline).pull n).stream.next
      List.Forall₂ Record.Reports (debugRecords d.events) (itemRefusals d.item?)) := by
  intro l
  have held := (keeps_reached fits userData steps).lexer
  refine ⟨fun c => reports_ask fits held, fun c => silent_ask l, ?_⟩
  intro ignoreNewline n
  exact reports_next _

/-- A stray character is reported when it is met, but not behind a newline that is passed over. -/
theorem reports_stray_character : (Source.mk "\né").InRange 4 ∧
    let l := (Session.reached "\né" 4 () []).lexer
    List.Forall₂ Record.Reports (debugRecords (l.ask (.next true)).events)
      (l.ask (.next true)).reply.refusals ∧
    debugRecords (l.ask (.next true)).events =
      [⟨.debug, "scan failed", [("error", "2:1: unknown token 'é'")]⟩] ∧
    debugRecords (l.ask .skipNewlines).events = [] := by
  have fits : (Source.mk "\né").InRange 4 := by decide
  obtain ⟨reporting, silent, -⟩ := reports_reached fits () []
  exact ⟨fits, reporting _ rfl, by decide +kernel, silent _ rfl⟩

/-- Passing over newlines fails at a stray character, and nothing is reported. -/
theorem silent_stray_character :
    let h := (Session.reached "é" 4 () []).lexer.ask .skipNewlines
    h.reply.refusals.map Refusal.message = ["1:1: unknown token 'é'"] ∧ h.events = [] := by
  decide +kernel

end Source

end Lexing
