import Lexing.Proofs.Reporting

/-! Numerals. Whatever a lexer was asked before, also where it goes on inside a number that was at
fault, the text of every number that it finds is a numeral, and a numeral has a value. So a number
that is demanded is refused only if it is not there. -/
namespace Lexing

/-- How a number is written: with digits and at most one point, and not with the point alone. -/
structure Numeral (cs : List Char) : Prop where
  plain : ∀ c ∈ cs, c.isDigit = true ∨ c = '.'
  points : cs.count '.' ≤ 1
  some_digit : ∃ c ∈ cs, c.isDigit = true

def Refusal.isInvalidNumber : Refusal → Bool
  | invalidNumber _ _ => true
  | fault _ | mismatch _ => false

def Refusal.tokens : Refusal → List Token
  | mismatch m => [m.found]
  | fault _ | invalidNumber _ _ => []

def Event.tokens : Event → List Token
  | consumed t => [t]
  | mismatched m => [m.found]
  | faulted _ => []

def Heard.tokens {υ : Type} (h : Heard υ) : List Token :=
  h.reply.collect Refusal.tokens (fun t => [t]) ++ h.events.flatMap Event.tokens

/-- What comes of demanding a number, by what the next token is. -/
inductive NumberDemanded : Except Fault Token → Except Refusal Binary64 → Prop where
  | number {t x} : t.kind = .number → Decimal.ofText? t.text = some x →
      NumberDemanded (.ok t) (.ok (.ofDecimal x))
  | other {t} : t.kind ≠ .number → NumberDemanded (.ok t) (.error (.mismatch ⟨.kind .number, t⟩))
  | fault {f} : NumberDemanded (.error f) (.error (.fault f))

theorem point_not_mem {ds : List Char} (digits : ∀ d ∈ ds, d.isDigit = true) : '.' ∉ ds := by
  intro member
  cases digits '.' member

theorem Form.numeral {cs : List Char} (form : Form .number cs) : Numeral cs := by
  cases form with
  | whole some_digit digits =>
    constructor
    · exact fun c member => .inl (digits c member)
    · simp [List.count_eq_zero.mpr (point_not_mem digits)]
    · obtain ⟨d, member⟩ := List.exists_mem_of_ne_nil _ some_digit
      exact ⟨d, member, digits d member⟩
  | @pointed ds es some_digit digits places =>
    have all : ∀ d ∈ ds ++ es, d.isDigit = true :=
      List.forall_mem_append.mpr ⟨digits, places⟩
    constructor
    · intro c member
      rcases List.mem_append.mp member with before | behind
      · exact .inl (digits c before)
      · rcases List.mem_cons.mp behind with point | behind
        · exact .inr point
        · exact .inl (places c behind)
    · simp [List.count_eq_zero.mpr (point_not_mem digits),
        List.count_eq_zero.mpr (point_not_mem places)]
    · obtain ⟨d, member⟩ := List.exists_mem_of_ne_nil _ some_digit
      have inside : d ∈ ds ++ '.' :: es := by
        simp only [List.mem_append, List.mem_cons] at member ⊢
        exact member.imp_right .inr
      exact ⟨d, inside, all d member⟩

variable {υ : Type}

theorem Record.Reports.valid {r : Record} {u : Refusal} (reports : r.Reports u) :
    u.isInvalidNumber = false := by
  cases reports with
  | fault f => rfl
  | mismatch m => rfl

theorem valid_of_reports {rs : List Record} {us : List Refusal}
    (all : List.Forall₂ Record.Reports rs us) : ∀ u ∈ us, u.isInvalidNumber = false := by
  induction all with
  | nil => exact List.forall_mem_nil _
  | cons first _ ih => exact List.forall_mem_cons.mpr ⟨first.valid, ih⟩

theorem valid_of_fault {α : Type} (answer : Except Fault α) :
    ∀ u ∈ answerRefusals .fault answer, u.isInvalidNumber = false := by
  cases answer with
  | ok a => exact List.forall_mem_nil _
  | error f => exact List.forall_mem_singleton.mpr rfl

theorem valid_of_silent (l : Lexer υ) {c : Call} (silent : c.reportsFailures = false) :
    ∀ u ∈ (l.ask c).reply.refusals, u.isInvalidNumber = false := by
  cases c with
  | peek ignoreNewline => exact valid_of_fault (l.peek ignoreNewline)
  | isNextKind k => exact valid_of_fault (l.isNextKind k)
  | isAtEnd => exact List.forall_mem_nil _
  | remaining => exact List.forall_mem_nil _
  | skipNewlines => exact valid_of_fault l.skipNewlines.answer
  | _ => cases silent

section Tokens

variable {P : Token → Prop} {F : Fault → Fault → Prop} {C : Cursor → Cursor → Prop}

theorem Refusal.Alike.tokens {u u' : Refusal} (alike : u.Alike (Twin P) F u') :
    ∀ t ∈ u.tokens, P t := by
  cases alike with
  | fault own => exact List.forall_mem_nil P
  | mismatch own => exact List.forall_mem_singleton.mpr own.self
  | invalidNumber own => exact List.forall_mem_nil P

theorem Event.Alike.tokens {e e' : Event} (alike : e.Alike (Twin P) F e') :
    ∀ t ∈ e.tokens, P t := by
  cases alike with
  | consumed own => exact List.forall_mem_singleton.mpr own.self
  | faulted own => exact List.forall_mem_nil P
  | mismatched own => exact List.forall_mem_singleton.mpr own.self

theorem Heard.Alike.tokens {h : Heard υ} (alike : h.Alike (Twin P) F C h) :
    ∀ t ∈ h.tokens, P t := by
  intro t member
  rcases List.mem_append.mp member with replied | reported
  · have refused := fun u (own : Refusal.Alike (Twin P) F u u) => own.tokens
    have given := fun u (own : Twin P u u) => List.forall_mem_singleton.mpr own.self
    exact alike.reply.collect refused given t replied
  · obtain ⟨e, among, told⟩ := List.mem_flatMap.mp reported
    exact (List.forall₂_same.mp alike.events e among).tokens t told

end Tokens

namespace Source

variable {s : Source} {tabWidth : UInt32}

theorem numeral_of_nextToken (fits : s.InRange tabWidth) {c : Cursor}
    (held : s.Holds tabWidth c) {ignoreNewline : Bool} {t : Token}
    (found : (c.nextToken ignoreNewline).answer = .ok t) (number : t.kind = .number) :
    Numeral t.text.toList ∧ ∃ x, Decimal.ofText? t.text = some x := by
  obtain ⟨cs, text, form⟩ := form_of_nextToken fits held found number
  rw [text, String.toList_ofList]
  exact ⟨form.numeral, form.exists_decimal⟩

theorem numberDemanded (fits : s.InRange tabWidth) {l : Lexer υ} (held : s.Holds tabWidth l.cursor) :
    NumberDemanded (l.peek false) l.requireNumber.answer := by
  change NumberDemanded (l.nextToken false).answer
    ((l.require (.kind .number)).answer.bind Token.number)
  rcases l.require_cases (.kind .number) with
    ⟨f, found, same⟩ | ⟨t, found, admitted, same⟩ | ⟨t, found, refused, same⟩
  · rw [same, found]
    exact .fault
  · have number : t.kind = .number := beq_iff_eq.mp admitted
    obtain ⟨-, x, value⟩ := numeral_of_nextToken fits held found number
    have delivered : t.number = .ok (.ofDecimal x) := by simp only [Token.number, value]
    rw [same, found]
    change NumberDemanded (.ok t) t.number
    rw [delivered]
    exact .number number value
  · rw [same, found]
    exact .other (beq_eq_false_iff_ne.mp refused)

/-- In any state that a session comes to, a demand for a number is met by a number, and is refused
for another token or for a fault. Nothing that is asked is refused for the text of a number. -/
theorem numerals_reached (fits : s.InRange tabWidth) (userData : υ) (steps : List Step) :
    let l := (Session.reached s.text tabWidth userData steps).lexer
    NumberDemanded (l.peek false) l.requireNumber.answer ∧
    ∀ c : Call,
      (∀ t ∈ (l.ask c).tokens, t.kind = .number →
        Numeral t.text.toList ∧ ∃ x, Decimal.ofText? t.text = some x) ∧
      ∀ u ∈ (l.ask c).reply.refusals, u.isInvalidNumber = false := by
  intro l
  have held : s.Holds tabWidth l.cursor := (keeps_reached fits userData steps).lexer
  have invariant := invariant_holds fits (Q := fun _ => True)
    (fun held found => numeral_of_nextToken fits held found) fun _ _ => trivial
  refine ⟨numberDemanded fits held, fun c => ⟨?_, ?_⟩⟩
  · exact (invariant.lockstep.ask ⟨held⟩ c).tokens
  · cases reporting : c.reportsFailures with
    | true => exact valid_of_reports (reports_ask fits held reporting)
    | false => exact valid_of_silent l reporting

/-- Behind the first point of a number at fault, the second one starts a number of its own, and a
third one does not. -/
theorem numerals_three_points :
    let s : Source := ⟨"1..5 ."⟩
    let l := (Session.reached s.text 4 () [.call .requireNumber]).lexer
    let m := (Session.reached s.text 4 () [.call .requireNumber, .call .requireNumber]).lexer
    s.InRange 4 ∧ l.cursor.offset = 2 ∧
      NumberDemanded (l.peek false) l.requireNumber.answer ∧
      l.requireNumber.answer = .ok (.ofDecimal ⟨5, 1⟩) ∧
      NumberDemanded (m.peek false) m.requireNumber.answer ∧
      m.requireNumber.answer =
        .error (.mismatch ⟨.kind .number, ⟨.symbol, ".", ⟨5, 6⟩, ⟨5, 1, 6⟩⟩⟩) := by
  have fits : (Source.mk "1..5 .").InRange 4 := by decide
  exact ⟨fits, by decide +kernel, (numerals_reached fits () _).1, by decide +kernel,
    (numerals_reached fits () _).1, by decide +kernel⟩

end Source

end Lexing
