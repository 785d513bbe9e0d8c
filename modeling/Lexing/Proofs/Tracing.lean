import Lexing.Proofs.Course
import Lexing.Proofs.Settling

/-! Tracing. Whatever a lexer is asked, in whatever order, the tokens that it traces are those of
its text, from the first on and each of them once. Only newlines can be missing, passed over by a
call that was to ignore them, and the end is traced by every call that finds nothing more. -/
namespace Lexing

variable {υ : Type}

/-- Calls with these flags pass these tokens, and those are what they find. -/
inductive Passes : List Bool → List Token → List Token → Prop where
  /-- Calls that are left over find no token. -/
  | nil {flags} : Passes flags [] []
  | token {ignoreNewline flags t ts found} : (ignoreNewline = true → t.kind ≠ .newline) →
      Passes flags ts found → Passes (ignoreNewline :: flags) (t :: ts) (t :: found)
  | newline {flags t ts found} : t.kind = .newline → Passes (true :: flags) ts found →
      Passes (true :: flags) (t :: ts) found

def endOf (text : String) : Token where
  kind := .endOfStream
  text := ""
  span := ⟨.ofNat text.utf8ByteSize, .ofNat text.utf8ByteSize⟩
  pos := (Source.mk text).place defaultTabWidth text.utf8ByteSize

def Call.looksAhead : Call → Bool
  | peek _ | isNextKind _ | isAtEnd | remaining => true
  | _ => false

def Call.demands : Call → Bool
  | expect _ | requireSymbol _ | requireNumber | requireString | requireIdentifier => true
  | _ => false

theorem exists_passes (flags : List Bool) (ts : List Token) :
    ∃ passed rest, ts = passed ++ rest ∧
      Passes flags passed (thinned Token.isNewline flags ts) ∧
      ((thinned Token.isNewline flags ts).length < flags.length → rest = []) := by
  fun_induction thinned Token.isNewline flags ts with
  | case1 ts => exact ⟨[], ts, rfl, .nil, fun less => absurd less (Nat.lt_irrefl 0)⟩
  | case2 ignoreNewline flags => exact ⟨[], [], rfl, .nil, fun _ => rfl⟩
  | case3 ignoreNewline flags t ts ignored ih =>
    obtain ⟨passed, rest, rfl, passes, all⟩ := ih
    simp only [Bool.and_eq_true, Token.isNewline, beq_iff_eq] at ignored
    obtain ⟨rfl, newline⟩ := ignored
    exact ⟨t :: passed, rest, rfl, .newline newline passes, all⟩
  | case4 ignoreNewline flags t ts stays ih =>
    obtain ⟨passed, rest, rfl, passes, all⟩ := ih
    refine ⟨t :: passed, rest, rfl, .token ?_ passes, fun less => all (Nat.lt_of_succ_lt_succ less)⟩
    rintro rfl newline
    exact stays (by simp [Token.isNewline, newline])

theorem thinned_map {α β : Type} (isNewline : β → Bool) (f : α → β) (flags : List Bool)
    (as : List α) :
    thinned isNewline flags (as.map f) = (thinned (fun a => isNewline (f a)) flags as).map f := by
  fun_induction thinned (fun a => isNewline (f a)) flags as with
  | case1 as => rw [thinned, List.map_nil]
  | case2 => rfl
  | case3 _ _ _ _ ignored ih => rw [List.map_cons, thinned, if_pos ignored, ih]
  | case4 _ _ _ _ stays ih => rw [List.map_cons, thinned, if_neg stays, ih, List.map_cons]

namespace Source

variable {s : Source} {tabWidth : UInt32}

theorem Lexed.exists_course (fits : s.InRange tabWidth) {i : Nat}
    {answer : Except Fault (List Token)} (lexed : s.Lexed tabWidth i answer) (inside : i ≤ s.size)
    {ts : List Token} (all : answer = .ok ts) :
    ∃ rs, (s.cursorAt tabWidth i).course false =
        rs ++ [s.scanned tabWidth s.size (.token .endOfStream 0)] ∧
      rs.map Scanned.answer = ts.map .ok := by
  induction lexed generalizing ts with
  | @stop i m r skips begun stops =>
    cases r with
    | token kind n =>
      cases kind <;> cases stops
      cases all
      have call := skips.nextToken fits inside begun
      obtain rfl := eq_size_of_drop skips.inside begun.eq_nil
      obtain rfl : n = 0 := begun.length_of_settled rfl
      refine ⟨[], ?_, rfl⟩
      rw [Cursor.course_of_stops (by rw [call]; rfl), call]
      rfl
    | unclosedString => cases all
    | secondPoint n => cases all
    | strayCharacter => cases all
  | @token i m kind n found skips begun goes lexed ih =>
    cases found with
    | error f => cases all
    | ok us =>
      cases all
      have call := skips.nextToken fits inside begun
      have reach := run_inside skips.inside begun.length_le
      obtain ⟨rs, whole, answers⟩ := ih reach rfl
      refine ⟨s.scanned tabWidth m (.token kind n) :: rs, ?_, ?_⟩
      · rw [Cursor.course_of_goesOn (by rw [call]; exact goes), call, List.cons_append, ← whole]
        rfl
      · rw [List.map_cons, answers]
        rfl

theorem scanned_end_again (fits : s.InRange tabWidth) (ignoreNewline : Bool) :
    (s.scanned tabWidth s.size (.token .endOfStream 0)).cursor.nextToken ignoreNewline =
      s.scanned tabWidth s.size (.token .endOfStream 0) := by
  have nothing : s.bytes.drop s.size = [] := drop_size
  have begun : Reading.Begins (s.bytes.drop s.size) (.token .endOfStream 0) := by
    rw [nothing]
    exact .endOfStream
  exact scanned_again fits (Nat.le_refl _) begun rfl (by rw [nothing]; rfl) ignoreNewline

end Source

theorem Scanned.fromStop_of_again {r : Scanned} (again : ∀ b, r.cursor.nextToken b = r)
    (flags : List Bool) : r.fromStop flags = List.replicate flags.length r := by
  cases flags with
  | nil => rfl
  | cons ignoreNewline flags =>
    rw [fromStop, Cursor.calls_of_again again]
    rfl

theorem reports_of_tokenize {text : String} (fits : (Source.mk text).InRange defaultTabWidth)
    {ts : List Token} (lexed : tokenize text = .ok ts) (flags : List Bool) :
    Cursor.reports { source := ⟨text⟩ } flags =
      (thinned Token.isNewline flags ts ++ List.replicate
        (flags.length - (thinned Token.isNewline flags ts).length) (endOf text)).map .consumed := by
  obtain ⟨rs, whole, answers⟩ :=
    ((tokenize_iff fits).mp lexed).exists_course fits (Nat.zero_le _) rfl
  rw [Source.cursorAt_zero] at whole
  have found : (thinned Scanned.isNewline flags rs).map Scanned.answer =
      (thinned Token.isNewline flags ts).map .ok := by
    have left := thinned_map (answerMeets Token.isNewline) Scanned.answer flags rs
    rw [answers, thinned_map] at left
    exact left.symm
  have length := congrArg List.length found
  rw [List.length_map, List.length_map] at length
  rw [Cursor.reports, Cursor.calls_course whole rfl,
    Scanned.fromStop_of_again (Source.scanned_end_again fits), List.length_drop, length,
    List.map_append, List.map_append, List.map_replicate, List.map_replicate]
  have heard := congrArg (List.map Event.ofAnswer) found
  rw [List.map_map, List.map_map] at heard
  exact congrArg (· ++ _) heard

/-- What calls with these flags trace where a text has these tokens: a first part of them, newlines
that were passed over left out, and behind all of them the end as often as it is asked for. -/
def Traces (text : String) (ts : List Token) (flags : List Bool) (trace : List Event) : Prop :=
  ∃ passed rest found n, ts = passed ++ rest ∧ Passes flags passed found ∧
    trace = (found ++ List.replicate n (endOf text)).map .consumed ∧
    found.length + n = flags.length ∧ (n ≠ 0 → rest = [])

theorem traces_reports {text : String} (fits : (Source.mk text).InRange defaultTabWidth)
    {ts : List Token} (lexed : tokenize text = .ok ts) (flags : List Bool) :
    Traces text ts flags
      ((Cursor.reports { source := ⟨text⟩ } flags).filter Event.isTraced) := by
  obtain ⟨passed, rest, parted, passes, all⟩ := exists_passes flags ts
  have few : (thinned Token.isNewline flags ts).length ≤ flags.length := length_thinned_le flags ts
  refine ⟨passed, rest, _, _, parted, passes, ?_, Nat.add_sub_cancel' few, ?_⟩
  · rw [reports_of_tokenize fits lexed]
    -- Without a fault, all that is reported is a token consumed.
    refine List.filter_eq_self.mpr fun e member => ?_
    obtain ⟨t, -, rfl⟩ := List.mem_map.mp member
    rfl
  · intro some_end
    exact all (Nat.lt_of_sub_ne_zero some_end)

/-- In any session the tokens traced are those of the text, from the first on. To look ahead traces
nothing, and a demand that fails traces what one that is met does. -/
theorem traced_reached {text : String} (fits : (Source.mk text).InRange defaultTabWidth)
    {ts : List Token} (lexed : tokenize text = .ok ts) (userData : υ) (calls : List Call) :
    (∃ uses, List.Forall₂ Call.Uses calls uses ∧
      Traces text ts uses.flatten
        ((Session.reached text defaultTabWidth userData (calls.map .call)).events.filter
          Event.isTraced)) ∧
    (∀ (l : Lexer υ) (c : Call), c.looksAhead = true →
      (l.ask c).lexer = l ∧ (l.ask c).events = []) ∧
    ∀ (l : Lexer υ) (c : Call), c.demands = true →
      (l.ask c).lexer = (l.nextToken false).lexer ∧
        (l.ask c).events.filter Event.isTraced =
          (l.nextToken false).events.filter Event.isTraced := by
  refine ⟨?_, ?_, ?_⟩
  · obtain ⟨uses, used, -, trace⟩ :=
      exists_uses_run { lexer := Lexer.ofText text userData defaultTabWidth } calls
    rw [List.filter_nil, List.nil_append] at trace
    exact ⟨uses, used, trace ▸ traces_reports fits lexed uses.flatten⟩
  · intro l c looks
    cases c with
    | peek _ | isNextKind _ | isAtEnd | remaining => exact ⟨rfl, rfl⟩
    | _ => cases looks
  · intro l c demands
    cases c with
    | expect k => exact ⟨rfl, rfl⟩
    | requireSymbol text => exact ⟨Source.lexer_require l _, trace_require l _⟩
    | requireNumber =>
      exact ⟨Source.lexer_require l (.kind .number), trace_require l (.kind .number)⟩
    | requireString =>
      exact ⟨Source.lexer_require l (.kind .string), trace_require l (.kind .string)⟩
    | requireIdentifier =>
      exact ⟨Source.lexer_require l (.kind .identifier), trace_require l (.kind .identifier)⟩
    | _ => cases demands

/-- A name that is no number is traced all the same, a newline that a stream passes over is not, and
the end is traced twice. -/
theorem traced_passed_over :
    let word : Token := ⟨.identifier, "a", ⟨0, 1⟩, .start⟩
    let number : Token := ⟨.number, "1", ⟨2, 3⟩, ⟨2, 2, 1⟩⟩
    let ts := [word, ⟨.newline, "", ⟨1, 2⟩, ⟨1, 1, 2⟩⟩, number]
    let calls := [.requireNumber, .isAtEnd, .take true 2, .eat]
    let trace := (Session.reached "a\n1" defaultTabWidth () (calls.map .call)).events.filter
      Event.isTraced
    (Source.mk "a\n1").InRange defaultTabWidth ∧ tokenize "a\n1" = .ok ts ∧
    (∃ uses, List.Forall₂ Call.Uses calls uses ∧ Traces "a\n1" ts uses.flatten trace) ∧
    trace = [word, number, endOf "a\n1", endOf "a\n1"].map .consumed := by
  have fits : (Source.mk "a\n1").InRange defaultTabWidth := by decide
  have lexed : tokenize "a\n1" = .ok [⟨.identifier, "a", ⟨0, 1⟩, .start⟩,
      ⟨.newline, "", ⟨1, 2⟩, ⟨1, 1, 2⟩⟩, ⟨.number, "1", ⟨2, 3⟩, ⟨2, 2, 1⟩⟩] := by
    decide +kernel
  exact ⟨fits, lexed, (traced_reached fits lexed () _).1, by decide +kernel⟩

end Lexing
