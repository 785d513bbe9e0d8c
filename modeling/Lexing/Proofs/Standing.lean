import Lexing.Proofs.Lockstep
import Lexing.Proofs.Tiling

/-! Standing in place. Whatever is done in a session, its cursors stand at offsets of the source
with the places that belong there, and every place that it hears of belongs to an offset too. -/
namespace Lexing

namespace Source

variable {υ : Type} {s : Source} {tabWidth : UInt32}

def Holds (s : Source) (tabWidth : UInt32) (c : Cursor) : Prop :=
  ∃ i, i ≤ s.size ∧ c = s.cursorAt tabWidth i

def Places (s : Source) (tabWidth : UInt32) (p : Position) : Prop :=
  ∃ i, i ≤ s.size ∧ p = s.place tabWidth i

structure Keeps (s : Source) (tabWidth : UInt32) (x : Session υ) : Prop where
  lexer : s.Holds tabWidth x.lexer.cursor
  saved : ∀ l ∈ x.saved, s.Holds tabWidth l.cursor
  replies : ∀ r ∈ x.replies, ∀ p ∈ r.places, s.Places tabWidth p
  events : ∀ e ∈ x.events, s.Places tabWidth e.pos

/-- An answer of the scanner names a place of the source. -/
def Answers (s : Source) (tabWidth : UInt32) (answer : Except Fault Token) : Prop :=
  s.Places tabWidth (Event.ofAnswer answer).pos

theorem answers_nextToken (fits : s.InRange tabWidth) {c : Cursor} (held : s.Holds tabWidth c)
    (ignoreNewline : Bool) :
    s.Answers tabWidth (c.nextToken ignoreNewline).answer ∧
      s.Holds tabWidth (c.nextToken ignoreNewline).cursor := by
  obtain ⟨i, inside, rfl⟩ := held
  obtain ⟨m, r, -, skipped, -, reach, call⟩ := exists_scanned fits inside ignoreNewline
  rw [call]
  refine ⟨?_, _, reach, cursor_scanned skipped r⟩
  cases r with
  | token kind n => exact ⟨m, skipped, rfl⟩
  | unclosedString => exact ⟨m, skipped, rfl⟩
  | secondPoint n => exact ⟨m + n, reach, rfl⟩
  | strayCharacter => exact ⟨m, skipped, rfl⟩

/-- A token that a call answers is the one of a lexeme of the source. -/
theorem exists_tokenAt (fits : s.InRange tabWidth) {c : Cursor} (held : s.Holds tabWidth c)
    {ignoreNewline : Bool} {t : Token} (found : (c.nextToken ignoreNewline).answer = .ok t) :
    ∃ m kind n, Reading.Begins (s.bytes.drop m) (.token kind n) ∧ m + n ≤ s.size ∧
      t = s.tokenAt tabWidth kind m n := by
  obtain ⟨i, inside, rfl⟩ := held
  obtain ⟨m, r, -, -, begun, reach, call⟩ := exists_scanned fits inside ignoreNewline
  rw [call] at found
  cases r with
  | token kind n => exact ⟨m, kind, n, begun, reach, (Except.ok.inj found).symm⟩
  | unclosedString => cases found
  | secondPoint n => cases found
  | strayCharacter => cases found

theorem lexer_require (l : Lexer υ) (e : Expected) :
    (l.require e).lexer = (l.nextToken false).lexer := by
  rcases l.require_cases e with ⟨f, -, same⟩ | ⟨t, -, -, same⟩ | ⟨t, -, -, same⟩ <;> rw [same]

theorem Holds.bump (fits : s.InRange tabWidth) {c : Cursor} (held : s.Holds tabWidth c) :
    s.Holds tabWidth c.bump := by
  obtain ⟨i, inside, rfl⟩ := held
  exact ⟨_, Nat.min_le_right _ _, bump_cursorAt_min fits inside⟩

theorem Holds.advance (fits : s.InRange tabWidth) {c : Cursor} (held : s.Holds tabWidth c)
    (n : UInt32) : s.Holds tabWidth (c.advance n) := by
  obtain ⟨i, inside, rfl⟩ := held
  exact ⟨_, Nat.min_le_right _ _, advance_cursorAt fits inside n⟩

theorem Holds.eatWhile (fits : s.InRange tabWidth) {c : Cursor} (held : s.Holds tabWidth c)
    (p : UInt8 → Bool) : s.Holds tabWidth (c.eatWhile p) := by
  obtain ⟨i, inside, rfl⟩ := held
  exact ⟨_, takeWhile_inside p inside, eatWhile_cursorAt fits p inside⟩

theorem Holds.skipToDelimiter (fits : s.InRange tabWidth) {c : Cursor}
    (held : s.Holds tabWidth c) : s.Holds tabWidth c.skipToDelimiter.2 := by
  obtain ⟨i, inside, rfl⟩ := held
  rw [skipToDelimiter_cursorAt fits inside]
  exact ⟨_, findIdx_inside _ inside, rfl⟩

/-- Cursors in place stay in place. What is shown of their answers comes on top. -/
theorem invariant_holds (fits : s.InRange tabWidth) {P : Token → Prop} {Q : Fault → Prop}
    (token : ∀ {c : Cursor} {ignoreNewline : Bool} {t : Token}, s.Holds tabWidth c →
      (c.nextToken ignoreNewline).answer = .ok t → P t)
    (fault : ∀ {c : Cursor} {ignoreNewline : Bool} {f : Fault}, s.Holds tabWidth c →
      (c.nextToken ignoreNewline).answer = .error f → Q f) :
    Invariant P Q (s.Holds tabWidth) where
  bump held := held.bump fits
  advance held := held.advance fits
  eatWhile held := held.eatWhile fits
  skipToDelimiter held := held.skipToDelimiter fits
  next held ignoreNewline := (answers_nextToken fits held ignoreNewline).2
  token := token
  fault := fault

theorem holds_start : s.Holds tabWidth { source := s, tabWidth := tabWidth } :=
  ⟨0, Nat.zero_le _, cursorAt_zero.symm⟩

theorem invariant_places (fits : s.InRange tabWidth) :
    Invariant (fun t => s.Places tabWidth t.pos) (fun f => s.Places tabWidth f.pos)
      (s.Holds tabWidth) := by
  refine invariant_holds fits ?_ ?_
  · intro c ignoreNewline t held found
    have answers := (answers_nextToken fits held ignoreNewline).1
    rw [found] at answers
    exact answers
  · intro c ignoreNewline f held found
    have answers := (answers_nextToken fits held ignoreNewline).1
    rw [found] at answers
    exact answers

end Source

section Places

variable {R : Position → Prop}

theorem Refusal.Alike.place {r r' : Refusal}
    (alike : r.Alike (Twin fun t => R t.pos) (Twin fun f => R f.pos) r') : R r.pos := by
  cases alike with
  | fault own => exact own.self
  | mismatch own => exact own.self
  | invalidNumber own => exact own.self

theorem Event.Alike.place {e : Event}
    (alike : e.Alike (Twin fun t => R t.pos) (Twin fun f => R f.pos) e) : R e.pos := by
  cases alike with
  | consumed own => exact own.self
  | faulted own => exact own.self
  | mismatched own => exact own.self

theorem answerPlaces_eq {ε α : Type} (fault : ε → Position) (tokens : α → List Position)
    (answer : Except ε α) :
    answerPlaces fault tokens answer = collected (fun e => [fault e]) tokens answer := by
  cases answer <;> rfl

theorem Reply.places_eq (r : Reply) :
    r.places = r.collect (fun x => [x.pos]) fun t => [t.pos] := by
  cases r <;> simp only [Reply.places, Reply.collect, funext (answerPlaces_eq _ _)] <;> rfl

theorem Reply.Alike.places {r : Reply}
    (alike : r.Alike (Twin fun t => R t.pos) (Twin fun f => R f.pos) r) : ∀ p ∈ r.places, R p := by
  rw [r.places_eq]
  refine alike.collect ?_ ?_
  · exact fun x own => List.forall_mem_singleton.mpr own.place
  · exact fun t own => List.forall_mem_singleton.mpr own.self

end Places

namespace Source

variable {υ : Type} {s : Source} {tabWidth : UInt32}

theorem keeps_reached (fits : s.InRange tabWidth) (userData : υ) (steps : List Step) :
    s.Keeps tabWidth (.reached s.text tabWidth userData steps) := by
  have alike := (invariant_places fits).reached holds_start userData steps
  refine ⟨alike.cursor.self, ?_, ?_, ?_⟩
  · intro l member
    exact (List.forall₂_same.mp alike.saved l member).self
  · intro r member
    exact (List.forall₂_same.mp alike.replies r member).places
  · intro e member
    exact (List.forall₂_same.mp alike.events e member).place

end Source

end Lexing
