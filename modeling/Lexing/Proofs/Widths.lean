import Lexing.Proofs.Lockstep
import Lexing.Proofs.Standing

/-! Tab widths. What a lexer finds does not depend on how wide its tabs are, only the columns do. They
count the same ones and the same tabs whatever the width. -/
namespace Lexing

variable (w v : UInt32)

/-- The same place, counted with tabs of two widths. -/
structure Position.Agree (p q : Position) : Prop where
  offset : q.offset = p.offset
  line : q.line = p.line
  column : ∃ a b, p.column.toNat = 1 + a + b * w.toNat ∧ q.column.toNat = 1 + a + b * v.toNat

structure Token.Agree (t u : Token) : Prop where
  kind : u.kind = t.kind
  text : u.text = t.text
  span : u.span = t.span
  pos : t.pos.Agree w v u.pos

/-- Faults are shown alike below their messages, which name the column. -/
structure Fault.Agree (f g : Fault) : Prop where
  cause : g.cause = f.cause
  line : g.line = f.line
  pos : f.pos.Agree w v g.pos
  shown : ∃ below, f.render = f.message ++ below ∧ g.render = g.message ++ below

structure Cursor.Agree (c d : Cursor) : Prop where
  source : d.source = c.source
  pos : c.pos.Agree w v d.pos

variable {w v}

def Byte.isPlain (b : UInt8) : Bool := b != tab && !isContinuation b

theorem Position.width_eq (w : UInt32) (bs : List UInt8) :
    width w bs = bs.countP Byte.isPlain + bs.count Byte.tab * w.toNat := by
  induction bs with
  | nil => simp [width]
  | cons b bs ih =>
    have head : width w (b :: bs) = (columnWidth w b).toNat + width w bs := by simp [width]
    rw [head, ih, List.countP_cons, List.count_cons, Nat.add_mul]
    by_cases tab : b = Byte.tab
    · simp [columnWidth, Byte.isPlain, tab]
      omega
    · by_cases continued : Byte.isContinuation b = true
      · simp [columnWidth, Byte.isPlain, tab, continued]
      · simp [columnWidth, Byte.isPlain, tab, continued]
        omega

namespace Source

variable {υ : Type} {s : Source}

theorem agree_place (fits : s.InRange w) (fits' : s.InRange v) (i : Nat) :
    (s.place w i).Agree w v (s.place v i) := by
  refine ⟨rfl, rfl, ?_⟩
  rw [toNat_column_place fits, toNat_column_place fits', Position.width_eq, Position.width_eq,
    ← Nat.add_assoc, ← Nat.add_assoc]
  exact ⟨_, _, rfl, rfl⟩

theorem agree_tokenAt (fits : s.InRange w) (fits' : s.InRange v) (kind : Token.Kind) (i n : Nat) :
    (s.tokenAt w kind i n).Agree w v (s.tokenAt v kind i n) :=
  ⟨rfl, rfl, rfl, agree_place fits fits' i⟩

theorem agree_faultAt (fits : s.InRange w) (fits' : s.InRange v) (cause : Fault.Cause) (i : Nat) :
    (s.faultAt w cause i).Agree w v (s.faultAt v cause i) := by
  have indents : (s.faultAt v cause i).indent = (s.faultAt w cause i).indent := rfl
  refine ⟨rfl, rfl, agree_place fits fits' i,
    "\n  " ++ (s.lineAt i).text ++ "\n  " ++ (s.faultAt w cause i).indent ++ "^", ?_, ?_⟩
  · simp only [Fault.render, String.append_assoc]
    rfl
  · simp only [Fault.render, indents, String.append_assoc]
    rfl

theorem matched_scanned (fits : s.InRange w) (fits' : s.InRange v) (i : Nat) (r : Reading) :
    Matched (Fault.Agree w v) (Token.Agree w v) (s.scanned w i r).answer
      (s.scanned v i r).answer := by
  cases r with
  | token kind n => exact .ok (agree_tokenAt fits fits' kind i n)
  | unclosedString => exact .error (agree_faultAt fits fits' _ i)
  | secondPoint n => exact .error (agree_faultAt fits fits' _ (i + n))
  | strayCharacter => exact .error (agree_faultAt fits fits' _ i)

def Abreast (s : Source) (w v : UInt32) (c d : Cursor) : Prop :=
  ∃ i, i ≤ s.size ∧ c = s.cursorAt w i ∧ d = s.cursorAt v i

theorem Abreast.agree (fits : s.InRange w) (fits' : s.InRange v) {c d : Cursor}
    (abreast : s.Abreast w v c d) : c.Agree w v d := by
  obtain ⟨i, -, rfl, rfl⟩ := abreast
  exact ⟨rfl, agree_place fits fits' i⟩

theorem lockstep_abreast (fits : s.InRange w) (fits' : s.InRange v) :
    Lockstep (Token.Agree w v) (Fault.Agree w v) (s.Abreast w v) where
  kind same := same.kind
  text same := same.text
  source abreast := (abreast.agree fits fits').source
  offset abreast := congrArg UInt32.toNat (abreast.agree fits fits').pos.offset
  bump := by
    rintro _ _ ⟨i, inside, rfl, rfl⟩
    exact ⟨_, Nat.min_le_right _ _, bump_cursorAt_min fits inside,
      bump_cursorAt_min fits' inside⟩
  advance := by
    rintro _ _ ⟨i, inside, rfl, rfl⟩ n
    exact ⟨_, Nat.min_le_right _ _, advance_cursorAt fits inside n,
      advance_cursorAt fits' inside n⟩
  eatWhile := by
    rintro _ _ ⟨i, inside, rfl, rfl⟩ p
    exact ⟨_, takeWhile_inside p inside, eatWhile_cursorAt fits p inside,
      eatWhile_cursorAt fits' p inside⟩
  skipToDelimiter := by
    rintro _ _ ⟨i, inside, rfl, rfl⟩
    rw [skipToDelimiter_cursorAt fits inside, skipToDelimiter_cursorAt fits' inside]
    exact ⟨_, findIdx_inside _ inside, rfl, rfl⟩
  answer := by
    rintro _ _ ⟨i, inside, rfl, rfl⟩ ignoreNewline
    rw [nextToken_cursorAt fits inside, nextToken_cursorAt fits' inside]
    exact matched_scanned fits fits' _ _
  next := by
    rintro _ _ ⟨i, inside, rfl, rfl⟩ ignoreNewline
    have skipped := gap_inside inside ignoreNewline
    have reach := run_inside skipped (Reading.begins_ofBytes _).length_le
    rw [nextToken_cursorAt fits inside, nextToken_cursorAt fits' inside]
    exact ⟨_, reach, cursor_scanned skipped _, cursor_scanned skipped _⟩

/-- Sessions that take the same steps over one source agree, whatever their tab widths. -/
theorem agree_reached (fits : s.InRange w) (fits' : s.InRange v) (userData : υ)
    (steps : List Step) :
    (Session.reached s.text w userData steps).Alike (Token.Agree w v) (Fault.Agree w v)
      (Cursor.Agree w v) (Session.reached s.text v userData steps) := by
  have start : s.Abreast w v { source := s, tabWidth := w } { source := s, tabWidth := v } :=
    ⟨0, Nat.zero_le _, cursorAt_zero.symm, cursorAt_zero.symm⟩
  have alike := (lockstep_abreast fits fits').run (υ := υ)
    (x := { lexer := Lexer.ofText s.text userData w })
    (y := { lexer := Lexer.ofText s.text userData v }) ⟨start, .nil, .nil, .nil⟩ steps
  exact alike.mono fun abreast => abreast.agree fits fits'

theorem agree_tabs : (Source.mk "\ta\t1..2").InRange 4 ∧ (Source.mk "\ta\t1..2").InRange 8 ∧
    (Session.reached "\ta\t1..2" 4 () [.call (.next false), .call .eat]).Alike (Token.Agree 4 8)
      (Fault.Agree 4 8) (Cursor.Agree 4 8)
      (Session.reached "\ta\t1..2" 8 () [.call (.next false), .call .eat]) ∧
    (Session.reached "\ta\t1..2" 4 () [.call (.next false), .call .eat]).lexer.position =
      ⟨5, 1, 12⟩ ∧
    (Session.reached "\ta\t1..2" 8 () [.call (.next false), .call .eat]).lexer.position =
      ⟨5, 1, 20⟩ := by
  have fits : (Source.mk "\ta\t1..2").InRange 4 := by decide
  have fits' : (Source.mk "\ta\t1..2").InRange 8 := by decide
  exact ⟨fits, fits', agree_reached fits fits' () [.call (.next false), .call .eat],
    by decide +kernel, by decide +kernel⟩

end Source

end Lexing
