import Lexing.Proofs.Splitting
import Lexing.Proofs.Wholeness

/-! Resuming. Of what it has read a lexer keeps nothing but its place. A fresh lexer on what is left
of the text gives the same answers as the old one, and only counts from another start. -/
namespace Lexing

variable {υ υ' : Type}

def Lexer.answers (l : Lexer υ) : List Bool → List (Except Fault Token)
  | [] => []
  | ignoreNewline :: flags =>
    let o := l.nextToken ignoreNewline
    o.answer :: o.lexer.answers flags

/-- The place `p`, counted from `o` on, is `q` when it is counted from the start. Lines and columns
count from one, and columns differ on the first line only. -/
structure Position.Continues (o p q : Position) : Prop where
  offset : q.offset.toNat = p.offset.toNat + o.offset.toNat
  line : q.line.toNat + 1 = p.line.toNat + o.line.toNat
  firstColumn : p.line = 1 → q.column.toNat + 1 = p.column.toNat + o.column.toNat
  laterColumn : p.line ≠ 1 → q.column = p.column

structure Token.Continues (o : Position) (t u : Token) : Prop where
  kind : u.kind = t.kind
  text : u.text = t.text
  start : u.span.start.toNat = t.span.start.toNat + o.offset.toNat
  stop : u.span.stop.toNat = t.span.stop.toNat + o.offset.toNat
  pos : o.Continues t.pos u.pos

/-- On the first line a fault shows what the line holds before `o` as well. -/
structure Fault.Continues (s : Source) (o : Position) (f g : Fault) : Prop where
  cause : g.cause = f.cause
  pos : o.Continues f.pos g.pos
  firstLine : f.pos.line = 1 →
    ∃ before, s.slice? (s.lineStart o.offset.toNat) o.offset.toNat = some before ∧
      g.line = ⟨s.lineStart o.offset.toNat, before ++ f.line.text⟩
  laterLine : f.pos.line ≠ 1 → g.line = ⟨f.line.start + o.offset.toNat, f.line.text⟩

inductive AnswerContinues (s : Source) (o : Position) :
    Except Fault Token → Except Fault Token → Prop where
  | token {t u} : t.Continues o u → AnswerContinues s o (.ok t) (.ok u)
  | fault {f g} : f.Continues s o g → AnswerContinues s o (.error f) (.error g)

theorem Lexer.answers_eq (l : Lexer υ) (flags : List Bool) :
    l.answers flags = (l.cursor.calls flags).map Scanned.answer := by
  induction flags generalizing l with
  | nil => rfl
  | cons ignoreNewline flags ih => exact congrArg (_ :: ·) (ih _)

namespace Source

variable {s a b : Source} {tabWidth : UInt32}

theorem line_place_eq_one (fits : s.InRange tabWidth) {i : Nat} :
    (s.place tabWidth i).line = 1 ↔ Byte.lineFeed ∉ s.bytes.take i := by
  have line := toNat_line_place fits i
  have none_counted := List.count_eq_zero (a := Byte.lineFeed) (l := s.bytes.take i)
  rw [← UInt32.toNat_inj, line, UInt32.toNat_one, ← none_counted]
  omega

theorem exists_shown {i : Nat} (first : Byte.lineFeed ∉ s.bytes.take i) :
    ∃ cs, dropReturn (s.lineBytes i) = encoded cs := by
  have unbroken : ∀ c ∈ s.bytes.take i, (c != Byte.lineFeed) = true := by
    intro c member
    simp only [bne_iff_ne]
    rintro rfl
    exact first member
  rw [lineBytes, Position.lastLine_of_not_mem first, ← List.takeWhile_append_of_pos unbroken,
    List.take_append_drop, bytes_eq_encoded, takeWhile_encoded, dropReturn_encoded]
  exact ⟨_, rfl⟩

theorem lineBytes_ne_nil {i : Nat} {c : UInt8} (here : s.bytes[i]? = some c)
    (other : c ≠ Byte.lineFeed) : s.lineBytes i ≠ [] := by
  rw [lineBytes, drop_of_getElem? here, List.takeWhile_cons_of_pos (by simpa using other)]
  simp

section Rest

variable (parted : s.text = a.text ++ b.text)
include parted

theorem bytes_parted : s.bytes = a.bytes ++ b.bytes := by
  rw [bytes_eq_encoded, parted, String.toList_append, encoded_append, ← bytes_eq_encoded,
    ← bytes_eq_encoded]

theorem drop_parted (j : Nat) : s.bytes.drop (a.size + j) = b.bytes.drop j := by
  rw [← length_bytes]
  exact drop_behind (bytes_parted parted) j

theorem take_parted (j : Nat) : s.bytes.take (a.size + j) = a.bytes ++ b.bytes.take j := by
  rw [← length_bytes]
  exact take_behind (bytes_parted parted) j

theorem size_parted : s.size = a.size + b.size := by
  rw [← length_bytes a]
  exact size_behind (bytes_parted parted)

theorem take_size : s.bytes.take a.size = a.bytes := by
  have whole := take_parted parted 0
  rwa [Nat.add_zero, List.take_zero, List.append_nil] at whole

theorem continues_place (fits : s.InRange tabWidth) {j : Nat} (inside : j ≤ b.size) :
    (s.place tabWidth a.size).Continues (b.place tabWidth j) (s.place tabWidth (a.size + j)) := by
  have size := size_parted parted
  have fits_b : b.InRange tabWidth := fits.of_size_le (by omega)
  constructor
  · rw [toNat_offset_place fits (by omega), toNat_offset_place fits_b inside,
      toNat_offset_place fits (by omega), Nat.add_comm]
  · rw [toNat_line_place fits, toNat_line_place fits_b, toNat_line_place fits, take_parted parted,
      take_size parted, List.count_append]
    omega
  · intro first
    have unbroken := (line_place_eq_one fits_b).mp first
    rw [toNat_column_place fits, toNat_column_place fits_b, toNat_column_place fits,
      take_parted parted, take_size parted, Position.lastLine_append, if_neg unbroken,
      Position.width_append, Position.lastLine_of_not_mem unbroken]
    omega
  · intro later
    have broken : Byte.lineFeed ∈ b.bytes.take j := by
      simpa [line_place_eq_one fits_b] using later
    rw [← UInt32.toNat_inj, toNat_column_place fits, toNat_column_place fits_b, take_parted parted,
      Position.lastLine_append, if_pos broken]

theorem exists_before (fits : s.InRange tabWidth) :
    ∃ ds, Position.lastLine a.bytes = encoded ds ∧
      s.lineStart a.size = a.size - (encoded ds).length ∧
      s.slice? (s.lineStart a.size) a.size = some (spelled (encoded ds)) := by
  have size := size_parted parted
  obtain ⟨ls, ds, chars, -, last⟩ := exists_ended a.text.toList
  have line := lastLine_encoded ls last
  rw [← chars] at line
  generalize ended ls = as at chars
  have front : a.bytes = encoded as ++ encoded ds := by
    rw [bytes_eq_encoded, chars, encoded_append]
  have length : a.size = (encoded as).length + (encoded ds).length := by
    rw [← length_bytes, front, List.length_append]
  rw [← bytes_eq_encoded] at line
  have start : s.lineStart a.size = (encoded as).length := by
    rw [lineStart_eq fits.limit_eq (by omega), take_size parted, line]
    omega
  have ahead : s.bytes.drop (encoded as).length = encoded ds ++ b.bytes := by
    rw [bytes_parted parted, front, List.append_assoc, List.drop_left]
  have first : s.IsBoundary (encoded as).length := by
    refine isBoundary_iff_drop.mpr ⟨by omega, ds ++ b.text.toList, ?_⟩
    rw [ahead, encoded_append, ← bytes_eq_encoded]
  have second : s.IsBoundary a.size := isBoundary_iff.mpr ⟨a, b, parted, rfl⟩
  have sliced := s.slice_eq_spelled (i := (encoded as).length) (j := a.size) (by omega) (by omega)
  refine ⟨ds, line, by omega, ?_⟩
  rw [start, slice?_of_isBoundary (by omega) first second, sliced, ahead, length,
    Nat.add_sub_cancel_left, List.take_left]

theorem exists_lineAt_parted (fits : s.InRange tabWidth) {j : Nat} {c : UInt8}
    (here : b.bytes[j]? = some c) (other : c ≠ Byte.lineFeed)
    (first : Byte.lineFeed ∉ b.bytes.take j) :
    ∃ before, s.slice? (s.lineStart a.size) a.size = some before ∧
      s.lineAt (a.size + j) = ⟨s.lineStart a.size, before ++ (b.lineAt j).text⟩ := by
  have size := size_parted parted
  have inside := Nat.le_of_lt (lt_size_of_getElem? here)
  obtain ⟨ds, before, start, sliced⟩ := exists_before parted fits
  obtain ⟨cs, shown⟩ := b.exists_shown first
  have whole : encoded ds ++ b.bytes.take j ++ (b.bytes.drop j).takeWhile (· != Byte.lineFeed) =
      encoded ds ++ b.lineBytes j := by
    rw [lineBytes, Position.lastLine_of_not_mem first, List.append_assoc]
  have from_start : a.size + j - (encoded ds ++ b.bytes.take j).length = s.lineStart a.size := by
    rw [start, List.length_append, length_take_bytes inside]
    omega
  refine ⟨_, sliced, ?_⟩
  -- The rest has a part in the line, so a carriage return that is dropped is one of its own.
  rw [lineAt_eq fits.limit_eq (by omega), lineAt_eq (fits.of_size_le (by omega)).limit_eq inside,
    lineBytes, take_parted parted, drop_parted parted, Position.lastLine_append, if_neg first, before,
    whole, from_start, dropReturn_append _ (lineBytes_ne_nil here other), shown, spelled_append]

theorem continues_fault (fits : s.InRange tabWidth) (cause : Fault.Cause) {j : Nat} {c : UInt8}
    (here : b.bytes[j]? = some c) (other : c ≠ Byte.lineFeed) :
    (b.faultAt tabWidth cause j).Continues s (s.place tabWidth a.size)
      (s.faultAt tabWidth cause (a.size + j)) := by
  have size := size_parted parted
  have fits_b : b.InRange tabWidth := fits.of_size_le (by omega)
  have inside := Nat.le_of_lt (lt_size_of_getElem? here)
  have offset : (s.place tabWidth a.size).offset.toNat = a.size :=
    toNat_offset_place fits (by omega)
  refine ⟨rfl, continues_place parted fits inside, ?_, ?_⟩
  · intro first
    rw [offset]
    exact exists_lineAt_parted parted fits here other ((line_place_eq_one fits_b).mp first)
  · intro later
    have broken : Byte.lineFeed ∈ b.bytes.take j := by
      simpa [faultAt, line_place_eq_one fits_b] using later
    have line := lineAt_behind (bytes_parted parted) fits inside
      (by rw [Position.lastLine_append, if_pos broken])
    rw [length_bytes] at line
    rw [offset]
    exact line

theorem continues_token (fits : s.InRange tabWidth) (kind : Token.Kind) {j n : Nat}
    (reach : j + n ≤ b.size) :
    (b.tokenAt tabWidth kind j n).Continues (s.place tabWidth a.size)
      (s.tokenAt tabWidth kind (a.size + j) n) := by
  have small := fits.size_lt
  have size := size_parted parted
  have offset : (s.place tabWidth a.size).offset.toNat = a.size :=
    toNat_offset_place fits (by omega)
  refine ⟨rfl, ?_, ?_, ?_, continues_place parted fits (by omega)⟩
  · simp only [tokenAt, Nat.add_assoc, drop_parted parted]
  · change (UInt32.ofNat (a.size + j)).toNat = (UInt32.ofNat j).toNat + _
    rw [offset, toNat_ofNat_of_le (by omega), toNat_ofNat_of_le (by omega), Nat.add_comm]
  · change (UInt32.ofNat (a.size + j + n)).toNat = (UInt32.ofNat (j + n)).toNat + _
    rw [offset, toNat_ofNat_of_le (by omega), toNat_ofNat_of_le (by omega)]
    omega

theorem continues_answer (fits : s.InRange tabWidth) {j : Nat} (inside : j ≤ b.size) {r : Reading}
    (begun : Reading.Begins (b.bytes.drop j) r) :
    AnswerContinues s (s.place tabWidth a.size) (b.scanned tabWidth j r).answer
      (s.scanned tabWidth (a.size + j) r).answer := by
  have reach := run_inside inside begun.length_le
  cases r with
  | token kind n => exact .token (continues_token parted fits kind reach)
  | unclosedString =>
    have here := quote_of_unclosedString begun
    exact .fault (continues_fault parted fits _ here (by decide))
  | secondPoint n =>
    have here := point_of_secondPoint begun
    have fault := continues_fault parted fits .secondPoint here (by decide)
    rw [← Nat.add_assoc] at fault
    exact .fault fault
  | strayCharacter =>
    obtain ⟨c, here, other⟩ := exists_of_strayCharacter begun
    have found : s.strayAt (a.size + j) = b.strayAt j := by
      rw [← length_bytes]
      exact strayAt_behind (bytes_parted parted) j
    simp only [scanned, found]
    exact .fault (continues_fault parted fits _ here other)

theorem continues_calls (fits : s.InRange tabWidth) (flags : List Bool) {j : Nat}
    (inside : j ≤ b.size) :
    List.Forall₂ (AnswerContinues s (s.place tabWidth a.size))
      (((b.cursorAt tabWidth j).calls flags).map Scanned.answer)
      (((s.cursorAt tabWidth (a.size + j)).calls flags).map Scanned.answer) := by
  have size := size_parted parted
  have fits_b : b.InRange tabWidth := fits.of_size_le (by omega)
  induction flags generalizing j with
  | nil => exact .nil
  | cons ignoreNewline flags ih =>
    obtain ⟨m, r, start, skipped, begun, reach, call⟩ := exists_scanned fits_b inside ignoreNewline
    -- The bytes ahead are the same, so one rule applies in both places.
    have same : (s.cursorAt tabWidth (a.size + j)).nextToken ignoreNewline =
        s.scanned tabWidth (a.size + m) r := by
      rw [nextToken_cursorAt fits (by omega), drop_parted parted, Nat.add_assoc, ← start, read,
        drop_parted parted, begun.ofBytes_eq]
    rw [Cursor.calls, Cursor.calls, call, same]
    refine .cons (continues_answer parted fits skipped begun) ?_
    rw [cursor_scanned skipped, cursor_scanned (by omega), drop_parted parted, Nat.add_assoc]
    exact ih reach

theorem remaining_parted (fits : s.InRange tabWidth) {l : Lexer υ}
    (stands : l.cursor = s.cursorAt tabWidth a.size) : l.remaining = b.text := by
  have size := size_parted parted
  have ahead := drop_parted parted 0
  rw [Nat.add_zero, List.drop_zero] at ahead
  rw [Lexer.remaining, stands, offset_cursorAt fits (by omega)]
  change s.slice a.size s.limit = b.text
  rw [fits.limit_eq, s.slice_eq_spelled (by omega) (Nat.le_refl _), ahead, size,
    Nat.add_sub_cancel_left, ← length_bytes, List.take_length, bytes_eq_encoded, spelled_encoded,
    String.ofList_toList]

end Rest

/-- Whatever a lexer was asked before, a fresh one on what remains answers as it does from now on. -/
theorem continues_reached (fits : s.InRange tabWidth) (userData : υ) (fresh : υ')
    (calls : List Call) (flags : List Bool) :
    let l := (Session.reached s.text tabWidth userData (calls.map .call)).lexer
    List.Forall₂ (AnswerContinues s l.position)
      ((Lexer.ofText l.remaining fresh tabWidth).answers flags) (l.answers flags) := by
  intro l
  obtain ⟨i, whole, stands⟩ := isBoundary_reached fits userData calls
  obtain ⟨a, b, parted, rfl⟩ := isBoundary_iff.mp whole
  have position : l.position = s.place tabWidth a.size := congrArg Cursor.pos stands
  have rest : (Lexer.ofText l.remaining fresh tabWidth).cursor = b.cursorAt tabWidth 0 := by
    rw [remaining_parted parted fits stands, cursorAt_zero]
    rfl
  have run := continues_calls parted fits flags (Nat.zero_le b.size)
  rw [Nat.add_zero] at run
  rw [Lexer.answers_eq, Lexer.answers_eq, rest, position]
  change List.Forall₂ _ _ ((Cursor.calls l.cursor flags).map Scanned.answer)
  rw [stands]
  exact run

/-- Read on from behind the first word, a fault of the first line shows that word as well, and one of
the second line does not. -/
theorem continues_two_faults :
    let s : Source := ⟨"x\t1..\né"⟩
    let l := (Session.reached s.text 8 () ([.next false].map .call)).lexer
    let flags := [false, true, true]
    s.InRange 8 ∧ l.position = ⟨1, 1, 2⟩ ∧
      List.Forall₂ (AnswerContinues s l.position)
        ((Lexer.ofText l.remaining () 8).answers flags) (l.answers flags) ∧
      (Lexer.ofText l.remaining () 8).answers flags =
        [.error ⟨.secondPoint, ⟨3, 1, 11⟩, ⟨0, "\t1.."⟩⟩,
          .ok ⟨.symbol, ".", ⟨3, 4⟩, ⟨3, 1, 11⟩⟩,
          .error ⟨.strayCharacter 'é', ⟨5, 2, 1⟩, ⟨5, "é"⟩⟩] ∧
      l.answers flags =
        [.error ⟨.secondPoint, ⟨4, 1, 12⟩, ⟨0, "x\t1.."⟩⟩,
          .ok ⟨.symbol, ".", ⟨4, 5⟩, ⟨4, 1, 12⟩⟩,
          .error ⟨.strayCharacter 'é', ⟨6, 2, 1⟩, ⟨6, "é"⟩⟩] := by
  have fits : (Source.mk "x\t1..\né").InRange 8 := by decide
  exact ⟨fits, by decide +kernel, continues_reached fits () () [.next false] _,
    by decide +kernel, by decide +kernel⟩

end Source

end Lexing
