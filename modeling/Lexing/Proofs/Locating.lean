import Lexing.Proofs.Lines
import Lexing.Proofs.Positions
import Lexing.Proofs.Wholeness

/-! Where faults lie. A fault names a character of its source, and its place and its line are those of
that character, counted over the lines of the source as lists of characters. -/
namespace Lexing

def Fault.Cause.character : Cause → Char
  | unclosedString => '"'
  | secondPoint => '.'
  | strayCharacter found => found

namespace Source

structure FaultsAt (s : Source) (tabWidth : UInt32) (f : Fault) (front rest : List Char) :
    Prop where
  text : s.text.toList = front ++ f.cause.character :: rest
  fault : f = s.faultAt tabWidth f.cause (encoded front).length
  feed : f.cause.character ≠ '\n'
  returned : f.cause.character ≠ '\r'

/-- A fault lies on the line with `n` lines before it, between the characters `before` and `after`
of what it shows. -/
structure Locates (s : Source) (tabWidth : UInt32) (f : Fault) (n : Nat)
    (before after : List Char) : Prop where
  inside : f.pos.offset.toNat < s.size
  whole : s.IsBoundary f.pos.offset.toNat
  stands : s.charAt? f.pos.offset.toNat = some f.cause.character
  number : f.pos.line.toNat = n + 1
  line : s.lines[n]?.map withoutReturn = some f.line.text.toList
  start : f.line.start = s.lineOffset n
  parted : f.line.text.toList = before ++ f.cause.character :: after
  offset : f.pos.offset.toNat = s.lineOffset n + (encoded before).length
  column : f.pos.column.toNat =
    1 + before.countP (· ≠ '\t') + tabWidth.toNat * before.count '\t'

variable {υ : Type} {s : Source} {tabWidth : UInt32}

theorem exists_front_of_ascii {i : Nat} {b : UInt8} (ascii : b.toNat < 0x80)
    (here : s.bytes[i]? = some b) :
    ∃ front rest, s.text.toList = front ++ .ofNat b.toNat :: rest ∧ i = (encoded front).length := by
  have inside := Nat.le_of_lt (lt_size_of_getElem? here)
  have whole : encoded s.text.toList = s.bytes.take i ++ b :: s.bytes.drop (i + 1) := by
    rw [← bytes_eq_encoded, ← drop_of_getElem? here, List.take_append_drop]
  obtain ⟨front, rest, text, spelling, -⟩ := encoded_eq_append_ascii ascii whole
  exact ⟨front, rest, text, by rw [spelling, length_take_bytes inside]⟩

theorem getElem?_encoded {front rest : List Char} {c : Char}
    (text : s.text.toList = front ++ c :: rest) :
    s.bytes[(encoded front).length]? = (String.utf8EncodeChar c).head? := by
  rw [← List.head?_drop, drop_encoded text, encoded_cons]
  exact List.head?_append_of_ne_nil _ String.utf8EncodeChar_ne_nil

theorem exists_faultsAt (fits : s.InRange tabWidth) {i : Nat} (whole : s.IsBoundary i)
    {ignoreNewline : Bool} {f : Fault}
    (answer : ((s.cursorAt tabWidth i).nextToken ignoreNewline).answer = .error f) :
    ∃ front rest, s.FaultsAt tabWidth f front rest := by
  obtain ⟨m, r, start, skipped, begun, -, call⟩ := exists_scanned fits whole.inside ignoreNewline
  rw [call] at answer
  cases r with
  | token kind n => cases answer
  | unclosedString =>
    obtain ⟨front, rest, text, rfl⟩ :=
      exists_front_of_ascii (by decide) (quote_of_unclosedString begun)
    cases answer
    exact ⟨front, rest, text, rfl, (by decide : '"' ≠ '\n'), (by decide : '"' ≠ '\r')⟩
  | secondPoint n =>
    obtain ⟨front, rest, text, here⟩ :=
      exists_front_of_ascii (by decide) (point_of_secondPoint begun)
    cases answer
    exact ⟨front, rest, text, congrArg _ here, (by decide : '.' ≠ '\n'), (by decide : '.' ≠ '\r')⟩
  | strayCharacter =>
    have behind : s.IsBoundary m := start ▸ whole.gap ignoreNewline
    obtain ⟨b, here, feed⟩ := exists_of_strayCharacter begun
    have plain : Byte.isSkipped ignoreNewline b = false := by
      apply not_isSkipped_of_head? ignoreNewline (s.bytes.drop i)
      rw [List.drop_drop, ← start, List.head?_drop, here]
    obtain ⟨front, rest, text, rfl⟩ := behind.exists_stray (lt_size_of_getElem? here)
    have first := (getElem?_encoded text).symm.trans here
    cases answer
    refine ⟨front, rest, text, rfl, fun ends => ?_, fun returns => ?_⟩
    · change s.strayAt (encoded front).length = '\n' at ends
      rw [ends] at first
      exact feed (Option.some.inj first).symm
    · change s.strayAt (encoded front).length = '\r' at returns
      rw [returns] at first
      cases Option.some.inj first
      cases plain

theorem FaultsAt.exists_locates (fits : s.InRange tabWidth) {f : Fault} {front rest : List Char}
    (faults : s.FaultsAt tabWidth f front rest) :
    ∃ n before after, s.Locates tabWidth f n before after := by
  obtain ⟨text, fault, feed, returned⟩ := faults
  obtain ⟨ls, before, rfl, parting⟩ := exists_parting text
  have inside := Nat.le_of_lt (length_encoded_lt text)
  have offset : f.pos.offset.toNat = (encoded (ended ls ++ before)).length := by
    rw [fault]
    exact toNat_offset_place fits inside
  have line : f.line = ⟨s.lineOffset ls.length, .ofList
      (withoutReturn (before ++ (f.cause.character :: rest).takeWhile (· != '\n')))⟩ := by
    conv_lhs => rw [fault]
    exact parting.lineAt_eq fits.limit_eq
  rw [List.takeWhile_cons_of_pos (by simpa using feed), withoutReturn_append returned] at line
  refine ⟨ls.length, before, withoutReturn (rest.takeWhile (· != '\n')), ?_⟩
  constructor
  case inside =>
    rw [offset]
    exact length_encoded_lt text
  case whole =>
    rw [offset]
    exact isBoundary_iff_front.mpr ⟨_, _, text, rfl⟩
  case stands =>
    rw [offset]
    exact charAt?_encoded text fits
  case number =>
    rw [fault]
    exact parting.line_place fits
  case line =>
    rw [parting.getElem?_lines, List.takeWhile_cons_of_pos (by simpa using feed), line]
    simp [withoutReturn_append returned]
  case start => rw [line]
  case parted => simp [line]
  case offset => simp [offset, parting.lineOffset_eq]
  case column =>
    rw [fault, Nat.add_assoc, ← width_encoded]
    exact parting.column_place fits

/-- A fault of a call lies at the character that it is about, whatever was asked before. -/
theorem locates_reached (fits : s.InRange tabWidth) (userData : υ) (calls : List Call)
    (ignoreNewline : Bool) {f : Fault}
    (answer : ((Session.reached s.text tabWidth userData
      (calls.map .call)).lexer.cursor.nextToken ignoreNewline).answer = .error f) :
    ∃ n before after, s.Locates tabWidth f n before after := by
  obtain ⟨i, whole, stands⟩ := isBoundary_reached fits userData calls
  rw [stands] at answer
  obtain ⟨front, rest, faults⟩ := exists_faultsAt fits whole answer
  exact faults.exists_locates fits

/-- A string is open behind one that goes over a line feed, a tab and a longer character. It is placed
on the second line, which ends in a carriage return. -/
theorem locates_open_string :
    let s : Source := ⟨"\"a\n\té\" \"b\r\n"⟩
    let c := (Session.reached s.text 8 () ([.next false].map .call)).lexer.cursor
    let f : Fault := ⟨.unclosedString, ⟨8, 2, 12⟩, ⟨3, "\té\" \"b"⟩⟩
    s.InRange 8 ∧ (c.nextToken true).answer = .error f ∧
      ∃ n before after, s.Locates 8 f n before after := by
  intro s c f
  have fits : s.InRange 8 := by decide
  have answer : (c.nextToken true).answer = .error f := by decide +kernel
  exact ⟨fits, answer, locates_reached fits () [.next false] true answer⟩

end Source

end Lexing
