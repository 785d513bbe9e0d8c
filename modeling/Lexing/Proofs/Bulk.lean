import Lexing.Proofs.Standing
import Mathlib.Logic.Function.Iterate

/-! Moving in bulk. To pass many bytes at once, or to jump to the next delimiter, leads to the same
cursor as to pass the bytes one after the other, wherever the run begins and wherever it is cut. -/
namespace Lexing

theorem Cursor.byte_eatWhile_eq_zero_iff (c : Cursor) :
    (c.eatWhile (!Byte.isDelimiter ·)).byte?.getD 0 = 0 ↔
      (c.eatWhile (!Byte.isDelimiter ·)).atEnd = true := by
  rw [atEnd_iff, byte?_eq, rest_eatWhile]
  have stops := List.head?_dropWhile_not (!Byte.isDelimiter ·) c.rest
  cases behind : c.rest.dropWhile (!Byte.isDelimiter ·) with
  | nil => simp
  | cons b rest =>
    rw [behind] at stops
    have delimiter : Byte.isDelimiter b = true := by simpa using stops
    have other : b ≠ 0 := by
      rintro rfl
      cases delimiter
    simp [other]

namespace Source

variable {υ : Type} {s : Source} {tabWidth : UInt32}

theorem bumps_cursorAt (fits : s.InRange tabWidth) (n : Nat) {i : Nat} (inside : i ≤ s.size) :
    Cursor.bump^[n] (s.cursorAt tabWidth i) = s.cursorAt tabWidth (min (i + n) s.size) := by
  induction n generalizing i with
  | zero => simp [Nat.min_eq_left inside]
  | succ n ih =>
    have further : min (min (i + 1) s.size + n) s.size = min (i + (n + 1)) s.size := by omega
    rw [Function.iterate_succ_apply, bump_cursorAt_min fits inside, ih (Nat.min_le_right _ _),
      further]

theorem Holds.advance_eq_bumps (fits : s.InRange tabWidth) {c : Cursor}
    (held : s.Holds tabWidth c) (n : UInt32) : c.advance n = Cursor.bump^[n.toNat] c := by
  obtain ⟨i, inside, rfl⟩ := held
  exact (advance_cursorAt fits inside n).trans (bumps_cursorAt fits n.toNat inside).symm

theorem Holds.skipToDelimiter_eq_eatWhile (fits : s.InRange tabWidth) {c : Cursor}
    (held : s.Holds tabWidth c) :
    c.skipToDelimiter = ((c.eatWhile (!Byte.isDelimiter ·)).byte?,
      c.eatWhile (!Byte.isDelimiter ·)) := by
  obtain ⟨i, inside, rfl⟩ := held
  have run : ((s.bytes.drop i).takeWhile (!Byte.isDelimiter ·)).length =
      (s.bytes.drop i).findIdx Byte.isDelimiter := by
    simp only [length_takeWhile_eq, Bool.not_not]
  have reach := findIdx_inside Byte.isDelimiter inside
  rw [skipToDelimiter_cursorAt fits inside, eatWhile_cursorAt fits _ inside, run,
    byte?_cursorAt fits reach]

/-- Wherever a session comes to, also inside a character, the moves in bulk are those byte by byte. -/
theorem bulk_reached (fits : s.InRange tabWidth) (userData : υ) (steps : List Step) :
    let c := (Session.reached s.text tabWidth userData steps).lexer.cursor
    let d := c.eatWhile fun b => b != Byte.quote && b != Byte.backslash
    (∀ n : UInt32, c.advance n = Cursor.bump^[n.toNat] c) ∧ (c.atEnd = true → c.bump = c) ∧
      c.skipToDelimiter = (d.byte?, d) ∧
      (c.skipToDelimiter.1.getD 0 = 0 ↔ d.atEnd = true) := by
  intro c d
  have held : s.Holds tabWidth c := (keeps_reached fits userData steps).lexer
  have plain : (fun b => b != Byte.quote && b != Byte.backslash) = (!Byte.isDelimiter ·) := by
    funext b
    simp [Byte.isDelimiter, bne]
  have same : d = c.eatWhile (!Byte.isDelimiter ·) := by simp only [d, plain]
  have jump : c.skipToDelimiter = (d.byte?, d) := by
    rw [same]
    exact held.skipToDelimiter_eq_eatWhile fits
  refine ⟨held.advance_eq_bumps fits, ?_, jump, ?_⟩
  · intro ended
    apply Cursor.bump_of_atEnd
    rw [Cursor.byte?_eq, (Cursor.atEnd_iff c).mp ended, List.head?_nil]
  · rw [jump, same]
    exact c.byte_eatWhile_eq_zero_iff

/-- From inside a character, over a line feed and a tab, up to a byte zero and beyond it. -/
theorem bulk_across_lines : (Source.mk "é\n\t\x00\"").InRange 8 ∧
    let c := (Session.reached "é\n\t\x00\"" 8 () [.bump]).lexer.cursor
    c.advance 3 = Cursor.bump^[3] c ∧ (c.advance 3).pos = ⟨4, 2, 9⟩ ∧
      c.skipToDelimiter.2.pos = ⟨5, 2, 10⟩ ∧
      (c.skipToDelimiter.1.getD 0 = 0 ↔
        (c.eatWhile fun b => b != Byte.quote && b != Byte.backslash).atEnd = true) := by
  have fits : (Source.mk "é\n\t\x00\"").InRange 8 := by decide
  obtain ⟨advance, -, -, ended⟩ := bulk_reached fits () [.bump]
  exact ⟨fits, advance 3, by decide +kernel, by decide +kernel, ended⟩

end Source

end Lexing
