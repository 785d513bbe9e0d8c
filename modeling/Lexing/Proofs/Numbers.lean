import Lexing.Proofs.Grammar
import Lexing.Proofs.Standing
import Mathlib.Data.List.TakeWhile

/-! Numbers. Wherever scanning starts, even inside a character, the numbers that it finds are written
with digits and at most one point. So each of them is a decimal. -/
namespace Lexing

namespace Decimal

theorem ofText?_whole {ds : List Char} (some_digit : ds ≠ [])
    (digits : ∀ d ∈ ds, d.isDigit = true) :
    ofText? (.ofList ds) = some ⟨digitsValue ds, 0⟩ := by
  have whole : ds.takeWhile Char.isDigit = ds := List.takeWhile_eq_self_iff.mpr digits
  have rest : ds.dropWhile Char.isDigit = [] := List.dropWhile_eq_nil_iff.mpr digits
  simp [ofText?, whole, rest, some_digit]

theorem ofText?_pointed {ds es : List Char} (some_digit : ds ++ es ≠ [])
    (digits : ∀ d ∈ ds, d.isDigit = true) (places : ∀ d ∈ es, d.isDigit = true) :
    ofText? (.ofList (ds ++ '.' :: es)) = some ⟨digitsValue (ds ++ es), es.length⟩ := by
  have point : ('.').isDigit = false := by decide
  have whole : (ds ++ '.' :: es).takeWhile Char.isDigit = ds := by
    rw [List.takeWhile_append_of_pos digits, List.takeWhile_cons, point]
    simp
  have rest : (ds ++ '.' :: es).dropWhile Char.isDigit = '.' :: es := by
    rw [List.dropWhile_append_of_pos digits, List.dropWhile_cons, point]
    simp
  have fraction : es.all Char.isDigit = true := List.all_eq_true.mpr places
  simp only [ofText?, String.toList_ofList, whole, rest, fraction]
  simp [some_digit]

end Decimal

theorem Form.exists_decimal {cs : List Char} (form : Form .number cs) :
    ∃ x, Decimal.ofText? (.ofList cs) = some x := by
  cases form with
  | whole some_digit digits => exact ⟨_, Decimal.ofText?_whole some_digit digits⟩
  | pointed some_digit digits places =>
    exact ⟨_, Decimal.ofText?_pointed some_digit digits places⟩

theorem asciiChars_ne_nil {bs : List UInt8} (some_byte : bs ≠ []) : asciiChars bs ≠ [] :=
  fun nothing => some_byte (List.map_eq_nil_iff.mp nothing)

theorem spelled_ascii {bs : List UInt8} (ascii : ∀ b ∈ bs, b.toNat < 0x80) :
    spelled bs = .ofList (asciiChars bs) := by
  rw [← spelled_encoded, encoded_asciiChars ascii]

theorem Reading.Begins.form_number {bs : List UInt8} {n : Nat}
    (begun : Begins bs (.token .number n)) :
    ∃ cs, spelled (bs.take n) = .ofList cs ∧ Form .number cs := by
  cases begun with
  | @whole ds bs some_digit digits =>
    refine ⟨asciiChars ds, ?_, .whole (asciiChars_ne_nil some_digit) ?_⟩
    · rw [List.take_left]
      exact spelled_ascii fun d member => Byte.ascii_of_isDigit (digits d member)
    · exact mirrors_isDigit.of_bytes digits
  | @pointed ds es bs some_digit digits places =>
    have chars : asciiChars (ds ++ Byte.point :: es) = asciiChars ds ++ '.' :: asciiChars es := by
      rw [asciiChars, List.map_append, List.map_cons]
      rfl
    refine ⟨asciiChars ds ++ '.' :: asciiChars es, ?_, .pointed ?_ ?_ ?_⟩
    · rw [take_pointed, ← chars]
      exact spelled_ascii (ascii_of_pointed digits places)
    · have some_char := asciiChars_ne_nil some_digit
      rwa [asciiChars, List.map_append] at some_char
    · exact mirrors_isDigit.of_bytes digits
    · exact mirrors_isDigit.of_bytes places

namespace Source

variable {s : Source} {tabWidth : UInt32}

theorem form_of_nextToken (fits : s.InRange tabWidth) {c : Cursor} (held : s.Holds tabWidth c)
    {ignoreNewline : Bool} {t : Token} (found : (c.nextToken ignoreNewline).answer = .ok t)
    (number : t.kind = .number) : ∃ cs, t.text = .ofList cs ∧ Form .number cs := by
  obtain ⟨m, kind, n, begun, -, rfl⟩ := exists_tokenAt fits held found
  change kind = .number at number
  subst number
  exact begun.form_number

/-- A number that was scanned has a value. -/
theorem exists_number (fits : s.InRange tabWidth) {c : Cursor} (held : s.Holds tabWidth c)
    {ignoreNewline : Bool} {t : Token} (found : (c.nextToken ignoreNewline).answer = .ok t)
    (number : t.kind = .number) : ∃ v, t.number = .ok v := by
  obtain ⟨cs, text, form⟩ := form_of_nextToken fits held found number
  obtain ⟨x, decimal⟩ := form.exists_decimal
  refine ⟨.ofDecimal x, ?_⟩
  rw [Token.number, text, decimal]

end Source

end Lexing
