import Lexing.Proofs.Numerals
import Lexing.Proofs.Rounding
import Mathlib.Data.Nat.Digits.Defs

/-! Values. What a numeral stands for is a quotient: all of its digits as one number, by a power of ten
for those behind its point. A number that is demanded is the one nearest to what the token it consumes
stands for, wherever its point is and however long it is. -/
namespace Lexing

def digits (cs : List Char) : List Nat :=
  (cs.filter Char.isDigit).map fun d => d.toNat - '0'.toNat

/-- All digits, wherever the point is, as one number. -/
def wholeNumber (cs : List Char) : Nat := Nat.ofDigits 10 (digits cs).reverse

def places (cs : List Char) : Nat := (cs.dropWhile (· != '.')).countP Char.isDigit

def numeralValue (cs : List Char) : ℚ := wholeNumber cs / 10 ^ places cs

/-- A value is the one nearest to what a number of the source stands for. -/
structure Source.Valued (s : Source) (t : Token) (v : Binary64) : Prop where
  number : t.kind = .number
  text : (Source.mk t.text).bytes = s.range t.span.start.toNat t.span.stop.toNat
  nearest : Binary64.Nearest (numeralValue t.text.toList) v

theorem digits_append (cs ds : List Char) : digits (cs ++ ds) = digits cs ++ digits ds := by
  simp [digits]

theorem digits_point (cs : List Char) : digits ('.' :: cs) = digits cs := by
  have point : ('.').isDigit = false := by decide
  simp [digits, point]

theorem digitsValue_eq {ds : List Char} (all : ∀ d ∈ ds, d.isDigit = true) :
    Decimal.digitsValue ds = wholeNumber ds := by
  induction ds using List.reverseRecOn with
  | nil => rfl
  | append_singleton ds d ih =>
    obtain ⟨before, last⟩ := List.forall_mem_append.mp all
    have digit : digits [d] = [d.toNat - '0'.toNat] := by simp [digits, last d]
    have step : Decimal.digitsValue (ds ++ [d]) =
        10 * Decimal.digitsValue ds + (d.toNat - '0'.toNat) := by
      simp [Decimal.digitsValue]
    rw [step, ih before, wholeNumber, wholeNumber, digits_append, digit, List.reverse_append,
      List.reverse_singleton, List.singleton_append, Nat.ofDigits_cons, Nat.add_comm]

theorem bne_point_of_digits {ds : List Char} (all : ∀ d ∈ ds, d.isDigit = true) :
    ∀ d ∈ ds, (d != '.') = true := by
  intro d member
  rw [bne_iff_ne]
  rintro rfl
  exact point_not_mem all member

theorem Form.ofText?_eq {cs : List Char} (form : Form .number cs) :
    Decimal.ofText? (.ofList cs) = some ⟨wholeNumber cs, places cs⟩ := by
  cases form with
  | whole some_digit all =>
    rw [Decimal.ofText?_whole some_digit all, digitsValue_eq all, places,
      List.dropWhile_eq_nil_iff.mpr (bne_point_of_digits all)]
    rfl
  | @pointed ds es some_digit before behind =>
    have all : ∀ d ∈ ds ++ es, d.isDigit = true := List.forall_mem_append.mpr ⟨before, behind⟩
    have counted : places (ds ++ '.' :: es) = es.length := by
      have point : ('.').isDigit = false := by decide
      rw [places, List.dropWhile_append_of_pos (bne_point_of_digits before)]
      simpa [point] using behind
    rw [Decimal.ofText?_pointed some_digit before behind, digitsValue_eq all, wholeNumber,
      wholeNumber, digits_append, digits_append, digits_point, counted]

theorem nearest_ofDecimal (x : Decimal) :
    Binary64.Nearest (x.digits / 10 ^ x.places) (.ofDecimal x) := by
  have positive : 0 < Nat.pow 10 x.places := Nat.pow_pos (by decide)
  have same : (x.digits : ℚ) / 10 ^ x.places = x.digits / (Nat.pow 10 x.places : Nat) := by
    rw [Nat.pow_eq, Nat.cast_pow, Nat.cast_ofNat]
  rw [same]
  exact Binary64.nearest_ofRatio x.digits positive

namespace Source

variable {υ : Type} {s : Source} {tabWidth : UInt32}

theorem bytes_of_number (fits : s.InRange tabWidth) {c : Cursor} (held : s.Holds tabWidth c)
    {ignoreNewline : Bool} {t : Token} (found : (c.nextToken ignoreNewline).answer = .ok t)
    (number : t.kind = .number) :
    (Source.mk t.text).bytes = s.range t.span.start.toNat t.span.stop.toNat := by
  obtain ⟨i, inside, rfl⟩ := held
  obtain ⟨m, r, -, skipped, begun, -, call⟩ := exists_scanned fits inside ignoreNewline
  have consumed := consumed_scanned fits skipped begun
  rw [← call, found] at consumed
  generalize m + r.length (s.bytes.drop m) = j at consumed
  cases consumed with
  | token start stop shows ended =>
    rw [number] at shows
    rw [start, stop]
    exact shows

theorem valued_of_nextToken (fits : s.InRange tabWidth) {c : Cursor} (held : s.Holds tabWidth c)
    {ignoreNewline : Bool} {t : Token} (found : (c.nextToken ignoreNewline).answer = .ok t)
    (number : t.kind = .number) {v : Binary64} (value : t.number = .ok v) : s.Valued t v := by
  obtain ⟨cs, text, form⟩ := form_of_nextToken fits held found number
  refine ⟨number, bytes_of_number fits held found number, ?_⟩
  rw [Token.number, text, form.ofText?_eq] at value
  rw [text, String.toList_ofList]
  cases value
  exact nearest_ofDecimal ⟨wholeNumber cs, places cs⟩

/-- In any state that a session comes to, a number that is delivered is the nearest to what the token
consumed for it stands for. -/
theorem valued_reached (fits : s.InRange tabWidth) (userData : υ) (steps : List Step)
    {v : Binary64} :
    let l := (Session.reached s.text tabWidth userData steps).lexer
    l.requireNumber.answer = .ok v →
      l.requireNumber.lexer = (l.nextToken false).lexer ∧
      ∃ t, (l.nextToken false).answer = .ok t ∧ s.Valued t v := by
  intro l delivered
  have held : s.Holds tabWidth l.cursor := (keeps_reached fits userData steps).lexer
  refine ⟨lexer_require l (.kind .number), ?_⟩
  rw [Lexer.requireNumber] at delivered
  rcases l.require_cases (.kind .number) with
    ⟨f, -, same⟩ | ⟨t, found, admitted, same⟩ | ⟨t, -, -, same⟩
  · rw [same] at delivered
    cases delivered
  · rw [same] at delivered
    exact ⟨t, found, valued_of_nextToken fits held found (beq_iff_eq.mp admitted) delivered⟩
  · rw [same] at delivered
    cases delivered

/-- A number with nothing behind its point is halfway between two numbers, and goes to the even one. -/
theorem valued_halfway :
    let s : Source := ⟨"9007199254740993. .5"⟩
    let l := (Session.reached s.text 4 () []).lexer
    let m := (Session.reached s.text 4 () [.call .requireNumber]).lexer
    let t : Token := ⟨.number, "9007199254740993.", ⟨0, 17⟩, ⟨0, 1, 1⟩⟩
    let u : Token := ⟨.number, ".5", ⟨18, 20⟩, ⟨18, 1, 19⟩⟩
    s.InRange 4 ∧ l.requireNumber.answer = .ok ⟨0x4340000000000000⟩ ∧
      s.Valued t ⟨0x4340000000000000⟩ ∧ m.requireNumber.answer = .ok ⟨0x3FE0000000000000⟩ ∧
      s.Valued u ⟨0x3FE0000000000000⟩ := by
  intro s l m t u
  have fits : s.InRange 4 := by decide
  have whole : l.requireNumber.answer = .ok ⟨0x4340000000000000⟩ := by decide +kernel
  have half : m.requireNumber.answer = .ok ⟨0x3FE0000000000000⟩ := by decide +kernel
  have first : (l.nextToken false).answer = .ok t := by decide +kernel
  have second : (m.nextToken false).answer = .ok u := by decide +kernel
  obtain ⟨-, t', found, valued⟩ := valued_reached fits () [] whole
  obtain ⟨-, u', found', valued'⟩ := valued_reached fits () [.call .requireNumber] half
  cases first.symm.trans found
  cases second.symm.trans found'
  exact ⟨fits, whole, valued, half, valued'⟩

end Source

end Lexing
