import Lexing.Proofs.Lexeme
import Lexing.Proofs.Scanning

/-! Scanning tiles a source. Calls that follow on each other, faults or not, consume ranges that
follow on each other. A range holds what is skipped and then the span of the token, or what a fault
discards. -/
namespace Lexing

def Cursor.calls : Cursor → List Bool → List Scanned
  | _, [] => []
  | c, ignoreNewline :: flags =>
    let r := c.nextToken ignoreNewline
    r :: r.cursor.calls flags

/-- What the bytes of a token's text are to the bytes of its span. -/
def Token.Kind.Shows (text span : List UInt8) : Token.Kind → Prop
  | identifier | number | symbol => text = span
  | string => Byte.quote :: (text ++ [Byte.quote]) = span
  | newline => text = [] ∧ span = [Byte.lineFeed]
  | endOfStream => text = [] ∧ span = []

theorem ascii_of_pointed {ds es : List UInt8} (digits : ∀ d ∈ ds, Byte.isDigit d = true)
    (places : ∀ d ∈ es, Byte.isDigit d = true) : ∀ b ∈ ds ++ Byte.point :: es, b.toNat < 0x80 := by
  refine List.forall_mem_append.mpr ⟨?_, List.forall_mem_cons.mpr ⟨by decide, ?_⟩⟩
  · exact fun d member => Byte.ascii_of_isDigit (digits d member)
  · exact fun d member => Byte.ascii_of_isDigit (places d member)

namespace Source

def range (s : Source) (i j : Nat) : List UInt8 := (s.bytes.drop i).take (j - i)

/-- What a call consumes behind the skipped bytes: the token that it answers, or what the fault
discards. -/
inductive Consumed (s : Source) : Nat → Nat → Except Fault Token → Prop where
  | token {i j t} : t.span.start.toNat = i → t.span.stop.toNat = j →
      t.kind.Shows (Source.mk t.text).bytes (s.range i j) →
      (t.kind = .endOfStream → i = s.size) → Consumed s i j (.ok t)
  | strayCharacter {i c f} : f.cause = .strayCharacter c → Consumed s i i (.error f)
  | secondPoint {i j ds es f} : f.cause = .secondPoint → ds ++ es ≠ [] →
      (∀ d ∈ ds, Byte.isDigit d = true) → (∀ d ∈ es, Byte.isDigit d = true) →
      s.range i j = ds ++ Byte.point :: es → s.bytes[j]? = some Byte.point →
      Consumed s i j (.error f)
  | unclosedString {i f} : f.cause = .unclosedString → s.bytes[i]? = some Byte.quote →
      Consumed s i s.size (.error f)

/-- Ranges that follow on each other from an offset on, one for each call. -/
inductive Tiled (s : Source) : Nat → List Bool → List Scanned → Prop where
  | nil {i} : i ≤ s.size → Tiled s i [] []
  | cons {i m j ignoreNewline flags r rs} : i ≤ m → m ≤ j → j ≤ s.size →
      (∀ b ∈ s.range i m, Byte.isSkipped ignoreNewline b = true) →
      s.Consumed m j r.answer → r.cursor.offset = j →
      Tiled s j flags rs → Tiled s i (ignoreNewline :: flags) (r :: rs)

variable {s : Source} {tabWidth : UInt32}

theorem range_gap (ignoreNewline : Bool) (i : Nat) :
    ∀ b ∈ s.range i (i + gap ignoreNewline (s.bytes.drop i)),
      Byte.isSkipped ignoreNewline b = true := by
  intro b member
  rw [range, Nat.add_sub_cancel_left] at member
  have run := List.prefix_iff_eq_take.mp
    (List.takeWhile_prefix (Byte.isSkipped ignoreNewline) (l := s.bytes.drop i))
  rw [gap, ← run] at member
  exact all_takeWhile _ b member

theorem exists_encoded_inside {i : Nat} {body rest : List UInt8}
    (ahead : s.bytes.drop i = Byte.quote :: (body ++ Byte.quote :: rest)) :
    ∃ cs, encoded cs = body := by
  have whole : encoded s.text.toList =
      s.bytes.take i ++ Byte.quote :: (body ++ Byte.quote :: rest) := by
    rw [← bytes_eq_encoded, ← ahead, List.take_append_drop]
  obtain ⟨as, bs, -, -, inside⟩ := encoded_eq_append_ascii (by decide) whole
  obtain ⟨cs, ds, -, spelling, -⟩ := encoded_eq_append_ascii (by decide) inside
  exact ⟨cs, spelling⟩

theorem bytes_spelled_ascii {bs : List UInt8} (ascii : ∀ b ∈ bs, b.toNat < 0x80) :
    (Source.mk (spelled bs)).bytes = bs := by
  rw [← encoded_asciiChars ascii, bytes_spelled]

theorem shows_tokenAt {kind : Token.Kind} {i n : Nat}
    (begun : Reading.Begins (s.bytes.drop i) (.token kind n)) :
    kind.Shows (Source.mk (s.tokenAt tabWidth kind i n).text).bytes ((s.bytes.drop i).take n) := by
  have behind : s.bytes.drop (i + 1) = (s.bytes.drop i).tail := by rw [List.tail_drop]
  have inside := @exists_encoded_inside s i
  simp only [tokenAt, behind]
  generalize s.bytes.drop i = ahead at begun inside
  cases begun with
  | endOfStream => exact ⟨rfl, rfl⟩
  | @string body bs closed =>
    obtain ⟨cs, rfl⟩ := inside rfl
    simp [Token.Kind.Shows, bytes_spelled, List.take_length_add_append]
  | newline => exact ⟨rfl, rfl⟩
  | @word b run bs start part stops =>
    have span : (b :: (run ++ bs)).take (1 + run.length) = b :: run := by
      rw [Nat.add_comm, List.take_succ_cons, List.take_left]
    simp only [Token.Kind.Shows, span]
    refine bytes_spelled_ascii (List.forall_mem_cons.mpr ⟨?_, fun d member => ?_⟩)
    · exact Byte.ascii_of_class b (by simp [Byte.isWordPart, start])
    · exact Byte.ascii_of_class d (by simp [part d member])
  | @whole ds bs some_digit digits stops ended =>
    simp only [Token.Kind.Shows, List.take_left]
    exact bytes_spelled_ascii fun d member => Byte.ascii_of_isDigit (digits d member)
  | @pointed ds es bs some_digit digits places stops ended =>
    simp only [Token.Kind.Shows, take_pointed]
    exact bytes_spelled_ascii (ascii_of_pointed digits places)
  | symbol symbol quote score stops =>
    refine bytes_spelled_ascii (List.forall_mem_singleton.mpr ?_)
    exact Byte.ascii_of_class _ (by simp [symbol])

theorem quote_of_unclosedString {i : Nat}
    (begun : Reading.Begins (s.bytes.drop i) .unclosedString) :
    s.bytes[i]? = some Byte.quote := by
  rw [← List.head?_drop]
  generalize s.bytes.drop i = ahead at begun
  cases begun
  rfl

theorem point_of_secondPoint {i n : Nat}
    (begun : Reading.Begins (s.bytes.drop i) (.secondPoint n)) :
    s.bytes[i + n]? = some Byte.point := by
  rw [← List.getElem?_drop]
  generalize s.bytes.drop i = ahead at begun
  cases begun
  rw [getElem?_behind_point]
  rfl

theorem exists_of_strayCharacter {i : Nat}
    (begun : Reading.Begins (s.bytes.drop i) .strayCharacter) :
    ∃ b, s.bytes[i]? = some b ∧ b ≠ Byte.lineFeed := by
  rw [← List.head?_drop]
  generalize s.bytes.drop i = ahead at begun
  cases begun with
  | strayCharacter symbol part feed => exact ⟨_, rfl, feed⟩

theorem consumed_scanned (fits : s.InRange tabWidth) {i : Nat} (inside : i ≤ s.size) {r : Reading}
    (begun : Reading.Begins (s.bytes.drop i) r) :
    s.Consumed i (i + r.length (s.bytes.drop i)) (s.scanned tabWidth i r).answer := by
  have small := fits.size_lt
  have reach := begun.length_le
  have all := s.length_drop_bytes i
  cases r with
  | token kind n =>
    simp only [Reading.length] at reach ⊢
    refine .token ?_ ?_ ?_ ?_
    · exact toNat_ofNat_of_le (by omega)
    · exact toNat_ofNat_of_le (by omega)
    · rw [range, Nat.add_sub_cancel_left]
      exact shows_tokenAt begun
    · rintro rfl
      exact eq_size_of_drop inside begun.eq_nil
  | unclosedString =>
    have quote := quote_of_unclosedString begun
    rw [Reading.length, all, Nat.add_sub_cancel' inside]
    exact .unclosedString rfl quote
  | secondPoint n =>
    have point := point_of_secondPoint begun
    simp only [Reading.length]
    generalize ahead : s.bytes.drop i = bs at begun
    cases begun with
    | @secondPoint ds es bs some_digit digits places =>
      refine .secondPoint rfl some_digit digits places ?_ point
      rw [range, Nat.add_sub_cancel_left, ahead, take_pointed]
  | strayCharacter => exact .strayCharacter rfl

theorem cursor_scanned {i : Nat} (inside : i ≤ s.size) (r : Reading) :
    (s.scanned tabWidth i r).cursor = s.cursorAt tabWidth (i + r.length (s.bytes.drop i)) := by
  cases r with
  | token kind n => rfl
  | unclosedString =>
    rw [Reading.length, length_drop_bytes, Nat.add_sub_cancel' inside]
    rfl
  | secondPoint n => rfl
  | strayCharacter => rfl

/-- A call passes a gap, and then comes to what one of the rules says of the bytes ahead. -/
theorem exists_scanned (fits : s.InRange tabWidth) {i : Nat} (inside : i ≤ s.size)
    (ignoreNewline : Bool) :
    ∃ m r, m = i + gap ignoreNewline (s.bytes.drop i) ∧ m ≤ s.size ∧
      Reading.Begins (s.bytes.drop m) r ∧ m + r.length (s.bytes.drop m) ≤ s.size ∧
      (s.cursorAt tabWidth i).nextToken ignoreNewline = s.scanned tabWidth m r := by
  have skipped := gap_inside inside ignoreNewline
  have begun := Reading.begins_ofBytes (s.bytes.drop (i + gap ignoreNewline (s.bytes.drop i)))
  exact ⟨_, _, rfl, skipped, begun, run_inside skipped begun.length_le,
    nextToken_cursorAt fits inside ignoreNewline⟩

theorem tiled_calls_cursorAt (fits : s.InRange tabWidth) (flags : List Bool) {i : Nat}
    (inside : i ≤ s.size) : s.Tiled i flags ((s.cursorAt tabWidth i).calls flags) := by
  induction flags generalizing i with
  | nil => exact .nil inside
  | cons ignoreNewline flags ih =>
    obtain ⟨m, r, start, skipped, begun, reach, call⟩ := exists_scanned fits inside ignoreNewline
    have stop := @cursor_scanned s tabWidth m skipped r
    rw [Cursor.calls, call]
    refine .cons ?_ (Nat.le_add_right m _) reach ?_ (consumed_scanned fits skipped begun) ?_ ?_
    · omega
    · rw [start]
      exact range_gap ignoreNewline i
    · rw [stop, offset_cursorAt fits reach]
    · rw [stop]
      exact ih reach

theorem tiled_calls (fits : s.InRange tabWidth) (flags : List Bool) :
    s.Tiled 0 flags (Cursor.calls { source := s, tabWidth := tabWidth } flags) := by
  rw [← cursorAt_zero]
  exact tiled_calls_cursorAt fits flags (Nat.zero_le _)

theorem tiled_calls_second_point : (Source.mk "1..2").InRange 4 ∧
    (Source.mk "1..2").Tiled 0 [false, true]
      (Cursor.calls { source := ⟨"1..2"⟩, tabWidth := 4 } [false, true]) :=
  ⟨by decide, tiled_calls (by decide) [false, true]⟩

end Source

end Lexing
