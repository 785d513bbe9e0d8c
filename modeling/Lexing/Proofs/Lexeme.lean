import Lexing.Proofs.Reading

/-! The lexemes that some bytes can begin with, as rules. Each rule names the bytes of the lexeme
and what must not follow them. Exactly one rule applies to any bytes, and it is the one that the
reading follows. -/
namespace Lexing

/-- A list does not begin with a member of a class. -/
def Stops {α : Type} (p : α → Bool) (bs : List α) : Prop := ∀ b, bs.head? = some b → p b = false

namespace Stops

variable {α : Type} {p : α → Bool}

theorem nil : Stops p [] := by
  intro b here
  cases here

theorem cons {b : α} {bs : List α} (other : p b = false) : Stops p (b :: bs) := by
  intro d here
  cases here
  exact other

theorem iff_any {bs : List α} : Stops p bs ↔ bs.head?.any p = false := by
  cases bs with
  | nil => exact ⟨fun _ => rfl, fun _ => nil⟩
  | cons b bs => exact ⟨fun stops => stops b rfl, fun other => cons other⟩

theorem dropWhile (bs : List α) : Stops p (bs.dropWhile p) := by
  intro b here
  have stops := List.head?_dropWhile_not p bs
  rw [here] at stops
  simpa using stops

theorem takeWhile_eq {run bs : List α} (all : ∀ b ∈ run, p b = true) (stops : Stops p bs) :
    (run ++ bs).takeWhile p = run := by
  rw [List.takeWhile_append_of_pos all]
  cases bs with
  | nil => simp
  | cons b bs => simp [stops b rfl]

end Stops

theorem all_takeWhile {p : UInt8 → Bool} (bs : List UInt8) : ∀ b ∈ bs.takeWhile p, p b = true :=
  List.all_eq_true.mp List.all_takeWhile

theorem exists_run (p : UInt8 → Bool) (bs : List UInt8) :
    ∃ run rest, run ++ rest = bs ∧ (∀ b ∈ run, p b = true) ∧ Stops p rest :=
  ⟨bs.takeWhile p, bs.dropWhile p, List.takeWhile_append_dropWhile, all_takeWhile bs, .dropWhile bs⟩

theorem getElem?_length_append (as bs : List UInt8) : (as ++ bs)[as.length]? = bs.head? := by
  rw [List.getElem?_append_right (Nat.le_refl _), Nat.sub_self, List.head?_eq_getElem?]

theorem take_pointed (ds es bs : List UInt8) :
    (ds ++ Byte.point :: (es ++ bs)).take (ds.length + 1 + es.length) = ds ++ Byte.point :: es := by
  rw [Nat.add_assoc, List.take_length_add_append, Nat.add_comm, List.take_succ_cons,
    List.take_left]

theorem getElem?_behind_point (ds es bs : List UInt8) :
    (ds ++ Byte.point :: (es ++ bs))[ds.length + 1 + es.length]? = bs.head? := by
  have parted := getElem?_length_append (ds ++ Byte.point :: es) bs
  rw [List.append_assoc, List.cons_append, List.length_append, List.length_cons] at parted
  rw [← parted]
  congr 1
  omega

namespace Reading

/-- The rules of the lexemes. A string reaches to the first quote that no backslash takes along, and
a number to the end of its digits, among which a second point is a fault. -/
inductive Begins : List UInt8 → Reading → Prop where
  | endOfStream : Begins [] (token .endOfStream 0)
  | string {body bs} : stringLength (body ++ Byte.quote :: bs) = some body.length →
      Begins (Byte.quote :: (body ++ Byte.quote :: bs)) (token .string (body.length + 2))
  | unclosedString {bs} : stringLength bs = none → Begins (Byte.quote :: bs) unclosedString
  | newline {bs} : Begins (Byte.lineFeed :: bs) (token .newline 1)
  | word {b run bs} : Byte.isWordStart b = true → (∀ d ∈ run, Byte.isWordPart d = true) →
      Stops Byte.isWordPart bs → Begins (b :: (run ++ bs)) (token .identifier (1 + run.length))
  | whole {ds bs} : ds ≠ [] → (∀ d ∈ ds, Byte.isDigit d = true) → Stops Byte.isDigit bs →
      bs.head? ≠ some Byte.point → Begins (ds ++ bs) (token .number ds.length)
  | pointed {ds es bs} : ds ++ es ≠ [] → (∀ d ∈ ds, Byte.isDigit d = true) →
      (∀ d ∈ es, Byte.isDigit d = true) → Stops Byte.isDigit bs → bs.head? ≠ some Byte.point →
      Begins (ds ++ Byte.point :: (es ++ bs)) (token .number (ds.length + 1 + es.length))
  | secondPoint {ds es bs} : ds ++ es ≠ [] → (∀ d ∈ ds, Byte.isDigit d = true) →
      (∀ d ∈ es, Byte.isDigit d = true) →
      Begins (ds ++ Byte.point :: (es ++ Byte.point :: bs)) (secondPoint (ds.length + 1 + es.length))
  | symbol {b bs} : Byte.isSymbol b = true → b ≠ Byte.quote → b ≠ Byte.underscore →
      (b = Byte.point → Stops Byte.isDigit bs) → Begins (b :: bs) (token .symbol 1)
  | strayCharacter {b bs} : Byte.isSymbol b = false → Byte.isWordPart b = false →
      b ≠ Byte.lineFeed → Begins (b :: bs) strayCharacter

theorem exists_inside {bs : List UInt8} {n : Nat} (closed : stringLength bs = some n) :
    ∃ body rest, bs = body ++ Byte.quote :: rest ∧ n = body.length := by
  obtain ⟨below, quote⟩ := List.getElem?_eq_some_iff.mp (quote_of_stringLength closed)
  refine ⟨bs.take n, bs.drop (n + 1), ?_, (List.length_take_of_le (Nat.le_of_lt below)).symm⟩
  rw [← quote, ← List.drop_eq_getElem_cons, List.take_append_drop]

theorem numberLength_whole {ds bs : List UInt8} (digits : ∀ d ∈ ds, Byte.isDigit d = true)
    (stops : Stops Byte.isDigit bs) (ended : bs.head? ≠ some Byte.point) :
    numberLength (ds ++ bs) = ds.length := by
  simp only [numberLength, stops.takeWhile_eq digits, getElem?_length_append, if_neg ended]

theorem numberLength_pointed {ds es bs : List UInt8} (digits : ∀ d ∈ ds, Byte.isDigit d = true)
    (places : ∀ d ∈ es, Byte.isDigit d = true) (stops : Stops Byte.isDigit bs) :
    numberLength (ds ++ Byte.point :: (es ++ bs)) = ds.length + 1 + es.length := by
  have run : (ds ++ Byte.point :: (es ++ bs)).takeWhile Byte.isDigit = ds :=
    Stops.takeWhile_eq digits (.cons (by decide))
  have next : (ds ++ Byte.point :: (es ++ bs))[ds.length]? = some Byte.point :=
    getElem?_length_append _ _
  have behind : (ds ++ Byte.point :: (es ++ bs)).drop (ds.length + 1) = es ++ bs := by
    rw [List.append_cons, List.drop_left' (by simp)]
  simp only [numberLength, run, next, if_true, behind, stops.takeWhile_eq places]

theorem ofBytes_digit {b : UInt8} {bs : List UInt8} (digit : Byte.isDigit b = true) :
    ofBytes (b :: bs) = ofNumber (b :: bs) := by
  have opens : Opening.ofByte b bs.head? = .number := Opening.ofByte_eq_iff.mpr (.inl digit)
  simp only [ofBytes, opens]

theorem ofBytes_point {ds es bs : List UInt8} (some_digit : ds ++ es ≠ [])
    (digits : ∀ d ∈ ds, Byte.isDigit d = true) (places : ∀ d ∈ es, Byte.isDigit d = true) :
    ofBytes (ds ++ Byte.point :: (es ++ bs)) = ofNumber (ds ++ Byte.point :: (es ++ bs)) := by
  cases ds with
  | cons d ds => exact ofBytes_digit (digits d List.mem_cons_self)
  | nil =>
    cases es with
    | nil => exact absurd rfl some_digit
    | cons e es =>
      have opens : Opening.ofByte Byte.point (e :: es ++ bs).head? = .number :=
        Opening.ofByte_eq_iff.mpr (.inr ⟨rfl, places e List.mem_cons_self⟩)
      simp only [List.nil_append, ofBytes, opens]

theorem Begins.ofBytes_eq {bs : List UInt8} {r : Reading} (begun : Begins bs r) :
    ofBytes bs = r := by
  cases begun with
  | endOfStream => rfl
  | string closed => simp only [ofBytes, Opening.ofByte, if_true, ofString, closed]
  | unclosedString ended => simp only [ofBytes, Opening.ofByte, if_true, ofString, ended]
  | newline => rfl
  | @word b run bs start part stops =>
    have opens : Opening.ofByte b (run ++ bs).head? = .word := Opening.ofByte_eq_iff.mpr start
    simp only [ofBytes, opens, stops.takeWhile_eq part]
  | @whole ds bs some_digit digits stops ended =>
    have reach := numberLength_whole digits stops ended
    have next := getElem?_length_append ds bs
    obtain ⟨d, tail, rfl⟩ := List.exists_cons_of_ne_nil some_digit
    rw [List.cons_append, ofBytes_digit (digits d List.mem_cons_self), ofNumber,
      ← List.cons_append, reach, next, if_neg ended]
  | @pointed ds es bs some_digit digits places stops ended =>
    have reach := numberLength_pointed digits places stops
    rw [ofBytes_point some_digit digits places, ofNumber, reach, getElem?_behind_point,
      if_neg ended]
  | @secondPoint ds es bs some_digit digits places =>
    have stops : Stops Byte.isDigit (Byte.point :: bs) := .cons (by decide)
    have reach := numberLength_pointed digits places stops
    rw [ofBytes_point some_digit digits places, ofNumber, reach, getElem?_behind_point,
      if_pos List.head?_cons]
  | @symbol b bs symbol quote score stops =>
    have opens : Opening.ofByte b bs.head? = .symbol := by
      refine Opening.ofByte_eq_iff.mpr ⟨symbol, quote, score, ?_⟩
      rintro ⟨point, digit⟩
      rw [Stops.iff_any.mp (stops point)] at digit
      cases digit
    simp only [ofBytes, opens]
  | @strayCharacter b bs symbol part feed =>
    have opens : Opening.ofByte b bs.head? = .stray :=
      Opening.ofByte_eq_iff.mpr ⟨symbol, part, feed⟩
    simp only [ofBytes, opens]

theorem begins_ofNumber {b : UInt8} {bs : List UInt8}
    (opens : Byte.isDigit b = true ∨ b = Byte.point ∧ bs.head?.any Byte.isDigit = true) :
    Begins (b :: bs) (ofNumber (b :: bs)) := by
  obtain ⟨ds, rest, parted, digits, stops⟩ := exists_run Byte.isDigit (b :: bs)
  by_cases point : rest.head? = some Byte.point
  · obtain ⟨more, rfl⟩ := List.head?_eq_some_iff.mp point
    obtain ⟨es, rest, rfl, places, ends⟩ := exists_run Byte.isDigit more
    have some_digit : ds ++ es ≠ [] := by
      intro none_left
      obtain ⟨rfl, rfl⟩ := List.append_eq_nil_iff.mp none_left
      cases parted
      rcases opens with digit | ⟨-, digit⟩
      · cases digit
      · exact Bool.false_ne_true ((Stops.iff_any.mp ends).symm.trans digit)
    rw [← parted, ofNumber, numberLength_pointed digits places ends, getElem?_behind_point]
    by_cases second : rest.head? = some Byte.point
    · obtain ⟨last, rfl⟩ := List.head?_eq_some_iff.mp second
      rw [if_pos second]
      exact .secondPoint some_digit digits places
    · rw [if_neg second]
      exact .pointed some_digit digits places ends second
  · have some_digit : ds ≠ [] := by
      rintro rfl
      cases parted
      rcases opens with digit | ⟨rfl, -⟩
      · rw [stops b rfl] at digit
        cases digit
      · exact point rfl
    rw [← parted, ofNumber, numberLength_whole digits stops point, getElem?_length_append,
      if_neg point]
    exact .whole some_digit digits stops point

theorem begins_ofBytes (bs : List UInt8) : Begins bs (ofBytes bs) := by
  cases bs with
  | nil => exact .endOfStream
  | cons b bs =>
    have opens := Opening.opens_ofByte b bs.head?
    rw [ofBytes]
    cases opening : Opening.ofByte b bs.head? with
    | string =>
      rw [opening] at opens
      cases opens
      dsimp only [ofString]
      cases closed : stringLength bs with
      | none => exact .unclosedString closed
      | some n =>
        obtain ⟨body, rest, rfl, rfl⟩ := exists_inside closed
        exact .string closed
    | newline =>
      rw [opening] at opens
      cases opens
      exact .newline
    | word =>
      rw [opening] at opens
      have begun := Begins.word opens (all_takeWhile bs) (Stops.dropWhile bs)
      rwa [List.takeWhile_append_dropWhile] at begun
    | number =>
      rw [opening] at opens
      exact begins_ofNumber opens
    | symbol =>
      rw [opening] at opens
      obtain ⟨symbol, quote, score, point⟩ := opens
      refine .symbol symbol quote score fun here => Stops.iff_any.mpr ?_
      exact Bool.eq_false_iff.mpr fun digit => point ⟨here, digit⟩
    | stray =>
      rw [opening] at opens
      exact .strayCharacter opens.1 opens.2.1 opens.2.2

theorem begins_iff {bs : List UInt8} {r : Reading} : Begins bs r ↔ ofBytes bs = r := by
  constructor
  · exact Begins.ofBytes_eq
  · rintro rfl
    exact begins_ofBytes bs

/-- The bytes that are passed: a fault in a string passes all of them, one at a stray character
none. -/
def length (bs : List UInt8) : Reading → Nat
  | token _ n | secondPoint n => n
  | unclosedString => bs.length
  | strayCharacter => 0

theorem Begins.length_le {bs : List UInt8} {r : Reading} (begun : Begins bs r) :
    r.length bs ≤ bs.length := by
  cases begun <;> simp only [length, List.length_cons, List.length_append, List.length_nil] <;> omega

theorem Begins.eq_nil {bs : List UInt8} {n : Nat} (begun : Begins bs (token .endOfStream n)) :
    bs = [] := by
  cases begun
  rfl

theorem Begins.length_pos {bs : List UInt8} {kind : Token.Kind} {n : Nat}
    (begun : Begins bs (token kind n)) (more : kind ≠ .endOfStream) : 0 < n := by
  cases begun with
  | endOfStream => exact absurd rfl more
  | string closed => omega
  | newline => omega
  | word start part stops => omega
  | whole some_digit digits stops ended => exact List.length_pos_iff.mpr some_digit
  | pointed some_digit digits places stops ended => omega
  | symbol symbol quote score stops => omega

end Reading

end Lexing
