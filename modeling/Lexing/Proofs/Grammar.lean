import Lexing.Proofs.Classes
import Lexing.Proofs.Tokens

/-! The lexical grammar over characters. A lexeme is what scanning reads at the head of a text just
if what follows does not glue to it. -/
namespace Lexing

inductive Inside : List Char → Prop where
  | nil : Inside []
  | plain {c cs} : c ≠ '"' → c ≠ '\\' → Inside cs → Inside (c :: cs)
  | escape {c cs} : Inside cs → Inside ('\\' :: c :: cs)

/-- The characters that a lexeme of a kind is written with. -/
inductive Form : Token.Kind → List Char → Prop where
  | identifier {c cs} : isWordStartChar c = true → (∀ d ∈ cs, isWordChar d = true) →
      Form .identifier (c :: cs)
  | whole {ds} : ds ≠ [] → (∀ d ∈ ds, d.isDigit = true) → Form .number ds
  | pointed {ds es} : ds ++ es ≠ [] → (∀ d ∈ ds, d.isDigit = true) →
      (∀ d ∈ es, d.isDigit = true) → Form .number (ds ++ '.' :: es)
  | string {cs} : Inside cs → Form .string ('"' :: (cs ++ ['"']))
  | symbol {c} : isPunctuation c = true → c ≠ '"' → c ≠ '_' → Form .symbol [c]
  | newline : Form .newline ['\n']

structure Lexeme where
  kind : Token.Kind
  chars : List Char
  form : Form kind chars

namespace Lexeme

def text (l : Lexeme) : List Char :=
  match l.kind with
  | .string => l.chars.tail.dropLast
  | .newline | .endOfStream => []
  | .identifier | .number | .symbol => l.chars

/-- The characters that a lexeme would not end before. -/
def Glues (l : Lexeme) (next : Char) : Prop :=
  match l.kind with
  | .identifier => isWordChar next = true
  | .number => next.isDigit = true ∨ next = '.'
  | .symbol => l.chars = ['.'] ∧ next.isDigit = true
  | .string | .newline | .endOfStream => False

/-- Nothing glues to the lexeme from what follows. -/
def Ends (l : Lexeme) (rest : List Char) : Prop := ∀ c, rest.head? = some c → ¬ l.Glues c

end Lexeme

theorem encodeChar_quote : String.utf8EncodeChar '"' = [Byte.quote] := by decide

theorem encoded_point (cs : List Char) : encoded ('.' :: cs) = Byte.point :: encoded cs :=
  @encoded_ascii_cons Byte.point (by decide) cs

theorem encoded_quoted (cs : List Char) :
    encoded ('"' :: (cs ++ ['"'])) = Byte.quote :: (encoded cs ++ [Byte.quote]) := by
  rw [encoded_cons, encodeChar_quote, encoded_append]
  rfl

theorem encoded_escape (c : Char) (cs : List Char) : encoded ('\\' :: c :: cs) =
    Byte.backslash :: (String.utf8EncodeChar c ++ encoded cs) := by
  rw [encoded_cons, encoded_cons]
  rfl

namespace Reading

theorem stringLength_inside {cs : List Char} (inside : Inside cs) (bs : List UInt8) :
    stringLength (encoded cs ++ Byte.quote :: bs) = some (encoded cs).length := by
  induction inside with
  | nil => exact stringLength_quote bs
  | plain quote backslash inside ih =>
    rw [encoded_cons, List.append_assoc, stringLength_char quote backslash, ih, List.length_append]
    exact congrArg some (Nat.add_comm _ _)
  | @escape c cs inside ih =>
    rw [encoded_escape, List.cons_append, List.append_assoc, stringLength_escaped, ih,
      List.length_cons, List.length_append, Option.map_some]
    exact congrArg some (by omega)

theorem inside_of_stringLength {cs : List Char} {bs : List UInt8}
    (closed : stringLength (encoded cs ++ Byte.quote :: bs) = some (encoded cs).length) :
    Inside cs := by
  generalize measured : cs.length = n
  induction n using Nat.strongRecOn generalizing cs with
  | _ n ih =>
    subst measured
    cases cs with
    | nil => exact .nil
    | cons c cs =>
      by_cases quote : c = '"'
      · subst quote
        rw [encoded_cons, encodeChar_quote, List.cons_append, List.cons_append,
          stringLength_quote] at closed
        cases closed
      · by_cases backslash : c = '\\'
        · subst backslash
          cases cs with
          | nil =>
            change stringLength (Byte.backslash :: Byte.quote :: bs) = some 1 at closed
            rw [stringLength_escape] at closed
            obtain ⟨m, -, length⟩ := Option.map_eq_some_iff.mp closed
            omega
          | cons d cs =>
            rw [encoded_escape, List.cons_append, List.append_assoc, stringLength_escaped] at closed
            obtain ⟨m, inner, length⟩ := Option.map_eq_some_iff.mp closed
            rw [List.length_cons, List.length_append] at length
            have counted : m = (encoded cs).length := by omega
            subst counted
            exact .escape (ih cs.length (by simp only [List.length_cons]; omega) inner rfl)
        · rw [encoded_cons, List.append_assoc, stringLength_char quote backslash] at closed
          obtain ⟨m, inner, length⟩ := Option.map_eq_some_iff.mp closed
          rw [List.length_append] at length
          have counted : m = (encoded cs).length := by omega
          subst counted
          exact .plain quote backslash (ih cs.length (by simp) inner rfl)

theorem stops_digit {rest : List Char}
    (ends : ∀ c, rest.head? = some c → ¬ (c.isDigit = true ∨ c = '.')) :
    Stops Byte.isDigit (encoded rest) :=
  mirrors_isDigit.stops_iff_not.mpr fun c here digit => ends c here (.inl digit)

theorem head?_ne_point {rest : List Char}
    (ends : ∀ c, rest.head? = some c → ¬ (c.isDigit = true ∨ c = '.')) :
    (encoded rest).head? ≠ some Byte.point := by
  intro here
  exact ends '.' ((head?_encoded_iff (by decide)).mp here) (.inr rfl)

theorem begins_lexeme (l : Lexeme) {rest : List Char} (ends : l.Ends rest) :
    Begins (encoded (l.chars ++ rest)) (token l.kind (encoded l.chars).length) := by
  obtain ⟨kind, chars, form⟩ := l
  simp only [Lexeme.Ends, Lexeme.Glues] at ends
  simp only [encoded_append]
  cases form with
  | @identifier c cs start part =>
    obtain ⟨b, sat, ascii, rfl⟩ := mirrors_isWordStart.of_char start
    obtain ⟨bs, rfl, spelling, run⟩ := mirrors_isWordPart.of_chars part
    have begun := Begins.word sat run (mirrors_isWordPart.stops_iff_not.mpr ends)
    rw [encoded_ascii_cons ascii, spelling, List.length_cons, Nat.add_comm]
    exact begun
  | @whole ds some_digit digits =>
    obtain ⟨ds, rfl, spelling, run⟩ := mirrors_isDigit.of_chars digits
    rw [spelling]
    refine .whole ?_ run ?_ ?_
    · rintro rfl
      exact some_digit rfl
    · exact stops_digit ends
    · exact head?_ne_point ends
  | @pointed ds es some_digit digits places =>
    obtain ⟨ds, rfl, spelling, run⟩ := mirrors_isDigit.of_chars digits
    obtain ⟨es, rfl, spelling', run'⟩ := mirrors_isDigit.of_chars places
    have some_byte : ds ++ es ≠ [] := by
      intro none_left
      obtain ⟨rfl, rfl⟩ := List.append_eq_nil_iff.mp none_left
      exact some_digit rfl
    have begun := Begins.pointed some_byte run run' (stops_digit ends) (head?_ne_point ends)
    rw [encoded_append, spelling, encoded_point, spelling', List.append_assoc, List.length_append,
      List.length_cons, Nat.add_comm es.length, ← Nat.add_assoc]
    exact begun
  | @string cs inside =>
    have begun := Begins.string (stringLength_inside inside (encoded rest))
    rw [encoded_quoted, List.length_cons, List.length_append, List.cons_append, List.append_assoc]
    exact begun
  | @symbol c punctuation quote score =>
    obtain ⟨b, sat, ascii, rfl⟩ := mirrors_isSymbol.of_char punctuation
    rw [encoded_ascii_cons ascii]
    refine .symbol sat ?_ ?_ ?_
    · rintro rfl
      exact quote rfl
    · rintro rfl
      exact score rfl
    · rintro rfl
      exact mirrors_isDigit.stops_iff_not.mpr fun c here digit => ends c here ⟨rfl, digit⟩
  | newline => exact .newline

theorem ends_number {rest : List Char} (stops : Stops Byte.isDigit (encoded rest))
    (ended : (encoded rest).head? ≠ some Byte.point) {c : Char} (here : rest.head? = some c) :
    ¬ (c.isDigit = true ∨ c = '.') := by
  rintro (digit | rfl)
  · exact mirrors_isDigit.stops_iff_not.mp stops c here digit
  · exact ended ((head?_encoded_iff (by decide)).mpr here)

/-- What is read is a lexeme, and nothing glues to it. -/
theorem exists_lexeme {cs : List Char} {kind : Token.Kind} {n : Nat}
    (begun : Begins (encoded cs) (token kind n)) (goes : (token kind n).goesOn = true) :
    ∃ (l : Lexeme) (rest : List Char), cs = l.chars ++ rest ∧ l.kind = kind ∧
      (encoded l.chars).length = n ∧ l.Ends rest := by
  generalize spelling : encoded cs = bs at begun
  cases begun with
  | endOfStream => cases goes
  | @string body bs closed =>
    obtain ⟨cs, rfl, inner⟩ := encoded_eq_cons_ascii (by decide) spelling
    obtain ⟨text, rest, rfl, rfl, rfl⟩ := encoded_eq_append_ascii (by decide) inner
    refine ⟨⟨.string, _, .string (inside_of_stringLength closed)⟩, rest, ?_, rfl, ?_, ?_⟩
    · simp only [List.cons_append, List.append_assoc]
      rfl
    · rw [encoded_quoted, List.length_cons, List.length_append]
      rfl
    · intro c here glues
      exact glues
  | newline =>
    obtain ⟨rest, rfl, -⟩ := encoded_eq_cons_ascii (by decide) spelling
    refine ⟨⟨.newline, _, .newline⟩, rest, rfl, rfl, rfl, ?_⟩
    intro c here glues
    exact glues
  | @word b run bs start part stops =>
    obtain ⟨c, cs, rfl, starts, first, tail⟩ := mirrors_isWordStart.exists_char start spelling
    obtain ⟨ds, rest, rfl, parts, rfl, rfl⟩ := mirrors_isWordPart.exists_run part tail
    refine ⟨⟨.identifier, _, .identifier starts parts⟩, rest, rfl, rfl, ?_, ?_⟩
    · rw [encoded_cons, first, List.length_append]
      rfl
    · exact mirrors_isWordPart.stops_iff_not.mp stops
  | @whole ds bs some_digit digits stops ended =>
    obtain ⟨ds, rest, rfl, chars, rfl, rfl⟩ := mirrors_isDigit.exists_run digits spelling
    have some_char : ds ≠ [] := by
      rintro rfl
      exact some_digit rfl
    refine ⟨⟨.number, _, .whole some_char chars⟩, rest, rfl, rfl, rfl, ?_⟩
    exact fun c => ends_number stops ended
  | @pointed ds es bs some_digit digits places stops ended =>
    obtain ⟨ds, behind, rfl, chars, rfl, point⟩ := mirrors_isDigit.exists_run digits spelling
    obtain ⟨fraction, rfl, tail⟩ := encoded_eq_cons_ascii (by decide) point
    obtain ⟨es, rest, rfl, chars', rfl, rfl⟩ := mirrors_isDigit.exists_run places tail
    have some_char : ds ++ es ≠ [] := by
      intro nothing
      obtain ⟨rfl, rfl⟩ := List.append_eq_nil_iff.mp nothing
      exact some_digit rfl
    refine ⟨⟨.number, _, .pointed some_char chars chars'⟩, rest, ?_, rfl, ?_, ?_⟩
    · simp only [List.append_assoc, List.cons_append]
      rfl
    · rw [encoded_append, encoded_point, List.length_append, List.length_cons,
        Nat.add_comm (encoded es).length, Nat.add_assoc]
    · exact fun c => ends_number stops ended
  | @symbol b bs symbol quote score stops =>
    obtain ⟨c, rest, rfl, punctuation, own, rfl⟩ := mirrors_isSymbol.exists_char symbol spelling
    refine ⟨⟨.symbol, _, .symbol punctuation ?_ ?_⟩, rest, rfl, rfl, ?_, ?_⟩
    · rintro rfl
      cases own
      exact quote rfl
    · rintro rfl
      cases own
      exact score rfl
    · rw [encoded_cons, own]
      rfl
    · rintro d here ⟨single, digit⟩
      cases single
      cases own
      exact mirrors_isDigit.stops_iff_not.mp (stops rfl) d here digit

end Reading

end Lexing
