import Lexing.Proofs.Course
import Lexing.Proofs.Resuming
import Mathlib.Data.List.TakeWhile

/-! The end of a text. A lexer holds it for reached just if the next token is the end of the stream,
although the one looks at the text that remains and the other passes over bytes. What was consumed
and what remains make up the text. -/
namespace Lexing

def Ends (answer : Except Fault Token) : Prop := ∃ t, answer = .ok t ∧ t.kind = .endOfStream

@[simp] theorem ends_ok {t : Token} : Ends (.ok t) ↔ t.kind = .endOfStream := by simp [Ends]

@[simp] theorem not_ends_error {f : Fault} : ¬ Ends (.error f) := by simp [Ends]

variable {υ : Type}

theorem ends_iff_hasMore (answer : Except Fault Token) :
    answer.map Token.hasMore = .ok false ↔ Ends answer := by
  cases answer with
  | error f => simp [Except.map]
  | ok t => simp [Except.map, Token.hasMore, Token.isEndOfStream]

namespace Cursor

theorem ends_scanHere_iff (c : Cursor) : Ends c.scanHere.answer ↔ c.rest = [] := by
  rw [← List.head?_eq_none_iff, ← byte?_eq]
  unfold scanHere
  cases c.byte? with
  | none => simp [lexeme]
  | some b =>
    simp only [reduceCtorEq, iff_false]
    cases Opening.ofByte b c.following? with
    | string =>
      unfold scanString
      dsimp only
      split <;> simp [lexeme]
    | newline => simp [scanNewline, lexeme]
    | word => simp [scanWord, lexeme]
    | number =>
      unfold scanNumber
      dsimp only
      split <;> simp [lexeme]
    | symbol => simp [scanSymbol, lexeme]
    | stray => simp [scanStray]

theorem ends_nextToken_false_iff (c : Cursor) :
    Ends (c.nextToken false).answer ↔ ∀ b ∈ c.rest, Byte.isBlank b = true := by
  rw [nextToken, dif_neg (by simp), scan, ends_scanHere_iff, eatBlanks, rest_eatWhile]
  exact List.dropWhile_eq_nil_iff

theorem ends_nextToken_of_ends {c : Cursor} (last : Ends (c.nextToken false).answer)
    (ignoreNewline : Bool) : Ends (c.nextToken ignoreNewline).answer := by
  have other : (c.nextToken false).isNewline = false := by
    obtain ⟨t, found, ended⟩ := last
    rw [Scanned.isNewline, found, answerMeets, Token.isNewline, ended]
    rfl
  rw [c.nextToken_eq, other, Bool.and_false]
  exact last

end Cursor

namespace Lexer

theorem remaining_eq_spelled (l : Lexer υ) : l.remaining = spelled l.cursor.rest := by
  have all := l.cursor.source.limit_le_size
  rw [remaining, Cursor.rest]
  by_cases ordered : l.cursor.offset ≤ l.cursor.source.limit
  · rw [Source.slice_eq_spelled _ ordered all, Source.readable, List.drop_take]
  · have nothing : l.cursor.source.readable.drop l.cursor.offset = [] := by
      apply List.drop_eq_nil_of_le
      rw [Source.length_readable]
      omega
    rw [nothing, Source.slice, Source.slice?, dif_neg fun cut => ordered cut.1]
    rfl

/-- Where what is left to read is a text, both tests of the end look at the same bytes. -/
theorem tests_of_whole {l : Lexer υ} (whole : l.cursor.Whole) :
    (l.isAtEnd = true ↔ Ends (l.peek false)) ∧ (l.remaining = "" → l.cursor.atEnd = true) := by
  obtain ⟨cs, text⟩ := whole
  have bytes : l.remaining.toByteArray.data.toList = l.cursor.rest := by
    rw [text, ← bytes_spelled cs, ← text, ← remaining_eq_spelled]
    rfl
  constructor
  · rw [peek, Cursor.ends_nextToken_false_iff, isAtEnd, ← bytes, ← Array.all_toList]
    exact List.all_eq_true
  · intro nothing
    rw [nothing] at bytes
    exact l.cursor.atEnd_iff.mpr bytes.symm

end Lexer

namespace Source

variable {s : Source} {tabWidth : UInt32}

theorem slice?_parted {a b : Source} (parted : s.text = a.text ++ b.text) :
    s.slice? 0 a.size = some a.text := by
  have size := size_parted parted
  have stop : s.IsBoundary a.size := isBoundary_iff.mpr ⟨a, b, parted, rfl⟩
  have spelling : s.slice 0 a.size = a.text := by
    have sliced := s.slice_eq_spelled (Nat.zero_le a.size) (by omega)
    rw [List.drop_zero, Nat.sub_zero, take_size parted, a.bytes_eq_encoded] at sliced
    simpa [spelled_encoded] using sliced
  simpa only [spelling] using slice?_of_isBoundary (Nat.zero_le _) isBoundary_zero stop

/-- Whatever a lexer was asked before, it is at the end just if nothing is left to consume, and what
remains is what was not consumed. -/
theorem ends_reached (fits : s.InRange tabWidth) (userData : υ) (calls : List Call) :
    let l := (Session.reached s.text tabWidth userData (calls.map .call)).lexer
    l.text = s.text ∧
    (∃ before, s.slice? 0 l.position.offset.toNat = some before ∧
      before ++ l.remaining = l.text) ∧
    (l.isAtEnd = true ↔ Ends (l.peek false)) ∧
    (l.isAtEnd = true ↔ l.eat.answer = .ok false) ∧
    ∀ ignoreNewline, ¬ Ends (l.nextToken ignoreNewline).answer → l.isAtEnd = false := by
  intro l
  obtain ⟨i, whole, stands⟩ := isBoundary_reached fits userData calls
  obtain ⟨a, b, parted, rfl⟩ := isBoundary_iff.mp whole
  change l.cursor = _ at stands
  have text : l.text = s.text := congrArg (fun c => c.source.text) stands
  have offset : l.position.offset.toNat = a.size :=
    (congrArg Cursor.offset stands).trans (offset_cursorAt fits whole.inside)
  have readable : l.cursor.Whole :=
    Session.whole_reached (isBoundary_limit fits) tabWidth userData (asks_calls calls)
  obtain ⟨agrees, -⟩ := Lexer.tests_of_whole readable
  refine ⟨text, ?_, agrees, agrees.trans (ends_iff_hasMore _).symm, ?_⟩
  · refine ⟨a.text, ?_, ?_⟩
    · rw [offset]
      exact slice?_parted parted
    · rw [remaining_parted parted fits stands, text, parted]
  · intro ignoreNewline more
    refine Bool.eq_false_iff.mpr fun ended => more ?_
    exact Cursor.ends_nextToken_of_ends (agrees.mp ended) ignoreNewline

/-- A string that takes a part of a character along is closed before the blanks at the end. Behind a
string that is open the end is reached, and behind a newline that is left it is not. -/
theorem ends_open_string :
    let closed := (Session.reached "\"\\é\" \t\r" 4 () ([.eat].map .call)).lexer
    let opened := (Session.reached "\"é\\" 4 () ([.eat].map .call)).lexer
    let newline := (Session.reached "x \n" 4 () ([.eat].map .call)).lexer
    (Source.mk "\"\\é\" \t\r").InRange 4 ∧ (Source.mk "\"é\\").InRange 4 ∧
      (Source.mk "x \n").InRange 4 ∧
      (closed.isAtEnd = true ↔ Ends (closed.peek false)) ∧ closed.isAtEnd = true ∧
      (opened.isAtEnd = true ↔ opened.eat.answer = .ok false) ∧ opened.isAtEnd = true ∧
      newline.isAtEnd = false ∧ Ends (newline.peek true) := by
  have closed : (Source.mk "\"\\é\" \t\r").InRange 4 := by decide
  have opened : (Source.mk "\"é\\").InRange 4 := by decide
  have newline : (Source.mk "x \n").InRange 4 := by decide
  obtain ⟨-, -, agrees, -⟩ := ends_reached closed () [.eat]
  obtain ⟨-, -, -, eats, -⟩ := ends_reached opened () [.eat]
  obtain ⟨-, -, -, -, more⟩ := ends_reached newline () [.eat]
  refine ⟨closed, opened, newline, agrees, by decide +kernel, eats, by decide +kernel, ?_,
    ⟨⟨.endOfStream, "", ⟨3, 3⟩, ⟨3, 2, 1⟩⟩, by decide +kernel, rfl⟩⟩
  refine more false ?_
  rintro ⟨t, found, ended⟩
  have next : (((Session.reached "x \n" 4 () ([.eat].map .call)).lexer.nextToken false).answer) =
      .ok ⟨.newline, "", ⟨2, 3⟩, ⟨2, 1, 3⟩⟩ := by decide +kernel
  rw [next] at found
  cases found
  cases ended

end Source

end Lexing
