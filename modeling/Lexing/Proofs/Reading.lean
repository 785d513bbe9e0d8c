import Lexing.Proofs.Opening

/-! What the bytes ahead hold, read off the list of them: what is skipped before a lexeme, and then
the kind of the lexeme and how far it reaches, or why there is none. -/
namespace Lexing

/-- What stands between lexemes, line feeds too if they do not count as lexemes. -/
def Byte.isSkipped (ignoreNewline : Bool) (b : UInt8) : Bool :=
  isBlank b || (ignoreNewline && b == lineFeed)

theorem Byte.isSkipped_false : isSkipped false = isBlank := by
  funext b
  simp [isSkipped]

def gap (ignoreNewline : Bool) (bs : List UInt8) : Nat :=
  (bs.takeWhile (Byte.isSkipped ignoreNewline)).length

theorem drop_gap (ignoreNewline : Bool) (bs : List UInt8) :
    bs.drop (gap ignoreNewline bs) = bs.dropWhile (Byte.isSkipped ignoreNewline) := by
  have parted := List.takeWhile_append_dropWhile (p := Byte.isSkipped ignoreNewline) (l := bs)
  exact (congrArg (List.drop _) parted.symm).trans List.drop_left

theorem not_isSkipped_of_head? (ignoreNewline : Bool) (bs : List UInt8) {b : UInt8}
    (here : (bs.drop (gap ignoreNewline bs)).head? = some b) :
    Byte.isSkipped ignoreNewline b = false := by
  rw [drop_gap] at here
  have stops := List.head?_dropWhile_not (Byte.isSkipped ignoreNewline) bs
  rw [here] at stops
  simpa using stops

theorem gap_true (bs : List UInt8) :
    gap true bs = gap false bs + gap true (bs.drop (gap false bs)) := by
  have parted := List.takeWhile_append_dropWhile (p := Byte.isSkipped false) (l := bs)
  have skipped : ∀ b ∈ bs.takeWhile (Byte.isSkipped false), Byte.isSkipped true b = true := by
    intro b member
    have blank := List.all_eq_true.mp List.all_takeWhile b member
    simp only [Byte.isSkipped, Bool.false_and, Bool.or_false] at blank
    simp [Byte.isSkipped, blank]
  have whole : gap true bs = gap true (bs.takeWhile (Byte.isSkipped false) ++
      bs.dropWhile (Byte.isSkipped false)) := by rw [parted]
  rw [whole, drop_gap, gap, List.takeWhile_append_of_pos skipped, List.length_append]
  rfl

theorem gap_true_lineFeed (bs : List UInt8) :
    gap true (Byte.lineFeed :: bs) = 1 + gap true bs := by
  rw [gap, List.takeWhile_cons_of_pos rfl, List.length_cons, Nat.add_comm]
  rfl

theorem gap_true_drop {ignoreNewline : Bool} {bs : List UInt8}
    (other : (bs.drop (gap ignoreNewline bs)).head? ≠ some Byte.lineFeed) :
    gap true (bs.drop (gap ignoreNewline bs)) = 0 := by
  cases ahead : bs.drop (gap ignoreNewline bs) with
  | nil => rfl
  | cons b rest =>
    have first : (bs.drop (gap ignoreNewline bs)).head? = some b := by rw [ahead, List.head?_cons]
    have stands := not_isSkipped_of_head? ignoreNewline bs first
    have feed : b ≠ Byte.lineFeed := by
      rintro rfl
      exact other first
    rw [gap, List.takeWhile_cons_of_neg]
    · rfl
    · simpa [Byte.isSkipped, feed] using stands

/-- A lexeme of so many bytes, or the way in which there is none. -/
inductive Reading where
  | token (kind : Token.Kind) (length : Nat)
  | unclosedString
  | secondPoint (length : Nat)
  | strayCharacter
deriving DecidableEq, Repr

namespace Reading

/-- The bytes before the quote that closes a string. -/
def stringLength : List UInt8 → Option Nat
  | [] => none
  | [b] => if b = Byte.quote then some 0 else none
  | b :: b' :: bs =>
    if b = Byte.quote then some 0
    else if b = Byte.backslash then (stringLength bs).map (· + 2)
    else (stringLength (b' :: bs)).map (· + 1)

def numberLength (bs : List UInt8) : Nat :=
  let whole := (bs.takeWhile Byte.isDigit).length
  if bs[whole]? = some Byte.point then
    whole + 1 + ((bs.drop (whole + 1)).takeWhile Byte.isDigit).length
  else whole

def ofString (bs : List UInt8) : Reading :=
  match stringLength bs with
  | some n => token .string (n + 2)
  | none => unclosedString

def ofNumber (bs : List UInt8) : Reading :=
  if bs[numberLength bs]? = some Byte.point then secondPoint (numberLength bs)
  else token .number (numberLength bs)

def ofBytes : List UInt8 → Reading
  | [] => token .endOfStream 0
  | b :: bs =>
    match Opening.ofByte b bs.head? with
    | .string => ofString bs
    | .newline => token .newline 1
    | .word => token .identifier (1 + (bs.takeWhile Byte.isWordPart).length)
    | .number => ofNumber (b :: bs)
    | .symbol => token .symbol 1
    | .stray => strayCharacter

theorem stringLength_quote (bs : List UInt8) : stringLength (Byte.quote :: bs) = some 0 := by
  cases bs <;> rfl

theorem stringLength_escape (b : UInt8) (bs : List UInt8) :
    stringLength (Byte.backslash :: b :: bs) = (stringLength bs).map (· + 2) := rfl

theorem stringLength_last_escape : stringLength [Byte.backslash] = none := rfl

theorem stringLength_plain (plain bs : List UInt8)
    (none_ends : ∀ b ∈ plain, Byte.isDelimiter b = false) :
    stringLength (plain ++ bs) = (stringLength bs).map (· + plain.length) := by
  induction plain with
  | nil => simp
  | cons b plain ih =>
    have ordinary := none_ends b List.mem_cons_self
    simp only [Byte.isDelimiter, Bool.or_eq_false_iff, beq_eq_false_iff_ne] at ordinary
    rw [List.cons_append]
    have tail := ih fun d member => none_ends d (List.mem_cons_of_mem b member)
    cases rest : plain ++ bs with
    | nil =>
      rw [rest] at tail
      rw [stringLength, if_neg ordinary.1]
      cases ended : stringLength bs with
      | none => rfl
      | some n => rw [ended] at tail; cases tail
    | cons b' more =>
      rw [stringLength, if_neg ordinary.1, if_neg ordinary.2, ← rest, tail, Option.map_map]
      rfl

theorem stringLength_skip (bs : List UInt8) :
    stringLength bs = (stringLength (bs.drop (bs.findIdx Byte.isDelimiter))).map
      (· + bs.findIdx Byte.isDelimiter) := by
  have reach : bs.findIdx Byte.isDelimiter ≤ bs.length := List.findIdx_le_length
  have plain := stringLength_plain (bs.take (bs.findIdx Byte.isDelimiter))
    (bs.drop (bs.findIdx Byte.isDelimiter)) fun b member => by
      obtain ⟨j, below, rfl⟩ := List.mem_iff_getElem.mp member
      rw [List.length_take_of_le reach] at below
      rw [List.getElem_take]
      exact List.not_of_lt_findIdx below
  rwa [List.take_append_drop, List.length_take_of_le reach] at plain

theorem delimiter_of_findIdx {bs : List UInt8} {b : UInt8}
    (here : bs[bs.findIdx Byte.isDelimiter]? = some b) :
    b = Byte.quote ∨ b = Byte.backslash := by
  obtain ⟨reach, rfl⟩ := List.getElem?_eq_some_iff.mp here
  have ends := List.findIdx_getElem (w := reach)
  simpa only [Byte.isDelimiter, Bool.or_eq_true, beq_iff_eq] using ends

theorem numberLength_le (bs : List UInt8) : numberLength bs ≤ bs.length := by
  have whole := (List.takeWhile_sublist Byte.isDigit (l := bs)).length_le
  unfold numberLength
  dsimp only
  split
  · rename_i point
    have below := (List.getElem?_eq_some_iff.mp point).1
    have part := (List.takeWhile_sublist Byte.isDigit
      (l := bs.drop ((bs.takeWhile Byte.isDigit).length + 1))).length_le
    rw [List.length_drop] at part
    omega
  · exact whole

theorem quote_of_stringLength {bs : List UInt8} {n : Nat} (closed : stringLength bs = some n) :
    bs[n]? = some Byte.quote := by
  fun_induction stringLength bs generalizing n with
  | case1 => cases closed
  | case2 =>
    cases closed
    rfl
  | case3 => cases closed
  | case4 =>
    cases closed
    rfl
  | case5 _ _ _ ih =>
    obtain ⟨m, inner, rfl⟩ := Option.map_eq_some_iff.mp closed
    exact ih inner
  | case6 _ _ _ _ _ ih =>
    obtain ⟨m, inner, rfl⟩ := Option.map_eq_some_iff.mp closed
    exact ih inner

theorem ofBytes_eq_newline_iff (bs : List UInt8) (n : Nat) :
    ofBytes bs = token .newline n ↔ bs.head? = some Byte.lineFeed ∧ n = 1 := by
  cases bs with
  | nil => simp [ofBytes]
  | cons b bs =>
    have newline : Opening.ofByte b bs.head? = .newline ↔ b = Byte.lineFeed := Opening.ofByte_eq_iff
    rw [List.head?_cons, Option.some.injEq, ← newline, ofBytes]
    cases Opening.ofByte b bs.head? with
    | newline => simp [eq_comm]
    | string =>
      simp only [ofString]
      split <;> simp
    | number =>
      simp only [ofNumber]
      split <;> simp
    | word => simp
    | symbol => simp
    | stray => simp

end Reading

end Lexing
