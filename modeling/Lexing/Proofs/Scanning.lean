import Lexing.Proofs.Place
import Lexing.Proofs.Reading
import Lexing.Proofs.Spelling
import Lexing.Scan.Next

/-! Scanning from a cursor in place gives what the bytes ahead hold, put at the cursor's offset. So
every statement about scanning is one about lists of bytes. -/
namespace Lexing

namespace Source

variable {s : Source} {tabWidth : UInt32}

theorem eatNumber_cursorAt (fits : s.InRange tabWidth) {i : Nat} (inside : i ≤ s.size) :
    (s.cursorAt tabWidth i).eatNumber =
      s.cursorAt tabWidth (i + Reading.numberLength (s.bytes.drop i)) := by
  have whole := takeWhile_inside Byte.isDigit inside
  unfold Cursor.eatNumber Reading.numberLength
  dsimp only
  rw [eatWhile_cursorAt fits _ inside, byte?_cursorAt fits whole, List.getElem?_drop]
  split
  · rename_i point
    have below := lt_size_of_getElem? point
    rw [bump_cursorAt fits below, eatWhile_cursorAt fits _ below, List.drop_drop]
    simp only [Nat.succ_eq_add_one, Nat.add_assoc]
  · rfl

def stringEnd (s : Source) (i : Nat) : Nat :=
  i + (Reading.stringLength (s.bytes.drop i)).getD (s.size - i)

theorem stringEnd_size : s.stringEnd s.size = s.size := by
  rw [stringEnd, drop_size, Nat.sub_self]
  rfl

theorem stringEnd_quote {i : Nat} (here : s.bytes[i]? = some Byte.quote) : s.stringEnd i = i := by
  rw [stringEnd, drop_of_getElem? here, Reading.stringLength_quote]
  rfl

theorem stringEnd_eq_add {i n : Nat} (inside : i + n ≤ s.size)
    (counts : Reading.stringLength (s.bytes.drop i) =
      (Reading.stringLength (s.bytes.drop (i + n))).map (· + n)) :
    s.stringEnd i = s.stringEnd (i + n) := by
  rw [stringEnd, stringEnd, counts]
  cases Reading.stringLength (s.bytes.drop (i + n)) with
  | none =>
    simp only [Option.map_none, Option.getD_none]
    omega
  | some m =>
    simp only [Option.map_some, Option.getD_some]
    omega

theorem stringEnd_skip {i : Nat} (inside : i ≤ s.size) :
    s.stringEnd i = s.stringEnd (i + (s.bytes.drop i).findIdx Byte.isDelimiter) := by
  refine stringEnd_eq_add (findIdx_inside _ inside) ?_
  rw [← List.drop_drop]
  exact Reading.stringLength_skip _

theorem stringEnd_escape {i : Nat} {b : UInt8} (here : s.bytes[i]? = some Byte.backslash)
    (next : s.bytes[i + 1]? = some b) : s.stringEnd i = s.stringEnd (i + 2) := by
  have below := lt_size_of_getElem? next
  refine stringEnd_eq_add below ?_
  rw [drop_of_getElem? here, drop_of_getElem? next, Reading.stringLength_escape]

theorem stringEnd_last_escape {i : Nat} (here : s.bytes[i]? = some Byte.backslash)
    (last : i + 1 = s.size) : s.stringEnd i = s.size := by
  rw [stringEnd, drop_of_getElem? here, last, drop_size, Reading.stringLength_last_escape,
    Option.getD_none]
  omega

theorem eatString_cursorAt (fits : s.InRange tabWidth) {i : Nat} (inside : i ≤ s.size) :
    (s.cursorAt tabWidth i).eatString = s.cursorAt tabWidth (s.stringEnd i) := by
  generalize measured : s.size - i = n
  induction n using Nat.strongRecOn generalizing i with
  | _ n ih =>
    subst measured
    have skip := skipToDelimiter_cursorAt fits inside
    have bound := findIdx_inside Byte.isDelimiter inside
    have delimiter := @Reading.delimiter_of_findIdx (s.bytes.drop i)
    have forward := Nat.le_add_right i ((s.bytes.drop i).findIdx Byte.isDelimiter)
    rw [List.getElem?_drop] at delimiter
    rw [stringEnd_skip inside]
    generalize i + (s.bytes.drop i).findIdx Byte.isDelimiter = k at skip bound delimiter forward
    rw [Cursor.eatString]
    split
    · rename_i b stop found
      rw [skip] at found
      obtain ⟨here, rfl⟩ := Prod.mk.inj found
      have below : k < s.size := lt_size_of_getElem? here
      split
      · rename_i escape
        subst escape
        rw [bump_cursorAt fits below]
        cases next : s.bytes[k + 1]? with
        | none =>
          have last : k + 1 = s.size := eq_size_of_getElem? below next
          rw [stringEnd_last_escape here last, last, bump_cursorAt_size fits,
            ih (s.size - s.size) (by omega) (Nat.le_refl _) rfl, stringEnd_size]
        | some b =>
          have behind : k + 1 < s.size := lt_size_of_getElem? next
          rw [stringEnd_escape here next, bump_cursorAt fits behind,
            ih (s.size - (k + 2)) (by omega) behind rfl]
      · rename_i ordinary
        rw [(delimiter here).resolve_right ordinary] at here
        rw [stringEnd_quote here]
    · rename_i stop found
      rw [skip] at found
      obtain ⟨ended, rfl⟩ := Prod.mk.inj found
      have last : k = s.size := eq_size_of_getElem? bound ended
      rw [last, stringEnd_size]

/-- The text of a token is what its lexeme spells, less the quotes of a string. -/
def tokenAt (s : Source) (tabWidth : UInt32) (kind : Token.Kind) (i n : Nat) : Token where
  kind := kind
  text :=
    match kind with
    | .newline | .endOfStream => ""
    | .string => spelled ((s.bytes.drop (i + 1)).take (n - 2))
    | .identifier | .number | .symbol => spelled ((s.bytes.drop i).take n)
  span := ⟨.ofNat i, .ofNat (i + n)⟩
  pos := s.place tabWidth i

def faultAt (s : Source) (tabWidth : UInt32) (cause : Fault.Cause) (i : Nat) : Fault :=
  ⟨cause, s.place tabWidth i, s.lineAt i⟩

/-- The character that a fault names, a lone byte as the character of its number. -/
def strayAt (s : Source) (i : Nat) : Char :=
  (leadingChar? (s.bytes.drop i)).getD (.ofNat ((s.bytes.drop i).headD 0).toNat)

/-- What a reading comes to at an offset. -/
def scanned (s : Source) (tabWidth : UInt32) (i : Nat) : Reading → Scanned
  | .token kind n => ⟨.ok (s.tokenAt tabWidth kind i n), s.cursorAt tabWidth (i + n)⟩
  | .unclosedString => ⟨.error (s.faultAt tabWidth .unclosedString i), s.cursorAt tabWidth s.size⟩
  | .secondPoint n =>
    ⟨.error (s.faultAt tabWidth .secondPoint (i + n)), s.cursorAt tabWidth (i + n)⟩
  | .strayCharacter =>
    ⟨.error (s.faultAt tabWidth (.strayCharacter (s.strayAt i)) i), s.cursorAt tabWidth i⟩

def read (s : Source) (tabWidth : UInt32) (i : Nat) : Scanned :=
  s.scanned tabWidth i (.ofBytes (s.bytes.drop i))

theorem offset_pos_cursorAt {i : Nat} (inside : i ≤ s.size) :
    (s.cursorAt tabWidth i).pos.offset = .ofNat i := by
  simp only [cursorAt, place, Position.after, length_take_bytes inside]

theorem lexeme_cursorAt (fits : s.InRange tabWidth) (kind : Token.Kind) {i n : Nat}
    (inside : i + n ≤ s.size) :
    (s.cursorAt tabWidth i).lexeme kind (s.cursorAt tabWidth (i + n)) =
      ⟨kind, spelled ((s.bytes.drop i).take n), ⟨.ofNat i, .ofNat (i + n)⟩,
        s.place tabWidth i⟩ := by
  have from_start : i ≤ s.size := by omega
  have sliced := s.slice_eq_spelled (Nat.le_add_right i n) inside
  rw [Nat.add_sub_cancel_left] at sliced
  rw [Cursor.lexeme, Cursor.sliceFrom, offset_cursorAt fits from_start,
    offset_cursorAt fits inside, ← sliced, offset_pos_cursorAt from_start,
    offset_pos_cursorAt inside]
  rfl

theorem locate_cursorAt (fits : s.InRange tabWidth) (cause : Fault.Cause) {i : Nat}
    (inside : i ≤ s.size) (j : Nat) :
    Fault.locate cause (s.place tabWidth i) (s.cursorAt tabWidth j) =
      s.faultAt tabWidth cause i := by
  rw [Fault.locate, Cursor.lineAt, toNat_offset_place fits inside]
  rfl

theorem scanWord_cursorAt (fits : s.InRange tabWidth) {i : Nat} (inside : i < s.size) :
    (s.cursorAt tabWidth i).scanWord = s.scanned tabWidth i (.token .identifier
      (1 + ((s.bytes.drop (i + 1)).takeWhile Byte.isWordPart).length)) := by
  have behind : i + 1 ≤ s.size := inside
  have reach := takeWhile_inside Byte.isWordPart behind
  unfold Cursor.scanWord
  dsimp only
  rw [bump_cursorAt fits inside, eatWhile_cursorAt fits _ behind, Nat.add_assoc,
    lexeme_cursorAt fits .identifier (by omega)]
  rfl

theorem scanSymbol_cursorAt (fits : s.InRange tabWidth) {i : Nat} (inside : i < s.size) :
    (s.cursorAt tabWidth i).scanSymbol = s.scanned tabWidth i (.token .symbol 1) := by
  rw [Cursor.scanSymbol, bump_cursorAt fits inside, lexeme_cursorAt fits .symbol inside]
  rfl

theorem scanNewline_cursorAt (fits : s.InRange tabWidth) {i : Nat} (inside : i < s.size) :
    (s.cursorAt tabWidth i).scanNewline = s.scanned tabWidth i (.token .newline 1) := by
  rw [Cursor.scanNewline, bump_cursorAt fits inside, lexeme_cursorAt fits .newline inside]
  rfl

theorem scanNumber_cursorAt (fits : s.InRange tabWidth) {i : Nat} (inside : i ≤ s.size) :
    (s.cursorAt tabWidth i).scanNumber =
      s.scanned tabWidth i (.ofNumber (s.bytes.drop i)) := by
  have reach := run_inside inside (Reading.numberLength_le (s.bytes.drop i))
  unfold Cursor.scanNumber Reading.ofNumber
  dsimp only
  rw [eatNumber_cursorAt fits inside, byte?_cursorAt fits (by omega), List.getElem?_drop]
  split
  · exact congrArg (fun f => Scanned.mk (.error f) _) (locate_cursorAt fits _ (by omega) _)
  · rw [scanned, lexeme_cursorAt fits .number (by omega)]
    rfl

theorem scanString_cursorAt (fits : s.InRange tabWidth) {i : Nat} (inside : i < s.size) :
    (s.cursorAt tabWidth i).scanString =
      s.scanned tabWidth i (.ofString (s.bytes.drop (i + 1))) := by
  have behind : i + 1 ≤ s.size := inside
  unfold Cursor.scanString Reading.ofString
  dsimp only
  rw [bump_cursorAt fits inside, eatString_cursorAt fits behind, stringEnd]
  cases closed : Reading.stringLength (s.bytes.drop (i + 1)) with
  | none =>
    have all : i + 1 + (s.size - (i + 1)) = s.size := by omega
    rw [Option.getD_none, all, byte?_cursorAt fits (Nat.le_refl _), getElem?_size]
    exact congrArg (fun f => Scanned.mk (.error f) _)
      (locate_cursorAt fits _ (Nat.le_of_lt inside) _)
  | some n =>
    have quote := Reading.quote_of_stringLength closed
    rw [List.getElem?_drop] at quote
    have reach := lt_size_of_getElem? quote
    have sliced := s.slice_eq_spelled (Nat.le_add_right (i + 1) n) (Nat.le_of_lt reach)
    rw [Nat.add_sub_cancel_left] at sliced
    rw [Option.getD_some, byte?_cursorAt fits (Nat.le_of_lt reach), quote]
    dsimp only
    have text : (s.cursorAt tabWidth (i + 1 + n)).source.slice (i + 1) (i + 1 + n) =
        spelled ((s.bytes.drop (i + 1)).take n) := sliced
    have whole : i + 1 + n + 1 = i + (n + 2) := by omega
    rw [bump_cursorAt fits reach, Cursor.sliceFrom, offset_cursorAt fits behind,
      offset_cursorAt fits (Nat.le_of_lt reach), text, whole,
      lexeme_cursorAt fits .string (by omega)]
    rfl

theorem scanHere_cursorAt (fits : s.InRange tabWidth) {i : Nat} (inside : i ≤ s.size) :
    (s.cursorAt tabWidth i).scanHere = s.read tabWidth i := by
  unfold Cursor.scanHere
  rw [byte?_cursorAt fits inside, following?_cursorAt fits inside]
  cases here : s.bytes[i]? with
  | none =>
    have nothing : s.bytes.drop i = [] := List.drop_eq_nil_of_le (List.getElem?_eq_none_iff.mp here)
    have empty := lexeme_cursorAt fits .endOfStream (n := 0) inside
    rw [read, nothing]
    dsimp only
    rw [Nat.add_zero] at empty
    rw [empty]
    rfl
  | some b =>
    have below := lt_size_of_getElem? here
    have next : s.bytes[i + 1]? = (s.bytes.drop (i + 1)).head? := by rw [List.head?_drop]
    unfold read
    rw [drop_of_getElem? here, Reading.ofBytes, ← next]
    dsimp only
    cases Opening.ofByte b s.bytes[i + 1]? with
    | string => exact scanString_cursorAt fits below
    | newline => exact scanNewline_cursorAt fits below
    | word => exact scanWord_cursorAt fits below
    | number =>
      dsimp only
      rw [scanNumber_cursorAt fits inside, drop_of_getElem? here]
    | symbol => exact scanSymbol_cursorAt fits below
    | stray =>
      have readable : s.charAt? i = leadingChar? (s.bytes.drop i) :=
        s.charAt?_eq_leadingChar? (by rwa [fits.limit_eq])
      have found : (s.cursorAt tabWidth i).char?.getD (.ofNat b.toNat) = s.strayAt i := by
        rw [Cursor.char?, offset_cursorAt fits inside, strayAt]
        change (s.charAt? i).getD _ = _
        rw [readable, drop_of_getElem? here]
        rfl
      dsimp only
      rw [Cursor.scanStray, found]
      exact congrArg (fun f => Scanned.mk (.error f) _) (locate_cursorAt fits _ inside _)

theorem gap_inside {i : Nat} (inside : i ≤ s.size) (ignoreNewline : Bool) :
    i + gap ignoreNewline (s.bytes.drop i) ≤ s.size := takeWhile_inside _ inside

theorem scan_cursorAt (fits : s.InRange tabWidth) {i : Nat} (inside : i ≤ s.size) :
    (s.cursorAt tabWidth i).scan = s.read tabWidth (i + gap false (s.bytes.drop i)) := by
  rw [Cursor.scan, Cursor.eatBlanks, eatWhile_cursorAt fits _ inside, gap, Byte.isSkipped_false,
    scanHere_cursorAt fits]
  rw [← Byte.isSkipped_false]
  exact gap_inside inside false

theorem isNewline_scanned {i : Nat} {r : Reading} :
    (s.scanned tabWidth i r).isNewline = true ↔ ∃ n, r = .token .newline n := by
  cases r with
  | token kind n => simp [scanned, Scanned.isNewline, answerMeets, Token.isNewline, tokenAt]
  | unclosedString => simp [scanned, Scanned.isNewline, answerMeets]
  | secondPoint n => simp [scanned, Scanned.isNewline, answerMeets]
  | strayCharacter => simp [scanned, Scanned.isNewline, answerMeets]

theorem isNewline_read {i : Nat} :
    (s.read tabWidth i).isNewline = true ↔ s.bytes[i]? = some Byte.lineFeed := by
  rw [read, isNewline_scanned, ← List.head?_drop]
  constructor
  · rintro ⟨n, reading⟩
    exact ((Reading.ofBytes_eq_newline_iff _ n).mp reading).1
  · intro here
    exact ⟨1, (Reading.ofBytes_eq_newline_iff _ 1).mpr ⟨here, rfl⟩⟩

theorem read_newline {i : Nat} (here : s.bytes[i]? = some Byte.lineFeed) :
    (s.read tabWidth i).cursor = s.cursorAt tabWidth (i + 1) := by
  rw [← List.head?_drop] at here
  rw [read, (Reading.ofBytes_eq_newline_iff _ 1).mpr ⟨here, rfl⟩]
  rfl

theorem nextToken_cursorAt (fits : s.InRange tabWidth) {i : Nat} (inside : i ≤ s.size)
    (ignoreNewline : Bool) :
    (s.cursorAt tabWidth i).nextToken ignoreNewline =
      s.read tabWidth (i + gap ignoreNewline (s.bytes.drop i)) := by
  generalize measured : s.size - i = n
  induction n using Nat.strongRecOn generalizing i with
  | _ n ih =>
    subst measured
    have bound := gap_inside inside false
    generalize blanks : gap false (s.bytes.drop i) = w at bound
    have whole : gap true (s.bytes.drop i) = w + gap true (s.bytes.drop (i + w)) := by
      rw [gap_true, blanks, List.drop_drop]
    rw [Cursor.nextToken, scan_cursorAt fits inside, blanks]
    split
    · rename_i newline
      have here := isNewline_read.mp newline.2
      have below := lt_size_of_getElem? here
      rw [newline.1] at ih ⊢
      rw [read_newline here, ih (s.size - (i + w + 1)) (by omega) (i := i + w + 1) below rfl,
        whole, drop_of_getElem? here, gap_true_lineFeed]
      congr 1
      omega
    · rename_i other
      cases ignoreNewline with
      | false => rw [blanks]
      | true =>
        have stops : gap true (s.bytes.drop (i + w)) = 0 := by
          rw [← blanks, ← List.drop_drop]
          refine gap_true_drop fun here => other ⟨rfl, isNewline_read.mpr ?_⟩
          rwa [List.drop_drop, blanks, List.head?_drop] at here
        rw [whole, stops, Nat.add_zero]

end Source

end Lexing
