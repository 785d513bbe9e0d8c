import Lexing.Proofs.Tokens
import Lexing.Proofs.Wholeness
import Mathlib.Algebra.Group.Nat.Even
import Mathlib.Order.Bounds.Basic

/-! Extents. How far a lexeme reaches is said here without scanning it: up to the first quote before
which the backslashes pair off, as far as the longest run of a class goes, as far as the longest match
of the form of numbers. One call of the scanner comes to just what these say. -/
namespace Lexing

def trailingBackslashes (bs : List UInt8) : Nat :=
  (bs.reverse.takeWhile (· == Byte.backslash)).length

/-- A quote closes a string if the backslashes right before it pair off. -/
structure Closes (bs : List UInt8) (n : Nat) : Prop where
  quote : bs[n]? = some Byte.quote
  paired : Even (trailingBackslashes (bs.take n))

def ClosesFirst (bs : List UInt8) : Option Nat → Prop
  | some n => IsLeast {k | Closes bs k} n
  | none => ∀ n, ¬ Closes bs n

/-- The form of numbers: digits, and a point with digits behind it if there is one. No digit is needed
on either side. -/
inductive Numeric : List UInt8 → Prop where
  | whole {ds} : (∀ d ∈ ds, Byte.isDigit d = true) → Numeric ds
  | pointed {ds es} : (∀ d ∈ ds, Byte.isDigit d = true) → (∀ d ∈ es, Byte.isDigit d = true) →
      Numeric (ds ++ Byte.point :: es)

def OpensNumber (bs : List UInt8) : Prop :=
  bs.head?.any Byte.isDigit = true ∨
    bs.head? = some Byte.point ∧ bs.tail.head?.any Byte.isDigit = true

def fronts (P : List UInt8 → Prop) (bs : List UInt8) : Set Nat := {n | n ≤ bs.length ∧ P (bs.take n)}

/-- What bytes begin with, and how far it reaches. -/
inductive Reading.Reaches (bs : List UInt8) : Reading → Prop where
  | endOfStream : bs = [] → Reaches bs (token .endOfStream 0)
  | string {n} : bs.head? = some Byte.quote → ClosesFirst bs.tail (some n) →
      Reaches bs (token .string (n + 2))
  | unclosedString : bs.head? = some Byte.quote → ClosesFirst bs.tail none →
      Reaches bs unclosedString
  | newline : bs.head? = some Byte.lineFeed → Reaches bs (token .newline 1)
  | identifier {b n} : bs.head? = some b → Byte.isWordStart b = true →
      IsGreatest (fronts (∀ d ∈ ·, Byte.isWordPart d = true) bs) n →
      Reaches bs (token .identifier n)
  | number {n} : OpensNumber bs → IsGreatest (fronts Numeric bs) n → bs[n]? ≠ some Byte.point →
      Reaches bs (token .number n)
  | secondPoint {n} : OpensNumber bs → IsGreatest (fronts Numeric bs) n →
      bs[n]? = some Byte.point → Reaches bs (secondPoint n)
  | symbol {b} : bs.head? = some b → Byte.isSymbol b = true → b ≠ Byte.quote →
      b ≠ Byte.underscore → ¬ OpensNumber bs → Reaches bs (token .symbol 1)
  | strayCharacter {b} : bs.head? = some b → Byte.isSymbol b = false →
      Byte.isWordPart b = false → b ≠ Byte.lineFeed → Reaches bs strayCharacter

/-- What a call comes to that finds no blank before it at `w`. -/
inductive Source.Finds (s : Source) (tabWidth : UInt32) (w : Nat) : Scanned → Prop where
  | token {kind n text} : Reading.Reaches (s.bytes.drop w) (.token kind n) →
      kind.Shows (Source.mk text).bytes (s.range w (w + n)) →
      Finds s tabWidth w ⟨.ok ⟨kind, text, ⟨.ofNat w, .ofNat (w + n)⟩, s.place tabWidth w⟩,
        s.cursorAt tabWidth (w + n)⟩
  | unclosedString : Reading.Reaches (s.bytes.drop w) .unclosedString →
      Finds s tabWidth w
        ⟨.error (s.faultAt tabWidth .unclosedString w), s.cursorAt tabWidth s.size⟩
  | secondPoint {n} : Reading.Reaches (s.bytes.drop w) (.secondPoint n) →
      Finds s tabWidth w
        ⟨.error (s.faultAt tabWidth .secondPoint (w + n)), s.cursorAt tabWidth (w + n)⟩
  | strayCharacter {c} : Reading.Reaches (s.bytes.drop w) .strayCharacter →
      s.charAt? w = some c →
      Finds s tabWidth w
        ⟨.error (s.faultAt tabWidth (.strayCharacter c) w), s.cursorAt tabWidth w⟩

/-! Strings. -/

theorem even_trailingBackslashes_append {as : List UInt8} (paired : Even (trailingBackslashes as))
    (bs : List UInt8) :
    Even (trailingBackslashes (as ++ bs)) ↔ Even (trailingBackslashes bs) := by
  unfold trailingBackslashes at paired ⊢
  rw [List.reverse_append, List.takeWhile_append, List.length_reverse]
  split
  · rename_i all
    rw [List.length_append, List.length_reverse, all, Nat.even_add]
    exact iff_true_right paired
  · rfl

theorem closes_append {as : List UInt8} (paired : Even (trailingBackslashes as))
    (bs : List UInt8) (n : Nat) : Closes (as ++ bs) (as.length + n) ↔ Closes bs n := by
  have here : (as ++ bs)[as.length + n]? = bs[n]? := by
    rw [List.getElem?_append_right (Nat.le_add_right _ _), Nat.add_sub_cancel_left]
  have front : (as ++ bs).take (as.length + n) = as ++ bs.take n := List.take_length_add_append n
  constructor
  · rintro ⟨quote, even⟩
    rw [front] at even
    exact ⟨here ▸ quote, (even_trailingBackslashes_append paired _).mp even⟩
  · rintro ⟨quote, even⟩
    refine ⟨here ▸ quote, ?_⟩
    rw [front]
    exact (even_trailingBackslashes_append paired _).mpr even

namespace ClosesFirst

theorem quote (bs : List UInt8) : ClosesFirst (Byte.quote :: bs) (some 0) := by
  refine ⟨⟨rfl, ?_⟩, fun n _ => Nat.zero_le n⟩
  exact Even.zero

theorem append {as bs : List UInt8} (paired : Even (trailingBackslashes as))
    (none_closes : ∀ n < as.length, ¬ Closes (as ++ bs) n) {o : Option Nat}
    (first : ClosesFirst bs o) : ClosesFirst (as ++ bs) (o.map (as.length + ·)) := by
  have behind : ∀ n, Closes (as ++ bs) n → ∃ k, n = as.length + k ∧ Closes bs k := by
    intro n closes
    have reach : as.length ≤ n := Nat.le_of_not_lt fun short => none_closes n short closes
    obtain ⟨k, rfl⟩ := Nat.exists_eq_add_of_le reach
    exact ⟨k, rfl, (closes_append paired bs k).mp closes⟩
  cases o with
  | none =>
    intro n closes
    obtain ⟨k, -, inner⟩ := behind n closes
    exact first k inner
  | some m =>
    obtain ⟨closes, least⟩ := first
    refine ⟨(closes_append paired bs m).mpr closes, ?_⟩
    intro n closes'
    obtain ⟨k, rfl, inner⟩ := behind n closes'
    exact Nat.add_le_add_left (least inner) _

theorem unique {bs : List UInt8} {o o' : Option Nat} (first : ClosesFirst bs o)
    (first' : ClosesFirst bs o') : o = o' := by
  cases o with
  | none =>
    cases o' with
    | none => rfl
    | some n => exact absurd first'.1 (first n)
  | some m =>
    cases o' with
    | none => exact absurd first.1 (first' m)
    | some n => exact congrArg some (IsLeast.unique first first')

end ClosesFirst

namespace Reading

/-- Passing escapes in pairs, a string is read up to the quote that closes it first. -/
theorem closesFirst_stringLength (bs : List UInt8) : ClosesFirst bs (stringLength bs) := by
  fun_induction stringLength bs with
  | case1 =>
    intro n closes
    cases closes.quote
  | case2 => exact .quote []
  | case3 b other =>
    intro n closes
    cases n with
    | zero => exact other (Option.some.inj closes.quote)
    | succ n => cases closes.quote
  | case4 b' bs => exact .quote (b' :: bs)
  | case5 b' bs _ ih =>
    -- A backslash and the byte behind it leave no backslash open, whatever that byte is.
    have shift : (2 + ·) = (· + 2) := funext fun n => Nat.add_comm 2 n
    have paired : Even (trailingBackslashes [Byte.backslash, b']) := by
      by_cases escaped : b' = Byte.backslash
      · subst escaped
        decide
      · simp [trailingBackslashes, escaped]
    have first : ClosesFirst ([Byte.backslash, b'] ++ bs) _ := ih.append paired ?_
    · rwa [show [Byte.backslash, b'].length = 2 from rfl, shift] at first
    · intro n short closes
      cases n with
      | zero => cases closes.quote
      | succ n =>
        cases Nat.lt_one_iff.mp (Nat.lt_of_succ_lt_succ short)
        have odd : ¬ Even (trailingBackslashes [Byte.backslash]) := by decide
        exact odd closes.paired
  | case6 b b' bs quote backslash ih =>
    have shift : (1 + ·) = (· + 1) := funext fun n => Nat.add_comm 1 n
    have paired : Even (trailingBackslashes [b]) := by simp [trailingBackslashes, backslash]
    have first := ih.append paired fun n short closes => ?_
    · rwa [show [b].length = 1 from rfl, shift] at first
    · cases Nat.lt_one_iff.mp short
      exact quote (Option.some.inj closes.quote)

end Reading

/-! Runs and numbers. -/

theorem isGreatest_fronts {P : List UInt8 → Prop} {run rest : List UInt8}
    (shorter : ∀ xs ys, P (xs ++ ys) → P xs) (holds : P run)
    (ends : ∀ b, rest.head? = some b → ¬ P (run ++ [b])) :
    IsGreatest (fronts P (run ++ rest)) run.length := by
  constructor
  · constructor
    · simp
    · rwa [List.take_left]
  · rintro n ⟨inside, longer⟩
    apply Nat.le_of_not_lt
    intro beyond
    obtain ⟨k, rfl⟩ := Nat.exists_eq_add_of_lt beyond
    cases rest with
    | nil =>
      rw [List.append_nil] at inside
      omega
    | cons b rest =>
      apply ends b rfl
      apply shorter _ (rest.take k)
      rwa [Nat.add_assoc, List.take_length_add_append, List.take_succ_cons, List.append_cons]
        at longer

theorem isGreatest_takeWhile (p : UInt8 → Bool) (bs : List UInt8) :
    IsGreatest (fronts (∀ d ∈ ·, p d = true) bs) (bs.takeWhile p).length := by
  obtain ⟨run, rest, rfl, all, stops⟩ := exists_run p bs
  rw [stops.takeWhile_eq all]
  refine isGreatest_fronts ?_ all fun b here longer => ?_
  · exact fun xs ys part d member => part d (List.mem_append_left ys member)
  · have sat := longer b (List.mem_append_right _ (List.mem_singleton_self b))
    rw [stops b here] at sat
    cases sat

namespace Numeric

theorem shorter (xs ys : List UInt8) (form : Numeric (xs ++ ys)) : Numeric xs := by
  generalize whole : xs ++ ys = bs at form
  cases form with
  | whole digits =>
    subst whole
    exact .whole fun d member => digits d (List.mem_append_left ys member)
  | pointed digits places =>
    rcases List.append_eq_append_iff.mp whole with ⟨ms, rfl, -⟩ | ⟨ms, rfl, behind⟩
    · exact .whole fun d member => digits d (List.mem_append_left ms member)
    · cases ms with
      | nil => exact .whole fun d member => digits d (by simpa using member)
      | cons b ms =>
        obtain ⟨rfl, rfl⟩ := List.cons.inj behind
        exact .pointed digits fun d member => places d (List.mem_append_left ys member)

theorem last {xs : List UInt8} {b : UInt8} (form : Numeric (xs ++ [b])) :
    Byte.isDigit b = true ∨ b = Byte.point ∧ ∀ d ∈ xs, Byte.isDigit d = true := by
  generalize whole : xs ++ [b] = bs at form
  cases form with
  | whole digits =>
    subst whole
    exact .inl (digits b (List.mem_append_right xs (List.mem_singleton_self b)))
  | @pointed ds es digits places =>
    rcases List.eq_nil_or_concat es with rfl | ⟨es, e, rfl⟩
    · obtain ⟨rfl, point⟩ := List.append_inj' whole rfl
      exact .inr ⟨List.head_eq_of_cons_eq point, digits⟩
    · rw [List.concat_eq_append, ← List.cons_append, ← List.append_assoc] at whole
      obtain ⟨-, final⟩ := List.append_inj' whole rfl
      cases final
      exact .inl (places b (by simp))

end Numeric

theorem Reading.isGreatest_numberLength (bs : List UInt8) :
    IsGreatest (fronts Numeric bs) (numberLength bs) := by
  obtain ⟨ds, rest, rfl, digits, stops⟩ := exists_run Byte.isDigit bs
  by_cases point : rest.head? = some Byte.point
  · obtain ⟨more, rfl⟩ := List.head?_eq_some_iff.mp point
    obtain ⟨es, rest, rfl, places, ends⟩ := exists_run Byte.isDigit more
    have length : ds.length + 1 + es.length = (ds ++ Byte.point :: es).length := by
      simp only [List.length_append, List.length_cons]
      omega
    rw [numberLength_pointed digits places ends, length, ← List.cons_append, ← List.append_assoc]
    refine isGreatest_fronts Numeric.shorter (.pointed digits places) fun b here longer => ?_
    rcases longer.last with digit | ⟨-, all⟩
    · rw [ends b here] at digit
      cases digit
    · cases all Byte.point (by simp)
  · rw [numberLength_whole digits stops point]
    refine isGreatest_fronts Numeric.shorter (.whole digits) fun b here longer => ?_
    rcases longer.last with digit | ⟨rfl, -⟩
    · rw [stops b here] at digit
      cases digit
    · exact point here

namespace Reading

theorem isGreatest_word {b : UInt8} (start : Byte.isWordStart b = true) (bs : List UInt8) :
    IsGreatest (fronts (∀ d ∈ ·, Byte.isWordPart d = true) (b :: bs))
      (1 + (bs.takeWhile Byte.isWordPart).length) := by
  have part : Byte.isWordPart b = true := by simp [Byte.isWordPart, start]
  have front := isGreatest_takeWhile Byte.isWordPart (b :: bs)
  rwa [List.takeWhile_cons_of_pos part, List.length_cons, Nat.add_comm] at front

theorem opensNumber_cons {b : UInt8} {bs : List UInt8} :
    OpensNumber (b :: bs) ↔ Opening.number.Opens b bs.head? := by
  simp [OpensNumber, Opening.Opens]

theorem reaches_ofNumber {bs : List UInt8} (opens : OpensNumber bs) :
    Reaches bs (ofNumber bs) := by
  unfold ofNumber
  split
  · rename_i point
    exact .secondPoint opens (isGreatest_numberLength bs) point
  · rename_i other
    exact .number opens (isGreatest_numberLength bs) other

theorem reaches_ofBytes (bs : List UInt8) : Reaches bs (ofBytes bs) := by
  cases bs with
  | nil => exact .endOfStream rfl
  | cons b bs =>
    have opens := Opening.opens_ofByte b bs.head?
    rw [ofBytes]
    cases opening : Opening.ofByte b bs.head? with
    | string =>
      rw [opening] at opens
      cases opens
      have first := closesFirst_stringLength bs
      dsimp only [ofString]
      cases closed : stringLength bs with
      | none => exact .unclosedString rfl (closed ▸ first)
      | some n => exact .string rfl (closed ▸ first)
    | newline =>
      rw [opening] at opens
      exact .newline (congrArg some opens)
    | word =>
      rw [opening] at opens
      exact .identifier rfl opens (isGreatest_word opens bs)
    | number =>
      rw [opening] at opens
      exact reaches_ofNumber (opensNumber_cons.mpr opens)
    | symbol =>
      rw [opening] at opens
      obtain ⟨symbol, quote, score, point⟩ := opens
      refine .symbol rfl symbol quote score fun number => ?_
      rcases opensNumber_cons.mp number with digit | pointed
      · rw [(Byte.symbol_apart b symbol score).2.2] at digit
        cases digit
      · exact point pointed
    | stray =>
      rw [opening] at opens
      exact .strayCharacter rfl opens.1 opens.2.1 opens.2.2

theorem ofBytes_of_opens {bs : List UInt8} (opens : OpensNumber bs) :
    ofBytes bs = ofNumber bs := by
  cases bs with
  | nil => simp [OpensNumber] at opens
  | cons b bs =>
    have opening : Opening.ofByte b bs.head? = .number :=
      Opening.ofByte_eq_iff.mpr (opensNumber_cons.mp opens)
    simp only [ofBytes, opening]

theorem Reaches.ofBytes_eq {bs : List UInt8} {r : Reading} (reaches : Reaches bs r) :
    ofBytes bs = r := by
  cases reaches with
  | endOfStream ended =>
    subst ended
    rfl
  | string quote first =>
    obtain ⟨bs, rfl⟩ := List.head?_eq_some_iff.mp quote
    have closed := (closesFirst_stringLength bs).unique first
    simp only [ofBytes, Opening.ofByte, if_true, ofString, closed]
  | unclosedString quote first =>
    obtain ⟨bs, rfl⟩ := List.head?_eq_some_iff.mp quote
    have closed := (closesFirst_stringLength bs).unique first
    simp only [ofBytes, Opening.ofByte, if_true, ofString, closed]
  | newline feed =>
    obtain ⟨bs, rfl⟩ := List.head?_eq_some_iff.mp feed
    rfl
  | identifier here start longest =>
    obtain ⟨bs, rfl⟩ := List.head?_eq_some_iff.mp here
    have opening : Opening.ofByte _ bs.head? = .word := Opening.ofByte_eq_iff.mpr start
    simp only [ofBytes, opening, (isGreatest_word start bs).unique longest]
  | number opens longest other =>
    rw [ofBytes_of_opens opens, ofNumber, (isGreatest_numberLength bs).unique longest, if_neg other]
  | secondPoint opens longest point =>
    rw [ofBytes_of_opens opens, ofNumber, (isGreatest_numberLength bs).unique longest, if_pos point]
  | @symbol b here symbol quote score other =>
    obtain ⟨bs, rfl⟩ := List.head?_eq_some_iff.mp here
    have opening : Opening.ofByte b bs.head? = .symbol := by
      refine Opening.ofByte_eq_iff.mpr ⟨symbol, quote, score, fun pointed => ?_⟩
      exact other (opensNumber_cons.mpr (.inr pointed))
    simp only [ofBytes, opening]
  | strayCharacter here symbol part feed =>
    obtain ⟨bs, rfl⟩ := List.head?_eq_some_iff.mp here
    have opening : Opening.ofByte _ bs.head? = .stray :=
      Opening.ofByte_eq_iff.mpr ⟨symbol, part, feed⟩
    simp only [ofBytes, opening]

end Reading

theorem Token.Kind.Shows.unique {kind : Token.Kind} {as bs span : List UInt8}
    (shows : kind.Shows as span) (shows' : kind.Shows bs span) : as = bs := by
  cases kind with
  | identifier => exact shows.trans shows'.symm
  | number => exact shows.trans shows'.symm
  | symbol => exact shows.trans shows'.symm
  | string => exact List.append_cancel_right (List.cons.inj (shows.trans shows'.symm)).2
  | newline => exact shows.1.trans shows'.1.symm
  | endOfStream => exact shows.1.trans shows'.1.symm

namespace Source

variable {υ : Type} {s : Source} {tabWidth : UInt32}

theorem text_of_bytes {t u : String} (same : (Source.mk t).bytes = (Source.mk u).bytes) :
    t = u := by
  rw [bytes_eq_encoded, bytes_eq_encoded] at same
  exact String.toList_injective (encoded_injective same)

theorem leadingChar?_of_charAt? {i : Nat} {c : Char} (here : s.charAt? i = some c) :
    leadingChar? (s.bytes.drop i) = some c := by
  have below : i < s.limit := by
    by_contra beyond
    simp [charAt?, beyond] at here
  rwa [← charAt?_eq_leadingChar? s below]

theorem IsBoundary.charAt?_eq (fits : s.InRange tabWidth) {i : Nat} (whole : s.IsBoundary i)
    (below : i < s.size) : s.charAt? i = some (s.strayAt i) := by
  obtain ⟨front, rest, text, start⟩ := whole.exists_stray below
  rw [← charAt?_encoded text fits, ← start]

theorem Finds.read_eq {w : Nat} {r : Scanned} (finds : s.Finds tabWidth w r) :
    s.read tabWidth w = r := by
  cases finds with
  | token reaches shows =>
    have begun := Reading.begins_ofBytes (s.bytes.drop w)
    rw [reaches.ofBytes_eq] at begun
    have own := @shows_tokenAt s tabWidth _ _ _ begun
    rw [range, Nat.add_sub_cancel_left] at shows
    rw [← text_of_bytes (own.unique shows), read, reaches.ofBytes_eq]
    rfl
  | unclosedString reaches => rw [read, reaches.ofBytes_eq, scanned]
  | secondPoint reaches => rw [read, reaches.ofBytes_eq, scanned]
  | strayCharacter reaches here =>
    rw [read, reaches.ofBytes_eq, scanned, strayAt, leadingChar?_of_charAt? here, Option.getD_some]

theorem IsBoundary.finds_read (fits : s.InRange tabWidth) {w : Nat} (whole : s.IsBoundary w) :
    s.Finds tabWidth w (s.read tabWidth w) := by
  have reaches := Reading.reaches_ofBytes (s.bytes.drop w)
  have begun := Reading.begins_ofBytes (s.bytes.drop w)
  unfold read
  cases reading : Reading.ofBytes (s.bytes.drop w) with
  | token kind n =>
    rw [reading] at reaches begun
    refine .token reaches ?_
    rw [range, Nat.add_sub_cancel_left]
    exact @shows_tokenAt s tabWidth _ _ _ begun
  | unclosedString => exact .unclosedString (reading ▸ reaches)
  | secondPoint n => exact .secondPoint (reading ▸ reaches)
  | strayCharacter =>
    rw [reading] at reaches
    refine .strayCharacter reaches (whole.charAt?_eq fits ?_)
    cases reaches with
    | strayCharacter here symbol part feed =>
      rw [List.head?_drop] at here
      exact lt_size_of_getElem? here

/-- A call passes the blanks before it, and then comes to what is found there and to nothing else. -/
theorem finds_reached (fits : s.InRange tabWidth) (userData : υ) (calls : List Call) :
    let c := (Session.reached s.text tabWidth userData (calls.map .call)).lexer.cursor
    ∃ w, s.Skips c.offset w ∧ ∀ r, s.Finds tabWidth w r ↔ c.nextToken false = r := by
  intro c
  obtain ⟨i, whole, stands⟩ := isBoundary_reached fits userData calls
  have place : c = s.cursorAt tabWidth i := stands
  have skips : s.Skips i (i + gap false (s.bytes.drop i)) := skips_gap whole.inside
  rw [place, offset_cursorAt fits whole.inside, nextToken_cursorAt fits whole.inside]
  refine ⟨_, skips, fun r => ⟨Finds.read_eq, ?_⟩⟩
  rintro rfl
  exact (whole.gap false).finds_read fits

/-- An escape takes the first byte of a longer character along, and the string is closed behind two
backslashes. -/
theorem finds_cut_character :
    let s : Source := ⟨"x \"\\é\\\\\" 1.."⟩
    let c := (Session.reached s.text 4 () ([.next false].map .call)).lexer.cursor
    s.InRange 4 ∧ (∃ w, s.Skips c.offset w ∧ ∀ r, s.Finds 4 w r ↔ c.nextToken false = r) ∧
      c.offset = 1 ∧
      (c.nextToken false).answer = .ok ⟨.string, "\\é\\\\", ⟨2, 9⟩, ⟨2, 1, 3⟩⟩ := by
  have fits : (Source.mk "x \"\\é\\\\\" 1..").InRange 4 := by decide
  exact ⟨fits, finds_reached fits () [.next false], by decide +kernel, by decide +kernel⟩

end Source

end Lexing
