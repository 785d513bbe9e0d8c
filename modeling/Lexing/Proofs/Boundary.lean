import Lexing.Proofs.Consumption

/-! Boundaries. Between two characters a text parts into two texts. The blanks that stand there and the
lexeme behind them end between two characters as well, whatever the lexeme is. -/
namespace Lexing

theorem exists_encoded_drop {cs : List Char} (run : List UInt8) {rest : List UInt8}
    (ascii : ∀ b ∈ run, b.toNat < 0x80) (parted : encoded cs = run ++ rest) {n : Nat}
    (all : n = run.length) : ∃ ds, (run ++ rest).drop n = encoded ds := by
  obtain ⟨ds, -, behind⟩ := encoded_eq_ascii_run ascii parted
  exact ⟨ds, by rw [all, List.drop_left, behind]⟩

theorem Byte.ascii_of_isSkipped (ignoreNewline : Bool) {b : UInt8}
    (skipped : isSkipped ignoreNewline b = true) : b.toNat < 0x80 := by
  simp only [isSkipped, isBlank, Bool.or_eq_true, Bool.and_eq_true, beq_iff_eq] at skipped
  rcases skipped with ((rfl | rfl) | rfl) | ⟨-, rfl⟩ <;> decide

theorem Reading.Begins.exists_encoded {bs : List UInt8} {r : Reading} (begun : Begins bs r)
    {cs : List Char} (text : bs = encoded cs) : ∃ ds, bs.drop (r.length bs) = encoded ds := by
  cases begun with
  | endOfStream => exact ⟨[], rfl⟩
  | @string body rest closed =>
    -- A backslash may take a part of a character along, but a quote is always one of its own.
    obtain ⟨ds, -, inside⟩ := encoded_eq_cons_ascii (by decide) text.symm
    obtain ⟨as, es, -, -, behind⟩ := encoded_eq_append_ascii (by decide) inside
    refine ⟨es, ?_⟩
    rw [length, behind, List.drop_succ_cons, ← List.singleton_append, ← List.append_assoc,
      List.drop_left' (by simp)]
  | unclosedString ended => exact ⟨[], List.drop_length⟩
  | newline =>
    exact exists_encoded_drop [Byte.lineFeed] (List.forall_mem_singleton.mpr (by decide))
      text.symm rfl
  | @word b run rest start part stops =>
    refine exists_encoded_drop (b :: run) ?_ text.symm (Nat.add_comm 1 _)
    refine List.forall_mem_cons.mpr ⟨?_, fun d member => ?_⟩
    · exact Byte.ascii_of_class b (by simp [Byte.isWordPart, start])
    · exact Byte.ascii_of_class d (by simp [part d member])
  | whole some_digit digits stops ended =>
    have ascii := fun d member => Byte.ascii_of_isDigit (digits d member)
    exact exists_encoded_drop _ ascii text.symm rfl
  | @pointed ds es rest some_digit digits places stops ended =>
    rw [← List.cons_append, ← List.append_assoc] at text ⊢
    exact exists_encoded_drop _ (ascii_of_pointed digits places) text.symm (by simp [length]; omega)
  | @secondPoint ds es rest some_digit digits places =>
    rw [← List.cons_append, ← List.append_assoc] at text ⊢
    exact exists_encoded_drop _ (ascii_of_pointed digits places) text.symm (by simp [length]; omega)
  | @symbol b rest symbol quote score stops =>
    refine exists_encoded_drop [b] ?_ text.symm rfl
    exact List.forall_mem_singleton.mpr (Byte.ascii_of_class b (by simp [symbol]))
  | strayCharacter symbol part feed => exact ⟨cs, text⟩

namespace Source

variable {υ : Type} {s : Source} {tabWidth : UInt32}

theorem isBoundary_iff {i : Nat} :
    s.IsBoundary i ↔ ∃ a b : Source, s.text = a.text ++ b.text ∧ i = a.size := by
  refine String.Pos.Raw.isValid_iff_exists_append.trans ?_
  constructor
  · rintro ⟨a, b, parted, here⟩
    exact ⟨⟨a⟩, ⟨b⟩, parted, congrArg String.Pos.Raw.byteIdx here⟩
  · rintro ⟨a, b, parted, rfl⟩
    exact ⟨a.text, b.text, parted, rfl⟩

theorem isBoundary_zero : s.IsBoundary 0 := isBoundary_iff.mpr ⟨⟨""⟩, s, by simp, rfl⟩

theorem isBoundary_iff_drop {i : Nat} :
    s.IsBoundary i ↔ i ≤ s.size ∧ ∃ cs, s.bytes.drop i = encoded cs := by
  refine String.Pos.Raw.isValid_iff_isValidUTF8_extract_utf8ByteSize.trans (and_congr_right ?_)
  intro inside
  have range := s.toByteArray_range i s.size
  rw [List.take_of_length_le (by rw [List.length_drop, length_bytes])] at range
  change (s.text.toByteArray.extract i s.size).IsValidUTF8 ↔ _
  rw [← range]
  constructor
  · rintro ⟨cs, spelling⟩
    exact ⟨cs, List.toByteArray_inj.mp spelling⟩
  · rintro ⟨cs, spelling⟩
    exact ⟨cs, congrArg List.toByteArray spelling⟩

theorem isBoundary_iff_take {i : Nat} :
    s.IsBoundary i ↔ i ≤ s.size ∧ ∃ cs, s.bytes.take i = encoded cs := by
  refine String.Pos.Raw.isValid_iff_isValidUTF8_extract_zero.trans (and_congr_right ?_)
  intro inside
  have range := s.toByteArray_range 0 i
  change (s.text.toByteArray.extract 0 i).IsValidUTF8 ↔ _
  rw [← range]
  constructor
  · rintro ⟨cs, spelling⟩
    exact ⟨cs, List.toByteArray_inj.mp spelling⟩
  · rintro ⟨cs, spelling⟩
    exact ⟨cs, congrArg List.toByteArray spelling⟩

theorem isBoundary_size : s.IsBoundary s.size :=
  isBoundary_iff_drop.mpr ⟨Nat.le_refl _, [], drop_size⟩

theorem isBoundary_limit {tabWidth : UInt32} (fits : s.InRange tabWidth) : s.IsBoundary s.limit := by
  rw [fits.limit_eq]
  exact isBoundary_size

theorem slice?_of_isBoundary {i j : Nat} (ordered : i ≤ j) (first : s.IsBoundary i)
    (second : s.IsBoundary j) : s.slice? i j = some (s.slice i j) := by
  rw [slice, slice?, dif_pos ⟨ordered, first, second⟩]
  rfl

/-- A boundary parts the characters of a source into two. -/
theorem isBoundary_iff_front {i : Nat} :
    s.IsBoundary i ↔ ∃ front rest, s.text.toList = front ++ rest ∧ i = (encoded front).length := by
  constructor
  · intro whole
    obtain ⟨a, b, parted, rfl⟩ := isBoundary_iff.mp whole
    refine ⟨a.text.toList, b.text.toList, by rw [parted, String.toList_append], ?_⟩
    rw [← bytes_eq_encoded, length_bytes]
  · rintro ⟨front, rest, text, rfl⟩
    exact isBoundary_iff_drop.mpr ⟨length_encoded_le text, rest, drop_encoded text⟩

section Front

variable {front rest : List Char} {c : Char} (text : s.text.toList = front ++ c :: rest)
include text

theorem length_encoded_lt : (encoded front).length < s.size := by
  apply Nat.lt_of_le_of_ne (length_encoded_le text)
  intro all
  have ahead := drop_encoded text
  rw [all, drop_size] at ahead
  cases encoded_eq_nil ahead.symm

theorem strayAt_encoded : s.strayAt (encoded front).length = c := by
  rw [strayAt, drop_encoded text, leadingChar?_encoded]
  rfl

theorem charAt?_encoded (fits : s.InRange tabWidth) : s.charAt? (encoded front).length = some c := by
  have below := length_encoded_lt text
  rw [charAt?_eq_leadingChar? s (by rwa [fits.limit_eq]), drop_encoded text, leadingChar?_encoded]

end Front

/-- A character stands at every boundary but the last. -/
theorem IsBoundary.exists_stray {i : Nat} (whole : s.IsBoundary i) (below : i < s.size) :
    ∃ front rest, s.text.toList = front ++ s.strayAt i :: rest ∧ i = (encoded front).length := by
  obtain ⟨front, rest, text, rfl⟩ := isBoundary_iff_front.mp whole
  cases rest with
  | nil =>
    have ahead := length_drop_bytes (s := s) (encoded front).length
    rw [drop_encoded text, encoded, List.flatMap_nil, List.length_nil] at ahead
    omega
  | cons c rest => exact ⟨front, rest, by rw [strayAt_encoded text, text], rfl⟩

theorem IsBoundary.inside {i : Nat} (whole : s.IsBoundary i) : i ≤ s.size :=
  (isBoundary_iff_drop.mp whole).1

theorem IsBoundary.gap {i : Nat} (whole : s.IsBoundary i) (ignoreNewline : Bool) :
    s.IsBoundary (i + Lexing.gap ignoreNewline (s.bytes.drop i)) := by
  obtain ⟨inside, cs, text⟩ := isBoundary_iff_drop.mp whole
  refine isBoundary_iff_drop.mpr ⟨gap_inside inside ignoreNewline, ?_⟩
  rw [← List.drop_drop]
  obtain ⟨run, rest, parted, skipped, stops⟩ :=
    exists_run (Byte.isSkipped ignoreNewline) (s.bytes.drop i)
  rw [← parted] at text ⊢
  have ascii : ∀ b ∈ run, b.toNat < 0x80 := fun b member =>
    Byte.ascii_of_isSkipped ignoreNewline (skipped b member)
  exact exists_encoded_drop run ascii text.symm (by rw [Lexing.gap, stops.takeWhile_eq skipped])

theorem IsBoundary.reading {i : Nat} (whole : s.IsBoundary i) {r : Reading}
    (begun : Reading.Begins (s.bytes.drop i) r) :
    s.IsBoundary (i + r.length (s.bytes.drop i)) := by
  obtain ⟨inside, cs, text⟩ := isBoundary_iff_drop.mp whole
  refine isBoundary_iff_drop.mpr ⟨run_inside inside begun.length_le, ?_⟩
  rw [← List.drop_drop]
  exact begun.exists_encoded text

end Source

end Lexing
