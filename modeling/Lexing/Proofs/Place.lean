import Lexing.Cursor.Rest
import Mathlib.Algebra.Ring.Nat
import Mathlib.Data.List.Induction

/-! The place at an offset, counted afresh from the first byte on, and the cursors that stand where
it says. A cursor that starts there is led by every move to a cursor of the same kind. The bulk
moves need room for the columns of what they pass, which a source in range leaves. -/
namespace Lexing

theorem toNat_ofNat_of_le {n : Nat} (small : n ≤ maxOffset) : (UInt32.ofNat n).toNat = n :=
  UInt32.toNat_ofNat_of_lt' (Nat.lt_succ_of_le small)

namespace Position

def width (tabWidth : UInt32) (bs : List UInt8) : Nat :=
  (bs.map fun b => (columnWidth tabWidth b).toNat).sum

/-- The place behind a run of bytes that starts a source. -/
def after (tabWidth : UInt32) (bs : List UInt8) : Position where
  offset := .ofNat bs.length
  line := .ofNat (1 + bs.count Byte.lineFeed)
  column := .ofNat (1 + width tabWidth (lastLine bs))

@[simp] theorem width_append (tabWidth : UInt32) (as bs : List UInt8) :
    width tabWidth (as ++ bs) = width tabWidth as + width tabWidth bs := by
  simp only [width, List.map_append, List.sum_append_nat]

theorem columnWidth_le (tabWidth : UInt32) (b : UInt8) :
    (columnWidth tabWidth b).toNat ≤ max 1 tabWidth.toNat := by
  unfold columnWidth
  split
  · exact Nat.le_max_right _ _
  · split
    · exact Nat.zero_le _
    · exact Nat.le_max_left _ _

theorem width_le (tabWidth : UInt32) (bs : List UInt8) :
    width tabWidth bs ≤ bs.length * max 1 tabWidth.toNat := by
  induction bs with
  | nil => simp [width]
  | cons b bs ih =>
    have head := columnWidth_le tabWidth b
    simp only [width, List.map_cons, List.sum_cons, List.length_cons] at ih ⊢
    rw [Nat.succ_mul]
    omega

@[simp] theorem lastLine_concat (bs : List UInt8) (b : UInt8) :
    lastLine (bs ++ [b]) = if b = Byte.lineFeed then [] else lastLine bs ++ [b] := by
  by_cases ends : b = Byte.lineFeed
  · simp [lastLine, ends]
  · simp [lastLine, ends]

theorem lastLine_append (as bs : List UInt8) :
    lastLine (as ++ bs) =
      if Byte.lineFeed ∈ bs then lastLine bs else lastLine as ++ bs := by
  induction bs using List.reverseRecOn with
  | nil => simp
  | append_singleton bs b ih =>
    rw [← List.append_assoc, lastLine_concat, lastLine_concat, ih]
    by_cases ends : b = Byte.lineFeed
    · simp [ends]
    · simp only [if_neg ends, List.mem_append, List.mem_singleton, Ne.symm ends, or_false]
      split <;> simp

theorem lastLine_of_not_mem {bs : List UInt8} (unbroken : Byte.lineFeed ∉ bs) :
    lastLine bs = bs := by
  have whole := lastLine_append [] bs
  rw [if_neg unbroken] at whole
  exact whole

theorem lastLine_suffix (bs : List UInt8) : lastLine bs <:+ bs := by
  apply List.reverse_prefix.mp
  rw [lastLine, List.reverse_reverse]
  exact List.takeWhile_prefix _

theorem length_lastLine_le (bs : List UInt8) : (lastLine bs).length ≤ bs.length :=
  (lastLine_suffix bs).length_le

@[simp] theorem after_nil (tabWidth : UInt32) : after tabWidth [] = start := by
  simp [after, start, width, lastLine]

theorem past_after (tabWidth : UInt32) (bs : List UInt8) (b : UInt8) :
    past tabWidth (after tabWidth bs) b = after tabWidth (bs ++ [b]) := by
  by_cases ends : b = Byte.lineFeed
  · simp [past, after, ends, lastLine_concat, width, UInt32.ofNat_add, UInt32.add_assoc]
  · simp [past, after, ends, lastLine_concat, width, UInt32.ofNat_add, UInt32.add_assoc,
      List.count_append]

theorem foldl_past_after (tabWidth : UInt32) (as bs : List UInt8) :
    bs.foldl (past tabWidth) (after tabWidth as) = after tabWidth (as ++ bs) := by
  induction bs generalizing as with
  | nil => simp
  | cons b bs ih => rw [List.foldl_cons, past_after, ih, List.append_assoc, List.singleton_append]

theorem runWidth_eq {tabWidth : UInt32} {run : List UInt8}
    (room : width tabWidth run ≤ maxOffset) :
    runWidth tabWidth run = .ofNat (width tabWidth run) := by
  have sum : ∀ n, run.foldl (fun n b => n + (columnWidth tabWidth b).toNat) n =
      n + width tabWidth run := by
    clear room
    induction run with
    | nil => simp [width]
    | cons b run ih =>
      intro n
      rw [List.foldl_cons, ih]
      simp [width, Nat.add_assoc]
  rw [runWidth, sum, Nat.zero_add, Nat.min_eq_right room]

/-- Counting in bulk comes to the same as counting from the start. -/
theorem pastRun_after {tabWidth : UInt32} {run : List UInt8}
    (room : run.length * max 1 tabWidth.toNat ≤ maxOffset) (bs : List UInt8) :
    pastRun tabWidth (after tabWidth bs) run = after tabWidth (bs ++ run) := by
  have whole := runWidth_eq (Nat.le_trans (width_le tabWidth run) room)
  have last := runWidth_eq (Nat.le_trans (width_le tabWidth (lastLine run))
    (Nat.le_trans (Nat.mul_le_mul_right _ (length_lastLine_le run)) room))
  rw [pastRun, after, after, lastLine_append, whole, last]
  by_cases broken : Byte.lineFeed ∈ run
  · simp [broken, UInt32.ofNat_add, UInt32.add_assoc, List.count_append]
  · simp [broken, UInt32.ofNat_add, UInt32.add_assoc, List.count_append, width_append]

end Position

namespace Source

/-- Every column that the source can reach fits into 32 bits. -/
def InRange (s : Source) (tabWidth : UInt32) : Prop :=
  1 + s.size * max 1 tabWidth.toNat ≤ maxOffset

instance (s : Source) (tabWidth : UInt32) : Decidable (s.InRange tabWidth) :=
  inferInstanceAs (Decidable (1 + s.size * max 1 tabWidth.toNat ≤ maxOffset))

def place (s : Source) (tabWidth : UInt32) (i : Nat) : Position :=
  .after tabWidth (s.bytes.take i)

/-- The cursor at an offset, with the place that belongs there. -/
def cursorAt (s : Source) (tabWidth : UInt32) (i : Nat) : Cursor := ⟨s, tabWidth, s.place tabWidth i⟩

variable {s : Source} {tabWidth : UInt32}

theorem lt_size_of_getElem? {i : Nat} {b : UInt8} (here : s.bytes[i]? = some b) : i < s.size := by
  rw [← length_bytes]
  exact (List.getElem?_eq_some_iff.mp here).1

theorem drop_of_getElem? {i : Nat} {b : UInt8} (here : s.bytes[i]? = some b) :
    s.bytes.drop i = b :: s.bytes.drop (i + 1) := by
  obtain ⟨below, rfl⟩ := List.getElem?_eq_some_iff.mp here
  exact List.drop_eq_getElem_cons below

theorem length_take_bytes {i : Nat} (inside : i ≤ s.size) : (s.bytes.take i).length = i :=
  List.length_take_of_le (by rwa [length_bytes])

@[simp] theorem drop_size : s.bytes.drop s.size = [] := by
  rw [← length_bytes, List.drop_length]

theorem InRange.size_lt (fits : s.InRange tabWidth) : s.size < maxOffset := by
  have one : s.size * 1 ≤ s.size * max 1 tabWidth.toNat :=
    Nat.mul_le_mul_left _ (Nat.le_max_left _ _)
  unfold InRange at fits
  omega

theorem InRange.of_size_le {t : Source} (fits : s.InRange tabWidth) (shorter : t.size ≤ s.size) :
    t.InRange tabWidth := by
  have less := Nat.mul_le_mul_right (max 1 tabWidth.toNat) shorter
  unfold InRange at fits ⊢
  omega

theorem InRange.limit_eq (fits : s.InRange tabWidth) : s.limit = s.size :=
  Nat.min_eq_left (Nat.le_of_lt fits.size_lt)

theorem InRange.readable_eq (fits : s.InRange tabWidth) : s.readable = s.bytes :=
  readable_eq_bytes fits.limit_eq

theorem InRange.room (fits : s.InRange tabWidth) {run : List UInt8}
    (inside : run.length ≤ s.size) : run.length * max 1 tabWidth.toNat + 1 ≤ maxOffset := by
  have less := Nat.mul_le_mul_right (max 1 tabWidth.toNat) inside
  unfold InRange at fits
  omega

@[simp] theorem place_zero : s.place tabWidth 0 = .start := Position.after_nil tabWidth

theorem cursorAt_zero : s.cursorAt tabWidth 0 = { source := s, tabWidth := tabWidth } := by
  rw [cursorAt, place_zero]

theorem toNat_offset_place (fits : s.InRange tabWidth) {i : Nat} (inside : i ≤ s.size) :
    (s.place tabWidth i).offset.toNat = i := by
  have small := fits.size_lt
  rw [place, Position.after, length_take_bytes inside]
  exact toNat_ofNat_of_le (by omega)

theorem toNat_line_place (fits : s.InRange tabWidth) (i : Nat) :
    (s.place tabWidth i).line.toNat = 1 + (s.bytes.take i).count Byte.lineFeed := by
  have small := fits.size_lt
  have few : (s.bytes.take i).count Byte.lineFeed ≤ s.size := by
    refine Nat.le_trans List.count_le_length ?_
    rw [List.length_take, length_bytes]
    exact Nat.min_le_right _ _
  rw [place, Position.after]
  exact toNat_ofNat_of_le (by omega)

theorem toNat_column_place (fits : s.InRange tabWidth) (i : Nat) :
    (s.place tabWidth i).column.toNat =
      1 + Position.width tabWidth (Position.lastLine (s.bytes.take i)) := by
  have short : (Position.lastLine (s.bytes.take i)).length ≤ s.size := by
    refine Nat.le_trans (Position.length_lastLine_le _) ?_
    rw [List.length_take, length_bytes]
    exact Nat.min_le_right _ _
  have narrow := Position.width_le tabWidth (Position.lastLine (s.bytes.take i))
  have room := fits.room short
  rw [place, Position.after]
  exact toNat_ofNat_of_le (by omega)

theorem offset_cursorAt (fits : s.InRange tabWidth) {i : Nat} (inside : i ≤ s.size) :
    (s.cursorAt tabWidth i).offset = i := toNat_offset_place fits inside

theorem rest_cursorAt (fits : s.InRange tabWidth) {i : Nat} (inside : i ≤ s.size) :
    (s.cursorAt tabWidth i).rest = s.bytes.drop i := by
  rw [Cursor.rest, offset_cursorAt fits inside]
  exact congrArg (List.drop i) fits.readable_eq

theorem byte?_cursorAt (fits : s.InRange tabWidth) {i : Nat} (inside : i ≤ s.size) :
    (s.cursorAt tabWidth i).byte? = s.bytes[i]? := by
  rw [Cursor.byte?_eq, rest_cursorAt fits inside, List.head?_drop]

theorem following?_cursorAt (fits : s.InRange tabWidth) {i : Nat} (inside : i ≤ s.size) :
    (s.cursorAt tabWidth i).following? = s.bytes[i + 1]? := by
  rw [Cursor.following?_eq, rest_cursorAt fits inside, List.tail_drop, List.head?_drop]

theorem foldl_past_place (s : Source) (tabWidth : UInt32) (i n : Nat) :
    ((s.bytes.drop i).take n).foldl (Position.past tabWidth) (s.place tabWidth i) =
      s.place tabWidth (i + n) := by
  rw [place, Position.foldl_past_after, place, List.take_add]

theorem length_drop_bytes (i : Nat) : (s.bytes.drop i).length = s.size - i := by
  rw [List.length_drop, length_bytes]

theorem eq_size_of_drop {i : Nat} (inside : i ≤ s.size) (ended : s.bytes.drop i = []) :
    i = s.size := by
  have none_left := List.drop_eq_nil_iff.mp ended
  rw [length_bytes] at none_left
  exact Nat.le_antisymm inside none_left

theorem eq_size_of_getElem? {i : Nat} (inside : i ≤ s.size) (ended : s.bytes[i]? = none) :
    i = s.size :=
  eq_size_of_drop inside (List.drop_eq_nil_of_le (List.getElem?_eq_none_iff.mp ended))

@[simp] theorem getElem?_size : s.bytes[s.size]? = none := by
  rw [← length_bytes]
  exact List.getElem?_eq_none (Nat.le_refl _)

theorem run_inside {i n : Nat} (inside : i ≤ s.size) (ahead : n ≤ (s.bytes.drop i).length) :
    i + n ≤ s.size := by
  rw [length_drop_bytes] at ahead
  omega

theorem takeWhile_inside (p : UInt8 → Bool) {i : Nat} (inside : i ≤ s.size) :
    i + ((s.bytes.drop i).takeWhile p).length ≤ s.size :=
  run_inside inside (List.takeWhile_sublist p).length_le

theorem length_takeWhile_eq (p : UInt8 → Bool) (bs : List UInt8) :
    (bs.takeWhile p).length = bs.findIdx (!p ·) := by
  rw [List.takeWhile_eq_take_findIdx_not, List.length_take]
  exact Nat.min_eq_left List.findIdx_le_length

theorem findIdx_inside (p : UInt8 → Bool) {i : Nat} (inside : i ≤ s.size) :
    i + (s.bytes.drop i).findIdx p ≤ s.size :=
  run_inside inside List.findIdx_le_length

theorem bump_cursorAt (fits : s.InRange tabWidth) {i : Nat} (inside : i < s.size) :
    (s.cursorAt tabWidth i).bump = s.cursorAt tabWidth (i + 1) := by
  have below : i < s.bytes.length := by rwa [length_bytes]
  have here : s.bytes[i]? = some s.bytes[i] := List.getElem?_eq_getElem below
  have step := s.foldl_past_place tabWidth i 1
  rw [List.take_one, List.head?_drop, here] at step
  rw [Cursor.bump_of_byte? ((byte?_cursorAt fits (Nat.le_of_lt inside)).trans here)]
  exact congrArg (Cursor.mk s tabWidth) step

theorem bump_cursorAt_size (fits : s.InRange tabWidth) :
    (s.cursorAt tabWidth s.size).bump = s.cursorAt tabWidth s.size := by
  apply Cursor.bump_of_atEnd
  exact (byte?_cursorAt fits (Nat.le_refl _)).trans getElem?_size

theorem bump_cursorAt_min (fits : s.InRange tabWidth) {i : Nat} (inside : i ≤ s.size) :
    (s.cursorAt tabWidth i).bump = s.cursorAt tabWidth (min (i + 1) s.size) := by
  rcases Nat.lt_or_eq_of_le inside with below | rfl
  · rw [bump_cursorAt fits below, Nat.min_eq_left below]
  · rw [bump_cursorAt_size fits, Nat.min_eq_right (Nat.le_succ _)]

theorem eatWhile_cursorAt (fits : s.InRange tabWidth) (p : UInt8 → Bool) {i : Nat}
    (inside : i ≤ s.size) :
    (s.cursorAt tabWidth i).eatWhile p =
      s.cursorAt tabWidth (i + ((s.bytes.drop i).takeWhile p).length) := by
  have run : (s.bytes.drop i).takeWhile p =
      (s.bytes.drop i).take ((s.bytes.drop i).takeWhile p).length :=
    List.prefix_iff_eq_take.mp (List.takeWhile_prefix p)
  rw [Cursor.eatWhile_eq, rest_cursorAt fits inside, run]
  have step := s.foldl_past_place tabWidth i ((s.bytes.drop i).takeWhile p).length
  rw [← run] at step ⊢
  exact congrArg (Cursor.mk s tabWidth) step

theorem advance_cursorAt (fits : s.InRange tabWidth) {i : Nat} (inside : i ≤ s.size) (n : UInt32) :
    (s.cursorAt tabWidth i).advance n = s.cursorAt tabWidth (min (i + n.toNat) s.size) := by
  have short : ((s.bytes.drop i).take n.toNat).length ≤ s.size := by
    rw [List.length_take, List.length_drop, length_bytes]
    omega
  have room := Nat.le_trans (Nat.le_succ _) (fits.room short)
  have clamped : s.place tabWidth (min (i + n.toNat) s.size) = s.place tabWidth (i + n.toNat) := by
    refine congrArg (Position.after tabWidth) (List.take_eq_take_iff.mpr ?_)
    rw [length_bytes]
    omega
  rw [Cursor.advance_eq, rest_cursorAt fits inside, cursorAt, cursorAt, clamped]
  refine congrArg (Cursor.mk s tabWidth) ?_
  exact (Position.pastRun_after room _).trans (by rw [place, List.take_add])

theorem skipToDelimiter_cursorAt (fits : s.InRange tabWidth) {i : Nat} (inside : i ≤ s.size) :
    (s.cursorAt tabWidth i).skipToDelimiter =
      (s.bytes[i + (s.bytes.drop i).findIdx Byte.isDelimiter]?,
        s.cursorAt tabWidth (i + (s.bytes.drop i).findIdx Byte.isDelimiter)) := by
  have small := fits.size_lt
  have bound := findIdx_inside Byte.isDelimiter inside
  have word : (UInt32.ofNat ((s.bytes.drop i).findIdx Byte.isDelimiter)).toNat =
      (s.bytes.drop i).findIdx Byte.isDelimiter :=
    toNat_ofNat_of_le (by omega)
  rw [Cursor.skipToDelimiter_eq, rest_cursorAt fits inside, advance_cursorAt fits inside, word,
    Nat.min_eq_left bound, byte?_cursorAt fits bound]

end Source

end Lexing
