import Lexing.Cursor
import Lexing.Source.Bytes

/-! The bytes that a cursor has before it, as a list. Reading is looking at the head of the list,
and every move drops the bytes that it passes. -/
namespace Lexing.Cursor

def rest (c : Cursor) : List UInt8 := c.source.readable.drop c.offset

@[simp] theorem length_rest (c : Cursor) : c.rest.length = c.unread := by
  simp only [rest, List.length_drop, Source.length_readable, unread]

theorem byte?_eq (c : Cursor) : c.byte? = c.rest.head? := by
  simp only [byte?, Source.byte?_eq, rest, List.head?_drop]

theorem following?_eq (c : Cursor) : c.following? = c.rest.tail.head? := by
  simp only [following?, Source.byte?_eq, rest, List.tail_drop, List.head?_drop]

theorem atEnd_iff (c : Cursor) : c.atEnd = true ↔ c.rest = [] := by
  simp only [atEnd, decide_eq_true_eq, rest, List.drop_eq_nil_iff, Source.length_readable]

theorem bump_of_byte? {c : Cursor} {b : UInt8} (h : c.byte? = some b) :
    c.bump = { c with pos := c.pos.past c.tabWidth b } := by
  simp only [bump, h]

theorem bump_of_atEnd {c : Cursor} (h : c.byte? = none) : c.bump = c := by
  simp only [bump, h]

@[simp] theorem rest_bump (c : Cursor) : c.bump.rest = c.rest.tail := by
  cases h : c.byte? with
  | none =>
    have ended : c.rest = [] := by rwa [byte?_eq, List.head?_eq_none_iff] at h
    rw [bump_of_atEnd h, ended, List.tail_nil]
  | some b => simp only [rest, source_bump, offset_bump h, List.tail_drop]

@[simp] theorem rest_eatWhile (p : UInt8 → Bool) (c : Cursor) :
    (c.eatWhile p).rest = c.rest.dropWhile p := by
  fun_induction eatWhile p c with
  | case1 c ended =>
    rw [byte?_eq, List.head?_eq_none_iff] at ended
    rw [ended, List.dropWhile_nil]
  | case2 c b here sat ih =>
    rw [byte?_eq, List.head?_eq_some_iff] at here
    obtain ⟨tail, here⟩ := here
    rw [ih, rest_bump, here, List.dropWhile_cons, if_pos sat, List.tail_cons]
  | case3 c b here unsat =>
    rw [byte?_eq, List.head?_eq_some_iff] at here
    obtain ⟨tail, here⟩ := here
    rw [here, List.dropWhile_cons, if_neg unsat]

theorem eatWhile_eq (p : UInt8 → Bool) (c : Cursor) :
    c.eatWhile p =
      { c with pos := (c.rest.takeWhile p).foldl (Position.past c.tabWidth) c.pos } := by
  fun_induction eatWhile p c with
  | case1 c ended =>
    rw [byte?_eq, List.head?_eq_none_iff] at ended
    rw [ended, List.takeWhile_nil, List.foldl_nil]
  | case2 c b here sat ih =>
    rw [ih, rest_bump, bump_of_byte? here]
    rw [byte?_eq, List.head?_eq_some_iff] at here
    obtain ⟨tail, here⟩ := here
    rw [here, List.takeWhile_cons, if_pos sat, List.tail_cons, List.foldl_cons]
  | case3 c b here unsat =>
    rw [byte?_eq, List.head?_eq_some_iff] at here
    obtain ⟨tail, here⟩ := here
    rw [here, List.takeWhile_cons, if_neg unsat, List.foldl_nil]

@[simp] theorem source_advance (c : Cursor) (n : UInt32) : (c.advance n).source = c.source := rfl

theorem advance_eq (c : Cursor) (n : UInt32) :
    c.advance n = { c with pos := c.pos.pastRun c.tabWidth (c.rest.take n.toNat) } := by
  have run : c.source.chunk c.offset (c.reach n) = c.rest.take n.toNat := by
    rw [reach_eq, Source.chunk_eq]
    change c.rest.take _ = _
    rw [List.take_eq_take_iff, length_rest, unread]
    omega
  simp only [advance, run]

theorem offset_advance (c : Cursor) (n : UInt32) :
    (c.advance n).offset = c.offset + min n.toNat c.unread := by
  have small := c.source.limit_le_maxOffset
  have word := c.pos.offset.toNat_lt
  rw [advance_eq]
  simp only [offset, Position.pastRun, UInt32.toNat_add, UInt32.toNat_ofNat', List.length_take,
    length_rest, unread]
  simp only [maxOffset] at small
  omega

@[simp] theorem rest_advance (c : Cursor) (n : UInt32) : (c.advance n).rest = c.rest.drop n.toNat := by
  simp only [rest, source_advance, offset_advance, List.drop_drop]
  rw [List.drop_eq_drop_iff, Source.length_readable, unread]
  omega

theorem unread_le_maxOffset (c : Cursor) : c.unread ≤ maxOffset :=
  Nat.le_trans (Nat.sub_le _ _) c.source.limit_le_maxOffset

/-- The plain text before the first delimiter is passed, all of it if there is no delimiter. -/
theorem skipToDelimiter_eq (c : Cursor) :
    c.skipToDelimiter =
      ((c.advance (.ofNat (c.rest.findIdx Byte.isDelimiter))).byte?,
        c.advance (.ofNat (c.rest.findIdx Byte.isDelimiter))) := by
  have first : c.source.find? Byte.isDelimiter c.offset =
      (c.rest.findIdx? Byte.isDelimiter).map (· + c.offset) := Source.find?_eq _ _ _
  rw [skipToDelimiter, first]
  cases found : c.rest.findIdx? Byte.isDelimiter with
  | none =>
    have all : c.rest.findIdx Byte.isDelimiter = c.unread := by
      rw [← length_rest]
      exact List.findIdx_eq_length_of_false (List.findIdx?_eq_none_iff.mp found)
    have ended : (c.advance (.ofNat c.unread)).byte? = none := by
      have small := c.unread_le_maxOffset
      rw [byte?_eq, rest_advance, UInt32.toNat_ofNat_of_lt' (Nat.lt_succ_of_le small),
        List.drop_eq_nil_of_le (Nat.le_of_eq (length_rest _)), List.head?_nil]
    rw [all, ended]
    rfl
  | some k =>
    rw [(List.findIdx?_eq_some_iff_findIdx_eq.mp found).2]
    simp only [Option.map_some, Nat.add_sub_cancel]

theorem rest_skipToDelimiter (c : Cursor) :
    c.skipToDelimiter.2.rest = c.rest.dropWhile (!Byte.isDelimiter ·) := by
  have bound : c.rest.findIdx Byte.isDelimiter ≤ maxOffset :=
    Nat.le_trans List.findIdx_le_length (by rw [length_rest]; exact c.unread_le_maxOffset)
  rw [skipToDelimiter_eq, List.dropWhile_eq_drop_findIdx_not]
  simp only [rest_advance, Bool.not_not]
  rw [UInt32.toNat_ofNat_of_lt' (Nat.lt_succ_of_le bound)]

theorem fst_skipToDelimiter (c : Cursor) :
    c.skipToDelimiter.1 = c.skipToDelimiter.2.rest.head? := by
  rw [skipToDelimiter_eq]
  exact byte?_eq _

end Lexing.Cursor
