import Lexing.Proofs.Standing

/-! Positions are a function of the offset. The place at an offset is counted here over the
characters of the source, and every place that a session comes to or hears of is that place. -/
namespace Lexing

/-- The characters from an offset on, each with the offset of its first byte. -/
def located : Nat → List Char → List (Nat × Char)
  | _, [] => []
  | i, c :: cs => (i, c) :: located (i + (String.utf8EncodeChar c).length) cs

def charWidth (tabWidth : UInt32) (c : Char) : Nat := if c = '\t' then tabWidth.toNat else 1

theorem width_cons (tabWidth : UInt32) (b : UInt8) (bs : List UInt8) :
    Position.width tabWidth (b :: bs) =
      (Position.columnWidth tabWidth b).toNat + Position.width tabWidth bs := by
  simp [Position.width]

theorem width_continuation (tabWidth : UInt32) {bs : List UInt8}
    (continued : ∀ b ∈ bs, Byte.isContinuation b = true) : Position.width tabWidth bs = 0 := by
  induction bs with
  | nil => rfl
  | cons b bs ih =>
    have head := continued b List.mem_cons_self
    have tab : b ≠ Byte.tab := by
      rintro rfl
      cases head
    rw [width_cons, ih fun d member => continued d (List.mem_cons_of_mem b member)]
    simp [Position.columnWidth, tab, head]

theorem Byte.not_continuation_of_ascii : ∀ b, b.toNat < 0x80 ∨ 0xC0 ≤ b.toNat →
    isContinuation b = false :=
  Byte.forall_of_range (by decide +kernel)

theorem take_encodeChar_lineFeed {c : Char} (n : Nat) :
    (String.utf8EncodeChar c).take (n + 1) = [Byte.lineFeed] ∨
      Byte.lineFeed ∉ (String.utf8EncodeChar c).take (n + 1) := by
  by_cases feed : c = '\n'
  · subst feed
    have spelling : String.utf8EncodeChar '\n' = [Byte.lineFeed] := by decide
    rw [spelling, List.take_succ_cons, List.take_nil]
    exact .inl rfl
  · refine .inr fun member => feed ?_
    exact (mem_encodeChar_iff (by decide)).mp (List.mem_of_mem_take member)

theorem width_take_encodeChar (tabWidth : UInt32) (c : Char) (n : Nat) :
    Position.width tabWidth ((String.utf8EncodeChar c).take (n + 1)) = charWidth tabWidth c := by
  have tab := mem_encodeChar_iff (b := Byte.tab) (c := c) (by decide)
  change Byte.tab ∈ String.utf8EncodeChar c ↔ c = '\t' at tab
  by_cases ascii : c.toNat < 0x80
  · have value : (UInt8.ofNat c.toNat).toNat = c.toNat :=
      UInt8.toNat_ofNat_of_lt' (Nat.lt_trans ascii (by decide))
    have single := Byte.not_continuation_of_ascii (.ofNat c.toNat) (.inl (value.symm ▸ ascii))
    rw [encodeChar_of_ascii ascii, List.mem_singleton, eq_comm] at tab
    rw [encodeChar_of_ascii ascii, List.take_succ_cons, List.take_nil, width_cons]
    simp only [Position.columnWidth, tab, single, charWidth]
    split <;> rfl
  · obtain ⟨b, bs, spelling, first, continued⟩ := encodeChar_of_not_ascii ascii
    have single := Byte.not_continuation_of_ascii b (.inr first)
    have other : c ≠ '\t' := by
      rintro rfl
      exact ascii (by decide)
    have rest : ∀ d ∈ bs.take n, Byte.isContinuation d = true :=
      fun d member => continued d (List.mem_of_mem_take member)
    have not_tab : b ≠ Byte.tab := by
      rintro rfl
      exact absurd first (by decide)
    rw [spelling, List.take_succ_cons, width_cons, width_continuation tabWidth rest]
    simp [Position.columnWidth, not_tab, single, charWidth, other]

/-- A text takes a column for each of its characters but the tabs. -/
theorem width_encoded (tabWidth : UInt32) (cs : List Char) :
    Position.width tabWidth (encoded cs) =
      cs.countP (· ≠ '\t') + tabWidth.toNat * cs.count '\t' := by
  induction cs with
  | nil => rfl
  | cons c cs ih =>
    have own := width_take_encodeChar tabWidth c (String.utf8EncodeChar c).length
    rw [List.take_of_length_le (Nat.le_succ _)] at own
    rw [encoded_cons, Position.width_append, own, ih]
    by_cases tab : c = '\t'
    · simp [charWidth, tab, Nat.mul_succ]
      omega
    · simp [charWidth, tab]
      omega

namespace Source

variable {υ : Type} {s : Source} {tabWidth : UInt32}

/-- The characters before an offset that no line feed parts from it. -/
def lineBefore (s : Source) (i : Nat) (cs : List (Nat × Char)) : List Char :=
  (cs.filter fun c => c.1 < i ∧ Byte.lineFeed ∉ s.range c.1 i).map Prod.snd

/-- The place at an offset, in characters. -/
structure Measures (s : Source) (tabWidth : UInt32) (p : Position) : Prop where
  offset : p.offset.toNat ≤ s.size
  line : p.line.toNat = 1 + (s.bytes.take p.offset.toNat).count Byte.lineFeed
  column : p.column.toNat = 1 +
    ((s.lineBefore p.offset.toNat (located 0 s.text.toList)).map (charWidth tabWidth)).sum

theorem lineBefore_cons (i j : Nat) (c : Char) (cs : List (Nat × Char)) :
    s.lineBefore j ((i, c) :: cs) =
      if i < j ∧ Byte.lineFeed ∉ s.range i j then c :: s.lineBefore j cs else s.lineBefore j cs := by
  by_cases counts : i < j ∧ Byte.lineFeed ∉ s.range i j
  · simp [lineBefore, counts]
  · rw [if_neg counts, lineBefore, List.filter_cons_of_neg]
    · rfl
    · simpa using counts

theorem sum_lineBefore {cs : List Char} {i : Nat} (ahead : s.bytes.drop i = encoded cs) (j : Nat) :
    ((s.lineBefore j (located i cs)).map (charWidth tabWidth)).sum =
      Position.width tabWidth (Position.lastLine (s.range i j)) := by
  induction cs generalizing i with
  | nil =>
    have nothing : s.range i j = [] := by
      rw [range, ahead]
      exact List.take_nil
    rw [nothing]
    rfl
  | cons c cs ih =>
    rw [encoded_cons] at ahead
    have behind : s.bytes.drop (i + (String.utf8EncodeChar c).length) = encoded cs := by
      rw [← List.drop_drop, ahead, List.drop_left]
    have parted : s.range i j = (String.utf8EncodeChar c).take (j - i) ++
        s.range (i + (String.utf8EncodeChar c).length) j := by
      rw [range, range, ahead, behind, List.take_append, Nat.sub_sub]
    have rest := ih behind
    rw [located, lineBefore_cons, parted]
    by_cases below : i < j
    · -- Some bytes of the character lie before `j`, and the first has all of its columns.
      obtain ⟨n, ended⟩ : ∃ n, j - i = n + 1 := ⟨j - i - 1, by omega⟩
      have width := width_take_encodeChar tabWidth c n
      have own := take_encodeChar_lineFeed (c := c) n
      rw [ended, Position.lastLine_append]
      generalize s.range (i + (String.utf8EncodeChar c).length) j = run at rest
      generalize (String.utf8EncodeChar c).take (n + 1) = bs at width own
      by_cases later : Byte.lineFeed ∈ run
      · rw [if_neg (by simp [later]), if_pos later, rest]
      · rw [Position.lastLine_of_not_mem later] at rest
        rcases own with rfl | unbroken
        · rw [if_neg later, if_neg (by simp), rest]
          rfl
        · rw [if_neg later, if_pos (by simp [below, unbroken, later]), List.map_cons, List.sum_cons,
            rest, Position.lastLine_of_not_mem unbroken, Position.width_append, width]
    · have nothing : s.range (i + (String.utf8EncodeChar c).length) j = [] := by
        rw [range, Nat.sub_eq_zero_of_le (by omega), List.take_zero]
      rw [nothing] at rest
      rw [if_neg (by simp [below]), nothing, rest, Nat.sub_eq_zero_of_le (by omega)]
      rfl

theorem measures_place (fits : s.InRange tabWidth) {i : Nat} (inside : i ≤ s.size) :
    s.Measures tabWidth (s.place tabWidth i) := by
  have line := toNat_line_place fits i
  have column := (toNat_column_place fits i).trans
    (congrArg (1 + ·) (@sum_lineBefore s tabWidth _ 0 s.bytes_eq_encoded i).symm)
  constructor
  · rw [toNat_offset_place fits inside]
    exact inside
  · rw [toNat_offset_place fits inside, line]
  · rw [toNat_offset_place fits inside, column]

theorem Places.measures (fits : s.InRange tabWidth) {p : Position} (placed : s.Places tabWidth p) :
    s.Measures tabWidth p := by
  obtain ⟨i, inside, rfl⟩ := placed
  exact measures_place fits inside

/-- Two cursors in place are the same once they have the same offset. -/
theorem Holds.eq_of_offset (fits : s.InRange tabWidth) {c d : Cursor} (held : s.Holds tabWidth c)
    (held' : s.Holds tabWidth d) (same : c.pos.offset = d.pos.offset) : c = d := by
  obtain ⟨i, inside, rfl⟩ := held
  obtain ⟨j, inside', rfl⟩ := held'
  have offset : (s.cursorAt tabWidth i).offset = (s.cursorAt tabWidth j).offset :=
    congrArg UInt32.toNat same
  rw [offset_cursorAt fits inside, offset_cursorAt fits inside'] at offset
  rw [offset]

theorem measures_reached (fits : s.InRange tabWidth) (userData : υ) (steps : List Step) :
    s.Measures tabWidth (Session.reached s.text tabWidth userData steps).lexer.cursor.pos ∧
      (∀ r ∈ (Session.reached s.text tabWidth userData steps).replies, ∀ p ∈ r.places,
        s.Measures tabWidth p) ∧
      (∀ e ∈ (Session.reached s.text tabWidth userData steps).events,
        s.Measures tabWidth e.pos) ∧
      ∀ others, (Session.reached s.text tabWidth userData others).lexer.cursor.pos.offset =
          (Session.reached s.text tabWidth userData steps).lexer.cursor.pos.offset →
        (Session.reached s.text tabWidth userData others).lexer.cursor =
          (Session.reached s.text tabWidth userData steps).lexer.cursor := by
  have kept := keeps_reached fits userData
  refine ⟨?_, ?_, ?_, ?_⟩
  · obtain ⟨i, inside, here⟩ := (kept steps).lexer
    rw [here]
    exact measures_place fits inside
  · intro r told p named
    exact ((kept steps).replies r told p named).measures fits
  · intro e reported
    exact ((kept steps).events e reported).measures fits
  · intro others same
    exact (kept others).lexer.eq_of_offset fits (kept steps).lexer same

theorem measures_tab : (Source.mk "\ta").InRange 8 ∧
    (Source.mk "\ta").Measures 8
      (Session.reached "\ta" 8 () [.bump]).lexer.cursor.pos ∧
    (Session.reached "\ta" 8 () [.bump]).lexer.cursor.pos = ⟨1, 1, 9⟩ ∧
    (Session.reached "\ta" 8 () [.advance 1]).lexer.cursor =
      (Session.reached "\ta" 8 () [.bump]).lexer.cursor := by
  have fits : (Source.mk "\ta").InRange 8 := by decide
  obtain ⟨measures, -, -, same⟩ := measures_reached fits () [.bump]
  exact ⟨fits, measures, by decide, same [.advance 1] (by decide)⟩

end Source

end Lexing
