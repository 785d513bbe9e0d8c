import Lexing.Proofs.Ending
import Lexing.Proofs.Slicing

/-! Saturation. Of a source with more bytes than there are offsets only as many are read. If the last of
them ends a character, looking at the text that remains and passing over its bytes come to the same. But if
the limit cuts a character, nothing that reaches up to it can be cut out: a lexer holds every place for the
end, whatever the next token is. -/
namespace Lexing

namespace Cursor

@[simp] theorem source_eatWhile (p : UInt8 → Bool) (c : Cursor) :
    (c.eatWhile p).source = c.source := by
  rw [eatWhile_eq]

@[simp] theorem source_eatNumber (c : Cursor) : c.eatNumber.source = c.source := by
  unfold eatNumber
  dsimp only
  split <;> simp

theorem source_skipToDelimiter (c : Cursor) : c.skipToDelimiter.2.source = c.source := by
  rw [skipToDelimiter_eq]
  rfl

@[simp] theorem source_eatString (c : Cursor) : c.eatString.source = c.source := by
  have skipped := c.source_skipToDelimiter
  fun_induction eatString c with
  | case1 c stop found ih =>
    rw [found] at skipped
    rw [ih (source_skipToDelimiter _), source_bump, source_bump]
    exact skipped
  | case2 c b stop found other =>
    rw [found] at skipped
    exact skipped
  | case3 c stop found =>
    rw [found] at skipped
    exact skipped

@[simp] theorem source_scanHere (c : Cursor) : c.scanHere.cursor.source = c.source := by
  unfold scanHere
  cases c.byte? with
  | none => rfl
  | some b =>
    dsimp only
    cases Opening.ofByte b c.following? with
    | string =>
      unfold scanString
      dsimp only
      split <;> simp
    | newline => exact c.source_bump
    | word => simp [scanWord]
    | number =>
      unfold scanNumber
      dsimp only
      split <;> exact c.source_eatNumber
    | symbol => exact c.source_bump
    | stray => rfl

theorem source_scan (c : Cursor) : c.scan.cursor.source = c.source := by
  rw [scan, source_scanHere, eatBlanks, source_eatWhile]

theorem source_nextToken (c : Cursor) (ignoreNewline : Bool) :
    (c.nextToken ignoreNewline).cursor.source = c.source := by
  fun_induction nextToken c ignoreNewline with
  | case1 c r newline ih => exact ih.trans c.source_scan
  | case2 c r other => exact c.source_scan

theorem exists_last (c : Cursor) (more : c.rest ≠ []) :
    ∃ b ∈ c.rest, c.source.byte? (c.source.limit - 1) = some b := by
  have some_unread : 0 < c.unread := by
    rw [← length_rest]
    exact List.length_pos_of_ne_nil more
  rw [unread] at some_unread
  have inside : c.source.limit - 1 < c.source.readable.length := by
    rw [Source.length_readable]
    omega
  refine ⟨c.source.readable[c.source.limit - 1], ?_, ?_⟩
  · apply List.mem_of_getElem? (i := c.source.limit - 1 - c.offset)
    rw [rest, List.getElem?_drop, Nat.add_sub_cancel' (by omega), List.getElem?_eq_getElem inside]
  · rw [Source.byte?_eq, List.getElem?_eq_getElem inside]

end Cursor

namespace Lexer

variable {υ : Type}

/-- Where the limit cuts a character, there is no text to look at, but the scanner finds an end at the
limit only. -/
theorem tests_of_cut {l : Lexer υ} (cut : ¬ l.cursor.source.IsBoundary l.cursor.source.limit) :
    l.remaining = "" ∧ l.isAtEnd = true ∧ (Ends (l.peek false) ↔ l.cursor.atEnd = true) := by
  have nothing : l.remaining = "" := by
    rw [remaining, Source.slice, Source.slice?, dif_neg fun whole => cut whole.2.2]
    rfl
  refine ⟨nothing, ?_, ?_⟩
  · rw [isAtEnd, nothing, ← Array.all_toList]
    rfl
  · rw [peek, Cursor.ends_nextToken_false_iff, Cursor.atEnd_iff]
    constructor
    · intro blank
      apply Classical.byContradiction
      intro more
      -- A blank right before the limit would be a character of its own.
      obtain ⟨b, member, last⟩ := l.cursor.exists_last more
      have ascii := Byte.ascii_of_class b (by simp [blank b member])
      have below := Source.lt_limit_of_byte? last
      have stop := (Source.isBoundary_of_byte? ascii last).2
      rw [Nat.sub_add_cancel (by omega)] at stop
      exact cut stop
    · intro ended
      rw [ended]
      exact List.forall_mem_nil _

end Lexer

namespace Source

variable {υ : Type} {s : Source}

def repeated (cs : List Char) (n : Nat) : Source := ⟨.ofList (List.replicate n cs).flatten⟩

theorem length_encoded_repeated (cs : List Char) (n : Nat) :
    (encoded (List.replicate n cs).flatten).length = n * (encoded cs).length := by
  induction n with
  | zero => simp [encoded]
  | succ n ih =>
    rw [List.replicate_succ, List.flatten_cons, encoded_append, List.length_append, ih,
      Nat.succ_mul, Nat.add_comm]

theorem size_repeated (cs : List Char) (n : Nat) :
    (repeated cs n).size = n * (encoded cs).length := by
  rw [← length_bytes, bytes_eq_encoded, repeated, String.toList_ofList, length_encoded_repeated]

theorem isBoundary_repeated (cs : List Char) (m n : Nat) :
    (repeated cs (m + n)).IsBoundary (m * (encoded cs).length) := by
  refine isBoundary_iff_front.mpr ⟨_, (List.replicate n cs).flatten, ?_,
    (length_encoded_repeated cs m).symm⟩
  rw [repeated, String.toList_ofList, List.replicate_add, List.flatten_append]

theorem not_continuation_of_encoded {cs : List Char} {b : UInt8} {bs : List UInt8}
    (text : b :: bs = encoded cs) : Byte.isContinuation b = false := by
  cases cs with
  | nil => cases text
  | cons c cs =>
    apply Byte.not_continuation_of_ascii
    rw [encoded_cons] at text
    by_cases short : c.toNat < 0x80
    · rw [encodeChar_of_ascii short] at text
      cases text
      left
      rwa [UInt8.toNat_ofNat_of_lt' (Nat.lt_trans short (by decide))]
    · obtain ⟨d, ds, spelling, first, -⟩ := encodeChar_of_not_ascii short
      rw [spelling] at text
      cases text
      exact .inr first

theorem not_isBoundary_repeated (m : Nat) :
    ¬ (repeated ['x', '€'] (m + 1)).IsBoundary (m * 4 + 3) := by
  intro whole
  obtain ⟨-, cs, text⟩ := isBoundary_iff_drop.mp whole
  have parted : (repeated ['x', '€'] (m + 1)).text.toList =
      ((List.replicate m ['x', '€']).flatten ++ ['x']) ++ ['€'] := by
    rw [repeated, String.toList_ofList, List.replicate_add, List.flatten_append, List.append_assoc]
    rfl
  have front : (encoded ((List.replicate m ['x', '€']).flatten ++ ['x'])).length = m * 4 + 1 := by
    rw [encoded_append, List.length_append, length_encoded_repeated]
    rfl
  have last : (encoded ['€']).drop 2 = [0xAC] := by decide
  have ahead := drop_encoded parted
  rw [front] at ahead
  rw [← List.drop_drop (i := 2) (j := m * 4 + 1), ahead, last] at text
  cases not_continuation_of_encoded text

/-- Of 2^32 bytes the last lies beyond the limit, which cuts the character that it belongs to. -/
theorem cut_repeated : maxOffset < (repeated ['x', '€'] (2 ^ 30)).size ∧
    ¬ (repeated ['x', '€'] (2 ^ 30)).IsBoundary maxOffset := by
  have length : (encoded ['x', '€']).length = 4 := by decide
  have many : 2 ^ 30 = 1073741823 + 1 := by decide
  rw [size_repeated, length, many]
  exact ⟨by decide, not_isBoundary_repeated 1073741823⟩

/-- Whatever is asked before, the two tests of the end of a source that is too long agree if its limit
is a boundary. If it is none, the one says that the end is reached in any case. -/
theorem saturates_reached (long : maxOffset < s.size) (tabWidth : UInt32) (userData : υ)
    {steps : List Step} (asks : ∀ st ∈ steps, st.Asks) :
    let l := (Session.reached s.text tabWidth userData steps).lexer
    (s.IsBoundary maxOffset →
      (l.isAtEnd = true ↔ Ends (l.peek false)) ∧ (l.remaining = "" → l.cursor.atEnd = true)) ∧
    (¬ s.IsBoundary maxOffset →
      l.remaining = "" ∧ l.isAtEnd = true ∧ (Ends (l.peek false) ↔ l.cursor.atEnd = true)) := by
  intro l
  have limit : s.limit = maxOffset := Nat.min_eq_right (Nat.le_of_lt long)
  have source : l.cursor.source = s := (Session.all_reached (P := fun c => c.source = s)
    (fun ignoreNewline own => (Cursor.source_nextToken _ ignoreNewline).trans own) rfl userData
    asks).lexer
  rw [← limit]
  constructor
  · intro edge
    apply Lexer.tests_of_whole
    exact Session.whole_reached edge tabWidth userData asks
  · intro cut
    apply Lexer.tests_of_cut
    rw [source]
    exact cut

theorem saturates_both :
    let cut := repeated ['x', '€'] (2 ^ 30)
    let whole := repeated ['x'] (2 ^ 32)
    let l := (Session.reached cut.text 4 () [.call .eat]).lexer
    let m := (Session.reached whole.text 4 () [.scan true]).lexer
    maxOffset < cut.size ∧ ¬ cut.IsBoundary maxOffset ∧ l.remaining = "" ∧ l.isAtEnd = true ∧
      (Ends (l.peek false) ↔ l.cursor.atEnd = true) ∧
      maxOffset < whole.size ∧ whole.IsBoundary maxOffset ∧
      (m.isAtEnd = true ↔ Ends (m.peek false)) ∧ (m.remaining = "" → m.cursor.atEnd = true) := by
  intro cut whole l m
  obtain ⟨long, apart⟩ := cut_repeated
  have many : 2 ^ 32 = 4294967295 + 1 := by decide
  have longer : maxOffset < whole.size := by
    rw [size_repeated]
    decide
  have edge : whole.IsBoundary maxOffset := by
    have front := isBoundary_repeated ['x'] 4294967295 1
    rw [← many] at front
    exact front
  have eats : ∀ st ∈ [Step.call .eat], st.Asks := by simp [Step.Asks]
  have scans : ∀ st ∈ [Step.scan true], st.Asks := by simp [Step.Asks]
  obtain ⟨nothing, ended, ends⟩ := (saturates_reached long 4 () eats).2 apart
  obtain ⟨agrees, empty⟩ := (saturates_reached longer 4 () scans).1 edge
  exact ⟨long, apart, nothing, ended, ends, longer, edge, agrees, empty⟩

/-- A fresh lexer before a text with a cut character at its limit holds the end for reached, and the end
of the stream is not what comes next. -/
theorem tests_differ :
    let s := repeated ['x', '€'] (2 ^ 30)
    let l := (Session.reached s.text 4 () []).lexer
    maxOffset < s.size ∧ l.isAtEnd = true ∧ ¬ Ends (l.peek false) ∧
      l.remaining = "" ∧ l.cursor.atEnd = false := by
  intro s l
  obtain ⟨long, apart⟩ := cut_repeated
  have limit : s.limit = maxOffset := Nat.min_eq_right (Nat.le_of_lt long)
  rw [← limit] at apart
  have cut : ¬ l.cursor.source.IsBoundary l.cursor.source.limit := apart
  obtain ⟨nothing, ended, ends⟩ := Lexer.tests_of_cut cut
  have more : l.cursor.atEnd = false := by
    change decide (s.limit ≤ 0) = false
    rw [limit]
    rfl
  refine ⟨long, ended, fun next => ?_, nothing, more⟩
  rw [ends.mp next] at more
  cases more

end Source

end Lexing
