import Lexing.Scan

/-! Progress: scanning never goes back, and every token but the end of the stream takes bytes away
from what is unread. -/
namespace Lexing.Cursor

theorem unread_eatWhile_lt {p : UInt8 → Bool} {c : Cursor} {b : UInt8} (here : c.byte? = some b)
    (sat : p b = true) : (c.eatWhile p).unread < c.unread := by
  unfold eatWhile
  split
  · rename_i ended
    simp [here] at ended
  · rename_i b' found
    rw [here] at found
    cases found
    rw [if_pos sat]
    exact Nat.lt_of_le_of_lt (unread_eatWhile_le p c.bump) (unread_bump_lt here)

theorem eatWhile_of_not {p : UInt8 → Bool} {c : Cursor} {b : UInt8} (here : c.byte? = some b)
    (unsat : p b = false) : c.eatWhile p = c := by
  unfold eatWhile
  split
  · rfl
  · rename_i b' found
    rw [here] at found
    cases found
    simp [unsat]

theorem unread_eatNumber_lt {c : Cursor} {b : UInt8} (here : c.byte? = some b)
    (opens : Byte.isDigit b = true ∨ b = Byte.point) : c.eatNumber.unread < c.unread := by
  cases digit : Byte.isDigit b with
  | true =>
    have whole := unread_eatWhile_lt here digit
    unfold eatNumber
    dsimp only
    split
    · exact Nat.lt_of_le_of_lt (unread_eatWhile_le _ _)
        (Nat.lt_of_le_of_lt (unread_bump_le _) whole)
    · exact whole
  | false =>
    have point : b = Byte.point := by simpa [digit] using opens
    have whole := eatWhile_of_not here digit
    have stands : c.byte? = some Byte.point := point ▸ here
    unfold eatNumber
    dsimp only
    rw [whole, if_pos stands]
    exact Nat.lt_of_le_of_lt (unread_eatWhile_le _ _) (unread_bump_lt here)

theorem unread_eatString_le (c : Cursor) : c.eatString.unread ≤ c.unread := by
  fun_induction eatString c with
  | case1 c stop found ih =>
    have skipped := unread_skipToDelimiter_le c
    rw [found] at skipped
    exact Nat.le_trans ih
      (Nat.le_trans (unread_bump_le _) (Nat.le_trans (unread_bump_le _) skipped))
  | case2 c b stop found _ =>
    have skipped := unread_skipToDelimiter_le c
    rwa [found] at skipped
  | case3 c stop found =>
    have skipped := unread_skipToDelimiter_le c
    rwa [found] at skipped

theorem unread_scanString_lt {c : Cursor} {b : UInt8} (here : c.byte? = some b) :
    c.scanString.cursor.unread < c.unread := by
  have inside : c.bump.eatString.unread < c.unread :=
    Nat.lt_of_le_of_lt (unread_eatString_le _) (unread_bump_lt here)
  unfold scanString
  dsimp only
  split
  · exact Nat.lt_of_le_of_lt (unread_bump_le _) inside
  · exact inside

theorem unread_scanNumber_lt {c : Cursor} {b : UInt8} (here : c.byte? = some b)
    (opens : Byte.isDigit b = true ∨ b = Byte.point) :
    c.scanNumber.cursor.unread < c.unread := by
  have less := unread_eatNumber_lt here opens
  unfold scanNumber
  dsimp only
  split <;> exact less

theorem isDigit_or_point_of_ofByte {b : UInt8} {following : Option UInt8}
    (h : Opening.ofByte b following = .number) : Byte.isDigit b = true ∨ b = Byte.point := by
  unfold Opening.ofByte at h
  repeat (split at h; try contradiction)
  · exact .inl (by assumption)
  · split at h
    · rename_i point
      exact .inr point.1
    · split at h <;> contradiction

/-- Only the end of the stream and a stray character leave the cursor where it is. -/
theorem unread_scanHere_lt {c : Cursor} {b : UInt8} (here : c.byte? = some b)
    (opens : Opening.ofByte b c.following? ≠ .stray) :
    c.scanHere.cursor.unread < c.unread := by
  unfold scanHere
  rw [here]
  dsimp only
  split
  · exact unread_scanString_lt here
  · exact unread_bump_lt here
  · exact Nat.lt_of_le_of_lt (unread_eatWhile_le _ _) (unread_bump_lt here)
  · rename_i number
    exact unread_scanNumber_lt here (isDigit_or_point_of_ofByte number)
  · exact unread_bump_lt here
  · contradiction

theorem unread_scanHere_le (c : Cursor) : c.scanHere.cursor.unread ≤ c.unread := by
  cases here : c.byte? with
  | none => simp [scanHere, here]
  | some b =>
    by_cases opens : Opening.ofByte b c.following? = .stray
    · simp [scanHere, here, opens, scanStray]
    · exact Nat.le_of_lt (unread_scanHere_lt here opens)

theorem unread_scan_le (c : Cursor) : c.scan.cursor.unread ≤ c.unread :=
  Nat.le_trans (unread_scanHere_le _) (unread_eatWhile_le _ _)

theorem unread_scanHere_lt_of_hasMore {c : Cursor} {t : Token} (found : c.scanHere.answer = .ok t)
    (more : t.hasMore = true) : c.scanHere.cursor.unread < c.unread := by
  cases here : c.byte? with
  | none =>
    simp only [scanHere, here] at found
    cases found
    cases more
  | some b =>
    refine unread_scanHere_lt here fun stray => ?_
    simp [scanHere, here, stray, scanStray] at found

theorem unread_scan_lt {c : Cursor} {t : Token} (found : c.scan.answer = .ok t)
    (more : t.hasMore = true) : c.scan.cursor.unread < c.unread :=
  Nat.lt_of_lt_of_le (unread_scanHere_lt_of_hasMore found more) (unread_eatWhile_le _ _)

end Lexing.Cursor
