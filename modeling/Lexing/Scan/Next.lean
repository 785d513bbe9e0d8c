import Lexing.Scan.Progress

/-! The next token, with newlines passed over where they do not count. Each of them takes a byte away
from what is unread, so the loop comes to an end. -/
namespace Lexing

/-- Whether a token was found, and one that meets a condition. -/
def answerMeets (p : Token → Bool) : Except Fault Token → Bool
  | .ok t => p t
  | .error _ => false

def Scanned.isNewline (r : Scanned) : Bool := answerMeets Token.isNewline r.answer

theorem exists_token_of_meets {p : Token → Bool} {answer : Except Fault Token}
    (meets : answerMeets p answer = true) : ∃ t, answer = .ok t ∧ p t = true := by
  cases answer with
  | error f => cases meets
  | ok t => exact ⟨t, rfl, meets⟩

theorem unread_scan_lt_of_isNewline {c : Cursor} (h : c.scan.isNewline = true) :
    c.scan.cursor.unread < c.unread := by
  obtain ⟨t, found, newline⟩ := exists_token_of_meets h
  exact Cursor.unread_scan_lt found (Token.hasMore_of_isNewline newline)

/-- Scans the next token, newlines passed over if they are to be ignored. -/
def Cursor.nextToken (c : Cursor) (ignoreNewline : Bool) : Scanned :=
  let r := c.scan
  if _ : ignoreNewline ∧ r.isNewline then r.cursor.nextToken ignoreNewline else r
termination_by c.unread
decreasing_by
  rename_i newline
  exact unread_scan_lt_of_isNewline newline.2

theorem Cursor.unread_nextToken_le (c : Cursor) (ignoreNewline : Bool) :
    (c.nextToken ignoreNewline).cursor.unread ≤ c.unread := by
  fun_induction Cursor.nextToken c ignoreNewline with
  | case1 c _ _ ih => exact Nat.le_trans ih c.unread_scan_le
  | case2 c _ _ => exact c.unread_scan_le

theorem Cursor.unread_nextToken_lt {c : Cursor} {ignoreNewline : Bool} {t : Token}
    (found : (c.nextToken ignoreNewline).answer = .ok t) (more : t.hasMore = true) :
    (c.nextToken ignoreNewline).cursor.unread < c.unread := by
  rw [Cursor.nextToken] at found ⊢
  split
  · rename_i newline
    exact Nat.lt_of_le_of_lt (Cursor.unread_nextToken_le _ _)
      (unread_scan_lt_of_isNewline newline.2)
  · rename_i other
    rw [dif_neg other] at found
    exact Cursor.unread_scan_lt found more

end Lexing
