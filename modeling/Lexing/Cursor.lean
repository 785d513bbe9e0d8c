import Lexing.Source

/-! A place in a source, with the operations that read there and move on. Every move goes forward
and none goes beyond the limit of the source. A byte is passed with `bump`; a run of bytes is
passed with `advance`, which counts its lines and columns in bulk. -/
namespace Lexing

structure Cursor where
  source : Source
  tabWidth : UInt32 := defaultTabWidth
  pos : Position := .start
deriving DecidableEq, Repr

namespace Cursor

def offset (c : Cursor) : Nat := c.pos.offset.toNat

/-- The bytes between the cursor and the limit. -/
def unread (c : Cursor) : Nat := c.source.limit - c.offset

def atEnd (c : Cursor) : Bool := c.source.limit ≤ c.offset

def byte? (c : Cursor) : Option UInt8 := c.source.byte? c.offset

/-- The byte after the one under the cursor. -/
def following? (c : Cursor) : Option UInt8 := c.source.byte? (c.offset + 1)

def char? (c : Cursor) : Option Char := c.source.charAt? c.offset

def sliceFrom (c : Cursor) (start : Nat) : String := c.source.slice start c.offset

def bump (c : Cursor) : Cursor :=
  match c.byte? with
  | some b => { c with pos := c.pos.past c.tabWidth b }
  | none => c

@[simp] theorem source_bump (c : Cursor) : c.bump.source = c.source := by
  unfold bump
  split <;> rfl

theorem offset_bump {c : Cursor} {b : UInt8} (h : c.byte? = some b) :
    c.bump.offset = c.offset + 1 := by
  have below : c.offset < c.source.limit := Source.lt_limit_of_byte? h
  have small := c.source.limit_le_maxOffset
  simp only [offset, maxOffset] at below small ⊢
  simp only [bump, h, Position.past]
  split <;> simp only [UInt32.toNat_add, UInt32.toNat_one] <;> omega

theorem unread_bump_lt {c : Cursor} {b : UInt8} (h : c.byte? = some b) :
    c.bump.unread < c.unread := by
  have below : c.offset < c.source.limit := Source.lt_limit_of_byte? h
  simp only [unread, source_bump, offset_bump h]
  omega

theorem unread_bump_le (c : Cursor) : c.bump.unread ≤ c.unread := by
  cases h : c.byte? with
  | none => simp [bump, h]
  | some b => exact Nat.le_of_lt (unread_bump_lt h)

def reach (c : Cursor) (n : UInt32) : Nat := min (heldSum c.pos.offset n).toNat c.source.limit

/-- A sum that is held lies beyond the limit, as the true one does. -/
theorem reach_eq (c : Cursor) (n : UInt32) :
    c.reach n = min (c.offset + n.toNat) c.source.limit := by
  have small := c.source.limit_le_maxOffset
  rw [reach, toNat_heldSum, offset]
  omega

def advance (c : Cursor) (n : UInt32) : Cursor :=
  let run := c.source.chunk c.offset (c.reach n)
  { c with pos := c.pos.pastRun c.tabWidth run }

theorem unread_advance_le (c : Cursor) (n : UInt32) : (c.advance n).unread ≤ c.unread := by
  have small := c.source.limit_le_maxOffset
  have word := c.pos.offset.toNat_lt
  have bound : (c.source.chunk c.offset (c.reach n)).length ≤ c.reach n - c.offset := by
    refine Nat.le_trans (List.length_filterMap_le _ _) ?_
    simp only [List.length_range', Nat.le_refl]
  simp only [unread, offset, advance, Position.pastRun, UInt32.toNat_add, UInt32.toNat_ofNat']
  rw [reach_eq] at bound ⊢
  simp only [offset] at bound ⊢
  generalize (c.source.chunk _ _).length = k at bound ⊢
  simp only [maxOffset] at small
  omega

def eatWhile (p : UInt8 → Bool) (c : Cursor) : Cursor :=
  match _ : c.byte? with
  | none => c
  | some b => if p b then eatWhile p c.bump else c
termination_by c.unread
decreasing_by exact unread_bump_lt (by assumption)

theorem unread_eatWhile_le (p : UInt8 → Bool) (c : Cursor) : (c.eatWhile p).unread ≤ c.unread := by
  fun_induction eatWhile p c with
  | case1 => exact Nat.le_refl _
  | case2 c b _ _ ih => exact Nat.le_trans ih (unread_bump_le c)
  | case3 => exact Nat.le_refl _

def eatBlanks (c : Cursor) : Cursor := c.eatWhile Byte.isBlank

/-- Passes plain string text up to the next quote or backslash and gives that byte, or passes all
that is left and gives nothing. -/
def skipToDelimiter (c : Cursor) : Option UInt8 × Cursor :=
  match c.source.find? Byte.isDelimiter c.offset with
  | some i =>
    let stop := c.advance (.ofNat (i - c.offset))
    (stop.byte?, stop)
  | none => (none, c.advance (.ofNat c.unread))

theorem byte?_skipToDelimiter {c c' : Cursor} {b : UInt8} (h : c.skipToDelimiter = (some b, c')) :
    c'.byte? = some b := by
  unfold skipToDelimiter at h
  split at h
  · obtain ⟨found, rfl⟩ := Prod.mk.inj h
    exact found
  · cases (Prod.mk.inj h).1

theorem unread_skipToDelimiter_le (c : Cursor) : c.skipToDelimiter.2.unread ≤ c.unread := by
  unfold skipToDelimiter
  split <;> exact unread_advance_le c _

def lineAt (c : Cursor) (i : UInt32) : Line := c.source.lineAt i.toNat

end Cursor

end Lexing
