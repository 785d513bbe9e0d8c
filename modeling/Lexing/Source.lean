import Lexing.Position

/-! A text addressed by the offsets of its bytes. Only the bytes below `limit` can be reached: a
text too long for 32 bits is read as far as its offsets go. -/
namespace Lexing

structure Source where
  text : String
deriving DecidableEq, Repr

structure Line where
  start : Nat
  text : String
deriving DecidableEq, Repr

namespace Source

def size (s : Source) : Nat := s.text.utf8ByteSize

def limit (s : Source) : Nat := min s.size maxOffset

theorem limit_le_size (s : Source) : s.limit ≤ s.size := Nat.min_le_left _ _

theorem limit_le_maxOffset (s : Source) : s.limit ≤ maxOffset := Nat.min_le_right _ _

def byte? (s : Source) (i : Nat) : Option UInt8 :=
  if h : i < s.limit then
    some (s.text.getUTF8Byte ⟨i⟩ (Nat.lt_of_lt_of_le h s.limit_le_size))
  else none

theorem lt_limit_of_byte? {s : Source} {i : Nat} {b : UInt8} (h : s.byte? i = some b) :
    i < s.limit := by
  by_cases below : i < s.limit
  · exact below
  · simp [byte?, below] at h

def chunk (s : Source) (start stop : Nat) : List UInt8 :=
  (List.range' start (stop - start)).filterMap s.byte?

def find? (s : Source) (p : UInt8 → Bool) (i : Nat) : Option Nat :=
  match h : s.byte? i with
  | none => none
  | some b => if p b then some i else s.find? p (i + 1)
termination_by s.limit - i
decreasing_by
  have := lt_limit_of_byte? h
  omega

/-- Whether a character starts at this offset, or the text ends there. -/
def IsBoundary (s : Source) (i : Nat) : Prop := String.Pos.Raw.IsValid s.text ⟨i⟩

instance (s : Source) (i : Nat) : Decidable (s.IsBoundary i) :=
  inferInstanceAs (Decidable (String.Pos.Raw.IsValid s.text ⟨i⟩))

def slice? (s : Source) (start stop : Nat) : Option String :=
  if h : start ≤ stop ∧ s.IsBoundary start ∧ s.IsBoundary stop then
    some (s.text.extract ⟨⟨start⟩, h.2.1⟩ ⟨⟨stop⟩, h.2.2⟩)
  else none

/-- The text from `start` up to `stop`, empty if either cuts a character. -/
def slice (s : Source) (start stop : Nat) : String := (s.slice? start stop).getD ""

/-- The character that starts at an offset, or nothing at the limit and inside a character. -/
def charAt? (s : Source) (i : Nat) : Option Char :=
  if i < s.limit then (s.text.pos? ⟨i⟩).bind String.Pos.get? else none

def lineStart (s : Source) : Nat → Nat
  | 0 => 0
  | i + 1 => if s.byte? i = some Byte.lineFeed then i + 1 else s.lineStart i

def lineStop (s : Source) (i : Nat) : Nat := (s.find? (· == Byte.lineFeed) i).getD s.limit

/-- The line that an offset lies on. A line feed belongs to the line that it ends, and a carriage
return before it is dropped. An offset beyond the limit lies on the last line. -/
def lineAt (s : Source) (i : Nat) : Line :=
  let start := s.lineStart (min i s.limit)
  let stop := s.lineStop (min i s.limit)
  if start < stop ∧ s.byte? (stop - 1) = some Byte.carriageReturn then
    ⟨start, s.slice start (stop - 1)⟩
  else ⟨start, s.slice start stop⟩

end Source

end Lexing
