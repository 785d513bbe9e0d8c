import Lexing.Byte

/-! Places in a text and ranges of it. Offsets count bytes from zero, lines and columns count from
one, all in 32 bits. A position moves over one byte by `past` and over a run of bytes by
`pastRun`. -/
namespace Lexing

/-- The largest number that an offset, a line or a column can hold. -/
def maxOffset : Nat := 4294967295

def defaultTabWidth : UInt32 := 4

/-- The sum of two numbers, held at the largest one. -/
def heldSum (a b : UInt32) : UInt32 := .ofNat (min maxOffset (a.toNat + b.toNat))

theorem toNat_heldSum (a b : UInt32) :
    (heldSum a b).toNat = min maxOffset (a.toNat + b.toNat) :=
  UInt32.toNat_ofNat_of_lt' (Nat.lt_succ_of_le (Nat.min_le_left maxOffset _))

structure Position where
  offset : UInt32 := 0
  line : UInt32 := 1
  column : UInt32 := 1
deriving DecidableEq, Repr

namespace Position

def start : Position := {}

instance : Inhabited Position := ⟨start⟩

instance : ToString Position := ⟨fun p => toString p.line ++ ":" ++ toString p.column⟩

/-- Columns that a byte other than a line feed takes: a longer character counts once, at its first
byte. -/
def columnWidth (tabWidth : UInt32) (b : UInt8) : UInt32 :=
  if b = Byte.tab then tabWidth else if Byte.isContinuation b then 0 else 1

def past (tabWidth : UInt32) (p : Position) (b : UInt8) : Position :=
  if b = Byte.lineFeed then ⟨p.offset + 1, p.line + 1, 1⟩
  else ⟨p.offset + 1, p.line, p.column + columnWidth tabWidth b⟩

def runWidth (tabWidth : UInt32) (run : List UInt8) : UInt32 :=
  .ofNat (min maxOffset (run.foldl (fun n b => n + (columnWidth tabWidth b).toNat) 0))

def lastLine (run : List UInt8) : List UInt8 :=
  (run.reverse.takeWhile (· != Byte.lineFeed)).reverse

/-- The place after a run of bytes. Lines are counted first, and columns only behind the last line
feed. -/
def pastRun (tabWidth : UInt32) (p : Position) (run : List UInt8) : Position where
  offset := p.offset + .ofNat run.length
  line := p.line + .ofNat (run.count Byte.lineFeed)
  column :=
    if Byte.lineFeed ∈ run then 1 + runWidth tabWidth (lastLine run)
    else p.column + runWidth tabWidth run

end Position

/-- The bytes from `start` up to, but not including, `stop`. -/
structure Span where
  start : UInt32 := 0
  stop : UInt32 := 0
deriving DecidableEq, Repr

namespace Span

instance : Inhabited Span := ⟨{}⟩

def length (s : Span) : UInt32 := s.stop - s.start

def isEmpty (s : Span) : Bool := s.start == s.stop

end Span

end Lexing
