import Lexing.Proofs.Exact
import Lexing.Proofs.Locating

/-! Slicing. To cut out a range that does not stand between characters gives nothing, and there is a
stand-in wherever nothing is given. What each operation cuts out is listed here, and the characters that it
looks up. Wherever calls lead to, no stand-in is ever taken. -/
namespace Lexing

namespace Source

def Slices (s : Source) (start stop : Nat) : Prop := ∃ text, s.slice? start stop = some text

structure SlicesLine (s : Source) (i : Nat) : Prop where
  whole : s.Slices (s.lineStart (min i s.limit)) (s.lineStop (min i s.limit))
  returned : s.lineStart (min i s.limit) < s.lineStop (min i s.limit) →
    s.byte? (s.lineStop (min i s.limit) - 1) = some Byte.carriageReturn →
    s.Slices (s.lineStart (min i s.limit)) (s.lineStop (min i s.limit) - 1)

end Source

structure Fault.SlicesIndent (f : Fault) : Prop where
  ordered : f.line.start ≤ f.pos.offset.toNat
  indent : (Source.mk f.line.text).Slices 0 (f.pos.offset.toNat - f.line.start)

namespace Cursor

def SlicesLexeme (c stop : Cursor) : Prop := stop.source.Slices c.offset stop.offset

structure ScanNumberSlices (c : Cursor) : Prop where
  lexeme : c.SlicesLexeme c.eatNumber
  line : c.source.SlicesLine c.eatNumber.offset

structure ScanStringSlices (c : Cursor) : Prop where
  text : c.bump.SlicesLexeme c.bump.eatString
  lexeme : c.SlicesLexeme c.bump.eatString.bump
  line : c.source.SlicesLine c.offset

/-- A stray character is looked up, and not made of its first byte. -/
structure ScanStraySlices (c : Cursor) : Prop where
  found : ∃ d, c.char? = some d
  line : c.source.SlicesLine c.offset

def ScanHereSlices (c : Cursor) : Prop :=
  match c.byte? with
  | none => c.SlicesLexeme c
  | some b =>
    match Opening.ofByte b c.following? with
    | .string => c.ScanStringSlices
    | .newline => c.SlicesLexeme c ∧ c.SlicesLexeme c.bump
    | .word => c.SlicesLexeme (c.bump.eatWhile Byte.isWordPart)
    | .number => c.ScanNumberSlices
    | .symbol => c.SlicesLexeme c.bump
    | .stray => c.ScanStraySlices

def ScanSlices (c : Cursor) : Prop := c.eatBlanks.ScanHereSlices

/-- The cursor stands between two characters, and whatever is cut out next does so too. -/
structure Parts (c : Cursor) : Prop where
  boundary : c.source.IsBoundary c.offset
  remaining : c.source.Slices c.offset c.source.limit
  next : ∀ ignoreNewline, c.EveryScan ScanSlices ignoreNewline
  fault : ∀ ignoreNewline f, (c.nextToken ignoreNewline).answer = .error f → f.SlicesIndent

end Cursor

namespace Source

section Lines

variable {s : Source}

theorem slices_of_isBoundary {i j : Nat} (ordered : i ≤ j) (first : s.IsBoundary i)
    (second : s.IsBoundary j) : s.Slices i j :=
  ⟨_, slice?_of_isBoundary ordered first second⟩

theorem isBoundary_of_byte? {i : Nat} {b : UInt8} (ascii : b.toNat < 0x80)
    (here : s.byte? i = some b) : s.IsBoundary i ∧ s.IsBoundary (i + 1) := by
  have below := lt_limit_of_byte? here
  have found : s.bytes[i]? = some b := by
    rw [byte?_eq, readable, List.getElem?_take_of_lt below] at here
    exact here
  obtain ⟨front, rest, text, rfl⟩ := exists_front_of_ascii ascii found
  refine ⟨isBoundary_iff_front.mpr ⟨front, _, text, rfl⟩, isBoundary_iff_front.mpr ?_⟩
  refine ⟨front ++ [.ofNat b.toNat], rest, by simp [text], ?_⟩
  rw [encoded_append, encoded_singleton, encodeChar_ofNat ascii]
  simp

theorem byte?_of_lineStart {i k : Nat} (start : s.lineStart i = k + 1) :
    s.byte? k = some Byte.lineFeed := by
  induction i with
  | zero => cases start
  | succ i ih =>
    rw [lineStart] at start
    split at start
    · rename_i feed
      cases start
      exact feed
    · exact ih start

theorem isBoundary_lineStart (i : Nat) : s.IsBoundary (s.lineStart i) := by
  cases start : s.lineStart i with
  | zero => exact isBoundary_zero
  | succ k => exact (isBoundary_of_byte? (by decide) (byte?_of_lineStart start)).2

theorem byte?_of_find? {p : UInt8 → Bool} {i j : Nat} (found : s.find? p i = some j) :
    ∃ b, s.byte? j = some b ∧ p b = true := by
  fun_induction find? s p i with
  | case1 i ended => cases found
  | case2 i b here sat =>
    cases found
    exact ⟨b, here, sat⟩
  | case3 i b here unsat ih => exact ih found

theorem lineStop_cases (i : Nat) :
    s.lineStop i = s.limit ∨ s.byte? (s.lineStop i) = some Byte.lineFeed := by
  rw [lineStop]
  cases found : s.find? (· == Byte.lineFeed) i with
  | none => exact .inl rfl
  | some j =>
    obtain ⟨b, here, feed⟩ := byte?_of_find? found
    rw [beq_iff_eq] at feed
    subst feed
    exact .inr here

theorem isBoundary_lineStop (edge : s.IsBoundary s.limit) (i : Nat) :
    s.IsBoundary (s.lineStop i) := by
  rcases s.lineStop_cases i with all | feed
  · rw [all]
    exact edge
  · exact (isBoundary_of_byte? (by decide) feed).1

theorem slicesLine (edge : s.IsBoundary s.limit) (i : Nat) : s.SlicesLine i := by
  have start := s.isBoundary_lineStart (min i s.limit)
  obtain ⟨before, behind⟩ := s.cutsLine i
  constructor
  · apply slices_of_isBoundary _ start (isBoundary_lineStop edge _)
    exact Nat.le_trans before.ordered behind.ordered
  · intro some_byte returned
    apply slices_of_isBoundary _ start (isBoundary_of_byte? (by decide) returned).1
    omega

end Lines

variable {υ : Type} {s : Source} {tabWidth : UInt32} {c d : Cursor}

theorem Holds.slicesLexeme (fits : s.InRange tabWidth) (held : s.Holds tabWidth c)
    (whole : c.Whole) (held' : s.Holds tabWidth d) (whole' : d.Whole)
    (forward : d.unread ≤ c.unread) : c.SlicesLexeme d := by
  rw [Cursor.SlicesLexeme, held'.source_eq]
  apply slices_of_isBoundary (held.cuts fits held' forward).ordered
  · exact held.isBoundary fits whole
  · exact held'.isBoundary fits whole'

theorem Holds.slicesLine (fits : s.InRange tabWidth) (held : s.Holds tabWidth c) (i : Nat) :
    c.source.SlicesLine i := by
  rw [held.source_eq]
  exact s.slicesLine (isBoundary_limit fits) i

theorem scanNumberSlices (fits : s.InRange tabWidth) (held : s.Holds tabWidth c)
    (whole : c.Whole) : c.ScanNumberSlices where
  lexeme := held.slicesLexeme fits whole (held.eatNumber fits) whole.eatNumber c.unread_eatNumber_le
  line := held.slicesLine fits _

theorem scanStringSlices (fits : s.InRange tabWidth) (held : s.Holds tabWidth c)
    (whole : c.Whole) (inside : c.bump.Whole) : c.ScanStringSlices := by
  have behind := held.bump fits
  have stop := (eatStringExact fits behind).2
  have passed := Cursor.unread_eatString_le c.bump
  refine ⟨?_, ?_, held.slicesLine fits _⟩
  · exact behind.slicesLexeme fits inside stop inside.eatString passed
  · apply held.slicesLexeme fits whole (stop.bump fits) inside.bump_eatString
    exact Nat.le_trans (Cursor.unread_bump_le _) (Nat.le_trans passed c.unread_bump_le)

theorem scanStraySlices (fits : s.InRange tabWidth) (held : s.Holds tabWidth c)
    (whole : c.Whole) {b : UInt8} (here : c.byte? = some b) : c.ScanStraySlices := by
  refine ⟨?_, held.slicesLine fits _⟩
  have below : c.offset < c.source.limit := lt_limit_of_byte? here
  rw [held.source_eq, fits.limit_eq] at below
  obtain ⟨front, rest, text, same⟩ := (held.isBoundary fits whole).exists_stray below
  have found := charAt?_encoded text fits
  rw [← same, ← held.source_eq] at found
  exact ⟨_, found⟩

theorem scanHereSlices (fits : s.InRange tabWidth) (held : s.Holds tabWidth c)
    (whole : c.Whole) : c.ScanHereSlices := by
  have behind := held.bump fits
  have forward := c.unread_bump_le
  unfold Cursor.ScanHereSlices
  cases here : c.byte? with
  | none => exact held.slicesLexeme fits whole held whole (Nat.le_refl _)
  | some b =>
    dsimp only
    cases opens : Opening.ofByte b c.following? with
    | string =>
      exact scanStringSlices fits held whole (whole.bump_of_opens here opens (by decide))
    | newline =>
      have first := whole.bump_of_opens here opens (by decide)
      constructor
      · exact held.slicesLexeme fits whole held whole (Nat.le_refl _)
      · exact held.slicesLexeme fits whole behind first forward
    | word =>
      have first := whole.bump_of_opens here opens (by decide)
      apply held.slicesLexeme fits whole (behind.eatWhile fits _) first.scanWord
      exact Nat.le_trans (Cursor.unread_eatWhile_le _ _) forward
    | number => exact scanNumberSlices fits held whole
    | symbol =>
      have first := whole.bump_of_opens here opens (by decide)
      exact held.slicesLexeme fits whole behind first forward
    | stray => exact scanStraySlices fits held whole here

theorem scanSlices (fits : s.InRange tabWidth) (held : s.Holds tabWidth c) (whole : c.Whole) :
    c.ScanSlices :=
  scanHereSlices fits (held.eatWhile fits _) whole.eatBlanks

theorem slicesIndent (fits : s.InRange tabWidth) (held : s.Holds tabWidth c) (whole : c.Whole)
    {ignoreNewline : Bool} {f : Fault} (answer : (c.nextToken ignoreNewline).answer = .error f) :
    f.SlicesIndent := by
  have boundary := held.isBoundary fits whole
  obtain ⟨i, inside, rfl⟩ := held
  rw [offset_cursorAt fits inside] at boundary
  obtain ⟨front, rest, faults⟩ := exists_faultsAt fits boundary answer
  obtain ⟨n, before, after, locates⟩ := faults.exists_locates fits
  have start := locates.start
  have offset := locates.offset
  have width : f.pos.offset.toNat - f.line.start = (encoded before).length := by omega
  refine ⟨by omega, slices_of_isBoundary (Nat.zero_le _) isBoundary_zero ?_⟩
  rw [width]
  exact isBoundary_iff_front.mpr ⟨before, _, locates.parted, rfl⟩

theorem parts (fits : s.InRange tabWidth) (held : s.Holds tabWidth c) (whole : c.Whole) :
    c.Parts where
  boundary := by
    rw [held.source_eq]
    exact held.isBoundary fits whole
  remaining := by
    have reach := held.offset_le fits
    rw [held.source_eq] at reach ⊢
    exact slices_of_isBoundary reach (held.isBoundary fits whole) (isBoundary_limit fits)
  next := by
    refine .of_invariant (fun c => s.Holds tabWidth c ∧ c.Whole) ?_ ?_ ⟨held, whole⟩
    · exact fun _ here => scanSlices fits here.1 here.2
    · exact fun _ here => ⟨here.1.scan fits, here.2.scan⟩
  fault _ _ answer := slicesIndent fits held whole answer

/-- Wherever a session comes to that moves no cursor by hand, it stands between two characters, and so it
does behind any further calls. Nothing that they cut out or look up is missing. -/
theorem parts_reached (fits : s.InRange tabWidth) (userData : υ) {steps : List Step}
    (asks : ∀ st ∈ steps, st.Asks) (flags : List Bool) :
    let c := (Session.reached s.text tabWidth userData steps).lexer.cursor
    c.source = s ∧ (c.after flags).Parts := by
  intro c
  have held : s.Holds tabWidth c := (keeps_reached fits userData steps).lexer
  have whole : c.Whole :=
    Session.whole_reached (isBoundary_limit fits) tabWidth userData asks
  exact ⟨held.source_eq, parts fits (held.after fits flags) (whole.after flags)⟩

/-- An escape takes the first byte of a character along, and the string is cut out all the same. The
character behind it is a stray one. -/
theorem parts_escape :
    let s : Source := ⟨"\"\\é\"é"⟩
    let inside := (Cursor.mk s 4 .start).bump.skipToDelimiter.2.bump.bump
    let c := (Session.reached s.text 4 () [.scan false, .call .requireString]).lexer.cursor
    let f : Fault := ⟨.strayCharacter 'é', ⟨5, 1, 5⟩, ⟨0, "\"\\é\"é"⟩⟩
    s.InRange 4 ∧ ¬ s.IsBoundary inside.offset ∧ c.offset = 5 ∧
      (c.after [false, true]).Parts ∧ (c.nextToken true).answer = .error f ∧ f.SlicesIndent := by
  intro s inside c f
  have fits : s.InRange 4 := by decide
  have asks : ∀ st ∈ [Step.scan false, .call .requireString], st.Asks := by
    simp [Step.Asks]
  have answer : (c.nextToken true).answer = .error f := by decide +kernel
  obtain ⟨-, behind⟩ := parts_reached fits () asks [false, true]
  obtain ⟨-, here⟩ := parts_reached fits () asks []
  exact ⟨fits, by decide +kernel, by decide +kernel, behind, answer, here.fault true f answer⟩

end Source

end Lexing
