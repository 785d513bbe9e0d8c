import Lexing.Proofs.Consumption

/-! Exact arithmetic. What each operation of a cursor adds up and cuts out is listed here, down to the
last byte that a loop passes. Wherever a session comes to all of it is exact: no sum that goes into a
position wraps around or is held at the largest number, and no range leaves the source. Only the sum
that looks for the end of a move can be held, and then the source ends before it. -/
namespace Lexing

/-- The sum fits into a word. -/
def Exact (a b : UInt32) : Prop := (a + b).toNat = a.toNat + b.toNat

namespace Source

structure Cuts (s : Source) (start stop : Nat) : Prop where
  ordered : start ≤ stop
  inside : stop ≤ s.limit

/-- To find a line, the source is cut at an offset and where the line starts and stops. -/
structure CutsLine (s : Source) (i : Nat) : Prop where
  before : s.Cuts (s.lineStart (min i s.limit)) (min i s.limit)
  behind : s.Cuts (min i s.limit) (s.lineStop (min i s.limit))

end Source

namespace Position

structure PastExact (tabWidth : UInt32) (p : Position) (b : UInt8) : Prop where
  offset : Exact p.offset 1
  line : b = Byte.lineFeed → Exact p.line 1
  column : b ≠ Byte.lineFeed → Exact p.column (columnWidth tabWidth b)

def RunExact (tabWidth : UInt32) (run : List UInt8) : Prop :=
  ∀ n, (runWidth tabWidth (run.take n)).toNat = width tabWidth (run.take n)

structure PastRunExact (tabWidth : UInt32) (p : Position) (run : List UInt8) : Prop where
  length : (UInt32.ofNat run.length).toNat = run.length
  lines : (UInt32.ofNat (run.count Byte.lineFeed)).toNat = run.count Byte.lineFeed
  offset : Exact p.offset (.ofNat run.length)
  line : Exact p.line (.ofNat (run.count Byte.lineFeed))
  broken : Byte.lineFeed ∈ run →
    RunExact tabWidth (lastLine run) ∧ Exact 1 (runWidth tabWidth (lastLine run))
  unbroken : Byte.lineFeed ∉ run → RunExact tabWidth run ∧ Exact p.column (runWidth tabWidth run)

end Position

namespace Cursor

def BumpExact (c : Cursor) : Prop := ∀ b, c.byte? = some b → c.pos.PastExact c.tabWidth b

/-- The bytes to pass are cut out first, and the offset moves by as many as there are. The sum that
looks for their end is the only one that may be held. It is exact as long as it fits into a word, and
leads to the limit otherwise. -/
structure AdvanceExact (c : Cursor) (n : UInt32) : Prop where
  sum : (heldSum c.pos.offset n).toNat = c.offset + n.toNat ↔ c.offset + n.toNat ≤ maxOffset
  held : maxOffset < c.offset + n.toNat → (heldSum c.pos.offset n).toNat = maxOffset
  reach : c.reach n = min (c.offset + n.toNat) c.source.limit
  cut : c.source.Cuts c.offset (c.reach n)
  run : c.pos.PastRunExact c.tabWidth (c.source.chunk c.offset (c.reach n))
  moved : (c.advance n).offset = c.reach n

inductive EatWhileExact (p : UInt8 → Bool) : Cursor → Prop where
  | stops {c} : (∀ b, c.byte? = some b → p b = false) → EatWhileExact p c
  | passes {c b} : c.byte? = some b → p b = true → c.BumpExact → EatWhileExact p c.bump →
      EatWhileExact p c

/-- All that is left is cut out, and no sum is held to pass what stands before a delimiter. -/
structure SkipExact (c : Cursor) : Prop where
  cut : c.source.Cuts c.offset c.source.limit
  sum : ∃ n : UInt32, c.skipToDelimiter.2 = c.advance n ∧ n.toNat ≤ c.unread ∧
    (heldSum c.pos.offset n).toNat = c.offset + n.toNat
  advance : ∀ n, c.AdvanceExact n

structure EatNumberExact (c : Cursor) : Prop where
  whole : c.EatWhileExact Byte.isDigit
  point : (c.eatWhile Byte.isDigit).byte? = some Byte.point →
    (c.eatWhile Byte.isDigit).BumpExact ∧
      (c.eatWhile Byte.isDigit).bump.EatWhileExact Byte.isDigit

inductive EatStringExact : Cursor → Prop where
  | stops {c} : c.SkipExact → c.skipToDelimiter.1 ≠ some Byte.backslash → EatStringExact c
  | escape {c} : c.SkipExact → c.skipToDelimiter.1 = some Byte.backslash →
      c.skipToDelimiter.2.BumpExact → c.skipToDelimiter.2.bump.BumpExact →
      EatStringExact c.skipToDelimiter.2.bump.bump → EatStringExact c

def LexemeExact (c stop : Cursor) : Prop := c.source.Cuts c.offset stop.offset

structure ScanWordExact (c : Cursor) : Prop where
  first : c.BumpExact
  part : c.bump.EatWhileExact Byte.isWordPart
  lexeme : c.LexemeExact (c.bump.eatWhile Byte.isWordPart)

structure ScanByteExact (c : Cursor) : Prop where
  first : c.BumpExact
  lexeme : c.LexemeExact c.bump

structure ScanNumberExact (c : Cursor) : Prop where
  number : c.EatNumberExact
  lexeme : c.LexemeExact c.eatNumber
  line : c.source.CutsLine c.eatNumber.offset

structure ScanStringExact (c : Cursor) : Prop where
  first : c.BumpExact
  inside : c.bump.EatStringExact
  last : c.bump.eatString.BumpExact
  text : c.bump.LexemeExact c.bump.eatString
  lexeme : c.LexemeExact c.bump.eatString.bump
  line : c.source.CutsLine c.offset

def ScanHereExact (c : Cursor) : Prop :=
  match c.byte? with
  | none => c.LexemeExact c
  | some b =>
    match Opening.ofByte b c.following? with
    | .string => c.ScanStringExact
    | .newline => c.ScanByteExact
    | .word => c.ScanWordExact
    | .number => c.ScanNumberExact
    | .symbol => c.ScanByteExact
    | .stray => c.source.CutsLine c.offset

structure ScanExact (c : Cursor) : Prop where
  blanks : c.EatWhileExact Byte.isBlank
  /-- The byte behind the next one is looked at. -/
  following : Exact c.eatBlanks.pos.offset 1
  here : c.eatBlanks.ScanHereExact

/-- Every scan that a call makes starts where `P` holds. -/
inductive EveryScan (P : Cursor → Prop) (ignoreNewline : Bool) : Cursor → Prop where
  | stops {c} : P c → ¬(ignoreNewline ∧ c.scan.isNewline) → EveryScan P ignoreNewline c
  | newline {c} : P c → ignoreNewline ∧ c.scan.isNewline →
      EveryScan P ignoreNewline c.scan.cursor → EveryScan P ignoreNewline c

/-- Every operation is exact from here, and so are all calls that follow on each other. -/
structure RunsExactly (c : Cursor) : Prop where
  bump : c.BumpExact
  advance : ∀ n, c.AdvanceExact n
  eatWhile : ∀ p, c.EatWhileExact p
  skipToDelimiter : c.SkipExact
  calls : ∀ flags ignoreNewline, (c.after flags).EveryScan ScanExact ignoreNewline
  remaining : c.source.Cuts c.offset c.source.limit
  line : ∀ i, c.source.CutsLine i

end Cursor

structure Span.LengthExact (sp : Span) : Prop where
  ordered : sp.start ≤ sp.stop
  length : sp.length.toNat = sp.stop.toNat - sp.start.toNat

def Refusal.spans : Refusal → List Span
  | mismatch m => [m.found.span]
  | fault _ | invalidNumber _ _ => []

def Reply.spans (r : Reply) : List Span := r.collect Refusal.spans fun t => [t.span]

structure Position.Within (n : Nat) (tabWidth : UInt32) (p : Position) : Prop where
  offset : p.offset.toNat ≤ n
  line : p.line.toNat ≤ 1 + p.offset.toNat
  column : p.column.toNat ≤ 1 + p.offset.toNat * max 1 tabWidth.toNat

theorem Cursor.unread_eatNumber_le (c : Cursor) : c.eatNumber.unread ≤ c.unread := by
  have whole := unread_eatWhile_le Byte.isDigit c
  unfold eatNumber
  dsimp only
  split
  · exact Nat.le_trans (unread_eatWhile_le _ _) (Nat.le_trans (unread_bump_le _) whole)
  · exact whole

theorem Cursor.EveryScan.of_invariant {P : Cursor → Prop} (H : Cursor → Prop)
    (guard : ∀ c, H c → P c) (step : ∀ c, H c → H c.scan.cursor) {c : Cursor} (held : H c)
    (ignoreNewline : Bool) : c.EveryScan P ignoreNewline := by
  fun_induction nextToken c ignoreNewline with
  | case1 c r newline ih => exact .newline (guard c held) newline (ih (step c held))
  | case2 c r other => exact .stops (guard c held) other

theorem exact_of_le {a b : UInt32} (small : a.toNat + b.toNat ≤ maxOffset) : Exact a b := by
  rw [Exact, UInt32.toNat_add]
  exact Nat.mod_eq_of_lt (Nat.lt_succ_of_le small)

theorem toNat_heldSum_eq_iff (a b : UInt32) :
    (heldSum a b).toNat = a.toNat + b.toNat ↔ a.toNat + b.toNat ≤ maxOffset := by
  rw [toNat_heldSum]
  omega

theorem Position.runExact_of_le {tabWidth : UInt32} {run : List UInt8}
    (room : run.length * max 1 tabWidth.toNat ≤ maxOffset) : RunExact tabWidth run := by
  intro n
  have narrow := width_le tabWidth (run.take n)
  have fewer := Nat.mul_le_mul_right (max 1 tabWidth.toNat) (List.take_prefix n run).length_le
  have small : width tabWidth (run.take n) ≤ maxOffset := by omega
  rw [runWidth_eq small]
  exact toNat_ofNat_of_le small

theorem Position.RunExact.toNat_le {tabWidth : UInt32} {run : List UInt8}
    (summed : RunExact tabWidth run) :
    (runWidth tabWidth run).toNat ≤ run.length * max 1 tabWidth.toNat := by
  have whole := summed run.length
  rw [List.take_length] at whole
  rw [whole]
  exact width_le tabWidth run

namespace Source

theorem lineStart_le (s : Source) (i : Nat) : s.lineStart i ≤ i := by
  induction i with
  | zero => exact Nat.le_refl 0
  | succ i ih =>
    rw [lineStart]
    split
    · exact Nat.le_refl _
    · exact Nat.le_succ_of_le ih

theorem cuts_lineStop {s : Source} {i : Nat} (inside : i ≤ s.limit) : s.Cuts i (s.lineStop i) := by
  rw [lineStop, find?_eq]
  cases found : (s.readable.drop i).findIdx? (· == Byte.lineFeed) with
  | none => exact ⟨inside, Nat.le_refl _⟩
  | some k =>
    have below := (List.findIdx?_eq_some_iff_findIdx_eq.mp found).1
    rw [List.length_drop, length_readable] at below
    refine ⟨Nat.le_add_left i k, ?_⟩
    change k + i ≤ s.limit
    omega

theorem cutsLine (s : Source) (i : Nat) : s.CutsLine i where
  before := ⟨s.lineStart_le _, Nat.min_le_right _ _⟩
  behind := cuts_lineStop (Nat.min_le_right _ _)

variable {υ : Type} {s : Source} {tabWidth : UInt32} {c d : Cursor}

theorem within_place (fits : s.InRange tabWidth) {i : Nat} (inside : i ≤ s.size) :
    (s.place tabWidth i).Within s.size tabWidth := by
  have short : (s.bytes.take i).length = i := length_take_bytes inside
  have last := Position.length_lastLine_le (s.bytes.take i)
  have narrow := Position.width_le tabWidth (Position.lastLine (s.bytes.take i))
  have feeds := List.count_le_length (a := Byte.lineFeed) (l := s.bytes.take i)
  rw [short] at last feeds
  have fewer := Nat.mul_le_mul_right (max 1 tabWidth.toNat) last
  constructor
  · rw [toNat_offset_place fits inside]
    exact inside
  · rw [toNat_line_place fits, toNat_offset_place fits inside]
    omega
  · rw [toNat_column_place fits, toNat_offset_place fits inside]
    omega

theorem Holds.source_eq (held : s.Holds tabWidth c) : c.source = s := by
  obtain ⟨i, -, rfl⟩ := held
  rfl

theorem Holds.within (fits : s.InRange tabWidth) (held : s.Holds tabWidth c) :
    c.pos.Within s.size tabWidth := by
  obtain ⟨i, inside, rfl⟩ := held
  exact within_place fits inside

theorem Holds.offset_le (fits : s.InRange tabWidth) (held : s.Holds tabWidth c) :
    c.offset ≤ c.source.limit := by
  rw [held.source_eq, fits.limit_eq]
  exact (held.within fits).offset

theorem Holds.cuts (fits : s.InRange tabWidth) (held : s.Holds tabWidth c)
    (held' : s.Holds tabWidth d) (forward : d.unread ≤ c.unread) :
    c.source.Cuts c.offset d.offset := by
  have first := held.offset_le fits
  have last := held'.offset_le fits
  rw [Cursor.unread, Cursor.unread, held.source_eq, held'.source_eq] at forward
  rw [held.source_eq] at first ⊢
  rw [held'.source_eq] at last
  exact ⟨by omega, last⟩

theorem exact_offset (fits : s.InRange tabWidth) (held : s.Holds tabWidth c) :
    Exact c.pos.offset 1 := by
  have small := fits.size_lt
  have bound := (held.within fits).offset
  refine exact_of_le ?_
  rw [UInt32.toNat_one]
  omega

theorem pastRunExact_place (fits : s.InRange tabWidth) {i : Nat} {run : List UInt8}
    (inside : i + run.length ≤ s.size) : (s.place tabWidth i).PastRunExact tabWidth run := by
  have start : i ≤ s.size := Nat.le_trans (Nat.le_add_right i run.length) inside
  have small := fits.size_lt
  have offset := toNat_offset_place fits start
  obtain ⟨-, line, column⟩ := within_place fits start
  have feeds := List.count_le_length (a := Byte.lineFeed) (l := run)
  have length : (UInt32.ofNat run.length).toNat = run.length := toNat_ofNat_of_le (by omega)
  have lines : (UInt32.ofNat (run.count Byte.lineFeed)).toNat = run.count Byte.lineFeed :=
    toNat_ofNat_of_le (by omega)
  -- The columns of the run fit in behind those before it, for both are bytes of the source.
  have room := Nat.mul_le_mul_right (max 1 tabWidth.toNat) inside
  have last := Nat.mul_le_mul_right (max 1 tabWidth.toNat) (Position.length_lastLine_le run)
  rw [offset] at line column
  rw [Nat.add_mul] at room
  unfold InRange at fits
  constructor
  · exact length
  · exact lines
  · refine exact_of_le ?_
    rw [offset, length]
    omega
  · refine exact_of_le ?_
    rw [lines]
    omega
  · intro _
    have summed : Position.RunExact tabWidth (Position.lastLine run) :=
      Position.runExact_of_le (by omega)
    have narrow := summed.toNat_le
    refine ⟨summed, exact_of_le ?_⟩
    rw [UInt32.toNat_one]
    omega
  · intro _
    have summed : Position.RunExact tabWidth run := Position.runExact_of_le (by omega)
    have narrow := summed.toNat_le
    exact ⟨summed, exact_of_le (by omega)⟩

theorem bumpExact (fits : s.InRange tabWidth) (held : s.Holds tabWidth c) : c.BumpExact := by
  intro b here
  have offset := exact_offset fits held
  obtain ⟨i, inside, rfl⟩ := held
  rw [byte?_cursorAt fits inside] at here
  have below := lt_size_of_getElem? here
  have small := fits.size_lt
  have narrow := Position.columnWidth_le tabWidth b
  have room := Nat.mul_le_mul_right (max 1 tabWidth.toNat) (Nat.succ_le_of_lt below)
  obtain ⟨-, line, column⟩ := within_place fits inside
  rw [toNat_offset_place fits inside] at line column
  rw [Nat.succ_mul] at room
  unfold InRange at fits
  refine ⟨offset, fun _ => exact_of_le ?_, fun _ => exact_of_le ?_⟩
  · rw [UInt32.toNat_one]
    change (s.place tabWidth i).line.toNat + 1 ≤ maxOffset
    omega
  · change (s.place tabWidth i).column.toNat + (Position.columnWidth tabWidth b).toNat ≤ maxOffset
    omega

theorem advanceExact (fits : s.InRange tabWidth) (held : s.Holds tabWidth c) (n : UInt32) :
    c.AdvanceExact n := by
  obtain ⟨i, inside, rfl⟩ := held
  have offset := offset_cursorAt fits inside
  have stop : (s.cursorAt tabWidth i).reach n = min (i + n.toNat) s.size := by
    rw [Cursor.reach_eq, offset, ← fits.limit_eq]
    rfl
  have cut : s.Cuts i ((s.cursorAt tabWidth i).reach n) := by
    rw [stop]
    exact ⟨by omega, by rw [fits.limit_eq]; exact Nat.min_le_right _ _⟩
  have length : (s.chunk i ((s.cursorAt tabWidth i).reach n)).length =
      (s.cursorAt tabWidth i).reach n - i := by
    rw [chunk_eq, List.length_take, List.length_drop, length_readable]
    have reach := cut.inside
    omega
  constructor
  case sum => exact toNat_heldSum_eq_iff _ n
  case held =>
    intro large
    rw [toNat_heldSum]
    exact Nat.min_eq_left (Nat.le_of_lt large)
  case reach => exact Cursor.reach_eq _ n
  case cut =>
    rw [offset]
    exact cut
  case run =>
    rw [offset]
    refine pastRunExact_place fits ?_
    have reach := cut.inside
    have ordered := cut.ordered
    have whole := s.limit_le_size
    change i + (s.chunk i ((s.cursorAt tabWidth i).reach n)).length ≤ s.size
    omega
  case moved =>
    rw [stop, advance_cursorAt fits inside]
    exact offset_cursorAt fits (Nat.min_le_right _ _)

theorem eatWhileExact (fits : s.InRange tabWidth) (p : UInt8 → Bool) (held : s.Holds tabWidth c) :
    c.EatWhileExact p := by
  fun_induction Cursor.eatWhile p c with
  | case1 c ended =>
    refine .stops fun b here => ?_
    rw [ended] at here
    cases here
  | case2 c b here sat ih => exact .passes here sat (bumpExact fits held) (ih (held.bump fits))
  | case3 c b here unsat =>
    refine .stops fun d found => ?_
    rw [here] at found
    cases found
    exact Bool.eq_false_iff.mpr unsat

theorem skipExact (fits : s.InRange tabWidth) (held : s.Holds tabWidth c) : c.SkipExact := by
  have inside := held.offset_le fits
  have small := c.source.limit_le_maxOffset
  have short : c.rest.findIdx Byte.isDelimiter ≤ c.source.limit - c.offset := by
    rw [← Cursor.unread, ← Cursor.length_rest]
    exact List.findIdx_le_length
  have count : (UInt32.ofNat (c.rest.findIdx Byte.isDelimiter)).toNat =
      c.rest.findIdx Byte.isDelimiter := toNat_ofNat_of_le (by omega)
  refine ⟨⟨inside, Nat.le_refl _⟩, ⟨_, congrArg Prod.snd c.skipToDelimiter_eq, ?_, ?_⟩,
    advanceExact fits held⟩
  · rw [count]
    exact short
  · refine (toNat_heldSum_eq_iff _ _).mpr ?_
    rw [count]
    change c.offset + _ ≤ maxOffset
    omega

theorem eatNumberExact (fits : s.InRange tabWidth) (held : s.Holds tabWidth c) :
    c.EatNumberExact := by
  have whole := held.eatWhile fits Byte.isDigit
  refine ⟨eatWhileExact fits _ held, fun _ => ⟨bumpExact fits whole, ?_⟩⟩
  exact eatWhileExact fits _ (whole.bump fits)

theorem Holds.eatNumber (fits : s.InRange tabWidth) (held : s.Holds tabWidth c) :
    s.Holds tabWidth c.eatNumber := by
  have whole := held.eatWhile fits Byte.isDigit
  unfold Cursor.eatNumber
  dsimp only
  split
  · exact (whole.bump fits).eatWhile fits _
  · exact whole

theorem eatStringExact (fits : s.InRange tabWidth) (held : s.Holds tabWidth c) :
    c.EatStringExact ∧ s.Holds tabWidth c.eatString := by
  have skip := skipExact fits held
  have skipped := held.skipToDelimiter fits
  fun_induction Cursor.eatString c with
  | case1 c stop found ih =>
    rw [found] at skipped
    -- The byte behind the backslash may be missing. The cursor is in place all the same.
    have escaped := (skipped.bump fits).bump fits
    obtain ⟨rest, last⟩ := ih escaped (skipExact fits escaped) (escaped.skipToDelimiter fits)
    refine ⟨.escape skip ?_ ?_ ?_ ?_, last⟩
    · rw [found]
    · rw [found]
      exact bumpExact fits skipped
    · rw [found]
      exact bumpExact fits (skipped.bump fits)
    · rw [found]
      exact rest
  | case2 c b stop found other =>
    rw [found] at skipped
    refine ⟨.stops skip ?_, skipped⟩
    rw [found]
    exact fun escape => other (Option.some.inj escape)
  | case3 c stop found =>
    rw [found] at skipped
    refine ⟨.stops skip ?_, skipped⟩
    rw [found]
    simp

theorem scanWordExact (fits : s.InRange tabWidth) (held : s.Holds tabWidth c) :
    c.ScanWordExact := by
  have behind := held.bump fits
  refine ⟨bumpExact fits held, eatWhileExact fits _ behind, ?_⟩
  refine held.cuts fits (behind.eatWhile fits _) ?_
  exact Nat.le_trans (Cursor.unread_eatWhile_le _ _) c.unread_bump_le

theorem scanByteExact (fits : s.InRange tabWidth) (held : s.Holds tabWidth c) :
    c.ScanByteExact :=
  ⟨bumpExact fits held, held.cuts fits (held.bump fits) c.unread_bump_le⟩

theorem scanNumberExact (fits : s.InRange tabWidth) (held : s.Holds tabWidth c) :
    c.ScanNumberExact := by
  refine ⟨eatNumberExact fits held, ?_, c.source.cutsLine _⟩
  exact held.cuts fits (held.eatNumber fits) c.unread_eatNumber_le

theorem scanStringExact (fits : s.InRange tabWidth) (held : s.Holds tabWidth c) :
    c.ScanStringExact := by
  have behind := held.bump fits
  obtain ⟨loop, stop⟩ := eatStringExact fits behind
  have inside := Cursor.unread_eatString_le c.bump
  have whole : c.bump.eatString.bump.unread ≤ c.unread :=
    Nat.le_trans (Cursor.unread_bump_le _) (Nat.le_trans inside c.unread_bump_le)
  exact ⟨bumpExact fits held, loop, bumpExact fits stop, behind.cuts fits stop inside,
    held.cuts fits (stop.bump fits) whole, c.source.cutsLine _⟩

theorem scanHereExact (fits : s.InRange tabWidth) (held : s.Holds tabWidth c) :
    c.ScanHereExact := by
  unfold Cursor.ScanHereExact
  cases c.byte? with
  | none => exact held.cuts fits held (Nat.le_refl _)
  | some b =>
    dsimp only
    cases Opening.ofByte b c.following? with
    | string => exact scanStringExact fits held
    | newline => exact scanByteExact fits held
    | word => exact scanWordExact fits held
    | number => exact scanNumberExact fits held
    | symbol => exact scanByteExact fits held
    | stray => exact c.source.cutsLine _

theorem scanExact (fits : s.InRange tabWidth) (held : s.Holds tabWidth c) : c.ScanExact := by
  have behind := held.eatWhile fits Byte.isBlank
  exact ⟨eatWhileExact fits _ held, exact_offset fits behind, scanHereExact fits behind⟩

theorem Holds.scan (fits : s.InRange tabWidth) (held : s.Holds tabWidth c) :
    s.Holds tabWidth c.scan.cursor := by
  have behind := (answers_nextToken fits held false).2
  rw [Cursor.nextToken] at behind
  exact behind

theorem Holds.after (fits : s.InRange tabWidth) (held : s.Holds tabWidth c) (flags : List Bool) :
    s.Holds tabWidth (c.after flags) :=
  Cursor.all_after (P := s.Holds tabWidth)
    (fun ignoreNewline own => (answers_nextToken fits own ignoreNewline).2) flags held

theorem runsExactly (fits : s.InRange tabWidth) (held : s.Holds tabWidth c) : c.RunsExactly where
  bump := bumpExact fits held
  advance := advanceExact fits held
  eatWhile p := eatWhileExact fits p held
  skipToDelimiter := skipExact fits held
  calls flags := by
    refine .of_invariant (s.Holds tabWidth) ?_ ?_ (held.after fits flags)
    · exact fun _ held => scanExact fits held
    · exact fun _ held => held.scan fits
  remaining := ⟨held.offset_le fits, Nat.le_refl _⟩
  line := c.source.cutsLine

theorem lengthExact_span {i n : Nat} (small : i + n ≤ maxOffset) :
    Span.LengthExact ⟨.ofNat i, .ofNat (i + n)⟩ := by
  have start : (UInt32.ofNat i).toNat = i := toNat_ofNat_of_le (by omega)
  have stop : (UInt32.ofNat (i + n)).toNat = i + n := toNat_ofNat_of_le small
  have ordered : UInt32.ofNat i ≤ UInt32.ofNat (i + n) := by
    rw [UInt32.le_iff_toNat_le, start, stop]
    exact Nat.le_add_right i n
  exact ⟨ordered, UInt32.toNat_sub_of_le _ _ ordered⟩

theorem invariant_spans (fits : s.InRange tabWidth) :
    Invariant (fun t => t.span.LengthExact) (fun _ => True) (s.Holds tabWidth) := by
  refine invariant_holds fits ?_ fun _ _ => trivial
  intro c ignoreNewline t held found
  have small := fits.size_lt
  obtain ⟨m, kind, n, -, reach, rfl⟩ := exists_tokenAt fits held found
  exact lengthExact_span (by omega)

end Source

theorem Refusal.Alike.spans {R : Span → Prop} {Q : Fault → Prop} {r r' : Refusal}
    (alike : r.Alike (Twin fun t => R t.span) (Twin Q) r') : ∀ sp ∈ r.spans, R sp := by
  cases alike with
  | fault own => exact List.forall_mem_nil R
  | mismatch own => exact List.forall_mem_singleton.mpr own.self
  | invalidNumber own => exact List.forall_mem_nil R

namespace Source

variable {υ : Type} {s : Source} {tabWidth : UInt32}

/-- Wherever a session comes to, its position is within bounds, every operation is exact from there,
and so are the lengths of all spans that it was given. -/
theorem exact_reached (fits : s.InRange tabWidth) (userData : υ) (steps : List Step) :
    let x := Session.reached s.text tabWidth userData steps
    x.lexer.cursor = ⟨s, tabWidth, x.lexer.position⟩ ∧ x.lexer.position.Within s.size tabWidth ∧
      x.lexer.cursor.RunsExactly ∧ ∀ r ∈ x.replies, ∀ sp ∈ r.spans, sp.LengthExact := by
  intro x
  have alike := (invariant_spans fits).reached holds_start userData steps
  have held : s.Holds tabWidth x.lexer.cursor := alike.cursor.self
  refine ⟨?_, held.within fits, runsExactly fits held, ?_⟩
  · obtain ⟨i, -, here⟩ := held
    rw [Lexer.position, here]
    rfl
  · intro r member
    refine (List.forall₂_same.mp alike.replies r member).collect ?_ ?_
    · exact fun x own => own.spans
    · exact fun t own => List.forall_mem_singleton.mpr own.self

/-- Tabs that take nearly all columns there are, passed at once by a count that goes too far. -/
theorem exact_three_tabs : (Source.mk "\t\t\t").InRange 1431655764 ∧
    let x := Session.reached "\t\t\t" 1431655764 () [.bump, .advance 4294967295, .call .requireNumber]
    x.lexer.position = ⟨3, 1, 4294967293⟩ ∧ x.lexer.position.Within 3 1431655764 ∧
      x.lexer.cursor.RunsExactly ∧ ∀ r ∈ x.replies, ∀ sp ∈ r.spans, sp.LengthExact := by
  have fits : (Source.mk "\t\t\t").InRange 1431655764 := by decide
  obtain ⟨-, within, runs, spans⟩ :=
    exact_reached fits () [.bump, .advance 4294967295, .call .requireNumber]
  exact ⟨fits, by decide +kernel, within, runs, spans⟩

/-- Behind the only byte there is, a move by as many bytes as a word can count looks for its end at a
sum that no word can hold. -/
theorem sum_held_behind_byte :
    let c := (Session.reached "a" 4 () [.bump]).lexer.cursor
    (Source.mk "a").InRange 4 ∧ c.offset = 1 ∧ heldSum c.pos.offset 4294967295 = 4294967295 ∧
      (heldSum c.pos.offset 4294967295).toNat ≠ c.offset + (4294967295 : UInt32).toNat := by
  decide +kernel

end Source

end Lexing
