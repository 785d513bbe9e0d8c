import Lexing.Proofs.Resuming

/-! Lookahead. What a call finds is known from the bytes that it passes and the one behind them. So
two texts that begin alike give the same tokens, as long as these end before the texts part. -/
namespace Lexing

namespace Reading

theorem stringLength_other {b : UInt8} (quote : b ≠ Byte.quote) (backslash : b ≠ Byte.backslash)
    (bs : List UInt8) : stringLength (b :: bs) = (stringLength bs).map (· + 1) := by
  refine stringLength_plain [b] bs (List.forall_mem_singleton.mpr ?_)
  simp [Byte.isDelimiter, quote, backslash]

theorem stringLength_closed {body bs : List UInt8}
    (closed : stringLength (body ++ Byte.quote :: bs) = some body.length) (bs' : List UInt8) :
    stringLength (body ++ Byte.quote :: bs') = some body.length := by
  induction body using List.twoStepInduction with
  | nil => exact stringLength_quote bs'
  | singleton b =>
    rw [List.singleton_append] at closed ⊢
    by_cases quote : b = Byte.quote
    · rw [quote, stringLength_quote] at closed
      cases closed
    · by_cases backslash : b = Byte.backslash
      · rw [backslash, stringLength_escape] at closed
        obtain ⟨n, -, length⟩ := Option.map_eq_some_iff.mp closed
        cases length
      · rw [stringLength_other quote backslash, stringLength_quote]
        rfl
  | cons_cons b b' body ih ih' =>
    rw [List.cons_append] at closed ⊢
    by_cases quote : b = Byte.quote
    · rw [quote, stringLength_quote] at closed
      cases closed
    · by_cases backslash : b = Byte.backslash
      · rw [backslash, List.cons_append, stringLength_escape] at closed ⊢
        obtain ⟨n, inner, length⟩ := Option.map_eq_some_iff.mp closed
        cases Nat.succ.inj (Nat.succ.inj length)
        rw [ih inner]
        rfl
      · rw [stringLength_other quote backslash] at closed ⊢
        obtain ⟨n, inner, length⟩ := Option.map_eq_some_iff.mp closed
        cases Nat.succ.inj length
        rw [ih' b' inner]
        rfl

theorem Begins.exists_next {bs : List UInt8} {r : Reading} (begun : Begins bs r)
    (short : r.length bs < bs.length) :
    ∃ passed b rest, bs = passed ++ b :: rest ∧ passed.length = r.length bs ∧
      ∀ rest', Begins (passed ++ b :: rest') r := by
  -- Every rule looks at one byte more than it passes, and at none behind that.
  cases begun with
  | endOfStream => exact absurd short (Nat.lt_irrefl 0)
  | @string body bs closed =>
    cases bs with
    | nil => simp [length] at short
    | cons b rest =>
      refine ⟨Byte.quote :: (body ++ [Byte.quote]), b, rest, by simp, by simp [length], ?_⟩
      intro rest'
      have begun := Begins.string (stringLength_closed closed (b :: rest'))
      rwa [List.cons_append, List.append_assoc]
  | unclosedString => exact absurd short (Nat.lt_irrefl _)
  | @newline bs =>
    cases bs with
    | nil => exact absurd short (Nat.lt_irrefl 1)
    | cons b rest => exact ⟨[Byte.lineFeed], b, rest, rfl, rfl, fun rest' => .newline⟩
  | @word d run bs start part stops =>
    cases bs with
    | nil => simp [length, Nat.add_comm] at short
    | cons b rest =>
      refine ⟨d :: run, b, rest, rfl, Nat.add_comm .., fun rest' => ?_⟩
      exact .word start part (.cons (stops b rfl))
  | @whole ds bs some_digit digits stops ended =>
    cases bs with
    | nil => simp [length] at short
    | cons b rest =>
      exact ⟨ds, b, rest, rfl, rfl, fun rest' =>
        .whole some_digit digits (.cons (stops b rfl)) (by simpa using ended)⟩
  | @pointed ds es bs some_digit digits places stops ended =>
    cases bs with
    | nil =>
      simp [length] at short
      omega
    | cons b rest =>
      refine ⟨ds ++ Byte.point :: es, b, rest, by simp, by simp [length]; omega, fun rest' => ?_⟩
      rw [List.append_assoc, List.cons_append]
      exact .pointed some_digit digits places (.cons (stops b rfl)) (by simpa using ended)
  | @secondPoint ds es bs some_digit digits places =>
    refine ⟨ds ++ Byte.point :: es, Byte.point, bs, by simp, by simp [length]; omega, ?_⟩
    intro rest'
    rw [List.append_assoc, List.cons_append]
    exact .secondPoint some_digit digits places
  | @symbol d bs symbol quote score stops =>
    cases bs with
    | nil => exact absurd short (Nat.lt_irrefl 1)
    | cons b rest =>
      exact ⟨[d], b, rest, rfl, rfl, fun rest' =>
        .symbol symbol quote score fun point => .cons (stops point b rfl)⟩
  | @strayCharacter b bs symbol part feed =>
    exact ⟨[], b, bs, rfl, rfl, fun rest' => .strayCharacter symbol part feed⟩

theorem Begins.of_front {as bs : List UInt8} {r : Reading} (begun : Begins (as ++ bs) r)
    (short : r.length (as ++ bs) < as.length) (bs' : List UInt8) : Begins (as ++ bs') r := by
  have inside : r.length (as ++ bs) < (as ++ bs).length := by
    rw [List.length_append]
    omega
  obtain ⟨passed, b, rest, parted, length, all⟩ := begun.exists_next inside
  have known : passed ++ [b] <+: as ++ bs := ⟨rest, by rw [parted, ← List.append_cons]⟩
  have few : (passed ++ [b]).length ≤ as.length := by
    rw [List.length_append, length]
    exact short
  obtain ⟨more, rfl⟩ := List.prefix_of_prefix_length_le known (List.prefix_append as bs) few
  have read := all (more ++ bs')
  rwa [List.append_cons, ← List.append_assoc] at read

end Reading

theorem gap_of_front {ignoreNewline : Bool} {as bs : List UInt8}
    (short : gap ignoreNewline (as ++ bs) < as.length) (bs' : List UInt8) :
    gap ignoreNewline (as ++ bs') = gap ignoreNewline (as ++ bs) := by
  have own : (as.takeWhile (Byte.isSkipped ignoreNewline)).length ≠ as.length := by
    intro all
    rw [gap, List.takeWhile_append, if_pos all, List.length_append] at short
    omega
  rw [gap, gap, List.takeWhile_append, List.takeWhile_append, if_neg own, if_neg own]

/-- The same token, or a fault of the same cause at the same place. The line that a fault shows may go
on otherwise. -/
inductive FoundAlike : Except Fault Token → Except Fault Token → Prop where
  | token {t} : FoundAlike (.ok t) (.ok t)
  | fault {f g} : g.cause = f.cause → g.pos = f.pos → FoundAlike (.error f) (.error g)

namespace Source

variable {s t a b b' : Source} {tabWidth : UInt32}

theorem stop_scanned {m : Nat} {r : Reading} (reach : m + r.length (s.bytes.drop m) ≤ s.size)
    {u : Token} (answer : (s.scanned tabWidth m r).answer = .ok u) :
    u.span.stop = (s.scanned tabWidth m r).cursor.pos.offset := by
  cases r with
  | token kind n =>
    cases answer
    exact (offset_pos_cursorAt reach).symm
  | unclosedString => cases answer
  | secondPoint n => cases answer
  | strayCharacter => cases answer

theorem pos_scanned {m : Nat} {r : Reading} {f : Fault}
    (answer : (s.scanned tabWidth m r).answer = .error f) (cause : f.cause ≠ .unclosedString) :
    f.pos = (s.scanned tabWidth m r).cursor.pos := by
  cases r with
  | token kind n => cases answer
  | unclosedString =>
    cases answer
    exact absurd rfl cause
  | secondPoint n =>
    cases answer
    rfl
  | strayCharacter =>
    cases answer
    rfl

theorem stop_nextToken (fits : s.InRange tabWidth) {i : Nat} (inside : i ≤ s.size)
    {ignoreNewline : Bool} {u : Token}
    (answer : ((s.cursorAt tabWidth i).nextToken ignoreNewline).answer = .ok u) :
    u.span.stop.toNat = ((s.cursorAt tabWidth i).nextToken ignoreNewline).cursor.offset := by
  obtain ⟨m, r, -, -, -, reach, call⟩ := exists_scanned fits inside ignoreNewline
  rw [call] at answer ⊢
  exact congrArg UInt32.toNat (stop_scanned reach answer)

theorem pos_nextToken (fits : s.InRange tabWidth) {i : Nat} (inside : i ≤ s.size)
    {ignoreNewline : Bool} {f : Fault}
    (answer : ((s.cursorAt tabWidth i).nextToken ignoreNewline).answer = .error f)
    (cause : f.cause ≠ .unclosedString) :
    f.pos.offset.toNat = ((s.cursorAt tabWidth i).nextToken ignoreNewline).cursor.offset := by
  obtain ⟨m, r, -, -, -, -, call⟩ := exists_scanned fits inside ignoreNewline
  rw [call] at answer ⊢
  exact congrArg (fun p => p.offset.toNat) (pos_scanned answer cause)

section Front

variable (parted : s.text = a.text ++ b.text)
include parted

theorem IsBoundary.of_front {i : Nat} (whole : s.IsBoundary i) (inside : i ≤ a.size) :
    a.IsBoundary i := by
  obtain ⟨-, cs, front⟩ := isBoundary_iff_take.mp whole
  have cut := cut_before (bytes_parted parted) (i := 0) (n := i) (by omega)
  rw [List.drop_zero, List.drop_zero] at cut
  exact isBoundary_iff_take.mpr ⟨inside, cs, cut.symm.trans front⟩

theorem strayAt_front {i : Nat} (whole : a.IsBoundary i) (below : i < a.size) :
    s.strayAt i = a.strayAt i := by
  obtain ⟨front, rest, text, rfl⟩ := whole.exists_stray below
  apply strayAt_encoded
  rw [parted, String.toList_append, text, List.append_assoc, List.cons_append]

end Front

section Fronts

variable (parted : s.text = a.text ++ b.text) (parted' : t.text = a.text ++ b'.text)
include parted parted'

theorem place_fronts {i : Nat} (inside : i ≤ a.size) :
    t.place tabWidth i = s.place tabWidth i := by
  rw [place_before (bytes_parted parted) inside, place_before (bytes_parted parted') inside]

/-- A reading that ends before the texts part is found in both. -/
theorem nextToken_fronts (fits : t.InRange tabWidth) {i m : Nat} {ignoreNewline : Bool}
    {r : Reading} (start : m = i + gap ignoreNewline (s.bytes.drop i))
    (begun : Reading.Begins (s.bytes.drop m) r) (early : m + r.length (s.bytes.drop m) < a.size) :
    (t.cursorAt tabWidth i).nextToken ignoreNewline = t.scanned tabWidth m r := by
  have bytes := bytes_parted parted
  have bytes' := bytes_parted parted'
  have size := size_parted parted'
  have rest := a.length_drop_bytes i
  have left := a.length_drop_bytes m
  have skipped : gap ignoreNewline (t.bytes.drop i) = gap ignoreNewline (s.bytes.drop i) := by
    rw [drop_before bytes (by omega)] at start ⊢
    rw [drop_before bytes' (by omega)]
    exact gap_of_front (by omega) b'.bytes
  have begun' : Reading.Begins (t.bytes.drop m) r := by
    rw [drop_before bytes (by omega)] at begun early
    rw [drop_before bytes' (by omega)]
    exact begun.of_front (by omega) b'.bytes
  rw [nextToken_cursorAt fits (by omega), skipped, ← start, read, begun'.ofBytes_eq]

theorem foundAlike_fronts {m : Nat} {r : Reading} (whole : s.IsBoundary m)
    (begun : Reading.Begins (s.bytes.drop m) r) (early : m + r.length (s.bytes.drop m) < a.size) :
    FoundAlike (s.scanned tabWidth m r).answer (t.scanned tabWidth m r).answer := by
  have bytes := bytes_parted parted
  have bytes' := bytes_parted parted'
  have size := size_parted parted
  cases r with
  | token kind n =>
    have more : 0 < n := by
      refine begun.length_pos ?_
      rintro rfl
      have ended := eq_size_of_drop (by omega) begun.eq_nil
      omega
    have same : t.tokenAt tabWidth kind m n = s.tokenAt tabWidth kind m n := by
      rw [tokenAt_before bytes kind more (Nat.le_of_lt early),
        tokenAt_before bytes' kind more (Nat.le_of_lt early)]
    rw [scanned, scanned, same]
    exact .token
  | unclosedString =>
    rw [Reading.length, length_drop_bytes] at early
    omega
  | secondPoint n => exact .fault rfl (place_fronts parted parted' (Nat.le_of_lt early))
  | strayCharacter =>
    have below : m < a.size := early
    have inner := whole.of_front parted (Nat.le_of_lt below)
    have found : t.strayAt m = s.strayAt m := by
      rw [strayAt_front parted inner below, strayAt_front parted' inner below]
    simp only [scanned, found]
    exact .fault rfl (place_fronts parted parted' (Nat.le_of_lt below))

theorem nextToken_alike (fits : s.InRange tabWidth) (fits' : t.InRange tabWidth) {i : Nat}
    (whole : s.IsBoundary i) {ignoreNewline : Bool}
    (early : ((s.cursorAt tabWidth i).nextToken ignoreNewline).cursor.offset < a.size) :
    FoundAlike ((s.cursorAt tabWidth i).nextToken ignoreNewline).answer
        ((t.cursorAt tabWidth i).nextToken ignoreNewline).answer ∧
      ∃ j, s.IsBoundary j ∧ j < a.size ∧
        ((s.cursorAt tabWidth i).nextToken ignoreNewline).cursor = s.cursorAt tabWidth j ∧
        ((t.cursorAt tabWidth i).nextToken ignoreNewline).cursor = t.cursorAt tabWidth j := by
  obtain ⟨m, r, start, skipped, begun, reach, call⟩ := exists_scanned fits whole.inside ignoreNewline
  have size := size_parted parted'
  have behind : s.IsBoundary m := start ▸ whole.gap ignoreNewline
  rw [call, cursor_scanned skipped, offset_cursorAt fits reach] at early
  have call' := nextToken_fronts parted parted' fits' start begun early
  rw [call, call']
  refine ⟨foundAlike_fronts parted parted' behind begun early, _, behind.reading begun, early,
    cursor_scanned skipped r, ?_⟩
  cases r with
  | token kind n => rfl
  | unclosedString =>
    have size := size_parted parted
    rw [Reading.length, length_drop_bytes] at early
    omega
  | secondPoint n => rfl
  | strayCharacter => rfl

theorem after_fronts (fits : s.InRange tabWidth) (fits' : t.InRange tabWidth) (flags : List Bool)
    {i : Nat} (whole : s.IsBoundary i) (inside : i ≤ a.size)
    (early : ∀ r ∈ (s.cursorAt tabWidth i).calls flags,
      ∃ u, r.answer = .ok u ∧ u.span.stop.toNat < a.size) :
    ((t.cursorAt tabWidth i).calls flags).map Scanned.answer =
        ((s.cursorAt tabWidth i).calls flags).map Scanned.answer ∧
      ∃ j, s.IsBoundary j ∧ j ≤ a.size ∧
        (s.cursorAt tabWidth i).after flags = s.cursorAt tabWidth j ∧
        (t.cursorAt tabWidth i).after flags = t.cursorAt tabWidth j := by
  induction flags generalizing i with
  | nil => exact ⟨rfl, i, whole, inside, rfl, rfl⟩
  | cons ignoreNewline flags ih =>
    obtain ⟨⟨u, answer, stop⟩, later⟩ := List.forall_mem_cons.mp early
    rw [stop_nextToken fits whole.inside answer] at stop
    obtain ⟨alike, j, behind, below, cursor, cursor'⟩ :=
      nextToken_alike parted parted' fits fits' whole stop
    rw [cursor] at later
    obtain ⟨answers, more⟩ := ih behind (Nat.le_of_lt below) later
    rw [answer] at alike
    rw [Cursor.calls, Cursor.calls, Cursor.after, Cursor.after, cursor, cursor']
    refine ⟨?_, more⟩
    rw [List.map_cons, List.map_cons, answers, answer]
    generalize ((t.cursorAt tabWidth i).nextToken ignoreNewline).answer = found at alike
    cases alike
    rfl

end Fronts

/-- What calls find of a text is known from a first part of it, as long as each token ends before the
last byte of that part: any other text that begins with it gives the same tokens, and then the same
fault if one is placed there. -/
theorem calls_of_same_front (p x y : String) {tabWidth : UInt32}
    (fits : (Source.mk (p ++ x)).InRange tabWidth) (fits' : (Source.mk (p ++ y)).InRange tabWidth)
    (flags : List Bool)
    (early : ∀ r ∈ Cursor.calls { source := ⟨p ++ x⟩, tabWidth := tabWidth } flags,
      ∃ t, r.answer = .ok t ∧ t.span.stop.toNat < p.utf8ByteSize) :
    let c : Cursor := { source := ⟨p ++ x⟩, tabWidth := tabWidth }
    let d : Cursor := { source := ⟨p ++ y⟩, tabWidth := tabWidth }
    (d.calls flags).map Scanned.answer = (c.calls flags).map Scanned.answer ∧
    (d.after flags).pos = (c.after flags).pos ∧
    ∀ ignoreNewline f, ((c.after flags).nextToken ignoreNewline).answer = .error f →
      f.cause ≠ .unclosedString → f.pos.offset.toNat < p.utf8ByteSize →
      ∃ g, ((d.after flags).nextToken ignoreNewline).answer = .error g ∧ g.cause = f.cause ∧
        g.pos = f.pos := by
  have parted : (Source.mk (p ++ x)).text = (Source.mk p).text ++ (Source.mk x).text := rfl
  have parted' : (Source.mk (p ++ y)).text = (Source.mk p).text ++ (Source.mk y).text := rfl
  have start : (Source.mk (p ++ x)).IsBoundary 0 := isBoundary_iff.mpr ⟨⟨""⟩, ⟨p ++ x⟩, by simp, rfl⟩
  rw [← cursorAt_zero] at early
  obtain ⟨answers, j, whole, inside, cursor, cursor'⟩ :=
    after_fronts parted parted' fits fits' flags start (Nat.zero_le _) early
  intro c d
  have first : c = (Source.mk (p ++ x)).cursorAt tabWidth 0 := cursorAt_zero.symm
  have second : d = (Source.mk (p ++ y)).cursorAt tabWidth 0 := cursorAt_zero.symm
  rw [first, second, cursor, cursor']
  refine ⟨answers, place_fronts parted parted' inside, ?_⟩
  intro ignoreNewline f answer cause early
  rw [pos_nextToken fits whole.inside answer cause] at early
  obtain ⟨alike, -⟩ := nextToken_alike parted parted' fits fits' whole early
  rw [answer] at alike
  generalize (Cursor.nextToken _ _).answer = found at alike
  cases alike with
  | fault cause pos => exact ⟨_, rfl, cause, pos⟩

/-- The second point is known whatever stands behind it, and so is all that comes before. -/
theorem calls_of_same_front_second_point :
    let found : List (Except Fault Token) :=
      [.ok ⟨.identifier, "a", ⟨0, 1⟩, .start⟩, .ok ⟨.number, ".5", ⟨1, 3⟩, ⟨1, 1, 2⟩⟩]
    let c : Cursor := { source := ⟨"a.5 1.." ++ "7"⟩, tabWidth := 4 }
    let d : Cursor := { source := ⟨"a.5 1.." ++ "\"é"⟩, tabWidth := 4 }
    c.source.InRange 4 ∧ d.source.InRange 4 ∧
      (c.calls [false, false]).map Scanned.answer = found ∧
      ((c.after [false, false]).nextToken false).answer =
        .error ⟨.secondPoint, ⟨6, 1, 7⟩, ⟨0, "a.5 1..7"⟩⟩ ∧
      (d.calls [false, false]).map Scanned.answer = found ∧
      ∃ g, ((d.after [false, false]).nextToken false).answer = .error g ∧
        g.cause = .secondPoint ∧ g.pos = ⟨6, 1, 7⟩ := by
  intro found c d
  have fits : c.source.InRange 4 := by decide
  have fits' : d.source.InRange 4 := by decide
  have tokens : (c.calls [false, false]).map Scanned.answer = found := by decide +kernel
  have fault : ((c.after [false, false]).nextToken false).answer =
      .error ⟨.secondPoint, ⟨6, 1, 7⟩, ⟨0, "a.5 1..7"⟩⟩ := by decide +kernel
  have early : ∀ r ∈ c.calls [false, false],
      ∃ t, r.answer = .ok t ∧ t.span.stop.toNat < "a.5 1..".utf8ByteSize := by
    intro r member
    have told : r.answer ∈ found := tokens ▸ List.mem_map_of_mem member
    rcases List.mem_cons.mp told with answer | told
    · exact ⟨_, answer, by decide⟩
    · exact ⟨_, List.mem_singleton.mp told, by decide⟩
  obtain ⟨same, -, behind⟩ := calls_of_same_front "a.5 1.." "7" "\"é" fits fits' _ early
  exact ⟨fits, fits', tokens, fault, same.trans tokens,
    behind false _ fault (by decide) (by decide)⟩

end Source

end Lexing
