import Lexing.Proofs.Course
import Lexing.Proofs.Standing

/-! Passing over newlines. Of the blanks and line feeds ahead, what is passed over goes up to the last
line feed. It is counted, and then a call finds what it would have found if it had ignored newlines
in the first place, a fault or a token. -/
namespace Lexing

/-- A run of blanks and line feeds, parted right behind its last line feed. -/
structure Broken (run front back : List UInt8) : Prop where
  parted : run = front ++ back
  ends : ∀ b, front.getLast? = some b → b = Byte.lineFeed
  unbroken : Byte.lineFeed ∉ back

namespace Broken

theorem of_not_mem {run : List UInt8} (unbroken : Byte.lineFeed ∉ run) : Broken run [] run where
  parted := rfl
  ends b last := by cases last
  unbroken := unbroken

theorem cons {run front back : List UInt8} (broken : Broken run front back) (blanks : List UInt8) :
    Broken (blanks ++ Byte.lineFeed :: run) (blanks ++ Byte.lineFeed :: front) back where
  parted := by simp [broken.parted]
  ends b last := by
    have behind := broken.ends b
    cases front with
    | nil => simpa using last.symm
    | cons x front => exact behind (by simpa using last)
  unbroken := broken.unbroken

theorem eq_nil {run front back : List UInt8} (broken : Broken run front back)
    (none_counted : run.count Byte.lineFeed = 0) : front = [] := by
  cases last : front.getLast? with
  | none => exact List.getLast?_eq_none_iff.mp last
  | some b =>
    have feed := broken.ends b last
    subst feed
    have member : Byte.lineFeed ∈ run := by
      rw [broken.parted]
      exact List.mem_append_left _ (List.mem_of_getLast? last)
    exact absurd member (List.count_eq_zero.mp none_counted)

end Broken

theorem Byte.isSkipped_of_isBlank {b : UInt8} (blank : isBlank b = true) :
    isSkipped true b = true := by
  simp [isSkipped, blank]

theorem lineFeed_not_mem_blanks {blanks : List UInt8}
    (all : ∀ b ∈ blanks, Byte.isBlank b = true) : Byte.lineFeed ∉ blanks := by
  intro member
  cases all _ member

theorem takeWhile_skipped_lineFeed {blanks : List UInt8}
    (all : ∀ b ∈ blanks, Byte.isBlank b = true) (rest : List UInt8) :
    (blanks ++ Byte.lineFeed :: rest).takeWhile (Byte.isSkipped true) =
      blanks ++ Byte.lineFeed :: rest.takeWhile (Byte.isSkipped true) := by
  have skipped := fun b member => Byte.isSkipped_of_isBlank (all b member)
  rw [List.takeWhile_append_of_pos skipped, List.takeWhile_cons_of_pos rfl]

theorem takeWhile_skipped_other {blanks rest : List UInt8}
    (all : ∀ b ∈ blanks, Byte.isBlank b = true) (stops : Stops Byte.isBlank rest)
    (other : rest.head? ≠ some Byte.lineFeed) :
    (blanks ++ rest).takeWhile (Byte.isSkipped true) = blanks := by
  refine Stops.takeWhile_eq (fun b member => Byte.isSkipped_of_isBlank (all b member)) ?_
  intro b here
  have feed : b ≠ Byte.lineFeed := by
    rintro rfl
    exact other here
  simp [Byte.isSkipped, stops b here, feed]

theorem Token.hasKind_newline (t : Token) : t.hasKind .newline = t.isNewline := by
  rw [hasKind, ← isNewline]
  cases newline : t.isNewline with
  | false => exact Bool.and_false _
  | true => rw [hasMore_of_isNewline newline, Bool.true_and]

variable {υ : Type}

namespace Lexer

theorem isNextKind_newline (l : Lexer υ) :
    l.isNextKind .newline = (l.peek false).map Token.isNewline := by
  unfold isNextKind
  cases l.peek false with
  | error f => rfl
  | ok t => exact congrArg Except.ok t.hasKind_newline

theorem isNextKind_newline_iff (l : Lexer υ) :
    l.isNextKind .newline = .ok true ↔ (l.cursor.nextToken false).isNewline = true := by
  rw [isNextKind_newline]
  unfold peek Scanned.isNewline
  cases (l.cursor.nextToken false).answer with
  | error f => simp [Except.map, answerMeets]
  | ok t => simp [Except.map, answerMeets]

theorem nextToken_behind_newline {l : Lexer υ} (found : l.isNextKind .newline = .ok true) :
    (l.nextToken false).lexer.nextToken true = l.nextToken true := by
  have newline := l.isNextKind_newline_iff.mp found
  have same := l.cursor.nextToken_eq true
  rw [newline] at same
  simp only [nextToken]
  rw [same]
  rfl

theorem nextToken_no_newline {l : Lexer υ} (other : l.isNextKind .newline ≠ .ok true) :
    l.nextToken false = l.nextToken true := by
  have stays : (l.cursor.nextToken false).isNewline = false :=
    Bool.eq_false_iff.mpr fun newline => other (l.isNextKind_newline_iff.mpr newline)
  have same := l.cursor.nextToken_eq true
  rw [stays] at same
  simp only [nextToken]
  rw [same]
  rfl

theorem skipNewlines_go_stops (l : Lexer υ) (count : Nat) (events : Array Event) :
    let o := skipNewlines.go l count events
    o.lexer.isNextKind .newline = o.answer.map (fun _ => false) ∧
      o.lexer.nextToken false = l.nextToken true := by
  intro o
  fun_induction skipNewlines.go l count events with
  | case1 l count events f found =>
    exact ⟨found, nextToken_no_newline (by rw [found]; exact nofun)⟩
  | case2 l count events found =>
    exact ⟨found, nextToken_no_newline (by rw [found]; exact nofun)⟩
  | case3 l count events found o f failed =>
    obtain ⟨t, answer⟩ := answer_of_isNextKind found
    cases answer.symm.trans failed
  | case4 l count events found o t answered ih =>
    obtain ⟨stands, behind⟩ := ih
    exact ⟨stands, behind.trans (nextToken_behind_newline found)⟩

theorem skipNewlines_twice (l : Lexer υ) :
    l.skipNewlines.lexer.skipNewlines =
      ⟨l.skipNewlines.answer.map fun _ => 0, l.skipNewlines.lexer, []⟩ := by
  obtain ⟨stands, -⟩ := skipNewlines_go_stops l 0 #[]
  change l.skipNewlines.lexer.isNextKind .newline = l.skipNewlines.answer.map _ at stands
  cases answer : l.skipNewlines.answer with
  | error f =>
    rw [answer] at stands
    exact skipNewlines_go_of_fault stands 0 #[]
  | ok n =>
    rw [answer] at stands
    exact skipNewlines_go_of_other stands 0 #[]

end Lexer

theorem answer_of_found {α : Type} {p : α → Bool} {ahead : Except Fault α}
    {answer : Except Fault Nat} {m : Nat} (found : ahead.map p = answer.map fun _ => false)
    (counted : ∀ n, answer = .ok n → n = m) : answer = ahead.map fun _ => m := by
  cases answer with
  | error f =>
    cases ahead with
    | error g => exact congrArg Except.error (Except.error.inj found).symm
    | ok a => cases found
  | ok n =>
    cases ahead with
    | error g => cases found
    | ok a => exact congrArg Except.ok (counted n rfl)

namespace Source

variable {s : Source} {tabWidth : UInt32}

def runAhead (s : Source) (i : Nat) : List UInt8 :=
  (s.bytes.drop i).takeWhile (Byte.isSkipped true)

theorem runAhead_cases (fits : s.InRange tabWidth) {i : Nat} (inside : i ≤ s.size) {l : Lexer υ}
    (stands : l.cursor = s.cursorAt tabWidth i) :
    (l.isNextKind .newline = .ok true ∧ ∃ blanks, (∀ b ∈ blanks, Byte.isBlank b = true) ∧
      i + blanks.length + 1 ≤ s.size ∧
      s.runAhead i = blanks ++ Byte.lineFeed :: s.runAhead (i + blanks.length + 1) ∧
      (l.nextToken false).lexer = { l with cursor := s.cursorAt tabWidth (i + blanks.length + 1) }) ∨
    (l.isNextKind .newline ≠ .ok true ∧ Byte.lineFeed ∉ s.runAhead i) := by
  obtain ⟨blanks, rest, parted, all, stops⟩ := exists_run Byte.isBlank (s.bytes.drop i)
  have skipped : gap false (s.bytes.drop i) = blanks.length := by
    rw [gap, Byte.isSkipped_false, ← parted, stops.takeWhile_eq all]
  have call := nextToken_cursorAt fits inside false
  rw [skipped, ← stands] at call
  have newline : l.isNextKind .newline = .ok true ↔
      s.bytes[i + blanks.length]? = some Byte.lineFeed := by
    rw [l.isNextKind_newline_iff, call]
    exact isNewline_read
  have ahead : s.bytes.drop (i + blanks.length) = rest := by
    rw [← List.drop_drop, ← parted, List.drop_left]
  by_cases feed : s.bytes[i + blanks.length]? = some Byte.lineFeed
  · have next := drop_of_getElem? feed
    refine .inl ⟨newline.mpr feed, blanks, all, lt_size_of_getElem? feed, ?_, ?_⟩
    · rw [runAhead, runAhead, ← parted, ← ahead, next]
      exact takeWhile_skipped_lineFeed all _
    · simp only [Lexer.nextToken, call, read_newline feed]
  · have other : rest.head? ≠ some Byte.lineFeed := by
      rwa [← ahead, List.head?_drop]
    refine .inr ⟨fun found => feed (newline.mp found), ?_⟩
    rw [runAhead, ← parted, takeWhile_skipped_other all stops other]
    exact lineFeed_not_mem_blanks all

/-- The loop goes on behind the last line feed of the run ahead, and has counted all of them. -/
theorem skipNewlines_go_cursorAt (fits : s.InRange tabWidth) (l : Lexer υ) (count : Nat)
    (events : Array Event) {i : Nat} (inside : i ≤ s.size)
    (stands : l.cursor = s.cursorAt tabWidth i) :
    ∃ front back, Broken (s.runAhead i) front back ∧
      (Lexer.skipNewlines.go l count events).lexer =
        { l with cursor := s.cursorAt tabWidth (i + front.length) } ∧
      ∀ n, (Lexer.skipNewlines.go l count events).answer = .ok n →
        n = count + (s.runAhead i).count Byte.lineFeed := by
  induction unread : s.size - i using Nat.strongRecOn generalizing l count events i with
  | ind bytes ih =>
    -- A turn passes the blanks and one line feed, and what is left of the run is that of the next.
    rcases runAhead_cases fits inside stands with
      ⟨found, blanks, all, reach, run, behind⟩ | ⟨other, unbroken⟩
    · have next := Lexer.skipNewlines_go_of_newline found count events
      have cursor := congrArg Lexer.cursor behind
      obtain ⟨front, back, broken, lexer, counted⟩ := ih _ (by omega) _ (count + 1)
        (events ++ (l.nextToken false).events) reach cursor rfl
      refine ⟨blanks ++ Byte.lineFeed :: front, back, ?_, ?_, ?_⟩
      · rw [run]
        exact broken.cons blanks
      · rw [next, lexer, behind]
        simp only [List.length_append, List.length_cons]
        congr 2
        omega
      · intro n answer
        rw [next] at answer
        have whole := counted n answer
        have none_before := List.count_eq_zero.mpr (lineFeed_not_mem_blanks all)
        rw [run, List.count_append, List.count_cons_self, none_before]
        omega
    · have stays : l = { l with cursor := s.cursorAt tabWidth (i + ([] : List UInt8).length) } := by
        rw [List.length_nil, Nat.add_zero, ← stands]
      have none_counted := List.count_eq_zero.mpr unbroken
      refine ⟨[], s.runAhead i, .of_not_mem unbroken, ?_⟩
      cases found : l.isNextKind .newline with
      | error f =>
        rw [Lexer.skipNewlines_go_of_fault found]
        exact ⟨stays, nofun⟩
      | ok b =>
        have last : b = false := by
          cases b with
          | false => rfl
          | true => exact absurd found other
        subst last
        rw [Lexer.skipNewlines_go_of_other found, none_counted]
        exact ⟨stays, fun n answer => (Except.ok.inj answer).symm⟩

/-- In any state that a session comes to, passing over newlines leaves the lexer behind the last line
feed that blanks and line feeds lead to, and fails only for what stands behind them. -/
theorem newlines_reached (fits : s.InRange tabWidth) (userData : υ) (steps : List Step) :
    let l := (Session.reached s.text tabWidth userData steps).lexer
    let m := (s.runAhead l.cursor.offset).count Byte.lineFeed
    let o := l.skipNewlines
    (∃ front back, Broken (s.runAhead l.cursor.offset) front back ∧
      o.lexer = { l with cursor := s.cursorAt tabWidth (l.cursor.offset + front.length) }) ∧
    (m = 0 → o.lexer = l) ∧
    o.answer = (o.lexer.nextToken false).answer.map (fun _ => m) ∧
    o.lexer.skipNewlines = ⟨o.answer.map fun _ => 0, o.lexer, []⟩ ∧
    o.lexer.nextToken false = l.nextToken true := by
  intro l m o
  obtain ⟨i, inside, stands⟩ := (keeps_reached fits userData steps).lexer
  change l.cursor = _ at stands
  have offset : l.cursor.offset = i := by rw [stands, offset_cursorAt fits inside]
  obtain ⟨front, back, broken, lexer, counted⟩ :=
    skipNewlines_go_cursorAt fits l 0 #[] inside stands
  obtain ⟨found, behind⟩ := Lexer.skipNewlines_go_stops l 0 #[]
  rw [Lexer.isNextKind_newline] at found
  rw [← offset] at broken lexer counted
  refine ⟨⟨front, back, broken, lexer⟩, ?_, ?_, l.skipNewlines_twice, behind⟩
  · intro none_counted
    have unmoved := broken.eq_nil none_counted
    subst unmoved
    refine lexer.trans ?_
    rw [List.length_nil, Nat.add_zero, offset, ← stands]
  · refine answer_of_found found fun n answer => ?_
    exact (counted n answer).trans (Nat.zero_add m)

/-- Blanks before the line feeds are passed over, those behind them are not, and the stray character
there is met by both ways of going on. -/
theorem newlines_stray_character :
    let s : Source := ⟨"x \n\r\n\té"⟩
    let l := (Session.reached s.text 4 () [.call (.next false)]).lexer
    let m := (s.runAhead l.cursor.offset).count Byte.lineFeed
    let o := l.skipNewlines
    s.InRange 4 ∧ m = 2 ∧ o.lexer.cursor.offset = 5 ∧
      o.answer = (o.lexer.nextToken false).answer.map (fun _ => m) ∧
      o.answer.map (fun _ => 0) = .error ⟨.strayCharacter 'é', ⟨6, 3, 5⟩, ⟨5, "\té"⟩⟩ ∧
      o.lexer.nextToken false = l.nextToken true := by
  have fits : (Source.mk "x \n\r\n\té").InRange 4 := by decide
  obtain ⟨-, -, answer, -, next⟩ := newlines_reached fits () [.call (.next false)]
  exact ⟨fits, by decide +kernel, by decide +kernel, answer, by decide +kernel, next⟩

end Source

end Lexing
