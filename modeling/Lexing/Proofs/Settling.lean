import Lexing.Proofs.Consumption

/-! Settling. A call either takes the scanner forward or finds it settled: at the end, or at a
character that starts no lexeme. Settled, it gives the same answer for good. So every loop over
calls comes to an end, after no more of them than the bytes allow. -/
namespace Lexing

def Fault.isStray (f : Fault) : Bool :=
  match f.cause with
  | .strayCharacter _ => true
  | .unclosedString | .secondPoint => false

def Scanned.settled (r : Scanned) : Bool :=
  match r.answer with
  | .ok t => t.isEndOfStream
  | .error f => f.isStray

namespace Reading

def settled : Reading → Bool
  | token kind _ => kind == .endOfStream
  | strayCharacter => true
  | unclosedString | secondPoint _ => false

theorem Begins.length_pos_of_unsettled {bs : List UInt8} {r : Reading} (begun : Begins bs r)
    (unsettled : r.settled = false) : 0 < r.length bs := by
  cases r with
  | token kind n => exact begun.length_pos (by simpa [settled] using unsettled)
  | unclosedString =>
    cases begun
    exact Nat.succ_pos _
  | secondPoint n =>
    cases begun
    exact Nat.add_pos_left (Nat.succ_pos _) _
  | strayCharacter => cases unsettled

theorem Begins.length_of_settled {bs : List UInt8} {r : Reading} (begun : Begins bs r)
    (settled : r.settled = true) : r.length bs = 0 := by
  cases r with
  | token kind n =>
    have ended : kind = .endOfStream := by simpa [Reading.settled] using settled
    subst ended
    cases begun
    rfl
  | unclosedString => cases settled
  | secondPoint n => cases settled
  | strayCharacter => rfl

theorem Begins.head?_of_settled {bs : List UInt8} {r : Reading} (begun : Begins bs r)
    (settled : r.settled = true) : bs.head? ≠ some Byte.lineFeed := by
  cases begun with
  | endOfStream => simp
  | strayCharacter symbol part feed => simpa using feed
  | _ => cases settled

end Reading

namespace Cursor

theorem calls_of_again {r : Scanned} (again : ∀ b, r.cursor.nextToken b = r) (flags : List Bool) :
    r.cursor.calls flags = List.replicate flags.length r := by
  induction flags with
  | nil => rfl
  | cons ignoreNewline flags ih =>
    rw [calls, again, ih]
    rfl

/-- The loop of a call, given up after so many scans. -/
def nextTokenWithin (c : Cursor) (ignoreNewline : Bool) : Nat → Option Scanned
  | 0 => none
  | n + 1 =>
    let r := c.scan
    if ignoreNewline ∧ r.isNewline then r.cursor.nextTokenWithin ignoreNewline n else some r

theorem nextTokenWithin_eq {c : Cursor} {n : Nat} (enough : c.unread < n) (ignoreNewline : Bool) :
    c.nextTokenWithin ignoreNewline n = some (c.nextToken ignoreNewline) := by
  induction n generalizing c with
  | zero => exact absurd enough (Nat.not_lt_zero _)
  | succ n ih =>
    rw [nextTokenWithin, nextToken]
    by_cases ignored : ignoreNewline ∧ c.scan.isNewline
    · have less := unread_scan_lt_of_isNewline ignored.2
      rw [dif_pos ignored, if_pos ignored, ih (by omega)]
    · rw [dif_neg ignored, if_neg ignored]

end Cursor

namespace Source

variable {υ : Type} {s : Source} {tabWidth : UInt32}

theorem settled_scanned {i : Nat} {r : Reading} : (s.scanned tabWidth i r).settled = r.settled := by
  cases r <;> rfl

/-- What a call has to come to: it gets on, with an open string to the end, or it has settled. -/
structure Proceeds (s : Source) (c : Cursor) (r : Scanned) : Prop where
  forward : r.settled = false → c.offset < r.cursor.offset
  unclosed : ∀ f, r.answer = .error f → f.cause = .unclosedString → r.cursor.offset = s.size
  fixed : r.settled = true → ∀ flags, r.cursor.calls flags = List.replicate flags.length r

theorem scanned_again (fits : s.InRange tabWidth) {m : Nat} (inside : m ≤ s.size) {r : Reading}
    (begun : Reading.Begins (s.bytes.drop m) r) (settled : r.settled = true)
    (stands : gap true (s.bytes.drop m) = 0) (ignoreNewline : Bool) :
    (s.scanned tabWidth m r).cursor.nextToken ignoreNewline = s.scanned tabWidth m r := by
  have none_skipped : gap ignoreNewline (s.bytes.drop m) = 0 := by
    cases ignoreNewline with
    | true => exact stands
    | false =>
      rw [gap_true] at stands
      exact Nat.eq_zero_of_add_eq_zero_right stands
  rw [cursor_scanned inside, begun.length_of_settled settled, Nat.add_zero,
    nextToken_cursorAt fits inside, none_skipped, Nat.add_zero, read, begun.ofBytes_eq]

theorem proceeds_nextToken (fits : s.InRange tabWidth) {c : Cursor} (held : s.Holds tabWidth c)
    (ignoreNewline : Bool) : s.Proceeds c (c.nextToken ignoreNewline) := by
  obtain ⟨i, inside, rfl⟩ := held
  obtain ⟨m, r, start, skipped, begun, reach, call⟩ := exists_scanned fits inside ignoreNewline
  rw [call]
  constructor
  · intro unsettled
    rw [settled_scanned] at unsettled
    have some_bytes := begun.length_pos_of_unsettled unsettled
    rw [cursor_scanned skipped, offset_cursorAt fits inside, offset_cursorAt fits reach]
    omega
  · intro f answer cause
    cases r with
    | unclosedString => exact offset_cursorAt fits (Nat.le_refl _)
    | token kind n => cases answer
    | secondPoint n =>
      cases answer
      cases cause
    | strayCharacter =>
      cases answer
      cases cause
  · intro settled
    rw [settled_scanned] at settled
    -- No line feed stands behind the gap, so a call that ignores newlines skips nothing more.
    have other := begun.head?_of_settled settled
    have stands : gap true (s.bytes.drop m) = 0 := by
      rw [start, ← List.drop_drop] at other ⊢
      exact gap_true_drop other
    exact Cursor.calls_of_again (scanned_again fits skipped begun settled stands)

theorem Holds.unread_eq (fits : s.InRange tabWidth) {c : Cursor} (held : s.Holds tabWidth c) :
    c.unread = s.size - c.offset ∧ c.offset ≤ s.size := by
  obtain ⟨i, inside, rfl⟩ := held
  rw [offset_cursorAt fits inside]
  refine ⟨?_, inside⟩
  rw [Cursor.unread, offset_cursorAt fits inside, ← fits.limit_eq]
  rfl

theorem exists_settled (fits : s.InRange tabWidth) (flags : List Bool) {c : Cursor}
    (held : s.Holds tabWidth c) (enough : c.unread < flags.length) :
    ∃ r ∈ (c.calls flags).take (c.unread + 1), r.settled = true := by
  induction flags generalizing c with
  | nil => exact absurd enough (Nat.not_lt_zero _)
  | cons ignoreNewline flags ih =>
    rw [Cursor.calls, List.take_succ_cons]
    cases settled : (c.nextToken ignoreNewline).settled with
    | true => exact ⟨_, List.mem_cons_self, settled⟩
    | false =>
      -- A call that has not settled takes a byte, so there are calls enough behind it.
      have behind := (answers_nextToken fits held ignoreNewline).2
      have less : (c.nextToken ignoreNewline).cursor.unread < c.unread := by
        have forward := (proceeds_nextToken fits held ignoreNewline).forward settled
        obtain ⟨unread, -⟩ := held.unread_eq fits
        obtain ⟨unread', inside⟩ := behind.unread_eq fits
        omega
      rw [List.length_cons] at enough
      obtain ⟨r, member, found⟩ := ih behind (by omega)
      refine ⟨r, List.mem_cons_of_mem _ ?_, found⟩
      exact (List.take_subset_take_left _ less) member

theorem tokenize_eq_pull (s : Source) :
    tokenize s.text =
      ((((Lexer.plain s.text).tokens false).pull (s.size + 1)).items.filterMap id).mapM id := by
  have few := ((Lexer.plain s.text).tokens false).length_drain_le
  have ahead : ((Lexer.plain s.text).tokens false).ahead ≤ s.size + 1 :=
    Nat.succ_le_succ (Nat.le_trans (Nat.sub_le _ _) s.limit_le_size)
  have all : (((Lexer.plain s.text).tokens false).drain.items.map some).length ≤ s.size + 1 := by
    rw [List.length_map]
    omega
  rw [TokenStream.items_pull, List.take_append, List.take_of_length_le all]
  simp [tokenize]

/-- In any state that a session comes to, calls take the scanner forward until it settles, and all
loops over them come to an end. -/
theorem settles_reached (fits : s.InRange tabWidth) (userData : υ) (steps : List Step) :
    let l := (Session.reached s.text tabWidth userData steps).lexer
    (∀ ignoreNewline, s.Proceeds l.cursor (l.cursor.nextToken ignoreNewline) ∧
      l.cursor.nextTokenWithin ignoreNewline (s.size + 1) =
        some (l.cursor.nextToken ignoreNewline)) ∧
    (∀ flags, s.size < flags.length →
      ∃ r ∈ (l.cursor.calls flags).take (s.size + 1), r.settled = true) ∧
    (∀ ignoreNewline, (l.tokens ignoreNewline).drain.items.length ≤ s.size + 1 ∧
      ∀ n, ((l.tokens ignoreNewline).pull n).items =
        ((l.tokens ignoreNewline).drain.items.map some ++ List.replicate n none).take n) ∧
    (∃ n ≤ s.size, l.skipNewlines.lexer.cursor = l.cursor.after (.replicate n false) ∧
      l.skipNewlines.events.length = n ∧ ∀ m, l.skipNewlines.answer = .ok m → m = n) ∧
    tokenize s.text =
      ((((Lexer.plain s.text).tokens false).pull (s.size + 1)).items.filterMap id).mapM id := by
  intro l
  have held : s.Holds tabWidth l.cursor := (keeps_reached fits userData steps).lexer
  have bound : l.cursor.unread ≤ s.size := by
    rw [(held.unread_eq fits).1]
    exact Nat.sub_le _ _
  refine ⟨?_, ?_, ?_, ?_, s.tokenize_eq_pull⟩
  · intro ignoreNewline
    exact ⟨proceeds_nextToken fits held ignoreNewline,
      Cursor.nextTokenWithin_eq (Nat.lt_succ_of_le bound) ignoreNewline⟩
  · intro flags enough
    obtain ⟨r, member, settled⟩ := exists_settled fits flags held (Nat.lt_of_le_of_lt bound enough)
    exact ⟨r, List.take_subset_take_left _ (Nat.succ_le_succ bound) member, settled⟩
  · intro ignoreNewline
    have few := (l.tokens ignoreNewline).length_drain_le
    have ahead : (l.tokens ignoreNewline).ahead = l.cursor.unread + 1 := rfl
    exact ⟨by omega, fun n => TokenStream.items_pull n _⟩
  · obtain ⟨n, less, cursor, reports, counted⟩ := skipNewlines_go l 0 #[]
    refine ⟨n, Nat.le_trans less bound, cursor, ?_, ?_⟩
    · have length := congrArg List.length reports
      rwa [List.nil_append, Cursor.reports, List.length_map, Cursor.length_calls,
        List.length_replicate] at length
    · intro m answer
      rw [counted m answer, Nat.zero_add]

/-- A second point is left behind, and the stray character is not. -/
theorem settles_stray_character : (Source.mk "1..é").InRange 4 ∧
    let c := (Session.reached "1..é" 4 () [.call (.next false)]).lexer.cursor
    c.offset = 2 ∧ c.offset < (c.nextToken true).cursor.offset ∧
      ((c.nextToken true).cursor.nextToken false).settled = true ∧
      ∃ r ∈ (c.calls [true, false, true, false, true, false]).take 6, r.settled = true := by
  have fits : (Source.mk "1..é").InRange 4 := by decide
  obtain ⟨call, calls, -⟩ := settles_reached fits () [.call (.next false)]
  refine ⟨fits, by decide +kernel, (call true).1.forward (by decide +kernel), by decide +kernel, ?_⟩
  exact calls _ (by decide +kernel)

end Source

end Lexing
