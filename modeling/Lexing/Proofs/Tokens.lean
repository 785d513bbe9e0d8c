import Lexing.Proofs.Lexeme
import Lexing.Proofs.Scanning
import Lexing.TokenStream

/-! All tokens of a text. Rules say what scanning on from an offset comes to, lexeme by lexeme, and
draining a stream comes to just that. -/
namespace Lexing

def Reading.goesOn : Reading → Bool
  | token kind _ => kind != .endOfStream
  | _ => false

theorem Reading.Begins.unique {bs : List UInt8} {r r' : Reading} (begun : Begins bs r)
    (begun' : Begins bs r') : r = r' :=
  begun.ofBytes_eq.symm.trans begun'.ofBytes_eq

theorem Reading.exists_of_goesOn {r : Reading} (goes : r.goesOn = true) :
    ∃ kind n, r = token kind n := by
  cases r with
  | token kind n => exact ⟨kind, n, rfl⟩
  | unclosedString => cases goes
  | secondPoint n => cases goes
  | strayCharacter => cases goes

namespace Source

/-- Blanks, as many as there are, lead from one offset to another. -/
structure Skips (s : Source) (i m : Nat) : Prop where
  forward : i ≤ m
  inside : m ≤ s.size
  blanks : ∀ b ∈ (s.bytes.drop i).take (m - i), Byte.isBlank b = true
  stops : Stops Byte.isBlank (s.bytes.drop m)

/-- The tokens from an offset on, or the first fault. -/
inductive Lexed (s : Source) (tabWidth : UInt32) : Nat → Except Fault (List Token) → Prop where
  | stop {i m r} : s.Skips i m → Reading.Begins (s.bytes.drop m) r → r.goesOn = false →
      Lexed s tabWidth i ((s.scanned tabWidth m r).answer.map fun _ => [])
  | token {i m kind n answer} : s.Skips i m → Reading.Begins (s.bytes.drop m) (.token kind n) →
      (Reading.token kind n).goesOn = true → Lexed s tabWidth (m + n) answer →
      Lexed s tabWidth i (answer.map (s.tokenAt tabWidth kind m n :: ·))

variable {s : Source} {tabWidth : UInt32}

theorem skips_gap {i : Nat} (inside : i ≤ s.size) :
    s.Skips i (i + gap false (s.bytes.drop i)) := by
  refine ⟨Nat.le_add_right _ _, gap_inside inside false, ?_, ?_⟩
  · rw [Nat.add_sub_cancel_left, gap, Byte.isSkipped_false]
    rw [← List.prefix_iff_eq_take.mp (List.takeWhile_prefix Byte.isBlank)]
    exact all_takeWhile _
  · rw [← List.drop_drop, drop_gap, Byte.isSkipped_false]
    exact Stops.dropWhile _

theorem Skips.eq_gap {i m : Nat} (skips : s.Skips i m) : m = i + gap false (s.bytes.drop i) := by
  have behind : (s.bytes.drop i).drop (m - i) = s.bytes.drop m := by
    rw [List.drop_drop, Nat.add_sub_cancel' skips.forward]
  have parted := List.take_append_drop (m - i) (s.bytes.drop i)
  rw [behind] at parted
  have run := skips.stops.takeWhile_eq skips.blanks
  rw [parted] at run
  have short : ((s.bytes.drop i).take (m - i)).length = m - i := by
    rw [List.length_take, length_drop_bytes]
    have := skips.inside
    omega
  rw [gap, Byte.isSkipped_false, run, short, Nat.add_sub_cancel' skips.forward]

theorem Skips.unique {i m m' : Nat} (skips : s.Skips i m) (skips' : s.Skips i m') : m = m' :=
  skips.eq_gap.trans skips'.eq_gap.symm

theorem Skips.nextToken (fits : s.InRange tabWidth) {i m : Nat} (inside : i ≤ s.size)
    (skips : s.Skips i m) {r : Reading} (begun : Reading.Begins (s.bytes.drop m) r) :
    (s.cursorAt tabWidth i).nextToken false = s.scanned tabWidth m r := by
  rw [nextToken_cursorAt fits inside, ← skips.eq_gap, read, begun.ofBytes_eq]

theorem Lexed.unique {i : Nat} {a b : Except Fault (List Token)} (lexed : s.Lexed tabWidth i a)
    (lexed' : s.Lexed tabWidth i b) : a = b := by
  induction lexed generalizing b with
  | stop skips begun ends =>
    cases lexed' with
    | stop skips' begun' ends' =>
      cases skips.unique skips'
      cases begun.unique begun'
      rfl
    | token skips' begun' more' lexed' =>
      cases skips.unique skips'
      cases begun.unique begun'
      exact absurd more' (by simp [ends])
  | token skips begun more lexed ih =>
    cases lexed' with
    | stop skips' begun' ends' =>
      cases skips.unique skips'
      cases begun.unique begun'
      exact absurd more (by simp [ends'])
    | token skips' begun' more' lexed' =>
      cases skips.unique skips'
      cases begun.unique begun'
      rw [ih lexed']

theorem hasMore_of_answer {m : Nat} {r : Reading} {t : Token}
    (answer : (s.scanned tabWidth m r).answer = .ok t) : r.goesOn = t.hasMore := by
  cases r with
  | token kind n =>
    cases answer
    rfl
  | unclosedString => cases answer
  | secondPoint n => cases answer
  | strayCharacter => cases answer

end Source

theorem mapM_ok {ε α : Type} (as : List α) :
    (as.map Except.ok).mapM id = (.ok as : Except ε (List α)) := by
  induction as with
  | nil => rfl
  | cons a as ih =>
    rw [List.map_cons, List.mapM_cons, ih]
    rfl

theorem mapM_ok_error {ε α : Type} (as : List α) (e : ε) :
    (as.map Except.ok ++ [Except.error e]).mapM id = (.error e : Except ε (List α)) := by
  rw [List.mapM_append, mapM_ok]
  rfl

namespace TokenStream

variable {υ : Type}

theorem drain_go_of_none {ts : TokenStream υ} (ended : ts.next.item? = none)
    (items : Array (Except Fault Token)) (events : Array Event) :
    (drain.go ts items events).items = items.toList := by
  rw [drain.go]
  split
  · rfl
  · rename_i found
    rw [ended] at found
    cases found

theorem drain_go_of_some {ts : TokenStream υ} {i : Except Fault Token}
    (item : ts.next.item? = some i) (items : Array (Except Fault Token)) (events : Array Event) :
    drain.go ts items events =
      drain.go ts.next.stream (items.push i) (events ++ ts.next.events) := by
  rw [drain.go]
  split
  · rename_i found
    rw [item] at found
    cases found
  · rename_i found
    rw [item] at found
    cases found
    rfl

structure Stands (ts : TokenStream υ) (s : Source) (tabWidth : UInt32) (i : Nat) : Prop where
  cursor : ts.lexer.cursor = s.cursorAt tabWidth i
  all : ts.ignoreNewline = false
  unfinished : ts.finished = false

variable {s : Source} {tabWidth : UInt32} {ts : TokenStream υ} {i m : Nat}

theorem Stands.nextToken (fits : s.InRange tabWidth) (inside : i ≤ s.size)
    (stands : ts.Stands s tabWidth i) (skips : s.Skips i m) {r : Reading}
    (begun : Reading.Begins (s.bytes.drop m) r) :
    ts.lexer.cursor.nextToken ts.ignoreNewline = s.scanned tabWidth m r := by
  rw [stands.cursor, stands.all, skips.nextToken fits inside begun]

theorem Stands.drain_stop (fits : s.InRange tabWidth) (inside : i ≤ s.size)
    (stands : ts.Stands s tabWidth i) (skips : s.Skips i m) {r : Reading}
    (begun : Reading.Begins (s.bytes.drop m) r) (stops : r.goesOn = false) {before : List Token}
    {items : Array (Except Fault Token)} (given : items.toList = before.map .ok)
    (events : Array Event) :
    (drain.go ts items events).items.mapM id =
      ((s.scanned tabWidth m r).answer.map fun _ => []).map (before ++ ·) := by
  have answers := congrArg Scanned.answer (stands.nextToken fits inside skips begun)
  cases answer : (s.scanned tabWidth m r).answer with
  | error f =>
    have next := next_of_fault stands.unfinished (answers.trans answer)
    have item : ts.next.item? = some (.error f) := by rw [next]
    have ended : ts.next.stream.next.item? = none := by rw [next, next_of_finished rfl]
    rw [drain_go_of_some item, drain_go_of_none ended, Array.toList_push, given, mapM_ok_error]
    rfl
  | ok t =>
    have none_more : t.hasMore = false := Source.hasMore_of_answer answer ▸ stops
    have next := next_of_end stands.unfinished (answers.trans answer) none_more
    have ended : ts.next.item? = none := by rw [next]
    rw [drain_go_of_none ended, given, mapM_ok]
    exact congrArg Except.ok (List.append_nil before).symm

theorem Stands.next (fits : s.InRange tabWidth) (inside : i ≤ s.size)
    (stands : ts.Stands s tabWidth i) (skips : s.Skips i m) {kind : Token.Kind} {n : Nat}
    (begun : Reading.Begins (s.bytes.drop m) (.token kind n))
    (goes : (Reading.token kind n).goesOn = true) :
    ts.next.item? = some (.ok (s.tokenAt tabWidth kind m n)) ∧
      ts.next.stream.Stands s tabWidth (m + n) := by
  have scan := stands.nextToken fits inside skips begun
  rw [next_of_hasMore stands.unfinished (congrArg Scanned.answer scan) goes]
  exact ⟨rfl, congrArg Scanned.cursor scan, stands.all, stands.unfinished⟩

theorem Stands.lexed_drain (fits : s.InRange tabWidth) (inside : i ≤ s.size)
    (stands : ts.Stands s tabWidth i) {before : List Token} {items : Array (Except Fault Token)}
    (given : items.toList = before.map .ok) (events : Array Event) :
    ∃ answer, s.Lexed tabWidth i answer ∧
      (drain.go ts items events).items.mapM id = answer.map (before ++ ·) := by
  generalize measured : s.size - i = n
  induction n using Nat.strongRecOn generalizing i ts before items events with
  | _ n ih =>
    have skips := Source.skips_gap inside
    generalize i + gap false (s.bytes.drop i) = m at skips
    have begun := Reading.begins_ofBytes (s.bytes.drop m)
    generalize Reading.ofBytes (s.bytes.drop m) = r at begun
    cases goes : r.goesOn with
    | false =>
      exact ⟨_, .stop skips begun goes, stands.drain_stop fits inside skips begun goes given events⟩
    | true =>
      obtain ⟨kind, k, rfl⟩ := Reading.exists_of_goesOn goes
      obtain ⟨item, behind⟩ := stands.next fits inside skips begun goes
      have some_bytes := begun.length_pos (by simpa [Reading.goesOn] using goes)
      have forward := skips.forward
      have reach : m + k ≤ s.size := Source.run_inside skips.inside begun.length_le
      have pushed : (items.push (.ok (s.tokenAt tabWidth kind m k))).toList =
          (before ++ [s.tokenAt tabWidth kind m k]).map .ok := by simp [given]
      obtain ⟨answer, lexed, rest⟩ :=
        ih (s.size - (m + k)) (by omega) reach behind pushed (events ++ ts.next.events) rfl
      refine ⟨_, .token skips begun goes lexed, ?_⟩
      rw [drain_go_of_some item, rest]
      cases answer with
      | ok rest => simp [Except.map]
      | error f => rfl

end TokenStream

/-- The tokens of a text are those that the rules lead to from its first byte on. -/
theorem tokenize_iff {text : String} (fits : (Source.mk text).InRange defaultTabWidth)
    {answer : Except Fault (List Token)} :
    tokenize text = answer ↔ (Source.mk text).Lexed defaultTabWidth 0 answer := by
  have stands : ((Lexer.plain text).tokens false).Stands ⟨text⟩ defaultTabWidth 0 :=
    ⟨Source.cursorAt_zero.symm, rfl, rfl⟩
  have none_given : (#[] : Array (Except Fault Token)).toList = [].map .ok := rfl
  obtain ⟨found, lexed, drained⟩ := stands.lexed_drain fits (Nat.zero_le _) none_given #[]
  have whole : tokenize text = found := by
    refine drained.trans ?_
    cases found <;> rfl
  rw [whole]
  constructor
  · rintro rfl
    exact lexed
  · exact lexed.unique

end Lexing
