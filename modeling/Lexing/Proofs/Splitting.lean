import Lexing.Proofs.Lines
import Lexing.Proofs.Tokens

/-! A line feed splits a text into two that are tokenized apart. What stands behind it does not
change the lexemes before it, and what stands before it does no more than shift the places of those
behind it. -/
namespace Lexing

def Position.shift (offset line : UInt32) (p : Position) : Position :=
  ⟨p.offset + offset, p.line + line, p.column⟩

def Token.shift (offset line : UInt32) (t : Token) : Token :=
  { t with span := ⟨t.span.start + offset, t.span.stop + offset⟩, pos := t.pos.shift offset line }

/-- A fault further on. It shows the same line, only at another place. -/
def Fault.shift (offset line : UInt32) (f : Fault) : Fault :=
  ⟨f.cause, f.pos.shift offset line, ⟨f.line.start + offset.toNat, f.line.text⟩⟩

def shiftAnswer (offset line : UInt32) : Except Fault (List Token) → Except Fault (List Token)
  | .ok ts => .ok (ts.map (Token.shift offset line))
  | .error f => .error (f.shift offset line)

/-! The lexemes before a line feed. -/

theorem Stops.append_lineFeed {p : UInt8 → Bool} {bs : List UInt8} (stops : Stops p bs)
    (feed : p Byte.lineFeed = false) (rest : List UInt8) :
    Stops p (bs ++ Byte.lineFeed :: rest) := by
  cases bs with
  | nil => exact .cons feed
  | cons b bs => exact .cons (stops b rfl)

namespace Reading

theorem stringLength_append {bs : List UInt8} {n : Nat} (closed : stringLength bs = some n)
    (rest : List UInt8) : stringLength (bs ++ rest) = some n := by
  fun_induction stringLength bs generalizing n with
  | case1 => cases closed
  | case2 =>
    cases closed
    exact stringLength_quote rest
  | case3 => cases closed
  | case4 =>
    cases closed
    exact stringLength_quote _
  | case5 b bs other ih =>
    obtain ⟨m, inner, rfl⟩ := Option.map_eq_some_iff.mp closed
    rw [List.cons_append, List.cons_append, stringLength_escape, ih inner]
    rfl
  | case6 b b' bs other plain ih =>
    obtain ⟨m, inner, rfl⟩ := Option.map_eq_some_iff.mp closed
    have tail := ih inner
    rw [List.cons_append] at tail
    rw [List.cons_append, List.cons_append, stringLength, if_neg other, if_neg plain, tail]
    rfl

theorem head?_append_lineFeed {bs : List UInt8} (rest : List UInt8)
    (ended : bs.head? ≠ some Byte.point) :
    (bs ++ Byte.lineFeed :: rest).head? ≠ some Byte.point := by
  cases bs with
  | nil =>
    intro here
    cases here
  | cons b bs => exact ended

theorem Begins.append_lineFeed {bs : List UInt8} {kind : Token.Kind} {n : Nat}
    (begun : Begins bs (token kind n)) (goes : (token kind n).goesOn = true) (rest : List UInt8) :
    Begins (bs ++ Byte.lineFeed :: rest) (token kind n) := by
  cases begun with
  | endOfStream => cases goes
  | @string body bs closed =>
    have closed' := stringLength_append closed (Byte.lineFeed :: rest)
    rw [List.append_assoc, List.cons_append] at closed'
    rw [List.cons_append, List.append_assoc, List.cons_append]
    exact .string closed'
  | newline => exact .newline
  | @word b run bs start part stops =>
    rw [List.cons_append, List.append_assoc]
    exact .word start part (stops.append_lineFeed rfl rest)
  | @whole ds bs some_digit digits stops ended =>
    rw [List.append_assoc]
    exact .whole some_digit digits (stops.append_lineFeed rfl rest)
      (head?_append_lineFeed rest ended)
  | @pointed ds es bs some_digit digits places stops ended =>
    rw [List.append_assoc, List.cons_append, List.append_assoc]
    exact .pointed some_digit digits places (stops.append_lineFeed rfl rest)
      (head?_append_lineFeed rest ended)
  | symbol symbol quote score stops =>
    exact .symbol symbol quote score fun point => (stops point).append_lineFeed rfl rest

end Reading

namespace Source

variable {s : Source} {tabWidth : UInt32}

theorem Skips.then {i m : Nat} (skips : s.Skips i m) {answer : Except Fault (List Token)}
    (lexed : s.Lexed tabWidth m answer) : s.Lexed tabWidth i answer := by
  have stays : s.Skips m m := by
    refine ⟨Nat.le_refl m, skips.inside, ?_, skips.stops⟩
    intro b member
    rw [Nat.sub_self] at member
    cases member
  cases lexed with
  | stop skips' begun stops =>
    cases stays.unique skips'
    exact .stop skips begun stops
  | token skips' begun goes lexed =>
    cases stays.unique skips'
    exact .token skips begun goes lexed

section Front

variable {a : Source} {rest : List UInt8} (joined : s.bytes = a.bytes ++ rest)
include joined

theorem drop_before {i : Nat} (inside : i ≤ a.size) : s.bytes.drop i = a.bytes.drop i ++ rest := by
  rw [joined, List.drop_append_of_le_length (by rwa [length_bytes])]

theorem cut_before {i n : Nat} (reach : i + n ≤ a.size) :
    (s.bytes.drop i).take n = (a.bytes.drop i).take n := by
  rw [drop_before joined (by omega), List.take_append_of_le_length]
  rw [length_drop_bytes]
  omega

theorem place_before {i : Nat} (inside : i ≤ a.size) :
    s.place tabWidth i = a.place tabWidth i := by
  have cut := cut_before joined (i := 0) (n := i) (by omega)
  rw [List.drop_zero, List.drop_zero] at cut
  rw [place, place, cut]

theorem tokenAt_before (kind : Token.Kind) {m n : Nat} (some_bytes : 0 < n)
    (reach : m + n ≤ a.size) : s.tokenAt tabWidth kind m n = a.tokenAt tabWidth kind m n := by
  have inner := cut_before joined (i := m + 1) (n := n - 2) (by omega)
  unfold tokenAt
  rw [place_before joined (by omega), cut_before joined reach, inner]

end Front

section Before

variable {a : Source} {rest : List UInt8} (joined : s.bytes = a.bytes ++ Byte.lineFeed :: rest)
include joined

theorem size_before : a.size < s.size := by
  rw [← length_bytes, ← length_bytes, joined, List.length_append, List.length_cons]
  omega

theorem Skips.before {i m : Nat} (skips : a.Skips i m) : s.Skips i m := by
  have inside := skips.inside
  have forward := skips.forward
  refine ⟨forward, Nat.le_of_lt (Nat.lt_of_le_of_lt inside (size_before joined)), ?_, ?_⟩
  · rw [drop_before joined (Nat.le_trans forward inside), List.take_append_of_le_length]
    · exact skips.blanks
    · rw [length_drop_bytes]
      omega
  · rw [drop_before joined inside]
    exact skips.stops.append_lineFeed rfl rest

/-- Before the line feed stand the tokens of the text that it ends. -/
theorem Lexed.before {i : Nat} {found : Except Fault (List Token)}
    (lexed : a.Lexed tabWidth i found) {ts : List Token} (all : found = .ok ts)
    {answer : Except Fault (List Token)} (behind : s.Lexed tabWidth a.size answer) :
    s.Lexed tabWidth i (answer.map (ts ++ ·)) := by
  induction lexed generalizing ts with
  | @stop i m r skips begun stops =>
    cases r with
    | token kind n =>
      cases kind <;> cases stops
      cases all
      cases eq_size_of_drop skips.inside begun.eq_nil
      have same : answer.map ([] ++ ·) = answer := by cases answer <;> rfl
      rw [same]
      exact (skips.before joined).then behind
    | unclosedString => cases all
    | secondPoint n => cases all
    | strayCharacter => cases all
  | @token i m kind n found skips begun goes lexed ih =>
    cases found with
    | error f => cases all
    | ok us =>
      cases all
      have reach := run_inside skips.inside begun.length_le
      have some_bytes := begun.length_pos (by simpa [Reading.goesOn] using goes)
      -- The line feed behind the text ends its last lexeme as the end did.
      have begun' := begun.append_lineFeed goes rest
      rw [← drop_before joined skips.inside] at begun'
      have step := Lexed.token (skips.before joined) begun' goes (ih rfl)
      rw [tokenAt_before joined kind some_bytes reach] at step
      cases answer <;> exact step

end Before

section Behind

variable {b : Source} {front : List UInt8} (joined : s.bytes = front ++ b.bytes)
include joined

theorem drop_behind (j : Nat) : s.bytes.drop (front.length + j) = b.bytes.drop j := by
  rw [joined, ← List.drop_drop, List.drop_left]

theorem take_behind (j : Nat) : s.bytes.take (front.length + j) = front ++ b.bytes.take j := by
  rw [joined, List.take_length_add_append]

theorem size_behind : s.size = front.length + b.size := by
  rw [← length_bytes, ← length_bytes, joined, List.length_append]

theorem strayAt_behind (m : Nat) : s.strayAt (front.length + m) = b.strayAt m := by
  rw [strayAt, strayAt, drop_behind joined]

theorem Skips.behind {j m : Nat} (skips : b.Skips j m) :
    s.Skips (front.length + j) (front.length + m) := by
  refine ⟨Nat.add_le_add_left skips.forward _, ?_, ?_, ?_⟩
  · rw [size_behind joined]
    exact Nat.add_le_add_left skips.inside _
  · rw [drop_behind joined, Nat.add_sub_add_left]
    exact skips.blanks
  · rw [drop_behind joined]
    exact skips.stops

theorem lineAt_behind (fits : s.InRange tabWidth) {j : Nat} (inside : j ≤ b.size)
    (apart : Position.lastLine (front ++ b.bytes.take j) = Position.lastLine (b.bytes.take j)) :
    s.lineAt (front.length + j) =
      ⟨(b.lineAt j).start + front.length, (b.lineAt j).text⟩ := by
  have size := size_behind joined
  have shorter := Position.length_lastLine_le (b.bytes.take j)
  rw [length_take_bytes inside] at shorter
  have start : front.length + j - (Position.lastLine (b.bytes.take j)).length =
      j - (Position.lastLine (b.bytes.take j)).length + front.length := by omega
  rw [lineAt_eq fits.limit_eq (by omega), lineAt_eq (fits.of_size_le (by omega)).limit_eq inside,
    lineBytes, lineBytes, take_behind joined, drop_behind joined, apart, start]

/-! Behind whole lines nothing changes but the places. -/

variable (ends : Position.lastLine front = [])
include ends

theorem place_behind (j : Nat) :
    s.place tabWidth (front.length + j) = (b.place tabWidth j).shift
      (.ofNat front.length) (.ofNat (front.count Byte.lineFeed)) := by
  have offset : (front ++ b.bytes.take j).length = (b.bytes.take j).length + front.length := by
    rw [List.length_append, Nat.add_comm]
  have line : 1 + (front ++ b.bytes.take j).count Byte.lineFeed =
      1 + (b.bytes.take j).count Byte.lineFeed + front.count Byte.lineFeed := by
    rw [List.count_append]
    omega
  rw [place, take_behind joined, Position.after, Position.lastLine_append_of_nil ends, offset, line,
    UInt32.ofNat_add, UInt32.ofNat_add _ (front.count Byte.lineFeed)]
  rfl

theorem tokenAt_behind (kind : Token.Kind) (m n : Nat) :
    s.tokenAt tabWidth kind (front.length + m) n = (b.tokenAt tabWidth kind m n).shift
      (.ofNat front.length) (.ofNat (front.count Byte.lineFeed)) := by
  have start : UInt32.ofNat (front.length + m) = .ofNat m + .ofNat front.length := by
    rw [← UInt32.ofNat_add, Nat.add_comm]
  have stop : UInt32.ofNat (front.length + m + n) = .ofNat (m + n) + .ofNat front.length := by
    rw [← UInt32.ofNat_add, Nat.add_assoc, Nat.add_comm]
  unfold tokenAt
  rw [place_behind joined ends, start, stop, drop_behind joined, Nat.add_assoc _ m,
    drop_behind joined]
  rfl

theorem faultAt_behind (fits : s.InRange tabWidth) (cause : Fault.Cause) {j : Nat}
    (inside : j ≤ b.size) :
    s.faultAt tabWidth cause (front.length + j) = (b.faultAt tabWidth cause j).shift
      (.ofNat front.length) (.ofNat (front.count Byte.lineFeed)) := by
  have small := fits.size_lt
  have size := size_behind joined
  have value : (UInt32.ofNat front.length).toNat = front.length := toNat_ofNat_of_le (by omega)
  have line := lineAt_behind joined fits inside (Position.lastLine_append_of_nil ends _)
  rw [faultAt, place_behind joined ends, line, Fault.shift, value]
  rfl

theorem answer_behind (fits : s.InRange tabWidth) {m : Nat} (inside : m ≤ b.size) {r : Reading}
    (begun : Reading.Begins (b.bytes.drop m) r) (stops : r.goesOn = false) :
    (s.scanned tabWidth (front.length + m) r).answer.map (fun _ => []) =
      shiftAnswer (.ofNat front.length) (.ofNat (front.count Byte.lineFeed))
        ((b.scanned tabWidth m r).answer.map fun _ => []) := by
  have reach := run_inside inside begun.length_le
  cases r with
  | token kind n => rfl
  | unclosedString => exact congrArg Except.error (faultAt_behind joined ends fits _ inside)
  | secondPoint n =>
    have fault := faultAt_behind joined ends fits .secondPoint reach
    rw [← Nat.add_assoc] at fault
    exact congrArg Except.error fault
  | strayCharacter =>
    simp only [scanned, strayAt_behind joined]
    exact congrArg Except.error (faultAt_behind joined ends fits _ inside)

/-- Behind the line feed stand the tokens of the other text, shifted. -/
theorem Lexed.behind (fits : s.InRange tabWidth) {j : Nat} {answer : Except Fault (List Token)}
    (lexed : b.Lexed tabWidth j answer) :
    s.Lexed tabWidth (front.length + j) (shiftAnswer (.ofNat front.length)
      (.ofNat (front.count Byte.lineFeed)) answer) := by
  induction lexed with
  | stop skips begun stops =>
    rw [← answer_behind joined ends fits skips.inside begun stops]
    rw [← drop_behind joined] at begun
    exact .stop (skips.behind joined) begun stops
  | @token i m kind n found skips begun goes lexed ih =>
    rw [← drop_behind joined] at begun
    rw [← Nat.add_assoc] at ih
    have step := Lexed.token (skips.behind joined) begun goes ih
    rw [tokenAt_behind joined ends] at step
    cases found <;> exact step

end Behind

end Source

def lineFeedAfter (a : String) : Token where
  kind := .newline
  text := ""
  span := ⟨.ofNat a.utf8ByteSize, .ofNat (a.utf8ByteSize + 1)⟩
  pos := (Source.mk a).place defaultTabWidth a.utf8ByteSize

theorem bytes_append_lineFeed (a b : String) : (Source.mk (a ++ "\n" ++ b)).bytes =
    (Source.mk a).bytes ++ Byte.lineFeed :: (Source.mk b).bytes := by
  have feed : (Source.mk "\n").bytes = [Byte.lineFeed] := by decide
  rw [Source.bytes_append, Source.bytes_append, feed, List.append_assoc, List.singleton_append]

theorem Source.Lexed.lineFeed {s a b : Source} {tabWidth : UInt32}
    (joined : s.bytes = a.bytes ++ Byte.lineFeed :: b.bytes)
    {answer : Except Fault (List Token)} (lexed : s.Lexed tabWidth (a.size + 1) answer) :
    s.Lexed tabWidth a.size
      (answer.map (s.tokenAt tabWidth .newline a.size 1 :: ·)) := by
  have ahead : s.bytes.drop a.size = Byte.lineFeed :: b.bytes := by
    rw [joined, ← length_bytes, List.drop_left]
  have begun : Reading.Begins (s.bytes.drop a.size) (.token .newline 1) := by
    rw [ahead]
    exact .newline
  refine .token ⟨Nat.le_refl _, Nat.le_of_lt (size_before joined), ?_, ?_⟩ begun rfl lexed
  · intro c member
    rw [Nat.sub_self] at member
    cases member
  · rw [ahead]
    exact .cons rfl

theorem tokenize_append_lineFeed {a b : String}
    (fits : (Source.mk (a ++ "\n" ++ b)).InRange defaultTabWidth) {ts : List Token}
    (lexed : tokenize a = .ok ts) :
    (∀ us, tokenize b = .ok us → tokenize (a ++ "\n" ++ b) =
      .ok (ts ++ lineFeedAfter a :: us.map (Token.shift (.ofNat (a.utf8ByteSize + 1))
        (.ofNat (1 + (Source.mk a).bytes.count Byte.lineFeed))))) ∧
    (∀ f, tokenize b = .error f → tokenize (a ++ "\n" ++ b) =
      .error (f.shift (.ofNat (a.utf8ByteSize + 1))
        (.ofNat (1 + (Source.mk a).bytes.count Byte.lineFeed)))) := by
  have joined := bytes_append_lineFeed a b
  have parted := joined.trans (List.append_cons _ _ _)
  have ends : Position.lastLine ((Source.mk a).bytes ++ [Byte.lineFeed]) = [] := by
    rw [Position.lastLine_concat, if_pos rfl]
  have size := Source.size_behind parted
  have length : ((Source.mk a).bytes ++ [Byte.lineFeed]).length = a.utf8ByteSize + 1 := by
    rw [List.length_append, Source.length_bytes]
    rfl
  have lines : ((Source.mk a).bytes ++ [Byte.lineFeed]).count Byte.lineFeed =
      1 + (Source.mk a).bytes.count Byte.lineFeed := by
    rw [List.count_append, Nat.add_comm]
    rfl
  have fits_a : (Source.mk a).InRange defaultTabWidth :=
    fits.of_size_le (Nat.le_of_lt (Source.size_before joined))
  have fits_b : (Source.mk b).InRange defaultTabWidth := fits.of_size_le (by omega)
  have behind := ((tokenize_iff fits_b).mp rfl).behind parted ends fits
  rw [length, lines] at behind
  have whole := (tokenize_iff fits).mpr
    (((tokenize_iff fits_a).mp lexed).before joined rfl (.lineFeed joined behind))
  have place : (Source.mk (a ++ "\n" ++ b)).place defaultTabWidth a.utf8ByteSize =
      (Source.mk a).place defaultTabWidth a.utf8ByteSize :=
    Source.place_before joined (Nat.le_refl _)
  have feed : (Source.mk (a ++ "\n" ++ b)).tokenAt defaultTabWidth .newline a.utf8ByteSize 1 =
      lineFeedAfter a := by
    rw [lineFeedAfter, ← place]
    rfl
  constructor
  · intro us found
    rw [whole, found, ← feed]
    rfl
  · intro f failed
    rw [whole, failed]
    rfl

/-- A number that ends in a point does not take up digits behind the line feed, and a second point
there is a fault of the second line. -/
theorem tokenize_point_lineFeed :
    ((Source.mk ("1." ++ "\n" ++ "2")).InRange defaultTabWidth ∧
      tokenize "1." = .ok [⟨.number, "1.", ⟨0, 2⟩, .start⟩] ∧
      tokenize "2" = .ok [⟨.number, "2", ⟨0, 1⟩, .start⟩] ∧
      tokenize ("1." ++ "\n" ++ "2") = .ok [⟨.number, "1.", ⟨0, 2⟩, .start⟩,
        ⟨.newline, "", ⟨2, 3⟩, ⟨2, 1, 3⟩⟩, ⟨.number, "2", ⟨3, 4⟩, ⟨3, 2, 1⟩⟩]) ∧
    (Source.mk ("1." ++ "\n" ++ "2..")).InRange defaultTabWidth ∧
      tokenize "2.." = .error ⟨.secondPoint, ⟨2, 1, 3⟩, ⟨0, "2.."⟩⟩ ∧
      tokenize ("1." ++ "\n" ++ "2..") = .error ⟨.secondPoint, ⟨5, 2, 3⟩, ⟨3, "2.."⟩⟩ := by
  have first : tokenize "1." = .ok [⟨.number, "1.", ⟨0, 2⟩, .start⟩] := by decide +kernel
  constructor
  · have fits : (Source.mk ("1." ++ "\n" ++ "2")).InRange defaultTabWidth := by decide
    have second : tokenize "2" = .ok [⟨.number, "2", ⟨0, 1⟩, .start⟩] := by decide +kernel
    have both := (tokenize_append_lineFeed fits first).1 _ second
    exact ⟨fits, first, second, both.trans (by decide)⟩
  · have fits : (Source.mk ("1." ++ "\n" ++ "2..")).InRange defaultTabWidth := by decide
    have second : tokenize "2.." = .error ⟨.secondPoint, ⟨2, 1, 3⟩, ⟨0, "2.."⟩⟩ := by
      decide +kernel
    have both := (tokenize_append_lineFeed fits first).2 _ second
    exact ⟨fits, second, both.trans (by decide)⟩

end Lexing
