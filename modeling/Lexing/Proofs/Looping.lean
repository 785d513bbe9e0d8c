import Lexing.Proofs.Course
import Lexing.Proofs.Delivery

/-! Loops over the next token. A stream that is asked again and again gives what the same loop over
the lexer gives, up to where the loop first finds the end or a fault. There the stream is finished,
and it leaves the lexer as that loop does. -/
namespace Lexing

variable {υ : Type}

namespace Lexer

def afterTokens (l : Lexer υ) (ignoreNewline : Bool) : Nat → Lexer υ
  | 0 => l
  | n + 1 => (l.nextToken ignoreNewline).lexer.afterTokens ignoreNewline n

def nthToken (l : Lexer υ) (ignoreNewline : Bool) (i : Nat) : Outcome υ Fault Token :=
  (l.afterTokens ignoreNewline i).nextToken ignoreNewline

end Lexer

/-- What a stream gives for an answer: the end is not delivered, a fault is. -/
def itemOf : Except Fault Token → Option (Except Fault Token)
  | .ok t => if t.hasMore then some (.ok t) else none
  | .error f => some (.error f)

/-- The first outcome that is the end or a fault is the one behind `k` others. -/
structure Lexer.StopsAt (l : Lexer υ) (ignoreNewline : Bool) (k : Nat) : Prop where
  before : ∀ i < k, answerGoesOn (l.nthToken ignoreNewline i).answer = true
  stops : answerGoesOn (l.nthToken ignoreNewline k).answer = false

/-- What a stream gives that is asked `n` times, where the loop stops behind `k` tokens. -/
structure Lexer.Delivers (l : Lexer υ) (ignoreNewline : Bool) (k n : Nat)
    (d : TokenStream.Deliveries υ (Option (Except Fault Token))) : Prop where
  asked : d.items.length = n
  tokens : ∀ i < n, i < k → d.items[i]? = some (some (l.nthToken ignoreNewline i).answer)
  ended : k < n → ∀ t, (l.nthToken ignoreNewline k).answer = .ok t → d.items[k]? = some none
  fault : k < n → ∀ f, (l.nthToken ignoreNewline k).answer = .error f →
    d.items[k]? = some (some (.error f))
  nothing : ∀ i < n, k < i → d.items[i]? = some none
  lexer : d.stream.lexer = l.afterTokens ignoreNewline (min n (k + 1))
  events : d.events =
    (List.range (min n (k + 1))).flatMap fun i => (l.nthToken ignoreNewline i).events
  finished : k < n → d.stream.next = ⟨none, d.stream, []⟩

theorem itemOf_of_goesOn {answer : Except Fault Token} (more : answerGoesOn answer = true) :
    itemOf answer = some answer := by
  obtain ⟨t, rfl, going⟩ := exists_token_of_meets more
  simp only [itemOf, going, if_true]

theorem itemOf_of_end {t : Token} (stops : answerGoesOn (.ok t) = false) :
    itemOf (.ok t) = none := by
  change t.hasMore = false at stops
  simp only [itemOf, stops, Bool.false_eq_true, if_false]

namespace Lexer

variable {l : Lexer υ} {ignoreNewline : Bool} {k : Nat}

theorem StopsAt.here (stops : answerGoesOn (l.nextToken ignoreNewline).answer = false) :
    l.StopsAt ignoreNewline 0 where
  before i less := absurd less (Nat.not_lt_zero i)
  stops := stops

theorem StopsAt.behind (more : answerGoesOn (l.nextToken ignoreNewline).answer = true)
    (stop : (l.nextToken ignoreNewline).lexer.StopsAt ignoreNewline k) :
    l.StopsAt ignoreNewline (k + 1) where
  before i below := by
    cases i with
    | zero => exact more
    | succ i => exact stop.before i (Nat.lt_of_succ_lt_succ below)
  stops := stop.stops

theorem exists_stopsAt (l : Lexer υ) (ignoreNewline : Bool) : ∃ k, l.StopsAt ignoreNewline k := by
  induction unread : l.cursor.unread using Nat.strongRecOn generalizing l with
  | ind bytes ih =>
    -- Every token that goes on takes a byte.
    cases more : answerGoesOn (l.nextToken ignoreNewline).answer with
    | false => exact ⟨0, .here more⟩
    | true =>
      have less : (l.nextToken ignoreNewline).lexer.cursor.unread < bytes :=
        unread ▸ unread_nextToken_lt_of_goesOn more
      obtain ⟨k, stop⟩ := ih _ less (l.nextToken ignoreNewline).lexer rfl
      exact ⟨k + 1, .behind more stop⟩

theorem StopsAt.tail (stop : l.StopsAt ignoreNewline (k + 1)) :
    (l.nextToken ignoreNewline).lexer.StopsAt ignoreNewline k where
  before i less := stop.before (i + 1) (Nat.succ_lt_succ less)
  stops := stop.stops

theorem StopsAt.head (stop : l.StopsAt ignoreNewline (k + 1)) :
    answerGoesOn (l.nextToken ignoreNewline).answer = true :=
  stop.before 0 (Nat.succ_pos k)

end Lexer

namespace TokenStream

variable {l : Lexer υ} {ignoreNewline : Bool} {k : Nat}

theorem next_tokens (l : Lexer υ) (ignoreNewline : Bool) :
    (l.tokens ignoreNewline).next =
      ⟨itemOf (l.nextToken ignoreNewline).answer,
        ⟨(l.nextToken ignoreNewline).lexer, ignoreNewline,
          !answerGoesOn (l.nextToken ignoreNewline).answer⟩,
        (l.nextToken ignoreNewline).events⟩ := by
  have unfinished : (l.tokens ignoreNewline).finished = false := rfl
  cases found : (l.nextToken ignoreNewline).answer with
  | error f => exact next_of_fault unfinished found
  | ok t =>
    cases more : t.hasMore with
    | true =>
      simp only [itemOf, answerGoesOn, answerMeets, more, if_true, Bool.not_true]
      exact next_of_hasMore unfinished found more
    | false =>
      simp only [itemOf, answerGoesOn, answerMeets, more, Bool.false_eq_true, if_false, Bool.not_false]
      exact next_of_end unfinished found more

theorem next_tokens_of_goesOn (more : answerGoesOn (l.nextToken ignoreNewline).answer = true) :
    (l.tokens ignoreNewline).next =
      ⟨some (l.nextToken ignoreNewline).answer,
        (l.nextToken ignoreNewline).lexer.tokens ignoreNewline,
        (l.nextToken ignoreNewline).events⟩ := by
  rw [next_tokens, itemOf_of_goesOn more, more]
  rfl

theorem events_succ (l : Lexer υ) (ignoreNewline : Bool) (n : Nat) :
    ((List.range (n + 1)).flatMap fun i => (l.nthToken ignoreNewline i).events) =
      (l.nextToken ignoreNewline).events ++ (List.range n).flatMap fun i =>
        ((l.nextToken ignoreNewline).lexer.nthToken ignoreNewline i).events := by
  rw [List.range_succ_eq_map, List.flatMap_cons, List.flatMap_map]
  rfl

theorem delivers_stop (stops : answerGoesOn (l.nextToken ignoreNewline).answer = false) (n : Nat) :
    l.Delivers ignoreNewline 0 (n + 1) ((l.tokens ignoreNewline).pull (n + 1)) := by
  have least : min (n + 1) (0 + 1) = 1 := by omega
  have last := next_tokens l ignoreNewline
  rw [stops] at last
  rw [pull, last, pull_of_finished rfl]
  constructor
  case asked => simp
  case tokens =>
    intro i _ before
    exact absurd before (Nat.not_lt_zero i)
  case ended =>
    intro _ t found
    change (l.nextToken ignoreNewline).answer = .ok t at found
    rw [found] at stops ⊢
    exact congrArg some (itemOf_of_end stops)
  case fault =>
    intro _ f found
    change (l.nextToken ignoreNewline).answer = .error f at found
    rw [found]
    rfl
  case nothing =>
    intro i below behind
    obtain ⟨j, rfl⟩ := Nat.exists_eq_add_of_lt behind
    have inside : j < n := by omega
    simp [inside]
  case lexer =>
    rw [least]
    rfl
  case events =>
    rw [least, events_succ]
    rfl
  case finished => exact fun _ => next_of_finished rfl

theorem delivers_goesOn (more : answerGoesOn (l.nextToken ignoreNewline).answer = true) {n : Nat}
    (rest : (l.nextToken ignoreNewline).lexer.Delivers ignoreNewline k n
      (((l.nextToken ignoreNewline).lexer.tokens ignoreNewline).pull n)) :
    l.Delivers ignoreNewline (k + 1) (n + 1) ((l.tokens ignoreNewline).pull (n + 1)) := by
  have least : min (n + 1) (k + 1 + 1) = min n (k + 1) + 1 := by omega
  rw [pull, next_tokens_of_goesOn more]
  constructor
  case asked => exact congrArg (· + 1) rest.asked
  case tokens =>
    intro i below before
    cases i with
    | zero => rfl
    | succ i => exact rest.tokens i (Nat.lt_of_succ_lt_succ below) (Nat.lt_of_succ_lt_succ before)
  case ended => exact fun less => rest.ended (Nat.lt_of_succ_lt_succ less)
  case fault => exact fun less => rest.fault (Nat.lt_of_succ_lt_succ less)
  case nothing =>
    intro i below behind
    cases i with
    | zero => exact absurd behind (Nat.not_lt_zero _)
    | succ i => exact rest.nothing i (Nat.lt_of_succ_lt_succ below) (Nat.lt_of_succ_lt_succ behind)
  case lexer =>
    rw [least]
    exact rest.lexer
  case events =>
    rw [least, events_succ]
    exact congrArg (_ ++ ·) rest.events
  case finished => exact fun less => rest.finished (Nat.lt_of_succ_lt_succ less)

theorem delivers_pull (stop : l.StopsAt ignoreNewline k) (n : Nat) :
    l.Delivers ignoreNewline k n ((l.tokens ignoreNewline).pull n) := by
  induction n generalizing l k with
  | zero =>
    constructor
    case asked => rfl
    case tokens => exact fun i below => absurd below (Nat.not_lt_zero i)
    case ended => exact fun less => absurd less (Nat.not_lt_zero k)
    case fault => exact fun less => absurd less (Nat.not_lt_zero k)
    case nothing => exact fun i below => absurd below (Nat.not_lt_zero i)
    case lexer =>
      rw [Nat.zero_min]
      rfl
    case events =>
      rw [Nat.zero_min]
      rfl
    case finished => exact fun less => absurd less (Nat.not_lt_zero k)
  | succ n ih =>
    cases k with
    | zero => exact delivers_stop stop.stops n
    | succ k => exact delivers_goesOn stop.head (ih stop.tail)

theorem exists_items_drain (stop : l.StopsAt ignoreNewline k) :
    ∃ ts : List Token,
      (List.range k).map (fun i => (l.nthToken ignoreNewline i).answer) = ts.map .ok ∧
      (l.tokens ignoreNewline).drain.items =
        ts.map .ok ++ (itemOf (l.nthToken ignoreNewline k).answer).toList := by
  induction k generalizing l with
  | zero =>
    have stops : answerGoesOn (l.nextToken ignoreNewline).answer = false := stop.stops
    have last := next_tokens l ignoreNewline
    rw [stops] at last
    refine ⟨[], rfl, ?_⟩
    change _ = (itemOf (l.nextToken ignoreNewline).answer).toList
    cases item : itemOf (l.nextToken ignoreNewline).answer with
    | none =>
      refine items_drain_of_none ?_
      rw [last]
      exact item
    | some i =>
      have delivered : (l.tokens ignoreNewline).next.item? = some i := by
        rw [last]
        exact item
      have ended : (l.tokens ignoreNewline).next.stream.next.item? = none := by
        rw [last, next_of_finished rfl]
      rw [items_drain_of_some delivered, items_drain_of_none ended]
      rfl
  | succ k ih =>
    obtain ⟨ts, answers, rest⟩ := ih stop.tail
    obtain ⟨t, found, -⟩ := exists_token_of_meets stop.head
    have next := next_tokens_of_goesOn stop.head
    rw [found] at next
    have delivered : (l.tokens ignoreNewline).next.item? = some (.ok t) := by rw [next]
    refine ⟨t :: ts, ?_, ?_⟩
    · rw [List.range_succ_eq_map, List.map_cons, List.map_map, List.map_cons, ← answers, ← found]
      rfl
    · rw [items_drain_of_some delivered, next, rest]
      rfl

end TokenStream

/-- From any state on, a stream gives what consuming token by token gives up to the first end or
fault, and then it neither gives nor consumes nor reports anything. All tokens of a text are those
that come before such a stop. -/
theorem streams_follow_loops :
    (∀ (l : Lexer υ) (ignoreNewline : Bool), ∃ k, l.StopsAt ignoreNewline k ∧
      ∀ n, l.Delivers ignoreNewline k n ((l.tokens ignoreNewline).pull n)) ∧
    ∀ text, ∃ k, (Lexer.plain text).StopsAt false k ∧ ∃ ts : List Token,
      (List.range k).map (fun i => ((Lexer.plain text).nthToken false i).answer) = ts.map .ok ∧
      tokenize text = ((Lexer.plain text).nthToken false k).answer.map fun _ => ts := by
  constructor
  · intro l ignoreNewline
    obtain ⟨k, stop⟩ := l.exists_stopsAt ignoreNewline
    exact ⟨k, stop, TokenStream.delivers_pull stop⟩
  · intro text
    obtain ⟨k, stop⟩ := (Lexer.plain text).exists_stopsAt false
    obtain ⟨ts, answers, items⟩ := TokenStream.exists_items_drain stop
    refine ⟨k, stop, ts, answers, ?_⟩
    have stops := stop.stops
    unfold tokenize
    rw [items]
    cases last : ((Lexer.plain text).nthToken false k).answer with
    | ok t =>
      rw [last] at stops
      rw [itemOf_of_end stops, Option.toList_none, List.append_nil]
      exact mapM_ok ts
    | error f => exact mapM_ok_error ts f

/-- A stream that a second point has finished gives nothing more, though the loop goes on. -/
example :
    let l := Lexer.plain "1..2"
    (((l.tokens false).pull 3).items.drop 1 = [none, none]) ∧
      (l.nthToken false 1).answer = .ok ⟨.number, ".2", ⟨2, 4⟩, ⟨2, 1, 3⟩⟩ := by
  decide +kernel

end Lexing
