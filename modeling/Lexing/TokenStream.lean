import Lexing.Lexer

/-! Token streams: the tokens that a lexer still has, one after the other, up to the end or up to
the first fault. The end is not delivered, the fault is, and after either nothing more is read. -/
namespace Lexing

structure TokenStream (υ : Type) where
  lexer : Lexer υ
  ignoreNewline : Bool
  finished : Bool := false

structure TokenStream.Delivery (υ : Type) where
  item? : Option (Except Fault Token)
  stream : TokenStream υ
  events : List Event

structure TokenStream.Deliveries (υ ι : Type) where
  items : List ι
  stream : TokenStream υ
  events : List Event

def Lexer.tokens {υ : Type} (l : Lexer υ) (ignoreNewline : Bool) : TokenStream υ :=
  { lexer := l, ignoreNewline := ignoreNewline }

namespace TokenStream

variable {υ : Type}

def next (s : TokenStream υ) : Delivery υ :=
  if s.finished then ⟨none, s, []⟩
  else
    let o := s.lexer.nextToken s.ignoreNewline
    match o.answer with
    | .ok t =>
      if t.hasMore then ⟨some (.ok t), { s with lexer := o.lexer }, o.events⟩
      else ⟨none, { s with lexer := o.lexer, finished := true }, o.events⟩
    | .error f => ⟨some (.error f), { s with lexer := o.lexer, finished := true }, o.events⟩

theorem next_of_finished {s : TokenStream υ} (fin : s.finished = true) :
    s.next = ⟨none, s, []⟩ := by
  simp [next, fin]

theorem next_of_hasMore {s : TokenStream υ} {t : Token} (unfinished : s.finished = false)
    (found : (s.lexer.nextToken s.ignoreNewline).answer = .ok t) (more : t.hasMore = true) :
    s.next = ⟨some (.ok t), { s with lexer := (s.lexer.nextToken s.ignoreNewline).lexer },
      (s.lexer.nextToken s.ignoreNewline).events⟩ := by
  simp [next, unfinished, found, more]

theorem next_of_end {s : TokenStream υ} {t : Token} (unfinished : s.finished = false)
    (found : (s.lexer.nextToken s.ignoreNewline).answer = .ok t) (none_more : t.hasMore = false) :
    s.next = ⟨none,
      { s with lexer := (s.lexer.nextToken s.ignoreNewline).lexer, finished := true },
      (s.lexer.nextToken s.ignoreNewline).events⟩ := by
  simp [next, unfinished, found, none_more]

theorem next_of_fault {s : TokenStream υ} {f : Fault} (unfinished : s.finished = false)
    (found : (s.lexer.nextToken s.ignoreNewline).answer = .error f) :
    s.next = ⟨some (.error f),
      { s with lexer := (s.lexer.nextToken s.ignoreNewline).lexer, finished := true },
      (s.lexer.nextToken s.ignoreNewline).events⟩ := by
  simp [next, unfinished, found]

def pull (s : TokenStream υ) : Nat → Deliveries υ (Option (Except Fault Token))
  | 0 => ⟨[], s, []⟩
  | n + 1 =>
    let d := s.next
    let rest := d.stream.pull n
    ⟨d.item? :: rest.items, rest.stream, d.events ++ rest.events⟩

/-- Bounds the items still to come. -/
def ahead (s : TokenStream υ) : Nat := s.lexer.cursor.unread + if s.finished then 0 else 1

theorem ahead_next_lt {s : TokenStream υ} {i : Except Fault Token} (h : s.next.item? = some i) :
    s.next.stream.ahead < s.ahead := by
  cases fin : s.finished with
  | true => simp [next_of_finished fin] at h
  | false =>
    cases found : (s.lexer.nextToken s.ignoreNewline).answer with
    | error f =>
      have le := Cursor.unread_nextToken_le s.lexer.cursor s.ignoreNewline
      simp only [next_of_fault fin found, ahead, fin, Lexer.nextToken, if_true,
        Bool.false_eq_true, if_false]
      omega
    | ok t =>
      cases more : t.hasMore with
      | false => simp [next_of_end fin found more] at h
      | true =>
        have lt := Cursor.unread_nextToken_lt found more
        simp only [next_of_hasMore fin found more, ahead, fin, Lexer.nextToken]
        omega

def drain (s : TokenStream υ) : Deliveries υ (Except Fault Token) := go s #[] #[]
where
  go (s : TokenStream υ) (items : Array (Except Fault Token)) (events : Array Event) :
      Deliveries υ (Except Fault Token) :=
    let d := s.next
    match _ : d.item? with
    | none => ⟨items.toList, d.stream, (events ++ d.events).toList⟩
    | some i => go d.stream (items.push i) (events ++ d.events)
  termination_by s.ahead
  decreasing_by exact ahead_next_lt (by assumption)

end TokenStream

/-- All tokens of a text, newlines included, or the first fault. -/
def tokenize (text : String) : Except Fault (List Token) :=
  ((Lexer.plain text).tokens false).drain.items.mapM id

end Lexing
