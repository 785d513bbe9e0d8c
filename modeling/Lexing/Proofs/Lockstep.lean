import Lexing.Proofs.Session
import Mathlib.Data.List.Forall2

/-! Lockstep. Whatever a lexer is asked, it asks its scanner. So two sessions that take the same steps
hear of like things as long as their scanners answer alike, and what is known of every answer of the
scanner is known of everything that is heard. -/
namespace Lexing

variable {υ : Type}

/-- Both answers are good or both are bad, and what they hold is related. -/
inductive Matched {ε α : Type} (F : ε → ε → Prop) (T : α → α → Prop) :
    Except ε α → Except ε α → Prop where
  | ok {a b} : T a b → Matched F T (.ok a) (.ok b)
  | error {e f} : F e f → Matched F T (.error e) (.error f)

theorem Matched.map {ε α β : Type} {F : ε → ε → Prop} {T : α → α → Prop} {U : β → β → Prop}
    {f : α → β} {x y : Except ε α} (matched : Matched F T x y)
    (kept : ∀ a b, T a b → U (f a) (f b)) : Matched F U (x.map f) (y.map f) := by
  cases matched with
  | ok same => exact .ok (kept _ _ same)
  | error same => exact .error same

section Alike

variable (T : Token → Token → Prop) (F : Fault → Fault → Prop)

inductive Refusal.Alike : Refusal → Refusal → Prop where
  | fault {f g} : F f g → Alike (.fault f) (.fault g)
  | mismatch {e t u} : T t u → Alike (.mismatch ⟨e, t⟩) (.mismatch ⟨e, u⟩)
  | invalidNumber {t u} : T t u →
      Alike (.invalidNumber t.text t.pos) (.invalidNumber u.text u.pos)

inductive Event.Alike : Event → Event → Prop where
  | consumed {t u} : T t u → Alike (.consumed t) (.consumed u)
  | faulted {f g} : F f g → Alike (.faulted f) (.faulted g)
  | mismatched {e t u} : T t u → Alike (.mismatched ⟨e, t⟩) (.mismatched ⟨e, u⟩)

inductive Reply.Alike : Reply → Reply → Prop where
  | token {a b} : Matched F T a b → Alike (.token a) (.token b)
  | flag {a b} : Matched F Eq a b → Alike (.flag a) (.flag b)
  | count {a b} : Matched F Eq a b → Alike (.count a) (.count b)
  | expected {a b} : Matched F (fun x y => T x.1 y.1 ∧ x.2 = y.2) a b →
      Alike (.expected a) (.expected b)
  | required {a b} : Matched (Refusal.Alike T F) T a b → Alike (.required a) (.required b)
  | number {a b} : Matched (Refusal.Alike T F) Eq a b → Alike (.number a) (.number b)
  | text {a b} : Matched (Refusal.Alike T F) Eq a b → Alike (.text a) (.text b)
  | items {is js} : List.Forall₂ (Option.Rel (Matched F T)) is js → Alike (.items is) (.items js)

variable (C : Cursor → Cursor → Prop)

structure Heard.Alike (h k : Heard υ) : Prop where
  reply : h.reply.Alike T F k.reply
  cursor : C h.lexer.cursor k.lexer.cursor
  events : List.Forall₂ (Event.Alike T F) h.events k.events

structure Session.Alike (x y : Session υ) : Prop where
  cursor : C x.lexer.cursor y.lexer.cursor
  saved : List.Forall₂ (fun l m => C l.cursor m.cursor) x.saved y.saved
  replies : List.Forall₂ (Reply.Alike T F) x.replies y.replies
  events : List.Forall₂ (Event.Alike T F) x.events y.events

/-- Related cursors stay related by every move, read the same text on and are answered alike. Tokens
that are alike are of the same kind and show the same text, for that is what a lexer looks at. -/
structure Lockstep : Prop where
  kind {t u : Token} : T t u → u.kind = t.kind
  text {t u : Token} : T t u → u.text = t.text
  source {c d : Cursor} : C c d → d.source = c.source
  offset {c d : Cursor} : C c d → d.offset = c.offset
  bump {c d : Cursor} : C c d → C c.bump d.bump
  advance {c d : Cursor} : C c d → ∀ n, C (c.advance n) (d.advance n)
  eatWhile {c d : Cursor} : C c d → ∀ p, C (c.eatWhile p) (d.eatWhile p)
  skipToDelimiter {c d : Cursor} : C c d → C c.skipToDelimiter.2 d.skipToDelimiter.2
  answer {c d : Cursor} : C c d → ∀ ignoreNewline,
    Matched F T (c.nextToken ignoreNewline).answer (d.nextToken ignoreNewline).answer
  next {c d : Cursor} : C c d → ∀ ignoreNewline,
    C (c.nextToken ignoreNewline).cursor (d.nextToken ignoreNewline).cursor

end Alike

/-! Passing over newlines, one turn of the loop each. -/
namespace Lexer

theorem skipNewlines_go_of_fault {l : Lexer υ} {f : Fault} (found : l.isNextKind .newline = .error f)
    (count : Nat) (events : Array Event) :
    skipNewlines.go l count events = ⟨.error f, l, events.toList⟩ := by
  rw [skipNewlines.go]
  split <;> simp_all

theorem skipNewlines_go_of_other {l : Lexer υ} (found : l.isNextKind .newline = .ok false)
    (count : Nat) (events : Array Event) :
    skipNewlines.go l count events = ⟨.ok count, l, events.toList⟩ := by
  rw [skipNewlines.go]
  split <;> simp_all

theorem answer_of_isNextKind {l : Lexer υ} {k : Token.Kind} (found : l.isNextKind k = .ok true) :
    ∃ t, (l.nextToken false).answer = .ok t := by
  cases answer : (l.nextToken false).answer with
  | ok t => exact ⟨t, rfl⟩
  | error f =>
    have failed : l.isNextKind k = .error f := congrArg (Except.map _) answer
    rw [found] at failed
    cases failed

theorem skipNewlines_go_of_newline {l : Lexer υ} (found : l.isNextKind .newline = .ok true)
    (count : Nat) (events : Array Event) :
    skipNewlines.go l count events = skipNewlines.go (l.nextToken false).lexer (count + 1)
      (events ++ (l.nextToken false).events) := by
  obtain ⟨t, answer⟩ := answer_of_isNextKind found
  rw [skipNewlines.go]
  split <;> simp_all

end Lexer

theorem forall₂_getD {α : Type} {R : α → α → Prop} {as bs : List α} (all : List.Forall₂ R as bs)
    {a b : α} (default : R a b) (k : Nat) : R (as.getD k a) (bs.getD k b) := by
  induction all generalizing k with
  | nil => exact default
  | cons first rest ih =>
    cases k with
    | zero => exact first
    | succ k => exact ih k

namespace Session.Alike

variable {T : Token → Token → Prop} {F : Fault → Fault → Prop} {C : Cursor → Cursor → Prop}
  {x y : Session υ}

theorem move (alike : x.Alike T F C y) {c d : Cursor} (related : C c d) :
    (x.move c).Alike T F C (y.move d) :=
  { alike with cursor := related }

theorem hear (alike : x.Alike T F C y) {h k : Heard υ} (heard : h.Alike T F C k) :
    (x.hear h).Alike T F C (y.hear k) where
  cursor := heard.cursor
  saved := alike.saved
  replies := List.rel_append alike.replies (.cons heard.reply .nil)
  events := List.rel_append alike.events heard.events

theorem mono {D : Cursor → Cursor → Prop} (alike : x.Alike T F C y)
    (weaker : ∀ {c d}, C c d → D c d) : x.Alike T F D y where
  cursor := weaker alike.cursor
  saved := alike.saved.imp fun _ _ related => weaker related
  replies := alike.replies
  events := alike.events

end Session.Alike

namespace Lockstep

variable {T : Token → Token → Prop} {F : Fault → Fault → Prop} {C : Cursor → Cursor → Prop}
  (lockstep : Lockstep T F C) {l m : Lexer υ}
include lockstep

theorem hasMore {t u : Token} (same : T t u) : t.hasMore = u.hasMore := by
  rw [Token.hasMore, Token.hasMore, Token.isEndOfStream, Token.isEndOfStream, lockstep.kind same]

theorem hasKind {t u : Token} (same : T t u) (k : Token.Kind) : t.hasKind k = u.hasKind k := by
  rw [Token.hasKind, Token.hasKind, lockstep.hasMore same, lockstep.kind same]

theorem admits {t u : Token} (same : T t u) (e : Expected) : e.admits t = e.admits u := by
  cases e with
  | kind k => rw [Expected.admits, Expected.admits, lockstep.kind same]
  | symbol text =>
    rw [Expected.admits, Expected.admits, Token.isSymbol, Token.isSymbol, lockstep.kind same,
      lockstep.text same]

theorem remaining (related : C l.cursor m.cursor) : l.remaining = m.remaining := by
  rw [Lexer.remaining, Lexer.remaining, lockstep.source related, lockstep.offset related]

theorem isNextKind (related : C l.cursor m.cursor) (k : Token.Kind) :
    Matched F Eq (l.isNextKind k) (m.isNextKind k) :=
  (lockstep.answer related false).map fun _ _ same => lockstep.hasKind same k

theorem events_nextToken (related : C l.cursor m.cursor) (ignoreNewline : Bool) :
    List.Forall₂ (Event.Alike T F) (l.nextToken ignoreNewline).events
      (m.nextToken ignoreNewline).events := by
  have answers := lockstep.answer related ignoreNewline
  unfold Lexer.nextToken
  dsimp only
  generalize (l.cursor.nextToken ignoreNewline).answer = a at answers
  generalize (m.cursor.nextToken ignoreNewline).answer = b at answers
  cases answers with
  | ok same => exact .cons (.consumed same) .nil
  | error same => exact .cons (.faulted same) .nil

theorem require (related : C l.cursor m.cursor) (e : Expected) :
    Matched (Refusal.Alike T F) T (l.require e).answer (m.require e).answer ∧
      C (l.require e).lexer.cursor (m.require e).lexer.cursor ∧
      List.Forall₂ (Event.Alike T F) (l.require e).events (m.require e).events := by
  have answers := lockstep.answer related false
  have behind := lockstep.next related false
  have reports := lockstep.events_nextToken related false
  change Matched F T (l.nextToken false).answer (m.nextToken false).answer at answers
  unfold Lexer.require
  dsimp only
  generalize (l.nextToken false).answer = a at answers
  generalize (m.nextToken false).answer = b at answers
  cases answers with
  | error same => exact ⟨.error (.fault same), behind, reports⟩
  | @ok t u same =>
    dsimp only
    rw [lockstep.admits same e]
    cases e.admits u with
    | true => exact ⟨.ok same, behind, reports⟩
    | false =>
      exact ⟨.error (.mismatch same), behind,
        List.rel_append reports (.cons (.mismatched same) .nil)⟩

theorem number {t u : Token} (same : T t u) :
    Matched (Refusal.Alike T F) Eq t.number u.number := by
  have text := lockstep.text same
  cases value : Decimal.ofText? t.text with
  | none =>
    rw [Token.number, Token.number, text, value]
    have alike := Refusal.Alike.invalidNumber (F := F) same
    rw [text] at alike
    exact .error alike
  | some x =>
    rw [Token.number, Token.number, text, value]
    exact .ok rfl

theorem requireNumber (related : C l.cursor m.cursor) :
    Matched (Refusal.Alike T F) Eq l.requireNumber.answer m.requireNumber.answer := by
  obtain ⟨answers, -, -⟩ := lockstep.require related (.kind .number)
  unfold Lexer.requireNumber
  dsimp only
  generalize (l.require (.kind .number)).answer = a at answers
  generalize (m.require (.kind .number)).answer = b at answers
  cases answers with
  | ok same => exact lockstep.number same
  | error same => exact .error same

theorem requireText (related : C l.cursor m.cursor) (e : Expected) :
    Matched (Refusal.Alike T F) Eq ((l.require e).map Token.text).answer
      ((m.require e).map Token.text).answer :=
  (lockstep.require related e).1.map fun _ _ same => (lockstep.text same).symm

theorem skipNewlines (related : C l.cursor m.cursor) (count : Nat) {events reports : Array Event}
    (before : List.Forall₂ (Event.Alike T F) events.toList reports.toList) :
    ((Lexer.skipNewlines.go l count events).heard .count).Alike T F C
      ((Lexer.skipNewlines.go m count reports).heard .count) := by
  induction unread : l.cursor.unread using Nat.strongRecOn
    generalizing l m count events reports with
  | ind bytes ih =>
    -- Both loops look ahead before each turn, and as they see alike they stop together.
    have seen := lockstep.isNextKind related .newline
    generalize here : l.isNextKind .newline = a at seen
    generalize there : m.isNextKind .newline = b at seen
    cases seen with
    | error same =>
      rw [Lexer.skipNewlines_go_of_fault here, Lexer.skipNewlines_go_of_fault there]
      exact ⟨.count (.error same), related, before⟩
    | @ok found _ same =>
      cases same
      cases found with
      | false =>
        rw [Lexer.skipNewlines_go_of_other here, Lexer.skipNewlines_go_of_other there]
        exact ⟨.count (.ok rfl), related, before⟩
      | true =>
        rw [Lexer.skipNewlines_go_of_newline here, Lexer.skipNewlines_go_of_newline there]
        refine ih _ ?_ (lockstep.next related false) (count + 1) ?_ rfl
        · rw [← unread]
          exact Lexer.unread_nextToken_lt_of_isNextKind here
        · rw [Array.toList_appendList, Array.toList_appendList]
          exact List.rel_append before (lockstep.events_nextToken related false)

theorem nextItem {s s' : TokenStream υ} (related : C s.lexer.cursor s'.lexer.cursor)
    (flag : s'.ignoreNewline = s.ignoreNewline) (fin : s'.finished = s.finished) :
    Option.Rel (Matched F T) s.next.item? s'.next.item? ∧
      C s.next.stream.lexer.cursor s'.next.stream.lexer.cursor ∧
      s'.next.stream.ignoreNewline = s.next.stream.ignoreNewline ∧
      s'.next.stream.finished = s.next.stream.finished ∧
      List.Forall₂ (Event.Alike T F) s.next.events s'.next.events := by
  have answers := lockstep.answer related s.ignoreNewline
  have behind := lockstep.next related s.ignoreNewline
  have reports := lockstep.events_nextToken related s.ignoreNewline
  obtain ⟨l, ignoreNewline, finished⟩ := s
  obtain ⟨m, _, _⟩ := s'
  cases flag
  cases fin
  change Matched F T (l.nextToken ignoreNewline).answer (m.nextToken ignoreNewline).answer at answers
  unfold TokenStream.next
  dsimp only at *
  generalize (l.nextToken ignoreNewline).answer = a at answers
  generalize (m.nextToken ignoreNewline).answer = b at answers
  cases finished with
  | true => exact ⟨.none, related, rfl, rfl, .nil⟩
  | false =>
    cases answers with
    | error same => exact ⟨.some (.error same), behind, rfl, rfl, reports⟩
    | @ok t u same =>
      dsimp only
      rw [lockstep.hasMore same]
      cases u.hasMore with
      | true => exact ⟨.some (.ok same), behind, rfl, rfl, reports⟩
      | false => exact ⟨.none, behind, rfl, rfl, reports⟩

theorem pull (n : Nat) {s s' : TokenStream υ} (related : C s.lexer.cursor s'.lexer.cursor)
    (flag : s'.ignoreNewline = s.ignoreNewline) (fin : s'.finished = s.finished) :
    List.Forall₂ (Option.Rel (Matched F T)) (s.pull n).items (s'.pull n).items ∧
      C (s.pull n).stream.lexer.cursor (s'.pull n).stream.lexer.cursor ∧
      List.Forall₂ (Event.Alike T F) (s.pull n).events (s'.pull n).events := by
  induction n generalizing s s' with
  | zero => exact ⟨.nil, related, .nil⟩
  | succ n ih =>
    obtain ⟨item, behind, flags, fins, reports⟩ := lockstep.nextItem related flag fin
    obtain ⟨items, last, further⟩ := ih behind flags fins
    exact ⟨.cons item items, last, List.rel_append reports further⟩

/-- Whatever they are asked, they hear alike. -/
theorem ask (related : C l.cursor m.cursor) (c : Call) :
    (l.ask c).Alike T F C (m.ask c) := by
  have answers := lockstep.answer related
  have behind := lockstep.next related false
  have reports := lockstep.events_nextToken related false
  cases c with
  | next ignoreNewline =>
    exact ⟨.token (answers ignoreNewline), lockstep.next related ignoreNewline,
      lockstep.events_nextToken related ignoreNewline⟩
  | peek ignoreNewline => exact ⟨.token (answers ignoreNewline), related, .nil⟩
  | isNextKind k => exact ⟨.flag (lockstep.isNextKind related k), related, .nil⟩
  | isAtEnd =>
    refine ⟨.flag (.ok ?_), related, .nil⟩
    rw [Lexer.isAtEnd, Lexer.isAtEnd, lockstep.remaining related]
  | remaining => exact ⟨.text (.ok (lockstep.remaining related)), related, .nil⟩
  | eat =>
    exact ⟨.flag ((answers false).map fun _ _ same => lockstep.hasMore same), behind, reports⟩
  | skipNewlines => exact lockstep.skipNewlines related 0 .nil
  | expect k =>
    refine ⟨.expected ((answers false).map ?_), behind, reports⟩
    intro t u same
    exact ⟨same, lockstep.hasKind same k⟩
  | requireSymbol text =>
    obtain ⟨answer, after, heard⟩ := lockstep.require related (.symbol text)
    exact ⟨.required answer, after, heard⟩
  | requireNumber =>
    obtain ⟨-, after, heard⟩ := lockstep.require related (.kind .number)
    exact ⟨.number (lockstep.requireNumber related), after, heard⟩
  | requireString =>
    obtain ⟨-, after, heard⟩ := lockstep.require related (.kind .string)
    exact ⟨.text (lockstep.requireText related (.kind .string)), after, heard⟩
  | requireIdentifier =>
    obtain ⟨-, after, heard⟩ := lockstep.require related (.kind .identifier)
    exact ⟨.text (lockstep.requireText related (.kind .identifier)), after, heard⟩
  | take ignoreNewline n =>
    have streams : C (l.tokens ignoreNewline).lexer.cursor (m.tokens ignoreNewline).lexer.cursor :=
      related
    obtain ⟨items, after, heard⟩ := lockstep.pull n streams rfl rfl
    exact ⟨.items items, after, heard⟩

variable {x y : Session υ}

theorem step (alike : x.Alike T F C y) (st : Step) : (x.step st).Alike T F C (y.step st) := by
  have related := alike.cursor
  cases st with
  | bump => exact alike.move (lockstep.bump related)
  | advance n => exact alike.move (lockstep.advance related n)
  | eatWhile p => exact alike.move (lockstep.eatWhile related p)
  | eatBlanks => exact alike.move (lockstep.eatWhile related Byte.isBlank)
  | skipToDelimiter => exact alike.move (lockstep.skipToDelimiter related)
  | save => exact { alike with saved := List.rel_append alike.saved (.cons related .nil) }
  | restore k => exact { alike with cursor := forall₂_getD alike.saved related k }
  | scan ignoreNewline =>
    exact alike.hear
      ⟨.token (lockstep.answer related ignoreNewline), lockstep.next related ignoreNewline, .nil⟩
  | call c => exact alike.hear (lockstep.ask related c)

theorem run (alike : x.Alike T F C y) (steps : List Step) :
    (x.run steps).Alike T F C (y.run steps) := by
  induction steps generalizing x y with
  | nil => exact alike
  | cons st steps ih => exact ih (lockstep.step alike st)

end Lockstep

/-! One session beside itself. -/

/-- The same thing twice, with a property. -/
inductive Twin {α : Type} (P : α → Prop) : α → α → Prop where
  | intro {a} : P a → Twin P a a

section Twin

variable {P : Token → Prop} {Q : Fault → Prop} {H : Cursor → Prop}

theorem Twin.self {α : Type} {P : α → Prop} {a b : α} (twin : Twin P a b) : P a := by
  cases twin with
  | intro own => exact own

def collected {ε α β : Type} (bad : ε → List β) (good : α → List β) : Except ε α → List β
  | .ok a => good a
  | .error e => bad e

def Reply.collect {β : Type} (refused : Refusal → List β) (given : Token → List β) :
    Reply → List β
  | token answer => collected (fun f => refused (.fault f)) given answer
  | flag answer => collected (fun f => refused (.fault f)) (fun _ => []) answer
  | count answer => collected (fun f => refused (.fault f)) (fun _ => []) answer
  | expected answer => collected (fun f => refused (.fault f)) (fun t => given t.1) answer
  | required answer => collected refused given answer
  | number answer => collected refused (fun _ => []) answer
  | text answer => collected refused (fun _ => []) answer
  | items is => is.flatMap fun i => (i.map (collected (fun f => refused (.fault f)) given)).getD []

theorem Matched.collected {ε α β : Type} {E : ε → ε → Prop} {A : α → α → Prop} {bad : ε → List β}
    {good : α → List β} {R : β → Prop} {x : Except ε α} (matched : Matched E A x x)
    (refused : ∀ e, E e e → ∀ b ∈ bad e, R b) (given : ∀ a, A a a → ∀ b ∈ good a, R b) :
    ∀ b ∈ collected bad good x, R b := by
  cases matched with
  | ok own => exact given _ own
  | error own => exact refused _ own

theorem Reply.Alike.collect {T : Token → Token → Prop} {F : Fault → Fault → Prop} {β : Type}
    {refused : Refusal → List β} {given : Token → List β} {R : β → Prop} {r : Reply}
    (alike : r.Alike T F r) (bad : ∀ x, Refusal.Alike T F x x → ∀ b ∈ refused x, R b)
    (good : ∀ t, T t t → ∀ b ∈ given t, R b) : ∀ b ∈ r.collect refused given, R b := by
  have faulty : ∀ f, F f f → ∀ b ∈ refused (.fault f), R b := fun f own => bad _ (.fault own)
  cases alike with
  | token own => exact own.collected faulty good
  | flag own => exact own.collected faulty fun _ _ => List.forall_mem_nil R
  | count own => exact own.collected faulty fun _ _ => List.forall_mem_nil R
  | expected own => exact own.collected faulty fun t here => good t.1 here.1
  | required own => exact own.collected bad good
  | number own => exact own.collected bad fun _ _ => List.forall_mem_nil R
  | text own => exact own.collected bad fun _ _ => List.forall_mem_nil R
  | @items is _ own =>
    intro b member
    obtain ⟨i, asked, held⟩ := List.mem_flatMap.mp member
    have here := List.forall₂_same.mp own i asked
    cases here with
    | none => cases held
    | some own => exact own.collected faulty good b held

/-- Cursors on which `H` holds keep it in every move, and find tokens and faults with `P` and `Q`. -/
structure Invariant (P : Token → Prop) (Q : Fault → Prop) (H : Cursor → Prop) : Prop where
  bump {c : Cursor} : H c → H c.bump
  advance {c : Cursor} : H c → ∀ n, H (c.advance n)
  eatWhile {c : Cursor} : H c → ∀ p, H (c.eatWhile p)
  skipToDelimiter {c : Cursor} : H c → H c.skipToDelimiter.2
  next {c : Cursor} : H c → ∀ ignoreNewline, H (c.nextToken ignoreNewline).cursor
  token {c : Cursor} {ignoreNewline : Bool} {t : Token} : H c →
    (c.nextToken ignoreNewline).answer = .ok t → P t
  fault {c : Cursor} {ignoreNewline : Bool} {f : Fault} : H c →
    (c.nextToken ignoreNewline).answer = .error f → Q f

theorem Invariant.lockstep (invariant : Invariant P Q H) : Lockstep (Twin P) (Twin Q) (Twin H) where
  kind := by rintro t _ ⟨_⟩; rfl
  text := by rintro t _ ⟨_⟩; rfl
  source := by rintro c _ ⟨_⟩; rfl
  offset := by rintro c _ ⟨_⟩; rfl
  bump := by
    rintro c _ ⟨held⟩
    exact ⟨invariant.bump held⟩
  advance := by
    rintro c _ ⟨held⟩ n
    exact ⟨invariant.advance held n⟩
  eatWhile := by
    rintro c _ ⟨held⟩ p
    exact ⟨invariant.eatWhile held p⟩
  skipToDelimiter := by
    rintro c _ ⟨held⟩
    exact ⟨invariant.skipToDelimiter held⟩
  answer := by
    rintro c _ ⟨held⟩ ignoreNewline
    cases answer : (c.nextToken ignoreNewline).answer with
    | ok t => exact .ok ⟨invariant.token held answer⟩
    | error f => exact .error ⟨invariant.fault held answer⟩
  next := by
    rintro c _ ⟨held⟩ ignoreNewline
    exact ⟨invariant.next held ignoreNewline⟩

theorem Invariant.reached (invariant : Invariant P Q H) {text : String} {tabWidth : UInt32}
    (start : H { source := ⟨text⟩, tabWidth := tabWidth }) (userData : υ) (steps : List Step) :
    (Session.reached text tabWidth userData steps).Alike (Twin P) (Twin Q) (Twin H)
      (.reached text tabWidth userData steps) :=
  invariant.lockstep.run ⟨⟨start⟩, .nil, .nil, .nil⟩ steps

end Twin

end Lexing
