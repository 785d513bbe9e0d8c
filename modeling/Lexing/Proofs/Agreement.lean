import Lexing.Proofs.Numerals

/-! Agreement. Everything that consumes one token leaves a lexer in the same place, and judges the
token as looking ahead does: what is seen ahead is what is told of it, and a demand is met for just the
tokens that are seen to be of its kind. A symbol that can be met with is one punctuation character. -/
namespace Lexing

variable {υ : Type}

structure Lexer.LeadsTo (l m : Lexer υ) : Prop where
  eat : l.eat.lexer = m
  expect : ∀ k, (l.expect k).lexer = m
  symbol : ∀ text, (l.requireSymbol text).lexer = m
  number : l.requireNumber.lexer = m
  string : l.requireString.lexer = m
  identifier : l.requireIdentifier.lexer = m

/-- The fault that is next is the answer to everything, passed on by the demands. -/
structure Lexer.FailsWith (l : Lexer υ) (f : Fault) : Prop where
  ahead : ∀ k, l.isNextKind k = .error f
  eat : l.eat.answer = .error f
  expect : ∀ k, (l.expect k).answer = .error f
  symbol : ∀ text, (l.requireSymbol text).answer = .error (.fault f)
  number : l.requireNumber.answer = .error (.fault f)
  string : l.requireString.answer = .error (.fault f)
  identifier : l.requireIdentifier.answer = .error (.fault f)

/-- A demand is met on one condition, and refused for the token that is there on no other. -/
structure Demanded {α : Type} (e : Expected) (t : Token) (condition : Prop) (gives : α → Prop)
    (answer : Except Refusal α) : Prop where
  met : condition → ∃ a, answer = .ok a ∧ gives a
  refused : ¬ condition → answer = .error (.mismatch ⟨e, t⟩)

/-- The token that is next is judged by its kind, the end of the stream as of none, and a symbol by
its text. -/
structure Lexer.Judges (l : Lexer υ) (t : Token) : Prop where
  eat : l.eat.answer = .ok t.hasMore
  kind : ∀ k, ∃ flag, l.isNextKind k = .ok flag ∧ (l.expect k).answer = .ok (t, flag) ∧
    (flag = true ↔ t.kind ≠ .endOfStream ∧ t.kind = k)
  number : Demanded (.kind .number) t (l.isNextKind .number = .ok true) (t.number = .ok ·)
    l.requireNumber.answer
  string : Demanded (.kind .string) t (l.isNextKind .string = .ok true) (· = t.text)
    l.requireString.answer
  identifier : Demanded (.kind .identifier) t (l.isNextKind .identifier = .ok true) (· = t.text)
    l.requireIdentifier.answer
  symbol : ∀ text, Demanded (.symbol text) t (t.kind = .symbol ∧ t.text = text) (· = t)
    (l.requireSymbol text).answer
  punctuation : ∀ text u, (l.requireSymbol text).answer = .ok u →
    ∃ c, text = .singleton c ∧ isPunctuation c = true ∧ c ≠ '"' ∧ c ≠ '_'

theorem Demanded.map {α β : Type} {e : Expected} {t : Token} {condition : Prop} {gives : α → Prop}
    {gives' : β → Prop} {answer : Except Refusal α} (demanded : Demanded e t condition gives answer)
    {f : α → β} (kept : ∀ a, gives a → gives' (f a)) :
    Demanded e t condition gives' (answer.map f) where
  met := by
    intro holds
    obtain ⟨a, rfl, given⟩ := demanded.met holds
    exact ⟨f a, rfl, kept a given⟩
  refused := by
    intro fails
    rw [demanded.refused fails]
    rfl

theorem Demanded.congr {α : Type} {e : Expected} {t : Token} {p q : Prop} {gives : α → Prop}
    {answer : Except Refusal α} (demanded : Demanded e t p gives answer) (same : p ↔ q) :
    Demanded e t q gives answer where
  met holds := demanded.met (same.mpr holds)
  refused fails := demanded.refused fun holds => fails (same.mp holds)

theorem Demanded.holds {α : Type} {e : Expected} {t : Token} {condition : Prop} {gives : α → Prop}
    {answer : Except Refusal α} (demanded : Demanded e t condition gives answer) {a : α}
    (delivered : answer = .ok a) : condition := by
  apply Classical.byContradiction
  intro fails
  rw [demanded.refused fails] at delivered
  cases delivered

theorem leadsTo_nextToken (l : Lexer υ) : l.LeadsTo (l.nextToken false).lexer where
  eat := rfl
  expect _ := rfl
  symbol text := Source.lexer_require l (.symbol text)
  number := Source.lexer_require l (.kind .number)
  string := Source.lexer_require l (.kind .string)
  identifier := Source.lexer_require l (.kind .identifier)

theorem require_of_fault {l : Lexer υ} {f : Fault} (found : (l.nextToken false).answer = .error f)
    (e : Expected) : (l.require e).answer = .error (.fault f) := by
  rcases l.require_cases e with ⟨g, here, same⟩ | ⟨t, here, -, -⟩ | ⟨t, here, -, -⟩
  · rw [found] at here
    cases here
    rw [same]
  · rw [found] at here
    cases here
  · rw [found] at here
    cases here

theorem failsWith_nextToken {l : Lexer υ} {f : Fault}
    (found : (l.nextToken false).answer = .error f) : l.FailsWith f where
  ahead _ := congrArg (Except.map _) found
  eat := congrArg (Except.map _) found
  expect _ := congrArg (Except.map _) found
  symbol text := require_of_fault found (.symbol text)
  number := congrArg (Except.bind · Token.number) (require_of_fault found (.kind .number))
  string := congrArg (Except.map _) (require_of_fault found (.kind .string))
  identifier := congrArg (Except.map _) (require_of_fault found (.kind .identifier))

theorem demanded_require {l : Lexer υ} {t : Token} (found : (l.nextToken false).answer = .ok t)
    (e : Expected) : Demanded e t (e.admits t = true) (· = t) (l.require e).answer := by
  rcases l.require_cases e with ⟨f, here, -⟩ | ⟨u, here, admitted, same⟩ | ⟨u, here, other, same⟩
  · rw [found] at here
    cases here
  · rw [found] at here
    cases here
    refine ⟨fun _ => ⟨t, ?_, rfl⟩, fun refused => absurd admitted refused⟩
    rw [same]
  · rw [found] at here
    cases here
    refine ⟨fun admitted => ?_, fun _ => ?_⟩
    · rw [other] at admitted
      cases admitted
    · rw [same]

theorem hasKind_iff {t : Token} {k : Token.Kind} :
    t.hasKind k = true ↔ t.kind ≠ .endOfStream ∧ t.kind = k := by
  simp [Token.hasKind, Token.hasMore, Token.isEndOfStream]

/-- A token is admitted as of a kind just if it is seen to be of it. Only the end of the stream would
make a difference, and nothing that can be demanded is of that kind. -/
theorem admits_iff_isNextKind {l : Lexer υ} {t : Token}
    (found : (l.nextToken false).answer = .ok t) {k : Token.Kind} (more : k ≠ .endOfStream) :
    (Expected.kind k).admits t = true ↔ l.isNextKind k = .ok true := by
  have seen : l.isNextKind k = .ok (t.hasKind k) := congrArg (Except.map _) found
  have same : t.kind = k ↔ t.kind ≠ .endOfStream ∧ t.kind = k := by
    constructor
    · rintro rfl
      exact ⟨more, rfl⟩
    · exact And.right
  rw [seen, Except.ok.injEq, hasKind_iff, ← same]
  exact beq_iff_eq

theorem demanded_text {l : Lexer υ} {t : Token} (found : (l.nextToken false).answer = .ok t)
    {k : Token.Kind} (more : k ≠ .endOfStream) :
    Demanded (.kind k) t (l.isNextKind k = .ok true) (· = t.text)
      ((l.require (.kind k)).map Token.text).answer :=
  ((demanded_require found (.kind k)).congr (admits_iff_isNextKind found more)).map
    fun _ same => congrArg Token.text same

theorem demanded_symbol {l : Lexer υ} {t : Token} (found : (l.nextToken false).answer = .ok t)
    (text : String) :
    Demanded (.symbol text) t (t.kind = .symbol ∧ t.text = text) (· = t)
      (l.requireSymbol text).answer := by
  refine (demanded_require found (.symbol text)).congr ?_
  simp [Expected.admits, Token.isSymbol]

theorem Reading.Begins.exists_symbol {bs : List UInt8} {n : Nat}
    (begun : Begins bs (.token .symbol n)) :
    ∃ c, spelled (bs.take n) = .singleton c ∧ isPunctuation c = true ∧ c ≠ '"' ∧ c ≠ '_' := by
  cases begun with
  | @symbol b bs symbol quote score stops =>
    have ascii := mirrors_isSymbol.ascii b symbol
    -- A byte is told from the character that it stands for by nothing but its number.
    have other : ∀ d : UInt8, d.toNat < 0x80 → b ≠ d → Char.ofNat b.toNat ≠ .ofNat d.toNat := by
      intro d short apart same
      have spelling := congrArg String.utf8EncodeChar same
      rw [encodeChar_ofNat ascii, encodeChar_ofNat short] at spelling
      exact apart (List.head_eq_of_cons_eq spelling)
    refine ⟨.ofNat b.toNat, ?_, mirrors_isSymbol.of_byte symbol, ?_, ?_⟩
    · apply String.toList_injective
      rw [List.take_succ_cons, List.take_zero, spelled_ascii (List.forall_mem_singleton.mpr ascii),
        String.toList_ofList, String.toList_singleton]
      rfl
    · exact other Byte.quote (by decide) quote
    · exact other Byte.underscore (by decide) score

namespace Source

variable {s : Source} {tabWidth : UInt32}

theorem symbol_of_nextToken (fits : s.InRange tabWidth) {c : Cursor} (held : s.Holds tabWidth c)
    {ignoreNewline : Bool} {t : Token} (found : (c.nextToken ignoreNewline).answer = .ok t)
    (symbol : t.kind = .symbol) :
    ∃ d, t.text = .singleton d ∧ isPunctuation d = true ∧ d ≠ '"' ∧ d ≠ '_' := by
  obtain ⟨m, kind, n, begun, -, rfl⟩ := exists_tokenAt fits held found
  change kind = .symbol at symbol
  subst symbol
  exact begun.exists_symbol

theorem demanded_number (fits : s.InRange tabWidth) {l : Lexer υ} (held : s.Holds tabWidth l.cursor)
    {t : Token} (found : (l.nextToken false).answer = .ok t) :
    Demanded (.kind .number) t (l.isNextKind .number = .ok true) (t.number = .ok ·)
      l.requireNumber.answer := by
  have token := demanded_require found (.kind .number)
  have seen := admits_iff_isNextKind found (k := .number) (by decide)
  refine (Demanded.mk ?_ ?_ : Demanded _ _ _ _ _).congr seen
  · intro admitted
    obtain ⟨u, delivered, rfl⟩ := token.met admitted
    obtain ⟨v, value⟩ := exists_number fits held found (beq_iff_eq.mp admitted)
    refine ⟨v, ?_, value⟩
    rw [Lexer.requireNumber, delivered]
    exact value
  · intro refused
    rw [Lexer.requireNumber, token.refused refused]
    rfl

theorem judges_nextToken (fits : s.InRange tabWidth) {l : Lexer υ} (held : s.Holds tabWidth l.cursor)
    {t : Token} (found : (l.nextToken false).answer = .ok t) : l.Judges t where
  eat := congrArg (Except.map _) found
  kind k := ⟨t.hasKind k, congrArg (Except.map _) found, congrArg (Except.map _) found, hasKind_iff⟩
  number := demanded_number fits held found
  string := demanded_text found (by decide)
  identifier := demanded_text found (by decide)
  symbol text := demanded_symbol found text
  punctuation text u delivered := by
    obtain ⟨symbol, rfl⟩ := (demanded_symbol found text).holds delivered
    exact symbol_of_nextToken fits held found symbol

/-- In any state that a session comes to, everything that consumes one token leads to where the next
token ends, fails with the fault that is there instead, and judges the token alike. -/
theorem judges_reached (fits : s.InRange tabWidth) (userData : υ) (steps : List Step) :
    let l := (Session.reached s.text tabWidth userData steps).lexer
    let o := l.nextToken false
    l.LeadsTo o.lexer ∧ (∀ f, o.answer = .error f → l.FailsWith f) ∧
      ∀ t, o.answer = .ok t → l.Judges t := by
  intro l o
  have held : s.Holds tabWidth l.cursor := (keeps_reached fits userData steps).lexer
  refine ⟨leadsTo_nextToken l, ?_, ?_⟩
  · intro f found
    exact failsWith_nextToken found
  · intro t found
    exact judges_nextToken fits held found

/-- A quote and an underscore are punctuation, but no demand for them is met: the one opens a string
and the other is a word. -/
theorem judges_underscore :
    let s : Source := ⟨"\"\\é\"_ \""⟩
    let l := (Session.reached s.text 4 () [.call .requireString]).lexer
    let m := (Session.reached s.text 4 () [.call .requireString, .call (.requireSymbol "_")]).lexer
    let t : Token := ⟨.identifier, "_", ⟨5, 6⟩, ⟨5, 1, 5⟩⟩
    let f : Fault := ⟨.unclosedString, ⟨7, 1, 7⟩, ⟨0, "\"\\é\"_ \""⟩⟩
    s.InRange 4 ∧ (l.nextToken false).answer = .ok t ∧ l.Judges t ∧
      (l.requireSymbol "_").answer = .error (.mismatch ⟨.symbol "_", t⟩) ∧
      m.LeadsTo (m.nextToken false).lexer ∧ m.FailsWith f := by
  intro s l m t f
  have fits : s.InRange 4 := by decide
  obtain ⟨-, -, judges⟩ := judges_reached fits () [.call .requireString]
  obtain ⟨leads, fails, -⟩ :=
    judges_reached fits () [.call .requireString, .call (.requireSymbol "_")]
  have found : (l.nextToken false).answer = .ok t := by decide +kernel
  have fault : (m.nextToken false).answer = .error f := by decide +kernel
  exact ⟨fits, found, judges t found, by decide +kernel, leads, fails f fault⟩

end Source

end Lexing
