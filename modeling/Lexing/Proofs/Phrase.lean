import Lexing.Proofs.Grammar

/-! Texts as the grammar has them: lexemes with blanks between them, where nothing glues to a
lexeme. Just these texts can be tokenized, and each of them is made up in one way only. -/
namespace Lexing

abbrev Blanks := { cs : List Char // ∀ c ∈ cs, isBlankChar c = true }

inductive Phrase where
  | tail (w : Blanks)
  /-- Blanks, the lexeme behind them, and the rest of the text. -/
  | piece (w : Blanks) (l : Lexeme) (rest : Phrase)

def Lexeme.token (l : Lexeme) (tabWidth : UInt32) (before : List Char) : Token where
  kind := l.kind
  text := .ofList l.text
  span := ⟨.ofNat (encoded before).length, .ofNat (encoded (before ++ l.chars)).length⟩
  pos := .after tabWidth (encoded before)

namespace Phrase

def written : Phrase → List Char
  | tail w => w.1
  | piece w l rest => w.1 ++ (l.chars ++ rest.written)

/-- No lexeme goes on in what follows it. -/
def Apart : Phrase → Prop
  | tail _ => True
  | piece _ l rest => l.Ends rest.written ∧ rest.Apart

def tokens (tabWidth : UInt32) (before : List Char) : Phrase → List Token
  | tail _ => []
  | piece w l rest =>
    l.token tabWidth (before ++ w.1) :: rest.tokens tabWidth (before ++ w.1 ++ l.chars)

def StartsBlank : Phrase → Prop
  | tail _ => True
  | piece w _ _ => w.1 ≠ []

/-- There are blanks between any two lexemes. -/
def Spaced : Phrase → Prop
  | tail _ => True
  | piece _ _ rest => rest.StartsBlank ∧ rest.Spaced

end Phrase

namespace Lexeme

theorem eq_of_isBlankChar {c : Char} (blank : isBlankChar c = true) :
    c = ' ' ∨ c = '\t' ∨ c = '\r' := by
  simpa [isBlankChar, or_assoc] using blank

theorem not_blank_of_class {q : Char → Bool} (space : q ' ' = false) (tab : q '\t' = false)
    (ret : q '\r' = false) {c : Char} (sat : q c = true) : isBlankChar c = false := by
  refine Bool.eq_false_iff.mpr fun blank => ?_
  rcases eq_of_isBlankChar blank with rfl | rfl | rfl
  · exact Bool.false_ne_true (space.symm.trans sat)
  · exact Bool.false_ne_true (tab.symm.trans sat)
  · exact Bool.false_ne_true (ret.symm.trans sat)

theorem not_glues_blank (l : Lexeme) {c : Char} (blank : isBlankChar c = true) : ¬ l.Glues c := by
  unfold Glues
  rcases eq_of_isBlankChar blank with rfl | rfl | rfl <;> cases l.kind <;> simp <;> decide

theorem exists_head (l : Lexeme) : ∃ c cs, l.chars = c :: cs ∧ isBlankChar c = false := by
  obtain ⟨kind, chars, form⟩ := l
  cases form with
  | identifier start part => exact ⟨_, _, rfl, not_blank_of_class rfl rfl rfl start⟩
  | whole some_digit digits =>
    obtain ⟨d, ds, rfl⟩ := List.exists_cons_of_ne_nil some_digit
    exact ⟨d, ds, rfl, not_blank_of_class rfl rfl rfl (digits d List.mem_cons_self)⟩
  | @pointed ds es some_digit digits places =>
    cases ds with
    | nil => exact ⟨_, _, rfl, rfl⟩
    | cons d ds =>
      exact ⟨d, _, rfl, not_blank_of_class rfl rfl rfl (digits d List.mem_cons_self)⟩
  | string inside => exact ⟨_, _, rfl, rfl⟩
  | symbol punctuation quote score =>
    exact ⟨_, _, rfl, not_blank_of_class rfl rfl rfl punctuation⟩
  | newline => exact ⟨_, _, rfl, rfl⟩

theorem stops_blank (l : Lexeme) (rest : List Char) : Stops isBlankChar (l.chars ++ rest) := by
  obtain ⟨c, cs, chars, other⟩ := l.exists_head
  rw [chars]
  exact .cons other

theorem goesOn (l : Lexeme) (n : Nat) : (Reading.token l.kind n).goesOn = true := by
  obtain ⟨kind, chars, form⟩ := l
  cases form <;> rfl

theorem eq_of_append {l m : Lexeme} {r r' : List Char} (ends : l.Ends r) (ends' : m.Ends r')
    (same : l.chars ++ r = m.chars ++ r') : l = m ∧ r = r' := by
  have begun := Reading.begins_lexeme l ends
  rw [same] at begun
  obtain ⟨kind, length⟩ := Reading.token.inj (begun.unique (Reading.begins_lexeme m ends'))
  have spelling := congrArg encoded same
  rw [encoded_append, encoded_append] at spelling
  obtain ⟨own, behind⟩ := List.append_inj spelling length
  obtain ⟨kind₁, chars₁, form₁⟩ := l
  obtain ⟨kind₂, chars₂, form₂⟩ := m
  cases kind
  cases encoded_injective own
  exact ⟨rfl, encoded_injective behind⟩

end Lexeme

namespace Phrase

theorem StartsBlank.ends {p : Phrase} (starts : p.StartsBlank) (l : Lexeme) :
    l.Ends p.written := by
  intro c here
  cases p with
  | tail w => exact l.not_glues_blank (w.2 c (List.mem_of_head? here))
  | piece w m rest =>
    obtain ⟨d, ds, blanks⟩ := List.exists_cons_of_ne_nil starts
    rw [written, blanks] at here
    cases here
    exact l.not_glues_blank (w.2 c (by simp [blanks]))

theorem Spaced.apart {p : Phrase} (spaced : p.Spaced) : p.Apart := by
  induction p with
  | tail w => trivial
  | piece w l rest ih => exact ⟨spaced.1.ends l, ih spaced.2⟩

theorem exists_not_blank (w : Blanks) (l : Lexeme) (rest : Phrase) :
    ∃ c ∈ (piece w l rest).written, isBlankChar c = false := by
  obtain ⟨c, cs, chars, other⟩ := l.exists_head
  exact ⟨c, by simp [written, chars], other⟩

/-- Blanks, lexemes and their order can be told from the text. -/
theorem Apart.eq_of_written {p q : Phrase} (apart : p.Apart) (apart' : q.Apart)
    (same : p.written = q.written) : p = q := by
  induction p generalizing q with
  | tail w =>
    cases q with
    | tail v => rw [Subtype.ext same]
    | piece v m rest =>
      obtain ⟨c, member, other⟩ := exists_not_blank v m rest
      rw [← same] at member
      exact absurd (w.2 c member) (by simp [other])
  | piece w l rest ih =>
    cases q with
    | tail v =>
      obtain ⟨c, member, other⟩ := exists_not_blank w l rest
      rw [same] at member
      exact absurd (v.2 c member) (by simp [other])
    | piece v m rest' =>
      -- The blanks go up to the first other character, and then one lexeme alone fits.
      have run := (l.stops_blank rest.written).takeWhile_eq w.2
      have run' := (m.stops_blank rest'.written).takeWhile_eq v.2
      have blanks : w = v := Subtype.ext (run.symm.trans ((congrArg _ same).trans run'))
      subst blanks
      obtain ⟨rfl, behind⟩ :=
        Lexeme.eq_of_append apart.1 apart'.1 (List.append_cancel_left same)
      rw [ih apart.2 apart'.2 behind]

end Phrase

namespace Source

variable {s : Source} {tabWidth : UInt32}

theorem skips_blanks {before rest : List Char} (w : Blanks)
    (parted : s.text.toList = before ++ (w.1 ++ rest)) (stops : Stops isBlankChar rest) :
    s.Skips (encoded before).length (encoded (before ++ w.1)).length := by
  have parted' : s.text.toList = (before ++ w.1) ++ rest := by rw [parted, List.append_assoc]
  obtain ⟨bs, -, spelling, run⟩ := mirrors_isBlank.of_chars w.2
  refine ⟨?_, length_encoded_le parted', ?_, ?_⟩
  · rw [encoded_append, List.length_append]
    exact Nat.le_add_right _ _
  · rw [drop_encoded parted, encoded_append, encoded_append, List.length_append,
      Nat.add_sub_cancel_left, List.take_left, spelling]
    exact run
  · rw [drop_encoded parted']
    exact mirrors_isBlank.stops_iff.mpr stops

theorem Skips.exists_blanks {before cs : List Char} {m : Nat}
    (skips : s.Skips (encoded before).length m) (parted : s.text.toList = before ++ cs) :
    ∃ (w : Blanks) (rest : List Char), cs = w.1 ++ rest ∧
      m = (encoded (before ++ w.1)).length := by
  have inside := skips.inside
  have forward := skips.forward
  have whole := List.take_append_drop (m - (encoded before).length) (encoded cs)
  have blanks := skips.blanks
  have all := s.length_drop_bytes (encoded before).length
  rw [drop_encoded parted] at blanks all
  obtain ⟨front, rest, split, chars, spelling, -⟩ := mirrors_isBlank.exists_run blanks whole.symm
  refine ⟨⟨front, chars⟩, rest, split, ?_⟩
  rw [encoded_append, spelling, List.length_append, List.length_take]
  omega

theorem text_tokenAt_lexeme {before rest : List Char} (l : Lexeme)
    (parted : s.text.toList = before ++ (l.chars ++ rest)) :
    (s.tokenAt tabWidth l.kind (encoded before).length (encoded l.chars).length).text =
      .ofList l.text := by
  have behind : s.bytes.drop ((encoded before).length + 1) = (encoded (l.chars ++ rest)).tail := by
    rw [← drop_encoded parted, List.tail_drop]
  have ahead := drop_encoded parted
  obtain ⟨kind, chars, form⟩ := l
  simp only [tokenAt, behind, ahead, encoded_append, List.take_left]
  cases form with
  | @string cs inside =>
    have length : (Byte.quote :: (encoded cs ++ [Byte.quote])).length - 2 = (encoded cs).length := by
      simp
    rw [encoded_quoted, length, List.cons_append, List.tail_cons, List.append_assoc, List.take_left,
      spelled_encoded, Lexeme.text, List.tail_cons, List.dropLast_concat]
  | identifier start part => exact spelled_encoded _
  | whole some_digit digits => exact spelled_encoded _
  | pointed some_digit digits places => exact spelled_encoded _
  | symbol punctuation quote score => exact spelled_encoded _
  | newline => rfl

theorem tokenAt_lexeme {before rest : List Char} (l : Lexeme)
    (parted : s.text.toList = before ++ (l.chars ++ rest)) :
    s.tokenAt tabWidth l.kind (encoded before).length (encoded l.chars).length =
      l.token tabWidth before := by
  refine (Token.mk.injEq ..).mpr ⟨rfl, @text_tokenAt_lexeme s tabWidth _ _ l parted, ?_, ?_⟩
  · rw [encoded_append, List.length_append]
  · rw [place, take_encoded parted]

end Source

namespace Phrase

variable {s : Source} {tabWidth : UInt32}

theorem Apart.lexed {p : Phrase} (apart : p.Apart) {before : List Char}
    (parted : s.text.toList = before ++ p.written) :
    s.Lexed tabWidth (encoded before).length (.ok (p.tokens tabWidth before)) := by
  induction p generalizing before with
  | tail w =>
    have parted' : s.text.toList = before ++ (w.1 ++ []) := by
      rw [parted, List.append_nil]
      rfl
    have skips := Source.skips_blanks w parted' .nil
    rw [← List.append_assoc] at parted'
    have begun : Reading.Begins (s.bytes.drop (encoded (before ++ w.1)).length)
        (.token .endOfStream 0) := by
      rw [Source.drop_encoded parted']
      exact .endOfStream
    exact .stop skips begun rfl
  | piece w l rest ih =>
    have parted' : s.text.toList = (before ++ w.1) ++ (l.chars ++ rest.written) := by
      rw [parted, List.append_assoc]
      rfl
    have parted'' : s.text.toList = (before ++ w.1 ++ l.chars) ++ rest.written := by
      rw [parted', List.append_assoc _ l.chars]
    have skips := Source.skips_blanks w parted (l.stops_blank rest.written)
    have begun := Reading.begins_lexeme l apart.1
    rw [← Source.drop_encoded parted'] at begun
    have behind := ih apart.2 parted''
    rw [encoded_append, List.length_append] at behind
    rw [Phrase.tokens, ← Source.tokenAt_lexeme l parted']
    exact .token skips begun (l.goesOn _) behind

theorem exists_of_lexed {i : Nat} {answer : Except Fault (List Token)}
    (lexed : s.Lexed tabWidth i answer) {ts : List Token} (all : answer = .ok ts)
    {before cs : List Char} (stands : i = (encoded before).length)
    (parted : s.text.toList = before ++ cs) :
    ∃ p : Phrase, p.written = cs ∧ p.Apart ∧ p.tokens tabWidth before = ts := by
  induction lexed generalizing ts before cs with
  | @stop i m r skips begun stops =>
    subst stands
    obtain ⟨w, rest, rfl, rfl⟩ := skips.exists_blanks parted
    rw [← List.append_assoc] at parted
    rw [Source.drop_encoded parted] at begun
    cases r with
    | token kind n =>
      cases kind <;> cases stops
      cases all
      cases encoded_eq_nil begun.eq_nil
      exact ⟨.tail w, (List.append_nil w.1).symm, trivial, rfl⟩
    | unclosedString => cases all
    | secondPoint n => cases all
    | strayCharacter => cases all
  | @token i m kind n answer skips begun goes lexed ih =>
    subst stands
    obtain ⟨w, rest, rfl, rfl⟩ := skips.exists_blanks parted
    rw [← List.append_assoc] at parted
    rw [Source.drop_encoded parted] at begun
    obtain ⟨l, rest, rfl, rfl, rfl, ends⟩ := Reading.exists_lexeme begun goes
    cases answer with
    | error f => cases all
    | ok us =>
      cases all
      have parted' : s.text.toList = (before ++ w.1 ++ l.chars) ++ rest := by
        rw [parted, List.append_assoc _ l.chars]
      obtain ⟨p, written, apart, tokens⟩ :=
        ih rfl (by rw [encoded_append _ l.chars, List.length_append]) parted'
      refine ⟨.piece w l p, ?_, ⟨written ▸ ends, apart⟩, ?_⟩
      · rw [Phrase.written, written]
      · rw [Phrase.tokens, tokens, Source.tokenAt_lexeme l parted]

end Phrase

theorem tokenize_phrase {text : String} (fits : (Source.mk text).InRange defaultTabWidth) :
    (∀ ts, tokenize text = .ok ts ↔
      ∃ p : Phrase, p.written = text.toList ∧ p.Apart ∧ p.tokens defaultTabWidth [] = ts) ∧
    (∀ p q : Phrase, p.written = text.toList → p.Apart → q.written = text.toList → q.Apart →
      p = q) ∧
    ((¬ ∃ p : Phrase, p.written = text.toList ∧ p.Apart) → ∃ f, tokenize text = .error f) ∧
    ∀ p : Phrase, p.written = text.toList → p.Spaced →
      tokenize text = .ok (p.tokens defaultTabWidth []) := by
  have lexes : ∀ p : Phrase, p.written = text.toList → p.Apart →
      tokenize text = .ok (p.tokens defaultTabWidth []) := by
    intro p written apart
    have whole : (Source.mk text).text.toList = [] ++ p.written := written.symm
    exact (tokenize_iff fits).mpr (apart.lexed whole)
  have parses : ∀ ts, tokenize text = .ok ts →
      ∃ p : Phrase, p.written = text.toList ∧ p.Apart ∧ p.tokens defaultTabWidth [] = ts := by
    intro ts found
    have whole : (Source.mk text).text.toList = [] ++ text.toList := rfl
    exact Phrase.exists_of_lexed ((tokenize_iff fits).mp found) rfl rfl whole
  refine ⟨?_, ?_, ?_, ?_⟩
  · intro ts
    constructor
    · exact parses ts
    · rintro ⟨p, written, apart, rfl⟩
      exact lexes p written apart
  · intro p q written apart written' apart'
    exact apart.eq_of_written apart' (written.trans written'.symm)
  · intro none_written
    cases found : tokenize text with
    | error f => exact ⟨f, rfl⟩
    | ok ts =>
      obtain ⟨p, written, apart, -⟩ := parses ts found
      exact absurd ⟨p, written, apart⟩ none_written
  · intro p written spaced
    exact lexes p written spaced.apart

theorem tokenize_word_number : (Source.mk "ab 1.").InRange defaultTabWidth ∧
    tokenize "ab 1." = .ok [⟨.identifier, "ab", ⟨0, 2⟩, ⟨0, 1, 1⟩⟩,
      ⟨.number, "1.", ⟨3, 5⟩, ⟨3, 1, 4⟩⟩] := by
  have fits : (Source.mk "ab 1.").InRange defaultTabWidth := by decide
  have word : Form .identifier ['a', 'b'] := .identifier rfl (List.all_eq_true.mp rfl)
  have number : Form .number ['1', '.'] :=
    @Form.pointed ['1'] [] (by simp) (List.all_eq_true.mp rfl) (List.all_eq_true.mp rfl)
  have lexed := (tokenize_phrase fits).2.2.2
    (.piece ⟨[], List.all_eq_true.mp rfl⟩ ⟨_, _, word⟩
      (.piece ⟨[' '], List.all_eq_true.mp rfl⟩ ⟨_, _, number⟩
        (.tail ⟨[], List.all_eq_true.mp rfl⟩)))
    rfl ⟨by simp [Phrase.StartsBlank], trivial, trivial⟩
  exact ⟨fits, lexed.trans rfl⟩

end Lexing
