import Lexing.Scan

/-! The bytes that open a lexeme. The classes that the scanner tries one after the other are stated
here as apart from each other, so that each opening can be told from the byte alone. -/
namespace Lexing

theorem Byte.forall_of_range {p : UInt8 → Prop} (all : ∀ n < 256, p (.ofNat n)) (b : UInt8) :
    p b := by
  have stands := all b.toNat b.toNat_lt
  rwa [UInt8.ofNat_toNat] at stands

/-- The bytes that open each kind of lexeme, told apart from each other. -/
def Opening.Opens (b : UInt8) (following : Option UInt8) : Opening → Prop
  | .string => b = Byte.quote
  | .newline => b = Byte.lineFeed
  | .word => Byte.isWordStart b = true
  | .number => Byte.isDigit b = true ∨ b = Byte.point ∧ following.any Byte.isDigit = true
  | .symbol => Byte.isSymbol b = true ∧ b ≠ Byte.quote ∧ b ≠ Byte.underscore ∧
      ¬ (b = Byte.point ∧ following.any Byte.isDigit = true)
  | .stray => Byte.isSymbol b = false ∧ Byte.isWordPart b = false ∧ b ≠ Byte.lineFeed

theorem Byte.word_apart : ∀ b, isWordStart b = true → b ≠ quote ∧ b ≠ lineFeed :=
  Byte.forall_of_range (by decide +kernel)

theorem Byte.digit_apart : ∀ b, isDigit b = true →
    b ≠ quote ∧ b ≠ lineFeed ∧ isWordStart b = false :=
  Byte.forall_of_range (by decide +kernel)

theorem Byte.symbol_apart : ∀ b, isSymbol b = true → b ≠ underscore →
    b ≠ lineFeed ∧ isWordStart b = false ∧ isDigit b = false :=
  Byte.forall_of_range (by decide +kernel)

theorem Byte.ascii_of_class : ∀ b,
    (isWordPart b || isSymbol b || isBlank b || b == lineFeed) = true → b.toNat < 0x80 :=
  Byte.forall_of_range (by decide +kernel)

theorem Byte.ascii_of_isDigit {b : UInt8} (digit : isDigit b = true) : b.toNat < 0x80 :=
  ascii_of_class b (by simp [isWordPart, digit])

theorem Opening.opens_ofByte (b : UInt8) (following : Option UInt8) :
    (ofByte b following).Opens b following := by
  unfold ofByte
  split
  · assumption
  · split
    · assumption
    · split
      · assumption
      · split
        · exact .inl (by assumption)
        · split
          · exact .inr (by assumption)
          · split
            · rename_i quote lf word digit point symbol
              refine ⟨symbol, quote, ?_, point⟩
              rintro rfl
              exact word rfl
            · rename_i quote lf word digit point symbol
              refine ⟨by simpa using symbol, ?_, lf⟩
              simp only [Byte.isWordPart, Bool.or_eq_false_iff]
              exact ⟨by simpa using word, by simpa using digit⟩

theorem Opening.ofByte_eq_iff {b : UInt8} {following : Option UInt8} {o : Opening} :
    ofByte b following = o ↔ o.Opens b following := by
  constructor
  · rintro rfl
    exact opens_ofByte b following
  · intro h
    cases o with
    | string => cases h; rfl
    | newline => cases h; rfl
    | word =>
      have word : Byte.isWordStart b = true := h
      obtain ⟨quote, lf⟩ := Byte.word_apart b word
      rw [ofByte, if_neg quote, if_neg lf, if_pos word]
    | number =>
      rcases h with digit | ⟨rfl, digit⟩
      · obtain ⟨quote, lf, word⟩ := Byte.digit_apart b digit
        simp [ofByte, quote, lf, word, digit]
      · rw [ofByte, if_neg (by decide), if_neg (by decide), if_neg (by decide), if_neg (by decide),
          if_pos ⟨rfl, digit⟩]
    | symbol =>
      obtain ⟨symbol, quote, score, point⟩ := h
      obtain ⟨lf, word, digit⟩ := Byte.symbol_apart b symbol score
      rw [ofByte, if_neg quote, if_neg lf, if_neg (by simp [word]), if_neg (by simp [digit]),
        if_neg point, if_pos symbol]
    | stray =>
      obtain ⟨symbol, part, lf⟩ := h
      simp only [Byte.isWordPart, Bool.or_eq_false_iff] at part
      have quote : b ≠ Byte.quote := by rintro rfl; cases symbol
      have point : b ≠ Byte.point := by rintro rfl; cases symbol
      simp [ofByte, quote, lf, part, point, symbol]

end Lexing
