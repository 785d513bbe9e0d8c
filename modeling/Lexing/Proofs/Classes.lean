import Lexing.Proofs.Lexeme
import Lexing.Proofs.Spelling

/-! Classes of characters. Each class of bytes that scanning looks for is a class of ASCII
characters, so runs of bytes are runs of characters. The inside of a string is read here character by
character too, for what a backslash takes along is a whole character. -/
namespace Lexing

/-- A class of bytes and the class of characters that it stands for. -/
structure Mirrors (p : UInt8 → Bool) (q : Char → Bool) : Prop where
  ascii : ∀ b, p b = true → b.toNat < 0x80
  same : ∀ b, b.toNat < 0x80 → p b = q (.ofNat b.toNat)
  short : ∀ c, q c = true → c.toNat < 0x80

def isBlankChar (c : Char) : Bool := c == ' ' || c == '\t' || c == '\r'

def isWordChar (c : Char) : Bool := c.isAlphanum || c == '_'

def isWordStartChar (c : Char) : Bool := c.isAlpha || c == '_'

/-- Printing ASCII characters that are neither letters nor digits nor the space. -/
def isPunctuation (c : Char) : Bool := '!' ≤ c && c ≤ '~' && !c.isAlphanum

theorem head?_encoded_iff {b : UInt8} (ascii : b.toNat < 0x80) {cs : List Char} :
    (encoded cs).head? = some b ↔ cs.head? = some (.ofNat b.toNat) := by
  constructor
  · intro here
    obtain ⟨ys, spelling⟩ := List.head?_eq_some_iff.mp here
    obtain ⟨ds, rfl, -⟩ := encoded_eq_cons_ascii ascii spelling
    rfl
  · intro here
    obtain ⟨tail, rfl⟩ := List.head?_eq_some_iff.mp here
    rw [encoded_ascii_cons ascii]
    rfl

theorem ascii_of_isAlphanum {c : Char} (alphanum : c.isAlphanum = true) : c.toNat < 0x80 := by
  have below : ∀ d : Char, d.toNat < 0x80 → c.val ≤ d.val → c.toNat < 0x80 :=
    fun d small last => Nat.lt_of_le_of_lt (UInt32.le_iff_toNat_le.mp last) small
  change (c.isUpper || c.isLower || c.isDigit) = true at alphanum
  rw [Bool.or_eq_true, Bool.or_eq_true] at alphanum
  rcases alphanum with (upper | lower) | digit
  · exact below 'Z' (by decide) (of_decide_eq_true upper).2
  · exact below 'z' (by decide) (of_decide_eq_true (Bool.and_eq_true_iff.mp lower).2)
  · exact below '9' (by decide) (of_decide_eq_true (Bool.and_eq_true_iff.mp digit).2)

theorem mirrors_isBlank : Mirrors Byte.isBlank isBlankChar where
  ascii := Byte.forall_of_range (by decide +kernel)
  same := Byte.forall_of_range (by decide +kernel)
  short := by
    intro c blank
    simp only [isBlankChar, Bool.or_eq_true, beq_iff_eq] at blank
    rcases blank with (rfl | rfl) | rfl <;> decide

theorem mirrors_isDigit : Mirrors Byte.isDigit Char.isDigit where
  ascii := Byte.forall_of_range (by decide +kernel)
  same := Byte.forall_of_range (by decide +kernel)
  short := by
    intro c digit
    exact ascii_of_isAlphanum (by simp [Char.isAlphanum, digit])

theorem mirrors_isWordPart : Mirrors Byte.isWordPart isWordChar where
  ascii := Byte.forall_of_range (by decide +kernel)
  same := Byte.forall_of_range (by decide +kernel)
  short := by
    intro c part
    simp only [isWordChar, Bool.or_eq_true, beq_iff_eq] at part
    rcases part with alphanum | rfl
    · exact ascii_of_isAlphanum alphanum
    · decide

theorem mirrors_isWordStart : Mirrors Byte.isWordStart isWordStartChar where
  ascii := Byte.forall_of_range (by decide +kernel)
  same := Byte.forall_of_range (by decide +kernel)
  short := by
    intro c start
    simp only [isWordStartChar, Bool.or_eq_true, beq_iff_eq] at start
    rcases start with alpha | rfl
    · exact ascii_of_isAlphanum (by simp [Char.isAlphanum, alpha])
    · decide

theorem mirrors_isSymbol : Mirrors Byte.isSymbol isPunctuation where
  ascii := Byte.forall_of_range (by decide +kernel)
  same := Byte.forall_of_range (by decide +kernel)
  short := by
    intro c punctuation
    simp only [isPunctuation, Bool.and_eq_true, decide_eq_true_eq] at punctuation
    exact Nat.lt_of_le_of_lt (UInt32.le_iff_toNat_le.mp punctuation.1.2) (by decide)

namespace Mirrors

variable {p : UInt8 → Bool} {q : Char → Bool} (mirrors : Mirrors p q)
include mirrors

theorem of_byte {b : UInt8} (sat : p b = true) : q (.ofNat b.toNat) = true :=
  (mirrors.same b (mirrors.ascii b sat)).symm.trans sat

theorem of_char {c : Char} (sat : q c = true) :
    ∃ b, p b = true ∧ b.toNat < 0x80 ∧ c = .ofNat b.toNat := by
  have short := mirrors.short c sat
  have value : (UInt8.ofNat c.toNat).toNat = c.toNat :=
    UInt8.toNat_ofNat_of_lt' (Nat.lt_trans short (by decide))
  refine ⟨.ofNat c.toNat, ?_, by rwa [value], by rw [value, Char.ofNat_toNat]⟩
  rw [mirrors.same _ (by rwa [value]), value, Char.ofNat_toNat, sat]

theorem of_bytes {bs : List UInt8} (all : ∀ b ∈ bs, p b = true) :
    ∀ c ∈ asciiChars bs, q c = true := by
  intro c member
  obtain ⟨b, here, rfl⟩ := List.mem_map.mp member
  exact mirrors.of_byte (all b here)

theorem of_chars {cs : List Char} (all : ∀ c ∈ cs, q c = true) :
    ∃ bs, cs = asciiChars bs ∧ encoded cs = bs ∧ ∀ b ∈ bs, p b = true := by
  induction cs with
  | nil => exact ⟨[], rfl, rfl, by simp⟩
  | cons c cs ih =>
    obtain ⟨bs, rfl, spelling, run⟩ := ih fun d member => all d (List.mem_cons_of_mem c member)
    obtain ⟨b, sat, ascii, rfl⟩ := mirrors.of_char (all c List.mem_cons_self)
    refine ⟨b :: bs, rfl, ?_, List.forall_mem_cons.mpr ⟨sat, run⟩⟩
    rw [encoded_ascii_cons ascii, spelling]

theorem exists_char {b : UInt8} (sat : p b = true) {cs : List Char} {bs : List UInt8}
    (spelling : encoded cs = b :: bs) :
    ∃ c rest, cs = c :: rest ∧ q c = true ∧ String.utf8EncodeChar c = [b] ∧ encoded rest = bs := by
  have ascii := mirrors.ascii b sat
  obtain ⟨rest, rfl, tail⟩ := encoded_eq_cons_ascii ascii spelling
  exact ⟨_, rest, rfl, mirrors.of_byte sat, encodeChar_ofNat ascii, tail⟩

theorem exists_run {run : List UInt8} (all : ∀ b ∈ run, p b = true) {cs : List Char}
    {bs : List UInt8} (spelling : encoded cs = run ++ bs) :
    ∃ front rest, cs = front ++ rest ∧ (∀ c ∈ front, q c = true) ∧ encoded front = run ∧
      encoded rest = bs := by
  have ascii := fun b member => mirrors.ascii b (all b member)
  obtain ⟨rest, rfl, tail⟩ := encoded_eq_ascii_run ascii spelling
  exact ⟨_, rest, rfl, mirrors.of_bytes all, encoded_asciiChars ascii, tail⟩

theorem stops_iff {cs : List Char} : Stops p (encoded cs) ↔ Stops q cs := by
  constructor
  · intro stops c here
    cases sat : q c with
    | false => rfl
    | true =>
      obtain ⟨b, holds, ascii, rfl⟩ := mirrors.of_char sat
      exact holds.symm.trans (stops b ((head?_encoded_iff ascii).mpr here))
  · intro free b here
    cases holds : p b with
    | false => rfl
    | true =>
      have first := free _ ((head?_encoded_iff (mirrors.ascii b holds)).mp here)
      exact (mirrors.of_byte holds).symm.trans first

theorem stops_iff_not {cs : List Char} :
    Stops p (encoded cs) ↔ ∀ c, cs.head? = some c → ¬ q c = true := by
  rw [mirrors.stops_iff]
  constructor
  · intro stops c here
    exact Bool.eq_false_iff.mp (stops c here)
  · intro other c here
    exact Bool.eq_false_iff.mpr (other c here)

end Mirrors

theorem encodeChar_cons (c : Char) : ∃ b bs, String.utf8EncodeChar c = b :: bs ∧
    ∀ d ∈ bs, Byte.isContinuation d = true := by
  by_cases ascii : c.toNat < 0x80
  · exact ⟨_, [], encodeChar_of_ascii ascii, by simp⟩
  · obtain ⟨b, bs, spelling, -, continued⟩ := encodeChar_of_not_ascii ascii
    exact ⟨b, bs, spelling, continued⟩

theorem Byte.not_delimiter_of_continuation : ∀ b, isContinuation b = true →
    isDelimiter b = false :=
  Byte.forall_of_range (by decide +kernel)

namespace Reading

theorem stringLength_char {c : Char} (quote : c ≠ '"') (backslash : c ≠ '\\')
    (bs : List UInt8) : stringLength (String.utf8EncodeChar c ++ bs) =
      (stringLength bs).map (· + (String.utf8EncodeChar c).length) := by
  refine stringLength_plain _ bs fun b member => ?_
  simp only [Byte.isDelimiter, Bool.or_eq_false_iff, beq_eq_false_iff_ne]
  constructor
  · rintro rfl
    exact quote ((mem_encodeChar_iff (by decide)).mp member)
  · rintro rfl
    exact backslash ((mem_encodeChar_iff (by decide)).mp member)

/-- A backslash takes a byte along, and no other byte of that character ends a string. -/
theorem stringLength_escaped (c : Char) (bs : List UInt8) :
    stringLength (Byte.backslash :: (String.utf8EncodeChar c ++ bs)) =
      (stringLength bs).map (· + (1 + (String.utf8EncodeChar c).length)) := by
  obtain ⟨b, ds, spelling, continued⟩ := encodeChar_cons c
  have plain := stringLength_plain ds bs fun d member =>
    Byte.not_delimiter_of_continuation d (continued d member)
  rw [spelling, List.cons_append, stringLength_escape, plain, Option.map_map]
  congr 1
  funext n
  simp only [Function.comp, List.length_cons]
  omega

end Reading

end Lexing
