import Lexing.Source.Bytes

/-! Texts as runs of bytes. A piece of a source is what its bytes spell, whatever stands before or
after them, and the bytes that matter to scanning stand for one character each. -/
namespace Lexing

def encoded (cs : List Char) : List UInt8 := cs.flatMap String.utf8EncodeChar

/-- The text that some bytes spell, empty if they cut a character. -/
def spelled (bs : List UInt8) : String := (String.fromUTF8? bs.toByteArray).getD ""

def leadingChar? (bs : List UInt8) : Option Char := bs.toByteArray.utf8DecodeChar? 0

@[simp] theorem encoded_append (cs ds : List Char) : encoded (cs ++ ds) = encoded cs ++ encoded ds :=
  List.flatMap_append

theorem toByteArray_encoded (cs : List Char) : (encoded cs).toByteArray = cs.utf8Encode := rfl

theorem leadingChar?_encoded (c : Char) (cs : List Char) :
    leadingChar? (encoded (c :: cs)) = some c := by
  rw [leadingChar?, toByteArray_encoded, List.utf8DecodeChar?_utf8Encode_cons]

theorem spelled_encoded (cs : List Char) : spelled (encoded cs) = String.ofList cs := by
  have valid : cs.utf8Encode.IsValidUTF8 := ByteArray.isValidUTF8_utf8Encode
  rw [spelled, toByteArray_encoded, String.fromUTF8?, dif_pos valid, Option.getD_some]
  rfl

theorem spelled_append (cs ds : List Char) :
    spelled (encoded cs ++ encoded ds) = spelled (encoded cs) ++ spelled (encoded ds) := by
  rw [← encoded_append, spelled_encoded, spelled_encoded, spelled_encoded, String.ofList_append]

namespace Source

theorem toByteArray_bytes (s : Source) : s.bytes.toByteArray = s.text.toByteArray := by
  apply ByteArray.ext
  rw [List.data_toByteArray]
  rfl

theorem bytes_eq_encoded (s : Source) : s.bytes = encoded s.text.toList := by
  apply List.toByteArray_inj.mp
  rw [toByteArray_bytes, toByteArray_encoded, String.utf8Encode_toList]

theorem bytes_append (a b : String) : (Source.mk (a ++ b)).bytes =
    (Source.mk a).bytes ++ (Source.mk b).bytes := by
  simp only [bytes_eq_encoded, String.toList_append, encoded_append]

theorem toByteArray_range (s : Source) (i j : Nat) :
    ((s.bytes.drop i).take (j - i)).toByteArray = s.text.toByteArray.extract i j := by
  apply ByteArray.ext
  rw [List.data_toByteArray, ByteArray.data_extract]
  apply Array.toList_inj.mp
  rw [Array.toList_extract, List.extract_eq_take_drop]
  rfl

/-- A range that cuts a character spells nothing, just as it is not sliced. -/
theorem slice_eq_spelled (s : Source) {i j : Nat} (ordered : i ≤ j) (inside : j ≤ s.size) :
    s.slice i j = spelled ((s.bytes.drop i).take (j - i)) := by
  have sliced := String.Pos.Raw.isValidUTF8_extract_iff (s := s.text) ⟨i⟩ ⟨j⟩ ordered inside
  rw [spelled, toByteArray_range, String.fromUTF8?, slice, slice?]
  by_cases whole : i ≤ j ∧ s.IsBoundary i ∧ s.IsBoundary j
  · rw [dif_pos whole, dif_pos (sliced.mpr (.inr whole.2))]
    rfl
  · rw [dif_neg whole]
    by_cases same : i = j
    · subst same
      rw [dif_pos (sliced.mpr (.inl rfl)), Option.getD_none, Option.getD_some]
      apply String.toByteArray_inj.mp
      exact ByteArray.extract_same.symm
    · have cut : ¬ ((⟨i⟩ : String.Pos.Raw) = ⟨j⟩ ∨ s.IsBoundary i ∧ s.IsBoundary j) := by
        rintro (equal | bounds)
        · exact same (congrArg String.Pos.Raw.byteIdx equal)
        · exact whole ⟨ordered, bounds⟩
      rw [dif_neg (fun valid => cut (sliced.mp valid))]

theorem charAt?_eq_leadingChar? (s : Source) {i : Nat} (below : i < s.limit) :
    s.charAt? i = leadingChar? (s.bytes.drop i) := by
  have inside : i < s.size := Nat.lt_of_lt_of_le below s.limit_le_size
  have range : (s.bytes.drop i).toByteArray =
      s.text.toByteArray.extract i s.text.toByteArray.size := by
    rw [← s.toByteArray_range, List.take_of_length_le]
    rw [List.length_drop, length_bytes, String.size_toByteArray]
    exact Nat.le_refl (s.size - i)
  rw [charAt?, if_pos below, leadingChar?, range,
    ← ByteArray.utf8DecodeChar?_eq_utf8DecodeChar?_extract]
  have decodes := String.Pos.Raw.isValid_iff_isSome_utf8DecodeChar? (s := s.text) (p := ⟨i⟩)
  have before_end : (⟨i⟩ : String.Pos.Raw) ≠ s.text.rawEndPos :=
    fun h => Nat.ne_of_lt inside (congrArg String.Pos.Raw.byteIdx h)
  simp only [before_end, false_or] at decodes
  by_cases whole : String.Pos.Raw.IsValid s.text ⟨i⟩
  · have stands : s.text.pos? ⟨i⟩ = some (s.text.pos ⟨i⟩ whole) := by
      simp [String.pos?, String.pos, String.Slice.pos?, whole]
    have proper : s.text.pos ⟨i⟩ whole ≠ s.text.endPos :=
      fun h => before_end (congrArg String.Pos.offset h)
    rw [stands, Option.bind_some, String.Pos.get?_eq_some_get proper]
    have decoded : (s.text.pos ⟨i⟩ whole).get proper =
        s.text.toByteArray.utf8DecodeChar i (decodes.mp whole) := by
      simp [String.Pos.get, String.Slice.Pos.get_eq_utf8DecodeChar]
    rw [decoded, ByteArray.utf8DecodeChar]
    exact Option.some_get _
  · have cut : s.text.pos? ⟨i⟩ = none := by simp [String.pos?, String.Slice.pos?, whole]
    rw [cut, Option.bind_none]
    exact (Option.not_isSome_iff_eq_none.mp fun h => whole (decodes.mpr h)).symm

end Source

theorem encodeChar_of_ascii {c : Char} (ascii : c.toNat < 0x80) :
    String.utf8EncodeChar c = [.ofNat c.toNat] := by
  have small : c.val.toNat ≤ 0x7f := Nat.le_of_lt_succ ascii
  simp only [String.utf8EncodeChar, small, if_true]
  rfl

theorem isContinuation_low_six (n : Nat) :
    Byte.isContinuation (.ofNat (n % 64 + 128)) = true := by
  simp only [Byte.isContinuation, Bool.and_eq_true, decide_eq_true_eq, UInt8.le_iff_toNat_le]
  simp
  omega

/-- A longer character opens with a byte of its own kind, and only continuation bytes follow. -/
theorem encodeChar_of_not_ascii {c : Char} (long : ¬ c.toNat < 0x80) :
    ∃ b bs, String.utf8EncodeChar c = b :: bs ∧ 0xC0 ≤ b.toNat ∧
      ∀ d ∈ bs, Byte.isContinuation d = true := by
  have large : ¬ c.val.toNat ≤ 0x7f := fun h => long (Nat.lt_succ_of_le h)
  simp only [String.utf8EncodeChar, large, if_false]
  split
  · refine ⟨_, _, rfl, ?_, ?_⟩
    · simp
      omega
    · simp only [List.forall_mem_cons]
      exact ⟨isContinuation_low_six _, by simp⟩
  · split
    · refine ⟨_, _, rfl, ?_, ?_⟩
      · simp
        omega
      · simp only [List.forall_mem_cons]
        exact ⟨isContinuation_low_six _, isContinuation_low_six _, by simp⟩
    · refine ⟨_, _, rfl, ?_, ?_⟩
      · simp
        omega
      · simp only [List.forall_mem_cons]
        exact ⟨isContinuation_low_six _, isContinuation_low_six _, isContinuation_low_six _,
          by simp⟩

theorem not_ascii_of_mem_encodeChar {c : Char} (long : ¬ c.toNat < 0x80) {d : UInt8}
    (member : d ∈ String.utf8EncodeChar c) : 0x80 ≤ d.toNat := by
  obtain ⟨b, bs, spelling, first, continued⟩ := encodeChar_of_not_ascii long
  rw [spelling] at member
  rcases List.mem_cons.mp member with rfl | later
  · omega
  · have continuation := continued d later
    simp only [Byte.isContinuation, Bool.and_eq_true, decide_eq_true_eq] at continuation
    exact UInt8.le_iff_toNat_le.mp continuation.1

theorem encoded_cons (c : Char) (cs : List Char) :
    encoded (c :: cs) = String.utf8EncodeChar c ++ encoded cs := List.flatMap_cons

theorem encoded_injective {as bs : List Char} (same : encoded as = encoded bs) : as = bs := by
  apply String.ofList_injective
  rw [← spelled_encoded, ← spelled_encoded, same]

theorem encoded_eq_nil {cs : List Char} (nothing : encoded cs = []) : cs = [] :=
  encoded_injective nothing

/-- An ASCII byte is a character of its own, so it parts a text into two. -/
theorem encoded_eq_append_ascii {cs : List Char} {xs ys : List UInt8} {b : UInt8}
    (ascii : b.toNat < 0x80) (parted : encoded cs = xs ++ b :: ys) :
    ∃ as bs, cs = as ++ Char.ofNat b.toNat :: bs ∧ encoded as = xs ∧ encoded bs = ys := by
  induction cs generalizing xs with
  | nil => cases xs <;> cases parted
  | cons c cs ih =>
    rw [encoded_cons] at parted
    rcases List.append_eq_append_iff.mp parted with ⟨ms, rfl, behind⟩ | ⟨ms, whole, behind⟩
    · obtain ⟨as, bs, rfl, rfl, rfl⟩ := ih behind
      exact ⟨c :: as, bs, rfl, encoded_cons c as, rfl⟩
    · cases ms with
      | nil =>
        have rest : encoded cs = [] ++ b :: ys := behind.symm
        obtain ⟨as, bs, rfl, nothing, rfl⟩ := ih rest
        refine ⟨c :: as, bs, rfl, ?_, rfl⟩
        rw [encoded_cons, nothing, whole, List.append_nil, List.append_nil]
      | cons d ms =>
        obtain ⟨rfl, rfl⟩ := List.cons.inj behind
        by_cases short : c.toNat < 0x80
        · rw [encodeChar_of_ascii short] at whole
          cases xs with
          | nil =>
            obtain ⟨rfl, rfl⟩ := List.cons.inj whole
            have value : (UInt8.ofNat c.toNat).toNat = c.toNat :=
              UInt8.toNat_ofNat_of_lt' (Nat.lt_trans short (by decide))
            exact ⟨[], cs, by rw [value, Char.ofNat_toNat]; rfl, rfl, rfl⟩
          | cons x xs => cases xs <;> cases (List.cons.inj whole).2
        · have member : b ∈ String.utf8EncodeChar c := by simp [whole]
          have high := not_ascii_of_mem_encodeChar short member
          omega

def asciiChars (bs : List UInt8) : List Char := bs.map fun b => .ofNat b.toNat

theorem encodeChar_ofNat {b : UInt8} (ascii : b.toNat < 0x80) :
    String.utf8EncodeChar (.ofNat b.toNat) = [b] := by
  have valid : b.toNat.isValidChar := .inl (by omega)
  have value : (Char.ofNat b.toNat).toNat = b.toNat := by
    rw [Char.ofNat, dif_pos valid]
    rfl
  rw [encodeChar_of_ascii (by rwa [value]), value, UInt8.ofNat_toNat]

theorem mem_encodeChar_iff {b : UInt8} (ascii : b.toNat < 0x80) {c : Char} :
    b ∈ String.utf8EncodeChar c ↔ c = .ofNat b.toNat := by
  constructor
  · intro member
    by_cases short : c.toNat < 0x80
    · rw [encodeChar_of_ascii short] at member
      cases List.mem_singleton.mp member
      rw [UInt8.toNat_ofNat_of_lt' (Nat.lt_trans short (by decide)), Char.ofNat_toNat]
    · exact absurd ascii (Nat.not_lt_of_le (not_ascii_of_mem_encodeChar short member))
  · rintro rfl
    rw [encodeChar_ofNat ascii]
    exact List.mem_singleton_self b

theorem encoded_ascii_cons {b : UInt8} (ascii : b.toNat < 0x80) (cs : List Char) :
    encoded (.ofNat b.toNat :: cs) = b :: encoded cs := by
  rw [encoded_cons, encodeChar_ofNat ascii]
  rfl

theorem encoded_asciiChars {bs : List UInt8} (ascii : ∀ b ∈ bs, b.toNat < 0x80) :
    encoded (asciiChars bs) = bs := by
  induction bs with
  | nil => rfl
  | cons b bs ih =>
    have tail := ih fun d member => ascii d (List.mem_cons_of_mem b member)
    rw [asciiChars, List.map_cons, encoded_ascii_cons (ascii b List.mem_cons_self)]
    exact congrArg (b :: ·) tail

theorem encoded_eq_cons_ascii {cs : List Char} {ys : List UInt8} {b : UInt8}
    (ascii : b.toNat < 0x80) (parted : encoded cs = b :: ys) :
    ∃ ds, cs = .ofNat b.toNat :: ds ∧ encoded ds = ys := by
  have whole : encoded cs = [] ++ b :: ys := parted
  obtain ⟨as, ds, rfl, nothing, rest⟩ := encoded_eq_append_ascii ascii whole
  cases encoded_eq_nil nothing
  exact ⟨ds, rfl, rest⟩

theorem encoded_eq_ascii_run {cs : List Char} {bs ys : List UInt8}
    (ascii : ∀ b ∈ bs, b.toNat < 0x80) (parted : encoded cs = bs ++ ys) :
    ∃ ds, cs = asciiChars bs ++ ds ∧ encoded ds = ys := by
  induction bs generalizing cs with
  | nil => exact ⟨cs, rfl, parted⟩
  | cons b bs ih =>
    obtain ⟨cs, rfl, rest⟩ := encoded_eq_cons_ascii (ascii b List.mem_cons_self) parted
    obtain ⟨ds, rfl, behind⟩ := ih (fun d member => ascii d (List.mem_cons_of_mem b member)) rest
    exact ⟨ds, rfl, behind⟩

@[simp] theorem bytes_spelled (cs : List Char) : (Source.mk (spelled (encoded cs))).bytes = encoded cs := by
  rw [spelled_encoded, Source.bytes_eq_encoded, String.toList_ofList]

namespace Source

variable {s : Source}

theorem drop_encoded {before cs : List Char} (parted : s.text.toList = before ++ cs) :
    s.bytes.drop (encoded before).length = encoded cs := by
  rw [bytes_eq_encoded, parted, encoded_append, List.drop_left]

theorem take_encoded {before cs : List Char} (parted : s.text.toList = before ++ cs) :
    s.bytes.take (encoded before).length = encoded before := by
  rw [bytes_eq_encoded, parted, encoded_append, List.take_left]

theorem length_encoded_le {before cs : List Char} (parted : s.text.toList = before ++ cs) :
    (encoded before).length ≤ s.size := by
  rw [← length_bytes, bytes_eq_encoded, parted, encoded_append, List.length_append]
  exact Nat.le_add_right _ _

end Source

end Lexing
