import Lexing.Proofs.Locating

/-! How faults are shown: as three lines, for neither the message nor the line of a fault holds a line
feed. The caret on the third stands under the character that the fault is about. -/
namespace Lexing

/-- A message, a line and a caret below it. The characters of the line before the fault are `before`,
and the caret has as many before it. -/
structure Fault.Drawn (f : Fault) (before after indent : List Char) : Prop where
  lines : f.render.toList.splitOn '\n' = [(toString f).toList, ' ' :: ' ' :: f.line.text.toList,
    ' ' :: ' ' :: (indent ++ ['^'])]
  parted : f.line.text.toList = before ++ f.cause.character :: after
  offset : f.line.start + (encoded before).length = f.pos.offset.toNat
  length : indent.length = before.length
  blank : ∀ k (below : k < indent.length),
    indent[k] = if f.line.text.toList[k]? = some '\t' then '\t' else ' '
  under : f.line.text.toList[indent.length]? = some f.cause.character

theorem unbroken_append {t u : String} (first : '\n' ∉ t.toList) (second : '\n' ∉ u.toList) :
    '\n' ∉ (t ++ u).toList := by
  rw [String.toList_append, List.mem_append]
  exact not_or.mpr ⟨first, second⟩

theorem unbroken_toDigits {b : Nat} (large : 1 < b) (n : Nat) : '\n' ∉ Nat.toDigits b n := by
  induction n using Nat.strongRecOn with
  | _ n ih =>
    rcases Nat.lt_or_ge n b with below | reach
    · rw [Nat.toDigits_of_lt_base below, List.mem_singleton]
      exact (Nat.digitChar_ne '\n' rfl).symm
    · rw [Nat.toDigits_of_base_le large reach, List.mem_append, List.mem_singleton]
      rintro (front | last)
      · exact ih (n / b) (Nat.div_lt_self (by omega) large) front
      · exact Nat.digitChar_ne '\n' rfl last.symm

theorem unbroken_toString (n : UInt32) : '\n' ∉ (toString n).toList := by
  change '\n' ∉ n.toNat.repr.toList
  rw [Nat.toList_repr]
  exact unbroken_toDigits (by decide) n.toNat

namespace Text

theorem unbroken_codePoint (c : Char) : '\n' ∉ (codePoint c).toList := by
  apply unbroken_append
  · apply unbroken_append
    · decide
    · rw [String.toList_ofList]
      exact unbroken_toDigits (by decide) c.toNat
  · decide

theorem unbroken_escaped (c : Char) : '\n' ∉ (escaped c).toList := by
  unfold escaped
  repeat' split
  · decide
  · decide
  · decide
  · decide
  · decide
  · decide
  · exact unbroken_codePoint c
  · rename_i feed _ _ _ _
    rw [String.toList_singleton, List.mem_singleton]
    rintro rfl
    exact feed rfl

theorem unbroken_quoted (c : Char) : '\n' ∉ (quoted c).toList := by
  apply unbroken_append
  · apply unbroken_append
    · decide
    · exact unbroken_escaped c
  · decide

end Text

namespace Fault

theorem Cause.unbroken_message (cause : Cause) : '\n' ∉ cause.message.toList := by
  cases cause with
  | unclosedString => decide
  | secondPoint => decide
  | strayCharacter found =>
    apply unbroken_append
    · decide
    · exact Text.unbroken_quoted found

theorem unbroken_message (f : Fault) : '\n' ∉ f.message.toList := by
  apply unbroken_append
  · apply unbroken_append
    · apply unbroken_append
      · exact unbroken_append (unbroken_toString f.pos.line) (by decide)
      · exact unbroken_toString f.pos.column
    · decide
  · exact f.cause.unbroken_message

theorem toList_indent {f : Fault} {before cs : List Char}
    (parted : f.line.text.toList = before ++ cs)
    (offset : f.line.start + (encoded before).length = f.pos.offset.toNat) :
    f.indent.toList = before.map fun c => if c = '\t' then '\t' else ' ' := by
  have width : f.pos.offset.toNat - f.line.start = (encoded before).length := by omega
  have inside : (encoded before).length ≤ (Source.mk f.line.text).size :=
    Source.length_encoded_le parted
  have front : (Source.mk f.line.text).bytes.take (encoded before).length = encoded before :=
    Source.take_encoded parted
  rw [indent, String.toList_map, width, Source.slice_eq_spelled _ (Nat.zero_le _) inside,
    List.drop_zero, Nat.sub_zero, front, spelled_encoded, String.toList_ofList]

end Fault

theorem unbroken_withoutReturn {cs : List Char} (unbroken : '\n' ∉ cs) :
    '\n' ∉ withoutReturn cs := by
  unfold withoutReturn
  split
  · exact fun member => unbroken ((List.dropLast_sublist cs).mem member)
  · exact unbroken

namespace Source

variable {υ : Type} {s : Source} {tabWidth : UInt32}

theorem Locates.drawn {f : Fault} {n : Nat} {before after : List Char}
    (located : s.Locates tabWidth f n before after) :
    f.Drawn before after f.indent.toList := by
  have parted := located.parted
  have offset : f.line.start + (encoded before).length = f.pos.offset.toNat := by
    rw [located.start, located.offset]
  have indent := Fault.toList_indent parted offset
  have shown : '\n' ∉ f.line.text.toList := by
    obtain ⟨l, here, text⟩ := Option.map_eq_some_iff.mp located.line
    rw [← text]
    exact unbroken_withoutReturn (s.unbroken_lines l (List.mem_of_getElem? here))
  have blanks : '\n' ∉ f.indent.toList := by
    rw [indent, List.mem_map]
    rintro ⟨c, -, blank⟩
    split at blank <;> cases blank
  constructor
  case lines =>
    have drawn : f.render.toList = f.message.toList ++ '\n' ::
        ((' ' :: ' ' :: f.line.text.toList) ++ '\n' :: (' ' :: ' ' :: (f.indent.toList ++ ['^']))) := by
      simp [Fault.render]
    rw [drawn, List.splitOn_append_cons_self_of_not_mem f.unbroken_message,
      List.splitOn_append_cons_self_of_not_mem (by simp [shown]),
      List.splitOn_eq_singleton (by simp [blanks])]
    rfl
  case parted => exact parted
  case offset => exact offset
  case length => simp [indent]
  case blank =>
    intro k below
    simp only [indent, List.length_map] at below
    simp [indent, parted, List.getElem?_append_left below, List.getElem?_eq_getElem below]
  case under => simp [indent, parted]

/-- A fault of a call is shown with its caret under the character that it is about. -/
theorem drawn_reached (fits : s.InRange tabWidth) (userData : υ) (calls : List Call)
    (ignoreNewline : Bool) {f : Fault}
    (answer : ((Session.reached s.text tabWidth userData
      (calls.map .call)).lexer.cursor.nextToken ignoreNewline).answer = .error f) :
    ∃ before after indent, f.Drawn before after indent := by
  obtain ⟨i, whole, stands⟩ := isBoundary_reached fits userData calls
  rw [stands] at answer
  obtain ⟨front, rest, faults⟩ := exists_faultsAt fits whole answer
  obtain ⟨n, before, after, located⟩ := faults.exists_locates fits
  exact ⟨before, after, _, located.drawn⟩

/-- The tab before a stray character is kept, and the carriage return behind it is not shown. -/
theorem drawn_stray_character :
    let s : Source := ⟨"a\tb é\r\n"⟩
    let c := (Session.reached s.text 8 () ([.next false, .next false].map .call)).lexer.cursor
    let f : Fault := ⟨.strayCharacter 'é', ⟨4, 1, 12⟩, ⟨0, "a\tb é"⟩⟩
    s.InRange 8 ∧ (c.nextToken false).answer = .error f ∧
      (∃ before after indent, f.Drawn before after indent) ∧
      f.render = "1:12: unknown token 'é'\n  a\tb é\n   \t  ^" := by
  intro s c f
  have fits : s.InRange 8 := by decide
  have answer : (c.nextToken false).answer = .error f := by decide +kernel
  exact ⟨fits, answer, drawn_reached fits () [.next false, .next false] false answer,
    by decide +kernel⟩

end Source

end Lexing
