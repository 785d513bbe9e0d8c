import Lexing.Proofs.Boundary

/-! Wholeness. Inside a string a cursor may come to stand in the middle of a character. But where the
scanner stops, what is left to read is a text of its own, for it stops behind ASCII bytes, before one of
them or at the end. This holds of any source whose readable part is a text, and in one that is in range
it is to stand between two characters. -/
namespace Lexing

/-- What is left to read is a text of its own. -/
def Cursor.Whole (c : Cursor) : Prop := ∃ cs, c.rest = encoded cs

/-- A step that asks, or goes back to what was saved, and moves no cursor by hand. -/
def Step.Asks : Step → Prop
  | bump | advance _ | eatWhile _ | eatBlanks | skipToDelimiter => False
  | save | restore _ | scan _ | call _ => True

structure Session.All {υ : Type} (P : Cursor → Prop) (x : Session υ) : Prop where
  lexer : P x.lexer.cursor
  saved : ∀ l ∈ x.saved, P l.cursor

theorem asks_calls (calls : List Call) : ∀ st ∈ calls.map Step.call, st.Asks :=
  List.forall_mem_map.mpr fun _ _ => trivial

theorem exists_encoded_suffix {cs : List Char} {bs : List UInt8} (behind : bs <:+ encoded cs)
    (ascii : ∀ b, bs.head? = some b → b.toNat < 0x80) : ∃ ds, bs = encoded ds := by
  cases bs with
  | nil => exact ⟨[], rfl⟩
  | cons b bs =>
    obtain ⟨front, parted⟩ := behind
    obtain ⟨-, ds, -, -, rfl⟩ := encoded_eq_append_ascii (ascii b rfl) parted.symm
    exact ⟨.ofNat b.toNat :: ds, (encoded_ascii_cons (ascii b rfl) ds).symm⟩

theorem Opening.Opens.ascii {o : Opening} {b : UInt8} {following : Option UInt8}
    (opens : o.Opens b following) (proper : o ≠ .stray) : b.toNat < 0x80 := by
  cases o with
  | string =>
    cases opens
    decide
  | newline =>
    cases opens
    decide
  | word =>
    have start : Byte.isWordStart b = true := opens
    exact Byte.ascii_of_class b (by simp [Byte.isWordPart, start])
  | number =>
    rcases opens with digit | ⟨rfl, -⟩
    · exact Byte.ascii_of_isDigit digit
    · decide
  | symbol =>
    obtain ⟨symbol, -⟩ := opens
    exact Byte.ascii_of_class b (by simp [symbol])
  | stray => exact absurd rfl proper

namespace Cursor

theorem rest_eatString (c : Cursor) :
    c.eatString.rest <:+ c.rest ∧ ∀ b, c.eatString.byte? = some b → b = Byte.quote := by
  have skipped : c.skipToDelimiter.2.rest <:+ c.rest := by
    rw [rest_skipToDelimiter]
    exact List.dropWhile_suffix _
  have next := c.fst_skipToDelimiter
  fun_induction eatString c with
  | case1 c stop found ih =>
    rw [found] at skipped
    obtain ⟨behind, last⟩ := ih (by rw [rest_skipToDelimiter]; exact List.dropWhile_suffix _)
      (fst_skipToDelimiter _)
    rw [rest_bump, rest_bump] at behind
    exact ⟨behind.trans ((List.tail_suffix _).trans ((List.tail_suffix _).trans skipped)), last⟩
  | case2 c b stop found other =>
    have delimited := List.head?_dropWhile_not (!Byte.isDelimiter ·) c.rest
    rw [← rest_skipToDelimiter, ← next, found] at delimited
    rw [found] at skipped
    refine ⟨skipped, fun d here => ?_⟩
    rw [byte?_skipToDelimiter found] at here
    cases here
    simpa [Byte.isDelimiter, other] using delimited
  | case3 c stop found =>
    rw [found] at skipped next
    refine ⟨skipped, fun d here => ?_⟩
    rw [byte?_eq, ← next] at here
    cases here

namespace Whole

variable {c : Cursor}

theorem bump (whole : c.Whole) (ascii : ∀ b, c.byte? = some b → b.toNat < 0x80) :
    c.bump.Whole := by
  obtain ⟨cs, text⟩ := whole
  simp only [byte?_eq] at ascii
  rw [Whole, rest_bump]
  generalize c.rest = bs at text ascii
  cases bs with
  | nil => exact ⟨[], rfl⟩
  | cons b bs =>
    obtain ⟨ds, -, behind⟩ := encoded_eq_cons_ascii (ascii b rfl) text.symm
    exact ⟨ds, behind.symm⟩

theorem eatWhile (whole : c.Whole) {p : UInt8 → Bool} (ascii : ∀ b, p b = true → b.toNat < 0x80) :
    (c.eatWhile p).Whole := by
  obtain ⟨cs, text⟩ := whole
  have passed : ∀ b ∈ c.rest.takeWhile p, b.toNat < 0x80 :=
    fun b member => ascii b (all_takeWhile c.rest b member)
  rw [← List.takeWhile_append_dropWhile (p := p) (l := c.rest)] at text
  obtain ⟨ds, -, behind⟩ := encoded_eq_ascii_run passed text.symm
  exact ⟨ds, by rw [rest_eatWhile, behind]⟩

theorem eatBlanks (whole : c.Whole) : c.eatBlanks.Whole :=
  whole.eatWhile fun b blank => Byte.ascii_of_class b (by simp [blank])

theorem eatDigits (whole : c.Whole) : (c.eatWhile Byte.isDigit).Whole :=
  whole.eatWhile fun _ digit => Byte.ascii_of_isDigit digit

theorem eatNumber (whole : c.Whole) : c.eatNumber.Whole := by
  unfold Cursor.eatNumber
  dsimp only
  split
  · rename_i point
    apply eatDigits
    apply whole.eatDigits.bump
    intro b here
    cases point.symm.trans here
    decide
  · exact whole.eatDigits

/-- A backslash may take a part of a character along, but a quote is one of its own. -/
theorem eatString (whole : c.Whole) : c.eatString.Whole := by
  obtain ⟨cs, text⟩ := whole
  obtain ⟨behind, last⟩ := c.rest_eatString
  rw [text] at behind
  apply exists_encoded_suffix behind
  intro b here
  rw [← byte?_eq] at here
  -- A backslash may take a part of a character along, but a quote is one of its own.
  cases last b here
  decide

theorem bump_eatString (whole : c.Whole) : c.eatString.bump.Whole := by
  apply whole.eatString.bump
  intro b here
  cases c.rest_eatString.2 b here
  decide

theorem scanString (whole : c.bump.Whole) : c.scanString.cursor.Whole := by
  unfold Cursor.scanString
  dsimp only
  split
  · exact whole.bump_eatString
  · exact whole.eatString

theorem scanNumber (whole : c.Whole) : c.scanNumber.cursor.Whole := by
  unfold Cursor.scanNumber
  dsimp only
  split <;> exact whole.eatNumber

theorem scanWord (whole : c.bump.Whole) : c.scanWord.cursor.Whole :=
  whole.eatWhile fun b part => Byte.ascii_of_class b (by simp [part])

theorem bump_of_opens (whole : c.Whole) {b : UInt8} (here : c.byte? = some b) {o : Opening}
    (opens : Opening.ofByte b c.following? = o) (proper : o ≠ .stray) : c.bump.Whole := by
  apply whole.bump
  intro d found
  cases here.symm.trans found
  exact (Opening.ofByte_eq_iff.mp opens).ascii proper

theorem scanHere (whole : c.Whole) : c.scanHere.cursor.Whole := by
  unfold Cursor.scanHere
  cases here : c.byte? with
  | none => exact whole
  | some b =>
    dsimp only
    cases opens : Opening.ofByte b c.following? with
    | string => exact (whole.bump_of_opens here opens (by decide)).scanString
    | newline => exact whole.bump_of_opens here opens (by decide)
    | word => exact (whole.bump_of_opens here opens (by decide)).scanWord
    | number => exact whole.scanNumber
    | symbol => exact whole.bump_of_opens here opens (by decide)
    | stray => exact whole

theorem scan (whole : c.Whole) : c.scan.cursor.Whole := whole.eatBlanks.scanHere

theorem nextToken (whole : c.Whole) (ignoreNewline : Bool) :
    (c.nextToken ignoreNewline).cursor.Whole := by
  fun_induction Cursor.nextToken c ignoreNewline with
  | case1 c r newline ih => exact ih whole.scan
  | case2 c r other => exact whole.scan

theorem after (whole : c.Whole) (flags : List Bool) : (c.after flags).Whole :=
  all_after (fun ignoreNewline own => own.nextToken ignoreNewline) flags whole

end Whole

theorem whole_start {s : Source} (edge : s.IsBoundary s.limit) (tabWidth : UInt32) :
    (Cursor.mk s tabWidth .start).Whole := by
  obtain ⟨-, cs, text⟩ := Source.isBoundary_iff_take.mp edge
  exact ⟨cs, text⟩

end Cursor

namespace Session

variable {υ : Type} {P : Cursor → Prop} {x : Session υ}

variable (next : ∀ {c : Cursor} (ignoreNewline : Bool), P c → P (c.nextToken ignoreNewline).cursor)
include next

theorem All.step (all : x.All P) {st : Step} (asks : st.Asks) : (x.step st).All P := by
  cases st with
  | bump => cases asks
  | advance n => cases asks
  | eatWhile p => cases asks
  | eatBlanks => cases asks
  | skipToDelimiter => cases asks
  | save =>
    refine ⟨all.lexer, List.forall_mem_append.mpr ⟨all.saved, ?_⟩⟩
    exact List.forall_mem_singleton.mpr all.lexer
  | restore k =>
    refine ⟨?_, all.saved⟩
    change P (x.saved.getD k x.lexer).cursor
    rw [List.getD_eq_getElem?_getD]
    cases here : x.saved[k]? with
    | none => exact all.lexer
    | some l => exact all.saved l (List.mem_of_getElem? here)
  | scan ignoreNewline => exact ⟨next ignoreNewline all.lexer, all.saved⟩
  | call c =>
    obtain ⟨flags, -, comes⟩ := exists_comesOf_ask x.lexer c
    refine ⟨?_, all.saved⟩
    change P (x.lexer.ask c).lexer.cursor
    rw [comes.cursor]
    exact Cursor.all_after next flags all.lexer

theorem All.run (all : x.All P) {steps : List Step} (asks : ∀ st ∈ steps, st.Asks) :
    (x.run steps).All P := by
  induction steps generalizing x with
  | nil => exact all
  | cons st steps ih =>
    obtain ⟨first, later⟩ := List.forall_mem_cons.mp asks
    exact ih (all.step next first) later

theorem all_reached {s : Source} {tabWidth : UInt32} (start : P ⟨s, tabWidth, .start⟩)
    (userData : υ) {steps : List Step} (asks : ∀ st ∈ steps, st.Asks) :
    (reached s.text tabWidth userData steps).All P :=
  All.run next ⟨start, List.forall_mem_nil _⟩ asks

omit next in
/-- Whatever is asked, what is left to read stays a text of its own. -/
theorem whole_reached {s : Source} (edge : s.IsBoundary s.limit) (tabWidth : UInt32) (userData : υ)
    {steps : List Step} (asks : ∀ st ∈ steps, st.Asks) :
    (reached s.text tabWidth userData steps).lexer.cursor.Whole :=
  (all_reached (fun ignoreNewline whole => whole.nextToken ignoreNewline)
    (Cursor.whole_start edge tabWidth) userData asks).lexer

end Session

namespace Source

variable {υ : Type} {s : Source} {tabWidth : UInt32}

theorem Holds.isBoundary (fits : s.InRange tabWidth) (held : s.Holds tabWidth c)
    (whole : c.Whole) : s.IsBoundary c.offset := by
  obtain ⟨i, inside, rfl⟩ := held
  obtain ⟨cs, text⟩ := whole
  rw [rest_cursorAt fits inside] at text
  rw [offset_cursorAt fits inside]
  exact isBoundary_iff_drop.mpr ⟨inside, cs, text⟩

/-- A lexer stands between two characters, whatever it was asked before. -/
theorem isBoundary_reached (fits : s.InRange tabWidth) (userData : υ) (calls : List Call) :
    ∃ i, s.IsBoundary i ∧ (Session.reached s.text tabWidth userData
      (calls.map .call)).lexer.cursor = s.cursorAt tabWidth i := by
  have held := (keeps_reached fits userData (calls.map .call)).lexer
  have whole := Session.whole_reached (isBoundary_limit fits) tabWidth userData (asks_calls calls)
  have boundary := held.isBoundary fits whole
  obtain ⟨i, inside, stands⟩ := held
  rw [stands, offset_cursorAt fits inside] at boundary
  exact ⟨i, boundary, stands⟩

end Source

end Lexing
