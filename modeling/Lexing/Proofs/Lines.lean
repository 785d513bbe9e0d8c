import Lexing.Proofs.Place
import Lexing.Proofs.Spelling

/-! Lines as lists of bytes. The line at an offset is what lies between the last line feed before it
and the first one from it on, so it depends on nothing beyond those two. -/
namespace Lexing

def dropReturn (bs : List UInt8) : List UInt8 :=
  if bs.getLast? = some Byte.carriageReturn then bs.dropLast else bs

theorem Position.lastLine_append_of_nil {as : List UInt8} (ends : lastLine as = [])
    (bs : List UInt8) : lastLine (as ++ bs) = lastLine bs := by
  rw [lastLine_append, ends]
  split
  · rfl
  · rename_i unbroken
    exact (lastLine_of_not_mem unbroken).symm

namespace Source

def lineBytes (s : Source) (i : Nat) : List UInt8 :=
  Position.lastLine (s.bytes.take i) ++ (s.bytes.drop i).takeWhile (· != Byte.lineFeed)

variable {s : Source}

theorem byte?_eq_getElem? (all : s.limit = s.size) (i : Nat) : s.byte? i = s.bytes[i]? := by
  rw [byte?_eq, readable_eq_bytes all]

theorem lineStart_eq (all : s.limit = s.size) {i : Nat} (inside : i ≤ s.size) :
    s.lineStart i = i - (Position.lastLine (s.bytes.take i)).length := by
  induction i with
  | zero => rfl
  | succ i ih =>
    have below : i < s.bytes.length := by rwa [length_bytes]
    have shorter := Position.length_lastLine_le (s.bytes.take i)
    rw [List.length_take_of_le (Nat.le_of_lt below)] at shorter
    rw [lineStart, byte?_eq_getElem? all, ih (Nat.le_of_lt inside),
      List.take_succ_eq_append_getElem below, Position.lastLine_concat,
      List.getElem?_eq_getElem below]
    by_cases ends : s.bytes[i] = Byte.lineFeed
    · simp [ends]
    · simp only [Option.some.injEq, if_neg ends, List.length_append, List.length_singleton]
      omega

theorem lineStop_eq (all : s.limit = s.size) {i : Nat} (inside : i ≤ s.size) :
    s.lineStop i = i + ((s.bytes.drop i).takeWhile (· != Byte.lineFeed)).length := by
  have bound := findIdx_inside (· == Byte.lineFeed) inside
  have run : ((s.bytes.drop i).takeWhile (· != Byte.lineFeed)).length =
      (s.bytes.drop i).findIdx (· == Byte.lineFeed) := by
    have other : (fun b => ! b != Byte.lineFeed) = (· == Byte.lineFeed) := by
      funext b
      simp [bne]
    rw [length_takeWhile_eq, other]
  rw [lineStop, find?_eq, readable_eq_bytes all, all, run]
  cases found : (s.bytes.drop i).findIdx? (· == Byte.lineFeed) with
  | none =>
    rw [List.findIdx?_eq_none_iff_findIdx_eq] at found
    rw [found, length_drop_bytes, Nat.add_sub_cancel' inside]
    rfl
  | some k =>
    rw [(List.findIdx?_eq_some_iff_findIdx_eq.mp found).2]
    exact Nat.add_comm k i

theorem drop_lineStart {i : Nat} (inside : i ≤ s.size) :
    ∃ rest, s.bytes.drop (i - (Position.lastLine (s.bytes.take i)).length) =
      s.lineBytes i ++ rest := by
  obtain ⟨front, before⟩ := Position.lastLine_suffix (s.bytes.take i)
  have length := congrArg List.length before
  rw [List.length_append, length_take_bytes inside] at length
  have ahead := List.takeWhile_append_dropWhile (p := (· != Byte.lineFeed)) (l := s.bytes.drop i)
  refine ⟨(s.bytes.drop i).dropWhile (· != Byte.lineFeed), ?_⟩
  have start : i - (Position.lastLine (s.bytes.take i)).length = front.length := by omega
  rw [start, lineBytes, List.append_assoc, ahead]
  conv_lhs => rw [← List.take_append_drop i s.bytes, ← before, List.append_assoc]
  exact List.drop_left

theorem slice_line (all : s.limit = s.size) {start : Nat} {line rest : List UInt8}
    (ahead : s.bytes.drop start = line ++ rest) (reach : start + line.length ≤ s.size) :
    (if start < start + line.length ∧
        s.byte? (start + line.length - 1) = some Byte.carriageReturn then
      s.slice start (start + line.length - 1)
    else s.slice start (start + line.length)) = spelled (dropReturn line) := by
  have cut : ∀ n ≤ line.length, s.slice start (start + n) = spelled (line.take n) := by
    intro n short
    rw [s.slice_eq_spelled (Nat.le_add_right start n) (by omega), Nat.add_sub_cancel_left, ahead,
      List.take_append_of_le_length short]
  have whole := cut line.length (Nat.le_refl _)
  rw [List.take_length] at whole
  rcases List.eq_nil_or_concat line with rfl | ⟨front, b, parted⟩
  · rw [if_neg (by simp), whole]
    rfl
  · rw [List.concat_eq_append] at parted
    subst parted
    rw [List.length_append, List.length_singleton, ← Nat.add_assoc] at whole ⊢
    have last : s.byte? (start + front.length) = some b := by
      rw [byte?_eq_getElem? all, ← List.getElem?_drop, ahead]
      simp
    have short := cut front.length (by simp)
    rw [List.take_left] at short
    rw [Nat.add_sub_cancel, last, dropReturn, List.getLast?_concat, List.dropLast_concat, short,
      whole]
    by_cases returned : b = Byte.carriageReturn
    · rw [if_pos ⟨by omega, by rw [returned]⟩, if_pos (by rw [returned])]
    · rw [if_neg (by simp [returned]), if_neg (by simp [returned])]

theorem lineAt_eq (all : s.limit = s.size) {i : Nat} (inside : i ≤ s.size) :
    s.lineAt i = ⟨i - (Position.lastLine (s.bytes.take i)).length,
      spelled (dropReturn (s.lineBytes i))⟩ := by
  obtain ⟨rest, ahead⟩ := drop_lineStart inside
  have reach := takeWhile_inside (· != Byte.lineFeed) inside
  have shorter := Position.length_lastLine_le (s.bytes.take i)
  rw [length_take_bytes inside] at shorter
  have length : (s.lineBytes i).length = (Position.lastLine (s.bytes.take i)).length +
      ((s.bytes.drop i).takeWhile (· != Byte.lineFeed)).length := List.length_append
  rw [lineAt, all, Nat.min_eq_left inside, lineStart_eq all inside, lineStop_eq all inside]
  generalize start_eq : i - (Position.lastLine (s.bytes.take i)).length = start at ahead
  have stop : i + ((s.bytes.drop i).takeWhile (· != Byte.lineFeed)).length =
      start + (s.lineBytes i).length := by omega
  rw [stop] at reach
  rw [stop]
  rw [← slice_line all ahead reach]
  split <;> rfl

end Source

/-! Lines in characters. A line feed is a character of its own, so the lines of the bytes of a text
are the bytes of its lines. -/

/-- Lines with the line feeds that end them. -/
def ended (ls : List (List Char)) : List Char := ls.flatMap (· ++ ['\n'])

def withoutReturn (cs : List Char) : List Char :=
  if cs.getLast? = some '\r' then cs.dropLast else cs

@[simp] theorem ended_cons (l : List Char) (ls : List (List Char)) :
    ended (l :: ls) = l ++ '\n' :: ended ls := by
  simp [ended]

theorem ended_append (ks ls : List (List Char)) : ended (ks ++ ls) = ended ks ++ ended ls :=
  List.flatMap_append

@[simp] theorem ended_concat (ls : List (List Char)) (l : List Char) :
    ended (ls ++ [l]) = ended ls ++ l ++ ['\n'] := by
  simp [ended]

/-- A text is its lines, of which the last has no line feed behind it. -/
theorem exists_ended (cs : List Char) :
    ∃ ls ds, cs = ended ls ++ ds ∧ (∀ l ∈ ls, '\n' ∉ l) ∧ '\n' ∉ ds := by
  induction cs using List.reverseRecOn with
  | nil => exact ⟨[], [], rfl, by simp, by simp⟩
  | append_singleton cs c ih =>
    obtain ⟨ls, ds, rfl, lines, last⟩ := ih
    by_cases feed : c = '\n'
    · subst feed
      refine ⟨ls ++ [ds], [], by simp, List.forall_mem_append.mpr ⟨lines, ?_⟩, List.not_mem_nil⟩
      exact List.forall_mem_singleton.mpr last
    · refine ⟨ls, ds ++ [c], List.append_assoc .., lines, ?_⟩
      simp [last, Ne.symm feed]

theorem splitOn_ended {ls : List (List Char)} (lines : ∀ l ∈ ls, '\n' ∉ l) (cs : List Char) :
    (ended ls ++ cs).splitOn '\n' = ls ++ cs.splitOn '\n' := by
  induction ls with
  | nil => rfl
  | cons l ls ih =>
    obtain ⟨first, later⟩ := List.forall_mem_cons.mp lines
    simp [List.splitOn_append_cons_self_of_not_mem first, ih later]

theorem head?_splitOn (cs : List Char) :
    (cs.splitOn '\n').head? = some (cs.takeWhile (· != '\n')) := by
  induction cs with
  | nil => rfl
  | cons c cs ih =>
    rw [List.splitOn_cons_eq_if_modifyHead]
    by_cases feed : c = '\n'
    · simp [feed]
    · simp [feed, List.head?_modifyHead, ih]

theorem encoded_singleton (c : Char) : encoded [c] = String.utf8EncodeChar c := by
  rw [encoded_cons]
  exact List.append_nil _

theorem mem_encoded_iff {b : UInt8} (ascii : b.toNat < 0x80) {cs : List Char} :
    b ∈ encoded cs ↔ .ofNat b.toNat ∈ cs := by
  rw [encoded, List.mem_flatMap]
  constructor
  · rintro ⟨c, member, inside⟩
    cases (mem_encodeChar_iff ascii).mp inside
    exact member
  · exact fun member => ⟨_, member, (mem_encodeChar_iff ascii).mpr rfl⟩

theorem lineFeed_mem_encoded_iff {cs : List Char} : Byte.lineFeed ∈ encoded cs ↔ '\n' ∈ cs :=
  mem_encoded_iff (by decide)

theorem count_ended {ls : List (List Char)} (lines : ∀ l ∈ ls, '\n' ∉ l) :
    (encoded (ended ls)).count Byte.lineFeed = ls.length := by
  induction ls with
  | nil => rfl
  | cons l ls ih =>
    obtain ⟨first, later⟩ := List.forall_mem_cons.mp lines
    have unbroken : (encoded l).count Byte.lineFeed = 0 :=
      List.count_eq_zero.mpr fun member => first (lineFeed_mem_encoded_iff.mp member)
    have feed : encoded ('\n' :: ended ls) = Byte.lineFeed :: encoded (ended ls) := encoded_cons _ _
    rw [ended_cons, encoded_append, feed, List.count_append, unbroken, List.count_cons_self,
      ih later, List.length_cons, Nat.zero_add]

theorem lastLine_encoded (ls : List (List Char)) {ds : List Char} (last : '\n' ∉ ds) :
    Position.lastLine (encoded (ended ls ++ ds)) = encoded ds := by
  have whole : Byte.lineFeed ∉ encoded ds := fun member => last (lineFeed_mem_encoded_iff.mp member)
  have nothing : Position.lastLine (encoded (ended ls)) = [] := by
    rcases List.eq_nil_or_concat ls with rfl | ⟨ls, l, rfl⟩
    · rfl
    · have feed : encoded ['\n'] = [Byte.lineFeed] := rfl
      rw [List.concat_eq_append, ended_concat, encoded_append, feed, Position.lastLine_concat,
        if_pos rfl]
  rw [encoded_append, Position.lastLine_append, if_neg whole, nothing, List.nil_append]

theorem takeWhile_encoded (cs : List Char) :
    (encoded cs).takeWhile (· != Byte.lineFeed) = encoded (cs.takeWhile (· != '\n')) := by
  induction cs with
  | nil => rfl
  | cons c cs ih =>
    by_cases feed : c = '\n'
    · subst feed
      rfl
    · have own : ∀ b ∈ String.utf8EncodeChar c, (b != Byte.lineFeed) = true := by
        intro b member
        rw [bne_iff_ne]
        rintro rfl
        exact feed ((mem_encodeChar_iff (by decide)).mp member)
      rw [encoded_cons, List.takeWhile_append_of_pos own, ih,
        List.takeWhile_cons_of_pos (by simpa using feed), encoded_cons]

theorem dropReturn_append (as : List UInt8) {bs : List UInt8} (some_bytes : bs ≠ []) :
    dropReturn (as ++ bs) = as ++ dropReturn bs := by
  have last : (as ++ bs).getLast? = bs.getLast? := by
    rw [List.getLast?_append, List.getLast?_eq_some_getLast some_bytes]
    rfl
  rw [dropReturn, dropReturn, last, List.dropLast_append_of_ne_nil some_bytes]
  split <;> rfl

theorem dropReturn_encoded (cs : List Char) :
    dropReturn (encoded cs) = encoded (withoutReturn cs) := by
  rcases List.eq_nil_or_concat cs with rfl | ⟨cs, c, rfl⟩
  · rfl
  · rw [List.concat_eq_append, encoded_append, encoded_singleton,
      dropReturn_append _ (by simp [String.utf8EncodeChar_ne_nil]), withoutReturn,
      List.getLast?_concat, List.dropLast_concat]
    by_cases returned : c = '\r'
    · subst returned
      exact List.append_nil _
    · have other : (String.utf8EncodeChar c).getLast? ≠ some Byte.carriageReturn := by
        intro last
        exact returned ((mem_encodeChar_iff (by decide)).mp (List.mem_of_getLast? last))
      rw [dropReturn, if_neg other, if_neg (by simpa using returned), encoded_append,
        encoded_singleton]

theorem withoutReturn_append {c : Char} (other : c ≠ '\r') (as bs : List Char) :
    withoutReturn (as ++ c :: bs) = as ++ c :: withoutReturn bs := by
  rcases List.eq_nil_or_concat bs with rfl | ⟨bs, d, rfl⟩
  · simp [withoutReturn, other]
  · have whole : as ++ c :: (bs ++ [d]) = (as ++ c :: bs) ++ [d] := by simp
    rw [List.concat_eq_append, whole, withoutReturn, withoutReturn, List.getLast?_concat,
      List.getLast?_concat, List.dropLast_concat, List.dropLast_concat]
    split <;> simp

namespace Source

/-- The lines of a source, parted at its line feeds. -/
def lines (s : Source) : List (List Char) := s.text.toList.splitOn '\n'

theorem lines_eq {s : Source} {ls : List (List Char)} {ds : List Char}
    (text : s.text.toList = ended ls ++ ds) (lines : ∀ l ∈ ls, '\n' ∉ l) (last : '\n' ∉ ds) :
    s.lines = ls ++ [ds] := by
  rw [Source.lines, text, splitOn_ended lines, List.splitOn_eq_singleton last]

theorem unbroken_lines (s : Source) : ∀ l ∈ s.lines, '\n' ∉ l := by
  obtain ⟨ls, ds, text, lines, last⟩ := exists_ended s.text.toList
  rw [lines_eq text lines last]
  exact List.forall_mem_append.mpr ⟨lines, List.forall_mem_singleton.mpr last⟩

/-- Where a line starts: behind the lines before it and what ends them. -/
def lineOffset (s : Source) (n : Nat) : Nat := (encoded (ended (s.lines.take n))).length

/-- A place in a source: whole lines stand before it, and then a part of its own line. -/
structure Parting (s : Source) (ls : List (List Char)) (before rest : List Char) : Prop where
  text : s.text.toList = ended ls ++ (before ++ rest)
  lines : ∀ l ∈ ls, '\n' ∉ l
  last : '\n' ∉ before

theorem exists_parting {s : Source} {front rest : List Char} (text : s.text.toList = front ++ rest) :
    ∃ ls before, front = ended ls ++ before ∧ s.Parting ls before rest := by
  obtain ⟨ls, before, rfl, lines, last⟩ := exists_ended front
  exact ⟨ls, before, rfl, by rw [text, List.append_assoc], lines, last⟩

namespace Parting

variable {s : Source} {tabWidth : UInt32} {ls : List (List Char)} {before rest : List Char}
  (parting : s.Parting ls before rest)
include parting

theorem text_front : s.text.toList = (ended ls ++ before) ++ rest := by
  rw [parting.text, List.append_assoc]

theorem getElem?_lines :
    s.lines[ls.length]? = some (before ++ rest.takeWhile (· != '\n')) := by
  have unbroken : ∀ c ∈ before, (c != '\n') = true := by
    intro c member
    rw [bne_iff_ne]
    rintro rfl
    exact parting.last member
  rw [Source.lines, parting.text, splitOn_ended parting.lines,
    List.getElem?_append_right (Nat.le_refl _), Nat.sub_self, ← List.head?_eq_getElem?,
    head?_splitOn, List.takeWhile_append_of_pos unbroken]

theorem lineOffset_eq : s.lineOffset ls.length = (encoded (ended ls)).length := by
  simp [lineOffset, Source.lines, parting.text, splitOn_ended parting.lines]

theorem line_place (fits : s.InRange tabWidth) :
    (s.place tabWidth (encoded (ended ls ++ before)).length).line.toNat = ls.length + 1 := by
  have whole : (encoded before).count Byte.lineFeed = 0 :=
    List.count_eq_zero.mpr fun member => parting.last (lineFeed_mem_encoded_iff.mp member)
  rw [toNat_line_place fits, take_encoded parting.text_front]
  simp [count_ended parting.lines, whole, Nat.add_comm]

theorem column_place (fits : s.InRange tabWidth) :
    (s.place tabWidth (encoded (ended ls ++ before)).length).column.toNat =
      1 + Position.width tabWidth (encoded before) := by
  rw [toNat_column_place fits, take_encoded parting.text_front, lastLine_encoded ls parting.last]

/-- The line at a place begins where its part before the place does, and goes on up to the next
line feed. -/
theorem lineAt_eq (all : s.limit = s.size) :
    s.lineAt (encoded (ended ls ++ before)).length =
      ⟨s.lineOffset ls.length,
        .ofList (withoutReturn (before ++ rest.takeWhile (· != '\n')))⟩ := by
  have line : s.lineBytes (encoded (ended ls ++ before)).length =
      encoded (before ++ rest.takeWhile (· != '\n')) := by
    rw [lineBytes, take_encoded parting.text_front, drop_encoded parting.text_front,
      lastLine_encoded ls parting.last, takeWhile_encoded, encoded_append]
  rw [Source.lineAt_eq all (length_encoded_le parting.text_front), line, dropReturn_encoded,
    spelled_encoded, take_encoded parting.text_front, lastLine_encoded ls parting.last,
    parting.lineOffset_eq]
  simp

end Parting

end Source

end Lexing
