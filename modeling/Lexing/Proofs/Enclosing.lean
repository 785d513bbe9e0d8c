import Lexing.Proofs.Slicing
import Mathlib.Data.List.Dedup

/-! The line around an offset. A line goes from one line feed to the next, so two lines that meet are
one, and what is looked up stays the same from the first byte of a line up to the line feed that ends
it. Over all offsets the lines of the source come up, one behind the other. -/
namespace Lexing

namespace Source

/-- A line goes from one offset up to another. It begins with the source or behind a line feed, and
ends with the source or before a line feed. -/
structure Bounds (s : Source) (start stop : Nat) : Prop where
  ordered : start ≤ stop
  inside : stop ≤ s.size
  begins : start = 0 ∨ s.bytes[start - 1]? = some Byte.lineFeed
  ends : stop = s.size ∨ s.bytes[stop]? = some Byte.lineFeed
  unbroken : ∀ k, start ≤ k → k < stop → s.bytes[k]? ≠ some Byte.lineFeed

/-- The line `l`, which goes up to `stop`, has the offset on it. It can be cut out, and is shown less a
carriage return at its end. -/
structure Encloses (s : Source) (i : Nat) (l : Line) (stop : Nat) : Prop where
  start_le : l.start ≤ i
  le_stop : i ≤ stop
  bounds : s.Bounds l.start stop
  text : ∃ whole, s.slice? l.start stop = some whole ∧ l.text.toList = withoutReturn whole.toList

def shownLines (s : Source) : List Line :=
  s.lines.mapIdx fun n l => ⟨s.lineOffset n, .ofList (withoutReturn l)⟩

end Source

/-- For every offset, those beyond the end included, the line around it is found, and nothing that is cut
out for it is missing. The same answer is given all over that line and at the line feed that ends it, and
nowhere else. In order and each taken once, the answers are the lines of the source. -/
structure Cursor.FindsLines (c : Cursor) : Prop where
  encloses : ∀ i : UInt32, ∃ stop,
    c.source.Encloses (min i.toNat c.source.size) (c.lineAt i) stop ∧
    ∀ j : UInt32, c.lineAt j = c.lineAt i ↔
      (c.lineAt i).start ≤ min j.toNat c.source.size ∧ min j.toNat c.source.size ≤ stop
  slices : ∀ i : UInt32, c.source.SlicesLine i.toNat
  answers : ((List.range (maxOffset + 1)).map fun i => c.lineAt (.ofNat i)).dedup =
    c.source.shownLines

namespace Source

variable {s : Source}

section Bounds

variable {a b a' b' : Nat} (bounds : s.Bounds a b) (other : s.Bounds a' b')
include bounds other

theorem Bounds.start_le (meets : a' ≤ b) : a' ≤ a := by
  apply Nat.le_of_not_lt
  intro later
  -- The line feed that the other line begins behind would stand inside this one.
  rcases other.begins with first | feed
  · omega
  · exact bounds.unbroken (a' - 1) (by omega) (by omega) feed

theorem Bounds.stop_le (meets : a' ≤ b) : b' ≤ b := by
  apply Nat.le_of_not_lt
  intro later
  have inside := other.inside
  -- The line feed behind this line would stand inside the other one.
  rcases bounds.ends with last | feed
  · omega
  · exact other.unbroken b meets later feed

theorem Bounds.unique (meets : a' ≤ b) (met : a ≤ b') : a = a' ∧ b = b' := by
  constructor
  · exact Nat.le_antisymm (other.start_le bounds met) (bounds.start_le other meets)
  · exact Nat.le_antisymm (other.stop_le bounds met) (bounds.stop_le other meets)

end Bounds

theorem Bounds.stop_unique {a b b' : Nat} (bounds : s.Bounds a b) (other : s.Bounds a b') : b = b' :=
  (bounds.unique other bounds.ordered other.ordered).2

theorem unbroken_lineStart {i k : Nat} (reach : s.lineStart i ≤ k) (below : k < i) :
    s.byte? k ≠ some Byte.lineFeed := by
  induction i with
  | zero => omega
  | succ i ih =>
    rw [lineStart] at reach
    split at reach
    · omega
    · rename_i other
      rcases Nat.lt_succ_iff_lt_or_eq.mp below with earlier | rfl
      · exact ih reach earlier
      · exact other

theorem not_of_find? {p : UInt8 → Bool} {i k : Nat} (reach : i ≤ k)
    (below : k < (s.find? p i).getD s.limit) {b : UInt8} (here : s.byte? k = some b) :
    p b = false := by
  fun_induction find? s p i with
  | case1 i ended =>
    rw [byte?_eq, List.getElem?_eq_none_iff, length_readable] at ended
    rw [Option.getD_none] at below
    omega
  | case2 i d found sat =>
    rw [Option.getD_some] at below
    omega
  | case3 i d found unsat ih =>
    rcases Nat.eq_or_lt_of_le reach with rfl | later
    · cases found.symm.trans here
      simpa using unsat
    · exact ih later below

theorem unbroken_lineStop {i k : Nat} (reach : i ≤ k) (below : k < s.lineStop i) :
    s.byte? k ≠ some Byte.lineFeed := by
  intro feed
  cases not_of_find? reach below feed

theorem start_lineAt (i : Nat) : (s.lineAt i).start = s.lineStart (min i s.limit) := by
  unfold lineAt
  dsimp only
  split <;> rfl

theorem text_lineAt (i : Nat) : (s.lineAt i).text =
    if s.lineStart (min i s.limit) < s.lineStop (min i s.limit) ∧
        s.byte? (s.lineStop (min i s.limit) - 1) = some Byte.carriageReturn then
      s.slice (s.lineStart (min i s.limit)) (s.lineStop (min i s.limit) - 1)
    else s.slice (s.lineStart (min i s.limit)) (s.lineStop (min i s.limit)) := by
  unfold lineAt
  dsimp only
  split <;> rfl

theorem encoded_of_slice? {i j : Nat} {t : String} (cut : s.slice? i j = some t) :
    (s.bytes.drop i).take (j - i) = encoded t.toList := by
  unfold slice? at cut
  split at cut
  · cases cut
    rw [← bytes_eq_encoded ⟨_⟩]
    apply List.toByteArray_inj.mp
    rw [toByteArray_range, toByteArray_bytes]
    rfl
  · cases cut

section Whole

variable (all : s.limit = s.size)
include all

theorem bounds_line {i : Nat} (inside : i ≤ s.size) :
    s.Bounds (s.lineStart i) (s.lineStop i) := by
  have before := s.lineStart_le i
  have behind : s.Cuts i (s.lineStop i) := cuts_lineStop (by rwa [all])
  constructor
  case ordered => exact Nat.le_trans before behind.ordered
  case inside => exact Nat.le_trans behind.inside s.limit_le_size
  case begins =>
    cases start : s.lineStart i with
    | zero => exact .inl rfl
    | succ k =>
      rw [← byte?_eq_getElem? all]
      exact .inr (byte?_of_lineStart start)
  case ends =>
    rw [← byte?_eq_getElem? all, ← all]
    exact s.lineStop_cases i
  case unbroken =>
    intro k reach below
    rw [← byte?_eq_getElem? all]
    rcases Nat.lt_or_ge k i with earlier | later
    · exact unbroken_lineStart reach earlier
    · exact unbroken_lineStop later below

theorem bounds_lineAt (i : Nat) :
    s.Bounds (s.lineAt i).start (s.lineStop (min i s.size)) := by
  rw [start_lineAt, all]
  exact bounds_line all (Nat.min_le_right _ _)

theorem start_lineAt_le (i : Nat) : (s.lineAt i).start ≤ min i s.size := by
  rw [start_lineAt, all]
  exact s.lineStart_le _

theorem le_lineStop (i : Nat) : min i s.size ≤ s.lineStop (min i s.size) := by
  have behind := (s.cutsLine i).behind.ordered
  rwa [all] at behind

/-- An offset has the same line as another one if it lies on that line, and only then. -/
theorem lineAt_eq_iff (i j : Nat) : s.lineAt j = s.lineAt i ↔
    (s.lineAt i).start ≤ min j s.size ∧ min j s.size ≤ s.lineStop (min i s.size) := by
  have first := bounds_lineAt all i
  have second := bounds_lineAt all j
  have before := start_lineAt_le all j
  have behind := le_lineStop all j
  constructor
  · intro same
    rw [same] at second before
    rw [second.stop_unique first] at behind
    exact ⟨before, behind⟩
  · rintro ⟨reach, within⟩
    obtain ⟨start, stop⟩ := second.unique first (by omega) (by omega)
    rw [start_lineAt, start_lineAt, all] at start
    rw [lineAt, lineAt, all, start, stop]

theorem start_lineAt_mono {i j : Nat} (ordered : i ≤ j) :
    (s.lineAt i).start ≤ (s.lineAt j).start := by
  have reach := start_lineAt_le all i
  have behind := le_lineStop all j
  apply (bounds_lineAt all j).start_le (bounds_lineAt all i)
  omega

theorem lineAt_eq_of_start {i j : Nat} (same : (s.lineAt j).start = (s.lineAt i).start) :
    s.lineAt j = s.lineAt i := by
  have first := bounds_lineAt all i
  have second := bounds_lineAt all j
  rw [same] at second
  rw [lineAt_eq_iff all, ← same, ← second.stop_unique first]
  exact ⟨start_lineAt_le all j, le_lineStop all j⟩

theorem slicesLine_of_limit (i : Nat) : s.SlicesLine i := by
  apply s.slicesLine
  rw [all]
  exact isBoundary_size

theorem encloses_lineAt (i : Nat) :
    s.Encloses (min i s.size) (s.lineAt i) (s.lineStop (min i s.size)) := by
  have bounds := bounds_lineAt all i
  refine ⟨start_lineAt_le all i, le_lineStop all i, bounds, ?_⟩
  obtain ⟨whole, cut⟩ := (slicesLine_of_limit all i).whole
  rw [← start_lineAt, all] at cut
  refine ⟨whole, cut, ?_⟩
  have range := encoded_of_slice? cut
  have ahead : s.bytes.drop (s.lineAt i).start = encoded whole.toList ++
      (s.bytes.drop (s.lineAt i).start).drop (s.lineStop (min i s.size) - (s.lineAt i).start) := by
    rw [← range, List.take_append_drop]
  have width : (s.lineAt i).start + (encoded whole.toList).length = s.lineStop (min i s.size) := by
    have ordered := bounds.ordered
    have inside := bounds.inside
    rw [← range, List.length_take, length_drop_bytes]
    omega
  have shown := slice_line all ahead (by rw [width]; exact bounds.inside)
  rw [width, start_lineAt, all] at shown
  rw [text_lineAt, all, shown, dropReturn_encoded, spelled_encoded, String.toList_ofList]

end Whole

/-! The lines in characters. -/

theorem exists_parting_of_lt {n : Nat} (below : n < s.lines.length) :
    ∃ ls rest, ls.length = n ∧ s.Parting ls [] rest := by
  obtain ⟨ls, ds, text, lines, last⟩ := exists_ended s.text.toList
  rw [lines_eq text lines last, List.length_append, List.length_singleton] at below
  refine ⟨ls.take n, ended (ls.drop n) ++ ds, List.length_take_of_le (by omega), ?_⟩
  constructor
  case text =>
    rw [text, List.nil_append, ← List.append_assoc, ← ended_append, List.take_append_drop]
  case lines => exact fun l member => lines l (List.mem_of_mem_take member)
  case last => exact List.not_mem_nil

theorem lineOffset_succ {n : Nat} (below : n < s.lines.length) :
    s.lineOffset (n + 1) = s.lineOffset n + (encoded s.lines[n]).length + 1 := by
  have feed : (encoded ['\n']).length = 1 := rfl
  rw [lineOffset, lineOffset, List.take_succ_eq_append_getElem below, ended_concat, encoded_append,
    encoded_append, List.length_append, List.length_append, feed]

theorem lineOffset_lt {n m : Nat} (ordered : n < m) (below : m < s.lines.length) :
    s.lineOffset n < s.lineOffset m := by
  induction m with
  | zero => omega
  | succ m ih =>
    have step := s.lineOffset_succ (Nat.lt_of_succ_lt below)
    rcases Nat.lt_succ_iff_lt_or_eq.mp ordered with earlier | rfl
    · have before := ih earlier (Nat.lt_of_succ_lt below)
      omega
    · omega

theorem pairwise_shownLines (s : Source) :
    s.shownLines.Pairwise fun l m => l.start < m.start := by
  refine List.pairwise_iff_getElem.mpr ?_
  intro n m _ below ordered
  rw [shownLines, List.length_mapIdx] at below
  simp only [shownLines, List.getElem_mapIdx]
  exact lineOffset_lt ordered below

section Whole

variable (all : s.limit = s.size)
include all

theorem Parting.getElem?_shownLines {ls : List (List Char)} {before rest : List Char}
    (parting : s.Parting ls before rest) :
    s.shownLines[ls.length]? = some (s.lineAt (encoded (ended ls ++ before)).length) := by
  rw [shownLines, List.getElem?_mapIdx, parting.getElem?_lines, parting.lineAt_eq all]
  rfl

theorem lineAt_mem_shownLines (i : Nat) : s.lineAt i ∈ s.shownLines := by
  have bounds := bounds_lineAt all i
  have ordered := bounds.ordered
  have inside := bounds.inside
  -- The offset may stand inside a character, but the line is found from its start just as well.
  have same : s.lineAt (s.lineAt i).start = s.lineAt i := by
    rw [lineAt_eq_iff all]
    omega
  have whole : s.IsBoundary (s.lineAt i).start := by
    rw [start_lineAt]
    exact s.isBoundary_lineStart _
  obtain ⟨front, rest, text, start⟩ := isBoundary_iff_front.mp whole
  obtain ⟨ls, before, rfl, parting⟩ := exists_parting text
  rw [← same, start]
  exact List.mem_of_getElem? (parting.getElem?_shownLines all)

theorem exists_lineAt {l : Line} (member : l ∈ s.shownLines) : ∃ i ≤ s.size, s.lineAt i = l := by
  obtain ⟨n, here⟩ := List.mem_iff_getElem?.mp member
  have below := (List.getElem?_eq_some_iff.mp here).1
  rw [shownLines, List.length_mapIdx] at below
  obtain ⟨ls, rest, rfl, parting⟩ := s.exists_parting_of_lt below
  rw [parting.getElem?_shownLines all] at here
  exact ⟨_, length_encoded_le parting.text_front, Option.some.inj here⟩

end Whole

theorem dedup_eq_of_starts {ls ms : List Line} (sorted : ls.Pairwise fun l m => l.start ≤ m.start)
    (apart : ∀ l ∈ ls, ∀ m ∈ ls, l.start = m.start → l = m)
    (strict : ms.Pairwise fun l m => l.start < m.start) (same : ∀ l, l ∈ ls ↔ l ∈ ms) :
    ls.dedup = ms := by
  have increasing : ls.dedup.Pairwise fun l m => l.start < m.start := by
    refine ((sorted.sublist ls.dedup_sublist).and ls.nodup_dedup).imp_of_mem ?_
    rintro l m first second ⟨ordered, different⟩
    apply Nat.lt_of_le_of_ne ordered
    intro equal
    exact different (apart l (List.mem_dedup.mp first) m (List.mem_dedup.mp second) equal)
  have distinct : ms.Nodup := strict.imp fun below same => by simp [same] at below
  have perm : ls.dedup.Perm ms := (List.perm_ext_iff_of_nodup ls.nodup_dedup distinct).mpr
    fun l => List.mem_dedup.trans (same l)
  exact perm.eq_of_pairwise (fun _ _ _ _ below above => absurd above (Nat.lt_asymm below))
    increasing strict

end Source

/-- However a cursor stands, it finds the line around any offset. -/
theorem Cursor.findsLines {c : Cursor} (short : c.source.size ≤ maxOffset) : c.FindsLines := by
  have all : c.source.limit = c.source.size := Nat.min_eq_left short
  constructor
  case encloses =>
    intro i
    exact ⟨_, Source.encloses_lineAt all i.toNat,
      fun j => Source.lineAt_eq_iff all i.toNat j.toNat⟩
  case slices => exact fun i => Source.slicesLine_of_limit all i.toNat
  case answers =>
    have each : ((List.range (maxOffset + 1)).map fun i => c.lineAt (.ofNat i)) =
        (List.range (maxOffset + 1)).map c.source.lineAt := by
      refine List.map_congr_left fun i member => congrArg c.source.lineAt ?_
      exact toNat_ofNat_of_le (Nat.le_of_lt_succ (List.mem_range.mp member))
    rw [each]
    apply Source.dedup_eq_of_starts
    case sorted =>
      refine List.pairwise_map.mpr (List.pairwise_lt_range.imp fun earlier => ?_)
      exact Source.start_lineAt_mono all (Nat.le_of_lt earlier)
    case apart =>
      rintro l first m second equal
      obtain ⟨i, -, rfl⟩ := List.mem_map.mp first
      obtain ⟨j, -, rfl⟩ := List.mem_map.mp second
      exact Source.lineAt_eq_of_start all equal
    case strict => exact c.source.pairwise_shownLines
    case same =>
      intro l
      constructor
      · intro found
        obtain ⟨i, -, rfl⟩ := List.mem_map.mp found
        exact Source.lineAt_mem_shownLines all i
      · intro shown
        obtain ⟨i, inside, rfl⟩ := Source.exists_lineAt all shown
        exact List.mem_map_of_mem (List.mem_range.mpr (by omega))

/-- An empty line stands between one that ends in a carriage return and one that nothing ends. The
cursor stands inside a character, and an offset inside another is looked up. -/
theorem Cursor.findsLines_empty_line :
    let c : Cursor := { source := ⟨"é\r\n\n€"⟩, pos := ⟨1, 1, 2⟩ }
    c.source.size ≤ maxOffset ∧ c.FindsLines ∧
      c.source.shownLines = [⟨0, "é"⟩, ⟨4, ""⟩, ⟨5, "€"⟩] ∧
      c.lineAt 3 = ⟨0, "é"⟩ ∧ c.lineAt 4 = ⟨4, ""⟩ ∧ c.lineAt 7 = ⟨5, "€"⟩ ∧
      c.lineAt 4294967295 = ⟨5, "€"⟩ := by
  intro c
  have short : c.source.size ≤ maxOffset := by decide
  exact ⟨short, findsLines short, by decide +kernel, by decide +kernel, by decide +kernel,
    by decide +kernel, by decide +kernel⟩

end Lexing
