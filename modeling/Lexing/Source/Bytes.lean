import Lexing.Source

/-! The bytes of a source as a list. Every operation that reads by offset is a list operation on
the bytes that can be read. -/
namespace Lexing.Source

def bytes (s : Source) : List UInt8 := s.text.toByteArray.data.toList

/-- The bytes below the limit. -/
def readable (s : Source) : List UInt8 := s.bytes.take s.limit

@[simp] theorem length_bytes (s : Source) : s.bytes.length = s.size := by
  simp [bytes, size]

@[simp] theorem length_readable (s : Source) : s.readable.length = s.limit := by
  simp only [readable, List.length_take, length_bytes]
  exact Nat.min_eq_left s.limit_le_size

theorem readable_eq_bytes {s : Source} (all : s.limit = s.size) : s.readable = s.bytes := by
  rw [readable, all, ← length_bytes, List.take_length]

theorem byte?_eq (s : Source) (i : Nat) : s.byte? i = s.readable[i]? := by
  by_cases below : i < s.limit
  · have inside : i < s.readable.length := by rw [length_readable]; exact below
    rw [List.getElem?_eq_getElem inside]
    simp only [byte?, dif_pos below, readable, List.getElem_take]
    rfl
  · have outside : s.readable.length ≤ i := by rw [length_readable]; omega
    rw [List.getElem?_eq_none outside]
    simp only [byte?, dif_neg below]

theorem chunk_eq (s : Source) (start stop : Nat) :
    s.chunk start stop = (s.readable.drop start).take (stop - start) := by
  unfold chunk
  generalize stop - start = n
  induction n generalizing start with
  | zero => simp
  | succ n ih =>
    rw [List.range'_succ, List.filterMap_cons, ih, byte?_eq]
    cases here : s.readable[start]? with
    | none =>
      have outside := List.getElem?_eq_none_iff.mp here
      simp [List.drop_eq_nil_of_le outside,
        List.drop_eq_nil_of_le (Nat.le_succ_of_le outside)]
    | some b =>
      obtain ⟨inside, rfl⟩ := List.getElem?_eq_some_iff.mp here
      rw [List.drop_eq_getElem_cons inside, List.take_succ_cons]

theorem find?_eq (s : Source) (p : UInt8 → Bool) (i : Nat) :
    s.find? p i = ((s.readable.drop i).findIdx? p).map (· + i) := by
  fun_induction find? s p i with
  | case1 i ended =>
    rw [byte?_eq] at ended
    simp [List.drop_eq_nil_of_le (List.getElem?_eq_none_iff.mp ended)]
  | case2 i b here sat =>
    rw [byte?_eq] at here
    obtain ⟨inside, rfl⟩ := List.getElem?_eq_some_iff.mp here
    rw [List.drop_eq_getElem_cons inside, List.findIdx?_cons, if_pos sat]
    simp
  | case3 i b here unsat ih =>
    rw [byte?_eq] at here
    obtain ⟨inside, rfl⟩ := List.getElem?_eq_some_iff.mp here
    rw [List.drop_eq_getElem_cons inside, List.findIdx?_cons, if_neg unsat, ih, Option.map_map]
    congr 1
    funext j
    exact Nat.add_right_comm j i 1

end Lexing.Source
