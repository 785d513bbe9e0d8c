import Lexing.Proofs.Tiling

/-! Courses: what calls that follow on each other come to, up to the end of the stream or up to a
fault. A course that passes over newlines is the full one with the newlines left out. Where some
calls pass over newlines and others do not, just those are missing that a call passed over. -/
namespace Lexing

/-- Whether something more can follow: a token was found, and not the end. -/
def answerGoesOn (answer : Except Fault Token) : Bool := answerMeets Token.hasMore answer

def Scanned.goesOn (r : Scanned) : Bool := answerGoesOn r.answer

def Scanned.toStop : List Scanned → List Scanned
  | [] => []
  | r :: rs => if r.goesOn then r :: toStop rs else [r]

/-- What calls get out of a row of items, each call one item. A call that ignores newlines passes
over those before its item. -/
def thinned {α : Type} (isNewline : α → Bool) : List Bool → List α → List α
  | [], _ => []
  | _ :: _, [] => []
  | ignoreNewline :: flags, a :: as =>
    if ignoreNewline && isNewline a then thinned isNewline (ignoreNewline :: flags) as
    else a :: thinned isNewline flags as

def Scanned.fromStop (r : Scanned) : List Bool → List Scanned
  | [] => []
  | _ :: flags => r :: r.cursor.calls flags

theorem unread_nextToken_lt_of_goesOn {c : Cursor} {ignoreNewline : Bool}
    (more : (c.nextToken ignoreNewline).goesOn = true) :
    (c.nextToken ignoreNewline).cursor.unread < c.unread := by
  obtain ⟨t, found, going⟩ := exists_token_of_meets more
  exact Cursor.unread_nextToken_lt found going

/-- All outcomes from a cursor on, up to the first that does not go on. -/
def Cursor.course (c : Cursor) (ignoreNewline : Bool) : List Scanned :=
  let r := c.nextToken ignoreNewline
  if _ : r.goesOn then r :: r.cursor.course ignoreNewline else [r]
termination_by c.unread
decreasing_by exact unread_nextToken_lt_of_goesOn (by assumption)

theorem Scanned.goesOn_of_isNewline {r : Scanned} (newline : r.isNewline = true) :
    r.goesOn = true := by
  obtain ⟨t, found, other⟩ := exists_token_of_meets newline
  rw [goesOn, found]
  exact Token.hasMore_of_isNewline other

namespace Scanned

theorem not_isNewline_of_stops {r : Scanned} (stops : r.goesOn = false) : r.isNewline = false :=
  Bool.eq_false_iff.mpr fun newline =>
    Bool.false_ne_true (stops.symm.trans (goesOn_of_isNewline newline))

theorem toStop_append {as : List Scanned} (go : ∀ r ∈ as, r.goesOn = true) (bs : List Scanned) :
    toStop (as ++ bs) = as ++ toStop bs := by
  induction as with
  | nil => rfl
  | cons a as ih =>
    rw [List.cons_append, toStop, if_pos (go a List.mem_cons_self),
      ih fun r member => go r (List.mem_cons_of_mem a member)]
    rfl

end Scanned

section Thinned

variable {α : Type} {isNewline : α → Bool}

theorem mem_of_mem_thinned {flags : List Bool} {as : List α} {a : α}
    (member : a ∈ thinned isNewline flags as) : a ∈ as := by
  fun_induction thinned isNewline flags as with
  | case1 => cases member
  | case2 => cases member
  | case3 _ _ _ _ _ ih => exact List.mem_cons_of_mem _ (ih member)
  | case4 _ _ _ _ _ ih =>
    rcases List.mem_cons.mp member with rfl | later
    · exact List.mem_cons_self
    · exact List.mem_cons_of_mem _ (ih later)

theorem length_thinned_le (flags : List Bool) (as : List α) :
    (thinned isNewline flags as).length ≤ flags.length := by
  fun_induction thinned isNewline flags as with
  | case1 => simp
  | case2 => simp
  | case3 _ _ _ _ _ ih => exact ih
  | case4 _ _ _ _ _ ih => simpa using ih

theorem thinned_concat {z : α} (other : isNewline z = false) (flags : List Bool) (as : List α) :
    thinned isNewline flags (as ++ [z]) = thinned isNewline flags as ++
      if (thinned isNewline flags as).length < flags.length then [z] else [] := by
  fun_induction thinned isNewline flags as with
  | case1 => simp [thinned]
  | case2 ignoreNewline flags => cases flags <;> simp [thinned, other]
  | case3 ignoreNewline flags a as ignored ih => rw [List.cons_append, thinned, if_pos ignored, ih]
  | case4 ignoreNewline flags a as stays ih =>
    rw [List.cons_append, thinned, if_neg stays, ih, List.cons_append, List.length_cons,
      List.length_cons]
    simp only [Nat.add_lt_add_iff_right]

end Thinned

namespace Cursor

theorem nextToken_eq (c : Cursor) (ignoreNewline : Bool) :
    c.nextToken ignoreNewline =
      if ignoreNewline && (c.nextToken false).isNewline then
        (c.nextToken false).cursor.nextToken ignoreNewline
      else c.nextToken false := by
  have plain : c.nextToken false = c.scan := by
    rw [nextToken]
    exact dif_neg (by simp)
  rw [plain, nextToken]
  by_cases ignored : ignoreNewline ∧ c.scan.isNewline = true
  · rw [dif_pos ignored, if_pos (by simp [ignored])]
  · rw [dif_neg ignored, if_neg (by simpa using ignored)]

theorem course_of_goesOn {c : Cursor} {ignoreNewline : Bool}
    (more : (c.nextToken ignoreNewline).goesOn = true) :
    c.course ignoreNewline =
      c.nextToken ignoreNewline :: (c.nextToken ignoreNewline).cursor.course ignoreNewline := by
  rw [course]
  exact dif_pos more

theorem course_of_stops {c : Cursor} {ignoreNewline : Bool}
    (stops : (c.nextToken ignoreNewline).goesOn = false) :
    c.course ignoreNewline = [c.nextToken ignoreNewline] := by
  rw [course]
  exact dif_neg (by simp [stops])

theorem course_congr {c d : Cursor} {ignoreNewline : Bool}
    (same : c.nextToken ignoreNewline = d.nextToken ignoreNewline) :
    c.course ignoreNewline = d.course ignoreNewline := by
  unfold course
  rw [same]

theorem course_eq_cons {c : Cursor} {ignoreNewline : Bool} {x : Scanned} {rest : List Scanned}
    (whole : c.course ignoreNewline = x :: rest) :
    c.nextToken ignoreNewline = x ∧ (rest ≠ [] → x.cursor.course ignoreNewline = rest) := by
  cases more : (c.nextToken ignoreNewline).goesOn with
  | true =>
    rw [course_of_goesOn more] at whole
    obtain ⟨rfl, behind⟩ := List.cons.inj whole
    exact ⟨rfl, fun _ => behind⟩
  | false =>
    rw [course_of_stops more] at whole
    obtain ⟨first, nothing⟩ := List.cons.inj whole
    exact ⟨first, fun some_left => absurd nothing.symm some_left⟩

theorem exists_course (c : Cursor) (ignoreNewline : Bool) :
    ∃ rs r, c.course ignoreNewline = rs ++ [r] ∧ (∀ x ∈ rs, x.goesOn = true) ∧
      r.goesOn = false := by
  fun_induction course c ignoreNewline with
  | case1 c r more ih =>
    obtain ⟨rs, last, whole, go, stops⟩ := ih
    refine ⟨r :: rs, last, ?_, List.forall_mem_cons.mpr ⟨more, go⟩, stops⟩
    rw [whole, List.cons_append]
  | case2 c r stops =>
    refine ⟨[], r, rfl, ?_, by simpa using stops⟩
    intro x member
    cases member

/-- Ignoring newlines leaves them out of a course, and changes nothing else: not the stop, nor the
cursor behind any other outcome. -/
theorem course_true (c : Cursor) :
    c.course true = (c.course false).filter (!·.isNewline) := by
  fun_induction course c false with
  | case1 c r more ih =>
    have call := c.nextToken_eq true
    rw [Bool.true_and] at call
    cases newline : r.isNewline with
    | true =>
      rw [if_pos newline] at call
      rw [course_congr call, ih]
      simp [newline]
    | false =>
      rw [if_neg (by simp [r, newline])] at call
      rw [course_of_goesOn (call ▸ more), call, ih]
      simp [newline, r]
  | case2 c r stops =>
    have other := Scanned.not_isNewline_of_stops (by simpa using stops)
    have call := c.nextToken_eq true
    rw [if_neg (by simp [r, other])] at call
    rw [course_of_stops (by simpa [call] using stops), call]
    simp [other, r]

theorem calls_course {c : Cursor} {rs : List Scanned} {r : Scanned}
    (whole : c.course false = rs ++ [r]) (stops : r.goesOn = false) (flags : List Bool) :
    c.calls flags = thinned Scanned.isNewline flags rs ++
      r.fromStop (flags.drop (thinned Scanned.isNewline flags rs).length) := by
  have other := Scanned.not_isNewline_of_stops stops
  induction rs generalizing c flags with
  | nil =>
    obtain ⟨first, -⟩ := course_eq_cons whole
    cases flags with
    | nil => rfl
    | cons ignoreNewline flags =>
      have call : c.nextToken ignoreNewline = r := by
        rw [nextToken_eq, first, other, Bool.and_false]
        rfl
      rw [calls, call]
      rfl
  | cons x rs ih =>
    obtain ⟨first, behind⟩ := course_eq_cons whole
    have rest := behind (by simp)
    cases flags with
    | nil => rfl
    | cons ignoreNewline flags =>
      have call := c.nextToken_eq ignoreNewline
      rw [first] at call
      cases ignored : ignoreNewline && x.isNewline with
      | true =>
        rw [if_pos ignored] at call
        -- The call is the same behind the newline, so it is still to be made there.
        have again := ih rest (ignoreNewline :: flags)
        rw [calls, ← call] at again
        rw [calls, thinned, if_pos ignored, again]
      | false =>
        have stays : ¬ (ignoreNewline && x.isNewline) = true := by simp [ignored]
        rw [if_neg stays] at call
        rw [calls, call, ih rest flags, thinned, if_neg stays]
        rfl

/-- From any state, newlines that are ignored are newlines left out. -/
theorem calls_leave_out_newlines (c : Cursor) :
    (∃ rs r, c.course false = rs ++ [r] ∧ (∀ x ∈ rs, x.goesOn = true) ∧ r.goesOn = false ∧
      c.course true = rs.filter (!·.isNewline) ++ [r]) ∧
    ∀ flags, Scanned.toStop (c.calls flags) =
      thinned Scanned.isNewline flags (c.course false) := by
  obtain ⟨rs, r, whole, go, stops⟩ := c.exists_course false
  have other := Scanned.not_isNewline_of_stops stops
  constructor
  · refine ⟨rs, r, whole, go, stops, ?_⟩
    rw [course_true, whole, List.filter_append]
    simp [other]
  · intro flags
    have left_go : ∀ x ∈ thinned Scanned.isNewline flags rs, x.goesOn = true :=
      fun x member => go x (mem_of_mem_thinned member)
    rw [calls_course whole stops, Scanned.toStop_append left_go, whole, thinned_concat other]
    cases left : flags.drop (thinned Scanned.isNewline flags rs).length with
    | nil =>
      rw [if_neg (Nat.not_lt_of_le (List.drop_eq_nil_iff.mp left))]
      rfl
    | cons ignoreNewline left' =>
      have short : (thinned Scanned.isNewline flags rs).length < flags.length := by
        refine Nat.lt_of_not_le fun all => ?_
        rw [List.drop_eq_nil_of_le all] at left
        cases left
      rw [if_pos short, Scanned.fromStop, Scanned.toStop, if_neg (by simp [stops])]

end Cursor

end Lexing
