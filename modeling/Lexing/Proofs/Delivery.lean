import Lexing.Proofs.Tokens

/-! Delivery. A token stream that is asked again and again gives the items that draining it gives,
one by one, and nothing ever after. There are no more of them than bytes, and one for a fault. -/
namespace Lexing.TokenStream

variable {υ : Type} {ts : TokenStream υ}

theorem next_of_unfinished (unfinished : ts.finished = false) :
    ts.next.stream.lexer = (ts.lexer.nextToken ts.ignoreNewline).lexer ∧
      ts.next.stream.ignoreNewline = ts.ignoreNewline ∧
      ts.next.events = (ts.lexer.nextToken ts.ignoreNewline).events := by
  cases answer : (ts.lexer.nextToken ts.ignoreNewline).answer with
  | error f =>
    rw [next_of_fault unfinished answer]
    exact ⟨rfl, rfl, rfl⟩
  | ok t =>
    cases more : t.hasMore with
    | false =>
      rw [next_of_end unfinished answer more]
      exact ⟨rfl, rfl, rfl⟩
    | true =>
      rw [next_of_hasMore unfinished answer more]
      exact ⟨rfl, rfl, rfl⟩

theorem finished_of_none (ended : ts.next.item? = none) : ts.next.stream.finished = true := by
  cases fin : ts.finished with
  | true => rwa [next_of_finished fin]
  | false =>
    cases answer : (ts.lexer.nextToken ts.ignoreNewline).answer with
    | error f =>
      rw [next_of_fault fin answer] at ended
      cases ended
    | ok t =>
      cases more : t.hasMore with
      | false => rw [next_of_end fin answer more]
      | true =>
        rw [next_of_hasMore fin answer more] at ended
        cases ended

theorem pull_of_finished (fin : ts.finished = true) (n : Nat) :
    ts.pull n = ⟨List.replicate n none, ts, []⟩ := by
  induction n with
  | zero => rfl
  | succ n ih =>
    rw [pull, next_of_finished fin, ih]
    rfl

theorem items_drain_of_none (ended : ts.next.item? = none) : ts.drain.items = [] :=
  drain_go_of_none ended #[] #[]

theorem items_drain_go (ts : TokenStream υ) (items : Array (Except Fault Token))
    (events : Array Event) : (drain.go ts items events).items = items.toList ++ ts.drain.items := by
  generalize measured : ts.ahead = n
  induction n using Nat.strongRecOn generalizing ts items events with
  | _ n ih =>
    cases item : ts.next.item? with
    | none =>
      rw [drain_go_of_none item, items_drain_of_none item, List.append_nil]
    | some i =>
      have less := ahead_next_lt item
      rw [measured] at less
      rw [drain, drain_go_of_some item, drain_go_of_some item, ih _ less _ _ _ rfl,
        ih _ less _ _ _ rfl, Array.toList_push, Array.toList_push, List.append_assoc]
      rfl

theorem items_drain_of_some {i : Except Fault Token} (item : ts.next.item? = some i) :
    ts.drain.items = i :: ts.next.stream.drain.items := by
  rw [drain, drain_go_of_some item, items_drain_go]
  rfl

theorem length_drain_le (ts : TokenStream υ) : ts.drain.items.length ≤ ts.ahead := by
  generalize measured : ts.ahead = n
  induction n using Nat.strongRecOn generalizing ts with
  | _ n ih =>
    cases item : ts.next.item? with
    | none =>
      rw [items_drain_of_none item]
      exact Nat.zero_le n
    | some i =>
      have less := ahead_next_lt item
      rw [measured] at less
      rw [items_drain_of_some item]
      exact Nat.succ_le_of_lt (Nat.lt_of_le_of_lt (ih _ less _ rfl) less)

/-- Asked any number of times, a stream gives its items and then nothing. -/
theorem items_pull (n : Nat) (ts : TokenStream υ) :
    (ts.pull n).items = (ts.drain.items.map some ++ List.replicate n none).take n := by
  induction n generalizing ts with
  | zero => rfl
  | succ n ih =>
    cases item : ts.next.item? with
    | none =>
      rw [pull, item, items_drain_of_none item, pull_of_finished (finished_of_none item)]
      simp [List.replicate_succ]
    | some i =>
      have enough : ∀ k, min (n - k) n = min (n - k) (n + 1) := by
        intro k
        omega
      rw [pull, item, items_drain_of_some item, ih, List.map_cons, List.cons_append,
        List.take_succ_cons, List.take_append, List.take_append, List.take_replicate,
        List.take_replicate, enough]

end Lexing.TokenStream
