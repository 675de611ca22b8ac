/-
**Where a line can lie in a text.**

A text is a list of lines with an end mark after each of them. A line with its end mark, when it occurs
in the text, is the end of one of the lines (`infix_lines`). And a list that begins with `front` and is
the end of `front ++ rest` repeats itself: what is in `front` comes up again in `rest`
(`mem_of_suffix_append`).
-/

import YosStm32.Lib.CString

namespace YosStm32.Lib

section Infix

variable {α : Type} {mark x : α} {line first more front u rest : List α} {lines : List (List α)}

/-- In the first line, or in the later ones. -/
theorem infix_line (unended : mark ∉ line) (first_unended : mark ∉ first)
    (inside : line ++ [mark] <:+: first ++ mark :: more) :
    line <:+ first ∨ line ++ [mark] <:+: more := by
  obtain ⟨before, after, same⟩ := inside
  by_cases earlier : mark ∈ before
  · obtain ⟨first', between, rfl, unended'⟩ := List.eq_append_cons_of_mem earlier
    have split : first' ++ mark :: (between ++ (line ++ [mark]) ++ after) = first ++ mark :: more := by
      simpa using same
    obtain ⟨-, rfl⟩ := split_at_first_unique unended' first_unended split
    exact Or.inr ⟨between, after, rfl⟩
  · have split : (before ++ line) ++ mark :: after = first ++ mark :: more := by
      simpa using same
    have none : mark ∉ before ++ line := by
      rw [List.mem_append, not_or]
      exact ⟨earlier, unended⟩
    obtain ⟨rfl, -⟩ := split_at_first_unique none first_unended split
    exact Or.inl ⟨before, rfl⟩

/-- **A line lies at the end of one of the lines.** -/
theorem infix_lines (unended : mark ∉ line) (lines_unended : ∀ other ∈ lines, mark ∉ other)
    (inside : line ++ [mark] <:+: lines.flatMap (· ++ [mark])) : ∃ other ∈ lines, line <:+ other := by
  induction lines with
  | nil => simp at inside
  | cons other lines ih =>
      rw [List.flatMap_cons, List.append_assoc, List.singleton_append] at inside
      rcases infix_line unended (lines_unended other (List.mem_cons_self ..)) inside with here | later
      · exact ⟨other, List.mem_cons_self .., here⟩
      · obtain ⟨found, member, ends⟩ :=
          ih (fun other member => lines_unended other (List.mem_cons_of_mem _ member)) later
        exact ⟨found, List.mem_cons_of_mem _ member, ends⟩

/-- **What the front contains comes up again.** -/
theorem mem_of_suffix_append (starts : front <+: u) (ends : u <:+ front ++ rest)
    (longer : u.length < (front ++ rest).length) (member : x ∈ front) : x ∈ rest := by
  obtain ⟨tail, rfl⟩ := starts
  obtain ⟨before, same⟩ := ends
  -- The last place of `x` in the front; it is further right on the left-hand side.
  obtain ⟨last, init, split, none⟩ := List.eq_append_cons_of_mem (List.mem_reverse.mpr member)
  rw [List.reverse_eq_iff, List.reverse_append, List.reverse_cons, List.append_assoc,
    List.singleton_append] at split
  have shifted : (before ++ init.reverse) ++ x :: (last.reverse ++ tail) =
      init.reverse ++ x :: (last.reverse ++ rest) := by
    rw [split] at same
    simpa using same
  have lengths := congrArg List.length same
  rw [List.length_append] at lengths
  rcases List.append_eq_append_iff.mp shifted with ⟨gap, init_eq, -⟩ | ⟨gap, init_eq, later⟩
  · have short := congrArg List.length init_eq
    simp only [List.length_append] at short lengths longer
    omega
  · cases gap with
    | nil =>
        have short := congrArg List.length init_eq
        simp only [List.length_append, List.length_nil] at short lengths longer
        omega
    | cons y gap =>
        have again : x ∈ last.reverse ++ rest := by
          rw [(List.cons.inj later).2]
          exact List.mem_append_right _ (List.mem_cons_self ..)
        rw [List.mem_append, List.mem_reverse] at again
        exact again.resolve_left none

end Infix

end YosStm32.Lib
