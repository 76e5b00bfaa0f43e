import Mathlib.Data.List.Basic

namespace DistributedNinja.Lib

variable {A : Type}

/-- A front part of a concatenation is some whole members and a proper part of the next one. -/
theorem split_flatten {members : List (List A)} {front back : List A}
    (whole : front ++ back = members.flatten) :
    ∃ done rest tail, members = done ++ rest ∧ front = done.flatten ++ tail ∧
      tail ++ back = rest.flatten ∧
      ∀ next others, rest = next :: others → tail.length < next.length := by
  induction members generalizing front with
  | nil =>
    have none := List.append_eq_nil_iff.mp whole
    refine ⟨[], [], [], rfl, by simp [none.1], by simp [none.2], ?_⟩
    intro next others impossible
    cases impossible
  | cons member members ih =>
    by_cases short : front.length < member.length
    · refine ⟨[], member :: members, front, rfl, rfl, whole, ?_⟩
      intro next others same
      cases same
      exact short
    · rw [List.flatten_cons] at whole
      have long : member.length ≤ front.length := Nat.not_lt.mp short
      have head : front.take member.length = member := by
        have cut := congrArg (List.take member.length) whole
        rwa [List.take_append_of_le_length long, List.take_left] at cut
      have remaining : front.drop member.length ++ back = members.flatten := by
        have cut := congrArg (List.drop member.length) whole
        rwa [List.drop_append_of_le_length long, List.drop_left] at cut
      obtain ⟨done, rest, tail, parts, split, left, proper⟩ := ih remaining
      refine ⟨member :: done, rest, tail, by rw [parts, List.cons_append], ?_, left, proper⟩
      calc front = front.take member.length ++ front.drop member.length :=
            (List.take_append_drop _ _).symm
        _ = member ++ (done.flatten ++ tail) := by rw [head, split]
        _ = (member :: done).flatten ++ tail := by rw [List.flatten_cons, List.append_assoc]

end DistributedNinja.Lib
