import Mathlib.Data.List.TakeWhile
import Mathlib.Tactic.Common

namespace DistributedNinja.Lib

abbrev Text := List Char

/-- What `printf` writes for a format to which no arguments are given; `none` where it is not defined: a conversion
    finds no argument, or there is no such conversion. -/
def printf : Text → Option Text
  | [] => some []
  | '%' :: '%' :: rest => (printf rest).map ('%' :: ·)
  | '%' :: _ => none
  | c :: rest => (printf rest).map (c :: ·)

/-- The characters of a string that a pointer to its first one stands for. -/
def cString (text : Text) : Text := text.takeWhile (· ≠ '\x00')

def Plain (text : Text) : Prop := '%' ∉ text ∧ '\x00' ∉ text

instance (text : Text) : Decidable (Plain text) := inferInstanceAs (Decidable (_ ∧ _))

theorem printf_of_plain {text : Text} (plain : '%' ∉ text) : printf text = some text := by
  fun_induction printf text with
  | case1 => rfl
  | case2 rest ih => exact absurd List.mem_cons_self plain
  | case3 rest _ => exact absurd List.mem_cons_self plain
  | case4 c rest _ _ ih => rw [ih (List.not_mem_of_not_mem_cons plain), Option.map_some]

theorem printf_length {text written : Text} (printed : printf text = some written) :
    written.length ≤ text.length ∧ (written.length = text.length → '%' ∉ text) := by
  fun_induction printf text generalizing written with
  | case1 =>
    cases printed
    exact ⟨Nat.le_refl _, fun _ => List.not_mem_nil⟩
  | case2 rest ih =>
    obtain ⟨tail, printedTail, rfl⟩ := Option.map_eq_some_iff.mp printed
    have shorter := (ih printedTail).1
    simp only [List.length_cons]
    omega
  | case3 rest _ => cases printed
  | case4 c rest _ other ih =>
    obtain ⟨tail, printedTail, rfl⟩ := Option.map_eq_some_iff.mp printed
    obtain ⟨shorter, plain⟩ := ih printedTail
    simp only [List.length_cons, Nat.add_right_cancel_iff]
    refine ⟨by omega, fun same => ?_⟩
    rw [List.mem_cons]
    rintro (rfl | member)
    · exact other rfl
    · exact plain same member

theorem cString_length (text : Text) :
    (cString text).length ≤ text.length ∧ ((cString text).length = text.length → '\x00' ∉ text) := by
  have sublist := List.takeWhile_sublist (l := text) (· ≠ '\x00')
  refine ⟨sublist.length_le, fun same member => ?_⟩
  have whole : cString text = text := sublist.eq_of_length same
  have kept := List.takeWhile_eq_self_iff.mp whole '\x00' member
  simp at kept

theorem cString_of_plain {text : Text} (plain : '\x00' ∉ text) : cString text = text := by
  apply List.takeWhile_eq_self_iff.mpr
  intro c member
  have other : c ≠ '\x00' := fun same => plain (same ▸ member)
  simpa using other

theorem printf_cString_of_plain {text : Text} (plain : Plain text) : printf (cString text) = some text := by
  rw [cString_of_plain plain.2, printf_of_plain plain.1]

theorem printf_cString_length {text written : Text} (printed : printf (cString text) = some written) :
    written.length ≤ text.length ∧ (written.length = text.length → Plain text) := by
  obtain ⟨shorter, noConversion⟩ := printf_length printed
  obtain ⟨cut, noEnd⟩ := cString_length text
  refine ⟨Nat.le_trans shorter cut, fun same => ?_⟩
  have ends := noEnd (by omega)
  have conversions := noConversion (by omega)
  rw [cString_of_plain ends] at conversions
  exact ⟨conversions, ends⟩

end DistributedNinja.Lib
