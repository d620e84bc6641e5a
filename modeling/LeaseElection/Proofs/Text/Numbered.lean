import LeaseElection.Lease.Basic
import Mathlib.Data.List.Basic

/-!
# Numbered names

A name that is made of a stem, a dash and a number gives both back, whatever the stem is.
-/

namespace LeaseElection

/-- What stands before the last separator can be told from what follows it. -/
theorem append_separator_inj {α : Type} {separator : α} {front front' back back' : List α}
    (hback : separator ∉ back) (hback' : separator ∉ back')
    (heq : front ++ separator :: back = front' ++ separator :: back') :
    front = front' ∧ back = back' := by
  have hnil {between tail tail' : List α} (htail : separator ∉ tail)
      (heq : separator :: tail = between ++ separator :: tail') : between = [] := by
    cases between with
    | nil => rfl
    | cons first between =>
        injection heq with _ hrest
        rw [hrest] at htail
        exact absurd (List.mem_append_right between List.mem_cons_self) htail
  rcases List.append_eq_append_iff.mp heq with ⟨between, rfl, htail⟩ | ⟨between, rfl, htail⟩
  · obtain rfl := hnil hback htail
    exact ⟨(List.append_nil front).symm, (List.cons.inj htail).2⟩
  · obtain rfl := hnil hback' htail
    exact ⟨List.append_nil front', (List.cons.inj htail).2.symm⟩

theorem dash_notMem_digits (k : Nat) : '-' ∉ (toString k).toList := by
  rw [Nat.toString_eq_ofList_toDigits, String.toList_ofList]
  intro hmem
  have hdigit := Nat.isDigit_of_mem_toDigits (by decide) (by decide) hmem
  cases hdigit

/-- A number that follows a stem and a dash can be told from the stem, even if that ends in
a dash and a number itself. -/
theorem numbered_inj {stem stem' : String} {k k' : Nat} :
    stem ++ "-" ++ toString k = stem' ++ "-" ++ toString k' ↔ stem = stem' ∧ k = k' := by
  constructor
  · intro htext
    have hlist := congrArg String.toList htext
    simp only [String.toList_append, List.append_assoc] at hlist
    obtain ⟨hstem, hdigits⟩ :=
      append_separator_inj (dash_notMem_digits k) (dash_notMem_digits k') hlist
    exact ⟨String.toList_inj.mp hstem, toString_nat_injective (String.toList_inj.mp hdigits)⟩
  · rintro ⟨rfl, rfl⟩
    rfl

end LeaseElection
