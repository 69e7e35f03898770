/-
Lists of entries, each a key with a value. Of the entries of one key the first
counts.
-/
namespace AblOutline

variable {α β : Type}

/-- A key that is left out of a list of entries is not found, others are as
before. -/
theorem lookup_filter_bne [BEq α] [LawfulBEq α] [DecidableEq α]
    (l : List (α × β)) (k k' : α) :
    (l.filter (·.1 != k)).lookup k' = if k' = k then none else l.lookup k' := by
  induction l with
  | nil => exact (ite_self _).symm
  | cons entry rest ih =>
      rw [List.filter_cons, List.lookup_cons]
      by_cases hentry : entry.1 = k
      · rw [if_neg (by simp [hentry]), ih]
        split
        · rfl
        · rename_i hk
          rw [beq_false_of_ne fun h => hk (h.trans hentry)]
      · rw [if_pos (by simp [hentry]), List.lookup_cons, ih]
        cases hk : k' == entry.1 with
        | true =>
            have hother : k' ≠ k := fun h => hentry ((eq_of_beq hk).symm.trans h)
            rw [if_neg hother, if_neg hother]
        | false => rfl

/-- A function of the values alone is one of the value found. -/
theorem lookup_map_value [BEq α] (k : α) (f : β → β) (l : List (α × β)) :
    (l.map (Prod.map id f)).lookup k = (l.lookup k).map f := by
  induction l with
  | nil => rfl
  | cons entry rest ih =>
      obtain ⟨key, value⟩ := entry
      show List.lookup k ((key, f value) :: _) = _
      rw [List.lookup_cons, List.lookup_cons]
      split
      · rfl
      · exact ih

/-- What is found is one of the entries. -/
theorem mem_of_lookup [BEq α] [LawfulBEq α] {l : List (α × β)} {k : α} {v : β}
    (h : l.lookup k = some v) : (k, v) ∈ l := by
  obtain ⟨before, after, rfl, -⟩ := List.lookup_eq_some_iff.1 h
  exact List.mem_append_right before List.mem_cons_self

end AblOutline
