/-
Cutting a text at a separator, and putting the pieces together again. The
pieces of a text hold no separator, and the separator between them gives the
text back; a text put together of such pieces is cut where it was joined. So a
text and its pieces tell the same, and a name of several parts may be compared
part by part (`same_iff_pieces`).
-/
import AblOutline.Proofs.Letters.Text
import Mathlib.Data.List.Basic

namespace AblOutline.Text

variable {sep c : Char} {cs rest before after : List Char}
  {ps : List (List Char)}

-- ================================================================ pieces

@[simp] theorem piecesOf_nil : piecesOf sep [] = [[]] := rfl

theorem piecesOf_cons : piecesOf sep (c :: cs) = if c = sep
    then [] :: piecesOf sep cs
    else match piecesOf sep cs with
      | p :: ps => (c :: p) :: ps
      | [] => [[c]] := rfl

@[simp] theorem cutFirst?_nil : cutFirst? sep [] = none := rfl

theorem cutFirst?_cons : cutFirst? sep (c :: cs) = if c = sep
    then some ([], cs)
    else (cutFirst? sep cs).map fun (b, a) => (c :: b, a) := rfl

theorem piecesOf_of_not_mem (h : sep ∉ cs) : piecesOf sep cs = [cs] := by
  induction cs with
  | nil => rfl
  | cons c cs ih =>
      rw [List.mem_cons, not_or] at h
      rw [piecesOf_cons, if_neg (Ne.symm h.1), ih h.2]

theorem piecesOf_append (h : sep ∉ cs) :
    piecesOf sep (cs ++ sep :: rest) = cs :: piecesOf sep rest := by
  induction cs with
  | nil => simp [piecesOf_cons]
  | cons c cs ih =>
      rw [List.mem_cons, not_or] at h
      rw [List.cons_append, piecesOf_cons, if_neg (Ne.symm h.1), ih h.2]

/-- A text is cut where it was put together. -/
theorem piecesOf_intercalate (hne : ps ≠ []) (h : ∀ p ∈ ps, sep ∉ p) :
    piecesOf sep ([sep].intercalate ps) = ps := by
  induction ps with
  | nil => exact absurd rfl hne
  | cons p ps ih =>
      obtain ⟨hp, hps⟩ := List.forall_mem_cons.1 h
      cases ps with
      | nil =>
          rw [List.intercalate_singleton]
          exact piecesOf_of_not_mem hp
      | cons q ps =>
          rw [List.intercalate_cons_cons, List.append_assoc,
            List.singleton_append, piecesOf_append hp,
            ih (List.cons_ne_nil _ _) hps]

theorem piecesOf_ne_nil (cs : List Char) : piecesOf sep cs ≠ [] := by
  cases cs with
  | nil => simp
  | cons c cs =>
      rw [piecesOf_cons]
      split
      · exact List.cons_ne_nil _ _
      · split <;> exact List.cons_ne_nil _ _

/-- The pieces of a text put together are the text. -/
theorem intercalate_piecesOf (cs : List Char) :
    [sep].intercalate (piecesOf sep cs) = cs := by
  induction cs with
  | nil => rfl
  | cons c cs ih =>
      rw [piecesOf_cons]
      cases hp : piecesOf sep cs with
      | nil => exact absurd hp (piecesOf_ne_nil cs)
      | cons p ps =>
          rw [hp] at ih
          by_cases hc : c = sep
          · rw [if_pos hc, List.intercalate_cons_cons, ih, hc]
            rfl
          · rw [if_neg hc]
            dsimp only
            cases ps with
            | nil => simpa using ih
            | cons q ps =>
                rw [List.intercalate_cons_cons] at ih ⊢
                simpa using ih

/-- No piece holds the separator. -/
theorem not_mem_piecesOf : ∀ p ∈ piecesOf sep cs, sep ∉ p := by
  induction cs with
  | nil => simp
  | cons c cs ih =>
      rw [piecesOf_cons]
      by_cases hc : c = sep
      · rw [if_pos hc]
        exact List.forall_mem_cons.2 ⟨List.not_mem_nil, ih⟩
      · rw [if_neg hc]
        cases hp : piecesOf sep cs with
        | nil => exact absurd hp (piecesOf_ne_nil cs)
        | cons p ps =>
            rw [hp] at ih
            obtain ⟨hp, hps⟩ := List.forall_mem_cons.1 ih
            refine List.forall_mem_cons.2 ⟨fun hmem => ?_, hps⟩
            rcases List.mem_cons.1 hmem with rfl | hmem
            · exact hc rfl
            · exact hp hmem

/-- A mark that is no letter cuts a text in small letters in the same
places. -/
theorem piecesOf_lower (hsep : sep.isAlpha = false) (cs : List Char) :
    piecesOf sep (cs.map Char.toLower)
      = (piecesOf sep cs).map (List.map Char.toLower) := by
  induction cs with
  | nil => rfl
  | cons c cs ih =>
      rw [List.map_cons, piecesOf_cons, piecesOf_cons, ih]
      by_cases hc : c = sep
      · rw [if_pos hc, if_pos ((toLower_eq_iff hsep).2 hc)]
        rfl
      · rw [if_neg hc, if_neg (mt (toLower_eq_iff hsep).1 hc)]
        cases piecesOf sep cs <;> rfl

-- ============================================================== first cut

theorem cutFirst?_eq_none_iff : cutFirst? sep cs = none ↔ sep ∉ cs := by
  induction cs with
  | nil => simp
  | cons c cs ih =>
      rw [cutFirst?_cons, List.mem_cons, not_or]
      by_cases hc : c = sep
      · simp [hc]
      · rw [if_neg hc, Option.map_eq_none_iff, ih]
        exact ⟨fun h => ⟨Ne.symm hc, h⟩, fun h => h.2⟩

/-- What stands before the first separator holds none. -/
theorem of_cutFirst? (h : cutFirst? sep cs = some (before, after)) :
    sep ∉ before ∧ cs = before ++ sep :: after := by
  induction cs generalizing before with
  | nil => cases h
  | cons c cs ih =>
      rw [cutFirst?_cons] at h
      by_cases hc : c = sep
      · rw [if_pos hc] at h
        cases h
        exact ⟨List.not_mem_nil, by rw [hc]; rfl⟩
      · rw [if_neg hc] at h
        obtain ⟨⟨b, a⟩, hcut, he⟩ := Option.map_eq_some_iff.1 h
        cases he
        obtain ⟨hb, rfl⟩ := ih hcut
        refine ⟨fun hmem => ?_, rfl⟩
        rcases List.mem_cons.1 hmem with rfl | hmem
        · exact hc rfl
        · exact hb hmem

theorem cutFirst?_append (h : sep ∉ before) :
    cutFirst? sep (before ++ sep :: after) = some (before, after) := by
  induction before with
  | nil => simp [cutFirst?_cons]
  | cons c before ih =>
      rw [List.mem_cons, not_or] at h
      rw [List.cons_append, cutFirst?_cons, if_neg (Ne.symm h.1), ih h.2]
      rfl

-- =============================================================== last cut

theorem cutLast?_eq_none_iff : cutLast? sep cs = none ↔ sep ∉ cs := by
  rw [cutLast?, Option.map_eq_none_iff, cutFirst?_eq_none_iff,
    List.mem_reverse]

/-- What stands after the last separator holds none. -/
theorem of_cutLast? (h : cutLast? sep cs = some (before, after)) :
    sep ∉ after ∧ cs = before ++ sep :: after := by
  obtain ⟨⟨a, b⟩, hcut, he⟩ := Option.map_eq_some_iff.1 h
  cases he
  obtain ⟨ha, hcs⟩ := of_cutFirst? hcut
  refine ⟨by rwa [List.mem_reverse], ?_⟩
  rw [← List.reverse_reverse cs, hcs]
  simp

-- ================================================================= texts

section Texts

variable {s t : String}

theorem pieces_of_not_mem (h : sep ∉ s.toList) : pieces sep s = [s] := by
  rw [pieces, piecesOf_of_not_mem h, List.map_singleton, String.ofList_toList]

theorem pieces_ne_nil (s : String) : pieces sep s ≠ [] := by
  simp [pieces, piecesOf_ne_nil]

theorem not_mem_pieces : ∀ p ∈ pieces sep s, sep ∉ p.toList := by
  intro p hp
  obtain ⟨cs, hcs, rfl⟩ := List.mem_map.1 hp
  rw [String.toList_ofList]
  exact not_mem_piecesOf cs hcs

/-- The pieces of two texts with a separator between them. -/
theorem pieces_append (h : sep ∉ s.toList) :
    pieces sep (s ++ String.singleton sep ++ t) = s :: pieces sep t := by
  have hlist : (s ++ String.singleton sep ++ t).toList
      = s.toList ++ sep :: t.toList := by simp
  rw [pieces, hlist, piecesOf_append h, List.map_cons, String.ofList_toList]
  rfl

/-- A text put together of texts without the separator is cut into these. -/
theorem pieces_intercalate {ss : List String} (hne : ss ≠ [])
    (h : ∀ s ∈ ss, sep ∉ s.toList) :
    pieces sep ((String.singleton sep).intercalate ss) = ss := by
  have hcs : ∀ cs ∈ ss.map String.toList, sep ∉ cs := by
    simpa [List.mem_map] using h
  rw [pieces, String.toList_intercalate, String.toList_singleton,
    piecesOf_intercalate (by simpa using hne) hcs, List.map_map]
  simp

theorem pieces_lower (hsep : sep.isAlpha = false) (s : String) :
    pieces sep (lower s) = (pieces sep s).map lower := by
  unfold pieces
  rw [toList_lower, piecesOf_lower hsep, List.map_map, List.map_map]
  exact List.map_congr_left fun cs _ => (ofList_lower cs).symm

theorem pieces_inj (h : pieces sep s = pieces sep t) : s = t := by
  have hinj : Function.Injective String.ofList := fun _ _ =>
    String.ofList_inj.1
  have hcs : piecesOf sep s.toList = piecesOf sep t.toList :=
    Function.Injective.list_map hinj h
  rw [← String.toList_inj, ← intercalate_piecesOf s.toList, hcs,
    intercalate_piecesOf]

/-- Names are compared part by part. -/
theorem same_iff_pieces (hsep : sep.isAlpha = false) :
    same s t = true ↔ (pieces sep s).map lower = (pieces sep t).map lower := by
  rw [same, beq_iff_eq, ← pieces_lower hsep, ← pieces_lower hsep]
  exact ⟨congrArg _, pieces_inj⟩

theorem splitFirst?_eq_none_iff :
    splitFirst? sep s = none ↔ sep ∉ s.toList := by
  rw [splitFirst?, Option.map_eq_none_iff, cutFirst?_eq_none_iff]

/-- The first separator is where a text without it ends. -/
theorem splitFirst?_eq_some_iff {before after : String} :
    splitFirst? sep s = some (before, after)
      ↔ sep ∉ before.toList ∧ s = before ++ String.singleton sep ++ after := by
  constructor
  · intro h
    obtain ⟨⟨b, a⟩, hcut, he⟩ := Option.map_eq_some_iff.1 h
    cases he
    obtain ⟨hb, hs⟩ := of_cutFirst? hcut
    refine ⟨by rwa [String.toList_ofList], ?_⟩
    rw [← String.toList_inj]
    simpa using hs
  · rintro ⟨hb, rfl⟩
    have hlist : (before ++ String.singleton sep ++ after).toList
        = before.toList ++ sep :: after.toList := by simp
    rw [splitFirst?, hlist, cutFirst?_append hb]
    simp

theorem splitLast?_eq_none_iff :
    splitLast? sep s = none ↔ sep ∉ s.toList := by
  rw [splitLast?, Option.map_eq_none_iff, cutLast?_eq_none_iff]

/-- The last separator is where a text without it begins. -/
theorem of_splitLast? {before after : String}
    (h : splitLast? sep s = some (before, after)) :
    sep ∉ after.toList ∧ s = before ++ String.singleton sep ++ after := by
  obtain ⟨⟨b, a⟩, hcut, he⟩ := Option.map_eq_some_iff.1 h
  cases he
  obtain ⟨ha, hs⟩ := of_cutLast? hcut
  refine ⟨by rwa [String.toList_ofList], ?_⟩
  rw [← String.toList_inj]
  simpa using hs

/-- The first piece of a text, and those of what follows it. -/
theorem pieces_of_splitFirst? {before after : String}
    (h : splitFirst? sep s = some (before, after)) :
    pieces sep s = before :: pieces sep after := by
  obtain ⟨hb, rfl⟩ := splitFirst?_eq_some_iff.1 h
  exact pieces_append hb

end Texts

end AblOutline.Text
