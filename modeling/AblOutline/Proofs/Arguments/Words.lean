/-
How the text of an include directive falls into words. What is open while a
text is read, a quote or some braces, depends on the text alone
(`Opening.after`), and a word goes on until white space comes with nothing
open. So text that leaves nothing open and does not break is one word wherever
white space follows it (`words_append`), and no word that was cut out breaks
(`unbroken_of_mem_words`).
-/
import AblOutline.Preprocess.Arguments
import Mathlib.Data.List.Basic

namespace AblOutline.Preprocess

open Text (isBlank)

-- ====================================================== what stays open

/-- What is open where a text is read: a quote, and a number of braces. -/
structure Opening where
  quote : Option Char := none
  depth : Nat := 0
deriving DecidableEq, Repr

namespace Opening

/-- What is open after one more character. An open quote hides all but its own
end. -/
def next : Opening → Char → Opening
  | ⟨some q, depth⟩, c => ⟨if c = q then none else some q, depth⟩
  | ⟨none, depth⟩, c =>
    if c = '"' ∨ c = '\x27' then ⟨some c, depth⟩
    else if c = '\x7b' then ⟨none, depth + 1⟩
    else if c = '\x7d' then ⟨none, depth - 1⟩
    else ⟨none, depth⟩

/-- What is open after `cs`. -/
def after (o : Opening) (cs : List Char) : Opening := cs.foldl next o

/-- White space never comes with nothing open. -/
def Unbroken : Opening → List Char → Prop
  | _, [] => True
  | o, c :: cs => ¬ (o = {} ∧ isBlank c = true) ∧ Unbroken (o.next c) cs

variable {o : Opening} {c q : Char} {cs ds : List Char} {n : Nat}

theorem next_quote : next ⟨some q, n⟩ c = ⟨if c = q then none else some q, n⟩ :=
  rfl

theorem next_none : next ⟨none, n⟩ c =
    if c = '"' ∨ c = '\x27' then ⟨some c, n⟩
    else if c = '\x7b' then ⟨none, n + 1⟩
    else if c = '\x7d' then ⟨none, n - 1⟩
    else ⟨none, n⟩ := rfl

@[simp] theorem after_nil : o.after [] = o := rfl

@[simp] theorem after_cons : o.after (c :: cs) = (o.next c).after cs := rfl

theorem after_append : o.after (cs ++ ds) = (o.after cs).after ds :=
  List.foldl_append

theorem unbroken_append :
    o.Unbroken (cs ++ ds) ↔ o.Unbroken cs ∧ (o.after cs).Unbroken ds := by
  induction cs generalizing o with
  | nil => exact ⟨fun h => ⟨trivial, h⟩, fun h => h.2⟩
  | cons c cs ih =>
      simp only [List.cons_append, Unbroken, ih, after_cons, and_assoc]

/-- An open quote hides what is not its end. -/
theorem quoted (h : q ∉ cs) :
    after ⟨some q, n⟩ cs = ⟨some q, n⟩ ∧ Unbroken ⟨some q, n⟩ cs := by
  induction cs with
  | nil => exact ⟨rfl, trivial⟩
  | cons c cs ih =>
      rw [List.mem_cons, not_or] at h
      have hnext : next ⟨some q, n⟩ c = ⟨some q, n⟩ := by
        simp [next, Ne.symm h.1]
      obtain ⟨hafter, hcs⟩ := ih h.2
      rw [after_cons, Unbroken, hnext]
      exact ⟨hafter, by simp, hcs⟩

end Opening

-- ==================================================== text of one word

/-- A character that may stand outside quotes in the middle of a word and
opens nothing. -/
def isBare (c : Char) : Bool :=
  !isBlank c && c != '"' && c != '\x27' && c != '\x7b' && c != '\x7d'

/-- Text that does not break and leaves nothing open. -/
def Whole (cs : List Char) : Prop :=
  Opening.Unbroken {} cs ∧ Opening.after {} cs = {}

section Whole

variable {c q : Char} {cs ds : List Char}

theorem Whole.append (h : Whole cs) (hds : Whole ds) : Whole (cs ++ ds) := by
  refine ⟨Opening.unbroken_append.2 ⟨h.1, ?_⟩, ?_⟩
  · rw [h.2]
    exact hds.1
  · rw [Opening.after_append, h.2, hds.2]

theorem whole_singleton (h : isBare c = true) : Whole [c] := by
  simp only [isBare, Bool.and_eq_true, Bool.not_eq_true', bne_iff_ne] at h
  obtain ⟨⟨⟨⟨hblank, hdouble⟩, hsingle⟩, hopen⟩, hclose⟩ := h
  refine ⟨⟨fun hc => ?_, trivial⟩, ?_⟩
  · rw [hblank] at hc
    cases hc.2
  · simp [Opening.next, hdouble, hsingle, hopen, hclose]

theorem whole_of_bare (h : ∀ c ∈ cs, isBare c = true) : Whole cs := by
  induction cs with
  | nil => exact ⟨trivial, rfl⟩
  | cons c cs ih =>
      obtain ⟨hc, hcs⟩ := List.forall_mem_cons.1 h
      exact (whole_singleton hc).append (ih hcs)

/-- A value between quotes is whole, whatever else it holds. -/
theorem whole_quoted (hq : q = '"' ∨ q = '\x27') (h : q ∉ cs) :
    Whole (q :: (cs ++ [q])) := by
  have hopens : Opening.next {} q = ⟨some q, 0⟩ := if_pos hq
  have hcloses : Opening.next ⟨some q, 0⟩ q = {} := by simp [Opening.next]
  have hblank : isBlank q = false := by
    rcases hq with rfl | rfl <;> decide
  obtain ⟨hafter, hcs⟩ := Opening.quoted (n := 0) h
  refine ⟨⟨by simp [hblank], ?_⟩, ?_⟩
  · rw [hopens, Opening.unbroken_append, hafter]
    exact ⟨hcs, by simp, trivial⟩
  · rw [Opening.after_cons, hopens, Opening.after_append, hafter,
      Opening.after_cons, hcloses, Opening.after_nil]

end Whole

-- ================================================================= words

section Words

variable {o : Opening} {c : Char} {cs rest current blank : List Char}

theorem piecesFrom_cons (h : ¬ (o = {} ∧ isBlank c = true)) :
    piecesFrom current o.quote o.depth (c :: cs)
      = piecesFrom (c :: current) (o.next c).quote (o.next c).depth cs := by
  obtain ⟨quote, depth⟩ := o
  cases quote with
  | some q => rfl
  | none =>
      have hgoes : ¬ (isBlank c = true ∧ depth = 0) := by
        rintro ⟨hc, rfl⟩
        exact h ⟨rfl, hc⟩
      simp only [piecesFrom, Opening.next, if_neg hgoes]
      split
      · rfl
      · split
        · rfl
        · split <;> rfl

theorem piecesFrom_blank (h : isBlank c = true) :
    piecesFrom current none 0 (c :: cs)
      = (if current.isEmpty then [] else [⟨current.reverse, c :: cs⟩])
        ++ piecesFrom [] none 0 cs := by
  simp only [piecesFrom, h, and_self, if_true]
  split <;> rfl

/-- Text that does not break goes to the word that was begun. -/
theorem piecesFrom_append (h : o.Unbroken cs) :
    piecesFrom current o.quote o.depth (cs ++ rest)
      = piecesFrom (cs.reverse ++ current) (o.after cs).quote
          (o.after cs).depth rest := by
  induction cs generalizing o current with
  | nil => rfl
  | cons c cs ih =>
      rw [List.cons_append, piecesFrom_cons h.1, ih h.2, Opening.after_cons,
        List.reverse_cons, List.append_assoc, List.singleton_append]

/-- White space before the words is skipped. -/
theorem words_blank (h : ∀ c ∈ blank, isBlank c = true) (rest : List Char) :
    words (blank ++ rest) = words rest := by
  induction blank with
  | nil => rfl
  | cons c blank ih =>
      obtain ⟨hc, hblank⟩ := List.forall_mem_cons.1 h
      exact (piecesFrom_blank hc).trans (ih hblank)

/-- Text of one word is read as that word, and what follows it apart. -/
theorem words_append (h : Whole cs) (hne : cs ≠ [])
    (hrest : ∀ c ∈ rest.head?, isBlank c = true) :
    words (cs ++ rest) = ⟨cs, rest⟩ :: words rest := by
  have hread : words (cs ++ rest) = piecesFrom cs.reverse none 0 rest := by
    refine (piecesFrom_append h.1).trans ?_
    rw [h.2, List.append_nil]
  have hbegun : cs.reverse.isEmpty = false := by simpa using hne
  cases rest with
  | nil =>
      rw [hread, piecesFrom, hbegun, List.reverse_reverse]
      rfl
  | cons c rest =>
      have hc := hrest c rfl
      have hskip : words (c :: rest) = words rest := piecesFrom_blank hc
      rw [hread, piecesFrom_blank hc, hbegun, List.reverse_reverse, hskip]
      rfl

/-- The word before white space, and the words after it. -/
theorem words_append_blank (h : Whole cs) (hne : cs ≠ [])
    (hblank : ∀ c ∈ blank, isBlank c = true) (hgap : blank ≠ [])
    (rest : List Char) :
    words (cs ++ (blank ++ rest)) = ⟨cs, blank ++ rest⟩ :: words rest := by
  have hbreaks : ∀ c ∈ (blank ++ rest).head?, isBlank c = true := by
    obtain ⟨c, tail, rfl⟩ := List.exists_cons_of_ne_nil hgap
    simpa using hblank c List.mem_cons_self
  rw [words_append h hne hbreaks, words_blank hblank]

theorem unbroken_of_mem_piecesFrom {p : Piece} (current : List Char)
    (o : Opening) (h : Opening.Unbroken {} current.reverse)
    (ho : Opening.after {} current.reverse = o)
    (hp : p ∈ piecesFrom current o.quote o.depth cs) :
    Opening.Unbroken {} p.text := by
  induction cs generalizing o current with
  | nil =>
      rw [piecesFrom] at hp
      split at hp
      · cases hp
      · rw [List.mem_singleton.1 hp]
        exact h
  | cons c cs ih =>
      by_cases hc : o = {} ∧ isBlank c = true
      · obtain ⟨rfl, hc⟩ := hc
        rw [piecesFrom_blank hc] at hp
        rcases List.mem_append.1 hp with hp | hp
        · split at hp
          · cases hp
          · rw [List.mem_singleton.1 hp]
            exact h
        · exact ih [] {} trivial rfl hp
      · rw [piecesFrom_cons hc] at hp
        refine ih _ _ ?_ ?_ hp
        · rw [List.reverse_cons, Opening.unbroken_append, ho]
          exact ⟨h, hc, trivial⟩
        · rw [List.reverse_cons, Opening.after_append, ho]
          rfl

/-- A word does not break. -/
theorem unbroken_of_mem_words {p : Piece} (hp : p ∈ words cs) :
    Opening.Unbroken {} p.text :=
  unbroken_of_mem_piecesFrom [] {} trivial rfl hp

end Words

end AblOutline.Preprocess
