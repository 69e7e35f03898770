/-
The functions of a file by name. A function is put down on two sides, as a
prototype and with its body, in any order and any number of times. A table
remembers the last item of each side, and an item of one side is linked to the
last one of the other. What the table says of the items is the same whichever
side comes next (`Tabled.declared`).
-/
import AblOutline.Parse.Run

namespace AblOutline

-- =================================================================== sides

/-- What puts a function down. -/
inductive Side where
  | prototype
  | implementation
deriving DecidableEq, Repr

namespace Side

def other : Side → Side
  | prototype => implementation
  | implementation => prototype

@[simp] theorem other_other (side : Side) : side.other.other = side := by
  cases side <;> rfl

theorem other_ne (side : Side) : side.other ≠ side := by
  cases side <;> nofun

theorem eq_or_eq_other (a b : Side) : a = b ∨ a = b.other := by
  cases a <;> cases b <;> simp [other]

end Side

/-- What an item has to do with a function: it puts it down, with a link to the
other side, or calls it, put down before or not. -/
inductive Deal where
  | declares (side : Side) (link : Option ItemId)
  | calls (declared : Bool)
deriving DecidableEq, Repr

namespace Parse

namespace FunctionEntry

variable (e : FunctionEntry) (side : Side) (id : ItemId)

/-- The last item of a side. -/
def of : Side → Option ItemId
  | .prototype => e.prototype
  | .implementation => e.implementation

/-- The entry with another last item of a side. -/
def set : Side → FunctionEntry
  | .prototype => { e with prototype := some id }
  | .implementation => { e with implementation := some id }

@[simp] theorem of_set_self : (e.set id side).of side = some id := by
  cases side <;> rfl

@[simp] theorem of_set_other :
    (e.set id side).of side.other = e.of side.other := by
  cases side <;> rfl

end FunctionEntry

/-- What the table says of a name, in small letters. -/
def entryOf (functions : List (String × FunctionEntry)) (name : String) :
    FunctionEntry :=
  (functions.lookup name).getD {}

-- =================================================================== items

/-- The item `k` puts a function down on a side. -/
def Declares (v : ItemId → Option (String × Deal)) (name : String)
    (side : Side) (k : ItemId) : Prop :=
  ∃ link, v k = some (name, .declares side link)

/-- It is the last one that does. -/
def IsLast (v : ItemId → Option (String × Deal)) (name : String)
    (side : Side) (k : ItemId) : Prop :=
  Declares v name side k ∧ ∀ j, Declares v name side j → j ≤ k

/-- A table tells of `size` items, where `v` is what these have to do with
functions. -/
structure Tabled (size : Nat) (v : ItemId → Option (String × Deal))
    (functions : List (String × FunctionEntry)) : Prop where
  fresh : ∀ k, size ≤ k → v k = none
  entry : ∀ name side k,
    (entryOf functions name).of side = some k ↔ IsLast v name side k
  known : ∀ name, (functions.lookup name).isSome = true
    ↔ ∃ side k, Declares v name side k
  linked : ∀ k name side j, v k = some (name, .declares side (some j)) →
    Declares v name side.other j
  paired : ∀ name side k j, IsLast v name side k → IsLast v name side.other j →
    v k = some (name, .declares side (some j))
  called : ∀ k name b, v k = some (name, .calls b) →
    (b = true ↔ ∃ j < k, ∃ side, Declares v name side j)

/-- One more item, of that number, puts a function down on a side. It is linked
to the last one on the other side, which is linked to it in turn. -/
structure Declaring (functions : List (String × FunctionEntry))
    (name : String) (side : Side) (size : Nat)
    (v v' : ItemId → Option (String × Deal)) : Prop where
  new : v' size
    = some (name, .declares side ((entryOf functions name).of side.other))
  back : ∀ k, (entryOf functions name).of side.other = some k →
    v' k = some (name, .declares side.other (some size))
  kept : ∀ k, k ≠ size → (entryOf functions name).of side.other ≠ some k →
    v' k = v k

variable {size : Nat} {v v' : ItemId → Option (String × Deal)}
  {functions : List (String × FunctionEntry)} {name m : String}
  {side sd : Side} {k j : ItemId}

theorem entryOf_cons (entry : FunctionEntry) :
    entryOf ((name, entry) :: functions) m
      = if m = name then entry else entryOf functions m := by
  unfold entryOf
  rw [List.lookup_cons]
  by_cases hm : m = name
  · rw [if_pos hm, beq_iff_eq.2 hm]
    rfl
  · rw [if_neg hm, beq_eq_false_iff_ne.2 hm]

theorem IsLast.unique (h : IsLast v name side k) (h' : IsLast v name side j) :
    k = j :=
  Nat.le_antisymm (h'.2 k h.1) (h.2 j h'.1)

namespace Tabled

theorem lt (h : Tabled size v functions) {x : String × Deal}
    (hk : v k = some x) : k < size := by
  refine Nat.lt_of_not_le fun hle => ?_
  rw [h.fresh k hle] at hk
  cases hk

theorem lt_of_declares (h : Tabled size v functions)
    (hk : Declares v name side k) : k < size :=
  hk.elim fun _ => h.lt

/-- Where nothing has to do with functions, nothing is known. -/
theorem nothing (h : ∀ k, v k = none) : Tabled size v [] := by
  have hnot : ∀ {m sd k}, ¬ Declares v m sd k := fun hd => by
    obtain ⟨link, hk⟩ := hd
    rw [h] at hk
    cases hk
  refine ⟨fun k _ => h k, fun m sd k => ?_, fun m => ?_, fun k m sd j hk => ?_,
    fun m sd k j hk => absurd hk.1 hnot, fun k m b hk => ?_⟩
  · constructor
    · intro hk
      cases sd <;> cases hk
    · exact fun hk => absurd hk.1 hnot
  · constructor
    · nofun
    · exact fun ⟨_, _, hk⟩ => absurd hk hnot
  · exact absurd ⟨_, hk⟩ hnot
  · rw [h] at hk
    cases hk

/-- More items that have nothing to do with functions. -/
theorem mono (h : Tabled size v functions) {size' : Nat} (hle : size ≤ size') :
    Tabled size' v functions :=
  { h with fresh := fun k hk => h.fresh k (Nat.le_trans hle hk) }

-- ================================================================= calling

/-- One more item that calls a function. -/
theorem calling (h : Tabled size v functions)
    (hnew : v' size
      = some (name, .calls (functions.lookup name).isSome))
    (hkept : ∀ k, k ≠ size → v' k = v k) :
    Tabled (size + 1) v' functions := by
  have hdeclares : ∀ {m sd k}, Declares v' m sd k ↔ Declares v m sd k := by
    intro m sd k
    by_cases hk : k = size
    · subst hk
      unfold Declares
      rw [hnew, h.fresh k (Nat.le_refl _)]
      simp
    · unfold Declares
      rw [hkept k hk]
  have hlast : ∀ {m sd k}, IsLast v' m sd k ↔ IsLast v m sd k := by
    intro m sd k
    simp only [IsLast, hdeclares]
  have hold : ∀ {k} {x : String × Deal}, v k = some x → v' k = some x :=
    fun hk => (hkept _ (Nat.ne_of_lt (h.lt hk))).trans hk
  refine ⟨fun k hk => ?fresh, ?entry, ?known, ?linked, ?paired, ?called⟩
  case fresh => rw [hkept k (by omega), h.fresh k (by omega)]
  case entry => simpa only [hlast] using h.entry
  case known => simpa only [hdeclares] using h.known
  case linked =>
    intro k m sd j hk
    have hne : k ≠ size := by
      rintro rfl
      rw [hnew] at hk
      cases hk
    rw [hkept k hne] at hk
    exact hdeclares.2 (h.linked k m sd j hk)
  case paired =>
    intro m sd k j hk hj
    exact hold (h.paired m sd k j (hlast.1 hk) (hlast.1 hj))
  case called =>
    intro k m b hk
    simp only [hdeclares]
    by_cases hne : k = size
    · subst hne
      rw [hnew] at hk
      cases hk
      rw [h.known]
      constructor
      · rintro ⟨sd, j, hj⟩
        exact ⟨j, h.lt_of_declares hj, sd, hj⟩
      · rintro ⟨j, -, sd, hj⟩
        exact ⟨sd, j, hj⟩
    · rw [hkept k hne] at hk
      exact h.called k m b hk

-- =============================================================== declaring

section Declaring

variable (h : Tabled size v functions)
  (hd : Declaring functions name side size v v')
include h hd

/-- The new item puts the function down, and what did before still does. -/
theorem declares_iff : Declares v' m sd k
    ↔ Declares v m sd k ∨ (m = name ∧ sd = side ∧ k = size) := by
  by_cases hk : k = size
  · subst hk
    unfold Declares
    rw [hd.new, h.fresh k (Nat.le_refl _)]
    constructor
    · rintro ⟨link, he⟩
      cases he
      exact .inr ⟨rfl, rfl, rfl⟩
    · rintro (⟨link, he⟩ | ⟨rfl, rfl, -⟩)
      · cases he
      · exact ⟨_, rfl⟩
  · have hsame : Declares v' m sd k ↔ Declares v m sd k := by
      by_cases hl : (entryOf functions name).of side.other = some k
      · obtain ⟨⟨link, hv⟩, -⟩ := (h.entry name side.other k).1 hl
        unfold Declares
        rw [hd.back k hl, hv]
        simp
      · unfold Declares
        rw [hd.kept k hk hl]
    rw [hsame]
    simp [hk]

/-- It is the last one on its side. -/
theorem isLast_new : IsLast v' name side k ↔ k = size := by
  have hmem : Declares v' name side size :=
    (h.declares_iff hd).2 (.inr ⟨rfl, rfl, rfl⟩)
  have hle : ∀ j, Declares v' name side j → j ≤ size := by
    intro j hj
    rcases (h.declares_iff hd).1 hj with hold | ⟨-, -, rfl⟩
    · exact Nat.le_of_lt (h.lt_of_declares hold)
    · exact Nat.le_refl _
  constructor
  · exact fun hk => hk.unique ⟨hmem, hle⟩
  · rintro rfl
    exact ⟨hmem, hle⟩

/-- On the other side, and of other names, the last ones are the same. -/
theorem isLast_old (hne : ¬ (m = name ∧ sd = side)) :
    IsLast v' m sd k ↔ IsLast v m sd k := by
  have hsame : ∀ k, Declares v' m sd k ↔ Declares v m sd k := fun k => by
    rw [h.declares_iff hd]
    exact or_iff_left fun hk => hne ⟨hk.1, hk.2.1⟩
  unfold IsLast
  simp only [hsame]

theorem entry_declared (m : String) (sd : Side) (k : ItemId) :
    (entryOf ((name, (entryOf functions name).set size side) :: functions)
      m).of sd = some k ↔ IsLast v' m sd k := by
  rw [entryOf_cons]
  by_cases hm : m = name
  · subst hm
    rw [if_pos rfl]
    rcases sd.eq_or_eq_other side with rfl | rfl
    · rw [FunctionEntry.of_set_self, h.isLast_new hd, Option.some.injEq,
        eq_comm]
    · rw [FunctionEntry.of_set_other,
        h.isLast_old hd fun hs => side.other_ne hs.2]
      exact h.entry _ _ _
  · rw [if_neg hm, h.isLast_old hd fun hs => hm hs.1]
    exact h.entry _ _ _

theorem linked_declared (hk : v' k = some (m, .declares sd (some j))) :
    Declares v' m sd.other j := by
  by_cases hs : k = size
  · subst hs
    rw [hd.new] at hk
    obtain ⟨rfl, hdeal⟩ := Prod.mk.inj (Option.some.inj hk)
    obtain ⟨rfl, hlink⟩ := Deal.declares.inj hdeal
    exact (h.declares_iff hd).2 (.inl ((h.entry _ _ _).1 hlink).1)
  · by_cases hl : (entryOf functions name).of side.other = some k
    · rw [hd.back k hl] at hk
      cases hk
      exact (h.declares_iff hd).2 (.inr ⟨rfl, side.other_other, rfl⟩)
    · rw [hd.kept k hs hl] at hk
      exact (h.declares_iff hd).2 (.inl (h.linked k m sd j hk))

/-- The last ones on both sides are linked: the new one is linked as it is put
down, and the last one on the other side is linked to it then. -/
theorem paired_declared (hk : IsLast v' m sd k) (hj : IsLast v' m sd.other j) :
    v' k = some (m, .declares sd (some j)) := by
  by_cases hm : m = name
  · subst hm
    rcases sd.eq_or_eq_other side with rfl | rfl
    · obtain rfl := (h.isLast_new hd).1 hk
      rw [h.isLast_old hd fun hs => sd.other_ne hs.2] at hj
      rw [hd.new, (h.entry _ _ _).2 hj]
    · rw [h.isLast_old hd fun hs => side.other_ne hs.2] at hk
      rw [side.other_other] at hj
      obtain rfl := (h.isLast_new hd).1 hj
      exact hd.back k ((h.entry _ _ _).2 hk)
  · rw [h.isLast_old hd fun hs => hm hs.1] at hk hj
    have hkept : v' k = v k := by
      refine hd.kept k (Nat.ne_of_lt (h.lt_of_declares hk.1)) fun hl => ?_
      obtain ⟨⟨link, hv⟩, -⟩ := (h.entry name side.other k).1 hl
      obtain ⟨⟨link', hv'⟩, -⟩ := hk
      rw [hv] at hv'
      cases hv'
      exact hm rfl
    rw [hkept]
    exact h.paired m sd k j hk hj

theorem called_declared {b : Bool} (hk : v' k = some (m, .calls b)) :
    b = true ↔ ∃ j < k, ∃ sd, Declares v' m sd j := by
  have hs : k ≠ size := by
    rintro rfl
    rw [hd.new] at hk
    cases hk
  have hl : (entryOf functions name).of side.other ≠ some k := by
    intro hl
    rw [hd.back k hl] at hk
    cases hk
  rw [hd.kept k hs hl] at hk
  rw [h.called k m b hk]
  have hlt := h.lt hk
  constructor
  · rintro ⟨j, hj, sd, hdj⟩
    exact ⟨j, hj, sd, (h.declares_iff hd).2 (.inl hdj)⟩
  · rintro ⟨j, hj, sd, hdj⟩
    rcases (h.declares_iff hd).1 hdj with hdj | ⟨-, -, rfl⟩
    · exact ⟨j, hj, sd, hdj⟩
    · exact absurd hlt (Nat.lt_asymm hj)

/-- Whichever side a function is put down on, the table tells of the items
again. -/
theorem declared : Tabled (size + 1) v'
    ((name, (entryOf functions name).set size side) :: functions) where
  fresh k hk := by
    have hl : (entryOf functions name).of side.other ≠ some k := by
      intro hl
      have hlt := h.lt_of_declares ((h.entry name side.other k).1 hl).1
      exact Nat.lt_asymm hlt hk
    rw [hd.kept k (by omega) hl, h.fresh k (by omega)]
  entry := h.entry_declared hd
  known m := by
    rw [List.lookup_cons]
    by_cases hm : m = name
    · subst hm
      simp only [beq_self_eq_true, Option.isSome_some, true_iff]
      exact ⟨side, size, (h.declares_iff hd).2 (.inr ⟨rfl, rfl, rfl⟩)⟩
    · simp only [beq_eq_false_iff_ne.2 hm, h.known, h.declares_iff hd, hm,
        false_and, or_false]
  linked _ _ _ _ hk := h.linked_declared hd hk
  paired _ _ _ _ hk hj := h.paired_declared hd hk hj
  called _ _ _ hk := h.called_declared hd hk

end Declaring

end Tabled

end Parse

end AblOutline
