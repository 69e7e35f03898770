/-
The items of a parse as a tree. An item is added under the scope that is open
where it is found, so a scope stands before all items found in it, and the
list of those it owns grows at its end only.

`Forest` says what an array of items is to be. Two things are ever done to
the items of a parse, and each keeps the tree: one item is added under an
owner (`Forest.add`), or an item gets another end line or other content of
the same sort (`Forest.rewrite`). From any item the scopes lead to the file
(`Forest.reaches_file`).
-/
import AblOutline.Parse.State
import Mathlib.Logic.Relation

namespace AblOutline

open Parse

-- ============================================================ vocabulary

/-- Item `i` was found in the scope of item `s`. -/
def ScopeOf (items : Array Item) (i s : ItemId) : Prop :=
  ∃ item, items[i]? = some item ∧ item.scope = some s

/-- There is an item of that number, of the sort that bears that name in
reports. -/
def IsA (items : Array Item) (id : ItemId) (sort : String) : Prop :=
  ∃ item, items[id]? = some item ∧ item.content.reportName = sort

/-- The sorts of items that own what is found in their scope. -/
def owners : List String :=
  ["file", "preproc-block", "procedure", "implementation", "method", "on"]

/-- The items are one tree: the file at its root, every other item under an
owner that stands before it. -/
structure Forest (items : Array Item) : Prop where
  size_pos : 0 < items.size
  /-- Each item bears the number of its place. -/
  number : ∀ {i : ItemId} {item : Item}, items[i]? = some item → item.id = i
  /-- The first item is the file, and no other is. -/
  file : ∀ {i : ItemId} {item : Item}, items[i]? = some item →
    (item.content.reportName = "file" ↔ i = 0)
  /-- The first item alone has no scope. -/
  root : ∀ {i : ItemId} {item : Item}, items[i]? = some item →
    (item.scope = none ↔ i = 0)
  /-- A scope is an owner and stands before what it owns. -/
  scope : ∀ {i s}, ScopeOf items i s →
    s < i ∧ ∃ owner, items[s]? = some owner ∧ owner.isScope = true
  increasing : ∀ {s : ItemId} {owner : Item}, items[s]? = some owner →
    owner.children.Pairwise (· < ·)
  children : ∀ {s : ItemId} {owner : Item}, items[s]? = some owner →
    ∀ j, j ∈ owner.children ↔ ScopeOf items j s

-- ================================================================= sorts

/-- The sort tells whether an item owns a scope. -/
theorem Item.Content.isScope_eq (c : Item.Content) :
    c.isScope = owners.contains c.reportName := by
  cases c <;> rfl

theorem Item.isScope_iff (i : Item) :
    i.isScope = true ↔ i.content.reportName ∈ owners := by
  rw [Item.isScope, Item.Content.isScope_eq, List.contains_iff_mem]

theorem IsA.owner {items : Array Item} {id : ItemId} {sort : String}
    (h : IsA items id sort) (hs : sort ∈ owners) :
    ∃ owner, items[id]? = some owner ∧ owner.isScope = true := by
  obtain ⟨item, hi, hn⟩ := h
  exact ⟨item, hi, (Item.isScope_iff item).2 (hn ▸ hs)⟩

/-- The first item is the file. -/
theorem Forest.isA_file {items : Array Item} (h : Forest items) :
    IsA items 0 "file" := by
  have hpos := h.size_pos
  have hget : items[0]? = some items[0] := Array.getElem?_eq_getElem hpos
  exact ⟨_, hget, (h.file hget).2 rfl⟩

/-- A change that leaves an item its place and its sort. -/
def Rewrites (f : Item → Item) : Prop :=
  ∀ i, ∃ content endLine, f i = { i with content, endLine }
    ∧ content.reportName = i.content.reportName

/-- Later items: those that were there have kept their place and sort. -/
def Extends (items items' : Array Item) : Prop :=
  ∀ ⦃id sort⦄, IsA items id sort → IsA items' id sort

theorem Extends.refl (items : Array Item) : Extends items items :=
  fun _ _ h => h

theorem Extends.trans {a b c : Array Item} (hab : Extends a b)
    (hbc : Extends b c) : Extends a c := fun _ _ h => hbc (hab h)

-- ============================================================= rewriting

section Rewriting

variable {items : Array Item} {f : Item → Item} {id : ItemId}

/-- What is at a place after a rewrite, told by what was there before. -/
theorem getElem?_rewrite (hf : Rewrites f) {i : Nat} {item : Item}
    (h : (items.modify id f)[i]? = some item) :
    ∃ before content endLine, items[i]? = some before
      ∧ item = { before with content, endLine }
      ∧ content.reportName = before.content.reportName := by
  rw [Array.getElem?_modify] at h
  split at h
  · obtain ⟨before, hb, rfl⟩ := Option.map_eq_some_iff.1 h
    obtain ⟨content, endLine, he, hn⟩ := hf before
    exact ⟨before, content, endLine, hb, he, hn⟩
  · exact ⟨item, item.content, item.endLine, h, rfl, rfl⟩

/-- What was at a place before a rewrite is still there, rewritten. -/
theorem getElem?_modify_of_some (hf : Rewrites f) {i : Nat} {item : Item}
    (h : items[i]? = some item) :
    ∃ content endLine,
      (items.modify id f)[i]? = some { item with content, endLine }
        ∧ content.reportName = item.content.reportName := by
  rw [Array.getElem?_modify]
  split
  · obtain ⟨content, endLine, he, hn⟩ := hf item
    exact ⟨content, endLine, by rw [h, Option.map_some, he], hn⟩
  · exact ⟨item.content, item.endLine, h, rfl⟩

/-- What a change of one item leaves of each item stays of all. -/
theorem map_modify {β : Type} {g : Item → β} (hf : ∀ i, g (f i) = g i)
    (id : ItemId) : (items.modify id f).toList.map g = items.toList.map g := by
  refine List.ext_getElem? fun n => ?_
  rw [List.getElem?_map, List.getElem?_map, Array.getElem?_toList,
    Array.getElem?_toList, Array.getElem?_modify]
  split
  · cases items[n]? with
    | none => rfl
    | some i => exact congrArg some (hf i)
  · rfl

theorem filterMap_modify {β : Type} {g : Item → Option β}
    (hf : ∀ i, g (f i) = g i) (id : ItemId) :
    (items.modify id f).toList.filterMap g = items.toList.filterMap g := by
  have hmap : ∀ l : List Item, l.filterMap g = (l.map g).filterMap fun x => x :=
    fun l => by rw [List.filterMap_map]; rfl
  rw [hmap, hmap, map_modify hf]

theorem scopeOf_rewrite (hf : Rewrites f) {i s : ItemId} :
    ScopeOf (items.modify id f) i s ↔ ScopeOf items i s := by
  constructor
  · rintro ⟨item, hi, hs⟩
    obtain ⟨before, content, endLine, hb, rfl, -⟩ := getElem?_rewrite hf hi
    exact ⟨before, hb, hs⟩
  · rintro ⟨item, hi, hs⟩
    obtain ⟨content, endLine, hm, -⟩ := getElem?_modify_of_some hf hi
    exact ⟨_, hm, hs⟩

theorem Extends.rewrite (hf : Rewrites f) :
    Extends items (items.modify id f) := by
  rintro i sort ⟨item, hi, hn⟩
  obtain ⟨content, endLine, hm, hc⟩ := getElem?_modify_of_some hf hi
  exact ⟨_, hm, hc.trans hn⟩

/-- Rewriting an item keeps the tree. -/
theorem Forest.rewrite (h : Forest items) (hf : Rewrites f) :
    Forest (items.modify id f) where
  size_pos := by rw [Array.size_modify]; exact h.size_pos
  number hi := by
    obtain ⟨before, content, endLine, hb, rfl, -⟩ := getElem?_rewrite hf hi
    show before.id = _
    exact h.number hb
  file hi := by
    obtain ⟨before, content, endLine, hb, rfl, hn⟩ := getElem?_rewrite hf hi
    rw [← h.file hb, ← hn]
  root hi := by
    obtain ⟨before, content, endLine, hb, rfl, -⟩ := getElem?_rewrite hf hi
    show before.scope = none ↔ _
    exact h.root hb
  scope hs := by
    obtain ⟨hlt, owner, ho, hsc⟩ := h.scope ((scopeOf_rewrite hf).1 hs)
    obtain ⟨content, endLine, hm, hn⟩ := getElem?_modify_of_some hf ho
    refine ⟨hlt, _, hm, ?_⟩
    rw [Item.isScope_iff] at hsc ⊢
    rw [hn]
    exact hsc
  increasing hi := by
    obtain ⟨before, content, endLine, hb, rfl, -⟩ := getElem?_rewrite hf hi
    show before.children.Pairwise (· < ·)
    exact h.increasing hb
  children hi j := by
    obtain ⟨before, content, endLine, hb, rfl, -⟩ := getElem?_rewrite hf hi
    rw [scopeOf_rewrite hf]
    exact h.children hb j

end Rewriting

-- ================================================================ adding

section Adding

variable {items : Array Item} {item : Item} {parent : ItemId}

/-- The items with one more, listed by its parent. -/
def addUnder (items : Array Item) (item : Item) (parent : ItemId) :
    Array Item :=
  (items.push item).modify parent (State.withChild items.size)

/-- What is at a place once an item was added: an item that was there,
with the new child if it is the parent, or the new item. -/
theorem getElem?_addUnder (hp : parent < items.size) {i : Nat} {x : Item}
    (h : (addUnder items item parent)[i]? = some x) :
    (∃ before, items[i]? = some before
      ∧ x = if i = parent then State.withChild items.size before else before)
    ∨ (i = items.size ∧ x = item) := by
  rw [addUnder, Array.getElem?_modify, Array.getElem?_push] at h
  by_cases hs : i = items.size
  · right
    have hne : parent ≠ i := Nat.ne_of_lt (hs ▸ hp)
    rw [if_neg hne, if_pos hs] at h
    exact ⟨hs, (Option.some.inj h).symm⟩
  · left
    rw [if_neg hs] at h
    split at h
    case isTrue heq =>
        obtain ⟨before, hb, rfl⟩ := Option.map_eq_some_iff.1 h
        exact ⟨before, hb, by rw [if_pos heq.symm]⟩
    case isFalse hne => exact ⟨x, h, by rw [if_neg (Ne.symm hne)]⟩

/-- What was at a place is still there, with the new child if it is the
parent. -/
theorem getElem?_addUnder_of_some {i : Nat} {x : Item}
    (h : items[i]? = some x) :
    (addUnder items item parent)[i]?
      = some (if i = parent then State.withChild items.size x else x) := by
  obtain ⟨hlt, -⟩ := Array.getElem?_eq_some_iff.1 h
  have hne : i ≠ items.size := Nat.ne_of_lt hlt
  rw [addUnder, Array.getElem?_modify, Array.getElem?_push, if_neg hne, h]
  by_cases hp : i = parent
  · rw [if_pos hp.symm, if_pos hp]
    rfl
  · rw [if_neg (Ne.symm hp), if_neg hp]

/-- The new item is at the end. -/
theorem getElem?_addUnder_size (hp : parent < items.size) :
    (addUnder items item parent)[items.size]? = some item := by
  rw [addUnder, Array.getElem?_modify, Array.getElem?_push,
    if_neg (Nat.ne_of_lt hp), if_pos rfl]

theorem withChild_parts (id : ItemId) (c : Prop) [Decidable c] (x : Item) :
    let y := if c then State.withChild id x else x
    y.id = x.id ∧ y.scope = x.scope ∧ y.content = x.content := by
  by_cases h : c <;> simp [h, State.withChild]

theorem Extends.add : Extends items (addUnder items item parent) := by
  rintro i sort ⟨x, hx, hn⟩
  refine ⟨_, getElem?_addUnder_of_some hx, ?_⟩
  rw [(withChild_parts ..).2.2]
  exact hn

/-- Only the new item is added to the scopes of items. -/
theorem scopeOf_addUnder (hp : parent < items.size)
    (hs : item.scope = some parent) {j s : ItemId} :
    ScopeOf (addUnder items item parent) j s
      ↔ ScopeOf items j s ∨ (j = items.size ∧ s = parent) := by
  constructor
  · rintro ⟨x, hx, hsc⟩
    rcases getElem?_addUnder hp hx with ⟨before, hb, rfl⟩ | ⟨hj, rfl⟩
    · rw [(withChild_parts ..).2.1] at hsc
      exact Or.inl ⟨before, hb, hsc⟩
    · exact Or.inr ⟨hj, Option.some.inj (hsc.symm.trans hs)⟩
  · rintro (⟨x, hx, hsc⟩ | ⟨rfl, rfl⟩)
    · refine ⟨_, getElem?_addUnder_of_some hx, ?_⟩
      rw [(withChild_parts ..).2.1]
      exact hsc
    · exact ⟨item, getElem?_addUnder_size hp, hs⟩

/-- A new item under an owner keeps the tree. -/
theorem Forest.add (h : Forest items) (hid : item.id = items.size)
    (hs : item.scope = some parent) (hc : item.children = [])
    (hf : item.content.reportName ≠ "file")
    (hp : ∃ owner, items[parent]? = some owner ∧ owner.isScope = true) :
    Forest (addUnder items item parent) := by
  obtain ⟨owner, ho, hown⟩ := hp
  obtain ⟨hlt, -⟩ := Array.getElem?_eq_some_iff.1 ho
  have below : ∀ {j s}, ScopeOf items j s → j < items.size := by
    rintro j s ⟨x, hx, -⟩
    exact (Array.getElem?_eq_some_iff.1 hx).1
  constructor
  case size_pos => simp [addUnder]
  case number =>
    intro i x hx
    rcases getElem?_addUnder hlt hx with ⟨before, hb, rfl⟩ | ⟨rfl, rfl⟩
    · rw [(withChild_parts ..).1]
      exact h.number hb
    · exact hid
  case file =>
    intro i x hx
    rcases getElem?_addUnder hlt hx with ⟨before, hb, rfl⟩ | ⟨rfl, rfl⟩
    · rw [(withChild_parts ..).2.2]
      exact h.file hb
    · exact iff_of_false hf (Nat.ne_of_gt h.size_pos)
  case root =>
    intro i x hx
    rcases getElem?_addUnder hlt hx with ⟨before, hb, rfl⟩ | ⟨rfl, rfl⟩
    · rw [(withChild_parts ..).2.1]
      exact h.root hb
    · rw [hs]
      exact iff_of_false (Option.some_ne_none _) (Nat.ne_of_gt h.size_pos)
  case scope =>
    intro i s hsc
    rcases (scopeOf_addUnder hlt hs).1 hsc with hsc | ⟨rfl, rfl⟩
    · obtain ⟨hlt', x, hx, hxs⟩ := h.scope hsc
      refine ⟨hlt', _, getElem?_addUnder_of_some hx, ?_⟩
      rw [Item.isScope, (withChild_parts ..).2.2]
      exact hxs
    · refine ⟨hlt, _, getElem?_addUnder_of_some ho, ?_⟩
      rw [Item.isScope, (withChild_parts ..).2.2]
      exact hown
  case increasing =>
    intro s x hx
    rcases getElem?_addUnder hlt hx with ⟨before, hb, rfl⟩ | ⟨rfl, rfl⟩
    · split
      · -- the new number is past all that were there
        refine List.pairwise_append.2
          ⟨h.increasing hb, List.pairwise_singleton .., ?_⟩
        intro a ha b hb'
        rw [List.mem_singleton] at hb'
        rw [hb']
        exact below ((h.children hb a).1 ha)
      · exact h.increasing hb
    · rw [hc]
      exact List.Pairwise.nil
  case children =>
    intro s x hx j
    rw [scopeOf_addUnder hlt hs]
    rcases getElem?_addUnder hlt hx with ⟨before, hb, rfl⟩ | ⟨rfl, rfl⟩
    · have hold := h.children hb j
      by_cases hsp : s = parent
      · rw [hsp] at hold ⊢
        simp [State.withChild, hold]
      · simp [hsp, hold]
    · -- nothing was found in the scope of an item that was not there
      have hnone : ¬ ScopeOf items j items.size := by
        intro hsc
        obtain ⟨-, y, hy, -⟩ := h.scope hsc
        simp at hy
      have hne : items.size ≠ parent := by omega
      simp [hc, hnone, hne]

end Adding

-- ============================================================== the root

/-- The file alone is a tree. -/
theorem forest_singleton {item : Item} (hid : item.id = 0)
    (hs : item.scope = none) (hc : item.children = [])
    (hf : item.content.reportName = "file") : Forest #[item] := by
  have only : ∀ {i x}, (#[item] : Array Item)[i]? = some x →
      i = 0 ∧ x = item := by
    intro i x hx
    rcases i with _ | i
    · exact ⟨rfl, (Option.some.inj hx).symm⟩
    · simp at hx
  have hno : ∀ {i s}, ¬ ScopeOf #[item] i s := by
    rintro i s ⟨x, hx, hsc⟩
    obtain ⟨-, rfl⟩ := only hx
    rw [hs] at hsc
    cases hsc
  constructor
  case size_pos => exact Nat.one_pos
  case number =>
    intro i x hx
    obtain ⟨rfl, rfl⟩ := only hx
    exact hid
  case file =>
    intro i x hx
    obtain ⟨rfl, rfl⟩ := only hx
    exact iff_of_true hf rfl
  case root =>
    intro i x hx
    obtain ⟨rfl, rfl⟩ := only hx
    exact iff_of_true hs rfl
  case scope => exact fun hsc => (hno hsc).elim
  case increasing =>
    intro s x hx
    obtain ⟨rfl, rfl⟩ := only hx
    rw [hc]
    exact List.Pairwise.nil
  case children =>
    intro s x hx j
    obtain ⟨rfl, rfl⟩ := only hx
    simp [hc, hno]

/-- From any item the scopes lead to the file. -/
theorem Forest.reaches_file {items : Array Item} (h : Forest items)
    {i : ItemId} (hi : i < items.size) :
    Relation.ReflTransGen (ScopeOf items) i 0 := by
  induction i using Nat.strongRecOn with
  | ind i ih =>
      have hget : items[i]? = some items[i] := Array.getElem?_eq_getElem hi
      cases hsc : items[i].scope with
      | none =>
          rw [(h.root hget).1 hsc]
      | some s =>
          have hs : ScopeOf items i s := ⟨_, hget, hsc⟩
          have hlt : s < i := (h.scope hs).1
          exact .head hs (ih s hlt (Nat.lt_trans hlt hi))

/-- Only owners have children. -/
theorem Forest.owner_of_children {items : Array Item} (h : Forest items)
    {s : ItemId} {owner : Item} (hs : items[s]? = some owner)
    (hne : owner.children ≠ []) : owner.content.reportName ∈ owners := by
  obtain ⟨j, hj⟩ := List.exists_mem_of_ne_nil _ hne
  obtain ⟨-, x, hx, hsc⟩ := h.scope ((h.children hs j).1 hj)
  rw [hs] at hx
  rw [Option.some.inj hx]
  exact (Item.isScope_iff x).1 hsc

end AblOutline
