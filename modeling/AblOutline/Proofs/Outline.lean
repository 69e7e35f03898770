/-
The outline of a file. The items of a parse are one tree, whatever the text, its
path, and the environment with its definitions, tables and included files: it
leads from a scope to what was found in it, and from any item back to the file.
The outline is put together from the last item to the first; here it is compared
with that tree, walked from the file down:

    items      file ── procedure ── buffer         a variable has no entry,
                    └─ variable   └─ RUN           and nothing is below it
    outline            procedure ── buffer
                                  └─ RUN

An owner of a scope has an entry, unless it is the file. So what has no entry
has nothing below it either, and what is below an entry is what was found in
its scope (`Mirrors`). A scope stands before what is found in it, so going down
from the file comes to an end (`build?_eq`).

That every entry is walked once is shown item by item, from the last to the
first: the item that is added takes the place of those found in its scope
(`walk_roots`).
-/
import AblOutline.Outline
import AblOutline.Proofs.Findings

namespace AblOutline

namespace Outline

-- ============================================================ what is meant

/-- The outlines below an item, put together from its children on; nothing if
that leads down more than `depth` times. -/
def build? (p : ParsedFile) : (depth : Nat) → ItemId → Option (List Outline)
  | 0, _ => none
  | depth + 1, id =>
    ((p.children id).filterMap fun child =>
        child.outlineEntry?.map fun entry => (child, entry)).mapM
      fun (child, entry) =>
        if child.isScope then (build? p depth child.id).map (node entry)
        else some (node entry [])

/-- These are the outlines of those items found in the scope that have one, in
the order in which the scope lists them: that of their numbers. -/
structure Mirrors (p : ParsedFile) (scope : ItemId) (os : List Outline) :
    Prop where
  entries : os.map entry = (p.children scope).filterMap Item.outlineEntry?
  increasing : os.Pairwise fun a b => a.entry.item < b.entry.item
  found : ∀ i ∈ p.items, ∀ e, i.outlineEntry? = some e →
    (i.scope = some scope ↔ e ∈ os.map entry)

/-- The outline is one of these, or below one of them. -/
inductive Within (o : Outline) : List Outline → Prop where
  | here {os : List Outline} : o ∈ os → Within o os
  | under {os : List Outline} {above : Outline} : above ∈ os →
      Within o above.children → Within o os

-- ================================================================= numbers

section Numbers

variable {before after : List Item} {id : ItemId} {i : Item}

theorem ofItems_cons : ofItems (i :: after)
    = match i.outlineEntry? with
      | none => ofItems after
      | some entry => (i.id, node entry
          (if i.isScope then among (ofItems after) i.children else []))
        :: ofItems after := rfl

theorem lookup_ofItems_cons (hne : i.id ≠ id) :
    (ofItems (i :: after)).lookup id = (ofItems after).lookup id := by
  rw [ofItems_cons]
  cases i.outlineEntry? with
  | none => rfl
  | some entry =>
      dsimp only
      rw [List.lookup_cons, beq_eq_false_iff_ne.2 (Ne.symm hne)]

/-- Items of other numbers are not looked up. -/
theorem lookup_ofItems_append (hne : ∀ j ∈ before, j.id ≠ id) :
    (ofItems (before ++ after)).lookup id = (ofItems after).lookup id := by
  induction before with
  | nil => rfl
  | cons j before ih =>
      obtain ⟨hj, hbefore⟩ := List.forall_mem_cons.1 hne
      rw [List.cons_append, lookup_ofItems_cons hj, ih hbefore]

theorem lookup_ofItems_none (hne : ∀ j ∈ before, j.id ≠ id) :
    (ofItems before).lookup id = none := by
  rw [← List.append_nil before, lookup_ofItems_append hne]
  rfl

end Numbers

-- ================================================================= entries

section Entries

variable {p : ParsedFile} {id : ItemId} {i : Item} {e : OutlineEntry}
  {o : Outline}

theorem item_of_entry (h : i.outlineEntry? = some e) : e.item = i.id := by
  obtain ⟨kind, -, rfl⟩ := Option.map_eq_some_iff.1 h
  rfl

/-- An owner of a scope has an entry, unless it is the file. -/
theorem outlineEntry?_eq_none (h : i.outlineEntry? = none) :
    i.isScope = false ∨ i.content.reportName = "file" := by
  unfold Item.outlineEntry? Item.outlineKind? at h
  unfold Item.isScope
  cases hc : i.content
  case file => exact .inr rfl
  case editorSection | procedure | implementation | method | trigger =>
    rw [hc] at h
    cases h
  all_goals exact .inl rfl

theorem outlineEntry?_file (h : i.content.reportName = "file") :
    i.outlineEntry? = none := by
  unfold Item.outlineEntry? Item.outlineKind?
  cases hc : i.content <;> rw [hc] at h
  case file => rfl
  all_goals exact absurd h (by simp [Item.Content.reportName])

end Entries

-- ==================================================================== trees

/-- The outline of the item of that number, if it has one. -/
def ofId? (p : ParsedFile) (id : ItemId) : Option Outline :=
  (ofItems p.items.toList).lookup id

section Trees

variable {p : ParsedFile} {id : ItemId} {i : Item} {e : OutlineEntry}
  {o : Outline}

theorem pairwise_id (h : Forest p.items) :
    p.items.toList.Pairwise fun a b => a.id < b.id := by
  refine List.pairwise_iff_getElem.2 fun m n hm hn hlt => ?_
  have hat : ∀ k (hk : k < p.items.toList.length),
      p.items.toList[k].id = k := fun k hk => h.number (by
    rw [← Array.getElem?_toList, List.getElem?_eq_getElem hk])
  rw [hat m hm, hat n hn]
  exact hlt

/-- What is found in a scope stands after it. -/
theorem lt_of_mem_children (h : Forest p.items) {id : Nat}
    (hi : p.items[id]? = some i) {c : Nat} (hc : c ∈ i.children) : id < c :=
  (h.scope ((h.children hi c).1 hc)).1

/-- Only what owns a scope has children. -/
theorem children_eq_nil (h : Forest p.items) (hi : p.items[id]? = some i)
    (hscope : i.isScope = false) : i.children = [] := by
  by_contra hne
  have howner := (Item.isScope_iff i).2 (h.owner_of_children hi hne)
  rw [hscope] at howner
  cases howner

/-- The outline of an item is its entry with the outlines of its children. -/
theorem ofId?_eq (h : Forest p.items) (hi : p.items[id]? = some i) :
    ofId? p id = i.outlineEntry?.map fun e =>
      node e (i.children.filterMap (ofId? p)) := by
  have hid : i.id = id := h.number hi
  obtain ⟨before, after, hitems⟩ := List.append_of_mem
    (Array.mem_toList_iff.2 (Array.mem_of_getElem? hi))
  have hpair := pairwise_id h
  rw [hitems, List.pairwise_append, List.pairwise_cons] at hpair
  obtain ⟨-, ⟨hafter, -⟩, hbefore⟩ := hpair
  have hbefore : ∀ j ∈ before, j.id < id :=
    fun j hj => hid ▸ hbefore j hj i List.mem_cons_self
  -- the children of the item stand after it
  have hchildren : among (ofItems after) i.children
      = i.children.filterMap (ofId? p) := by
    refine List.filterMap_congr fun c hc => ?_
    have hlt := lt_of_mem_children h hi hc
    unfold ofId?
    rw [hitems, lookup_ofItems_append fun j hj =>
        (Nat.lt_trans (hbefore j hj) hlt).ne,
      lookup_ofItems_cons (hid.symm ▸ hlt.ne)]
  have hat : ofId? p id = (ofItems (i :: after)).lookup id := by
    unfold ofId?
    rw [hitems, lookup_ofItems_append fun j hj => (hbefore j hj).ne]
  rw [hat, ofItems_cons]
  cases he : i.outlineEntry? with
  | none => exact lookup_ofItems_none fun j hj => (hid ▸ hafter j hj).ne'
  | some e =>
      dsimp only
      rw [List.lookup_cons, hid, beq_self_eq_true, hchildren]
      cases hscope : i.isScope with
      | true => rfl
      | false => rw [children_eq_nil h hi hscope]; rfl

theorem ofId?_none (h : Forest p.items) (hi : p.items[id]? = none) :
    ofId? p id = none := by
  refine lookup_ofItems_none fun j hj he => ?_
  obtain ⟨n, hn⟩ := Array.mem_iff_getElem?.1 (Array.mem_toList_iff.1 hj)
  rw [← he, h.number hn, hn] at hi
  cases hi

/-- An outline is that of an item, and holds those of its children. -/
theorem of_ofId? (h : Forest p.items) (ho : ofId? p id = some o) :
    ∃ i, p.items[id]? = some i ∧ i.outlineEntry? = some o.entry
      ∧ o.entry.item = id ∧ o.children = i.children.filterMap (ofId? p) := by
  cases hi : p.items[id]? with
  | none =>
      rw [ofId?_none h hi] at ho
      cases ho
  | some i =>
      rw [ofId?_eq h hi] at ho
      obtain ⟨e, he, rfl⟩ := Option.map_eq_some_iff.1 ho
      exact ⟨i, rfl, he, (item_of_entry he).trans (h.number hi), rfl⟩

/-- The entries of the outlines that some items have. -/
theorem entries_filterMap (h : Forest p.items) (ids : List ItemId) :
    (ids.filterMap (ofId? p)).map entry
      = (ids.filterMap p.item?).filterMap Item.outlineEntry? := by
  rw [List.map_filterMap, List.filterMap_filterMap]
  refine List.filterMap_congr fun c _ => ?_
  unfold ParsedFile.item?
  cases hc : p.items[c]? with
  | none => rw [ofId?_none h hc]; rfl
  | some j =>
      rw [ofId?_eq h hc, Option.map_map]
      show _ = j.outlineEntry?
      cases j.outlineEntry? <;> rfl

/-- The outlines of the children of an item are those of what was found in its
scope. -/
theorem mirrors_children (h : Forest p.items) (hi : p.items[id]? = some i) :
    Mirrors p id (i.children.filterMap (ofId? p)) := by
  refine ⟨?_, ?_, fun j hj e he => ?_⟩
  · rw [entries_filterMap h]
    unfold ParsedFile.children ParsedFile.item?
    rw [hi]
    rfl
  · refine List.pairwise_filterMap.2 ((h.increasing hi).imp ?_)
    intro a b hlt o ho o' ho'
    obtain ⟨-, -, -, ha, -⟩ := of_ofId? h ho
    obtain ⟨-, -, -, hb, -⟩ := of_ofId? h ho'
    rwa [ha, hb]
  · obtain ⟨n, hn⟩ := Array.mem_iff_getElem?.1 hj
    have hchild : j.scope = some id ↔ n ∈ i.children := by
      rw [h.children hi n]
      exact ⟨fun hs => ⟨j, hn, hs⟩, fun ⟨x, hx, hs⟩ =>
        Option.some.inj (hn.symm.trans hx) ▸ hs⟩
    rw [hchild]
    constructor
    · intro hmem
      exact List.mem_map.2 ⟨node e (j.children.filterMap (ofId? p)),
        List.mem_filterMap.2 ⟨n, hmem, by rw [ofId?_eq h hn, he]; rfl⟩, rfl⟩
    · intro hmem
      obtain ⟨o, ho, rfl⟩ := List.mem_map.1 hmem
      obtain ⟨c, hc, ho⟩ := List.mem_filterMap.1 ho
      obtain ⟨-, -, -, hitem, -⟩ := of_ofId? h ho
      rw [item_of_entry he, h.number hn] at hitem
      rwa [hitem]

/-- All outlines that are met on the way down are those of items. -/
theorem Within.ofId? (h : Forest p.items) {os : List Outline}
    (hos : ∀ o ∈ os, ofId? p o.entry.item = some o) (ho : Within o os) :
    ofId? p o.entry.item = some o := by
  induction ho with
  | here hmem => exact hos _ hmem
  | under habove _ ih =>
      refine ih fun o ho => ?_
      obtain ⟨i, -, -, -, hchildren⟩ := of_ofId? h (hos _ habove)
      rw [hchildren] at ho
      obtain ⟨c, -, hc⟩ := List.mem_filterMap.1 ho
      obtain ⟨-, -, -, hitem, -⟩ := of_ofId? h hc
      rwa [hitem]

end Trees

-- =================================================================== walking

section Walking

variable {p : ParsedFile} {id : Nat} {i : Item}

theorem walkAll_append (as bs : List Outline) :
    walkAll (as ++ bs) = walkAll as ++ walkAll bs := by
  induction as with
  | nil => rfl
  | cons a as ih => rw [List.cons_append, walkAll, walkAll, ih, List.append_assoc]

/-- The entries of the outline of an item, if it has one. -/
def walkId (p : ParsedFile) (id : ItemId) : List OutlineEntry :=
  walkAll (ofId? p id).toList

theorem walkAll_filterMap (ids : List ItemId) :
    walkAll (ids.filterMap (ofId? p)) = ids.flatMap (walkId p) := by
  induction ids with
  | nil => rfl
  | cons c ids ih =>
      rw [List.flatMap_cons, ← ih, walkId, ← walkAll_append,
        List.filterMap_cons]
      cases ofId? p c <;> rfl

/-- An item but the file is walked before its children. -/
theorem walkId_eq (h : Forest p.items) (hi : p.items[id]? = some i)
    (hne : id ≠ 0) :
    walkId p id = i.outlineEntry?.toList ++ i.children.flatMap (walkId p) := by
  rw [← walkAll_filterMap, walkId, ofId?_eq h hi]
  cases he : i.outlineEntry? with
  | none =>
      have hscope := (outlineEntry?_eq_none he).resolve_right
        fun hfile => hne ((h.file hi).1 hfile)
      rw [children_eq_nil h hi hscope]
      rfl
  | some e =>
      show walk (node e _) ++ [] = _
      rw [List.append_nil, walk]
      rfl

/-- The item in whose scope item `j` was found. -/
def scopeOf? (p : ParsedFile) (j : Nat) : Option Nat :=
  (p.item? j).bind (·.scope)

/-- Item `j` was found in the scope of item `k`. -/
def isFoundIn (p : ParsedFile) (k j : Nat) : Bool := scopeOf? p j == some k

/-- Item `j` was found in the scope of an item before `k`. -/
def isFoundBefore (p : ParsedFile) (k j : Nat) : Bool :=
  (scopeOf? p j).any (· < k)

/-- The entry of the item of that number. -/
def entryId? (p : ParsedFile) (j : Nat) : Option OutlineEntry :=
  (p.item? j).bind Item.outlineEntry?

theorem isFoundIn_iff {k j : Nat} :
    isFoundIn p k j = true ↔ ScopeOf p.items j k :=
  beq_iff_eq.trans Option.bind_eq_some_iff

/-- The children of an item are those later ones that were found in its
scope. -/
theorem children_perm (h : Forest p.items) (hi : p.items[id]? = some i)
    {n : Nat} (hn : id + 1 + n = p.items.size) :
    i.children.Perm ((List.range' (id + 1) n).filter (isFoundIn p id)) := by
  have hnodup : i.children.Nodup := (h.increasing hi).imp Nat.ne_of_lt
  refine (List.perm_ext_iff_of_nodup hnodup
    (.sublist List.filter_sublist List.nodup_range')).2 fun c => ?_
  rw [h.children hi c, List.mem_filter, isFoundIn_iff, List.mem_range'_1, hn]
  refine ⟨fun hs => ⟨⟨(h.scope hs).1, ?_⟩, hs⟩, And.right⟩
  obtain ⟨x, hx, -⟩ := hs
  exact (Array.getElem?_eq_some_iff.1 hx).1

/-- What was found before the next item was found in this one or before it. -/
theorem filter_isFoundBefore_perm (k : Nat) (ids : List Nat) :
    (ids.filter (isFoundBefore p (k + 1))).Perm
      (ids.filter (isFoundIn p k) ++ ids.filter (isFoundBefore p k)) := by
  have hperm := List.filter_append_perm (isFoundIn p k)
    (ids.filter (isFoundBefore p (k + 1)))
  rw [List.filter_filter, List.filter_filter] at hperm
  refine hperm.symm.trans (.of_eq (congrArg₂ _ ?_ ?_))
  all_goals
    refine List.filter_congr fun j _ => ?_
    unfold isFoundBefore isFoundIn
    cases scopeOf? p j with
    | none => rfl
    | some s =>
        rw [Bool.eq_iff_iff]
        simp
        omega

/-- From some item on, all are walked once when those are walked that were found
in the scope of an item before. -/
theorem walk_roots (h : Forest p.items) {k n : Nat} (hk : 0 < k)
    (hn : k + n = p.items.size) :
    (((List.range' k n).filter (isFoundBefore p k)).flatMap (walkId p)).Perm
      ((List.range' k n).filterMap (entryId? p)) := by
  induction n generalizing k with
  | zero => exact .nil
  | succ n ih =>
      have hlt : k < p.items.size := by omega
      have hn' : k + 1 + n = p.items.size := by omega
      have hi : p.items[k]? = some p.items[k] := Array.getElem?_eq_getElem hlt
      generalize p.items[k] = i at hi
      have hbefore : isFoundBefore p k k = true := by
        unfold isFoundBefore scopeOf? ParsedFile.item?
        rw [hi, Option.bind_some]
        cases hs : i.scope with
        | none => exact absurd ((h.root hi).1 hs) hk.ne'
        | some s => exact decide_eq_true (h.scope ⟨i, hi, hs⟩).1
      have hentry : entryId? p k = i.outlineEntry? := by
        unfold entryId? ParsedFile.item?
        rw [hi]
        rfl
      -- the item takes the place of those found in its scope
      have hrest : (i.children.flatMap (walkId p)
          ++ ((List.range' (k + 1) n).filter (isFoundBefore p k)).flatMap
            (walkId p)).Perm
          ((List.range' (k + 1) n).filterMap (entryId? p)) := by
        rw [← List.flatMap_append]
        refine (List.Perm.flatMap_right _ ?_).trans (ih (Nat.succ_pos k) hn')
        exact ((children_perm h hi hn').append_right _).trans
          (filter_isFoundBefore_perm k _).symm
      rw [List.range'_succ, List.filter_cons_of_pos hbefore, List.flatMap_cons,
        walkId_eq h hi hk.ne', List.append_assoc,
        List.filterMap_eq_flatMap_toList, List.flatMap_cons, hentry,
        ← List.filterMap_eq_flatMap_toList]
      exact hrest.append_left _

theorem filterMap_entryId? : (List.range p.items.size).filterMap (entryId? p)
    = p.items.toList.filterMap Item.outlineEntry? := by
  have hitems : (List.range p.items.size).map p.item?
      = p.items.toList.map some := by
    refine List.ext_getElem (by simp) fun n hn hn' => ?_
    have hlt : n < p.items.size := by simpa using hn
    simp [ParsedFile.item?, hlt]
  have h := congrArg (List.filterMap fun i => i.bind Item.outlineEntry?) hitems
  rw [List.filterMap_map, List.filterMap_map] at h
  exact h

/-- The trees hold every entry once. -/
theorem walk_children (h : Forest p.items) (hi : p.items[0]? = some i) :
    (walkAll (i.children.filterMap (ofId? p))).Perm
      (p.items.toList.filterMap Item.outlineEntry?) := by
  obtain ⟨n, hn⟩ := Nat.exists_eq_add_of_lt h.size_pos
  have hn : 1 + n = p.items.size := by omega
  have hfile : entryId? p 0 = none := by
    unfold entryId? ParsedFile.item?
    rw [hi]
    exact outlineEntry?_file ((h.file hi).2 rfl)
  have hroots : (List.range' 1 n).filter (isFoundBefore p 1)
      = (List.range' 1 n).filter (isFoundIn p 0) := by
    refine List.filter_congr fun j _ => ?_
    unfold isFoundBefore isFoundIn
    cases scopeOf? p j with
    | none => rfl
    | some s =>
        rw [Bool.eq_iff_iff]
        simp
  rw [walkAll_filterMap, ← filterMap_entryId?, List.range_eq_range', ← hn,
    Nat.add_comm 1 n, List.range'_succ, List.filterMap_cons, hfile]
  refine .trans (.flatMap_right _ ?_) (walk_roots h Nat.one_pos hn)
  rw [hroots]
  exact children_perm h hi hn

end Walking

-- ================================================================= building

section Building

variable {p : ParsedFile} {i : Item}

theorem mapM_eq_some {α β : Type} {f : α → Option β} {g : α → β} {xs : List α}
    (h : ∀ x ∈ xs, f x = some (g x)) : xs.mapM f = some (xs.map g) := by
  induction xs with
  | nil => rfl
  | cons x xs ih =>
      obtain ⟨hx, hxs⟩ := List.forall_mem_cons.1 h
      rw [List.mapM_cons, hx, ih hxs]
      rfl

/-- Going down comes to an end, since what is found in a scope stands after
it. -/
theorem build?_eq (h : Forest p.items) {depth id : Nat}
    (hi : p.items[id]? = some i) (hdepth : p.items.size ≤ id + depth) :
    build? p depth id = some (i.children.filterMap (ofId? p)) := by
  induction depth generalizing id i with
  | zero =>
      have hlt := (Array.getElem?_eq_some_iff.1 hi).1
      omega
  | succ depth ih =>
      have hchildren : p.children id = i.children.filterMap p.item? := by
        unfold ParsedFile.children
        rw [ParsedFile.item?, hi]
        rfl
      unfold build?
      rw [hchildren, mapM_eq_some (g := fun (child, entry) =>
        node entry (child.children.filterMap (ofId? p)))]
      · refine congrArg some ?_
        rw [List.map_filterMap, List.filterMap_filterMap]
        refine List.filterMap_congr fun c _ => ?_
        unfold ParsedFile.item?
        cases hc : p.items[c]? with
        | none => rw [ofId?_none h hc]; rfl
        | some j =>
            rw [ofId?_eq h hc, Option.bind_some, Option.map_map]
            rfl
      · rintro ⟨child, entry⟩ hmem
        obtain ⟨j, hj, he⟩ := List.mem_filterMap.1 hmem
        obtain ⟨c, hc, hget⟩ := List.mem_filterMap.1 hj
        obtain ⟨e, -, hpair⟩ := Option.map_eq_some_iff.1 he
        obtain ⟨rfl, rfl⟩ := Prod.mk.inj hpair
        have hlt := lt_of_mem_children h hi hc
        dsimp only
        split
        case isTrue =>
          rw [h.number hget, ih hget (by omega)]
          rfl
        case isFalse hscope =>
          rw [children_eq_nil h hget (Bool.eq_false_iff.2 hscope)]
          rfl

end Building

end Outline

open Outline

variable {steps : Nat} {env : Environment} {cache : TokenCache}
  {text : String} {path : Option String} {r : Parse.Result}

/-- The items of a parse are one tree with the file at its root. Only
owners have children, and from any item the scopes lead to the file. -/
theorem parse_outline (h : parse? steps env cache text path = some r) :
    Forest r.file.items
      ∧ (∀ (s : ItemId) (owner : Item), r.file.items[s]? = some owner →
          owner.children ≠ [] → owner.content.reportName ∈ owners)
      ∧ ∀ i : ItemId, i < r.file.items.size →
          Relation.ReflTransGen (ScopeOf r.file.items) i 0 := by
  obtain ⟨s, hs, rfl⟩ := Parse.Sound.parse h
  have hforest : Forest s.findings.items := hs.forest
  refine ⟨hforest, ?_, fun i hi => hforest.reaches_file hi⟩
  intro id owner hid hne
  exact hforest.owner_of_children hid hne

/-- A procedure within the file, with a call in it: three items. -/
theorem parse_outline_procedure :
    ∃ r, parse? 40 {} {} "PROCEDURE p:\n  RUN q.\nEND.\n" none = some r
      ∧ r.file.items.size = 3
      ∧ (r.file.items[1]?.map (·.children)) = some [2]
      ∧ Forest r.file.items
      ∧ Relation.ReflTransGen (ScopeOf r.file.items) 2 0 := by
  have hrun : ((parse? 40 {} {} "PROCEDURE p:\n  RUN q.\nEND.\n" none).map
      fun r => (r.file.items.size, r.file.items[1]?.map (·.children)))
      = some (3, some [2]) := by
    decide +kernel
  obtain ⟨r, hr, he⟩ := Option.map_eq_some_iff.1 hrun
  obtain ⟨hsize, hchildren⟩ := Prod.mk.inj he
  obtain ⟨hforest, -, hfile⟩ := parse_outline hr
  exact ⟨r, hr, hsize, hchildren, hforest, hfile 2 (by rw [hsize]; decide)⟩

/-- Going down from the file along the lists of children comes to an end, and
gives the outline of the parse. Its trees hold the entry of every item that has
one, each once, and no other. Below each entry, and at the top, are the entries
of what was found in that scope, in order. -/
theorem outline_of_parse (h : parse? steps env cache text path = some r) :
    (∃ depth, build? r.file depth 0 = some r.file.outline)
      ∧ (walkAll r.file.outline).Perm
        (r.file.items.toList.filterMap Item.outlineEntry?)
      ∧ Mirrors r.file 0 r.file.outline
      ∧ ∀ o, Within o r.file.outline →
        ∃ i ∈ r.file.items, i.outlineEntry? = some o.entry
          ∧ Mirrors r.file i.id o.children := by
  have hforest := parse_forest h
  obtain ⟨root, hi, -⟩ := hforest.isA_file
  have houtline : r.file.outline
      = root.children.filterMap (ofId? r.file) := by
    unfold ParsedFile.outline ParsedFile.root? ParsedFile.item?
    rw [hi]
    rfl
  rw [houtline]
  refine ⟨⟨r.file.items.size, build?_eq hforest hi (by omega)⟩,
    walk_children hforest hi, mirrors_children hforest hi, fun o ho => ?_⟩
  have htop : ∀ o ∈ root.children.filterMap (ofId? r.file),
      ofId? r.file o.entry.item = some o := by
    intro o ho
    obtain ⟨c, -, hc⟩ := List.mem_filterMap.1 ho
    obtain ⟨-, -, -, hitem, -⟩ := of_ofId? hforest hc
    rwa [hitem]
  obtain ⟨i, hget, hentry, -, hchildren⟩ :=
    of_ofId? hforest (ho.ofId? hforest htop)
  refine ⟨i, Array.mem_of_getElem? hget, hentry, ?_⟩
  rw [hchildren, hforest.number hget]
  exact mirrors_children hforest hget

/-- A procedure with a buffer, a variable and a call in it, and a call after
it. -/
private def procedureText : String :=
  "PROCEDURE p:\nDEFINE BUFFER b FOR bin.\nDEFINE VARIABLE i AS INTEGER.\n"
    ++ "RUN q.\nEND.\nRUN s.\n"

/-- The variable is left out, and the second call stands beside the
procedure. -/
theorem outline_of_parse_procedure :
    ∃ r, parse? 120 {} {} procedureText none = some r
      ∧ (walkAll r.file.outline).map (fun e => (e.name, e.item))
        = [("p", 1), ("b", 2), ("q", 4), ("s", 5)]
      ∧ (∃ depth, build? r.file depth 0 = some r.file.outline)
      ∧ (walkAll r.file.outline).Perm
        (r.file.items.toList.filterMap Item.outlineEntry?)
      ∧ Mirrors r.file 0 r.file.outline
      ∧ ∀ o, Within o r.file.outline →
        ∃ i ∈ r.file.items, i.outlineEntry? = some o.entry
          ∧ Mirrors r.file i.id o.children := by
  have hrun : (parse? 120 {} {} procedureText none).map (fun r =>
      (walkAll r.file.outline).map fun e => (e.name, e.item))
      = some [("p", 1), ("b", 2), ("q", 4), ("s", 5)] := by
    decide +kernel
  obtain ⟨r, hr, hwalk⟩ := Option.map_eq_some_iff.1 hrun
  exact ⟨r, hr, hwalk, outline_of_parse hr⟩

end AblOutline
