/-
The functions of a file. Whatever the text, a prototype is linked to functions
with a body and these to prototypes, of the same name but for case; of every
name that has both, the last prototype and the last function are linked to each
other; and a call is marked as declared where the function was put down before
it, on either side. Each deed of a statement keeps the table of functions true
to the items, and the preprocessing touches neither.
-/
import AblOutline.Proofs.Functions.Table
import AblOutline.Proofs.Layers
import Mathlib.Data.Nat.Find

namespace AblOutline

-- ==================================================================== deals

/-- What an item of that content has to do with its function. -/
def Item.Content.deal? : Item.Content → Option Deal
  | prototype p => some (.declares .prototype p.implementation)
  | implementation f => some (.declares .implementation f.prototype)
  | call declared _ => some (.calls declared)
  | _ => none

/-- What an item has to do with a function, and with which one. -/
def Item.deal? (i : Item) : Option (String × Deal) :=
  i.content.deal?.map (Text.lower i.name, ·)

/-- What the item of that number has. -/
def dealAt (items : Array Item) (k : ItemId) : Option (String × Deal) :=
  items[k]?.bind Item.deal?

section Items

variable {items : Array Item} {f : Item → Item} {id k : ItemId}

theorem dealAt_eq_none (h : items.size ≤ k) : dealAt items k = none := by
  unfold dealAt
  rw [Array.getElem?_eq_none h]
  rfl

theorem dealAt_modify_of_ne (h : id ≠ k) :
    dealAt (items.modify id f) k = dealAt items k := by
  unfold dealAt
  rw [Array.getElem?_modify, if_neg h]

/-- An item that is changed. -/
theorem dealAt_modify_self :
    dealAt (items.modify id f) id = items[id]?.bind fun i => (f i).deal? := by
  unfold dealAt
  rw [Array.getElem?_modify, if_pos rfl, Option.bind_map]
  rfl

theorem dealAt_modify (hf : ∀ i, (f i).deal? = i.deal?) :
    dealAt (items.modify id f) k = dealAt items k := by
  by_cases h : id = k
  · subst h
    rw [dealAt_modify_self]
    simp only [hf, dealAt]
  · exact dealAt_modify_of_ne h

theorem dealAt_push (i : Item) :
    dealAt (items.push i) k
      = if k = items.size then i.deal? else dealAt items k := by
  unfold dealAt
  rw [Array.getElem?_push]
  split <;> rfl

end Items

namespace Item

variable {content : Content}

/-- Plain items have nothing to do with functions. -/
theorem Content.deal?_of_isPlain (h : content.isPlain = true) :
    content.deal? = none := by
  cases content <;> first | rfl | cases h

/-- Nor has what directives and references find. -/
theorem Content.deal?_of_isPreprocessed (h : content.isPreprocessed = true) :
    content.deal? = none := by
  cases content <;> first | rfl | cases h

end Item

namespace Parse

theorem Amends.deal? {f : Item → Item} (h : Amends f) (i : Item) :
    (f i).deal? = i.deal? := by
  obtain ⟨hname, -, hcontent | ⟨hplain, hplain'⟩⟩ := h i
  · simp only [Item.deal?, hname, hcontent]
  · simp only [Item.deal?, Item.Content.deal?_of_isPlain hplain,
      Item.Content.deal?_of_isPlain hplain', Option.map_none]

section Links

variable {i : Item} {name : String} {link : Option ItemId}

theorem deal?_withPrototype (id : ItemId)
    (h : i.deal? = some (name, .declares .implementation link)) :
    (State.withPrototype id i).deal?
      = some (name, .declares .implementation (some id)) := by
  unfold State.withPrototype
  unfold Item.deal? at h ⊢
  cases hc : i.content <;> rw [hc] at h <;> cases h
  rfl

theorem deal?_withImplementation (id : ItemId)
    (h : i.deal? = some (name, .declares .prototype link)) :
    (State.withImplementation id i).deal?
      = some (name, .declares .prototype (some id)) := by
  unfold State.withImplementation
  unfold Item.deal? at h ⊢
  cases hc : i.content <;> rw [hc] at h <;> cases h
  rfl

end Links

-- =================================================================== states

namespace State

/-- The table of functions tells of the items found. -/
def Tabled (s : State) : Prop :=
  Parse.Tabled s.findings.items.size (dealAt s.findings.items)
    s.analysis.functions

variable {s s' : State}

theorem size_addItem (s : State) (name : String) (t : Token)
    (content : Item.Content) :
    (s.addItem name t content).findings.items.size
      = s.findings.items.size + 1 := by
  unfold addItem addItemIn
  cases s.scopeItem? with
  | none => exact Array.size_push _
  | some parent => exact (Array.size_modify ..).trans (Array.size_push _)

theorem dealAt_addItem (s : State) (name : String) (t : Token)
    (content : Item.Content) (k : ItemId) :
    dealAt (s.addItem name t content).findings.items k
      = if k = s.findings.items.size
        then content.deal?.map (Text.lower name, ·)
        else dealAt s.findings.items k := by
  unfold addItem addItemIn
  cases s.scopeItem? with
  | none => exact dealAt_push _
  | some parent =>
      exact (dealAt_modify (f := withChild _) fun _ => rfl).trans
        (dealAt_push _)

namespace Tabled

/-- An item that has nothing to do with functions. -/
theorem addItem (h : s.Tabled) (name : String) (t : Token)
    {content : Item.Content} (hc : content.deal? = none) :
    (s.addItem name t content).Tabled := by
  have hdeal : dealAt (s.addItem name t content).findings.items
      = dealAt s.findings.items := by
    funext k
    rw [dealAt_addItem, hc]
    split
    · rename_i hk
      exact (dealAt_eq_none (Nat.le_of_eq hk.symm)).symm
    · rfl
  unfold State.Tabled
  rw [hdeal, size_addItem]
  exact h.mono (Nat.le_succ _)

theorem modify (h : s.Tabled) (id : ItemId) {f : Item → Item}
    (hf : ∀ i, (f i).deal? = i.deal?) :
    State.Tabled { s with findings :=
      { s.findings with items := s.findings.items.modify id f } } := by
  have hdeal : dealAt (s.findings.items.modify id f)
      = dealAt s.findings.items := funext fun _ => dealAt_modify hf
  unfold State.Tabled
  dsimp only
  rw [hdeal, Array.size_modify]
  exact h

theorem addCall (h : s.Tabled) (name : String) (t : Token) (dynamic : Bool) :
    (s.addCall name t dynamic).Tabled := by
  have hdeal := dealAt_addItem s name t
    (.call (s.function? name).isSome dynamic)
  have hnew := hdeal s.findings.items.size
  rw [if_pos rfl] at hnew
  unfold State.Tabled State.addCall
  rw [size_addItem]
  refine Parse.Tabled.calling h hnew fun k hk => ?_
  rw [hdeal, if_neg hk]

/-- A function is put down on a side, and the last item of the other side is
linked to it. -/
theorem declare (h : s.Tabled) (name : String) (t : Token) (side : Side)
    {content : Item.Content} {f : Item → Item} {next : State → Outcome}
    (hcontent : content.deal? = some (.declares side
      ((entryOf s.analysis.functions (Text.lower name)).of side.other)))
    (hf : ∀ i n link, i.deal? = some (n, .declares side.other link) →
      (f i).deal? = some (n, .declares side.other (some s.nextItem)))
    (hnext : ∀ u : State,
      (next u).state.findings.items = u.findings.items
        ∧ (next u).state.analysis.functions = (Text.lower name,
          (entryOf s.analysis.functions (Text.lower name)).set s.nextItem side)
          :: u.analysis.functions) :
    ((s.addItem name t content).changing
      ((entryOf s.analysis.functions (Text.lower name)).of side.other)
      f next).state.Tabled := by
  have hadd := dealAt_addItem s name t content
  have hsize := size_addItem s name t content
  unfold State.changing State.changeItem?
  cases hold : (entryOf s.analysis.functions (Text.lower name)).of
      side.other with
  | none =>
      -- nothing is on the other side yet
      obtain ⟨hitems, hfunctions⟩ := hnext (s.addItem name t content)
      unfold State.Tabled
      dsimp only
      rw [hitems, hfunctions, hsize]
      refine Parse.Tabled.declared h ⟨?_, fun k hk => ?_, fun k hk _ => ?_⟩
      · rw [hadd, if_pos rfl, hcontent]
        rfl
      · rw [hold] at hk
        cases hk
      · rw [hadd, if_neg hk]
  | some id =>
      -- the last item of the other side is there to be linked: the table is
      -- true to the items
      have hid := (h.entry _ _ id).1 hold
      have hlt := h.lt_of_declares hid.1
      obtain ⟨⟨link, hdeal⟩, -⟩ := hid
      dsimp only
      rw [if_pos (hsize ▸ Nat.lt_succ_of_lt hlt)]
      obtain ⟨hitems, hfunctions⟩ := hnext _
      unfold State.Tabled
      dsimp only
      rw [hitems, hfunctions, Array.size_modify, hsize]
      refine Parse.Tabled.declared h ⟨?_, fun k hk => ?_, fun k hk hne => ?_⟩
      · rw [dealAt_modify_of_ne (Nat.ne_of_lt hlt), hadd, if_pos rfl, hcontent]
        rfl
      · obtain rfl : id = k := Option.some.inj (hold.symm.trans hk)
        have hat : dealAt (s.addItem name t content).findings.items id
            = some (Text.lower name, .declares side.other link) := by
          rw [hadd, if_neg (Nat.ne_of_lt hlt), hdeal]
        obtain ⟨i, hi, hlink⟩ := Option.bind_eq_some_iff.1 hat
        rw [dealAt_modify_self, hi]
        exact hf i _ link hlink
      · rw [hold] at hne
        rw [dealAt_modify_of_ne fun he => hne (congrArg some he), hadd,
          if_neg hk]

/-- The scope of a function adds nothing to its items. -/
theorem openRoutine_functions (s : State) (item : ItemId) (kind : RoutineKind)
    (keyword : String) (t : Token) :
    (s.openRoutine item kind keyword t).findings.items = s.findings.items
      ∧ (s.openRoutine item kind keyword t).analysis.functions
        = s.analysis.functions := by
  unfold openRoutine
  dsimp only
  split <;> exact ⟨rfl, rfl⟩

/-- Every deed of a statement. -/
theorem deed (h : s.Tabled) (hd : Deed s s') : s'.Tabled := by
  cases hd with
  | found name t content hc =>
      exact h.addItem name t (Item.Content.deal?_of_isPlain hc)
  | called name t dynamic => exact h.addCall name t dynamic
  | prototype head =>
      exact h.declare head.name head.nameToken .prototype rfl
        (fun _ _ _ => deal?_withPrototype _) fun _ => ⟨rfl, rfl⟩
  | implementation head =>
      refine h.declare head.name head.nameToken .implementation rfl
        (fun _ _ _ => deal?_withImplementation _) fun u => ?_
      exact openRoutine_functions _ _ _ _ head.opener
  | rewrote id f hf => exact h.modify id hf.deal?
  | faulted fault t line depth => exact h
  | nested nesting hn => exact h
  | noted a ha =>
      unfold State.Tabled
      rw [ha]
      exact h

/-- Every pace of two parses, in the first one. -/
theorem pace {u u' : State} (h : s.Tabled) (hp : Pace (s, s') (u, u')) :
    u.Tabled := by
  cases hp with
  | read _ _ source => exact h
  | found _ _ name t content hc =>
      exact h.addItem name t (Item.Content.deal?_of_isPreprocessed hc)
  | branched _ _ n n' hn => exact h
  | lineEnded _ _ line => exact h
  | left hd => exact h.deed hd
  | right _ hd => exact h

theorem paces (h : s.Tabled) {p : State × State} (hp : Paces (s, s') p) :
    p.1.Tabled := by
  induction hp with
  | refl => exact h
  | tail _ hp ih => exact ih.pace hp

/-- At first there is the file alone. -/
theorem opened (cache : TokenCache) (text : String) (path : Option String) :
    (State.opened cache text path).Tabled := by
  refine Parse.Tabled.nothing fun k => ?_
  refine (dealAt_push _).trans ?_
  split <;> rfl

/-- At the end of a parse, the table tells of all items. -/
theorem parse {steps : Nat} {env : Environment} {cache : TokenCache}
    {text : String} {path : Option String} {r : Result}
    (h : parse? steps env cache text path = some r) :
    ∃ s : State, s.Tabled ∧ r = .ofState env.options s := by
  obtain ⟨s, hs, rfl⟩ := Option.map_eq_some_iff.1 h
  refine ⟨s.finish env, ?_, rfl⟩
  rcases rel_cases (parse_together env env.directory
      env.options.matchKnownWords steps cache text path)
    with ⟨hx, -⟩ | ⟨u, u', hx, -, hp⟩
  · rw [hs] at hx
    cases hx
  · rw [hs] at hx
    obtain rfl := Option.some.inj hx
    exact (State.Tabled.opened cache text path).paces hp

end Tabled

end State

end Parse

-- =================================================================== files

namespace ParsedFile

variable {p : ParsedFile} {name : String} {side : Side} {link : Option ItemId}
  {id : ItemId}

/-- The item of that number puts the function of that name down, on that side
and with that link to the other. -/
def Declares (p : ParsedFile) (name : String) (side : Side)
    (link : Option ItemId) (id : ItemId) : Prop :=
  ∃ i, p.item? id = some i ∧ Text.same i.name name = true
    ∧ i.content.deal? = some (.declares side link)

/-- It is the last one that does on that side. -/
def IsLast (p : ParsedFile) (name : String) (side : Side) (id : ItemId) :
    Prop :=
  (∃ link, p.Declares name side link id)
    ∧ ∀ j link, p.Declares name side link j → j ≤ id

theorem declares_iff : p.Declares name side link id
    ↔ dealAt p.items id = some (Text.lower name, .declares side link) := by
  unfold Declares dealAt Item.deal? item? Text.same
  constructor
  · rintro ⟨i, hi, hname, hdeal⟩
    rw [hi, Option.bind_some, hdeal, beq_iff_eq.1 hname]
    rfl
  · intro h
    obtain ⟨i, hi, hdeal⟩ := Option.bind_eq_some_iff.1 h
    obtain ⟨d, hd, he⟩ := Option.map_eq_some_iff.1 hdeal
    obtain ⟨hname, rfl⟩ := Prod.mk.inj he
    exact ⟨i, hi, beq_iff_eq.2 hname, hd⟩

theorem isLast_iff : p.IsLast name side id
    ↔ Parse.IsLast (dealAt p.items) (Text.lower name) side id := by
  unfold IsLast Parse.IsLast Parse.Declares
  simp only [declares_iff, forall_exists_index]

open Classical in
/-- Of the items that put a function down on a side, there is a last one. -/
theorem exists_isLast (h : p.Declares name side link id) :
    ∃ k, p.IsLast name side k := by
  let size := p.items.size
  let found := fun k => ∃ link, p.Declares name side link k
  have hle : ∀ {k}, found k → k ≤ size := by
    rintro k ⟨link, i, hi, -⟩
    exact Nat.le_of_lt (Array.getElem?_eq_some_iff.1 hi).1
  have hfound : found id := ⟨link, h⟩
  refine ⟨Nat.findGreatest found size,
    Nat.findGreatest_spec (hle hfound) hfound, fun j link hj => ?_⟩
  have hj : found j := ⟨link, hj⟩
  exact Nat.le_findGreatest (hle hj) hj

end ParsedFile

variable {steps : Nat} {env : Environment} {cache : TokenCache}
  {text : String} {path : Option String} {r : Parse.Result}

/-- The functions of a file by name. A link leads to an item of the same name
on the other side; the last items of a name on both sides, where there are
such, are linked to each other; and a call is marked as declared just where an
item before it puts its function down. -/
theorem parse_functions (h : parse? steps env cache text path = some r) :
    (∀ name side id target, r.file.Declares name side (some target) id →
        ∃ link, r.file.Declares name side.other link target)
      ∧ (∀ name, (∃ id link, r.file.Declares name .prototype link id) →
          (∃ id link, r.file.Declares name .implementation link id) →
          ∃ p q, r.file.IsLast name .prototype p
            ∧ r.file.IsLast name .implementation q
            ∧ r.file.Declares name .prototype (some q) p
            ∧ r.file.Declares name .implementation (some p) q)
      ∧ ∀ id i declared dynamic, r.file.item? id = some i →
          i.content = .call declared dynamic →
          (declared = true ↔
            ∃ j < id, ∃ side link, r.file.Declares i.name side link j) := by
  obtain ⟨s, hs, rfl⟩ := Parse.State.Tabled.parse h
  refine ⟨?linked, ?paired, ?called⟩
  case linked =>
    intro name side id target hlink
    obtain ⟨link, hother⟩ :=
      hs.linked id _ side target (ParsedFile.declares_iff.1 hlink)
    exact ⟨link, ParsedFile.declares_iff.2 hother⟩
  case paired =>
    rintro name ⟨id, link, hid⟩ ⟨id', link', hid'⟩
    obtain ⟨p, hp⟩ := ParsedFile.exists_isLast hid
    obtain ⟨q, hq⟩ := ParsedFile.exists_isLast hid'
    have hp' := ParsedFile.isLast_iff.1 hp
    have hq' := ParsedFile.isLast_iff.1 hq
    exact ⟨p, q, hp, hq,
      ParsedFile.declares_iff.2 (hs.paired _ .prototype p q hp' hq'),
      ParsedFile.declares_iff.2 (hs.paired _ .implementation q p hq' hp')⟩
  case called =>
    intro id i declared dynamic hi hcontent
    have hcall : dealAt s.findings.items id
        = some (Text.lower i.name, .calls declared) := by
      have hi : s.findings.items[id]? = some i := hi
      unfold dealAt Item.deal?
      rw [hi, Option.bind_some, hcontent]
      rfl
    rw [hs.called id _ declared hcall]
    simp only [ParsedFile.declares_iff]
    rfl

/-- A prototype and a function of the same name, called before and after. -/
def forwardText : String :=
  "f(1).\n" ++ "FUNCTION f RETURNS INT FORWARD.\n"
    ++ "FUNCTION F RETURNS INT:\nEND.\n" ++ "f(2).\n"

/-- The two are linked, and the second call alone is of a declared function. -/
theorem parse_functions_forward :
    ∃ r, parse? 80 {} {} forwardText none = some r
      ∧ r.file.items.toList.map Item.deal?
        = [none, some ("f", .calls false),
          some ("f", .declares .prototype (some 3)),
          some ("f", .declares .implementation (some 2)),
          some ("f", .calls true)]
      ∧ (∃ link, r.file.Declares "f" .implementation link 3)
      ∧ ∃ p q, r.file.IsLast "f" .prototype p
        ∧ r.file.IsLast "f" .implementation q
        ∧ r.file.Declares "f" .prototype (some q) p
        ∧ r.file.Declares "f" .implementation (some p) q := by
  have hrun : ((parse? 80 {} {} forwardText none).map fun r =>
      r.file.items.toList.map Item.deal?)
      = some [none, some ("f", .calls false),
          some ("f", .declares .prototype (some 3)),
          some ("f", .declares .implementation (some 2)),
          some ("f", .calls true)] := by
    decide +kernel
  obtain ⟨r, hr, hdeals⟩ := Option.map_eq_some_iff.1 hrun
  obtain ⟨hlinked, hpaired, -⟩ := parse_functions hr
  have hat : ∀ k, dealAt r.file.items k
      = (r.file.items.toList.map Item.deal?)[k]?.join := fun k => by
    unfold dealAt
    rw [List.getElem?_map, Array.getElem?_toList]
    cases r.file.items[k]? <;> rfl
  have hprototype : r.file.Declares "f" .prototype (some 3) 2 := by
    rw [ParsedFile.declares_iff, hat, hdeals]
    decide
  obtain ⟨link, hbody⟩ := hlinked "f" .prototype 2 3 hprototype
  exact ⟨r, hr, hdeals, ⟨link, hbody⟩,
    hpaired "f" ⟨2, _, hprototype⟩ ⟨3, link, hbody⟩⟩

end AblOutline
