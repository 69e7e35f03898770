/-
Definitions as nested environments. A definition stands in one file or
everywhere. The first file of a chain sees its own definitions, those of the
files that include it, and behind all of them those that stand everywhere:

    chain      inner.i     outer.i     main.p
    places   [ inner.i  ,  outer.i  ,  main.p  ,  everywhere ]
    x             -          "2"         "1"          "0"

From here `x` is "2". Taking `x` back from here takes that one back, and then
`x` is "1".

What stands at each place is told without any list of entries: an act puts
something there, takes back what is seen, or leaves it (`Standing.after`). So it
stands there if an act put it there and none since has ended that
(`Standing.of_iff`). An act does to the entries what it does to what stands
(`Holds.act`), hence the entries hold what stands after any acts, and all that
is asked of them follows (`Holds.nested`).

A reference and `DEFINED` look through the same layers, arguments before
definitions, and so agree on every name that is no form of arguments and not
built in (`nested_run`).
-/
import AblOutline.Parse.Expansion
import AblOutline.Proofs.Entries
import Mathlib.Data.List.Basic
import Mathlib.Data.List.Induction

namespace AblOutline

namespace Preprocess

-- ================================================================ places

/-- Where a definition stands. -/
inductive Place where
  | inFile (owner : Nat)
  | everywhere
deriving DecidableEq, Repr

namespace Place

def origin : Place → Origin
  | .inFile _ => .scoped
  | .everywhere => .global

/-- The places that the first file of `chain` sees, the nearest first. -/
def seenFrom (chain : List Nat) : List Place := chain.map .inFile ++ [.everywhere]

end Place

namespace Definitions

/-- What `place` gives `name`. -/
def value? (d : Definitions) : Place → String → Option String
  | .inFile owner, name => d.scoped? owner name
  | .everywhere, name => d.global? name

/-- Gives `name` a value at `place`. -/
def define (d : Definitions) : Place → String → String → Definitions
  | .inFile owner, name, value => d.defineScoped owner name value
  | .everywhere, name, value => d.defineGlobal name value

/-- The nearest place that gives `name` a value. -/
def place? (d : Definitions) (name : String) (chain : List Nat) : Option Place :=
  (Place.seenFrom chain).find? fun p => (d.value? p name).isSome

/-- Looks for `name` file by file and takes back the first definition there is;
tells whether there was one. -/
def takeBack (d : Definitions) (name : String) : List Nat → Bool × Definitions
  | [] =>
    ((d.global? name).isSome,
      { d with everywhere := d.everywhere.filter (·.1 != Text.lower name) })
  | owner :: chain =>
    if (d.scoped? owner name).isSome then
      (true, { d with inFiles := d.inFiles.filter (·.1 != (owner, Text.lower name)) })
    else d.takeBack name chain

variable (d : Definitions) (name : String) (chain : List Nat)

theorem value?_define (place : Place) (value : String) (q : Place) (n : String) :
    (d.define place name value).value? q n =
      if q = place ∧ Text.lower n = Text.lower name then some value
      else d.value? q n := by
  cases place with
  | inFile owner =>
      cases q with
      | inFile o =>
          simp only [Place.inFile.injEq]
          exact d.scoped?_defineScoped owner name value o n
      | everywhere =>
          rw [if_neg (fun h => nomatch h.1)]
          exact d.global?_defineScoped owner name value n
  | everywhere =>
      cases q with
      | inFile o =>
          rw [if_neg (fun h => nomatch h.1)]
          exact d.scoped?_defineGlobal name value o n
      | everywhere =>
          simp only [true_and]
          exact d.global?_defineGlobal name value n

theorem place?_eq : d.place? name chain =
    ((d.definer? name chain).map .inFile).or
      (if (d.global? name).isSome then some .everywhere else none) := by
  unfold place? Place.seenFrom definer?
  rw [List.find?_append, List.find?_map, List.find?_singleton]
  rfl

/-- The loop finds what the search of the nearest place finds. -/
theorem takeBack_eq :
    d.takeBack name chain = (d.defines name chain, d.undefine name chain) := by
  induction chain with
  | nil =>
      simp [takeBack, defines, lookup, undefine, definer?]
  | cons owner chain ih =>
      unfold takeBack
      cases h : d.scoped? owner name with
      | some value =>
          simp [defines, lookup, undefine, definer?, h]
      | none =>
          simp only [Option.isSome_none, Bool.false_eq_true, if_false, ih]
          simp [defines, lookup, undefine, definer?, h]

/-- A name is looked up place by place. -/
theorem lookup_eq : d.lookup name chain =
    (Place.seenFrom chain).findSome? fun p =>
      (d.value? p name).map (·, p.origin) := by
  unfold lookup Place.seenFrom
  rw [List.findSome?_append, List.findSome?_map]
  have hscoped : chain.findSome? ((fun p => (d.value? p name).map (·, p.origin))
        ∘ Place.inFile)
      = (chain.findSome? (d.scoped? · name)).map (·, Origin.scoped) := by
    rw [List.map_findSome?]
    rfl
  rw [hscoped, List.findSome?_singleton]
  cases chain.findSome? (d.scoped? · name) <;> rfl

/-- What is taken back is what the nearest place gives, and nothing else. -/
theorem value?_undefine (q : Place) (n : String) :
    (d.undefine name chain).value? q n =
      if d.place? name chain = some q ∧ Text.lower n = Text.lower name then none
      else d.value? q n := by
  rw [place?_eq]
  unfold undefine
  cases d.definer? name chain with
  | some owner =>
      cases q with
      | inFile o =>
          show List.lookup (o, Text.lower n) (d.inFiles.filter _) = _
          rw [lookup_filter_bne]
          simp only [Prod.mk.injEq, Option.map_some, Option.some_or,
            Option.some.injEq, Place.inFile.injEq, eq_comm (a := o)]
          rfl
      | everywhere =>
          rw [if_neg (by simp)]
          rfl
  | none =>
      cases q with
      | inFile o =>
          rw [if_neg (by split <;> simp)]
          rfl
      | everywhere =>
          show List.lookup (Text.lower n) (d.everywhere.filter _) = _
          rw [lookup_filter_bne]
          by_cases hn : Text.lower n = Text.lower name
          · have hvalue : d.value? .everywhere n = d.global? name :=
              congrArg (List.lookup · d.everywhere) hn
            rw [if_pos hn, hvalue]
            cases d.global? name <;> simp [hn]
          · rw [if_neg hn, if_neg (fun h => hn h.2)]
            rfl

-- ================================================================== acts

/-- What can be done to the definitions. -/
inductive Act where
  | define (place : Place) (name value : String)
  | undefine (name : String) (chain : List Nat)

/-- The definitions after one more act. -/
def act (d : Definitions) : Act → Definitions
  | .define place name value => d.define place name value
  | .undefine name chain => (d.takeBack name chain).2

/-- The definitions after some acts, from none. -/
def run (acts : List Act) : Definitions := acts.foldl act {}

theorem run_concat (acts : List Act) (a : Act) :
    run (acts ++ [a]) = (run acts).act a := by
  rw [run, List.foldl_append]
  rfl

-- ======================================================= what stands

/-- What stands at each place under each name, whatever the case of names. -/
abbrev Standing := Place → String → String → Prop

namespace Standing

/-- `place` is the nearest one at which something stands under `name`, and
`value` is what stands there. -/
def Sees (stands : Standing) (chain : List Nat) (name : String) (place : Place)
    (value : String) : Prop :=
  ∃ nearer farther, Place.seenFrom chain = nearer ++ place :: farther
    ∧ stands place name value
    ∧ ∀ p ∈ nearer, ∀ v, ¬ stands p name v

/-- An act ends what stands at `place` under `name`: it puts something else
there, or takes back what it sees there. -/
def Ends (stands : Standing) (place : Place) (name : String) : Act → Prop
  | .define p n _ => p = place ∧ Text.same n name = true
  | .undefine n chain =>
    (∃ value, stands.Sees chain n place value) ∧ Text.same n name = true

/-- What stands after one more act. -/
def after (stands : Standing) (a : Act) : Standing := fun place name value =>
  (∃ n, a = .define place n value ∧ Text.same n name = true)
    ∨ stands place name value ∧ ¬ stands.Ends place name a

/-- What stands after some acts, from nothing. -/
def of (acts : List Act) : Standing := acts.foldl after fun _ _ _ => False

variable {acts : List Act} {place : Place} {name value : String}

theorem of_concat (acts : List Act) (a : Act) : of (acts ++ [a]) = (of acts).after a := by
  rw [of, List.foldl_append]
  rfl

/-- What stands is what an act put there, where no later one ended that. -/
theorem of_iff : of acts place name value ↔
    ∃ before n later, acts = before ++ .define place n value :: later
      ∧ Text.same n name = true
      ∧ ∀ earlier a rest, later = earlier ++ a :: rest →
        ¬ (of (before ++ .define place n value :: earlier)).Ends place name a := by
  induction acts using List.reverseRecOn with
  | nil => exact ⟨nofun, fun ⟨before, n, later, h, _⟩ => by simp at h⟩
  | append_singleton acts a ih =>
      rw [of_concat, after, ih]
      constructor
      · rintro (⟨n, rfl, hn⟩ | ⟨⟨before, n, later, rfl, hn, hkept⟩, hends⟩)
        · exact ⟨acts, n, [], rfl, hn, fun earlier a rest h => by simp at h⟩
        · refine ⟨before, n, later ++ [a], by simp, hn, fun earlier b rest h => ?_⟩
          rcases List.eq_nil_or_concat' rest with rfl | ⟨rest, c, rfl⟩
          · obtain ⟨rfl, hlast⟩ := List.append_inj' h rfl
            obtain rfl := List.head_eq_of_cons_eq hlast
            exact hends
          · rw [← List.cons_append, ← List.append_assoc] at h
            exact hkept earlier b rest (List.append_inj' h rfl).1
      · rintro ⟨before, n, later, hacts, hn, hkept⟩
        rcases List.eq_nil_or_concat' later with rfl | ⟨later, b, rfl⟩
        · obtain ⟨-, hlast⟩ := List.append_inj' hacts rfl
          exact .inl ⟨n, List.head_eq_of_cons_eq hlast, hn⟩
        · rw [← List.cons_append, ← List.append_assoc] at hacts
          obtain ⟨rfl, hlast⟩ := List.append_inj' hacts rfl
          obtain rfl := List.head_eq_of_cons_eq hlast
          refine .inr ⟨⟨before, n, later, rfl, hn, fun earlier b rest h => ?_⟩, ?_⟩
          · exact hkept earlier b (rest ++ [a]) (by simp [h])
          · exact hkept later a [] rfl

end Standing

-- ============================================================= refinement

/-- The entries hold just what stands. -/
def Holds (d : Definitions) (stands : Standing) : Prop :=
  ∀ place name value, d.value? place name = some value ↔ stands place name value

namespace Holds

variable {d : Definitions} {stands : Standing} {chain : List Nat} {name : String}
  {place : Place} {value : String} {origin : Origin}

theorem value?_eq_none (h : d.Holds stands) :
    d.value? place name = none ↔ ∀ v, ¬ stands place name v := by
  simp only [Option.eq_none_iff_forall_ne_some, ne_eq, h place name]

/-- The nearest place with a value is the one whose definition is seen. -/
theorem place?_eq_some (h : d.Holds stands) :
    d.place? name chain = some place ↔ ∃ value, stands.Sees chain name place value := by
  rw [place?, List.find?_eq_some_iff_append]
  simp only [Standing.Sees, Option.isSome_iff_exists, h place name, Bool.not_eq_true',
    Option.isSome_eq_false_iff, Option.isNone_iff_eq_none, h.value?_eq_none]
  constructor
  · rintro ⟨⟨value, hvalue⟩, nearer, farther, hplaces, hnearer⟩
    exact ⟨value, nearer, farther, hplaces, hvalue, hnearer⟩
  · rintro ⟨value, nearer, farther, hplaces, hvalue, hnearer⟩
    exact ⟨⟨value, hvalue⟩, nearer, farther, hplaces, hnearer⟩

theorem lookup_eq_some (h : d.Holds stands) :
    d.lookup name chain = some (value, origin) ↔
      ∃ place, place.origin = origin ∧ stands.Sees chain name place value := by
  rw [lookup_eq, List.findSome?_eq_some_iff]
  simp only [Option.map_eq_some_iff, Option.map_eq_none_iff, Prod.mk.injEq, h.value?_eq_none,
    h _ name]
  constructor
  · rintro ⟨nearer, place, farther, hplaces, ⟨_, hvalue, rfl, rfl⟩, hnearer⟩
    exact ⟨place, rfl, nearer, farther, hplaces, hvalue, hnearer⟩
  · rintro ⟨place, rfl, nearer, farther, hplaces, hvalue, hnearer⟩
    exact ⟨nearer, place, farther, hplaces, ⟨value, hvalue, rfl, rfl⟩, hnearer⟩

theorem lookup_eq_none (h : d.Holds stands) :
    d.lookup name chain = none ↔
      ∀ p ∈ Place.seenFrom chain, ∀ v, ¬ stands p name v := by
  rw [lookup_eq, List.findSome?_eq_none_iff]
  simp only [Option.map_eq_none_iff, h.value?_eq_none]

/-- An act does to the entries what it does to what stands. -/
theorem act (h : d.Holds stands) (a : Act) : (d.act a).Holds (stands.after a) := by
  intro place name value
  rw [Standing.after, ← h]
  cases a with
  | define p n v =>
      show (d.define p n v).value? place name = some value ↔ _
      rw [value?_define]
      by_cases hends : place = p ∧ Text.lower name = Text.lower n
      · obtain ⟨rfl, hn⟩ := hends
        rw [if_pos ⟨rfl, hn⟩]
        simp [Standing.Ends, Text.same, hn]
      · have hkept : ¬ (p = place ∧ Text.same n name = true) :=
          fun ⟨hp, hn⟩ => hends ⟨hp.symm, (beq_iff_eq.1 hn).symm⟩
        have hother : ¬ ∃ m, Act.define p n v = .define place m value
            ∧ Text.same m name = true := by
          rintro ⟨m, hm, hsame⟩
          cases hm
          exact hkept ⟨rfl, hsame⟩
        rw [if_neg hends]
        simp only [hother, Standing.Ends, hkept, false_or, not_false_eq_true, and_true]
  | undefine n chain =>
      have hends : stands.Ends place name (.undefine n chain) ↔
          d.place? n chain = some place ∧ Text.lower name = Text.lower n :=
        and_congr h.place?_eq_some.symm (beq_iff_eq.trans eq_comm)
      show (d.takeBack n chain).2.value? place name = some value ↔ _
      rw [takeBack_eq, value?_undefine, hends]
      split
      · simp [*]
      · simp [*]

/-- The entries hold what the acts have left standing. -/
theorem run (acts : List Act) : (Definitions.run acts).Holds (Standing.of acts) := by
  induction acts using List.reverseRecOn with
  | nil =>
      intro place name value
      cases place <;> exact ⟨nofun, nofun⟩
  | append_singleton acts a ih =>
      rw [run_concat, Standing.of_concat]
      exact ih.act a

end Holds

/-- The entries behave as environments that are nested along a chain, where
`stands` tells what is in force at each place. -/
structure Nested (d : Definitions) (stands : Standing) : Prop where
  value : ∀ place name value, d.value? place name = some value ↔ stands place name value
  /-- The nearest place where something stands gives the value. -/
  lookup : ∀ chain name value origin, d.lookup name chain = some (value, origin) ↔
    ∃ place, place.origin = origin ∧ stands.Sees chain name place value
  /-- Without such a place there is none. -/
  nothing : ∀ chain name, d.lookup name chain = none ↔
    ∀ p ∈ Place.seenFrom chain, ∀ v, ¬ stands p name v
  /-- Taking back succeeds where there is something to see. -/
  found : ∀ chain name,
    (d.takeBack name chain).1 = true ↔ (d.lookup name chain).isSome = true
  /-- What was seen is gone, in whatever case its name is given. -/
  taken : ∀ chain name place value, stands.Sees chain name place value →
    ∀ n, Text.same n name = true → (d.takeBack name chain).2.value? place n = none
  /-- All else is as before. -/
  kept : ∀ chain name place n,
    ¬ (Text.same n name = true ∧ ∃ value, stands.Sees chain name place value) →
    (d.takeBack name chain).2.value? place n = d.value? place n

theorem Holds.nested {d : Definitions} {stands : Standing} (h : d.Holds stands) :
    d.Nested stands where
  value := h
  lookup _ _ _ _ := h.lookup_eq_some
  nothing _ _ := h.lookup_eq_none
  found chain name := by
    rw [takeBack_eq]
    exact Iff.rfl
  taken chain name place value hsees n hn := by
    rw [takeBack_eq, value?_undefine,
      if_pos ⟨h.place?_eq_some.2 ⟨value, hsees⟩, beq_iff_eq.1 hn⟩]
  kept chain name place n hkept := by
    rw [takeBack_eq, value?_undefine,
      if_neg fun hends => hkept ⟨beq_iff_eq.2 hends.2, h.place?_eq_some.1 hends.1⟩]

end Definitions

end Preprocess

-- ================================================================ layers

namespace Parse

open Preprocess Definitions

namespace Source

variable {s : Source} {owner : Nat} {name value : String} {level : Nat}

/-- The named argument that file `o` was included with. -/
def given? (s : Source) (o : Nat) (name : String) : Option String :=
  (s.chain.get? o).bind (·.arguments.argument? name)

/-- What `name` is in file `owner`, and on which level: the argument of the
nearest file of its lineage that was given one; without any the definition in
the nearest file that has one; without any the one that stands everywhere. -/
inductive Shows (s : Source) (owner : Nat) (name : String) : Nat → String → Prop
  | argument {nearer farther : List Nat} {o : Nat} {value : String}
      (hlineage : s.chain.lineage owner = nearer ++ o :: farther)
      (hnearer : ∀ p ∈ nearer, s.given? p name = none)
      (hvalue : s.given? o name = some value) : Shows s owner name 3 value
  | inFile {nearer farther : List Nat} {o : Nat} {value : String}
      (hgiven : ∀ p ∈ s.chain.lineage owner, s.given? p name = none)
      (hlineage : s.chain.lineage owner = nearer ++ o :: farther)
      (hnearer : ∀ p ∈ nearer, s.definitions.scoped? p name = none)
      (hvalue : s.definitions.scoped? o name = some value) : Shows s owner name 2 value
  | everywhere {value : String}
      (hgiven : ∀ p ∈ s.chain.lineage owner, s.given? p name = none)
      (hscoped : ∀ p ∈ s.chain.lineage owner, s.definitions.scoped? p name = none)
      (hvalue : s.definitions.global? name = some value) : Shows s owner name 1 value

/-- What a name that is no form of arguments is by the three layers: the value,
with where it comes from. -/
def layered? (s : Source) (owner : Nat) (name : String) : Option (String × Origin) :=
  ((s.chain.argument? name owner).map (·, .argument)).or
    (s.definitions.lookup name (s.chain.lineage owner))

theorem definedLevel_eq :
    s.definedLevel name owner = ((s.layered? owner name).map (·.2.level)).getD 0 := by
  unfold definedLevel layered?
  cases s.chain.argument? name owner <;> rfl

/-- A name of digits is the only one, but for the asterisks, that stands for
arguments by its form. -/
theorem argumentByForm?_eq_none {file : ChainFile} (hall : name ≠ "*")
    (hnamed : name ≠ "&*")
    (hdigits : ¬ (name ≠ "" ∧ name.toList.all Char.isDigit = true)) :
    argumentByForm? file name = none := by
  have hzero : name ≠ "0" := by
    rintro rfl
    exact hdigits (by decide)
  rw [argumentByForm?, if_neg hall, if_neg hnamed, if_neg hzero, if_neg hdigits]

theorem referenceValue?_eq {platform : Platform} {t : Token} {file : ChainFile}
    (hfile : s.chain.get? t.owner = some file) (hform : argumentByForm? file name = none)
    (hbuiltin : Builtin.ofName? name = none) :
    s.referenceValue? platform name t = (s.layered? t.owner name).map (·.1) := by
  unfold referenceValue? meaning? layered?
  simp only [hfile, Option.bind_eq_bind, Option.bind_some, hform, hbuiltin]
  cases s.chain.argument? name t.owner with
  | some value => rfl
  | none =>
      cases s.definitions.lookup name (s.chain.lineage t.owner) with
      | some found => rfl
      | none => rfl

theorem argument?_eq_none : s.chain.argument? name owner = none ↔
    ∀ p ∈ s.chain.lineage owner, s.given? p name = none :=
  List.findSome?_eq_none_iff

/-- The layers are looked through in their order. -/
theorem shows_iff : s.Shows owner name level value ↔
    ∃ origin, s.layered? owner name = some (value, origin) ∧ origin.level = level := by
  constructor
  · intro h
    cases h with
    | argument hlineage hnearer hvalue =>
        have hgiven : s.chain.argument? name owner = some value :=
          List.findSome?_eq_some_iff.2 ⟨_, _, _, hlineage, hvalue, hnearer⟩
        exact ⟨.argument, by simp [layered?, hgiven], rfl⟩
    | inFile hgiven hlineage hnearer hvalue =>
        have hscoped : (s.chain.lineage owner).findSome? (s.definitions.scoped? · name)
            = some value :=
          List.findSome?_eq_some_iff.2 ⟨_, _, _, hlineage, hvalue, hnearer⟩
        exact ⟨.scoped,
          by simp [layered?, argument?_eq_none.2 hgiven, lookup, hscoped], rfl⟩
    | everywhere hgiven hscoped hvalue =>
        have hnone : (s.chain.lineage owner).findSome? (s.definitions.scoped? · name)
            = none := List.findSome?_eq_none_iff.2 hscoped
        exact ⟨.global,
          by simp [layered?, argument?_eq_none.2 hgiven, lookup, hnone, hvalue], rfl⟩
  · rintro ⟨origin, h, rfl⟩
    unfold layered? at h
    cases hargument : s.chain.argument? name owner with
    | some given =>
        rw [hargument] at h
        cases h
        obtain ⟨_, _, _, hlineage, hvalue, hnearer⟩ :=
          List.findSome?_eq_some_iff.1 hargument
        exact .argument hlineage hnearer hvalue
    | none =>
        have hgiven := argument?_eq_none.1 hargument
        rw [hargument, Option.map_none, Option.none_or, lookup] at h
        cases hscoped : (s.chain.lineage owner).findSome?
            (s.definitions.scoped? · name) with
        | some found =>
            rw [hscoped] at h
            cases h
            obtain ⟨_, _, _, hlineage, hvalue, hnearer⟩ :=
              List.findSome?_eq_some_iff.1 hscoped
            exact .inFile hgiven hlineage hnearer hvalue
        | none =>
            rw [hscoped] at h
            obtain ⟨found, hglobal, hfound⟩ := Option.map_eq_some_iff.1 h
            cases hfound
            exact .everywhere hgiven (List.findSome?_eq_none_iff.1 hscoped) hglobal

theorem definedLevel_eq_zero :
    s.definedLevel name owner = 0 ↔ s.layered? owner name = none := by
  rw [definedLevel_eq]
  cases s.layered? owner name with
  | none => simp
  | some found =>
      obtain ⟨_, origin⟩ := found
      cases origin <;> simp [Origin.level]

/-- Where a reference has the value of the layers, `DEFINED` tells from which of
them it comes. -/
theorem shows_iff_definedLevel {platform : Platform} {t : Token}
    (h : s.referenceValue? platform name t = (s.layered? t.owner name).map (·.1)) :
    s.Shows t.owner name level value ↔
      s.definedLevel name t.owner = level
        ∧ s.referenceValue? platform name t = some value := by
  rw [shows_iff, definedLevel_eq, h]
  cases s.layered? t.owner name with
  | none => simp
  | some found =>
      obtain ⟨v, origin⟩ := found
      simp only [Option.some.injEq, Prod.mk.injEq, Option.map_some, Option.getD_some]
      constructor
      · rintro ⟨_, ⟨rfl, rfl⟩, hlevel⟩
        exact ⟨hlevel, rfl⟩
      · rintro ⟨hlevel, rfl⟩
        exact ⟨origin, ⟨rfl, rfl⟩, hlevel⟩

end Source

/-- Definitions are nested environments. What stands after any acts is what one
of them put there and none since has ended, a lookup along a chain finds the
nearest of it, and taking a name back takes just that. Arguments come before all
of it, for a reference as for `DEFINED`: the level is zero where the reference
has no value, and else tells the layer that the value is from. -/
theorem nested_run (acts : List Act) :
    (∀ place name value, Standing.of acts place name value ↔
      ∃ before n later, acts = before ++ .define place n value :: later
        ∧ Text.same n name = true
        ∧ ∀ earlier a rest, later = earlier ++ a :: rest →
          ¬ (Standing.of (before ++ .define place n value :: earlier)).Ends place name a)
    ∧ (run acts).Nested (Standing.of acts)
    ∧ ∀ (platform : Platform) (s : Source) (name : String) (t : Token) (file : ChainFile),
      s.chain.get? t.owner = some file → name ≠ "*" → name ≠ "&*" →
      ¬ (name ≠ "" ∧ name.toList.all Char.isDigit = true) →
      Builtin.ofName? name = none →
      (s.definedLevel name t.owner = 0 ↔ s.referenceValue? platform name t = none)
      ∧ ∀ level value, s.Shows t.owner name level value ↔
        s.definedLevel name t.owner = level
          ∧ s.referenceValue? platform name t = some value := by
  refine ⟨fun _ _ _ => Standing.of_iff, (Holds.run acts).nested, ?_⟩
  intro platform s name t file hfile hall hnamed hdigits hbuiltin
  have hvalue : s.referenceValue? platform name t
      = (s.layered? t.owner name).map (·.1) :=
    Source.referenceValue?_eq hfile
      (Source.argumentByForm?_eq_none hall hnamed hdigits) hbuiltin
  refine ⟨?_, fun level value => Source.shows_iff_definedLevel hvalue⟩
  rw [Source.definedLevel_eq_zero, hvalue, Option.map_eq_none_iff]

/-- A source whose second file is included with an argument `mode` by the first,
which defines `x`; `mode`, `x` and `y` are defined everywhere. -/
def layeredSource : Source where
  cursor := .ofTokens []
  cache := {}
  chain := ⟨#[
    { name := "main.p", path := none, trigger := none, parent := none, rootLine := 0 },
    { name := "inner.i", path := none, trigger := none, parent := some 0, rootLine := 0,
      arguments := { file := "inner.i", named := [("mode", "fast")] } }]⟩
  definitions := run [
    .define .everywhere "mode" "slow", .define .everywhere "x" "0",
    .define .everywhere "y" "9", .define (.inFile 0) "X" "1",
    .define (.inFile 1) "x" "2", .undefine "x" [1, 0]]

/-- In the file that is included `x` is from the file that includes it, where its
own definition has been taken back. -/
theorem nested_run_layeredSource :
    let t : Token := { (default : Token) with owner := 1 }
    (layeredSource.chain.get? 1 = some layeredSource.chain.files[1]
      ∧ "x" ≠ "*" ∧ "x" ≠ "&*" ∧ ¬ ("x" ≠ "" ∧ "x".toList.all Char.isDigit = true)
      ∧ Builtin.ofName? "x" = none)
    ∧ (layeredSource.Shows 1 "x" 2 "1" ↔
      layeredSource.definedLevel "x" 1 = 2
        ∧ layeredSource.referenceValue? {} "x" t = some "1")
    ∧ layeredSource.definedLevel "x" 1 = 2 :=
  have hbuiltin : Builtin.ofName? "x" = none := by decide +kernel
  have hdigits : ¬ ("x" ≠ "" ∧ "x".toList.all Char.isDigit = true) := by decide
  ⟨⟨rfl, by decide, by decide, hdigits, hbuiltin⟩,
    ((nested_run []).2.2 {} layeredSource "x" { (default : Token) with owner := 1 } _ rfl
      (by decide) (by decide) hdigits hbuiltin).2 2 "1",
    by decide +kernel⟩

example : ["mode", "x", "y", "z"].map (layeredSource.definedLevel · 1)
    = [3, 2, 1, 0] := by
  decide +kernel

end Parse

end AblOutline
