/-
The directory against the schema it is made from. The entries of a directory
hold the names of all tables and fields of all databases, the first of a name
counting; the schema is searched database by database, and the search for a
field goes to the first table of the name and no further. For names without
dots the two agree on tables (`tables_findSome?`), and on fields but for one
case: a field that only the second of two tables of one name has is an entry
all the same. So the entries of fields are put beside `anyField?`, which goes
on to the other tables of the name (`fields_findSome?`).
-/
import AblOutline.Directory
import AblOutline.Proofs.Pieces
import Mathlib.Tactic.MkIffOfInductiveProp

namespace AblOutline

-- ============================================================== first found

section Found

variable {α β γ : Type}

theorem findSome?_flatMap (xs : List α) (f : α → List β) (g : β → Option γ) :
    (xs.flatMap f).findSome? g = xs.findSome? fun x => (f x).findSome? g := by
  induction xs with
  | nil => rfl
  | cons x xs ih =>
      rw [List.flatMap_cons, List.findSome?_append, List.findSome?_cons, ih]
      cases (f x).findSome? g <;> rfl

theorem findSome?_congr {xs : List α} {f g : α → Option β}
    (h : ∀ x ∈ xs, f x = g x) : xs.findSome? f = xs.findSome? g := by
  induction xs with
  | nil => rfl
  | cons x xs ih =>
      obtain ⟨hx, hxs⟩ := List.forall_mem_cons.1 h
      rw [List.findSome?_cons, List.findSome?_cons, hx, ih hxs]

theorem findSome?_map_option (xs : List α) (f : α → Option β) (g : β → γ) :
    (xs.findSome? fun x => (f x).map g) = (xs.findSome? f).map g :=
  List.map_findSome?.symm

/-- Where one member at most is asked for, the search goes no further than to
it. -/
theorem findSome?_ite {xs : List α} {p : α → Bool} (f : α → Option β)
    (h : xs.Pairwise fun a b => p a = true → p b = false) :
    (xs.findSome? fun x => if p x then f x else none)
      = (xs.find? p).bind f := by
  induction xs with
  | nil => rfl
  | cons x xs ih =>
      obtain ⟨hx, hxs⟩ := List.pairwise_cons.1 h
      rw [List.findSome?_cons, List.find?_cons]
      cases hp : p x with
      | false => simpa using ih hxs
      | true =>
          cases hf : f x with
          | some y => simp [hf]
          | none =>
              have hrest : (xs.findSome? fun x => if p x then f x else none)
                  = none :=
                List.findSome?_eq_none_iff.2 fun y hy => by
                  rw [hx y hy hp]
                  rfl
              simp [hf, hrest]

end Found

-- ==================================================================== names

namespace Schema

/-- A name that is one part. -/
def Plain (name : String) : Prop := '.' ∉ name.toList

/-- Databases, and the tables of each, go by different names, whatever their
case, and no name of a database, a table or a field holds a dot. -/
@[mk_iff]
structure WellNamed (s : Schema) : Prop where
  databases : s.databases.Pairwise fun a b => Text.same a.name b.name = false
  tables : ∀ d ∈ s.databases,
    d.tables.Pairwise fun a b => Text.same a.name b.name = false
  plainDatabase : ∀ d ∈ s.databases, Plain d.name
  plainTable : ∀ d ∈ s.databases, ∀ t ∈ d.tables, Plain t.name
  plainField : ∀ d ∈ s.databases, ∀ t ∈ d.tables, ∀ f ∈ t.fields,
    Plain f.name

instance (name : String) : Decidable (Plain name) :=
  inferInstanceAs (Decidable (¬ _))

instance (s : Schema) : Decidable s.WellNamed :=
  decidable_of_iff _ (wellNamed_iff s).symm

/-- The field of the first database that has the table with the field. -/
def fieldInAny? (s : Schema) (table field : String) : Option Field :=
  s.databases.findSome? fun d => (d.table? table).bind (·.field? field)

/-- The field that the name names: the one that the search finds, and else,
where the name is `table.field`, that of any other database. -/
def anyField? (s : Schema) (name : String) : Option Field :=
  (s.field? name).or <|
    match Text.pieces '.' name with
    | [table, field] => s.fieldInAny? table field
    | _ => none

section AnyField

variable {s : Schema} {name database table field : String}

/-- What the search finds for `table.field` is the first of all databases to
be found. -/
theorem anyField?_two (h : Text.pieces '.' name = [table, field]) :
    s.anyField? name = s.fieldInAny? table field := by
  have hplain : '.' ∉ table.toList :=
    Text.not_mem_pieces (s := name) table (by simp [h])
  have hsearch : s.field? name
      = (s.databases.findSome? (·.table? table)).bind (·.field? field) := by
    simp only [field?, h, table?, Text.splitFirst?_eq_none_iff.2 hplain]
  have hfirst : ∀ ds : List Database, ∀ f,
      (ds.findSome? (·.table? table)).bind (·.field? field) = some f →
      (ds.findSome? fun d => (d.table? table).bind (·.field? field))
        = some f := by
    intro ds f hf
    induction ds with
    | nil => exact hf
    | cons d ds ih =>
        rw [List.findSome?_cons] at hf ⊢
        cases ht : d.table? table with
        | none =>
            rw [ht] at hf
            exact ih hf
        | some t =>
            rw [ht] at hf
            rw [Option.bind_some, show t.field? field = some f from hf]
  cases hf : s.field? name with
  | none => simp [anyField?, hf, h]
  | some f =>
      rw [anyField?, hf, Option.some_or, fieldInAny?,
        hfirst _ f (hsearch.symm.trans hf)]

theorem anyField?_three (h : Text.pieces '.' name = [database, table, field]) :
    s.anyField? name = ((s.database? database).bind (·.table? table)).bind
      (·.field? field) := by
  simp [anyField?, field?, h]

end AnyField

end Schema

namespace Text

variable {a b c n : String} {ps : List String}

/-- Two names that one is the same as are the same. -/
theorem same_of_same (ha : same a n = true) (hb : same b n = true) :
    same a b = true := by
  rw [same, beq_iff_eq] at *
  rw [ha, hb]

theorem pieces_plain (h : Schema.Plain a) : pieces '.' a = [a] :=
  pieces_of_not_mem h

theorem pieces_two (ha : Schema.Plain a) (hb : Schema.Plain b) :
    pieces '.' (a ++ "." ++ b) = [a, b] :=
  (pieces_append ha).trans (by rw [pieces_plain hb])

theorem pieces_three (ha : Schema.Plain a) (hb : Schema.Plain b)
    (hc : Schema.Plain c) :
    pieces '.' (a ++ "." ++ b ++ "." ++ c) = [a, b, c] := by
  have hassoc : a ++ "." ++ b ++ "." ++ c = a ++ "." ++ (b ++ "." ++ c) := by
    simp [String.append_assoc]
  rw [hassoc]
  exact (pieces_append ha).trans (by rw [pieces_two hb hc])

/-- A name of known parts is the same as one whose parts are the same. -/
theorem same_iff_of_pieces (ha : pieces '.' a = ps) :
    same a n = true ↔ ps.map lower = (pieces '.' n).map lower := by
  have hdot : '.'.isAlpha = false := rfl
  rw [same_iff_pieces hdot, ha]

end Text

-- ================================================================== entries

namespace Directory

variable {s : Schema} {d : Schema.Database}
  {n database table field : String}

/-- What an entry says of the name. -/
def hit (n : String) (entry : String × SymbolKind) : Option SymbolKind :=
  if Text.same entry.1 n then some entry.2 else none

theorem classify_build (s : Schema) (keywords : List String) (n : String) :
    (build s keywords).classify n
      = (names s keywords).findSome? (hit n) := by
  rw [classify, build, List.lookup_eq_findSome?, List.findSome?_map]
  apply findSome?_congr
  intro e _
  by_cases he : Text.lower e.1 = Text.lower n
  · simp [hit, Text.same, he]
  · simp [hit, Text.same, he, Ne.symm he]

/-- Two names of one thing. -/
theorem hit_pair (a b n : String) (kind : SymbolKind) :
    [(a, kind), (b, kind)].findSome? (hit n)
      = if Text.same a n || Text.same b n then some kind else none := by
  cases ha : Text.same a n <;> cases hb : Text.same b n <;> simp [hit, ha, hb]

/-- Of members with different names one at most has the given name. -/
theorem pairwise_named {α : Type} {xs : List α} {name : α → String}
    (h : xs.Pairwise fun a b => Text.same (name a) (name b) = false) :
    xs.Pairwise fun a b =>
      Text.same (name a) n = true → Text.same (name b) n = false := by
  refine h.imp fun {a b} hab ha => ?_
  by_contra hb
  rw [Bool.not_eq_false] at hb
  rw [Text.same_of_same ha hb] at hab
  cases hab

/-- What the names of the tables of one database say of a name without dots. -/
theorem tableNames_plain (hd : Schema.Plain d.name)
    (ht : ∀ t ∈ d.tables, Schema.Plain t.name) (hn : Schema.Plain n) :
    (d.tables.flatMap (tableNames d)).findSome? (hit n)
      = (d.table? n).map fun _ => .table := by
  rw [findSome?_flatMap, Schema.Database.table?, List.find?_eq_findSome?_guard,
    ← findSome?_map_option]
  apply findSome?_congr
  intro t hmem
  have hlong : Text.same (d.name ++ "." ++ t.name) n = false := by
    rw [← Bool.not_eq_true, Text.same_iff_of_pieces
      (Text.pieces_two hd (ht t hmem)), Text.pieces_plain hn]
    simp
  rw [tableNames, hit_pair, hlong]
  cases hsame : Text.same t.name n <;> simp [hsame, Option.guard]

/-- What they say of a name with its database. -/
theorem tableNames_dotted (hd : Schema.Plain d.name)
    (ht : ∀ t ∈ d.tables, Schema.Plain t.name)
    (hn : Text.splitFirst? '.' n = some (database, table)) :
    (d.tables.flatMap (tableNames d)).findSome? (hit n)
      = if Text.same d.name database
        then (d.table? table).map fun _ => .table else none := by
  have hp := Text.pieces_of_splitFirst? hn
  have hshort : ∀ t ∈ d.tables, Text.same t.name n = false := by
    intro t hmem
    rw [← Bool.not_eq_true, Text.same_iff_of_pieces
      (Text.pieces_plain (ht t hmem)), hp]
    simp [Text.pieces_ne_nil]
  have hlong : ∀ t ∈ d.tables, Text.same (d.name ++ "." ++ t.name) n
      = (Text.same d.name database && Text.same t.name table) := by
    intro t hmem
    rw [Bool.eq_iff_iff, Bool.and_eq_true, Text.same_iff_of_pieces
      (Text.pieces_two hd (ht t hmem)), hp, Text.same_iff_of_pieces
      (Text.pieces_plain (ht t hmem))]
    simp [Text.same]
  rw [findSome?_flatMap, Schema.Database.table?, List.find?_eq_findSome?_guard,
    ← findSome?_map_option]
  cases hd : Text.same d.name database with
  | false =>
      rw [if_neg (by simp), List.findSome?_eq_none_iff]
      intro t hmem
      simp [tableNames, hit_pair, hshort t hmem, hlong t hmem, hd]
  | true =>
      rw [if_pos rfl]
      apply findSome?_congr
      intro t hmem
      rw [tableNames, hit_pair, hshort t hmem, hlong t hmem, hd]
      cases hsame : Text.same t.name table <;> simp [hsame, Option.guard]

/-- The entries of tables say of a name what the search for a table says. -/
theorem tables_findSome? (h : s.WellNamed) (n : String) :
    (s.databases.flatMap fun d => d.tables.flatMap (tableNames d)).findSome?
        (hit n)
      = (s.table? n).map fun _ => .table := by
  rw [findSome?_flatMap, Schema.table?]
  cases hn : Text.splitFirst? '.' n with
  | none =>
      rw [← findSome?_map_option]
      apply findSome?_congr
      intro d hmem
      exact tableNames_plain (h.plainDatabase d hmem) (h.plainTable d hmem)
        (Text.splitFirst?_eq_none_iff.1 hn)
  | some parts =>
      obtain ⟨database, table⟩ := parts
      dsimp only
      rw [Schema.database?, Option.map_bind,
        ← findSome?_ite _ (pairwise_named h.databases)]
      apply findSome?_congr
      intro d hmem
      exact tableNames_dotted (h.plainDatabase d hmem) (h.plainTable d hmem) hn

/-- What the names of the fields of one table say of a name: `p` is whether
its parts before the last name the table. -/
theorem fieldNames_findSome? {t : Schema.Table} {p : Bool}
    (h : ∀ f ∈ t.fields, (fieldNames d t f).findSome? (hit n)
      = if p && Text.same f.name field then some (fieldKind f) else none) :
    (t.fields.flatMap (fieldNames d t)).findSome? (hit n)
      = if p then (t.field? field).map fieldKind else none := by
  rw [findSome?_flatMap, findSome?_congr h, Schema.Table.field?,
    List.find?_eq_findSome?_guard, ← findSome?_map_option]
  cases p with
  | false => simp
  | true =>
      rw [if_pos rfl]
      apply findSome?_congr
      intro f _
      cases hsame : Text.same f.name field <;> simp [hsame, Option.guard]

/-- The names of a field have two parts or three. -/
theorem hit_fieldNames {t : Schema.Table} {f : Schema.Field}
    (hd : Schema.Plain d.name) (ht : Schema.Plain t.name)
    (hf : Schema.Plain f.name) :
    (fieldNames d t f).findSome? (hit n)
      = if [t.name, f.name].map Text.lower
            = (Text.pieces '.' n).map Text.lower
          ∨ [d.name, t.name, f.name].map Text.lower
            = (Text.pieces '.' n).map Text.lower
        then some (fieldKind f) else none := by
  rw [fieldNames, hit_pair]
  simp only [Bool.or_eq_true,
    Text.same_iff_of_pieces (Text.pieces_two ht hf),
    Text.same_iff_of_pieces (Text.pieces_three hd ht hf)]

/-- What the names of the fields of one database say of `table.field`. -/
theorem databaseFields_two (h : s.WellNamed) (hd : d ∈ s.databases)
    (hp : Text.pieces '.' n = [table, field]) :
    (d.tables.flatMap fun t => t.fields.flatMap (fieldNames d t)).findSome?
        (hit n)
      = ((d.table? table).bind (·.field? field)).map fieldKind := by
  have hone : ∀ t ∈ d.tables,
      (t.fields.flatMap (fieldNames d t)).findSome? (hit n)
        = if Text.same t.name table
          then (t.field? field).map fieldKind else none := by
    intro t ht
    apply fieldNames_findSome?
    intro f hf
    rw [hit_fieldNames (h.plainDatabase d hd) (h.plainTable d hd t ht)
      (h.plainField d hd t ht f hf), hp]
    simp [Text.same]
  rw [findSome?_flatMap, findSome?_congr hone,
    findSome?_ite _ (pairwise_named (h.tables d hd)), Option.map_bind]
  rfl

/-- What they say of `database.table.field`. -/
theorem databaseFields_three (h : s.WellNamed) (hd : d ∈ s.databases)
    (hp : Text.pieces '.' n = [database, table, field]) :
    (d.tables.flatMap fun t => t.fields.flatMap (fieldNames d t)).findSome?
        (hit n)
      = if Text.same d.name database
        then ((d.table? table).bind (·.field? field)).map fieldKind
        else none := by
  have hone : ∀ t ∈ d.tables,
      (t.fields.flatMap (fieldNames d t)).findSome? (hit n)
        = if Text.same d.name database && Text.same t.name table
          then (t.field? field).map fieldKind else none := by
    intro t ht
    apply fieldNames_findSome?
    intro f hf
    rw [hit_fieldNames (h.plainDatabase d hd) (h.plainTable d hd t ht)
      (h.plainField d hd t ht f hf), hp]
    simp [Text.same, and_assoc]
  rw [findSome?_flatMap, findSome?_congr hone]
  cases Text.same d.name database with
  | false => simp
  | true =>
      simp only [Bool.true_and, if_true]
      rw [findSome?_ite _ (pairwise_named (h.tables d hd)), Option.map_bind]
      rfl

/-- The entries of fields say of a name what the search in all tables says. -/
theorem fields_findSome? (h : s.WellNamed) (n : String) :
    (s.databases.flatMap fun d =>
        d.tables.flatMap fun t => t.fields.flatMap (fieldNames d t)).findSome?
        (hit n)
      = (s.anyField? n).map fieldKind := by
  rw [findSome?_flatMap]
  -- the names of a field have two parts or three, so others have no entry
  rcases hp : Text.pieces '.' n with _ | ⟨a, _ | ⟨b, _ | ⟨c, _ | ⟨e, rest⟩⟩⟩⟩
  case cons.cons.nil =>
    rw [Schema.anyField?_two hp, Schema.fieldInAny?, ← findSome?_map_option]
    apply findSome?_congr
    intro d hd
    exact databaseFields_two h hd hp
  case cons.cons.cons.nil =>
    rw [findSome?_congr fun d hd => databaseFields_three h hd hp,
      findSome?_ite _ (pairwise_named h.databases), Schema.anyField?_three hp,
      Option.bind_assoc, Option.map_bind]
    rfl
  all_goals
    rw [show s.anyField? n = none by simp [Schema.anyField?, Schema.field?, hp],
      Option.map_none, List.findSome?_eq_none_iff]
    intro d hd
    rw [findSome?_flatMap, List.findSome?_eq_none_iff]
    intro t ht
    rw [findSome?_flatMap, List.findSome?_eq_none_iff]
    intro f hf
    rw [hit_fieldNames (h.plainDatabase d hd) (h.plainTable d hd t ht)
      (h.plainField d hd t ht f hf), hp]
    simp

-- ================================================================ agreement

/-- The entries that stand for no table and no field. -/
def others (s : Schema) (keywords : List String) :
    List (String × SymbolKind) :=
  (s.databases.map fun d => (d.name, .database))
    ++ (s.sequences.map fun q => (q.name, .sequence))
    ++ (keywords.map fun k => (k, .keyword))

/-- The directory asks for a table, then for a field of any table, then for
the rest. -/
theorem classify_eq (h : s.WellNamed) (keywords : List String) (n : String) :
    (build s keywords).classify n
      = ((s.table? n).map fun _ => .table).or
          (((s.anyField? n).map fieldKind).or
            ((others s keywords).findSome? (hit n))) := by
  have hsplit : names s keywords
      = (s.databases.flatMap fun d => d.tables.flatMap (tableNames d))
        ++ ((s.databases.flatMap fun d =>
            d.tables.flatMap fun t => t.fields.flatMap (fieldNames d t))
          ++ others s keywords) := by
    simp only [names, others, List.append_assoc]
  rw [classify_build, hsplit, List.findSome?_append, List.findSome?_append,
    tables_findSome? h, fields_findSome? h]

theorem others_kind {keywords : List String} {kind : SymbolKind}
    (hk : (others s keywords).findSome? (hit n) = some kind) :
    kind.isTable = false ∧ kind.isField = false := by
  obtain ⟨e, he, hkind⟩ := List.exists_of_findSome?_eq_some hk
  obtain rfl : e.2 = kind := by
    unfold hit at hkind
    split at hkind
    · exact Option.some.inj hkind
    · cases hkind
  simp only [others, List.mem_append, List.mem_map] at he
  obtain (⟨_, _, rfl⟩ | ⟨_, _, rfl⟩) | ⟨_, _, rfl⟩ := he <;>
    exact ⟨rfl, rfl⟩

/-- The directory knows a name as a table when the search for a table finds
one; as a field when that search finds none and some table has the field; and
as one of the primary key when the field is. -/
theorem classify_build_iff (h : s.WellNamed) (keywords : List String)
    (n : String) :
    ((build s keywords).classify n = some .table ↔ (s.table? n).isSome = true)
      ∧ ((build s keywords).classify n = some .field
            ∨ (build s keywords).classify n = some .keyField
          ↔ s.table? n = none ∧ (s.anyField? n).isSome = true)
      ∧ ∀ f, s.table? n = none → s.anyField? n = some f →
        ((build s keywords).classify n = some .keyField
          ↔ f.primaryKey = true) := by
  rw [classify_eq h]
  cases ht : s.table? n with
  | some t => simp
  | none =>
      cases hf : s.anyField? n with
      | some f => cases hk : f.primaryKey <;> simp [fieldKind, hk]
      | none =>
          cases ho : (others s keywords).findSome? (hit n) with
          | none => simp
          | some kind =>
              obtain ⟨htable, hfield⟩ := others_kind ho
              cases kind <;> simp_all [SymbolKind.isTable, SymbolKind.isField]

/-- A table with one field. -/
private def oneField (name field : String) (primaryKey : Bool) : Schema.Table :=
  { name, id := "1", crc := "0", dumpName := name, description := ""
    hidden := false, frozen := false, kind := .table
    fields := [{
      name := field, dataType := "integer", primitive := some .integer
      format := ">>9", order := 10, mandatory := true, extent := 0
      inIndex := true, primaryKey, initial := "", description := "" }] }

/-- Two databases with a table of one name. -/
private def twoShops : Schema :=
  { databases := [
      { name := "east", physicalName := "e", version := "12", dumpDate := ""
        dumpTime := "", tables := [oneField "item" "price" false] },
      { name := "west", physicalName := "w", version := "12", dumpDate := ""
        dumpTime := "", tables := [oneField "item" "weight" true] }] }

theorem classify_twoShops :
    (build twoShops ["item.weight"]).classify "ITEM.Weight"
      = some .keyField := by
  have hf : twoShops.anyField? "ITEM.Weight"
      = some (oneField "item" "weight" true).fields[0] := by decide +kernel
  exact ((classify_build_iff (s := twoShops) (by decide +kernel)
    ["item.weight"] "ITEM.Weight").2.2 _ (by decide +kernel) hf).2 rfl

/-- The search for a field does not tell: it finds no field of the second of
two tables of one name, which the directory knows all the same. -/
theorem not_classify_iff_field? :
    ¬ ∀ (s : Schema) (keywords : List String) (n : String), s.WellNamed →
      (∀ d ∈ s.databases, d.name ≠ "" ∧ ∀ t ∈ d.tables, t.name ≠ ""
        ∧ (∀ f ∈ t.fields, f.name ≠ "")
        ∧ t.fields.Pairwise fun a b => Text.same a.name b.name = false) →
      ((build s keywords).classify n = some .field
          ∨ (build s keywords).classify n = some .keyField
        ↔ s.table? n = none ∧ (s.field? n).isSome = true) := by
  intro h
  have hiff := h twoShops [] "item.weight" (by decide +kernel)
    (by decide +kernel)
  revert hiff
  decide +kernel

end Directory

end AblOutline
