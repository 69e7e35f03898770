/-
A dump and the databases it tells of. Reading a dump gives the databases that
its records tell of, with the fields of each table in order: those of the
primary key first, then by name, and fields that are equal in both as the dump
has them (`Reordered`). Each definition of an alias then adds a copy of a
database or nothing (`Aliased`); that a database is copied before its fields
are in order makes no difference, as both leave the names of databases alone.
-/
import AblOutline.Proofs.Dump.Reading
import AblOutline.Proofs.Sorting
import Mathlib.Data.List.Forall2

namespace AblOutline.Schema

-- ========================================================== order of fields

/-- What tells the place of a field: whether it is of the primary key, and its
name in small letters. -/
def Field.key (f : Field) : Bool × String := (f.primaryKey, Text.lower f.name)

/-- The field may stand before the other. -/
def Field.Before (a b : Field) : Prop :=
  (a.primaryKey = true ∧ b.primaryKey = false)
    ∨ (a.primaryKey = b.primaryKey ∧ Text.lower a.name ≤ Text.lower b.name)

/-- The same fields in order; those of one key stand as before. -/
structure Reordered (before after : List Field) : Prop where
  ordered : after.Pairwise Field.Before
  stable : ∀ k, (after.filter fun f => f.key = k)
    = before.filter fun f => f.key = k

/-- The table with its fields in order. -/
structure Table.Ordered (t t' : Table) : Prop where
  rest : t' = { t with fields := t'.fields }
  fields : Reordered t.fields t'.fields

/-- The database with the fields of each table in order. -/
structure Database.Ordered (d d' : Database) : Prop where
  rest : d' = { d with tables := d'.tables }
  tables : List.Forall₂ Table.Ordered d.tables d'.tables

section Order

variable {a b c : Field}

theorem precedes_iff : a.precedes b = true ↔ a.Before b := by
  unfold Field.precedes Field.Before
  cases ha : a.primaryKey <;> cases hb : b.primaryKey <;> simp

theorem Field.Before.trans (hab : a.Before b) (hbc : b.Before c) :
    a.Before c := by
  rcases hab with ⟨ha, hb⟩ | ⟨hab, hle⟩
  · rcases hbc with ⟨hb', -⟩ | ⟨hbc, -⟩
    · rw [hb] at hb'
      cases hb'
    · exact .inl ⟨ha, hbc ▸ hb⟩
  · rcases hbc with ⟨hb, hc⟩ | ⟨hbc, hle'⟩
    · exact .inl ⟨hab.trans hb, hc⟩
    · exact .inr ⟨hab.trans hbc, String.le_trans hle hle'⟩

theorem Field.Before.total (a b : Field) : a.Before b ∨ b.Before a := by
  unfold Field.Before
  cases ha : a.primaryKey <;> cases hb : b.primaryKey <;> simp
  all_goals exact String.le_total _ _

/-- Fields are put in order, and the order of equal ones is kept. -/
theorem reordered_mergeSort (fields : List Field) :
    Reordered fields (fields.mergeSort Field.precedes) := by
  have htrans : ∀ a b c : Field, a.precedes b = true → b.precedes c = true →
      a.precedes c = true := fun a b c hab hbc =>
    precedes_iff.2 ((precedes_iff.1 hab).trans (precedes_iff.1 hbc))
  have htotal : ∀ a b : Field, (a.precedes b || b.precedes a) = true := by
    intro a b
    rw [Bool.or_eq_true, precedes_iff, precedes_iff]
    exact Field.Before.total a b
  refine ⟨(List.pairwise_mergeSort htrans htotal fields).imp
    precedes_iff.1, fun k => ?_⟩
  -- fields of one key are in order as they stand, and so they stay
  refine filter_mergeSort htrans htotal (List.pairwise_filter.2
    (List.pairwise_of_forall fun a b ha hb => ?_))
  have hkey : a.key = b.key := by simp_all
  obtain ⟨hp, hn⟩ := Prod.mk.inj hkey
  exact precedes_iff.2 (.inr ⟨hp, hn ▸ String.le_refl _⟩)

theorem ordered_sorted (t : Table) : t.Ordered t.sorted :=
  ⟨rfl, reordered_mergeSort t.fields⟩

/-- Every database of a sorted schema is one of the schema with its fields in
order. -/
theorem ordered_databases (s : Schema) :
    List.Forall₂ Database.Ordered s.databases s.sorted.databases := by
  rw [Schema.sorted, List.forall₂_map_right_iff, List.forall₂_same]
  intro d _
  refine ⟨rfl, ?_⟩
  rw [List.forall₂_map_right_iff, List.forall₂_same]
  exact fun t _ => ordered_sorted t

end Order

-- ================================================================== aliases

/-- The definition names an alias and a database: the two stand around its
first comma, the second has no further comma, and neither is empty. -/
def Defines (definition name logical : String) : Prop :=
  ∃ before after, definition = before ++ "," ++ after
    ∧ ',' ∉ before.toList ∧ ',' ∉ logical.toList
    ∧ name = Text.trim before ∧ logical = Text.trim after
    ∧ name ≠ "" ∧ logical ≠ ""

/-- The databases after some definitions of aliases: each that names a database
present adds a copy of the first such, every other adds nothing. -/
inductive Aliased : List Database → List String → List Database → Prop where
  | nil {ds : List Database} : Aliased ds [] ds
  | copy {before after out : List Database} {d : Database}
      {definition name logical : String} {definitions : List String} :
      Defines definition name logical →
      (∀ e ∈ before, Text.same e.name logical = false) →
      Text.same d.name logical = true →
      Aliased ((before ++ d :: after)
          ++ [{ d with name, aliasOf := some d.name }]) definitions out →
      Aliased (before ++ d :: after) (definition :: definitions) out
  | pass {ds out : List Database} {definition : String}
      {definitions : List String} :
      (∀ name logical, Defines definition name logical →
        ∀ d ∈ ds, Text.same d.name logical = false) →
      Aliased ds definitions out →
      Aliased ds (definition :: definitions) out

section Aliases

variable {s : Schema} {definition name logical : String}

theorem aliasOf?_eq_some_iff :
    aliasOf? definition = some (name, logical)
      ↔ Defines definition name logical := by
  unfold aliasOf? Defines
  rw [Option.bind_eq_bind, Option.bind_eq_some_iff]
  constructor
  · rintro ⟨⟨before, after⟩, hsplit, h⟩
    obtain ⟨hbefore, rfl⟩ := Text.splitFirst?_eq_some_iff.1 hsplit
    dsimp only at h
    split at h
    · cases h
    next hok =>
      cases h
      simp only [not_or, List.contains_eq_mem, decide_eq_true_eq] at hok
      exact ⟨before, after, rfl, hbefore, hok.2.2, rfl, rfl, hok.1, hok.2.1⟩
  · rintro ⟨before, after, rfl, hbefore, hcomma, rfl, rfl, hname, hlogical⟩
    refine ⟨(before, after),
      Text.splitFirst?_eq_some_iff.2 ⟨hbefore, rfl⟩, ?_⟩
    simp [hname, hlogical, hcomma]

/-- One definition adds a copy or nothing. -/
theorem aliased_foldl (definitions : List String) (s : Schema) :
    Aliased s.databases definitions
      ((definitions.filterMap aliasOf?).foldl
        (fun s (name, logical) => s.addAlias name logical) s).databases := by
  induction definitions generalizing s with
  | nil => exact .nil
  | cons definition definitions ih =>
      rw [List.filterMap_cons]
      cases ha : aliasOf? definition with
      | none =>
          refine .pass (fun name logical h => ?_) (ih s)
          rw [aliasOf?_eq_some_iff.2 h] at ha
          cases ha
      | some pair =>
          obtain ⟨name, logical⟩ := pair
          have hdefines := aliasOf?_eq_some_iff.1 ha
          dsimp only
          rw [List.foldl_cons]
          cases hd : s.database? logical with
          | none =>
              have hsame : s.addAlias name logical = s := by
                simp only [addAlias, hd]
              rw [hsame]
              refine .pass (fun n l h d hmem => ?_) (ih s)
              obtain ⟨-, rfl⟩ := Prod.mk.inj (Option.some.inj
                (ha.symm.trans (aliasOf?_eq_some_iff.2 h)))
              simpa using List.find?_eq_none.1 hd d hmem
          | some d =>
              obtain ⟨hnamed, before, after, hds, hbefore⟩ :=
                List.find?_eq_some_iff_append.1 hd
              have hcopy : (s.addAlias name logical).databases
                  = s.databases ++ [{ d with name, aliasOf := some d.name }] := by
                simp only [addAlias, hd]
              have hrest := ih (s.addAlias name logical)
              rw [hcopy, hds] at hrest
              rw [hds]
              exact .copy hdefines (by simpa using hbefore) hnamed hrest

theorem sequences_addAlias : (s.addAlias name logical).sequences
    = s.sequences := by
  unfold addAlias
  split <;> rfl

/-- A copy of a database may be made before or after its fields are put in
order. -/
theorem sorted_addAlias (s : Schema) (name logical : String) :
    (s.addAlias name logical).sorted = s.sorted.addAlias name logical := by
  have hfind : s.sorted.database? logical = (s.database? logical).map
      fun d => { d with tables := d.tables.map (·.sorted) } := by
    simp only [database?, Schema.sorted, List.find?_map]
    rfl
  rw [addAlias, addAlias, hfind]
  cases s.database? logical with
  | none => rfl
  | some d => simp [Schema.sorted]

theorem sorted_addAliases (s : Schema) (aliases : String) :
    (s.addAliases aliases).sorted = s.sorted.addAliases aliases := by
  rw [addAliases, addAliases]
  exact (List.foldl_hom Schema.sorted
    fun s pair => (sorted_addAlias s pair.1 pair.2).symm).symm

theorem sequences_addAliases (s : Schema) (aliases : String) :
    (s.addAliases aliases).sequences = s.sequences := by
  rw [addAliases]
  generalize (Text.pieces ';' aliases).filterMap aliasOf? = definitions
  induction definitions generalizing s with
  | nil => rfl
  | cons definition definitions ih =>
      rw [List.foldl_cons, ih]
      exact sequences_addAlias

end Aliases

-- ================================================================ round trip

/-- Without aliases a dump is read line by line and put in order. -/
theorem parse_plain (dump : String) :
    parse dump "" = (ofLines (Text.lines dump)).sorted := rfl

/-- Reading a dump is reading it without aliases, and then adding these. -/
theorem parse_eq (dump aliases : String) :
    parse dump aliases = (parse dump "").addAliases aliases := by
  rw [parse_plain, parse, sorted_addAliases]

/-- A dump gives the databases it tells of, with fields in order, and their
sequences; the definitions of aliases add copies to these. -/
theorem parse_dumped {told : List (Database × List String)}
    {records : List Record} {text : String} (htold : Told told records)
    (hdumped : Dumped text records) :
    List.Forall₂ Database.Ordered (told.map Prod.fst)
        (parse text "").databases
      ∧ (parse text "").sequences = sequencesOf told
      ∧ ∀ aliases, Aliased (parse text "").databases
          (Text.pieces ';' aliases) (parse text aliases).databases
        ∧ (parse text aliases).sequences = sequencesOf told := by
  have hlines : ofLines (Text.lines text)
      = { databases := told.map Prod.fst, sequences := sequencesOf told } := by
    rw [ofLines, records_of_dumped hdumped]
    have hfold := foldl_told [] [] htold
    rwa [List.nil_append, List.nil_append] at hfold
  have hsequences : (parse text "").sequences = sequencesOf told := by
    rw [parse_plain, hlines]
    rfl
  refine ⟨?_, hsequences, fun aliases => ⟨?_, ?_⟩⟩
  · rw [parse_plain, hlines]
    exact ordered_databases
      { databases := told.map Prod.fst, sequences := sequencesOf told }
  · rw [parse_eq text aliases]
    exact aliased_foldl _ _
  · rw [parse_eq, sequences_addAliases, hsequences]

/-- A field of a small database. -/
private def shopField (name : String) (primaryKey : Bool) : Field :=
  { name, dataType := "integer", primitive := some .integer, format := ">>9"
    order := 10, mandatory := true, extent := 0, inIndex := primaryKey
    primaryKey, initial := "", description := "" }

/-- A small table. -/
private def shopTable : Table :=
  { name := "item", id := "1", crc := "77", dumpName := "item"
    description := "", hidden := false, frozen := true, kind := .system
    fields := [shopField "size" false, shopField "num" true]
    indexes := [{ name := "by-num", primary := true, unique := true
                  fields := ["num", "size"] }]
    triggers := [{ event := "WRITE", procedure := "w.p" }] }

/-- A small database with one table. -/
private def shop : Database :=
  { name := "shop", physicalName := "db/shop", version := "12", dumpDate := ""
    dumpTime := "", tables := [shopTable] }

/-- The records of its table. -/
private def shopParts : List Record :=
  [.field (shopField "size" false),
    .trigger { event := "WRITE", procedure := "w.p" },
    .field (shopField "num" true),
    .index { name := "by-num", primary := true, unique := true
             fields := ["num", "size"] }]

/-- A dump of it, with an empty line, an unknown record and a field whose order
is no number. -/
private def shopDump : String :=
  "H\t\t\tshop\tdb/shop\t12" ++ "\n"
    ++ ("" ++ "\n"
    ++ ("S\tnext-item\t" ++ "\r\n"
    ++ ("T\titem\t1\t77\titem\t\t0\t1\tS" ++ "\n"
    ++ ("F\titem\tsize\tinteger\t>>9\t10\t1\t0\t0\t0\t\t" ++ "\n"
    ++ ("F\titem\twidth\tinteger\t>>9\tten\t1\t0\t0\t0\t\t" ++ "\n"
    ++ ("X\titem\tWRITE\tw.p\t" ++ "\n"
    ++ ("F\titem\tnum\tinteger\t>>9\t10\t1\t0\t1\t1\t\t" ++ "\n"
    ++ ("Z\titem" ++ "\n"
    ++ "I\titem\tby-num\t1\t1\t\tnum%size"))))))))

/-- What its columns hold that are not read. -/
private def shopFill (i : Nat) : String := if i = 1 then "item" else ""

private theorem holds_shop {r : Record} {line : String} (hr : r.Sayable)
    (htexts : ∀ t ∈ r.texts, Clean t)
    (hline : line = "\t".intercalate
      ((String.singleton r.sort ++ shopFill 0) :: r.columns shopFill)) :
    Holds line [r] := by
  refine .record ⟨hr, htexts, shopFill, fun i => ?_, hline⟩
  unfold shopFill
  split <;> decide

theorem parse_dumped_shop :
    ∃ records, Told [(shop, ["next-item"])] records ∧ Dumped shopDump records
      ∧ List.Forall₂ Database.Ordered [shop] (parse shopDump "").databases
      ∧ (parse shopDump "").sequences = [⟨"next-item", "shop"⟩]
      ∧ Aliased (parse shopDump "").databases ["store,shop"]
        (parse shopDump "store,shop").databases := by
  have hparts : shopTable.Parts shopParts := ⟨rfl, rfl, rfl, by decide⟩
  have htold : Told [(shop, ["next-item"])]
      (.database shop.bare :: (["next-item"].map .sequence
        ++ (.table shopTable.bare :: (shopParts ++ [])) ++ [])) :=
    .cons (.cons hparts .nil) .nil
  have hunknown : Record.Malformed "Z\titem" :=
    .sort (show _ = some 'Z' by decide +kernel) rfl
  have hten : Record.Malformed
      "F\titem\twidth\tinteger\t>>9\tten\t1\t0\t0\t0\t\t" := by
    refine .order (by decide +kernel) (show _ = some "ten" by decide +kernel) ?_
    rw [show Text.trimChars "ten".toList = ['t', 'e', 'n'] by decide +kernel]
    rintro z (⟨-, hdigits, -⟩)
    exact absurd (hdigits 't' (by simp)) (by decide)
  have hdumped : Dumped shopDump
      ([.database shop.bare] ++ ([] ++ ([.sequence "next-item"]
        ++ ([.table shopTable.bare] ++ ([shopParts[0]] ++ ([]
        ++ ([shopParts[1]] ++ ([shopParts[2]] ++ ([]
        ++ [shopParts[3]]))))))))) := by
    refine .line (holds_shop ?_ ?_ ?_) ?_
      (.line (.malformed .empty ?_) ?_
      (.line (holds_shop ?_ ?_ ?_) ?_
      (.line (holds_shop ?_ ?_ ?_) ?_
      (.line (holds_shop ?_ ?_ ?_) ?_
      (.line (.malformed hten ?_) ?_
      (.line (holds_shop ?_ ?_ ?_) ?_
      (.line (holds_shop ?_ ?_ ?_) ?_
      (.line (.malformed hunknown ?_) ?_
      (.last (holds_shop ?_ ?_ ?_))))))))))
    all_goals decide +kernel
  obtain ⟨hdatabases, hsequences, haliases⟩ := parse_dumped htold hdumped
  exact ⟨_, htold, hdumped, hdatabases, hsequences, (haliases "store,shop").1⟩

end AblOutline.Schema
