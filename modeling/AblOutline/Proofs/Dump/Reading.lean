/-
Putting the records of a dump together. `Told` says which records tell of some
databases: one of each database, its sequences, and its tables, each followed
by its triggers, indexes and fields. While they are read the schema has one
last database and one last table, and `reading` names that state; each sort of
record does one thing to it, and reading all of them gives the databases
(`foldl_told`).
-/
import AblOutline.Proofs.Dump.Columns

namespace AblOutline.Schema

-- =============================================================== who tells

/-- The trigger that the record tells of. -/
def Record.trigger? : Record → Option Trigger
  | .trigger x => some x
  | _ => none

/-- The index that the record tells of. -/
def Record.index? : Record → Option Index
  | .index i => some i
  | _ => none

/-- The field that the record tells of. -/
def Record.field? : Record → Option Field
  | .field f => some f
  | _ => none

/-- The record tells of a part of a table. -/
def Record.isPart : Record → Bool
  | .trigger _ | .index _ | .field _ => true
  | _ => false

/-- What the record of a table tells of it. -/
def Table.bare (t : Table) : Table :=
  { t with fields := [], indexes := [], triggers := [] }

/-- What the record of a database tells of it. -/
def Database.bare (d : Database) : Database := { d with tables := [] }

/-- The records tell of the triggers, indexes and fields of the table, each
sort in its order. -/
structure Table.Parts (t : Table) (records : List Record) : Prop where
  triggers : records.filterMap Record.trigger? = t.triggers
  indexes : records.filterMap Record.index? = t.indexes
  fields : records.filterMap Record.field? = t.fields
  only : ∀ r ∈ records, r.isPart = true

/-- The records tell of the tables. -/
inductive TablesTold : List Table → List Record → Prop where
  | nil : TablesTold [] []
  | cons {t : Table} {ts : List Table} {parts records : List Record} :
      t.Parts parts → TablesTold ts records →
      TablesTold (t :: ts) (.table t.bare :: (parts ++ records))

/-- The records tell of the databases and of the sequences of each. -/
inductive Told : List (Database × List String) → List Record → Prop where
  | nil : Told [] []
  | cons {d : Database} {sequences : List String}
      {ds : List (Database × List String)} {tables records : List Record} :
      TablesTold d.tables tables → Told ds records →
      Told ((d, sequences) :: ds)
        (.database d.bare :: (sequences.map .sequence ++ tables ++ records))

/-- The sequences of the databases. -/
def sequencesOf (ds : List (Database × List String)) : List Sequence :=
  ds.flatMap fun d => d.2.map fun name => ⟨name, d.1.name⟩

-- ============================================================ what is read

section Reading

variable {α : Type} {ds : List Database} {d : Database} {t : Table}
  {ts : List Table} {qs : List Sequence}

/-- The schema while the tables of its last database are read. -/
def reading (ds : List Database) (d : Database) (ts : List Table)
    (qs : List Sequence) : Schema :=
  { databases := ds ++ [{ d with tables := ts }], sequences := qs }

theorem changeLast_append (f : α → α) (xs : List α) (x : α) :
    changeLast f (xs ++ [x]) = xs ++ [f x] := by
  rw [changeLast]
  induction xs with
  | nil => rfl
  | cons y xs ih =>
      have hlen : (y :: xs ++ [x]).length - 1
          = ((xs ++ [x]).length - 1) + 1 := by simp
      rw [hlen, List.cons_append, List.modify_succ_cons, ih, List.cons_append]

theorem changeTable_reading (f : Table → Table) :
    (reading ds d (ts ++ [t]) qs).changeTable f
      = reading ds d (ts ++ [f t]) qs := by
  simp only [reading, changeTable, changeLast_append]

theorem add_table : (reading ds d ts qs).add (.table t)
    = reading ds d (ts ++ [t]) qs := by
  simp only [reading, add, changeLast_append]

theorem add_sequence (name : String) :
    (reading ds d ts qs).add (.sequence name)
      = reading ds d ts (qs ++ [⟨name, d.name⟩]) := by
  simp only [reading, add, List.getLast?_concat]

/-- The table with what the records tell of it. -/
def Table.extended (t : Table) (records : List Record) : Table :=
  { t with
    triggers := t.triggers ++ records.filterMap Record.trigger?
    indexes := t.indexes ++ records.filterMap Record.index?
    fields := t.fields ++ records.filterMap Record.field? }

theorem add_part {r : Record} (h : r.isPart = true) :
    (reading ds d (ts ++ [t]) qs).add r
      = reading ds d (ts ++ [t.extended [r]]) qs := by
  cases r with
  | trigger x | index i | field f =>
      rw [add, changeTable_reading]
      simp [Table.extended, Record.trigger?, Record.index?, Record.field?,
        List.filterMap_cons]
  | _ => cases h

theorem foldl_parts {records : List Record}
    (h : ∀ r ∈ records, r.isPart = true) :
    records.foldl add (reading ds d (ts ++ [t]) qs)
      = reading ds d (ts ++ [t.extended records]) qs := by
  induction records generalizing t with
  | nil => simp [Table.extended]
  | cons r records ih =>
      obtain ⟨hr, hrecords⟩ := List.forall_mem_cons.1 h
      have hnext : (t.extended [r]).extended records
          = t.extended (r :: records) := by
        simp [Table.extended, List.filterMap_cons]
        cases r.trigger? <;> cases r.index? <;> cases r.field? <;> simp
      rw [List.foldl_cons, add_part hr, ih hrecords, hnext]

theorem foldl_tables {more : List Table} {records : List Record}
    (h : TablesTold more records) :
    records.foldl add (reading ds d ts qs)
      = reading ds d (ts ++ more) qs := by
  induction h generalizing ts with
  | nil => simp
  | @cons t more parts records hparts _ ih =>
      have hfull : t.bare.extended parts = t := by
        simp [Table.extended, Table.bare, hparts.triggers, hparts.indexes,
          hparts.fields]
      rw [List.foldl_cons, add_table, List.foldl_append,
        foldl_parts hparts.only, hfull, ih, List.append_assoc,
        List.singleton_append]

theorem foldl_sequences (names : List String) :
    (names.map Record.sequence).foldl add (reading ds d ts qs)
      = reading ds d ts (qs ++ names.map fun name => ⟨name, d.name⟩) := by
  induction names generalizing qs with
  | nil => simp
  | cons name names ih =>
      rw [List.map_cons, List.foldl_cons, add_sequence, ih]
      simp

/-- Reading the records of databases adds these databases. -/
theorem foldl_told (ds : List Database) (qs : List Sequence)
    {told : List (Database × List String)} {records : List Record}
    (h : Told told records) :
    records.foldl add { databases := ds, sequences := qs }
      = { databases := ds ++ told.map Prod.fst
          sequences := qs ++ sequencesOf told } := by
  induction h generalizing ds qs with
  | nil => simp [sequencesOf]
  | @cons d names told tables records htables _ ih =>
      have hstart : Schema.add { databases := ds, sequences := qs }
          (.database d.bare) = reading ds d [] qs := rfl
      rw [List.foldl_cons, hstart, List.append_assoc, List.foldl_append,
        foldl_sequences, List.foldl_append, foldl_tables htables,
        List.nil_append, reading, ih]
      simp [sequencesOf]

end Reading

end AblOutline.Schema
