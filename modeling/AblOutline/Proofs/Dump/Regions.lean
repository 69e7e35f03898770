/-
Where the parts of a table come from. The record of a trigger, an index or a
field names a table in its second column, but that column is not read: a part
belongs to the table whose record was read last.

    H  ..  shop ..
    T  item ..         from here on parts belong to `item`
    F  item  num ..
    T  bin             no record, as columns are missing
    F  bin  shelf ..   a part of `item`
    T  tray ..         from here on parts belong to `tray`

So a part is told in the region of its table: after its record, and before the
next record of a table or of a database (`OpenedBy`, `InRegion`). What the lines read so far tell of every table, and
which of them opened the last one, is kept from line to line (`Traced`).
-/
import AblOutline.Proofs.Dump
import Mathlib.Data.List.Induction

namespace AblOutline.Schema

-- ================================================================= regions

/-- What the parts of the table are told by. -/
def Table.records (t : Table) : List Record :=
  t.triggers.map .trigger ++ t.indexes.map .index ++ t.fields.map .field

/-- The record begins a table or a database. -/
def Record.opens : Record → Bool
  | .table _ | .database _ => true
  | _ => false

/-- The table that a line names, which stands in the second column. -/
def tableColumn? (line : String) : Option String :=
  (Text.pieces '\t' line)[1]?

/-- After these lines parts belong to the table: its record is there, and no
other record of a table or a database after it. -/
def OpenedBy (lines : List String) (t : Table) : Prop :=
  ∃ before head between, lines = before ++ head :: between
    ∧ Record.ofLine? head = some (.table t.bare)
    ∧ ∀ l ∈ between, ∀ r, Record.ofLine? l = some r → r.opens = false

/-- The record stands on one of the lines, where parts belong to the table. -/
def InRegion (lines : List String) (t : Table) (r : Record) : Prop :=
  ∃ before line after, lines = before ++ line :: after
    ∧ Record.ofLine? line = some r ∧ OpenedBy before t

/-- Every part of the schema is told in the region of its table, and the last
line that opened a table opened the last one. -/
structure Traced (lines : List String) (s : Schema) : Prop where
  parts : ∀ d ∈ s.databases, ∀ t ∈ d.tables, ∀ r ∈ t.records,
    InRegion lines t r
  last : ∀ d t, s.databases.getLast? = some d → d.tables.getLast? = some t →
    OpenedBy lines t

section Regions

variable {lines : List String} {line : String} {s s' : Schema} {d : Database}
  {t t' : Table} {r : Record} {ds : List Database} {ts : List Table}
  {qs : List Sequence}

theorem InRegion.append (h : InRegion lines t r) (more : List String) :
    InRegion (lines ++ more) t r := by
  obtain ⟨before, line, after, rfl, hr, ht⟩ := h
  exact ⟨before, line, after ++ more, by simp, hr, ht⟩

/-- The parts of a table do not tell it from others. -/
theorem OpenedBy.congr (h : OpenedBy lines t) (ht : t.bare = t'.bare) :
    OpenedBy lines t' := by
  unfold OpenedBy
  rwa [← ht]

theorem InRegion.congr (h : InRegion lines t r) (ht : t.bare = t'.bare) :
    InRegion lines t' r := by
  obtain ⟨before, line, after, hlines, hr, hopened⟩ := h
  exact ⟨before, line, after, hlines, hr, hopened.congr ht⟩

/-- Parts go on to belong to the table. -/
theorem OpenedBy.append (h : OpenedBy lines t)
    (hline : ∀ r, Record.ofLine? line = some r → r.opens = false) :
    OpenedBy (lines ++ [line]) t := by
  obtain ⟨before, head, between, rfl, ht, hquiet⟩ := h
  refine ⟨before, head, between ++ [line], by simp, ht, fun l hl => ?_⟩
  rcases List.mem_append.1 hl with hl | hl
  · exact hquiet l hl
  · rwa [List.mem_singleton.1 hl]

/-- The record of a table tells of no parts, and its second column names the
table. -/
theorem of_ofColumns?_table {c : Char} {columns : List String}
    (h : Record.ofColumns? c columns = some (.table t)) :
    t.bare = t ∧ columns[1]? = some t.name := by
  unfold Record.ofColumns? at h
  split at h
  case h_3 =>
    obtain rfl := Record.table.inj (Option.some.inj h)
    exact ⟨by simp only [Table.bare], by simp⟩
  case h_6 =>
    obtain ⟨f, -, hf⟩ := Option.map_eq_some_iff.1 h
    cases hf
  all_goals cases h

/-- The record of a database tells of no tables. -/
theorem of_ofColumns?_database {c : Char} {columns : List String}
    (h : Record.ofColumns? c columns = some (.database d)) :
    d.tables = [] := by
  unfold Record.ofColumns? at h
  split at h
  case h_1 =>
    obtain rfl := Record.database.inj (Option.some.inj h)
    rfl
  case h_6 =>
    obtain ⟨f, -, hf⟩ := Option.map_eq_some_iff.1 h
    cases hf
  all_goals cases h

theorem columns_of_ofLine? (h : Record.ofLine? line = some r) :
    ∃ c, Record.ofColumns? c (Text.pieces '\t' line) = some r := by
  unfold Record.ofLine? at h
  split at h
  · cases h
  · exact ⟨_, h⟩

theorem opens_of_isPart (h : r.isPart = true) : r.opens = false := by
  cases r <;> first | rfl | cases h

theorem records_of_bare (h : t.bare = t) : t.records = [] := by
  rw [← h]
  rfl

theorem bare_extended (t : Table) (records : List Record) :
    (t.extended records).bare = t.bare := rfl

/-- A table has one more part. -/
theorem mem_records_extended {r' : Record} (hr : r.isPart = true)
    (h : r' ∈ (t.extended [r]).records) : r' ∈ t.records ∨ r' = r := by
  unfold Table.records Table.extended at h
  unfold Table.records
  cases r with
  | trigger x | index i | field f =>
      simp [Record.trigger?, Record.index?, Record.field?,
        List.filterMap_cons] at h
      simp only [List.mem_append, List.mem_map]
      grind
  | _ => cases hr

/-- No part is added where there is no table. -/
theorem add_part_of_none (hr : r.isPart = true)
    (h : s.databases = [] ∨ ∃ ds d qs, s = reading ds d [] qs) :
    s.add r = s := by
  have hchange : ∀ f, s.changeTable f = s := by
    intro f
    rcases h with h | ⟨ds, d, qs, rfl⟩
    · unfold changeTable
      rw [h]
      cases s
      cases h
      rfl
    · simp only [reading, changeTable, changeLast_append]
      rfl
  cases r with
  | trigger x | index i | field f => exact hchange _
  | _ => cases hr

/-- A schema with no database, one whose last database has no table, or one
whose last database has a last table. -/
theorem eq_reading (s : Schema) : s.databases = []
    ∨ ∃ ds d ts qs, s = reading ds d ts qs
      ∧ (ts = [] ∨ ∃ ts' t, ts = ts' ++ [t]) := by
  rcases List.eq_nil_or_concat s.databases with hs | ⟨ds, d, hs⟩
  · exact .inl hs
  · refine .inr ⟨ds, d, d.tables, s.sequences, ?_, ?_⟩
    · rw [List.concat_eq_append] at hs
      unfold reading
      rw [← hs]
    · rcases List.eq_nil_or_concat d.tables with ht | ⟨ts, t, ht⟩
      · exact .inl ht
      · exact .inr ⟨ts, t, by rw [ht, List.concat_eq_append]⟩

theorem getLast?_reading :
    (reading ds d ts qs).databases.getLast? = some { d with tables := ts } :=
  List.getLast?_concat

-- =================================================================== reading

namespace Traced

theorem start : Traced [] {} := ⟨nofun, nofun⟩

/-- No table is opened, and none has another part. -/
theorem pass (h : Traced lines s) (hs : s'.databases = s.databases)
    (hline : ∀ r, Record.ofLine? line = some r → r.opens = false) :
    Traced (lines ++ [line]) s' := by
  refine ⟨fun d hd t ht r hr => ?_, fun d t hd ht => ?_⟩
  · rw [hs] at hd
    exact (h.parts d hd t ht r hr).append _
  · rw [hs] at hd
    exact (h.last d t hd ht).append hline

/-- A database is opened, which has no table yet. -/
theorem database (h : Traced lines s) (hd : d.tables = []) :
    Traced (lines ++ [line]) (s.add (.database d)) := by
  refine ⟨fun d' hd' t ht r hr => ?_, fun d' t hd' ht => ?_⟩
  · rcases List.mem_append.1 hd' with hd' | hd'
    · exact (h.parts d' hd' t ht r hr).append _
    · rw [List.mem_singleton.1 hd', hd] at ht
      cases ht
  · obtain rfl : d = d' :=
      Option.some.inj (List.getLast?_concat.symm.trans hd')
    rw [hd] at ht
    cases ht

/-- A table is opened in the last database. -/
theorem table (h : Traced lines (reading ds d ts qs)) (ht : t.bare = t)
    (hline : Record.ofLine? line = some (.table t)) :
    Traced (lines ++ [line]) (reading ds d (ts ++ [t]) qs) := by
  refine ⟨fun d' hd' t' ht' r hr => ?_, fun d' t' hd' ht' => ?_⟩
  · rcases List.mem_append.1 hd' with hd' | hd'
    · exact (h.parts d' (List.mem_append_left _ hd') t' ht' r hr).append _
    · rw [List.mem_singleton.1 hd'] at ht'
      rcases List.mem_append.1 ht' with ht' | ht'
      · exact (h.parts _ (List.mem_append_right _ List.mem_cons_self) t' ht' r
          hr).append _
      · rw [List.mem_singleton.1 ht', records_of_bare ht] at hr
        cases hr
  · rw [getLast?_reading] at hd'
    obtain rfl := Option.some.inj hd'
    obtain rfl : t = t' :=
      Option.some.inj (List.getLast?_concat.symm.trans ht')
    exact ⟨lines, line, [], rfl, ht ▸ hline, nofun⟩

/-- The last table has another part. -/
theorem part (h : Traced lines (reading ds d (ts ++ [t]) qs))
    (hline : Record.ofLine? line = some r) (hr : r.isPart = true) :
    Traced (lines ++ [line]) (reading ds d (ts ++ [t.extended [r]]) qs) := by
  have hlast : OpenedBy lines t :=
    h.last _ t getLast?_reading List.getLast?_concat
  have hquiet : ∀ r', Record.ofLine? line = some r' → r'.opens = false := by
    intro r' hr'
    rw [← Option.some.inj (hline.symm.trans hr')]
    exact opens_of_isPart hr
  refine ⟨fun d' hd' t' ht' r' hr' => ?_, fun d' t' hd' ht' => ?_⟩
  · rcases List.mem_append.1 hd' with hd' | hd'
    · exact (h.parts d' (List.mem_append_left _ hd') t' ht' r' hr').append _
    · have hd : { d with tables := ts ++ [t] }
          ∈ (reading ds d (ts ++ [t]) qs).databases :=
        List.mem_append_right ds List.mem_cons_self
      rw [List.mem_singleton.1 hd'] at ht'
      rcases List.mem_append.1 ht' with ht' | ht'
      · exact (h.parts _ hd t' (List.mem_append_left _ ht') r' hr').append _
      · rw [List.mem_singleton.1 ht'] at hr' ⊢
        rcases mem_records_extended hr hr' with hr' | rfl
        · exact ((h.parts _ hd t (List.mem_append_right _ List.mem_cons_self)
            r' hr').append _).congr (bare_extended t _).symm
        · exact ⟨lines, line, [], rfl, hline,
            hlast.congr (bare_extended t _).symm⟩
  · rw [getLast?_reading] at hd'
    obtain rfl := Option.some.inj hd'
    obtain rfl : t.extended [r] = t' :=
      Option.some.inj (List.getLast?_concat.symm.trans ht')
    exact (hlast.append hquiet).congr (bare_extended t _).symm

/-- One more record is read. -/
theorem record (h : Traced lines s) (hline : Record.ofLine? line = some r) :
    Traced (lines ++ [line]) (s.add r) := by
  have hquiet : r.opens = false →
      ∀ r', Record.ofLine? line = some r' → r'.opens = false :=
    fun hr r' hr' => Option.some.inj (hline.symm.trans hr') ▸ hr
  obtain ⟨c, hcolumns⟩ := columns_of_ofLine? hline
  have hpart : r.isPart = true → Traced (lines ++ [line]) (s.add r) := by
    intro hr
    have hquiet := hquiet (opens_of_isPart hr)
    rcases eq_reading s with hs | ⟨ds, d, ts, qs, rfl, rfl | ⟨ts', t, rfl⟩⟩
    · exact h.pass (congrArg _ (add_part_of_none hr (.inl hs))) hquiet
    · exact h.pass
        (congrArg _ (add_part_of_none hr (.inr ⟨ds, d, qs, rfl⟩))) hquiet
    · rw [add_part hr]
      exact h.part hline hr
  cases r with
  | database d => exact h.database (of_ofColumns?_database hcolumns)
  | sequence name =>
      refine h.pass ?_ (hquiet rfl)
      unfold add
      dsimp only
      split <;> rfl
  | table t =>
      rcases eq_reading s with hs | ⟨ds, d, ts, qs, rfl, -⟩
      · -- without a database nothing is opened
        have hadd : (s.add (.table t)).databases = [] := by
          unfold add
          rw [hs]
          rfl
        constructor <;> rw [hadd] <;> nofun
      · rw [add_table]
        exact h.table (of_ofColumns?_table hcolumns).1 hline
  | trigger x | index i | field f => exact hpart rfl

end Traced

/-- What is read of some lines is told in its region. -/
theorem traced_ofLines (lines : List String) : Traced lines (ofLines lines) := by
  induction lines using List.reverseRecOn with
  | nil => exact .start
  | append_singleton lines line ih =>
      unfold ofLines at ih ⊢
      rw [List.filterMap_append, List.foldl_append]
      cases hline : Record.ofLine? line with
      | none =>
          rw [List.filterMap_cons, hline]
          exact ih.pass rfl (by rw [hline]; nofun)
      | some r =>
          rw [List.filterMap_cons, hline]
          exact ih.record hline

theorem mem_records_sorted : r ∈ t.sorted.records ↔ r ∈ t.records := by
  unfold Table.records Table.sorted
  simp only [List.mem_append, List.mem_map, List.mem_mergeSort]

theorem isPart_of_mem_records (h : r ∈ t.records) : r.isPart = true := by
  unfold Table.records at h
  rcases List.mem_append.1 h with h | h
  · rcases List.mem_append.1 h with h | h
    · obtain ⟨x, -, rfl⟩ := List.mem_map.1 h
      rfl
    · obtain ⟨i, -, rfl⟩ := List.mem_map.1 h
      rfl
  · obtain ⟨f, -, rfl⟩ := List.mem_map.1 h
    rfl

/-- Every record of a part names the table whose record was read last. -/
def NamesLast (lines : List String) : Prop :=
  ∀ before line after t r, lines = before ++ line :: after →
    OpenedBy before t → Record.ofLine? line = some r → r.isPart = true →
    ∃ name, tableColumn? line = some name ∧ Text.same name t.name = true

end Regions

/-- Every part of a table is told after the record of the table, with no other
record of a table or a database between. So where all parts name the table that
was read last, it names its own. -/
theorem part_of_region (text : String) :
    ∀ d ∈ (parse text "").databases, ∀ t ∈ d.tables, ∀ r ∈ t.records,
      ∃ before head between line after,
        Text.lines text = before ++ head :: (between ++ line :: after)
          ∧ Record.ofLine? head = some (.table t.bare)
          ∧ tableColumn? head = some t.name
          ∧ (∀ l ∈ between, ∀ r', Record.ofLine? l = some r' →
            r'.opens = false)
          ∧ Record.ofLine? line = some r
          ∧ (NamesLast (Text.lines text) →
            ∃ name, tableColumn? line = some name
              ∧ Text.same name t.name = true) := by
  intro d hd t ht r hr
  rw [parse_plain] at hd
  obtain ⟨d', hd', rfl⟩ := List.mem_map.1 hd
  obtain ⟨t', ht', rfl⟩ := List.mem_map.1 ht
  obtain ⟨opened, line, after, hlines, hline, hopened⟩ :=
    ((traced_ofLines (Text.lines text)).parts d' hd' t' ht' r
      (mem_records_sorted.1 hr)).congr (show t'.bare = t'.sorted.bare from rfl)
  have hnames : NamesLast (Text.lines text) → ∃ name,
      tableColumn? line = some name
        ∧ Text.same name t'.sorted.name = true :=
    fun h => h opened line after _ r hlines hopened hline
      (isPart_of_mem_records hr)
  obtain ⟨before, head, between, rfl, hhead, hquiet⟩ := hopened
  obtain ⟨c, hcolumns⟩ := columns_of_ofLine? hhead
  exact ⟨before, head, between, line, after, by rw [hlines]; simp, hhead,
    (of_ofColumns?_table hcolumns).2, hquiet, hline, hnames⟩

/-- A field of a small table. -/
private def regionField (name : String) : Field :=
  { name, dataType := "integer", primitive := some .integer, format := ">>9"
    order := 1, mandatory := false, extent := 0, inIndex := false
    primaryKey := false, initial := "", description := "" }

/-- A small database with one table. -/
private def regionShop (names : List String) : Database :=
  { name := "shop", physicalName := "shop", version := "12", dumpDate := "d"
    dumpTime := "t"
    tables := [{ name := "item", id := "1", crc := "1", dumpName := "item"
                 description := "", hidden := false, frozen := false
                 kind := .table, fields := names.map regionField }] }

/-- A dump of it with one field. -/
private def itemDump : String :=
  "H\td\tt\tshop\tshop\t12\nT\titem\t1\t1\titem\t\t0\t0\tT\n"
    ++ "F\tITEM\tnum\tinteger\t>>9\t1\t0\t0\t0\t0\t\t\n"

/-- The field names its table in capitals. -/
theorem part_of_region_item :
    NamesLast (Text.lines itemDump)
      ∧ ∃ d ∈ (parse itemDump "").databases, ∃ t ∈ d.tables,
        .field (regionField "num") ∈ t.records
          ∧ ∃ line ∈ Text.lines itemDump,
            Record.ofLine? line = some (.field (regionField "num"))
              ∧ ∃ name, tableColumn? line = some name
                ∧ Text.same name t.name = true := by
  have hparse : parse itemDump "" = { databases := [regionShop ["num"]] } := by
    decide +kernel
  have hcolumns : ∀ l ∈ Text.lines itemDump,
      ((Record.ofLine? l).all fun r => match r with
        | .table t => t.name == "item"
        | r => !r.isPart || tableColumn? l == some "ITEM") = true := by
    decide +kernel
  have hnames : NamesLast (Text.lines itemDump) := by
    intro before line after t r hlines hopened hline hpart
    obtain ⟨front, head, between, rfl, hhead, -⟩ := hopened
    have ht := hcolumns head (by rw [hlines]; simp)
    rw [hhead] at ht
    have hr := hcolumns line (by rw [hlines]; simp)
    rw [hline] at hr
    refine ⟨"ITEM", ?_, ?_⟩
    · cases r with
      | trigger x | index i | field f => exact beq_iff_eq.1 hr
      | _ => cases hpart
    · rw [show t.name = "item" from beq_iff_eq.1 ht]
      decide +kernel
  refine ⟨hnames, regionShop ["num"], ?_⟩
  have hd : regionShop ["num"] ∈ (parse itemDump "").databases := by
    rw [hparse]
    exact List.mem_singleton_self _
  refine ⟨hd, _, List.mem_cons_self, List.mem_cons_self, ?_⟩
  obtain ⟨before, head, between, line, after, hlines, -, -, -, hline, hown⟩ :=
    part_of_region itemDump _ hd _ List.mem_cons_self
      (.field (regionField "num")) List.mem_cons_self
  exact ⟨line, by rw [hlines]; simp, hline, hown hnames⟩

/-- A table, a table whose record lacks a column, and a field of that one. -/
private def strayDump : String :=
  "H\td\tt\tshop\tshop\t12\nT\titem\t1\t1\titem\t\t0\t0\tT\n"
    ++ "T\tbin\t2\t2\tbin\t\t0\t0\n"
    ++ "F\tbin\tshelf\tinteger\t>>9\t1\t0\t0\t0\t0\t\t\n"

/-- The field is a part of the first table, though its record names the
other. -/
theorem part_of_skipped_table :
    ∃ d ∈ (parse strayDump "").databases, ∃ t ∈ d.tables, ∃ r ∈ t.records,
      ∀ line ∈ Text.lines strayDump, Record.ofLine? line = some r →
        ∀ name, tableColumn? line = some name →
          Text.same name t.name = false := by
  have hparse : parse strayDump "" = { databases := [regionShop ["shelf"]] } := by
    decide +kernel
  have hlines : ∀ line ∈ Text.lines strayDump,
      Record.ofLine? line = some (.field (regionField "shelf")) →
        tableColumn? line = some "bin" := by
    decide +kernel
  rw [hparse]
  refine ⟨_, List.mem_singleton_self _, _, List.mem_singleton_self _, _,
    List.mem_singleton_self _, fun line hline hr name hname => ?_⟩
  obtain rfl : "bin" = name :=
    Option.some.inj ((hlines line hline hr).symm.trans hname)
  decide +kernel

end AblOutline.Schema
