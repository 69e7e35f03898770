/-
How the lines of a dump write its records. A record is written in columns, and
columns that are not read may hold any text; a record of a field writes its
numbers in digits. The line of a record is read back as that record
(`ofLine?_written`), and a line of another shape as none
(`ofLine?_malformed`). So a text that has the lines of some records, with
malformed lines among them, holds these records (`records_of_dumped`).
-/
import AblOutline.Schema.Dump
import AblOutline.Proofs.Pieces

namespace AblOutline

-- ================================================================= numerals

namespace Text

/-- Digits, and the number that they write. -/
def Digits (cs : List Char) (n : Nat) : Prop :=
  cs ≠ [] ∧ (∀ c ∈ cs, c.isDigit = true) ∧ Nat.ofDigitChars 10 cs 0 = n

/-- A number written with a sign or without one. -/
inductive Denotes : List Char → Int → Prop where
  | plain {cs : List Char} {n : Nat} : Digits cs n → Denotes cs n
  | plus {cs : List Char} {n : Nat} : Digits cs n → Denotes ('+' :: cs) n
  | minus {cs : List Char} {n : Nat} : Digits cs n → Denotes ('-' :: cs) (-n)

section Numerals

variable {c : Char} {cs : List Char} {d n v : Nat} {z : Int}

theorem isDigit_iff : c.isDigit = true ↔ 48 ≤ c.toNat ∧ c.toNat ≤ 57 := by
  unfold Char.isDigit
  rw [Bool.and_eq_true, decide_eq_true_iff, decide_eq_true_iff]
  exact Iff.rfl

/-- To base ten the digits alone have a value. -/
theorem digitValue?_eq_some_iff :
    digitValue? 10 c = some d
      ↔ c.isDigit = true ∧ c.toNat - '0'.toNat = d := by
  have hzero : '0'.toNat = 48 := rfl
  unfold digitValue?
  by_cases hc : c.isDigit = true
  · have hlt : c.toNat - 48 < 10 := by
      have := isDigit_iff.1 hc
      omega
    rw [if_pos hc, hzero]
    simp only [Option.filter, hlt, decide_true, if_true, hc, true_and,
      Option.some.injEq]
  · rw [if_neg hc]
    refine ⟨fun h => ?_, fun h => absurd h.1 hc⟩
    obtain ⟨hvalue, hlt⟩ := Option.filter_eq_some_iff.1 h
    rw [decide_eq_true_iff] at hlt
    -- a letter counts from ten
    split at hvalue
    · cases hvalue
      omega
    · split at hvalue
      · cases hvalue
        omega
      · cases hvalue

theorem digitsFrom?_eq_some_iff :
    digitsFrom? 10 v cs = some n
      ↔ (∀ c ∈ cs, c.isDigit = true) ∧ Nat.ofDigitChars 10 cs v = n := by
  induction cs generalizing v with
  | nil => simp [digitsFrom?]
  | cons c cs ih =>
      rw [digitsFrom?, Option.bind_eq_some_iff, Nat.ofDigitChars_cons,
        Nat.mul_comm 10 v, List.forall_mem_cons, and_assoc]
      constructor
      · rintro ⟨d, hd, hrest⟩
        obtain ⟨hc, rfl⟩ := digitValue?_eq_some_iff.1 hd
        exact ⟨hc, ih.1 hrest⟩
      · rintro ⟨hc, hrest⟩
        exact ⟨_, digitValue?_eq_some_iff.2 ⟨hc, rfl⟩, ih.2 hrest⟩

theorem natural?_eq_some_iff : natural? 10 cs = some n ↔ Digits cs n := by
  rw [natural?, Digits]
  cases cs with
  | nil => simp
  | cons c cs =>
      rw [List.isEmpty_cons, if_neg (by simp), digitsFrom?_eq_some_iff]
      simp

/-- A number of 32 bits is a number. -/
theorem of_signed32? (h : signed32? cs = some z) :
    Denotes cs z ∧ -2 ^ 31 ≤ z ∧ z < 2 ^ 31 := by
  unfold signed32? at h
  split at h
  next rest =>
    obtain ⟨m, hm, rfl⟩ := Option.map_eq_some_iff.1 h
    obtain ⟨n, hn, hcast⟩ := Option.bind_eq_some_iff.1 hm
    obtain rfl : (n : Int) = m := Option.some.inj hcast
    obtain ⟨hn, hle⟩ := Option.filter_eq_some_iff.1 hn
    rw [decide_eq_true_iff] at hle
    exact ⟨.minus (natural?_eq_some_iff.1 hn), by omega, by omega⟩
  all_goals
    obtain ⟨n, hn, rfl⟩ := Option.map_eq_some_iff.1 h
    obtain ⟨hn, hlt⟩ := Option.filter_eq_some_iff.1 hn
    rw [decide_eq_true_iff] at hlt
    have hdigits := natural?_eq_some_iff.1 hn
    rw [Int.ofNat_eq_natCast]
  · exact ⟨.plus hdigits, by omega, by omega⟩
  · exact ⟨.plain hdigits, by omega, by omega⟩

theorem of_unsigned32? (h : unsigned32? cs = some n) :
    Denotes cs n ∧ n < 2 ^ 32 := by
  unfold unsigned32? at h
  obtain ⟨hn, hlt⟩ := Option.filter_eq_some_iff.1 h
  rw [decide_eq_true_iff] at hlt
  refine ⟨?_, by omega⟩
  split at hn
  · exact .plus (natural?_eq_some_iff.1 hn)
  · exact .plain (natural?_eq_some_iff.1 hn)

/-- The digits of a number write it. -/
theorem digits_repr (n : Nat) : Digits n.repr.toList n := by
  rw [Nat.repr_eq_ofList_toDigits, String.toList_ofList]
  exact ⟨Nat.toDigits_ne_nil,
    fun c hc => Nat.isDigit_of_mem_toDigits (by omega) (by omega) hc,
    Nat.ofDigitChars_ten_toDigits⟩

/-- Digits do not begin with a sign. -/
theorem Digits.head_ne {k : Char} (h : Digits (c :: cs) n)
    (hk : k.isDigit = false) : c ≠ k := by
  rintro rfl
  rw [h.2.1 c (by simp)] at hk
  cases hk

theorem Digits.unsigned32? (h : Digits cs n) (hn : n < 2 ^ 32) :
    unsigned32? cs = some n := by
  unfold Text.unsigned32?
  split
  · exact absurd rfl (h.head_ne rfl)
  · dsimp only
    rw [natural?_eq_some_iff.2 h]
    simpa [Option.filter] using hn

theorem Digits.signed32? (h : Digits cs n) (hn : n < 2 ^ 31) :
    signed32? cs = some (n : Int) := by
  unfold Text.signed32?
  split
  · exact absurd rfl (h.head_ne rfl)
  · exact absurd rfl (h.head_ne rfl)
  · rw [natural?_eq_some_iff.2 h]
    simpa [Option.filter] using hn

/-- A text without white space is trimmed to itself. -/
theorem trimChars_of_not_isBlank (h : ∀ c ∈ cs, isBlank c = false) :
    trimChars cs = cs := by
  have hdrop : ∀ ds : List Char, (∀ c ∈ ds, isBlank c = false) →
      ds.dropWhile isBlank = ds := by
    intro ds hds
    cases ds with
    | nil => rfl
    | cons c ds => rw [List.dropWhile_cons_of_neg (by simp [hds c])]
  rw [trimChars, trimStart, hdrop cs h, trimEnd,
    hdrop _ (fun c hc => h c (List.mem_reverse.1 hc)), List.reverse_reverse]

theorem Digits.not_isBlank (h : Digits cs n) :
    ∀ c ∈ cs, isBlank c = false := by
  intro c hc
  have hdigit := isDigit_iff.1 (h.2.1 c hc)
  simp [isBlank, inRuns, blankRuns]
  omega

/-- A number that fits is read back. -/
theorem unsigned32?_repr (h : n < 2 ^ 32) :
    unsigned32? (trimChars n.repr.toList) = some n := by
  have hdigits := digits_repr n
  rw [trimChars_of_not_isBlank hdigits.not_isBlank]
  exact hdigits.unsigned32? h

theorem signed32?_repr (hlow : -2 ^ 31 ≤ z) (hhigh : z < 2 ^ 31) :
    signed32? (trimChars z.repr.toList) = some z := by
  cases z with
  | ofNat n =>
      have hdigits := digits_repr n
      have hlt : n < 2 ^ 31 := by
        rw [Int.ofNat_eq_natCast] at hhigh
        omega
      show signed32? (trimChars n.repr.toList) = some (n : Int)
      rw [trimChars_of_not_isBlank hdigits.not_isBlank]
      exact hdigits.signed32? hlt
  | negSucc n =>
      have hdigits := digits_repr (n + 1)
      have hlist : (Int.negSucc n).repr.toList = '-' :: (n + 1).repr.toList := by
        show ("-" ++ (n + 1).repr).toList = _
        simp
      have hblank : ∀ c ∈ '-' :: (n + 1).repr.toList, isBlank c = false :=
        List.forall_mem_cons.2 ⟨by decide, hdigits.not_isBlank⟩
      have hle : n + 1 ≤ 0x80000000 := by omega
      rw [hlist, trimChars_of_not_isBlank hblank, Text.signed32?,
        natural?_eq_some_iff.2 hdigits]
      simp only [Option.filter, hle, decide_true, if_true]
      rfl

end Numerals

-- ==================================================================== lines

/-- What holds of the characters of texts and of the separator holds of those
of the joined text. -/
theorem forall_mem_intercalate {p : Char → Prop} {sep : String}
    {ss : List String} (hsep : ∀ c ∈ sep.toList, p c)
    (h : ∀ s ∈ ss, ∀ c ∈ s.toList, p c) :
    ∀ c ∈ (sep.intercalate ss).toList, p c := by
  induction ss with
  | nil => simp
  | cons s ss ih =>
      obtain ⟨hs, hss⟩ := List.forall_mem_cons.1 h
      cases ss with
      | nil => simpa using hs
      | cons t ss =>
          intro c hc
          rw [String.intercalate_cons_cons, String.toList_append,
            String.toList_append, List.mem_append, List.mem_append] at hc
          obtain (hc | hc) | hc := hc
          · exact hs c hc
          · exact hsep c hc
          · exact ih hss c hc

/-- A text that is one line, without what ends it. -/
def IsLine (s : String) : Prop := '\n' ∉ s.toList

instance (s : String) : Decidable (IsLine s) :=
  inferInstanceAs (Decidable (¬ _))

/-- What may end the line: LF or CR LF. A CR before the LF belongs to the
end. -/
def Ends (line ending : String) : Prop :=
  (ending = "\n" ∧ line.toList.getLast? ≠ some '\r') ∨ ending = "\r\n"

instance (line ending : String) : Decidable (Ends line ending) :=
  inferInstanceAs (Decidable (_ ∨ _))

theorem dropEnd_of_getLast? {mark : Char} {cs : List Char}
    (h : cs.getLast? ≠ some mark) : dropEnd mark cs = cs := by
  rw [dropEnd]
  rw [← List.head?_reverse] at h
  cases hcs : cs.reverse with
  | nil => simpa [dropStart] using hcs
  | cons c rest =>
      rw [hcs, List.head?_cons] at h
      rw [dropStart, if_neg (by simpa using h), ← hcs, List.reverse_reverse]

/-- A line that is ended is the first of the lines. -/
theorem lines_append {line ending : String} (text : String)
    (hline : IsLine line) (hend : Ends line ending) :
    lines (line ++ ending ++ text) = line :: lines text := by
  -- what stands before the LF is the line, or the line and a CR
  obtain ⟨mark, hfree, hdrop, htext⟩ : ∃ mark : List Char,
      '\n' ∉ line.toList ++ mark
      ∧ dropEnd '\r' (line.toList ++ mark) = line.toList
      ∧ (line ++ ending ++ text).toList
        = (line.toList ++ mark) ++ '\n' :: text.toList := by
    rcases hend with ⟨rfl, hlast⟩ | rfl
    · refine ⟨[], by simpa [IsLine] using hline, ?_, by simp⟩
      rw [List.append_nil, dropEnd_of_getLast? hlast]
    · exact ⟨['\r'], by simpa [IsLine] using hline, by simp [dropEnd, dropStart],
        by simp⟩
  have hne : piecesOf '\n' text.toList ≠ [] := piecesOf_ne_nil _
  simp only [lines, htext, piecesOf_append hfree,
    List.dropLast_cons_of_ne_nil hne, List.map_cons, hdrop, List.cons_append,
    String.ofList_toList, List.getLast?_cons_of_ne_nil hne]

/-- A line that nothing ends is the last one. -/
theorem lines_of_isLine {line : String} (h : IsLine line) (hne : line ≠ "") :
    lines line = [line] := by
  have hne : line.toList ≠ [] := by simpa using hne
  simp [lines, piecesOf_of_not_mem h, hne]

end Text

-- ================================================================== records

namespace Schema

/-- A text that a column can hold. -/
def Clean (s : String) : Prop :=
  ∀ c ∈ s.toList, c ≠ '\t' ∧ c ≠ '\n'

instance (s : String) : Decidable (Clean s) :=
  List.decidableBAll _ s.toList

/-- The column of a truth value. -/
def bit (b : Bool) : String := if b then "1" else "0"

/-- The column of a kind of table. -/
def TableKind.column : TableKind → String
  | .table => "T"
  | .system => "S"
  | .view => "V"

namespace Record

variable {r : Record} {fill : Nat → String} {line text : String}

/-- The character that tells the sort of the record. -/
def sort : Record → Char
  | .database _ => 'H'
  | .sequence _ => 'S'
  | .table _ => 'T'
  | .trigger _ => 'X'
  | .index _ => 'I'
  | .field _ => 'F'

/-- The columns of the record after the first; `fill` is what stands in those
that are not read. -/
def columns (fill : Nat → String) : Record → List String
  | .database d => [d.dumpDate, d.dumpTime, d.name, d.physicalName, d.version]
  | .sequence name => [name, fill 2]
  | .table t =>
    [t.name, t.id, t.crc, t.dumpName, t.description, bit t.hidden,
      bit t.frozen, t.kind.column]
  | .trigger x => [fill 1, x.event, x.procedure, fill 4]
  | .index i =>
    [fill 1, i.name, bit i.primary, bit i.unique, fill 5,
      "%".intercalate i.fields]
  | .field f =>
    [fill 1, f.name, f.dataType, f.format, toString f.order, bit f.mandatory,
      toString f.extent, bit f.inIndex, bit f.primaryKey, f.initial,
      f.description]

/-- The texts of the record. -/
def texts : Record → List String
  | .database d => [d.dumpDate, d.dumpTime, d.name, d.physicalName, d.version]
  | .sequence name => [name]
  | .table t => [t.name, t.id, t.crc, t.dumpName, t.description]
  | .trigger x => [x.event, x.procedure]
  | .index i => i.name :: i.fields
  | .field f => [f.name, f.dataType, f.format, f.initial, f.description]

/-- What the record says beside its texts is what a line can say: databases
and tables come without what is told by records of their own, the names that
an index joins can be told apart, and a field has the type of its type word
and numbers of 32 bits. -/
def Sayable : Record → Prop
  | .database d => d.tables = [] ∧ d.aliasOf = none
  | .table t => t.fields = [] ∧ t.indexes = [] ∧ t.triggers = []
  | .index i => ∀ name ∈ i.fields, name ≠ "" ∧ '%' ∉ name.toList
  | .field f =>
    f.primitive = Primitive.ofWord? f.dataType
      ∧ -2 ^ 31 ≤ f.order ∧ f.order < 2 ^ 31 ∧ f.extent < 2 ^ 32
  | .sequence _ | .trigger _ => True

instance : (r : Record) → Decidable r.Sayable
  | .database _ => inferInstanceAs (Decidable (_ ∧ _))
  | .table _ => inferInstanceAs (Decidable (_ ∧ _))
  | .index i => List.decidableBAll _ i.fields
  | .field _ => inferInstanceAs (Decidable (_ ∧ _))
  | .sequence _ | .trigger _ => isTrue trivial

/-- The line writes the record. The first column starts with the sort; what
follows it there is not read. -/
def WrittenAs (r : Record) (line : String) : Prop :=
  r.Sayable ∧ (∀ t ∈ r.texts, Clean t)
    ∧ ∃ fill : Nat → String, (∀ i, Clean (fill i))
      ∧ line = "\t".intercalate
          ((String.singleton r.sort ++ fill 0) :: r.columns fill)

end Record

-- ------------------------------------------------------------ clean columns

section Clean

variable {s t : String}

theorem Clean.not_mem_tab (h : Clean s) : '\t' ∉ s.toList :=
  fun hmem => (h _ hmem).1 rfl

theorem Clean.append (hs : Clean s) (ht : Clean t) : Clean (s ++ t) := by
  intro c hc
  rw [String.toList_append, List.mem_append] at hc
  exact hc.elim (hs c) (ht c)

theorem Clean.intercalate {ss : List String} (hs : Clean s)
    (h : ∀ t ∈ ss, Clean t) : Clean (s.intercalate ss) :=
  Text.forall_mem_intercalate hs h

theorem clean_bit (b : Bool) : Clean (bit b) := by
  cases b <;> simp [Clean, bit]

theorem clean_column (kind : TableKind) : Clean kind.column := by
  cases kind <;> simp [Clean, TableKind.column]

theorem clean_repr (n : Nat) : Clean n.repr := by
  intro c hc
  have hdigit := (Text.digits_repr n).2.1 c hc
  constructor <;> rintro rfl <;> exact absurd hdigit (by decide)

theorem clean_intRepr (z : Int) : Clean z.repr := by
  cases z with
  | ofNat n => exact clean_repr n
  | negSucc n =>
      have hminus : Clean "-" := by simp [Clean]
      exact hminus.append (clean_repr (n + 1))

end Clean

namespace Record

variable {r : Record} {fill : Nat → String} {line text : String}

theorem clean_columns (htexts : ∀ t ∈ r.texts, Clean t)
    (hfill : ∀ i, Clean (fill i)) : ∀ t ∈ r.columns fill, Clean t := by
  cases r with
  | index i =>
      obtain ⟨hname, hfields⟩ := List.forall_mem_cons.1 htexts
      have hjoined : Clean ("%".intercalate i.fields) :=
        Clean.intercalate (by simp [Clean]) hfields
      simp [columns, hfill, hname, hjoined, clean_bit]
  | _ =>
      simp only [texts, List.forall_mem_cons] at htexts
      simp [columns, hfill, htexts, clean_bit, clean_column,
        clean_repr, clean_intRepr]

theorem clean_of_writtenAs (h : r.WrittenAs line) :
    ∃ fill, line = "\t".intercalate
        ((String.singleton r.sort ++ fill 0) :: r.columns fill)
      ∧ ∀ t ∈ (String.singleton r.sort ++ fill 0) :: r.columns fill,
        Clean t := by
  obtain ⟨-, htexts, fill, hfill, rfl⟩ := h
  have hsort : Clean (String.singleton r.sort) := by
    cases r <;> simp [Clean, sort]
  exact ⟨fill, rfl, List.forall_mem_cons.2
    ⟨hsort.append (hfill 0), clean_columns htexts hfill⟩⟩

/-- The line that writes a record starts with its sort and has its columns
between the tabs. -/
theorem columns_of_writtenAs (h : r.WrittenAs line) :
    ∃ fill rest, line.toList = r.sort :: rest
      ∧ Text.pieces '\t' line
        = (String.singleton r.sort ++ fill 0) :: r.columns fill := by
  obtain ⟨fill, rfl, hclean⟩ := clean_of_writtenAs h
  have hpieces := Text.pieces_intercalate (List.cons_ne_nil _ _)
    fun t ht => (hclean t ht).not_mem_tab
  obtain ⟨rest, hrest⟩ : ∃ rest, ("\t".intercalate
      ((String.singleton r.sort ++ fill 0) :: r.columns fill)).toList
      = r.sort :: rest := by
    rw [String.toList_intercalate]
    cases r <;> simp [columns, List.intercalate_cons_cons]
  exact ⟨fill, rest, hrest, hpieces⟩

/-- A line that writes a record is one line, and holds something. -/
theorem isLine_of_writtenAs (h : r.WrittenAs line) :
    Text.IsLine line ∧ line ≠ "" := by
  obtain ⟨_, _, hline, -⟩ := columns_of_writtenAs h
  refine ⟨?_, fun he => by simp [he] at hline⟩
  obtain ⟨fill, rfl, hclean⟩ := clean_of_writtenAs h
  have hends : ∀ c ∈ ("\t".intercalate ((String.singleton r.sort ++ fill 0)
      :: r.columns fill)).toList, c ≠ '\n' :=
    Text.forall_mem_intercalate (by simp)
      fun t ht c hc => (hclean t ht c hc).2
  exact fun hmem => hends _ hmem rfl

-- ---------------------------------------------------------------- read back

theorem isSet_bit (b : Bool) : isSet (bit b) = b := by cases b <;> rfl

theorem ofColumn_column (kind : TableKind) :
    TableKind.ofColumn kind.column = kind := by
  cases kind <;> decide

/-- The names that an index joins are told apart again. -/
theorem names_joined {names : List String}
    (h : ∀ name ∈ names, name ≠ "" ∧ '%' ∉ name.toList) :
    (Text.pieces '%' ("%".intercalate names)).filter (· != "") = names := by
  cases names with
  | nil => decide
  | cons name names =>
      have hpieces := Text.pieces_intercalate (List.cons_ne_nil name names)
        fun t ht => (h t ht).2
      rw [show "%" = String.singleton '%' from rfl, hpieces,
        List.filter_eq_self]
      intro t ht
      simpa using (h t ht).1

/-- The line of a record is read as the record. -/
theorem ofLine?_written (h : r.WrittenAs line) : ofLine? line = some r := by
  obtain ⟨fill, rest, hline, hpieces⟩ := columns_of_writtenAs h
  obtain ⟨hsay, -, -⟩ := h
  rw [ofLine?, hline]
  show ofColumns? r.sort (Text.pieces '\t' line) = some r
  rw [hpieces]
  cases r with
  | database d =>
      obtain ⟨htables, halias⟩ := hsay
      simp [ofColumns?, columns, sort, ← htables, ← halias]
  | sequence name => rfl
  | table t =>
      obtain ⟨hfields, hindexes, htriggers⟩ := hsay
      simp [ofColumns?, columns, sort, isSet_bit, ofColumn_column,
        ← hfields, ← hindexes, ← htriggers]
  | trigger x => rfl
  | index i =>
      simp [ofColumns?, columns, sort, isSet_bit, names_joined hsay]
  | field f =>
      obtain ⟨hprim, hlow, hhigh, hextent⟩ := hsay
      have hfield : fieldOf? f.name f.dataType f.format f.order.repr
          (bit f.mandatory) f.extent.repr (bit f.inIndex) (bit f.primaryKey)
          f.initial f.description = some f := by
        rw [fieldOf?, Text.signed32?_repr hlow hhigh,
          Text.unsigned32?_repr hextent]
        simp only [isSet_bit, ← hprim]
        rfl
      exact congrArg (Option.map Record.field) hfield

-- ---------------------------------------------------------- malformed lines

/-- The number of columns of each sort of record. -/
def columnCount? : Char → Option Nat
  | 'H' => some 6
  | 'S' => some 3
  | 'T' => some 9
  | 'X' => some 5
  | 'I' => some 7
  | 'F' => some 12
  | _ => none

/-- A line that is no record. -/
inductive Malformed : String → Prop where
  | empty : Malformed ""
  | sort {line : String} {c : Char} :
      line.toList.head? = some c → columnCount? c = none → Malformed line
  | count {line : String} {c : Char} {n : Nat} :
      line.toList.head? = some c → columnCount? c = some n →
      (Text.pieces '\t' line).length ≠ n → Malformed line
  | order {line column : String} :
      line.toList.head? = some 'F' →
      (Text.pieces '\t' line)[5]? = some column →
      (∀ z, Text.Denotes (Text.trimChars column.toList) z →
        ¬(-2 ^ 31 ≤ z ∧ z < 2 ^ 31)) → Malformed line
  | extent {line column : String} :
      line.toList.head? = some 'F' →
      (Text.pieces '\t' line)[7]? = some column →
      (∀ n : Nat, Text.Denotes (Text.trimChars column.toList) n →
        ¬n < 2 ^ 32) → Malformed line

theorem columnCount?_of_ofColumns? {c : Char} {columns : List String}
    (h : ofColumns? c columns = some r) :
    columnCount? c = some columns.length := by
  unfold ofColumns? at h
  split at h
  all_goals first | rfl | cases h

/-- The record of a field has numbers in two of its columns. -/
theorem numbers_of_ofColumns? {columns : List String}
    (h : ofColumns? 'F' columns = some r) :
    ∃ order extent z n, columns[5]? = some order ∧ columns[7]? = some extent
      ∧ Text.signed32? (Text.trimChars order.toList) = some z
      ∧ Text.unsigned32? (Text.trimChars extent.toList) = some n := by
  have hlen : columns.length = 12 :=
    (Option.some.inj (columnCount?_of_ofColumns? h)).symm
  match columns, hlen with
  | [_, _, _, _, _, order, _, extent, _, _, _, _], _ =>
    obtain ⟨f, hf, -⟩ := Option.map_eq_some_iff.1 h
    obtain ⟨z, hz, hf⟩ := Option.bind_eq_some_iff.1 hf
    obtain ⟨n, hn, -⟩ := Option.bind_eq_some_iff.1 hf
    exact ⟨order, extent, z, n, rfl, rfl, hz, hn⟩

theorem ofLine?_malformed (h : Malformed line) : ofLine? line = none := by
  rw [← Option.not_isSome_iff_eq_none]
  intro hsome
  obtain ⟨r, hr⟩ := Option.isSome_iff_exists.1 hsome
  rw [ofLine?] at hr
  split at hr
  next => cases hr
  next c rest hline =>
    have hhead : line.toList.head? = some c := by rw [hline, List.head?_cons]
    have hcount := columnCount?_of_ofColumns? hr
    cases h with
    | empty => simp at hline
    | sort hc hnone =>
        obtain rfl := Option.some.inj (hc.symm.trans hhead)
        rw [hnone] at hcount
        cases hcount
    | count hc hn hne =>
        obtain rfl := Option.some.inj (hc.symm.trans hhead)
        exact hne (Option.some.inj (hcount.symm.trans hn))
    | order hc hcol hbad =>
        obtain rfl := Option.some.inj (hc.symm.trans hhead)
        obtain ⟨_, _, z, n, horder, -, hz, -⟩ := numbers_of_ofColumns? hr
        obtain rfl := Option.some.inj (hcol.symm.trans horder)
        obtain ⟨hden, hrange⟩ := Text.of_signed32? hz
        exact hbad z hden hrange
    | extent hc hcol hbad =>
        obtain rfl := Option.some.inj (hc.symm.trans hhead)
        obtain ⟨_, _, z, n, -, hextent, -, hn⟩ := numbers_of_ofColumns? hr
        obtain rfl := Option.some.inj (hcol.symm.trans hextent)
        obtain ⟨hden, hrange⟩ := Text.of_unsigned32? hn
        exact hbad n hden hrange

end Record

-- ==================================================================== dumps

/-- A line with the records it holds, one or none. -/
inductive Holds : String → List Record → Prop where
  | record {line : String} {r : Record} : r.WrittenAs line → Holds line [r]
  | malformed {line : String} :
      Record.Malformed line → Text.IsLine line → Holds line []

/-- A text of lines that hold the records. The last line may be without an
end. -/
inductive Dumped : String → List Record → Prop where
  | nil : Dumped "" []
  | last {line : String} {records : List Record} :
      Holds line records → Dumped line records
  | line {line ending text : String} {records more : List Record} :
      Holds line records → Text.Ends line ending → Dumped text more →
      Dumped (line ++ ending ++ text) (records ++ more)

section Dumped

variable {line text : String} {records : List Record}

theorem Holds.isLine (h : Holds line records) : Text.IsLine line := by
  cases h with
  | record h => exact (Record.isLine_of_writtenAs h).1
  | malformed _ h => exact h

theorem Holds.ofLine? (h : Holds line records) :
    (Record.ofLine? line).toList = records := by
  cases h with
  | record h => rw [Record.ofLine?_written h, Option.toList_some]
  | malformed h _ => rw [Record.ofLine?_malformed h, Option.toList_none]

/-- The records of a dump are read from its text. -/
theorem records_of_dumped (h : Dumped text records) :
    (Text.lines text).filterMap Record.ofLine? = records := by
  induction h with
  | nil => rfl
  | last hline =>
      rename_i line records
      by_cases hne : line = ""
      · rw [← hline.ofLine?, hne]
        rfl
      · rw [Text.lines_of_isLine hline.isLine hne, ← hline.ofLine?]
        cases ho : Record.ofLine? line <;> simp [ho]
  | @line line ending text records more hline hend _ ih =>
      rw [Text.lines_append text hline.isLine hend, List.filterMap_cons, ih,
        ← hline.ofLine?]
      cases Record.ofLine? line <;> rfl

end Dumped

end Schema

end AblOutline
