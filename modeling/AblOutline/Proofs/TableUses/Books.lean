/-
The books that a parse keeps of tables and unknown words. What has been found
of them is told by the items; beside the items the parse notes which uses,
words and tables it has met, so that it need not look for them again:

    items     .. tt (temp-table)  customer in p  foo  customer in q ..
    mentions     table tt         use p customer foo  use q customer
    notes     tables: tt   words: foo   uses: p customer, q customer

The books balance if the notes say what the mentions say, and no use and no
word is mentioned twice (`Balanced`). A booking notes what it mentions, or finds
it noted and does nothing; so it keeps the books balanced (`Balanced.booking`),
and takes no mention back (`Bookings.mentions`).
-/
import AblOutline.Parse.Run
import AblOutline.Proofs.Forest
import Mathlib.Data.List.Basic
import Mathlib.Logic.Relation

namespace AblOutline

-- ================================================================ mentions

/-- What an item tells of tables and unknown words, all names in small
letters. -/
inductive Mention where
  /-- A table is used in the scope of an item. -/
  | use (scope : Option ItemId) (table : String)
  | unknown (word : String)
  /-- The file defines a table or buffer. -/
  | table (name : String)
deriving DecidableEq, Repr

/-- The definition is one of a table. -/
def Item.Definition.isTable (d : Item.Definition) : Bool :=
  d.type == .tempTable || d.type == .workTable

/-- The content of a definition of a table or buffer. -/
def Item.Content.definesTable : Item.Content → Bool
  | .buffer _ _ => true
  | .definition d => d.isTable
  | _ => false

/-- What an item of that content, scope and name tells. -/
def Item.Content.mention? (scope : Option ItemId) (name : String) (c : Item.Content) :
    Option Mention :=
  match c with
  | .tableUse _ => some (.use scope (Text.lower name))
  | .word => some (.unknown (Text.lower name))
  | c => if c.definesTable then some (.table (Text.lower name)) else none

def Item.mention? (i : Item) : Option Mention := i.content.mention? i.scope i.name

namespace Item

variable {i : Item} {scope : Option ItemId} {name : String}

theorem mention?_eq_use : i.mention? = some (.use scope name) ↔
    (∃ temporary, i.content = .tableUse temporary) ∧ i.scope = scope
      ∧ Text.lower i.name = name := by
  unfold mention? Content.mention?
  cases hc : i.content <;> simp

theorem mention?_eq_unknown : i.mention? = some (.unknown name) ↔
    i.content = .word ∧ Text.lower i.name = name := by
  unfold mention? Content.mention?
  cases hc : i.content <;> simp

theorem mention?_eq_table : i.mention? = some (.table name) ↔
    i.content.definesTable = true ∧ Text.lower i.name = name := by
  unfold mention? Content.mention?
  cases hc : i.content with
  | definition d => cases hd : d.isTable <;> simp [Content.definesTable, hd]
  | _ => simp [Content.definesTable]

end Item

namespace Parse

-- =================================================================== books

/-- What is mentioned, and the notes that are taken beside. -/
structure Books where
  mentions : List Mention
  uses : List (Option ItemId × String)
  words : List String
  tables : List (String × Bool)

/-- The books of a parse. -/
def State.books (s : State) : Books where
  mentions := s.findings.items.toList.filterMap Item.mention?
  uses := s.analysis.tableUses
  words := s.analysis.seenWords
  tables := s.analysis.localTables

namespace Books

/-- A use is booked, unless it is noted. -/
def use (b : Books) (scope : Option ItemId) (table : String) : Books :=
  if b.uses.contains (scope, table) then b
  else { b with
    mentions := b.mentions ++ [.use scope table], uses := (scope, table) :: b.uses }

/-- A word is booked, unless it is noted. -/
def word (b : Books) (word : String) : Books :=
  if b.words.contains word then b
  else { b with mentions := b.mentions ++ [.unknown word], words := word :: b.words }

/-- A table of the file is booked. -/
def table (b : Books) (name : String) (temporary : Bool) : Books :=
  { b with
    mentions := b.mentions ++ [.table name], tables := (name, temporary) :: b.tables }

end Books

/-- One booking; only a word that the directory does not know is booked. -/
inductive Booking (d : Directory) (b : Books) : Books → Prop where
  | use (scope : Option ItemId) (table : String) : Booking d b (b.use scope table)
  | word (w : String) (h : d.classify w = none) : Booking d b (b.word w)
  | table (name : String) (temporary : Bool) : Booking d b (b.table name temporary)

/-- Any number of bookings. -/
abbrev Bookings (d : Directory) : Books → Books → Prop :=
  Relation.ReflTransGen (Booking d)

section Bookings

variable {d : Directory} {b b' : Books}

theorem Booking.mentions (h : Booking d b b') : b.mentions <+: b'.mentions := by
  cases h with
  | use scope table =>
      unfold Books.use
      split
      · exact List.prefix_refl _
      · exact List.prefix_append _ _
  | word w hw =>
      unfold Books.word
      split
      · exact List.prefix_refl _
      · exact List.prefix_append _ _
  | table name temporary => exact List.prefix_append _ _

/-- What is mentioned stays so. -/
theorem Bookings.mentions (h : Bookings d b b') : b.mentions <+: b'.mentions := by
  induction h with
  | refl => exact List.prefix_refl _
  | tail _ hb ih => exact ih.trans hb.mentions

end Bookings

-- ================================================================= balance

/-- The notes say what the mentions say, and but for definitions nothing is
mentioned twice. -/
structure Balanced (d : Directory) (b : Books) : Prop where
  uses : ∀ scope table, (scope, table) ∈ b.uses ↔ .use scope table ∈ b.mentions
  words : ∀ w, w ∈ b.words ↔ .unknown w ∈ b.mentions
  tables : ∀ name, (b.tables.lookup name).isSome = true ↔ .table name ∈ b.mentions
  unknown : ∀ w, .unknown w ∈ b.mentions → d.classify w = none
  once : b.mentions.Pairwise fun m m' => m = m' → ∃ name, m = .table name

namespace Balanced

variable {d : Directory} {b b' : Books}

/-- Nothing is booked. -/
theorem empty : Balanced d ⟨[], [], [], []⟩ where
  uses _ _ := by simp
  words _ := by simp
  tables _ := by simp
  unknown _ h := nomatch h
  once := .nil

/-- One more mention that is made for the first time, or of a table. -/
theorem once_concat (h : Balanced d b) {m : Mention}
    (hm : m ∈ b.mentions → ∃ name, m = .table name) :
    (b.mentions ++ [m]).Pairwise fun m m' => m = m' → ∃ name, m = .table name := by
  refine List.pairwise_append.2 ⟨h.once, List.pairwise_singleton _ _, ?_⟩
  intro a ha a' ha' heq
  obtain rfl := List.mem_singleton.1 ha'
  exact heq ▸ hm (heq ▸ ha)

theorem use (h : Balanced d b) (scope : Option ItemId) (table : String) :
    Balanced d (b.use scope table) := by
  unfold Books.use
  split
  · exact h
  rename_i hnew
  have hfresh : .use scope table ∉ b.mentions := by
    rw [← h.uses, ← List.contains_iff_mem]
    exact hnew
  exact {
    uses := fun _ _ => by simp [h.uses, or_comm]
    words := fun _ => by simp [h.words]
    tables := fun _ => by simp [h.tables]
    unknown := fun w hw => h.unknown w (by simpa using hw)
    once := h.once_concat fun hm => absurd hm hfresh }

/-- A use is mentioned once it is booked. -/
theorem mem_use (h : Balanced d b) (scope : Option ItemId) (table : String) :
    .use scope table ∈ (b.use scope table).mentions := by
  rw [← (h.use scope table).uses]
  unfold Books.use
  split
  · rename_i hnoted
    exact List.contains_iff_mem.1 hnoted
  · exact List.mem_cons_self

theorem word (h : Balanced d b) {w : String} (hw : d.classify w = none) :
    Balanced d (b.word w) := by
  unfold Books.word
  split
  · exact h
  rename_i hnew
  have hfresh : .unknown w ∉ b.mentions := by
    rw [← h.words, ← List.contains_iff_mem]
    exact hnew
  exact {
    uses := fun _ _ => by simp [h.uses]
    words := fun _ => by simp [h.words, or_comm]
    tables := fun _ => by simp [h.tables]
    unknown := fun v hv => by
      rcases List.mem_append.1 hv with hv | hv
      · exact h.unknown v hv
      · cases List.mem_singleton.1 hv
        exact hw
    once := h.once_concat fun hm => absurd hm hfresh }

theorem table (h : Balanced d b) (name : String) (temporary : Bool) :
    Balanced d (b.table name temporary) where
  uses _ _ := by simp [Books.table, h.uses]
  words _ := by simp [Books.table, h.words]
  tables n := by
    rw [Books.table, List.lookup_cons, List.mem_append, List.mem_singleton,
      Mention.table.injEq, ← h.tables]
    by_cases hn : n = name
    · simp [hn]
    · simp [beq_eq_false_iff_ne.2 hn, hn]
  unknown w hw := h.unknown w (by simpa [Books.table] using hw)
  once := h.once_concat fun _ => ⟨name, rfl⟩

theorem booking (h : Balanced d b) (hb : Booking d b b') : Balanced d b' := by
  cases hb with
  | use scope table => exact h.use scope table
  | word w hw => exact h.word hw
  | table name temporary => exact h.table name temporary

theorem bookings (h : Balanced d b) (hb : Bookings d b b') : Balanced d b' := by
  induction hb with
  | refl => exact h
  | tail _ hb ih => exact ih.booking hb

end Balanced

end Parse

end AblOutline
