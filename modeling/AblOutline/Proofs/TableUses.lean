/-
Uses of tables. A table is reported once in each scope that uses it, whatever
the spelling, and no use of it is missed:

    FOR EACH sports.customer:            use of customer in the file
      DISPLAY Customer.Name.             nothing new
    PROCEDURE p:
      FIND FIRST b.                      use of b, a buffer, in p

What has been reported is what is noted, so the books of the parse balance at
its end (`Balanced`): that no use stands there twice is one half. For the other,
the use of a word is mentioned right after the word was looked at
(`mentions_useNames`), in the scope that is open then, and what is mentioned is
never taken back (`Bookings.mentions`).
-/
import AblOutline.Proofs.Directory
import AblOutline.Proofs.Operands.Passing
import AblOutline.Proofs.TableUses.Reading

namespace AblOutline

-- =================================================================== names

/-- The qualified name ends in that of the table: only a dot and what is before
it may come before. -/
def EndsIn (qualified table : String) : Prop :=
  Schema.Plain table
    ∧ (qualified = table ∨ ∃ around, qualified = around ++ "." ++ table)

/-- The word stands for the table: it ends in its name, or, where it is a field,
in its name and that of a field. -/
def Directory.StandsFor (d : Directory) (word table : String) : Prop :=
  if (d.kindOf word).isField then
    ∃ qualified field, word = qualified ++ "." ++ field ∧ Schema.Plain field
      ∧ EndsIn qualified table
  else EndsIn word table

/-- An item that reports the use of a table. -/
def Item.IsTableUse (i : Item) : Prop := ∃ temporary, i.content = .tableUse temporary

theorem endsIn_unqualified (name : String) : EndsIn name (Parse.unqualified name) := by
  unfold Parse.unqualified
  cases hsplit : Text.splitLast? '.' name with
  | none => exact ⟨Text.splitLast?_eq_none_iff.1 hsplit, .inl rfl⟩
  | some parts =>
      obtain ⟨around, table⟩ := parts
      obtain ⟨hplain, hname⟩ := Text.of_splitLast? hsplit
      exact ⟨hplain, .inr ⟨around, hname⟩⟩

namespace Directory

variable {schema : Schema} {keywords : List String} {word : String}

/-- A name that is known as a field is qualified, since of the entries of a
directory those of fields alone are told to be. -/
theorem dot_mem_of_isField (h : ((build schema keywords).kindOf word).isField = true) :
    '.' ∈ word.toList := by
  obtain ⟨kind, hkind, hfield⟩ : ∃ kind,
      (build schema keywords).classify word = some kind ∧ kind.isField = true := by
    unfold kindOf at h
    cases hc : (build schema keywords).classify word with
    | none =>
        rw [hc] at h
        cases h
    | some kind =>
        rw [hc] at h
        exact ⟨kind, rfl, h⟩
  obtain ⟨⟨name, k⟩, hname, hentry⟩ := List.mem_map.1 (mem_of_lookup hkind)
  obtain ⟨hlower, rfl⟩ := Prod.mk.inj hentry
  have hdot : '.' ∈ name.toList := by
    simp only [names, List.mem_append, List.mem_flatMap, List.mem_map] at hname
    rcases hname with (((⟨d, -, t, -, hn⟩ | ⟨d, -, t, -, f, -, hn⟩) | hn) | hn) | hn
    · rcases List.mem_pair.1 hn with hn | hn <;> cases hn <;> cases hfield
    · rcases List.mem_pair.1 hn with hn | hn <;> cases hn <;> simp
    · obtain ⟨d, -, hn⟩ := hn
      cases hn
      cases hfield
    · obtain ⟨q, -, hn⟩ := hn
      cases hn
      cases hfield
    · obtain ⟨w, -, hn⟩ := hn
      cases hn
      cases hfield
  -- a dot has no case
  by_contra hnot
  have hsplit := Text.splitLast?_eq_none_iff.2 hnot
  have hnone : Text.splitLast? '.' (Text.lower name) = none := by
    rw [hlower, Text.splitLast?_lower, hsplit]
    rfl
  rw [Text.splitLast?_lower, Option.map_eq_none_iff] at hnone
  exact Text.splitLast?_eq_none_iff.1 hnone hdot

end Directory

namespace Parse

-- =================================================================== words

/-- A word of a statement is read in the state `v`: the parse that starts in
`s₀` comes to it, and it is looked at, on a branch that is taken. -/
structure ReadsWord (env : Environment) (s₀ v : State) (t : Token) : Prop where
  reached : ∃ s, LeadsTo env s₀ s ∧ s.advance? = some v
  current : v.source.cursor.current = t
  word : t.kind = .word
  looked : v.source.skip = 0
  live : v.inFalseBranch = false

/-- The word is looked at for the names it uses: it is no snippet and calls no
function. -/
structure UsesNames (env : Environment) (v : State) (t : Token) : Prop where
  noSnippet : isSnippet t.text = false
  noDynamic : t.isWord "DYNAMIC-FUNCTION" = false
  noCall : (v.atWord t).isCall env t v.analysis.spaced = false

/-- The word names a table: one of the schema, itself or through a field, or one
that the file has defined before. -/
def State.NamesTable (env : Environment) (v : State) (word : String) : Prop :=
  (env.directory.kindOf word).isTable = true
    ∨ (env.directory.kindOf word).isField = true
    ∨ ∃ i ∈ v.findings.items.toList,
      i.content.definesTable = true ∧ Text.same i.name word = true

section Words

variable {env : Environment} {steps : Nat} {s v r : State} {t : Token}
  {word : String}

theorem step_word (hs : Sound v) (hk : t.kind = .word) (hskip : v.source.skip = 0)
    (hlive : v.inFalseBranch = false) :
    v.step env steps t = some ((v.readToken env t).expandNext env) := by
  have hobserve : v.observe t false = (none, v) := by
    unfold State.observe
    rw [hk]
  have hlook : v.look env steps t none = some (v.readToken env t).done := by
    unfold State.look
    rw [if_neg hs.depth_ne_zero, hk]
    dsimp only
    rw [hlive]
    rfl
  unfold State.step
  rw [hskip]
  simp only [Nat.lt_irrefl, decide_false, hobserve, Bool.false_eq_true, if_false, hlook]
  rfl

/-- The parse goes on from there. -/
theorem ReadsWord.run {cache : TokenCache} {text : String} {path : Option String}
    (h : ReadsWord env (.start env cache text path) v t)
    (hr : (State.start env cache text path).run env steps = some r) :
    ∃ m, ((v.readToken env t).expandNext env).run env m = some r := by
  obtain ⟨s, hs, hv⟩ := h.reached
  obtain ⟨m, hm⟩ := hs.run hr
  have heof : v.source.cursor.current.isEof = false := by
    rw [Token.isEof, h.current, h.word]
    rfl
  have hsound := ((LeadsTo.reached hs (.start env cache text path)).advance hv heof).1
  cases m with
  | zero => cases hm
  | succ m =>
      rw [run_next hv heof, h.current, step_word hsound h.word h.looked h.live] at hm
      exact ⟨m, hm⟩

theorem lookAtWord_eq_useNames (h : UsesNames env v t) :
    (v.atWord t).lookAtWord env t v.analysis.spaced = (v.atWord t).useNames env t := by
  unfold State.lookAtWord
  simp only [h.noSnippet, h.noDynamic, h.noCall, Bool.false_eq_true, if_false]

/-- A table that the file has defined is noted. -/
theorem localTable?_isSome (hb : Balanced env.directory v.books) :
    (v.localTable? word).isSome = true ↔ ∃ i ∈ v.findings.items.toList,
      i.content.definesTable = true ∧ Text.same i.name word = true := by
  refine (hb.tables (Text.lower word)).trans (List.mem_filterMap.trans ?_)
  simp only [Item.mention?_eq_table, Text.same, beq_iff_eq]

/-- A field uses the table before its name, and a table itself; another word may
be the name of a table of the file. -/
theorem tableOf?_eq (d : Directory) : v.tableOf? (d.classify word) word
    = if (d.kindOf word).isField then
        (Text.splitLast? '.' word).map fun (table, _) => (unqualified table, false)
      else if (d.kindOf word).isTable then some (unqualified word, false)
      else (v.localTable? word).map fun temporary => (unqualified word, temporary) := by
  unfold Directory.kindOf
  cases d.classify word with
  | none => rfl
  | some kind => cases kind <;> rfl

/-- A word that names a table uses one that it stands for. -/
theorem tableOf?_of_namesTable {schema : Schema} {keywords : List String}
    (hd : env.directory = .build schema keywords) (hb : Balanced env.directory v.books)
    (h : v.NamesTable env word) :
    ∃ table temporary, v.tableOf? (env.directory.classify word) word
        = some (table, temporary)
      ∧ env.directory.StandsFor word table := by
  simp only [tableOf?_eq, Directory.StandsFor]
  by_cases hfield : (env.directory.kindOf word).isField = true
  · simp only [if_pos hfield]
    have hdot := Directory.dot_mem_of_isField (hd ▸ hfield)
    cases hsplit : Text.splitLast? '.' word with
    | none => exact absurd hdot (Text.splitLast?_eq_none_iff.1 hsplit)
    | some parts =>
        obtain ⟨qualified, field⟩ := parts
        obtain ⟨hplain, hword⟩ := Text.of_splitLast? hsplit
        exact ⟨unqualified qualified, false, rfl, qualified, field, hword, hplain,
          endsIn_unqualified qualified⟩
  simp only [if_neg hfield]
  by_cases htable : (env.directory.kindOf word).isTable = true
  · exact ⟨unqualified word, false, if_pos htable, endsIn_unqualified word⟩
  rcases h with h | h | h
  · exact absurd h htable
  · exact absurd h hfield
  · obtain ⟨temporary, hlocal⟩ :=
      Option.isSome_iff_exists.1 ((localTable?_isSome hb).2 h)
    refine ⟨unqualified word, temporary, ?_, endsIn_unqualified word⟩
    rw [if_neg htable, hlocal]
    rfl

theorem tableOf?_atWord (kind : Option SymbolKind) :
    (v.atWord t).tableOf? kind word = v.tableOf? kind word := by
  have htables : (v.atWord t).analysis.localTables = v.analysis.localTables :=
    congrArg Books.tables (books_atWord v t)
  unfold State.tableOf? State.localTable?
  rw [htables]

/-- A word that names a table has its use mentioned once it is read. -/
theorem readToken_mentions {schema : Schema} {keywords : List String}
    (hd : env.directory = .build schema keywords) (hb : Balanced env.directory v.books)
    (hk : t.kind = .word) (huses : UsesNames env v t) (hnames : v.NamesTable env t.text) :
    ∃ table, env.directory.StandsFor t.text table
      ∧ .use (v.atWord t).scopeItem? (Text.lower table)
        ∈ (v.readToken env t).books.mentions := by
  obtain ⟨table, temporary, htable, hstands⟩ := tableOf?_of_namesTable hd hb hnames
  rw [← tableOf?_atWord (t := t)] at htable
  rw [← books_atWord v t] at hb
  refine ⟨table, hstands, ?_⟩
  rw [readToken_word env v t hk]
  show _ ∈ ((v.atWord t).lookAtWord env t v.analysis.spaced).books.mentions
  rw [lookAtWord_eq_useNames huses]
  exact mentions_useNames env (v.atWord t) t hb htable

end Words

-- =================================================================== parse

/-- Two items that tell the same, and do not define a table, are one. -/
theorem eq_of_mention? {items : Array Item} {id id' : ItemId} {i i' : Item}
    {m : Mention}
    (honce : (items.toList.filterMap Item.mention?).Pairwise
      fun m m' => m = m' → ∃ name, m = .table name)
    (hi : items[id]? = some i) (hi' : items[id']? = some i')
    (hm : i.mention? = some m) (hm' : i'.mention? = some m)
    (hno : ∀ name, m ≠ .table name) : id = id' := by
  rw [List.pairwise_filterMap, List.pairwise_iff_getElem] at honce
  have hlt : ∀ {a b : ItemId} {x y : Item}, items[a]? = some x → items[b]? = some y →
      x.mention? = some m → y.mention? = some m → ¬ a < b := by
    intro a b x y hx hy hxm hym hab
    obtain ⟨ha, rfl⟩ := Array.getElem?_eq_some_iff.1 hx
    obtain ⟨hb, rfl⟩ := Array.getElem?_eq_some_iff.1 hy
    obtain ⟨name, hname⟩ := honce a b ha hb hab m hxm m hym rfl
    exact hno name hname
  exact Nat.le_antisymm (Nat.le_of_not_lt (hlt hi' hi hm' hm))
    (Nat.le_of_not_lt (hlt hi hi' hm hm'))

end Parse

open Parse

/-- The file reports that the table is used in the scope. -/
def ParsedFile.ReportsUse (file : ParsedFile) (scope : Option ItemId) (table : String) :
    Prop :=
  ∃ id i, file.item? id = some i ∧ i.IsTableUse ∧ i.scope = scope
    ∧ Text.same i.name table = true

section File

variable {env : Environment} {steps : Nat} {cache : TokenCache} {text : String}
  {path : Option String} {r : Result}

/-- What a parse has read is finished, with balanced books. -/
theorem balanced_parse (h : parse? steps env cache text path = some r) :
    ∃ s, (State.start env cache text path).run env steps = some s
      ∧ r.file.items = (s.finish env).findings.items
      ∧ Balanced env.directory (s.finish env).books := by
  obtain ⟨s, hs, rfl⟩ := Option.map_eq_some_iff.1 h
  have hbooks := (run_bookings hs).trans (finish_bookings env s)
  rw [books_start] at hbooks
  exact ⟨s, hs, rfl, Balanced.empty.bookings hbooks⟩

/-- Uses of tables are reported once in each scope, and none is missed: not of a
word that is known as a table or a field of one, nor of one that is the name of a
table that the file has defined. The use is found in the scope that is open at
the word, under the name of the table that it stands for. Unknown words are
reported once in the file, and are unknown. -/
theorem parse_tableUses {schema : Schema} {keywords : List String}
    (hd : env.directory = .build schema keywords)
    (h : parse? steps env cache text path = some r) :
    (∀ id id' i i', r.file.item? id = some i → r.file.item? id' = some i' →
        i.IsTableUse → i'.IsTableUse → i.scope = i'.scope →
        Text.same i.name i'.name = true → id = id')
      ∧ (∀ v t, ReadsWord env (.start env cache text path) v t → UsesNames env v t →
        v.NamesTable env t.text →
        ∃ table, env.directory.StandsFor t.text table
          ∧ r.file.ReportsUse (v.atWord t).scopeItem? table)
      ∧ (∀ id id' i i', r.file.item? id = some i → r.file.item? id' = some i' →
        i.content = .word → i'.content = .word → Text.same i.name i'.name = true →
        id = id')
      ∧ ∀ id i, r.file.item? id = some i → i.content = .word →
        env.directory.classify i.name = none := by
  obtain ⟨s, hs, hitems, hbalanced⟩ := balanced_parse h
  have honce := hbalanced.once
  simp only [ParsedFile.item?, ParsedFile.ReportsUse, hitems]
  refine ⟨?once, ?used, ?words, ?unknown⟩
  case once =>
    intro id id' i i' hi hi' huse huse' hscope hname
    exact eq_of_mention? honce hi hi' (Item.mention?_eq_use.2 ⟨huse, rfl, rfl⟩)
      (Item.mention?_eq_use.2 ⟨huse', hscope.symm, (beq_iff_eq.1 hname).symm⟩) nofun
  case words =>
    intro id id' i i' hi hi' hword hword' hname
    exact eq_of_mention? honce hi hi' (Item.mention?_eq_unknown.2 ⟨hword, rfl⟩)
      (Item.mention?_eq_unknown.2 ⟨hword', (beq_iff_eq.1 hname).symm⟩) nofun
  case unknown =>
    intro id i hi hword
    have hmention : Mention.unknown (Text.lower i.name) ∈ (s.finish env).books.mentions :=
      List.mem_filterMap.2 ⟨i, Array.mem_toList_iff.2 (Array.mem_of_getElem? hi),
        Item.mention?_eq_unknown.2 ⟨hword, rfl⟩⟩
    rw [← Directory.classify_lower]
    exact hbalanced.unknown _ hmention
  case used =>
    intro v t hread huses hnames
    obtain ⟨u, hu, hv⟩ := hread.reached
    have hbooks := hu.bookings
    rw [books_start, ← books_advance? hv] at hbooks
    obtain ⟨table, hstands, hmention⟩ :=
      readToken_mentions hd (Balanced.empty.bookings hbooks) hread.word huses hnames
    -- what was mentioned at the word still is at the end
    obtain ⟨m, hrun⟩ := hread.run hs
    have hend := Bookings.mentions ((run_bookings hrun).trans (finish_bookings env s))
    rw [books_expandNext] at hend
    obtain ⟨i, hi, huse⟩ := List.mem_filterMap.1 (hend.subset hmention)
    obtain ⟨id, hid⟩ := Array.getElem?_of_mem (Array.mem_toList_iff.1 hi)
    obtain ⟨hcontent, hscope, hname⟩ := Item.mention?_eq_use.1 huse
    exact ⟨table, hstands, id, i, hid, hcontent, hscope, beq_iff_eq.2 hname⟩

/-- A directory that knows the table `Customer` with its field `Name`. -/
def customerEnvironment : Environment where
  options := { matchKnownWords := true }
  directory := .build
    { databases := [{ (default : Schema.Database) with
        name := "sports"
        tables := [{ (default : Schema.Table) with
          name := "Customer"
          fields := [{ (default : Schema.Field) with name := "Name" }] }] }] }
    ["DISPLAY"]

/-- A table and a field of it, then a word twice. -/
def customerText : String :=
  "DISPLAY sports.customer.\nDISPLAY Customer.Name x.\nDISPLAY X.\n"

/-- The field uses the table that is reported before. -/
theorem parse_tableUses_customer :
    ∃ r v t, parse? 40 customerEnvironment {} customerText none = some r
      ∧ ReadsWord customerEnvironment
        (.start customerEnvironment {} customerText none) v t
      ∧ UsesNames customerEnvironment v t
      ∧ v.NamesTable customerEnvironment t.text ∧ t.text = "Customer.Name"
      ∧ r.file.items.toList.filterMap Item.mention?
        = [.use (some 0) "customer", .unknown "x"]
      ∧ ∃ table, customerEnvironment.directory.StandsFor t.text table
        ∧ r.file.ReportsUse (v.atWord t).scopeItem? table := by
  have hparse : (parse? 40 customerEnvironment {} customerText none).map
      (fun r => r.file.items.toList.filterMap Item.mention?)
      = some [.use (some 0) "customer", .unknown "x"] := by
    decide +kernel
  have hword : ((State.onward? customerEnvironment 40 7
      (.start customerEnvironment {} customerText none)).bind fun s =>
        s.advance?.map fun v => (v.source.cursor.current.kind,
          v.source.cursor.current.text, v.source.skip, v.inFalseBranch,
          isSnippet v.source.cursor.current.text,
          v.source.cursor.current.isWord "DYNAMIC-FUNCTION"
            || (v.atWord v.source.cursor.current).isCall customerEnvironment
              v.source.cursor.current v.analysis.spaced))
      = some (.word, "Customer.Name", 0, false, false, false) := by
    decide +kernel
  have hfield : (customerEnvironment.directory.kindOf "Customer.Name").isField = true := by
    decide +kernel
  obtain ⟨r, hr, hmentions⟩ := Option.map_eq_some_iff.1 hparse
  obtain ⟨s, hs, hword⟩ := Option.bind_eq_some_iff.1 hword
  obtain ⟨v, hv, hword⟩ := Option.map_eq_some_iff.1 hword
  simp only [Prod.mk.injEq] at hword
  obtain ⟨hk, htext, hskip, hlive, hsnippet, hcalls⟩ := hword
  obtain ⟨hdynamic, hcall⟩ := Bool.or_eq_false_iff.1 hcalls
  have hreads : ReadsWord customerEnvironment
      (.start customerEnvironment {} customerText none) v v.source.cursor.current :=
    ⟨⟨s, leadsTo_of_onward? hs, hv⟩, rfl, hk, hskip, hlive⟩
  have huses : UsesNames customerEnvironment v v.source.cursor.current :=
    ⟨hsnippet, hdynamic, hcall⟩
  have hnames : v.NamesTable customerEnvironment v.source.cursor.current.text :=
    .inr (.inl (htext ▸ hfield))
  obtain ⟨-, hused, -⟩ := parse_tableUses rfl hr
  exact ⟨r, v, _, hr, hreads, huses, hnames, htext, hmentions,
    hused v _ hreads huses hnames⟩

end File

end AblOutline
