/-
What a parse does to its books. Most of what it does leaves them alone: what it
finds tells of no table and no unknown word, and what it notes is something else.
Tables are booked where a word uses one, and where a `DEFINE` statement ends;
unknown words where they are read. So whatever is read, the books of the state
after it come from those before by bookings (`run_bookings`,
`finish_bookings`), and at first nothing is booked (`books_start`).
-/
import AblOutline.Proofs.Inclusion.Marks
import AblOutline.Proofs.Letters.Words
import AblOutline.Proofs.Program.View
import AblOutline.Proofs.Stream
import AblOutline.Proofs.TableUses.Books
import AblOutline.Proofs.Termination

namespace AblOutline.Parse

open Preprocess

variable {s s' : State}

-- =================================================================== items

/-- An item is found: it is mentioned if it tells something. -/
theorem books_addItem (s : State) (name : String) (t : Token)
    (content : Item.Content) :
    (s.addItem name t content).books = { s.books with
      mentions := s.books.mentions
        ++ (content.mention? s.scopeItem? name).toList } := by
  have hmentions : (s.addItem name t content).findings.items.toList.filterMap
        Item.mention?
      = s.findings.items.toList.filterMap Item.mention?
        ++ (content.mention? s.scopeItem? name).toList := by
    unfold State.addItem State.addItemIn
    dsimp only
    cases hscope : s.scopeItem? with
    | none =>
        rw [Option.elim_none, Array.toList_push, List.filterMap_append]
        cases hm : content.mention? none name <;>
          simp [Item.mention?, hm]
    | some parent =>
        rw [Option.elim_some, filterMap_modify (f := State.withChild _) fun _ => rfl,
          Array.toList_push, List.filterMap_append]
        cases hm : content.mention? (some parent) name <;>
          simp [Item.mention?, hm]
  unfold State.books
  rw [hmentions]
  rfl

theorem books_silent (s : State) (name : String) (t : Token)
    {content : Item.Content} (h : content.mention? s.scopeItem? name = none) :
    (s.addItem name t content).books = s.books := by
  rw [books_addItem, h, Option.toList_none, List.append_nil]

theorem books_modify (s : State) (id : ItemId) {f : Item → Item}
    (hf : ∀ i, (f i).mention? = i.mention?) :
    State.books { s with findings :=
      { s.findings with items := s.findings.items.modify id f } } = s.books := by
  unfold State.books
  dsimp only
  rw [filterMap_modify hf]

theorem books_changeItem? {id : ItemId} {f : Item → Item}
    (hf : ∀ i, (f i).mention? = i.mention?) (h : s.changeItem? id f = some s') :
    s'.books = s.books := by
  unfold State.changeItem? at h
  split at h
  · cases h
    exact books_modify s id hf
  · cases h

theorem books_setEndLine? {id : ItemId} {line : Nat}
    (h : s.setEndLine? id line = some s') : s'.books = s.books :=
  books_changeItem? (f := fun i => { i with endLine := some line }) (fun _ => rfl) h

theorem books_changing (s : State) (item : Option ItemId) {f : Item → Item}
    (hf : ∀ i, (f i).mention? = i.mention?) {next : State → Outcome}
    (hnext : ∀ u, (next u).state.books = u.books) :
    (s.changing item f next).state.books = s.books := by
  unfold State.changing
  cases item with
  | none => exact hnext s
  | some id =>
      dsimp only
      split
      · rename_i u hu
        exact (hnext u).trans (books_changeItem? hf hu)
      · rfl

section Amended

variable (i : Item)

theorem mention?_withPrototype (id : ItemId) :
    (State.withPrototype id i).mention? = i.mention? := by
  unfold State.withPrototype Item.mention?
  cases h : i.content <;> simp [h, Item.Content.mention?, Item.Content.definesTable]

theorem mention?_withImplementation (id : ItemId) :
    (State.withImplementation id i).mention? = i.mention? := by
  unfold State.withImplementation Item.mention?
  cases h : i.content <;> simp [h, Item.Content.mention?, Item.Content.definesTable]

theorem mention?_withBlock : (State.withBlock i).mention? = i.mention? := by
  unfold State.withBlock Item.mention?
  cases h : i.content <;> simp [h, Item.Content.mention?, Item.Content.definesTable]

theorem mention?_withKeyword (keyword : String) :
    (State.withKeyword keyword i).mention? = i.mention? := by
  unfold State.withKeyword Item.mention?
  cases h : i.content <;> simp [h, Item.Content.mention?, Item.Content.definesTable]

end Amended

-- =============================================================== expansion

theorem books_substitute (platform : Platform) (s : State) (a : Ahead) (t : Token) :
    (s.substitute platform a t).books = s.books :=
  books_silent s _ t rfl

/-- So where references give way. -/
theorem Substitutions.books {platform : Platform}
    (h : Substitutions platform s s') : s'.books = s.books := by
  induction h with
  | refl => rfl
  | tail _ hstep ih =>
      cases hstep with
      | mk a hat hfresh hk => exact (books_substitute platform _ a _).trans ih

section Expansion

variable (env : Environment)

theorem books_includeAt (s : State) (a : Ahead) (t : Token) :
    (s.includeAt env a t).books = s.books := by
  unfold State.includeAt
  split
  · rfl
  · split
    · rfl
    · dsimp only
      split
      · exact books_silent _ _ t rfl
      · exact books_silent _ _ t rfl

theorem books_expandAt (s : State) (a : Ahead) (includes : Bool) :
    (s.expandAt env a includes).books = s.books := by
  rcases expandAt_cases env s a includes with hsame | ⟨-, u, hu, hexpand⟩
  · rw [hsame]
  · rw [hexpand, ← hu.books]
    split
    · show (u.expandInclude env a).books = u.books
      unfold State.expandInclude
      dsimp only
      split
      · exact books_includeAt env u a _
      · rfl
    · rfl

theorem books_expandNext (s : State) : (s.expandNext env).books = s.books := by
  unfold State.expandNext
  split
  · exact books_expandAt env s .nearest true
  · rfl

end Expansion

-- ============================================================== directives

section Directives

variable {env : Environment} {steps : Nat} {live : Bool} {t : Token}
  {o : Operands} {out : Outcome}

theorem books_takeCondition (h : s.takeCondition env steps live = some (s', o)) :
    s'.books = s.books := by
  obtain ⟨⟨u, o'⟩, hu, he⟩ := Option.map_eq_some_iff.1 h
  cases he
  exact (readCondition_substitutions hu).1.books

theorem books_takeLine (h : s.takeLine env steps live = some (s', o)) :
    s'.books = s.books := by
  obtain ⟨⟨u, o'⟩, hu, he⟩ := Option.map_eq_some_iff.1 h
  cases he
  exact (readLine_substitutions hu).1.books

theorem books_branch (h : s.directive env steps t = some out)
    (hb : isBranch (.ofWord t.text) = true) : out.state.books = s.books := by
  obtain ⟨u, hread, hdone⟩ := branch_cases h hb
  have hbooks : u.books = s.books := by
    rcases hread with rfl | ⟨live, o, hu⟩
    · rfl
    · exact books_takeCondition hu
  rcases hdone with ⟨n, hn⟩ | ⟨fault, hf⟩
  · rw [hn]
    exact hbooks
  · rw [hf]
    exact hbooks

theorem books_defineName {isGlobal : Bool}
    (h : s.defineName env steps t isGlobal = some out) :
    out.state.books = s.books := by
  obtain ⟨⟨u, operands⟩, hu, h⟩ := Option.bind_eq_some_iff.1 h
  rw [← books_takeLine hu]
  dsimp only at h
  split at h
  · cases h
    rfl
  · cases h
    exact books_silent _ _ _ rfl

theorem books_undefineName (h : s.undefineName env steps t = some out) :
    out.state.books = s.books := by
  obtain ⟨⟨u, operands⟩, hu, h⟩ := Option.bind_eq_some_iff.1 h
  rw [← books_takeLine hu]
  dsimp only at h
  split at h
  · cases h
    rfl
  · cases h
    exact books_silent _ _ _ rfl

theorem books_openSection (h : s.openSection env steps t = some s') :
    s'.books = s.books := by
  obtain ⟨⟨u, operands⟩, hu, h⟩ := Option.bind_eq_some_iff.1 h
  cases h
  rw [← books_takeLine hu]
  exact books_silent u _ t rfl

theorem books_endSection (h : s.endSection env steps t = some out) :
    out.state.books = s.books := by
  obtain ⟨⟨u, operands⟩, hu, h⟩ := Option.bind_eq_some_iff.1 h
  rw [← books_takeLine hu]
  dsimp only at h
  split at h
  · cases h
    rfl
  · split at h
    · cases h
      rfl
    · split at h
      · rename_i hset
        cases h
        exact (books_setEndLine? hset).trans rfl
      · cases h
        rfl

/-- Directives book nothing. -/
theorem books_directive (h : s.directive env steps t = some out) :
    out.state.books = s.books := by
  by_cases hb : isBranch (.ofWord t.text) = true
  · exact books_branch h hb
  have hline : ∀ {live : Bool} {out : Outcome},
      ((s.takeLine env steps live).map (·.1)).map
        (fun s => ({ state := s } : Outcome)) = some out →
      out.state.books = s.books := by
    intro live out h
    obtain ⟨u, hu, rfl⟩ := Option.map_eq_some_iff.1 h
    obtain ⟨⟨u', operands⟩, hu', rfl⟩ := Option.map_eq_some_iff.1 hu
    exact books_takeLine hu'
  unfold State.directive at h
  dsimp only at h
  cases hd : Directive.ofWord t.text with
  | ifThen => exact absurd (by rw [hd]; rfl) hb
  | elseIf => exact absurd (by rw [hd]; rfl) hb
  | otherwise => exact absurd (by rw [hd]; rfl) hb
  | endIf => exact absurd (by rw [hd]; rfl) hb
  | thenPart | other =>
      rw [hd] at h
      cases h
      rfl
  | globalDefine | scopedDefine =>
      rw [hd] at h
      dsimp only at h
      split at h
      · exact hline h
      · exact books_defineName h
  | undefine =>
      rw [hd] at h
      dsimp only at h
      split at h
      · exact hline h
      · exact books_undefineName h
  | analyzeSuspend =>
      rw [hd] at h
      dsimp only at h
      split at h
      · exact hline h
      · obtain ⟨u, hu, rfl⟩ := Option.map_eq_some_iff.1 h
        exact books_openSection hu
  | analyzeResume =>
      rw [hd] at h
      dsimp only at h
      split at h
      · exact hline h
      · exact books_endSection h
  | message =>
      rw [hd] at h
      dsimp only at h
      split at h
      · exact hline h
      · exact hline h

end Directives

-- =================================================================== words

section Words

variable (env : Environment) (s : State) (t : Token)

theorem books_addCall (name : String) (dynamic : Bool) :
    (s.addCall name t dynamic).books = s.books :=
  books_silent s _ t rfl

/-- A use is booked in the scope that is open. -/
theorem books_useTable (table : String) (temporary : Bool) :
    (s.useTable t table temporary).books
      = s.books.use s.scopeItem? (Text.lower table) := by
  unfold State.useTable Books.use
  show _ = if s.analysis.tableUses.contains (s.scopeItem?, Text.lower table) = true
    then s.books else _
  dsimp only
  split
  · rfl
  · exact congrArg (fun b : Books => { b with
      uses := (s.scopeItem?, Text.lower table) :: b.uses })
      (books_addItem s table t (.tableUse temporary))

theorem books_addUnknown :
    (s.addUnknown t).books = s.books.word (Text.lower t.text) := by
  unfold State.addUnknown Books.word
  show _ = if s.analysis.seenWords.contains (Text.lower t.text) = true
    then s.books else _
  dsimp only
  split
  · rfl
  · exact congrArg (fun b : Books => { b with
      words := Text.lower t.text :: b.words })
      (books_addItem s t.text t .word)

/-- A word is booked where nobody knows it. -/
theorem noteUnknown_bookings :
    Bookings env.directory s.books
      (if env.options.matchKnownWords && (env.directory.classify t.text).isNone
        then s.addUnknown t else s).books := by
  split
  · rename_i hunknown
    rw [books_addUnknown]
    refine .single (.word _ ?_)
    rw [Directory.classify_lower]
    exact Option.isNone_iff_eq_none.1 (Bool.and_eq_true_iff.1 hunknown).2
  · exact .refl

/-- The names of a word: a table in the scope that is open, and then the word
itself. -/
theorem useNames_bookings :
    Bookings env.directory s.books (s.useNames env t).books := by
  rw [State.useNames_eq]
  dsimp only
  cases s.tableOf? (env.directory.classify t.text) t.text with
  | none => exact noteUnknown_bookings env s t
  | some use =>
      rw [Option.elim_some]
      refine .trans ?_ (noteUnknown_bookings env (s.useTable t use.1 use.2) t)
      rw [books_useTable]
      exact .single (.use _ _)

/-- The use of a table is mentioned right after the word was looked at. -/
theorem mentions_useNames {table : String} {temporary : Bool}
    (hb : Balanced env.directory s.books)
    (h : s.tableOf? (env.directory.classify t.text) t.text = some (table, temporary)) :
    .use s.scopeItem? (Text.lower table) ∈ (s.useNames env t).books.mentions := by
  rw [State.useNames_eq]
  dsimp only
  rw [h, Option.elim_some]
  refine (noteUnknown_bookings env (s.useTable t table temporary) t).mentions.subset ?_
  rw [books_useTable]
  exact hb.mem_use _ _

theorem lookAtWord_bookings (spaced : Bool) :
    Bookings env.directory s.books (s.lookAtWord env t spaced).books := by
  unfold State.lookAtWord
  split
  · rw [books_silent s t.text t rfl]
  · split
    · split
      · rw [books_addCall]
      · exact .refl
    · split
      · rw [books_addCall]
      · exact useNames_bookings env s t

theorem books_addTrigger (statement : Statement) :
    (s.addTrigger statement t).books = s.books :=
  books_silent s _ t rfl

theorem books_beginAtWord : (s.beginAtWord t).books = s.books := by
  unfold State.beginAtWord
  dsimp only
  split
  · rfl
  · split
    · rfl
    · split
      · exact books_addTrigger s _ _
      · rfl

end Words

-- ============================================================== statements

section Statements

variable (s : State) (st : Statement)

theorem books_reading {α : Type} {q : α → Prop} {read : Except AnalysisFault α}
    (hread : Reads q read) {work : α → Outcome}
    (h : ∀ a, q a → (work a).state.books = s.books) :
    (s.reading read work).state.books = s.books := by
  unfold State.reading
  cases read with
  | error fault => rfl
  | ok a => exact h a (hread a rfl)

/-- Nothing need be known of what is read. -/
theorem Reads.any {α : Type} (read : Except AnalysisFault α) :
    Reads (fun _ => True) read := fun _ _ => trivial

theorem books_openRoutine (item : ItemId) (kind : RoutineKind)
    (keyword : String) (opener : Token) :
    (s.openRoutine item kind keyword opener).books = s.books := by
  unfold State.openRoutine
  dsimp only
  split <;> rfl

theorem books_openAccessor (colon : Bool) :
    (s.openAccessor st colon).books = s.books := by
  unfold State.openAccessor
  split <;> rfl

theorem books_endProcedure : (s.endProcedure st).state.books = s.books :=
  books_reading s (.any _) fun _ _ =>
    (books_openRoutine _ _ _ _ _).trans (books_silent s _ _ rfl)

theorem books_endFunction (colon : Bool) :
    (s.endFunction st colon).state.books = s.books := by
  refine books_reading s (.any _) fun head _ => ?_
  split
  · exact (books_changing _ _ (mention?_withImplementation · _)
      fun u => books_openRoutine _ _ _ _ _).trans (books_silent s _ _ rfl)
  · exact (books_changing _ _ (mention?_withPrototype · _)
      fun u => rfl).trans (books_silent s _ _ rfl)

theorem books_endMethod (colon : Bool) :
    (s.endMethod st colon).state.books = s.books := by
  refine books_reading s (.any _) fun head _ => ?_
  dsimp only
  split
  · exact (books_openRoutine _ _ _ _ _).trans (books_silent s _ _ rfl)
  · exact books_silent s _ _ rfl

theorem books_endOn : (s.endOn st).state.books = s.books := by
  unfold State.endOn
  split
  · exact books_reading s (.any _) fun first _ => books_addTrigger s first st
  · rfl

theorem books_endRun : (s.endRun st).state.books = s.books :=
  books_reading s (.any _) fun _ _ => books_silent s _ _ rfl

/-- A buffer is booked. -/
theorem books_addBuffer (nameToken : Token) (name table : String)
    (temporary : Bool) :
    ∃ temporary', (s.addBuffer nameToken name table temporary).books
      = s.books.table (Text.lower name) temporary' :=
  ⟨_, books_addItem _ name nameToken _⟩

/-- And so is a table. -/
theorem addDefinition_bookings (d : Directory) (nameToken : Token) (name : String)
    (definition : Item.Definition) :
    Bookings d s.books (s.addDefinition nameToken name definition).books := by
  unfold State.addDefinition
  dsimp only
  split
  · rename_i htype
    have htable : definition.isTable = true := by
      rcases htype with htype | htype <;> simp [Item.Definition.isTable, htype]
    have hbooks : ((s.setLocalTable name true).addItem name nameToken
        (.definition definition)).books
        = s.books.table (Text.lower name) true := by
      rw [books_addItem]
      simp [Item.Content.mention?, Item.Content.definesTable, htable]
      rfl
    rw [hbooks]
    exact .single (.table _ _)
  · rename_i htype
    have htable : definition.isTable = false := by
      simpa [Item.Definition.isTable] using htype
    rw [books_silent s name nameToken (by
      simp [Item.Content.mention?, Item.Content.definesTable, htable])]

/-- Of statements only `DEFINE` books anything. -/
theorem endDefine_bookings (d : Directory) (colon : Bool) :
    Bookings d s.books (s.endDefine st colon).state.books := by
  unfold State.endDefine State.reading
  cases st.defined with
  | error fault => exact .refl
  | ok defined =>
      cases defined with
      | nothing => exact .refl
      | buffer nameToken name table temporary =>
          obtain ⟨temporary', hbooks⟩ :=
            books_addBuffer s nameToken name table temporary
          show Bookings d s.books (s.addBuffer nameToken name table temporary).books
          rw [hbooks]
          exact .single (.table _ _)
      | event nameToken name =>
          show Bookings d s.books
            ((s.addItem name nameToken .event).openAccessor st colon).books
          rw [books_openAccessor, books_silent s name nameToken rfl]
      | definition nameToken name definition =>
          show Bookings d s.books
            ((s.addDefinition nameToken name definition).openAccessor st colon).books
          rw [books_openAccessor]
          exact addDefinition_bookings s d nameToken name definition

theorem books_addItems {content : Item.Content}
    (h : ∀ scope name, content.mention? scope name = none) (ts : List Token) :
    (ts.foldl (fun s t => s.addItem t.text t content) s).books = s.books := by
  induction ts generalizing s with
  | nil => rfl
  | cons t ts ih => exact (ih _).trans (books_silent s t.text t (h _ _))

/-- What `VAR` defines is a variable, and no table. -/
theorem books_endVar : (s.endVar st).state.books = s.books :=
  books_reading s (reads_varHead (p := fun _ => True) fun _ _ => trivial)
    fun v ⟨_, htype⟩ => books_addItems s (fun _ _ => by
      simp [Item.Content.mention?, Item.Content.definesTable, Item.Definition.isTable,
        htype]) v.names

theorem books_endLabel (env : Environment) : (s.endLabel env st).1.books = s.books := by
  unfold State.endLabel
  split
  · split
    · exact books_silent s _ _ rfl
    · rfl
  · rfl

theorem books_endBlockHead : (s.endBlockHead st).state.books = s.books := by
  refine books_reading s (.any _) fun opener _ => ?_
  dsimp only
  split
  · exact books_changing s _ mention?_withBlock fun _ => rfl
  · exact books_changing _ _ (mention?_withKeyword · _) fun _ => rfl

theorem books_endBlock : (s.endBlock st).state.books = s.books := by
  have hdone : ∀ u : State, u.done.state.books = u.books := fun _ => rfl
  have hline : ∀ (stop : Token) (i : Item),
      Item.mention? { i with endLine := some (s.rootLine stop) } = i.mention? :=
    fun _ _ => rfl
  refine books_reading s (.any _) fun stop _ => ?_
  split
  · rfl
  · dsimp only
    split
    · exact books_changing _ _ (hline stop) hdone
    · exact books_changing _ _ (hline stop) hdone

theorem endByKind_bookings (env : Environment) (colon : Bool) :
    Bookings env.directory s.books (s.endByKind env st colon).1.state.books := by
  have hsilent : ∀ {u : State}, u.books = s.books →
      Bookings env.directory s.books u.books := fun h => h ▸ .refl
  unfold State.endByKind
  cases st.kind with
  | procedure => exact hsilent (books_endProcedure s st)
  | function => exact hsilent (books_endFunction s st colon)
  | method | constructor | destructor => exact hsilent (books_endMethod s st colon)
  | on => exact hsilent (books_endOn s st)
  | run => exact hsilent (books_endRun s st)
  | define => exact endDefine_bookings s st env.directory colon
  | var => exact hsilent (books_endVar s st)
  | close => exact hsilent (books_endBlock s st)
  | block => exact hsilent (books_endBlockHead s st)
  | accessor =>
      cases colon with
      | false => exact .refl
      | true => exact hsilent (books_endBlockHead s st)
  | other =>
      cases colon with
      | false => exact .refl
      | true => exact hsilent (books_endLabel s st env)

/-- The trigger that items belong to is no matter of the books. -/
theorem endStatement_bookings (env : Environment) (stop : Token) :
    Bookings env.directory s.books (s.endStatement env st stop).state.books :=
  endByKind_bookings (s.under st.trigger) st env (stop.text == ":")

end Statements

-- ===================================================================== run

section Run

variable {env : Environment} {steps : Nat} {t : Token}

/-- The state that a word is looked at in: a statement has begun at it, if one
begins there. -/
def State.atWord (s : State) (t : Token) : State :=
  (s.unspaced.beginAtWord t).restarting (Keyword.isIn t.text Keyword.restarts)

theorem books_atWord (s : State) (t : Token) : (s.atWord t).books = s.books :=
  books_beginAtWord s.unspaced t

/-- A token of a statement, which books nothing unless it is a word. -/
theorem readToken_bookings (env : Environment) (s : State) (t : Token) :
    Bookings env.directory s.books (s.readToken env t).books := by
  by_cases hk : t.kind = .word
  · rw [readToken_word env s t hk, ← books_atWord s t]
    exact lookAtWord_bookings env (s.atWord t) t s.analysis.spaced
  · rw [readToken_other env s t hk]
    exact .refl

theorem books_observe (s : State) (t : Token) (skipped : Bool) :
    (s.observe t skipped).2.books = s.books := by
  unfold State.observe
  split
  · rfl
  · split
    · rfl
    · unfold State.stopStatement
      dsimp only
      split <;> rfl
  · rfl

/-- A look at a token. -/
theorem look_bookings {ended : Option Statement} {out : Outcome}
    (h : s.look env steps t ended = some out) :
    Bookings env.directory s.books out.state.books := by
  unfold State.look at h
  split at h
  · cases h
    exact .refl
  split at h
  · rw [books_directive h]
  split at h
  · cases h
    exact .refl
  split at h
  · cases h
    exact .refl
  · cases h
    exact .refl
  · cases h
    exact .refl
  · split at h
    · rename_i statement
      cases h
      exact endStatement_bookings s.space statement env t
    · cases h
      exact .refl
  · cases h
    exact .refl
  · cases h
    exact .refl
  · cases h
    exact .refl
  · cases h
    exact readToken_bookings env s t

/-- A step on a token. -/
theorem step_bookings (h : s.step env steps t = some s') :
    Bookings env.directory s.books s'.books := by
  rcases step_cases h with ⟨-, u, rfl, rfl⟩ | ⟨-, out, hlook, rfl⟩
  · rw [books_expandNext]
    show Bookings _ _ (s.observe t true).2.books
    rw [books_observe]
  · rw [books_expandNext, ← books_observe s t false]
    exact look_bookings hlook

theorem books_advance? (h : s.advance? = some s') : s'.books = s.books := by
  obtain ⟨cursor, -, rfl⟩ := Option.map_eq_some_iff.1 h
  rfl

/-- A run to the end of the tokens. -/
theorem run_bookings (h : s.run env steps = some s') :
    Bookings env.directory s.books s'.books := by
  induction steps generalizing s with
  | zero => cases h
  | succ steps ih =>
      unfold State.run at h
      split at h
      · cases h
        exact .refl
      · rename_i u hu
        rw [← books_advance? hu]
        dsimp only at h
        split at h
        · cases h
          exact .refl
        · split at h
          · cases h
          · rename_i v hv
            exact (step_bookings hv).trans (ih h)

theorem next_bookings (h : Next env s s') :
    Bookings env.directory s.books s'.books := by
  obtain ⟨steps, h⟩ := h
  obtain ⟨v, hv, -, hstep⟩ := next?_cases h
  rw [← books_advance? hv]
  exact step_bookings hstep

/-- And so to any state on the way. -/
theorem LeadsTo.bookings (h : LeadsTo env s s') :
    Bookings env.directory s.books s'.books := by
  induction h with
  | refl => exact .refl
  | tail _ hnext ih => exact ih.trans (next_bookings hnext)

-- ============================================================ start and end

theorem books_start (env : Environment) (cache : TokenCache) (text : String)
    (path : Option String) :
    (State.start env cache text path).books = ⟨[], [], [], []⟩ := by
  unfold State.start
  rw [books_expandAt, books_expandAt]
  rfl

theorem books_leaveAll (line : Nat) (s : State) (scopes : List OpenScope) :
    (s.leaveAll line scopes).books = s.books := by
  induction scopes generalizing s with
  | nil => rfl
  | cons o around ih =>
      refine (ih _).trans ?_
      unfold State.leave
      split
      · rename_i item _
        cases hset : s.setEndLine? item line with
        | none => rfl
        | some u => exact books_setEndLine? hset
      · split <;> rfl

/-- The end of the tokens. -/
theorem finish_bookings (env : Environment) (s : State) :
    Bookings env.directory s.books (s.finish env).books := by
  have hlast : ∀ (u : State) (eof : Token),
      Bookings env.directory u.books (u.endLast env eof).books := by
    intro u eof
    unfold State.endLast
    dsimp only
    split
    · exact .refl
    · exact endStatement_bookings u.takeStatement.2 _ env eof
  unfold State.finish
  dsimp only
  rw [books_leaveAll]
  exact hlast (s.recordLine _) _

end Run

end AblOutline.Parse
