/-
What is suggested where. The suggestions are put in order and of all with one
label the first is kept, so a label is never lost (`exists_mem_ordered`).

Whether a declaration can be used on a line is asked of its scope, and the two
ways to suggest differ in where they ask:

    qualifier.       the fields of the table behind the first buffer of that
                     name; the scopes are not asked (`suggested_members`)
    anything else    what stands in the file or in a scope that is open on the
                     line (`suggested_outside_routines`)

A section of the editor is a scope like the body of a routine. So what it
declares is suggested on its own lines only, though it can be used on all.
-/
import AblOutline.Completion.Query
import AblOutline.Proofs.Findings

namespace AblOutline

open Parse

namespace Completion

-- ================================================================== order

section Order

variable {seen : List String} {cs : List Completion} {c : Completion}
  {label : String}

theorem distinctFrom_sublist : (distinctFrom seen cs).Sublist cs := by
  induction cs generalizing seen with
  | nil => exact .slnil
  | cons d rest ih =>
      unfold distinctFrom
      dsimp only
      split
      · exact ih.cons d
      · exact ih.cons_cons d

/-- Of a label that was not seen the first suggestion is kept. -/
theorem find?_distinctFrom (hnew : Text.lower label ∉ seen) :
    (distinctFrom seen cs).find? (fun c => Text.same c.label label)
      = cs.find? fun c => Text.same c.label label := by
  induction cs generalizing seen with
  | nil => rfl
  | cons d rest ih =>
      unfold distinctFrom
      dsimp only
      cases hlabel : Text.same d.label label with
      | true =>
          -- the first one of the label, which is not dropped
          have hd : Text.lower d.label = Text.lower label := beq_iff_eq.1 hlabel
          rw [if_neg (by rwa [hd, List.contains_iff_mem]), List.find?_cons,
            List.find?_cons, hlabel]
      | false =>
          rw [List.find?_cons, hlabel]
          split
          case isTrue => exact ih hnew
          case isFalse =>
            rw [List.find?_cons, hlabel]
            refine ih fun hm => ?_
            rcases List.mem_cons.1 hm with he | hm
            · exact beq_eq_false_iff_ne.1 hlabel he.symm
            · exact hnew hm

theorem mem_of_ordered (h : c ∈ ordered cs) : c ∈ cs :=
  (List.mergeSort_perm ..).mem_iff.1 (distinctFrom_sublist.mem h)

/-- No label is lost. -/
theorem exists_mem_ordered (h : c ∈ cs) :
    ∃ d ∈ ordered cs, Text.same d.label c.label = true := by
  have hfound : ((ordered cs).find?
      fun d => Text.same d.label c.label).isSome = true := by
    unfold ordered
    rw [find?_distinctFrom List.not_mem_nil, List.find?_isSome]
    exact ⟨c, (List.mergeSort_perm ..).mem_iff.2 h, beq_self_eq_true _⟩
  obtain ⟨d, hd, hlabel⟩ := List.find?_isSome.1 hfound
  exact ⟨d, hd, hlabel⟩

end Order

-- =========================================================== declarations

/-- It is a buffer of that name. -/
def isBuffer (name : String) (c : Completion) : Bool :=
  c.kind == .buffer && Text.same c.label name

theorem kindOfType_eq_buffer {type : DefineType}
    (h : kindOfType type = .buffer) : type = .buffer := by
  cases type <;> first | rfl | cases h

/-- What is suggested as a buffer has a table, or is a definition of one. -/
theorem table_of_ofContent? {name : String} {content : Item.Content}
    {c : Completion} (h : ofContent? name content = some c)
    (hkind : c.kind = .buffer) :
    (∃ table, c.table = some table) ∨ content.defined? = some .buffer := by
  cases content <;> simp only [ofContent?] at h
  case buffer table temporary =>
    cases h
    exact Or.inl ⟨table, rfl⟩
  case definition d =>
    cases h
    exact Or.inr (congrArg some (kindOfType_eq_buffer hkind))
  case prototype | name =>
    split at h
    · cases h
    · cases h
      cases hkind
  case procedure | implementation | method | label =>
    cases h
    cases hkind
  -- anything else is not suggested
  all_goals cases h

/-- All buffers that a parse declares have a table. -/
theorem table_of_declared {steps : Nat} {env : Environment} {cache : TokenCache}
    {text : String} {path : Option String} {r : Result}
    (h : parse? steps env cache text path = some r) {c : Completion}
    (hc : c ∈ r.file.declared) (hkind : c.kind = .buffer) :
    ∃ table, c.table = some table := by
  obtain ⟨i, hi, hitem⟩ := List.mem_filterMap.1 hc
  obtain ⟨content, hcontent, rfl⟩ := Option.map_eq_some_iff.1 hitem
  have hdefined := (parse_found h (Array.mem_toList_iff.1 hi)).2
  exact (table_of_ofContent? hcontent hkind).resolve_right hdefined

-- ============================================================= visibility

section Visibility

variable {p : ParsedFile} {line column : Nat} {c : Completion} {text : String}

/-- Whatever is no preprocessor name can be used in the file and where its
scope is open. -/
theorem isVisible_of_scope (hkind : c.kind ≠ .name)
    (hscope : ∀ s, c.scope = some s →
      isRoot p s = true ∨ isOpenOn p s line = true) :
    isVisible p line c = true := by
  unfold isVisible
  split
  · rfl
  split
  case isTrue hname =>
    exact absurd (eq_of_beq (Bool.and_eq_true_iff.1 hname).1) hkind
  split
  · rfl
  · rename_i s hs
    exact Bool.or_eq_true_iff.2 (hscope s hs)

/-- After nothing all that can be used is suggested. -/
theorem exists_suggested {declared : List Completion} (directory : Directory)
    (hword : Text.wordBefore text column = "") (hc : c ∈ declared)
    (hvisible : isVisible p line c = true) :
    ∃ d ∈ p.completions declared directory text line column,
      Text.same d.label c.label = true := by
  have htyped : Typed.ofLine text column = .plain "" := by
    unfold Typed.ofLine
    rw [hword]
    rfl
  refine exists_mem_ordered ?_
  rw [htyped]
  refine List.mem_filter.2 ⟨List.mem_append_left _
    (List.mem_filter.2 ⟨hc, hvisible⟩), ?_⟩
  rfl

/-- The members of a buffer are the fields of the table behind the first of its
name. -/
theorem members_of_first {declared : List Completion} {schema : Schema}
    {name table : String} (hname : schema.database? name = none)
    (hfirst : declared.find? (isBuffer name) = some c)
    (htable : c.table = some table) :
    members declared schema name = schema.fieldCompletions table := by
  have hbuffer : bufferTable? declared name = some table := by
    show (declared.find? (isBuffer name)).bind (·.table) = some table
    rw [hfirst]
    exact htable
  unfold members
  rw [hname, hbuffer]
  rfl

end Visibility

end Completion

open Completion

-- ================================================================ members

section Parses

variable {steps : Nat} {env : Environment} {cache : TokenCache}
  {text : String} {path : Option String} {r : Result} {directory : Directory}
  {lineText : String} {line column : Nat}

/-- After the name of a buffer that can be used on the line, and no database,
the fields of the table behind such a buffer are suggested, and nothing else,
if the first buffer of the name is one. -/
theorem suggested_members (h : parse? steps env cache text path = some r)
    {name start : String}
    (htyped : Typed.ofLine lineText column = .member name start)
    (hname : directory.schema.database? name = none)
    (hvisible : ∃ b ∈ r.file.declared, b.isBuffer name = true
      ∧ isVisible r.file line b = true)
    (hfirst : ∀ b, r.file.declared.find? (isBuffer name) = some b →
      isVisible r.file line b = true) :
    let suggested :=
      r.file.completions r.file.declared directory lineText line column
    ∃ b ∈ r.file.declared, b.isBuffer name = true
      ∧ isVisible r.file line b = true
      ∧ ∃ table, b.table = some table
        ∧ (∀ c ∈ suggested, c ∈ directory.schema.fieldCompletions table)
        ∧ ∀ c ∈ directory.schema.fieldCompletions table,
          c.startsWith start = true →
            ∃ d ∈ suggested, Text.same d.label c.label = true := by
  intro suggested
  obtain ⟨v, hv, hbuffer, -⟩ := hvisible
  obtain ⟨b, hb⟩ := Option.isSome_iff_exists.1
    (List.find?_isSome.2 ⟨v, hv, hbuffer⟩)
  have hmem := List.mem_of_find?_eq_some hb
  have hnamed : b.isBuffer name = true := List.find?_some hb
  have hkind : b.kind = .buffer :=
    eq_of_beq (Bool.and_eq_true_iff.1 hnamed).1
  obtain ⟨table, htable⟩ := table_of_declared h hmem hkind
  have hsuggested : suggested = ordered
      ((directory.schema.fieldCompletions table).filter
        (·.startsWith start)) := by
    rw [← members_of_first hname hb htable]
    show ordered _ = _
    rw [htyped]
    rfl
  refine ⟨b, hmem, hnamed, hfirst b hb, table, htable, ?_, ?_⟩
  · intro c hc
    rw [hsuggested] at hc
    exact (List.mem_filter.1 (mem_of_ordered hc)).1
  · intro c hc hstart
    rw [hsuggested]
    exact exists_mem_ordered (List.mem_filter.2 ⟨hc, hstart⟩)

/-- Two procedures, each with a buffer of the same name. -/
private def twoBuffers : String :=
  "PROCEDURE p:\nDEFINE BUFFER b FOR item.\nEND.\n"
    ++ "PROCEDURE q:\nDEFINE BUFFER b FOR bin.\nEND.\n"

/-- The tables of the two buffers. -/
private def twoTables : Directory where
  schema :=
    let item : Schema.Table :=
      { (default : Schema.Table) with
        name := "item"
        fields := [{ (default : Schema.Field) with name := "name" }] }
    let bin : Schema.Table :=
      { (default : Schema.Table) with
        name := "bin"
        fields := [{ (default : Schema.Field) with name := "shelf" }] }
    { databases := [{ (default : Schema.Database) with
        name := "shop", tables := [item, bin] }] }
  entries := []

/-- The first buffer can be used in the second line, the other one in the fifth,
where the fields of the first one's table are suggested. -/
private theorem parse_twoBuffers :
    ∃ r, parse? 120 {} {} twoBuffers none = some r
      ∧ (r.file.declared.find? (isBuffer "b")).map (isVisible r.file 1)
        = some true
      ∧ (r.file.declared.filter fun b =>
          b.isBuffer "b" && isVisible r.file 4 b).map (·.table) = [some "bin"]
      ∧ r.file.completions r.file.declared twoTables "b." 4 2
        = twoTables.schema.fieldCompletions "item" := by
  have hrun : (parse? 120 {} {} twoBuffers none).map (fun r =>
      ((r.file.declared.find? (isBuffer "b")).map (isVisible r.file 1),
        (r.file.declared.filter fun b =>
          b.isBuffer "b" && isVisible r.file 4 b).map (·.table),
        r.file.completions r.file.declared twoTables "b." 4 2))
      = some (some true, [some "bin"],
        twoTables.schema.fieldCompletions "item") := by
    decide +kernel
  obtain ⟨r, hr, he⟩ := Option.map_eq_some_iff.1 hrun
  obtain ⟨hfirst, he⟩ := Prod.mk.inj he
  obtain ⟨htables, hsuggested⟩ := Prod.mk.inj he
  exact ⟨r, hr, hfirst, htables, hsuggested⟩

/-- In the first procedure its buffer is the first one of all. -/
theorem suggested_members_first_procedure :
    ∃ r, parse? 120 {} {} twoBuffers none = some r
      ∧ (∃ b ∈ r.file.declared, b.isBuffer "b" = true
        ∧ isVisible r.file 1 b = true)
      ∧ ∃ b ∈ r.file.declared, b.isBuffer "b" = true
        ∧ isVisible r.file 1 b = true
        ∧ ∃ table, b.table = some table
          ∧ (∀ c ∈ r.file.completions r.file.declared twoTables "b.n" 1 3,
            c ∈ twoTables.schema.fieldCompletions table)
          ∧ ∀ c ∈ twoTables.schema.fieldCompletions table,
            c.startsWith "n" = true →
              ∃ d ∈ r.file.completions r.file.declared twoTables "b.n" 1 3,
                Text.same d.label c.label = true := by
  obtain ⟨r, hr, hfound, -⟩ := parse_twoBuffers
  obtain ⟨b, hb, hvisible⟩ := Option.map_eq_some_iff.1 hfound
  have hfirst : ∃ b ∈ r.file.declared, b.isBuffer "b" = true
      ∧ isVisible r.file 1 b = true :=
    ⟨b, List.mem_of_find?_eq_some hb, List.find?_some hb, hvisible⟩
  refine ⟨r, hr, hfirst, suggested_members hr (by decide +kernel)
    (by decide +kernel) hfirst fun b' hb' => ?_⟩
  rw [hb] at hb'
  rw [← Option.some.inj hb']
  exact hvisible

/-- In the second procedure the fields of the other buffer's table are
suggested. -/
theorem suggested_member_out_of_scope :
    ∃ r, parse? 120 {} {} twoBuffers none = some r
      ∧ Typed.ofLine "b." 2 = .member "b" ""
      ∧ twoTables.schema.database? "b" = none
      ∧ (∃ b ∈ r.file.declared, b.isBuffer "b" = true
        ∧ isVisible r.file 4 b = true)
      ∧ ∃ c ∈ r.file.completions r.file.declared twoTables "b." 4 2,
        ∀ b ∈ r.file.declared, b.isBuffer "b" = true →
          isVisible r.file 4 b = true → ∀ table, b.table = some table →
            c ∉ twoTables.schema.fieldCompletions table := by
  obtain ⟨r, hr, -, htables, hsuggested⟩ := parse_twoBuffers
  have htable : ∀ b ∈ r.file.declared, b.isBuffer "b" = true →
      isVisible r.file 4 b = true → b.table = some "bin" := by
    intro b hb hnamed hvisible
    have hmem : b.table ∈ [some "bin"] := by
      rw [← htables]
      exact List.mem_map_of_mem (List.mem_filter.2
        ⟨hb, Bool.and_eq_true_iff.2 ⟨hnamed, hvisible⟩⟩)
    exact List.mem_singleton.1 hmem
  have hsome : some "bin" ∈ ((r.file.declared.filter fun b =>
      b.isBuffer "b" && isVisible r.file 4 b).map (·.table)) := by
    rw [htables]
    exact List.mem_singleton_self _
  obtain ⟨b, hb, -⟩ := List.mem_map.1 hsome
  obtain ⟨hb, hshown⟩ := List.mem_filter.1 hb
  refine ⟨r, hr, by decide +kernel, by decide +kernel,
    ⟨b, hb, Bool.and_eq_true_iff.1 hshown⟩,
    ofField { (default : Schema.Field) with name := "name" }, ?_, ?_⟩
  · rw [hsuggested]
    decide +kernel
  · intro b hb hnamed hvisible table hb'
    obtain rfl : "bin" = table :=
      Option.some.inj ((htable b hb hnamed hvisible).symm.trans hb')
    decide +kernel

-- ======================================================= outside routines

/-- The sorts of items that keep what is declared in them to themselves. -/
def routines : List String := ["procedure", "implementation", "method", "on"]

/-- No routine is among the scopes around the item. -/
def OutsideRoutines (items : Array Item) (i : ItemId) : Prop :=
  ∀ s, Relation.TransGen (ScopeOf items) i s →
    ∀ sort ∈ routines, ¬ IsA items s sort

/-- What is in no routine is in the file itself or in a section of it. -/
theorem Forest.file_or_section {items : Array Item} (h : Forest items)
    {i s : ItemId} (hout : OutsideRoutines items i) (hs : ScopeOf items i s) :
    s = 0 ∨ IsA items s "preproc-block" := by
  obtain ⟨-, owner, howner, hscope⟩ := h.scope hs
  have hsort : owner.content.reportName
      ∈ "file" :: "preproc-block" :: routines :=
    (Item.isScope_iff owner).1 hscope
  rcases List.mem_cons.1 hsort with hfile | hsort
  · exact Or.inl ((h.file howner).1 hfile)
  rcases List.mem_cons.1 hsort with hsection | hroutine
  · exact Or.inr ⟨owner, howner, hsection⟩
  · exact absurd ⟨owner, howner, rfl⟩ (hout s (.single hs) _ hroutine)

/-- What stands before all routines is in none of them. -/
theorem Forest.outsideRoutines_of_before {items : Array Item} (h : Forest items)
    {i : ItemId} (hbefore : ∀ s < i, ∀ sort ∈ routines, ¬ IsA items s sort) :
    OutsideRoutines items i := by
  intro s hs
  have hlt : s < i := by
    induction hs with
    | single hs => exact (h.scope hs).1
    | tail _ hs ih => exact Nat.lt_trans (h.scope hs).1 ih
  exact hbefore s hlt

/-- What a parse finds outside of all routines is suggested on every line,
unless its section of the editor is closed there. The label may be that of
another declaration. Preprocessor names are known from their own line on
only. -/
theorem suggested_outside_routines
    (h : parse? steps env cache text path = some r) {i : Item}
    (hi : i ∈ r.file.items) {c : Completion} (hc : ofItem? i = some c)
    (hkind : c.kind ≠ .name) (hout : OutsideRoutines r.file.items i.id)
    (hword : Text.wordBefore lineText column = "")
    (hsection : ∀ s, ScopeOf r.file.items i.id s →
      IsA r.file.items s "preproc-block" → isOpenOn r.file s line = true) :
    ∃ d ∈ r.file.completions r.file.declared directory lineText line column,
      Text.same d.label c.label = true := by
  have hforest := parse_forest h
  have hdeclared : c ∈ r.file.declared :=
    List.mem_filterMap.2 ⟨i, Array.mem_toList_iff.2 hi, hc⟩
  refine exists_suggested directory hword hdeclared
    (isVisible_of_scope hkind fun s hs => ?_)
  obtain ⟨n, hn⟩ := Array.mem_iff_getElem?.1 hi
  have hscope : ScopeOf r.file.items i.id s := by
    obtain ⟨content, -, rfl⟩ := Option.map_eq_some_iff.1 hc
    exact ⟨i, (hforest.number hn).symm ▸ hn, hs⟩
  rcases hforest.file_or_section hout hscope with rfl | hsort
  · left
    obtain ⟨file, hfile, -⟩ := hforest.isA_file
    show (r.file.items[0]?).any (·.id == 0) = true
    rw [hfile]
    exact beq_iff_eq.2 (hforest.number hfile)
  · exact Or.inr (hsection s hscope hsort)

/-- A variable of a section of the editor, and a procedure after it. -/
private def sectionText : String :=
  "&ANALYZE-SUSPEND _UIB-CODE-BLOCK _CUSTOM _DEFINITIONS\n"
    ++ "DEFINE VARIABLE hWin AS HANDLE.\n&ANALYZE-RESUME\n"
    ++ "PROCEDURE p:\n\nEND.\n"

/-- The variable, as it is suggested. -/
private def sectionVariable : Completion :=
  { label := "hWin", kind := .var, detail := "HANDLE", rank := 20
    scope := some 1, line := some 1 }

/-- The variable is found in the section, which is open in the second line, and
outside of all routines. -/
private theorem parse_section :
    ∃ r, parse? 120 {} {} sectionText none = some r
      ∧ (∃ i ∈ r.file.items, ofItem? i = some sectionVariable
        ∧ OutsideRoutines r.file.items i.id
        ∧ ∀ s, ScopeOf r.file.items i.id s → s = 1)
      ∧ isOpenOn r.file 1 1 = true
      ∧ (r.file.completions r.file.declared ⟨{}, []⟩ "" 4 0).map (·.label)
        = ["p"] := by
  let sorts := ["file", "preproc-block", "define", "procedure"]
  have hrun : (parse? 120 {} {} sectionText none).map (fun r =>
      (r.file.items.toList.map (·.content.reportName),
        r.file.items[2]?.bind ofItem?, isOpenOn r.file 1 1,
        (r.file.completions r.file.declared ⟨{}, []⟩ "" 4 0).map (·.label)))
      = some (sorts, some sectionVariable, true, ["p"]) := by
    decide +kernel
  obtain ⟨r, hr, he⟩ := Option.map_eq_some_iff.1 hrun
  obtain ⟨hsorts, he⟩ := Prod.mk.inj he
  obtain ⟨hvariable, he⟩ := Prod.mk.inj he
  obtain ⟨hopen, hlabels⟩ := Prod.mk.inj he
  obtain ⟨i, hi, hitem⟩ := Option.bind_eq_some_iff.1 hvariable
  have hforest := parse_forest hr
  have hid : i.id = 2 := hforest.number hi
  refine ⟨r, hr, ⟨i, Array.mem_of_getElem? hi, hitem, ?_, ?_⟩, hopen, hlabels⟩
  · rw [hid]
    refine hforest.outsideRoutines_of_before ?_
    rintro s hs sort hsort ⟨item, hn, rfl⟩
    have hat : sorts[s]? = some item.content.reportName := by
      rw [← hsorts, List.getElem?_map, Array.getElem?_toList, hn]
      rfl
    have hnone : ∀ s < 2, (sorts[s]?).all (· ∉ routines) = true := by decide
    have hnot := hnone s hs
    rw [hat] at hnot
    exact of_decide_eq_true hnot hsort
  · rintro s ⟨item, hn, hs⟩
    rw [hid, hi] at hn
    obtain ⟨content, -, hplace⟩ := Option.map_eq_some_iff.1 hitem
    have hscope : i.scope = some 1 := congrArg Completion.scope hplace
    rw [← Option.some.inj hn, hscope] at hs
    exact (Option.some.inj hs).symm

/-- In the section its variable is suggested. -/
theorem suggested_inside_section :
    ∃ r, parse? 120 {} {} sectionText none = some r
      ∧ sectionVariable ∈ r.file.declared
      ∧ ∃ d ∈ r.file.completions r.file.declared ⟨{}, []⟩ "" 1 0,
        Text.same d.label sectionVariable.label = true := by
  obtain ⟨r, hr, ⟨i, hi, hitem, hout, hscope⟩, hopen, -⟩ := parse_section
  exact ⟨r, hr, List.mem_filterMap.2 ⟨i, Array.mem_toList_iff.2 hi, hitem⟩,
    suggested_outside_routines hr hi hitem (by decide) hout (by decide +kernel)
      fun s hs _ => hscope s hs ▸ hopen⟩

/-- In the procedure after the section it is not suggested. -/
theorem not_suggested_past_section :
    ∃ r, parse? 120 {} {} sectionText none = some r
      ∧ ∃ i ∈ r.file.items, ofItem? i = some sectionVariable
        ∧ OutsideRoutines r.file.items i.id
        ∧ Text.wordBefore "" 0 = ""
        ∧ ∀ d ∈ r.file.completions r.file.declared ⟨{}, []⟩ "" 4 0,
          Text.same d.label sectionVariable.label = false := by
  obtain ⟨r, hr, ⟨i, hi, hitem, hout, -⟩, -, hlabels⟩ := parse_section
  refine ⟨r, hr, i, hi, hitem, hout, by decide +kernel, fun d hd => ?_⟩
  have hlabel : d.label ∈ ["p"] := hlabels ▸ List.mem_map_of_mem hd
  rw [List.mem_singleton.1 hlabel]
  decide +kernel

end Parses

end AblOutline
