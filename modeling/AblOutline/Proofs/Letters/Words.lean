/-
Words in small letters. A word is looked up without regard to case, in the
directory as well as among what the file defines, so it is used in the same
way in small letters. The name of a trigger alone has a word of the parse's
own in it, `OF` in capitals: where a trigger is put down the two states are
the same only once both are made small.
-/
import AblOutline.Proofs.Letters.State

namespace AblOutline

open Text

theorem Directory.classify_lower (d : Directory) (name : String) :
    d.classify (lower name) = d.classify name := by
  unfold classify
  rw [lower_lower]

theorem Directory.isKeyword_lower (d : Directory) (name : String) :
    d.isKeyword (lower name) = d.isKeyword name := by
  unfold isKeyword
  rw [classify_lower]

-- =============================================================== looking

namespace Cursor

variable (c : Cursor)

theorem scan_small {wanted : Token → Bool}
    (hwanted : ∀ t : Token, wanted t.small = wanted t) (beyond : Token)
    (offset step : Int) (ts : List Token) :
    scan wanted beyond.small offset step (ts.map Token.small)
      = Prod.map id Token.small (scan wanted beyond offset step ts) := by
  induction ts generalizing offset with
  | nil => rfl
  | cons t ts ih =>
      rw [List.map_cons, scan, scan, ih, hwanted]
      show (if t.isEof || wanted t then _ else _) = _
      split <;> rfl

theorem onward_small (offset : Int) :
    c.small.onward offset = (c.onward offset).map Token.small := by
  have hlength : c.small.passed.length = c.passed.length := List.length_map ..
  unfold onward
  dsimp only
  rw [hlength]
  split
  · exact List.map_drop.symm
  · split
    · rw [List.map_append, List.map_reverse, List.map_take]
      rfl
    · rfl

theorem backward_small (offset : Int) :
    c.small.backward offset = (c.backward offset).map Token.small := by
  have hlength : c.small.ahead.length = c.ahead.length := List.length_map ..
  unfold backward
  dsimp only
  rw [hlength]
  split
  · exact List.map_drop.symm
  · split
    · rw [List.map_append, List.map_reverse, List.map_take]
      rfl
    · rfl

/-- The nearest token of other kinds stands in the same place. -/
theorem findOther_small (origin : Int) (kinds : List TokenKind) (back : Bool) :
    c.small.findOther origin kinds back
      = Prod.map id Token.small (c.findOther origin kinds back) := by
  have hwanted : ∀ t : Token, (!kinds.contains t.small.kind)
      = !kinds.contains t.kind := fun _ => rfl
  unfold findOther find
  rw [onward_small, backward_small]
  split
  · exact scan_small hwanted ..
  · exact scan_small hwanted ..

theorem nextSignificant_small :
    c.small.nextSignificant = c.nextSignificant.small := by
  unfold nextSignificant
  rw [findOther_small]
  rfl

theorem lastSignificant_small :
    c.small.lastSignificant = c.lastSignificant.small := by
  unfold lastSignificant
  rw [findOther_small]
  rfl

end Cursor

namespace Parse

theorem isSnippet_lower (word : String) :
    isSnippet (lower word) = isSnippet word := by
  have hmark : ∀ c : Option Char,
      (c.map Char.toLower == some '$') = (c == some '$') := by
    intro c
    cases c with
    | none => rfl
    | some c => exact toLower_beq rfl c
  unfold isSnippet
  dsimp only
  rw [toList_lower, List.length_map, List.head?_map, List.getLast?_map, hmark,
    hmark]

theorem unqualified_lower (name : String) :
    unqualified (lower name) = lower (unqualified name) := by
  unfold unqualified
  rw [splitLast?_lower]
  cases splitLast? '.' name <;> rfl

theorem Outcome.small_done (s : State) : s.done.small = s.small.done := rfl

namespace State

variable (env : Environment) (s : State) (t : Token)

theorem small_ite {P : Prop} [Decidable P] {u v u' v' : State}
    (hu : u' = u.small) (hv : v' = v.small) :
    (if P then u' else v') = (if P then u else v).small := by
  split
  · exact hu
  · exact hv

-- ================================================================= calls

theorem isCall_small (spaced : Bool) :
    s.small.isCall env.small t.small spaced = s.isCall env t spaced := by
  have hnext : s.small.source.cursor.nextSignificant
      = s.source.cursor.nextSignificant.small :=
    Cursor.nextSignificant_small _
  have hlast : s.small.source.cursor.lastSignificant
      = s.source.cursor.lastSignificant.small :=
    Cursor.lastSignificant_small _
  have htarget : s.small.analysis.statement.inTarget spaced
      = s.analysis.statement.inTarget spaced := Statement.inTarget_small _ _
  have hkeyword : env.small.directory.isKeyword (lower t.text)
      = env.directory.isKeyword t.text := Directory.isKeyword_lower _ _
  unfold isCall
  dsimp only
  rw [hnext, hlast, htarget, Token.text_small, function?_small, hkeyword,
    Token.isSymbol_small _ rfl, Token.isSymbol_small _ rfl,
    Token.isWord_small]
  rfl

theorem addCall_small (name : String) (dynamic : Bool) :
    s.small.addCall (lower name) t.small dynamic
      = (s.addCall name t dynamic).small := by
  unfold addCall
  rw [function?_small]
  exact s.addItem_small t name (.call _ dynamic)

theorem dynamicName?_small :
    s.small.dynamicName? = s.dynamicName?.map lower := by
  have hfind : ∀ origin, s.small.source.cursor.findOther origin
        TokenKind.trivia false
      = Prod.map id Token.small
        (s.source.cursor.findOther origin TokenKind.trivia false) :=
    fun origin => Cursor.findOther_small _ origin _ false
  unfold dynamicName?
  rw [hfind]
  dsimp only [Prod.map, id]
  generalize s.source.cursor.findOther 0 TokenKind.trivia false = paren
  rw [hfind]
  generalize s.source.cursor.findOther paren.1 TokenKind.trivia false = name
  show (if paren.2.small.isSymbol "(" ∧ name.2.kind = .string
    then some name.2.small.unquoted else none) = _
  rw [Token.isSymbol_small _ rfl, Token.unquoted_small]
  split <;> rfl

-- ================================================================ tables

theorem tableOf?_small (kind : Option SymbolKind) (word : String) :
    s.small.tableOf? kind (lower word)
      = (s.tableOf? kind word).map (Prod.map lower id) := by
  unfold tableOf?
  rw [unqualified_lower, localTable?_small, splitLast?_lower]
  split
  · rfl
  · cases splitLast? '.' word with
    | none => rfl
    | some parts =>
        show some (unqualified (lower parts.1), false) = _
        rw [unqualified_lower]
        rfl
  · cases splitLast? '.' word with
    | none => rfl
    | some parts =>
        show some (unqualified (lower parts.1), false) = _
        rw [unqualified_lower]
        rfl
  · rw [Option.map_map]
    rfl

theorem useTable_small (table : String) (temporary : Bool) :
    s.small.useTable t.small (lower table) temporary
      = (s.useTable t table temporary).small := by
  unfold useTable
  dsimp only
  rw [scopeItem?_small, lower_lower,
    show Item.Content.tableUse temporary
      = (Item.Content.tableUse temporary).small from rfl, addItem_small]
  exact small_ite rfl rfl

theorem addUnknown_small :
    s.small.addUnknown t.small = (s.addUnknown t).small := by
  unfold addUnknown
  dsimp only
  rw [Token.text_small, lower_lower,
    show Item.Content.word = Item.Content.word.small from rfl, addItem_small]
  exact small_ite rfl rfl

theorem useNames_small :
    s.small.useNames env.small t.small = (s.useNames env t).small := by
  have hclassify : env.small.directory.classify t.small.text
      = env.directory.classify t.text := Directory.classify_lower _ _
  have hused : ∀ use : Option (String × Bool),
      (use.map (Prod.map lower id)).elim s.small
          (fun use => s.small.useTable t.small use.1 use.2)
        = (use.elim s fun use => s.useTable t use.1 use.2).small := by
    intro use
    cases use with
    | none => rfl
    | some use => exact s.useTable_small t use.1 use.2
  rw [useNames_eq, useNames_eq]
  dsimp only
  rw [hclassify, Token.text_small, tableOf?_small, hused, addUnknown_small]
  exact small_ite rfl rfl

theorem lookAtWord_small (spaced : Bool) :
    s.small.lookAtWord env.small t.small spaced
      = (s.lookAtWord env t spaced).small := by
  unfold lookAtWord
  rw [isCall_small, useNames_small, Token.text_small, isSnippet_lower,
    Token.isWord_small, dynamicName?_small, addCall_small]
  refine small_ite (addItem_small s t t.text .snippet) (small_ite ?_
    (small_ite rfl rfl))
  cases s.dynamicName? with
  | none => rfl
  | some name => exact s.addCall_small t name true

-- =========================================================== statements

theorem beginStatement_small (trigger : Option ItemId) :
    s.small.beginStatement t.small trigger
      = (s.beginStatement t trigger).small := by
  unfold beginStatement
  rw [Token.text_small, StatementKind.ofWord_lower]
  rfl

theorem addPart_small (spaced : Bool) :
    s.small.addPart ⟨t.small, spaced⟩ = (s.addPart ⟨t, spaced⟩).small := by
  have hadd : s.small.analysis.statement.add ⟨t.small, spaced⟩
      = (s.analysis.statement.add ⟨t, spaced⟩).small := by
    unfold Statement.add Statement.small
    rw [List.map_append]
    rfl
  unfold addPart
  rw [hadd]
  rfl

/-- The name of a trigger that was made small, once that is made small. -/
theorem triggerName_small (t : Item.Trigger) :
    lower (Statement.triggerName t.small)
      = lower (Statement.triggerName t) := by
  obtain ⟨events, widgets, hasBlock⟩ := t
  show lower (if lower widgets = "" then lower events
    else lower events ++ " OF " ++ lower widgets)
    = lower (if widgets = "" then events else events ++ " OF " ++ widgets)
  by_cases h : widgets = ""
  · rw [if_pos h, if_pos ((lower_eq_empty widgets).2 h), lower_lower]
  · rw [if_neg h, if_neg (mt (lower_eq_empty widgets).1 h), lower_append,
      lower_append, lower_append, lower_append, lower_lower, lower_lower]

theorem addTrigger_small (statement : Statement) :
    (s.small.addTrigger statement.small t.small).small
      = (s.addTrigger statement t).small := by
  unfold addTrigger
  dsimp only
  rw [Statement.triggerHead_small, ← addItem_small, small_small,
    triggerName_small, Token.small_small,
    show Item.Content.trigger statement.triggerHead.small
      = (Item.Content.trigger statement.triggerHead).small from rfl,
    Item.Content.small_small, addItem_small]

theorem beginAtWord_small :
    (s.small.beginAtWord t.small).small = (s.beginAtWord t).small := by
  have hfirst : s.small.analysis.statement.first?
      = s.analysis.statement.first?.map Token.small :=
    Statement.first?_small _
  have haction : s.small.analysis.statement.startsAction t.small.text
      = s.analysis.statement.startsAction t.text :=
    Statement.startsAction_small _ _
  have hbegin : ∀ (u v : State) (trigger : Option ItemId),
      u.small = v.small → (u.beginStatement t.small trigger).small
        = (v.beginStatement t trigger).small := by
    intro u v trigger h
    rw [← beginStatement_small, ← beginStatement_small, Token.small_small, h]
  unfold beginAtWord
  dsimp only
  rw [hfirst, haction, nextItem_small]
  cases s.analysis.statement.first? with
  | none => exact hbegin s.small s none s.small_small
  | some first =>
      show (if s.analysis.restart then _ else _ : State).small = _
      dsimp only
      split
      · exact hbegin s.small s _ s.small_small
      · split
        · exact hbegin _ _ _ (addTrigger_small s first _)
        · exact s.small_small

/-- A token of a statement. -/
theorem readToken_small :
    (s.small.readToken env.small t.small).small = (s.readToken env t).small := by
  have hpart : ∀ (u v : State) (spaced : Bool), u.small = v.small →
      (u.addPart ⟨t.small, spaced⟩).small
        = (v.addPart ⟨t, spaced⟩).small := by
    intro u v spaced h
    rw [← addPart_small, ← addPart_small, Token.small_small, h]
  have hlook : ∀ (u v : State) (spaced : Bool), u.small = v.small →
      (u.lookAtWord env.small t.small spaced).small
        = (v.lookAtWord env t spaced).small := by
    intro u v spaced h
    rw [← lookAtWord_small, ← lookAtWord_small, Token.small_small,
      Environment.small_small, h]
  have hrestart : ∀ (u v : State) (restart : Bool), u.small = v.small →
      ({ u with analysis := { u.analysis with restart } } : State).small
        = ({ v with analysis := { v.analysis with restart } } : State).small :=
    fun u v restart h => congrArg (fun w : State =>
      { w with analysis := { w.analysis with restart } }) h
  have hbegun := beginAtWord_small
    { s with analysis := { s.analysis with spaced := false } } t
  unfold readToken
  dsimp only
  refine hpart _ _ _ ?_
  rw [Token.text_small, Keyword.isIn_lower]
  by_cases hk : t.kind = .word
  · rw [if_pos hk, if_pos (show t.small.kind = .word from hk)]
    exact hlook _ _ _ (hrestart _ _ _ hbegun)
  · rw [if_neg hk, if_neg (show t.small.kind ≠ .word from hk)]
    exact congrArg (fun w : State => { w with analysis :=
      { w.analysis with spaced := false } }) s.small_small

end State

end Parse

end AblOutline
