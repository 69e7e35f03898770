/-
Tokens without their bytes. Which bytes of a file a token takes is recorded
with it, but nothing that a statement says depends on it: what is read of a
statement whose tokens are bare is what is read of the statement, its tokens
made bare.
-/
import AblOutline.Statement.Action
import AblOutline.Statement.Definition
import AblOutline.Statement.Routine
import Mathlib.Data.List.Basic

namespace AblOutline

-- ================================================================ tokens

/-- The token without its bytes. -/
def Token.bare (t : Token) : Token := { t with range := ⟨0, 0⟩ }

def Part.bare (p : Part) : Part := { p with token := p.token.bare }

def Statement.bare (s : Statement) : Statement :=
  { s with parts := s.parts.map Part.bare }

namespace Token

variable {t t' : Token}

theorem kind_eq (h : t.bare = t'.bare) : t.kind = t'.kind := by
  show t.bare.kind = t'.bare.kind
  rw [h]

theorem text_eq (h : t.bare = t'.bare) : t.text = t'.text := by
  show t.bare.text = t'.bare.text
  rw [h]

end Token

namespace Statement

variable (s : Statement)

-- ================================================================= words

theorem isEmpty_bare : s.bare.isEmpty = s.isEmpty := by
  unfold isEmpty
  show (s.parts.map _).isEmpty = _
  rw [List.isEmpty_map]

theorem token?_bare (i : Nat) :
    s.bare.token? i = (s.token? i).map Token.bare := by
  unfold token?
  show (s.parts.map _)[i]?.map _ = _
  rw [List.getElem?_map, Option.map_map, Option.map_map]
  rfl

theorem first?_bare : s.bare.first? = s.first?.map Token.bare :=
  s.token?_bare 0

theorem has_bare (word : String) : s.bare.has word = s.has word := by
  unfold has
  show (s.parts.map _).any _ = _
  rw [List.any_map]
  rfl

theorem find?_bare (word : String) : s.bare.find? word = s.find? word := by
  unfold find?
  show (s.parts.map _).findIdx? _ = _
  rw [List.findIdx?_map]
  rfl

theorem after?_bare (word : String) :
    s.bare.after? word = (s.after? word).map Token.bare := by
  unfold after?
  rw [find?_bare]
  cases s.find? word with
  | none => rfl
  | some i => exact s.token?_bare (i + 1)

theorem outsideFrom?_bare (word : String) (i depth : Nat) (ps : List Part) :
    outsideFrom? word i depth (ps.map Part.bare)
      = outsideFrom? word i depth ps := by
  induction ps generalizing i depth with
  | nil => rfl
  | cons p ps ih =>
      rw [List.map_cons, outsideFrom?, outsideFrom?, ih, ih, ih]
      rfl

theorem outside?_bare (word : String) :
    s.bare.outside? word = s.outside? word :=
  outsideFrom?_bare word 0 0 s.parts

theorem missingName_bare : s.bare.missingName = s.missingName := by
  unfold missingName
  rw [first?_bare]
  cases s.first? <;> rfl

theorem opening_bare : s.bare.opening = s.opening.map Token.bare := by
  unfold opening
  rw [first?_bare, missingName_bare]
  cases s.first? <;> rfl

theorem nameAt_bare (i : Nat) :
    s.bare.nameAt i = (s.nameAt i).map fun x => (x.1.bare, x.2) := by
  unfold nameAt
  rw [token?_bare, missingName_bare]
  cases s.token? i with
  | none => rfl
  | some t =>
      show (if t.kind = .word ∨ t.kind = .string then _ else _) = _
      dsimp only
      split <;> rfl

theorem typeAfter?_bare (i : Nat) : s.bare.typeAfter? i = s.typeAfter? i := by
  unfold typeAfter?
  rw [token?_bare, token?_bare, Option.map_map]
  cases s.token? (i + 1) <;> rfl

-- ================================================================ groups

theorem groupFrom_bare (depth : Nat) (text : String) (ps : List Part) :
    groupFrom depth text (ps.map Part.bare)
      = ((groupFrom depth text ps).1,
        (groupFrom depth text ps).2.map Part.bare) := by
  induction ps generalizing depth text with
  | nil => rfl
  | cons p ps ih =>
      rw [List.map_cons, groupFrom, groupFrom, ih, ih, ih]
      show (if p.token.isSymbol "(" then _ else _) = _
      split
      · rfl
      · show (if p.token.isSymbol ")" then _ else _) = _
        split
        · split <;> rfl
        · rfl

theorem firstGroup_bare : s.bare.firstGroup = s.firstGroup := by
  have hfrom : s.bare.fromGroup = s.fromGroup.map Part.bare := by
    unfold fromGroup
    show (s.parts.map _).dropWhile _ = _
    rw [List.dropWhile_map]
    rfl
  unfold firstGroup group
  rw [hfrom, groupFrom_bare]

theorem joined_bare (ps : List Part) :
    joined (ps.map Part.bare) = joined ps := by
  unfold joined
  rw [List.map_map]
  rfl

-- =============================================================== actions

theorem namesWidgets_bare : s.bare.namesWidgets = s.namesWidgets := by
  unfold namesWidgets
  rw [has_bare, has_bare]

theorem length_bare : s.bare.parts.length = s.parts.length := List.length_map ..

theorem triggerHead_bare : s.bare.triggerHead = s.triggerHead := by
  unfold triggerHead
  rw [find?_bare, find?_bare, length_bare]
  have htake : ∀ n, joined ((s.bare.parts.take n).drop 1)
      = joined ((s.parts.take n).drop 1) := by
    intro n
    show joined (((s.parts.map _).take n).drop 1) = _
    rw [← List.map_take, ← List.map_drop, joined_bare]
  have hdrop : ∀ n, joined (s.bare.parts.drop n) = joined (s.parts.drop n) := by
    intro n
    show joined ((s.parts.map _).drop n) = _
    rw [← List.map_drop, joined_bare]
  dsimp only
  rw [htake]
  simp only [hdrop]

theorem startsAction_bare (word : String) :
    s.bare.startsAction word = s.startsAction word := by
  unfold startsAction
  rw [length_bare, namesWidgets_bare]
  rfl

theorem inTarget_bare (spaced : Bool) :
    s.bare.inTarget spaced = s.inTarget spaced := by
  obtain ⟨kind, parts, trigger⟩ := s
  rcases parts with _ | ⟨p, _ | ⟨q, rest⟩⟩
  · rfl
  · rfl
  · have hall : (rest.map Part.bare).all (!·.spaced)
        = rest.all (!·.spaced) := by
      rw [List.all_map]
      rfl
    show (kind == .run && (!spaced && (rest.map Part.bare).all _)) = _
    rw [hall]
    rfl

theorem hasDynamicTarget_bare :
    s.bare.hasDynamicTarget = s.hasDynamicTarget := by
  unfold hasDynamicTarget
  rw [token?_bare, token?_bare]
  cases s.token? 1 <;> cases s.token? 2 <;> rfl

theorem writtenTarget_bare (ps : List Part) :
    writtenTarget (ps.map Part.bare)
      = ((writtenTarget ps).1, (writtenTarget ps).2.map Part.bare) := by
  cases ps with
  | nil => rfl
  | cons p ps =>
      rw [List.map_cons]
      unfold writtenTarget
      show (if p.token.isSymbol "(" then _ else _) = _
      dsimp only
      split
      · rfl
      · rw [List.takeWhile_map, List.dropWhile_map, List.map_cons,
          List.map_map]
        rfl

theorem handleIn?_bare (ps : List Part) :
    handleIn? (ps.map Part.bare) = handleIn? ps := by
  unfold handleIn?
  rw [List.dropWhile_map]
  have hsame : ((fun p : Part => !p.token.isWord "IN") ∘ Part.bare)
      = fun p => !p.token.isWord "IN" := rfl
  rw [hsame]
  generalize ps.dropWhile (fun p => !p.token.isWord "IN") = rest
  match rest with
  | [] => rfl
  | [_] => rfl
  | _ :: _ :: _ => rfl

/-- A `RUN` statement, its token made bare. -/
def RunHead.bare (head : RunHead) : RunHead :=
  { head with targetToken := head.targetToken.bare }

/-- The parts of a `RUN` statement from its target on. -/
theorem target_bare (n : Nat) :
    group (s.bare.parts.drop n)
        = ((group (s.parts.drop n)).1,
          (group (s.parts.drop n)).2.map Part.bare)
      ∧ writtenTarget (s.bare.parts.drop n)
        = ((writtenTarget (s.parts.drop n)).1,
          (writtenTarget (s.parts.drop n)).2.map Part.bare) := by
  have hdrop : s.bare.parts.drop n = (s.parts.drop n).map Part.bare :=
    List.map_drop.symm
  rw [hdrop]
  exact ⟨groupFrom_bare .., writtenTarget_bare _⟩

theorem runHead_bare : s.bare.runHead = s.runHead.map RunHead.bare := by
  unfold runHead
  rw [token?_bare, hasDynamicTarget_bare, missingName_bare,
    (s.target_bare 2).1, (s.target_bare 1).2]
  cases s.token? 1 with
  | none => rfl
  | some t =>
      have hpick : ∀ c : Bool, (if c then
            ((group (s.parts.drop 2)).1,
              (group (s.parts.drop 2)).2.map Part.bare)
          else ((writtenTarget (s.parts.drop 1)).1,
            (writtenTarget (s.parts.drop 1)).2.map Part.bare))
          = ((if c then group (s.parts.drop 2)
              else writtenTarget (s.parts.drop 1)).1,
            (if c then group (s.parts.drop 2)
              else writtenTarget (s.parts.drop 1)).2.map Part.bare) := by
        intro c
        cases c <;> rfl
      rw [hpick]
      generalize (if s.hasDynamicTarget then group (s.parts.drop 2)
        else writtenTarget (s.parts.drop 1)) = read
      obtain ⟨target, rest⟩ := read
      dsimp only [Option.map]
      by_cases ht : target = ""
      · rw [if_pos ht, if_pos ht]
        rfl
      · rw [if_neg ht, if_neg ht, handleIn?_bare, List.any_map, List.any_map]
        rfl

-- =========================================================== definitions

theorem beforeGroup?_bare (depth : Nat) (ps : List Part) :
    beforeGroup? depth (ps.map Part.bare)
      = (beforeGroup? depth ps).map (List.map Part.bare) := by
  induction ps generalizing depth with
  | nil => rfl
  | cons p ps ih =>
      rw [List.map_cons, beforeGroup?, beforeGroup?, ih, ih, ih]
      show (if p.token.isSymbol ")" then _ else _) = _
      split
      · rfl
      · show (if p.token.isSymbol "(" then _ else _) = _
        split
        · split <;> rfl
        · rfl

theorem accessor?_bare : s.bare.accessor? = s.accessor?.map Token.bare := by
  have hlast : s.bare.parts.getLast? = s.parts.getLast?.map Part.bare :=
    List.getLast?_map
  have hreverse : s.bare.parts.reverse = s.parts.reverse.map Part.bare :=
    List.map_reverse.symm
  unfold accessor?
  rw [hlast, hreverse, beforeGroup?_bare]
  cases s.parts.getLast? with
  | none => rfl
  | some last =>
      have hhead : ∀ ps : List Part,
          ((ps.map Part.bare).head?.bind fun p =>
              if ["GET", "SET", "TRIGGERS"].any p.token.isWord
                then some p.token else none)
            = (ps.head?.bind fun p =>
              if ["GET", "SET", "TRIGGERS"].any p.token.isWord
                then some p.token else none).map Token.bare := by
        intro ps
        cases ps with
        | nil => rfl
        | cons p ps =>
            show (if ["GET", "SET", "TRIGGERS"].any p.token.isWord
              then _ else _) = Option.map _ (if _ then _ else _)
            split <;> rfl
      dsimp only [Option.map_some, Option.bind_eq_bind, Option.bind_some]
      show (if last.token.isSymbol ")" then _ else _) = _
      split
      · cases beforeGroup? 0 s.parts.reverse with
        | none => rfl
        | some ps => exact hhead ps
      · exact hhead s.parts.reverse

/-- What a `DEFINE` statement defines, its token made bare. -/
def Defined.bare : Defined → Defined
  | nothing => nothing
  | buffer t name table temporary => buffer t.bare name table temporary
  | event t name => event t.bare name
  | definition t name d => definition t.bare name d

theorem place_bare (place : Option Nat) :
    place.bind s.bare.token? = (place.bind s.token?).map Token.bare := by
  cases place with
  | none => rfl
  | some i => exact s.token?_bare i

theorem next_bare (place : Option Nat) :
    (place.bind fun i => s.bare.token? (i + 1))
      = (place.bind fun i => s.token? (i + 1)).map Token.bare := by
  cases place with
  | none => rfl
  | some i => exact s.token?_bare (i + 1)

theorem bufferAt_bare (i : Nat) :
    s.bare.bufferAt i = (s.bufferAt i).map Defined.bare := by
  unfold bufferAt
  rw [nameAt_bare, find?_bare]
  simp only [place_bare, Option.any_map, Option.map_map]
  cases s.nameAt i <;> rfl

theorem parameterNameIndex_bare (i : Nat) :
    s.bare.parameterNameIndex i = s.parameterNameIndex i := by
  unfold parameterNameIndex
  rw [token?_bare, token?_bare, Option.any_map, Option.any_map]
  rfl

theorem namedAt_bare (type : DefineType) (modifiers : List String) (i : Nat) :
    s.bare.namedAt type modifiers i
      = (s.namedAt type modifiers i).map Defined.bare := by
  have htype : s.bare.typeAfter? = s.typeAfter? := funext s.typeAfter?_bare
  unfold namedAt
  rw [nameAt_bare, outside?_bare, outside?_bare, htype, next_bare,
    Option.map_map]
  cases s.nameAt i with
  | error fault => rfl
  | ok x =>
      show (if type = .event then _ else _)
        = Except.map _ (if type = .event then _ else _)
      split <;> rfl

theorem leading_bare (q : Token → Bool) (hq : ∀ t : Token, q t.bare = q t) :
    ((s.bare.parts.drop 1).takeWhile fun p => q p.token).map
        (fun p => Text.upper p.token.text)
      = ((s.parts.drop 1).takeWhile fun p => q p.token).map
        fun p => Text.upper p.token.text := by
  have hdrop : s.bare.parts.drop 1 = (s.parts.drop 1).map Part.bare :=
    List.map_drop.symm
  have hsame : (fun p : Part => q p.token) ∘ Part.bare
      = fun p => q p.token := funext fun p => hq p.token
  rw [hdrop, List.takeWhile_map, hsame, List.map_map]
  rfl

theorem defined_bare : s.bare.defined = s.defined.map Defined.bare := by
  unfold defined
  rw [s.leading_bare isDefineModifier fun _ => rfl, has_bare]
  dsimp only
  generalize ((s.parts.drop 1).takeWhile fun p =>
    isDefineModifier p.token).map (fun p => Text.upper p.token.text) = leading
  have htype : (s.bare.token? (leading.length + 1)).bind
        (fun t => DefineType.ofWord? t.text)
      = (s.token? (leading.length + 1)).bind
        fun t => DefineType.ofWord? t.text := by
    rw [token?_bare, Option.bind_map]
    rfl
  have hbuffer : (s.bare.token? (leading.length + 1 + 1)).any
        (fun t => Text.same t.text "BUFFER")
      = (s.token? (leading.length + 1 + 1)).any
        fun t => Text.same t.text "BUFFER" := by
    rw [token?_bare, Option.any_map]
    rfl
  simp only [htype, hbuffer, bufferAt_bare, namedAt_bare,
    parameterNameIndex_bare]
  cases (s.token? (leading.length + 1)).bind
      fun t => DefineType.ofWord? t.text with
  | none => rfl
  | some type =>
      cases type with
      | parameter =>
          dsimp only
          split <;> rfl
      | _ => rfl

theorem variablesFrom_bare (depth : Nat) (nameNext : Bool) (ps : List Part) :
    variablesFrom depth nameNext (ps.map Part.bare)
      = (variablesFrom depth nameNext ps).map Token.bare := by
  induction ps generalizing depth nameNext with
  | nil => rfl
  | cons p ps ih =>
      rw [List.map_cons, variablesFrom, variablesFrom]
      simp only [ih]
      show (if p.token.isSymbol "(" || p.token.isSymbol "[" then _ else _) = _
      split
      · rfl
      · show (if p.token.isSymbol ")" || p.token.isSymbol "]" then _ else _) = _
        split
        · rfl
        · show (if p.token.isSymbol "," && depth == 0 then _ else _) = _
          split
          · rfl
          · show (if nameNext && depth == 0 && p.token.kind == .word
              then _ else _) = _
            split <;> rfl

/-- The variables of a `VAR` statement, their tokens made bare. -/
def Variables.bare (v : Variables) : Variables :=
  { v with names := v.names.map Token.bare }

theorem varHead_bare : s.bare.varHead = s.varHead.map Variables.bare := by
  unfold varHead
  rw [s.leading_bare (fun t => Keyword.isIn t.text Keyword.defineModifiers)
    fun _ => rfl]
  dsimp only
  generalize ((s.parts.drop 1).takeWhile fun p =>
    Keyword.isIn p.token.text Keyword.defineModifiers).map
      (fun p => Text.upper p.token.text) = modifiers
  have hclass : (s.bare.token? (modifiers.length + 1)).any (·.isWord "CLASS")
      = (s.token? (modifiers.length + 1)).any (·.isWord "CLASS") := by
    rw [token?_bare, Option.any_map]
    rfl
  rw [hclass]
  generalize (if (s.token? (modifiers.length + 1)).any (·.isWord "CLASS")
    then modifiers.length + 1 + 1 else modifiers.length + 1) = index
  have hdrop : s.bare.parts.drop (index + 1)
      = (s.parts.drop (index + 1)).map Part.bare := List.map_drop.symm
  rw [token?_bare, missingName_bare, hdrop, variablesFrom_bare]
  cases s.token? index with
  | none => rfl
  | some type =>
      show (if ((variablesFrom 0 true _).map Token.bare).isEmpty
        then _ else _) = _
      rw [List.isEmpty_map]
      dsimp only
      split <;> rfl

-- ============================================================== routines

/-- The head of a procedure, its tokens made bare. -/
def ProcedureHead.bare (head : ProcedureHead) : ProcedureHead :=
  { head with
    opener := head.opener.bare, nameToken := head.nameToken.bare }

theorem procedureHead_bare :
    s.bare.procedureHead = s.procedureHead.map ProcedureHead.bare := by
  unfold procedureHead
  rw [opening_bare, nameAt_bare, after?_bare, after?_bare, has_bare,
    Option.map_map, Option.any_map]
  cases s.opening with
  | error fault => rfl
  | ok opener => cases s.nameAt 1 <;> rfl

/-- The head of a function, its tokens made bare. -/
def FunctionHead.bare (head : FunctionHead) : FunctionHead :=
  { head with
    opener := head.opener.bare, nameToken := head.nameToken.bare }

theorem functionHead_bare :
    s.bare.functionHead = s.functionHead.map FunctionHead.bare := by
  have htype : s.bare.typeAfter? = s.typeAfter? := funext s.typeAfter?_bare
  unfold functionHead
  rw [opening_bare, nameAt_bare, outside?_bare, outside?_bare, outside?_bare,
    htype, firstGroup_bare, next_bare, has_bare, Option.map_map]
  cases s.opening with
  | error fault => rfl
  | ok opener => cases s.nameAt 1 <;> rfl

/-- The head of a method, its tokens made bare. -/
def MethodHead.bare (head : MethodHead) : MethodHead :=
  { head with
    opener := head.opener.bare, nameToken := head.nameToken.bare }

theorem methodNameIndex?_bare :
    s.bare.methodNameIndex? = s.methodNameIndex? := by
  have hparen : s.bare.parts.findIdx? (fun p => p.token.isSymbol "(")
      = s.parts.findIdx? fun p => p.token.isSymbol "(" := by
    show (s.parts.map _).findIdx? _ = _
    rw [List.findIdx?_map]
    rfl
  unfold methodNameIndex?
  rw [length_bare, hparen]

/-- What a method says before its name. -/
theorem between_bare (n : Nat) :
    ((s.bare.parts.take n).drop 1).map (·.token)
      = (((s.parts.take n).drop 1).map (·.token)).map Token.bare := by
  show (((s.parts.map _).take n).drop 1).map _ = _
  rw [← List.map_take, ← List.map_drop, List.map_map, List.map_map]
  rfl

theorem modifiers_bare (ts : List Token) :
    ((ts.map Token.bare).filter fun t =>
        Keyword.isIn t.text Keyword.methodModifiers).map
        (fun t => Text.upper t.text)
      = (ts.filter fun t =>
        Keyword.isIn t.text Keyword.methodModifiers).map
        fun t => Text.upper t.text := by
  rw [List.filter_map, List.map_map]
  rfl

theorem methodType_bare (ts : List Token) :
    ((ts.map Token.bare).reverse.find? isMethodType).map (·.text)
      = (ts.reverse.find? isMethodType).map (·.text) := by
  rw [← List.map_reverse, List.find?_map, Option.map_map]
  rfl

theorem methodHead_bare (colon : Bool) :
    s.bare.methodHead colon = (s.methodHead colon).map MethodHead.bare := by
  have hkind : s.bare.methodKind = s.methodKind := rfl
  unfold methodHead
  simp only [opening_bare, methodNameIndex?_bare, missingName_bare,
    firstGroup_bare, hkind, nameAt_bare, between_bare, modifiers_bare,
    methodType_bare]
  cases s.opening with
  | error fault => rfl
  | ok opener =>
      cases s.methodNameIndex? with
      | none => rfl
      | some i =>
          dsimp only
          cases s.nameAt i <;> rfl

end Statement

end AblOutline
