/-
Statements in small letters. Words are compared without regard to case, and
marks have none. So what is read of a statement in small letters is what is
read of the statement, with the names and texts that it copies in small
letters.
-/
import AblOutline.Proofs.Letters.Lexing
import AblOutline.Statement.Action
import AblOutline.Statement.Definition
import AblOutline.Statement.Routine

namespace AblOutline

open Text

-- ================================================================= words

section Words

variable (word : String)

theorem Keyword.isIn_lower (list : List String) :
    isIn (lower word) list = isIn word list := by
  unfold isIn
  rw [upper_lower]

theorem StatementKind.ofWord_lower : ofWord (lower word) = ofWord word := by
  unfold ofWord
  rw [upper_lower, Keyword.isIn_lower, abbreviates_lower, abbreviates_lower]

theorem DefineType.ofWord?_lower : ofWord? (lower word) = ofWord? word := by
  unfold ofWord?
  rw [upper_lower, abbreviates_lower, abbreviates_lower]

theorem Primitive.ofWord_lower : ofWord (lower word) = ofWord word := by
  unfold ofWord ofWord?
  rw [upper_lower, abbreviates_lower, abbreviates_lower, abbreviates_lower,
    abbreviates_lower]

theorem Primitive.ofWord_comp_lower : ofWord ∘ lower = ofWord := by
  funext word
  rw [Function.comp_apply, ofWord_lower]

end Words

namespace Token

variable (t : Token)

theorem small_small : t.small.small = t.small := by
  unfold small
  rw [lower_lower]

theorem isWord_small (word : String) : t.small.isWord word = t.isWord word := by
  show (t.kind == .word && same (lower t.text) word) = _
  rw [same_lower]
  rfl

theorem isSymbol_small {mark : String}
    (h : mark.toList.all (!·.isAlpha) = true) :
    t.small.isSymbol mark = t.isSymbol mark := by
  show (t.kind == .symbol && lower t.text == mark) = _
  rw [lower_beq t.text h]
  rfl

theorem text_small : t.small.text = lower t.text := rfl

theorem isIn_small (list : List String) :
    (fun t : Token => Keyword.isIn t.text list) ∘ small
      = fun t => Keyword.isIn t.text list := by
  funext t
  rw [Function.comp_apply, text_small, Keyword.isIn_lower]

theorem unquoted_small : t.small.unquoted = lower t.unquoted := by
  unfold unquoted
  show (if t.kind = .string then String.ofList (stripQuotes
    (lower t.text).toList) else lower t.text) = _
  rw [toList_lower, stripQuotes_lower, ← ofList_lower]
  split <;> rfl

end Token

-- ================================================================= small

def Part.small (p : Part) : Part := { p with token := p.token.small }

def Statement.small (s : Statement) : Statement :=
  { s with parts := s.parts.map Part.small }

def AnalysisFault.small : AnalysisFault → AnalysisFault
  | missingName keyword line => missingName (lower keyword) line
  | danglingItem item => danglingItem item
  | noScope line => noScope line

namespace Item

def Procedure.small (p : Procedure) : Procedure :=
  { p with external := p.external.map lower }

def Method.small (m : Method) : Method :=
  { m with
    returnType := lower m.returnType, parameters := lower m.parameters }

def Run.small (r : Run) : Run :=
  { r with target := lower r.target, inHandle := r.inHandle.map lower }

def Trigger.small (t : Trigger) : Trigger :=
  { t with events := lower t.events, widgets := lower t.widgets }

def Definition.small (d : Definition) : Definition :=
  { d with asType := lower d.asType, like := d.like.map lower }

end Item

/-- What was read, in small letters, or why nothing was. -/
def smallRead {α : Type} (small : α → α) :
    Except AnalysisFault α → Except AnalysisFault α
  | .ok a => .ok (small a)
  | .error fault => .error fault.small

namespace Part

theorem isWord_small (word : String) :
    (fun p : Part => p.token.isWord word) ∘ small
      = fun p => p.token.isWord word :=
  funext fun p => p.token.isWord_small word

theorem isSymbol_small {mark : String}
    (h : mark.toList.all (!·.isAlpha) = true) :
    (fun p : Part => p.token.isSymbol mark) ∘ small
      = fun p => p.token.isSymbol mark :=
  funext fun p => p.token.isSymbol_small h

end Part

namespace Statement

variable (s : Statement)

-- ================================================================= parts

theorem small_small : s.small.small = s.small := by
  unfold small
  rw [List.map_map]
  exact congrArg (Statement.mk s.kind · s.trigger) (List.map_congr_left
    fun p _ => congrArg (Part.mk · p.spaced) p.token.small_small)

theorem isEmpty_small : s.small.isEmpty = s.isEmpty := List.isEmpty_map

theorem length_small : s.small.parts.length = s.parts.length :=
  List.length_map ..

theorem token?_small (i : Nat) :
    s.small.token? i = (s.token? i).map Token.small := by
  unfold token?
  show (s.parts.map _)[i]?.map _ = _
  rw [List.getElem?_map, Option.map_map, Option.map_map]
  rfl

theorem first?_small : s.small.first? = s.first?.map Token.small :=
  s.token?_small 0

theorem has_small (word : String) : s.small.has word = s.has word := by
  unfold has
  show (s.parts.map _).any _ = _
  rw [List.any_map, Part.isWord_small]

theorem find?_small (word : String) : s.small.find? word = s.find? word := by
  unfold find?
  show (s.parts.map _).findIdx? _ = _
  rw [List.findIdx?_map, Part.isWord_small]

theorem after?_small (word : String) :
    s.small.after? word = (s.after? word).map Token.small := by
  unfold after?
  rw [find?_small]
  cases s.find? word with
  | none => rfl
  | some i => exact s.token?_small (i + 1)

theorem outsideFrom?_small (word : String) (i depth : Nat) (ps : List Part) :
    outsideFrom? word i depth (ps.map Part.small)
      = outsideFrom? word i depth ps := by
  induction ps generalizing i depth with
  | nil => rfl
  | cons p ps ih =>
      rw [List.map_cons, outsideFrom?, outsideFrom?, ih, ih, ih]
      show (if p.token.small.isSymbol "(" then _
        else if p.token.small.isSymbol ")" then _
        else if depth = 0 && p.token.small.isWord word then _ else _) = _
      rw [Token.isSymbol_small _ rfl, Token.isSymbol_small _ rfl,
        Token.isWord_small]

theorem outside?_small (word : String) :
    s.small.outside? word = s.outside? word :=
  outsideFrom?_small word 0 0 s.parts

theorem missingName_small : s.small.missingName = s.missingName.small := by
  unfold missingName
  rw [first?_small]
  cases s.first? <;> rfl

theorem opening_small : s.small.opening = smallRead Token.small s.opening := by
  unfold opening
  rw [first?_small, missingName_small]
  cases s.first? <;> rfl

theorem nameAt_small (i : Nat) :
    s.small.nameAt i
      = smallRead (Prod.map Token.small lower) (s.nameAt i) := by
  unfold nameAt
  rw [token?_small, missingName_small]
  cases s.token? i with
  | none => rfl
  | some t =>
      show (if t.kind = .word ∨ t.kind = .string
        then Except.ok (t.small, t.small.unquoted) else _) = _
      rw [Token.unquoted_small]
      dsimp only
      split <;> rfl

theorem typeAfter?_small (i : Nat) :
    s.small.typeAfter? i = (s.typeAfter? i).map lower := by
  unfold typeAfter?
  rw [token?_small, token?_small]
  cases s.token? (i + 1) with
  | none => rfl
  | some t =>
      show (if t.small.isWord "CLASS" then _ else some (lower t.text)) = _
      rw [Token.isWord_small]
      dsimp only
      split
      · rw [Option.map_map, Option.map_map]
        rfl
      · rfl

-- ================================================================ groups

theorem gapped_small (text : String) (p : Part) :
    gapped (lower text) p.small = lower (gapped text p) := by
  have hfront : ∀ c : Bool, (if c then lower text ++ " " else lower text)
      = lower (if c then text ++ " " else text) := by
    intro c
    cases c with
    | false => rfl
    | true => exact (lower_append text " ").symm
  unfold gapped
  rw [bne, lower_beq text rfl, hfront, lower_append]
  rfl

theorem groupFrom_small (depth : Nat) (text : String) (ps : List Part) :
    groupFrom depth (lower text) (ps.map Part.small)
      = Prod.map lower (List.map Part.small) (groupFrom depth text ps) := by
  induction ps generalizing depth text with
  | nil => rfl
  | cons p ps ih =>
      have hopened : (if depth = 0 then lower text
            else gapped (lower text) p.small)
          = lower (if depth = 0 then text else gapped text p) := by
        rw [gapped_small]
        split <;> rfl
      rw [List.map_cons, groupFrom, groupFrom, hopened, gapped_small, ih, ih,
        ih]
      show (if p.token.small.isSymbol "(" then _
        else if p.token.small.isSymbol ")" then _ else _) = _
      rw [Token.isSymbol_small _ rfl, Token.isSymbol_small _ rfl]
      split
      · rfl
      · split
        · split <;> rfl
        · rfl

theorem firstGroup_small : s.small.firstGroup = lower s.firstGroup := by
  have hfrom : s.small.fromGroup = s.fromGroup.map Part.small := by
    unfold fromGroup
    show (s.parts.map _).dropWhile _ = _
    rw [List.dropWhile_map]
    refine congrArg (fun q => (s.parts.dropWhile q).map Part.small)
      (funext fun p => ?_)
    exact congrArg (!·) (p.token.isSymbol_small rfl)
  unfold firstGroup group
  rw [hfrom, show ("" : String) = lower "" from rfl, groupFrom_small]
  rfl

theorem joined_small (ps : List Part) :
    joined (ps.map Part.small) = lower (joined ps) := by
  unfold joined
  rw [lower_intercalate, List.map_map, List.map_map]
  rfl

-- =============================================================== actions

theorem namesWidgets_small : s.small.namesWidgets = s.namesWidgets := by
  unfold namesWidgets
  rw [has_small, has_small]

theorem triggerHead_small : s.small.triggerHead = s.triggerHead.small := by
  have hdrop : ∀ n, joined (s.small.parts.drop n)
      = lower (joined (s.parts.drop n)) := by
    intro n
    rw [← joined_small, List.map_drop]
    rfl
  have hevents : ∀ n, joined ((s.small.parts.take n).drop 1)
      = lower (joined ((s.parts.take n).drop 1)) := by
    intro n
    rw [← joined_small, List.map_drop, List.map_take]
    rfl
  unfold triggerHead
  rw [find?_small, find?_small, length_small]
  dsimp only
  rw [hevents]
  simp only [hdrop]
  cases s.find? "OF" <;> rfl

theorem startsAction_small (word : String) :
    s.small.startsAction (lower word) = s.startsAction word := by
  unfold startsAction
  rw [length_small, namesWidgets_small, Keyword.isIn_lower, same_lower]
  rfl

theorem inTarget_small (spaced : Bool) :
    s.small.inTarget spaced = s.inTarget spaced := by
  obtain ⟨kind, parts, trigger⟩ := s
  rcases parts with _ | ⟨p, _ | ⟨q, rest⟩⟩
  · rfl
  · rfl
  · have hall : (rest.map Part.small).all (!·.spaced)
        = rest.all (!·.spaced) := by
      rw [List.all_map]
      rfl
    show (kind == .run && (!spaced && (rest.map Part.small).all _)) = _
    rw [hall]
    rfl

theorem hasDynamicTarget_small :
    s.small.hasDynamicTarget = s.hasDynamicTarget := by
  unfold hasDynamicTarget
  rw [token?_small, token?_small, Option.any_map, Option.any_map]
  refine congrArg₂ (· && ·) ?_ ?_
  · exact congrArg (fun q => (s.token? 1).any q)
      (funext fun t => t.isWord_small "VALUE")
  · exact congrArg (fun q => (s.token? 2).any q)
      (funext fun t => t.isSymbol_small rfl)

theorem writtenTarget_small (ps : List Part) :
    writtenTarget (ps.map Part.small)
      = Prod.map lower (List.map Part.small) (writtenTarget ps) := by
  have hends : (fun p => !endsTarget p) ∘ Part.small
      = fun p => !endsTarget p := by
    funext p
    show (!(p.spaced || p.token.small.isSymbol "(")) = _
    rw [Token.isSymbol_small _ rfl]
    rfl
  cases ps with
  | nil => rfl
  | cons p ps =>
      have hjoin : ∀ ps : List Part,
          String.join ((p.small :: ps.map Part.small).map (·.token.unquoted))
            = lower (String.join ((p :: ps).map (·.token.unquoted))) := by
        intro ps
        rw [← List.map_cons, lower_join, List.map_map, List.map_map]
        exact congrArg _ (List.map_congr_left
          fun p _ => p.token.unquoted_small)
      rw [List.map_cons]
      unfold writtenTarget
      show (if p.token.small.isSymbol "(" then _ else _) = _
      rw [Token.isSymbol_small _ rfl, List.takeWhile_map, List.dropWhile_map,
        hends, hjoin]
      dsimp only
      split <;> rfl

theorem handleIn?_small (ps : List Part) :
    handleIn? (ps.map Part.small) = (handleIn? ps).map lower := by
  have hin : (fun p : Part => !p.token.isWord "IN") ∘ Part.small
      = fun p => !p.token.isWord "IN" :=
    funext fun p => congrArg (!·) (p.token.isWord_small "IN")
  unfold handleIn?
  rw [List.dropWhile_map, hin]
  generalize ps.dropWhile (fun p => !p.token.isWord "IN") = rest
  match rest with
  | [] => rfl
  | [_] => rfl
  | _ :: _ :: _ => rfl

def RunHead.small (head : RunHead) : RunHead :=
  { targetToken := head.targetToken.small, run := head.run.small }

theorem runHead_small : s.small.runHead = smallRead RunHead.small s.runHead := by
  have hdrop : ∀ n, s.small.parts.drop n = (s.parts.drop n).map Part.small :=
    fun n => List.map_drop.symm
  have hpick : (if s.hasDynamicTarget then group (s.small.parts.drop 2)
        else writtenTarget (s.small.parts.drop 1))
      = Prod.map lower (List.map Part.small)
        (if s.hasDynamicTarget then group (s.parts.drop 2)
          else writtenTarget (s.parts.drop 1)) := by
    rw [hdrop, hdrop, writtenTarget_small]
    split
    · exact groupFrom_small 0 "" _
    · rfl
  unfold runHead
  rw [token?_small, hasDynamicTarget_small, missingName_small, hpick]
  generalize (if s.hasDynamicTarget then group (s.parts.drop 2)
    else writtenTarget (s.parts.drop 1)) = read
  obtain ⟨target, rest⟩ := read
  cases s.token? 1 with
  | none => rfl
  | some t =>
      dsimp only [Option.map, Prod.map]
      by_cases ht : target = ""
      · rw [if_pos ht, if_pos ((lower_eq_empty target).2 ht)]
        rfl
      · rw [if_neg ht, if_neg (mt (lower_eq_empty target).1 ht),
          handleIn?_small, List.any_map, List.any_map, Part.isWord_small,
          Part.isSymbol_small rfl]
        rfl

-- =========================================================== definitions

theorem beforeGroup?_small (depth : Nat) (ps : List Part) :
    beforeGroup? depth (ps.map Part.small)
      = (beforeGroup? depth ps).map (List.map Part.small) := by
  induction ps generalizing depth with
  | nil => rfl
  | cons p ps ih =>
      rw [List.map_cons, beforeGroup?, beforeGroup?, ih, ih, ih]
      show (if p.token.small.isSymbol ")" then _
        else if p.token.small.isSymbol "(" then _ else _) = _
      rw [Token.isSymbol_small _ rfl, Token.isSymbol_small _ rfl]
      split
      · rfl
      · split
        · split <;> rfl
        · rfl

theorem accessor?_small : s.small.accessor? = s.accessor?.map Token.small := by
  have hlast : s.small.parts.getLast? = s.parts.getLast?.map Part.small :=
    List.getLast?_map
  have hreverse : s.small.parts.reverse = s.parts.reverse.map Part.small :=
    List.map_reverse.symm
  unfold accessor?
  rw [hlast, hreverse, beforeGroup?_small]
  cases s.parts.getLast? with
  | none => rfl
  | some last =>
      have hhead : ∀ ps : List Part,
          ((ps.map Part.small).head?.bind fun p =>
              if ["GET", "SET", "TRIGGERS"].any p.token.isWord
                then some p.token else none)
            = (ps.head?.bind fun p =>
              if ["GET", "SET", "TRIGGERS"].any p.token.isWord
                then some p.token else none).map Token.small := by
        intro ps
        cases ps with
        | nil => rfl
        | cons p ps =>
            show (if ["GET", "SET", "TRIGGERS"].any p.token.small.isWord
              then _ else _) = Option.map _ (if _ then _ else _)
            rw [show p.token.small.isWord = p.token.isWord from
              funext p.token.isWord_small]
            split <;> rfl
      dsimp only [Option.map_some, Option.bind_eq_bind, Option.bind_some]
      show (if last.token.small.isSymbol ")" then _ else _) = _
      rw [Token.isSymbol_small _ rfl]
      split
      · cases beforeGroup? 0 s.parts.reverse with
        | none => rfl
        | some ps => exact hhead ps
      · exact hhead s.parts.reverse

def Defined.small : Defined → Defined
  | nothing => nothing
  | buffer t name table temporary =>
    buffer t.small (lower name) (lower table) temporary
  | event t name => event t.small (lower name)
  | definition t name d => definition t.small (lower name) d.small

theorem place_small (place : Option Nat) :
    place.bind s.small.token? = (place.bind s.token?).map Token.small := by
  cases place with
  | none => rfl
  | some i => exact s.token?_small i

theorem next_small (place : Option Nat) :
    (place.bind fun i => s.small.token? (i + 1))
      = (place.bind fun i => s.token? (i + 1)).map Token.small := by
  cases place with
  | none => rfl
  | some i => exact s.token?_small (i + 1)

/-- A token that is there or not is the word in small letters too. -/
theorem any_isWord_small (word : String) (t : Option Token) :
    (t.map Token.small).any (·.isWord word) = t.any (·.isWord word) := by
  rw [Option.any_map]
  exact congrArg t.any (funext fun t => t.isWord_small word)

/-- The text of a token that is there or not. -/
theorem map_text_small (t : Option Token) :
    (t.map Token.small).map (·.text) = (t.map (·.text)).map lower := by
  rw [Option.map_map, Option.map_map]
  rfl

theorem getD_lower (text : Option String) :
    (text.map lower).getD "" = lower (text.getD "") := by
  cases text <;> rfl

theorem bufferAt_small (i : Nat) :
    s.small.bufferAt i = smallRead Defined.small (s.bufferAt i) := by
  unfold bufferAt
  rw [nameAt_small, find?_small]
  simp only [place_small, any_isWord_small, map_text_small, getD_lower]
  cases s.nameAt i <;> rfl

theorem parameterNameIndex_small (i : Nat) :
    s.small.parameterNameIndex i = s.parameterNameIndex i := by
  unfold parameterNameIndex
  rw [token?_small, token?_small, any_isWord_small, Option.any_map]
  simp only [Token.text_small, Keyword.isIn_lower]

theorem type_small (place : Option Nat) :
    place.bind s.small.typeAfter? = (place.bind s.typeAfter?).map lower := by
  cases place with
  | none => rfl
  | some i => exact s.typeAfter?_small i

theorem namedAt_small (type : DefineType) (modifiers : List String) (i : Nat) :
    s.small.namedAt type modifiers i
      = smallRead Defined.small (s.namedAt type modifiers i) := by
  have hprimitive : ∀ text : Option String,
      (text.map lower).map Primitive.ofWord = text.map Primitive.ofWord := by
    intro text
    rw [Option.map_map, Primitive.ofWord_comp_lower]
  unfold namedAt
  rw [nameAt_small, outside?_small, outside?_small, type_small, next_small,
    map_text_small]
  dsimp only
  rw [getD_lower, hprimitive]
  cases s.nameAt i with
  | error fault => rfl
  | ok x =>
      show (if type = .event then _ else _)
        = smallRead _ (if type = .event then _ else _)
      split <;> rfl

/-- The words after the first one that modify what follows. -/
theorem leading_small (q : Token → Bool) (hq : ∀ t : Token, q t.small = q t) :
    ((s.small.parts.drop 1).takeWhile fun p => q p.token).map
        (fun p => upper p.token.text)
      = ((s.parts.drop 1).takeWhile fun p => q p.token).map
        fun p => upper p.token.text := by
  have hdrop : s.small.parts.drop 1 = (s.parts.drop 1).map Part.small :=
    List.map_drop.symm
  have hsame : (fun p : Part => q p.token) ∘ Part.small
      = fun p => q p.token := funext fun p => hq p.token
  rw [hdrop, List.takeWhile_map, hsame, List.map_map]
  exact List.map_congr_left fun p _ => upper_lower p.token.text

theorem isDefineModifier_small (t : Token) :
    isDefineModifier t.small = isDefineModifier t := by
  show (t.kind == .word && (Keyword.isIn (lower t.text) _
    || same (lower t.text) "NO-UNDO")) = _
  rw [Keyword.isIn_lower, same_lower]
  rfl

theorem defined_small : s.small.defined = smallRead Defined.small s.defined := by
  unfold defined
  rw [s.leading_small isDefineModifier isDefineModifier_small, has_small]
  dsimp only
  generalize ((s.parts.drop 1).takeWhile fun p =>
    isDefineModifier p.token).map (fun p => upper p.token.text) = leading
  have htype : (s.small.token? (leading.length + 1)).bind
        (fun t => DefineType.ofWord? t.text)
      = (s.token? (leading.length + 1)).bind
        fun t => DefineType.ofWord? t.text := by
    have hof : (fun t : Token => DefineType.ofWord? t.text) ∘ Token.small
        = fun t => DefineType.ofWord? t.text := by
      funext t
      rw [Function.comp_apply, Token.text_small, DefineType.ofWord?_lower]
    rw [token?_small, Option.bind_map, hof]
  have hbuffer : (s.small.token? (leading.length + 1 + 1)).any
        (fun t => same t.text "BUFFER")
      = (s.token? (leading.length + 1 + 1)).any
        fun t => same t.text "BUFFER" := by
    rw [token?_small, Option.any_map]
    simp only [Token.text_small, same_lower]
  simp only [htype, hbuffer, bufferAt_small, namedAt_small,
    parameterNameIndex_small]
  cases (s.token? (leading.length + 1)).bind
      fun t => DefineType.ofWord? t.text with
  | none => rfl
  | some type =>
      cases type with
      | parameter =>
          dsimp only
          split <;> rfl
      | _ => rfl

theorem variablesFrom_small (depth : Nat) (nameNext : Bool) (ps : List Part) :
    variablesFrom depth nameNext (ps.map Part.small)
      = (variablesFrom depth nameNext ps).map Token.small := by
  induction ps generalizing depth nameNext with
  | nil => rfl
  | cons p ps ih =>
      rw [List.map_cons, variablesFrom, variablesFrom]
      simp only [ih]
      show (if p.token.small.isSymbol "(" || p.token.small.isSymbol "["
          then _ else if p.token.small.isSymbol ")"
            || p.token.small.isSymbol "]" then _
          else if p.token.small.isSymbol "," && depth == 0 then _
          else if nameNext && depth == 0 && p.token.kind == .word then _
          else _) = _
      rw [Token.isSymbol_small _ rfl, Token.isSymbol_small _ rfl,
        Token.isSymbol_small _ rfl, Token.isSymbol_small _ rfl,
        Token.isSymbol_small _ rfl]
      split
      · rfl
      · split
        · rfl
        · split
          · rfl
          · split <;> rfl

def Variables.small (v : Variables) : Variables :=
  { names := v.names.map Token.small, definition := v.definition.small }

theorem varHead_small :
    s.small.varHead = smallRead Variables.small s.varHead := by
  unfold varHead
  rw [s.leading_small (fun t => Keyword.isIn t.text Keyword.defineModifiers)
    fun t => Keyword.isIn_lower t.text _]
  dsimp only
  generalize ((s.parts.drop 1).takeWhile fun p =>
    Keyword.isIn p.token.text Keyword.defineModifiers).map
      (fun p => upper p.token.text) = modifiers
  rw [s.token?_small (modifiers.length + 1), any_isWord_small]
  generalize (if (s.token? (modifiers.length + 1)).any (·.isWord "CLASS")
    then modifiers.length + 1 + 1 else modifiers.length + 1) = index
  have hdrop : s.small.parts.drop (index + 1)
      = (s.parts.drop (index + 1)).map Part.small := List.map_drop.symm
  rw [token?_small, missingName_small, hdrop, variablesFrom_small]
  cases s.token? index with
  | none => rfl
  | some type =>
      show (if ((variablesFrom 0 true _).map Token.small).isEmpty
        then _ else _) = _
      rw [List.isEmpty_map]
      dsimp only
      split
      · rfl
      · show Except.ok (Variables.mk _ ⟨_, _,
          some (Primitive.ofWord (lower type.text)), _, _⟩) = _
        rw [Primitive.ofWord_lower]
        rfl

-- ============================================================== routines

def ProcedureHead.small (head : ProcedureHead) : ProcedureHead :=
  { opener := head.opener.small, nameToken := head.nameToken.small
    name := lower head.name, procedure := head.procedure.small }

theorem procedureHead_small :
    s.small.procedureHead = smallRead ProcedureHead.small s.procedureHead := by
  have hunquoted : ∀ t : Option Token,
      (t.map Token.small).map (·.unquoted)
        = (t.map (·.unquoted)).map lower := by
    intro t
    rw [Option.map_map, Option.map_map]
    exact congrArg (t.map ·) (funext Token.unquoted_small)
  unfold procedureHead
  rw [opening_small, nameAt_small, after?_small, after?_small, has_small,
    any_isWord_small, hunquoted]
  cases s.opening with
  | error fault => rfl
  | ok opener => cases s.nameAt 1 <;> rfl

def FunctionHead.small (head : FunctionHead) : FunctionHead :=
  { head with
    opener := head.opener.small, nameToken := head.nameToken.small
    name := lower head.name, returnType := lower head.returnType
    parameters := lower head.parameters
    inHandle := head.inHandle.map lower }

theorem functionHead_small :
    s.small.functionHead = smallRead FunctionHead.small s.functionHead := by
  unfold functionHead
  rw [opening_small, nameAt_small, outside?_small, outside?_small,
    outside?_small, type_small, firstGroup_small, next_small, has_small,
    map_text_small, getD_lower]
  cases s.opening with
  | error fault => rfl
  | ok opener => cases s.nameAt 1 <;> rfl

def MethodHead.small (head : MethodHead) : MethodHead :=
  { opener := head.opener.small, nameToken := head.nameToken.small
    name := lower head.name, method := head.method.small }

theorem methodNameIndex?_small :
    s.small.methodNameIndex? = s.methodNameIndex? := by
  have hparen : s.small.parts.findIdx? (fun p => p.token.isSymbol "(")
      = s.parts.findIdx? fun p => p.token.isSymbol "(" := by
    show (s.parts.map _).findIdx? _ = _
    rw [List.findIdx?_map, Part.isSymbol_small rfl]
  unfold methodNameIndex?
  rw [length_small, hparen]

/-- What a method says before its name. -/
theorem between_small (n : Nat) :
    ((s.small.parts.take n).drop 1).map (·.token)
      = (((s.parts.take n).drop 1).map (·.token)).map Token.small := by
  show (((s.parts.map _).take n).drop 1).map _ = _
  rw [← List.map_take, ← List.map_drop, List.map_map, List.map_map]
  rfl

theorem modifiers_small (ts : List Token) :
    ((ts.map Token.small).filter fun t =>
        Keyword.isIn t.text Keyword.methodModifiers).map
        (fun t => upper t.text)
      = (ts.filter fun t =>
        Keyword.isIn t.text Keyword.methodModifiers).map
        fun t => upper t.text := by
  rw [List.filter_map, Token.isIn_small, List.map_map]
  exact List.map_congr_left fun t _ => upper_lower t.text

theorem methodType_small (ts : List Token) :
    ((ts.map Token.small).reverse.find? isMethodType).map (·.text)
      = ((ts.reverse.find? isMethodType).map (·.text)).map lower := by
  have htype : isMethodType ∘ Token.small = isMethodType := by
    funext t
    show (t.kind == .word && !t.small.isWord "CLASS"
      && !Keyword.isIn (lower t.text) _) = _
    rw [Token.isWord_small, Keyword.isIn_lower]
    rfl
  rw [← List.map_reverse, List.find?_map, htype, map_text_small]

theorem methodHead_small (colon : Bool) :
    s.small.methodHead colon
      = smallRead MethodHead.small (s.methodHead colon) := by
  have hkind : s.small.methodKind = s.methodKind := rfl
  unfold methodHead
  simp only [opening_small, methodNameIndex?_small, missingName_small,
    firstGroup_small, hkind, nameAt_small, between_small, modifiers_small,
    methodType_small, getD_lower]
  cases s.opening with
  | error fault => rfl
  | ok opener =>
      cases s.methodNameIndex? with
      | none => rfl
      | some i =>
          dsimp only [smallRead, bind, Except.bind]
          cases s.nameAt i with
          | error fault => rfl
          | ok name =>
              cases s.methodKind <;> rfl

end Statement

end AblOutline
