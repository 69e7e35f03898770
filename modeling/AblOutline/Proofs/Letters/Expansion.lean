/-
Expansion in small letters, in the parse of a text that includes no file. The
value of a name does not depend on the case of the name, and a value in small
letters brings in the tokens of the value in small letters. An include
directive leads to no file where the resolver finds none, so it is recorded
and the include chain stays that of the text alone (`Source.Plain`).
-/
import AblOutline.Proofs.Entries
import AblOutline.Proofs.Letters.Conditions
import AblOutline.Proofs.Lexing
import AblOutline.Proofs.Stream

namespace AblOutline

open Text

-- ================================================================ strings

/-- What begins a string is no letter. -/
theorem Lexeme.first_quote {previous : Option TokenKind} {c : Char}
    {rest : List Char}
    (h : ((first c rest).inContext previous c rest).kind = .string) :
    c.isAlpha = false := by
  by_cases hc : c = '"' ∨ c = '\x27'
  · rcases hc with rfl | rfl <;> rfl
  have hbrace : (ofBrace rest).kind ≠ .string := by
    unfold ofBrace
    dsimp only
    split <;> nofun
  have hslash : (ofSlash rest).kind ≠ .string := by
    unfold ofSlash
    split <;> nofun
  have hdollar : (ofDollar rest).kind ≠ .string :=
    kind_ite (kind_ite nofun nofun) nofun
  have hfirst : (first c rest).kind ≠ .string := by
    unfold first
    rw [if_neg hc]
    refine kind_ite nofun (kind_ite nofun (kind_ite nofun (kind_ite nofun ?_)))
    refine kind_ite nofun (kind_ite hbrace (kind_ite hslash ?_))
    refine kind_ite hdollar (kind_ite nofun (kind_ite nofun ?_))
    exact kind_ite nofun (kind_ite nofun nofun)
  refine absurd h ?_
  unfold inContext
  exact kind_ite (kind_ite nofun (kind_ite nofun hfirst)) hfirst

theorem Token.isQuoted_of_mem_scanFrom {start : Position} {offset : Nat}
    {previous : Option TokenKind} {cs : List Char} :
    ∀ t ∈ scanFrom start offset previous cs, t.IsQuoted := by
  fun_induction scanFrom start offset previous cs with
  | case1 start offset =>
      intro t ht
      rw [List.mem_singleton.1 ht]
      intro hk
      cases hk
  | case2 start offset previous c rest lexeme chars stop ih =>
      intro t ht
      rcases List.mem_cons.1 ht with rfl | ht
      · intro hk d hd
        rw [String.toList_ofList] at hd
        obtain rfl : c = d := Option.some.inj hd
        exact Lexeme.first_quote hk
      · exact ih t ht

theorem isQuoted_of_mem_tokenize {text : String} :
    ∀ t ∈ tokenize text, t.IsQuoted :=
  Token.isQuoted_of_mem_scanFrom

-- ============================================================= definitions

namespace Preprocess

namespace Definitions

variable (d : Definitions) (name : String) (chain : List Nat)

theorem scoped?_small (owner : Nat) :
    d.small.scoped? owner (lower name) = (d.scoped? owner name).map lower := by
  unfold scoped?
  rw [lower_lower]
  exact lookup_map_value _ _ _

theorem global?_small :
    d.small.global? (lower name) = (d.global? name).map lower := by
  unfold global?
  rw [lower_lower]
  exact lookup_map_value _ _ _

theorem lookup_small :
    d.small.lookup (lower name) chain
      = (d.lookup name chain).map (Prod.map lower id) := by
  have hscoped : chain.findSome? (d.small.scoped? · (lower name))
      = (chain.findSome? (d.scoped? · name)).map lower := by
    rw [List.map_findSome?]
    exact congrArg (List.findSome? · chain)
      (funext fun owner => d.scoped?_small name owner)
  unfold lookup
  rw [hscoped, global?_small]
  cases chain.findSome? (d.scoped? · name) with
  | some value => rfl
  | none => cases d.global? name <;> rfl

theorem definer?_small :
    d.small.definer? (lower name) chain = d.definer? name chain := by
  unfold definer?
  refine congrArg (List.find? · chain) (funext fun owner => ?_)
  rw [scoped?_small, Option.isSome_map]

theorem undefine_small :
    d.small.undefine (lower name) chain = (d.undefine name chain).small := by
  unfold undefine
  rw [definer?_small, lower_lower]
  cases d.definer? name chain with
  | none =>
      exact congrArg (Definitions.mk · d.small.inFiles) List.filter_map
  | some owner =>
      exact congrArg (Definitions.mk d.small.everywhere ·) List.filter_map

theorem defineGlobal_small (value : String) :
    d.small.defineGlobal (lower name) (lower value)
      = (d.defineGlobal name value).small := by
  unfold defineGlobal
  rw [lower_lower]
  rfl

theorem defineScoped_small (owner : Nat) (value : String) :
    d.small.defineScoped owner (lower name) (lower value)
      = (d.defineScoped owner name value).small := by
  unfold defineScoped
  rw [lower_lower]
  rfl

end Definitions

-- ============================================================== directives

theorem Directive.ofWord_lower (word : String) :
    ofWord (lower word) = ofWord word := by
  unfold ofWord
  rw [upper_lower, abbreviates_lower, abbreviates_lower, abbreviates_lower]

def Piece.small (p : Piece) : Piece :=
  { text := p.text.map Char.toLower, after := p.after.map Char.toLower }

/-- The words of an include directive are parted at the same places. -/
theorem piecesFrom_lower (current : List Char) {quote : Option Char}
    (hquote : ∀ q, quote = some q → q.isAlpha = false) (depth : Nat)
    (cs : List Char) :
    piecesFrom (current.map Char.toLower) quote depth (cs.map Char.toLower)
      = (piecesFrom current quote depth cs).map Piece.small := by
  induction cs generalizing current quote depth with
  | nil =>
      rw [List.map_nil, piecesFrom, piecesFrom, List.isEmpty_map]
      split
      · rfl
      · rw [← List.map_reverse]
        rfl
  | cons c cs ih =>
      cases quote with
      | some q =>
          have hsame : (if c.toLower = q then none else some q)
              = if c = q then none else some q := by
            simp only [toLower_eq_iff (hquote q rfl)]
          rw [List.map_cons, piecesFrom, piecesFrom, hsame, ← List.map_cons]
          refine ih (c :: current) (fun x hx => ?_) depth
          split at hx
          · cases hx
          · exact hquote x hx
      | none =>
          have hnext : ∀ depth, piecesFrom
                (c.toLower :: current.map Char.toLower) none depth
                (cs.map Char.toLower)
              = (piecesFrom (c :: current) none depth cs).map Piece.small :=
            fun depth => ih (c :: current) Lexeme.none_not_isAlpha depth
          rw [List.map_cons, piecesFrom, piecesFrom]
          simp only [isBlank_toLower, List.isEmpty_map,
            toLower_eq_iff (k := '"') rfl, toLower_eq_iff (k := '\x27') rfl,
            toLower_eq_iff (k := '\x7b') rfl, toLower_eq_iff (k := '\x7d') rfl,
            hnext]
          split
          · split
            · exact ih [] Lexeme.none_not_isAlpha 0
            · rw [← List.map_reverse, List.map_cons,
                ← ih [] Lexeme.none_not_isAlpha 0]
              rfl
          · split
            · rename_i hc
              have hmark : c.isAlpha = false := by
                rcases hc with rfl | rfl <;> rfl
              rw [toLower_of_not_isAlpha hmark, ← ih (c :: current)
                (fun x hx => Option.some.inj hx ▸ hmark), List.map_cons,
                toLower_of_not_isAlpha hmark]
            · split
              · rfl
              · split <;> rfl

/-- The file that an include directive names. -/
theorem parse?_file_lower (text : String) :
    (IncludeCall.parse? (lower text)).map (·.file)
      = (IncludeCall.parse? text).map fun call => lower call.file := by
  have hwords : words (betweenBraces (lower text).toList)
      = (words (betweenBraces text.toList)).map Piece.small := by
    rw [toList_lower, betweenBraces_lower]
    exact piecesFrom_lower [] Lexeme.none_not_isAlpha 0 _
  unfold IncludeCall.parse?
  rw [hwords]
  cases words (betweenBraces text.toList) with
  | nil => rfl
  | cons file rest =>
      refine congrArg some ?_
      show String.ofList (Token.stripQuotes (file.text.map Char.toLower)) = _
      rw [Token.stripQuotes_lower, ← ofList_lower]
      rfl

end Preprocess

-- ================================================================= cursor

namespace Cursor

variable (c : Cursor) (a : Ahead)

theorem peekAhead_small : c.small.peekAhead a = (c.peekAhead a).small := by
  unfold peekAhead
  show ((c.ahead.map _)[a.skipped]?).getD _ = _
  rw [List.getElem?_map]
  cases c.ahead[a.skipped]? <;> rfl

theorem current_small : c.small.current = c.current.small := by
  unfold current
  show ((c.passed.map _).head?).getD _ = _
  rw [List.head?_map]
  cases c.passed.head? <;> rfl

theorem advance?_small : c.small.advance? = c.advance?.map small := by
  have hahead : c.small.ahead = c.ahead.map Token.small := rfl
  unfold advance?
  rw [hahead]
  cases c.ahead <;> rfl

theorem splice_small (ts : List Token) :
    c.small.splice a (ts.map Token.small) = (c.splice a ts).small := by
  have hdrop : c.small.ahead.drop a.skipped
      = (c.ahead.drop a.skipped).map Token.small := List.map_drop.symm
  unfold splice
  rw [hdrop]
  cases c.ahead.drop a.skipped with
  | nil => rfl
  | cons t rest =>
      refine congrArg (Cursor.mk c.small.passed · c.small.beyond) ?_
      rw [List.map_append, List.map_append, List.map_take]
      rfl

/-- What is put in place of a token is seen ahead, or was there. -/
theorem mem_splice {ts : List Token} {t : Token}
    (h : t ∈ (c.splice a ts).ahead) : t ∈ ts ∨ t ∈ c.ahead := by
  unfold splice at h
  split at h
  · exact Or.inr h
  · rename_i first rest hdrop
    rcases List.mem_append.1 h with h | h
    · rcases List.mem_append.1 h with h | h
      · exact Or.inr (List.mem_of_mem_take h)
      · exact Or.inl h
    · refine Or.inr (List.mem_of_mem_drop (i := a.skipped) ?_)
      rw [hdrop]
      exact List.mem_cons_of_mem _ h

theorem beyond_splice (ts : List Token) : (c.splice a ts).beyond = c.beyond := by
  unfold splice
  split <;> rfl

end Cursor

-- ================================================================== alone

/-- The chain of a text that has no path and includes no file. -/
def IncludeChain.ofInput : IncludeChain :=
  ⟨#[{ name := "<input>", path := none, trigger := none, parent := none
       rootLine := 0 }]⟩

theorem Text.lower_input : lower "<input>" = "<input>" := by decide +kernel

namespace IncludeChain

theorem get?_ofInput {owner : Nat} {file : ChainFile}
    (h : ofInput.get? owner = some file) :
    file = { name := "<input>", path := none, trigger := none, parent := none
             rootLine := 0 } := by
  cases owner with
  | zero => exact (Option.some.inj h).symm
  | succ owner => cases h

theorem argument?_ofInput (name : String) (owner : Nat) :
    ofInput.argument? name owner = none := by
  unfold argument?
  rw [List.findSome?_eq_none_iff]
  intro o ho
  cases hfile : ofInput.get? o with
  | none => rfl
  | some file =>
      rw [get?_ofInput hfile]
      rfl

end IncludeChain

namespace Parse

open Preprocess

/-- The source is that of a text alone, and the strings ahead stand between
quotes. -/
structure Source.Plain (s : Source) : Prop where
  chain : s.chain = .ofInput
  ahead : ∀ t ∈ s.cursor.ahead, t.IsQuoted
  beyond : s.cursor.beyond.IsQuoted

theorem Source.Plain.peekAhead {s : Source} (h : s.Plain) (a : Ahead) :
    (s.cursor.peekAhead a).IsQuoted := by
  unfold Cursor.peekAhead
  cases ht : s.cursor.ahead[a.skipped]? with
  | none => exact h.beyond
  | some t => exact h.ahead t (List.mem_of_getElem? ht)

-- ================================================================= values

section Values

variable {platform : Platform} {s : Source} (h : s.chain = .ofInput)
  (name : String) (owner : Nat) (t : Token)

def Meaning.small : Meaning → Meaning
  | value text => value (lower text)
  | builtin name => builtin name

theorem Builtin.ofName?_lower : ofName? (lower name) = ofName? name := by
  unfold ofName?
  rw [upper_lower]

theorem standingFor_small (v : Token) :
    standingFor t.small v.small = (standingFor t v).small := by
  have hblank : lower " " = " " := (lower_eq_iff " " rfl).2 rfl
  unfold standingFor
  by_cases hk : v.kind = .eol
  · rw [if_pos hk, if_pos (show v.small.kind = .eol from hk)]
    exact congrArg (Token.mk .blank · t.start t.range t.owner) hblank.symm
  · rw [if_neg hk, if_neg (show v.small.kind ≠ .eol from hk)]
    rfl

theorem isQuoted_standingFor {v : Token} (hv : v.IsQuoted) :
    (standingFor t v).IsQuoted := by
  unfold standingFor
  by_cases hk : v.kind = .eol
  · rw [if_pos hk]
    nofun
  · rw [if_neg hk]
    exact hv

namespace Source

/-- The text alone has no arguments; all that the forms of arguments stand
for there is the same in small letters. -/
theorem argumentByForm?_lower :
    let root : ChainFile :=
      { name := "<input>", path := none, trigger := none, parent := none
        rootLine := 0 }
    argumentByForm? root (lower name)
      = (argumentByForm? root name).map (Option.map lower) := by
  dsimp only
  unfold argumentByForm?
  dsimp only
  have hdigits : (lower name ≠ "" ∧ (lower name).toList.all Char.isDigit)
      ↔ (name ≠ "" ∧ name.toList.all Char.isDigit) := by
    rw [Ne, lower_eq_empty, toList_lower, List.all_map,
      show Char.isDigit ∘ Char.toLower = Char.isDigit from
        funext isDigit_toLower]
  have hposition : ∀ n : Option Nat,
      n.bind ({} : IncludeCall).position? = none := by
    intro n
    cases n with
    | none => rfl
    | some n =>
        show IncludeCall.position? {} n = none
        unfold IncludeCall.position?
        split <;> rfl
  simp only [lower_eq_iff name (k := "*") rfl,
    lower_eq_iff name (k := "&*") rfl, lower_eq_iff name (k := "0") rfl,
    hdigits, hposition]
  split
  · rfl
  split
  · rfl
  split
  · rfl
  split <;> rfl

include h

theorem meaning?_small :
    s.small.meaning? (lower name) owner
      = (s.meaning? name owner).map Meaning.small := by
  have hchain : s.small.chain = .ofInput := h
  unfold meaning?
  rw [hchain, h]
  cases hfile : IncludeChain.ofInput.get? owner with
  | none => rfl
  | some file =>
      rw [IncludeChain.get?_ofInput hfile]
      simp only [Option.bind_eq_bind, Option.bind_some]
      rw [argumentByForm?_lower, IncludeChain.argument?_ofInput,
        IncludeChain.argument?_ofInput]
      cases argumentByForm? _ name with
      | some argument => cases argument <;> rfl
      | none =>
          have hdefinitions : s.small.definitions = s.definitions.small := rfl
          dsimp only
          rw [hdefinitions, Definitions.lookup_small, Builtin.ofName?_lower]
          dsimp only [Option.map]
          cases s.definitions.lookup name _ with
          | some found => rfl
          | none => cases Builtin.ofName? name <;> rfl

theorem referenceValue?_small :
    s.small.referenceValue? platform.small (lower name) t.small
      = (s.referenceValue? platform name t).map lower := by
  have hchain : s.small.chain = .ofInput := h
  have howner : t.small.owner = t.owner := rfl
  unfold referenceValue?
  rw [meaning?_small h, hchain, h, howner]
  cases hfile : IncludeChain.ofInput.get? t.owner with
  | none => rfl
  | some file =>
      rw [IncludeChain.get?_ofInput hfile]
      cases s.meaning? name t.owner with
      | none => rfl
      | some meaning =>
          cases meaning with
          | value text => rfl
          | builtin b =>
              refine congrArg some ?_
              cases b with
              | fileName => exact lower_input.symm
              | lineNumber => exact (lower_toString _).symm
              | sequence => exact (lower_toString _).symm
              | batchMode =>
                  show (if platform.batchMode then "yes" else "no")
                    = lower (if platform.batchMode then "yes" else "no")
                  split <;> rfl
              | _ => rfl

theorem afterReference_small :
    s.small.afterReference (lower name) owner
      = (s.afterReference name owner).small := by
  have hsequence : (s.meaning? name owner).map Meaning.small
        = some (.builtin .sequence)
      ↔ s.meaning? name owner = some (.builtin .sequence) := by
    cases s.meaning? name owner with
    | none => exact ⟨nofun, nofun⟩
    | some meaning =>
        cases meaning with
        | value text => exact ⟨nofun, nofun⟩
        | builtin b => exact Iff.rfl
  unfold afterReference
  rw [meaning?_small h]
  by_cases hs : s.meaning? name owner = some (.builtin .sequence)
  · rw [if_pos hs, if_pos (hsequence.2 hs)]
    rfl
  · rw [if_neg hs, if_neg (mt hsequence.1 hs)]

theorem definedLevel_small :
    s.small.definedLevel (lower name) owner = s.definedLevel name owner := by
  have hchain : s.small.chain = .ofInput := h
  unfold definedLevel
  rw [hchain, h, IncludeChain.argument?_ofInput,
    IncludeChain.argument?_ofInput]
  show ((s.definitions.small.lookup _ _).map _).getD 0 = _
  rw [Definitions.lookup_small, Option.map_map]
  rfl

end Source

end Values

-- ============================================================== expansion

/-- The state in small letters, of a text alone. -/
structure SmallState (s' s : State) : Prop where
  eq : s' = s.small
  plain : s.source.Plain

namespace State

variable {s : State} (h : s.source.Plain) (platform : Platform) (a : Ahead)
  (t : Token)

include h

theorem valueTokens_small :
    s.small.valueTokens platform.small t.small
      = (s.valueTokens platform t).map Token.small := by
  have hvalue : s.small.source.referenceValue? platform.small
        (referenceName t.small.text) t.small
      = (s.source.referenceValue? platform (referenceName t.text) t).map
        lower := by
    rw [Token.text_small, referenceName_lower]
    exact Source.referenceValue?_small h.chain _ t
  unfold valueTokens
  dsimp only
  rw [hvalue, Statement.getD_lower, tokenizeFragment_lower, List.map_map,
    List.map_map]
  exact List.map_congr_left fun v _ => standingFor_small t v

omit h in
theorem isQuoted_of_mem_valueTokens :
    ∀ v ∈ s.valueTokens platform t, v.IsQuoted := by
  intro v hv
  obtain ⟨u, hu, rfl⟩ := List.mem_map.1 hv
  obtain ⟨w, hw, rfl⟩ := List.mem_map.1 hu
  exact isQuoted_standingFor t
    (isQuoted_of_mem_tokenize w (List.mem_filter.1 hw).1)

/-- A reference gives way to its value. -/
theorem substitute_small :
    SmallState (s.small.substitute platform.small a t.small)
      (s.substitute platform a t) := by
  have hname : referenceName t.small.text = lower (referenceName t.text) := by
    rw [Token.text_small, referenceName_lower]
  have hstream := afterReference_stream s.source (referenceName t.text) t.owner
  have hchain : (s.source.afterReference (referenceName t.text) t.owner).chain
      = s.source.chain := congrArg (·.2.1) hstream
  have hcursor : (s.source.afterReference (referenceName t.text) t.owner).cursor
      = s.source.cursor := congrArg (·.1) hstream
  constructor
  · have hvalue : s.small.source.referenceValue? platform.small
          (lower (referenceName t.text)) t.small
        = (s.source.referenceValue? platform (referenceName t.text) t).map
          lower := Source.referenceValue?_small h.chain _ t
    have hadd : ∀ found, s.small.addItem (lower (referenceName t.text)) t.small
          (.nameUse found)
        = (s.addItem (referenceName t.text) t (.nameUse found)).small :=
      fun found => s.addItem_small t _ (.nameUse found)
    have hsource : ∀ found, (s.addItem (referenceName t.text) t
          (.nameUse found)).small.source.afterReference
            (lower (referenceName t.text)) t.small.owner
        = (s.source.afterReference (referenceName t.text) t.owner).small :=
      fun _ => Source.afterReference_small h.chain _ _
    have hsplice : ∀ (u : State) (source : Source) (ts : List Token),
        ({ u.small with source := { source.small with
            cursor := source.cursor.small.splice a (ts.map Token.small) } }
          : State)
        = ({ u with source := { source with
            cursor := source.cursor.splice a ts } } : State).small := by
      intro u source ts
      rw [Cursor.splice_small]
      rfl
    unfold substitute
    dsimp only
    rw [hname, hvalue, Option.isSome_map, valueTokens_small h, hadd, hsource]
    exact hsplice ..
  · refine ⟨hchain.trans h.chain, fun v hv => ?_, ?_⟩
    · rcases Cursor.mem_splice _ a hv with hv | hv
      · exact isQuoted_of_mem_valueTokens platform t v hv
      · exact h.ahead v (hcursor ▸ hv)
    · show ((s.source.afterReference _ _).cursor.splice a _).beyond.IsQuoted
      rw [Cursor.beyond_splice, hcursor]
      exact h.beyond

omit h in
theorem referencesAt_small :
    s.small.referencesAt a = (s.referencesAt a).map Token.small := by
  unfold referencesAt
  show ((s.source.cursor.ahead.map Token.small).drop a.skipped).takeWhile _ = _
  rw [← List.map_drop, List.takeWhile_map]
  rfl

/-- So do the references of a row, up to one whose value is not empty. -/
theorem substituteFirst_small (ts : List Token) :
    SmallState
        (substituteFirst platform.small a (ts.map Token.small) s.small).1
        (substituteFirst platform a ts s).1
      ∧ (substituteFirst platform.small a (ts.map Token.small) s.small).2
        = (substituteFirst platform a ts s).2 := by
  induction ts generalizing s with
  | nil => exact ⟨⟨rfl, h⟩, rfl⟩
  | cons t ts ih =>
      obtain ⟨heq, hplain⟩ := substitute_small h platform a t
      rw [List.map_cons]
      unfold substituteFirst
      dsimp only
      rw [valueTokens_small h, List.isEmpty_map, heq]
      split
      · exact ih hplain
      · exact ⟨⟨rfl, hplain⟩, rfl⟩

theorem settle_small (depth : Nat) :
    SmallState (settle platform.small a depth s.small)
      (settle platform a depth s) := by
  induction depth generalizing s with
  | zero => exact ⟨rfl, h⟩
  | succ depth ih =>
      obtain ⟨⟨heq, hplain⟩, hfound⟩ :=
        substituteFirst_small h platform a (s.referencesAt a)
      unfold settle
      rw [referencesAt_small]
      generalize substituteFirst platform.small a _ s.small = x' at heq hfound ⊢
      generalize substituteFirst platform a _ s = x at heq hplain hfound ⊢
      obtain ⟨u', found'⟩ := x'
      obtain ⟨u, found⟩ := x
      dsimp only at heq hfound hplain
      subst heq hfound
      cases found' with
      | true => exact ih hplain
      | false => exact ⟨rfl, hplain⟩

variable {env : Environment}
  (hres : ∀ name path, env.resolver.resolve name path = none)

include hres

/-- An include directive is recorded and leads nowhere. -/
theorem includeAt_small :
    SmallState (s.small.includeAt env.small a t.small) (s.includeAt env a t) := by
  have hopen : ∀ (source : Source) (name : String),
      openInclude env.resolver source name t.owner
        = (none, none, { source with
          asked := Query.resolve name (source.chain.path? t.owner)
            :: source.asked }) := by
    intro source name
    unfold openInclude
    dsimp only
    rw [hres]
  have hfile := parse?_file_lower t.text
  unfold includeAt
  rw [show env.small.options.maxIncludeDepth = env.options.maxIncludeDepth from
    rfl, show s.small.source.chain = s.source.chain from rfl,
    show t.small.owner = t.owner from rfl, Token.text_small]
  split
  · exact ⟨rfl, h⟩
  cases hcall : IncludeCall.parse? t.text with
  | none =>
      rw [hcall, Option.map_none, Option.map_eq_none_iff] at hfile
      rw [hfile]
      exact ⟨rfl, h⟩
  | some call =>
      rw [hcall] at hfile
      obtain ⟨call', hcall', hname⟩ := Option.map_eq_some_iff.1 hfile
      rw [hcall']
      dsimp only
      rw [show env.small.resolver = env.resolver from rfl, hopen, hopen, hname]
      refine ⟨?_, h.chain, h.ahead, h.beyond⟩
      exact addItem_small { s with source := { s.source with
          asked := Query.resolve call.file (s.source.chain.path? t.owner)
            :: s.source.asked } }
        t call.file (.inclusion none none)

/-- The token at a place is expanded. -/
theorem expandAt_small (includes : Bool) :
    SmallState (s.small.expandAt env.small a includes)
      (s.expandAt env a includes) := by
  obtain ⟨heq, hplain⟩ := settle_small h env.options.platform a
    env.options.maxExpansionDepth
  unfold expandAt
  rw [show s.small.isExpanded a = s.isExpanded a from rfl]
  split
  · exact ⟨rfl, h⟩
  rw [show env.small.options.platform = env.options.platform.small from rfl,
    show env.small.options.maxExpansionDepth = env.options.maxExpansionDepth
      from rfl]
  dsimp only
  rw [heq]
  generalize s.settle env.options.platform a env.options.maxExpansionDepth = u
    at hplain ⊢
  split
  · have hpeek : u.small.source.cursor.peekAhead a
        = (u.source.cursor.peekAhead a).small := Cursor.peekAhead_small _ a
    have hinclude := includeAt_small hplain a (u.source.cursor.peekAhead a) hres
    unfold expandInclude
    dsimp only
    rw [hpeek]
    by_cases hk : (u.source.cursor.peekAhead a).kind = .inclusion
    · rw [if_pos hk, if_pos (show Token.kind (Token.small _) = _ from hk),
        hinclude.eq]
      exact ⟨rfl, hinclude.plain.chain, hinclude.plain.ahead,
        hinclude.plain.beyond⟩
    · rw [if_neg hk, if_neg (show Token.kind (Token.small _) ≠ _ from hk)]
      exact ⟨rfl, hplain.chain, hplain.ahead, hplain.beyond⟩
  · exact ⟨rfl, hplain⟩

theorem expandNext_small :
    SmallState (s.small.expandNext env.small) (s.expandNext env) := by
  unfold expandNext
  rw [show s.small.source.skip = s.source.skip from rfl, inFalseBranch_small]
  split
  · exact expandAt_small h .nearest hres true
  · exact ⟨rfl, h⟩

theorem lookAt_small (live : Bool) :
    SmallState (lookAt env.small live a s.small) (lookAt env live a s) := by
  cases live with
  | true => exact expandAt_small h a hres false
  | false => exact ⟨rfl, h⟩

end State

end Parse

end AblOutline
