/-
Conditions in small letters. The tree that tokens in small letters write is
the tree that the tokens write, in small letters, and it has the same truth:
words and marks say the same, numbers keep their values, and texts are
compared without regard to case. Within a string two quotes stand for one, so
it matters that the character a string begins with is no letter.
-/
import AblOutline.Proofs.Letters.State

namespace AblOutline

open Text

/-- No letter stands first, as none does in a text between quotes. -/
def Text.Quoted (s : String) : Prop :=
  ∀ c, s.toList.head? = some c → c.isAlpha = false

/-- A string stands between quotes. -/
def Token.IsQuoted (t : Token) : Prop := t.kind = .string → Quoted t.text

-- =============================================================== results

/-- What a work in small letters comes to is what the work comes to, made
small, and that is as good as it should be. -/
structure SmallResult {α : Type} (small : α → α) (good : α → Prop)
    (x' x : Option α) : Prop where
  eq : x' = x.map small
  good : ∀ a, x = some a → good a

namespace SmallResult

variable {α β : Type} {small : α → α} {good : α → Prop} {small' : β → β}
  {good' : β → Prop} {x x' y y' : Option α}

theorem nothing : SmallResult small good none none := ⟨rfl, nofun⟩

theorem some {a : α} (h : good a) :
    SmallResult small good (some (small a)) (some a) :=
  ⟨rfl, fun _ he => Option.some.inj he ▸ h⟩

theorem bind (h : SmallResult small good x' x) {f f' : α → Option β}
    (hf : ∀ a, good a → SmallResult small' good' (f' (small a)) (f a)) :
    SmallResult small' good' (x'.bind f') (x.bind f) := by
  obtain ⟨rfl, hgood⟩ := h
  cases x with
  | none => exact nothing
  | some a => exact hf a (hgood a rfl)

theorem map (h : SmallResult small good x' x) {f f' : α → β}
    (hf : ∀ a, good a → f' (small a) = small' (f a) ∧ good' (f a)) :
    SmallResult small' good' (x'.map f') (x.map f) := by
  obtain ⟨rfl, hgood⟩ := h
  cases x with
  | none => exact nothing
  | some a =>
      obtain ⟨heq, hgood'⟩ := hf a (hgood a rfl)
      exact ⟨congrArg Option.some heq, fun _ he => Option.some.inj he ▸ hgood'⟩

theorem ite {P : Prop} [Decidable P] (hx : SmallResult small good x' x)
    (hy : SmallResult small good y' y) :
    SmallResult small good (if P then x' else y') (if P then x else y) := by
  split
  · exact hx
  · exact hy

end SmallResult

namespace Condition

-- ================================================================= words

/-- A mark with a letter in it compares nothing. -/
theorem Comparison.ofToken?_lettered {t : Token} (hk : t.kind = .symbol)
    (h : ∀ mark : String, mark.toList.all (!·.isAlpha) = true → t.text ≠ mark) :
    ofToken? t = none := by
  unfold ofToken?
  rw [hk]
  dsimp only
  split
  all_goals first | rfl | exact absurd ‹_› (h _ rfl)

theorem Comparison.ofToken?_small (t : Token) :
    ofToken? t.small = ofToken? t := by
  by_cases hletters : t.text.toList.all (!·.isAlpha) = true
  · have hsmall : t.small = t :=
      congrArg (fun text => { t with text }) ((lower_eq_iff t.text hletters).2 rfl)
    rw [hsmall]
  cases hk : t.kind with
  | symbol =>
      rw [ofToken?_lettered hk fun mark hmark he => hletters (he ▸ hmark),
        ofToken?_lettered (t := t.small) hk fun mark hmark he =>
          hletters ((lower_eq_iff t.text hmark).1 he ▸ hmark)]
  | word =>
      unfold ofToken?
      rw [show t.small.kind = t.kind from rfl, hk, Token.text_small,
        upper_lower]
  | _ =>
      unfold ofToken?
      rw [show t.small.kind = t.kind from rfl, hk]

theorem Constant.ofWord?_lower (word : String) :
    ofWord? (lower word) = ofWord? word := by
  unfold ofWord?
  rw [upper_lower]

-- ================================================================= trees

namespace Expression

/-- The condition with the texts that it copies in small letters. -/
def small : Expression → Expression
  | number written => number (lower written)
  | text literal => text (lower literal)
  | constant value => constant value
  | defined name => defined (lower name)
  | negative e => negative e.small
  | add l r => add l.small r.small
  | subtract l r => subtract l.small r.small
  | compare how l r => compare how l.small r.small
  | not e => not e.small
  | and l r => and l.small r.small
  | or l r => or l.small r.small

/-- The strings of the condition stand between quotes. -/
def IsQuoted : Expression → Prop
  | text literal => Quoted literal
  | number _ | constant _ | defined _ => True
  | negative e | not e => e.IsQuoted
  | add l r | subtract l r | compare _ l r | and l r | or l r =>
    l.IsQuoted ∧ r.IsQuoted

/-- A tree and the tokens after it, in small letters. -/
def smallPair : Expression × List Token → Expression × List Token :=
  Prod.map small (List.map Token.small)

/-- What is read in small letters is what is read, and its strings stand
between quotes. -/
abbrev ReadsSmall : Reading → Reading → Prop :=
  SmallResult smallPair fun p => p.1.IsQuoted ∧ ∀ t ∈ p.2, t.IsQuoted

theorem ReadsSmall.read {e : Expression} {ts : List Token} (he : e.IsQuoted)
    (hts : ∀ t ∈ ts, t.IsQuoted) :
    ReadsSmall (some (e.small, ts.map Token.small)) (some (e, ts)) :=
  .some (a := (e, ts)) ⟨he, hts⟩

theorem ReadsSmall.andThen {x x' : Reading} (h : ReadsSmall x' x)
    {f f' : Expression × List Token → Reading}
    (hf : ∀ e ts, e.IsQuoted → (∀ t ∈ ts, t.IsQuoted) →
      ReadsSmall (f' (e.small, ts.map Token.small)) (f (e, ts))) :
    ReadsSmall (x' >>= f') (x >>= f) :=
  SmallResult.bind h fun p hp => hf p.1 p.2 hp.1 hp.2

/-- All that reads in so many steps reads the same in small letters. -/
structure SmallUpTo (fuel : Nat) : Prop where
  or : ∀ ts, (∀ t ∈ ts, t.IsQuoted) →
    ReadsSmall (readOr fuel (ts.map Token.small)) (readOr fuel ts)
  orMore : ∀ e ts, e.IsQuoted → (∀ t ∈ ts, t.IsQuoted) → ReadsSmall
    (readOrMore fuel e.small (ts.map Token.small)) (readOrMore fuel e ts)
  and : ∀ ts, (∀ t ∈ ts, t.IsQuoted) →
    ReadsSmall (readAnd fuel (ts.map Token.small)) (readAnd fuel ts)
  andMore : ∀ e ts, e.IsQuoted → (∀ t ∈ ts, t.IsQuoted) → ReadsSmall
    (readAndMore fuel e.small (ts.map Token.small)) (readAndMore fuel e ts)
  not : ∀ ts, (∀ t ∈ ts, t.IsQuoted) →
    ReadsSmall (readNot fuel (ts.map Token.small)) (readNot fuel ts)
  comparison : ∀ ts, (∀ t ∈ ts, t.IsQuoted) → ReadsSmall
    (readComparison fuel (ts.map Token.small)) (readComparison fuel ts)
  sum : ∀ ts, (∀ t ∈ ts, t.IsQuoted) →
    ReadsSmall (readSum fuel (ts.map Token.small)) (readSum fuel ts)
  sumMore : ∀ e ts, e.IsQuoted → (∀ t ∈ ts, t.IsQuoted) → ReadsSmall
    (readSumMore fuel e.small (ts.map Token.small)) (readSumMore fuel e ts)
  operand : ∀ ts, (∀ t ∈ ts, t.IsQuoted) →
    ReadsSmall (readOperand fuel (ts.map Token.small)) (readOperand fuel ts)

theorem readDefined_small {ts : List Token} (hts : ∀ t ∈ ts, t.IsQuoted) :
    ReadsSmall (readDefined (ts.map Token.small)) (readDefined ts) := by
  match ts with
  | [] => exact .nothing
  | [_] => exact .nothing
  | [_, _] => exact .nothing
  | opening :: name :: closing :: rest =>
      show ReadsSmall (if opening.small.isSymbol "(" && name.kind == .word
        && closing.small.isSymbol ")" then _ else _) _
      rw [Token.isSymbol_small _ rfl, Token.isSymbol_small _ rfl]
      refine .ite (ReadsSmall.read (e := .defined name.text) trivial fun t ht => ?_)
        .nothing
      exact hts t (List.mem_cons_of_mem _ (List.mem_cons_of_mem _
        (List.mem_cons_of_mem _ ht)))

theorem readWord_small (word : String) {ts : List Token}
    (hts : ∀ t ∈ ts, t.IsQuoted) :
    ReadsSmall (readWord (lower word) (ts.map Token.small))
      (readWord word ts) := by
  unfold readWord
  rw [upper_lower, Constant.ofWord?_lower]
  refine .ite (readDefined_small hts) ?_
  cases Constant.ofWord? word with
  | none => exact .nothing
  | some c => exact ReadsSmall.read (e := .constant c) trivial hts

theorem smallUpTo_zero : SmallUpTo 0 :=
  ⟨fun _ _ => .nothing, fun _ _ _ _ => .nothing, fun _ _ => .nothing,
    fun _ _ _ _ => .nothing, fun _ _ => .nothing, fun _ _ => .nothing,
    fun _ _ => .nothing, fun _ _ _ _ => .nothing, fun _ _ => .nothing⟩

section Succ

variable {fuel : Nat} (h : SmallUpTo fuel) {e : Expression} {ts : List Token}

include h

theorem readOrMore_small (he : e.IsQuoted) (hts : ∀ t ∈ ts, t.IsQuoted) :
    ReadsSmall (readOrMore (fuel + 1) e.small (ts.map Token.small))
      (readOrMore (fuel + 1) e ts) := by
  cases ts with
  | nil => exact ReadsSmall.read he hts
  | cons t rest =>
      have hrest := fun u hu => hts u (List.mem_cons_of_mem t hu)
      rw [List.map_cons, readOrMore, readOrMore, Token.isWord_small]
      refine .ite ((h.and rest hrest).andThen fun r ts hr hts => ?_)
        (ReadsSmall.read he hts)
      exact h.orMore (.or e r) ts ⟨he, hr⟩ hts

theorem readAndMore_small (he : e.IsQuoted) (hts : ∀ t ∈ ts, t.IsQuoted) :
    ReadsSmall (readAndMore (fuel + 1) e.small (ts.map Token.small))
      (readAndMore (fuel + 1) e ts) := by
  cases ts with
  | nil => exact ReadsSmall.read he hts
  | cons t rest =>
      have hrest := fun u hu => hts u (List.mem_cons_of_mem t hu)
      rw [List.map_cons, readAndMore, readAndMore, Token.isWord_small]
      refine .ite ((h.not rest hrest).andThen fun r ts hr hts => ?_)
        (ReadsSmall.read he hts)
      exact h.andMore (.and e r) ts ⟨he, hr⟩ hts

theorem readSumMore_small (he : e.IsQuoted) (hts : ∀ t ∈ ts, t.IsQuoted) :
    ReadsSmall (readSumMore (fuel + 1) e.small (ts.map Token.small))
      (readSumMore (fuel + 1) e ts) := by
  cases ts with
  | nil => exact ReadsSmall.read he hts
  | cons t rest =>
      have hrest := fun u hu => hts u (List.mem_cons_of_mem t hu)
      rw [List.map_cons, readSumMore, readSumMore, Token.isSymbol_small _ rfl,
        Token.isSymbol_small _ rfl]
      refine .ite ((h.operand rest hrest).andThen fun r ts hr hts => ?_)
        (.ite ((h.operand rest hrest).andThen fun r ts hr hts => ?_)
          (ReadsSmall.read he hts))
      · exact h.sumMore (.add e r) ts ⟨he, hr⟩ hts
      · exact h.sumMore (.subtract e r) ts ⟨he, hr⟩ hts

theorem readNot_small (hts : ∀ t ∈ ts, t.IsQuoted) :
    ReadsSmall (readNot (fuel + 1) (ts.map Token.small))
      (readNot (fuel + 1) ts) := by
  cases ts with
  | nil => exact h.comparison [] hts
  | cons t rest =>
      have hrest := fun u hu => hts u (List.mem_cons_of_mem t hu)
      rw [List.map_cons, readNot, readNot, Token.isWord_small,
        ← List.map_cons]
      refine .ite ((h.not rest hrest).andThen fun r ts hr hts => ?_)
        (h.comparison _ hts)
      exact ReadsSmall.read (e := .not r) hr hts

theorem readComparison_small (hts : ∀ t ∈ ts, t.IsQuoted) :
    ReadsSmall (readComparison (fuel + 1) (ts.map Token.small))
      (readComparison (fuel + 1) ts) := by
  rw [readComparison, readComparison]
  refine (h.sum ts hts).andThen fun l rest hl hrest => ?_
  cases rest with
  | nil => exact ReadsSmall.read hl hrest
  | cons t more =>
      have hmore := fun u hu => hrest u (List.mem_cons_of_mem t hu)
      simp only [List.map_cons, Comparison.ofToken?_small]
      cases Comparison.ofToken? t with
      | none => exact ReadsSmall.read hl hrest
      | some how =>
          refine (h.sum more hmore).andThen fun r rest hr hrest => ?_
          exact ReadsSmall.read (e := .compare how l r) ⟨hl, hr⟩ hrest

theorem readOperand_small (hts : ∀ t ∈ ts, t.IsQuoted) :
    ReadsSmall (readOperand (fuel + 1) (ts.map Token.small))
      (readOperand (fuel + 1) ts) := by
  cases ts with
  | nil => exact .nothing
  | cons t rest =>
      have hquoted := hts t List.mem_cons_self
      have hrest := fun u hu => hts u (List.mem_cons_of_mem t hu)
      rw [List.map_cons, readOperand, readOperand]
      obtain ⟨kind, text, start, range, owner⟩ := t
      cases kind with
      | number => exact ReadsSmall.read (e := .number text) trivial hrest
      | string => exact ReadsSmall.read (e := .text text) (hquoted rfl) hrest
      | word => exact readWord_small text hrest
      | symbol =>
          show ReadsSmall (if lower text = "(" then _
            else if lower text = "-" then _ else _) _
          simp only [lower_eq_iff text (k := "(") rfl,
            lower_eq_iff text (k := "-") rfl]
          refine .ite ((h.or rest hrest).andThen fun inner rest hi hrest => ?_)
            (.ite ((h.operand rest hrest).andThen fun r rest hr hrest =>
              ReadsSmall.read (e := .negative r) hr hrest) .nothing)
          cases rest with
          | nil => exact .nothing
          | cons closing more =>
              show ReadsSmall (if closing.small.isSymbol ")" then _ else _) _
              rw [Token.isSymbol_small _ rfl]
              exact .ite (ReadsSmall.read hi fun u hu =>
                hrest u (List.mem_cons_of_mem _ hu)) .nothing
      | _ => exact .nothing

theorem smallUpTo_succ : SmallUpTo (fuel + 1) where
  or ts hts := (h.and ts hts).andThen fun l rest hl hrest =>
    h.orMore l rest hl hrest
  orMore _ _ he hts := readOrMore_small h he hts
  and ts hts := (h.not ts hts).andThen fun l rest hl hrest =>
    h.andMore l rest hl hrest
  andMore _ _ he hts := readAndMore_small h he hts
  not _ hts := readNot_small h hts
  comparison _ hts := readComparison_small h hts
  sum ts hts := (h.operand ts hts).andThen fun l rest hl hrest =>
    h.sumMore l rest hl hrest
  sumMore _ _ he hts := readSumMore_small h he hts
  operand _ hts := readOperand_small h hts

end Succ

theorem smallUpTo (fuel : Nat) : SmallUpTo fuel := by
  induction fuel with
  | zero => exact smallUpTo_zero
  | succ fuel ih => exact smallUpTo_succ ih

/-- The tree that tokens write. -/
theorem ofTokens?_small {ts : List Token} (hts : ∀ t ∈ ts, t.IsQuoted) :
    ofTokens? (ts.map Token.small) = (ofTokens? ts).map small
      ∧ ∀ e, ofTokens? ts = some e → e.IsQuoted := by
  have hsignificant : significant (ts.map Token.small)
      = (significant ts).map Token.small := by
    unfold significant
    rw [List.filter_map]
    rfl
  have hbound : depthBound ((significant ts).map Token.small)
      = depthBound (significant ts) := by
    unfold depthBound
    rw [List.length_map]
  obtain ⟨heq, hgood⟩ := (smallUpTo (depthBound (significant ts))).or
    (significant ts) fun t ht => hts t (List.mem_filter.1 ht).1
  unfold ofTokens?
  dsimp only
  rw [hsignificant, hbound, heq]
  cases hread : readOr (depthBound (significant ts)) (significant ts) with
  | none => exact ⟨rfl, nofun⟩
  | some p =>
      obtain ⟨e, rest⟩ := p
      cases rest with
      | nil =>
          refine ⟨rfl, fun e' he => ?_⟩
          cases he
          exact (hgood _ hread).1
      | cons t rest => exact ⟨rfl, nofun⟩

end Expression

-- ================================================================ values

namespace Value

/-- The value with its text in small letters. -/
def small : Value → Value
  | text s => text (lower s)
  | v => v

theorem decimal?_lower (cs : List Char) :
    decimal? (cs.map Char.toLower) = decimal? cs := by
  unfold decimal?
  rw [cutFirst?_lower cs rfl, natural?_lower (Or.inl rfl)]
  cases cutFirst? '.' cs with
  | none => rfl
  | some parts =>
      dsimp only [Option.map, Prod.map]
      rw [← List.map_append, natural?_lower (Or.inl rfl), List.length_map]

/-- A number that is not written to base sixteen. -/
theorem ofNumber?_plain {written : String}
    (h : ∀ digits, written.toList ≠ '0' :: 'x' :: digits
      ∧ written.toList ≠ '0' :: 'X' :: digits) :
    ofNumber? written
      = match (natural? 10 written.toList).bind ofNat? with
        | some v => some v
        | none => decimal? written.toList := by
  unfold ofNumber?
  split
  · rename_i hx
    exact absurd hx (h _).1
  · rename_i hx
    exact absurd hx (h _).2
  · rfl

theorem ofNumber?_lower (written : String) :
    ofNumber? (lower written) = ofNumber? written := by
  by_cases hhex : ∃ digits, written.toList = '0' :: 'x' :: digits
      ∨ written.toList = '0' :: 'X' :: digits
  · have hvalue : ∀ digits, (natural? 16 (digits.map Char.toLower)).bind ofNat?
        = (natural? 16 digits).bind ofNat? :=
      fun digits => congrArg (Option.bind · ofNat?)
        (natural?_lower (Or.inr rfl) digits)
    unfold ofNumber?
    rw [toList_lower]
    obtain ⟨digits, hx | hx⟩ := hhex
    · rw [hx]
      exact hvalue digits
    · rw [hx]
      exact hvalue digits
  · have hplain : ∀ digits, written.toList ≠ '0' :: 'x' :: digits
        ∧ written.toList ≠ '0' :: 'X' :: digits := fun digits =>
      ⟨fun hx => hhex ⟨digits, Or.inl hx⟩, fun hx => hhex ⟨digits, Or.inr hx⟩⟩
    rw [ofNumber?_plain hplain, ofNumber?_plain, toList_lower,
      natural?_lower (Or.inl rfl), decimal?_lower]
    -- a text that is hexadecimal in small letters is so as it is written
    intro digits
    have hletter : ∀ x : Char, x.toLower = 'x' →
        (lower written).toList ≠ '0' :: x :: digits := by
      intro x hx he
      rw [toList_lower] at he
      obtain ⟨c, cs, hcs, hc, he⟩ := List.map_eq_cons_iff.1 he
      obtain ⟨d, tail, rfl, hd, -⟩ := List.map_eq_cons_iff.1 he
      rw [hcs, (toLower_eq_iff rfl).1 hc] at hplain
      have hd' : d.toLower = 'x' := by rw [← toLower_toLower, hd, hx]
      rcases Lexeme.eq_of_toLower_x hd' with rfl | rfl
      · exact (hplain tail).1 rfl
      · exact (hplain tail).2 rfl
    exact ⟨hletter 'x' rfl, hletter 'X' rfl⟩

theorem unescape_lower {quote : Char} (hquote : quote.isAlpha = false)
    (cs : List Char) :
    unescape quote (cs.map Char.toLower)
      = (unescape quote cs).map Char.toLower := by
  fun_induction unescape quote cs with
  | case1 c rest ih =>
      rw [List.map_cons, List.map_cons, toLower_of_not_isAlpha rfl, unescape,
        ih]
      rfl
  | case2 => rfl
  | case3 c d rest hne hc ih =>
      obtain ⟨rfl, rfl⟩ := hc
      have hkept : d.toLower = d := toLower_of_not_isAlpha hquote
      rw [List.map_cons, List.map_cons, hkept, unescape, if_pos ⟨rfl, rfl⟩, ih,
        List.map_cons, hkept]
      exact hne
  | case4 c d rest hne hc ih =>
      have hc' : ¬(c.toLower = quote ∧ d.toLower = quote) := by
        rwa [toLower_eq_iff hquote, toLower_eq_iff hquote]
      rw [List.map_cons, List.map_cons, unescape, if_neg hc', ← List.map_cons,
        ih]
      · rfl
      · exact fun h => hne ((toLower_eq_iff rfl).1 h)
  | case5 c hne =>
      rw [List.map_cons, List.map_nil, unescape]
      exact fun h => hne ((toLower_eq_iff rfl).1 h)
  | case6 => rfl

theorem ofLiteral_lower {literal : String} (h : Quoted literal) :
    ofLiteral (lower literal) = lower (ofLiteral literal) := by
  unfold ofLiteral
  dsimp only
  rw [toList_lower, Token.stripQuotes_lower, ofList_lower]
  refine congrArg String.ofList ?_
  cases hcs : literal.toList with
  | nil => rfl
  | cons q rest =>
      have hq : q.isAlpha = false := h q (by rw [hcs]; rfl)
      show unescape q.toLower _ = (unescape q _).map Char.toLower
      rw [toLower_of_not_isAlpha hq, unescape_lower hq]

/-- A number has no text. -/
theorem ofNumber?_small (written : String) :
    (ofNumber? written).map small = ofNumber? written := by
  have hwhole : ∀ n : Option Nat,
      (n.bind ofNat?).map small = n.bind ofNat? := by
    intro n
    cases n with
    | none => rfl
    | some n =>
        show (ofNat? n).map small = ofNat? n
        unfold ofNat?
        split <;> rfl
  have hdecimal : ∀ cs, (decimal? cs).map small = decimal? cs := by
    intro cs
    unfold decimal?
    split
    · rw [Option.map_map]
      rfl
    · rw [Option.map_map]
      rfl
  unfold ofNumber?
  split
  · exact hwhole _
  · exact hwhole _
  · split
    · rename_i v hv
      rw [← hv, hwhole]
    · exact hdecimal _

theorem add?_small (a b : Value) :
    add? a.small b.small = (add? a b).map small := by
  cases a with
  | text s =>
      cases b with
      | text s' => exact congrArg (fun u => some (text u)) (lower_append s s').symm
      | _ => rfl
  | _ => cases b <;> rfl

theorem subtract?_small (a b : Value) :
    subtract? a.small b.small = (subtract? a b).map small := by
  cases a <;> cases b <;> rfl

theorem negative?_small (a : Value) :
    negative? a.small = (negative? a).map small := by
  cases a <;> rfl

theorem truth?_small (a : Value) : a.small.truth? = a.truth? := by
  cases a <;> rfl

theorem compare?_small (how : Comparison) (a b : Value) :
    compare? how a.small b.small = compare? how a b := by
  have horder : order? a.small b.small = order? a b := by
    cases a with
    | text s =>
        cases b with
        | text s' =>
            show some (orderTexts (lowercase (lower s)) (lowercase (lower s')))
              = _
            rw [lowercase_lower, lowercase_lower]
            rfl
        | _ => rfl
    | _ => cases b <;> rfl
  have hother : ∀ how : Comparison,
      (order? a.small b.small).bind (accepts? how)
        = (order? a b).bind (accepts? how) := fun how => by rw [horder]
  cases how with
  | begins =>
      cases a with
      | text s =>
          cases b with
          | text s' =>
              show some ((lowercase (lower s')).toList.isPrefixOf
                (lowercase (lower s)).toList) = _
              rw [lowercase_lower, lowercase_lower]
              rfl
          | _ => rfl
      | _ => exact hother .begins
  | _ => exact hother _

end Value

-- ================================================================ truth

theorem Constant.value_small (platform : Platform) (c : Constant) :
    c.value platform.small = (c.value platform).small := by
  cases c <;> rfl

variable {platform : Platform} {known known' : String → Int64}

theorem bind_small {x x' : Option Value} (hx : x' = x.map Value.small)
    {f f' : Value → Option Value}
    (hf : ∀ a, f' a.small = (f a).map Value.small) :
    x'.bind f' = (x.bind f).map Value.small := by
  subst hx
  cases x with
  | none => rfl
  | some a => exact hf a

/-- A truth has no text. -/
theorem map_truth_small (x : Option Bool) :
    x.map Value.truth = (x.map Value.truth).map Value.small := by
  cases x <;> rfl

/-- The value of a condition, where a name is known in small letters as it is
known. -/
theorem Expression.eval?_small (hknown : ∀ name, known' (lower name) = known name)
    {e : Expression} (he : e.IsQuoted) :
    e.small.eval? platform.small known'
      = (e.eval? platform known).map Value.small := by
  induction e with
  | number written =>
      exact (Value.ofNumber?_lower written).trans
        (Value.ofNumber?_small written).symm
  | text literal =>
      exact congrArg (fun s => some (Value.text s)) (Value.ofLiteral_lower he)
  | constant c => exact congrArg some (c.value_small platform)
  | defined name => exact congrArg (fun n => some (Value.whole n)) (hknown name)
  | negative e ih => exact bind_small (ih he) Value.negative?_small
  | add l r ihl ihr =>
      exact bind_small (ihl he.1) fun a => bind_small (ihr he.2) fun b =>
        a.add?_small b
  | subtract l r ihl ihr =>
      exact bind_small (ihl he.1) fun a => bind_small (ihr he.2) fun b =>
        a.subtract?_small b
  | compare how l r ihl ihr =>
      refine bind_small (ihl he.1) fun a => bind_small (ihr he.2) fun b => ?_
      rw [Value.compare?_small]
      exact map_truth_small _
  | not e ih =>
      refine bind_small (ih he) fun a => ?_
      rw [Value.truth?_small]
      cases a.truth? <;> rfl
  | and l r ihl ihr =>
      refine bind_small (ihl he.1) fun a => bind_small (ihr he.2) fun b => ?_
      rw [Value.truth?_small, Value.truth?_small]
      cases a.truth? with
      | none => rfl
      | some x =>
          cases x with
          | false => rfl
          | true => exact map_truth_small b.truth?
  | or l r ihl ihr =>
      refine bind_small (ihl he.1) fun a => bind_small (ihr he.2) fun b => ?_
      rw [Value.truth?_small, Value.truth?_small]
      cases a.truth? with
      | none => rfl
      | some x =>
          cases x with
          | false => exact map_truth_small b.truth?
          | true => rfl

theorem holds_small (hknown : ∀ name, known' (lower name) = known name)
    {ts : List Token} (hts : ∀ t ∈ ts, t.IsQuoted) :
    holds platform.small known' (ts.map Token.small)
      = holds platform known ts := by
  obtain ⟨heq, hquoted⟩ := Expression.ofTokens?_small hts
  unfold holds truth?
  rw [heq]
  cases he : Expression.ofTokens? ts with
  | none => rfl
  | some e =>
      show ((e.small.eval? _ _).bind _).getD true
        = ((e.eval? platform known).bind _).getD true
      rw [Expression.eval?_small hknown (hquoted e he)]
      cases e.eval? platform known with
      | none => rfl
      | some v => exact congrArg (Option.getD · true) v.truth?_small

end Condition

end AblOutline
