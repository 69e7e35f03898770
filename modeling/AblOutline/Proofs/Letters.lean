/-
The case of letters in a text. Two parses whose states are the same in small
letters take steps that leave them so (`step_same`), and so do whole runs
(`run_same`). A text in capitals has the tokens of the text itself, once both
are in small letters. So where no file is included the two texts have the same
results but for the case of the names and texts that items copy
(`parse_upper`).
-/
import AblOutline.Proofs.Letters.Directives
import AblOutline.Proofs.Spelling

namespace AblOutline

open Text

/-- The result with the names and texts that it copies in small letters. Kinds
of items, scopes, children, lines, flags and links between items are no texts;
they stay as they are, as do the lines and the final depth. -/
def ParsedFile.small (p : ParsedFile) : ParsedFile :=
  { p with
    items := p.items.map Item.small
    errors := p.errors.map StructureError.small
    tokens := p.tokens.map (List.map Token.small) }

namespace Parse

theorem Source.Plain.small {s : Source} (h : s.Plain) : s.small.Plain := by
  have hquoted : ∀ t : Token, t.IsQuoted → t.small.IsQuoted := by
    intro t ht hk c hc
    rw [Token.text_small, toList_lower, List.head?_map] at hc
    obtain ⟨d, hd, rfl⟩ := Option.map_eq_some_iff.1 hc
    rw [isAlpha_toLower]
    exact ht hk d hd
  refine ⟨h.chain, fun t ht => ?_, hquoted _ h.beyond⟩
  obtain ⟨u, hu, rfl⟩ := List.mem_map.1 ht
  exact hquoted u (h.ahead u hu)

namespace State

variable {env : Environment}
  (hres : ∀ name path, env.resolver.resolve name path = none) {s s' : State}
  {t t' : Token} {steps : Nat}

-- =============================================================== looking

theorem stopStatement_small (s : State) :
    s.small.stopStatement
      = Prod.map (Option.map Statement.small) small s.stopStatement := by
  have hempty : s.small.analysis.statement.isEmpty
      = s.analysis.statement.isEmpty := Statement.isEmpty_small _
  have hbranch := s.inFalseBranch_small
  have hcut : ∀ u : State, u.stopStatement
      = if u.analysis.statement.isEmpty || u.inFalseBranch then
          (none, { u with analysis :=
            { u.analysis with statement := {}, restart := false } })
        else (some u.analysis.statement, { u with analysis :=
          { u.analysis with statement := {}, restart := false } }) :=
    fun _ => rfl
  rw [hcut, hcut, hempty, hbranch]
  split <;> rfl

theorem observe_small (s : State) (t : Token) (skipped : Bool) :
    s.small.observe t.small skipped
      = Prod.map (Option.map Statement.small) small (s.observe t skipped) := by
  unfold observe
  rw [show t.small.kind = t.kind from rfl]
  cases t.kind with
  | eol => exact congrArg (none, ·) (s.recordLine_small (s.rootLine t))
  | eos =>
      cases skipped with
      | true => rfl
      | false => exact s.stopStatement_small
  | _ => rfl

theorem map_small_small (x : Option Outcome) :
    (x.map Outcome.small).map Outcome.small = x.map Outcome.small := by
  rw [Option.map_map]
  exact congrArg (x.map ·) (funext Outcome.small_small)

include hres

/-- A token that is looked at does the same in small letters, and leaves the
source plain. -/
theorem look_small (hplain : s.source.Plain) (steps : Nat) (t : Token)
    (ended : Option Statement) :
    (s.small.look env.small steps t.small (ended.map Statement.small)).map
        Outcome.small
      = (s.look env steps t ended).map Outcome.small
    ∧ ∀ out, s.look env steps t ended = some out →
      out.state.source.Plain := by
  have hkept : ∀ {o' o : Outcome}, o'.small = o.small →
      o.state.source = s.source →
      (some o').map Outcome.small = (some o).map Outcome.small
        ∧ ∀ out, some o = some out → out.state.source.Plain :=
    fun heq hsource => ⟨congrArg some heq, fun _ he =>
      Option.some.inj he ▸ hsource ▸ hplain⟩
  have hdone : ∀ u : State, u.small.done.small = u.done.small :=
    fun u => congrArg done u.small_small
  unfold look
  rw [show s.small.nesting.depth = s.nesting.depth from
    Nesting.depth_small _, show t.small.kind = t.kind from rfl,
    inFalseBranch_small]
  split
  · exact hkept (Outcome.small_small (s.refused (.noScope t.lineNumber))) rfl
  split
  · obtain ⟨heq, hgood⟩ := directive_small hres hplain steps t
    rw [heq, map_small_small]
    exact ⟨rfl, hgood⟩
  split
  · exact hkept (hdone s) rfl
  split
  · exact hkept (hdone s.space) rfl
  · exact hkept (hdone s.space) rfl
  · exact hkept (hdone s.space) rfl
  · cases ended with
    | none => exact hkept (hdone s.space) rfl
    | some st =>
        exact hkept (endStatement_small env s.space st t)
          (Rests.endStatement s.space env st t).source
  · exact hkept (hdone s) rfl
  · exact hkept (hdone s) rfl
  · exact hkept (hdone s) rfl
  · exact hkept (congrArg done (readToken_small env s t))
      (Learns.readToken env s t).source

omit hres in
/-- The environment in small letters resolves as the environment does. -/
theorem small_resolves
    (hres : ∀ name path, env.resolver.resolve name path = none) :
    ∀ name path, env.small.resolver.resolve name path = none :=
  hres

/-- The place ahead is expanded alike. -/
theorem expandNext_same (hplain' : s'.source.Plain) (hplain : s.source.Plain)
    (heq : s'.small = s.small) :
    (s'.expandNext env.small).small = (s.expandNext env).small := by
  rw [← (expandNext_small hplain' (small_resolves hres)).eq,
    ← (expandNext_small hplain hres).eq, Environment.small_small, heq]

/-- So it is after a look, if there is an outcome. -/
theorem expandAfter_small {x' x : Option Outcome}
    (heq : x'.map Outcome.small = x.map Outcome.small)
    (hplain' : ∀ out, x' = some out → out.state.source.Plain)
    (hplain : ∀ out, x = some out → out.state.source.Plain) :
    (x'.bind fun out => some (out.state.expandNext env.small)).map small
        = (x.bind fun out => some (out.state.expandNext env)).map small
      ∧ ∀ u, (x.bind fun out => some (out.state.expandNext env)) = some u →
        u.source.Plain := by
  rcases x' with _ | out' <;> rcases x with _ | out
  · rw [Option.bind_none, Option.bind_none]
    exact ⟨rfl, fun u hu => by cases hu⟩
  · cases heq
  · cases heq
  · have hstate : out'.state.small = out.state.small :=
      congrArg Outcome.state (Option.some.inj heq)
    have hnext := expandNext_same hres (hplain' out' rfl) (hplain out rfl) hstate
    rw [Option.bind_some, Option.bind_some, Option.map_some, Option.map_some,
      hnext]
    refine ⟨rfl, fun u hu => ?_⟩
    rw [← Option.some.inj hu]
    exact (expandNext_small (hplain out rfl) hres).plain

theorem step_small (hplain : s.source.Plain) :
    (s.small.step env.small steps t.small).map small
        = (s.step env steps t).map small
      ∧ ∀ u, s.step env steps t = some u → u.source.Plain := by
  have hobserved : (s.observe t (decide (0 < s.source.skip))).2.source.Plain :=
    (observe_source s t _).symm ▸ hplain
  unfold step
  dsimp only
  rw [show s.small.source.skip = s.source.skip from rfl, observe_small]
  generalize s.observe t (decide (0 < s.source.skip)) = observed at hobserved ⊢
  obtain ⟨ended, u⟩ := observed
  dsimp only [Prod.map]
  split
  · have hnext : ∀ v : State, v.source.Plain →
        (v.small.expandNext env.small).small = (v.expandNext env).small
          ∧ (v.expandNext env).source.Plain := by
      intro v hv
      obtain ⟨heq, hplain⟩ := expandNext_small hv hres
      rw [heq, small_small]
      exact ⟨rfl, hplain⟩
    obtain ⟨heq, hplain⟩ := hnext { u with source :=
        { u.source with skip := u.source.skip - 1 } }
      ⟨hobserved.chain, hobserved.ahead, hobserved.beyond⟩
    exact ⟨congrArg some heq, fun v hv => Option.some.inj hv ▸ hplain⟩
  · obtain ⟨heq, hgood⟩ := look_small hres hobserved steps t ended
    exact expandAfter_small hres heq
      (look_small (small_resolves hres) hobserved.small steps _ _).2 hgood

/-- A step of two parses that are the same in small letters. -/
theorem step_same (hplain' : s'.source.Plain) (hplain : s.source.Plain)
    (heq : s'.small = s.small) (ht : t'.small = t.small) :
    (s'.step env.small steps t').map small = (s.step env steps t).map small := by
  rw [← (step_small (small_resolves hres) hplain').1,
    ← (step_small hres hplain).1, Environment.small_small, heq, ht]

-- ================================================================== runs

omit hres in
theorem advance?_small (s : State) :
    s.small.advance? = s.advance?.map small := by
  unfold advance?
  rw [show s.small.source.cursor = s.source.cursor.small from rfl,
    Cursor.advance?_small, Option.map_map, Option.map_map]
  rfl

omit hres in
/-- Moving on leaves the source plain. -/
theorem advance?_plain (hplain : s.source.Plain) {u : State}
    (h : s.advance? = some u) : u.source.Plain := by
  obtain ⟨cursor, hcursor, rfl⟩ := Option.map_eq_some_iff.1 h
  unfold Cursor.advance? at hcursor
  split at hcursor
  · cases hcursor
  · rename_i t rest hahead
    cases hcursor
    refine ⟨hplain.chain, fun v hv => hplain.ahead v ?_, hplain.beyond⟩
    rw [hahead]
    exact List.mem_cons_of_mem t hv

/-- Runs of two parses that are the same in small letters. -/
theorem run_same (hplain' : s'.source.Plain) (hplain : s.source.Plain)
    (heq : s'.small = s.small) :
    (s'.run env.small steps).map small = (s.run env steps).map small := by
  induction steps generalizing s' s with
  | zero => rfl
  | succ steps ih =>
      have hadvance : s'.advance?.map small = s.advance?.map small := by
        rw [← advance?_small, ← advance?_small, heq]
      unfold run
      cases hu : s.advance? with
      | none =>
          rw [hu, Option.map_none, Option.map_eq_none_iff] at hadvance
          rw [hadvance]
          exact congrArg some heq
      | some u =>
          rw [hu] at hadvance
          obtain ⟨u', hu', hsame⟩ := Option.map_eq_some_iff.1 hadvance
          have hcurrent : u'.source.cursor.current.small
              = u.source.cursor.current.small := by
            rw [← Cursor.current_small, ← Cursor.current_small]
            exact congrArg (fun v : State => v.source.cursor.current) hsame
          have hend : u'.source.cursor.current.isEof
              = u.source.cursor.current.isEof :=
            congrArg (·.kind == .eof) hcurrent
          have hstep : (u'.step env.small steps _).map small
              = (u.step env steps _).map small :=
            step_same hres (advance?_plain hplain' hu')
              (advance?_plain hplain hu) hsame hcurrent
          rw [hu']
          dsimp only
          rw [hend]
          split
          · exact congrArg some hsame
          cases hv : u.step env steps u.source.cursor.current with
          | none =>
              rw [hv, Option.map_none, Option.map_eq_none_iff] at hstep
              rw [hstep]
          | some v =>
              rw [hv] at hstep
              obtain ⟨v', hv', hsame'⟩ := Option.map_eq_some_iff.1 hstep
              rw [hv']
              exact ih ((step_small (small_resolves hres)
                  (advance?_plain hplain' hu')).2 v' hv')
                ((step_small hres (advance?_plain hplain hu)).2 v hv) hsame'

-- =================================================================== end

omit hres

theorem endLast_small (env : Environment) (s : State) (eof : Token) :
    (s.small.endLast env.small eof.small).small = (s.endLast env eof).small := by
  have hlast : ∀ (env : Environment) (u : State) (eof : Token),
      u.endLast env eof
        = if u.analysis.statement.isEmpty || u.inFalseBranch then
            u.takeStatement.2
          else (u.takeStatement.2.endStatement env u.analysis.statement
            eof).state :=
    fun _ _ _ => rfl
  have hempty : s.small.analysis.statement.isEmpty
      = s.analysis.statement.isEmpty := Statement.isEmpty_small _
  rw [hlast, hlast, hempty, inFalseBranch_small]
  split
  · exact s.takeStatement.2.small_small
  · exact congrArg Outcome.state (endStatement_small env s.takeStatement.2
      s.analysis.statement eof)

theorem leaveAll_small (line : Nat) (s : State) (scopes : List OpenScope) :
    s.small.leaveAll line (scopes.map OpenScope.small)
      = (s.leaveAll line scopes).small := by
  have hleave : ∀ (u : State) (o : OpenScope) (depth : Nat),
      u.small.leave line o.small depth = (u.leave line o depth).small := by
    intro u o depth
    have hadd : ∀ fault opener,
        u.small.addErrorAt fault opener.small o.line depth
          = (u.addErrorAt fault opener o.line depth).small :=
      fun fault opener => u.addErrorAt_small opener fault o.line depth
    obtain ⟨scope, opened⟩ := o
    cases scope with
    | file item =>
        show (u.small.setEndLine? item line).getD u.small = _
        rw [setEndLine?_small]
        show _ = ((u.setEndLine? item line).getD u).small
        cases u.setEndLine? item line <;> rfl
    | routine item kind keyword opener => exact hadd _ opener
    | conditional opener active taken => exact hadd _ opener
    | suspended item opener => exact hadd _ opener
    | block opener keyword label => exact hadd _ opener
  induction scopes generalizing s with
  | nil => rfl
  | cons o around ih =>
      rw [List.map_cons, leaveAll, leaveAll, List.length_map, hleave, ih]

theorem finish_small (env : Environment) (s : State) :
    (s.small.finish env.small).small = (s.finish env).small := by
  have hcurrent : s.small.source.cursor.current
      = s.source.cursor.current.small := Cursor.current_small _
  have hleave : ∀ (u' u : State) (line : Nat), u'.small = u.small →
      (u'.leaveAll line u'.nesting.scopes).small
        = (u.leaveAll line u.nesting.scopes).small := by
    intro u' u line heq
    have hscopes : u'.nesting.scopes.map OpenScope.small
        = u.nesting.scopes.map OpenScope.small :=
      congrArg (fun v : State => v.nesting.scopes) heq
    rw [← leaveAll_small, ← leaveAll_small, heq, hscopes]
  unfold finish
  dsimp only
  rw [hcurrent, rootLine_small, recordLine_small]
  exact hleave _ _ _ (endLast_small env _ _)

/-- The ends of two parses that are the same in small letters. -/
theorem finish_same (env : Environment) (heq : s'.small = s.small) :
    (s'.finish env.small).small = (s.finish env).small := by
  rw [← finish_small env.small, ← finish_small env, Environment.small_small,
    heq]

-- ================================================================= start

theorem ofTokens_small (ts : List Token) :
    Cursor.ofTokens (ts.map Token.small) = (Cursor.ofTokens ts).small := by
  have hend : ((ts.map Token.small).getLast?.filter (·.isEof)).getD
        (Token.eof .origin 0)
      = ((ts.getLast?.filter (·.isEof)).getD (Token.eof .origin 0)).small := by
    rw [List.getLast?_map]
    cases ts.getLast? with
    | none => rfl
    | some t =>
        show (if t.isEof then some t.small else none).getD _
          = ((if t.isEof then some t else none).getD _).small
        split <;> rfl
  unfold Cursor.ofTokens
  rw [hend]
  rfl

theorem opened_small (cache : TokenCache) (text : String) :
    opened cache (lower text) none = (opened cache text none).small := by
  have hcursor : Cursor.ofTokens (tokenize (lower text))
      = (Cursor.ofTokens (tokenize text)).small := by
    rw [tokenize_lower, ofTokens_small]
  let fresh (cursor : Cursor) : State :=
    { source := { cursor, chain := .ofInput, cache } }
  have hfresh : ∀ c : Cursor, fresh c.small = (fresh c).small := by
    intro c
    have hitems : (#[] : Array Item).map Item.small = #[] := Array.map_empty
    show _ = State.mk _ _ { items := (#[] : Array Item).map Item.small } _
    rw [hitems]
    rfl
  have hroot : (fresh (.ofTokens (tokenize (lower text)))).addItemIn none
      "<input>" (Token.eof .origin 0) (.file none)
      = ((fresh (.ofTokens (tokenize text))).addItemIn none "<input>"
        (Token.eof .origin 0) (.file none)).small := by
    rw [hcursor, hfresh, ← addItemIn_small, lower_input]
    rfl
  exact congrArg (fun u : State =>
    { u with nesting := u.nesting.push (.file 0) 0 }) hroot

theorem opened_plain (cache : TokenCache) (text : String) :
    (opened cache text none).source.Plain := by
  refine ⟨rfl, isQuoted_of_mem_tokenize, ?_⟩
  show (((tokenize text).getLast?.filter (·.isEof)).getD _).IsQuoted
  cases hlast : (tokenize text).getLast?.filter (·.isEof) with
  | none => nofun
  | some t =>
      have hkind := (Option.filter_eq_some_iff.1 hlast).2
      intro hk
      rw [Option.getD_some] at hk
      unfold Token.isEof at hkind
      rw [hk] at hkind
      cases hkind

include hres

theorem start_small (cache : TokenCache) (text : String) :
    SmallState (start env.small cache (lower text) none)
      (start env cache text none) := by
  have hnear := expandAt_small (opened_plain cache text) .nearest hres true
  unfold start
  rw [opened_small, hnear.eq]
  exact expandAt_small hnear.plain _ hres true

end State

end Parse

open Parse

/-- The results of two states that are the same in small letters. -/
theorem Parse.Result.file_small {options options' : Options} {s s' : State}
    (hkept : options'.keepExpandedText = options.keepExpandedText)
    (heq : s'.small = s.small) :
    (ofState options' s').file.small = (ofState options s).file.small := by
  have hsmall : ∀ (o : Options) (u : State), (ofState o u).file.small
      = { (ofState o u.small).file with
          tokens := if o.keepExpandedText then
            some u.small.source.cursor.tokens else none } := by
    intro o u
    have hdepth : u.small.nesting.depth = u.nesting.depth :=
      Nesting.depth_small _
    have htokens : u.small.source.cursor.tokens
        = u.source.cursor.tokens.map Token.small := by
      unfold Cursor.tokens
      rw [List.map_append, List.map_reverse]
      rfl
    unfold ofState ParsedFile.small
    dsimp only
    rw [hdepth, htokens]
    split <;> rfl
  rw [hsmall, hsmall, heq, hkept]
  rfl

/-- Where nothing is included, a text in capitals has the result of the text
but for the case of the names and texts that it copies. -/
theorem parse_upper {env : Environment}
    (hres : ∀ name path, env.resolver.resolve name path = none) (steps : Nat)
    (cache : TokenCache) (text : String) :
    (parse? steps env cache (upper text) none).map (·.file.small)
      = (parse? steps env cache text none).map (·.file.small) := by
  have hsmall : ∀ text : String,
      (parse? steps env.small cache (lower text) none).map (·.file.small)
        = (parse? steps env cache text none).map (·.file.small) := by
    intro text
    obtain ⟨hstart, hplain⟩ := State.start_small hres cache text
    have hrun : ((State.start env.small cache (lower text) none).run env.small
          steps).map State.small
        = ((State.start env cache text none).run env steps).map State.small :=
      State.run_same hres (hstart ▸ hplain.small) hplain
        ((congrArg State.small hstart).trans (State.small_small _))
    have hresult : ∀ ends' ends : Option State,
        ends'.map State.small = ends.map State.small →
        (ends'.map fun s => Result.ofState env.small.options
            (s.finish env.small)).map (·.file.small)
          = (ends.map fun s => Result.ofState env.options
            (s.finish env)).map (·.file.small) := by
      rintro (_ | s') (_ | s) hsame
      · rfl
      · cases hsame
      · cases hsame
      · exact congrArg some (Result.file_small rfl
          (State.finish_same env (Option.some.inj hsame)))
    exact hresult _ _ hrun
  rw [← hsmall, ← hsmall text, lower_upper]

/-- A definition, a condition and a value, in small letters. -/
def smallText : String :=
  "&global-define x p\n&if defined(x) &then\nrun \x7b&x\x7d.\n&endif\n"

/-- The text and the text in capitals differ in the case of names only. -/
theorem parse_upper_condition :
    ∃ r r', parse? 60 {} {} smallText none = some r
      ∧ parse? 60 {} {} (upper smallText) none = some r'
      ∧ r.file.items.map (·.name) = #["<input>", "x", "x", "p"]
      ∧ r'.file.items.map (·.name) = #["<input>", "X", "X", "P"]
      ∧ r'.file.small = r.file.small := by
  have hrun : ((parse? 60 {} {} smallText none).map
      fun r => r.file.items.map (·.name)) = some #["<input>", "x", "x", "p"] := by
    decide +kernel
  have hrun' : ((parse? 60 {} {} (upper smallText) none).map
      fun r => r.file.items.map (·.name)) = some #["<input>", "X", "X", "P"] := by
    decide +kernel
  obtain ⟨r, hr, hnames⟩ := Option.map_eq_some_iff.1 hrun
  obtain ⟨r', hr', hnames'⟩ := Option.map_eq_some_iff.1 hrun'
  have hsame : (parse? 60 {} {} (upper smallText) none).map (·.file.small)
      = (parse? 60 {} {} smallText none).map (·.file.small) :=
    parse_upper (fun _ _ => rfl) 60 {} smallText
  rw [hr, hr'] at hsame
  exact ⟨r, r', hr, hr', hnames, hnames', Option.some.inj hsame⟩

end AblOutline
