/-
The parse of a program. A program whose headers are all closed is read without
an error and leaves only the file open. Each header that nothing closes leaves
its scope open, and is reported when the scopes are left at the end, the
innermost first.
-/
import AblOutline.Proofs.Program.Structure

namespace AblOutline

namespace Parse

-- ================================================================= start

/-- The scope of the file. -/
def fileScope : OpenScope := ⟨.file 0, 0⟩

/-- All that is followed of a state where the file is open and nothing else is
there. -/
def View.opened : View :=
  { scopes := [fileScope], errors := [], found := [] }

theorem View.opened_calm : View.opened.Calm := ⟨rfl, rfl, rfl, rfl, rfl, rfl⟩

/-- A parse starts before its first token. -/
theorem ready_start (env : Environment) (cache : TokenCache) {text : String}
    (path : Option String) (hplain : ∀ t ∈ tokenize text, IsPlain t)
    (howned : ∀ t ∈ tokenize text, t.owner = 0) :
    Ready (.start env cache text path) .opened (tokenize text) := by
  obtain ⟨hfacing, n, hstart⟩ := facing_start env cache path hplain
  refine ⟨hfacing, howned, rfl, ?_⟩
  rw [hstart]
  rfl

-- =================================================================== end

/-- What a report says of an error. -/
def reported (e : StructureError) : StructureFault × Nat × Nat :=
  (e.fault, e.rootLine, e.depth)

/-- The reports of headers that nothing closes, where their lines are given
from the outermost to the innermost one. -/
def missingEnds (lines : List Nat) : List (StructureFault × Nat × Nat) :=
  (lines.zipIdx 2).reverse.map fun (line, depth) => (.missingEnd, line, depth)

theorem missingEnds_concat (lines : List Nat) (line : Nat) :
    missingEnds (lines ++ [line])
      = (.missingEnd, line, lines.length + 2) :: missingEnds lines := by
  unfold missingEnds
  rw [List.zipIdx_append, List.reverse_append]
  simp [Nat.add_comm]

theorem length_missingEnds (lines : List Nat) :
    (missingEnds lines).length = lines.length := by
  unfold missingEnds
  rw [List.length_map, List.length_reverse, List.length_zipIdx]

section Leaving

variable (s : State) (line : Nat)

/-- The scope of a header is left with an error. -/
theorem leave_opened {o : OpenScope} (h : OpenedBy o) (depth : Nat) :
    ((s.leave line o depth).findings.errors.map reported
        = s.findings.errors.map reported ++ [(.missingEnd, o.line, depth)])
      ∧ (s.leave line o depth).findings.items = s.findings.items := by
  obtain ⟨scope, openLine⟩ := o
  obtain ⟨opener, hopener, hfault⟩ := h
  have hadded : ∀ t, (s.addErrorAt .missingEnd t openLine depth).findings.errors.map
      reported = s.findings.errors.map reported
        ++ [(.missingEnd, openLine, depth)] := fun t => List.map_append
  cases scope with
  | file item => cases hopener
  | routine item kind keyword t => exact ⟨hadded t, rfl⟩
  | conditional t active taken => cases hfault
  | suspended item t => cases hfault
  | block t keyword label => exact ⟨hadded t, rfl⟩

/-- The file is left without one. -/
theorem leave_file (depth : Nat) (hf : Forest s.findings.items) :
    (s.leave line fileScope depth).findings.errors = s.findings.errors
      ∧ procedureEntries (s.leave line fileScope depth).findings.items
        = procedureEntries s.findings.items := by
  have hset : s.setEndLine? 0 line = some { s with findings :=
      { s.findings with items := s.findings.items.modify 0 fun i =>
        { i with endLine := some line } } } := if_pos hf.size_pos
  have hleave : s.leave line fileScope depth = { s with findings :=
      { s.findings with items := s.findings.items.modify 0 fun i =>
        { i with endLine := some line } } } := by
    show (s.setEndLine? 0 line).getD s = _
    rw [hset]
    rfl
  rw [hleave]
  refine ⟨rfl, procedureEntries_modify fun i hi => ?_⟩
  have hother : i.content.reportName ≠ "procedure" := by
    rw [(hf.file hi).2 rfl]
    decide
  rw [entry?_of_other hother]
  exact entry?_of_other hother

/-- All scopes of headers, and the file, are left. -/
theorem leaveAll_opened {opened : List OpenScope}
    (h : ∀ o ∈ opened, OpenedBy o) (hf : Forest s.findings.items) :
    (s.leaveAll line (opened ++ [fileScope])).findings.errors.map reported
        = s.findings.errors.map reported
          ++ missingEnds (opened.map (·.line)).reverse
      ∧ procedureEntries
          (s.leaveAll line (opened ++ [fileScope])).findings.items
        = procedureEntries s.findings.items := by
  induction opened generalizing s with
  | nil =>
      obtain ⟨herrors, hfound⟩ := leave_file s line 1 hf
      refine ⟨?_, hfound⟩
      show (State.leave line s fileScope 1).findings.errors.map reported = _
      rw [herrors]
      exact (List.append_nil _).symm
  | cons o opened ih =>
      obtain ⟨herrors, hitems⟩ := leave_opened s line
        (h o List.mem_cons_self) ((opened ++ [fileScope]).length + 1)
      obtain ⟨hrest, hfound⟩ := ih _
        (fun x hx => h x (List.mem_cons_of_mem _ hx)) (hitems ▸ hf)
      have hlength : (opened ++ [fileScope]).length + 1
          = (opened.map (·.line)).reverse.length + 2 := by simp
      refine ⟨?_, ?_⟩
      · rw [List.map_cons, List.reverse_cons, missingEnds_concat, ← hlength,
          List.append_cons (s.findings.errors.map reported), ← herrors]
        exact hrest
      · rw [← hitems]
        exact hfound

end Leaving

/-- What the end of the tokens does, where no statement is being read. -/
theorem finish_calm (env : Environment) {s : State} {opened : List OpenScope}
    (hs : Sound s) (htokens : s.view.tokens = [])
    (hscopes : s.view.scopes = opened ++ [fileScope])
    (hopened : ∀ o ∈ opened, OpenedBy o) :
    (s.finish env).nesting = s.nesting
      ∧ (s.finish env).findings.errors.map reported
        = s.findings.errors.map reported
          ++ missingEnds (opened.map (·.line)).reverse
      ∧ procedureEntries (s.finish env).findings.items
        = procedureEntries s.findings.items := by
  obtain ⟨line, u, hfinish, hnesting, herrors, hitems⟩ : ∃ line, ∃ u : State,
      s.finish env = u.leaveAll line u.nesting.scopes
        ∧ u.nesting = s.nesting ∧ u.findings.errors = s.findings.errors
        ∧ u.findings.items = s.findings.items := by
    have hempty : s.analysis.statement.isEmpty = true := by
      unfold Statement.isEmpty
      rw [List.map_eq_nil_iff.1 htokens]
      rfl
    have hlast : ∀ eof line, (s.recordLine line).endLast env eof
        = (s.recordLine line).takeStatement.2 := by
      intro eof line
      have htrue : ((s.recordLine line).takeStatement.1.isEmpty
          || (s.recordLine line).takeStatement.2.inFalseBranch) = true := by
        show (s.analysis.statement.isEmpty || _) = true
        rw [hempty]
        rfl
      unfold State.endLast
      dsimp only
      rw [if_pos htrue]
    refine ⟨_, _, rfl, ?_, ?_, ?_⟩
    all_goals
      rw [hlast]
      rfl
  have hall := leaveAll_opened u line hopened
    (hitems ▸ hs.forest)
  have hsame : u.nesting.scopes = opened ++ [fileScope] := by
    rw [hnesting]
    exact hscopes
  rw [hfinish, hsame, leaveAll_nesting, hall.1, hall.2, herrors, hitems]
  exact ⟨hnesting, rfl, rfl⟩

end Parse

-- =============================================================== programs

open Parse

theorem Program.length_openLines (p : Program) (start : Position) :
    (p.openLines start).length = p.unclosedCount := by
  induction p generalizing start with
  | closed items => rfl
  | unclosed items opener more ih => exact congrArg (· + 1) (ih _)

/-- The tokens of a program are those of its pieces, and the end mark. -/
theorem Program.tokenize_text {p : Program} (hfits : p.Fits false)
    (hlines : Program.OnOwnLines p.chunks) :
    ∃ eof : Token, eof.isEof = true
      ∧ tokenize p.text = tokensFrom .origin 0 p.pieces ++ [eof]
      ∧ ∀ t ∈ tokenize p.text, IsPlain t ∧ t.owner = 0 := by
  rw [tokenize_eq, Program.lex_text hfits hlines]
  refine ⟨_, rfl, rfl, fun t ht => ?_⟩
  rcases List.mem_append.1 ht with ht | ht
  · obtain ⟨hmem, ho⟩ := mem_tokensFrom ht
    obtain ⟨c, hc, hq⟩ := List.mem_flatten.1 hmem
    exact ⟨Program.plain hfits c hc _ hq, ho⟩
  · rw [List.mem_singleton.1 ht]
    exact ⟨⟨nofun, nofun⟩, rfl⟩

/-- The run over the tokens of a program. -/
theorem Program.run (env : Environment) (cache : TokenCache)
    (path : Option String) {p : Program} (hfits : p.Fits false)
    (hlines : Program.OnOwnLines p.chunks) {steps : Nat}
    (hsteps : (tokenize p.text).length < steps) :
    ∃ s : State, ∃ opened : List OpenScope, ∃ added : List Entry,
      (State.start env cache p.text path).run env steps = some s
      ∧ Sound s
      ∧ s.view = { View.opened with
          scopes := opened ++ [fileScope], found := added }
      ∧ opened.map (·.line) = (p.openLines .origin).reverse
      ∧ (∀ o ∈ opened, OpenedBy o)
      ∧ added.map (·.found) = p.procedures .origin := by
  obtain ⟨eof, heof, htokens, hplain⟩ := Program.tokenize_text hfits hlines
  have hstart := ready_start env cache path (fun t ht => (hplain t ht).1)
    fun t ht => (hplain t ht).2
  have hlength := congrArg List.length hstart.ahead
  rw [htokens] at hstart
  obtain ⟨opened, added, hopenLines, hopened, hadded, s, hl, hs⟩ :=
    hstart.program env hfits View.opened_calm (fun _ => rfl)
      (Lined.of_onOwnLines heof hlines.ends)
  refine ⟨s.moved eof [], opened, added, ?_, hs.moved, hs.view, hopenLines,
    hopened, hadded⟩
  have hm := hl (steps - 1 - (tokenize p.text).length)
  rw [hlength, run_of_eof hs.ahead heof] at hm
  rw [← hm]
  congr 1
  omega

/-- A program is parsed: each header that nothing closes leaves its scope open
and is reported on its line, the innermost first, and its procedures are found,
each with the line of its `END`. -/
theorem parse_program (env : Environment) (cache : TokenCache)
    (path : Option String) {p : Program} (hfits : p.Fits false)
    (hlines : Program.OnOwnLines p.chunks) {steps : Nat}
    (hsteps : (tokenize p.text).length < steps) :
    ∃ r, parse? steps env cache p.text path = some r
      ∧ r.file.finalDepth = p.unclosedCount + 1
      ∧ r.file.errors.length = p.unclosedCount
      ∧ r.file.errors.map reported = missingEnds (p.openLines .origin)
      ∧ (procedureEntries r.file.items).map (·.found)
        = p.procedures .origin := by
  obtain ⟨s, opened, added, hrun, hsound, hview, hopenLines, hopened, hadded⟩ :=
    Program.run env cache path hfits hlines hsteps
  obtain ⟨hnesting, herrors, hfound⟩ := finish_calm env hsound
    (congrArg View.tokens hview) (congrArg View.scopes hview) hopened
  have hscopes : s.nesting.scopes = opened ++ [fileScope] :=
    congrArg View.scopes hview
  have hnone : s.findings.errors = [] := congrArg View.errors hview
  have hentries : procedureEntries s.findings.items = added :=
    congrArg View.found hview
  have hreported : (s.finish env).findings.errors.map reported
      = missingEnds (p.openLines .origin) := by
    rw [herrors, hnone, hopenLines, List.reverse_reverse]
    rfl
  refine ⟨_, congrArg (Option.map _) hrun, ?_, ?_, hreported, ?_⟩
  · have hcount := congrArg List.length hopenLines
    rw [List.length_map, List.length_reverse, Program.length_openLines]
      at hcount
    show (s.finish env).nesting.scopes.length = _
    rw [hnesting, hscopes, List.length_append, hcount]
    rfl
  · have hlength := congrArg List.length hreported
    rw [List.length_map, length_missingEnds, Program.length_openLines]
      at hlength
    exact hlength
  · show (procedureEntries (s.finish env).findings.items).map _ = _
    rw [hfound, hentries]
    exact hadded

-- =============================================================== example

/-- A sentence on a line of its own. -/
def Sentence.ofLine (first rest : String) (stop : Char) : Sentence :=
  ⟨[], first.toList, lex rest.toList, stop, [⟨.eol, ['\n']⟩]⟩

/-- A directive on a line of its own. -/
def DirectiveLine.ofLine (word operands : String) : DirectiveLine :=
  ⟨[], word.toList, lex operands.toList, [⟨.eol, ['\n']⟩]⟩

/-- A procedure on a branch that is taken, and a procedure and a block in it
that nothing closes:

    &IF TRUE &THEN
    PROCEDURE q:
    x = y.
    END PROCEDURE.
    &ENDIF
    PROCEDURE p:
    do i = 1 TO 3:
    z = 1.
-/
def openProgram : Program :=
  .unclosed
    (.branch (.ofLine "&IF" " TRUE &THEN")
      (.procedure (.ofLine "PROCEDURE" " q" ':')
        (.statement (.ofLine "x" " = y" '.') .nil)
        (.ofLine "END" " PROCEDURE" '.') .nil)
      (.ofLine "&ENDIF" "") .nil)
    (.procedure (.ofLine "PROCEDURE" " p" ':'))
    (.unclosed .nil (.block (.ofLine "do" " i = 1 TO 3" ':'))
      (.closed (.statement (.ofLine "z" " = 1" '.') .nil)))

theorem openProgram_fits : openProgram.Fits false := by
  have hif : (DirectiveLine.ofLine "&IF" " TRUE &THEN").IsTrue :=
    ⟨by decide +kernel, [⟨.blank, [' ']⟩], ⟨.word, "TRUE".toList⟩,
      [⟨.blank, [' ']⟩], "&THEN".toList, by decide +kernel, by decide,
      ⟨rfl, by decide⟩, by decide, by decide⟩
  have hprocedure : ∀ name ∈ ["p", "q"],
      (Sentence.ofLine "PROCEDURE" (" " ++ name) ':').IsProcedure := by
    intro name hname
    have hword : Text.upper (String.ofList "PROCEDURE".toList)
        = "PROCEDURE" := by decide
    refine ⟨?_, hword, ⟨⟨.word, name.toList⟩, ?_, rfl⟩, rfl⟩
    all_goals
      revert name
      decide +kernel
  exact ⟨⟨hif, ⟨rfl, hprocedure "q" (by decide),
      ⟨⟨by decide +kernel, by decide, rfl⟩, trivial⟩,
      ⟨by decide +kernel, by decide,
        Or.inr ⟨⟨.word, "PROCEDURE".toList⟩, by decide +kernel, rfl, by decide⟩,
        rfl⟩, trivial⟩,
      ⟨by decide +kernel, by decide +kernel⟩, trivial⟩,
    ⟨rfl, hprocedure "p" (by decide)⟩,
    ⟨trivial, ⟨by decide +kernel, by decide, rfl⟩,
      ⟨⟨by decide +kernel, by decide, rfl⟩, trivial⟩⟩⟩

theorem openProgram_onOwnLines : Program.OnOwnLines openProgram.chunks :=
  ⟨by decide +kernel, by decide +kernel⟩

/-- A program with two headers that nothing closes. -/
theorem parse_openProgram :
    ∃ r, parse? 100 {} {} openProgram.text none = some r
      ∧ r.file.finalDepth = 3
      ∧ r.file.errors.map reported = [(.missingEnd, 6, 3), (.missingEnd, 5, 2)]
      ∧ (procedureEntries r.file.items).map (·.found)
        = [⟨"q", some 3⟩, ⟨"p", none⟩] := by
  have hsteps : (tokenize openProgram.text).length < 100 := by
    decide +kernel
  obtain ⟨r, hr, hdepth, -, herrors, hfound⟩ :=
    parse_program {} {} none openProgram_fits openProgram_onOwnLines hsteps
  refine ⟨r, hr, hdepth, ?_, ?_⟩
  · rw [herrors]
    decide +kernel
  · rw [hfound]
    decide +kernel

end AblOutline
