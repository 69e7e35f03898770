/-
How a whole program is read. Reading items leaves all scopes as they were and
finds their procedures, each with the line of its `END`; the headers that
nothing closes leave their scopes open, one within the other.
-/
import AblOutline.Proofs.Program.Directives

namespace AblOutline.Parse

variable (env : Environment) {s : State} {v : View} {more : List Token}
  {start : Position} {offset : Nat}

-- ================================================================= lines

/-- All chunks end with a line break, the last one perhaps with the text. -/
def Lined (more : List Token) : List (List Piece) → Prop
  | [] => True
  | [c] => LineEnds c more
  | c :: cs => EndsLine c ∧ Lined more cs

namespace Lined

variable {c : List Piece} {cs ds : List (List Piece)}

theorem head (place : Position) (bytes : Nat) (h : Lined more (c :: cs)) :
    LineEnds c (tokensFrom place bytes cs.flatten ++ more) := by
  cases cs with
  | nil => exact h
  | cons d cs => exact Or.inl h.1

theorem tail (h : Lined more (c :: cs)) : Lined more cs := by
  cases cs with
  | nil => trivial
  | cons d cs => exact h.2

theorem left (place : Position) (bytes : Nat) (h : Lined more (cs ++ ds)) :
    Lined (tokensFrom place bytes ds.flatten ++ more) cs := by
  induction cs with
  | nil => trivial
  | cons c cs ih =>
      cases cs with
      | nil => exact head place bytes h
      | cons d cs => exact ⟨h.1, ih h.2⟩

theorem right (h : Lined more (cs ++ ds)) : Lined more ds := by
  induction cs with
  | nil => exact h
  | cons c cs ih => exact ih h.tail

/-- The chunks of a program, where only the end mark follows. -/
theorem of_onOwnLines {t : Token} (ht : t.isEof = true)
    (h : ∀ c ∈ cs.dropLast, EndsLine c) : Lined [t] cs := by
  induction cs with
  | nil => trivial
  | cons c cs ih =>
      cases cs with
      | nil => exact Or.inr ⟨t, rfl, ht⟩
      | cons d cs =>
          exact ⟨h c List.mem_cons_self,
            ih fun x hx => h x (List.mem_cons_of_mem _ hx)⟩

end Lined

theorem flatten_nested {head stop : List Piece} {body more : List (List Piece)} :
    (head :: (body ++ stop :: more)).flatten
      = head ++ (body.flatten ++ (stop ++ more.flatten)) := by
  rw [List.flatten_cons, List.flatten_append, List.flatten_cons]

-- ================================================================= items

/-- A procedure as it is found. -/
def Entry.found (e : Entry) : Found := ⟨e.name, e.endLine⟩

theorem View.Calm.within (hv : v.Calm) (scopes : List OpenScope)
    (found : List Entry) : View.Calm { v with scopes, found } :=
  ⟨hv.skip, hv.kind, hv.tokens, hv.trigger, hv.label, hv.restart⟩

theorem openRoutines_cons {o : OpenScope} {scopes : List OpenScope}
    (h : o.scope.isRoutine = false) :
    Nesting.openRoutines ⟨o :: scopes⟩ = Nesting.openRoutines ⟨scopes⟩ :=
  List.countP_cons_of_neg (by rw [h]; exact Bool.false_ne_true)

/-- There are no procedures in a procedure. -/
theorem procedures_eq_nil {items : Items} (h : items.Fits true) :
    items.procedures start = [] := by
  induction items generalizing start with
  | nil => rfl
  | statement d more ih => exact ih h.2
  | procedure head body stop more ihb ihm => cases h.1
  | block head body stop more ihb ihm =>
      show body.procedures _ ++ more.procedures _ = []
      rw [ihb h.2.1, ihm h.2.2.2]
      rfl
  | suspended head body stop more ihb ihm =>
      show body.procedures _ ++ more.procedures _ = []
      rw [ihb h.2.1, ihm h.2.2.2]
      rfl
  | branch head body stop more ihb ihm =>
      show body.procedures _ ++ more.procedures _ = []
      rw [ihb h.2.1, ihm h.2.2.2]
      rfl

/-- The end of a procedure that was found last. -/
theorem map_endLine {found : List Entry} {id : ItemId} {name : String}
    {line : Nat} (h : ∀ e ∈ found, e.id < id) :
    (found ++ [(⟨id, name, none⟩ : Entry)]).map (fun e =>
        if e.id = id then { e with endLine := some line } else e)
      = found ++ [⟨id, name, some line⟩] := by
  rw [List.map_append, List.map_singleton, if_pos rfl]
  congr 1
  have hsame : ∀ e ∈ found,
      (if e.id = id then { e with endLine := some line } else e) = e :=
    fun e he => if_neg (Nat.ne_of_lt (h e he))
  rw [List.map_congr_left hsame, List.map_id']

/-- What is read of items: their procedures are found. -/
def ReadsItems (items : Items) (s : State) (v : View) (start : Position)
    (more : List Token) : Prop :=
  ∃ added : List Entry, added.map (·.found) = items.procedures start
    ∧ Reaches env s { v with found := v.found ++ added } more

/-- Items leave the scopes as they are. -/
theorem Ready.items {items : Items} {inProcedure : Bool}
    (hfits : items.Fits inProcedure) (hv : v.Calm)
    (hno : inProcedure = false → Nesting.openRoutines ⟨v.scopes⟩ = 0)
    (hl : Lined more items.chunks)
    (h : Ready s v (tokensFrom start offset items.pieces ++ more)) :
    ReadsItems env items s v start more := by
  induction items generalizing s v start offset more inProcedure with
  | nil =>
      refine ⟨[], rfl, ?_⟩
      rw [List.append_nil]
      exact h.reaches
  | statement d rest ih =>
      obtain ⟨hd, hrest⟩ := hfits
      obtain ⟨s₁, hl₁, h₁⟩ := h.split.statement env hd hv
      obtain ⟨added, hadded, hr⟩ := ih hrest hv hno hl.tail h₁
      exact ⟨added, hadded, hr.after hl₁⟩
  | block head body stop rest ihb ihm =>
      obtain ⟨hhead, hbody, hstop, hrest⟩ := hfits
      unfold Items.pieces Items.chunks at h
      rw [flatten_nested] at h
      obtain ⟨opener, s₁, hl₁, h₁⟩ := h.split.header env hhead hv
      obtain ⟨found, hfound, s₂, hl₂, h₂⟩ := ihb (s := s₁) hbody
        (hv.within _ _) (fun hf => by
          rw [openRoutines_cons rfl]
          exact hno hf) ((hl.tail).left _ _) h₁.split
      obtain ⟨s₃, hl₃, h₃⟩ := h₂.split.endOfBlock env hhead.word hstop
        (hv.within _ _) rfl
      obtain ⟨added, hadded, hr⟩ := ihm hrest
        (hv.within v.scopes (v.found ++ found)) hno hl.tail.right.tail h₃
      refine ⟨found ++ added, ?_, ?_⟩
      · rw [List.map_append, hfound, hadded]
        rfl
      · rw [← List.append_assoc]
        exact hr.after (hl₁.trans (hl₂.trans hl₃))
  | procedure head body stop rest ihb ihm =>
      obtain ⟨hout, hhead, hbody, hstop, hrest⟩ := hfits
      unfold Items.pieces Items.chunks at h
      rw [flatten_nested] at h
      obtain ⟨id, opener, hid, s₁, hl₁, h₁⟩ :=
        h.split.procedure env hhead hv (hno hout)
      obtain ⟨found, hfound, s₂, hl₂, h₂⟩ := ihb (s := s₁) hbody
        (hv.within _ _) nofun ((hl.tail).left _ _) h₁.split
      rw [procedures_eq_nil hbody] at hfound
      obtain rfl := List.map_eq_nil_iff.1 hfound
      rw [List.append_nil] at h₂
      obtain ⟨s₃, hl₃, h₃⟩ := h₂.split.endOfProcedure env hstop
        (hv.within _ _) rfl
      rw [map_endLine hid] at h₃
      let place := (start.past head.pieces).past body.pieces
      let entry : Entry := ⟨id, head.name, some (place.past stop.before).line⟩
      obtain ⟨added, hadded, hr⟩ := ihm hrest
        (hv.within v.scopes (v.found ++ [entry])) hno hl.tail.right.tail h₃
      refine ⟨entry :: added, ?_, ?_⟩
      · rw [List.map_cons, hadded]
        show _ = _ :: body.procedures _ ++ rest.procedures _
        rw [procedures_eq_nil hbody]
        rfl
      · rw [List.append_cons]
        exact hr.after (hl₁.trans (hl₂.trans hl₃))
  | suspended head body stop rest ihb ihm =>
      obtain ⟨hhead, hbody, hstop, hrest⟩ := hfits
      have hlast := (hl.tail.right).head
      have hfirst := hl.head (start.past head.pieces)
        (offset + bytesOf head.pieces)
      rw [List.flatten_append, List.flatten_cons] at hfirst
      unfold Items.pieces Items.chunks at h
      rw [flatten_nested] at h
      obtain ⟨id, opener, s₁, hl₁, h₁⟩ :=
        h.split.suspend env hhead hv hfirst
      obtain ⟨found, hfound, s₂, hl₂, h₂⟩ := ihb (s := s₁) hbody
        (hv.within _ _) (fun hf => by
          rw [openRoutines_cons rfl]
          exact hno hf) ((hl.tail).left _ _) h₁.split
      obtain ⟨s₃, hl₃, h₃⟩ := h₂.split.resume env hstop (hv.within _ _)
        (hlast _ _) rfl
      obtain ⟨added, hadded, hr⟩ := ihm hrest
        (hv.within v.scopes (v.found ++ found)) hno hl.tail.right.tail h₃
      refine ⟨found ++ added, ?_, ?_⟩
      · rw [List.map_append, hfound, hadded]
        rfl
      · rw [← List.append_assoc]
        exact hr.after (hl₁.trans (hl₂.trans hl₃))
  | branch head body stop rest ihb ihm =>
      obtain ⟨hhead, hbody, hstop, hrest⟩ := hfits
      unfold Items.pieces Items.chunks at h
      rw [flatten_nested] at h
      obtain ⟨opener, s₁, hl₁, h₁⟩ := h.split.enter env hhead hv
      obtain ⟨found, hfound, s₂, hl₂, h₂⟩ := ihb (s := s₁) hbody
        (hv.within _ _) (fun hf => by
          rw [openRoutines_cons rfl]
          exact hno hf) ((hl.tail).left _ _) h₁.split
      obtain ⟨s₃, hl₃, h₃⟩ := h₂.split.leave env hstop (hv.within _ _) rfl
      obtain ⟨added, hadded, hr⟩ := ihm hrest
        (hv.within v.scopes (v.found ++ found)) hno hl.tail.right.tail h₃
      refine ⟨found ++ added, ?_, ?_⟩
      · rw [List.map_append, hfound, hadded]
        rfl
      · rw [← List.append_assoc]
        exact hr.after (hl₁.trans (hl₂.trans hl₃))

-- ============================================================== programs

/-- The scope is that of a header, which an `END` would have to close. -/
def OpenedBy (o : OpenScope) : Prop :=
  ∃ opener, o.scope.opener? = some opener
    ∧ State.faultOf? o.scope = some .missingEnd

/-- What is read of a program: its procedures are found, and the scopes of
the headers that nothing closes are open. -/
def ReadsProgram (p : Program) (s : State) (v : View) (start : Position)
    (more : List Token) : Prop :=
  ∃ opened : List OpenScope, ∃ added : List Entry,
    opened.map (·.line) = (p.openLines start).reverse
    ∧ (∀ o ∈ opened, OpenedBy o)
    ∧ added.map (·.found) = p.procedures start
    ∧ Reaches env s { v with
      scopes := opened ++ v.scopes, found := v.found ++ added } more

/-- The header of an opener leaves its scope open. -/
theorem Ready.opener {o : Opener} {inProcedure : Bool}
    (hfits : o.Fits inProcedure) (hv : v.Calm)
    (hno : inProcedure = false → Nesting.openRoutines ⟨v.scopes⟩ = 0)
    (h : Ready s v (tokensFrom start offset o.head.pieces ++ more)) :
    ∃ scope : OpenScope, ∃ added : List Entry,
      scope.line = (start.past o.head.before).line ∧ OpenedBy scope
      ∧ scope.scope.isRoutine = o.isProcedure
      ∧ added.map (·.found)
        = (if o.isProcedure then [⟨o.head.name, none⟩] else [])
      ∧ Reaches env s { v with
        scopes := scope :: v.scopes, found := v.found ++ added } more := by
  cases o with
  | block head =>
      obtain ⟨opener, hr⟩ := h.header env hfits hv
      refine ⟨⟨.block opener head.word none, _⟩, [], rfl, ⟨opener, rfl, rfl⟩,
        rfl, rfl, ?_⟩
      rw [List.append_nil]
      exact hr
  | procedure head =>
      obtain ⟨hout, hhead⟩ := hfits
      obtain ⟨id, opener, -, hr⟩ := h.procedure env hhead hv (hno hout)
      exact ⟨⟨.routine id .procedure "PROCEDURE" opener, _⟩,
        [⟨id, head.name, none⟩], rfl, ⟨opener, rfl, rfl⟩, rfl, rfl, hr⟩

theorem Ready.program {p : Program} {inProcedure : Bool}
    (hfits : p.Fits inProcedure) (hv : v.Calm)
    (hno : inProcedure = false → Nesting.openRoutines ⟨v.scopes⟩ = 0)
    (hl : Lined more p.chunks)
    (h : Ready s v (tokensFrom start offset p.pieces ++ more)) :
    ReadsProgram env p s v start more := by
  induction p generalizing s v start offset inProcedure with
  | closed items =>
      obtain ⟨added, hadded, hr⟩ := h.items env hfits hv hno hl
      exact ⟨[], added, rfl, nofun, hadded, hr⟩
  | unclosed items opener rest ih =>
      obtain ⟨hitems, hopener, hrest⟩ := hfits
      unfold Program.pieces Program.chunks at h
      rw [List.flatten_append, List.flatten_cons] at h
      obtain ⟨found, hfound, s₁, hl₁, h₁⟩ :=
        h.split.items env hitems hv hno (hl.left _ _)
      obtain ⟨scope, extra, hline, hscope, hroutine, hextra, s₂, hl₂, h₂⟩ :=
        h₁.split.opener env hopener
          (hv.within v.scopes (v.found ++ found)) hno
      have hinner : (inProcedure || opener.isProcedure) = false →
          Nesting.openRoutines ⟨scope :: v.scopes⟩ = 0 := by
        intro hf
        rw [Bool.or_eq_false_iff] at hf
        rw [openRoutines_cons (hroutine.trans hf.2)]
        exact hno hf.1
      obtain ⟨opened, added, hlines, hopened, hadded, hr⟩ := ih hrest
        (hv.within (scope :: v.scopes) (v.found ++ found ++ extra)) hinner
        hl.right.tail h₂
      refine ⟨opened ++ [scope], found ++ extra ++ added, ?_, ?_, ?_, ?_⟩
      · rw [List.map_append, hlines, List.map_singleton, hline]
        show _ = List.reverse (_ :: rest.openLines _)
        rw [List.reverse_cons]
        rfl
      · intro o ho
        rcases List.mem_append.1 ho with ho | ho
        · exact hopened o ho
        · rw [List.mem_singleton.1 ho]
          exact hscope
      · rw [List.map_append, List.map_append, hfound, hextra, hadded]
        rfl
      · have hscopes : opened ++ [scope] ++ v.scopes
            = opened ++ scope :: v.scopes := List.append_assoc ..
        have hall : v.found ++ (found ++ extra ++ added)
            = v.found ++ found ++ extra ++ added := by
          rw [List.append_assoc, List.append_assoc, List.append_assoc]
        rw [hscopes, hall]
        exact hr.after (hl₁.trans hl₂)

end AblOutline.Parse
