/-
The ledger of the scopes. Every scope gets a number when it is opened and
stands in the ledger until something closes it. `END`, `&ENDIF` and
`&ANALYZE-RESUME` each look past scopes of other sorts, so a scope may be
closed from the middle of those that stand. A move of the scopes (`Shift`) is
posted to the ledger by an entry (`Ledger.Posts`); after any row of entries
each number is either standing or closed, and that once (`Ledger.Balanced`).
-/
import AblOutline.Nesting.Closing
import AblOutline.Proofs.Change
import Mathlib.Data.List.Perm.Basic

namespace AblOutline.Parse

-- =============================================================== closers

/-- What closes a scope. -/
inductive Closer where
  /-- `END`. -/
  | stop
  | endIf
  | resume
deriving DecidableEq, Repr

/-- The closer closes scopes of that sort. -/
def Closer.Takes : Closer → Scope → Prop
  | .stop, scope => scope.isBlockLike = true
  | .endIf, scope => scope.isConditional = true
  | .resume, scope => scope.isSuspended = true

/-- The closer looks past scopes of that sort. -/
def Closer.Passes : Closer → Scope → Prop
  | .stop, scope => scope.isConditional = true
  | .endIf, scope => scope.isConditional = false
  | .resume, scope => scope.isSuspended = false

theorem Closer.Takes.kind_ne_file {c : Closer} {scope : Scope}
    (h : c.Takes scope) : scope.kind ≠ .file := by
  cases scope with
  | file item => cases c <;> cases h
  | routine item kind keyword opener => cases kind <;> nofun
  | conditional opener active taken => nofun
  | suspended item opener => nofun
  | block opener keyword label => nofun

-- ================================================================= moves

/-- Two records of one scope: an `&IF` may have turned to another branch. -/
structure SameScope (o o' : OpenScope) : Prop where
  kind : o'.scope.kind = o.scope.kind
  item : o'.scope.item? = o.scope.item?
  opener : o'.scope.opener? = o.scope.opener?
  line : o'.line = o.line

theorem SameScope.refl (o : OpenScope) : SameScope o o := ⟨rfl, rfl, rfl, rfl⟩

theorem SameScope.trans {o o' o'' : OpenScope} (h : SameScope o o')
    (h' : SameScope o' o'') : SameScope o o'' :=
  ⟨h'.kind.trans h.kind, h'.item.trans h.item, h'.opener.trans h.opener,
    h'.line.trans h.line⟩

/-- One move of the scopes, the innermost first. -/
inductive Shift : List OpenScope → List OpenScope → Prop where
  | opens {o : OpenScope} (around : List OpenScope)
      (ho : o.scope.kind ≠ .file) : Shift around (o :: around)
  /-- An `&IF` turns to another branch. -/
  | turns {o o' : OpenScope} (within around : List OpenScope)
      (ho : o.scope.kind ≠ .file) (hs : SameScope o o') :
      Shift (within ++ o :: around) (within ++ o' :: around)
  | closes {o : OpenScope} (c : Closer) (within around : List OpenScope)
      (hw : ∀ x ∈ within, c.Passes x.scope) (ho : c.Takes o.scope) :
      Shift (within ++ o :: around) (within ++ around)

/-- The scopes parted from the innermost that satisfies `p` do not. -/
theorem splitScopes_within {p : Scope → Bool}
    {scopes within around : List OpenScope} {found : OpenScope}
    (h : Nesting.splitScopes p scopes = some (within, found, around)) :
    ∀ o ∈ within, p o.scope = false := by
  induction scopes generalizing within with
  | nil => cases h
  | cons o rest ih =>
      rw [Nesting.splitScopes] at h
      split at h
      · cases h
        exact List.forall_mem_nil _
      · rename_i ho
        obtain ⟨⟨within', found', around'⟩, hr, he⟩ :=
          Option.map_eq_some_iff.1 h
        cases he
        intro x hx
        rcases List.mem_cons.1 hx with rfl | hx
        · exact Bool.eq_false_iff.2 ho
        · exact ih hr x hx

theorem splitScopes_eq_none {p : Scope → Bool}
    {scopes : List OpenScope} (h : Nesting.splitScopes p scopes = none) :
    ∀ o ∈ scopes, p o.scope = false := by
  induction scopes with
  | nil => exact List.forall_mem_nil _
  | cons o rest ih =>
      rw [Nesting.splitScopes] at h
      split at h
      · cases h
      · rename_i ho
        intro x hx
        rcases List.mem_cons.1 hx with rfl | hx
        · exact Bool.eq_false_iff.2 ho
        · exact ih (Option.map_eq_none_iff.1 h) x hx

section Nestings

variable {n n' : Nesting} {scope : Scope}

/-- An `&IF` on another branch is the same `&IF`. -/
theorem sameScope_turned {o : OpenScope} (active spent : Bool) :
    SameScope o { o with scope := Nesting.turned active spent o.scope } := by
  obtain ⟨scope, line⟩ := o
  cases scope <;> exact ⟨rfl, rfl, rfl, rfl⟩

theorem shift_turn (active spent : Bool) :
    n.turn active spent = n
      ∨ Shift n.scopes (n.turn active spent).scopes := by
  unfold Nesting.turn
  split
  · rename_i within found around hi
    right
    obtain ⟨he, hp⟩ := Nesting.splitScopes_eq_some hi
    rw [he]
    exact .turns within around (Closer.Takes.kind_ne_file (c := .endIf) hp)
      (sameScope_turned active spent)
  · exact Or.inl rfl

theorem shift_endIf (h : n.endIf? = some n') : Shift n.scopes n'.scopes := by
  obtain ⟨⟨within, found, around⟩, hi, rfl⟩ := Option.map_eq_some_iff.1 h
  obtain ⟨he, hp⟩ := Nesting.splitScopes_eq_some hi
  rw [he]
  exact .closes .endIf within around (splitScopes_within hi) hp

/-- `END` looks past the `&IF`s to the innermost other scope, and closes it if
it is a routine or a block. -/
theorem endBlock?_cases (hf : FileOpen n.scopes) :
    ∃ within o around, n.scopes = within ++ o :: around
      ∧ (∀ x ∈ within, Closer.stop.Passes x.scope)
      ∧ ((Closer.stop.Takes o.scope
            ∧ n.endBlock? = some (o.scope, ⟨within ++ around⟩))
        ∨ (¬ Closer.stop.Passes o.scope ∧ ¬ Closer.stop.Takes o.scope
            ∧ n.endBlock? = none)) := by
  unfold Nesting.endBlock?
  cases hi : n.innermost? (!·.isConditional) with
  | none =>
      -- the file is no `&IF`
      obtain ⟨inner, line, he, -⟩ := hf
      have hfile := splitScopes_eq_none hi ⟨.file 0, line⟩ (by rw [he]; simp)
      cases hfile
  | some parts =>
      obtain ⟨within, o, around⟩ := parts
      obtain ⟨he, hp⟩ := Nesting.splitScopes_eq_some hi
      refine ⟨within, o, around, he, fun x hx => ?_, ?_⟩
      · show x.scope.isConditional = true
        simpa using splitScopes_within hi x hx
      · have ho : o.scope.isConditional = false := by simpa using hp
        dsimp only
        split
        · rename_i hlike
          exact Or.inl ⟨hlike, rfl⟩
        · rename_i hlike
          refine Or.inr ⟨fun hpass => ?_, hlike, rfl⟩
          exact Bool.false_ne_true (ho.symm.trans hpass)

/-- `&ANALYZE-RESUME` closes the innermost editor section. -/
theorem endSection?_cases (n : Nesting) :
    (∃ within o around, n.scopes = within ++ o :: around
        ∧ (∀ x ∈ within, Closer.resume.Passes x.scope)
        ∧ Closer.resume.Takes o.scope
        ∧ n.endSection? = some (o.scope, ⟨within ++ around⟩))
      ∨ ((∀ o ∈ n.scopes, ¬ Closer.resume.Takes o.scope)
        ∧ n.endSection? = none) := by
  unfold Nesting.endSection?
  cases hi : n.innermost? Scope.isSuspended with
  | none =>
      refine Or.inr ⟨fun o ho htakes => ?_, rfl⟩
      have hnot := splitScopes_eq_none hi o ho
      exact Bool.false_ne_true (hnot.symm.trans htakes)
  | some parts =>
      obtain ⟨within, o, around⟩ := parts
      obtain ⟨he, hp⟩ := Nesting.splitScopes_eq_some hi
      exact Or.inl ⟨within, o, around, he, splitScopes_within hi, hp, rfl⟩

end Nestings

-- ================================================================ ledger

/-- A scope that was closed: its number, what it was, what closed it, and the
token at which it was closed. -/
structure Closing where
  number : Nat
  scope : OpenScope
  closer : Closer
  token : Token

/-- The ledger of the scopes of a parse. -/
structure Ledger where
  /-- The scopes as they were opened; each has its place as its number. -/
  opened : List OpenScope
  /-- The scopes that are open with their numbers, the innermost first. -/
  standing : List (Nat × OpenScope)
  closed : List Closing

namespace Ledger

/-- The file has been opened. -/
def start : Ledger := ⟨[⟨.file 0, 0⟩], [(0, ⟨.file 0, 0⟩)], []⟩

/-- The open scopes. -/
def scopes (l : Ledger) : List OpenScope := l.standing.map (·.2)

/-- A move of the scopes is entered at a token. -/
inductive Enters (t : Token) : Ledger → Ledger → Prop where
  | opens (l : Ledger) (o : OpenScope) (ho : o.scope.kind ≠ .file) :
      Enters t l ⟨l.opened ++ [o], (l.opened.length, o) :: l.standing,
        l.closed⟩
  | turns {l : Ledger} {n : Nat} {o o' : OpenScope}
      (within around : List (Nat × OpenScope))
      (hl : l.standing = within ++ (n, o) :: around)
      (hs : SameScope o o') :
      Enters t l { l with standing := within ++ (n, o') :: around }
  | closes {l : Ledger} {n : Nat} {o : OpenScope} (c : Closer)
      (within around : List (Nat × OpenScope))
      (hl : l.standing = within ++ (n, o) :: around)
      (hw : ∀ x ∈ within, c.Passes x.2.scope) (ho : c.Takes o.scope) :
      Enters t l { l with standing := within ++ around
                          closed := l.closed ++ [⟨n, o, c, t⟩] }

/-- At most one move is entered, and the ledger then shows those scopes. -/
structure Posts (t : Token) (l : Ledger) (scopes : List OpenScope)
    (l' : Ledger) : Prop where
  entry : l' = l ∨ Enters t l l'
  scopes : l'.scopes = scopes

/-- Of the numbers given out, each is standing or closed, and that once. -/
structure Balanced (l : Ledger) : Prop where
  numbers : (l.closed.map (·.number) ++ l.standing.map (·.1)).Perm
    (List.range l.opened.length)
  /-- What stands is what was opened under its number. -/
  standing : ∀ x ∈ l.standing, ∃ o, l.opened[x.1]? = some o ∧ SameScope o x.2
  /-- What was closed is what was opened under its number, and was closed by
  what closes scopes of its sort. -/
  closed : ∀ c ∈ l.closed, c.closer.Takes c.scope.scope
    ∧ ∃ o, l.opened[c.number]? = some o ∧ SameScope o c.scope
  /-- The file is opened first and nothing else is a file. -/
  file : ∃ rest, l.opened = ⟨.file 0, 0⟩ :: rest
    ∧ ∀ o ∈ rest, o.scope.kind ≠ .file

theorem balanced_start : start.Balanced := by
  refine ⟨.refl _, fun x hx => ?_, List.forall_mem_nil _, [], rfl,
    List.forall_mem_nil _⟩
  rw [List.mem_singleton.1 hx]
  exact ⟨⟨.file 0, 0⟩, rfl, .refl _⟩

variable {t : Token} {l l' : Ledger}

/-- Every entry keeps the balance. -/
theorem Balanced.enters (h : l.Balanced) (he : Enters t l l') :
    l'.Balanced := by
  obtain ⟨hnumbers, hstanding, hclosed, rest, hfile, hrest⟩ := h
  cases he with
  | opens o ho =>
      have hkept : ∀ {n : Nat} {p : OpenScope}, l.opened[n]? = some p →
          (l.opened ++ [o])[n]? = some p := by
        intro n p hp
        obtain ⟨hlt, -⟩ := List.getElem?_eq_some_iff.1 hp
        rw [List.getElem?_append_left hlt, hp]
      refine ⟨?_, fun x hx => ?_, fun c hc => ?_, rest ++ [o], ?_, ?_⟩
      · rw [List.length_append, List.length_singleton, List.range_succ]
        show (_ ++ l.opened.length :: _).Perm _
        exact List.perm_middle.trans
          ((hnumbers.cons _).trans (List.perm_append_singleton _ _).symm)
      · rcases List.mem_cons.1 hx with rfl | hx
        · exact ⟨o, List.getElem?_concat_length, .refl o⟩
        · obtain ⟨p, hp, hs⟩ := hstanding x hx
          exact ⟨p, hkept hp, hs⟩
      · obtain ⟨htakes, p, hp, hs⟩ := hclosed c hc
        exact ⟨htakes, p, hkept hp, hs⟩
      · show l.opened ++ [o] = _
        rw [hfile]
        rfl
      · intro p hp
        rcases List.mem_append.1 hp with hp | hp
        · exact hrest p hp
        · rw [List.mem_singleton.1 hp]
          exact ho
  | turns within around hl hs =>
      rename_i n o o'
      refine ⟨?_, fun x hx => ?_, hclosed, rest, hfile, hrest⟩
      · rw [hl] at hnumbers
        simpa using hnumbers
      · rcases List.mem_append.1 hx with hx | hx
        · exact hstanding x (by rw [hl]; exact List.mem_append_left _ hx)
        · rcases List.mem_cons.1 hx with rfl | hx
          · obtain ⟨p, hp, hsame⟩ := hstanding (n, o) (by rw [hl]; simp)
            exact ⟨p, hp, hsame.trans hs⟩
          · refine hstanding x ?_
            rw [hl]
            exact List.mem_append_right _ (List.mem_cons_of_mem _ hx)
  | closes c within around hl hw ho =>
      rename_i n o
      refine ⟨?_, fun x hx => ?_, fun d hd => ?_, rest, hfile, hrest⟩
      · rw [hl] at hnumbers
        refine List.Perm.trans ?_ hnumbers
        simp only [List.map_append, List.map_cons, List.map_nil,
          List.append_assoc, List.cons_append, List.nil_append]
        exact List.Perm.append_left _ List.perm_middle.symm
      · refine hstanding x ?_
        rw [hl]
        rcases List.mem_append.1 hx with hx | hx
        · exact List.mem_append_left _ hx
        · exact List.mem_append_right _ (List.mem_cons_of_mem _ hx)
      · rcases List.mem_append.1 hd with hd | hd
        · exact hclosed d hd
        · rw [List.mem_singleton.1 hd]
          exact ⟨ho, hstanding (n, o) (by rw [hl]; simp)⟩

theorem Balanced.posts {scopes : List OpenScope} (h : l.Balanced)
    (hp : Posts t l scopes l') : l'.Balanced := by
  rcases hp.entry with rfl | he
  · exact h
  · exact h.enters he

/-- Every move of the open scopes can be entered. -/
theorem posts_shift {scopes : List OpenScope} (t : Token)
    (h : Shift l.scopes scopes) : ∃ l', Posts t l scopes l' := by
  obtain ⟨opened, standing, closed⟩ := l
  generalize hs : Ledger.scopes ⟨opened, standing, closed⟩ = before at h
  cases h with
  | opens around ho =>
      rename_i o
      refine ⟨_, Or.inr (.opens _ o ho), ?_⟩
      show o :: standing.map (·.2) = o :: before
      rw [← hs]
      rfl
  | turns within around ho hsame =>
      rename_i o o'
      obtain ⟨within', rest, rfl, rfl, hrest⟩ := List.map_eq_append_iff.1 hs
      obtain ⟨⟨n, p⟩, around', rfl, rfl, rfl⟩ := List.map_eq_cons_iff.1 hrest
      refine ⟨_, Or.inr (.turns within' around' rfl hsame), ?_⟩
      exact List.map_append
  | closes c within around hw ho =>
      rename_i o
      obtain ⟨within', rest, rfl, rfl, hrest⟩ := List.map_eq_append_iff.1 hs
      obtain ⟨⟨n, p⟩, around', rfl, rfl, rfl⟩ := List.map_eq_cons_iff.1 hrest
      refine ⟨_, Or.inr (.closes c within' around' rfl ?_ ho), ?_⟩
      · exact fun x hx => hw x.2 (List.mem_map_of_mem hx)
      · exact List.map_append

end Ledger

end AblOutline.Parse
