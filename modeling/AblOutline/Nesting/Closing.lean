/-
What directives and `END` do to the open scopes.

Each open `&IF` remembers whether its current branch is taken and whether one of
its branches was; another branch may be taken only when none was and every `&IF`
around is on a taken branch. `END` looks past the `&IF`s that are open within a
block, but not past the file or an editor section.
-/
import AblOutline.Nesting
namespace AblOutline.Nesting

-- ============================================================= branches

/-- Opens an `&IF` whose first branch is taken or not. -/
def openIf (n : Nesting) (opener : Token) (line : Nat) (taken : Bool) : Nesting :=
  n.push (.conditional opener taken taken) line

/-- A branch of that `&IF` was taken. -/
def wasTaken : Scope → Bool
  | .conditional _ _ taken => taken
  | _ => false

/-- The innermost `&IF` may take another branch; nothing when no `&IF` is
open. -/
def mayTurn? (n : Nesting) : Option Bool :=
  (n.innermost? Scope.isConditional).map fun (_, found, around) =>
    allActive around && !wasTaken found.scope

/-- The `&IF` on its next branch, which is taken or not; `spent` says that no
later branch may be taken either. -/
def turned (active spent : Bool) : Scope → Scope
  | .conditional opener _ taken => .conditional opener active (taken || spent)
  | scope => scope

/-- Puts the innermost `&IF` on its next branch. -/
def turn (n : Nesting) (active spent : Bool) : Nesting :=
  match n.innermost? Scope.isConditional with
  | some (within, found, around) =>
    ⟨within ++ { found with scope := turned active spent found.scope } :: around⟩
  | none => n

/-- Closes the innermost `&IF` and leaves all other scopes open. -/
def endIf? (n : Nesting) : Option Nesting :=
  (n.innermost? Scope.isConditional).map fun (within, _, around) => ⟨within ++ around⟩

-- ============================================================== endings

/-- The innermost scope that is no `&IF`, where `END` can close it, and the
scopes without it. -/
def endBlock? (n : Nesting) : Option (Scope × Nesting) :=
  match n.innermost? (!·.isConditional) with
  | some (within, found, around) =>
    if found.scope.isBlockLike then some (found.scope, ⟨within ++ around⟩) else none
  | none => none

/-- The innermost editor section and the scopes without it. -/
def endSection? (n : Nesting) : Option (Scope × Nesting) :=
  (n.innermost? Scope.isSuspended).map fun (within, found, around) =>
    (found.scope, ⟨within ++ around⟩)

end AblOutline.Nesting
