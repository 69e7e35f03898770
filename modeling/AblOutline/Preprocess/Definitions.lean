/-
The names that `&GLOBAL-DEFINE` and `&SCOPED-DEFINE` have given a value.
A scoped definition belongs to a file and is seen from that file and from the
files it includes; the nearest file that defines a name wins, and any scoped
definition wins over the global one. Case does not matter.
-/
import AblOutline.Text.Case
namespace AblOutline.Preprocess

/-- Where the value of a name comes from. -/
inductive Origin where
  | global
  | scoped
  | argument
deriving DecidableEq, Repr, Inhabited

/-- What `DEFINED(name)` answers for a name of that origin. -/
def Origin.level : Origin → Nat
  | .global => 1
  | .scoped => 2
  | .argument => 3

/-- The name of the origin in reports. -/
def Origin.name : Origin → String
  | .global => "Global"
  | .scoped => "Scoped"
  | .argument => "Argument"

/-- The definitions that are in force. -/
structure Definitions where
  /-- Values by name; of two entries the first counts. -/
  everywhere : List (String × String) := []
  /-- Values by file and name; of two entries the first counts. -/
  inFiles : List ((Nat × String) × String) := []
deriving Repr, Inhabited

namespace Definitions

/-- Gives `name` a value everywhere. -/
def defineGlobal (d : Definitions) (name value : String) : Definitions :=
  { d with everywhere := (Text.lower name, value) :: d.everywhere }

/-- Gives `name` a value in file `owner`. -/
def defineScoped (d : Definitions) (owner : Nat) (name value : String) : Definitions :=
  { d with inFiles := ((owner, Text.lower name), value) :: d.inFiles }

/-- The value that file `owner` gives `name`. -/
def scoped? (d : Definitions) (owner : Nat) (name : String) : Option String :=
  d.inFiles.lookup (owner, Text.lower name)

/-- The value that `name` has everywhere. -/
def global? (d : Definitions) (name : String) : Option String :=
  d.everywhere.lookup (Text.lower name)

/-- The nearest file of `chain` that defines `name`. -/
def definer? (d : Definitions) (name : String) (chain : List Nat) : Option Nat :=
  chain.find? fun owner => (d.scoped? owner name).isSome

/-- The value of `name` as the first file of `chain` sees it, each file being
included by the next. -/
def lookup (d : Definitions) (name : String) (chain : List Nat) : Option (String × Origin) :=
  match chain.findSome? (d.scoped? · name) with
  | some value => some (value, .scoped)
  | none => (d.global? name).map (·, .global)

/-- Takes back the definition of `name` that the first file of `chain` sees,
and no other. -/
def undefine (d : Definitions) (name : String) (chain : List Nat) : Definitions :=
  match d.definer? name chain with
  | some owner => { d with inFiles := d.inFiles.filter (·.1 != (owner, Text.lower name)) }
  | none => { d with everywhere := d.everywhere.filter (·.1 != Text.lower name) }

/-- The first file of `chain` sees a definition of `name`. -/
def defines (d : Definitions) (name : String) (chain : List Nat) : Bool :=
  (d.lookup name chain).isSome

-- ================================================================= laws

theorem scoped?_defineScoped (d : Definitions) (owner : Nat) (name value : String) (o : Nat)
    (n : String) :
    (d.defineScoped owner name value).scoped? o n =
      if o = owner ∧ Text.lower n = Text.lower name then some value else d.scoped? o n := by
  simp only [scoped?, defineScoped, List.lookup_cons]
  by_cases h : o = owner ∧ Text.lower n = Text.lower name
  · simp [h.1, h.2]
  · have : ((o, Text.lower n) == (owner, Text.lower name)) = false := by simpa using h
    simp [this, h]

theorem global?_defineGlobal (d : Definitions) (name value n : String) :
    (d.defineGlobal name value).global? n =
      if Text.lower n = Text.lower name then some value else d.global? n := by
  simp only [global?, defineGlobal, List.lookup_cons]
  by_cases h : Text.lower n = Text.lower name
  · simp [h]
  · have : (Text.lower n == Text.lower name) = false := by simpa using h
    simp [this, h]

@[simp] theorem global?_defineScoped (d : Definitions) (owner : Nat) (name value n : String) :
    (d.defineScoped owner name value).global? n = d.global? n := rfl

@[simp] theorem scoped?_defineGlobal (d : Definitions) (name value : String) (o : Nat)
    (n : String) : (d.defineGlobal name value).scoped? o n = d.scoped? o n := rfl

end Definitions

end AblOutline.Preprocess
