import EdgeAdmission.PackageGroup

namespace EdgeAdmission

/-- The groups granted, and whether the target was made inside a symbolic macro, which then takes
the place of the package as its boundary. -/
structure Visibility where
  groups : List PackageGroup
  inSymbolicMacro : Bool
  deriving DecidableEq, Repr, Inhabited

namespace Visibility

def everyone : Visibility := ⟨[.everyone], false⟩

def nobody : Visibility := ⟨[], false⟩

def contains (v : Visibility) (p : Package) : Bool := v.groups.any (·.contains p)

def asInSymbolicMacro (v : Visibility) : Visibility := { v with inSymbolicMacro := true }

def extend (v w : Visibility) : Visibility := { v with groups := v.groups ++ w.groups }

def ofTexts (groups : List (List String)) (inSymbolicMacro : Bool) (current : Cell) :
    Except PackageGroupFault Visibility :=
  (groups.mapM (PackageGroup.parse · current)).map (⟨·, inSymbolicMacro⟩)

def spellings (v : Visibility) : List (List String) := v.groups.map (·.spellings)

def display (v : Visibility) : String :=
  "[" ++ ", ".intercalate (v.groups.map (·.display)) ++ "]"

@[simp] theorem contains_extend (v w : Visibility) (p : Package) :
    (v.extend w).contains p = (v.contains p || w.contains p) := by
  simp [contains, extend]

inductive Source
  | value (v : Visibility)
  | written (groups : List (List String)) (inSymbolicMacro : Bool)
  deriving DecidableEq, Repr

def Source.read (current : Cell) : Source → Except PackageGroupFault Visibility
  | value v => .ok v
  | written groups inSymbolicMacro => ofTexts groups inSymbolicMacro current

inductive Change
  | set (source : Source)
  | enterSymbolicMacro
  | extend (source : Source)
  deriving DecidableEq, Repr

def Change.apply (current : Cell) (v : Visibility) : Change → Except PackageGroupFault Visibility
  | set source => source.read current
  | enterSymbolicMacro => .ok v.asInSymbolicMacro
  | extend source => (source.read current).map v.extend

def Change.run (current : Cell) (v : Visibility) (change : Change) : Visibility :=
  match change.apply current v with
  | .ok w => w
  | .error _ => v

def afterChanges (current : Cell) (v : Visibility) (changes : List Change) : Visibility :=
  changes.foldl (Change.run current) v

end Visibility

end EdgeAdmission
