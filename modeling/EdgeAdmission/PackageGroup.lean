import EdgeAdmission.PackagePattern

/-! Package groups: the packages that some included pattern contains and no excluded one does. -/

namespace EdgeAdmission

inductive PackageGroupFault
  | cannotNegate (name : String)
  | pattern (fault : PackagePatternFault)
  deriving DecidableEq, Repr

def PackageGroupFault.message : PackageGroupFault → String
  | cannotNegate name => "`" ++ name ++ "` cannot be negated"
  | pattern fault => fault.message

inductive PackageGroup.Entry
  | nothing
  | included (pattern : PackagePattern)
  | excluded (pattern : PackagePattern)
  deriving DecidableEq, Repr

structure PackageGroup where
  included : List PackagePattern
  excluded : List PackagePattern
  deriving DecidableEq, Repr

namespace PackageGroup

def Entry.parse (text : String) (current : Cell) : Except PackageGroupFault Entry :=
  match text.toList with
  | '-' :: negated =>
    let negated := String.ofList negated
    if negated = "public" ∨ negated = "private" then .error (.cannotNegate negated)
    else ((PackagePattern.parse negated current).mapError .pattern).map .excluded
  | _ =>
    if text = "private" then .ok .nothing
    else ((PackagePattern.parse text current).mapError .pattern).map .included

def empty : PackageGroup := ⟨[], []⟩

def everyone : PackageGroup := ⟨[.everything], []⟩

def insert (group : PackageGroup) : Entry → PackageGroup
  | .nothing => group
  | .included pattern => { group with included := pattern :: group.included }
  | .excluded pattern => { group with excluded := pattern :: group.excluded }

def parse (texts : List String) (current : Cell) : Except PackageGroupFault PackageGroup :=
  match texts with
  | [] => .ok empty
  | text :: texts => do
    let entry ← Entry.parse text current
    let group ← parse texts current
    return group.insert entry

def contains (group : PackageGroup) (p : Package) : Bool :=
  group.included.any (·.contains p) && !group.excluded.any (·.contains p)

def isEmpty (group : PackageGroup) : Bool := group.included.isEmpty

def spellings (group : PackageGroup) : List String :=
  group.included.map (·.display) ++ group.excluded.map ("-" ++ ·.display)

def display (group : PackageGroup) : String :=
  "[" ++ ", ".intercalate (group.spellings.map fun text => "\"" ++ text ++ "\"") ++ "]"

end PackageGroup

end EdgeAdmission
