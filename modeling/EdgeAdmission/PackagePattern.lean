import EdgeAdmission.Package

/-! Patterns of packages: one package, all packages at or below one, or all packages of all cells. -/

namespace EdgeAdmission

inductive PackagePatternFault
  | empty
  | unexpectedFormat (text : String)
  | containsTarget (text : String)
  | cell (fault : CellFault)
  | path (fault : PathFault)
  deriving DecidableEq, Repr

def PackagePatternFault.message : PackagePatternFault → String
  | empty => "Package specification is empty"
  | unexpectedFormat text =>
    "Invalid package specification `" ++ text ++
      "`: expected `//pkg`, `//pkg/...`, `public` or `private`"
  | containsTarget text =>
    "Invalid package specification `" ++ text ++ "`: targets (`:`) are not allowed here"
  | cell fault => fault.message
  | path fault => fault.message

inductive PackagePattern
  | exactly (package : Package)
  | beneath (package : Package)
  | everything
  deriving DecidableEq, Repr

namespace PackagePattern

def wildcard : List Char := ['.', '.', '.']

def dropWildcard (path : List Char) : List Char × Bool :=
  if path = wildcard then ([], true)
  else
    match ('/' :: wildcard).isSuffixOf? path with
    | some path => (path, true)
    | none => (path, false)

def parse (text : String) (current : Cell) : Except PackagePatternFault PackagePattern :=
  if text = "" then .error .empty
  else if text = "public" then .ok everything
  else if ':' ∈ text.toList then .error (.containsTarget text)
  else
    match Text.cutDouble? '/' text.toList with
    | none => .error (.unexpectedFormat text)
    | some (reference, path) => do
      let cell ← (Cell.resolve reference current).mapError .cell
      let (path, isSubtree) := dropWildcard path
      if wildcard ∈ path.splitOn '/' then .error (.unexpectedFormat text)
      else
        let path ← (PackagePath.parse (.ofList path)).mapError .path
        return if isSubtree then beneath ⟨cell, path⟩ else exactly ⟨cell, path⟩

def display : PackagePattern → String
  | exactly p => p.display
  | beneath p => if p.path.isRoot then p.cell.name ++ "//..." else p.display ++ "/..."
  | everything => "public"

def contains : PackagePattern → Package → Bool
  | exactly p, q => p = q
  | beneath p, q => q.isAtOrBelow p
  | everything, _ => true

end PackagePattern

end EdgeAdmission
