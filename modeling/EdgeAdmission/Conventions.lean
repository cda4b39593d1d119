import EdgeAdmission.Resolver
import EdgeAdmission.Settings.Basic

/-! Conventions of a repository, written as settings: the roots below which packages are
experimental, and the pairs of roots below which packages at one place count as one. -/

namespace EdgeAdmission

inductive ConventionsFault
  | setting (fault : SettingError)
  | path (key : Setting.Key) (fault : PathFault)
  | malformedPair (key : Setting.Key) (entry : String)
  deriving DecidableEq, Repr

def ConventionsFault.message : ConventionsFault → String
  | setting fault => fault.message
  | path key fault => "Reading `" ++ key.display ++ "`: " ++ fault.message
  | malformedPair key entry =>
    "Expected `<path>=<path>` in `" ++ key.display ++ "`, got `" ++ entry ++ "`"

structure Conventions where
  experimentalRoots : List PackagePath
  checksExperimental : Bool
  checksToolchains : Bool
  logicalPairs : List (PackagePath × PackagePath)
  deriving DecidableEq, Repr

namespace Conventions

def standard : Conventions where
  experimentalRoots := [⟨"experimental", by decide +kernel⟩]
  checksExperimental := false
  checksToolchains := true
  logicalPairs := []

def rootsKey : Setting.Key := .ofCheck "experimental_roots"

def pairsKey : Setting.Key := .ofCheck "logical_package_pairs"

def parsePair (entry : String) : Except ConventionsFault (PackagePath × PackagePath) :=
  match Text.cut? '=' entry.toList with
  | none => .error (.malformedPair pairsKey entry)
  | some (left, right) => do
    let left ← (PackagePath.parse (.ofList (Text.trim left))).mapError (.path pairsKey)
    let right ← (PackagePath.parse (.ofList (Text.trim right))).mapError (.path pairsKey)
    return (left, right)

def parseRoots (entries : List String) : Except ConventionsFault (List PackagePath) :=
  entries.mapM fun entry => (PackagePath.parse entry).mapError (.path rootsKey)

def ofSettings (settings : Settings) : Except ConventionsFault Conventions := do
  let roots ←
    match settings.list? rootsKey with
    | none => .ok standard.experimentalRoots
    | some entries => parseRoots entries
  let experimental ←
    (settings.value? .truth (.ofCheck "check_visibility_for_experimental")).mapError .setting
  let toolchains ←
    (settings.value? .truth (.ofCheck "check_visibility_for_toolchains")).mapError .setting
  let pairs ← ((settings.list? pairsKey).getD []).mapM parsePair
  return {
    experimentalRoots := roots
    checksExperimental := experimental.getD standard.checksExperimental
    checksToolchains := toolchains.getD standard.checksToolchains
    logicalPairs := pairs }

def corresponds (left right p q : PackagePath) : Bool :=
  match p.rest? left, q.rest? right with
  | some p, some q => p = q
  | _, _ => false

def isSameLogicalPackage (c : Conventions) (p q : Package) : Bool :=
  p = q ||
    p.cell = q.cell && c.logicalPairs.any fun (left, right) =>
      corresponds left right p.path q.path || corresponds right left p.path q.path

def isExperimental (c : Conventions) (p : Package) : Bool :=
  c.experimentalRoots.any fun root => p.path.isAtOrBelow root

def policy (c : Conventions) : Policy where
  isSameLogicalPackage := c.isSameLogicalPackage
  isExperimental := c.isExperimental
  checksExperimental _ := c.checksExperimental
  checksToolchain _ _ := c.checksToolchains

theorem isSameLogicalPackage_self (c : Conventions) (p : Package) :
    c.isSameLogicalPackage p p = true := by
  simp [isSameLogicalPackage]

theorem isExperimental_iff {c : Conventions} {p : Package} :
    c.isExperimental p = true ↔ ∃ root ∈ c.experimentalRoots, p.path.isAtOrBelow root = true :=
  List.any_eq_true

end Conventions

end EdgeAdmission
