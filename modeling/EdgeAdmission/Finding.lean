import EdgeAdmission.Edge
import EdgeAdmission.Verdict

namespace EdgeAdmission

inductive Finding
  | experimentalDependency (consumer prerequisite : Label)
  | toleratedExperimentalDependency (consumer prerequisite : Label)
  | misplacedPackageGroup (attributeName ruleName : String) (consumer : Label)
      (prerequisite : Prerequisite)
  | notVisible (prerequisite : Prerequisite) (grantee : String)
  | unresolved (cause : Unresolved)
  | testonlyTarget (consumer : Label) (prerequisite : Prerequisite)
  | testonlyOutputFile (consumer : Label) (prerequisite : Prerequisite) (generator : Label)
  | deprecatedTarget (consumer prerequisite : Label) (notice : String)
  | deprecatedOutputFile (consumer prerequisite generator : Label) (notice : String)
  deriving DecidableEq, Repr

namespace Finding

def recommendation : String :=
  "Recommendation: modify the visibility declaration if you think the dependency is legitimate. " ++
    "For more info see https://buck2.build/docs/concepts/visibility/"

def sourceFileHint : String :=
  ". To set the visibility of that source file target, use the exports_files() function"

def message : Finding → String
  | experimentalDependency consumer prerequisite =>
    "non-experimental target '" ++ consumer.display ++ "' depends on experimental target '" ++
      prerequisite.display ++ "' (you may not check in such a dependency, though you can test " ++
      "against it by setting `depcheck.experimental_deps_ok`)"
  | toleratedExperimentalDependency consumer prerequisite =>
    "non-experimental target '" ++ consumer.display ++ "' depends on experimental target '" ++
      prerequisite.display ++ "' (ignored due to `depcheck.experimental_deps_ok`; do not submit)"
  | misplacedPackageGroup attributeName ruleName consumer prerequisite =>
    "in " ++ attributeName ++ " attribute of " ++ ruleName ++ " rule " ++ consumer.display ++ ": " ++
      prerequisite.describeWithKind ++
      " is misplaced here (they are only allowed in the visibility attribute)"
  | notVisible prerequisite grantee =>
    "Visibility error:\n" ++ prerequisite.describe ++ " is not visible from\ntarget '" ++ grantee ++
      "'\n" ++ recommendation ++ (if prerequisite.target.isSourceFile then sourceFileHint else "")
  | unresolved cause => cause.message
  | testonlyTarget consumer prerequisite =>
    "non-test target '" ++ consumer.display ++ "' depends on testonly " ++ prerequisite.describe ++
      " and doesn't have testonly attribute set"
  | testonlyOutputFile consumer prerequisite generator =>
    "non-test target '" ++ consumer.display ++ "' depends on the output file " ++
      prerequisite.describe ++ " of a testonly rule " ++ generator.display ++
      " and doesn't have testonly attribute set"
  | deprecatedTarget consumer prerequisite notice =>
    "target '" ++ consumer.display ++ "' depends on deprecated target '" ++ prerequisite.display ++
      "': " ++ notice
  | deprecatedOutputFile consumer prerequisite generator notice =>
    "target '" ++ consumer.display ++ "' depends on the output file " ++ prerequisite.display ++
      " of a deprecated rule '" ++ generator.display ++ "': " ++ notice

end Finding

end EdgeAdmission
