import EdgeAdmission.CheckOptions
import EdgeAdmission.Finding
import EdgeAdmission.Resolver

/-! The checks of a dependency edge. Each one looks at the edge alone and says at most one thing. -/

namespace EdgeAdmission

inductive Diagnostic
  | error (message : String)
  | warning (message : String)
  | attributeError (attributeName message : String)
  deriving DecidableEq, Repr

namespace Diagnostic

def isError : Diagnostic → Bool
  | warning _ => false
  | _ => true

def message : Diagnostic → String
  | error m => m
  | warning m => m
  | attributeError _ m => m

def display : Diagnostic → String
  | error m => "error: " ++ m
  | warning m => "warning: " ++ m
  | attributeError name m => "error in attribute `" ++ name ++ "`: " ++ m

end Diagnostic

namespace Check

variable (policy : Policy) (options : CheckOptions) (e : Edge)

def location : Option Diagnostic :=
  let consumer := e.consumer.label
  let prerequisite := e.prerequisite.target.label
  if policy.isExperimental prerequisite.package && !policy.isExperimental consumer.package then
    if options.allowsExperimental then
      some (.warning (Finding.toleratedExperimentalDependency consumer prerequisite).message)
    else some (.error (Finding.experimentalDependency consumer prerequisite).message)
  else none

def groupAttributes : List String := [Attribute.visibilityName, Attribute.transitionAllowlistName]

def packageGroup : Option Diagnostic :=
  if e.prerequisite.target.isPackageGroup && !groupAttributes.contains e.via.name &&
      !e.effectiveAttribute.required.acceptsPackages then
    some <| .attributeError e.via.name <|
      (Finding.misplacedPackageGroup e.via.name e.rule.name e.consumer.label e.prerequisite).message
  else none

/-- Whether visibility binds the edge at all. Late-bound attributes and, if the policy says so,
toolchains are exempt. For an aspect only its own implicit attributes count: the others are checked
for the rule, or for the aspect that they belong to. -/
def bindsVisibility : Bool :=
  options.checksVisibility && !e.via.isLateBound &&
    !(e.via.name = Attribute.toolchainsName &&
      !policy.checksToolchain e.consumer e.prerequisite.target.label) &&
    e.aspect?.all fun a => e.via.isImplicit && a.defines e.via.name

def author? : Option ExtensionFile :=
  if e.via.isImplicit && e.via.name ≠ Attribute.configDependenciesName then e.owner.file?
  else none

def resolver : Resolver where
  policy := policy
  checksExperimental := policy.checksExperimental e.consumer
  maxMacroDepth := options.maxMacroDepth

def verdict : Verdict :=
  let r := resolver policy options e
  let asConsumer := r.atDeclaration e.prerequisite (.target e.consumer)
  match author? e with
  | some file => (r.atLocation e.prerequisite file.package).orElse asConsumer
  | none => asConsumer

def grantee : String :=
  match author? e with
  | some file => file.display
  | none => e.consumer.label.display

def visibility : Option Diagnostic :=
  if bindsVisibility policy options e then
    match verdict policy options e with
    | .granted => none
    | .denied => some (.error (Finding.notVisible e.prerequisite (grantee e)).message)
    | .unresolved cause => some (.error (Finding.unresolved cause).message)
  else none

def testonlyFinding? : Option Finding :=
  match e.prerequisite.target.kind.generator? with
  | none => some (.testonlyTarget e.consumer.label e.prerequisite)
  | some generator =>
    if options.checksOutputFiles then
      some (.testonlyOutputFile e.consumer.label e.prerequisite generator)
    else none

/-- Only testonly targets may depend on testonly targets. A rule that forwards its target is not
checked, because whoever depends on it is checked against that target. -/
def testonly : Option Diagnostic :=
  if !e.rule.canHaveAnyProvider && e.prerequisite.target.isTestonly && !e.consumer.isTestonly then
    (testonlyFinding? options e).map fun finding =>
      if policy.isExperimental e.consumer.package then .warning finding.message
      else .error finding.message
  else none

def deprecationFinding (notice : String) : Finding :=
  match e.prerequisite.target.kind.generator? with
  | some generator =>
    .deprecatedOutputFile e.consumer.label e.prerequisite.target.label generator notice
  | none => .deprecatedTarget e.consumer.label e.prerequisite.label notice

def deprecation : Option Diagnostic :=
  if e.aspect?.isSome || e.consumer.deprecation.isSome ||
      policy.isSameLogicalPackage e.consumer.package e.prerequisite.label.package then
    none
  else
    e.prerequisite.target.deprecation.map fun notice =>
      .warning (deprecationFinding e notice).message

end Check

end EdgeAdmission
