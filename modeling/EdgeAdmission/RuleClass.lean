import EdgeAdmission.ExtensionFile

namespace EdgeAdmission

/-- Lists of providers, of which a target must have one in full. No list at all accepts any target. -/
structure ProviderRequirement where
  alternatives : List (List String)
  deriving DecidableEq, Repr, Inhabited

namespace ProviderRequirement

def acceptAny : ProviderRequirement := ⟨[]⟩

def allOf (providers : List String) : ProviderRequirement := ⟨[providers]⟩

def packageProviders : List String := ["PackageSpecificationProvider", "PackageSpecificationInfo"]

def acceptsPackages (r : ProviderRequirement) : Bool :=
  r.alternatives.any fun alternative => alternative.any (packageProviders.contains ·)

def display (r : ProviderRequirement) : String :=
  if r.alternatives.isEmpty then "no providers required"
  else
    " or ".intercalate <|
      r.alternatives.map fun alternative => "[" ++ ", ".intercalate alternative ++ "]"

end ProviderRequirement

inductive AttributeFault
  | emptyName
  deriving DecidableEq, Repr

def AttributeFault.message : AttributeFault → String
  | emptyName => "Attribute name must be non-empty"

structure Attribute where
  name : String
  required : ProviderRequirement
  nonempty : name ≠ ""
  deriving DecidableEq, Repr

instance : Inhabited Attribute := ⟨⟨"deps", .acceptAny, by decide⟩⟩

namespace Attribute

def ofName (name : String) (required : ProviderRequirement) : Except AttributeFault Attribute :=
  if h : name = "" then .error .emptyName else .ok ⟨name, required, h⟩

def visibilityName : String := "visibility"

def transitionAllowlistName : String := "$allowlist_function_transition"

def configDependenciesName : String := "$config_dependencies"

def toolchainsName : String := "$toolchains"

def isImplicit (a : Attribute) : Bool := a.name.toList.head? = some '$'

def isLateBound (a : Attribute) : Bool := a.name.toList.head? = some ':'

def display (a : Attribute) : String := a.name ++ " (" ++ a.required.display ++ ")"

end Attribute

inductive Definition
  | builtin
  | scripted (file : ExtensionFile)
  deriving DecidableEq, Repr, Inhabited

namespace Definition

def file? : Definition → Option ExtensionFile
  | builtin => none
  | scripted file => some file

def display : Definition → String
  | builtin => "builtin"
  | scripted file => file.display

end Definition

structure RuleClass where
  name : String
  definition : Definition
  canHaveAnyProvider : Bool
  attributes : List Attribute
  deriving DecidableEq, Repr, Inhabited

namespace RuleClass

def attribute? (rule : RuleClass) (name : String) : Option Attribute :=
  rule.attributes.reverse.find? fun a => a.name = name

def isSame (r s : RuleClass) : Bool := r.name = s.name && r.definition = s.definition

end RuleClass

structure AspectClass where
  name : String
  definition : Definition
  attributes : List String
  deriving DecidableEq, Repr, Inhabited

def AspectClass.defines (a : AspectClass) (name : String) : Bool := name ∈ a.attributes

end EdgeAdmission
