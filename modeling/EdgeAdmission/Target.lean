import EdgeAdmission.Label
import EdgeAdmission.RuleClass
import EdgeAdmission.Visibility

namespace EdgeAdmission

structure MacroClass where
  name : String
  file : ExtensionFile
  isFinalizer : Bool
  deriving DecidableEq, Repr, Inhabited

def MacroClass.location (c : MacroClass) : Package := c.file.package

/-- A call made, directly or through other macros, in the build file of `package`, with the labels
that the caller wrote among its arguments. -/
structure MacroCall where
  name : String
  macroClass : MacroClass
  package : Package
  arguments : List Label
  deriving DecidableEq, Repr, Inhabited

namespace MacroCall

def wasGiven (m : MacroCall) (l : Label) : Bool := l ∈ m.arguments

def labels (m : MacroCall) : List Label := m.arguments.eraseDups

def display (m : MacroCall) : String :=
  "macro '" ++ m.name ++ "' (" ++ m.macroClass.name ++ ") in " ++ m.package.display

end MacroCall

inductive TargetKind
  | rule (rule : RuleClass)
  | packageGroup
  | sourceFile
  | generatedFile (generator : Label)
  deriving DecidableEq, Repr, Inhabited

namespace TargetKind

def rule? : TargetKind → Option RuleClass
  | rule r => some r
  | _ => none

def generator? : TargetKind → Option Label
  | generatedFile l => some l
  | _ => none

def isSame : TargetKind → TargetKind → Bool
  | rule r, rule s => r.isSame s
  | packageGroup, packageGroup => true
  | sourceFile, sourceFile => true
  | generatedFile l, generatedFile m => l = m
  | _, _ => false

def display : TargetKind → String
  | rule r => r.name ++ " rule"
  | packageGroup => "package group"
  | sourceFile => "source file"
  | generatedFile _ => "generated file"

end TargetKind

structure Target where
  label : Label
  kind : TargetKind
  nesting : List MacroCall
  isTestonly : Bool
  deprecation : Option String
  visibility : Visibility
  deriving DecidableEq, Repr, Inhabited

namespace Target

def package (t : Target) : Package := t.label.package

def isPackageGroup (t : Target) : Bool := t.kind = .packageGroup

def isSourceFile (t : Target) : Bool := t.kind = .sourceFile

def isSame (t u : Target) : Bool := t.label = u.label

end Target

end EdgeAdmission
