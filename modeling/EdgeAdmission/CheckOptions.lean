import EdgeAdmission.Settings.Basic

namespace EdgeAdmission

/-- A datum. A number written without fraction and exponent is an integer, all others are reals and
keep the text they are written in. -/
inductive Datum
  | null
  | truth (value : Bool)
  | integer (value : Int)
  | real (literal : String)
  | text (value : String)
  | list (items : List Datum)
  | record (fields : List (String × Datum))
  deriving Repr

namespace Datum

def field? (name : String) : Datum → Option Datum
  | record fields => (fields.reverse.find? fun field => field.1 = name).map (·.2)
  | _ => none

def truth? : Datum → Option Bool
  | truth b => some b
  | _ => none

def natural? (limit : Nat) : Datum → Option Nat
  | integer i => if 0 ≤ i ∧ i ≤ limit then some i.toNat else none
  | _ => none

end Datum

structure CheckOptions where
  checksVisibility : Bool
  allowsExperimental : Bool
  checksOutputFiles : Bool
  maxMacroDepth : Nat
  deriving DecidableEq, Repr

namespace CheckOptions

def standard : CheckOptions where
  checksVisibility := true
  allowsExperimental := false
  checksOutputFiles := true
  maxMacroDepth := 100

def wordLimit : Nat := 18446744073709551615

def ofSettings (settings : Settings) : Except SettingError CheckOptions := do
  let visibility ← settings.value? .truth (.ofCheck "check_visibility")
  let experimental ← settings.value? .truth (.ofCheck "experimental_deps_ok")
  let outputFiles ← settings.value? .truth (.ofCheck "check_testonly_for_output_files")
  let depth ← settings.value? (.natural wordLimit) (.ofCheck "max_macro_depth")
  return {
    checksVisibility := visibility.getD standard.checksVisibility
    allowsExperimental := experimental.getD standard.allowsExperimental
    checksOutputFiles := outputFiles.getD standard.checksOutputFiles
    maxMacroDepth := depth.getD standard.maxMacroDepth }

def toDatum (o : CheckOptions) : Datum :=
  .record [
    ("check_visibility", .truth o.checksVisibility),
    ("experimental_deps_ok", .truth o.allowsExperimental),
    ("check_testonly_for_output_files", .truth o.checksOutputFiles),
    ("max_macro_depth", .integer o.maxMacroDepth)]

def ofFields? (visibility experimental outputFiles depth : Datum) : Option CheckOptions := do
  let visibility ← visibility.truth?
  let experimental ← experimental.truth?
  let outputFiles ← outputFiles.truth?
  let depth ← depth.natural? wordLimit
  return ⟨visibility, experimental, outputFiles, depth⟩

def ofDatum? (d : Datum) : Option CheckOptions :=
  match d with
  | .list [visibility, experimental, outputFiles, depth] =>
    ofFields? visibility experimental outputFiles depth
  | _ => do
    let visibility ← d.field? "check_visibility"
    let experimental ← d.field? "experimental_deps_ok"
    let outputFiles ← d.field? "check_testonly_for_output_files"
    let depth ← d.field? "max_macro_depth"
    ofFields? visibility experimental outputFiles depth

theorem ofDatum?_toDatum {o : CheckOptions} (h : o.maxMacroDepth ≤ wordLimit) :
    ofDatum? o.toDatum = some o := by
  have h' : (o.maxMacroDepth : Int) ≤ wordLimit := by exact_mod_cast h
  simp [ofDatum?, toDatum, ofFields?, Datum.field?, Datum.truth?, Datum.natural?, h']

end CheckOptions

end EdgeAdmission
