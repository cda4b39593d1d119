import EdgeAdmission.Settings.Line
import EdgeAdmission.Settings.Scalar

/-! Settings read from a text of sections and assignments. All assignments are kept in the order of
the text; of several to one key the last one counts. -/

namespace EdgeAdmission

structure Setting.Key where
  sectionName : String
  property : String
  deriving DecidableEq, Repr

def Setting.Key.display (key : Setting.Key) : String := key.sectionName ++ "." ++ key.property

def Setting.Key.ofCheck (property : String) : Setting.Key := ⟨"depcheck", property⟩

structure Setting where
  key : Setting.Key
  value : String
  line : Nat
  deriving DecidableEq, Repr

structure Settings where
  path : String
  assignments : List Setting
  deriving DecidableEq, Repr

structure SettingsError where
  path : String
  line : Nat
  fault : LineFault
  deriving DecidableEq, Repr

def SettingsError.message (e : SettingsError) : String :=
  "Error parsing `" ++ e.path ++ "` at line " ++ e.line.repr ++ ": " ++ e.fault.message

structure SettingError where
  path : String
  setting : Setting
  fault : ScalarFault
  deriving DecidableEq, Repr

def SettingError.message (e : SettingError) : String :=
  "Reading buckconfig at " ++ e.path ++ ":" ++ e.setting.line.repr ++ ": Invalid value `" ++
    e.setting.value ++ "` for `" ++ e.setting.key.display ++ "`: " ++ e.fault.message

namespace Settings

def empty : Settings := ⟨"", []⟩

def assignmentsOf (current : Option String) (n : Nat) :
    List (List Char) → Except (Nat × LineFault) (List Setting)
  | [] => .ok []
  | line :: lines =>
    match Line.read line with
    | .error fault => .error (n, fault)
    | .ok .insignificant => assignmentsOf current (n + 1) lines
    | .ok (.header name) => assignmentsOf (some name) (n + 1) lines
    | .ok (.assignment property value) =>
      match current with
      | none => .error (n, .keyOutsideSection (.ofList (Text.trim line)))
      | some name =>
        (assignmentsOf current (n + 1) lines).map (⟨⟨name, property⟩, value, n⟩ :: ·)

def parse (text path : String) : Except SettingsError Settings :=
  match assignmentsOf none 1 (text.toList.splitOn '\n') with
  | .error (line, fault) => .error ⟨path, line, fault⟩
  | .ok assignments => .ok ⟨path, assignments⟩

def find? (settings : Settings) (key : Setting.Key) : Option Setting :=
  settings.assignments.reverse.find? fun setting => setting.key = key

def get? (settings : Settings) (key : Setting.Key) : Option String :=
  (settings.find? key).map (·.value)

def value? {α : Type} (settings : Settings) (read : Reader α) (key : Setting.Key) :
    Except SettingError (Option α) :=
  match settings.find? key with
  | none => .ok none
  | some setting =>
    match Reader.lenient read setting.value with
    | .ok v => .ok (some v)
    | .error fault => .error ⟨settings.path, setting, fault⟩

def items (raw : String) : List String :=
  (((raw.toList.splitOn ',').map Text.trim).filter (· ≠ [])).map .ofList

def list? (settings : Settings) (key : Setting.Key) : Option (List String) :=
  (settings.get? key).map items

theorem find?_key {settings : Settings} {key : Setting.Key} {setting : Setting}
    (h : settings.find? key = some setting) : setting.key = key := by
  simpa using List.find?_some h

theorem find?_append {settings overlay : Settings} {key : Setting.Key} :
    find? ⟨settings.path, settings.assignments ++ overlay.assignments⟩ key =
      (overlay.find? key).or (settings.find? key) := by
  simp [find?, List.find?_append]

end Settings

end EdgeAdmission
