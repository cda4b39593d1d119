import EdgeAdmission.Text.Cut
import EdgeAdmission.Text.Blank

/-! One line of a settings file: a section header `[name]`, an assignment `key = value`, or a line
without meaning, which is blank or starts with `#` or `;`. Blanks around each part are dropped. -/

namespace EdgeAdmission

open Text

inductive LineFault
  | badSectionMarker (line : String)
  | invalidLine (line : String)
  | keyOutsideSection (line : String)
  deriving DecidableEq, Repr

def LineFault.message : LineFault → String
  | badSectionMarker line =>
    "Improperly formatted section. Expected something of the form `[section]`, got " ++ line
  | invalidLine line =>
    "Couldn't parse line. Expected section (`[some_section]`) or key assignment " ++
      "(`some_key = some_value`). Got `" ++ line ++ "`"
  | keyOutsideSection line => "Key assignment `" ++ line ++ "` appears before any section"

inductive Line
  | insignificant
  | header (name : String)
  | assignment (key value : String)
  deriving DecidableEq, Repr

namespace Line

def headerName? (rest : List Char) : Option (List Char) :=
  if rest.getLast? = some ']' ∧ trim rest.dropLast ≠ [] then some (trim rest.dropLast) else none

def ofTrimmed (line : List Char) : Except LineFault Line :=
  match line with
  | [] => .ok .insignificant
  | '#' :: _ => .ok .insignificant
  | ';' :: _ => .ok .insignificant
  | '[' :: rest =>
    match headerName? rest with
    | some name => .ok (.header (.ofList name))
    | none => .error (.badSectionMarker (.ofList line))
  | _ =>
    match cut? '=' line with
    | none => .error (.invalidLine (.ofList line))
    | some (key, value) =>
      if trim key = [] then .error (.invalidLine (.ofList line))
      else .ok (.assignment (.ofList (trim key)) (.ofList (trim value)))

def read (text : List Char) : Except LineFault Line := ofTrimmed (trim text)

theorem headerName?_eq_some_iff {rest name : List Char} :
    headerName? rest = some name ↔
      ∃ inner, rest = inner ++ [']'] ∧ trim inner = name ∧ name ≠ [] := by
  simp only [headerName?, Option.ite_none_right_eq_some, Option.some.injEq]
  constructor
  · rintro ⟨⟨hl, hn⟩, rfl⟩
    obtain ⟨inner, rfl⟩ := List.getLast?_eq_some_iff.mp hl
    exact ⟨inner, rfl, by simp, hn⟩
  · rintro ⟨inner, rfl, rfl, hn⟩
    simpa using hn

end Line

end EdgeAdmission
