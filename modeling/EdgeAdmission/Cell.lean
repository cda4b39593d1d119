namespace EdgeAdmission

inductive CellFault
  | empty
  | invalidCharacter (name : String)
  deriving DecidableEq, Repr

def CellFault.message : CellFault → String
  | empty => "Cell name must be non-empty"
  | invalidCharacter name => "Cell name `" ++ name ++ "` must not contain `/`, `:` or `@`"

def Cell.isDelimiter (c : Char) : Bool := c = '/' || c = ':' || c = '@'

structure Cell where
  name : String
  nonempty : name ≠ ""
  undelimited : name.toList.any Cell.isDelimiter = false
  deriving Repr

namespace Cell

def parse (name : String) : Except CellFault Cell :=
  if hn : name = "" then .error .empty
  else if hd : name.toList.any isDelimiter = false then .ok ⟨name, hn, hd⟩
  else .error (.invalidCharacter name)

def dropSigil : List Char → List Char
  | '@' :: name => name
  | name => name

def resolve (reference : List Char) (current : Cell) : Except CellFault Cell :=
  if dropSigil reference = [] then .ok current else parse (.ofList (dropSigil reference))

@[ext] theorem ext {k l : Cell} (h : k.name = l.name) : k = l := by
  cases k; cases l; simp_all

instance : DecidableEq Cell := fun _ _ => decidable_of_iff _ Cell.ext_iff.symm

instance : Inhabited Cell := ⟨⟨"root", by decide, by decide⟩⟩

theorem parse_name (k : Cell) : parse k.name = .ok k := by
  rw [parse, dif_neg k.nonempty, dif_pos k.undelimited]

theorem parse_eq_ok_iff {name : String} {k : Cell} : parse name = .ok k ↔ name = k.name := by
  constructor
  · intro h
    simp only [parse] at h
    split at h
    · simp at h
    · split at h
      · cases h; rfl
      · simp at h
  · rintro rfl
    exact parse_name k

end Cell

end EdgeAdmission
