import EdgeAdmission.Package

/-! Extension files, written `package:file.bzl`, in which rules, aspects and macros are defined. -/

namespace EdgeAdmission

inductive ExtensionFileFault
  | invalid (text : String)
  | package (fault : PackageFault)
  deriving DecidableEq, Repr

def ExtensionFileFault.message : ExtensionFileFault → String
  | invalid text => "Invalid import path `" ++ text ++ "`: expected `package:file.bzl`"
  | package fault => fault.message

def ExtensionFile.IsFileName (name : List Char) : Prop :=
  ".bzl".toList <:+ name ∧ ':' ∉ name ∧ '?' ∉ name

instance (name : List Char) : Decidable (ExtensionFile.IsFileName name) :=
  inferInstanceAs (Decidable (_ ∧ _))

structure ExtensionFile where
  package : Package
  fileName : String
  isFileName : ExtensionFile.IsFileName fileName.toList
  deriving DecidableEq, Repr

instance : Inhabited ExtensionFile := ⟨⟨default, "defs.bzl", by decide⟩⟩

namespace ExtensionFile

def ofFileName (package : Package) (fileName : String) : Except ExtensionFileFault ExtensionFile :=
  if h : IsFileName fileName.toList then .ok ⟨package, fileName, h⟩
  else .error (.invalid (package.display ++ ":" ++ fileName))

def parse (text : String) (current : Cell) : Except ExtensionFileFault ExtensionFile :=
  match Text.cutLast? ':' text.toList with
  | none => .error (.invalid text)
  | some (package, fileName) => do
    let package ← (Package.parse (.ofList package) current).mapError .package
    ofFileName package (.ofList fileName)

def display (f : ExtensionFile) : String := f.package.display ++ ":" ++ f.fileName

@[ext] theorem ext {f g : ExtensionFile} (hp : f.package = g.package)
    (hn : f.fileName = g.fileName) : f = g := by
  cases f; cases g; simp_all

theorem ofFileName_eq_ok_iff {package : Package} {fileName : String} {f : ExtensionFile} :
    ofFileName package fileName = .ok f ↔ package = f.package ∧ fileName = f.fileName := by
  constructor
  · intro h
    simp only [ofFileName] at h
    split at h
    · cases h; exact ⟨rfl, rfl⟩
    · simp at h
  · rintro ⟨rfl, rfl⟩
    rw [ofFileName, dif_pos f.isFileName]

end ExtensionFile

end EdgeAdmission
