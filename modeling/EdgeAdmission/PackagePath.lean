/-! Paths of packages, relative to the root of their cell: names joined by `/`, in normal form. -/

namespace EdgeAdmission

inductive PathDefect
  | absolute
  | trailingSlash
  | backslash
  | emptySegment
  | notNormalized (segment : String)
  deriving DecidableEq, Repr

structure PathFault where
  path : String
  defect : PathDefect
  deriving DecidableEq, Repr

def PathFault.message (e : PathFault) : String :=
  match e.defect with
  | .absolute =>
    "Path `" ++ e.path ++ "` must be relative to the cell root, but starts with `/`"
  | .trailingSlash => "Path `" ++ e.path ++ "` must not end with `/`"
  | .backslash => "Path `" ++ e.path ++ "` contains a backslash"
  | .emptySegment => "Path `" ++ e.path ++ "` contains an empty segment"
  | .notNormalized segment =>
    "Path `" ++ e.path ++ "` must be normalized, but contains `" ++ segment ++ "` segment"

namespace PackagePath

def segmentsOf (s : List Char) : List (List Char) := if s = [] then [] else s.splitOn '/'

def segmentDefect? (segment : List Char) : Option PathDefect :=
  if segment = [] then some .emptySegment
  else if segment = ['.'] ∨ segment = ['.', '.'] then some (.notNormalized (.ofList segment))
  else none

def defect? (s : List Char) : Option PathDefect :=
  if s = [] then none
  else if s.head? = some '/' then some .absolute
  else if s.getLast? = some '/' then some .trailingSlash
  else if '\\' ∈ s then some .backslash
  else (segmentsOf s).findSome? segmentDefect?

def restOf? (text root : List Char) : Option (List Char) :=
  if root = [] then some text
  else if root <+: text then
    match text.drop root.length with
    | [] => some []
    | '/' :: rest => some rest
    | _ => none
  else none

theorem defect?_eq_none_iff {s : List Char} :
    defect? s = none ↔ '\\' ∉ s ∧ ∀ segment ∈ segmentsOf s, segmentDefect? segment = none := by
  by_cases hs : s = []
  · simp [defect?, segmentsOf, hs]
  have hseg : segmentsOf s = s.splitOn '/' := by simp [segmentsOf, hs]
  simp only [defect?, hs, if_false]
  split
  · next h =>
    obtain ⟨r, rfl⟩ := List.head?_eq_some_iff.mp h
    simp [hseg, List.splitOn_cons_eq_if_modifyHead, segmentDefect?]
  split
  · next h =>
    obtain ⟨r, rfl⟩ := List.getLast?_eq_some_iff.mp h
    simp [hseg, List.splitOn_append_cons_self, segmentDefect?]
  split
  · next h => simp [h]
  · next h => simp [h, List.findSome?_eq_none_iff]

theorem eq_of_restOf? {s q r : List Char} (h : restOf? s q = some r) :
    s = q ++ r ∧ (q = [] ∨ r = []) ∨ s = q ++ '/' :: r := by
  simp only [restOf?] at h
  split at h
  · next hq => left; simp_all
  · split at h
    · next hp =>
      obtain ⟨t, rfl⟩ := hp
      rw [List.drop_left] at h
      split at h <;> simp_all
    · simp at h

theorem defect?_restOf? {s q r : List Char} (hs : defect? s = none) (h : restOf? s q = some r) :
    defect? r = none := by
  rcases eq_of_restOf? h with ⟨rfl, rfl | rfl⟩ | rfl
  · simpa using hs
  · simp [defect?]
  · rw [defect?_eq_none_iff] at hs ⊢
    by_cases hr : r = []
    · simp [hr, segmentsOf]
    · simp_all [segmentsOf, List.splitOn_append_cons_self, or_imp, forall_and]

end PackagePath

structure PackagePath where
  text : String
  normal : PackagePath.defect? text.toList = none
  deriving DecidableEq, Repr

namespace PackagePath

def parse (text : String) : Except PathFault PackagePath :=
  match h : defect? text.toList with
  | none => .ok ⟨text, h⟩
  | some defect => .error ⟨text, defect⟩

def root : PackagePath := ⟨"", by simp [defect?]⟩

instance : Inhabited PackagePath := ⟨root⟩

def isRoot (p : PackagePath) : Bool := p.text = ""

def segments (p : PackagePath) : List (List Char) := segmentsOf p.text.toList

def rest? (p q : PackagePath) : Option PackagePath :=
  match h : restOf? p.text.toList q.text.toList with
  | none => none
  | some r => some ⟨.ofList r, by simpa using defect?_restOf? p.normal h⟩

def isAtOrBelow (p q : PackagePath) : Bool := (p.rest? q).isSome

@[ext] theorem ext {p q : PackagePath} (h : p.text = q.text) : p = q := by
  cases p; cases q; simp_all

theorem parse_text (p : PackagePath) : parse p.text = .ok p := by
  simp only [parse]
  split
  · rfl
  · next h => simp [p.normal] at h

theorem parse_eq_ok_iff {text : String} {p : PackagePath} : parse text = .ok p ↔ text = p.text := by
  constructor
  · intro h
    simp only [parse] at h
    split at h
    · cases h; rfl
    · simp at h
  · rintro rfl
    exact parse_text p

theorem rest?_map_text (p q : PackagePath) :
    (p.rest? q).map (·.text) = (restOf? p.text.toList q.text.toList).map .ofList := by
  simp only [rest?]
  split <;> simp_all

end PackagePath

end EdgeAdmission
