namespace EdgeAdmission

inductive ScalarFault
  | notTruth
  | emptyNumeral
  | invalidDigit
  | tooLarge
  | tooSmall
  deriving DecidableEq, Repr

def ScalarFault.message : ScalarFault → String
  | notTruth => "provided string was not `true` or `false`"
  | emptyNumeral => "cannot parse integer from empty string"
  | invalidDigit => "invalid digit found in string"
  | tooLarge => "number too large to fit in target type"
  | tooSmall => "number too small to fit in target type"

abbrev Reader (α : Type) := String → Except ScalarFault α

namespace Reader

def text : Reader String := .ok

def truth : Reader Bool
  | "true" => .ok true
  | "false" => .ok false
  | _ => .error .notTruth

/-- The value of the digits `s` written after a numeral of value `n`. The first character that is no
digit, or that takes the value past `limit`, decides the fault. -/
def decimal (limit : Nat) (past : ScalarFault) (n : Nat) : List Char → Except ScalarFault Nat
  | [] => .ok n
  | c :: s =>
    if c.isDigit then
      let n := 10 * n + (c.toNat - '0'.toNat)
      if n ≤ limit then decimal limit past n s else .error past
    else .error .invalidDigit

def natural (limit : Nat) : Reader Nat := fun s =>
  match s.toList with
  | [] => .error .emptyNumeral
  | ['+'] => .error .invalidDigit
  | '+' :: ds => decimal limit .tooLarge 0 ds
  | ds => decimal limit .tooLarge 0 ds

def integer (lowest highest : Nat) : Reader Int := fun s =>
  match s.toList with
  | [] => .error .emptyNumeral
  | ['+'] => .error .invalidDigit
  | ['-'] => .error .invalidDigit
  | '+' :: ds => (decimal highest .tooLarge 0 ds).map Int.ofNat
  | '-' :: ds => (decimal lowest .tooSmall 0 ds).map fun n => -Int.ofNat n
  | ds => (decimal highest .tooLarge 0 ds).map Int.ofNat

def strictTruth? (s : String) : Option String :=
  match s.toLower with
  | "true" => some "true"
  | "yes" => some "true"
  | "1" => some "true"
  | "false" => some "false"
  | "no" => some "false"
  | "0" => some "false"
  | _ => none

def lenient {α : Type} (read : Reader α) : Reader α := fun s =>
  match read s with
  | .ok v => .ok v
  | .error e =>
    match strictTruth? s with
    | some t => (read t).mapError fun _ => e
    | none => .error e

variable {limit n m : Nat} {past : ScalarFault} {s : List Char}

theorem decimal_le (hn : n ≤ limit) (h : decimal limit past n s = .ok m) : m ≤ limit := by
  induction s generalizing n with
  | nil => simp_all [decimal]
  | cons c s ih =>
    simp only [decimal] at h
    split at h
    · split at h
      · next hle => exact ih hle h
      · simp at h
    · simp at h

theorem natural_le {t : String} (h : natural limit t = .ok m) : m ≤ limit := by
  simp only [natural] at h
  split at h
  · simp at h
  · simp at h
  · exact decimal_le (Nat.zero_le _) h
  · exact decimal_le (Nat.zero_le _) h

end Reader

end EdgeAdmission
