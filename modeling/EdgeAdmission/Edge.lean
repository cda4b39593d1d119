import EdgeAdmission.Target

namespace EdgeAdmission

/-- A target reached through aliases, the outermost one first. The visibility is that of the
outermost alias, which exports the target under its own; it can be unknown. -/
structure Prerequisite where
  target : Target
  aliases : List Label
  visibility : Option Visibility
  deriving DecidableEq, Repr

namespace Prerequisite

def ofTarget (t : Target) : Prerequisite := ⟨t, [], some t.visibility⟩

def throughAlias (p : Prerequisite) (outer : Target) : Prerequisite :=
  ⟨p.target, outer.label :: p.aliases, some outer.visibility⟩

def label (p : Prerequisite) : Label := p.aliases.head?.getD p.target.label

def describeAs (kind : String) (p : Prerequisite) : String :=
  let target := kind ++ "target '" ++ p.target.label.display ++ "'"
  match p.aliases with
  | [] => target
  | [outer] => "alias '" ++ outer.display ++ "' referring to " ++ target
  | outer :: inner =>
    "alias '" ++ outer.display ++ "' referring to " ++ target ++ " through '" ++
      "' -> '".intercalate (inner.map (·.display)) ++ "'"

def describe (p : Prerequisite) : String := p.describeAs ""

def describeWithKind (p : Prerequisite) : String := p.describeAs (p.target.kind.display ++ " ")

@[simp] theorem label_throughAlias (p : Prerequisite) (outer : Target) :
    (p.throughAlias outer).label = outer.label := rfl

end Prerequisite

inductive EdgeFault
  | consumerNotARule (consumer : Label) (kind : TargetKind)
  deriving DecidableEq, Repr

def EdgeFault.message : EdgeFault → String
  | consumerNotARule consumer kind =>
    "Dependency edges must originate from a rule, but `" ++ consumer.display ++ "` is a " ++
      kind.display

structure Edge where
  consumer : Target
  rule : RuleClass
  via : Attribute
  prerequisite : Prerequisite
  aspect? : Option AspectClass
  consumer_kind : consumer.kind = .rule rule
  deriving DecidableEq, Repr

instance : Inhabited Edge := ⟨⟨default, default, default, .ofTarget default, none, rfl⟩⟩

namespace Edge

def ofConsumer (consumer : Target) (via : Attribute) (prerequisite : Prerequisite) :
    Except EdgeFault Edge :=
  match h : consumer.kind with
  | .rule rule => .ok ⟨consumer, rule, via, prerequisite, none, h⟩
  | kind => .error (.consumerNotARule consumer.label kind)

def forAspect (e : Edge) (a : AspectClass) : Edge := { e with aspect? := some a }

def owner (e : Edge) : Definition :=
  match e.aspect? with
  | some a => a.definition
  | none => e.rule.definition

def effectiveAttribute (e : Edge) : Attribute := (e.rule.attribute? e.via.name).getD e.via

end Edge

end EdgeAdmission
