import EdgeAdmission.Conventions
import EdgeAdmission.Proofs.Delegation
import EdgeAdmission.Proofs.VisibilityDecision

/-! A finalizer has the rights of its package besides its own, and an implicit dependency those of
the consumer besides those of its author. The rights add up where the place asked first gets an
answer, which is everywhere if the visibility is known. -/

namespace EdgeAdmission

/-- The walk from a declaration, with so many moves left, stops at a call that was not given the
label. It stops in the second declaration, which was made in that call. -/
inductive Declaration.StopsAt (l : Label) : ℕ → Declaration → Declaration → MacroCall → Prop
  | here {hops d m} (h : d.parent? = some m) (hm : m.wasGiven l = false) : StopsAt l hops d d m
  | up {hops d n e m} (h : d.parent? = some n) (hn : n.wasGiven l = true)
      (hs : StopsAt l hops d.caller e m) : StopsAt l (hops + 1) d e m

inductive Resolver.Answers (r : Resolver) (p : Prerequisite) (here : Package) : Prop
  | known (v : Visibility) (h : p.visibility = some v)
  | exempt (hr : r.checksExperimental = false) (h : r.policy.isExperimental here = true)

def MacroCall.finalized (c : MacroClass) (m : MacroCall) : MacroCall :=
  { m with macroClass :=
    { m.macroClass with isFinalizer := m.macroClass.isFinalizer || m.macroClass = c } }

def Declaration.finalized (c : MacroClass) : Declaration → Declaration
  | target t => .target { t with nesting := t.nesting.map (·.finalized c) }
  | call m enclosing => .call (m.finalized c) (enclosing.map (·.finalized c))

def Edge.writtenIn (e : Edge) (a : Attribute) : Edge := { e with via := a, aspect? := none }

lemma Verdict.orElse_eq_granted_iff {v w : Verdict} (h : ∀ cause, v ≠ unresolved cause) :
    v.orElse w = granted ↔ v = granted ∨ w = granted := by
  cases v with
  | granted => simp
  | denied => simp
  | unresolved cause => exact (h cause rfl).elim

namespace Declaration

variable {d e : Declaration} {m : MacroCall} {l : Label} {hops : ℕ}

lemma stopsAt_of_givenRun (hr : d.givenRun l ≤ hops)
    (hm : (d.ancestor (d.givenRun l)).parent? = some m) :
    d.StopsAt l hops (d.ancestor (d.givenRun l)) m := by
  -- One step up the run gets shorter by the call that was passed, and the end is the same.
  induction hk : d.givenRun l generalizing d hops with
  | zero =>
    rw [hk] at hm
    exact .here hm (givenRun_eq_zero_iff.mp hk m hm)
  | succ k ih =>
    obtain ⟨n, hn, hg⟩ := exists_given (l := l) (d := d) (by omega)
    have hc : d.caller.givenRun l = k := by
      rw [givenRun_eq_succ hn hg] at hk
      omega
    rw [hk, ancestor_succ] at hm
    rw [ancestor_succ]
    cases hops with
    | zero => omega
    | succ hops =>
      have hs : d.caller.StopsAt l hops (d.caller.ancestor k) m := ih (by omega) (by rwa [hc]) hc
      exact .up hn hg hs

variable (c : MacroClass) (d)

@[simp] lemma package_finalized : (d.finalized c).package = d.package := by
  cases d <;> rfl

@[simp] lemma nesting_finalized :
    (d.finalized c).nesting = d.nesting.map (·.finalized c) := by
  cases d <;> rfl

@[simp] lemma parent?_finalized :
    (d.finalized c).parent? = d.parent?.map (·.finalized c) := by
  simp only [parent?, nesting_finalized, List.head?_map]

lemma caller_finalized : (d.finalized c).caller = d.caller.finalized c := by
  cases hd : d.nesting with
  | nil => simp only [caller, nesting_finalized, hd, List.map_nil]
  | cons m enclosing =>
    have hf : (d.finalized c).nesting = m.finalized c :: enclosing.map (·.finalized c) := by
      rw [nesting_finalized, hd, List.map_cons]
    rw [caller_eq_call hf, caller_eq_call hd]
    rfl

lemma ancestor_finalized (k : ℕ) : (d.finalized c).ancestor k = (d.ancestor k).finalized c := by
  induction k generalizing d with
  | zero => rfl
  | succ k ih => rw [ancestor_succ, ancestor_succ, caller_finalized, ih]

lemma givenRun_finalized (l : Label) : (d.finalized c).givenRun l = d.givenRun l := by
  rw [givenRun, nesting_finalized, List.takeWhile_map, List.length_map]
  rfl

end Declaration

namespace Resolver

variable {r : Resolver} {p : Prerequisite} {d e : Declaration} {m : MacroCall} {here : Package}

lemma answers_iff :
    r.Answers p here ↔ ∀ cause, r.atLocation p here ≠ .unresolved cause := by
  constructor
  · rintro (⟨v, hv⟩ | ⟨hr, hx⟩) cause h
    · rw [atLocation_of_visibility r p here hv, Verdict.ofBool] at h
      split at h <;> cases h
    · simp [atLocation, hr, hx] at h
  · intro h
    cases hv : p.visibility with
    | some v => exact .known v hv
    | none =>
      have hn := h (.noVisibility p)
      rw [atLocation_of_no_visibility r p here hv] at hn
      split at hn
      · next hx =>
        simp only [Bool.and_eq_true, Bool.not_eq_true'] at hx
        exact .exempt hx.1 hx.2
      · exact absurd rfl hn

lemma delegate_of_stopsAt {hops : ℕ} (origin : Declaration) (h : d.StopsAt p.label hops e m) :
    r.delegate p origin hops d.package d.nesting = r.settle p e := by
  induction h with
  | here h hm =>
    refine delegate_settle fun n hn => ?_
    obtain rfl := Option.some.inj (h.symm.trans hn)
    exact hm
  | up h hn _ ih => rw [delegate_step h hn, ih]

lemma parent?_of_stopsAt {hops : ℕ} (h : d.StopsAt p.label hops e m) : e.parent? = some m := by
  induction h with
  | here h _ => exact h
  | up _ _ _ ih => exact ih

lemma settle_of_finalizer (h : e.parent? = some m) (hf : m.macroClass.isFinalizer = true) :
    r.settle p e =
      (r.atLocation p e.package).orElse (r.atLocation p m.macroClass.location) := by
  rw [settle, h]
  exact if_pos hf

lemma atDeclaration_of_finalizer (h : d.StopsAt p.label r.maxMacroDepth e m)
    (hf : m.macroClass.isFinalizer = true) :
    r.atDeclaration p d =
      (r.atLocation p e.package).orElse (r.atLocation p m.macroClass.location) := by
  rw [atDeclaration, delegate_of_stopsAt d h, settle_of_finalizer (parent?_of_stopsAt h) hf]

lemma settle_finalized (c : MacroClass) (h : r.settle p e = .granted)
    (ha : ∀ m, e.parent? = some m → r.Answers p e.package) :
    r.settle p (e.finalized c) = .granted := by
  cases hm : e.parent? with
  | none => simpa [settle, hm] using h
  | some m =>
    have hf : (e.finalized c).parent? = some (m.finalized c) := by simp [hm]
    by_cases hc : (m.finalized c).macroClass.isFinalizer = true
    · rw [settle_of_finalizer hf hc, Declaration.package_finalized]
      rw [Verdict.orElse_eq_granted_iff (answers_iff.mp (ha m hm))]
      -- Without the right of a finalizer only the place of the class was asked.
      by_cases hg : m.macroClass.isFinalizer = true
      · rw [settle_of_finalizer hm hg] at h
        exact (Verdict.orElse_eq_granted_iff (answers_iff.mp (ha m hm))).mp h
      · rw [settle, hm] at h
        exact .inr ((if_neg hg).symm.trans h)
    · have hg : ¬ m.macroClass.isFinalizer = true := by
        intro hg
        exact hc (by simp [MacroCall.finalized, hg])
      rw [settle, hm] at h
      rw [settle, hf]
      exact (if_neg hc).trans ((if_neg hg).symm.trans h)

lemma atDeclaration_finalized (c : MacroClass) (h : r.atDeclaration p d = .granted)
    (ha : ∀ e m, d.StopsAt p.label r.maxMacroDepth e m → r.Answers p e.package) :
    r.atDeclaration p (d.finalized c) = .granted := by
  have hr : d.givenRun p.label ≤ r.maxMacroDepth := givenRun_le_of_ofBool (b := true) h
  rw [atDeclaration_eq, if_neg (Nat.not_lt.mpr hr)] at h
  rw [atDeclaration_eq, Declaration.givenRun_finalized, if_neg (Nat.not_lt.mpr hr),
    Declaration.ancestor_finalized]
  exact settle_finalized c h fun m hm => ha _ m (Declaration.stopsAt_of_givenRun hr hm)

end Resolver

namespace Check

variable {policy : Policy} {options : CheckOptions} {e : Edge} {a : Attribute}
  {file : ExtensionFile}

lemma visibility_of_granted (h : verdict policy options e = .granted) :
    visibility policy options e = none := by
  rw [visibility, h]
  exact ite_self none

lemma not_authored_of_written (ha : e.via.isImplicit = false) (file : ExtensionFile) :
    ¬ Authored e file := by
  rintro (⟨_, hi, _, _, _⟩ | ⟨hi, _, _, _⟩) <;> simp [ha] at hi

lemma unchecked_of_exempt_written (hi : a.isImplicit = false) (hl : a.isLateBound = false)
    (h : Exempt policy options (e.writtenIn a)) : options.checksVisibility = false := by
  cases h with
  | unchecked h => exact h
  | lateBound h => exact absurd (hl.symm.trans h) Bool.false_ne_true
  | toolchain hn _ =>
    have hn : a.name = Attribute.toolchainsName := hn
    rw [Attribute.isImplicit, hn] at hi
    exact absurd hi (by decide)
  | othersAttribute b hb _ => exact absurd hb (Option.some_ne_none b).symm

lemma granted_of_written (hi : a.isImplicit = false) (hl : a.isLateBound = false)
    (h : visibility policy options (e.writtenIn a) = none) :
    options.checksVisibility = false ∨ asConsumer policy options e = .granted := by
  by_cases hx : Exempt policy options (e.writtenIn a)
  · exact .inl (unchecked_of_exempt_written hi hl hx)
  · right
    have hv : verdict policy options (e.writtenIn a) = asConsumer policy options e :=
      verdict_of_not_authored policy options _ (not_authored_of_written hi)
    rw [visibility_of_binds hx, hv] at h
    cases hc : asConsumer policy options e <;> simp_all

lemma visibility_of_authored (hf : Authored e file)
    (ha : (resolver policy options e).Answers e.prerequisite file.package)
    (h : asAuthor policy options e file = .granted ∨ asConsumer policy options e = .granted) :
    visibility policy options e = none := by
  apply visibility_of_granted
  rw [verdict_of_authored policy options e hf]
  exact (Verdict.orElse_eq_granted_iff (Resolver.answers_iff.mp ha)).mpr h

lemma visibility_of_asConsumer (h : asConsumer policy options e = .granted)
    (ha : ∀ file, Authored e file →
      (resolver policy options e).Answers e.prerequisite file.package) :
    visibility policy options e = none := by
  by_cases hf : ∃ file, Authored e file
  · obtain ⟨file, hf⟩ := hf
    exact visibility_of_authored hf (ha file hf) (.inr h)
  · apply visibility_of_granted
    rw [verdict_of_not_authored policy options e (not_exists.mp hf), h]

end Check

open Check in
theorem privileges_add_up :
    (∀ (r : Resolver) p here,
      r.Answers p here ↔ ∀ cause, r.atLocation p here ≠ .unresolved cause) ∧
    (∀ (r : Resolver) p d e m, d.StopsAt p.label r.maxMacroDepth e m →
      m.macroClass.isFinalizer = true →
      (r.atLocation p e.package = .granted → r.atDeclaration p d = .granted) ∧
      (r.atLocation p m.macroClass.location = .granted → r.Answers p e.package →
        r.atDeclaration p d = .granted)) ∧
    (∀ (r : Resolver) p d c, r.atDeclaration p d = .granted →
      (∀ e m, d.StopsAt p.label r.maxMacroDepth e m → r.Answers p e.package) →
      r.atDeclaration p (d.finalized c) = .granted) ∧
    (∀ policy options e file, Authored e file →
      (asAuthor policy options e file = .granted → visibility policy options e = none) ∧
      (asConsumer policy options e = .granted →
        (resolver policy options e).Answers e.prerequisite file.package →
        visibility policy options e = none)) ∧
    ∀ policy options e (a : Attribute), a.isImplicit = false → a.isLateBound = false →
      visibility policy options (e.writtenIn a) = none →
      (∀ file, Authored e file →
        (resolver policy options e).Answers e.prerequisite file.package) →
      visibility policy options e = none := by
  refine ⟨fun _ _ _ => Resolver.answers_iff, ?_, ?_, ?_, ?_⟩
  · intro r p d e m hs hf
    rw [Resolver.atDeclaration_of_finalizer hs hf]
    refine ⟨fun h => by rw [h, Verdict.granted_orElse], fun h ha => ?_⟩
    exact (Verdict.orElse_eq_granted_iff (Resolver.answers_iff.mp ha)).mpr (.inr h)
  · intro r p d c h ha
    exact Resolver.atDeclaration_finalized c h ha
  · intro policy options e file hf
    refine ⟨fun h => visibility_of_granted ?_, fun h ha => visibility_of_authored hf ha (.inr h)⟩
    rw [verdict_of_authored policy options e hf, h, Verdict.granted_orElse]
  · intro policy options e a hi hl h ha
    rcases granted_of_written hi hl h with hu | hc
    · exact visibility_of_exempt (.unchecked hu)
    · exact visibility_of_asConsumer hc ha

open Check in
theorem privileges_add_up_at_second_place :
    let lab : Package := ⟨default, ⟨"lab", by decide +kernel⟩⟩
    let lib : Label := ⟨⟨default, ⟨"lib", by decide +kernel⟩⟩, default⟩
    let v : Visibility := ⟨[⟨[.exactly lab], []⟩], false⟩
    let p : Prerequisite := ⟨{ (default : Target) with label := lib }, [], some v⟩
    let c : MacroClass := ⟨"finish", ⟨lab, "defs.bzl", by decide⟩, false⟩
    let m : MacroCall := ⟨"all", c, default, []⟩
    let d : Declaration := .target { (default : Target) with nesting := [m] }
    let f : Declaration := .call m [m.finalized c]
    let policy := Conventions.standard.policy
    let r : Resolver := ⟨policy, false, 0⟩
    let tool : Attribute := ⟨"$tool", .acceptAny, by decide⟩
    let rule : RuleClass := ⟨"binary", .scripted default, false, [tool]⟩
    let aspect : AspectClass := ⟨"lint", .scripted default, ["$tool"]⟩
    let consumer : Target := ⟨⟨lab, default⟩, .rule rule, [], false, none, .nobody⟩
    let e : Edge := ⟨consumer, rule, tool, p, none, rfl⟩
    (r.atLocation p default = .denied ∧ r.atLocation p lab = .granted ∧
      r.atDeclaration p f = .granted) ∧
    (r.atDeclaration p d = .granted ∧ r.atDeclaration p (d.finalized c) = .granted) ∧
    (asAuthor policy .standard e default = .denied ∧ asConsumer policy .standard e = .granted ∧
      visibility policy .standard e = none) ∧
    visibility policy .standard ((e.forAspect aspect).writtenIn default) = none ∧
      visibility policy .standard (e.forAspect aspect) = none := by
  intro lab lib v p c m d f policy r tool rule aspect consumer e
  obtain ⟨_, hfinalizer, hfinalized, hauthored, hwritten⟩ := privileges_add_up
  have hs : f.StopsAt p.label r.maxMacroDepth f (m.finalized c) := .here rfl (by decide)
  have hl : r.atLocation p lab = .granted := by decide +kernel
  have hd : r.atDeclaration p d = .granted := by decide +kernel
  have he : Authored e default := .byRule (by decide) (by decide) rfl rfl
  have hc : asConsumer policy .standard e = .granted := by decide +kernel
  have hw : visibility policy .standard ((e.forAspect aspect).writtenIn default) = none := by
    decide +kernel
  refine ⟨⟨by decide +kernel, hl, ?_⟩, ⟨hd, ?_⟩, ⟨by decide +kernel, hc, ?_⟩, hw, ?_⟩
  · exact (hfinalizer r p f f _ hs rfl).2 hl (.known v rfl)
  · exact hfinalized r p d c hd fun _ _ _ => .known v rfl
  · exact (hauthored policy .standard e default he).2 hc (.known v rfl)
  · exact hwritten policy .standard _ default (by decide) (by decide) hw fun _ _ => .known v rfl

open Check in
theorem privileges_lost_without_visibility :
    let lab : Package := ⟨default, ⟨"experimental/lab", by decide +kernel⟩⟩
    let lib : Label := ⟨⟨default, ⟨"lib", by decide +kernel⟩⟩, default⟩
    let p : Prerequisite := ⟨{ (default : Target) with label := lib }, [], none⟩
    let c : MacroClass := ⟨"finish", ⟨lab, "defs.bzl", by decide⟩, false⟩
    let m : MacroCall := ⟨"all", c, default, []⟩
    let d : Declaration := .target { (default : Target) with nesting := [m] }
    let policy := Conventions.standard.policy
    let r : Resolver := ⟨policy, false, 100⟩
    let tool : Attribute := ⟨"$tool", .acceptAny, by decide⟩
    let rule : RuleClass := ⟨"binary", .scripted default, false, [tool]⟩
    let consumer : Target := ⟨⟨lab, default⟩, .rule rule, [], false, none, .nobody⟩
    let e : Edge := ⟨consumer, rule, tool, p, none, rfl⟩
    ((d.finalized c).StopsAt p.label r.maxMacroDepth (d.finalized c) (m.finalized c) ∧
      (m.finalized c).macroClass.isFinalizer = true ∧ r.atLocation p lab = .granted ∧
      r.atDeclaration p d = .granted ∧
      r.atDeclaration p (d.finalized c) = .unresolved (.noVisibility p)) ∧
    Authored e default ∧ ¬ Exempt policy .standard e ∧
      asConsumer policy .standard e = .granted ∧
      visibility policy .standard (e.writtenIn default) = none ∧
      visibility policy .standard e = some (.error (Unresolved.noVisibility p).message) := by
  intro lab lib p c m d policy r tool rule consumer e
  have hb : ¬ Exempt policy .standard e := by
    rw [← bindsVisibility_iff]
    decide +kernel
  refine ⟨⟨.here rfl (by decide), rfl, ?_, ?_, ?_⟩, .byRule (by decide) (by decide) rfl rfl, hb,
    ?_, ?_, ?_⟩
  · decide +kernel
  · decide +kernel
  · decide +kernel
  · decide +kernel
  · decide +kernel
  · decide +kernel

end EdgeAdmission
