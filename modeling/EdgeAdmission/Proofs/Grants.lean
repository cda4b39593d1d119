import EdgeAdmission.Proofs.Agreement
import EdgeAdmission.Proofs.Delegation
import EdgeAdmission.Proofs.VisibilityDecision
import EdgeAdmission.Report

namespace EdgeAdmission

structure Visibility.Widens (v w : Visibility) : Prop where
  boundary : v.inSymbolicMacro = false → w.inSymbolicMacro = false
  contains : ∀ here, v.contains here = true → w.contains here = true

lemma Visibility.widens_extend (v w : Visibility) : v.Widens (v.extend w) := by
  refine ⟨fun h => h, fun here h => ?_⟩
  rw [contains_extend, h, Bool.true_or]

lemma Visibility.widens_boundary (v : Visibility) : v.Widens { v with inSymbolicMacro := false } :=
  ⟨fun _ => rfl, fun _ h => h⟩

def Prerequisite.withVisibility (p : Prerequisite) (v : Visibility) : Prerequisite :=
  { p with visibility := some v }

def Edge.withVisibility (e : Edge) (v : Visibility) : Edge :=
  { e with prerequisite := e.prerequisite.withVisibility v }

def Verdict.Eases (p q : Prerequisite) (d : Declaration) (u v : Verdict) : Prop :=
  Agree p q d d u v ∨ v = granted

namespace Verdict.Eases

variable {p q : Prerequisite} {d : Declaration} {u u' v v' : Verdict}

lemma ofBool {a b : Bool} (h : a = true → b = true) : Eases p q d (.ofBool a) (.ofBool b) := by
  cases b with
  | true => exact .inr rfl
  | false =>
    obtain rfl : a = false := by simpa using h
    exact .inl .denied

lemma orElse (hu : Eases p q d u u') (hv : Eases p q d v v') :
    Eases p q d (u.orElse v) (u'.orElse v') := by
  rcases hu with hu | rfl
  · rcases hv with hv | rfl
    · exact .inl (hu.orElse hv)
    · -- Only a denial asks for the second verdict, so an error hides a new grant as well.
      cases hu with
      | granted => exact .inr rfl
      | denied => exact .inr rfl
      | nestingTooDeep limit => exact .inl (.nestingTooDeep limit)
      | noVisibility => exact .inl .noVisibility
  · exact .inr rfl

end Verdict.Eases

namespace Resolver

variable {p q : Prerequisite} {v w : Visibility}

lemma atLocation_eases (r : Resolver) (d : Declaration) (hp : p.visibility = some v)
    (hq : q.visibility = some w) (hl : p.label = q.label) (h : v.Widens w) (here : Package) :
    Verdict.Eases p q d (r.atLocation p here) (r.atLocation q here) := by
  rw [atLocation_of_visibility r p here hp, atLocation_of_visibility r q here hq, hl]
  apply Verdict.Eases.ofBool
  simp only [Bool.or_eq_true, Bool.and_eq_true, Bool.not_eq_true']
  rintro (hx | ⟨hm, hs⟩ | hg)
  · exact .inl hx
  · exact .inr (.inl ⟨h.boundary hm, hs⟩)
  · exact .inr (.inr (h.contains here hg))

lemma settle_eases (r : Resolver) (origin d : Declaration) (hp : p.visibility = some v)
    (hq : q.visibility = some w) (hl : p.label = q.label) (h : v.Widens w) :
    Verdict.Eases p q origin (r.settle p d) (r.settle q d) := by
  have ha := r.atLocation_eases origin hp hq hl h
  unfold settle
  cases d.parent? with
  | none => exact ha d.package
  | some m =>
    dsimp only
    split
    · exact (ha d.package).orElse (ha m.macroClass.location)
    · exact ha m.macroClass.location

lemma atDeclaration_eases (r : Resolver) (d : Declaration) (hp : p.visibility = some v)
    (hq : q.visibility = some w) (hl : p.label = q.label) (h : v.Widens w) :
    Verdict.Eases p q d (r.atDeclaration p d) (r.atDeclaration q d) := by
  rw [atDeclaration_eq, atDeclaration_eq, hl]
  split
  · exact .inl (.nestingTooDeep r.maxMacroDepth)
  · exact r.settle_eases d _ hp hq hl h

end Resolver

namespace Check

variable {v w : Visibility} {e : Edge}

@[simp] lemma location_withVisibility (policy : Policy) (options : CheckOptions) (e : Edge)
    (w : Visibility) :
    location policy options (e.withVisibility w) = location policy options e := rfl

@[simp] lemma packageGroup_withVisibility (e : Edge) (w : Visibility) :
    packageGroup (e.withVisibility w) = packageGroup e := rfl

@[simp] lemma testonly_withVisibility (policy : Policy) (options : CheckOptions) (e : Edge)
    (w : Visibility) :
    testonly policy options (e.withVisibility w) = testonly policy options e := by
  have ht : (e.withVisibility w).prerequisite.target = e.prerequisite.target := rfl
  unfold testonly testonlyFinding?
  rw [ht]
  cases e.prerequisite.target.kind.generator? with
  | none => rfl
  | some generator => cases options.checksOutputFiles <;> rfl

@[simp] lemma deprecation_withVisibility (policy : Policy) (e : Edge) (w : Visibility) :
    deprecation policy (e.withVisibility w) = deprecation policy e := rfl

lemma verdict_eases (policy : Policy) (options : CheckOptions)
    (hv : e.prerequisite.visibility = some v) (h : v.Widens w) :
    Verdict.Eases e.prerequisite (e.withVisibility w).prerequisite (.target e.consumer)
      (verdict policy options e) (verdict policy options (e.withVisibility w)) := by
  have ha : author? (e.withVisibility w) = author? e := rfl
  have hc : Verdict.Eases e.prerequisite (e.withVisibility w).prerequisite (.target e.consumer)
      (asConsumer policy options e) (asConsumer policy options (e.withVisibility w)) :=
    (resolver policy options e).atDeclaration_eases _ hv rfl rfl h
  cases hf : author? e with
  | none =>
    rw [verdict_of_not_authored policy options e (author?_eq_none_iff.mp hf),
      verdict_of_not_authored policy options _ (author?_eq_none_iff.mp (ha.trans hf))]
    exact hc
  | some file =>
    rw [verdict_of_authored policy options e (author?_eq_some_iff.mp hf),
      verdict_of_authored policy options _ (author?_eq_some_iff.mp (ha.trans hf))]
    have hl : Verdict.Eases e.prerequisite (e.withVisibility w).prerequisite (.target e.consumer)
        (asAuthor policy options e file) (asAuthor policy options (e.withVisibility w) file) :=
      (resolver policy options e).atLocation_eases
        (q := (e.withVisibility w).prerequisite) _ hv rfl rfl h file.package
    exact hl.orElse hc

lemma visibility_eases (policy : Policy) (options : CheckOptions)
    (hv : e.prerequisite.visibility = some v) (h : v.Widens w) :
    visibility policy options (e.withVisibility w) = visibility policy options e ∨
      visibility policy options (e.withVisibility w) = none := by
  have hb : bindsVisibility policy options (e.withVisibility w) =
    bindsVisibility policy options e := rfl
  unfold visibility
  rw [hb]
  split
  · rcases verdict_eases policy options hv h with hu | hu
    · generalize verdict policy options e = u at hu ⊢
      generalize verdict policy options (e.withVisibility w) = u' at hu ⊢
      -- No message reads the visibility, so verdicts that agree are reported in the same words.
      cases hu <;> exact .inl rfl
    · rw [hu]
      exact .inr rfl
  · exact .inl rfl

end Check

namespace Report

variable {v : Visibility} {e : Edge}

lemma checkEdge_eases {w : Visibility} (policy : Policy) (options : CheckOptions) (r : Report)
    (hv : e.prerequisite.visibility = some v) (h : v.Widens w) :
    checkEdge policy options r (e.withVisibility w) = checkEdge policy options r e ∨
      ∃ text, Check.visibility policy options e = some (.error text) ∧
        (checkEdge policy options r (e.withVisibility w)).diagnostics =
          r.diagnostics ++ (Check.location policy options e).toList ++
            (Check.packageGroup e).toList ++ (Check.testonly policy options e).toList ++
            (Check.deprecation policy e).toList := by
  have hd := diagnostics_checkEdge policy options r (e.withVisibility w)
  rw [Check.location_withVisibility, Check.packageGroup_withVisibility,
    Check.testonly_withVisibility, Check.deprecation_withVisibility] at hd
  rcases Check.visibility_eases policy options hv h with hs | hn
  · left
    apply Report.ext
    rw [hd, hs, diagnostics_checkEdge]
  · rw [hn, Option.toList_none, List.append_nil] at hd
    cases hx : Check.visibility policy options e with
    | none =>
      left
      apply Report.ext
      rw [hd, diagnostics_checkEdge, hx, Option.toList_none, List.append_nil]
    | some x =>
      obtain ⟨text, rfl⟩ := Check.visibility_error hx
      exact .inr ⟨text, rfl, hd⟩

/-- Granting more, by further groups or by opening the prerequisite to its own package, leaves the
report as it was or takes the one complaint about visibility out of it. -/
theorem checkEdge_of_grant (policy : Policy) (options : CheckOptions) (r : Report)
    (hv : e.prerequisite.visibility = some v) (w : Visibility) :
    ∀ grant ∈ [v.extend w, { v with inSymbolicMacro := false }],
      checkEdge policy options r (e.withVisibility grant) = checkEdge policy options r e ∨
      ∃ before text after, Check.visibility policy options e = some (.error text) ∧
        before = r.diagnostics ++ (Check.location policy options e).toList ++
          (Check.packageGroup e).toList ∧
        after = (Check.testonly policy options e).toList ++
          (Check.deprecation policy e).toList ∧
        (checkEdge policy options r e).diagnostics = before ++ .error text :: after ∧
        (checkEdge policy options r (e.withVisibility grant)).diagnostics = before ++ after := by
  intro grant hg
  have h : v.Widens grant := by
    simp only [List.mem_cons, List.not_mem_nil, or_false] at hg
    rcases hg with rfl | rfl
    · exact v.widens_extend w
    · exact v.widens_boundary
  rcases checkEdge_eases policy options r hv h with hs | ⟨text, hx, hd⟩
  · exact .inl hs
  · refine .inr ⟨_, text, _, hx, rfl, rfl, ?_, ?_⟩
    · rw [diagnostics_checkEdge, hx]
      simp only [Option.toList_some, List.append_assoc, List.cons_append, List.nil_append]
    · rw [hd]
      simp only [List.append_assoc]

theorem checkEdge_of_grant_to_everyone :
    let policy := Conventions.standard.policy
    let v : Visibility := ⟨[], true⟩
    let e : Edge := (default : Edge).withVisibility v
    e.prerequisite.visibility = some v ∧
      ∃ before text after,
        (checkEdge policy .standard .empty e).diagnostics = before ++ .error text :: after ∧
        (checkEdge policy .standard .empty (e.withVisibility (v.extend .everyone))).diagnostics =
          before ++ after := by
  intro policy v e
  have hv : e.prerequisite.visibility = some v := rfl
  refine ⟨hv, ?_⟩
  rcases checkEdge_of_grant policy .standard .empty hv .everyone _ List.mem_cons_self with
    h | ⟨before, text, after, _, _, _, h, h'⟩
  · have hn : (checkEdge policy .standard .empty (e.withVisibility (v.extend .everyone))).isEmpty ≠
        (checkEdge policy .standard .empty e).isEmpty := by decide +kernel
    exact absurd (congrArg isEmpty h) hn
  · exact ⟨before, text, after, h, h'⟩

end Report

end EdgeAdmission
