import EdgeAdmission.Edge
import EdgeAdmission.Proofs.LabelGrammar

namespace EdgeAdmission

variable {p q : Package} {l m : Label}

lemma Package.cutDouble?_display (p : Package) :
    Text.cutDouble? '/' p.display.toList = some (p.cell.name.toList, p.path.text.toList) := by
  have ht : p.display.toList = p.cell.name.toList ++ '/' :: '/' :: p.path.text.toList := by
    simp [Package.display]
  rw [ht]
  exact Text.cutDouble?_append p.cell.isName.2.1

lemma Package.display_inj : p.display = q.display ↔ p = q := by
  constructor
  · intro h
    have hp := Package.cutDouble?_display p
    rw [h, Package.cutDouble?_display q, Option.some.injEq, Prod.mk.injEq, String.toList_inj,
      String.toList_inj] at hp
    exact Package.ext (Cell.ext hp.1.symm) (PackagePath.ext hp.2.symm)
  · rintro rfl
    rfl

lemma Label.cutLast?_display (l : Label) :
    Text.cutLast? ':' l.display.toList = some (l.package.display.toList, l.name.text.toList) := by
  have ht : l.display.toList = l.package.display.toList ++ ':' :: l.name.text.toList := by
    simp [Label.display]
  exact Text.cutLast?_eq_some_iff.mpr ⟨ht, l.name.no_colon⟩

lemma Label.display_inj : l.display = m.display ↔ l = m := by
  constructor
  · intro h
    have hl := Label.cutLast?_display l
    rw [h, Label.cutLast?_display m, Option.some.injEq, Prod.mk.injEq, String.toList_inj,
      String.toList_inj, Package.display_inj] at hl
    exact Label.ext hl.1.symm (TargetName.ext hl.2.symm)
  · rintro rfl
    rfl

lemma Target.display_eq_iff {t u : Target} :
    t.label.display = u.label.display ↔ t.isSame u = true := by
  rw [Label.display_inj, Target.isSame, decide_eq_true_eq]

lemma Prerequisite.target_of_describeAs {p q : Prerequisite} {kind : String}
    (ha : p.aliases = q.aliases) (h : p.describeAs kind = q.describeAs kind) :
    p.target.isSame q.target = true := by
  apply Target.display_eq_iff.mp
  unfold describeAs at h
  rw [ha] at h
  -- Alone, behind one alias or behind several, the label stands between equal texts.
  split at h
  all_goals simpa [← String.toList_inj] using h

lemma Label.parse_ne_ok_of_colon (h : ':' ∈ l.package.path.text.toList) (text : String)
    (current : Cell) : Label.parse text current ≠ .ok l := by
  intro hl
  obtain ⟨package, -, hp⟩ := Label.parse_eq_ok_iff.mp hl
  exact (Package.parse_eq_ok_iff_of_path.mp hp).1 h

/-- Packages, labels and targets that are displayed alike are the same, and two targets behind the
same aliases are not described alike. This holds also of labels that no text stands for. -/
theorem display_identifies_target :
    (∀ p q : Package, p.display = q.display ↔ p = q) ∧
    (∀ l m : Label, l.display = m.display ↔ l = m) ∧
    (∀ t u : Target, t.label.display = u.label.display ↔ t.isSame u = true) ∧
    (∀ (p q : Prerequisite) (kind : String), p.aliases = q.aliases →
      p.describeAs kind = q.describeAs kind → p.target.isSame q.target = true) ∧
    ∀ l : Label, ':' ∈ l.package.path.text.toList →
      ∀ text current, Label.parse text current ≠ .ok l := by
  refine ⟨fun p q => Package.display_inj, fun l m => Label.display_inj,
    fun t u => Target.display_eq_iff, ?_, ?_⟩
  · intro p q kind ha h
    exact Prerequisite.target_of_describeAs ha h
  · intro l h text current
    exact Label.parse_ne_ok_of_colon h text current

theorem display_identifies_target_behind_colon :
    let odd : Label :=
      ⟨⟨default, ⟨"till:1", by decide +kernel⟩⟩, ⟨"2//3", by decide, by decide, by decide⟩⟩
    let plain : Label :=
      ⟨⟨default, ⟨"till", by decide +kernel⟩⟩, ⟨"1//3", by decide, by decide, by decide⟩⟩
    let t : Target := { (default : Target) with label := odd }
    let u : Target := { (default : Target) with label := plain }
    odd.display = "root//till:1:2//3" ∧ plain.display = "root//till:1//3" ∧
      odd.package.display ≠ plain.package.display ∧ odd.display ≠ plain.display ∧
      t.label.display ≠ u.label.display ∧
      (Prerequisite.ofTarget t).describe ≠ (Prerequisite.ofTarget u).describe ∧
      ∀ text current, Label.parse text current ≠ .ok odd := by
  intro odd plain t u
  obtain ⟨hpackage, hlabel, htarget, hdescribe, hcolon⟩ := display_identifies_target
  have hl : odd ≠ plain := by decide +kernel
  have hp : odd.package ≠ plain.package := by decide +kernel
  have ht : ¬ t.isSame u = true := by decide +kernel
  refine ⟨by decide +kernel, by decide +kernel, (hpackage _ _).not.mpr hp, (hlabel _ _).not.mpr hl,
    (htarget t u).not.mpr ht, ?_, hcolon odd (by decide +kernel)⟩
  intro h
  exact ht (hdescribe (.ofTarget t) (.ofTarget u) "" rfl h)

end EdgeAdmission
