import EdgeAdmission.Report
import Mathlib.Tactic

/-! The checks of an edge one by one. A report is what they say, each in its turn. -/

namespace EdgeAdmission

inductive Check.Stage
  | location
  | packageGroup
  | visibility
  | testonly
  | deprecation
  deriving DecidableEq

def Check.stages : List Check.Stage :=
  [.location, .packageGroup, .visibility, .testonly, .deprecation]

def Check.outcome (policy : Policy) (options : CheckOptions) (e : Edge) :
    Check.Stage → Option Diagnostic
  | .location => location policy options e
  | .packageGroup => packageGroup e
  | .visibility => visibility policy options e
  | .testonly => testonly policy options e
  | .deprecation => deprecation policy e

def Report.DifferBy (x y : Option Diagnostic) (u v : Report) : Prop :=
  ∃ before after, u.diagnostics = before ++ x.toList ++ after ∧
    v.diagnostics = before ++ y.toList ++ after

lemma exists_filterMap_split {α β : Type} {f g : α → Option β} {l : List α} {a : α}
    (hn : l.Nodup) (ha : a ∈ l) (h : ∀ b, b ≠ a → g b = f b) :
    ∃ before after, l.filterMap f = before ++ (f a).toList ++ after ∧
      l.filterMap g = before ++ (g a).toList ++ after := by
  obtain ⟨l₁, l₂, rfl⟩ := List.append_of_mem ha
  have ha' : a ∉ l₁ ++ l₂ := (List.nodup_cons.mp (List.nodup_middle.mp hn)).1
  rw [List.mem_append, not_or] at ha'
  have h₁ : l₁.filterMap g = l₁.filterMap f :=
    List.filterMap_congr fun b hb => h b (ne_of_mem_of_not_mem hb ha'.1)
  have h₂ : l₂.filterMap g = l₂.filterMap f :=
    List.filterMap_congr fun b hb => h b (ne_of_mem_of_not_mem hb ha'.2)
  refine ⟨l₁.filterMap f, l₂.filterMap f, ?_, ?_⟩
  · simp [List.filterMap_eq_flatMap_toList]
  · rw [← h₁, ← h₂]
    simp [List.filterMap_eq_flatMap_toList]

namespace Check

lemma nodup_stages : stages.Nodup := by decide

lemma mem_stages (s : Stage) : s ∈ stages := by cases s <;> decide

variable {policy : Policy} {e : Edge} {d : Diagnostic}

lemma packageGroup_attributeError (h : packageGroup e = some d) :
    ∃ text, d = .attributeError e.via.name text := by
  rw [packageGroup] at h
  split at h
  · exact ⟨_, (Option.some.inj h).symm⟩
  · cases h

lemma deprecation_warning (h : deprecation policy e = some d) : ∃ text, d = .warning text := by
  rw [deprecation] at h
  split at h
  · cases h
  · obtain ⟨notice, -, hd⟩ := Option.map_eq_some_iff.mp h
    exact ⟨_, hd.symm⟩

end Check

namespace Report

open Check

variable {policy policy' : Policy} {options options' : CheckOptions} {e e' : Edge}

lemma diagnostics_checkEdge_eq (policy : Policy) (options : CheckOptions) (r : Report) (e : Edge) :
    (checkEdge policy options r e).diagnostics =
      r.diagnostics ++ stages.filterMap (outcome policy options e) := by
  rw [diagnostics_checkEdge, List.filterMap_eq_flatMap_toList]
  simp [stages, outcome]

lemma checkEdge_congr (r : Report)
    (h : ∀ s, outcome policy' options' e' s = outcome policy options e s) :
    checkEdge policy' options' r e' = checkEdge policy options r e := by
  apply Report.ext
  rw [diagnostics_checkEdge_eq, diagnostics_checkEdge_eq, funext h]

lemma checkEdge_differBy {s : Stage} (r : Report)
    (h : ∀ t, t ≠ s → outcome policy' options' e' t = outcome policy options e t) :
    DifferBy (outcome policy options e s) (outcome policy' options' e' s)
      (checkEdge policy options r e) (checkEdge policy' options' r e') := by
  obtain ⟨before, after, hb, ha⟩ := exists_filterMap_split nodup_stages (mem_stages s) h
  refine ⟨r.diagnostics ++ before, after, ?_, ?_⟩
  · rw [diagnostics_checkEdge_eq, hb]
    simp only [List.append_assoc]
  · rw [diagnostics_checkEdge_eq, ha]
    simp only [List.append_assoc]

end Report

end EdgeAdmission
