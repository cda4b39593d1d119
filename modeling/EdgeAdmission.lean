import EdgeAdmission.Cell
import EdgeAdmission.Check
import EdgeAdmission.CheckOptions
import EdgeAdmission.Conventions
import EdgeAdmission.Edge
import EdgeAdmission.ExtensionFile
import EdgeAdmission.Finding
import EdgeAdmission.Label
import EdgeAdmission.Package
import EdgeAdmission.PackageGroup
import EdgeAdmission.PackagePath
import EdgeAdmission.PackagePattern
import EdgeAdmission.Proofs.Agreement
import EdgeAdmission.Proofs.Aliasing
import EdgeAdmission.Proofs.Aspects
import EdgeAdmission.Proofs.CanonicalPattern
import EdgeAdmission.Proofs.Composition
import EdgeAdmission.Proofs.Delegation
import EdgeAdmission.Proofs.DisplayedLabels
import EdgeAdmission.Proofs.ExperimentalConsumers
import EdgeAdmission.Proofs.Grants
import EdgeAdmission.Proofs.GroupMembership
import EdgeAdmission.Proofs.GroupSpelling
import EdgeAdmission.Proofs.LabelGrammar
import EdgeAdmission.Proofs.LastAssignment
import EdgeAdmission.Proofs.LogicalPackages
import EdgeAdmission.Proofs.LooseSpellings
import EdgeAdmission.Proofs.MisplacedGroups
import EdgeAdmission.Proofs.Outcomes
import EdgeAdmission.Proofs.Overlays
import EdgeAdmission.Proofs.PathGrammar
import EdgeAdmission.Proofs.PathSegments
import EdgeAdmission.Proofs.PatternGrammar
import EdgeAdmission.Proofs.Privileges
import EdgeAdmission.Proofs.Reading
import EdgeAdmission.Proofs.Recency
import EdgeAdmission.Proofs.SettingsGrammar
import EdgeAdmission.Proofs.Subtrees
import EdgeAdmission.Proofs.Switches
import EdgeAdmission.Proofs.VisibilityChanges
import EdgeAdmission.Proofs.VisibilityDecision
import EdgeAdmission.Proofs.WrittenConventions
import EdgeAdmission.Report
import EdgeAdmission.Resolver
import EdgeAdmission.RuleClass
import EdgeAdmission.Settings.Basic
import EdgeAdmission.Settings.Line
import EdgeAdmission.Settings.Scalar
import EdgeAdmission.Target
import EdgeAdmission.Text.Blank
import EdgeAdmission.Text.Cut
import EdgeAdmission.Verdict
import EdgeAdmission.Visibility
