import Assessment.Main
import Assessment.Proofs.Command.Completion
import Assessment.Proofs.Declaration.Repeats
import Assessment.Proofs.Expression.Containment
import Assessment.Proofs.Expression.IntegerArithmetic
import Assessment.Proofs.Expression.IntegersAsDoubles
import Assessment.Proofs.Expression.Logic
import Assessment.Proofs.Expression.Nulls
import Assessment.Proofs.Expression.PatternMatches
import Assessment.Proofs.Expression.RoundingSteps
import Assessment.Proofs.Expression.SignificantFigures
import Assessment.Proofs.Expression.StaticTypes
import Assessment.Proofs.Item.Binding
import Assessment.Proofs.Item.Counting
import Assessment.Proofs.Item.Refusal
import Assessment.Proofs.Item.Scoring
import Assessment.Proofs.Package.Planning
import Assessment.Proofs.Package.References
import Assessment.Proofs.Package.StaticTypes
import Assessment.Proofs.Package.Targets
import Assessment.Proofs.Package.Typing
import Assessment.Proofs.Plan.Togetherness
import Assessment.Proofs.Rule.Flattening
import Assessment.Proofs.Rule.Mismatches
import Assessment.Proofs.Rule.Reach
import Assessment.Proofs.Rule.WellFormed
import Assessment.Proofs.Shape.Polygon
import Assessment.Proofs.Test.Controls
import Assessment.Proofs.Test.Limits
import Assessment.Proofs.Test.Locked
import Assessment.Proofs.Test.Nesting
import Assessment.Proofs.Test.Occurrences
import Assessment.Proofs.Test.Rest
import Assessment.Proofs.Test.Scoring
import Assessment.Proofs.Validation.Paths
import Assessment.Proofs.Value.IntegerTexts
import Assessment.Proofs.Value.ReadBack
