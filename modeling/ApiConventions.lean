import ApiConventions.Advice
import ApiConventions.Analysis
import ApiConventions.CommandLine.Arguments
import ApiConventions.CommandLine.Output
import ApiConventions.CommandLine.Run
import ApiConventions.CommandLine.Starter
import ApiConventions.Config.Basic
import ApiConventions.Config.Setting
import ApiConventions.Config.Toml
import ApiConventions.Constraint.Basic
import ApiConventions.Constraint.Extract
import ApiConventions.Constraint.Layers
import ApiConventions.Constraint.Range
import ApiConventions.Discovery
import ApiConventions.FileSystem
import ApiConventions.Inspection
import ApiConventions.Json.Basic
import ApiConventions.Json.Reader
import ApiConventions.Json.Record
import ApiConventions.Json.Writer
import ApiConventions.Main
import ApiConventions.Marker.Basic
import ApiConventions.Marker.Comment
import ApiConventions.Marker.Names
import ApiConventions.Marker.Quoted
import ApiConventions.Marker.Registry
import ApiConventions.Marker.Set
import ApiConventions.Model.Basic
import ApiConventions.Model.Decode
import ApiConventions.Model.Encode
import ApiConventions.Model.Traversal
import ApiConventions.Number.Binary64
import ApiConventions.Number.Decimal
import ApiConventions.Number.Hexadecimal
import ApiConventions.Number.Integer
import ApiConventions.Pattern.Gitignore
import ApiConventions.Pattern.Glob
import ApiConventions.Pattern.Regex
import ApiConventions.Proofs.Abbreviation
import ApiConventions.Proofs.Advice.Pointers
import ApiConventions.Proofs.Advice.Table
import ApiConventions.Proofs.Advice.ZeroValue
import ApiConventions.Proofs.CommandLine.RequestedRules
import ApiConventions.Proofs.Constraint.Elements
import ApiConventions.Proofs.Constraint.Members
import ApiConventions.Proofs.Constraint.Omitted
import ApiConventions.Proofs.Constraint.Parts
import ApiConventions.Proofs.Constraint.Precedence
import ApiConventions.Proofs.Constraint.Tighten
import ApiConventions.Proofs.Constraint.Winners
import ApiConventions.Proofs.Constraint.ZeroSize
import ApiConventions.Proofs.Correspondence.Amendment
import ApiConventions.Proofs.Correspondence.Annotation
import ApiConventions.Proofs.Correspondence.Basic
import ApiConventions.Proofs.Correspondence.Bindings
import ApiConventions.Proofs.Correspondence.Files
import ApiConventions.Proofs.Correspondence.Inspection
import ApiConventions.Proofs.Correspondence.Lists
import ApiConventions.Proofs.Correspondence.Resolution
import ApiConventions.Proofs.Correspondence.Revision
import ApiConventions.Proofs.Correspondence.Rules
import ApiConventions.Proofs.Discharge
import ApiConventions.Proofs.Inheritance
import ApiConventions.Proofs.Insertion
import ApiConventions.Proofs.Instantiation
import ApiConventions.Proofs.Json.Record
import ApiConventions.Proofs.LoadOrder
import ApiConventions.Proofs.Marker.Arguments
import ApiConventions.Proofs.Marker.Quoted
import ApiConventions.Proofs.Marker.Registry
import ApiConventions.Proofs.Marker.Repeats
import ApiConventions.Proofs.Marker.Splitting
import ApiConventions.Proofs.Marker.Values
import ApiConventions.Proofs.Model.Address
import ApiConventions.Proofs.Model.Hole
import ApiConventions.Proofs.Model.Lookup
import ApiConventions.Proofs.Model.RoundTrip
import ApiConventions.Proofs.Model.Substitution
import ApiConventions.Proofs.Model.TypeExpr
import ApiConventions.Proofs.Number.Sign
import ApiConventions.Proofs.Promotion
import ApiConventions.Proofs.Report.Sort
import ApiConventions.Proofs.Resolution.Bytes
import ApiConventions.Proofs.Resolution.Ends
import ApiConventions.Proofs.Resolution.Limit
import ApiConventions.Proofs.Resolution.Peeling
import ApiConventions.Proofs.Resolution.Unfolding
import ApiConventions.Proofs.Rule.InvalidMarkers
import ApiConventions.Proofs.Rule.KeyLayers
import ApiConventions.Proofs.Rule.Leaves
import ApiConventions.Proofs.Rule.MapKeys
import ApiConventions.Proofs.Rule.MissingBounds
import ApiConventions.Proofs.Rule.Probes
import ApiConventions.Proofs.Rule.ReferenceWords
import ApiConventions.Proofs.Rule.Requests
import ApiConventions.Proofs.Rule.Subjects
import ApiConventions.Proofs.Rule.Unshaped
import ApiConventions.Proofs.Rule.Usage
import ApiConventions.Proofs.RuleSettings
import ApiConventions.Proofs.StructTag
import ApiConventions.Proofs.Text.Boundaries
import ApiConventions.Proofs.Text.Literal
import ApiConventions.Proofs.Text.Trim
import ApiConventions.Proofs.Text.Words
import ApiConventions.Report.Basic
import ApiConventions.Report.PathOrder
import ApiConventions.Report.Severity
import ApiConventions.Report.Violation
import ApiConventions.Resolution.Kind
import ApiConventions.Resolution.Reference
import ApiConventions.Resolution.Resolve
import ApiConventions.Rule.Basic
import ApiConventions.Rule.Bounds
import ApiConventions.Rule.Catalogue
import ApiConventions.Rule.CommentStart
import ApiConventions.Rule.Diagnostic
import ApiConventions.Rule.DuplicateMarkers
import ApiConventions.Rule.FieldAdvice
import ApiConventions.Rule.JsonNames
import ApiConventions.Rule.ListTags
import ApiConventions.Rule.NoMaps
import ApiConventions.Rule.NoReferences
import ApiConventions.Rule.RequirementMarkers
import ApiConventions.Rule.Selection
import ApiConventions.Rule.TypeUsage
import ApiConventions.StructTag
import ApiConventions.Text.Blank
import ApiConventions.Text.LetterCase
import ApiConventions.Text.Split
import ApiConventions.Text.Words
import ApiConventions.ZeroValue
