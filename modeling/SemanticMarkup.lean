import SemanticMarkup.Catalog
import SemanticMarkup.Stylesheet.Palette
import SemanticMarkup.Decimal.Literal
import SemanticMarkup.Transform
import SemanticMarkup.Main
import SemanticMarkup.Proofs.Results
import SemanticMarkup.Proofs.Text.Blanks
import SemanticMarkup.Proofs.Table
import SemanticMarkup.Proofs.Style.Declarations
import SemanticMarkup.Proofs.Style.Writing
import SemanticMarkup.Proofs.Style.Names
import SemanticMarkup.Proofs.Stylesheet.References
import SemanticMarkup.Proofs.Tree.Shape
import SemanticMarkup.Proofs.Tree.Editing
import SemanticMarkup.Proofs.Tree.Depth
import SemanticMarkup.Proofs.Tree.Shallow
import SemanticMarkup.Proofs.Tree.Places
import SemanticMarkup.Proofs.Tree.Individuals
import SemanticMarkup.Proofs.Tree.Exchange
import SemanticMarkup.Proofs.Tree.Preorder
import SemanticMarkup.Proofs.Merge.Marks
import SemanticMarkup.Proofs.Merge.Runs
import SemanticMarkup.Proofs.Merge.Labels
import SemanticMarkup.Proofs.Merge.Segments
import SemanticMarkup.Proofs.Merge.Breaks
import SemanticMarkup.Proofs.Merge.Gate
import SemanticMarkup.Proofs.Merge.Normal
import SemanticMarkup.Proofs.Merge.Joining
import SemanticMarkup.Proofs.Merge.Staging
import SemanticMarkup.Proofs.Conversion.Meaning
import SemanticMarkup.Proofs.Conversion.Texts
import SemanticMarkup.Proofs.Conversion.Conservation
import SemanticMarkup.Proofs.Conversion.Breaks
import SemanticMarkup.Proofs.Conversion.Nesting
import SemanticMarkup.Proofs.Dispatch.Registrations
import SemanticMarkup.Proofs.Dispatch.Recursion
import SemanticMarkup.Proofs.Dispatch.Visit
import SemanticMarkup.Proofs.Dispatch.Calls
import SemanticMarkup.Proofs.Validity.Check
import SemanticMarkup.Proofs.Validity.Exactness
import SemanticMarkup.Proofs.Validity.Passes
import SemanticMarkup.Proofs.Pipeline.Actions
import SemanticMarkup.Proofs.Pipeline.Capability
import SemanticMarkup.Proofs.Pipeline.Markers
import SemanticMarkup.Proofs.Pipeline.Stages
import SemanticMarkup.Proofs.Pipeline.Lasting
import SemanticMarkup.Proofs.Pipeline.Dressing
import SemanticMarkup.Proofs.Pipeline.Batching
import SemanticMarkup.Proofs.Validity.Selection
import SemanticMarkup.Proofs.Pipeline.Outcome
import SemanticMarkup.Proofs.Pipeline.Flagging
import SemanticMarkup.Proofs.Pipeline.Ceiling
import SemanticMarkup.Proofs.Pipeline.Reporting
import SemanticMarkup.Proofs.Pipeline.Pruning
import SemanticMarkup.Proofs.Pipeline.Gate
import SemanticMarkup.Proofs.Pipeline.Resolution
import SemanticMarkup.Proofs.Pipeline.Separation
import SemanticMarkup.Proofs.Likeness.Tree
import SemanticMarkup.Proofs.Likeness.Conversion
import SemanticMarkup.Proofs.Likeness.Attributes
import SemanticMarkup.Proofs.Likeness.Rules
import SemanticMarkup.Proofs.Likeness.Modes
import SemanticMarkup.Proofs.Likeness.Cascade
import SemanticMarkup.Proofs.Likeness.Stacking
import SemanticMarkup.Proofs.Pipeline.Modes
import SemanticMarkup.Proofs.Dispatch.Renaming
import SemanticMarkup.Proofs.Dispatch.Answers
import SemanticMarkup.Proofs.Dispatch.Requests
import SemanticMarkup.Proofs.Dispatch.Termination
import SemanticMarkup.Proofs.Dispatch.Keys
import SemanticMarkup.Proofs.Dispatch.Stretches
import SemanticMarkup.Proofs.Attribution.Events
import SemanticMarkup.Proofs.Attribution.Signatures
import SemanticMarkup.Proofs.Attribution.Batch
import SemanticMarkup.Proofs.Attribution.Run
import SemanticMarkup.Proofs.Attribution.Soundness
import SemanticMarkup.Proofs.Attribution.Stretches
import SemanticMarkup.Proofs.Attribution.Segmentation
import SemanticMarkup.Proofs.Structure.Numbering
import SemanticMarkup.Proofs.Structure.Sections
import SemanticMarkup.Proofs.Structure.Wrappers
import SemanticMarkup.Proofs.Structure.Commuting
import SemanticMarkup.Proofs.Likeness.Stacking
import SemanticMarkup.Proofs.Props.Heads
import SemanticMarkup.Proofs.Props.Styling
import SemanticMarkup.Proofs.Props.Images
import SemanticMarkup.Proofs.Props.Elements
import SemanticMarkup.Proofs.Likeness.Names
import SemanticMarkup.Proofs.Likeness.Spelling
import SemanticMarkup.Proofs.Replacement.Soundness
import SemanticMarkup.Proofs.Replacement.Tolerance
import SemanticMarkup.Proofs.Tree.Individuals
import SemanticMarkup.Proofs.Text.Numerals
import SemanticMarkup.Proofs.Markup.Guard
import SemanticMarkup.Proofs.Decimal.Differences
import SemanticMarkup.Proofs.Fuzz.Streams
import SemanticMarkup.Proofs.Fuzz.Documents
import SemanticMarkup.Proofs.Fuzz.Verdict
import SemanticMarkup.Proofs.Fuzz.Samples
