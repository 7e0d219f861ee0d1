import DesignRecipe.Machine
import DesignRecipe.Main
import DesignRecipe.Disk
import DesignRecipe.Host
import DesignRecipe.Proofs.Text.Trimming
import DesignRecipe.Proofs.Text.Blank
import DesignRecipe.Proofs.Literal.Grammar
import DesignRecipe.Proofs.Literal.Completeness
import DesignRecipe.Proofs.Value.Integer
import DesignRecipe.Proofs.Literal.RoundTrip
import DesignRecipe.Proofs.Outline.State
import DesignRecipe.Proofs.Outline.Line
import DesignRecipe.Proofs.Outline.Run
import DesignRecipe.Proofs.Outline.Segments
import DesignRecipe.Proofs.Outline.Diagnostics
import DesignRecipe.Proofs.Outline.Accounting
import DesignRecipe.Proofs.Outline.Abort
import DesignRecipe.Proofs.Literal.Soundness
import DesignRecipe.Proofs.Token.Scan
import DesignRecipe.Proofs.Token.Step
import DesignRecipe.Proofs.Token.Slots
import DesignRecipe.Proofs.Token.Nesting
import DesignRecipe.Proofs.Token.Content
import DesignRecipe.Proofs.Token.Reread
import DesignRecipe.Proofs.Token.Written
import DesignRecipe.Proofs.Token.Layout
import DesignRecipe.Proofs.Coercion
import DesignRecipe.Proofs.Outline.Composition
import DesignRecipe.Proofs.Outline.ExampleLine
import DesignRecipe.Proofs.Outline.WellFormed
import DesignRecipe.Proofs.Outline.Columns
import DesignRecipe.Proofs.Outline.SectionOrder
import DesignRecipe.Proofs.Outline.Placement
import DesignRecipe.Proofs.Outline.Carets
import DesignRecipe.Proofs.Outline.Replacement
import DesignRecipe.Proofs.Outline.Locality
import DesignRecipe.Proofs.Outline.Settings
import DesignRecipe.Proofs.Outline.Completeness
import DesignRecipe.Proofs.Outline.ExampleCount
import DesignRecipe.Proofs.Value.Normal
import DesignRecipe.Proofs.Python.Characters
import DesignRecipe.Proofs.Text.Lines
import DesignRecipe.Proofs.Outline.Printable
import DesignRecipe.Proofs.Outline.QuotedArrow
import DesignRecipe.Proofs.Outline.ExampleEffect
import DesignRecipe.Proofs.Outline.Header
import DesignRecipe.Proofs.Outline.MissingPipe
import DesignRecipe.Proofs.Python.Suite
import DesignRecipe.Proofs.Path
import DesignRecipe.Proofs.Disk
import DesignRecipe.Proofs.OutlineFile
import DesignRecipe.Proofs.Generation
import DesignRecipe.Proofs.Machine
import DesignRecipe.Proofs.CommandLine.Turn
import DesignRecipe.Proofs.CommandLine.Generate
import DesignRecipe.Proofs.CommandLine.Batch
import DesignRecipe.Proofs.CommandLine.Consent
import DesignRecipe.Proofs.Token.Rewritten
import DesignRecipe.Proofs.Parameters
import DesignRecipe.Proofs.Text.Identifier
import DesignRecipe.Proofs.Outline.Purpose
import DesignRecipe.Proofs.Outline.Identifiers
import DesignRecipe.Proofs.Outline.OuterBlanks
import DesignRecipe.Proofs.Text.Words
import DesignRecipe.Proofs.Outline.Contract
import DesignRecipe.Proofs.Outline.InOuts
import DesignRecipe.Proofs.Value.Representation
import DesignRecipe.Proofs.Decimal.Reading
import DesignRecipe.Proofs.Complex
import DesignRecipe.Proofs.Report
import DesignRecipe.Proofs.Python.Source
import DesignRecipe.Proofs.CommandLine.Discovery
import DesignRecipe.Proofs.Decimal.Nearest
import DesignRecipe.Proofs.Decimal.Double
import DesignRecipe.Proofs.Outline.Levels
import DesignRecipe.Proofs.Python.MethodNames
