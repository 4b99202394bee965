import FormCompiler.AttributeType
import FormCompiler.Bundle
import FormCompiler.Bundle.Reader
import FormCompiler.Cardinality
import FormCompiler.CommandLine.Help
import FormCompiler.CommandLine.Invocation
import FormCompiler.CommandLine.Run
import FormCompiler.CommandLine.Syntax
import FormCompiler.Compile
import FormCompiler.CompileError
import FormCompiler.Date
import FormCompiler.DateExpression
import FormCompiler.Dictionary
import FormCompiler.DocumentError
import FormCompiler.Entries
import FormCompiler.FieldBuilder
import FormCompiler.FileTree
import FormCompiler.Form
import FormCompiler.Form.Writer
import FormCompiler.IdentifierTree
import FormCompiler.Journal
import FormCompiler.Json.Basic
import FormCompiler.Json.Binary64
import FormCompiler.Json.Printer
import FormCompiler.Json.Reader
import FormCompiler.Json.Shape
import FormCompiler.Json.Shortest
import FormCompiler.Locale
import FormCompiler.Localized
import FormCompiler.Main
import FormCompiler.Notice
import FormCompiler.PageAddress
import FormCompiler.Path
import FormCompiler.Presentation
import FormCompiler.Presentation.Reader
import FormCompiler.Presentation.Schema
import FormCompiler.Presentation.Writer
import FormCompiler.Question
import FormCompiler.References
import FormCompiler.Schema
import FormCompiler.Text.Affix
import FormCompiler.Text.Blank
import FormCompiler.Text.Quoted
import FormCompiler.Text.Unprintable
import FormCompiler.Timestamp
import FormCompiler.Timestamp.Rfc3339
import FormCompiler.Walk
import FormCompiler.Walker
import FormCompiler.Walker.Field
import FormCompiler.Walker.Page
import FormCompiler.Widget
import FormCompiler.Proofs.ReferenceGraph
import FormCompiler.Proofs.ResolutionRun
import FormCompiler.Proofs.Resolution
import FormCompiler.Proofs.FieldDerivation
import FormCompiler.Proofs.PageDerivation
import FormCompiler.Proofs.Compilation
import FormCompiler.Proofs.Mirror
import FormCompiler.Proofs.WalkErrors
import FormCompiler.Proofs.PageErrors
import FormCompiler.Proofs.FormEntries
import FormCompiler.Proofs.VisitedAttributes
import FormCompiler.Proofs.Placement
import FormCompiler.Proofs.LabelKeys
import FormCompiler.Proofs.FormSites
import FormCompiler.Proofs.SiteOrigins
import FormCompiler.Proofs.Words
import FormCompiler.Proofs.DottedPaths
import FormCompiler.Proofs.ReadonlyRules
import FormCompiler.Proofs.IdentifierPaths
import FormCompiler.Proofs.ListIdentifiers
import FormCompiler.Proofs.PathKeys
import FormCompiler.Proofs.MandatoryAnswers
import FormCompiler.Proofs.Observation
import FormCompiler.Proofs.PairedWalks
import FormCompiler.Proofs.PairedCompilations
import FormCompiler.Proofs.CallerSettings
import FormCompiler.Proofs.LocaleRecords
import FormCompiler.Proofs.RequestedLanguages
import FormCompiler.Proofs.UnreachedBundles
import FormCompiler.Proofs.Overlay
import FormCompiler.Proofs.ThreadedWalks
import FormCompiler.Proofs.DistinctKeys
import FormCompiler.Proofs.SchemaRules
import FormCompiler.Proofs.PresentationRules
import FormCompiler.Proofs.ListReading
import FormCompiler.Proofs.ValidPresentations
import FormCompiler.Proofs.ValidAddresses
import FormCompiler.Proofs.StoredFiles
import FormCompiler.Proofs.WritableForms
import FormCompiler.Proofs.HandedOutForms
import FormCompiler.Proofs.SharedKeys
import FormCompiler.Proofs.PlainResolution
import FormCompiler.Proofs.ResolutionMemory
import FormCompiler.Proofs.NamedReferences
import FormCompiler.Proofs.MetEntries
import FormCompiler.Proofs.ShownPaths
import FormCompiler.Proofs.SectionTitles
import FormCompiler.Proofs.ResolutionObstacles
import FormCompiler.Proofs.ReportedCycles
import FormCompiler.Proofs.QuestionExtras
import FormCompiler.Proofs.WrittenIdentifiers
import FormCompiler.Proofs.DeclaredChoices
import FormCompiler.Proofs.ChoiceLabels
import FormCompiler.Proofs.DescriptorKinds
import FormCompiler.Proofs.CalendarDays
import FormCompiler.Proofs.DateShifts
import FormCompiler.Proofs.DateTexts
import FormCompiler.Proofs.RelativeDates
import FormCompiler.Proofs.DateDirections
import FormCompiler.Proofs.DateSpellings
import FormCompiler.Proofs.WrittenDates
import FormCompiler.Proofs.WrittenPresentations
import FormCompiler.Proofs.BundleGrammar
import FormCompiler.Proofs.TypeTexts
import FormCompiler.Proofs.CardinalityTexts
import FormCompiler.Proofs.OutputManner
import FormCompiler.Proofs.IndependentTexts
import FormCompiler.Proofs.RecordedPaths
import FormCompiler.Proofs.ResolverSteps
import FormCompiler.Proofs.ResolverRuns
import FormCompiler.Proofs.QuestionDepth
import FormCompiler.Proofs.DeclaredLanguages
