import RangeIndex.Batch
import RangeIndex.Collection.Registry
import RangeIndex.Configuration.Outline
import RangeIndex.Configuration.Reading
import RangeIndex.Entry.Collector
import RangeIndex.Entry.Field
import RangeIndex.Entry.Indexer
import RangeIndex.Location.Basic
import RangeIndex.Location.Buffer
import RangeIndex.Location.Matching
import RangeIndex.Location.Reading
import RangeIndex.Location.Trail
import RangeIndex.Markup.Bytes
import RangeIndex.Markup.Cursor
import RangeIndex.Markup.Event
import RangeIndex.Markup.Reference
import RangeIndex.Name.Basic
import RangeIndex.Name.Bindings
import RangeIndex.Name.Scopes
import RangeIndex.Number.Basic
import RangeIndex.Number.Decimal
import RangeIndex.Number.Layout
import RangeIndex.Number.Rounding
import RangeIndex.Number.Shortest
import RangeIndex.Query.Budget
import RangeIndex.Query.Cache
import RangeIndex.Query.Comparison
import RangeIndex.Query.Expr
import RangeIndex.Query.Focus
import RangeIndex.Query.Lexing
import RangeIndex.Query.Optimizing
import RangeIndex.Query.Parsing
import RangeIndex.Query.Printing
import RangeIndex.Query.RecentlyUsed
import RangeIndex.Query.Rewriting
import RangeIndex.Query.StaticPath
import RangeIndex.Query.Token
import RangeIndex.Rule.Assignment
import RangeIndex.Rule.Basic
import RangeIndex.Rule.Condition
import RangeIndex.Rule.Options
import RangeIndex.Rule.Resolution
import RangeIndex.Text.Blank
import RangeIndex.Text.Letter
import RangeIndex.Text.Lowercase
import RangeIndex.Text.Pieces
import RangeIndex.Text.Quoted
import RangeIndex.Text.Ranges
import RangeIndex.Text.Utf8
import RangeIndex.Text.Visible
import RangeIndex.Proofs.ConditionAssignment
import RangeIndex.Proofs.PatternContainment
import RangeIndex.Proofs.RuleResolution
import RangeIndex.Proofs.PredicateFates
import RangeIndex.Proofs.PredicateConservation
import RangeIndex.Proofs.PredicateJustification
import RangeIndex.Proofs.StepCoverage
import RangeIndex.Proofs.DocumentForest
import RangeIndex.Proofs.CollectorSemantics
import RangeIndex.Proofs.IndexingSemantics
import RangeIndex.Proofs.LiteralInstances
import RangeIndex.Proofs.OptimizationFixpoint
import RangeIndex.Proofs.CollectionCoverage
import RangeIndex.Proofs.DocumentTrail
import RangeIndex.Proofs.FieldSources
import RangeIndex.Proofs.NodeTrails
import RangeIndex.Proofs.FieldAnchors
import RangeIndex.Proofs.NumeralText
import RangeIndex.Proofs.StepReach
import RangeIndex.Proofs.StepRestoration
import RangeIndex.Proofs.TokenSpelling
import RangeIndex.Proofs.TokenText
import RangeIndex.Proofs.SpelledText
import RangeIndex.Proofs.ReadingRules
import RangeIndex.Proofs.RenderedForms
import RangeIndex.Proofs.RenderedText
import RangeIndex.Proofs.CanonicalTrees
import RangeIndex.Proofs.ParsedForms
import RangeIndex.Proofs.RegistryHistory
import RangeIndex.Proofs.NearestConfiguration
import RangeIndex.Proofs.SystemCollections
import RangeIndex.Proofs.IndexerReuse
import RangeIndex.Proofs.ComplexRuleNodes
import RangeIndex.Proofs.QueryRecency
import RangeIndex.Proofs.BatchInterleaving
import RangeIndex.Proofs.EncodedText
import RangeIndex.Proofs.WrittenText
import RangeIndex.Proofs.WrittenDocument
import RangeIndex.Proofs.ElementReading
import RangeIndex.Proofs.IndexingBalance
import RangeIndex.Proofs.ConditionMatching
import RangeIndex.Proofs.ElementTrees
import RangeIndex.Proofs.TreeOutlines
import RangeIndex.Proofs.OutlineNesting
import RangeIndex.Proofs.RuleElements
import RangeIndex.Proofs.RuleIndependence
import RangeIndex.Proofs.LoadedRules
import RangeIndex.Proofs.PatternCuts
import RangeIndex.Proofs.ExactContexts
import RangeIndex.Proofs.RuleRanking
import RangeIndex.Proofs.ConditionImplication
import RangeIndex.Proofs.ScopeFrames
import RangeIndex.Proofs.PathGrammar
import RangeIndex.Proofs.PathText
import RangeIndex.Proofs.DirectText
import RangeIndex.Proofs.LabelIndependence
import RangeIndex.Proofs.PathsInPlace
import RangeIndex.Proofs.Evaluation
import RangeIndex.Proofs.ContextIndependence
import RangeIndex.Proofs.PositionIndependence
import RangeIndex.Proofs.JoinedPatterns
import RangeIndex.Proofs.GapRuns
import RangeIndex.Proofs.PositionCalls
import RangeIndex.Proofs.WalkedPredicates
import RangeIndex.Proofs.RemainingText
import RangeIndex.Proofs.TextSeams
import RangeIndex.Proofs.QueryComments
import RangeIndex.Proofs.ReadingOrder
import RangeIndex.Proofs.NamePaths
import RangeIndex.Proofs.ReferenceGrammar
import RangeIndex.Proofs.ReferenceDecoding
import RangeIndex.Proofs.DocumentTypes
import RangeIndex.Proofs.BufferRoom
import RangeIndex.Proofs.ScopeDepth
import RangeIndex.Proofs.InitialLabel
import RangeIndex.Proofs.ConditionNames
import RangeIndex.Proofs.SharedPublications
import RangeIndex.Proofs.TreatedText
import RangeIndex.Proofs.TerminatorSearch
