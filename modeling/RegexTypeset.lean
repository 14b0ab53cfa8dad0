import RegexTypeset.Main
import RegexTypeset.Proofs.Surround
import RegexTypeset.Proofs.PlainText
import RegexTypeset.Proofs.BareText
import RegexTypeset.Proofs.ReadingSteps
import RegexTypeset.Proofs.RoundTrip
import RegexTypeset.Proofs.ProperLexemes
import RegexTypeset.Proofs.ReadTrees
import RegexTypeset.Proofs.LexemeExtent
import RegexTypeset.Proofs.VerboseScope
import RegexTypeset.Proofs.SurroundedReading
import RegexTypeset.Proofs.EdgeCuts
import RegexTypeset.Proofs.SampleReading
import RegexTypeset.Proofs.BlockedReading
import RegexTypeset.Proofs.HiddenQuantifier
import RegexTypeset.Proofs.LeftOut
import RegexTypeset.Proofs.BareEdges
import RegexTypeset.Proofs.AlikeReadings
import RegexTypeset.Proofs.InlineVerbose
import RegexTypeset.Proofs.SpelledLexemes
import RegexTypeset.Proofs.SpelledTabs
import RegexTypeset.Proofs.Decoding
import RegexTypeset.Proofs.TargetTexts
import RegexTypeset.Proofs.EscapedTrees
import RegexTypeset.Proofs.GroupedReading
import RegexTypeset.Proofs.ComposedPatterns
import RegexTypeset.Proofs.ScopedFlags
import RegexTypeset.Proofs.CompiledRendering
import RegexTypeset.Proofs.ConsoleRuns
import RegexTypeset.Proofs.InputLines
import RegexTypeset.Proofs.VerboseLayout
import RegexTypeset.Proofs.FaultPlaces
import RegexTypeset.Proofs.TreeDefects
import RegexTypeset.Proofs.CountedItems
import RegexTypeset.Proofs.SafeEdges
import RegexTypeset.Proofs.InertText
import RegexTypeset.Proofs.SharedStyles
import RegexTypeset.Proofs.Descent
import RegexTypeset.Proofs.CursorDiscipline
import RegexTypeset.Proofs.DescentLexemes
import RegexTypeset.Proofs.DescentReading
