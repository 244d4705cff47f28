import PrintJob.FileTree
import PrintJob.Main
import PrintJob.Proofs.CommentEdit
import PrintJob.Proofs.DurationRoundTrip
import PrintJob.Proofs.EndOfRun
import PrintJob.Proofs.FiniteRun
import PrintJob.Proofs.JsonReports
import PrintJob.Proofs.LastDeclaration
import PrintJob.Proofs.LineBoundary
import PrintJob.Proofs.LineCut
import PrintJob.Proofs.LineEnds
import PrintJob.Proofs.LongerLine
import PrintJob.Proofs.MoveCode
import PrintJob.Proofs.NoUpdateLost
import PrintJob.Proofs.PrintTime
import PrintJob.Proofs.ReportLines
import PrintJob.Proofs.RisingSums
import PrintJob.Proofs.RunReports
import PrintJob.Proofs.SettingsLayers
import PrintJob.Proofs.TextRows
import PrintJob.Proofs.TwoPolicies
import PrintJob.Proofs.CodeEdit
import PrintJob.Proofs.ReportParagraph
import PrintJob.Proofs.FirstWords
import PrintJob.Proofs.DurationSum
import PrintJob.Proofs.HiddenSemicolon
import PrintJob.Proofs.FractionTail
import PrintJob.Proofs.FiniteRange
import PrintJob.Proofs.PlainNumbers
import PrintJob.Proofs.ValueWords
import PrintJob.Proofs.CommentTexts
import PrintJob.Proofs.DeclaredNumbers
import PrintJob.Proofs.FeedWords
import PrintJob.Proofs.TokenSpacing
import PrintJob.Proofs.ExtruderValues
import PrintJob.Proofs.LayerPatterns
import PrintJob.Proofs.StandingMoves
import PrintJob.Proofs.SkippedTime
import PrintJob.Proofs.DefaultRate
import PrintJob.Proofs.UncheckedScan
import PrintJob.Proofs.NumberSpan
import PrintJob.Proofs.FirstOccurrence
import PrintJob.Proofs.TokenSpan
