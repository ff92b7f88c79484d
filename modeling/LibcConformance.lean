import LibcConformance.CharArray.Session
import LibcConformance.CommandLine.Run
import LibcConformance.Log.Validation
import LibcConformance.Main
import LibcConformance.Proofs.LeadingRun
import LibcConformance.Proofs.Format.Spelling
import LibcConformance.Proofs.Format.Tiling
import LibcConformance.Proofs.Format.Slots
import LibcConformance.Proofs.Format.IntegerField
import LibcConformance.Proofs.Format.Destination
import LibcConformance.Proofs.Format.DecimalQuantity
import LibcConformance.Proofs.Format.OneDirective
import LibcConformance.Proofs.Format.Star
import LibcConformance.Proofs.CharArray.Terminated
import LibcConformance.Proofs.Verification.ProbeMeaning
import LibcConformance.Proofs.CText.LiteralReading
import LibcConformance.Proofs.Suite.FormatExpectation
import LibcConformance.Proofs.Suite.EmittedCheck
import LibcConformance.Proofs.Json.StringReadBack
import LibcConformance.Proofs.Json.ReadBack
import LibcConformance.Proofs.Log.LineReadBack
import LibcConformance.Proofs.Suite.DerivedExpectation
import LibcConformance.Proofs.CText.Name
import LibcConformance.Proofs.CText.PrintableText
import LibcConformance.Proofs.Suite.PrintableSource
import LibcConformance.Proofs.Seed.WordStream
import LibcConformance.Proofs.Seed.LetterStream
import LibcConformance.Proofs.Suite.PayloadSlices
import LibcConformance.Proofs.Suite.Soundness
import LibcConformance.Proofs.Suite.PayloadFrame
import LibcConformance.Proofs.Suite.WholeSuite
import LibcConformance.Proofs.Format.PaddingCap
import LibcConformance.Proofs.Format.CanonicalForm
import LibcConformance.Proofs.Json.PrettyReadBack
import LibcConformance.Proofs.Artifact.IndexReadBack
import LibcConformance.Proofs.Log.Schema
import LibcConformance.Proofs.Log.LineCheck
import LibcConformance.Proofs.Log.LogReport
import LibcConformance.Proofs.Log.JournalRun
import LibcConformance.Proofs.CharArray.StringCalls
import LibcConformance.Proofs.CharArray.WrittenExtent
import LibcConformance.Proofs.Emission.Disk
import LibcConformance.Proofs.Emission.LogFile
import LibcConformance.Proofs.Emission.ProgramFiles
import LibcConformance.Proofs.Suite.ProgramSize
import LibcConformance.Proofs.Emission.SuiteRun
import LibcConformance.Proofs.Emission.RunLog
import LibcConformance.Proofs.Emission.Agreement
import LibcConformance.Proofs.Emission.Refusal
import LibcConformance.Proofs.Format.AlternateOctal
import LibcConformance.Proofs.Format.TextField
import LibcConformance.Proofs.Format.PromotedCharacter
import LibcConformance.Proofs.CharArray.StringOrder
import LibcConformance.Proofs.Suite.CopyComparison
import LibcConformance.Proofs.Suite.InnerMove
import LibcConformance.Proofs.Suite.ComparisonCheck
import LibcConformance.Proofs.Clock.Calendar
import LibcConformance.Proofs.Clock.CalendarWalk
import LibcConformance.Proofs.Clock.WordCalendar
import LibcConformance.Proofs.Clock.DecimalField
import LibcConformance.Proofs.Clock.TimestampReadBack
import LibcConformance.Proofs.Seed.DigitText
import LibcConformance.Proofs.Text.Trimming
import LibcConformance.Proofs.Seed.SeedText
import LibcConformance.Proofs.CText.InitializerReading
import LibcConformance.Proofs.CText.LabelWords
import LibcConformance.Proofs.Verification.VerdictText
import LibcConformance.Proofs.Log.AppendedLog
