import DeviceProtocol.Main
import DeviceProtocol.Scanner.Tokens
import DeviceProtocol.Version
import DeviceProtocol.Proofs.NumberReading
import DeviceProtocol.Proofs.Outline
import DeviceProtocol.Proofs.QuotedValues
import DeviceProtocol.Proofs.SettingSources
import DeviceProtocol.Proofs.StorablePrograms
import DeviceProtocol.Proofs.Consulted
import DeviceProtocol.Proofs.WrittenReferences
import DeviceProtocol.Proofs.KnownHandlers
import DeviceProtocol.Proofs.TextBehind
import DeviceProtocol.Proofs.UnrelatedProtocols
import DeviceProtocol.Proofs.FileInvariant
import DeviceProtocol.Proofs.TextAppended
import DeviceProtocol.Proofs.OrderlyFailures
import DeviceProtocol.Proofs.WrittenFiles
import DeviceProtocol.Proofs.ReadableOutline
import DeviceProtocol.Proofs.ReferenceDepth
import DeviceProtocol.Proofs.CommandSequences
import DeviceProtocol.Proofs.SentArguments
import DeviceProtocol.Proofs.HostCompilation
import DeviceProtocol.Proofs.Inquiries
import DeviceProtocol.Proofs.FaultKinds
import DeviceProtocol.Proofs.HostRequests
import DeviceProtocol.Proofs.UnchangedFiles
import DeviceProtocol.Proofs.Lines
import DeviceProtocol.Proofs.UnrelatedVariables
import DeviceProtocol.Proofs.Reports
import DeviceProtocol.Proofs.LegalFields
import DeviceProtocol.Proofs.ProtocolStream
import DeviceProtocol.Proofs.SentTexts
import DeviceProtocol.Proofs.JoinedStrings
import DeviceProtocol.Proofs.InlinedReferences
import DeviceProtocol.Proofs.DepthLimit
import DeviceProtocol.Proofs.PrintedStrings
import DeviceProtocol.Proofs.FormatGrammar
import DeviceProtocol.Proofs.DoubledPercents
import DeviceProtocol.Proofs.EscapedQuotes
import DeviceProtocol.Proofs.InterpolatedStrings
import DeviceProtocol.Proofs.LaterLines
import DeviceProtocol.Proofs.FaultLines
import DeviceProtocol.Proofs.RemainingText
import DeviceProtocol.Proofs.LineEnds
import DeviceProtocol.Proofs.InsideBodies
import DeviceProtocol.Proofs.MovedAssignments
import DeviceProtocol.Proofs.ReadingSteps
import DeviceProtocol.Proofs.FaultPlaces
import DeviceProtocol.Proofs.IntegerLiterals
import DeviceProtocol.Proofs.CollapsedGaps
import DeviceProtocol.Proofs.ReadingEnds
import DeviceProtocol.Proofs.PairedBackslashes
