import BasicComputer.Log
import BasicComputer.Main
import BasicComputer.Proofs.Texts
import BasicComputer.Proofs.Decoding
import BasicComputer.Proofs.Outcomes
import BasicComputer.Proofs.Passes
import BasicComputer.Proofs.Addresses
import BasicComputer.Proofs.CounterAgreement
import BasicComputer.Proofs.InstructionWords
import BasicComputer.Proofs.Reassembly
import BasicComputer.Proofs.Faults
import BasicComputer.Proofs.LaterLines
import BasicComputer.Proofs.LineAccounts
import BasicComputer.Proofs.SkippedLines
import BasicComputer.Proofs.ListingTexts
import BasicComputer.Proofs.Logs
import BasicComputer.Proofs.Relocation
import BasicComputer.Proofs.ReplacedTokens
import BasicComputer.Proofs.Renaming
import BasicComputer.Proofs.Layout
import BasicComputer.Proofs.Deliveries
import BasicComputer.Proofs.AddedFlags
import BasicComputer.Proofs.DeniedWarnings
import BasicComputer.Proofs.SavedFiles
import BasicComputer.Proofs.NumeralGrammar
import BasicComputer.Proofs.OperandIssues
import BasicComputer.Proofs.DataLiterals
import BasicComputer.Proofs.ListingGrammar
import BasicComputer.Proofs.OrgLines
import BasicComputer.Proofs.SymbolReports
import BasicComputer.Proofs.ReportLines
import BasicComputer.Proofs.SavedNames
