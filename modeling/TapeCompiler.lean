import TapeCompiler.Golden.Samples
import TapeCompiler.Main
import TapeCompiler.Mnemonic
import TapeCompiler.Number.Literal
import TapeCompiler.Proofs.Comments
import TapeCompiler.Proofs.ExtensionLaws
import TapeCompiler.Proofs.GoldenAgreement
import TapeCompiler.Proofs.GoldenDrift
import TapeCompiler.Proofs.GoldenFailure
import TapeCompiler.Proofs.ItemFiltering
import TapeCompiler.Proofs.LabelLedger
import TapeCompiler.Proofs.Meaning
import TapeCompiler.Proofs.NumeralGrammar
import TapeCompiler.Proofs.ProgramTree
import TapeCompiler.Proofs.TapeLimits
import TapeCompiler.Proofs.VerboseLog
