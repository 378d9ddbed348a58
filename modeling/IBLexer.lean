import IBLexer.Main
import IBLexer.Proofs.Grammar.Acceptance
import IBLexer.Proofs.Stream.Rendering
import IBLexer.Proofs.Recovery.Locality
import IBLexer.Proofs.Recovery.Repair
import IBLexer.Proofs.Recovery.Quotation
import IBLexer.Proofs.Recovery.Diagnostic
import IBLexer.Proofs.Recovery.CarriageReturn
import IBLexer.Proofs.Recovery.Separation
import IBLexer.Proofs.CommandLine.Arguments
import IBLexer.Proofs.CommandLine.Verdict
import IBLexer.Proofs.Source.Loading
import IBLexer.Proofs.Session.History
import IBLexer.Proofs.Session.Remainder
import IBLexer.Proofs.Session.Termination
import IBLexer.Proofs.Session.Interleaving
import IBLexer.Proofs.Stream.Lexeme
import IBLexer.Proofs.Grammar.Classification
import IBLexer.Proofs.Stream.Listing
