import PathScript.CommandLine.Command
import PathScript.Main
import PathScript.Proofs.AllOrNothing
import PathScript.Proofs.Atomicity
import PathScript.Proofs.Containment
import PathScript.Proofs.CoordinateRange
import PathScript.Proofs.Decoding
import PathScript.Proofs.ErrorLines
import PathScript.Proofs.Executables
import PathScript.Proofs.Gathering
import PathScript.Proofs.Identity
import PathScript.Proofs.LazyReading
import PathScript.Proofs.LexicalGrammar
import PathScript.Proofs.LineStyle
import PathScript.Proofs.MatchingBrace
import PathScript.Proofs.NeutralMap
import PathScript.Proofs.NumberLiterals
import PathScript.Proofs.Outline
import PathScript.Proofs.Painting
import PathScript.Proofs.Persistence
import PathScript.Proofs.PlainOutput
import PathScript.Proofs.Relaxation
import PathScript.Proofs.Restoration
import PathScript.Proofs.Rolling
import PathScript.Proofs.RoundTrip
import PathScript.Proofs.TakenConditional
