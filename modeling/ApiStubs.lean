import ApiStubs.Main
import ApiStubs.Session
import ApiStubs.Template.Printer
import ApiStubs.Proofs.Spans
import ApiStubs.Proofs.Spelling
import ApiStubs.Proofs.RoundTrip
import ApiStubs.Proofs.Merge
import ApiStubs.Proofs.MergeEffect
import ApiStubs.Proofs.LineEnds
import ApiStubs.Proofs.Locality
import ApiStubs.Proofs.Faults
import ApiStubs.Proofs.Generation
import ApiStubs.Proofs.NameClashes
import ApiStubs.Proofs.Shadowing
import ApiStubs.Proofs.Runs
import ApiStubs.Proofs.Alternatives
import ApiStubs.Proofs.Reserved
import ApiStubs.Proofs.Dropped
import ApiStubs.Proofs.Documentation
import ApiStubs.Proofs.Literals
import ApiStubs.Proofs.Lowering
import ApiStubs.Proofs.Tiling
import ApiStubs.Proofs.WordBreaks
import ApiStubs.Proofs.Positions
