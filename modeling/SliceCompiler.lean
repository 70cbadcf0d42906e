import SliceCompiler.Proofs.Acceptance
import SliceCompiler.Proofs.Addressing
import SliceCompiler.Proofs.Agreement
import SliceCompiler.Proofs.Appending
import SliceCompiler.Proofs.Constants
import SliceCompiler.Proofs.Decoding
import SliceCompiler.Proofs.Effect
import SliceCompiler.Proofs.Interruption
import SliceCompiler.Proofs.Lookups
import SliceCompiler.Proofs.MaskTexts
import SliceCompiler.Proofs.Objections
import SliceCompiler.Proofs.Overflow
import SliceCompiler.Proofs.Packing
import SliceCompiler.Proofs.Parameters
import SliceCompiler.Proofs.Patching
import SliceCompiler.Proofs.Redundancy
import SliceCompiler.Proofs.Reports
import SliceCompiler.Proofs.Selection
import SliceCompiler.Proofs.Settings
import SliceCompiler.Proofs.Slots
import SliceCompiler.Proofs.Words
