import TypeInType.FileTree
import TypeInType.Main
import TypeInType.Program.Session
import TypeInType.Proofs.BoundNames
import TypeInType.Proofs.Conversion
import TypeInType.Proofs.Congruence
import TypeInType.Proofs.Preservation
import TypeInType.Proofs.Typing
import TypeInType.Proofs.InlinedProof
import TypeInType.Proofs.ContextRules
import TypeInType.Proofs.Derivations
import TypeInType.Proofs.Inlining
import TypeInType.Proofs.Gaps
import TypeInType.Proofs.Lexing
import TypeInType.Proofs.Tokenizing
import TypeInType.Proofs.Spelling
import TypeInType.Proofs.Rereading
import TypeInType.Proofs.ProgramDescent
import TypeInType.Proofs.RoundTrip
import TypeInType.Proofs.Grammar
import TypeInType.Proofs.Growth
import TypeInType.Proofs.Acceptance
import TypeInType.Proofs.ReadLabels
import TypeInType.Proofs.FirstFault
import TypeInType.Proofs.Visits
import TypeInType.Proofs.Accounting
import TypeInType.Proofs.Remainder
import TypeInType.Proofs.Places
import TypeInType.Proofs.Labels
import TypeInType.Proofs.ReportedPlaces
import TypeInType.Proofs.InventedNames
import TypeInType.Proofs.Resuming
import TypeInType.Proofs.Comparison
import TypeInType.Proofs.FreeNames
import TypeInType.Proofs.Widening
import TypeInType.Proofs.Standardization
import TypeInType.Proofs.NormalForms
import TypeInType.Proofs.PlaceIndependence
import TypeInType.Proofs.KeepingGoing
import TypeInType.Proofs.Plugging
import TypeInType.Proofs.Independence
import TypeInType.Proofs.Weakening
import TypeInType.Proofs.ScopedTyping
import TypeInType.Proofs.Termination
import TypeInType.Proofs.Loading
import TypeInType.Proofs.Relabelling
import TypeInType.Proofs.SupplyHistory
