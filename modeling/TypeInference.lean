import TypeInference.Settings.Reader
import TypeInference.Log.Settings
import TypeInference.Session
import TypeInference.Proofs.Accessor.Dictionary
import TypeInference.Proofs.Admission
import TypeInference.Proofs.Ancestry.Instantiation
import TypeInference.Proofs.Binding.Collecting
import TypeInference.Proofs.Binding.Rearrangement
import TypeInference.Proofs.Canonical
import TypeInference.Proofs.FixedTree.Projection
import TypeInference.Proofs.Grammar
import TypeInference.Proofs.History
import TypeInference.Proofs.Recovery
import TypeInference.Proofs.Reporting
import TypeInference.Proofs.Watch.Budget
import TypeInference.Proofs.Watch.Guards
import TypeInference.Proofs.Termination.Divergence
import TypeInference.Proofs.Transparency
import TypeInference.Proofs.TupleReading
import TypeInference.Proofs.Unification.Mention
import TypeInference.Proofs.Unification.Widening
