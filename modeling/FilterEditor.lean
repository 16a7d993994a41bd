import FilterEditor.Main
import FilterEditor.Editor.Snapshot
import FilterEditor.SuggestionList
import FilterEditor.Proofs.Loading
import FilterEditor.Proofs.Retyping
import FilterEditor.Proofs.Normal
import FilterEditor.Proofs.Percent
import FilterEditor.Proofs.Sentence
import FilterEditor.Proofs.Spelling
import FilterEditor.Proofs.Genuine
import FilterEditor.Proofs.Restoring
import FilterEditor.Proofs.Agreement
import FilterEditor.Proofs.Marks
import FilterEditor.Proofs.Remarks
import FilterEditor.Proofs.Texts
import FilterEditor.Proofs.Alike
import FilterEditor.Proofs.Carried
import FilterEditor.Proofs.Visiting
import FilterEditor.Proofs.Completing
import FilterEditor.Proofs.Saving
import FilterEditor.Proofs.Overtyping
import FilterEditor.Proofs.Drafting
import FilterEditor.Proofs.Asking
import FilterEditor.Proofs.Submitting
import FilterEditor.Proofs.Escaping
import FilterEditor.Proofs.Validity
import FilterEditor.Proofs.Verbatim
import FilterEditor.Proofs.Dumping
import FilterEditor.Proofs.Columns
import FilterEditor.Proofs.Overriding
import FilterEditor.Proofs.Matching
import FilterEditor.Proofs.Script
import FilterEditor.Proofs.Nesting
import FilterEditor.Proofs.Listing
import FilterEditor.Proofs.Halves
import FilterEditor.Proofs.Batching
import FilterEditor.Proofs.Stored
import FilterEditor.Proofs.Circling
