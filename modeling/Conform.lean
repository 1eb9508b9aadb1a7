import Conform.CommandLine
import Conform.Extension
import Conform.Main
import Conform.Model.Session
import Conform.Proofs.Marks
import Conform.Proofs.Agreement
import Conform.Proofs.LastVisit
import Conform.Proofs.Probe
import Conform.Proofs.Scoped
import Conform.Proofs.Safe
import Conform.Proofs.Rerun
import Conform.Proofs.Spared
import Conform.Proofs.Dependents
import Conform.Proofs.Stale
import Conform.Proofs.ErrorNumbers
import Conform.Proofs.Grammar
import Conform.Proofs.Pointer
import Conform.Proofs.Culprit
import Conform.Proofs.Reading
import Conform.Proofs.Wording
import Conform.Proofs.Journal
import Conform.Proofs.OnlyDirty
import Conform.Proofs.Undone
import Conform.Proofs.Lens
import Conform.Proofs.Restored
import Conform.Proofs.Materialized
import Conform.Proofs.Absent
import Conform.Proofs.TypeCheck
import Conform.Proofs.IntegerText
import Conform.Proofs.Canonical
import Conform.Proofs.Beneath
import Conform.Proofs.ExtraKeys
import Conform.Proofs.Raised
