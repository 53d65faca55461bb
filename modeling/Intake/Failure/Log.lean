import Intake.Failure

/-!
The log of an import's failed batches, oldest first. Every failed batch has an
entry with the records that it was made of.
-/
namespace Intake

structure FailedBatch where
  records : List Record
  failure : Failure
deriving DecidableEq

/-- The entry on one line. -/
def FailedBatch.message (b : FailedBatch) : String := s!"{b.records.length} records: " ++ b.failure.message

/-- The entry for the one who runs the import, marked if another run may help. -/
def FailedBatch.described (b : FailedBatch) : String :=
  s!"{b.records.length} records: " ++ b.failure.userMessage ++
    (if b.failure.isRetryable then " (retryable)" else "")

structure FailureLog where
  failures : List FailedBatch := []
deriving DecidableEq

namespace FailureLog

def push (log : FailureLog) (b : FailedBatch) : FailureLog := ⟨log.failures ++ [b]⟩

def size (log : FailureLog) : Nat := log.failures.length

def isEmpty (log : FailureLog) : Bool := log.failures.isEmpty

/-- The number of records in all failed batches. -/
def failedRecords (log : FailureLog) : Nat := log.failures.foldl (fun n b => n + b.records.length) 0

/-- The log, unless no batch failed. -/
def nonempty? (log : FailureLog) : Option FailureLog := if log.isEmpty then none else some log

def message (_ : FailureLog) : String := "one or more batches failed to import"

end FailureLog

end Intake
