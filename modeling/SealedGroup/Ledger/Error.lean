/-!
# Ledger errors

Why a ledger cannot answer. The texts are the ledger's own words.
-/

namespace SealedGroup

/-- Why a ledger cannot answer. -/
inductive LedgerError where
  /-- The ledger could not be locked. -/
  | lock (reason : String)
  /-- What is stored cannot be read back. -/
  | serialization (reason : String)
  /-- No group is stored under the identifier. -/
  | groupNotFound (id : String)
  /-- Any other failure of the ledger. -/
  | backend (reason : String)
  deriving DecidableEq, Repr

namespace LedgerError

/-- The error text. -/
def message : LedgerError → String
  | lock reason => "Storage lock error: " ++ reason
  | serialization reason => "Storage serialization error: " ++ reason
  | groupNotFound id => "Group not found in storage: " ++ id
  | backend reason => "Storage backend error: " ++ reason

end LedgerError

end SealedGroup
