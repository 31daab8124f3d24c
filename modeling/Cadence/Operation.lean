/-!
# Operations

The four kinds of operations that can be put under load.
-/

namespace Cadence

/-- A kind of operation. -/
inductive Operation where
  | upload
  | download
  | findProviders
  | indexerLookup
deriving DecidableEq, Repr

/-- The name of an operation on the command line, in output and in logs. -/
def Operation.name : Operation → String
  | upload => "upload"
  | download => "download"
  | findProviders => "find-providers"
  | indexerLookup => "indexer-lookup"

end Cadence
