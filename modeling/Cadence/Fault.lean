import Cadence.SystemError

/-!
# Faults

The causes for which a run, or a read or write of an identifier file, is refused or given up.

* `Fault.isConfig` tells mistakes in the configuration from faults during the run.
-/

namespace Cadence

/-- Why a run was refused or given up. -/
inductive Fault where
  | system (error : SystemError)
  | invalidRate
  | invalidTick
  | invalidReportInterval
  | invalidTimeout
  | invalidDuration
  | invalidPayloadSize
  | sourceContract (remaining : Nat)
  | noneInFlight
  | channelClosed (active : Nat)
deriving DecidableEq, Repr

namespace Fault

/-- The largest number of operations that one tick may dispatch. -/
def maxRate : Nat := 1000000

/-- The wording of a fault. -/
def message : Fault → String
  | .system e => "io error: " ++ e.message
  | .invalidRate => "`rate` must be between 1 and " ++ toString maxRate
  | .invalidTick => "`tick` must be a positive duration"
  | .invalidReportInterval => "`report_interval` must be a positive duration"
  | .invalidTimeout => "`timeout` must be a positive duration"
  | .invalidDuration => "`duration` must be a positive duration"
  | .invalidPayloadSize => "payload `size` must be a positive number of bytes"
  | .sourceContract n => "workload source reported " ++ toString n ++ " remaining items but yielded none"
  | .noneInFlight => "completion received with no operation in flight"
  | .channelClosed n => "completion channel closed with " ++ toString n ++ " operations in flight"

/-- Whether the configuration is at fault. -/
def isConfig : Fault → Bool
  | .invalidRate | .invalidTick | .invalidReportInterval | .invalidTimeout | .invalidDuration
  | .invalidPayloadSize => true
  | _ => false

/-- The texts of the fault and of what caused it, the fault first. -/
def causes : Fault → List String
  | .system e => [message (.system e), e.message]
  | f => [f.message]

end Fault
end Cadence
