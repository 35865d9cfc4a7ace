/-! # Crashes -/
namespace Placement

/-- What brings an evaluation down, and the worker with it. -/
inductive Crash
  /-- A time that had to be computed cannot be represented. -/
  | unrepresentableTime
  /-- The source of device attributes broke down. -/
  | device
  /-- The receiver of trigger fires broke down. -/
  | reporter
  deriving DecidableEq

end Placement
