/-! What can be chosen when a model is loaded. -/
namespace Inference

/-- A count of zero leaves the choice to the host. -/
structure Options where
  /-- How many requests can be in work at a time. -/
  slots : Nat := 0
  /-- Whether submitted requests run as jobs of their own. -/
  async : Bool := true
  /-- How many workers run the jobs. -/
  threads : Nat := 0
  /-- How many workers share the rows of a convolution. -/
  convThreads : Nat := 0
  deriving DecidableEq

namespace Options

def sync : Options := { async := false }

/-- The number of slots: the chosen one, or one more than half the host's hardware threads. -/
def slotCount (o : Options) (hardwareThreads : Nat) : Nat :=
  if 0 < o.slots then o.slots else hardwareThreads / 2 + 1

theorem slotCount_pos (o : Options) (hardwareThreads : Nat) : 0 < o.slotCount hardwareThreads := by
  unfold slotCount
  split
  · assumption
  · exact Nat.succ_pos _

end Options

/-- How layers run: on one thread, or with the rows of convolutions shared by some workers. -/
def describeWorkers (convThreads : Option Nat) : String :=
  match convThreads with
  | some n => s!"LayerContext \x7b conv_pool: Some({n}) \x7d"
  | none => "LayerContext \x7b conv_pool: None \x7d"

end Inference
