import WinInference.Utils.Basic

/-!
# Device manager and GPU router

Placement of requests on GPUs (`device_manager.cpp`, `gpu_router.cpp`).  The
router keeps a byte budget per device.  A placement is first reserved, then
either unreserved or committed, and a committed one is freed when its request
ends.  `reserve`, `commit` and `unreserve` compute the share of a device from
the strategy of the decision, `free` from the number of devices.

The budgets are those of the source, `size_t` counters that wrap around.
`route` takes tensor parallelism for a long context and otherwise the device
with the most bytes available, and `canPlace` asks the budgets without a lock
that lasts until the reservation.
-/

namespace Qwen

/-- GPU execution strategy. -/
inductive GPUStrategy where
  | tensorParallel
  | perRequest
  | pipeline
deriving DecidableEq

/-- The device manager: the devices it found, in order, and the round-robin
counter of `select_device`. -/
structure DeviceManager where
  devices : List Int
  contextThresholdForTp : Nat := 20000
  roundRobinCounter : Nat := 0
deriving DecidableEq

namespace DeviceManager

/-- `recommend_strategy`: tensor parallelism above the context threshold, given two devices. -/
def recommendStrategy (m : DeviceManager) (contextLength : Nat) : GPUStrategy :=
  if contextLength > m.contextThresholdForTp ∧ m.devices.length ≥ 2 then .tensorParallel
  else if m.devices.length ≥ 2 then .perRequest
  else .perRequest

/-- `select_device`: the devices in turn. -/
def selectDevice (m : DeviceManager) : Int × DeviceManager :=
  if m.devices.isEmpty then (0, m)
  else
    (m.devices.getD (m.roundRobinCounter % m.devices.length) 0,
      { m with roundRobinCounter := sizeAdd m.roundRobinCounter 1 })

end DeviceManager

/-- GPU routing decision for a request. -/
structure RoutingDecision where
  strategy : GPUStrategy
  deviceIds : List Int
  requiresNccl : Bool
deriving DecidableEq

/-- Per-GPU memory budget tracking. -/
structure GPUBudget where
  deviceId : Int := 0
  totalMemory : Nat := 0
  usedMemory : Nat := 0
  reservedMemory : Nat := 0
deriving DecidableEq

namespace GPUBudget

/-- `available()`: what is left of the budget. -/
def available (b : GPUBudget) : Nat :=
  if sizeAdd b.usedMemory b.reservedMemory ≥ b.totalMemory then 0
  else sizeSub (sizeSub b.totalMemory b.usedMemory) b.reservedMemory

/-- `can_fit(bytes)`. -/
def canFit (b : GPUBudget) (bytes : Nat) : Bool := b.available ≥ bytes

/-- The part of `reserve` that falls on one budget. -/
def reserve (share : Nat) (b : GPUBudget) : GPUBudget :=
  { b with reservedMemory := sizeAdd b.reservedMemory share }

/-- The part of `unreserve` that falls on one budget. -/
def unreserve (share : Nat) (b : GPUBudget) : GPUBudget :=
  { b with reservedMemory := sizeSub b.reservedMemory share }

/-- Move from reserved to used. -/
def commit (share : Nat) (b : GPUBudget) : GPUBudget :=
  { b with
    reservedMemory := sizeSub b.reservedMemory share
    usedMemory := sizeAdd b.usedMemory share }

/-- The part of `free` that falls on one budget. -/
def free (share : Nat) (b : GPUBudget) : GPUBudget :=
  { b with usedMemory := sizeSub b.usedMemory share }

end GPUBudget

/-- Rewrite the first budget of a device. -/
def updateBudget (f : GPUBudget → GPUBudget) (deviceId : Int) :
    List GPUBudget → List GPUBudget
  | [] => []
  | b :: rest =>
      if b.deviceId = deviceId then f b :: rest
      else b :: updateBudget f deviceId rest

/-- Rewrite the budgets of the listed devices, one after the other. -/
def updateBudgets (f : GPUBudget → GPUBudget) (deviceIds : List Int)
    (budgets : List GPUBudget) : List GPUBudget :=
  deviceIds.foldl (fun bs deviceId => updateBudget f deviceId bs) budgets

/-- The router: its device manager, its settings and one budget for each device. -/
structure GPURouter where
  deviceManager : DeviceManager
  budgets : List GPUBudget := []
deriving DecidableEq

namespace GPURouter

/-- `initialize_budgets`: one fresh budget for each device. -/
def initializeBudgets (g : GPURouter) (kvMemoryPerGpu : Nat) : GPURouter :=
  { g with
    budgets := g.deviceManager.devices.map
      (fun deviceId => { deviceId := deviceId, totalMemory := kvMemoryPerGpu }) }

/-- The device with the most available memory, or `fallback` when none has
any. -/
def bestDevice (fallback : Int) (budgets : List GPUBudget) : Int :=
  (budgets.foldl
    (fun (best : Nat × Int) b =>
      if b.available > best.1 then (b.available, b.deviceId) else best)
    (0, fallback)).2

/-- Where a request of this context length goes.  The call also advances the
round-robin counter. -/
def route (g : GPURouter) (contextLength : Nat) : RoutingDecision × GPURouter :=
  let strategy := g.deviceManager.recommendStrategy contextLength
  match strategy with
  | .tensorParallel | .pipeline =>
      ({ strategy := strategy, deviceIds := g.deviceManager.devices
         requiresNccl := true }, g)
  | .perRequest =>
      let (fallback, manager) := g.deviceManager.selectDevice
      ({ strategy := strategy, deviceIds := [bestDevice fallback g.budgets]
         requiresNccl := false }, { g with deviceManager := manager })

/-- `can_place`: every budget has room for a share, or some budget for the whole. -/
def canPlace (g : GPURouter) (contextLength totalBytes perDeviceBytes : Nat) : Bool :=
  match g.deviceManager.recommendStrategy contextLength with
  | .tensorParallel =>
      let perDevice :=
        if perDeviceBytes > 0 then perDeviceBytes
        else totalBytes / g.budgets.length
      g.budgets.all (·.canFit perDevice)
  | _ => g.budgets.any (·.canFit totalBytes)

/-- The share of one device, as `reserve`, `commit` and `unreserve` take it
from the decision. -/
def decisionShare (decision : RoutingDecision) (bytes : Nat) : Nat :=
  if decision.strategy = .tensorParallel then bytes / decision.deviceIds.length
  else bytes

/-- The share of one device, as `free` takes it from the device list. -/
def deviceShare (deviceIds : List Int) (bytes : Nat) : Nat :=
  if deviceIds.length > 1 then bytes / deviceIds.length else bytes

/-- Reserve the bytes of a decision on its devices. -/
def reserve (g : GPURouter) (decision : RoutingDecision) (bytes : Nat) : GPURouter :=
  { g with
    budgets := updateBudgets (GPUBudget.reserve (decisionShare decision bytes))
      decision.deviceIds g.budgets }

/-- `commit`: the reserved bytes become used ones. -/
def commit (g : GPURouter) (decision : RoutingDecision) (bytes : Nat) : GPURouter :=
  { g with
    budgets := updateBudgets (GPUBudget.commit (decisionShare decision bytes))
      decision.deviceIds g.budgets }

/-- Take a reservation back. -/
def unreserve (g : GPURouter) (decision : RoutingDecision) (bytes : Nat) : GPURouter :=
  { g with
    budgets := updateBudgets (GPUBudget.unreserve (decisionShare decision bytes))
      decision.deviceIds g.budgets }

/-- Release what a request was charged. -/
def free (g : GPURouter) (deviceIds : List Int) (bytes : Nat) : GPURouter :=
  { g with
    budgets := updateBudgets (GPUBudget.free (deviceShare deviceIds bytes))
      deviceIds g.budgets }

/-- Whether a subtraction of `free` takes more from a counter than it holds. -/
def subtractionWraps (share : Nat) : List Int → List GPUBudget → Bool
  | [], _ => false
  | deviceId :: rest, budgets =>
      (match budgets.find? (·.deviceId = deviceId) with
        | none => false
        | some b => decide (b.usedMemory < share)) ||
      subtractionWraps share rest (updateBudget (GPUBudget.free share) deviceId budgets)

/-- Whether `free` subtracts more than a budget holds. -/
def freeWraps (g : GPURouter) (deviceIds : List Int) (bytes : Nat) : Bool :=
  subtractionWraps (deviceShare deviceIds bytes) deviceIds g.budgets

/-- `get_budget(device_id)`. -/
def getBudget (g : GPURouter) (deviceId : Int) : Option GPUBudget :=
  g.budgets.find? (·.deviceId = deviceId)

end GPURouter

end Qwen
