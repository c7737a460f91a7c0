import Mathlib.Algebra.Group.Nat.Defs
import Mathlib.Algebra.Ring.Int.Defs
import MozartLineage.Sensors.Handle
import MozartLineage.Transition.History
import MozartLineage.Transition.Run

/-!
# The calls of the sensor proxy

The framework calls the proxy device with global handles; the proxy looks up
the sub-HAL of the sensor and its local handle there, and passes the call on.
Sub-HALs below API 1.1 have no `batch`: for them the proxy keeps two tables,
indexed by global handle, and turns a `batch` into a `setDelay`, at once or when
the sensor is enabled next.

A sub-HAL is named by its index among the devices. The tables are read and
written outside their bounds by a handle that is not registered, so they are
functions on all indices, and every access is an event.
-/

namespace MozartLineage.Sensors

/-- The fields of a sensor that the proxy reads or writes. -/
structure SensorT where
  handle : ℤ
  type : ℤ
  flags : ℕ
  minDelay : ℤ
  maxDelay : ℤ
  deriving DecidableEq, Repr

/-- A device that was opened from the module of that index. -/
structure SubHwDevice where
  openedFrom : ℕ
  version : ℤ
  deriving DecidableEq, Repr

namespace Proxy

open Transition

def sensorsDeviceApiVersion1_1 : ℤ := 0x01010001

def sensorsDeviceApiVersion1_4 : ℤ := 0x01040001

def negEinval : ℤ := -22

/-- What an opened proxy device looks things up in. -/
structure Context where
  handles : HandleMaps
  subHwDevices : List SubHwDevice
  globalSensorsList : List SensorT

structure BatchData where
  empty : Bool := true
  handle : ℤ := 0
  flags : ℤ := 0
  periodNs : ℤ := 0
  timeout : ℤ := 0

/-- `sensors_enable_state` and `sensors_batch_list`. -/
structure Tables where
  sensorsEnableState : ℤ → ℤ
  sensorsBatchList : ℤ → BatchData

def Tables.init : Tables where
  sensorsEnableState _ := 0
  sensorsBatchList _ := {}

def Tables.setEnableState (s : Tables) (index enabled : ℤ) : Tables :=
  { s with sensorsEnableState := Function.update s.sensorsEnableState index enabled }

def Tables.setBatchData (s : Tables) (index : ℤ) (b : BatchData) : Tables :=
  { s with sensorsBatchList := Function.update s.sensorsBatchList index b }

/-- The conversion to a 32-bit parameter. -/
def toInt (value : ℤ) : ℤ := value.bmod (2 ^ 32)

def updateBatchData (handle flags periodNs timeout : ℤ) : BatchData where
  empty := false
  handle := handle
  flags := flags
  periodNs := toInt periodNs
  timeout := toInt timeout

/-! ### Calls -/

/-- The device argument of a call. -/
inductive DevicePointer where
  | proxy
  | sub (i : ℕ)
  deriving DecidableEq

inductive SubHalCall where
  | activate (dev : DevicePointer) (handle enabled : ℤ)
  | setDelay (dev : DevicePointer) (handle ns : ℤ)
  | batch (dev : DevicePointer) (handle flags periodNs timeout : ℤ)
  | flush (dev : DevicePointer) (handle : ℤ)
  | injectSensorData (dev : DevicePointer) (data : SensorsEvent)
  deriving DecidableEq

inductive Request where
  | activate (handle enabled : ℤ)
  | setDelay (handle ns : ℤ)
  | batch (handle flags periodNs timeout : ℤ)
  | flush (handle : ℤ)
  | injectSensorData (data : SensorsEvent)
  deriving DecidableEq

def Request.handle : Request → ℤ
  | .activate handle _ => handle
  | .setDelay handle _ => handle
  | .batch handle _ _ _ => handle
  | .flush handle => handle
  | .injectSensorData data => data.sensor

/-- A request of the framework, with what the sub-HAL returns: for the call that
the request leads to, and for the `setDelay` that may follow an `activate`. -/
structure Action where
  request : Request
  result : ℤ
  delayResult : ℤ

inductive Table where
  | sensorsEnableState
  | sensorsBatchList
  deriving DecidableEq

inductive Event where
  | requested (request : Request)
  /-- sub-HAL `on` is called, and returns -/
  | called (on : ℕ) (call : SubHalCall) (result : ℤ)
  | accessed (table : Table) (index : ℤ)
  | returned (retval : ℤ)
  deriving DecidableEq

namespace Context

variable (ctx : Context)

/-- The device of a handle, by its index. -/
def getV0DeviceByHandle (globalHandle : ℤ) : Option ℕ :=
  let subIndex := ctx.handles.getModuleIndex globalHandle
  if subIndex < 0 ∨ subIndex ≥ ctx.subHwDevices.length then none
  else some subIndex.toNat

def getV1DeviceByHandle (globalHandle : ℤ) : Option ℕ :=
  let subIndex := ctx.handles.getModuleIndex globalHandle
  if subIndex < 0 ∨ subIndex ≥ ctx.subHwDevices.length then none
  else some subIndex.toNat

@[simp] theorem getV1DeviceByHandle_eq (globalHandle : ℤ) :
    ctx.getV1DeviceByHandle globalHandle = ctx.getV0DeviceByHandle globalHandle := rfl

def getDeviceVersionByHandle (handle : ℤ) : ℤ :=
  match (ctx.getV0DeviceByHandle handle).bind (ctx.subHwDevices[·]?) with
  | some v0 => v0.version
  | none => -1

def halIsAPILevelCompliant (handle level : ℤ) : Bool :=
  let version := ctx.getDeviceVersionByHandle handle
  version ≠ -1 ∧ version ≥ level

/-- A call of the device `v`, if there is one and the handle has a local one. -/
def callDevice (v : Option ℕ) (handle : ℤ) (call : ℕ → ℤ → SubHalCall) (result : ℤ) :
    ℤ × List Event :=
  let localHandle := ctx.handles.getLocalHandle handle
  match v with
  | some i =>
      if localHandle ≥ 0 then (result, [.called i (call i localHandle) result])
      else (negEinval, [])
  | none => (negEinval, [])

def activate (handle enabled result : ℤ) : ℤ × List Event :=
  ctx.callDevice (ctx.getV0DeviceByHandle handle) handle
    (fun i localHandle => .activate (.sub i) localHandle enabled) result

def setDelay (handle ns result : ℤ) : ℤ × List Event :=
  ctx.callDevice (ctx.getV0DeviceByHandle handle) handle
    (fun i localHandle => .setDelay (.sub i) localHandle ns) result

/-- The period that `batch` asks an older sub-HAL for. The limits are those of
the sensor at the index of the module. -/
def clampPeriod (handle periodNs : ℤ) : ℤ :=
  match ctx.globalSensorsList[(ctx.handles.getModuleIndex handle).toNat]? with
  | some sensor =>
      if periodNs < sensor.minDelay then sensor.minDelay
      else if periodNs > sensor.maxDelay then sensor.maxDelay
      else periodNs
  | none => periodNs

def batch (handle flags periodNs timeout result : ℤ) : ℤ × List Event :=
  if ctx.halIsAPILevelCompliant handle sensorsDeviceApiVersion1_1 then
    ctx.callDevice (ctx.getV1DeviceByHandle handle) handle
      (fun i localHandle => .batch (.sub i) localHandle flags periodNs timeout) result
  else if periodNs < 0 ∨ timeout < 0 then (negEinval, [])
  else
    -- with the global handle
    ctx.callDevice (ctx.getV1DeviceByHandle handle) handle
      (fun i _ => .setDelay (.sub i) handle (ctx.clampPeriod handle periodNs)) result

def flush (handle result : ℤ) : ℤ × List Event :=
  if ctx.halIsAPILevelCompliant handle sensorsDeviceApiVersion1_1 then
    ctx.callDevice (ctx.getV1DeviceByHandle handle) handle
      (fun i localHandle => .flush (.sub i) localHandle) result
  else (negEinval, [])

/-- The device argument and the event are passed on as they are. -/
def injectSensorData (dev : DevicePointer) (data : SensorsEvent) (result : ℤ) :
    ℤ × List Event :=
  if ctx.halIsAPILevelCompliant data.sensor sensorsDeviceApiVersion1_4 then
    ctx.callDevice (ctx.getV1DeviceByHandle data.sensor) data.sensor
      (fun _ _ => .injectSensorData dev data) result
  else (negEinval, [])

end Context

/-! ### Entry points -/

/-- The operator `||` on integers. -/
def logicalOr (a b : ℤ) : ℤ := if a ≠ 0 ∨ b ≠ 0 then 1 else 0

section EntryPoints

variable (ctx : Context) (s : Tables)

/-- The value returned, the tables after, and the events. -/
def deviceActivate (handle enabled result delayResult : ℤ) : ℤ × Tables × List Event :=
  let activated := ctx.activate handle enabled result
  if ¬ ctx.halIsAPILevelCompliant handle sensorsDeviceApiVersion1_1 then
    let index := handle - 1
    let s := s.setEnableState index enabled
    let written := activated.2 ++ [.accessed .sensorsEnableState index]
    if enabled ≠ 0 then
      let batchData := s.sensorsBatchList index
      if ¬ batchData.empty then
        let delayed := ctx.setDelay handle batchData.periodNs delayResult
        (logicalOr delayed.1 activated.1,
          s.setBatchData index { batchData with empty := true },
          written ++ .accessed .sensorsBatchList index :: delayed.2 ++
            [.accessed .sensorsBatchList index])
      else (activated.1, s, written ++ [.accessed .sensorsBatchList index])
    else (activated.1, s, written)
  else (activated.1, s, activated.2)

def deviceSetDelay (handle ns result : ℤ) : ℤ × Tables × List Event :=
  let delayed := ctx.setDelay handle ns result
  (delayed.1, s, delayed.2)

def deviceBatch (handle flags periodNs timeout result : ℤ) : ℤ × Tables × List Event :=
  if ctx.halIsAPILevelCompliant handle sensorsDeviceApiVersion1_1 then
    let batched := ctx.batch handle flags periodNs timeout result
    (batched.1, s, batched.2)
  else
    let index := handle - 1
    if s.sensorsEnableState index = 0 then
      -- skip setDelay() if sensors haven't been activated
      (0, s.setBatchData index (updateBatchData handle flags periodNs timeout),
        [.accessed .sensorsEnableState index, .accessed .sensorsBatchList index])
    else
      let delayed := ctx.setDelay handle periodNs result
      (delayed.1, s, .accessed .sensorsEnableState index :: delayed.2)

def deviceFlush (handle result : ℤ) : ℤ × Tables × List Event :=
  let flushed := ctx.flush handle result
  (flushed.1, s, flushed.2)

def deviceInjectSensorData (data : SensorsEvent) (result : ℤ) : ℤ × Tables × List Event :=
  let injected := ctx.injectSensorData .proxy data result
  (injected.1, s, injected.2)

def handleRequest (a : Action) : ℤ × Tables × List Event :=
  match a.request with
  | .activate handle enabled =>
      deviceActivate ctx s handle enabled a.result a.delayResult
  | .setDelay handle ns => deviceSetDelay ctx s handle ns a.result
  | .batch handle flags periodNs timeout =>
      deviceBatch ctx s handle flags periodNs timeout a.result
  | .flush handle => deviceFlush ctx s handle a.result
  | .injectSensorData data => deviceInjectSensorData ctx s data a.result

def step : Machine Tables Action Event := fun s a =>
  let handled := handleRequest ctx s a
  some (handled.2.1, .requested a.request :: handled.2.2 ++ [.returned handled.1])

/-- Everything that a step can be. An `activate` or a `batch` of a sensor below
API 1.1 comes to the tables, and any other request is one call. -/
inductive Step : Action → Tables × List Event → Prop where
  | activateThrough {g enabled result delayResult}
      (hlevel : ctx.halIsAPILevelCompliant g sensorsDeviceApiVersion1_1) :
      Step ⟨.activate g enabled, result, delayResult⟩
        (s, .requested (.activate g enabled) :: (ctx.activate g enabled result).2 ++
          [.returned (ctx.activate g enabled result).1])
  | activate {g enabled result delayResult accesses}
      (hlevel : ctx.halIsAPILevelCompliant g sensorsDeviceApiVersion1_1 = false)
      (hsaved : enabled = 0 ∨ (s.sensorsBatchList (g - 1)).empty)
      (haccesses : ∀ e ∈ accesses, ∃ table, e = .accessed table (g - 1)) :
      Step ⟨.activate g enabled, result, delayResult⟩
        (s.setEnableState (g - 1) enabled,
          .requested (.activate g enabled) :: ((ctx.activate g enabled result).2 ++
            accesses) ++ [.returned (ctx.activate g enabled result).1])
  | activateReplay {g enabled result delayResult}
      (hlevel : ctx.halIsAPILevelCompliant g sensorsDeviceApiVersion1_1 = false)
      (henabled : enabled ≠ 0) (hsaved : (s.sensorsBatchList (g - 1)).empty = false) :
      Step ⟨.activate g enabled, result, delayResult⟩
        ((s.setEnableState (g - 1) enabled).setBatchData (g - 1)
            { s.sensorsBatchList (g - 1) with empty := true },
          .requested (.activate g enabled) :: ((ctx.activate g enabled result).2 ++
            [.accessed .sensorsEnableState (g - 1), .accessed .sensorsBatchList (g - 1)] ++
            (ctx.setDelay g (s.sensorsBatchList (g - 1)).periodNs delayResult).2 ++
            [.accessed .sensorsBatchList (g - 1)]) ++
          [.returned (logicalOr
            (ctx.setDelay g (s.sensorsBatchList (g - 1)).periodNs delayResult).1
            (ctx.activate g enabled result).1)])
  | setDelay {g ns result delayResult} :
      Step ⟨.setDelay g ns, result, delayResult⟩
        (s, .requested (.setDelay g ns) :: (ctx.setDelay g ns result).2 ++
          [.returned (ctx.setDelay g ns result).1])
  | batchThrough {g flags periodNs timeout result delayResult}
      (hlevel : ctx.halIsAPILevelCompliant g sensorsDeviceApiVersion1_1) :
      Step ⟨.batch g flags periodNs timeout, result, delayResult⟩
        (s, .requested (.batch g flags periodNs timeout) ::
          (ctx.batch g flags periodNs timeout result).2 ++
          [.returned (ctx.batch g flags periodNs timeout result).1])
  | batchSave {g flags periodNs timeout result delayResult}
      (hlevel : ctx.halIsAPILevelCompliant g sensorsDeviceApiVersion1_1 = false)
      (hoff : s.sensorsEnableState (g - 1) = 0) :
      Step ⟨.batch g flags periodNs timeout, result, delayResult⟩
        (s.setBatchData (g - 1) (updateBatchData g flags periodNs timeout),
          [.requested (.batch g flags periodNs timeout),
            .accessed .sensorsEnableState (g - 1), .accessed .sensorsBatchList (g - 1),
            .returned 0])
  | batchNow {g flags periodNs timeout result delayResult}
      (hlevel : ctx.halIsAPILevelCompliant g sensorsDeviceApiVersion1_1 = false)
      (hon : s.sensorsEnableState (g - 1) ≠ 0) :
      Step ⟨.batch g flags periodNs timeout, result, delayResult⟩
        (s, .requested (.batch g flags periodNs timeout) ::
          (.accessed .sensorsEnableState (g - 1) :: (ctx.setDelay g periodNs result).2) ++
          [.returned (ctx.setDelay g periodNs result).1])
  | flush {g result delayResult} :
      Step ⟨.flush g, result, delayResult⟩
        (s, .requested (.flush g) :: (ctx.flush g result).2 ++
          [.returned (ctx.flush g result).1])
  | injectSensorData {data result delayResult} :
      Step ⟨.injectSensorData data, result, delayResult⟩
        (s, .requested (.injectSensorData data) ::
          (ctx.injectSensorData .proxy data result).2 ++
          [.returned (ctx.injectSensorData .proxy data result).1])

variable {ctx s}

theorem step_spec {a : Action} {p : Tables × List Event} (h : step ctx s a = some p) :
    Step ctx s a p := by
  obtain ⟨request, result, delayResult⟩ := a
  cases h
  cases request with
  | activate g enabled =>
      simp only [handleRequest, deviceActivate]
      cases hlevel : ctx.halIsAPILevelCompliant g sensorsDeviceApiVersion1_1 with
      | true => exact .activateThrough hlevel
      | false =>
          by_cases henabled : enabled = 0
          · subst henabled
            exact .activate hlevel (Or.inl rfl) (by simp)
          · cases hsaved : (s.sensorsBatchList (g - 1)).empty with
            | true =>
                have haccesses : ∀ e ∈ [Event.accessed .sensorsEnableState (g - 1),
                    .accessed .sensorsBatchList (g - 1)],
                    ∃ table, e = .accessed table (g - 1) := by simp
                have hactivate : Step ctx s ⟨.activate g enabled, result, delayResult⟩ _ :=
                  .activate hlevel (Or.inr hsaved) haccesses
                simpa [Tables.setEnableState, henabled, hsaved] using hactivate
            | false =>
                have hreplay : Step ctx s ⟨.activate g enabled, result, delayResult⟩ _ :=
                  .activateReplay hlevel henabled hsaved
                simpa [Tables.setEnableState, henabled, hsaved] using hreplay
  | setDelay g ns => exact .setDelay
  | batch g flags periodNs timeout =>
      simp only [handleRequest, deviceBatch]
      cases hlevel : ctx.halIsAPILevelCompliant g sensorsDeviceApiVersion1_1 with
      | true => exact .batchThrough hlevel
      | false =>
          by_cases hoff : s.sensorsEnableState (g - 1) = 0
          · simp only [hoff]
            exact .batchSave hlevel hoff
          · simp only [hoff]
            exact .batchNow hlevel hoff
  | flush g => exact .flush
  | injectSensorData data => exact .injectSensorData

end EntryPoints

end Proxy

end MozartLineage.Sensors
