/-
# The hotspot manager (`src/hotspot/hotspot_manager.cpp`)

`DefaultHotspotManager` keeps the keys that are hot at present, with what was counted for
them, and the recent events.  Its detection thread asks the access recorder for the keys
with most accesses, its handling thread applies strategies to the hot ones, and its
cleanup thread removes those that were not accessed for a while.

The functions of the access recorder are not defined in the repository; its answers are
an argument (`AccessStatistics`).  Several functions of the interface of the manager are
not defined either, those that would set the event handler or a configuration among them.
The recorder and the handler of strategies are there from the constructor on.
-/
import QcDatabase.Common.Types
import QcDatabase.Lib.UnorderedMap

open UnorderedMap

namespace QcDatabase

/-! ## Types -/

/-- `HotspotLevel`. -/
inductive HotspotLevel where
  | normal
  | warm
  | hot
  | critical
  deriving DecidableEq, Repr

/-- The underlying value of a level. -/
def HotspotLevel.rank : HotspotLevel → ℕ
  | normal => 0
  | warm => 1
  | hot => 2
  | critical => 3

/-- `HotspotStrategy`. -/
inductive HotspotStrategy where
  | replication
  | partitioning
  | caching
  | loadBalancing
  | rateLimiting
  deriving DecidableEq, Repr

/-- `AccessPattern`. -/
inductive AccessPattern where
  | readHeavy
  | writeHeavy
  | mixed
  | burst
  | periodic
  deriving DecidableEq, Repr

/-- `HotspotKeyInfo`. -/
structure HotspotKeyInfo where
  key : MultiLevelKey
  level : HotspotLevel
  pattern : AccessPattern
  totalAccessCount : UInt64
  readCount : UInt64
  writeCount : UInt64
  accessRate : Float
  firstDetected : TimePoint
  lastAccess : TimePoint
  detectionWindow : Milliseconds
  nodeAccessCounts : UnorderedMap NodeId UInt64
  appliedStrategies : List HotspotStrategy

/-- `HotspotDetectionConfig`, without the settings that nothing reads. -/
structure HotspotDetectionConfig where
  warmThreshold : UInt64
  hotThreshold : UInt64
  criticalThreshold : UInt64
  detectionWindow : Milliseconds
  coolingPeriod : Milliseconds
  deriving DecidableEq, Repr

/-- `HotspotDetectionConfig::HotspotDetectionConfig`. -/
def HotspotDetectionConfig.default : HotspotDetectionConfig where
  warmThreshold := 1000
  hotThreshold := 5000
  criticalThreshold := 20000
  detectionWindow := 60000
  coolingPeriod := 300000

/-- `HotspotHandlingConfig`, without the settings that nothing reads. -/
structure HotspotHandlingConfig where
  rateLimitWindow : Milliseconds
  deriving DecidableEq, Repr

/-- `HotspotHandlingConfig::HotspotHandlingConfig`. -/
def HotspotHandlingConfig.default : HotspotHandlingConfig := ⟨1000⟩

/-- `HotspotEvent::Type`. -/
inductive HotspotEventType where
  | hotspotDetected
  | hotspotResolved
  | strategyApplied
  | strategyRemoved
  deriving DecidableEq, Repr

/-- `HotspotEvent`. -/
structure HotspotEvent where
  type : HotspotEventType
  key : MultiLevelKey
  level : HotspotLevel
  strategy : HotspotStrategy
  timestamp : TimePoint
  details : Bytes
  deriving DecidableEq, Repr

/-- The calls of `HotspotEventHandler`. -/
inductive HotspotNotice where
  | hotspotDetected (hotspot : HotspotKeyInfo)
  | hotspotResolved (key : MultiLevelKey)
  | strategyApplied (key : MultiLevelKey) (strategy : HotspotStrategy)

/-- What the access recorder answers: the keys with most accesses, and what was counted
for a key. -/
structure AccessStatistics where
  topKeys : ℕ → List MultiLevelKey
  keyStats : MultiLevelKey → HotspotKeyInfo

/-- `DefaultHotspotHandler::apply_strategy`. -/
def applyStrategy (_key : MultiLevelKey) (_strategy : HotspotStrategy) : Result Unit := .ok ()

/-- `DefaultHotspotManager`; `eventHandler` says whether there is one. -/
structure DefaultHotspotManager where
  detectionConfig : HotspotDetectionConfig
  handlingConfig : HotspotHandlingConfig
  eventHandler : Bool
  currentHotspots : UnorderedMap MultiLevelKey HotspotKeyInfo
  recentEvents : List HotspotEvent
  isRunning : Bool
  stopThreads : Bool

namespace DefaultHotspotManager

/-- `DefaultHotspotManager::DefaultHotspotManager`. -/
def create : DefaultHotspotManager where
  detectionConfig := .default
  handlingConfig := .default
  eventHandler := false
  currentHotspots := ∅
  recentEvents := []
  isRunning := false
  stopThreads := false

variable (m : DefaultHotspotManager)

/-- `DefaultHotspotManager::start`. -/
def start (detectionConfig : HotspotDetectionConfig) (handlingConfig : HotspotHandlingConfig) :
    Result Unit × DefaultHotspotManager :=
  if m.isRunning then (.ok (), m)
  else (.ok (), { m with
    detectionConfig := detectionConfig, handlingConfig := handlingConfig
    stopThreads := false, isRunning := true })

/-- `DefaultHotspotManager::stop`, once the threads have ended. -/
def stop : Result Unit × DefaultHotspotManager :=
  if !m.isRunning then (.ok (), m)
  else (.ok (), { m with stopThreads := true, isRunning := false })

/-! ## Detection -/

/-- `DefaultHotspotManager::calculate_hotspot_level`. -/
def calculateHotspotLevel (keyInfo : HotspotKeyInfo) : HotspotLevel :=
  if m.detectionConfig.criticalThreshold ≤ keyInfo.totalAccessCount then .critical
  else if m.detectionConfig.hotThreshold ≤ keyInfo.totalAccessCount then .hot
  else if m.detectionConfig.warmThreshold ≤ keyInfo.totalAccessCount then .warm
  else .normal

/-- `DefaultHotspotManager::detect_hotspots`. -/
def detectHotspots (recorder : AccessStatistics) : List HotspotKeyInfo :=
  let keyInfos := (recorder.topKeys 1000).map fun key =>
    let keyInfo := recorder.keyStats key
    { keyInfo with level := m.calculateHotspotLevel keyInfo }
  keyInfos.filter fun keyInfo => decide (keyInfo.level ≠ .normal)

/-- `DefaultHotspotManager::get_current_hotspots`. -/
def getCurrentHotspots (i : IterationOrder) : List HotspotKeyInfo :=
  (i.order m.currentHotspots.entries).map fun entry => entry.2

/-- `DefaultHotspotManager::get_hotspot_level`. -/
def getHotspotLevel (key : MultiLevelKey) : HotspotLevel :=
  match m.currentHotspots.lookup key with
  | some hotspot => hotspot.level
  | none => .normal

/-- `DefaultHotspotManager::get_key_info`. -/
def getKeyInfo (recorder : AccessStatistics) (key : MultiLevelKey) : HotspotKeyInfo :=
  match m.currentHotspots.lookup key with
  | some hotspot => hotspot
  | none => recorder.keyStats key

/-- `DefaultHotspotManager::get_recent_events`. -/
def getRecentEvents (limit : ℕ) : List HotspotEvent := m.recentEvents.take limit

/-- Time points in minutes. -/
def toMinutes (difference : ℤ) : ℤ := difference.tdiv (60000 * nanosPerMilli)

/-- The condition of `cleanup_loop` for a hotspot. -/
def isCool (now : TimePoint) (hotspot : HotspotKeyInfo) : Bool :=
  decide (toMinutes (m.detectionConfig.coolingPeriod * nanosPerMilli)
    < toMinutes (now - hotspot.lastAccess))

/-- The hotspots that `handling_loop` handles. -/
def hotspotsToHandle (i : IterationOrder) : List HotspotKeyInfo :=
  (m.getCurrentHotspots i).filter fun hotspot => decide (HotspotLevel.hot.rank ≤ hotspot.level.rank)

/-! ## Events -/

/-- What `add_event` tells the handler. -/
def noticesOf (event : HotspotEvent) : List HotspotNotice :=
  if m.eventHandler then
    match event.type with
    | .hotspotDetected => []
    | .hotspotResolved => [.hotspotResolved event.key]
    | .strategyApplied => [.strategyApplied event.key event.strategy]
    | .strategyRemoved => []
  else []

/-- `DefaultHotspotManager::add_event`. -/
def addEvent (event : HotspotEvent) : DefaultHotspotManager × List HotspotNotice :=
  ({ m with recentEvents := m.recentEvents ++ [event] }, m.noticesOf event)

/-- The event of `notify_hotspot_detected`. -/
def detectedEvent (hotspot : HotspotKeyInfo) (now : TimePoint) : HotspotEvent where
  type := .hotspotDetected
  key := hotspot.key
  level := hotspot.level
  strategy := .replication
  timestamp := now
  details := "Hotspot detected for key: ".toUTF8.toList ++ hotspot.key.toString

/-- The event of `notify_hotspot_resolved`. -/
def resolvedEvent (key : MultiLevelKey) (now : TimePoint) : HotspotEvent where
  type := .hotspotResolved
  key := key
  level := .normal
  strategy := .replication
  timestamp := now
  details := "Hotspot resolved for key: ".toUTF8.toList ++ key.toString

/-- The event of `notify_strategy_applied`. -/
def appliedEvent (key : MultiLevelKey) (strategy : HotspotStrategy) (now : TimePoint) :
    HotspotEvent where
  type := .strategyApplied
  key := key
  level := .normal
  strategy := strategy
  timestamp := now
  details := "Strategy applied for key: ".toUTF8.toList ++ key.toString

end DefaultHotspotManager

end QcDatabase
