/-
# The mutex of the hotspot manager

`DefaultHotspotManager` has one `std::shared_mutex`.  Its functions, and the passes of
its three threads, with what they do to this mutex, in the order of the source, and with
the calls of the event handler, which is taken not to call the manager.

Every event goes through `add_event`, which locks the mutex; of the functions that notify
an event, `handle_hotspot` alone does so without the mutex.
-/
import QcDatabase.Hotspot.HotspotManager
import QcDatabase.Lib.SharedMutex

open SharedMutex

namespace QcDatabase

namespace DefaultHotspotManager

variable (m : DefaultHotspotManager)

/-! ## Events -/

/-- `DefaultHotspotManager::add_event`. -/
def addEventTraced (event : HotspotEvent) :
    Traced OwnMutex (DefaultHotspotManager × List HotspotNotice) :=
  Traced.guarded .own .exclusive (pure (m.addEvent event))

/-- `DefaultHotspotManager::notify_hotspot_detected`. -/
def notifyHotspotDetectedTraced (hotspot : HotspotKeyInfo) (now : TimePoint) :
    Traced OwnMutex (DefaultHotspotManager × List HotspotNotice) := do
  let notices := if m.eventHandler then [.hotspotDetected hotspot] else []
  let (m, more) ← m.addEventTraced (detectedEvent hotspot now)
  return (m, notices ++ more)

/-- `DefaultHotspotManager::notify_hotspot_resolved`. -/
def notifyHotspotResolvedTraced (key : MultiLevelKey) (now : TimePoint) :
    Traced OwnMutex (DefaultHotspotManager × List HotspotNotice) :=
  m.addEventTraced (resolvedEvent key now)

/-- `DefaultHotspotManager::notify_strategy_applied`. -/
def notifyStrategyAppliedTraced (key : MultiLevelKey) (strategy : HotspotStrategy)
    (now : TimePoint) : Traced OwnMutex (DefaultHotspotManager × List HotspotNotice) :=
  m.addEventTraced (appliedEvent key strategy now)

/-! ## Public functions -/

/-- `DefaultHotspotManager::start`. -/
def startTraced (detectionConfig : HotspotDetectionConfig)
    (handlingConfig : HotspotHandlingConfig) :
    Traced OwnMutex (Result Unit × DefaultHotspotManager) :=
  Traced.guarded .own .exclusive (pure (m.start detectionConfig handlingConfig))

/-- `DefaultHotspotManager::stop`; the threads end while the mutex is locked. -/
def stopTraced : Traced OwnMutex (Result Unit × DefaultHotspotManager) :=
  Traced.guarded .own .exclusive (pure m.stop)

/-- `DefaultHotspotManager::~DefaultHotspotManager`. -/
def destroyTraced : Traced OwnMutex DefaultHotspotManager :=
  if m.isRunning then do
    let (_, m) ← m.stopTraced
    return m
  else pure m

/-- `DefaultHotspotManager::detect_hotspots`. -/
def detectHotspotsTraced (recorder : AccessStatistics) : Traced OwnMutex (List HotspotKeyInfo) :=
  Traced.guarded .own .shared (pure (m.detectHotspots recorder))

/-- `DefaultHotspotManager::get_current_hotspots`. -/
def getCurrentHotspotsTraced (i : IterationOrder) : Traced OwnMutex (List HotspotKeyInfo) :=
  Traced.guarded .own .shared (pure (m.getCurrentHotspots i))

/-- `DefaultHotspotManager::get_hotspot_level`. -/
def getHotspotLevelTraced (key : MultiLevelKey) : Traced OwnMutex HotspotLevel :=
  Traced.guarded .own .shared (pure (m.getHotspotLevel key))

/-- `DefaultHotspotManager::get_key_info`. -/
def getKeyInfoTraced (recorder : AccessStatistics) (key : MultiLevelKey) :
    Traced OwnMutex HotspotKeyInfo :=
  Traced.guarded .own .shared (pure (m.getKeyInfo recorder key))

/-- `DefaultHotspotManager::get_recent_events`. -/
def getRecentEventsTraced (limit : ℕ) : Traced OwnMutex (List HotspotEvent) :=
  Traced.guarded .own .shared (pure (m.getRecentEvents limit))

/-- The loop of `handle_hotspot` over the strategies. -/
def handleWithTraced (m : DefaultHotspotManager) (key : MultiLevelKey) (now : TimePoint) :
    List HotspotStrategy →
      Traced OwnMutex (Result Unit × DefaultHotspotManager × List HotspotNotice)
  | [] => pure (.error ⟨.storageError, "All hotspot handling strategies failed"⟩, m, [])
  | strategy :: strategies =>
      match applyStrategy key strategy with
      | .ok () => do
          let (m, notices) ← m.notifyStrategyAppliedTraced key strategy now
          return (.ok (), m, notices)
      | .error _ => m.handleWithTraced key now strategies

/-- `DefaultHotspotManager::handle_hotspot`. -/
def handleHotspotTraced (key : MultiLevelKey) (strategies : List HotspotStrategy)
    (now : TimePoint) : Traced OwnMutex (Result Unit × DefaultHotspotManager × List HotspotNotice) :=
  m.handleWithTraced key now
    (if strategies.isEmpty then [.replication, .loadBalancing] else strategies)

/-- `DefaultHotspotManager::resolve_hotspot`: an event is added with the mutex locked. -/
def resolveHotspotTraced (key : MultiLevelKey) (now : TimePoint) :
    Traced OwnMutex (Result Unit × DefaultHotspotManager × List HotspotNotice) :=
  Traced.guarded .own .exclusive
    (match m.currentHotspots.lookup key with
    | none => pure (.ok (), m, [])
    | some _ => do
        let m := { m with currentHotspots := m.currentHotspots.erase key }
        let (m, notices) ← m.notifyHotspotResolvedTraced key now
        return (.ok (), m, notices))

/-! ## Threads -/

/-- The loop of `detection_loop` over the detected hotspots. -/
def addDetectedTraced (m : DefaultHotspotManager) (now : MultiLevelKey → TimePoint) :
    List HotspotKeyInfo → Traced OwnMutex (DefaultHotspotManager × List HotspotNotice)
  | [] => pure (m, [])
  | hotspot :: detected => do
      let m := { m with currentHotspots := m.currentHotspots.insert hotspot.key hotspot }
      let (m, notices) ← m.notifyHotspotDetectedTraced hotspot (now hotspot.key)
      let (m, more) ← m.addDetectedTraced now detected
      return (m, notices ++ more)

/-- A pass of `DefaultHotspotManager::detection_loop`; `found` is the manager when the
mutex is locked again. -/
def detectionPassTraced (found : DefaultHotspotManager) (recorder : AccessStatistics)
    (now : MultiLevelKey → TimePoint) :
    Traced OwnMutex (DefaultHotspotManager × List HotspotNotice) := do
  let detected ← m.detectHotspotsTraced recorder
  Traced.guarded .own .exclusive (found.addDetectedTraced now detected)

/-- The loop of `handling_loop` over the hotspots. -/
def handleAllTraced (m : DefaultHotspotManager) (now : MultiLevelKey → TimePoint) :
    List HotspotKeyInfo → Traced OwnMutex (DefaultHotspotManager × List HotspotNotice)
  | [] => pure (m, [])
  | hotspot :: hotspots => do
      let (_, m, notices) ← m.handleHotspotTraced hotspot.key [] (now hotspot.key)
      let (m, more) ← m.handleAllTraced now hotspots
      return (m, notices ++ more)

/-- A pass of `DefaultHotspotManager::handling_loop`. -/
def handlingPassTraced (i : IterationOrder) (now : MultiLevelKey → TimePoint) :
    Traced OwnMutex (DefaultHotspotManager × List HotspotNotice) := do
  let hotspots ← Traced.guarded .own .shared (pure (m.hotspotsToHandle i))
  m.handleAllTraced now hotspots

/-- The loop of `cleanup_loop` over the hotspots. -/
def removeCoolTraced (m : DefaultHotspotManager) (now : TimePoint)
    (clock : MultiLevelKey → TimePoint) : List (Sigma fun _ : MultiLevelKey => HotspotKeyInfo) →
      Traced OwnMutex (DefaultHotspotManager × List HotspotNotice)
  | [] => pure (m, [])
  | ⟨key, hotspot⟩ :: entries =>
      if m.isCool now hotspot then do
        let (m, notices) ← m.notifyHotspotResolvedTraced key (clock key)
        let m := { m with currentHotspots := m.currentHotspots.erase key }
        let (m, more) ← m.removeCoolTraced now clock entries
        return (m, notices ++ more)
      else m.removeCoolTraced now clock entries

/-- A pass of `DefaultHotspotManager::cleanup_loop`. -/
def cleanupPassTraced (i : IterationOrder) (now : TimePoint) (clock : MultiLevelKey → TimePoint) :
    Traced OwnMutex (DefaultHotspotManager × List HotspotNotice) :=
  Traced.guarded .own .exclusive (do
    let (m, notices) ← m.removeCoolTraced now clock (i.order m.currentHotspots.entries)
    return ({ m with recentEvents := m.recentEvents.drop (m.recentEvents.length - 1000) }, notices))

end DefaultHotspotManager

end QcDatabase
