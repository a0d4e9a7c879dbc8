/-
# Which calls of the time service and of the hotspot manager lock their mutex twice

Either class has one mutex, which most functions lock once, if at all, and without
calling another function that locks it.  Those that do make such a call from their
section come to it

* in `update_logical_clock`, if hybrid clocks are disabled;
* in `handle_sync_message`, for a response or an update of an offset;
* in `resolve_hotspot`, for a key that is hot;
* in a detection pass that detects a hotspot, and in a cleanup pass that removes one,

and then the thread locks a mutex that it owns (`disciplined_iff_avoidsNesting`).
-/
import QcDatabase.Hotspot.HotspotTraces
import QcDatabase.Time.TimeServiceTraces

open SharedMutex

namespace QcDatabase

/-- The thread does not own the mutex of the object. -/
def unowned : Held OwnMutex := fun _ => none

theorem unowned_own : unowned .own = none := rfl

/-- The thread owns the mutex of the object. -/
def owned (mode : Mode) : Held OwnMutex := Function.update unowned .own (some mode)

theorem owned_ne_none (mode : Mode) : owned mode .own ≠ none := by
  rw [owned, Function.update_self]
  exact Option.some_ne_none mode

/-- A section that begins with another one. -/
theorem not_disciplined_nested {α β : Type} {mode mode' : Mode} {body : Traced OwnMutex α}
    {rest : α → Traced OwnMutex β} :
    ¬ (Traced.guarded .own mode' body >>= rest).Disciplined (owned mode) :=
  fun h => Traced.not_disciplined_guarded (owned_ne_none mode) (Traced.disciplined_bind_iff.mp h).1

/-! ## The time service -/

namespace DefaultTimeService

variable {s : DefaultTimeService}

theorem disciplined_updateLogicalClockTraced_iff {received : HybridLogicalClock}
    {now : PhysicalTimestamp} :
    (s.updateLogicalClockTraced received now).Disciplined unowned ↔
      s.config.enableHybridLogicalClock = true := by
  rw [updateLogicalClockTraced, Traced.disciplined_guarded_iff]
  rcases s.config.enableHybridLogicalClock with _ | _
  · refine iff_of_false ?_ Bool.false_ne_true
    rintro ⟨-, h⟩
    exact Traced.not_disciplined_guarded (owned_ne_none .exclusive) h
  · exact iff_of_true ⟨rfl, Traced.disciplined_pure _⟩ rfl

/-- Handling a message of this type does not change the table of offsets. -/
def LeavesOffsets : TimeSyncMessageType → Prop
  | .timeResponse => False
  | .offsetUpdate => False
  | _ => True

theorem disciplined_handleSyncMessageTraced_iff {message : TimeSyncMessage}
    {now updated : PhysicalTimestamp} :
    (s.handleSyncMessageTraced message now updated).Disciplined unowned ↔
      LeavesOffsets message.type := by
  rw [handleSyncMessageTraced, Traced.disciplined_guarded_iff]
  rcases message.type with _ | _ | _ | _ | _
  · exact iff_of_true ⟨rfl, Traced.disciplined_pure _⟩ trivial
  · exact iff_of_false (fun h => not_disciplined_nested h.2) id
  · exact iff_of_false (fun h => not_disciplined_nested h.2) id
  · exact iff_of_true ⟨rfl, Traced.disciplined_pure _⟩ trivial
  · exact iff_of_true ⟨rfl, Traced.disciplined_pure _⟩ trivial

theorem balanced_destroyTraced : s.destroyTraced.Balanced unowned := by
  rw [destroyTraced]
  split_ifs
  · exact (Traced.balanced_section rfl _ _).bind fun _ => Traced.balanced_pure _
  · exact Traced.balanced_pure _

theorem balanced_getSyncQualityTraced (i : IterationOrder) :
    (s.getSyncQualityTraced i).Balanced unowned :=
  (Traced.balanced_section rfl _ _).bind fun _ => Traced.balanced_pure _

theorem balanced_syncWithNodeTraced (nodeId : NodeId) (readings : SyncReadings) :
    (s.syncWithNodeTraced nodeId readings).Balanced unowned :=
  (Traced.balanced_section rfl _ _).bind fun _ => Traced.balanced_pure _

theorem balanced_syncWithNodesTraced (readings : NodeId → SyncReadings) (nodes : List NodeId) :
    (s.syncWithNodesTraced readings nodes).Balanced unowned := by
  induction nodes generalizing s with
  | nil => exact Traced.balanced_pure _
  | cons nodeId nodes ih =>
      refine (balanced_syncWithNodeTraced nodeId (readings nodeId)).bind ?_
      rintro ⟨-, s', events⟩
      exact ih.bind fun _ => Traced.balanced_pure _

theorem balanced_adjustTraced (i : IterationOrder) (nodes : ℕ) :
    (s.adjustTraced i nodes).Balanced unowned := by
  rw [adjustTraced]
  split_ifs
  · refine (Traced.balanced_section rfl _ _).bind ?_
    rintro (f | offset)
    · exact Traced.balanced_pure _
    · exact Traced.balanced_pure _
  · exact Traced.balanced_pure _

/-- **A pass of the synchronization thread** goes from section to section. -/
theorem balanced_syncPassTraced (nodes samples drifts : IterationOrder)
    (readings : NodeId → SyncReadings) (clock : NodeId → PhysicalTimestamp) :
    (s.syncPassTraced nodes samples drifts readings clock).Balanced unowned := by
  refine (Traced.balanced_section rfl _ _).bind fun found => ?_
  refine (balanced_syncWithNodesTraced readings found).bind ?_
  rintro ⟨s', synchronized⟩
  refine (balanced_adjustTraced samples found.length).bind fun s'' => ?_
  refine (Traced.balanced_section rfl _ _).bind fun drifted => ?_
  exact (Traced.balanced_section rfl _ _).bind fun _ => Traced.balanced_pure _

end DefaultTimeService

/-! ## The hotspot manager -/

namespace DefaultHotspotManager

variable {m : DefaultHotspotManager} {mode : Mode}

theorem disciplined_resolveHotspotTraced_iff {key : MultiLevelKey} {now : TimePoint} :
    (m.resolveHotspotTraced key now).Disciplined unowned ↔ m.currentHotspots.lookup key = none := by
  rw [resolveHotspotTraced, Traced.disciplined_guarded_iff]
  rcases m.currentHotspots.lookup key with _ | hotspot
  · exact iff_of_true ⟨rfl, Traced.disciplined_pure _⟩ rfl
  · exact iff_of_false (fun h => not_disciplined_nested h.2) nofun

/-- The accesses of a key are below all thresholds. -/
def BelowThresholds (m : DefaultHotspotManager) (keyInfo : HotspotKeyInfo) : Prop :=
  keyInfo.totalAccessCount < m.detectionConfig.warmThreshold ∧
    keyInfo.totalAccessCount < m.detectionConfig.hotThreshold ∧
    keyInfo.totalAccessCount < m.detectionConfig.criticalThreshold

theorem calculateHotspotLevel_eq_normal_iff {keyInfo : HotspotKeyInfo} :
    m.calculateHotspotLevel keyInfo = .normal ↔ m.BelowThresholds keyInfo := by
  rw [calculateHotspotLevel, BelowThresholds]
  split_ifs with hcritical hhot hwarm
  · exact iff_of_false nofun fun h => UInt64.not_lt.mpr hcritical h.2.2
  · exact iff_of_false nofun fun h => UInt64.not_lt.mpr hhot h.2.1
  · exact iff_of_false nofun fun h => UInt64.not_lt.mpr hwarm h.1
  · exact iff_of_true rfl
      ⟨UInt64.not_le.mp hwarm, UInt64.not_le.mp hhot, UInt64.not_le.mp hcritical⟩

theorem detectHotspots_eq_nil_iff {recorder : AccessStatistics} :
    m.detectHotspots recorder = [] ↔
      ∀ key ∈ recorder.topKeys 1000, m.BelowThresholds (recorder.keyStats key) := by
  rw [detectHotspots, List.filter_eq_nil_iff, List.forall_mem_map]
  refine forall₂_congr fun key _ => ?_
  rw [← calculateHotspotLevel_eq_normal_iff, decide_eq_true_iff, not_not]

theorem disciplined_addDetectedTraced_iff {now : MultiLevelKey → TimePoint}
    {detected : List HotspotKeyInfo} :
    (m.addDetectedTraced now detected).Disciplined (owned mode) ↔ detected = [] := by
  rcases detected with _ | ⟨hotspot, detected⟩
  · exact iff_of_true (Traced.disciplined_pure _) rfl
  · refine iff_of_false (fun h => ?_) nofun
    exact not_disciplined_nested (Traced.disciplined_bind_iff.mp h).1

theorem disciplined_detectionPassTraced_iff {found : DefaultHotspotManager}
    {recorder : AccessStatistics} {now : MultiLevelKey → TimePoint} :
    (m.detectionPassTraced found recorder now).Disciplined unowned ↔
      ∀ key ∈ recorder.topKeys 1000, m.BelowThresholds (recorder.keyStats key) := by
  rw [← detectHotspots_eq_nil_iff, detectionPassTraced, Traced.disciplined_bind_iff]
  have hdetect : (m.detectHotspotsTraced recorder).Balanced unowned :=
    Traced.balanced_section rfl _ _
  have hresult : (m.detectHotspotsTraced recorder).result = some (m.detectHotspots recorder) :=
    Traced.result_section _ _ _
  have hsettled := hdetect.settled (by rw [hresult]; exact Option.some_ne_none _)
  rw [hresult, hsettled, and_iff_right hdetect.disciplined]
  simp only [Option.some.injEq, forall_eq']
  rw [Traced.disciplined_guarded_iff, and_iff_right unowned_own]
  exact disciplined_addDetectedTraced_iff

theorem disciplined_removeCoolTraced_iff {now : TimePoint} {clock : MultiLevelKey → TimePoint}
    {entries : List (Sigma fun _ : MultiLevelKey => HotspotKeyInfo)} :
    (m.removeCoolTraced now clock entries).Disciplined (owned mode) ↔
      ∀ entry ∈ entries, m.isCool now entry.2 = false := by
  induction entries with
  | nil =>
      exact iff_of_true (Traced.disciplined_pure _) fun _ hentry => absurd hentry List.not_mem_nil
  | cons entry entries ih =>
      obtain ⟨key, hotspot⟩ := entry
      rw [removeCoolTraced, List.forall_mem_cons]
      split_ifs with hcool
      · refine iff_of_false not_disciplined_nested fun h => ?_
        exact Bool.false_ne_true (h.1.symm.trans hcool)
      · rw [ih, and_iff_right (Bool.eq_false_iff.mpr hcool)]

theorem disciplined_cleanupPassTraced_iff {i : IterationOrder} {now : TimePoint}
    {clock : MultiLevelKey → TimePoint} :
    (m.cleanupPassTraced i now clock).Disciplined unowned ↔
      ∀ key hotspot, m.currentHotspots.lookup key = some hotspot → m.isCool now hotspot = false := by
  have hentries : (∀ entry ∈ i.order m.currentHotspots.entries, m.isCool now entry.2 = false) ↔
      ∀ key hotspot, m.currentHotspots.lookup key = some hotspot →
        m.isCool now hotspot = false := by
    constructor
    · intro h key hotspot hlookup
      exact h ⟨key, hotspot⟩ (i.mem_order.mpr (AList.mem_lookup_iff.mp hlookup))
    · rintro h ⟨key, hotspot⟩ hentry
      exact h key hotspot (AList.mem_lookup_iff.mpr (i.mem_order.mp hentry))
  have hloop : (m.removeCoolTraced now clock (i.order m.currentHotspots.entries)).Disciplined
      (owned .exclusive) ↔ _ := disciplined_removeCoolTraced_iff
  rw [← hentries, ← hloop, cleanupPassTraced, Traced.disciplined_guarded_iff,
    and_iff_right unowned_own, Traced.disciplined_bind_iff]
  exact and_iff_left fun _ _ => Traced.disciplined_pure _

theorem balanced_destroyTraced : m.destroyTraced.Balanced unowned := by
  rw [destroyTraced]
  split_ifs
  · exact (Traced.balanced_section rfl _ _).bind fun _ => Traced.balanced_pure _
  · exact Traced.balanced_pure _

theorem balanced_handleHotspotTraced (key : MultiLevelKey) (strategies : List HotspotStrategy)
    (now : TimePoint) : (m.handleHotspotTraced key strategies now).Balanced unowned := by
  rw [handleHotspotTraced]
  induction (if strategies.isEmpty then [.replication, .loadBalancing] else strategies) with
  | nil => exact Traced.balanced_pure _
  | cons strategy strategies ih =>
      exact (Traced.balanced_section rfl _ _).bind fun _ => Traced.balanced_pure _

theorem balanced_handleAllTraced (now : MultiLevelKey → TimePoint) (hotspots : List HotspotKeyInfo) :
    (m.handleAllTraced now hotspots).Balanced unowned := by
  induction hotspots generalizing m with
  | nil => exact Traced.balanced_pure _
  | cons hotspot hotspots ih =>
      refine (balanced_handleHotspotTraced hotspot.key [] (now hotspot.key)).bind ?_
      rintro ⟨-, m', notices⟩
      exact ih.bind fun _ => Traced.balanced_pure _

/-- **A pass of the handling thread** leaves its section before it handles anything. -/
theorem balanced_handlingPassTraced (i : IterationOrder) (now : MultiLevelKey → TimePoint) :
    (m.handlingPassTraced i now).Balanced unowned :=
  (Traced.balanced_section rfl _ _).bind fun hotspots => balanced_handleAllTraced now hotspots

end DefaultHotspotManager

/-! ## Every operation -/

/-- A public function of one of the two classes, or a pass of one of its threads, with
the object and its arguments. -/
inductive ServiceOperation where
  | timeStart (s : DefaultTimeService) (config : TimeSyncConfig)
  | timeStop (s : DefaultTimeService)
  | timeDestroy (s : DefaultTimeService)
  | nowLogical (s : DefaultTimeService) (now : PhysicalTimestamp)
  | updateLogicalClock (s : DefaultTimeService) (received : HybridLogicalClock)
      (now : PhysicalTimestamp)
  | getOffset (s : DefaultTimeService) (nodeId : NodeId)
  | setOffset (s : DefaultTimeService) (nodeId : NodeId) (offset : ClockOffset)
      (now : PhysicalTimestamp)
  | getAllOffsets (s : DefaultTimeService) (i : IterationOrder)
  | syncWithNode (s : DefaultTimeService) (nodeId : NodeId) (readings : SyncReadings)
  | syncWithNtp (s : DefaultTimeService) (random : String → ℕ)
  | handleSyncMessage (s : DefaultTimeService) (message : TimeSyncMessage)
      (now updated : PhysicalTimestamp)
  | addNode (s : DefaultTimeService) (nodeId : NodeId)
  | removeNode (s : DefaultTimeService) (nodeId : NodeId)
  | getSyncNodes (s : DefaultTimeService) (i : IterationOrder)
  | setEventHandler (s : DefaultTimeService) (eventHandler : Bool)
  | updateConfig (s : DefaultTimeService) (config : TimeSyncConfig)
  | getConfig (s : DefaultTimeService)
  | getEstimatedUncertainty (s : DefaultTimeService) (i : IterationOrder)
  | getSyncQuality (s : DefaultTimeService) (i : IterationOrder)
  | syncPass (s : DefaultTimeService) (nodes samples drifts : IterationOrder)
      (readings : NodeId → SyncReadings) (clock : NodeId → PhysicalTimestamp)
  | ntpPass (s : DefaultTimeService) (random : String → ℕ)
  | hotspotStart (m : DefaultHotspotManager) (detectionConfig : HotspotDetectionConfig)
      (handlingConfig : HotspotHandlingConfig)
  | hotspotStop (m : DefaultHotspotManager)
  | hotspotDestroy (m : DefaultHotspotManager)
  | detectHotspots (m : DefaultHotspotManager) (recorder : AccessStatistics)
  | getCurrentHotspots (m : DefaultHotspotManager) (i : IterationOrder)
  | getHotspotLevel (m : DefaultHotspotManager) (key : MultiLevelKey)
  | handleHotspot (m : DefaultHotspotManager) (key : MultiLevelKey)
      (strategies : List HotspotStrategy) (now : TimePoint)
  | resolveHotspot (m : DefaultHotspotManager) (key : MultiLevelKey) (now : TimePoint)
  | getKeyInfo (m : DefaultHotspotManager) (recorder : AccessStatistics) (key : MultiLevelKey)
  | getRecentEvents (m : DefaultHotspotManager) (limit : ℕ)
  | detectionPass (m found : DefaultHotspotManager) (recorder : AccessStatistics)
      (now : MultiLevelKey → TimePoint)
  | handlingPass (m : DefaultHotspotManager) (i : IterationOrder) (now : MultiLevelKey → TimePoint)
  | cleanupPass (m : DefaultHotspotManager) (i : IterationOrder) (now : TimePoint)
      (clock : MultiLevelKey → TimePoint)
  /-- `is_running`, `now`, `now_synchronized`, `record_access` and `get_top_accessed_keys` -/
  | unlocked

namespace ServiceOperation

/-- The events that the operation makes on the mutex of its object. -/
def events : ServiceOperation → List (Event OwnMutex)
  | timeStart s config => (s.startTraced config).events
  | timeStop s => s.stopTraced.events
  | timeDestroy s => s.destroyTraced.events
  | nowLogical s now => (s.nowLogicalTraced now).events
  | updateLogicalClock s received now => (s.updateLogicalClockTraced received now).events
  | getOffset s nodeId => (s.getOffsetTraced nodeId).events
  | setOffset s nodeId offset now => (s.setOffsetTraced nodeId offset now).events
  | getAllOffsets s i => (s.getAllOffsetsTraced i).events
  | syncWithNode s nodeId readings => (s.syncWithNodeTraced nodeId readings).events
  | syncWithNtp s random => (s.syncWithNtpTraced random).events
  | handleSyncMessage s message now updated =>
      (s.handleSyncMessageTraced message now updated).events
  | addNode s nodeId => (s.addNodeTraced nodeId).events
  | removeNode s nodeId => (s.removeNodeTraced nodeId).events
  | getSyncNodes s i => (s.getSyncNodesTraced i).events
  | setEventHandler s eventHandler => (s.setEventHandlerTraced eventHandler).events
  | updateConfig s config => (s.updateConfigTraced config).events
  | getConfig s => s.getConfigTraced.events
  | getEstimatedUncertainty s i => (s.getEstimatedUncertaintyTraced i).events
  | getSyncQuality s i => (s.getSyncQualityTraced i).events
  | syncPass s nodes samples drifts readings clock =>
      (s.syncPassTraced nodes samples drifts readings clock).events
  | ntpPass s random => (s.syncWithNtpTraced random).events
  | hotspotStart m detectionConfig handlingConfig =>
      (m.startTraced detectionConfig handlingConfig).events
  | hotspotStop m => m.stopTraced.events
  | hotspotDestroy m => m.destroyTraced.events
  | detectHotspots m recorder => (m.detectHotspotsTraced recorder).events
  | getCurrentHotspots m i => (m.getCurrentHotspotsTraced i).events
  | getHotspotLevel m key => (m.getHotspotLevelTraced key).events
  | handleHotspot m key strategies now => (m.handleHotspotTraced key strategies now).events
  | resolveHotspot m key now => (m.resolveHotspotTraced key now).events
  | getKeyInfo m recorder key => (m.getKeyInfoTraced recorder key).events
  | getRecentEvents m limit => (m.getRecentEventsTraced limit).events
  | detectionPass m found recorder now => (m.detectionPassTraced found recorder now).events
  | handlingPass m i now => (m.handlingPassTraced i now).events
  | cleanupPass m i now clock => (m.cleanupPassTraced i now clock).events
  | unlocked => []

/-- The operation does not come to a call that locks the mutex from its section. -/
def AvoidsNesting : ServiceOperation → Prop
  | updateLogicalClock s _ _ => s.config.enableHybridLogicalClock = true
  | handleSyncMessage _ message _ _ => DefaultTimeService.LeavesOffsets message.type
  | resolveHotspot m key _ => m.currentHotspots.lookup key = none
  | detectionPass m _ recorder _ =>
      ∀ key ∈ recorder.topKeys 1000, m.BelowThresholds (recorder.keyStats key)
  | cleanupPass m _ now _ =>
      ∀ key hotspot, m.currentHotspots.lookup key = some hotspot → m.isCool now hotspot = false
  | _ => True

/-- **Which operations lock their mutex twice**: started by a thread that does not own
the mutex, a public function or a pass of the time service or of the hotspot manager
locks it never while the thread owns it, iff it does not come to a nested call. -/
theorem disciplined_iff_avoidsNesting (operation : ServiceOperation) :
    SharedMutex.Disciplined unowned operation.events ↔ operation.AvoidsNesting := by
  have hbalanced : ∀ {α : Type} {t : Traced OwnMutex α}, t.Balanced unowned →
      (SharedMutex.Disciplined unowned t.events ↔ True) :=
    fun h => iff_of_true h.disciplined trivial
  cases operation with
  | updateLogicalClock s received now =>
      exact DefaultTimeService.disciplined_updateLogicalClockTraced_iff
  | handleSyncMessage s message now updated =>
      exact DefaultTimeService.disciplined_handleSyncMessageTraced_iff
  | resolveHotspot m key now => exact DefaultHotspotManager.disciplined_resolveHotspotTraced_iff
  | detectionPass m found recorder now =>
      exact DefaultHotspotManager.disciplined_detectionPassTraced_iff
  | cleanupPass m i now clock => exact DefaultHotspotManager.disciplined_cleanupPassTraced_iff
  -- sections that call nothing
  | timeStart | timeStop | nowLogical | getOffset | setOffset | getAllOffsets | addNode | removeNode
  | getSyncNodes | setEventHandler | updateConfig | getConfig | getEstimatedUncertainty
  | hotspotStart | hotspotStop | detectHotspots | getCurrentHotspots | getHotspotLevel | getKeyInfo
  | getRecentEvents => exact hbalanced (Traced.balanced_section rfl _ _)
  -- one section after the other
  | timeDestroy s => exact hbalanced DefaultTimeService.balanced_destroyTraced
  | syncWithNode s nodeId readings =>
      exact hbalanced (DefaultTimeService.balanced_syncWithNodeTraced nodeId readings)
  | getSyncQuality s i => exact hbalanced (DefaultTimeService.balanced_getSyncQualityTraced i)
  | syncPass s nodes samples drifts readings clock =>
      exact hbalanced
        (DefaultTimeService.balanced_syncPassTraced nodes samples drifts readings clock)
  | hotspotDestroy m => exact hbalanced DefaultHotspotManager.balanced_destroyTraced
  | handleHotspot m key strategies now =>
      exact hbalanced (DefaultHotspotManager.balanced_handleHotspotTraced key strategies now)
  | handlingPass m i now => exact hbalanced (DefaultHotspotManager.balanced_handlingPassTraced i now)
  -- nothing is locked
  | syncWithNtp s random => exact hbalanced (Traced.balanced_pure _)
  | ntpPass s random => exact hbalanced (Traced.balanced_pure _)
  | unlocked => exact iff_of_true trivial trivial

/-- A service without hybrid clocks, a new service that receives a response, and a new
manager that detects a hotspot. -/
theorem not_disciplined_samples :
    ¬ SharedMutex.Disciplined unowned (updateLogicalClock ((DefaultTimeService.create 0).updateConfig
          { TimeSyncConfig.default with enableHybridLogicalClock := false }) ⟨0, 0⟩ 0).events ∧
      ¬ SharedMutex.Disciplined unowned (handleSyncMessage (DefaultTimeService.create 0)
          ⟨.timeResponse, [97], [98], 0, 0, 0, 0, 0⟩ 0 0).events ∧
      ¬ SharedMutex.Disciplined unowned (detectionPass .create .create
          ⟨fun _ => [⟨[97], []⟩], fun key =>
            ⟨key, .normal, .mixed, 1000, 1000, 0, 0.0, 0, 0, 60000, ∅, []⟩⟩ fun _ => 0).events := by
  decide +kernel

end ServiceOperation

end QcDatabase
