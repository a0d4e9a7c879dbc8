/-
# How many offsets take part in the median

`berkeley_algorithm` counts the entries of the table before it leaves out those in which
it has little confidence.  The confidence of an entry comes from its last sample, which
counts all updates of the entry so far, `set_offset` included: it is above a half from the
sixth update on, until the counter wraps around (`half_lt_confidenceAfter`).

So the algorithm may go by a single node, however many samples are configured; it has
enough of them if none or enough of the nodes are rated (`enoughSamples_iff`).
-/
import Mathlib.Data.Nat.Cast.Order.Ring
import Mathlib.Tactic.NormNum
import QcDatabase.Lib.StepRuns
import QcDatabase.Time.MedianOffset

open UnorderedMap

namespace QcDatabase

/-- What updates an entry of the table. -/
inductive OffsetUpdate where
  | set
  | sample
  deriving DecidableEq, Repr

namespace OffsetUpdate

/-- The confidence after the updates of an entry, the last one first. -/
def confidenceAfter : List OffsetUpdate → ℚ
  | [] => 0
  | .set :: updates => confidenceAfter updates
  | .sample :: updates => min 1 ((UInt32.ofNat (updates.length + 1)).toNat / 10)

/-- The last sample among the updates was at least the sixth update. -/
def Rated : List OffsetUpdate → Prop
  | [] => False
  | .set :: updates => Rated updates
  | .sample :: updates => 6 ≤ (updates.length + 1) % 2 ^ 32

instance decidableRated : DecidablePred Rated
  | [] => inferInstanceAs (Decidable False)
  | .set :: updates => decidableRated updates
  | .sample :: updates => inferInstanceAs (Decidable (6 ≤ (updates.length + 1) % 2 ^ 32))

theorem half_lt_confidenceAfter (updates : List OffsetUpdate) :
    1 / 2 < confidenceAfter updates ↔ Rated updates := by
  induction updates with
  | nil => simp [confidenceAfter, Rated]
  | cons update updates ih =>
      cases update with
      | set => exact ih
      | sample =>
          rw [confidenceAfter, Rated, lt_min_iff, UInt32.toNat_ofNat']
          rw [and_iff_right (by norm_num), div_lt_div_iff₀ (by norm_num) (by norm_num), one_mul]
          norm_cast
          omega

end OffsetUpdate

/-! ## Runs -/

/-- A call that changes the table, or the configuration. -/
inductive OffsetAction where
  | setOffset (nodeId : NodeId) (offset : ClockOffset) (now : PhysicalTimestamp)
  | updateOffsetWithSample (nodeId : NodeId) (sample : ClockOffset) (uncertainty : Milliseconds)
      (now : PhysicalTimestamp)
  | cleanupExpiredOffsets (clock : NodeId → PhysicalTimestamp)
  | removeNode (nodeId : NodeId)
  | updateConfig (config : TimeSyncConfig)

namespace OffsetAction

/-- The service after a call. -/
def perform (s : DefaultTimeService) : OffsetAction → DefaultTimeService
  | .setOffset nodeId offset now => (s.setOffset nodeId offset now).2
  | .updateOffsetWithSample nodeId sample uncertainty now =>
      s.updateOffsetWithSample nodeId sample uncertainty now
  | .cleanupExpiredOffsets clock => s.cleanupExpiredOffsets clock
  | .removeNode nodeId => s.removeNode nodeId
  | .updateConfig config => s.updateConfig config

/-- How a call updates the entry of a node. -/
def updatesOf (nodeId : NodeId) : OffsetAction → List OffsetUpdate
  | .setOffset node _ _ => if nodeId = node then [.set] else []
  | .updateOffsetWithSample node _ _ _ => if nodeId = node then [.sample] else []
  | _ => []

end OffsetAction

/-- A service, and the updates of the entries of its table since they were created. -/
structure OffsetRun where
  service : DefaultTimeService
  /-- the last one first; none where there is no entry -/
  updates : NodeId → List OffsetUpdate

namespace OffsetRun

open OffsetUpdate DefaultTimeService

variable {r : OffsetRun} {nodeId : NodeId}

/-- Before the first call. -/
def start (now : PhysicalTimestamp) : OffsetRun := ⟨create now, fun _ => []⟩

/-- After a call; an entry that is gone is forgotten. -/
def step (r : OffsetRun) (action : OffsetAction) : OffsetRun where
  service := action.perform r.service
  updates nodeId :=
    if nodeId ∈ (action.perform r.service).nodeOffsets then
      action.updatesOf nodeId ++ r.updates nodeId
    else []

/-- The nodes of the table that are rated. -/
def rated (r : OffsetRun) : List NodeId :=
  r.service.nodeOffsets.keys.filter fun nodeId => decide (Rated (r.updates nodeId))

/-- The entry of a node tells how often it was updated and how. -/
def Tracks (info : Option ClockOffsetInfo) (updates : List OffsetUpdate) : Prop :=
  match info with
  | none => updates = []
  | some info =>
      info.syncCount = UInt32.ofNat updates.length ∧ info.confidence = confidenceAfter updates

/-- **Invariant**: so does every entry of the table. -/
def Tracked (r : OffsetRun) : Prop :=
  ∀ nodeId, Tracks (r.service.nodeOffsets.lookup nodeId) (r.updates nodeId)

theorem tracked_start (now : PhysicalTimestamp) : (start now).Tracked := fun _ => rfl

/-- It is enough to look at the entries that are there after a call. -/
theorem tracked_step_of {action : OffsetAction}
    (h : ∀ nodeId info, (action.perform r.service).nodeOffsets.lookup nodeId = some info →
      Tracks (some info) (action.updatesOf nodeId ++ r.updates nodeId)) :
    (r.step action).Tracked := by
  intro nodeId
  show Tracks ((action.perform r.service).nodeOffsets.lookup nodeId) (ite _ _ _)
  rcases hlookup : (action.perform r.service).nodeOffsets.lookup nodeId with _ | info
  · rw [if_neg (AList.lookup_eq_none.mp hlookup)]
    rfl
  · rw [if_pos (mem_of_lookup hlookup)]
    exact h nodeId info hlookup

theorem Tracks.count_eq {info : ClockOffsetInfo} {updates : List OffsetUpdate}
    (h : Tracks (some info) updates) (update : OffsetUpdate) :
    info.syncCount + 1 = UInt32.ofNat (update :: updates).length := by
  rw [h.1, List.length_cons, UInt32.ofNat_add]
  rfl

/-- A call that puts in a new entry for a node. -/
theorem Tracked.insert (h : r.Tracked) {action : OffsetAction} (node : NodeId)
    (update : OffsetUpdate) {entry : ClockOffsetInfo}
    (hperform : (action.perform r.service).nodeOffsets = r.service.nodeOffsets.insert node entry)
    (hupdates : ∀ nodeId, action.updatesOf nodeId = if nodeId = node then [update] else [])
    (hentry : Tracks (some entry) (update :: r.updates node)) : (r.step action).Tracked := by
  refine tracked_step_of fun nodeId info hlookup => ?_
  rw [hperform] at hlookup
  rw [hupdates]
  rcases lookup_insert_cases hlookup with ⟨rfl, rfl⟩ | ⟨hne, hinfo⟩
  · rw [if_pos rfl]
    exact hentry
  · rw [if_neg hne, ← hinfo]
    exact h nodeId

/-- A call that leaves the entries that it keeps as they are. -/
theorem Tracked.keep (h : r.Tracked) {action : OffsetAction}
    (hperform : ∀ nodeId info, (action.perform r.service).nodeOffsets.lookup nodeId = some info →
      r.service.nodeOffsets.lookup nodeId = some info)
    (hupdates : ∀ nodeId, action.updatesOf nodeId = []) : (r.step action).Tracked := by
  refine tracked_step_of fun nodeId info hlookup => ?_
  rw [hupdates, ← hperform nodeId info hlookup]
  exact h nodeId

/-- **Step lemma.** -/
theorem Tracked.step (h : r.Tracked) (action : OffsetAction) : (r.step action).Tracked := by
  cases action with
  | setOffset node offset now =>
      refine h.insert node .set rfl (fun _ => rfl) ?_
      have hentry := h node
      generalize r.service.nodeOffsets.lookup node = entry at hentry ⊢
      rcases entry with _ | info
      · rw [show r.updates node = [] from hentry]
        exact ⟨rfl, rfl⟩
      · exact ⟨hentry.count_eq .set, hentry.2⟩
  | updateOffsetWithSample node sample uncertainty now =>
      refine h.insert node .sample rfl (fun _ => rfl) ?_
      have hentry := h node
      generalize r.service.nodeOffsets.lookup node = entry at hentry ⊢
      rcases entry with _ | info
      · rw [show r.updates node = [] from hentry]
        refine ⟨rfl, ?_⟩
        show (1 / 10 : ℚ) = confidenceAfter [.sample]
        decide +kernel
      · have hcount := hentry.count_eq .sample
        refine ⟨hcount, ?_⟩
        rw [List.length_cons] at hcount
        rw [confidenceAfter, ← hcount]
  | cleanupExpiredOffsets clock =>
      exact h.keep (fun _ _ hlookup => (lookup_filterEntries_eq_some.mp hlookup).1) fun _ => rfl
  | removeNode node =>
      exact h.keep (fun _ _ hlookup => (lookup_erase_eq_some.mp hlookup).2) fun _ => rfl
  | updateConfig config => exact h.keep (fun _ _ hlookup => hlookup) fun _ => rfl

/-- **Run lemma.** -/
theorem tracked (now : PhysicalTimestamp) (actions : List OffsetAction) :
    (actions.foldl OffsetRun.step (start now)).Tracked :=
  StepRun.invariant Tracked (fun _ action h => h.step action) (tracked_start now) actions

/-- The algorithm has confidence in the entries of the nodes that are rated. -/
theorem Tracked.length_confidentOffsets (h : r.Tracked) :
    r.service.confidentOffsets.length = r.rated.length := by
  rw [confidentOffsets, rated, List.length_map, AList.keys, List.keys, List.filter_map,
    List.length_map]
  congr 1
  refine List.filter_congr fun entry hentry => ?_
  have hlookup : r.service.nodeOffsets.lookup entry.1 = some entry.2 :=
    AList.mem_lookup_iff.mpr hentry
  have htracks := h entry.1
  rw [hlookup] at htracks
  rw [htracks.2]
  exact decide_eq_decide.mpr (half_lt_confidenceAfter _)

/-! ## Enough samples -/

/-- The median that is returned is one of at least `min_samples` offsets. -/
def EnoughSamples (r : OffsetRun) : Prop :=
  ∀ i result, r.service.berkeleyAlgorithm i = .ok result →
    r.service.config.minSamples.toNat ≤ r.service.confidentOffsets.length

/-- **When enough samples take part**: the table is too small, or none of its nodes are
rated, or enough of them. -/
theorem enoughSamples_iff (now : PhysicalTimestamp) (actions : List OffsetAction) :
    let r := actions.foldl OffsetRun.step (start now)
    r.EnoughSamples ↔
      r.service.nodeOffsets.keys.length < r.service.config.minSamples.toNat ∨ r.rated = [] ∨
        r.service.config.minSamples.toNat ≤ r.rated.length := by
  intro r
  have hcount : r.service.confidentOffsets.length = r.rated.length :=
    (tracked now actions).length_confidentOffsets
  have hkeys : r.service.nodeOffsets.keys.length = r.service.nodeOffsets.entries.length :=
    List.length_map _
  rw [EnoughSamples, hcount, hkeys]
  constructor
  · intro h
    by_contra! hfew
    obtain ⟨hsize, hrated, hless⟩ := hfew
    have hne : r.service.confidentOffsets ≠ [] := by
      rwa [← List.length_pos_iff, hcount, List.length_pos_iff]
    have hok := berkeleyAlgorithm_eq_ok_iff (i := IterationOrder.listed).mpr ⟨hsize, hne, rfl⟩
    exact absurd (h _ _ hok) (not_le.mpr hless)
  · rintro h i result hok
    obtain ⟨hsize, hne, -⟩ := berkeleyAlgorithm_eq_ok_iff.mp hok
    rw [← List.length_pos_iff, hcount, List.length_pos_iff] at hne
    rcases h with hsmall | hnone | henough
    · exact absurd hsize (not_le.mpr hsmall)
    · exact absurd hnone hne
    · exact henough

/-- One node is sampled six times, and the offsets of two others are set. -/
def sampleActions : List OffsetAction :=
  List.replicate 6 (.updateOffsetWithSample [97] 500 0 0) ++
    [.setOffset [98] 0 0, .setOffset [99] 0 0]

theorem not_enoughSamples_sampleActions :
    let r := sampleActions.foldl OffsetRun.step (start 0)
    r.service.config.minSamples = 3 ∧ r.service.confidentOffsets.length = 1 ∧
      (∃ result, r.service.berkeleyAlgorithm IterationOrder.listed = .ok result) ∧
      ¬ r.EnoughSamples := by
  intro r
  have hcount : r.service.confidentOffsets.length = 1 := by decide +kernel
  have hne : r.service.confidentOffsets ≠ [] := by
    rw [← List.length_pos_iff, hcount]
    decide
  have hok := (berkeleyAlgorithm_eq_ok_iff (s := r.service) (i := IterationOrder.listed)).mpr
    ⟨by decide +kernel, hne, rfl⟩
  refine ⟨by decide +kernel, hcount, ⟨_, hok⟩, fun h => ?_⟩
  have henough := h _ _ hok
  rw [hcount] at henough
  exact absurd henough (by decide +kernel)

end OffsetRun

end QcDatabase
