/-
# The nodes of a quorum decision

A decision lists the nodes that it takes for active and those that it isolates.  The majority
strategy puts every id in `nodes_` into one of the two lists; the other three leave the second
list empty, so that their decisions account for the membership only where every node is live
(`accountsForAll_iff`).

`validate_quorum_decision` counts the nodes of a decision and looks for duplicates, and never
asks whether they are in the list it is given: it accepts as many distinct ids of any kind
(`validateQuorumDecision_iff`).
-/
import Mathlib.Data.List.Perm.Basic
import QcDatabase.Cluster.Quorum
import QcDatabase.Cluster.SplitBrainUtils

namespace QcDatabase

namespace SplitBrainUtils

/-! ## Validation -/

/-- A loop of the validation ends at the first node that was accounted for before. -/
theorem accountFor_eq {allAccounted : List NodeId} (h : allAccounted.Nodup) (nodes : List NodeId) :
    accountFor allAccounted nodes
      = if (nodes.reverse ++ allAccounted).Nodup then some (nodes.reverse ++ allAccounted)
        else none := by
  induction nodes generalizing allAccounted with
  | nil => rw [List.reverse_nil, List.nil_append, if_pos h, accountFor]
  | cons node nodes ih =>
      rw [accountFor, List.reverse_cons, List.append_assoc, List.singleton_append]
      by_cases hmem : node ∈ allAccounted
      · -- the node is in the list twice
        have htwice : ¬ (nodes.reverse ++ node :: allAccounted).Nodup := fun hnodup =>
          (List.nodup_cons.mp (List.nodup_append.mp hnodup).2.1).1 hmem
        rw [if_pos (List.contains_iff_mem.mpr hmem), if_neg htwice]
      · rw [if_neg fun hfound => hmem (List.contains_iff_mem.mp hfound)]
        exact ih (List.nodup_cons.mpr ⟨hmem, h⟩)

theorem validateQuorumDecision_iff (decision : QuorumDecision) (allNodes : List NodeId) :
    validateQuorumDecision decision allNodes = true ↔
      decision.activeNodes.length + decision.isolatedNodes.length = allNodes.length ∧
        (decision.activeNodes ++ decision.isolatedNodes).Nodup := by
  have hperm : (decision.isolatedNodes.reverse ++ (decision.activeNodes.reverse ++ [])).Perm
      (decision.activeNodes ++ decision.isolatedNodes) := by
    rw [List.append_nil]
    exact ((List.reverse_perm _).append (List.reverse_perm _)).trans List.perm_append_comm
  rw [validateQuorumDecision, ← hperm.nodup_iff]
  by_cases hlength : decision.activeNodes.length + decision.isolatedNodes.length = allNodes.length
  · rw [if_neg (not_not.mpr hlength), and_iff_right hlength, accountFor_eq List.nodup_nil]
    by_cases hactive : (decision.activeNodes.reverse ++ []).Nodup
    · rw [if_pos hactive]
      dsimp only
      rw [accountFor_eq hactive]
      split_ifs with hnodup
      · exact iff_of_true rfl hnodup
      · exact iff_of_false Bool.false_ne_true hnodup
    · rw [if_neg hactive]
      exact iff_of_false Bool.false_ne_true fun h => hactive (List.nodup_append.mp h).2.1
  · rw [if_pos hlength]
    exact iff_of_false Bool.false_ne_true fun h => hlength h.1

/-- The validation accepts the decision exactly if its nodes are all the nodes. -/
def ValidatesAgainst (decision : QuorumDecision) (allNodes : List NodeId) : Prop :=
  validateQuorumDecision decision allNodes = true ↔
    (decision.activeNodes ++ decision.isolatedNodes).Perm allNodes

theorem validateQuorumDecision_of_perm {decision : QuorumDecision} {allNodes : List NodeId}
    (hnodup : allNodes.Nodup)
    (h : (decision.activeNodes ++ decision.isolatedNodes).Perm allNodes) :
    validateQuorumDecision decision allNodes = true := by
  rw [validateQuorumDecision_iff, ← List.length_append]
  exact ⟨h.length_eq, h.nodup_iff.mpr hnodup⟩

/-- **What the validation accepts is a permutation iff no stranger is counted**: among as many
distinct nodes as there are, all have to be members. -/
theorem validatesAgainst_iff (decision : QuorumDecision) (allNodes : List NodeId)
    (hnodup : allNodes.Nodup) :
    ValidatesAgainst decision allNodes ↔
      (decision.activeNodes.length + decision.isolatedNodes.length = allNodes.length →
        (decision.activeNodes ++ decision.isolatedNodes).Nodup →
          ∀ node ∈ decision.activeNodes ++ decision.isolatedNodes, node ∈ allNodes) := by
  constructor
  · intro h hlength hdistinct node hnode
    have haccepted := (validateQuorumDecision_iff decision allNodes).mpr ⟨hlength, hdistinct⟩
    exact (h.mp haccepted).mem_iff.mp hnode
  · intro h
    refine ⟨fun haccepted => ?_, validateQuorumDecision_of_perm hnodup⟩
    obtain ⟨hlength, hdistinct⟩ := (validateQuorumDecision_iff decision allNodes).mp haccepted
    refine (hdistinct.subperm (h hlength hdistinct)).perm_of_length_le ?_
    rw [List.length_append, hlength]

/-- The decision to keep one node of two and isolate the other. -/
def splitDecision (active isolated : NodeId) : QuorumDecision :=
  ⟨true, [active], [isolated], .majority, ""⟩

theorem validatesAgainst_split :
    [[97], [98]].Nodup ∧ ValidatesAgainst (splitDecision [97] [98]) [[97], [98]] :=
  ⟨by decide, (validatesAgainst_iff (splitDecision [97] [98]) [[97], [98]] (by decide)).mpr
    (by decide)⟩

/-- A decision about two other nodes is accepted. -/
theorem not_validatesAgainst_strangers :
    ¬ ∀ (decision : QuorumDecision) (allNodes : List NodeId), allNodes.Nodup →
      ValidatesAgainst decision allNodes := by
  intro h
  have hperm := (h (splitDecision [99] [100]) [[97], [98]] (by decide)).mp (by decide)
  exact absurd hperm (by decide)

end SplitBrainUtils

open SplitBrainUtils

namespace DefaultSplitBrainDetector

variable (d : DefaultSplitBrainDetector) (i : IterationOrder)

/-! ## Membership -/

/-- The two lists of a decision divide the ids in `nodes_`. -/
structure Accounts (decision : QuorumDecision) : Prop where
  disjoint : decision.activeNodes.Disjoint decision.isolatedNodes
  nodup_active : decision.activeNodes.Nodup
  nodup_isolated : decision.isolatedNodes.Nodup
  mem_iff : ∀ id, id ∈ decision.activeNodes ∨ id ∈ decision.isolatedNodes ↔ id ∈ d.nodes.keys
  accepted : validateQuorumDecision decision d.nodes.keys = true

/-- Every node is alive and not isolated. -/
def AllLive : Prop := ∀ id status, d.nodes.lookup id = some status → status.isLive = true

variable {d i}

/-- Lists that divide the ids are accepted. -/
theorem accounts_of_divide {decision : QuorumDecision}
    (hdisjoint : decision.activeNodes.Disjoint decision.isolatedNodes)
    (hactive : decision.activeNodes.Nodup) (hisolated : decision.isolatedNodes.Nodup)
    (hmem : ∀ id, id ∈ decision.activeNodes ∨ id ∈ decision.isolatedNodes ↔ id ∈ d.nodes.keys) :
    d.Accounts decision := by
  refine ⟨hdisjoint, hactive, hisolated, hmem, ?_⟩
  refine validateQuorumDecision_of_perm d.nodes.nodupKeys ?_
  refine (List.perm_ext_iff_of_nodup (hactive.append hisolated hdisjoint) d.nodes.nodupKeys).mpr ?_
  intro id
  rw [List.mem_append]
  exact hmem id

theorem mem_keys_iff {id : NodeId} :
    id ∈ d.nodes.keys ↔ ∃ status, d.nodes.lookup id = some status :=
  ⟨UnorderedMap.exists_of_mem, fun ⟨_, hstatus⟩ => UnorderedMap.mem_of_lookup hstatus⟩

theorem accounts_majorityQuorum : d.Accounts (d.majorityQuorum i) := by
  have hactive : (d.majorityQuorum i).activeNodes = d.nodesWith i NodeStatus.isLive := rfl
  have hisolated : (d.majorityQuorum i).isolatedNodes
      = d.nodesWith i fun status => !status.isLive := rfl
  refine accounts_of_divide ?_ (d.nodup_nodesWith i _) (hisolated ▸ d.nodup_nodesWith i _) ?_
  · intro id hlive hdead
    rw [hactive, mem_nodesWith] at hlive
    rw [hisolated, mem_nodesWith] at hdead
    obtain ⟨status, hstatus, hlive⟩ := hlive
    obtain ⟨status', hstatus', hdead⟩ := hdead
    obtain rfl := Option.some.inj (hstatus.symm.trans hstatus')
    rw [hlive] at hdead
    cases hdead
  · intro id
    rw [hactive, hisolated, mem_nodesWith, mem_nodesWith, mem_keys_iff, ← exists_or]
    refine exists_congr fun status => ?_
    rw [← and_or_left]
    cases status.isLive <;> simp

/-- A decision that isolates no node accounts for the membership iff every node is live. -/
theorem accounts_iff_allLive {decision : QuorumDecision}
    (hactive : decision.activeNodes = d.nodesWith i NodeStatus.isLive)
    (hisolated : decision.isolatedNodes = []) : d.Accounts decision ↔ d.AllLive := by
  constructor
  · intro h id status hstatus
    have hid := (h.mem_iff id).mpr (mem_keys_iff.mpr ⟨status, hstatus⟩)
    rw [hactive, hisolated, or_iff_left List.not_mem_nil, mem_nodesWith] at hid
    obtain ⟨status', hstatus', hlive⟩ := hid
    obtain rfl := Option.some.inj (hstatus.symm.trans hstatus')
    exact hlive
  · intro h
    refine accounts_of_divide ?_ ?_ ?_ fun id => ?_
    · rw [hisolated]
      exact List.disjoint_nil_right _
    · rw [hactive]
      exact d.nodup_nodesWith i _
    · rw [hisolated]
      exact List.nodup_nil
    · rw [hactive, hisolated, or_iff_left List.not_mem_nil, mem_nodesWith, mem_keys_iff]
      exact exists_congr fun status => and_iff_left_of_imp (h id status)

variable (d i)

/-- **The decision accounts for the membership iff the strategy is the majority or every node
is live.** -/
theorem accounts_calculateQuorum_iff :
    d.Accounts (d.calculateQuorum i) ↔ d.config.quorumStrategy = .majority ∨ d.AllLive := by
  rw [calculateQuorum]
  rcases d.config.quorumStrategy with _ | _ | _ | _
  · exact iff_of_true accounts_majorityQuorum (Or.inl rfl)
  · rw [or_iff_right (by decide)]
    exact accounts_iff_allLive rfl rfl
  · rw [or_iff_right (by decide)]
    exact accounts_iff_allLive rfl rfl
  · rw [or_iff_right (by decide)]
    exact accounts_iff_allLive rfl rfl

/-- A node that was added and never heard from is in neither list of the static strategy. -/
theorem not_accounts_static :
    ¬ ∀ (d : DefaultSplitBrainDetector) (i : IterationOrder), d.Accounts (d.calculateQuorum i) := by
  intro h
  let config : SplitBrainConfig :=
    { SplitBrainConfig.default with quorumStrategy := .staticQuorum }
  exact absurd (h ((create.updateConfig config).addNode [97]) .listed).accepted (by decide)

end DefaultSplitBrainDetector

end QcDatabase
