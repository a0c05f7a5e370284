/-
# `AiosKernel.NodePipeline.Sections` — what a section does to the registry

Every section leaves the records alone, fills a free one with a fresh id, edits
the record of a pipeline of its node, or zeroes one (`Change`).  All invariants
of the registry follow from that, and so does what a call that has left its first
section may rely on: the id it holds is taken, and if a pipeline still has it,
the pipeline is its node's (`Own`).
-/
import AiosKernel.NodePipeline.Model

namespace AiosKernel.NodePipeline

open Word Slots

/-! ## Changes -/

/-- A pipeline is ready once it has a stage, and has at most as many as fit. -/
def Pipeline.Staged (p : Pipeline) : Prop :=
  (p.state = .ready ↔ 0 < p.stageCount) ∧ p.stageCount ≤ NODE_PIPELINE_MAX_STAGES

/-- What a section run for a node does to the records, and whether it creates one. -/
inductive Change (nodeId : Nat) : Bool → State → State → Prop where
  | same {s s' : State} (hs' : s'.pipelines = s.pipelines) (hnext : s'.nextId = s.nextId) :
      Change nodeId false s s'
  | create {s s' : State} {as bs : List Pipeline} {x q : Pipeline}
      (hs : s.pipelines = as ++ x :: bs) (hx : x.live = false) (hs' : s'.pipelines = as ++ q :: bs)
      (hq : q.live = true) (hid : q.pipelineId = s.nextId) (hstaged : q.Staged)
      (hnext : s'.nextId = u32 (s.nextId + 1)) : Change nodeId true s s'
  | edit {s s' : State} {as bs : List Pipeline} {p q : Pipeline}
      (hs : s.pipelines = as ++ p :: bs) (hp : p.live = true) (hnode : p.ownerNode = nodeId)
      (hs' : s'.pipelines = as ++ q :: bs) (hq : q.live = true)
      (hid : q.pipelineId = p.pipelineId) (howner : q.ownerNode = p.ownerNode)
      (hstaged : p.Staged → q.Staged) (hnext : s'.nextId = s.nextId) : Change nodeId false s s'
  | remove {s s' : State} {as bs : List Pipeline} {p q : Pipeline}
      (hs : s.pipelines = as ++ p :: bs) (hp : p.live = true) (hnode : p.ownerNode = nodeId)
      (hs' : s'.pipelines = as ++ q :: bs) (hq : q.live = false)
      (hnext : s'.nextId = s.nextId) : Change nodeId false s s'

/-- The registry after `n` creations. -/
structure Table (n : Nat) (s : State) : Prop where
  next : s.nextId = n + 1
  distinct : Distinct Pipeline.live Pipeline.pipelineId s.pipelines
  ids : ∀ p ∈ s.pipelines, p.live = true → 0 < p.pipelineId ∧ p.pipelineId < s.nextId
  staged : ∀ p ∈ s.pipelines, p.live = true → p.Staged

theorem table_init : Table 0 init := by
  have hdead : ∀ p ∈ init.pipelines, p.live = false := by
    intro p hp
    rw [List.eq_of_mem_replicate hp]
    rfl
  refine ⟨rfl, List.nodup_nil, ?_, ?_⟩
  all_goals
    intro p hp hlive
    cases (hdead p hp).symm.trans hlive

/-- The id has been given out, and a pipeline that has it is the node's. -/
def Own (s : State) (nodeId pipelineId : Nat) : Prop :=
  pipelineId < s.nextId ∧
    ∀ p ∈ s.pipelines, p.live = true → p.pipelineId = pipelineId → p.ownerNode = nodeId

/-- The id has been given out, and no pipeline has it any more. -/
def Gone (s : State) (pipelineId : Nat) : Prop :=
  pipelineId < s.nextId ∧ ∀ p ∈ s.pipelines, p.live = true → p.pipelineId ≠ pipelineId

section

variable {s s' : State} {nodeId pipelineId n : Nat} {new : Bool}

variable {as bs l : List Pipeline} {x y : Pipeline} {slot : Nat}

theorem mem_of_mem_rest (hl : l = as ++ x :: bs) (hy : y ∈ as ++ bs) : y ∈ l :=
  hl ▸ mem_split.mpr (.inr hy)

theorem Change.forall_live {P : Pipeline → Prop} (h : Change nodeId new s s')
    (hold : ∀ p ∈ s.pipelines, p.live = true → P p)
    (hnew : ∀ q, q.pipelineId = s.nextId → q.Staged → new = true → P q)
    (hedit : ∀ p q, p.live = true → P p → q.pipelineId = p.pipelineId → q.ownerNode = p.ownerNode →
      (p.Staged → q.Staged) → P q) : ∀ p ∈ s'.pipelines, p.live = true → P p := by
  cases h with
  | same hs' => rwa [hs']
  | create hs hx hs' hq hid hstaged hnext =>
    exact forall_written hold hs hs' fun _ => hnew _ hid hstaged rfl
  | edit hs hp hnode hs' hq hid howner hstaged hnext =>
    refine forall_written hold hs hs' fun _ => ?_
    exact hedit _ _ hp (hold _ (by simp [hs]) hp) hid howner hstaged
  | remove hs hp hnode hs' hq hnext =>
    exact forall_written hold hs hs' fun hlive => absurd (hq.symm.trans hlive) Bool.false_ne_true

theorem Change.next (h : Change nodeId new s s') (hnext : s.nextId = n + 1)
    (hfew : n + new.toNat < 2 ^ 32 - 1) : s'.nextId = n + new.toNat + 1 := by
  cases h with
  | same _ hnext' | edit _ _ _ _ _ _ _ _ hnext' | remove _ _ _ _ _ hnext' => rw [hnext', hnext]; rfl
  | create _ _ _ _ _ _ hnext' =>
    have hlt : n + 1 < 2 ^ 32 - 1 := hfew
    rw [hnext', hnext, u32, Nat.mod_eq_of_lt (by omega)]
    rfl

theorem Change.owner (h : Change nodeId new s s') {i : Nat} {p : Pipeline}
    (hp : s.pipelines[i]? = some p) (hlive : p.live = true) (hne : s'.pipelines[i]? ≠ some p) :
    nodeId = p.ownerNode := by
  cases h with
  | same hs' => exact absurd (hs' ▸ hp) hne
  | create hs hx hs' hq hid hstaged hnext =>
    rw [hs] at hp
    rw [hs'] at hne
    obtain ⟨-, rfl⟩ := changed_split hp hne
    exact nomatch hx.symm.trans hlive
  | edit hs hp' hnode hs' hq hid howner hstaged hnext | remove hs hp' hnode hs' hq hnext =>
    rw [hs] at hp
    rw [hs'] at hne
    obtain ⟨-, rfl⟩ := changed_split hp hne
    exact hnode.symm

theorem Table.change (h : Table n s) (hchange : Change nodeId new s s')
    (hfew : n + new.toNat < 2 ^ 32 - 1) : Table (n + new.toNat) s' := by
  have hnext' := hchange.next h.next hfew
  have hgrow : s.nextId ≤ s'.nextId := by
    rw [hnext', h.next]
    omega
  refine ⟨hnext', ?_, ?_, ?_⟩
  · have hdistinct := h.distinct
    cases hchange with
    | same hs' => rwa [hs']
    | create hs hx hs' hq hid hstaged hnext =>
      rw [hs, distinct_dead hx] at hdistinct
      rw [hs', distinct_live hq, hid]
      refine ⟨?_, hdistinct⟩
      intro p hp hlive
      exact Nat.ne_of_lt (h.ids p (mem_of_mem_rest hs hp) hlive).2
    | edit hs hp hnode hs' hq hid howner hstaged hnext =>
      rw [hs] at hdistinct
      rw [hs']
      exact hdistinct.edit hp hq hid
    | remove hs hp hnode hs' hq hnext =>
      rw [hs, distinct_live hp] at hdistinct
      rw [hs', distinct_dead hq]
      exact hdistinct.2
  · refine hchange.forall_live ?_ ?_ ?_
    · intro p hp hlive
      exact ⟨(h.ids p hp hlive).1, Nat.lt_of_lt_of_le (h.ids p hp hlive).2 hgrow⟩
    · rintro q hid - rfl
      rw [hid, hnext', h.next]
      exact ⟨Nat.succ_pos n, Nat.lt_succ_self _⟩
    · rintro p q - hp hid - -
      rwa [hid]
  · refine hchange.forall_live h.staged ?_ ?_
    · exact fun q _ hstaged _ => hstaged
    · exact fun p q _ hp _ _ hstaged => hstaged hp

theorem Own.change {node : Nat} (h : Own s node pipelineId) (htable : Table n s)
    (hchange : Change nodeId new s s') (hfew : n + new.toNat < 2 ^ 32 - 1) :
    Own s' node pipelineId := by
  have hnext' := hchange.next htable.next hfew
  have hnext := htable.next
  refine ⟨by have := h.1; omega, hchange.forall_live h.2 ?_ ?_⟩
  · rintro q hid - - rfl
    exact absurd (hid ▸ h.1) (Nat.lt_irrefl _)
  · rintro p q - hp hid howner - hq
    rw [howner]
    exact hp (hid.symm.trans hq)

theorem Gone.change (h : Gone s pipelineId) (htable : Table n s)
    (hchange : Change nodeId new s s') (hfew : n + new.toNat < 2 ^ 32 - 1) :
    Gone s' pipelineId := by
  have hnext' := hchange.next htable.next hfew
  have hnext := htable.next
  refine ⟨by have := h.1; omega, hchange.forall_live h.2 ?_ ?_⟩
  · rintro q hid - - rfl
    exact absurd (hid ▸ h.1) (Nat.lt_irrefl _)
  · rintro p q - hp hid - - hq
    exact hp (hid.symm.trans hq)

/-! ## The sections -/

theorem findPipelineLocked_some (h : findPipelineLocked s pipelineId = some slot) :
    ∃ as p bs, s.pipelines = as ++ p :: bs ∧ slot = as.length ∧ p.live = true ∧
      p.pipelineId = pipelineId := by
  unfold findPipelineLocked at h
  split at h
  · exact nomatch h
  obtain ⟨as, p, bs, hs, hslot, hp, -⟩ := findIdx?_split h
  obtain ⟨hlive, hid⟩ := Bool.and_eq_true_iff.mp hp
  exact ⟨as, p, bs, hs, hslot, hlive, beq_iff_eq.mp hid⟩

theorem findPipelineLocked_none (h : ∀ p ∈ s.pipelines, p.live = true → p.pipelineId ≠ pipelineId) :
    findPipelineLocked s pipelineId = none := by
  cases hfind : findPipelineLocked s pipelineId with
  | none => rfl
  | some slot =>
    obtain ⟨as, p, bs, hs, -, hlive, hid⟩ := findPipelineLocked_some hfind
    exact absurd hid (h p (by simp [hs]) hlive)

theorem createLocked_change (label : String) (nowNs : Nat) :
    Change nodeId (createLocked nodeId label nowNs s).1.2.isSome s
      (createLocked nodeId label nowNs s).2 := by
  unfold createLocked
  split
  · exact .same rfl rfl
  · rename_i slot hfree
    obtain ⟨as, x, bs, hs, rfl, hx, -⟩ := findIdx?_split hfree
    simp only [hs, set_split]
    refine .create hs ?_ rfl rfl rfl ?_ rfl
    · simpa [Pipeline.live] using hx
    · exact ⟨by simp [Pipeline.zero], Nat.zero_le _⟩

theorem addStageLocked_change (stage : Stage) :
    Change nodeId false s (addStageLocked nodeId pipelineId stage s).2 := by
  unfold addStageLocked
  split
  · exact .same rfl rfl
  rename_i slot hfind
  obtain ⟨as, p, bs, hs, rfl, hlive, -⟩ := findPipelineLocked_some hfind
  simp only [hs, getD_split, set_split]
  split
  · exact .same rfl rfl
  rename_i howner
  split
  · exact .same rfl rfl
  rename_i hroom
  refine .edit hs hlive (not_not.mp howner) rfl rfl rfl rfl ?_ rfl
  intro _
  exact ⟨⟨fun _ => Nat.succ_pos _, fun _ => rfl⟩, Nat.lt_of_not_le hroom⟩

theorem destroyLocked_change : Change nodeId false s (destroyLocked nodeId pipelineId s).2 := by
  unfold destroyLocked
  split
  · exact .same rfl rfl
  rename_i slot hfind
  obtain ⟨as, p, bs, hs, rfl, hlive, -⟩ := findPipelineLocked_some hfind
  simp only [hs, getD_split, set_split]
  split
  · exact .same rfl rfl
  rename_i howner
  exact .remove hs hlive (not_not.mp howner) rfl rfl rfl

theorem snapshotLocked_same : Change nodeId false s (snapshotLocked nodeId pipelineId s).2 := by
  unfold snapshotLocked
  split
  · exact .same rfl rfl
  dsimp only
  split
  · exact .same rfl rfl
  split <;> exact .same rfl rfl

theorem snapshotLocked_own {stages : List Stage} (htable : Table n s)
    (h : (snapshotLocked nodeId pipelineId s).1 = .ok stages) : Own s nodeId pipelineId := by
  unfold snapshotLocked at h
  split at h
  · cases h
  rename_i slot hfind
  obtain ⟨as, p, bs, hs, rfl, hlive, hid⟩ := findPipelineLocked_some hfind
  simp only [hs, getD_split] at h
  split at h
  · cases h
  rename_i howner
  have hmem : p ∈ s.pipelines := by simp [hs]
  refine ⟨hid ▸ (htable.ids p hmem hlive).2, ?_⟩
  intro q hq hqlive hqid
  have hfound := lookup_of_mem htable.distinct hq hqlive
  rw [hqid, ← hid, lookup_of_mem htable.distinct hmem hlive] at hfound
  cases hfound
  exact not_not.mp howner

section

variable (hown : Own s nodeId pipelineId)
include hown

theorem Own.found
    (hfind : findPipelineLocked s pipelineId = some slot) :
    ∃ as p bs, s.pipelines = as ++ p :: bs ∧ slot = as.length ∧ p.live = true ∧
      p.ownerNode = nodeId := by
  obtain ⟨as, p, bs, hs, hslot, hlive, hid⟩ := findPipelineLocked_some hfind
  exact ⟨as, p, bs, hs, hslot, hlive, hown.2 p (by simp [hs]) hlive hid⟩

theorem failLocked_change :
    Change nodeId false s (failLocked pipelineId s) := by
  unfold failLocked
  cases hfind : findPipelineLocked s pipelineId with
  | none => exact .same rfl rfl
  | some slot =>
    obtain ⟨as, p, bs, hs, rfl, hlive, hnode⟩ := hown.found hfind
    simp only [hs, modify_split]
    exact .edit hs hlive hnode rfl hlive rfl rfl id rfl

theorem commitLocked_change (stageCount durationNs : Nat) :
    Change nodeId false s (commitLocked pipelineId stageCount durationNs s) := by
  unfold commitLocked
  cases hfind : findPipelineLocked s pipelineId with
  | none => exact .same rfl rfl
  | some slot =>
    obtain ⟨as, p, bs, hs, rfl, hlive, hnode⟩ := hown.found hfind
    simp only [hs, modify_split]
    exact .edit hs hlive hnode rfl hlive rfl rfl id rfl

end

theorem failLocked_gone (h : Gone s pipelineId) :
    (failLocked pipelineId s).pipelines = s.pipelines := by
  simp only [failLocked, findPipelineLocked_none h.2]

end

end AiosKernel.NodePipeline
