/-
# `AiosKernel.Nodebit.Stats` — what the statistics record

`trace` collects the decisions a run of the gate returns, without looking at any
counter: for each of them the node, the decision and the two readings of the
clock.  The record of a node is what `record_decision` makes of its part of the
trace, from zero (`Follows`), so everything about a record is a fact about a fold
(`recordAll`).
-/
import AiosKernel.Nodebit.Policy
import Mathlib.Data.List.Induction
import Mathlib.Order.Bounds.Defs

namespace AiosKernel.Nodebit

open Word Slots List

/-! ## Decisions -/

/-- A decision that was recorded: what was decided, and the clock before and after. -/
structure Sample where
  action : Action
  healthBlock : Bool
  startNs : Nat
  endNs : Nat
  deriving DecidableEq, Repr

def Sample.latencyNs (x : Sample) : Nat := sub64 x.endNs x.startNs

/-- The decision a call returns, with the node it is about. -/
def decisionOf (c : Call) (s : State) : List (Nat × Sample) :=
  match c with
  | .evaluate nodeId caps hasOut health startNs endNs =>
    match (evaluate nodeId caps hasOut health startNs endNs s).1 with
    | (.ok, some d) => [(nodeId, ⟨d.action, d.blockedByHealth, startNs, endNs⟩)]
    | _ => []
  | _ => []

def trace : List Call → State → List (Nat × Sample)
  | [], _ => []
  | c :: cs, s => decisionOf c s ++ trace cs (exec c s).2

/-- The part of one node. -/
def samplesOf (nodeId : Nat) (tr : List (Nat × Sample)) : List Sample :=
  (tr.filter fun x => x.1 = nodeId).map Prod.snd

def Call.isEvaluate : Call → Bool
  | .evaluate .. => true
  | _ => false

/-- The statistics of a node after these decisions. -/
def recordAll (nodeId : Nat) (xs : List Sample) : NodeStats :=
  xs.foldl (fun st x => st.record x.action x.healthBlock x.startNs x.endNs) (NodeStats.fresh nodeId)

def latencies (xs : List Sample) : List Nat := xs.map Sample.latencyNs

section

variable {nodeId : Nat} {xs : List Sample} {x : Sample}

theorem recordAll_snoc : recordAll nodeId (xs ++ [x]) =
    (recordAll nodeId xs).record x.action x.healthBlock x.startNs x.endNs := by
  simp [recordAll]

section

variable (nodeId : Nat) (xs : List Sample)

theorem recordAll_counts :
    (recordAll nodeId xs).evaluations = u32 xs.length ∧
    (recordAll nodeId xs).permits = u32 (xs.countP fun x => x.action = .permit) ∧
    (recordAll nodeId xs).denies = u32 (xs.countP fun x => !(x.action = .permit)) ∧
    (recordAll nodeId xs).healthBlocks = u32 (xs.countP fun x => x.healthBlock) := by
  induction xs using List.reverseRecOn with
  | nil => exact ⟨rfl, rfl, rfl, rfl⟩
  | append_singleton xs x ih =>
    obtain ⟨hevaluations, hpermits, hdenies, hblocks⟩ := ih
    rw [recordAll_snoc]
    simp only [NodeStats.record, hevaluations, hpermits, hdenies, hblocks, countP_append,
      countP_singleton, length_append, length_singleton, u32_succ, true_and]
    refine ⟨?_, ?_, ?_⟩
    · by_cases h : x.action = .permit <;> simp [h]
    · by_cases h : x.action = .permit <;> simp [h]
    · cases x.healthBlock <;> simp

theorem recordAll_total : (recordAll nodeId xs).evalTotalNs = u64 (latencies xs).sum := by
  induction xs using List.reverseRecOn with
  | nil => rfl
  | append_singleton xs x ih =>
    rw [recordAll_snoc]
    simp only [NodeStats.record, ih, latencies, map_append, map_singleton,
      sum_append, sum_singleton, u64, Sample.latencyNs]
    omega

theorem recordAll_max : (recordAll nodeId xs).evalMaxNs = (latencies xs).foldl max 0 := by
  induction xs using List.reverseRecOn with
  | nil => rfl
  | append_singleton xs x ih =>
    rw [recordAll_snoc, latencies, map_append, foldl_append, ← latencies, ← ih]
    simp only [NodeStats.record, Sample.latencyNs, map_singleton, foldl_cons,
      foldl_nil]
    split <;> omega

end

theorem recordAll_min (hlen : xs.length < 2 ^ 32) (hne : xs ≠ []) :
    (latencies xs).min? = some (recordAll nodeId xs).evalMinNs := by
  induction xs using List.reverseRecOn with
  | nil => exact absurd rfl hne
  | append_singleton xs x ih =>
    rw [length_append, length_singleton] at hlen
    have hcount := (recordAll_counts nodeId xs).1
    rw [u32_eq (by omega)] at hcount
    have hmin : (recordAll nodeId (xs ++ [x])).evalMinNs =
        if xs.length = 0 then x.latencyNs
        else min (recordAll nodeId xs).evalMinNs x.latencyNs := by
      rw [recordAll_snoc]
      simp only [NodeStats.record, Sample.latencyNs, hcount, u32_eq hlen, Bool.or_eq_true,
        decide_eq_true_eq]
      split <;> split <;> omega
    rw [hmin]
    cases xs with
    | nil => rfl
    | cons y ys =>
      have hfold := ih (by omega) (cons_ne_nil _ _)
      rw [latencies, map_cons, min?_cons', Option.some.injEq] at hfold
      rw [latencies, cons_append, map_cons, min?_cons', map_append,
        foldl_append, hfold]
      rfl

end

/-! ## The slots of the nodes -/

/-- The slot belongs to this node. -/
def Holder (s : State) (slot nodeId : Nat) : Prop :=
  ∃ e, s.entries[slot]? = some e ∧ e.active = true ∧ e.nodeId = nodeId

section

variable {s s' : State} {slot slot' nodeId nodeId' : Nat}

theorem Holder.unique (h : Holder s slot nodeId) (h' : Holder s slot nodeId') :
    nodeId = nodeId' := by
  obtain ⟨e, he, -, rfl⟩ := h
  obtain ⟨e', he', -, rfl⟩ := h'
  exact congrArg _ (Option.some.inj (he.symm.trans he'))

theorem findEntryLocked_holder (h : findEntryLocked s nodeId = some slot) :
    Holder s slot nodeId := by
  obtain ⟨as, e, bs, hl, rfl, he, -⟩ := findEntryLocked_some h
  obtain ⟨hactive, hid⟩ := holds_eq_true.mp he
  exact ⟨e, by simp [hl], hactive, hid⟩

theorem Table.slot_unique (h : Table s) (hfind : findEntryLocked s nodeId = some slot)
    (hslot : Holder s slot' nodeId) : slot' = slot := by
  obtain ⟨as, e, bs, hl, rfl, he, -⟩ := findEntryLocked_some hfind
  obtain ⟨hactive, hid⟩ := holds_eq_true.mp he
  obtain ⟨e', he', hactive', hid'⟩ := hslot
  have hdistinct := h.distinct
  rw [hl, distinct_live hactive] at hdistinct
  rw [hl] at he'
  by_contra hne
  exact hdistinct.1 e' (mem_of_getElem?_ne he' hne) hactive' (hid'.trans hid.symm)

theorem register_slots {label : Option String} {caps : BitVec 64} {gate : Bool}
    (hcall : register nodeId label caps gate s = (.ok, s')) :
    ∃ slot, slot < s.entries.length ∧ (∀ n, ¬Holder s slot n) ∧ (∀ i, ¬Holder s i nodeId) ∧
      (∀ i n, Holder s' i n ↔ Holder s i n ∨ i = slot ∧ n = nodeId) ∧
      s'.entries.length = s.entries.length ∧
      s'.stats = s.stats.set slot (NodeStats.fresh nodeId) := by
  unfold register at hcall
  iterate 3
    split at hcall
    · cases hcall
  rename_i hfind
  split at hcall
  · cases hcall
  rename_i slot hfree
  cases hcall
  have hlt := findIdx?_eq_some_iff_findIdx_eq.mp hfree |>.1
  obtain ⟨as, x, bs, hl, rfl, hx, -⟩ := findIdx?_split hfree
  have hdead : ∀ n, ¬Holder s as.length n := by
    rintro n ⟨e, he, hactive, -⟩
    obtain rfl : x = e := by simpa [hl] using he
    simp [hactive] at hx
  refine ⟨as.length, hlt, hdead, ?_, ?_, length_set, rfl⟩
  · rintro i ⟨e, he, hactive, hid⟩
    exact (findEntryLocked_none hfind).1 e (mem_of_getElem? he) hactive hid
  · intro i n
    simp only [Holder]
    rcases eq_or_ne i as.length with rfl | hne
    · rw [getElem?_set_self hlt]
      constructor
      · rintro ⟨e, he, -, rfl⟩
        exact .inr ⟨rfl, by rw [← Option.some.inj he]⟩
      · rintro (hold | ⟨-, rfl⟩)
        · exact absurd hold (hdead n)
        · exact ⟨_, rfl, rfl, rfl⟩
    · rw [getElem?_set_ne hne.symm]
      simp [hne]

theorem updateCaps_slots (caps : BitVec 64) (s : State) (nodeId : Nat) :
    (∀ i n, Holder (updateCaps nodeId caps s).2 i n ↔ Holder s i n) ∧
      (updateCaps nodeId caps s).2.entries.length = s.entries.length ∧
      (updateCaps nodeId caps s).2.stats = s.stats := by
  unfold updateCaps
  iterate 2
    split
    · exact ⟨fun _ _ => Iff.rfl, rfl, rfl⟩
  refine ⟨?_, length_modify .., rfl⟩
  intro i n
  simp only [Holder, getElem?_modify]
  cases s.entries[i]? with
  | none => simp
  | some e =>
    simp only [Option.map_eq_map, Option.map_some, Option.some.injEq, exists_eq_left']
    split <;> rfl

/-- An evaluation that returns a decision records it under the node, and no decision is both
blocked by health and a permission. -/
theorem evaluate_slots (s : State) (nodeId : Nat) (caps : BitVec 64) (hasOut : Bool)
    (health : Health.Summary) (startNs endNs : Nat) :
    (decisionOf (.evaluate nodeId caps hasOut health startNs endNs) s = [] ∧
      (evaluate nodeId caps hasOut health startNs endNs s).2 = s) ∨
    ∃ slot x, findEntryLocked s nodeId = some slot ∧
      decisionOf (.evaluate nodeId caps hasOut health startNs endNs) s = [(nodeId, x)] ∧
      (x.healthBlock = true → x.action ≠ .permit) ∧
      (evaluate nodeId caps hasOut health startNs endNs s).2 =
        recordDecision slot x.action x.healthBlock x.startNs x.endNs s := by
  simp only [decisionOf, evaluate]
  cases hcall : !s.ready || !hasOut with
  | true => exact .inl ⟨rfl, rfl⟩
  | false =>
    cases hfind : findEntryLocked s nodeId with
    | none => exact .inl ⟨rfl, rfl⟩
    | some slot =>
      refine .inr ⟨slot, _, rfl, rfl, ?_, rfl⟩
      simp only [Entry.decide]
      split
      · exact nofun
      split
      · exact nofun
      · exact nofun

end

/-! ## Runs -/

section

variable {s : State} {nodeId : Nat} {tr more : List (Nat × Sample)} {x : Sample}

theorem samplesOf_eq_nil : samplesOf nodeId tr = [] ↔ ∀ x ∈ tr, x.1 ≠ nodeId := by
  simp [samplesOf]

/-- The table has recorded these decisions, each under its node. -/
structure Follows (tr : List (Nat × Sample)) (s : State) : Prop where
  length : s.stats.length = s.entries.length
  stats : ∀ slot nodeId, Holder s slot nodeId →
    s.stats[slot]? = some (recordAll nodeId (samplesOf nodeId tr))
  known : ∀ x ∈ tr, ∃ slot, Holder s slot x.1
  denied : ∀ x ∈ tr, x.2.healthBlock = true → x.2.action ≠ .permit

theorem follows_init : Follows [] init where
  length := by simp [init]
  stats := by
    rintro slot nodeId ⟨e, he, hactive, -⟩
    rw [eq_of_mem_replicate (mem_of_getElem? he)] at hactive
    cases hactive
  known := nofun
  denied := nofun

theorem Follows.keep {s' : State} (h : Follows tr s) (hslots : ∀ i n, Holder s' i n ↔ Holder s i n)
    (hlength : s'.entries.length = s.entries.length) (hstats : s'.stats = s.stats) :
    Follows tr s' where
  length := by rw [hstats, h.length, hlength]
  stats := by
    intro slot n hslot
    rw [hstats]
    exact h.stats slot n ((hslots slot n).mp hslot)
  known := by
    intro x hx
    obtain ⟨slot, hslot⟩ := h.known x hx
    exact ⟨slot, (hslots slot x.1).mpr hslot⟩
  denied := h.denied

theorem Follows.register {s' : State} {label : Option String} {caps : BitVec 64} {gate : Bool}
    (h : Follows tr s) (hcall : register nodeId label caps gate s = (.ok, s')) : Follows tr s' := by
  obtain ⟨slot, hlt, hdead, hnew, hslots, hlength, hstats⟩ := register_slots hcall
  refine ⟨by rw [hstats, length_set, h.length, hlength], ?_, ?_, h.denied⟩
  · intro i n hi
    rw [hstats]
    rcases (hslots i n).mp hi with hi | ⟨rfl, rfl⟩
    · have hne : slot ≠ i := by
        rintro rfl
        exact hdead n hi
      rw [getElem?_set_ne hne]
      exact h.stats i n hi
    · -- nothing was recorded for a node without a slot
      have hnone : samplesOf n tr = [] := by
        refine samplesOf_eq_nil.mpr ?_
        rintro x hx rfl
        obtain ⟨j, hj⟩ := h.known x hx
        exact hnew j hj
      rw [hnone, getElem?_set_self (h.length ▸ hlt)]
      rfl
  · intro x hx
    obtain ⟨i, hi⟩ := h.known x hx
    exact ⟨i, (hslots i x.1).mpr (.inl hi)⟩

theorem Follows.record {slot : Nat} (h : Follows tr s) (htable : Table s)
    (hfind : findEntryLocked s nodeId = some slot)
    (hdenied : x.healthBlock = true → x.action ≠ .permit) :
    Follows (tr ++ [(nodeId, x)])
      (recordDecision slot x.action x.healthBlock x.startNs x.endNs s) := by
  refine ⟨by rw [recordDecision, length_modify, h.length], ?_, ?_, ?_⟩
  · intro i n hi
    have hold : s.stats[i]? = some (recordAll n (samplesOf n tr)) := h.stats i n hi
    rw [recordDecision, getElem?_modify, hold]
    simp only [samplesOf, filter_append, map_append]
    rcases eq_or_ne slot i with rfl | hne
    · obtain rfl := Holder.unique (findEntryLocked_holder hfind) hi
      simp [recordAll_snoc]
    · have hother : nodeId ≠ n := by
        rintro rfl
        exact hne (htable.slot_unique hfind hi).symm
      simp [hne, hother]
  · refine forall_mem_append.mpr ⟨h.known, forall_mem_singleton.mpr ?_⟩
    exact ⟨slot, findEntryLocked_holder hfind⟩
  · exact forall_mem_append.mpr ⟨h.denied, forall_mem_singleton.mpr hdenied⟩

theorem Follows.exec (h : Follows tr s) (htable : Table s) (c : Call) :
    Follows (tr ++ decisionOf c s) (exec c s).2 := by
  cases c with
  | register nodeId label caps healthGate =>
    show Follows (tr ++ []) (Nodebit.register nodeId label caps healthGate s).2
    rw [append_nil]
    rcases hcall : Nodebit.register nodeId label caps healthGate s with ⟨st, s'⟩
    by_cases hst : st = .ok
    · subst hst
      exact h.register hcall
    · rw [register_error hcall hst]
      exact h
  | updateCaps nodeId caps =>
    show Follows (tr ++ []) (updateCaps nodeId caps s).2
    rw [append_nil]
    obtain ⟨hslots, hlength, hstats⟩ := updateCaps_slots caps s nodeId
    exact h.keep hslots hlength hstats
  | evaluate nodeId caps hasOut health startNs endNs =>
    show Follows _ (evaluate nodeId caps hasOut health startNs endNs s).2
    rcases evaluate_slots s nodeId caps hasOut health startNs endNs with
      ⟨hnone, hs⟩ | ⟨slot, x, hfind, hone, hdenied, hs⟩
    · rw [hnone, append_nil, hs]
      exact h
    · rw [hone, hs]
      exact h.record htable hfind hdenied

/-- The table records the decisions of a run. -/
theorem Follows.run (calls : List Call) (h : Follows tr s) (htable : Table s) :
    Follows (tr ++ trace calls s) (run calls s).2 := by
  induction calls generalizing tr s with
  | nil =>
    rw [trace, append_nil]
    exact h
  | cons c calls ih =>
    rw [trace, ← append_assoc]
    exact ih (h.exec htable c) (exec_refines htable c).1

theorem length_trace_le (calls : List Call) (s : State) :
    (trace calls s).length ≤ calls.countP Call.isEvaluate := by
  induction calls generalizing s with
  | nil => exact Nat.le_refl 0
  | cons c calls ih =>
    have hone : (decisionOf c s).length ≤ if c.isEvaluate then 1 else 0 := by
      cases c with
      | register | updateCaps => exact Nat.le_refl 0
      | evaluate nodeId caps hasOut health startNs endNs =>
        rcases evaluate_slots s nodeId caps hasOut health startNs endNs with
          ⟨hnone, -⟩ | ⟨slot, x, -, hone, -⟩
        · simp [hnone]
        · simp [hone, Call.isEvaluate]
    have hrest := ih (exec c s).2
    rw [trace, length_append, countP_cons]
    omega

end

end AiosKernel.Nodebit
