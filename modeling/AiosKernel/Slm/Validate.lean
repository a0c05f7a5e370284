/-
# `AiosKernel.Slm.Validate` — what a validated plan has passed

The checks on a plan are spread over the catalog, the effective nodes, the policy
and the request itself.  `Narrows` is what the loop of `compute_nodebits` does to
a node, step by step: actions are only ever taken away.  From an action that is
still allowed at the end one reads back what no step has found missing.
-/
import AiosKernel.Slm.Model
import AiosKernel.Lib.Flag
import AiosKernel.Lib.Slots

namespace AiosKernel.Slm

open Health Flag Slots

/-! ## Effective nodes -/

/-- The node is the same one, as risky as it was, and allows nothing that it did not. -/
structure Narrows (node node' : Nodebit) : Prop where
  nodeId : node'.nodeId = node.nodeId
  actionBits : node'.actionBits = node.actionBits
  required : node'.requiredCapabilityBits = node.requiredCapabilityBits
  risky : node'.flags &&& SLM_NODEBIT_F_RISKY = node.flags &&& SLM_NODEBIT_F_RISKY
  allow : ∀ b, node'.allowBits &&& b ≠ 0 → node.allowBits &&& b ≠ 0

def Nodebit.Allows (node : Nodebit) (action : Action) : Prop := node.allowBits &&& action.bit ≠ 0

section

variable {node node' node'' : Nodebit} {action : Action} {m : Machine} {health : Summary}
  {access : UserHwAccess} {runtime : RuntimeState} {l : Learning} {id : NodeId}

theorem Narrows.refl (node : Nodebit) : Narrows node node :=
  ⟨rfl, rfl, rfl, rfl, fun _ h => h⟩

section

variable (h : Narrows node node')
include h

theorem Narrows.trans (h' : Narrows node' node'') : Narrows node node'' where
  nodeId := h'.nodeId.trans h.nodeId
  actionBits := h'.actionBits.trans h.actionBits
  required := h'.required.trans h.required
  risky := h'.risky.trans h.risky
  allow := fun b hb => h.allow b (h'.allow b hb)

theorem Narrows.scores (healthScore accessScore : Nat) :
    Narrows node { node' with healthScore := healthScore, accessScore := accessScore } :=
  { h with }

theorem Narrows.disableApply : Narrows node node'.disableApply := by
  refine h.trans ⟨rfl, rfl, rfl, and_and_of_subset (by decide), ?_⟩
  intro b hb
  exact absurd BitVec.zero_and hb

theorem Narrows.markReady (ready : Bool) : Narrows node (node'.markReady ready) := by
  refine h.trans ⟨rfl, rfl, rfl, ?_, fun _ hb => hb⟩
  cases ready with
  | true => exact or_and_of_disjoint (by decide)
  | false => exact and_and_of_subset (by decide)

theorem Narrows.mask (mask : BitVec 32) :
    Narrows node { node' with allowBits := node'.allowBits &&& mask } :=
  h.trans ⟨rfl, rfl, rfl, rfl, fun _ hb => ne_zero_of_and hb⟩

end

theorem not_allows_disableApply (node : Nodebit) : ¬ node.disableApply.Allows action :=
  fun h => h BitVec.zero_and

theorem withRuntime_narrows (runtime : RuntimeState) : Narrows node (node.withRuntime runtime) := by
  unfold Nodebit.withRuntime
  split
  · exact ((Narrows.refl node).markReady false).disableApply.scores _ _
  · exact Narrows.refl node

/-- A node that still allows an action has the capabilities it requires. -/
theorem withCapabilities_spec (access : UserHwAccess) (node : Nodebit) :
    Narrows node (node.withCapabilities access) ∧ ((node.withCapabilities access).Allows action →
      cap access.capabilityFlags &&& node.requiredCapabilityBits = node.requiredCapabilityBits) := by
  unfold Nodebit.withCapabilities
  split
  · exact ⟨(Narrows.refl node).disableApply.scores _ _,
      fun h => absurd h (not_allows_disableApply node)⟩
  · rename_i hcaps
    refine ⟨Narrows.refl node, fun _ => ?_⟩
    by_contra hmissing
    refine hcaps ⟨?_, hmissing⟩
    intro hzero
    rw [hzero] at hmissing
    exact hmissing BitVec.and_zero

/-- What the driver of the node must report for the action. -/
def Serves (m : Machine) (action : Action) : NodeId → Prop
  | .deviceEthernet => m.nic.present = true ∧ (action = .e1000RxPoll → m.nic.rxReady = true) ∧
      (action = .e1000TxSmoke → m.nic.txReady = true)
  | .deviceUsb => m.usb.present = true
  | .deviceStorage => m.storage.present = true
  | _ => True

theorem device_spec (present ready : Bool) (readyScore coldScore : Nat) (node : Nodebit) :
    Narrows node (node.device present ready readyScore coldScore) ∧
      ((node.device present ready readyScore coldScore).Allows action → present = true) := by
  have hrefl := Narrows.refl node
  cases present with
  | false =>
    exact ⟨(hrefl.markReady false).disableApply.scores _ _,
      fun h => absurd h (not_allows_disableApply (node.markReady false))⟩
  | true => exact ⟨(hrefl.markReady ready).scores _ _, fun _ => rfl⟩

theorem maskUnless_spec (ready : Bool) (masked : Action) (node : Nodebit) :
    Narrows node (node.maskUnless ready masked) ∧
      ((node.maskUnless ready masked).Allows masked → ready = true) := by
  cases ready with
  | false => exact ⟨(Narrows.refl node).mask _, fun h => absurd and_not_and h⟩
  | true => exact ⟨Narrows.refl node, fun _ => rfl⟩

/-- Sending and polling need the ring they use. -/
theorem ethernet_spec (nic : NicInfo) :
    Narrows node (node.ethernet nic) ∧ ((node.ethernet nic).Allows action →
      nic.present = true ∧ (action = .e1000RxPoll → nic.rxReady = true) ∧
        (action = .e1000TxSmoke → nic.txReady = true)) := by
  obtain ⟨hdevice, hpresent⟩ := @device_spec action nic.present nic.ready 78 48 node
  unfold Nodebit.ethernet
  cases hnic : nic.present with
  | false =>
    rw [hnic] at hdevice hpresent
    exact ⟨hdevice, fun h => nomatch hpresent h⟩
  | true =>
    rw [hnic] at hdevice
    obtain ⟨hrx, hrxReady⟩ :=
      maskUnless_spec nic.rxReady .e1000RxPoll (node.device true nic.ready 78 48)
    obtain ⟨htx, htxReady⟩ := maskUnless_spec nic.txReady .e1000TxSmoke
      ((node.device true nic.ready 78 48).maskUnless nic.rxReady .e1000RxPoll)
    refine ⟨hdevice.trans (hrx.trans htx), fun h => ⟨rfl, ?_, ?_⟩⟩
    · rintro rfl
      exact hrxReady (htx.allow _ h)
    · rintro rfl
      exact htxReady h

/-- What the drivers leave allowed, they serve. -/
theorem withDrivers_spec (m : Machine) (node : Nodebit) :
    Narrows node (node.withDrivers m) ∧
      ((node.withDrivers m).Allows action → Serves m action node.nodeId) := by
  unfold Nodebit.withDrivers
  cases hid : node.nodeId with
  | deviceEthernet => exact ethernet_spec m.nic
  | deviceUsb => exact device_spec m.usb.present m.usb.ready 74 44 node
  | deviceStorage => exact device_spec m.storage.present m.storage.ready 76 46 node
  | _ => exact ⟨Narrows.refl node, fun _ => trivial⟩

theorem withHealth_narrows : Narrows node (node.withHealth health) := by
  unfold Nodebit.withHealth
  split
  · exact (Narrows.refl node).mask _
  · exact Narrows.refl node

theorem settle_narrows : Narrows node node.settle := by
  unfold Nodebit.settle
  split
  · exact ⟨rfl, rfl, rfl, and_and_of_subset (by decide), fun _ hb => hb⟩
  · exact Narrows.refl node

/-- The loop of `compute_nodebits` narrows a node, and what it leaves allowed has its capabilities
and its driver. -/
theorem effective_spec (m : Machine) (access : UserHwAccess) (runtime : RuntimeState)
    (node : Nodebit) : Narrows node (node.effective m access runtime) ∧
      ((node.effective m access runtime).Allows action →
        cap access.capabilityFlags &&& node.requiredCapabilityBits = node.requiredCapabilityBits ∧
          Serves m action node.nodeId) := by
  have hscores : Narrows node (node.withScores (getSummary m.health) access) :=
    (Narrows.refl node).scores _ _
  have hruntime := hscores.trans (withRuntime_narrows runtime)
  obtain ⟨hcaps, hcapable⟩ := @withCapabilities_spec action access
    ((node.withScores (getSummary m.health) access).withRuntime runtime)
  have hgate := hruntime.trans hcaps
  obtain ⟨hdrivers, hserves⟩ := @withDrivers_spec action m
    (((node.withScores (getSummary m.health) access).withRuntime runtime).withCapabilities access)
  have hrest : ∀ n : Nodebit, Narrows n (n.withHealth (getSummary m.health)).settle := by
    intro n
    exact withHealth_narrows.trans settle_narrows
  refine ⟨hgate.trans (hdrivers.trans (hrest _)), ?_⟩
  intro h
  have hallowed := (hrest _).allow _ h
  exact ⟨hruntime.required ▸ hcapable (hdrivers.allow _ hallowed), hgate.nodeId ▸ hserves hallowed⟩

theorem readEffectiveNodebit_some (h : readEffectiveNodebit m l runtime id = some node') :
    ∃ node ∈ nodebitCatalog, node.nodeId = id ∧ node' = node.effective m (userHwAccess m l)
      (snapshotRuntimeState runtime (getSummary m.health)) := by
  unfold readEffectiveNodebit at h
  split at h
  · exact nomatch h
  have hid := List.find?_some h
  obtain ⟨node, hnode, rfl⟩ := List.mem_map.mp (List.mem_of_find?_eq_some h)
  refine ⟨node, hnode, ?_, rfl⟩
  rw [← (@effective_spec .none m _ _ node).1.nodeId]
  exact beq_iff_eq.mp hid

/-! ## Requests -/

variable {req : PlanRequest}

/-- What the policy asks of a request to apply. -/
theorem nodebitPolicyPermits_spec (h : nodebitPolicyPermits m l runtime req = true)
    (happly : req.allowApply = true) :
    ∃ node, readEffectiveNodebit m l runtime (requestNodebitId req) = some node ∧
      node.actionBits &&& req.action.bit ≠ 0 ∧ node.Allows req.action ∧
      (node.flags &&& SLM_NODEBIT_F_RISKY ≠ 0 → (getSummary m.health).riskyIoAllowed = true) := by
  simp only [nodebitPolicyPermits, Bool.if_false_left, Bool.and_eq_true] at h
  obtain ⟨-, -, h⟩ := h
  split at h
  · exact nomatch h
  rename_i node hnode
  simp only [happly, if_true, true_and, Bool.and_eq_true, Bool.not_eq_true', Bool.or_eq_true,
    decide_eq_false_iff_not, Bool.not_eq_false, bne_iff_ne, not_and] at h
  obtain ⟨hknown, hrisk, -, hallow⟩ := h
  exact ⟨node, hnode, hknown, hallow, fun hrisky => hrisk (.inl (.inr hrisky))⟩

structure Bounded (req : PlanRequest) : Prop where
  risk : req.riskLevel ≤ 3
  queueDepth : req.queueDepthHint ≤ 256
  pollBudget : req.pollBudgetHint ≤ 4096
  dmaWindow : req.dmaWindowKibHint ≤ 4096

theorem requestValid_spec (h : requestValid m l runtime req = true) :
    runtime.available = true ∧ Bounded req ∧ nodebitPolicyPermits m l runtime req = true ∧
      actionFits m req = true := by
  simp only [requestValid, Bool.if_false_left, Bool.and_eq_true, Bool.not_eq_true',
    decide_eq_false_iff_not, Bool.or_eq_true, not_or, decide_eq_true_eq, Nat.not_lt,
    Bool.not_eq_false] at h
  obtain ⟨⟨-, hruntime⟩, hrisk, ⟨⟨hqueue, hpoll⟩, hdma⟩, -, hpermits, -, -, -, h⟩ := h
  exact ⟨hruntime, ⟨hrisk, hqueue, hpoll, hdma⟩, hpermits, h⟩

end

/-! ## Submissions -/

/-- The driver of the template's device reports it present. -/
def devicePresent (m : Machine) : Template → Bool
  | .pciEthernet => m.nic.present
  | .pciUsb => m.usb.present
  | .pciStorage => m.storage.present
  | .none | .discovery | .other _ => false

/-- What a plan to apply something to a device has passed when it is validated. -/
structure Cleared (m : Machine) (s : State) (req : PlanRequest) : Prop where
  runtime : s.runtimeState ≠ .absent ∧ s.runtimeState ≠ .failed
  riskyIo : (getSummary m.health).riskyIoAllowed = true
  present : devicePresent m req.template = true
  /-- The entry of the template's node has the action, user programs have the capabilities it
  requires, and the effective node still allows the action. -/
  node : ∃ entry ∈ nodebitCatalog, entry.nodeId = requestNodebitId req ∧
    entry.actionBits &&& req.action.bit ≠ 0 ∧
    cap (userHwAccess m s.learning).capabilityFlags &&& entry.requiredCapabilityBits =
      entry.requiredCapabilityBits ∧
    ∃ node, readEffectiveNodebit m s.learning s.runtimeState (requestNodebitId req) = some node ∧
      node.Allows req.action
  rxReady : req.action = .e1000RxPoll → m.nic.rxReady = true
  txReady : req.action = .e1000TxSmoke → m.nic.txReady = true
  bounded : Bounded req

section

variable {m : Machine} {s : State} {req : PlanRequest}

theorem kind_of_isDevice (hdevice : req.template.isDevice = true) :
    ∀ entry ∈ nodebitCatalog, entry.nodeId = requestNodebitId req → entry.kind = .device := by
  unfold requestNodebitId
  cases htemplate : req.template with
  | pciEthernet | pciUsb | pciStorage => decide
  | _ => rw [htemplate] at hdevice; exact nomatch hdevice

theorem requestValid_cleared (happly : req.allowApply = true)
    (hdevice : req.template.isDevice = true)
    (hvalid : requestValid m s.learning s.runtimeState req = true) : Cleared m s req := by
  obtain ⟨hruntime, hbounded, hpermits, hfits⟩ := requestValid_spec hvalid
  obtain ⟨node, hread, hknown, hallows, hrisky⟩ := nodebitPolicyPermits_spec hpermits happly
  obtain ⟨entry, hentry, hid, rfl⟩ := readEffectiveNodebit_some hread
  obtain ⟨hnarrow, hserved⟩ := @effective_spec req.action m (userHwAccess m s.learning)
    (snapshotRuntimeState s.runtimeState (getSummary m.health)) entry
  obtain ⟨hcapable, hserves⟩ := hserved hallows
  have hkind := kind_of_isDevice hdevice entry hentry hid
  have hflag : ∀ node ∈ nodebitCatalog, node.kind = .device →
      node.flags &&& SLM_NODEBIT_F_RISKY ≠ 0 := by decide
  rw [hid] at hserves
  refine ⟨?_, hrisky (hnarrow.risky ▸ hflag entry hentry hkind), ?_,
    ⟨entry, hentry, hid, hnarrow.actionBits ▸ hknown, hcapable, _, hread, hallows⟩, ?_, ?_, hbounded⟩
  · simpa [RuntimeState.available] using hruntime
  · unfold requestNodebitId at hserves
    cases htemplate : req.template with
    | pciEthernet => rw [htemplate] at hserves; exact hserves.1
    | pciUsb | pciStorage => rw [htemplate] at hserves; exact hserves
    | _ => rw [htemplate] at hdevice; exact nomatch hdevice
  · intro haction
    rw [actionFits, haction] at hfits
    exact (Bool.and_eq_true_iff.mp hfits).2
  · intro haction
    rw [actionFits, haction] at hfits
    rw [requestNodebitId, eq_of_beq hfits] at hserves
    exact hserves.2.2 haction

/-- In every state of the kernel: a plan to apply something to a device that `slm_plan_submit`
leaves validated has passed all of `Cleared`. -/
theorem submit_validated_cleared {nowNs slot : Nat} (hslot : allocPlan s = some slot)
    (happly : req.allowApply = true) (hdevice : req.template.isDevice = true)
    (hvalidated : ((planSubmit m nowNs (some req) s).2.plans.getD slot Plan.zero).state = .validated) :
    Cleared m s req := by
  obtain ⟨as, p, bs, hs, rfl, -, -⟩ := findIdx?_split hslot
  simp only [planSubmit, hslot, hs, set_split, getD_split] at hvalidated
  refine requestValid_cleared happly hdevice ?_
  cases hvalid : requestValid m s.learning s.runtimeState req with
  | true => rfl
  | false => rw [hvalid] at hvalidated; exact nomatch hvalidated

end

/-- A machine with all its devices up. -/
def workstation : Machine where
  health := Health.initial
  acpi := ⟨true, true, true, true⟩
  pci := ⟨true, 8, 4, 2, 2, 0⟩
  matchedDevices := 3
  devices := [⟨1, 0x8086, 0x100E⟩, ⟨4, 0x8086, 0x7020⟩, ⟨5, 0x8086, 0x7010⟩]
  drivers := ⟨3, 0, 3, false, 0, 0, 0⟩
  tier := .mid
  userModeReady := true
  nic := ⟨true, true, true, true⟩
  usb := ⟨true, true⟩
  storage := ⟨true, true⟩

/-- The orchestrator when it is ready. -/
def booted : State := init Learning.init .ready

/-- Bring the storage controller up again, at risk level 1. -/
def restartStorage : PlanRequest := ⟨.pciStorage, .bootstrapStorage, 0, 0, 5, 1, 0, 0, 0, true⟩

theorem submit_validated_cleared_storage :
    ((planSubmit workstation 0 (some restartStorage) booted).2.plans.getD 0 Plan.zero).state =
      .validated ∧ Cleared workstation booted restartStorage := by
  have hvalidated : ((planSubmit workstation 0 (some restartStorage) booted).2.plans.getD 0
      Plan.zero).state = .validated := by decide +kernel
  exact ⟨hvalidated, submit_validated_cleared rfl rfl rfl hvalidated⟩

end AiosKernel.Slm
