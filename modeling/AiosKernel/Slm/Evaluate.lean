/-
# `AiosKernel.Slm.Evaluate` — the policy tool of the host against the policy of the kernel

`os/tools/evaluate_nodebit_policy.py` answers from a catalog what a user program
may ask of a node; the kernel asks its own policy when the plan arrives.  Two
programs for one policy: they test in different orders, and the tool looks at
the risk level of the node where the kernel looks at the one of the request.
The result is that the tool is the stricter of the two, whenever the catalog
shows what the kernel would publish.
-/
import AiosKernel.Slm.Validate

namespace AiosKernel.Slm.Host

open Health

def NODEBIT_F_PRESENT : Nat := 1 <<< 0
def NODEBIT_F_USER_VISIBLE : Nat := 1 <<< 1
def NODEBIT_F_APPLY_ALLOWED : Nat := 1 <<< 3
def NODEBIT_F_RISKY : Nat := 1 <<< 4
def NODEBIT_F_RUNTIME_READY : Nat := 1 <<< 6

def SLM_ACTION_NONE : Int := 0
def SLM_ACTION_COUNT : Int := 12
def SUPPORTED_SCHEMA : String := "aios.nodebit.catalog.v1"

def ACTION_IDS : List (String × Int) :=
  [("SLM_ACTION_NONE", 0), ("SLM_ACTION_REPROBE_PCI", 1), ("SLM_ACTION_BOOTSTRAP_E1000", 2),
   ("SLM_ACTION_E1000_TX_SMOKE", 3), ("SLM_ACTION_E1000_DUMP", 4), ("SLM_ACTION_BOOTSTRAP_USB", 5),
   ("SLM_ACTION_USB_DUMP", 6), ("SLM_ACTION_BOOTSTRAP_STORAGE", 7), ("SLM_ACTION_STORAGE_DUMP", 8),
   ("SLM_ACTION_IO_AUDIT", 9), ("SLM_ACTION_CORE_AUDIT", 10), ("SLM_ACTION_E1000_RX_POLL", 11)]

def BOOTSTRAP_ACTIONS : List Int := [2, 5, 7]

/-! ## Catalogs -/

/-- The value under `kind`: a number or a name. -/
inductive KindField where
  | number (n : Int)
  | name (s : String)
  deriving DecidableEq, Repr

/-- One element of `nodes`; `none` is a missing key. -/
structure CatalogNode where
  nodeId : Option Int
  parentId : Option Int
  name : Option String
  kind : Option KindField
  flags : Option Nat
  actionBits : Option Nat
  allowBits : Option Nat
  observeOnlyBits : Option Nat
  riskyBits : Option Nat
  requiredCapabilityBits : Option Nat
  riskLevel : Option Int
  latencyClass : Option Int
  deriving DecidableEq, Repr

/-- A catalog, the keys the tool reads; `none` is a missing key. -/
structure Catalog where
  schema : Option String
  runtimeState : Option String
  capabilityFlags : Option Nat
  riskyIoAllowed : Option Bool
  nodebitGeneration : Option Int
  nodes : Option (List CatalogNode)
  deriving DecidableEq, Repr

/-- `--mode`. -/
inductive Mode where
  | observe
  | apply
  deriving DecidableEq, Repr

inductive Reason where
  | unsupportedSchema
  | invalidAction
  | runtimeUnavailable
  | nodeMissing
  | nodeAbsent
  | nodeHidden
  | missingCapability
  | unsupportedAction
  | riskyApplyBlocked
  | applyFlagMissing
  | applyNotAllowed
  | nodeNotReady
  | observeNotAllowed
  deriving DecidableEq, Repr

inductive SupportState where
  | absent
  | ready
  | degraded
  deriving DecidableEq, Repr

/-- What both kinds of answer say about the question. -/
structure Report where
  mode : Mode
  requestedNodeId : Int
  nodeId : Int
  parentId : Int
  nodeName : String
  kind : String
  supportState : SupportState
  action : String
  actionId : Int
  runtimeState : String
  riskyIoAllowed : Bool
  latencyClass : Int
  generation : Int
  deriving DecidableEq, Repr

/-- An answer; the reason of an allowed action is always `matched_nodebit`. -/
inductive Answer where
  | deny (reason : Reason) (report : Report)
  | allow (report : Report) (risky : Bool) (riskLevel : Int) (requiredCapabilityBits : Nat)
  deriving DecidableEq, Repr

/-- The value under `decision`. -/
def Answer.allowed : Answer → Bool
  | .deny _ _ => false
  | .allow _ _ _ _ => true

/-! ## The tool -/

def actionName (value : Int) : String :=
  match ACTION_IDS.find? fun entry => entry.2 == value with
  | some entry => entry.1
  | none => "SLM_ACTION_" ++ toString value

def nodeKind (node : CatalogNode) : String :=
  match node.kind with
  | none => "unknown"
  | some (.name s) => s
  | some (.number n) =>
    match n with
    | 1 => "api"
    | 2 => "tool"
    | 3 => "device"
    | 4 => "memory"
    | 5 => "clock"
    | 6 => "policy"
    | _ => "unknown"

def supportState (flags : Nat) : SupportState :=
  if flags &&& NODEBIT_F_PRESENT = 0 then .absent
  else if flags &&& NODEBIT_F_RUNTIME_READY ≠ 0 then .ready
  else .degraded

def findNode (catalog : Catalog) (nodeId : Int) : Option CatalogNode :=
  (catalog.nodes.getD []).find? fun node => node.nodeId.getD (-1) == nodeId

def catalogRiskyIoAllowed (catalog : Catalog) (allowRisky : Bool) : Bool :=
  allowRisky || catalog.riskyIoAllowed.getD false

/-- The report of `deny`, which may have no node to talk about. -/
def denyReport (node : Option CatalogNode) (requestedNodeId action : Int) (mode : Mode)
    (catalog : Catalog) (allowRisky : Bool) : Report where
  mode := mode
  requestedNodeId := requestedNodeId
  nodeId := (node.bind (·.nodeId)).getD requestedNodeId
  parentId := (node.bind (·.parentId)).getD 0
  nodeName := (node.bind (·.name)).getD "unknown"
  kind := (node.map nodeKind).getD "unknown"
  supportState := supportState ((node.bind (·.flags)).getD 0)
  action := actionName action
  actionId := action
  runtimeState := catalog.runtimeState.getD "unknown"
  riskyIoAllowed := catalogRiskyIoAllowed catalog allowRisky
  latencyClass := (node.bind (·.latencyClass)).getD 0
  generation := catalog.nodebitGeneration.getD 0

/-- The tests of `evaluate` that come before there is a node: the reason of the first that fails,
or the node. -/
def lookup (catalog : Catalog) (nodeId action : Int) : Except Reason CatalogNode :=
  if catalog.schema.any (· != SUPPORTED_SCHEMA) then .error .unsupportedSchema
  else if action ≤ SLM_ACTION_NONE ∨ SLM_ACTION_COUNT ≤ action then .error .invalidAction
  else if (catalog.runtimeState.getD "unknown").toLower ∉ ["ready", "bootstrap", "degraded"] then
    .error .runtimeUnavailable
  else
    match findNode catalog nodeId with
    | none => .error .nodeMissing
    | some node => .ok node

/-- `risky` of `evaluate`, for a bit of an action. -/
def CatalogNode.risky (node : CatalogNode) (actionBit : Nat) : Bool :=
  node.flags.getD 0 &&& NODEBIT_F_RISKY != 0 || node.riskyBits.getD 0 &&& actionBit != 0

/-- The tests of `evaluate` on the node: the reason of the first that fails. -/
def refusal (catalog : Catalog) (node : CatalogNode) (action : Int) (mode : Mode)
    (allowRisky : Bool) : Option Reason :=
  let flags := node.flags.getD 0
  let actionBit := 1 <<< action.toNat
  let allowBits := node.allowBits.getD 0
  let required := node.requiredCapabilityBits.getD 0
  if flags &&& NODEBIT_F_PRESENT = 0 then some .nodeAbsent
  else if flags &&& NODEBIT_F_USER_VISIBLE = 0 then some .nodeHidden
  else if required ≠ 0 ∧ catalog.capabilityFlags.getD 0 &&& required ≠ required then
    some .missingCapability
  else if node.actionBits.getD 0 &&& actionBit = 0 then some .unsupportedAction
  else
    match mode with
    | .apply =>
      if (node.risky actionBit = true ∨ 0 < node.riskLevel.getD 0) ∧
          catalogRiskyIoAllowed catalog allowRisky = false then some .riskyApplyBlocked
      else if flags &&& NODEBIT_F_APPLY_ALLOWED = 0 then some .applyFlagMissing
      else if allowBits &&& actionBit = 0 then some .applyNotAllowed
      else if nodeKind node = "device" ∧ flags &&& NODEBIT_F_RUNTIME_READY = 0 ∧
          action ∉ BOOTSTRAP_ACTIONS then some .nodeNotReady
      else none
    | .observe =>
      if (node.observeOnlyBits.getD 0 ||| allowBits) &&& actionBit = 0 then some .observeNotAllowed
      else none

/-- `evaluate`; `none` is the `KeyError` of `node["node_id"]`. -/
def evaluate (catalog : Catalog) (nodeId action : Int) (mode : Mode) (allowRisky : Bool) :
    Option Answer :=
  match lookup catalog nodeId action with
  | .error reason => some (.deny reason (denyReport none nodeId action mode catalog allowRisky))
  | .ok node =>
    match refusal catalog node action mode allowRisky with
    | some reason =>
      some (.deny reason (denyReport (some node) nodeId action mode catalog allowRisky))
    | none => do
      -- the only key that is not read with a default
      let id ← node.nodeId
      return .allow { denyReport (some node) nodeId action mode catalog allowRisky with
          nodeId := id }
        (node.risky (1 <<< action.toNat)) (node.riskLevel.getD 0)
        (node.requiredCapabilityBits.getD 0)

section

variable {catalog : Catalog} {node : CatalogNode} {nodeId action : Int} {mode : Mode}
  {allowRisky : Bool} {ans : Answer}

theorem evaluate_allowed (h : evaluate catalog nodeId action mode allowRisky = some ans)
    (hans : ans.allowed = true) :
    ∃ node, lookup catalog nodeId action = .ok node ∧
      refusal catalog node action mode allowRisky = none := by
  unfold evaluate at h
  cases hlookup : lookup catalog nodeId action with
  | error reason =>
    rw [hlookup] at h
    rw [← Option.some.inj h] at hans
    exact nomatch hans
  | ok node =>
    rw [hlookup] at h
    dsimp only at h
    cases hrefusal : refusal catalog node action mode allowRisky with
    | some reason =>
      rw [hrefusal] at h
      rw [← Option.some.inj h] at hans
      exact nomatch hans
    | none => exact ⟨node, rfl, hrefusal⟩

theorem lookup_ok (h : lookup catalog nodeId action = .ok node) :
    0 < action ∧ action < 12 ∧
      (catalog.runtimeState.getD "unknown").toLower ∈ ["ready", "bootstrap", "degraded"] ∧
      findNode catalog nodeId = some node := by
  simp only [lookup, ite_eq_iff, reduceCtorEq, and_false, false_or, not_or, not_not] at h
  obtain ⟨-, ⟨hpos, hlt⟩, hruntime, h⟩ := h
  split at h
  · exact nomatch h
  rename_i node' hfind
  cases h
  exact ⟨Int.not_le.mp hpos, Int.not_le.mp hlt, hruntime, hfind⟩

theorem check_eq_none {c : Prop} [Decidable c] {reason : Reason} {rest : Option Reason} :
    (if c then some reason else rest) = none ↔ ¬c ∧ rest = none := by
  by_cases hc : c <;> simp [hc]

theorem refusal_apply_none (h : refusal catalog node action .apply allowRisky = none) :
    node.actionBits.getD 0 &&& 1 <<< action.toNat ≠ 0 ∧
      (node.risky (1 <<< action.toNat) = true ∨ 0 < node.riskLevel.getD 0 →
        catalogRiskyIoAllowed catalog allowRisky = true) ∧
      node.flags.getD 0 &&& NODEBIT_F_APPLY_ALLOWED ≠ 0 ∧
      node.allowBits.getD 0 &&& 1 <<< action.toNat ≠ 0 := by
  simp only [refusal, check_eq_none] at h
  obtain ⟨-, -, -, hknown, hrisk, hflag, hallow, -⟩ := h
  refine ⟨hknown, ?_, hflag, hallow⟩
  intro hrisky
  exact Bool.of_not_eq_false fun hclosed => hrisk ⟨hrisky, hclosed⟩

theorem refusal_observe_none (h : refusal catalog node action .observe allowRisky = none) :
    node.actionBits.getD 0 &&& 1 <<< action.toNat ≠ 0 ∧
      (node.observeOnlyBits.getD 0 ||| node.allowBits.getD 0) &&& 1 <<< action.toNat ≠ 0 := by
  simp only [refusal, check_eq_none] at h
  obtain ⟨-, -, -, hknown, hobserve, -⟩ := h
  exact ⟨hknown, hobserve⟩

end

end AiosKernel.Slm.Host

namespace AiosKernel.Slm

open Health Host

/-! ## What the kernel publishes -/

def NodeId.number : NodeId → Nat
  | .none => 0
  | .apiBootstrap => 1
  | .apiHwSnapshot => 2
  | .apiPlanSubmit => 3
  | .toolDiscovery => 4
  | .deviceEthernet => 5
  | .deviceUsb => 6
  | .deviceStorage => 7
  | .memoryFabric => 8
  | .clockProfile => 9
  | .policyGate => 10

def NodeKind.number : NodeKind → Nat
  | .api => 1
  | .tool => 2
  | .device => 3
  | .memory => 4
  | .clock => 5
  | .policy => 6

def NodeKind.name : NodeKind → String
  | .api => "api"
  | .tool => "tool"
  | .device => "device"
  | .memory => "memory"
  | .clock => "clock"
  | .policy => "policy"

def RuntimeState.name : RuntimeState → String
  | .absent => "absent"
  | .bootstrap => "bootstrap"
  | .ready => "ready"
  | .degraded => "degraded"
  | .failed => "failed"

/-- `slm_hw_snapshot_t`, as far as a catalog shows it. -/
structure Snapshot where
  runtimeState : RuntimeState
  capabilityFlags : BitVec 16
  riskyIoAllowed : Bool
  nodebits : List Nodebit

def snapshotRead (m : Machine) (l : Learning) (runtime : RuntimeState) : Snapshot :=
  let health := getSummary m.health
  let runtimeState := snapshotRuntimeState runtime health
  let access := userHwAccess m l
  { runtimeState := runtimeState
    capabilityFlags := access.capabilityFlags
    riskyIoAllowed := health.riskyIoAllowed
    nodebits := computeNodebits m access runtimeState }

/-- A node of a catalog that shows a node of a snapshot, its kind as a number or by name. -/
structure ShowsNode (shown : CatalogNode) (node : Nodebit) : Prop where
  nodeId : shown.nodeId = some (node.nodeId.number : Int)
  kind : shown.kind = some (.number node.kind.number) ∨ shown.kind = some (.name node.kind.name)
  flags : shown.flags = some node.flags.toNat
  actionBits : shown.actionBits = some node.actionBits.toNat
  allowBits : shown.allowBits = some node.allowBits.toNat
  observeOnlyBits : shown.observeOnlyBits = some node.observeOnlyBits.toNat
  riskyBits : shown.riskyBits = some node.riskyBits.toNat
  requiredCapabilityBits : shown.requiredCapabilityBits = some node.requiredCapabilityBits.toNat
  riskLevel : shown.riskLevel = some (node.riskLevel : Int)

structure Shows (catalog : Catalog) (snapshot : Snapshot) : Prop where
  runtimeState : catalog.runtimeState = some snapshot.runtimeState.name
  capabilityFlags : catalog.capabilityFlags = some snapshot.capabilityFlags.toNat
  riskyIoAllowed : catalog.riskyIoAllowed = some snapshot.riskyIoAllowed
  nodes : ∃ shown, catalog.nodes = some shown ∧ List.Forall₂ ShowsNode shown snapshot.nodebits

/-! ## The two policies -/

theorem NodeId.number_inj {i j : NodeId} (h : i.number = j.number) : i = j := by
  cases i <;> cases j <;> first | rfl | exact nomatch h

theorem toNat_and_ne_zero {w : Nat} {x y : BitVec w} : x.toNat &&& y.toNat ≠ 0 ↔ x &&& y ≠ 0 := by
  rw [← BitVec.toNat_and, ne_eq, ne_eq, BitVec.toNat_eq]
  rfl

theorem Action.toNat_bit {action : Action} (h : action.valid = true) :
    action.bit.toNat = 1 <<< action.number := by
  cases action with
  | other n => exact absurd (of_decide_eq_true h) (Nat.not_lt.mpr (Nat.le_add_right _ n))
  | _ => rfl

theorem find_shows {shown : List CatalogNode} {nodes : List Nodebit} {id : NodeId}
    {found : CatalogNode} (hshows : List.Forall₂ ShowsNode shown nodes)
    (h : shown.find? (fun node => node.nodeId.getD (-1) == (id.number : Int)) = some found) :
    ∃ node, nodes.find? (fun node => node.nodeId == id) = some node ∧ ShowsNode found node := by
  induction hshows with
  | nil => exact nomatch h
  | @cons n node ns nodes hnode _ ih =>
    rw [List.find?_cons] at h ⊢
    have hsame : (n.nodeId.getD (-1) == (id.number : Int)) = (node.nodeId == id) := by
      rw [hnode.nodeId, Bool.eq_iff_iff, beq_iff_eq, beq_iff_eq]
      exact ⟨fun heq => NodeId.number_inj (Int.ofNat.inj heq), fun heq => heq ▸ rfl⟩
    rw [hsame] at h
    cases hid : node.nodeId == id with
    | true =>
      rw [hid] at h
      exact ⟨node, rfl, Option.some.inj h ▸ hnode⟩
    | false =>
      rw [hid] at h
      exact ih h

section

variable {m : Machine} {l : Learning} {runtime : RuntimeState} {catalog : Catalog}
  {req : PlanRequest} {ans : Answer}

theorem available_of_name {state : RuntimeState}
    (h : state.name.toLower ∈ ["ready", "bootstrap", "degraded"]) : state.available = true := by
  cases state with
  | absent | failed => exact absurd h (by decide +kernel)
  | _ => rfl

theorem available_of_snapshot {health : Summary}
    (h : (snapshotRuntimeState runtime health).available = true) : runtime.available = true := by
  cases runtime with
  | absent => exact h
  | failed => exact h
  | _ => rfl

theorem computeNodebits_ne_none {access : UserHwAccess} {node : Nodebit}
    (h : node ∈ computeNodebits m access runtime) : node.nodeId ≠ .none := by
  obtain ⟨entry, hentry, rfl⟩ := List.mem_map.mp h
  rw [(@effective_spec .none m access runtime entry).1.nodeId]
  have hcatalog : ∀ entry ∈ nodebitCatalog, entry.nodeId ≠ .none := by decide
  exact hcatalog entry hentry

/-- The node of a request that the kernel lets through. -/
structure Grants (m : Machine) (node : Nodebit) (req : PlanRequest) : Prop where
  known : node.actionBits &&& req.action.bit ≠ 0
  risk : req.allowApply = true →
    node.riskyBits &&& req.action.bit ≠ 0 ∨ node.flags &&& SLM_NODEBIT_F_RISKY ≠ 0 ∨
      0 < req.riskLevel → (getSummary m.health).riskyIoAllowed = true
  apply : req.allowApply = true →
    node.flags &&& SLM_NODEBIT_F_APPLY_ALLOWED ≠ 0 ∧ node.allowBits &&& req.action.bit ≠ 0
  observe : req.allowApply = false →
    (node.observeOnlyBits ||| node.allowBits) &&& req.action.bit ≠ 0

theorem Grants.permits {node : Nodebit} (h : Grants m node req) (hvalid : req.action.valid = true)
    (hnone : req.action ≠ .none) (havailable : runtime.available = true)
    (hread : readEffectiveNodebit m l runtime (requestNodebitId req) = some node) :
    nodebitPolicyPermits m l runtime req = true := by
  unfold nodebitPolicyPermits
  rw [if_neg (by simp [hvalid, hnone]), if_neg (by simp [havailable]), hread]
  dsimp only
  rw [if_neg (by simpa using h.known)]
  cases happly : req.allowApply with
  | true =>
    obtain ⟨hflag, hallow⟩ := h.apply happly
    rw [if_neg]
    · exact Bool.and_eq_true_iff.mpr ⟨bne_iff_ne.mpr hflag, bne_iff_ne.mpr hallow⟩
    · simpa [or_assoc] using h.risk happly
  | false =>
    simpa using h.observe happly

theorem ShowsNode.grants {shown : CatalogNode} {node : Nodebit} (hshown : ShowsNode shown node)
    (hio : catalog.riskyIoAllowed = some (getSummary m.health).riskyIoAllowed)
    (hvalid : req.action.valid = true) (hrisk : req.riskLevel ≤ node.riskLevel)
    (h : refusal catalog shown req.action.number (if req.allowApply then .apply else .observe)
      false = none) : Grants m node req := by
  have hbit : 1 <<< (req.action.number : Int).toNat = req.action.bit.toNat :=
    (Action.toNat_bit hvalid).symm
  cases happly : req.allowApply with
  | true =>
    rw [happly] at h
    obtain ⟨hknown, hrisky, hflag, hallow⟩ := refusal_apply_none h
    rw [hshown.actionBits, hbit] at hknown
    rw [hshown.flags] at hflag
    rw [hshown.allowBits, hbit] at hallow
    rw [hshown.riskLevel, hbit, CatalogNode.risky, hshown.flags, hshown.riskyBits,
      catalogRiskyIoAllowed, hio] at hrisky
    refine ⟨toNat_and_ne_zero.mp hknown, fun _ hany => hrisky ?_,
      fun _ => ⟨toNat_and_ne_zero.mp hflag, toNat_and_ne_zero.mp hallow⟩,
      fun hno => (nomatch happly.symm.trans hno)⟩
    -- the request is risky only if the node is, since its level is not above the node's
    rcases hany with hbits | hflags | hlevel
    · exact .inl (Bool.or_eq_true_iff.mpr (.inr (bne_iff_ne.mpr (toNat_and_ne_zero.mpr hbits))))
    · exact .inl (Bool.or_eq_true_iff.mpr (.inl (bne_iff_ne.mpr (toNat_and_ne_zero.mpr hflags))))
    · exact .inr (by simp only [Option.getD_some]; omega)
  | false =>
    rw [happly] at h
    obtain ⟨hknown, hobserve⟩ := refusal_observe_none h
    rw [hshown.actionBits, hbit] at hknown
    rw [hshown.observeOnlyBits, hshown.allowBits, hbit] at hobserve
    refine ⟨toNat_and_ne_zero.mp hknown, fun hyes => (nomatch happly.symm.trans hyes),
      fun hyes => (nomatch happly.symm.trans hyes), fun _ => toNat_and_ne_zero.mp ?_⟩
    rwa [BitVec.toNat_or]

/-- In every state of the kernel, for every catalog that shows what the kernel would publish: an
action the tool allows at a node is one the policy of the kernel lets through, for each request
for that node whose risk level is not above the node's. -/
theorem evaluate_allows_only_permitted (hshows : Shows catalog (snapshotRead m l runtime))
    (hrisk : ∀ node ∈ (snapshotRead m l runtime).nodebits, node.nodeId = requestNodebitId req →
      req.riskLevel ≤ node.riskLevel)
    (h : evaluate catalog (requestNodebitId req).number req.action.number
      (if req.allowApply then .apply else .observe) false = some ans)
    (hallowed : ans.allowed = true) : nodebitPolicyPermits m l runtime req = true := by
  obtain ⟨shown, hlookup, hrefusal⟩ := evaluate_allowed h hallowed
  obtain ⟨hpos, hlt, hruntime, hfind⟩ := lookup_ok hlookup
  obtain ⟨nodes, hnodes, hforall⟩ := hshows.nodes
  rw [findNode, hnodes] at hfind
  obtain ⟨node, hnode, hshown⟩ := find_shows hforall hfind
  have hvalid : req.action.valid = true := decide_eq_true (Int.ofNat_lt.mp hlt)
  have hnone : req.action ≠ .none := by
    intro hnone
    rw [hnone] at hpos
    exact nomatch hpos
  have hmem : node ∈ (snapshotRead m l runtime).nodebits := List.mem_of_find?_eq_some hnode
  have hid := List.find?_some hnode
  rw [beq_iff_eq] at hid
  have hlevel : req.riskLevel ≤ node.riskLevel := hrisk node hmem hid
  have hread : readEffectiveNodebit m l runtime (requestNodebitId req) = some node := by
    rw [readEffectiveNodebit, if_neg (hid ▸ computeNodebits_ne_none hmem)]
    exact hnode
  rw [hshows.runtimeState] at hruntime
  exact (hshown.grants hshows.riskyIoAllowed hvalid hlevel hrefusal).permits hvalid hnone
    (available_of_snapshot (available_of_name hruntime)) hread

end

/-- The catalog that shows a snapshot and nothing else. -/
def Snapshot.catalog (snapshot : Snapshot) : Catalog where
  schema := some SUPPORTED_SCHEMA
  runtimeState := some snapshot.runtimeState.name
  capabilityFlags := some snapshot.capabilityFlags.toNat
  riskyIoAllowed := some snapshot.riskyIoAllowed
  nodebitGeneration := none
  nodes := some (snapshot.nodebits.map fun node =>
    ⟨some node.nodeId.number, some node.parentId.number, none, some (.name node.kind.name),
      some node.flags.toNat, some node.actionBits.toNat, some node.allowBits.toNat,
      some node.observeOnlyBits.toNat, some node.riskyBits.toNat,
      some node.requiredCapabilityBits.toNat, some node.riskLevel, some node.latencyClass⟩)

theorem Snapshot.shows_catalog (snapshot : Snapshot) : Shows snapshot.catalog snapshot := by
  refine ⟨rfl, rfl, rfl, _, rfl, List.forall₂_map_left_iff.mpr (List.forall₂_same.mpr ?_)⟩
  intro node _
  exact ⟨rfl, .inr rfl, rfl, rfl, rfl, rfl, rfl, rfl, rfl⟩

theorem evaluate_allows_only_permitted_storage :
    ((evaluate (snapshotRead workstation Learning.init .ready).catalog 7 7 .apply false).map
      Answer.allowed) = some true ∧
    nodebitPolicyPermits workstation Learning.init .ready restartStorage = true := by
  have hallowed : ((evaluate (snapshotRead workstation Learning.init .ready).catalog 7 7 .apply
      false).map Answer.allowed) = some true := by decide +kernel
  refine ⟨hallowed, ?_⟩
  obtain ⟨ans, hans, hyes⟩ := Option.map_eq_some_iff.mp hallowed
  exact evaluate_allows_only_permitted (Snapshot.shows_catalog _) (by decide +kernel) hans hyes

end AiosKernel.Slm
