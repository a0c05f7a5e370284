/-
# `AiosKernel.Slm.Plans` — what becomes of a submitted plan

A slot of the plan table is filled by `slm_plan_submit` and never emptied again.
That settles three questions about whole runs.

* A plan is executed at most once, as it was submitted: ids are handed out in
  order and cannot wrap around before the table is full.
* The outcome of an executed plan is not permanent: `slm_plan_apply` turns every
  plan it refuses into a rejected one, executed plans too.  It stays exactly as
  long as no call applies the plan again.
* The table is a record: a slot keeps its plan, whatever becomes of it.  `AIOS_ERR_BUSY`
  means that every slot was given to a plan, not that these still wait.
-/
import AiosKernel.Slm.Runs
import Mathlib.Data.List.Induction

namespace AiosKernel.Slm

open Word Health Slots

/-! ## What a call does to the table -/

/-- What a run is remembered by. -/
inductive PlanEvent where
  /-- `slm_plan_submit` of the request gave out the id and returned the status. -/
  | submitted (planId : Nat) (req : PlanRequest) (status : AiosStatus)
  /-- `slm_plan_apply` of the id handed the request to `apply_request`. -/
  | executed (planId : Nat) (req : PlanRequest)
  deriving DecidableEq, Repr

/-- The events of a call, from its arguments and its reply. -/
def planEvents (c : Call) (w : World) : List PlanEvent :=
  match c with
  | .submit (some req) nowNs =>
    match (planSubmit w.machine nowNs (some req) w.slm).1 with
    | (status, some planId) => [.submitted planId req status]
    | (_, none) => []
  | .apply planId env =>
    match (planApply env planId w.slm).1 with
    | (_, some req) => [.executed planId req]
    | (_, none) => []
  | _ => []

def Plan.live (p : Plan) : Bool := p.state != .empty

variable {p : Plan} {h : List PlanEvent} {w : World} {s s' : State} {c : Call}
  {es : List PlanEvent} {as bs : List Plan} {x y : Plan} {planId : Nat}

theorem Plan.live_iff : p.live = true ↔ p.state ≠ .empty := by simp [Plan.live]

/-- The plan that `slm_plan_submit` enters. -/
def submittedPlan (m : Machine) (nowNs : Nat) (req : PlanRequest) (s : State) : Plan :=
  let confidence := computePlanConfidence m s.learning req
  { planId := s.nextPlanId
    request := req
    state := if requestValid m s.learning s.runtimeState req then .validated else .rejected
    lastStatus := .ok
    expectedConfidence := confidence
    validationScore := clampU8 (confidence + ((if req.allowApply then 5 else 0) -
      (req.riskLevel : Int) * 5))
    createdTsNs := nowNs
    appliedTsNs := 0 }

def Plan.refused (p : Plan) : Plan := { p with state := .rejected, lastStatus := .errPerm }

def Plan.executed (p : Plan) (env : ApplyEnv) : Plan :=
  let status := applyRequest env.returned p.request
  { p with
    lastStatus := status
    appliedTsNs := env.endNs
    state := if status = .ok then .applied else .failed }

/-- What `slm_plan_submit` returns for a request it finds a slot for. -/
def submitStatus (m : Machine) (req : PlanRequest) (s : State) : AiosStatus :=
  if requestValid m s.learning s.runtimeState req then .ok else .errInval

/-- Everything that a call can do to the table of plans. -/
inductive TableChange (w : World) : Call → List PlanEvent → State → Prop where
  | quiet {c : Call} {s' : State} : s'.plans = w.slm.plans → s'.nextPlanId = w.slm.nextPlanId →
      (∀ planId env, c = .apply planId env →
        lookup Plan.live Plan.planId w.slm.plans planId = none) →
      TableChange w c [] s'
  | submitted {s' : State} {as bs : List Plan} {x : Plan} (req : PlanRequest) (nowNs : Nat) :
      w.slm.plans = as ++ x :: bs → x.state = .empty →
      s'.plans = as ++ submittedPlan w.machine nowNs req w.slm :: bs →
      s'.nextPlanId = u32 (w.slm.nextPlanId + 1) →
      TableChange w (.submit (some req) nowNs)
        [.submitted w.slm.nextPlanId req (submitStatus w.machine req w.slm)] s'
  | refused {s' : State} {as bs : List Plan} (x : Plan) (env : ApplyEnv) :
      w.slm.plans = as ++ x :: bs → x.live = true →
      (∀ a ∈ as, holds Plan.live Plan.planId x.planId a = false) →
      s'.plans = as ++ x.refused :: bs → s'.nextPlanId = w.slm.nextPlanId →
      TableChange w (.apply x.planId env) [] s'
  | executed {s' : State} {as bs : List Plan} (x : Plan) (env : ApplyEnv) :
      w.slm.plans = as ++ x :: bs → x.state = .validated → x.request.allowApply = true →
      (∀ a ∈ as, holds Plan.live Plan.planId x.planId a = false) →
      s'.plans = as ++ x.executed env :: bs → s'.nextPlanId = w.slm.nextPlanId →
      TableChange w (.apply x.planId env) [.executed x.planId x.request] s'

theorem findPlan_split {slot : Nat} (h : findPlan s planId = some slot) :
    ∃ as x bs, s.plans = as ++ x :: bs ∧ slot = as.length ∧ x.state ≠ .empty ∧ x.planId = planId ∧
      ∀ a ∈ as, holds Plan.live Plan.planId planId a = false := by
  obtain ⟨as, x, bs, hplans, hslot, hx, has⟩ := findIdx?_split h
  obtain ⟨hlive, hid⟩ := Bool.and_eq_true_iff.mp hx
  exact ⟨as, x, bs, hplans, hslot, bne_iff_ne.mp hlive, beq_iff_eq.mp hid, has⟩

theorem findPlan_none :
    findPlan s planId = none ↔ lookup Plan.live Plan.planId s.plans planId = none := by
  rw [findPlan, List.findIdx?_eq_none_iff, lookup, List.find?_eq_none]
  simp [holds, Plan.live]

theorem planGet_eq : (planGet planId s).2 = lookup Plan.live Plan.planId s.plans planId := by
  unfold planGet
  cases hfind : findPlan s planId with
  | none => exact (findPlan_none.mp hfind).symm
  | some slot =>
    obtain ⟨as, x, bs, hplans, rfl, hlive, hid, has⟩ := findPlan_split hfind
    rw [hplans, lookup_here has (by simp [Plan.live_iff.mpr hlive, hid])]
    simp

theorem planSubmit_change (req : Option PlanRequest) (nowNs : Nat) :
    TableChange w (.submit req nowNs) (planEvents (.submit req nowNs) w)
      (planSubmit w.machine nowNs req w.slm).2 := by
  cases req with
  | none =>
    have hsame : (planSubmit w.machine nowNs none w.slm).2 = w.slm := by
      unfold planSubmit
      split
      · rename_i h
        cases h
      · rfl
    rw [hsame]
    exact .quiet rfl rfl fun _ _ h => by cases h
  | some req =>
    cases hslot : allocPlan w.slm with
    | none =>
      simp only [planEvents, planSubmit, hslot]
      exact .quiet rfl rfl fun _ _ h => by cases h
    | some slot =>
      obtain ⟨as, x, bs, hplans, rfl, hx, -⟩ := findIdx?_split hslot
      simp only [planEvents, planSubmit, hslot]
      refine .submitted req nowNs hplans (beq_iff_eq.mp hx) ?_ rfl
      simp only [hplans, set_split]
      rfl

theorem planApply_change (env : ApplyEnv) :
    TableChange w (.apply planId env) (planEvents (.apply planId env) w)
      (planApply env planId w.slm).2 := by
  cases hslot : findPlan w.slm planId with
  | none =>
    simp only [planEvents, planApply, hslot]
    refine .quiet rfl rfl fun planId' _ hcall => ?_
    cases hcall
    exact findPlan_none.mp hslot
  | some slot =>
    obtain ⟨as, x, bs, hplans, rfl, hlive, rfl, has⟩ := findPlan_split hslot
    by_cases hrefused : x.state ≠ .validated ∨ x.request.allowApply = false
    · simp only [planEvents, planApply, hslot, hplans, getD_split, if_pos hrefused]
      exact .refused x env hplans (Plan.live_iff.mpr hlive) has (by simp only [set_split]; rfl) rfl
    · simp only [planEvents, planApply, hslot, hplans, getD_split, if_neg hrefused]
      obtain ⟨hstate, happly⟩ := not_or.mp hrefused
      exact .executed x env hplans (not_not.mp hstate) (by simpa using happly) has
        (by simp only [set_split]; rfl) rfl

/-- **Each call is one of the changes.** -/
theorem exec_change (c : Call) : TableChange w c (planEvents c w) (exec c w).slm := by
  cases c with
  | submit req nowNs => exact planSubmit_change req nowNs
  | apply planId env => exact planApply_change env
  | markHealth id state | changeMachine m => exact .quiet rfl rfl fun _ _ h => by cases h

/-! ## Ids -/

/-- Ids count the plans in the table, so they do not wrap around. -/
structure Tabled (s : State) : Prop where
  length_eq : s.plans.length = SLM_PLAN_CAP
  next_eq : s.nextPlanId = s.plans.countP Plan.live + 1
  ids : ∀ p ∈ s.plans, p.live = true → 0 < p.planId ∧ p.planId < s.nextPlanId
  distinct : Distinct Plan.live Plan.planId s.plans

theorem init_not_live (learning : Learning) (runtimeState : RuntimeState) :
    ∀ p ∈ (init learning runtimeState).plans, ¬p.live = true := by
  intro p hp
  rw [(List.mem_replicate.mp hp).2]
  exact Bool.false_ne_true

theorem tabled_init (learning : Learning) (runtimeState : RuntimeState) :
    Tabled (init learning runtimeState) := by
  have hdead := init_not_live learning runtimeState
  refine ⟨List.length_replicate, rfl, fun p hp hlive => absurd hlive (hdead p hp), ?_⟩
  exact List.nodup_nil

theorem Tabled.edit (h : Tabled w.slm) (hplans : w.slm.plans = as ++ x :: bs) (hx : x.live = true)
    (hy : y.live = true) (hid : y.planId = x.planId) (hplans' : s'.plans = as ++ y :: bs)
    (hnext : s'.nextPlanId = w.slm.nextPlanId) : Tabled s' := by
  obtain ⟨hlen, hcount, hids, hdistinct⟩ := h
  rw [hplans] at hlen hcount hdistinct
  refine ⟨?_, ?_, ?_, ?_⟩
  · rw [hplans', ← hlen]
    simp
  · rw [hnext, hplans', hcount]
    simp [hx, hy]
  · rw [hnext]
    refine forall_written hids hplans hplans' fun _ => ?_
    rw [hid]
    exact hids x (by rw [hplans]; simp) hx
  · rw [hplans']
    exact hdistinct.edit hx hy hid

theorem Tabled.submit (h : Tabled w.slm) (hplans : w.slm.plans = as ++ x :: bs)
    (hx : x.live = false) (hy : y.live = true) (hid : y.planId = w.slm.nextPlanId)
    (hplans' : s'.plans = as ++ y :: bs) (hnext : s'.nextPlanId = u32 (w.slm.nextPlanId + 1)) :
    Tabled s' := by
  obtain ⟨hlen, hcount, hids, hdistinct⟩ := h
  rw [hplans] at hlen hcount hdistinct
  have hlast : s'.nextPlanId = w.slm.nextPlanId + 1 := by
    have hle : (as ++ x :: bs).countP Plan.live ≤ (as ++ x :: bs).length := List.countP_le_length
    have hcap : SLM_PLAN_CAP = 16 := rfl
    rw [hnext, u32_eq (by omega)]
  refine ⟨?_, ?_, fun p hp hlive => ?_, ?_⟩
  · rw [hplans', ← hlen]
    simp
  · rw [hlast, hplans', hcount]
    simp only [List.countP_append, List.countP_cons, hx, hy, if_true, Bool.false_eq_true, if_false]
    omega
  · rw [hplans'] at hp
    rcases mem_written hp with rfl | hold
    · omega
    · have hold := hids p (hplans ▸ hold) hlive
      omega
  · rw [hplans', distinct_live hy]
    refine ⟨fun a ha hlive => ?_, (distinct_dead hx).mp hdistinct⟩
    have hlt := (hids a (by rw [hplans]; simp only [List.mem_append, List.mem_cons] at ha ⊢; tauto)
      hlive).2
    omega

theorem executed_state (p : Plan) (env : ApplyEnv) :
    (p.executed env).state = .applied ∨ (p.executed env).state = .failed := by
  unfold Plan.executed
  dsimp only
  split
  · exact .inl rfl
  · exact .inr rfl

theorem executed_live (env : ApplyEnv) : (p.executed env).live = true := by
  rw [Plan.live_iff]
  rcases executed_state p env with h | h <;> rw [h] <;> exact fun h => by cases h

theorem Tabled.change (h : Tabled w.slm) (hc : TableChange w c es s') : Tabled s' := by
  cases hc with
  | quiet hplans hnext _ =>
    exact ⟨hplans ▸ h.length_eq, hplans ▸ hnext ▸ h.next_eq, hplans ▸ hnext ▸ h.ids,
      hplans ▸ h.distinct⟩
  | submitted req nowNs hplans hx hplans' hnext =>
    refine h.submit hplans (by simp [Plan.live, hx]) (Plan.live_iff.mpr ?_) rfl hplans' hnext
    unfold submittedPlan
    split <;> exact fun h => by cases h
  | refused x env hplans hlive _ hplans' hnext =>
    exact h.edit hplans hlive (y := x.refused) rfl rfl hplans' hnext
  | executed x env hplans hstate _ _ hplans' hnext =>
    exact h.edit hplans (by simp [Plan.live, hstate]) (executed_live env) rfl hplans' hnext

theorem Tabled.exec (h : Tabled w.slm) (c : Call) : Tabled (exec c w).slm :=
  h.change (exec_change c)

/-! ## Runs -/

/-- The runs from `slm_orchestrator_init` on whose calls meet `ok`, with their history, the latest
event first; the plans that the initialisation seeds are its first submissions. -/
inductive PlanRun (ok : World → Call → Prop) : List PlanEvent → World → Prop where
  | init (m : Machine) (learning : Learning) (runtimeState : RuntimeState) :
      PlanRun ok [] ⟨m, Slm.init learning runtimeState⟩
  | call {h : List PlanEvent} {w : World} (c : Call) : PlanRun ok h w → ok w c →
      PlanRun ok (planEvents c w ++ h) (exec c w)

theorem PlanRun.tabled {ok : World → Call → Prop} (hr : PlanRun ok h w) : Tabled w.slm := by
  induction hr with
  | init m learning runtimeState => exact tabled_init learning runtimeState
  | call c _ _ ih => exact ih.exec c

def runPlans (r : List PlanEvent × World) (cs : List Call) : List PlanEvent × World :=
  cs.foldl (fun r c => (planEvents c r.2 ++ r.1, exec c r.2)) r

theorem runPlans_snoc (r : List PlanEvent × World) (cs : List Call) : runPlans r (cs ++ [c]) =
      (planEvents c (runPlans r cs).2 ++ (runPlans r cs).1, exec c (runPlans r cs).2) := by
  rw [runPlans, List.foldl_append]
  rfl

theorem PlanRun.runPlans (hr : PlanRun (fun _ _ => True) h w) (cs : List Call) :
    PlanRun (fun _ _ => True) (runPlans (h, w) cs).1 (runPlans (h, w) cs).2 := by
  induction cs using List.reverseRecOn with
  | nil => exact hr
  | append_singleton cs c ih =>
    rw [runPlans_snoc]
    exact .call c ih trivial

/-! ## A plan is executed once -/

def executedIds (h : List PlanEvent) : List Nat := h.filterMap fun
  | .executed planId _ => some planId
  | .submitted .. => none

/-- The history behind the table. -/
structure Accounted (h : List PlanEvent) (s : State) : Prop where
  /-- A plan carries the request of its submission, and waits only if that succeeded. -/
  origin : ∀ p ∈ s.plans, p.live = true → ∃ status, .submitted p.planId p.request status ∈ h ∧
    (p.state = .validated → status = .ok)
  /-- An executed plan does not wait any more. -/
  done : ∀ planId ∈ executedIds h, ∃ p ∈ s.plans, p.live = true ∧ p.planId = planId ∧
    p.state ≠ .validated
  once : (executedIds h).Nodup
  preceded : ∀ newer planId req older, h = newer ++ .executed planId req :: older →
    .submitted planId req .ok ∈ older ∧ req.allowApply = true

theorem Accounted.edit (ha : Accounted h w.slm) (hplans : w.slm.plans = as ++ x :: bs)
    (hx : x.live = true) (hy : y.live = true) (hid : y.planId = x.planId)
    (hreq : y.request = x.request) (hstate : y.state ≠ .validated)
    (hplans' : s'.plans = as ++ y :: bs) : Accounted h s' := by
  refine ⟨forall_written ha.origin hplans hplans' fun _ => ?_, fun planId hmem => ?_, ha.once,
    ha.preceded⟩
  · obtain ⟨status, hsub, -⟩ := ha.origin x (by rw [hplans]; simp) hx
    rw [hid, hreq]
    exact ⟨status, hsub, fun hv => absurd hv hstate⟩
  · obtain ⟨p, hp, hlive, rfl, hp'⟩ := ha.done planId hmem
    rw [hplans] at hp
    rcases mem_written hp with rfl | hold
    · exact ⟨y, by rw [hplans']; simp, hy, hid, hstate⟩
    · exact ⟨p, hplans' ▸ hold, hlive, rfl, hp'⟩

theorem Accounted.submit (ha : Accounted h w.slm) {req : PlanRequest} {nowNs : Nat}
    (hplans : w.slm.plans = as ++ x :: bs) (hx : x.state = .empty)
    (hplans' : s'.plans = as ++ submittedPlan w.machine nowNs req w.slm :: bs) :
    Accounted (.submitted w.slm.nextPlanId req (submitStatus w.machine req w.slm) :: h) s' := by
  refine ⟨fun p hp hlive => ?_, fun planId hmem => ?_, ha.once,
    fun newer planId req' older heq => ?_⟩
  · rw [hplans'] at hp
    rcases mem_written hp with rfl | hold
    · refine ⟨_, List.mem_cons_self, fun hv => ?_⟩
      unfold submitStatus
      split
      · rfl
      · rename_i hvalid
        simp [submittedPlan, hvalid] at hv
    · obtain ⟨status, hsub, hok⟩ := ha.origin p (hplans ▸ hold) hlive
      exact ⟨status, List.mem_cons_of_mem _ hsub, hok⟩
  · obtain ⟨p, hp, hlive, hid, hstate⟩ := ha.done planId hmem
    rw [hplans] at hp
    rcases mem_written hp with rfl | hold
    · exact absurd hx (Plan.live_iff.mp hlive)
    · exact ⟨p, hplans' ▸ hold, hlive, hid, hstate⟩
  · cases newer with
    | nil => cases (List.cons.inj heq).1
    | cons e newer =>
      obtain ⟨-, hrest⟩ := List.cons.inj heq
      exact ha.preceded newer planId req' older hrest

theorem Accounted.change (ha : Accounted h w.slm) (ht : Tabled w.slm)
    (hc : TableChange w c es s') : Accounted (es ++ h) s' := by
  cases hc with
  | quiet hplans _ _ => exact ⟨hplans ▸ ha.origin, hplans ▸ ha.done, ha.once, ha.preceded⟩
  | submitted req nowNs hplans hx hplans' _ => exact ha.submit hplans hx hplans'
  | refused x env hplans hlive _ hplans' _ =>
    exact ha.edit hplans hlive (y := x.refused) rfl rfl rfl (fun h => by cases h) hplans'
  | executed x env hplans hstate happly _ hplans' _ =>
    have hlive : x.live = true := by simp [Plan.live, hstate]
    have hx : x ∈ w.slm.plans := by simp [hplans]
    obtain ⟨status, hsub, hok⟩ := ha.origin x hx hlive
    obtain rfl := hok hstate
    have hnew : x.planId ∉ executedIds h := by
      -- an executed plan of the id does not wait, and there is only one
      intro hmem
      obtain ⟨p, hp, hplive, hid, hpstate⟩ := ha.done _ hmem
      have hlookup := lookup_of_mem ht.distinct hp hplive
      rw [hid, lookup_of_mem ht.distinct hx hlive] at hlookup
      exact hpstate (Option.some.inj hlookup ▸ hstate)
    have hstate' : (x.executed env).state ≠ .validated := by
      rcases executed_state x env with h | h <;> rw [h] <;> exact fun h => by cases h
    have hedit := ha.edit hplans hlive (executed_live env) rfl rfl hstate' hplans'
    refine ⟨fun p hp hplive => ?_, fun planId hmem => ?_, List.nodup_cons.mpr ⟨hnew, ha.once⟩,
      fun newer planId req older heq => ?_⟩
    · obtain ⟨status, hmem, hvalid⟩ := hedit.origin p hp hplive
      exact ⟨status, List.mem_cons_of_mem _ hmem, hvalid⟩
    · rcases List.mem_cons.mp hmem with rfl | hmem
      · exact ⟨_, by rw [hplans']; simp, executed_live env, rfl, hstate'⟩
      · exact hedit.done planId hmem
    · cases newer with
      | nil =>
        obtain ⟨hfirst, rfl⟩ := List.cons.inj heq
        cases hfirst
        exact ⟨hsub, happly⟩
      | cons e newer =>
        obtain ⟨-, hrest⟩ := List.cons.inj heq
        exact ha.preceded newer planId req older hrest

theorem PlanRun.accounted {ok : World → Call → Prop} (hr : PlanRun ok h w) : Accounted h w.slm := by
  induction hr with
  | init m learning runtimeState =>
    refine ⟨fun p hp hlive => ?_, fun _ hmem => ?_, List.nodup_nil, fun newer _ _ _ heq => ?_⟩
    · exact absurd hlive (init_not_live _ _ p hp)
    · cases hmem
    · simp at heq
  | call c hprev _ ih => exact ih.change hprev.tabled (exec_change c)

/-- **A plan is executed at most once, as it was submitted.** -/
theorem executes_once (hr : PlanRun (fun _ _ => True) h w) : (executedIds h).Nodup ∧
    (∀ newer planId req older, h = newer ++ .executed planId req :: older →
      .submitted planId req .ok ∈ older ∧ req.allowApply = true) ∧
    Distinct Plan.live Plan.planId w.slm.plans ∧ ∀ p ∈ w.slm.plans, p.live = true → p.planId ≠ 0 :=
  ⟨hr.accounted.once, hr.accounted.preceded, hr.tabled.distinct,
    fun p hp hlive => Nat.pos_iff_ne_zero.mp (hr.tabled.ids p hp hlive).1⟩

/-- A machine that has just been initialised. -/
def bootedWorld : World := ⟨workstation, booted⟩

theorem planRun_booted (cs : List Call) :
    PlanRun (fun _ _ => True) (runPlans ([], bootedWorld) cs).1 (runPlans ([], bootedWorld) cs).2 :=
  PlanRun.runPlans (.init _ _ _) cs

/-- A plan for storage that is applied twice is executed once. -/
theorem executes_once_storage :
    executedIds (runPlans ([], bootedWorld) [.submit (some restartStorage) 0, .apply 1 stillEnv,
      .apply 1 stillEnv]).1 = [1] ∧
    (executedIds (runPlans ([], bootedWorld) [.submit (some restartStorage) 0, .apply 1 stillEnv,
      .apply 1 stillEnv]).1).Nodup :=
  ⟨by decide +kernel, (executes_once (planRun_booted _)).1⟩

/-! ## The outcome of a plan -/

def Plan.outcome (p : Plan) : PlanState × AiosStatus × Nat := (p.state, p.lastStatus, p.appliedTsNs)

def Plan.Done (p : Plan) : Prop := p.state = .applied ∨ p.state = .failed

theorem Plan.Done.ne_validated (h : p.Done) : p.state ≠ .validated := by
  rcases h with h | h <;> rw [h] <;> exact fun h => by cases h

theorem TableChange.done (hc : TableChange w c es s') (ht : Tabled w.slm)
    (hp : lookup Plan.live Plan.planId w.slm.plans planId = some p) (hdone : p.Done) :
    ((∀ env, c ≠ .apply planId env) → lookup Plan.live Plan.planId s'.plans planId = some p) ∧
      ∀ env, c = .apply planId env →
        lookup Plan.live Plan.planId s'.plans planId = some p.refused := by
  obtain ⟨hmem, hlive, hid⟩ := mem_of_lookup hp
  cases hc with
  | quiet hplans _ hnone =>
    refine ⟨fun _ => hplans ▸ hp, fun env hcall => ?_⟩
    rw [hnone planId env hcall] at hp
    cases hp
  | submitted req nowNs hplans hx hplans' _ =>
    refine ⟨fun _ => ?_, fun env hcall => by cases hcall⟩
    rw [hplans', ← hp, hplans]
    refine lookup_other (holds_eq_false.mpr fun h => ?_) (holds_eq_false.mpr fun _ => ?_)
    · exact absurd hx (Plan.live_iff.mp h)
    · have hlt := (ht.ids p hmem hlive).2
      show w.slm.nextPlanId ≠ planId
      omega
  | refused x env hplans hxlive has hplans' _ =>
    rw [hplans']
    refine ⟨fun hnot => ?_, fun env' hcall => ?_⟩
    · have hne : x.planId ≠ planId := fun h => hnot env (h ▸ rfl)
      rw [← hp, hplans]
      exact lookup_other (holds_eq_false.mpr fun _ => hne) (holds_eq_false.mpr fun _ => hne)
    · cases hcall
      rw [hplans, lookup_here has (by simp [hxlive])] at hp
      cases hp
      exact lookup_here has (by simp [Plan.refused, Plan.live])
  | executed x env hplans hstate _ has hplans' _ =>
    have hxlive : x.live = true := by simp [Plan.live, hstate]
    have hne : x.planId ≠ planId := by
      rintro rfl
      rw [hplans, lookup_here has (by simp [hxlive])] at hp
      exact hdone.ne_validated (Option.some.inj hp ▸ hstate)
    refine ⟨fun _ => ?_, fun env' hcall => absurd (Call.apply.inj hcall).1 hne⟩
    rw [hplans', ← hp, hplans]
    exact lookup_other (holds_eq_false.mpr fun _ => hne) (holds_eq_false.mpr fun _ => hne)

/-- In every run: the outcome of an executed plan stays, and no call of `slm_plan_apply` for it
changes a plan or what was learnt, exactly if there is no such call. -/
theorem outcome_kept_iff {h : List PlanEvent} {w : World} {p : Plan} {planId : Nat}
    (hr : PlanRun (fun _ _ => True) h w) (hget : (planGet planId w.slm).2 = some p)
    (hdone : p.Done) (cs : List Call) :
    ((∀ pre, pre <+: cs →
        (planGet planId (runPlans (h, w) pre).2.slm).2.map Plan.outcome = some p.outcome) ∧
      ∀ pre env, pre ++ [.apply planId env] <+: cs →
        (planApply env planId (runPlans (h, w) pre).2.slm).2.plans =
          (runPlans (h, w) pre).2.slm.plans ∧
        (planApply env planId (runPlans (h, w) pre).2.slm).2.learning =
          (runPlans (h, w) pre).2.slm.learning) ↔
    ∀ env, .apply planId env ∉ cs := by
  rw [planGet_eq] at hget
  constructor
  · rintro ⟨hkept, -⟩ env hmem
    obtain ⟨pre, post, rfl⟩ := List.append_of_mem hmem
    have hbefore := hkept pre (List.prefix_append ..)
    have hafter := hkept (pre ++ [.apply planId env]) ⟨post, by simp⟩
    rw [planGet_eq] at hbefore
    obtain ⟨p', hp', houtcome⟩ := Option.map_eq_some_iff.mp hbefore
    have hstate : p'.state = p.state := congrArg Prod.fst houtcome
    have hdone' : p'.Done := by
      rw [Plan.Done, hstate]
      exact hdone
    -- applied once more, the plan is rejected
    have hreject := ((exec_change (.apply planId env)).done (hr.runPlans pre).tabled hp' hdone').2
      env rfl
    rw [runPlans_snoc, planGet_eq, hreject] at hafter
    have hrejected : PlanState.rejected = p.state := congrArg Prod.fst (Option.some.inj hafter)
    rcases hdone with hd | hd <;> rw [hd] at hrejected <;> cases hrejected
  · intro hnone
    have hlookup : ∀ pre, pre <+: cs →
        lookup Plan.live Plan.planId (runPlans (h, w) pre).2.slm.plans planId = some p := by
      intro pre hpre
      induction pre using List.reverseRecOn with
      | nil => exact hget
      | append_singleton pre c ih =>
        rw [runPlans_snoc]
        refine ((exec_change c).done (hr.runPlans pre).tabled
          (ih ((List.prefix_append ..).trans hpre)) hdone).1 fun env hc => ?_
        exact hnone env (hpre.subset (by simp [hc]))
    refine ⟨fun pre hpre => ?_, fun pre env hpre => ?_⟩
    · rw [planGet_eq, hlookup pre hpre]
      rfl
    · exact absurd (hpre.subset (by simp)) (hnone env)

/-- The plan for storage is submitted and executed. -/
def storageDone : List PlanEvent × World :=
  runPlans ([], bootedWorld) [.submit (some restartStorage) 0, .apply 1 stillEnv]

/-- Submitting another plan leaves the outcome of an executed one. -/
theorem outcome_kept_storage : ∃ p, (planGet 1 storageDone.2.slm).2 = some p ∧ p.Done ∧
    ∀ pre, pre <+: [.submit (some restartStorage) 0] →
      (planGet 1 (runPlans storageDone pre).2.slm).2.map Plan.outcome = some p.outcome := by
  obtain ⟨p, hget⟩ : ∃ p, (planGet 1 storageDone.2.slm).2 = some p :=
    Option.isSome_iff_exists.mp (by decide +kernel)
  have hdone : p.Done := by
    have hstate : (planGet 1 storageDone.2.slm).2.map Plan.state = some .applied := by
      decide +kernel
    rw [hget] at hstate
    exact .inl (Option.some.inj hstate)
  have hr : PlanRun (fun _ _ => True) storageDone.1 storageDone.2 := planRun_booted _
  exact ⟨p, hget, hdone, ((outcome_kept_iff hr hget hdone _).mpr (by simp)).1⟩

/-- Applied again, a plan that was executed is recorded as rejected, and its action learns a
rejection. -/
theorem apply_rewrites_outcome : PlanRun (fun _ _ => True) storageDone.1 storageDone.2 ∧
    (planGet 1 storageDone.2.slm).2.map Plan.outcome = some (.applied, .ok, 0) ∧
    (planApply stillEnv 1 storageDone.2.slm).1 = (.errPerm, none) ∧
    (planGet 1 (planApply stillEnv 1 storageDone.2.slm).2).2.map Plan.outcome =
      some (.rejected, .errPerm, 0) ∧
    (planApply stillEnv 1 storageDone.2.slm).2.learning ≠ storageDone.2.slm.learning :=
  ⟨planRun_booted _, by decide +kernel, by decide +kernel, by decide +kernel, by decide +kernel⟩

/-! ## A full table -/

/-- The slot has been given to a plan, whatever has become of it. -/
def Plan.Taken (p : Plan) : Prop :=
  p.state = .validated ∨ p.state = .rejected ∨ p.state = .applied ∨ p.state = .failed

theorem Plan.Taken.live (h : p.Taken) : p.live = true := by
  rw [Plan.live_iff]
  rcases h with h | h | h | h <;> rw [h] <;> exact fun h => by cases h

/-- A plan that is submitted waits, and none is applied. -/
def LeavesWaiting (w : World) : Call → Prop
  | .submit (some req) _ => requestValid w.machine w.slm.learning w.slm.runtimeState req = true
  | .apply planId _ => findPlan w.slm planId = none
  | _ => True

theorem executed_taken (env : ApplyEnv) : (p.executed env).Taken :=
  .inr (.inr (executed_state p env))

/-- A slot in use has been given to a plan: none stays between the two. -/
theorem TableChange.taken (hc : TableChange w c es s')
    (h : ∀ p ∈ w.slm.plans, p.live = true → p.Taken) : ∀ p ∈ s'.plans, p.live = true → p.Taken := by
  cases hc with
  | quiet hplans _ _ => exact hplans ▸ h
  | submitted req nowNs hplans _ hplans' _ =>
    refine forall_written h hplans hplans' fun _ => ?_
    unfold Plan.Taken submittedPlan
    split
    · exact .inl rfl
    · exact .inr (.inl rfl)
  | refused x env hplans _ _ hplans' _ =>
    exact forall_written h hplans hplans' fun _ => .inr (.inl rfl)
  | executed x env hplans _ _ _ hplans' _ =>
    exact forall_written h hplans hplans' fun _ => executed_taken env

theorem TableChange.slot (hc : TableChange w c es s') {slot : Nat}
    (hp : w.slm.plans[slot]? = some p) (htaken : p.Taken) :
    ∃ p', s'.plans[slot]? = some p' ∧ p'.Taken ∧ p'.planId = p.planId := by
  -- the entry is the written one, or the same as before
  have hwritten : ∀ {as bs : List Plan} {x y : Plan}, w.slm.plans = as ++ x :: bs →
      s'.plans = as ++ y :: bs → (x.Taken → y.Taken ∧ y.planId = x.planId) →
      ∃ p', s'.plans[slot]? = some p' ∧ p'.Taken ∧ p'.planId = p.planId := by
    intro as bs x y hplans hplans' hy
    by_cases hsame : s'.plans[slot]? = some p
    · exact ⟨p, hsame, htaken, rfl⟩
    · rw [hplans] at hp
      rw [hplans'] at hsame ⊢
      obtain ⟨rfl, rfl⟩ := changed_split hp hsame
      obtain ⟨hytaken, hid⟩ := hy htaken
      exact ⟨y, by simp, hytaken, hid⟩
  cases hc with
  | quiet hplans _ _ => exact ⟨p, hplans ▸ hp, htaken, rfl⟩
  | submitted req nowNs hplans hx hplans' _ =>
    exact hwritten hplans hplans' fun h => absurd hx (Plan.live_iff.mp h.live)
  | refused x env hplans _ _ hplans' _ =>
    exact hwritten hplans hplans' fun _ => ⟨.inr (.inl rfl), rfl⟩
  | executed x env hplans _ _ _ hplans' _ =>
    exact hwritten hplans hplans' fun _ => ⟨executed_taken env, rfl⟩

theorem TableChange.waiting (hc : TableChange w c es s') (hok : LeavesWaiting w c)
    (h : ∀ p ∈ w.slm.plans, p.live = true → p.state = .validated) :
    ∀ p ∈ s'.plans, p.live = true → p.state = .validated := by
  -- no plan is found by a call that applies one
  have hfound : ∀ {as bs : List Plan} {x : Plan}, w.slm.plans = as ++ x :: bs → x.live = true →
      (∀ a ∈ as, holds Plan.live Plan.planId x.planId a = false) →
      findPlan w.slm x.planId ≠ none := by
    intro as bs x hplans hlive has hnone
    rw [findPlan_none, hplans, lookup_here has (by simp [hlive])] at hnone
    cases hnone
  cases hc with
  | quiet hplans _ _ => exact hplans ▸ h
  | submitted req nowNs hplans _ hplans' _ =>
    exact forall_written h hplans hplans' fun _ => if_pos hok
  | refused x env hplans hlive has _ _ => exact absurd hok (hfound hplans hlive has)
  | executed x env hplans hstate _ has _ _ =>
    exact absurd hok (hfound hplans (by simp [Plan.live, hstate]) has)

theorem PlanRun.taken {ok : World → Call → Prop} (hr : PlanRun ok h w) :
    ∀ p ∈ w.slm.plans, p.live = true → p.Taken := by
  induction hr with
  | init m learning runtimeState => exact fun p hp hlive => absurd hlive (init_not_live _ _ p hp)
  | call c _ _ ih => exact (exec_change c).taken ih

theorem PlanRun.waiting (hr : PlanRun LeavesWaiting h w) :
    ∀ p ∈ w.slm.plans, p.live = true → p.state = .validated := by
  induction hr with
  | init m learning runtimeState => exact fun p hp hlive => absurd hlive (init_not_live _ _ p hp)
  | call c _ hok ih => exact (exec_change c).waiting hok ih

theorem runPlans_slot (r : List PlanEvent × World) (cs : List Call) {slot : Nat}
    (hp : r.2.slm.plans[slot]? = some p) (htaken : p.Taken) :
    ∃ p', (runPlans r cs).2.slm.plans[slot]? = some p' ∧ p'.Taken ∧ p'.planId = p.planId := by
  induction cs using List.reverseRecOn with
  | nil => exact ⟨p, hp, htaken, rfl⟩
  | append_singleton cs c ih =>
    obtain ⟨p₁, hp₁, htaken₁, hid₁⟩ := ih
    rw [runPlans_snoc]
    obtain ⟨p₂, hp₂, htaken₂, hid₂⟩ := (exec_change c).slot hp₁ htaken₁
    exact ⟨p₂, hp₂, htaken₂, hid₂.trans hid₁⟩

/-- A request is refused for want of a slot exactly if none is empty. -/
theorem planSubmit_busy_iff (m : Machine) (nowNs : Nat) (req : PlanRequest) :
    (planSubmit m nowNs (some req) s).1.1 = .errBusy ↔ ∀ p ∈ s.plans, p.live = true := by
  cases hslot : allocPlan s with
  | none =>
    refine iff_of_true (by simp only [planSubmit, hslot]) fun p hp => ?_
    have hfull := List.findIdx?_eq_none_iff.mp hslot p hp
    simpa [Plan.live] using hfull
  | some slot =>
    obtain ⟨as, x, bs, hplans, -, hx, -⟩ := findIdx?_split hslot
    refine iff_of_false ?_ fun hfull => ?_
    · simp only [planSubmit, hslot]
      split <;> exact fun h => by cases h
    · exact Plan.live_iff.mp (hfull x (by simp [hplans])) (beq_iff_eq.mp hx)

/-- In every run `AIOS_ERR_BUSY` for a request means that every slot was given to a plan.  All of
them still wait if each passed the check and none was applied.  A slot once given to a plan is not
given to another one, whatever becomes of the first. -/
theorem busy_only_taken (hr : PlanRun (fun _ _ => True) h w) (req : PlanRequest) (nowNs : Nat) :
    ((planSubmit w.machine nowNs (some req) w.slm).1.1 = .errBusy ↔
      w.slm.plans.length = SLM_PLAN_CAP ∧ ∀ p ∈ w.slm.plans, p.Taken) ∧
    (PlanRun LeavesWaiting h w → (planSubmit w.machine nowNs (some req) w.slm).1.1 = .errBusy →
      ∀ p ∈ w.slm.plans, p.state = .validated) ∧
    ∀ (cs : List Call) (slot : Nat) (p : Plan), w.slm.plans[slot]? = some p → p.Taken →
      ∃ p', (runPlans (h, w) cs).2.slm.plans[slot]? = some p' ∧ p'.Taken ∧
        p'.planId = p.planId := by
  rw [planSubmit_busy_iff]
  refine ⟨⟨fun hfull => ⟨hr.tabled.length_eq, fun p hp => hr.taken p hp (hfull p hp)⟩, ?_⟩, ?_, ?_⟩
  · rintro ⟨-, htaken⟩ p hp
    exact (htaken p hp).live
  · intro hwaiting hfull p hp
    exact hwaiting.waiting p hp (hfull p hp)
  · intro cs slot p hp htaken
    exact runPlans_slot (h, w) cs hp htaken

/-- The plan for storage is submitted some times. -/
def storageTimes (n : Nat) : List PlanEvent × World :=
  runPlans ([], bootedWorld) (List.replicate n (.submit (some restartStorage) 0))

theorem planRun_storageTimes {n : Nat} (hn : n ≤ SLM_PLAN_CAP) :
    PlanRun LeavesWaiting (storageTimes n).1 (storageTimes n).2 := by
  have hvalid : ∀ k < SLM_PLAN_CAP, requestValid (storageTimes k).2.machine
      (storageTimes k).2.slm.learning (storageTimes k).2.slm.runtimeState restartStorage = true := by
    decide +kernel
  induction n with
  | zero => exact .init _ _ _
  | succ n ih =>
    rw [storageTimes, List.replicate_succ', runPlans_snoc]
    exact .call _ (ih (Nat.le_of_succ_le hn)) (hvalid n hn)

/-- A table filled with plans that wait. -/
theorem busy_only_taken_storage :
    (planSubmit workstation 0 (some restartStorage) (storageTimes SLM_PLAN_CAP).2.slm).1.1 =
      .errBusy ∧
    ∀ p ∈ (storageTimes SLM_PLAN_CAP).2.slm.plans, p.state = .validated := by
  have hwaiting := planRun_storageTimes (Nat.le_refl SLM_PLAN_CAP)
  have hbusy : (planSubmit (storageTimes SLM_PLAN_CAP).2.machine 0 (some restartStorage)
      (storageTimes SLM_PLAN_CAP).2.slm).1.1 = .errBusy := by decide +kernel
  exact ⟨by decide +kernel, (busy_only_taken (planRun_booted _) restartStorage 0).2.1 hwaiting hbusy⟩

/-- Sixteen plans are submitted and executed, one after the other. -/
def storageSpent : List PlanEvent × World :=
  runPlans ([], bootedWorld) ((List.range SLM_PLAN_CAP).flatMap fun i =>
    [.submit (some restartStorage) 0, .apply (i + 1) stillEnv])

/-- The next submission is refused although no plan waits. -/
theorem submit_busy_all_applied : PlanRun (fun _ _ => True) storageSpent.1 storageSpent.2 ∧
    (planSubmit workstation 0 (some restartStorage) storageSpent.2.slm).1 = (.errBusy, none) ∧
    ∀ p ∈ storageSpent.2.slm.plans, p.state = .applied :=
  ⟨planRun_booted _, by decide +kernel, by decide +kernel⟩

end AiosKernel.Slm
