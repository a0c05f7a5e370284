/-
# `AiosKernel.Slm.Runs` — plans between submission and application

A plan is checked when it is submitted and executed when it is applied, and
`slm_plan_apply` does not check again.  The state of the runtime does not change
after `slm_orchestrator_init`, but the health of the kernel does.  So a plan for a
device is executed while risky I/O is allowed in those runs in which no change of
health forbids it while such a plan waits (`KeepsOpen`).
-/
import AiosKernel.Slm.Validate

namespace AiosKernel.Slm

open Health Slots Word

/-! ## Runs -/

structure World where
  machine : Machine
  slm : State

/-- A plan is submitted or applied, a subsystem changes its health, or something else about the
machine changes. -/
inductive Call where
  | submit (req : Option PlanRequest) (nowNs : Nat)
  | apply (planId : Nat) (env : ApplyEnv)
  | markHealth (id : Nat) (state : HealthState)
  | changeMachine (m : Machine)

def exec (c : Call) (w : World) : World :=
  match c with
  | .submit req nowNs => { w with slm := (planSubmit w.machine nowNs req w.slm).2 }
  | .apply planId env => { w with slm := (planApply env planId w.slm).2 }
  | .markHealth id state =>
    { w with machine := { w.machine with health := mark id state w.machine.health } }
  | .changeMachine m => { w with machine := { m with health := w.machine.health } }

/-- The worlds of a run in which every call and the world it leaves meet `ok`. -/
inductive Reach (ok : Call → World → Prop) : World → Prop where
  | init (m : Machine) (learning : Learning) (runtimeState : RuntimeState) :
      Reach ok ⟨m, Slm.init learning runtimeState⟩
  | call {w : World} {c : Call} : Reach ok w → ok c (exec c w) → Reach ok (exec c w)

/-- The plan is for a device and may be applied. -/
def Plan.Waits (p : Plan) : Prop :=
  p.state = .validated ∧ p.request.allowApply = true ∧ p.request.template.isDevice = true

/-- The runtime is up and risky I/O is allowed. -/
structure World.Open (w : World) : Prop where
  runtime : w.slm.runtimeState ≠ .absent ∧ w.slm.runtimeState ≠ .failed
  riskyIo : (getSummary w.machine.health).riskyIoAllowed = true

/-- Risky I/O is not forbidden while a plan for a device waits. -/
def KeepsOpen (c : Call) (w : World) : Prop :=
  match c with
  | .markHealth _ _ => (∃ p ∈ w.slm.plans, p.Waits) →
      (getSummary w.machine.health).riskyIoAllowed = true
  | _ => True

/-! ## One call -/

section

variable {s : State} {m : Machine} {p : Plan}

theorem mem_written {as bs : List Plan} {x y : Plan} (hp : p ∈ as ++ y :: bs) :
    p = y ∨ p ∈ as ++ x :: bs :=
  (Slots.mem_split.mp hp).imp_right fun hp => Slots.mem_split.mpr (.inr hp)

@[simp] theorem planSubmit_runtimeState (nowNs : Nat) (req : Option PlanRequest) :
    (planSubmit m nowNs req s).2.runtimeState = s.runtimeState := by
  unfold planSubmit
  split <;> rfl

@[simp] theorem planApply_runtimeState (env : ApplyEnv) (planId : Nat) :
    (planApply env planId s).2.runtimeState = s.runtimeState := by
  unfold planApply
  split
  · rfl
  · dsimp only
    split <;> rfl

theorem planSubmit_waits {nowNs : Nat} {req : Option PlanRequest}
    (hp : p ∈ (planSubmit m nowNs req s).2.plans) (hwaits : p.Waits) :
    p ∈ s.plans ∨ Cleared m s p.request := by
  unfold planSubmit at hp
  split at hp
  · rename_i slot req' hslot
    obtain ⟨as, x, bs, hplans, rfl, -, -⟩ := findIdx?_split hslot
    simp only [hplans, set_split] at hp ⊢
    rcases mem_written hp with rfl | hold
    · obtain ⟨hstate, happly, hdevice⟩ := hwaits
      refine .inr (requestValid_cleared happly hdevice ?_)
      cases hvalid : requestValid m s.learning s.runtimeState req' with
      | true => rfl
      | false => rw [hvalid] at hstate; exact nomatch hstate
    · exact .inl hold
  · exact .inl hp

variable {env : ApplyEnv} {planId : Nat}

theorem planApply_waits (hp : p ∈ (planApply env planId s).2.plans) (hwaits : p.Waits) :
    p ∈ s.plans := by
  unfold planApply at hp
  split at hp
  · exact hp
  · rename_i slot hslot
    obtain ⟨as, x, bs, hplans, rfl, -, -⟩ := findIdx?_split hslot
    simp only [hplans, getD_split] at hp ⊢
    split at hp
    · simp only [set_split] at hp
      rcases mem_written hp with rfl | hold
      · cases hwaits.1
      · exact hold
    · simp only [set_split] at hp
      rcases mem_written hp with rfl | hold
      · have hstate := hwaits.1
        split at hstate <;> cases hstate
      · exact hold

theorem planApply_executes {req : PlanRequest} (h : (planApply env planId s).1.2 = some req) :
    ∃ p ∈ s.plans, p.request = req ∧ p.state = .validated ∧ req.allowApply = true := by
  unfold planApply at h
  split at h
  · cases h
  · rename_i slot hslot
    obtain ⟨as, x, bs, hplans, rfl, -, -⟩ := findIdx?_split hslot
    simp only [hplans, getD_split] at h ⊢
    split at h
    · cases h
    · rename_i hrefused
      obtain ⟨hstate, happly⟩ := not_or.mp hrefused
      cases h
      exact ⟨x, by simp, rfl, not_not.mp hstate, by simpa using happly⟩

end

/-! ## Whole runs -/

section

variable {w : World} {c : Call}

/-- A plan waits only while the runtime is up and risky I/O is allowed. -/
def World.Guarded (w : World) : Prop := ∀ p ∈ w.slm.plans, p.Waits → w.Open

theorem exec_guarded (h : w.Guarded) (hok : KeepsOpen c (exec c w)) : (exec c w).Guarded := by
  intro p hp hwaits
  cases c with
  | submit req nowNs =>
    rcases planSubmit_waits hp hwaits with hold | hcleared
    · obtain ⟨hruntime, hrisky⟩ := h p hold hwaits
      exact ⟨by simpa [exec] using hruntime, hrisky⟩
    · exact ⟨by simpa [exec] using hcleared.runtime, hcleared.riskyIo⟩
  | apply planId env =>
    obtain ⟨hruntime, hrisky⟩ := h p (planApply_waits hp hwaits) hwaits
    exact ⟨by simpa [exec] using hruntime, hrisky⟩
  | markHealth id state => exact ⟨(h p hp hwaits).runtime, hok ⟨p, hp, hwaits⟩⟩
  | changeMachine m =>
    obtain ⟨hruntime, hrisky⟩ := h p hp hwaits
    exact ⟨hruntime, hrisky⟩

theorem Reach.guarded (hr : Reach KeepsOpen w) : w.Guarded := by
  induction hr with
  | init m learning runtimeState =>
    intro p hp hwaits
    obtain ⟨-, rfl⟩ := List.mem_replicate.mp hp
    exact nomatch hwaits.1
  | call _ hok ih => exact exec_guarded ih hok

/-- In every run in which no change of health forbids risky I/O while a plan for a device waits: a
plan for a device is executed only while the runtime is up and risky I/O is allowed. -/
theorem apply_executes_open {env : ApplyEnv} {planId : Nat} {req : PlanRequest}
    (hr : Reach KeepsOpen w) (hexecutes : (planApply env planId w.slm).1.2 = some req)
    (hdevice : req.template.isDevice = true) : w.Open := by
  obtain ⟨p, hp, rfl, hstate, happly⟩ := planApply_executes hexecutes
  exact hr.guarded p hp ⟨hstate, happly, hdevice⟩

end

/-! ## One plan -/

/-- The plan to bring the storage controller up again is submitted. -/
def storageQueued : World := exec (.submit (some restartStorage) 0) ⟨workstation, booted⟩

theorem reach_storageQueued {ok : Call → World → Prop}
    (hok : ok (.submit (some restartStorage) 0) storageQueued) : Reach ok storageQueued :=
  .call (.init _ _ _) hok

def stillEnv : ApplyEnv := ⟨0, 0, .ok⟩

theorem apply_executes_open_storage :
    ∃ w, Reach KeepsOpen w ∧ (planApply stillEnv 1 w.slm).1.2 = some restartStorage ∧ w.Open := by
  have hr : Reach KeepsOpen storageQueued := reach_storageQueued trivial
  have hexecutes : (planApply stillEnv 1 storageQueued.slm).1.2 = some restartStorage := by
    decide +kernel
  exact ⟨storageQueued, hr, hexecutes, apply_executes_open hr hexecutes rfl⟩

/-- Then the scheduler is marked degraded, as `kernel_main` does when a later selftest fails. -/
def schedDegraded : World := exec (.markHealth 7 .degraded) storageQueued

/-- The plan is executed all the same. -/
theorem apply_ignores_health :
    ∃ w, Reach (fun _ _ => True) w ∧ restartStorage.template.isDevice = true ∧
      (planApply stillEnv 1 w.slm).1 = (.ok, some restartStorage) ∧
      (getSummary w.machine.health).riskyIoAllowed = false :=
  ⟨schedDegraded, .call (reach_storageQueued trivial) trivial, rfl, by decide +kernel,
    by decide +kernel⟩

end AiosKernel.Slm
