/-
# `AiosKernel.Process.Reserve` — the journal entries an activation reserves

An activation goes ahead only if three entries of the journal are free.  Until
it is over nothing else can use them: its own ACQUIRE event, at most one
TRAP_CAPTURE event, and its RELEASE event.  Runs here make any calls at all, also after
a call that failed with an owner already published.
-/
import AiosKernel.Process.Changes

namespace AiosKernel.Process

open List

open AddressSpace (Slot)

/-! ## Runs -/

/-- The slot and run generation of the trap capture a call makes, if it does. -/
def captured (p : Platform) (c : Call) (s : State) : List (Nat × Nat) :=
  match c, s.current with
  | .captureCurrentTrap _, some i =>
    if (exec p c s).1 = .ok then [(i.val, (s.processes i).runGeneration)] else []
  | _, _ => []

/-- A run of any calls, with the trap captures that succeeded in it. -/
inductive AnyRun (p : Platform) (s₀ : State) : List (Nat × Nat) → State → Prop
  | start : AnyRun p s₀ [] s₀
  | init {caps : List (Nat × Nat)} {s : State} :
      AnyRun p s₀ caps s → AnyRun p s₀ caps (Process.init p s).2
  | call {caps : List (Nat × Nat)} {s : State} (c : Call) :
      AnyRun p s₀ caps s → AnyRun p s₀ (caps ++ captured p c s) (exec p c s).2
  | other {caps : List (Nat × Nat)} {s : State} (runs : Slot → RunState)
      (floors : Slot → BitVec 64) (mm : AddressSpace.State) (um : UserMode.State) :
      AnyRun p s₀ caps s → AnyRun p s₀ caps (otherCode s runs floors mm um)

variable {p : Platform} {i j : Slot} {s s' : State} {g : Nat} {caps : List (Nat × Nat)}
  {old : List (EventKind × Nat × Nat)} {guard : ProcessGuard}

theorem AnyRun.preserves {P : State → Prop} {s₀ s : State} (h : AnyRun p s₀ caps s)
    (hs₀ : Settled p s₀) (hstep : ∀ {s s'}, Settled p s → Changed p s s' → P s → P s') (h₀ : P s₀) :
    Settled p s ∧ P s := by
  induction h with
  | start => exact ⟨hs₀, h₀⟩
  | init _ ih =>
    rw [init_again ih.1.initialized]
    exact ih
  | @call _ s c _ ih =>
    have hc := @exec_changed p s c
    exact ⟨ih.1.changed hc, hstep ih.1 hc ih.2⟩
  | @other _ s runs floors mm um _ ih =>
    have hc : Changed p s (otherCode s runs floors mm um) := .still (otherCode_quiet ..)
    exact ⟨ih.1.changed hc, hstep ih.1 hc ih.2⟩

/-! ## One capture a run -/

/-- The capture of run generation `g` has been made. -/
def Spent (g : Nat) (q : BootstrapProcess) : Prop :=
  g < q.runGeneration ∨ g = q.runGeneration ∧ q.trapSnapshot.evidenceValid = true

variable {q : BootstrapProcess} {frame : Option (BitVec 64 × InterruptFrame)}

theorem spent_setProcess (hq : Spent g (s.processes i) → Spent g q) (h : Spent g (s.processes j)) :
    Spent g ((s.setProcess i q).processes j) :=
  setProcess_forall (fun j q => Spent g (s.processes j) → Spent g q) hq (fun _ _ h => h) j h

theorem spent_nextRun (d : AddressSpace.BootstrapSlot) (h : Spent g q) : Spent g (q.nextRun d) := by
  refine .inl (Nat.lt_succ_of_le ?_)
  rcases h with hlt | ⟨heq, -⟩
  · exact hlt.le
  · exact heq.le

theorem Change.spent (h : Change p s s') (hg : Spent g (s.processes j)) :
    Spent g (s'.processes j) := by
  cases h with
  | prepare => exact spent_setProcess (spent_nextRun _) hg
  | cancel | publish | acquire | leave | release => exact spent_setProcess id hg
  | capture _ _ _ taken =>
    refine spent_setProcess (fun h => ?_) hg
    exact h.imp id fun h => ⟨h.1, taken⟩

theorem Quiet.spent (h : Quiet s s') (hg : Spent g (s.processes j)) : Spent g (s'.processes j) := by
  unfold Spent
  rw [(h.processes j).runGeneration, (h.processes j).evidence]
  exact hg

theorem Changed.spent (h : Changed p s s') (hg : Spent g (s.processes j)) :
    Spent g (s'.processes j) :=
  h.preserves (P := fun s => Spent g (s.processes j)) (fun hq => hq.spent) (fun hc => hc.spent) hg

theorem captureCurrentTrap_spent (hcur : s.current = some i)
    (hok : (captureCurrentTrap p frame s).1 = .ok) :
    ¬Spent (s.processes i).runGeneration (s.processes i) ∧
      Spent (s.processes i).runGeneration ((captureCurrentTrap p frame s).2.processes i) := by
  rcases captureCurrentTrap_cases p frame s with
    ⟨hst, -⟩ | ⟨-, j, snapshot, e, s₁, hcur', hevidence, hq, -, -, hsnap, hlast⟩
  · exact absurd hok hst
  · cases hcur.symm.trans hcur'
    constructor
    · rintro (hlt | ⟨-, hyes⟩)
      · exact lt_irrefl _ hlt
      · exact absurd (hevidence.symm.trans hyes) Bool.noConfusion
    · refine hlast.spent (.inr ?_)
      rw [show (setSnapshot (appendEvent e s₁) i snapshot).processes i =
        { s₁.processes i with trapSnapshot := snapshot } from setProcess_self]
      exact ⟨(hq.processes i).runGeneration.symm, hsnap⟩

/-- All captures of a run are remembered, and no two of them are of the same process and run. -/
structure CapturesOnce (caps : List (Nat × Nat)) (s : State) : Prop where
  nodup : caps.Nodup
  spent : ∀ k ∈ caps, ∃ i : Slot, k.1 = i ∧ Spent k.2 (s.processes i)

theorem CapturesOnce.changed (h : CapturesOnce caps s) (hc : Changed p s s') :
    CapturesOnce caps s' := by
  refine ⟨h.nodup, fun k hk => ?_⟩
  obtain ⟨i, hi, hs⟩ := h.spent k hk
  exact ⟨i, hi, hc.spent hs⟩

theorem captured_cases (p : Platform) (c : Call) (s : State) :
    captured p c s = [] ∨ ∃ frame i, c = .captureCurrentTrap frame ∧ s.current = some i ∧
      (captureCurrentTrap p frame s).1 = .ok ∧
      captured p c s = [(i.val, (s.processes i).runGeneration)] := by
  unfold captured
  split
  · rename_i frame i hcur
    split
    · rename_i hok
      exact .inr ⟨frame, i, rfl, hcur, hok, rfl⟩
    · exact .inl rfl
  · exact .inl rfl

theorem CapturesOnce.call (h : CapturesOnce caps s) (c : Call) :
    CapturesOnce (caps ++ captured p c s) (exec p c s).2 := by
  have hkept := h.changed (@exec_changed p s c)
  rcases captured_cases p c s with hnil | ⟨frame, i, rfl, hcur, hok, hone⟩
  · rw [hnil, append_nil]
    exact hkept
  · obtain ⟨hnot, hyes⟩ := captureCurrentTrap_spent hcur hok
    rw [hone]
    refine ⟨List.Nodup.append h.nodup (nodup_singleton _) ?_, forall_mem_append.mpr
      ⟨hkept.spent, forall_mem_singleton.mpr ⟨i, rfl, hyes⟩⟩⟩
    rw [disjoint_singleton]
    intro hmem
    obtain ⟨j, hj, hs⟩ := h.spent _ hmem
    cases Fin.ext hj
    exact hnot hs

theorem AnyRun.capturesOnce {s₀ s : State} (hs₀ : Settled p s₀) (h : AnyRun p s₀ caps s) :
    CapturesOnce caps s := by
  induction h with
  | start => exact ⟨nodup_nil, fun k hk => absurd hk not_mem_nil⟩
  | init hrun ih =>
    have hs := (hrun.preserves (P := fun _ => True) hs₀ (fun _ _ h => h) trivial).1
    rw [init_again hs.initialized]
    exact ih
  | call c _ ih => exact ih.call c
  | other runs floors mm um _ ih =>
    exact ih.changed (p := p) (.still (otherCode_quiet _ runs floors mm um))

/-! ## A full journal -/

/-- No further event fits. -/
def Full (s : State) : Prop :=
  s.eventCount ≥ BOOTSTRAP_PROCESS_EVENT_CAPACITY ∨ s.eventSequence = U64_MAX

theorem Full.congr (h : Full s) (hn : s.eventCount = s'.eventCount)
    (hseq : s.eventSequence = s'.eventSequence) : Full s' := by
  unfold Full at h ⊢
  rw [← hn, ← hseq]
  exact h

theorem processEventAppend_busy {e : ProcessEvent} (h : processEventAppend p e i s = (.errBusy, s')) :
    Full s := by
  unfold processEventAppend at h
  split at h
  · cases h
  · split at h
    · assumption
    · dsimp only at h
      split at h <;> cases h

/-- A capture is busy on a full journal, or because the run has its capture. -/
theorem captureCurrentTrap_busy (hcur : s.current = some i)
    (h : (captureCurrentTrap p frame s).1 = .errBusy) :
    (s.processes i).trapSnapshot.evidenceValid = true ∨ Full s := by
  unfold captureCurrentTrap at h
  rw [hcur] at h
  split at h
  case h_2 => cases h
  case h_1 heq =>
    cases heq
    dsimp only at h
    split at h
    · cases h
    split at h
    · exact .inl ‹_›
    iterate 3
      split at h
      · cases h
    split at h
    case h_1 => cases h
    case h_2 heq' =>
      cases h
      exact .inr ((processEventAppend_busy heq').congr rfl rfl)

theorem rsp0Restore_ne_busy (rsp0After : Nat → BitVec 64 → BitVec 64) (rflags : BitVec 64)
    (guard : UserMode.Rsp0Guard) (s : UserMode.State) :
    (UserMode.rsp0Restore rsp0After rflags guard s).1 ≠ .errBusy := by
  unfold UserMode.rsp0Restore
  dsimp only
  repeat' split
  all_goals exact AiosStatus.noConfusion

theorem restoreDeferredIrq_ne_busy (p : AddressSpace.Platform) (guard : AddressSpace.Guard)
    (s : AddressSpace.State) : (AddressSpace.restoreDeferredIrq p guard s).1 ≠ .errBusy := by
  unfold AddressSpace.restoreDeferredIrq
  dsimp only
  repeat' split
  all_goals exact AiosStatus.noConfusion

theorem finishPublish_busy {withinStack : Bool}
    (h : (finishPublish p i withinStack guard s).1 = .errBusy) : Full s := by
  unfold finishPublish at h
  dsimp only at h
  split at h
  · cases h
  · split at h
    case h_1 =>
      split at h <;> cases h
    case h_2 heq =>
      cases h
      exact (processEventAppend_busy heq).congr rfl rfl

theorem finish_busy (h : (finish p i guard s).1 = .errBusy) : s.current = some i ∧ Full s := by
  unfold finish at h
  dsimp only at h
  split at h
  · cases h
  · rename_i hready
    have hcurrent := current_of_ready hready
    split at h
    case h_1 =>
      split at h
      case h_1 => exact ⟨hcurrent, (finishPublish_busy h).congr rfl rfl⟩
      case h_2 heq =>
        have hne := restoreDeferredIrq_ne_busy p.space guard.addressSpace s.mm
        rw [heq] at hne
        exact absurd h hne
    case h_2 heq =>
      have hne := rsp0Restore_ne_busy p.rsp0After s.readRflags guard.rsp0 s.um
      rw [heq] at hne
      exact absurd h hne

theorem Settled.not_full (h : Settled p s) (hcur : s.current = some i) : ¬Full s := by
  have hroom := h.room i hcur
  have hpending : 0 < pending (s.processes i) := by
    unfold pending
    split <;> decide
  have hseq := h.sequence
  unfold BOOTSTRAP_PROCESS_EVENT_CAPACITY at hroom
  rintro (hfull | hmax)
  · unfold BOOTSTRAP_PROCESS_EVENT_CAPACITY at hfull
    omega
  · unfold U64_MAX at hmax
    omega

/-! ## One activation -/

/-- Slot `i` runs in generation `g`, and the journal has since grown from the tags `old` by the
events of that activation alone. -/
structure Ongoing (i : Slot) (g : Nat) (old : List (EventKind × Nat × Nat)) (s : State) :
    Prop where
  current : s.current = some i
  generation : (s.processes i).runGeneration = g
  journal : s.journal.map tag =
    old ++ Group.tags ⟨i, g, (s.processes i).trapSnapshot.evidenceValid, false⟩

theorem Ongoing.quiet (hq : Quiet s s') (h : Ongoing i g old s) : Ongoing i g old s' where
  current := hq.current.trans h.current
  generation := (hq.processes i).runGeneration.trans h.generation
  journal := by
    rw [(hq.processes i).evidence, ← h.journal]
    unfold State.journal
    rw [hq.events, hq.eventCount]

/-- The activation goes on, or the process is past it. -/
def OngoingOrPast (i : Slot) (g : Nat) (old : List (EventKind × Nat × Nat)) (s : State) : Prop :=
  Ongoing i g old s ∨ 2 * g < stage (s.processes i)

theorem OngoingOrPast.quiet (hq : Quiet s s') (h : OngoingOrPast i g old s) :
    OngoingOrPast i g old s' :=
  h.imp (Ongoing.quiet hq) fun hpast => hpast.trans_le (hq.forward i)

theorem OngoingOrPast.change (hs : Settled p s) (hc : Change p s s') (h : OngoingOrPast i g old s) :
    OngoingOrPast i g old s' := by
  rcases h with hon | hpast
  case inr => exact .inr (hpast.trans_le (hc.forward i))
  rcases hc.inside hon.current with ⟨e, snapshot, rfl, evidence, event, taken⟩ | hleft
  · refine .inl ⟨hon.current, ?_, ?_⟩
    · rw [setSnapshot_self]
      exact hon.generation
    · have hold := hon.journal
      rw [evidence] at hold
      rw [setSnapshot_self]
      simp only [taken]
      show ((appendEvent e s).journal).map tag = _
      rw [appendEvent_journal, map_append, hold, tags_captured, append_assoc]
      have htag : tag e = (.trapCapture, i.val, g) := by
        rw [event, (hs.owned i).slot, hon.generation]
      rw [← htag]
      rfl
  · refine .inr ?_
    rw [hleft, hon.generation]
    exact Nat.lt_succ_self _

theorem OngoingOrPast.changed (hs : Settled p s) (hc : Changed p s s') (h : OngoingOrPast i g old s) :
    OngoingOrPast i g old s' := by
  cases hc with
  | still quiet => exact h.quiet quiet
  | one before change after =>
    exact ((h.quiet before).change (hs.quiet before) change).quiet after

theorem activate_ongoing (hs : Settled p s) (hok : (activate p i guard s).1 = .ok) :
    Ongoing i (s.processes i).runGeneration (s.journal.map tag) (activate p i guard s).2.2 := by
  rcases activate_cases p i guard s with ⟨hst, -⟩ | ⟨hnone, hprepared, -, s₁, guard', hq, heq⟩
  · exact absurd hok hst
  · have hgen : (s₁.processes i).runGeneration = (s.processes i).runGeneration :=
      (hq.processes i).runGeneration
    have hfresh : (s₁.processes i).trapSnapshot.evidenceValid = false := by
      rw [(hq.processes i).evidence]
      exact hs.fresh i hprepared (hs.owner.inactive hnone i)
    rcases processEventAppend_cases p (acquireEvent i guard' (publishOwner i s₁)) i
      (publishOwner i s₁) with ⟨hst, -⟩ | ⟨happend, -⟩
    · rw [← heq] at hst
      exact absurd hok hst
    · rw [happend] at heq
      rw [(Prod.mk.inj heq).2]
      refine ⟨rfl, ?_, ?_⟩
      · show ((publishOwner i s₁).processes i).runGeneration = _
        rw [publishOwner_self]
        exact hgen
      · have hold : (publishOwner i s₁).journal = s.journal := (hq.kept hs.owned).journal
        rw [appendEvent_journal, map_append, hold]
        refine congrArg (s.journal.map tag ++ ·) ?_
        show [(_, ((publishOwner i s₁).processes i).slot,
          ((publishOwner i s₁).processes i).runGeneration)] =
            Group.tags ⟨_, _, ((publishOwner i s₁).processes i).trapSnapshot.evidenceValid, _⟩
        rw [publishOwner_self, hfresh, hgen, ((hq.processes i).owned (hs.owned i)).slot, tags_open]
        rfl

/-! ## Every run -/

/-- What holds in every state `s` of a run with the captures `caps`. -/
structure ReserveSound (p : Platform) (caps : List (Nat × Nat)) (s : State) : Prop where
  /-- A process captures at most one trap in each of its run generations. -/
  once : caps.Nodup
  /-- Until an activation is over, whatever happens after it, a capture is busy only because the
  run has its capture, a finish never is, and the journal holds no event written since but the
  activation's own. -/
  reserved : ∀ i guard, (activate p i guard s).1 = .ok →
    ∀ caps' s', AnyRun p (activate p i guard s).2.2 caps' s' → s'.current = some i →
      (s'.processes i).runGeneration = (s.processes i).runGeneration →
      (∀ frame, (captureCurrentTrap p frame s').1 = .errBusy →
        (s'.processes i).trapSnapshot.evidenceValid = true) ∧
      (∀ guard', (finish p i guard' s').1 ≠ .errBusy) ∧
      s'.eventCount + pending (s'.processes i) ≤ BOOTSTRAP_PROCESS_EVENT_CAPACITY ∧
      s'.journal.map tag = s.journal.map tag ++ Group.tags ⟨i, (s.processes i).runGeneration,
        (s'.processes i).trapSnapshot.evidenceValid, false⟩

/-- **The three entries reserved by an activation are its own in every run**, and no process
captures twice in one run generation. -/
theorem reserve_runs_sound (p : Platform) (s₀ s₁ : State) (hcold : s₀.initialized = false)
    (hinit : init p s₀ = (.ok, s₁)) (caps : List (Nat × Nat)) (s : State)
    (hrun : AnyRun p s₁ caps s) : ReserveSound p caps s := by
  have hs₁ := (init_settled hcold hinit).1
  refine ⟨(hrun.capturesOnce hs₁).nodup, ?_⟩
  intro i guard hok caps' s' hrun' hcur hgen
  have hs := (hrun.preserves (P := fun _ => True) hs₁ (fun _ _ h => h) trivial).1
  have hactive := hs.changed (activate_changed (i := i) guard)
  obtain ⟨hs', hon⟩ := hrun'.preserves hactive OngoingOrPast.changed
    (.inl (activate_ongoing hs hok))
  have hnot := hs'.not_full hcur
  refine ⟨fun frame hbusy => ?_, fun guard' hbusy => hnot (finish_busy hbusy).2,
    hs'.room i hcur, ?_⟩
  · exact (captureCurrentTrap_busy hcur hbusy).resolve_right hnot
  · rcases hon with hongoing | hpast
    · exact hongoing.journal
    · -- the process is prepared for the same run, so that it cannot be past the activation
      rw [stage_of_prepared (hs'.running i hcur), hgen] at hpast
      exact absurd hpast (lt_irrefl _)

theorem imageTrapped_anyRun : AnyRun imagePlatform imageInit [(0, 1)] imageTrapped :=
  have h₁ : AnyRun imagePlatform imageInit [] imagePrepared := .call (.prepare 0 true) .start
  have h₂ : AnyRun imagePlatform imageInit [] imageActive := .call (.activate 0 .zero) h₁
  have hcaps : captured imagePlatform (.captureCurrentTrap imageTrap) imageActive = [(0, 1)] := by
    decide +kernel
  hcaps ▸ .call (.captureCurrentTrap imageTrap) h₂

theorem reserve_runs_sound_trapped :
    imageTrapped.journal.map (·.kind) = [.acquire, .trapCapture] ∧ imageTrapped.current = some 0 ∧
      ReserveSound imagePlatform [(0, 1)] imageTrapped :=
  ⟨by decide +kernel, by decide +kernel, reserve_runs_sound imagePlatform imageBoot imageInit rfl
    imageInit_ok _ _ imageTrapped_anyRun⟩

end AiosKernel.Process
