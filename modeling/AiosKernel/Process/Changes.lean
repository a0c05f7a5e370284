/-
# `AiosKernel.Process.Changes` — what a call can do to owners and journal

`Process.Calls` follows the journal up to a call that fails with a new owner
already published.  Here no call is left out, whatever it returns: each of them
changes nothing the owners and the journal depend on, or makes one of the seven
changes below.
-/
import AiosKernel.Process.Runs

namespace AiosKernel.Process

open AddressSpace (Slot)

/-! ## The changes -/

/-- One change of the owners and the journal.  An activation publishes an owner with or without
an ACQUIRE event, and a finish gives up the ownership with or without a RELEASE event. -/
inductive Change (p : Platform) (s : State) : State → Prop
  | prepare {i : Slot} {d : AddressSpace.BootstrapSlot} (free : s.current = none)
      (slot : d.slot = i) (cr3 : d.cr3 = p.space.userPml4 i) (ready : d.ready = true) :
      Change p s (s.setProcess i ((s.processes i).nextRun d))
  | cancel {i : Slot} (free : s.current = none) :
      Change p s (s.setProcess i { s.processes i with prepared := false })
  | publish {i : Slot} (free : s.current = none) (prepared : (s.processes i).prepared = true)
      (room : s.eventCount + BOOTSTRAP_PROCESS_EVENTS_PER_RUN ≤
        BOOTSTRAP_PROCESS_EVENT_CAPACITY) :
      Change p s (publishOwner i s)
  | acquire {i : Slot} {e : ProcessEvent} (free : s.current = none)
      (prepared : (s.processes i).prepared = true)
      (room : s.eventCount + BOOTSTRAP_PROCESS_EVENTS_PER_RUN ≤
        BOOTSTRAP_PROCESS_EVENT_CAPACITY)
      (event : tag e = (.acquire, (s.processes i).slot, (s.processes i).runGeneration)) :
      Change p s (appendEvent e (publishOwner i s))
  | capture {i : Slot} {e : ProcessEvent} {snapshot : TrapSnapshot} (current : s.current = some i)
      (evidence : (s.processes i).trapSnapshot.evidenceValid = false)
      (event : tag e = (.trapCapture, (s.processes i).slot, (s.processes i).runGeneration))
      (taken : snapshot.evidenceValid = true) :
      Change p s (setSnapshot (appendEvent e s) i snapshot)
  | leave {i : Slot} (current : s.current = some i) : Change p s (publishBoot i s)
  | release {i : Slot} {e : ProcessEvent} (current : s.current = some i) :
      Change p s (appendEvent e (publishBoot i s))

/-- A call makes at most one change. -/
inductive Changed (p : Platform) (s s' : State) : Prop
  | still (quiet : Quiet s s')
  | one {s₁ s₂ : State} (before : Quiet s s₁) (change : Change p s₁ s₂) (after : Quiet s₂ s')

variable {p : Platform} {s s' : State} {i : Slot} {q : BootstrapProcess}

theorem Changed.preserves {P : State → Prop} (h : Changed p s s')
    (hquiet : ∀ {s s'}, Quiet s s' → P s → P s') (hchange : ∀ {s s'}, Change p s s' → P s → P s')
    (hs : P s) : P s' := by
  cases h with
  | still quiet => exact hquiet quiet hs
  | one before change after => exact hquiet after (hchange change (hquiet before hs))

theorem activate_changed (guard : ProcessGuard) : Changed p s (activate p i guard s).2.2 := by
  rcases activate_cases p i guard s with
    ⟨-, hq⟩ | ⟨hnone, hprepared, hroom, s₁, guard', hq, heq⟩
  · exact .still hq
  · have hnone₁ : s₁.current = none := hq.current.trans hnone
    have hprepared₁ : (s₁.processes i).prepared = true := (hq.processes i).prepared.trans hprepared
    have hroom₁ : s₁.eventCount + BOOTSTRAP_PROCESS_EVENTS_PER_RUN ≤
        BOOTSTRAP_PROCESS_EVENT_CAPACITY := by
      rw [hq.eventCount]
      exact hroom
    rcases processEventAppend_cases p (acquireEvent i guard' (publishOwner i s₁)) i
      (publishOwner i s₁) with ⟨-, hpub⟩ | ⟨happend, -⟩
    · rw [← heq] at hpub
      exact .one hq (.publish hnone₁ hprepared₁ hroom₁) hpub
    · rw [happend] at heq
      rw [(Prod.mk.inj heq).2]
      exact .one hq (.acquire hnone₁ hprepared₁ hroom₁ (tag_acquireEvent guard')) (.refl _)

theorem captureCurrentTrap_changed (frame : Option (BitVec 64 × InterruptFrame)) :
    Changed p s (captureCurrentTrap p frame s).2 := by
  rcases captureCurrentTrap_cases p frame s with
    ⟨-, hq⟩ | ⟨-, i, snapshot, e, s₁, hcur, hevidence, hq, htag, -, hsnap, hlast⟩
  · exact .still hq
  · refine .one hq (.capture (hq.current.trans hcur) ?_ ?_ hsnap) hlast
    · rw [(hq.processes i).evidence, hevidence]
    · rw [htag, (hq.processes i).rest]

theorem finish_changed (guard : ProcessGuard) : Changed p s (finish p i guard s).2.2 := by
  rcases finish_cases p i guard s with
    ⟨-, hq⟩ | ⟨hcur, ⟨-, s₁, hq, hlast⟩ | ⟨s₁, e, hq, -, -, hlast⟩⟩
  · exact .still hq
  · exact .one hq (.leave (hq.current.trans hcur)) hlast
  · exact .one hq (.release (hq.current.trans hcur)) hlast

/-- **Every call of the file makes at most one change**, whatever it returns. -/
theorem exec_changed (c : Call) : Changed p s (exec p c s).2 := by
  cases c with
  | prepare slot executable =>
    rcases prepare_cases p slot executable s with hq | ⟨hnone, i, d, hslot, hcr3, hready, -, hq⟩
    · exact .still hq
    · exact .one (.refl s) (.prepare hnone hslot hcr3 hready) hq
  | cancel i =>
    rcases cancel_cases p i s with hq | ⟨hnone, -, hq⟩
    · exact .still hq
    · exact .one (.refl s) (.cancel hnone) hq
  | activate i guard => exact activate_changed guard
  | captureCurrentTrap frame => exact captureCurrentTrap_changed frame
  | finish i guard => exact finish_changed guard

/-! ## What every change keeps -/

/-- The entries of the journal that the current process may still need: one for its RELEASE
event, and one for a TRAP_CAPTURE event as long as it has made none. -/
def pending (q : BootstrapProcess) : Nat := if q.trapSnapshot.evidenceValid then 1 else 2

/-- The invariant of the file over all runs. -/
structure Settled (p : Platform) (s : State) : Prop where
  initialized : s.initialized = true
  owned : ∀ i, Owned p i (s.processes i)
  owner : Matched s
  running : ∀ i, s.current = some i → (s.processes i).prepared = true
  fresh : Fresh s
  sequence : s.eventSequence = s.eventCount
  room : ∀ i, s.current = some i →
    s.eventCount + pending (s.processes i) ≤ BOOTSTRAP_PROCESS_EVENT_CAPACITY

theorem Settled.quiet (hq : Quiet s s') (h : Settled p s) : Settled p s' where
  initialized := hq.initialized.trans h.initialized
  owned i := (hq.processes i).owned (h.owned i)
  owner i := by
    rw [(hq.processes i).active, hq.current]
    exact h.owner i
  running i hcur := by
    rw [(hq.processes i).prepared]
    exact h.running i (hq.current.symm.trans hcur)
  fresh i := by
    rw [(hq.processes i).active, (hq.processes i).prepared, (hq.processes i).evidence]
    exact h.fresh i
  sequence := by rw [hq.eventSequence, hq.eventCount, h.sequence]
  room i hcur := by
    rw [hq.eventCount, pending, (hq.processes i).evidence]
    exact h.room i (hq.current.symm.trans hcur)

theorem Settled.idle (h : Settled p s) (hnone : s.current = none) (ho : Owned p i q)
    (hactive : q.active = (s.processes i).active)
    (hfresh : q.prepared = true → q.active = false → q.trapSnapshot.evidenceValid = false) :
    Settled p (s.setProcess i q) where
  initialized := h.initialized
  owned := setProcess_forall (Owned p) ho fun j _ => h.owned j
  owner := h.owner.setProcess hactive
  running j hcur := absurd (hnone.symm.trans hcur) (Option.some_ne_none j).symm
  fresh := h.fresh.setProcess hfresh
  sequence := h.sequence
  room j hcur := absurd (hnone.symm.trans hcur) (Option.some_ne_none j).symm

theorem publishOwner_running (hprepared : (s.processes i).prepared = true) (j : Slot)
    (hj : some i = some j) : ((publishOwner i s).processes j).prepared = true := by
  cases hj
  rw [publishOwner_self]
  exact hprepared

theorem Settled.room_publish (h : Settled p s) (hnone : s.current = none)
    (hprepared : (s.processes i).prepared = true)
    (hroom : s.eventCount + BOOTSTRAP_PROCESS_EVENTS_PER_RUN ≤ BOOTSTRAP_PROCESS_EVENT_CAPACITY)
    {n : Nat} (hn : n ≤ 1) (j : Slot) (hj : some i = some j) :
    s.eventCount + n + pending ((publishOwner i s).processes j) ≤
      BOOTSTRAP_PROCESS_EVENT_CAPACITY := by
  cases hj
  have hevidence := h.fresh i hprepared (h.owner.inactive hnone i)
  rw [publishOwner_self, pending]
  simp only [hevidence, Bool.false_eq_true, if_false]
  unfold BOOTSTRAP_PROCESS_EVENTS_PER_RUN at hroom
  omega

theorem Settled.owned_publishOwner (h : Settled p s) (i : Slot) :
    ∀ j, Owned p j ((publishOwner i s).processes j) :=
  setProcess_forall (Owned p) ((h.owned i).congr rfl) fun j _ => h.owned j

theorem Settled.owned_publishBoot (h : Settled p s) (i : Slot) :
    ∀ j, Owned p j ((publishBoot i s).processes j) :=
  setProcess_forall (Owned p) ((h.owned i).congr rfl) fun j _ => h.owned j

/-- **Every change keeps the invariant.** -/
theorem Settled.change (hc : Change p s s') (h : Settled p s) : Settled p s' := by
  have hsequence (e : ProcessEvent) (t : State) (ht : t.eventSequence = t.eventCount) :
      (appendEvent e t).eventSequence = (appendEvent e t).eventCount := congrArg (· + 1) ht
  cases hc with
  | @prepare i d free slot cr3 ready =>
    exact h.idle free ((h.owned i).nextRun slot cr3 ready) rfl fun _ _ => rfl
  | @cancel i free =>
    exact h.idle free ((h.owned i).congr rfl) rfl fun hp => absurd hp Bool.noConfusion
  | @publish i free prepared room =>
    exact ⟨h.initialized, h.owned_publishOwner i, h.owner.publishOwner free i,
      publishOwner_running prepared, h.fresh.publishOwner i, h.sequence,
      h.room_publish free prepared room (Nat.zero_le 1)⟩
  | @acquire i e free prepared room _ =>
    exact ⟨h.initialized, h.owned_publishOwner i, h.owner.publishOwner free i,
      publishOwner_running prepared, h.fresh.publishOwner i, hsequence e _ h.sequence,
      h.room_publish free prepared room (le_refl 1)⟩
  | @capture i e snapshot current evidence _ taken =>
    have hactive : (s.processes i).active = true := (h.owner i).mpr current
    have hself : (setSnapshot (appendEvent e s) i snapshot).processes i =
        { s.processes i with trapSnapshot := snapshot } := setProcess_self
    refine ⟨h.initialized, ?_, h.owner.setProcess rfl, ?_, ?_, hsequence e _ h.sequence, ?_⟩
    · exact setProcess_forall (Owned p) ((h.owned i).congr rfl) fun j _ => h.owned j
    · intro j hcur
      cases current.symm.trans hcur
      rw [hself]
      exact h.running i current
    · refine h.fresh.setProcess fun _ hact => ?_
      exact absurd (hact.symm.trans hactive) Bool.noConfusion
    · intro j hcur
      cases current.symm.trans hcur
      have hroom := h.room i current
      rw [pending, if_neg (by rw [evidence]; exact Bool.noConfusion)] at hroom
      rw [hself, pending, if_pos taken]
      exact hroom
  | @leave i current =>
    exact ⟨h.initialized, h.owned_publishBoot i, h.owner.publishBoot current,
      (fun _ hcur => nomatch hcur), h.fresh.publishBoot i, h.sequence, fun _ hcur => nomatch hcur⟩
  | @release i e current =>
    exact ⟨h.initialized, h.owned_publishBoot i, h.owner.publishBoot current,
      (fun _ hcur => nomatch hcur), h.fresh.publishBoot i, hsequence e _ h.sequence,
      fun _ hcur => nomatch hcur⟩

theorem Settled.changed (h : Settled p s) (hc : Changed p s s') : Settled p s' :=
  hc.preserves Settled.quiet Settled.change h

theorem init_settled (hcold : s.initialized = false) (h : init p s = (.ok, s')) :
    Settled p s' ∧ s'.current = none := by
  have hinv := init_inv hcold h
  have hnone : s'.current = none := by
    have hopen := hinv.owner.oneOpen
    unfold OneOpen at hopen
    split at hopen
    · assumption
    · obtain ⟨gs, hgs, -⟩ := hopen
      exact absurd hgs.symm (List.append_ne_nil_of_right_ne_nil _ (List.cons_ne_nil _ _))
  have hidle {P : Prop} (j : Slot) (hcur : s'.current = some j) : P :=
    absurd (hnone.symm.trans hcur) (Option.some_ne_none j).symm
  exact ⟨⟨hinv.journal.initialized, hinv.journal.owned, hinv.owner.owner, fun j => hidle j,
    hinv.owner.fresh, hinv.journal.sequence, fun j => hidle j⟩, hnone⟩

theorem init_again (h : s.initialized = true) : (init p s).2 = s := by
  unfold init
  split <;> rfl

/-! ## Runs of a process

A process goes through its runs one after the other: prepared for run `g`, then done with it or
cancelled, then prepared for run `g + 1`.  No call takes it back. -/

/-- How far a process has come: `2 g` while it is prepared for run `g`, `2 g + 1` after it. -/
def stage (q : BootstrapProcess) : Nat :=
  if q.prepared then 2 * q.runGeneration else 2 * q.runGeneration + 1

theorem stage_of_prepared (h : q.prepared = true) : stage q = 2 * q.runGeneration := if_pos h

theorem stage_of_not_prepared (h : q.prepared = false) :
    stage q = 2 * q.runGeneration + 1 := if_neg (by rw [h]; exact Bool.noConfusion)

theorem SameProcess.stage {q q' : BootstrapProcess} (h : SameProcess q q') :
    stage q' = stage q := by
  unfold Process.stage
  rw [h.prepared, h.runGeneration]

/-- A process does not go back. -/
def Forward (s s' : State) : Prop := ∀ i, stage (s.processes i) ≤ stage (s'.processes i)

theorem Forward.of_setProcess (h : stage (s.processes i) ≤ stage q) (j : Slot) :
    stage (s.processes j) ≤ stage ((s.setProcess i q).processes j) :=
  setProcess_forall (fun j q => stage (s.processes j) ≤ stage q) h (fun _ _ => le_rfl) j

theorem stage_le_nextRun (d : AddressSpace.BootstrapSlot) : stage q ≤ stage (q.nextRun d) := by
  rw [stage_of_prepared (q := q.nextRun d) rfl]
  unfold stage BootstrapProcess.nextRun
  dsimp only
  split <;> omega

theorem stage_le_unprepared (q q' : BootstrapProcess) (hgen : q'.runGeneration = q.runGeneration)
    (hprepared : q'.prepared = false) : stage q ≤ stage q' := by
  rw [stage_of_not_prepared hprepared, hgen]
  unfold stage
  split <;> omega

theorem Change.forward (h : Change p s s') : Forward s s' := by
  cases h with
  | prepare => exact Forward.of_setProcess (stage_le_nextRun _)
  | cancel | leave | release => exact Forward.of_setProcess (stage_le_unprepared _ _ rfl rfl)
  | publish | acquire | capture => exact Forward.of_setProcess le_rfl

theorem Quiet.forward (h : Quiet s s') : Forward s s' :=
  fun i => (h.processes i).stage.ge

theorem Changed.forward (h : Changed p s s') : Forward s s' := by
  cases h with
  | still quiet => exact quiet.forward
  | one before change after =>
    intro i
    exact ((before.forward i).trans (change.forward i)).trans (after.forward i)

theorem stage_publishBoot :
    stage ((publishBoot i s).processes i) = 2 * (s.processes i).runGeneration + 1 := by
  rw [publishBoot_self, stage_of_not_prepared rfl]

/-- Inside a run there are two kinds of changes: a trap is captured, or the run is left. -/
theorem Change.inside (h : Change p s s') (hcur : s.current = some i) :
    (∃ e snapshot, s' = setSnapshot (appendEvent e s) i snapshot ∧
      (s.processes i).trapSnapshot.evidenceValid = false ∧
      tag e = (.trapCapture, (s.processes i).slot, (s.processes i).runGeneration) ∧
      snapshot.evidenceValid = true) ∨
    stage (s'.processes i) = 2 * (s.processes i).runGeneration + 1 := by
  have hbusy {P : Prop} (hnone : s.current = none) : P :=
    absurd (hnone.symm.trans hcur) (Option.some_ne_none i).symm
  cases h with
  | prepare free | cancel free | publish free | acquire free => exact hbusy free
  | capture current evidence event taken =>
    cases hcur.symm.trans current
    exact .inl ⟨_, _, rfl, evidence, event, taken⟩
  | leave current | release current =>
    cases hcur.symm.trans current
    exact .inr stage_publishBoot

theorem setSnapshot_self (e : ProcessEvent) (snapshot : TrapSnapshot) :
    (setSnapshot (appendEvent e s) i snapshot).processes i =
      { s.processes i with trapSnapshot := snapshot } := setProcess_self

theorem Changed.stays_or_leaves (h : Changed p s s') (hcur : s.current = some i) :
    s'.current = some i ∧ (s'.processes i).runGeneration = (s.processes i).runGeneration ∨
      2 * (s.processes i).runGeneration < stage (s'.processes i) := by
  cases h with
  | still quiet =>
    exact .inl ⟨quiet.current.trans hcur, (quiet.processes i).runGeneration⟩
  | @one s₁ s₂ before change after =>
    have hcur₁ := before.current.trans hcur
    rw [(after.processes i).stage, (after.processes i).runGeneration, after.current,
      ← (before.processes i).runGeneration]
    rcases change.inside hcur₁ with ⟨e, snapshot, rfl, -⟩ | hleft
    · exact .inl ⟨hcur₁, by rw [setSnapshot_self]⟩
    · exact .inr (hleft ▸ Nat.lt_succ_self _)

end AiosKernel.Process
