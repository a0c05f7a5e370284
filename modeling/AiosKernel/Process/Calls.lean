/-
# `AiosKernel.Process.Calls` — every call moves the groups on

For each call of the file: the few ways it can change what the journal depends
on, and from them that the invariant holds afterwards, with the groups as they
were, with one more, or with the last one carried on.
-/
import AiosKernel.Process.Journal
import AiosKernel.AddressSpace.Residency

namespace AiosKernel.Process

open List

open AddressSpace (Slot)

structure Inv (p : Platform) (s : State) (groups : List Group) : Prop where
  journal : JournalInv p s groups
  owner : OwnerInv s groups

/-- A change after which the invariant holds for `groups'`, with no committed event touched. -/
structure Advance (p : Platform) (s s' : State) (groups' : List Group) : Prop where
  inv : Inv p s' groups'
  grows : s.journal <+: s'.journal

variable {p : Platform} {s s' : State} {i : Slot} {groups : List Group} {e : ProcessEvent}
  {q : BootstrapProcess}

theorem Advance.quiet (h : Inv p s groups) (hq : Quiet s s') : Advance p s s' groups where
  inv := ⟨h.journal.quiet hq, h.owner.quiet hq⟩
  grows := (hq.kept h.journal.owned).grows

/-! ## Owners

What each rewriting of a descriptor makes of the two facts about owners: a process is active when
it is the current one, and a prepared process that does not run has no evidence. -/

/-- A process is active exactly when it is the current one. -/
def Matched (s : State) : Prop := ∀ i, (s.processes i).active = true ↔ s.current = some i

/-- A process that was prepared and not yet activated has no evidence. -/
def Fresh (s : State) : Prop := ∀ i, (s.processes i).prepared = true →
  (s.processes i).active = false → (s.processes i).trapSnapshot.evidenceValid = false

theorem Matched.inactive (h : Matched s) (hnone : s.current = none) (i : Slot) :
    (s.processes i).active = false := by
  have hiff := h i
  rw [hnone] at hiff
  simpa using hiff

theorem Matched.setProcess (h : Matched s) (hactive : q.active = (s.processes i).active) :
    Matched (s.setProcess i q) := by
  refine setProcess_forall (fun j q => q.active = true ↔ s.current = some j) ?_ fun j _ => h j
  rw [hactive]
  exact h i

theorem publishOwner_self :
    (publishOwner i s).processes i = { s.processes i with active := true } := setProcess_self

theorem tag_acquireEvent (guard : ProcessGuard) : tag (acquireEvent i guard (publishOwner i s)) =
      (.acquire, (s.processes i).slot, (s.processes i).runGeneration) := by
  show (_, ((publishOwner i s).processes i).slot, ((publishOwner i s).processes i).runGeneration) = _
  rw [publishOwner_self]
  rfl

theorem Matched.publishOwner (h : Matched s) (hnone : s.current = none) (i : Slot) :
    Matched (publishOwner i s) := by
  refine setProcess_forall (fun j q => q.active = true ↔ some i = some j) (by simp) ?_
  intro j hj
  simp [h.inactive hnone j, Ne.symm hj]

theorem Matched.publishBoot (h : Matched s) (hcur : s.current = some i) :
    Matched (publishBoot i s) := by
  refine setProcess_forall (fun j q => q.active = true ↔ none = some j) (by simp) ?_
  intro j hj
  have hiff := h j
  rw [hcur] at hiff
  simpa [Ne.symm hj] using hiff

theorem Fresh.setProcess (h : Fresh s)
    (hq : q.prepared = true → q.active = false → q.trapSnapshot.evidenceValid = false) :
    Fresh (s.setProcess i q) :=
  setProcess_forall (fun _ q => q.prepared = true → q.active = false →
    q.trapSnapshot.evidenceValid = false) hq fun j _ => h j

theorem Fresh.publishOwner (h : Fresh s) (i : Slot) : Fresh (publishOwner i s) :=
  Fresh.setProcess h fun _ hact => absurd hact Bool.noConfusion

theorem Fresh.publishBoot (h : Fresh s) (i : Slot) : Fresh (publishBoot i s) :=
  Fresh.setProcess h fun hp => absurd hp Bool.noConfusion

/-! ## Preparing and cancelling -/

theorem Advance.idle_process (h : Inv p s groups) (hnone : s.current = none) (ho : Owned p i q)
    (hgen : (s.processes i).runGeneration ≤ q.runGeneration) (hactive : q.active = false)
    (hfresh : q.prepared = true → q.trapSnapshot.evidenceValid = false) :
    Advance p s (s.setProcess i q) groups := by
  have hkept : Kept p s (s.setProcess i q) :=
    .of_process h.journal.owned ho hgen rfl rfl rfl rfl rfl rfl rfl
  have hmatched : Matched s := h.owner.owner
  refine ⟨⟨h.journal.kept hkept, ?_, ?_, ?_⟩, hkept.grows⟩
  · exact hmatched.setProcess (hactive.trans (hmatched.inactive hnone i).symm)
  · exact Fresh.setProcess h.owner.fresh fun hp _ => hfresh hp
  · have hopen := h.owner.oneOpen
    unfold OneOpen at hopen ⊢
    simpa only [State.setProcess, hnone] using hopen

theorem Advance.trans {s s' s'' : State} {groups groups' : List Group} (h : Advance p s s' groups)
    (h' : Advance p s' s'' groups') : Advance p s s'' groups' where
  inv := h'.inv
  grows := h.grows.trans h'.grows

theorem Advance.then_quiet {s s' s'' : State} (h : Advance p s s' groups) (hq : Quiet s' s'') :
    Advance p s s'' groups :=
  h.trans (.quiet h.inv hq)

theorem quiet_rest {floor stats dropped overflow sequence mm um} : Quiet s { s with
    stackFloor := floor, stats := stats, eventDropped := dropped, eventOverflow := overflow
    trapCaptureSequence := sequence, mm := mm, um := um } :=
  ⟨fun _ => .refl _, rfl, rfl, rfl, rfl, rfl, rfl, rfl⟩

theorem Owned.nextRun (h : Owned p i q) {d : AddressSpace.BootstrapSlot} (hslot : d.slot = i)
    (hcr3 : d.cr3 = p.space.userPml4 i) (hready : d.ready = true) : Owned p i (q.nextRun d) :=
  ⟨h.pid, h.slot, h.stackSize, h.stackBase, h.stackTop, h.aligned, hslot, hcr3, hready⟩

/-- Preparing a slot is refused, or starts the next run of a process while none is current. -/
theorem prepare_cases (p : Platform) (slot : Nat) (executable : Bool) (s : State) :
    Quiet s (prepare p slot executable s).2.2 ∨
      s.current = none ∧ ∃ (i : Slot) (d : AddressSpace.BootstrapSlot), d.slot = i ∧
        d.cr3 = p.space.userPml4 i ∧ d.ready = true ∧ (s.processes i).active = false ∧
        Quiet (s.setProcess i ((s.processes i).nextRun d)) (prepare p slot executable s).2.2 := by
  unfold prepare
  split
  case isFalse => exact .inl (.refl s)
  case isTrue hslot =>
    dsimp only
    split
    · exact .inl (.refl s)
    · rename_i hfree
      simp only [Bool.or_eq_true, not_or, Bool.not_eq_true, Option.isSome_eq_false_iff,
        Option.isNone_iff_eq_none] at hfree
      split
      · exact .inl (.refl s)
      · split
        case h_1 out mm heq =>
          obtain ⟨d, rfl, hdslot, hdcr3, hdready⟩ :=
            AddressSpace.slotPrepare_ok (i := ⟨slot, hslot.2⟩) heq
          exact .inr ⟨hfree.1, ⟨slot, hslot.2⟩, d, hdslot, hdcr3, hdready, hfree.2,
            quiet_rest⟩
        case h_2 => exact .inl quiet_rest

/-- **Preparing a slot keeps the groups**, also those of its earlier runs. -/
theorem prepare_advance (h : Inv p s groups) (slot : Nat) (executable : Bool) :
    Advance p s (prepare p slot executable s).2.2 groups := by
  rcases prepare_cases p slot executable s with
    hq | ⟨hnone, i, d, hslot, hcr3, hready, hinactive, hq⟩
  · exact .quiet h hq
  · have hnext : Advance p s (s.setProcess i ((s.processes i).nextRun d)) groups :=
      .idle_process h hnone ((h.journal.owned i).nextRun hslot hcr3 hready) (Nat.le_succ _)
        hinactive fun _ => rfl
    exact hnext.then_quiet hq

/-- Cancelling is refused, or takes the preparation of a process back while none is current. -/
theorem cancel_cases (p : Platform) (i : Slot) (s : State) :
    Quiet s (cancel p i s).2 ∨
      s.current = none ∧ (s.processes i).active = false ∧
        Quiet (s.setProcess i { s.processes i with prepared := false }) (cancel p i s).2 := by
  unfold cancel
  dsimp only
  split
  · exact .inl (.refl s)
  · split
    · exact .inl (.refl s)
    · rename_i hfree
      simp only [Bool.or_eq_true, not_or, Bool.not_eq_true, Option.isSome_eq_false_iff,
        Option.isNone_iff_eq_none] at hfree
      exact .inr ⟨hfree.1, hfree.2, quiet_rest⟩

theorem cancel_advance (h : Inv p s groups) (i : Slot) : Advance p s (cancel p i s).2 groups := by
  rcases cancel_cases p i s with hq | ⟨hnone, hinactive, hq⟩
  · exact .quiet h hq
  · have hnext : Advance p s (s.setProcess i { s.processes i with prepared := false }) groups :=
      .idle_process h hnone ((h.journal.owned i).congr rfl) le_rfl hinactive
        fun hp => absurd hp Bool.noConfusion
    exact hnext.then_quiet hq

/-! ## Activating -/

theorem tags_open (i gen : Nat) : Group.tags ⟨i, gen, false, false⟩ = [(.acquire, i, gen)] := rfl

theorem tags_captured (i gen : Nat) :
    Group.tags ⟨i, gen, true, false⟩ =
      Group.tags ⟨i, gen, false, false⟩ ++ [(.trapCapture, i, gen)] := rfl

theorem activateEnter_quiet (p : Platform) (i : Slot) (s : State) :
    Quiet s (activateEnter p i s).2.2 := by
  have hreset : Quiet s (s.setProcess i { s.processes i with runState := runStateReset }) :=
    .of_setProcess ⟨rfl, rfl⟩
  unfold activateEnter
  dsimp only
  repeat' split
  all_goals exact hreset.trans quiet_rest

theorem publishOwner_kept (ho : ∀ i, Owned p i (s.processes i)) (i : Slot) :
    Kept p s (publishOwner i s) :=
  .of_process (q := { s.processes i with active := true }) ho ((ho i).congr rfl) le_rfl
    rfl rfl rfl rfl rfl rfl rfl

theorem Advance.acquire (h : Inv p s groups) (hnone : s.current = none)
    (hprepared : (s.processes i).prepared = true)
    (htag : tag e = (.acquire, i.val, (s.processes i).runGeneration))
    (hv : processEventFieldsValid p (publishOwner i s) e i = true) :
    Advance p s (appendEvent e (publishOwner i s))
      (groups ++ [⟨i, (s.processes i).runGeneration, false, false⟩]) := by
  have hkept := publishOwner_kept h.journal.owned i
  have hmatched : Matched s := h.owner.owner
  refine ⟨⟨(h.journal.kept hkept).append hv ?_, ?_, ?_, ?_⟩, ?_⟩
  · rw [flatMap_append, flatMap_singleton, tags_open, htag]
  · exact hmatched.publishOwner hnone i
  · exact Fresh.publishOwner h.owner.fresh i
  · have hclosed := h.owner.oneOpen
    unfold OneOpen at hclosed
    rw [hnone] at hclosed
    refine ⟨groups, ?_, hclosed⟩
    rw [show (appendEvent e (publishOwner i s)).processes i = _ from publishOwner_self]
    simp only [h.owner.fresh i hprepared (hmatched.inactive hnone i)]
  · rw [appendEvent_journal, hkept.journal]
    exact prefix_append _ _

theorem processEventPreflight_quiet (needed : Nat) (s : State) :
    Quiet s (processEventPreflight needed s).2 := by
  unfold processEventPreflight
  split
  · exact .refl s
  · split
    · exact quiet_rest
    · exact .refl s

theorem processEventPreflight_room {needed : Nat} (h : (processEventPreflight needed s).1 = .ok) :
    s.eventCount + needed ≤ BOOTSTRAP_PROCESS_EVENT_CAPACITY := by
  unfold processEventPreflight at h
  split at h
  · cases h
  · split at h
    · cases h
    · omega

/-- An activation fails before it publishes an owner, or it ends with an ACQUIRE event. -/
theorem activate_cases (p : Platform) (i : Slot) (guard : ProcessGuard) (s : State) :
    (activate p i guard s).1 ≠ .ok ∧ Quiet s (activate p i guard s).2.2 ∨
      s.current = none ∧ (s.processes i).prepared = true ∧
        s.eventCount + BOOTSTRAP_PROCESS_EVENTS_PER_RUN ≤ BOOTSTRAP_PROCESS_EVENT_CAPACITY ∧
        ∃ s₁ guard', Quiet s s₁ ∧
          ((activate p i guard s).1, (activate p i guard s).2.2) =
            processEventAppend p (acquireEvent i guard' (publishOwner i s₁)) i
              (publishOwner i s₁) := by
  unfold activate
  dsimp only
  split
  · exact .inl ⟨AiosStatus.noConfusion, .refl s⟩
  · rename_i hready
    split
    · exact .inl ⟨AiosStatus.noConfusion, .refl s⟩
    · rename_i hfree
      have hpre := processEventPreflight_quiet BOOTSTRAP_PROCESS_EVENTS_PER_RUN s
      have hroom : (processEventPreflight BOOTSTRAP_PROCESS_EVENTS_PER_RUN s).1 = .ok → _ :=
        processEventPreflight_room
      split
      case h_1 s₀ heq =>
        rw [heq] at hpre hroom
        have henter := activateEnter_quiet p i s₀
        split
        case h_1 guard' s₁ heq' =>
          rw [heq'] at henter
          simp only [Bool.or_eq_true, Bool.not_eq_true', not_or, Bool.not_eq_false] at hready
          simp only [Bool.or_eq_true, not_or, Bool.not_eq_true, Option.isSome_eq_false_iff,
            Option.isNone_iff_eq_none] at hfree
          exact .inr ⟨hfree.1.2, hready.2, hroom rfl, s₁, _, hpre.trans henter, rfl⟩
        case h_2 hne heq' =>
          rw [heq'] at henter
          exact .inl ⟨fun hok => hne hok, hpre.trans henter⟩
      case h_2 hne heq =>
        rw [heq] at hpre
        exact .inl ⟨fun hok => hne hok, hpre⟩

/-- **An activation that succeeds opens a group**; one that fails before it publishes an owner
keeps the groups. -/
theorem activate_advance (h : Inv p s groups) (i : Slot) (guard : ProcessGuard)
    (hstop : (activate p i guard s).1 = .ok ∨ (activate p i guard s).2.2.current = s.current) :
    (activate p i guard s).1 = .ok ∧ Advance p s (activate p i guard s).2.2
        (groups ++ [⟨i, (s.processes i).runGeneration, false, false⟩]) ∨
      (activate p i guard s).1 ≠ .ok ∧ Advance p s (activate p i guard s).2.2 groups := by
  rcases activate_cases p i guard s with ⟨hst, hq⟩ | ⟨hnone, hprep, -, s₁, guard', hq, heq⟩
  · exact .inr ⟨hst, .quiet h hq⟩
  · have hadv := Advance.quiet h hq
    have hgen := (hq.processes i).runGeneration
    rcases processEventAppend_cases p (acquireEvent i guard' (publishOwner i s₁)) i
      (publishOwner i s₁) with ⟨hst, hpub⟩ | ⟨happend, hv⟩
    · -- the owner is published and the call fails: the caller stops here
      rw [← heq] at hst hpub
      rcases hstop with hok | hcurrent
      · exact absurd hok hst
      · have hpublished : (activate p i guard s).2.2.current = some i := hpub.current
        rw [hcurrent, hnone] at hpublished
        cases hpublished
    · rw [happend] at heq
      obtain ⟨hst, hstate⟩ := Prod.mk.inj heq
      have htag : tag (acquireEvent i guard' (publishOwner i s₁)) =
          (.acquire, i.val, (s₁.processes i).runGeneration) := by
        rw [tag_acquireEvent, (hadv.inv.journal.owned i).slot]
      rw [hst, hstate, ← hgen]
      refine .inl ⟨rfl, hadv.trans (.acquire hadv.inv ?_ ?_ htag hv)⟩
      · exact hq.current.trans hnone
      · exact (hq.processes i).prepared.trans hprep

/-! ## Capturing -/

theorem processEventBindFrame_tag (n : Nat) (addr : BitVec 64) (frame : InterruptFrame) :
    tag (processEventBindFrame e n addr frame q) = tag e := by
  unfold processEventBindFrame
  split <;> rfl

theorem setSnapshot_quiet {snapshot : TrapSnapshot}
    (h : snapshot.evidenceValid = (s.processes i).trapSnapshot.evidenceValid) :
    Quiet s (setSnapshot s i snapshot) := .of_setProcess ⟨rfl, h⟩

/-- A capture fails with the evidence as it was, or it ends with a TRAP_CAPTURE event of the
current process, which had no evidence yet. -/
theorem captureCurrentTrap_cases (p : Platform) (frame : Option (BitVec 64 × InterruptFrame))
    (s : State) :
    (captureCurrentTrap p frame s).1 ≠ .ok ∧ Quiet s (captureCurrentTrap p frame s).2 ∨
      (captureCurrentTrap p frame s).1 = .ok ∧ ∃ i snapshot e s₁,
        s.current = some i ∧ (s.processes i).trapSnapshot.evidenceValid = false ∧
        Quiet s s₁ ∧ tag e = (.trapCapture, (s.processes i).slot, (s.processes i).runGeneration) ∧
        processEventFieldsValid p s₁ e i = true ∧
        snapshot.evidenceValid = true ∧
        Quiet (setSnapshot (appendEvent e s₁) i snapshot) (captureCurrentTrap p frame s).2 := by
  unfold captureCurrentTrap
  split
  case h_2 => exact .inl ⟨AiosStatus.noConfusion, .refl s⟩
  case h_1 frameAddr frame i hcurrent =>
    dsimp only
    iterate 2
      split
      · exact .inl ⟨AiosStatus.noConfusion, .refl s⟩
    rename_i hevidence
    rw [Bool.not_eq_true] at hevidence
    iterate 2
      split
      · exact .inl ⟨AiosStatus.noConfusion, .refl s⟩
    split
    · exact .inl ⟨AiosStatus.noConfusion, setSnapshot_quiet hevidence.symm⟩
    have htake : Quiet s (setSnapshot s i (takeSnapshot s i frameAddr frame)) :=
      setSnapshot_quiet hevidence.symm
    rcases processEventAppend_cases p (captureEvent s i frameAddr frame) i
      (setSnapshot s i (takeSnapshot s i frameAddr frame)) with ⟨hst, hq⟩ | ⟨happend, hv⟩
    · split
      case h_1 heq =>
        rw [heq] at hst
        exact absurd rfl hst
      case h_2 heq =>
        rw [heq] at hst hq
        refine .inl ⟨hst, (htake.trans hq).trans (setSnapshot_quiet ?_)⟩
        rw [((htake.trans hq).processes i).evidence, hevidence]
        rfl
    · rw [happend]
      refine .inr ⟨rfl, i, _, captureEvent s i frameAddr frame, _, hcurrent, hevidence, htake,
        processEventBindFrame_tag _ _ _, hv, ?_, quiet_rest⟩
      rfl

theorem Advance.capture {snapshot : TrapSnapshot} (h : Inv p s groups) (hcur : s.current = some i)
    (hevidence : (s.processes i).trapSnapshot.evidenceValid = false)
    (htag : tag e = (.trapCapture, i.val, (s.processes i).runGeneration))
    (hv : processEventFieldsValid p s e i = true) (hsnap : snapshot.evidenceValid = true) :
    ∃ gs, groups = gs ++ [⟨i, (s.processes i).runGeneration, false, false⟩] ∧
      Advance p s (setSnapshot (appendEvent e s) i snapshot)
        (gs ++ [⟨i, (s.processes i).runGeneration, true, false⟩]) := by
  have hopen := h.owner.oneOpen
  unfold OneOpen at hopen
  rw [hcur] at hopen
  obtain ⟨gs, hgroups, hclosed⟩ := hopen
  rw [hevidence] at hgroups
  have hactive : (s.processes i).active = true := (h.owner.owner i).mpr hcur
  have hkept : Kept p (appendEvent e s) (setSnapshot (appendEvent e s) i snapshot) :=
    .of_process (q := { s.processes i with trapSnapshot := snapshot }) h.journal.owned
      ((h.journal.owned i).congr rfl) le_rfl rfl rfl rfl rfl rfl rfl rfl
  refine ⟨gs, hgroups, ⟨JournalInv.kept (h.journal.append hv ?_) hkept, ?_, ?_, ?_⟩, ?_⟩
  · rw [hgroups, flatMap_append, flatMap_append, flatMap_singleton,
      flatMap_singleton, tags_captured, htag, append_assoc]
  · exact Matched.setProcess h.owner.owner rfl
  · refine Fresh.setProcess h.owner.fresh fun _ hact => ?_
    exact absurd (hact.symm.trans hactive) Bool.noConfusion
  · have hself : (setSnapshot (appendEvent e s) i snapshot).processes i =
        { s.processes i with trapSnapshot := snapshot } := setProcess_self
    unfold OneOpen
    rw [show (setSnapshot (appendEvent e s) i snapshot).current = some i from hcur]
    refine ⟨gs, ?_, hclosed⟩
    rw [hself]
    simp only [hsnap]
  · rw [hkept.journal, appendEvent_journal]
    exact prefix_append _ _

/-- What a group is about: the slot and the run generation of its activation. -/
def Group.key (g : Group) : Nat × Nat := (g.slot, g.generation)

/-- **A capture keeps the groups or adds to the open one.** -/
theorem captureCurrentTrap_advance (h : Inv p s groups)
    (frame : Option (BitVec 64 × InterruptFrame)) :
    ∃ groups', groups'.map Group.key = groups.map Group.key ∧
      Advance p s (captureCurrentTrap p frame s).2 groups' := by
  rcases captureCurrentTrap_cases p frame s with
    ⟨-, hq⟩ | ⟨-, i, snapshot, e, s₁, hcur, hevidence, hq, htag, hv, hsnap, hlast⟩
  · exact ⟨groups, rfl, .quiet h hq⟩
  · have hadv := Advance.quiet h hq
    have htag₁ : tag e = (.trapCapture, i.val, (s₁.processes i).runGeneration) := by
      rw [htag, (h.journal.owned i).slot, (hq.processes i).runGeneration]
    obtain ⟨gs, hgroups, hcapture⟩ := Advance.capture hadv.inv (hq.current.trans hcur)
      ((hq.processes i).evidence.trans hevidence) htag₁ hv hsnap
    refine ⟨_, ?_, (hadv.trans hcapture).then_quiet hlast⟩
    rw [hgroups, map_append, map_append]
    rfl

/-! ## Finishing -/

theorem processEventAppend_ok (heq : processEventAppend p e i s = (.ok, s')) :
    s' = appendEvent e s ∧ processEventFieldsValid p s e i = true := by
  rcases processEventAppend_cases p e i s with ⟨hst, -⟩ | ⟨happend, hv⟩
  · rw [heq] at hst
    exact absurd rfl hst
  · rw [heq] at happend
    exact ⟨(Prod.mk.inj happend).2, hv⟩

theorem processEventAppend_refused {st : AiosStatus} (heq : processEventAppend p e i s = (st, s'))
    (hst : st ≠ .ok) : Quiet s s' := by
  rcases processEventAppend_cases p e i s with ⟨-, hq⟩ | ⟨happend, -⟩
  · rw [heq] at hq
    exact hq
  · rw [heq] at happend
    exact absurd (Prod.mk.inj happend).1 hst

theorem releaseEvent_tag (guard : ProcessGuard) : tag (releaseEvent p i guard s) =
      (.release, (s.processes i).slot, (s.processes i).runGeneration) := by
  unfold releaseEvent
  dsimp only
  split
  · exact processEventBindFrame_tag _ _ _
  · rfl

theorem publishBoot_self :
    (publishBoot i s).processes i = { s.processes i with active := false, prepared := false } :=
  setProcess_self

/-- Giving up the ownership fails, or ends with a RELEASE event. -/
theorem finishPublish_cases (p : Platform) (i : Slot) (withinStack : Bool) (guard : ProcessGuard)
    (s : State) :
    (finishPublish p i withinStack guard s).1 ≠ .ok ∧
        (∃ s₁, Quiet s s₁ ∧ Quiet (publishBoot i s₁) (finishPublish p i withinStack guard s).2.2) ∨
      ∃ s₁ e, Quiet s s₁ ∧ tag e = (.release, (s.processes i).slot, (s.processes i).runGeneration) ∧
        processEventFieldsValid p (publishBoot i s₁) e i = true ∧
        Quiet (appendEvent e (publishBoot i s₁)) (finishPublish p i withinStack guard s).2.2 := by
  have hseal (mm : AddressSpace.State) : Quiet s { s with mm := mm } :=
    quiet_rest
  unfold finishPublish
  dsimp only
  split
  · exact .inl ⟨AiosStatus.noConfusion, _, hseal _, .refl _⟩
  · split
    case h_1 s₂ heq =>
      obtain ⟨rfl, hv⟩ := processEventAppend_ok heq
      refine .inr ⟨_, _, hseal _, ?_, hv, ?_⟩
      · rw [releaseEvent_tag, publishBoot_self]
      · exact quiet_rest
    case h_2 hne heq =>
      exact .inl ⟨fun hok => hne hok, _, hseal _, processEventAppend_refused heq hne⟩

theorem current_of_ready {a b : Bool} (h : ¬(a || s.current != some i || b) = true) :
    s.current = some i := by
  simp only [Bool.or_eq_true, not_or, Bool.not_eq_true, bne_eq_false_iff_eq] at h
  exact h.1.2

/-- A finish fails with the owner still published, or gives up the ownership: with a RELEASE
event if it succeeds. -/
theorem finish_cases (p : Platform) (i : Slot) (guard : ProcessGuard) (s : State) :
    (finish p i guard s).1 ≠ .ok ∧ Quiet s (finish p i guard s).2.2 ∨
      s.current = some i ∧ ((finish p i guard s).1 ≠ .ok ∧
          (∃ s₁, Quiet s s₁ ∧ Quiet (publishBoot i s₁) (finish p i guard s).2.2) ∨
        ∃ s₁ e, Quiet s s₁ ∧
          tag e = (.release, (s.processes i).slot, (s.processes i).runGeneration) ∧
          processEventFieldsValid p (publishBoot i s₁) e i = true ∧
          Quiet (appendEvent e (publishBoot i s₁)) (finish p i guard s).2.2) := by
  unfold finish
  dsimp only
  split
  · exact .inl ⟨AiosStatus.noConfusion, .refl s⟩
  · rename_i hready
    have hcurrent := current_of_ready hready
    split
    · split
      · refine .inr ⟨hcurrent, ?_⟩
        have hregisters (um : UserMode.State) (stats : Stats) (mm : AddressSpace.State) :
            Quiet s { s with um := um, stats := stats, mm := mm } :=
          quiet_rest
        rcases finishPublish_cases p i _ _ _ with
          ⟨hst, s₁, hq, hlast⟩ | ⟨s₁, e, hq, htag, hv, hlast⟩
        · exact .inl ⟨hst, s₁, (hregisters _ _ _).trans hq, hlast⟩
        · exact .inr ⟨s₁, e, (hregisters _ _ _).trans hq, htag, hv, hlast⟩
      · rename_i hne _
        exact .inl ⟨fun hok => hne hok, quiet_rest⟩
    · rename_i hne _
      exact .inl ⟨fun hok => hne hok, quiet_rest⟩

theorem Advance.release (h : Inv p s groups) (hcur : s.current = some i)
    (htag : tag e = (.release, i.val, (s.processes i).runGeneration))
    (hv : processEventFieldsValid p (publishBoot i s) e i = true) :
    ∃ gs captured, groups = gs ++ [⟨i, (s.processes i).runGeneration, captured, false⟩] ∧
      Advance p s (appendEvent e (publishBoot i s))
        (gs ++ [⟨i, (s.processes i).runGeneration, captured, true⟩]) := by
  have hopen := h.owner.oneOpen
  unfold OneOpen at hopen
  rw [hcur] at hopen
  obtain ⟨gs, hgroups, hclosed⟩ := hopen
  have hkept : Kept p s (publishBoot i s) :=
    .of_process (q := { s.processes i with active := false, prepared := false }) h.journal.owned
      ((h.journal.owned i).congr rfl) le_rfl rfl rfl rfl rfl rfl rfl rfl
  refine ⟨gs, _, hgroups, ⟨JournalInv.append (h.journal.kept hkept) hv ?_, ?_, ?_, ?_⟩, ?_⟩
  · rw [hgroups, flatMap_append, flatMap_append, flatMap_singleton,
      flatMap_singleton, htag, append_assoc]
    cases (s.processes i).trapSnapshot.evidenceValid <;> rfl
  · exact Matched.publishBoot h.owner.owner hcur
  · exact Fresh.publishBoot h.owner.fresh i
  · exact forall_mem_append.mpr ⟨hclosed, forall_mem_singleton.mpr rfl⟩
  · rw [appendEvent_journal, hkept.journal]
    exact prefix_append _ _

/-- **A finish keeps the groups or closes the open one**, unless it fails with the ownership
already given up. -/
theorem finish_advance (h : Inv p s groups) (i : Slot) (guard : ProcessGuard)
    (hstop : (finish p i guard s).1 = .ok ∨ (finish p i guard s).2.2.current = s.current) :
    ∃ groups', groups'.map Group.key = groups.map Group.key ∧
      Advance p s (finish p i guard s).2.2 groups' := by
  rcases finish_cases p i guard s with
    ⟨-, hq⟩ | ⟨hcur, ⟨hst, s₁, -, hlast⟩ | ⟨s₁, e, hq, htag, hv, hlast⟩⟩
  · exact ⟨groups, rfl, .quiet h hq⟩
  · rcases hstop with hok | hcurrent
    · exact absurd hok hst
    · rw [hlast.current, hcur] at hcurrent
      cases hcurrent
  · have hadv := Advance.quiet h hq
    have htag₁ : tag e = (.release, i.val, (s₁.processes i).runGeneration) := by
      rw [htag, (h.journal.owned i).slot, (hq.processes i).runGeneration]
    obtain ⟨gs, captured, hgroups, hrelease⟩ :=
      Advance.release hadv.inv (hq.current.trans hcur) htag₁ hv
    refine ⟨_, ?_, (hadv.trans hrelease).then_quiet hlast⟩
    rw [hgroups, map_append, map_append]
    rfl

/-! ## Initialising -/

/-- What the loop of `bootstrap_process_init` makes of a descriptor. -/
structure SetUp (p : Platform) (i : Slot) (q : BootstrapProcess) : Prop where
  fixed : (p.kernelStacks i + UserMode.AIOS_USER_KERNEL_STACK_SIZE) &&& 0xF = 0 → Owned p i q
  inactive : q.active = false
  fresh : q.trapSnapshot.evidenceValid = false

/-- The loop touches neither the journal nor the current process. -/
structure JournalUntouched (s s' : State) : Prop where
  current : s'.current = s.current
  eventCount : s'.eventCount = s.eventCount
  eventSequence : s'.eventSequence = s.eventSequence

theorem initSlot_ok (h : initSlot p s i = (.ok, s')) (hinactive : (s.processes i).active = false) :
    JournalUntouched s s' ∧ ∃ q, SetUp p i q ∧ s'.processes = (s.setProcess i q).processes := by
  revert h
  unfold initSlot
  dsimp only
  split
  case h_1 out mm heq =>
    intro h
    cases h
    obtain ⟨d, rfl, hslot, hcr3, hready⟩ := AddressSpace.slotPrepare_ok heq
    refine ⟨⟨rfl, rfl, rfl⟩, _, ?_, Function.update_idem _ _ _⟩
    refine ⟨fun haligned => ?_, hinactive, rfl⟩
    exact ⟨rfl, rfl, rfl, rfl, rfl, haligned, hslot, hcr3, hready⟩
  case h_2 hne _ =>
    intro h
    cases h
    exact absurd rfl hne

theorem initSlots_cons {is : List Slot} (h : initSlots p (i :: is) s = (.ok, s')) :
    ∃ s₁, initSlot p s i = (.ok, s₁) ∧ initSlots p is s₁ = (.ok, s') := by
  unfold initSlots at h
  split at h
  case h_1 s₁ heq => exact ⟨s₁, heq, h⟩
  case h_2 hne _ =>
    cases h
    exact absurd rfl hne

theorem initSlots_ok {is : List Slot} (h : initSlots p is s = (.ok, s'))
    (hinactive : ∀ i, (s.processes i).active = false) :
    JournalUntouched s s' ∧ (∀ i, i ∈ is → SetUp p i (s'.processes i)) ∧
      ∀ i, i ∉ is → s'.processes i = s.processes i := by
  induction is generalizing s with
  | nil =>
    cases h
    exact ⟨⟨rfl, rfl, rfl⟩, fun _ hi => absurd hi not_mem_nil, fun _ _ => rfl⟩
  | cons i rest ih =>
    obtain ⟨s₁, heq, h⟩ := initSlots_cons h
    obtain ⟨hsame, q, hq, hprocs⟩ := initSlot_ok heq (hinactive i)
    have hinactive₁ (j : Slot) : (s₁.processes j).active = false := by
      rw [hprocs]
      exact setProcess_forall (fun _ q => q.active = false) hq.inactive (fun j _ => hinactive j) j
    obtain ⟨hsame', hset, hrest⟩ := ih h hinactive₁
    refine ⟨⟨hsame'.current.trans hsame.current, hsame'.eventCount.trans hsame.eventCount,
      hsame'.eventSequence.trans hsame.eventSequence⟩, fun j hj => ?_, fun j hj => ?_⟩
    · by_cases hin : j ∈ rest
      · exact hset j hin
      · have hji : j = i := (mem_cons.mp hj).resolve_right hin
        subst hji
        rw [hrest j hin, hprocs, setProcess_self]
        exact hq
    · rw [mem_cons, not_or] at hj
      rw [hrest j hj.2, hprocs]
      exact Function.update_of_ne hj.1 _ _

theorem initSelftest_ok (h : initSelftest p s = (.ok, s')) :
    s'.initialized = true ∧ (∀ i, processDescriptorValid p s i = true) ∧
      s'.processes = s.processes ∧ JournalUntouched s s' := by
  unfold initSelftest at h
  dsimp only at h
  split at h
  · rename_i hpassed
    cases h
    refine ⟨hpassed, fun i => ?_, rfl, rfl, rfl, rfl⟩
    simp only [Bool.and_eq_true] at hpassed
    obtain ⟨⟨⟨⟨⟨⟨⟨⟨-, h₀⟩, h₁⟩, -⟩, -⟩, -⟩, -⟩, -⟩, -⟩ := hpassed
    match i with
    | 0 => exact h₀
    | 1 => exact h₁
  · cases h

theorem init_ok (hcold : s.initialized = false) (h : init p s = (.ok, s')) :
    ∃ s₁, initSlots p (List.finRange _) (initReset s) = (.ok, s₁) ∧
      initSelftest p s₁ = (.ok, s') := by
  unfold init at h
  rw [hcold] at h
  split at h
  · cases h
  rw [if_neg Bool.noConfusion] at h
  dsimp only at h
  split at h
  · cases h
  split at h
  case h_1 s₁ heq => exact ⟨s₁, heq, h⟩
  case h_2 hne _ =>
    cases h
    exact absurd rfl hne

/-- **A successful initialisation leaves an empty journal and two owned descriptors.** -/
theorem init_inv (hcold : s.initialized = false) (h : init p s = (.ok, s')) : Inv p s' [] := by
  obtain ⟨s₁, heq, h⟩ := init_ok hcold h
  obtain ⟨hsame, hset, -⟩ := initSlots_ok heq fun _ => rfl
  obtain ⟨hinit, hvalid, hprocs, hsame'⟩ := initSelftest_ok h
  have hsetup (i : Slot) : SetUp p i (s'.processes i) := by
    rw [hprocs]
    exact hset i (mem_finRange i)
  have hcurrent : s'.current = none := hsame'.current.trans hsame.current
  have hcount : s'.eventCount = 0 := hsame'.eventCount.trans hsame.eventCount
  have hsequence : s'.eventSequence = 0 := hsame'.eventSequence.trans hsame.eventSequence
  refine ⟨⟨hinit, fun i => ?_, hsequence.trans hcount.symm, fun k hk => ?_, ?_⟩,
    fun i => ?_, fun i _ _ => (hsetup i).fresh, ?_⟩
  · have hdescriptor := hvalid i
    simp only [processDescriptorValid, Bool.and_eq_true, beq_iff_eq] at hdescriptor
    exact (hsetup i).fixed hdescriptor.1.1.2
  · rw [hcount] at hk
    exact absurd hk (Nat.not_lt_zero k)
  · rw [State.journal, hcount]
    rfl
  · simp [(hsetup i).inactive, hcurrent]
  · unfold OneOpen
    rw [hcurrent]
    exact fun g hg => absurd hg not_mem_nil

end AiosKernel.Process
