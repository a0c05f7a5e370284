/-
# `AiosKernel.Process.Ownership` — the owner, the registers and the guards together

On hardware that takes every write, the current process, its descriptor, CR3,
`rsp0` and the interrupt flag always tell the same story, through every
sequence of calls with any number of guards.  A guard is a variable of the
caller: it starts zeroed and only calls write it.  With no process current the
registers are those of boot (`AtBoot`); otherwise one guard has what it takes to
put them back, and no other guard holds `rsp0` (`Resident`).
-/
import AiosKernel.Process.Reserve

namespace AiosKernel.Process

open Function

open AddressSpace (Slot Tracks SameCpu ADDRESS_SPACE_NO_SLOT Sealed RFLAGS_IF_BIT Home Backing
  slotSeal_cpu)
open UserMode (AIOS_USER_KERNEL_STACK_SIZE Rsp0Guard)

/-! ## Systems -/

/-- The file's state and the callers' guards. -/
structure Sys where
  guards : Nat → ProcessGuard
  state : State

/-- The calls of the file, each with the guard it is given. -/
inductive Request where
  | init
  | prepare (slot : Nat) (executable : Bool)
  | cancel (i : Slot)
  | activate (i : Slot) (k : Nat)
  | captureCurrentTrap (frame : Option (BitVec 64 × InterruptFrame))
  | finish (i : Slot) (k : Nat)

/-- What a call with guard `k` gives back: the guard and the state. -/
def Sys.put (t : Sys) (k : Nat) (g : ProcessGuard) (s : State) : Sys :=
  ⟨update t.guards k g, s⟩

@[simp] theorem Sys.put_self (t : Sys) (k : Nat) (g : ProcessGuard) (s : State) :
    (t.put k g s).guards k = g := update_self _ _ _

theorem Sys.put_of_ne (t : Sys) {k l : Nat} (h : l ≠ k) (g : ProcessGuard) (s : State) :
    (t.put k g s).guards l = t.guards l := update_of_ne h _ _

/-- One call: its status, and the guards and state it leaves. -/
def Sys.exec (p : Platform) (r : Request) (t : Sys) : AiosStatus × Sys :=
  match r with
  | .init =>
    let r := Process.init p t.state
    (r.1, ⟨t.guards, r.2⟩)
  | .prepare slot executable =>
    let r := Process.prepare p slot executable t.state
    (r.1, ⟨t.guards, r.2.2⟩)
  | .cancel i =>
    let r := Process.cancel p i t.state
    (r.1, ⟨t.guards, r.2⟩)
  | .activate i k =>
    let r := Process.activate p i (t.guards k) t.state
    (r.1, t.put k r.2.1 r.2.2)
  | .captureCurrentTrap frame =>
    let r := Process.captureCurrentTrap p frame t.state
    (r.1, ⟨t.guards, r.2⟩)
  | .finish i k =>
    let r := Process.finish p i (t.guards k) t.state
    (r.1, t.put k r.2.1 r.2.2)

/-- A run of any calls.  Other code may run between them: it leaves CR3 and `rsp0` alone, and the
interrupt flag while a process is current. -/
inductive GuardRun (p : Platform) (t₀ : Sys) : Sys → Prop
  | start : GuardRun p t₀ t₀
  | call {t : Sys} (r : Request) : GuardRun p t₀ t → GuardRun p t₀ (t.exec p r).2
  | other {t : Sys} (runs : Slot → RunState) (floors : Slot → BitVec 64)
      (backing : Slot → Backing) (rflags : BitVec 64)
      (quiet : t.state.current ≠ none → Flag.test rflags RFLAGS_IF_BIT =
        t.state.mm.interruptsEnabled) :
      GuardRun p t₀ t → GuardRun p t₀ ⟨t.guards, otherCode t.state runs floors
        { t.state.mm with backing := backing, rflags := rflags } t.state.um⟩

structure TakesWrites (p : Platform) : Prop where
  cr3 : ∀ n v, p.space.cr3After n v = v
  rsp0 : ∀ n v, p.rsp0After n v = v

variable {p : Platform} {t t₀ : Sys} {irq : Bool} {i : Slot} {s s' : State} {g : ProcessGuard}
  {k : Nat}

theorem Sys.exec_changed (hs : Settled p t.state) (r : Request) :
    Changed p t.state (t.exec p r).2.state := by
  cases r with
  | init =>
    show Changed p t.state (Process.init p t.state).2
    rw [init_again hs.initialized]
    exact .still (.refl _)
  | prepare slot executable => exact Process.exec_changed (.prepare slot executable)
  | cancel i => exact Process.exec_changed (.cancel i)
  | activate i k => exact Process.exec_changed (.activate i (t.guards k))
  | captureCurrentTrap frame => exact Process.exec_changed (.captureCurrentTrap frame)
  | finish i k => exact Process.exec_changed (.finish i (t.guards k))

/-! ## The registers of the current process -/

/-- No process is current: the registers hold the baseline and no guard holds `rsp0`. -/
structure AtBoot (t : Sys) : Prop where
  cr3 : t.state.mm.cr3 = t.state.baselineCr3
  rsp0 : t.state.um.tssRsp0 = t.state.baselineRsp0
  free : t.state.mm.activeSlot = ADDRESS_SPACE_NO_SLOT
  guards : ∀ k, (t.guards k).rsp0.active = false

theorem guards_put (h : ∀ l, l ≠ k → (t.guards l).rsp0.active = false) (hg : g.rsp0.active = false)
    (l : Nat) : ((t.put k g s).guards l).rsp0.active = false :=
  (forall_update_iff _ fun _ (g : ProcessGuard) => g.rsp0.active = false).mpr ⟨hg, h⟩ l

/-- Slot `i` runs with guard `k`, the interrupt flag having been `irq` before. -/
structure Resident (p : Platform) (irq : Bool) (i : Slot) (k : Nat) (t : Sys) : Prop where
  space : Tracks ⟨t.state.baselineCr3, irq⟩ (t.guards k).addressSpace t.state.mm (.resident i)
  cr3 : t.state.mm.cr3 = p.space.userPml4 i
  rsp0 : t.state.um.tssRsp0 = p.kernelStacks i + AIOS_USER_KERNEL_STACK_SIZE
  published : t.state.um.rsp0GuardActive = true
  live : (t.guards k).active = true
  guard : (t.guards k).rsp0 =
    ⟨t.state.baselineRsp0, p.kernelStacks i + AIOS_USER_KERNEL_STACK_SIZE, true, true, false⟩
  others : ∀ l, l ≠ k → (t.guards l).rsp0.active = false

/-- What the registers and guards show, by the current process. -/
def Shows (p : Platform) (irq : Bool) (t : Sys) : Prop :=
  match t.state.current with
  | none => AtBoot t
  | some i => ∃ k, Resident p irq i k t

theorem Shows.atBoot (h : Shows p irq t) (hnone : t.state.current = none) : AtBoot t := by
  unfold Shows at h
  rw [hnone] at h
  exact h

theorem Shows.resident (h : Shows p irq t) (hcur : t.state.current = some i) :
    ∃ k, Resident p irq i k t := by
  unfold Shows at h
  rw [hcur] at h
  exact h

theorem AtBoot.shows (h : AtBoot t) (hnone : t.state.current = none) (irq : Bool) :
    Shows p irq t := by
  unfold Shows
  rw [hnone]
  exact h

theorem Resident.shows (h : Resident p irq i k t) (hcur : t.state.current = some i) :
    Shows p irq t := by
  unfold Shows
  rw [hcur]
  exact ⟨k, h⟩

/-- Nothing that the registers and guards show has changed. -/
structure SameRegisters (s s' : State) : Prop where
  current : s'.current = s.current
  cpu : SameCpu s.mm s'.mm
  um : s'.um = s.um
  baselineCr3 : s'.baselineCr3 = s.baselineCr3
  baselineRsp0 : s'.baselineRsp0 = s.baselineRsp0

theorem SameRegisters.refl (s : State) : SameRegisters s s := ⟨rfl, .refl _, rfl, rfl, rfl⟩

structure SameGuard (g g' : ProcessGuard) : Prop where
  addressSpace : g'.addressSpace = g.addressSpace
  rsp0 : g'.rsp0 = g.rsp0
  active : g'.active = g.active

theorem SameGuard.refl (g : ProcessGuard) : SameGuard g g := ⟨rfl, rfl, rfl⟩

theorem SameGuard.put (h : SameGuard (t.guards k) g) (s : State) (l : Nat) :
    SameGuard (t.guards l) ((t.put k g s).guards l) :=
  (forall_update_iff _ fun l => SameGuard (t.guards l)).mpr ⟨h, fun _ _ => .refl _⟩ l

theorem Shows.congr {t t' : Sys} (h : Shows p irq t)
    (hg : ∀ l, SameGuard (t.guards l) (t'.guards l)) (hr : SameRegisters t.state t'.state) :
    Shows p irq t' := by
  cases hc : t.state.current with
  | none =>
    have hboot := h.atBoot hc
    refine AtBoot.shows ⟨?_, ?_, ?_, fun l => ?_⟩ (hr.current.trans hc) irq
    · rw [hr.cpu.cr3, hr.baselineCr3, hboot.cr3]
    · rw [hr.um, hr.baselineRsp0, hboot.rsp0]
    · rw [hr.cpu.activeSlot, hboot.free]
    · rw [(hg l).rsp0, hboot.guards]
  | some i =>
    obtain ⟨k, hk⟩ := h.resident hc
    refine Resident.shows (k := k) ⟨?_, ?_, ?_, ?_, ?_, ?_, fun l hl => ?_⟩ (hr.current.trans hc)
    · rw [hr.baselineCr3, (hg k).addressSpace]
      exact hk.space.congr hr.cpu
    · rw [hr.cpu.cr3, hk.cr3]
    · rw [hr.um, hk.rsp0]
    · rw [hr.um, hk.published]
    · rw [(hg k).active, hk.live]
    · rw [(hg k).rsp0, hr.baselineRsp0, hk.guard]
    · rw [(hg l).rsp0, hk.others l hl]

/-- The interrupt flag that the next finish has to give back: that of now while no process is
current. -/
def irqBefore (irq : Bool) (t : Sys) : Bool :=
  if t.state.current = none then t.state.mm.interruptsEnabled else irq

theorem Shows.before {t t' : Sys} (h : Shows p irq t')
    (hnone : t.state.current = none → t'.state.current = none) : Shows p (irqBefore irq t) t' := by
  unfold irqBefore
  split
  · rename_i hcur
    exact (h.atBoot (hnone hcur)).shows (hnone hcur) _
  · exact h

/-! ## Calls that leave the registers alone -/

theorem prepare_registers (slot : Nat) (executable : Bool) :
    SameRegisters s (prepare p slot executable s).2.2 := by
  unfold prepare
  split
  case isFalse => exact .refl s
  case isTrue hslot =>
    have hcpu := AddressSpace.slotPrepare_cpu p.space slot executable
      (some (s.processes ⟨slot, hslot.2⟩).addressSpace) s.mm
    dsimp only
    split
    · exact .refl s
    · split
      · exact .refl s
      · split
        case h_1 heq | h_2 heq =>
          rw [heq] at hcpu
          exact ⟨rfl, hcpu, rfl, rfl, rfl⟩

theorem cancel_registers : SameRegisters s (cancel p i s).2 := by
  have hcpu := slotSeal_cpu p.space (s.processes i).slot s.mm
  unfold cancel
  dsimp only
  split
  · exact .refl s
  · split
    · exact .refl s
    · exact ⟨rfl, hcpu, rfl, rfl, rfl⟩

theorem processEventAppend_registers {e : ProcessEvent} {st : AiosStatus}
    (h : processEventAppend p e i s = (st, s')) :
    s'.mm = s.mm ∧ SameRegisters s s' := by
  unfold processEventAppend at h
  dsimp only at h
  repeat' split at h
  all_goals
    cases h
    exact ⟨rfl, ⟨rfl, .refl _, rfl, rfl, rfl⟩⟩

theorem captureCurrentTrap_registers (frame : Option (BitVec 64 × InterruptFrame)) :
    SameRegisters s (captureCurrentTrap p frame s).2 := by
  unfold captureCurrentTrap
  split
  case h_2 => exact .refl s
  case h_1 =>
    dsimp only
    repeat' split
    case h_1 heq | h_2 heq =>
      obtain ⟨-, hr⟩ := processEventAppend_registers heq
      exact { hr with }
    all_goals exact ⟨rfl, .refl _, rfl, rfl, rfl⟩

/-! ## Moving `rsp0` -/

section Rsp0

variable {rsp0After : Nat → BitVec 64 → BitVec 64} (hw : ∀ n v, rsp0After n v = v)
include hw

theorem rsp0Publish_takes {rflags base size : BitVec 64} {g g' : Rsp0Guard}
    {s s' : UserMode.State} {st : AiosStatus}
    (h : UserMode.rsp0Publish rsp0After rflags base size g s = (st, g', s')) :
    st ≠ .ok ∧ g' = g ∧ s' = s ∨
      st = .ok ∧ g' = ⟨s.tssRsp0, base + size, true, true, false⟩ ∧ s'.tssRsp0 = base + size ∧
        s'.rsp0GuardActive = true := by
  unfold UserMode.rsp0Publish at h
  split at h
  · cases h
    exact .inl ⟨AiosStatus.noConfusion, rfl, rfl⟩
  · dsimp only at h
    split at h
    · cases h
      exact .inl ⟨AiosStatus.noConfusion, rfl, rfl⟩
    · simp only [UserMode.writeRsp0, hw, BEq.rfl, if_true] at h
      cases h
      exact .inr ⟨rfl, rfl, rfl, rfl⟩

theorem rsp0Restore_takes {rflags previous top : BitVec 64} {g' : Rsp0Guard}
    {s s' : UserMode.State} {st : AiosStatus}
    (hirq : Flag.test rflags RFLAGS_IF_BIT = false)
    (hlent : s.rsp0GuardActive = true) (htop : s.tssRsp0 = top)
    (h : UserMode.rsp0Restore rsp0After rflags ⟨previous, top, true, true, false⟩ s =
      (st, g', s')) :
    st = .ok ∧ g' = ⟨previous, top, false, true, true⟩ ∧ s'.tssRsp0 = previous := by
  simp only [UserMode.rsp0Restore, UserMode.writeRsp0, hirq, hlent, htop, hw, Bool.not_true,
    Bool.or_self, Bool.false_eq_true, if_false, bne_self_eq_false, BEq.rfl, if_true] at h
  cases h
  exact ⟨rfl, rfl, rfl⟩

end Rsp0

/-! ## Activating -/

/-- A process was not entered, or left again: the registers are as before. -/
structure Back (s : State) (g : ProcessGuard) (s' : State) : Prop where
  cr3 : s'.mm.cr3 = s.mm.cr3
  rsp0 : s'.um.tssRsp0 = s.um.tssRsp0
  free : s'.mm.activeSlot = ADDRESS_SPACE_NO_SLOT
  guard : g.rsp0.active = false

/-- Slot `i` was entered from the state `s`. -/
structure Inside (p : Platform) (i : Slot) (s : State) (g : ProcessGuard) (s' : State) :
    Prop where
  space : Tracks s.mm.home g.addressSpace s'.mm (.resident i)
  cr3 : s'.mm.cr3 = p.space.userPml4 i
  rsp0 : s'.um.tssRsp0 = p.kernelStacks i + AIOS_USER_KERNEL_STACK_SIZE
  published : s'.um.rsp0GuardActive = true
  guard : g.rsp0 =
    ⟨s.um.tssRsp0, p.kernelStacks i + AIOS_USER_KERNEL_STACK_SIZE, true, true, false⟩

theorem activateEnter_takes (hw : TakesWrites p) (ho : Owned p i (s.processes i))
    (hfree : s.mm.activeSlot = ADDRESS_SPACE_NO_SLOT) :
    let r := activateEnter p i s
    r.1 ≠ .ok ∧ Back s r.2.1 r.2.2 ∨ r.1 = .ok ∧ Inside p i s r.2.1 r.2.2 := by
  unfold activateEnter
  dsimp only
  split
  case h_2 st ag mm hne heq =>
    -- the slot is refused
    rcases AddressSpace.activate_takes hw.cr3 ho.spaceSlot heq with ⟨hst, rfl⟩ | ⟨hok, -⟩
    · exact .inl ⟨hst, rfl, rfl, hfree, rfl⟩
    · exact absurd hok hne
  case h_1 ag mm heq =>
    rcases AddressSpace.activate_takes hw.cr3 ho.spaceSlot heq with
      ⟨hst, -⟩ | ⟨-, hspace, hcr3⟩
    · exact absurd rfl hst
    have hback := AddressSpace.restore_takes hw.cr3 hspace
    split
    case h_2 st rg um hne heq' =>
      -- the stack is refused: the slot is left again
      rcases rsp0Publish_takes hw.rsp0 heq' with ⟨hst, rfl, rfl⟩ | ⟨hok, -⟩
      · exact .inl ⟨hst, hback.2.2.2.2.1, rfl, hback.2.1, rfl⟩
      · exact absurd hok hne
    case h_1 rg um heq' =>
      rcases rsp0Publish_takes hw.rsp0 heq' with ⟨hst, -⟩ | ⟨-, rfl, htop, hlent⟩
      · exact absurd rfl hst
      have hstack : (s.processes i).kernelStackBase + (s.processes i).kernelStackSize =
          p.kernelStacks i + AIOS_USER_KERNEL_STACK_SIZE := by
        rw [ho.stackBase, ho.stackSize]
      rw [hstack] at htop
      rw [hstack]
      split
      · -- the stack was already published: both are given back
        split
        case h_1 rg' um' heq'' =>
          obtain ⟨-, rfl, hprevious⟩ := rsp0Restore_takes hw.rsp0 hspace.2.2.2.2.2.2 hlent htop heq''
          split
          case h_1 heq₃ =>
            rw [heq₃] at hback
            exact .inl ⟨AiosStatus.noConfusion, hback.2.2.2.2.1, hprevious, hback.2.1, rfl⟩
          case h_2 hne heq₃ =>
            rw [heq₃] at hback
            exact absurd hback.1 hne
        case h_2 hne heq'' =>
          obtain ⟨hok, -⟩ := rsp0Restore_takes hw.rsp0 hspace.2.2.2.2.2.2 hlent htop heq''
          exact absurd hok hne
      · exact .inr ⟨rfl, hspace, hcr3.trans ho.spaceCr3, htop, hlent, rfl⟩

/-- The owner is the same, and the baseline. -/
structure SameOwner (s s' : State) : Prop where
  current : s'.current = s.current
  baselineCr3 : s'.baselineCr3 = s.baselineCr3
  baselineRsp0 : s'.baselineRsp0 = s.baselineRsp0

theorem Quiet.sameOwner (h : Quiet s s') : SameOwner s s' :=
  { h with }

/-- What an activation can do to the registers: nothing, go in and come back, or go in and publish
its process there. -/
inductive Activated (p : Platform) (i : Slot) (g : ProcessGuard) (s : State)
    (g' : ProcessGuard) (s' : State) : Prop
  | refused (guard : g' = g) (same : SameRegisters s s')
  | back (free : s.current = none) (owner : SameOwner s s') (back : Back s g' s')
  | inside (free : s.current = none) (current : s'.current = some i)
      (baselineCr3 : s'.baselineCr3 = s.baselineCr3)
      (baselineRsp0 : s'.baselineRsp0 = s.baselineRsp0)
      (live : g'.active = true) (inside : Inside p i s g' s')

theorem processEventPreflight_registers {needed : Nat} {st : AiosStatus}
    (h : processEventPreflight needed s = (st, s')) : (st = .ok → s' = s) ∧ SameRegisters s s' := by
  unfold processEventPreflight at h
  repeat' split at h
  all_goals
    cases h
    refine ⟨fun hok => ?_, ⟨rfl, .refl _, rfl, rfl, rfl⟩⟩
    first | rfl | cases hok

theorem activate_activated (hw : TakesWrites p) (hs : Settled p s)
    (hfree : s.current = none → s.mm.activeSlot = ADDRESS_SPACE_NO_SLOT) :
    Activated p i g s (activate p i g s).2.1 (activate p i g s).2.2 := by
  unfold activate
  dsimp only
  split
  · exact .refused rfl (.refl s)
  split
  · exact .refused rfl (.refl s)
  rename_i hready
  have hnone : s.current = none := by
    simp only [Bool.or_eq_true, not_or, Bool.not_eq_true, Option.isSome_eq_false_iff,
      Option.isNone_iff_eq_none] at hready
    exact hready.1.2
  split
  case h_2 heq => exact .refused rfl (processEventPreflight_registers heq).2
  case h_1 s₀ heq =>
    obtain rfl := (processEventPreflight_registers heq).1 rfl
    have henter := activateEnter_takes hw (hs.owned i) (hfree hnone)
    have howner := (activateEnter_quiet p i s₀).sameOwner
    split
    case h_2 hne heq' =>
      rw [heq'] at henter howner
      rcases henter with ⟨-, hback⟩ | ⟨hok, -⟩
      · exact .back hnone howner hback
      · exact absurd hok hne
    case h_1 g' s₁ heq' =>
      rw [heq'] at henter howner
      rcases henter with ⟨hst, -⟩ | ⟨-, hin⟩
      · exact absurd rfl hst
      · generalize happend : processEventAppend p _ i (publishOwner i s₁) = r
        obtain ⟨hmm, hr⟩ := processEventAppend_registers happend
        refine .inside hnone hr.current (hr.baselineCr3.trans howner.baselineCr3)
          (hr.baselineRsp0.trans howner.baselineRsp0) rfl ?_
        constructor
        · rw [hmm]
          exact hin.space
        · rw [hmm]
          exact hin.cr3
        · rw [hr.um]
          exact hin.rsp0
        · rw [hr.um]
          exact hin.published
        · exact hin.guard

/-- **An activation leaves the registers as they were, or publishes its process in all of
them.** -/
theorem activate_shows (hw : TakesWrites p) (hs : Settled p t.state) (h : Shows p irq t) (i : Slot)
    (k : Nat) : Shows p (irqBefore irq t) (t.exec p (.activate i k)).2 := by
  have hact := activate_activated hw (i := i) (g := t.guards k) hs fun hnone =>
    (h.atBoot hnone).free
  show Shows p _ (t.put k (activate p i (t.guards k) t.state).2.1
    (activate p i (t.guards k) t.state).2.2)
  generalize (activate p i (t.guards k) t.state).2.1 = g' at hact
  generalize (activate p i (t.guards k) t.state).2.2 = s' at hact
  cases hact with
  | refused guard same =>
    have hshows : Shows p irq (t.put k g' s') := h.congr (SameGuard.put (guard ▸ .refl _) s') same
    exact hshows.before same.current.trans
  | back free owner back =>
    have hboot := h.atBoot free
    refine AtBoot.shows ⟨?_, ?_, back.free, fun l => ?_⟩ (owner.current.trans free) _
    · exact (back.cr3.trans hboot.cr3).trans owner.baselineCr3.symm
    · exact (back.rsp0.trans hboot.rsp0).trans owner.baselineRsp0.symm
    · exact guards_put (fun l _ => hboot.guards l) back.guard l
  | inside free current baselineCr3 baselineRsp0 live inside =>
    have hboot := h.atBoot free
    rw [irqBefore, if_pos free]
    refine Resident.shows (k := k) ⟨?_, inside.cr3, inside.rsp0, inside.published, ?_, ?_,
      fun l hl => ?_⟩ current
    · show Tracks ⟨s'.baselineCr3, _⟩ ((t.put k g' s').guards k).addressSpace s'.mm _
      rw [baselineCr3, ← hboot.cr3, Sys.put_self]
      exact inside.space
    · rw [Sys.put_self]
      exact live
    · show ((t.put k g' s').guards k).rsp0 = ⟨s'.baselineRsp0, _, _, _, _⟩
      rw [Sys.put_self, baselineRsp0, ← hboot.rsp0]
      exact inside.guard
    · rw [Sys.put_of_ne t hl]
      exact hboot.guards l

/-! ## Finishing -/

/-- The test of `bootstrap_process_finish` on the kernel stack at the entries of a run. -/
def entriesWithinStack (q : BootstrapProcess) : Bool :=
  q.runState.int80Entries == 0 ||
    (decide (q.runState.entryRspMin ≥ q.kernelStackBase) &&
      decide (q.runState.entryRspMax < q.kernelStackTop))

/-- The entry stack of a process is damaged: it was entered elsewhere, or its floor is
overwritten. -/
def Damaged (s : State) (i : Slot) : Prop :=
  entriesWithinStack (s.processes i) = false ∨ stackFloorCanaryOk s i = false

/-- A finish that gives up the ownership, from the caller's home `home`: either it succeeds, with
the interrupts given back and the slot scrubbed, or it keeps the guard live and the interrupts
off. -/
structure Left (p : Platform) (i : Slot) (home : Home) (intact : Prop) (s : State)
    (r : AiosStatus × ProcessGuard × State) : Prop where
  current : r.2.2.current = none
  baselineCr3 : r.2.2.baselineCr3 = s.baselineCr3
  baselineRsp0 : r.2.2.baselineRsp0 = s.baselineRsp0
  cr3 : r.2.2.mm.cr3 = home.cr3
  free : r.2.2.mm.activeSlot = ADDRESS_SPACE_NO_SLOT
  outcome :
    r.1 = .ok ∧ intact ∧ r.2.2.mm.interruptsEnabled = home.irq ∧
        Sealed p.space i r.2.2.mm ∨
      r.1 ≠ .ok ∧ r.2.1.active = true ∧ r.2.2.mm.interruptsEnabled = false

theorem finishPublish_left {home : Home} {withinStack : Bool}
    {r : AiosStatus × ProcessGuard × State} (heq : finishPublish p i withinStack g s = r)
    (hslot : (s.processes i).slot = i) (h : Tracks home g.addressSpace s.mm .deferred)
    (hlive : g.active = true) :
    r.2.2.um = s.um ∧ r.2.1.rsp0 = g.rsp0 ∧
      Left p i home (withinStack = true ∧ g.kernelStackFloorCanaryOk = true) s r := by
  have htracks := h.congr (slotSeal_cpu p.space i.val s.mm)
  have hsealed := AddressSpace.slotSeal_sealed p.space i s.mm
  rw [← heq]
  unfold finishPublish
  rw [hslot]
  generalize AddressSpace.slotSeal p.space i.val s.mm = r at htracks hsealed
  obtain ⟨sealStatus, nxEnforced, mm⟩ := r
  dsimp only at htracks hsealed ⊢
  obtain ⟨hfree, -, -, -, hcr3, -, hoff⟩ := id htracks
  split
  · exact ⟨rfl, rfl, rfl, rfl, rfl, hcr3, hfree, .inr ⟨AiosStatus.noConfusion, rfl, hoff⟩⟩
  · rename_i hchecks
    simp only [Bool.or_eq_true, Bool.not_eq_true', not_or, Bool.not_eq_false, beq_iff_eq] at hchecks
    split
    case h_1 s₂ heq =>
      obtain ⟨hmm, hr⟩ := processEventAppend_registers heq
      have hmm₂ : s₂.mm = mm := hmm
      obtain ⟨hirq, hidle⟩ := AddressSpace.restoreInterrupts_tracks htracks
      have hmappings := AddressSpace.restoreInterrupts_mappings g.addressSpace mm
      rw [hmm₂]
      refine ⟨hr.um, rfl, hr.current, hr.baselineCr3, hr.baselineRsp0, hidle.2.2.2.1, hidle.1,
        .inl ⟨if_pos hirq, ⟨hchecks.1.1.1.1, hchecks.1.1.1.2⟩, hidle.2.2.2.2, ?_⟩⟩
      exact (hsealed hchecks.1.2).congr hmappings
    case h_2 st s₂ hne heq =>
      obtain ⟨hmm, hr⟩ := processEventAppend_registers heq
      have hmm₂ : s₂.mm = mm := hmm
      refine ⟨hr.um, rfl, hr.current, hr.baselineCr3, hr.baselineRsp0, ?_, ?_, .inr ⟨hne, hlive, ?_⟩⟩
      · rw [hmm₂, hcr3]
      · rw [hmm₂, hfree]
      · rw [hmm₂, hoff]

/-- **The owner's finish gives up the ownership and puts every register back.** -/
theorem finish_left (hw : TakesWrites p) (hs : Settled p t.state) (hcur : t.state.current = some i)
    (h : Resident p irq i k t) :
    let r := finish p i (t.guards k) t.state
    r.2.2.um.tssRsp0 = t.state.baselineRsp0 ∧ r.2.1.rsp0.active = false ∧
      Left p i ⟨t.state.baselineCr3, irq⟩ (¬Damaged t.state i) t.state r := by
  have hactive : (t.state.processes i).active = true := (hs.owner i).mpr hcur
  unfold finish
  dsimp only
  rw [if_neg (by simp [(hs.owned i).descriptorValid, h.live, hcur, hactive])]
  have hrsp0 {st : AiosStatus} {rg : Rsp0Guard} {um : UserMode.State}
      (heq : UserMode.rsp0Restore p.rsp0After t.state.readRflags (t.guards k).rsp0 t.state.um =
        (st, rg, um)) := by
    rw [h.guard] at heq
    exact rsp0Restore_takes hw.rsp0 h.space.2.2.2.2.2.2 h.published h.rsp0 heq
  obtain ⟨hok, hdeferred⟩ := AddressSpace.restoreDeferredIrq_takes hw.cr3 h.space
  split
  case h_2 hne heq => exact absurd (hrsp0 heq).1 hne
  case h_1 rg um heq =>
    obtain ⟨-, rfl, hrsp0⟩ := hrsp0 heq
    split
    case h_2 hne heq' =>
      rw [heq'] at hok
      exact absurd hok hne
    case h_1 ag mm heq' =>
      rw [heq'] at hdeferred
      generalize hr : finishPublish p i _ _ _ = r
      obtain ⟨hum, hguard, hleft⟩ := finishPublish_left hr (hs.owned i).slot hdeferred h.live
      refine ⟨?_, ?_, hleft.current, hleft.baselineCr3, hleft.baselineRsp0, hleft.cr3, hleft.free,
        hleft.outcome.imp_left fun hout => ⟨hout.1, ?_, hout.2.2⟩⟩
      · rw [hum]
        exact hrsp0
      · rw [hguard]
      · rintro (hentries | hfloor)
        · exact absurd (hentries.symm.trans hout.2.1.1) Bool.noConfusion
        · exact absurd (hfloor.symm.trans hout.2.1.2) Bool.noConfusion

/-- A finish by a process that is not current, or with a guard that does not hold `rsp0`, does
nothing. -/
theorem finish_refused (h : s.current ≠ some i ∨ g.rsp0.active = false) :
    let r := finish p i g s
    r.1 ≠ .ok ∧ SameGuard g r.2.1 ∧ r.2.2 = s := by
  unfold finish
  dsimp only
  split
  · exact ⟨AiosStatus.noConfusion, .refl g, rfl⟩
  · rename_i hready
    have hcurrent := current_of_ready hready
    have hrsp0 := h.resolve_left (not_not.mpr hcurrent)
    simp only [UserMode.rsp0Restore, hrsp0]
    exact ⟨AiosStatus.noConfusion, ⟨rfl, rfl, rfl⟩, rfl⟩

section

variable (hw : TakesWrites p) (hs : Settled p t.state) (h : Shows p irq t)
include hw hs h

/-- **A finish leaves the registers as they were, or back at the baseline.** -/
theorem finish_shows (i : Slot)
    (k : Nat) : Shows p irq (t.exec p (.finish i k)).2 := by
  show Shows p irq (t.put k (finish p i (t.guards k) t.state).2.1
    (finish p i (t.guards k) t.state).2.2)
  have hrefused (href : t.state.current ≠ some i ∨ (t.guards k).rsp0.active = false) :
      Shows p irq (t.put k (finish p i (t.guards k) t.state).2.1
        (finish p i (t.guards k) t.state).2.2) := by
    obtain ⟨-, hguard, hstate⟩ := finish_refused href
    rw [hstate]
    exact h.congr (SameGuard.put hguard t.state) (.refl _)
  by_cases hcur : t.state.current = some i
  · obtain ⟨l, hl⟩ := h.resident hcur
    by_cases hkl : k = l
    · subst hkl
      obtain ⟨hrsp0, hguard, hleft⟩ := finish_left hw hs hcur hl
      refine AtBoot.shows ⟨?_, ?_, hleft.free, guards_put hl.others hguard⟩ hleft.current irq
      · exact hleft.cr3.trans hleft.baselineCr3.symm
      · exact hrsp0.trans hleft.baselineRsp0.symm
    · exact hrefused (.inr (hl.others k hkl))
  · exact hrefused (.inl hcur)

/-- A finish by the current process succeeds on an intact stack with everything put back, or
keeps its guard and the interrupts off. -/
theorem finish_outcome
    (hcur : t.state.current = some i) (k : Nat) :
    let r := t.exec p (.finish i k)
    r.1 = .ok ∧ ¬Damaged t.state i ∧ r.2.state.readCr3 = t.state.baselineCr3 ∧
        r.2.state.readRsp0 = t.state.baselineRsp0 ∧ r.2.state.mm.interruptsEnabled = irq ∧
        Sealed p.space i r.2.state.mm ∨
      r.1 ≠ .ok ∧ (r.2.guards k).active = (t.guards k).active ∧
        r.2.state.mm.interruptsEnabled = false := by
  obtain ⟨l, hl⟩ := h.resident hcur
  by_cases hkl : k = l
  · subst hkl
    obtain ⟨hrsp0, -, hleft⟩ := finish_left hw hs hcur hl
    rcases hleft.outcome with ⟨hok, hintact, hirq, hsealed⟩ | ⟨hst, hlive, hoff⟩
    · exact .inl ⟨hok, hintact, hleft.cr3, hrsp0, hirq, hsealed⟩
    · refine .inr ⟨hst, ?_, hoff⟩
      show ((t.put k _ _).guards k).active = _
      rw [Sys.put_self, hlive, hl.live]
  · obtain ⟨hst, hguard, hstate⟩ := finish_refused (i := i) (s := t.state) (.inr (hl.others k hkl))
    refine .inr ⟨hst, ?_, ?_⟩
    · show ((t.put k _ _).guards k).active = _
      rw [Sys.put_self, hguard.active]
    · show (finish p i (t.guards k) t.state).2.2.mm.interruptsEnabled = false
      rw [hstate]
      exact hl.space.2.2.2.2.2.2

end

/-! ## Runs -/

theorem Sys.exec_shows (hw : TakesWrites p) (hs : Settled p t.state) (h : Shows p irq t)
    (r : Request) : Shows p (irqBefore irq t) (t.exec p r).2 := by
  have hsame {s' : State} (hr : SameRegisters t.state s') :
      Shows p (irqBefore irq t) ⟨t.guards, s'⟩ := by
    have hshows : Shows p irq ⟨t.guards, s'⟩ := h.congr (fun _ => .refl _) hr
    exact hshows.before hr.current.trans
  cases r with
  | init =>
    show Shows p _ ⟨t.guards, (Process.init p t.state).2⟩
    rw [init_again hs.initialized]
    exact hsame (.refl _)
  | prepare slot executable => exact hsame (prepare_registers slot executable)
  | cancel i => exact hsame cancel_registers
  | activate i k => exact activate_shows hw hs h i k
  | captureCurrentTrap frame => exact hsame (captureCurrentTrap_registers frame)
  | finish i k =>
    refine (finish_shows hw hs h i k).before fun hnone => ?_
    have hidle : t.state.current ≠ some i := by
      rw [hnone]
      exact (Option.some_ne_none i).symm
    obtain ⟨-, -, hstate⟩ := finish_refused (g := t.guards k) (.inl hidle)
    show (finish p i (t.guards k) t.state).2.2.current = none
    rw [hstate, hnone]

theorem Shows.other (h : Shows p irq t) (runs : Slot → RunState) (floors : Slot → BitVec 64)
    (backing : Slot → Backing) (rflags : BitVec 64)
    (quiet : t.state.current ≠ none → Flag.test rflags RFLAGS_IF_BIT =
      t.state.mm.interruptsEnabled) :
    Shows p irq ⟨t.guards, otherCode t.state runs floors
      { t.state.mm with backing := backing, rflags := rflags } t.state.um⟩ := by
  cases hc : t.state.current with
  | none =>
    have hboot := h.atBoot hc
    refine AtBoot.shows ?_ ?_ irq
    · exact { hboot with }
    · exact hc
  | some i =>
    obtain ⟨k, hk⟩ := h.resident hc
    have hoff := quiet (by rw [hc]; exact Option.some_ne_none i)
    obtain ⟨hi, hslot, hactive, hguard, hcr3, hflags, hirq⟩ := hk.space
    exact Resident.shows { hk with
      space := ⟨hi, hslot, hactive, hguard, hcr3, hflags, hoff.trans hirq⟩ } hc

section

variable (hw : TakesWrites p) (h : GuardRun p t₀ t) (hs₀ : Settled p t₀.state)
include hw h hs₀

/-- What every step keeps, a run keeps.  A step makes at most one change of owners and journal, and
leaves registers and guards that still show the current process. -/
theorem GuardRun.preserves {P : Sys → Prop}
    (hstep : ∀ {t t' : Sys}, Settled p t.state → Changed p t.state t'.state → (∀ irq, Shows p irq t
      → Shows p (irqBefore irq t) t') → P t → P t') (h₀ : P t₀) : Settled p t.state ∧ P t := by
  induction h with
  | start => exact ⟨hs₀, h₀⟩
  | call r _ ih =>
    have hc := Sys.exec_changed ih.1 r
    exact ⟨ih.1.changed hc, hstep ih.1 hc (fun _ h => Sys.exec_shows hw ih.1 h r) ih.2⟩
  | @other t runs floors backing rflags quiet _ ih =>
    have hc : Changed p t.state (otherCode t.state runs floors
      { t.state.mm with backing := backing, rflags := rflags } t.state.um) :=
      .still (otherCode_quiet ..)
    refine ⟨ih.1.changed hc, hstep ih.1 hc (fun irq h => ?_) ih.2⟩
    exact (h.other runs floors backing rflags quiet).before id

theorem GuardRun.shows
    {irq₀ : Bool} (h₀ : Shows p irq₀ t₀) : Settled p t.state ∧ ∃ irq, Shows p irq t :=
  h.preserves hw hs₀ (P := fun t => ∃ irq, Shows p irq t)
    (fun _ _ hshows ⟨irq, h⟩ => ⟨_, hshows irq h⟩) ⟨irq₀, h₀⟩

theorem GuardRun.lasts
    (h₀ : Shows p irq t₀) (hcur₀ : t₀.state.current = some i) (hcur : t.state.current = some i)
    (hgen : (t.state.processes i).runGeneration = (t₀.state.processes i).runGeneration) :
    Settled p t.state ∧ Shows p irq t := by
  let P (t : Sys) : Prop :=
    t.state.current = some i ∧ (t.state.processes i).runGeneration =
        (t₀.state.processes i).runGeneration ∧ Shows p irq t ∨
      2 * (t₀.state.processes i).runGeneration < stage (t.state.processes i)
  obtain ⟨hs, hP⟩ : Settled p t.state ∧ P t := by
    refine h.preserves hw hs₀ (fun hs hc hshows hP => ?_) (.inl ⟨hcur₀, rfl, h₀⟩)
    rcases hP with ⟨hin, hsame, hsh⟩ | hpast
    · rcases hc.stays_or_leaves hin with ⟨hstay, hgen⟩ | hleft
      · have hirq := hshows irq hsh
        rw [irqBefore, if_neg (by rw [hin]; exact Option.some_ne_none i)] at hirq
        exact .inl ⟨hstay, hgen.trans hsame, hirq⟩
      · exact .inr (hsame ▸ hleft)
    · exact .inr (hpast.trans_le (hc.forward i))
  rcases hP with ⟨-, -, hsh⟩ | hpast
  · exact ⟨hs, hsh⟩
  · rw [stage_of_prepared (hs.running i hcur), hgen] at hpast
    exact absurd hpast (lt_irrefl _)

end

/-! ## Initialising -/

theorem SameRegisters.trans {s s' s'' : State} (h : SameRegisters s s')
    (h' : SameRegisters s' s'') : SameRegisters s s'' :=
  ⟨h'.current.trans h.current, h.cpu.trans h'.cpu, h'.um.trans h.um,
    h'.baselineCr3.trans h.baselineCr3, h'.baselineRsp0.trans h.baselineRsp0⟩

/-- A slot set up by the loop of `bootstrap_process_init` was prepared, so that none is lent. -/
theorem initSlot_registers (h : initSlot p s i = (.ok, s')) :
    SameRegisters s s' ∧ s.mm.activeSlot = ADDRESS_SPACE_NO_SLOT := by
  unfold initSlot at h
  dsimp only at h
  split at h
  case h_1 out mm heq =>
    have hcpu := AddressSpace.slotPrepare_cpu p.space i.val false
      (some (s.processes i).addressSpace) s.mm
    rw [show AddressSpace.slotPrepare p.space i.val false (some (s.processes i).addressSpace) s.mm =
      _ from heq] at hcpu
    have hfree : s.mm.activeSlot = ADDRESS_SPACE_NO_SLOT :=
      AddressSpace.slotPrepare_free heq
    cases h
    exact ⟨⟨rfl, hcpu, rfl, rfl, rfl⟩, hfree⟩
  case h_2 hne _ =>
    cases h
    exact absurd rfl hne

theorem initSlots_registers {rest : List Slot} (h : initSlots p (i :: rest) s = (.ok, s')) :
    SameRegisters s s' ∧ s.mm.activeSlot = ADDRESS_SPACE_NO_SLOT := by
  induction rest generalizing i s with
  | nil =>
    obtain ⟨s₁, heq, h⟩ := initSlots_cons h
    cases h
    exact initSlot_registers heq
  | cons j rest ih =>
    obtain ⟨s₁, heq, h⟩ := initSlots_cons h
    obtain ⟨hfirst, hfree⟩ := initSlot_registers heq
    exact ⟨hfirst.trans (ih h).1, hfree⟩

/-- **A successful initialisation leaves the registers of boot, which it takes for the baseline**,
and two processes with a page table each. -/
theorem init_boot (hcold : s.initialized = false) (h : init p s = (.ok, s')) :
    SameRegisters (initReset s) s' ∧ s.mm.activeSlot = ADDRESS_SPACE_NO_SLOT ∧
      (s'.processes 0).addressSpace.cr3 ≠ (s'.processes 1).addressSpace.cr3 := by
  obtain ⟨s₁, heq, h⟩ := init_ok hcold h
  have hslots : initSlots p (0 :: [1]) (initReset s) = (.ok, s₁) := heq
  obtain ⟨hloop, hfree⟩ := initSlots_registers hslots
  unfold initSelftest at h
  dsimp only at h
  split at h
  · rename_i hpassed
    cases h
    simp only [Bool.and_eq_true, bne_iff_ne] at hpassed
    exact ⟨hloop.trans ⟨rfl, .refl _, rfl, rfl, rfl⟩, hfree, hpassed.1.1.1.2⟩
  · cases h

/-! ## The owner in every run -/

/-- What holds of every system `t` that a run reaches after a boot in the state `s₀`. -/
structure OwnershipSound (p : Platform) (s₀ : State) (t : Sys) : Prop where
  /-- The current process is the one whose descriptor is active, and no other is. -/
  owner : ∀ i, t.state.current = some i ↔
    (t.state.processes i).active = true ∧ ∀ j, j ≠ i → (t.state.processes j).active = false
  /-- It is the one whose page table and kernel stack the registers hold, with interrupts off. -/
  registers : ∀ i, t.state.current = some i ↔
    t.state.readCr3 = (t.state.processes i).addressSpace.cr3 ∧
      t.state.readRsp0 = (t.state.processes i).kernelStackTop ∧
      t.state.mm.interruptsEnabled = false
  /-- Without one the registers hold the baseline. -/
  baseline : t.state.current = none →
    t.state.readCr3 = t.state.baselineCr3 ∧ t.state.readRsp0 = t.state.baselineRsp0
  /-- The baseline is what the registers held at boot. -/
  boot : t.state.baselineCr3 = s₀.readCr3 ∧ t.state.baselineRsp0 = s₀.readRsp0
  /-- A finish that succeeds restores what the registers held before the activation, and seals
  the user leaf. -/
  restored : ∀ i k, t.state.current = none →
    (t.exec p (.activate i k)).2.state.current = some i →
    ∀ t', GuardRun p (t.exec p (.activate i k)).2 t' → t'.state.current = some i →
      (t'.state.processes i).runGeneration =
        ((t.exec p (.activate i k)).2.state.processes i).runGeneration →
      ∀ l, (t'.exec p (.finish i l)).1 = .ok →
        (t'.exec p (.finish i l)).2.state.readCr3 = t.state.readCr3 ∧
        (t'.exec p (.finish i l)).2.state.readRsp0 = t.state.readRsp0 ∧
        (t'.exec p (.finish i l)).2.state.mm.interruptsEnabled = t.state.mm.interruptsEnabled ∧
        Sealed p.space i (t'.exec p (.finish i l)).2.state.mm
  /-- A finish that finds the entry stack damaged fails, with the guard live and the interrupts
  off. -/
  damaged : ∀ i k, t.state.current = some i → (t.guards k).active = true → Damaged t.state i →
    (t.exec p (.finish i k)).1 ≠ .ok ∧
      ((t.exec p (.finish i k)).2.guards k).active = true ∧
      (t.exec p (.finish i k)).2.state.mm.interruptsEnabled = false

theorem Changed.baseline (h : Changed p s s') :
    s'.baselineCr3 = s.baselineCr3 ∧ s'.baselineRsp0 = s.baselineRsp0 := by
  cases h with
  | still quiet => exact ⟨quiet.baselineCr3, quiet.baselineRsp0⟩
  | one before change after =>
    rw [after.baselineCr3, after.baselineRsp0, ← before.baselineCr3, ← before.baselineRsp0]
    cases change <;> exact ⟨rfl, rfl⟩

theorem GuardRun.baseline (hw : TakesWrites p) (h : GuardRun p t₀ t) (hs₀ : Settled p t₀.state) :
    t.state.baselineCr3 = t₀.state.baselineCr3 ∧ t.state.baselineRsp0 = t₀.state.baselineRsp0 :=
  (h.preserves hw hs₀ (P := fun t => t.state.baselineCr3 = t₀.state.baselineCr3 ∧
    t.state.baselineRsp0 = t₀.state.baselineRsp0)
    (fun _ hc _ h => ⟨hc.baseline.1.trans h.1, hc.baseline.2.trans h.2⟩) ⟨rfl, rfl⟩).2

theorem Settled.owner_iff (h : Settled p s) (i : Slot) :
    s.current = some i ↔
      (s.processes i).active = true ∧ ∀ j, j ≠ i → (s.processes j).active = false := by
  constructor
  · intro hcur
    refine ⟨(h.owner i).mpr hcur, fun j hj => ?_⟩
    by_contra hactive
    have hcur' := (h.owner j).mp (Bool.not_eq_false _ ▸ hactive)
    exact hj (Option.some.inj (hcur'.symm.trans hcur))
  · exact fun hactive => (h.owner i).mp hactive.1

/-- The registers hold the page table and the stack of a process only while it is current. -/
theorem Shows.registers_iff (hs : Settled p t.state) (h : Shows p irq t)
    (hunique : ∀ i j, p.space.userPml4 i = p.space.userPml4 j → i = j)
    (hboot : ∀ i, t.state.baselineCr3 = p.space.userPml4 i → t.state.baselineRsp0 ≠ p.kernelStacks
      i + AIOS_USER_KERNEL_STACK_SIZE) (i : Slot) :
    t.state.current = some i ↔
      t.state.readCr3 = (t.state.processes i).addressSpace.cr3 ∧
        t.state.readRsp0 = (t.state.processes i).kernelStackTop ∧
        t.state.mm.interruptsEnabled = false := by
  rw [(hs.owned i).spaceCr3, (hs.owned i).stackTop]
  constructor
  · intro hcur
    obtain ⟨k, hk⟩ := h.resident hcur
    exact ⟨hk.cr3, hk.rsp0, hk.space.2.2.2.2.2.2⟩
  · rintro ⟨hcr3, hrsp0, -⟩
    cases hc : t.state.current with
    | none =>
      have hat := h.atBoot hc
      exact absurd (hat.rsp0.symm.trans hrsp0) (hboot i (hat.cr3.symm.trans hcr3))
    | some j =>
      obtain ⟨k, hk⟩ := h.resident hc
      rw [hunique j i (hk.cr3.symm.trans hcr3)]

/-- **Owner, descriptor, CR3, `rsp0` and interrupt flag agree in every run**, on hardware that takes
every write and boots outside both processes. -/
theorem ownership_runs_sound (p : Platform) (hw : TakesWrites p) (s₀ s₁ : State)
    (hcold : s₀.initialized = false) (hinit : init p s₀ = (.ok, s₁))
    (hboot : ∀ i, s₀.readCr3 = p.space.userPml4 i →
      s₀.readRsp0 ≠ p.kernelStacks i + AIOS_USER_KERNEL_STACK_SIZE)
    (t : Sys) (hrun : GuardRun p ⟨fun _ => .zero, s₁⟩ t) : OwnershipSound p s₀ t := by
  obtain ⟨hs₁, hnone₁⟩ := init_settled hcold hinit
  obtain ⟨hregs, hfree, hcr3s⟩ := init_boot hcold hinit
  have hshows₁ : Shows p true ⟨fun _ => .zero, s₁⟩ := by
    refine AtBoot.shows ⟨?_, ?_, ?_, fun _ => rfl⟩ hnone₁ true
    · exact hregs.cpu.cr3.trans hregs.baselineCr3.symm
    · exact (congrArg _ hregs.um).trans hregs.baselineRsp0.symm
    · exact hregs.cpu.activeSlot.trans hfree
  have hunique (i j : Slot) (hij : p.space.userPml4 i = p.space.userPml4 j) : i = j := by
    rw [(hs₁.owned 0).spaceCr3, (hs₁.owned 1).spaceCr3] at hcr3s
    match i, j with
    | 0, 0 => rfl
    | 1, 1 => rfl
    | 0, 1 => exact absurd hij hcr3s
    | 1, 0 => exact absurd hij.symm hcr3s
  obtain ⟨hs, irq, hshows⟩ := hrun.shows hw hs₁ hshows₁
  have hbase : t.state.baselineCr3 = s₀.readCr3 ∧ t.state.baselineRsp0 = s₀.readRsp0 := by
    obtain ⟨hcr3, hrsp0⟩ := hrun.baseline hw hs₁
    exact ⟨hcr3.trans hregs.baselineCr3, hrsp0.trans hregs.baselineRsp0⟩
  constructor
  case owner => exact hs.owner_iff
  case registers =>
    refine hshows.registers_iff hs hunique ?_
    rw [hbase.1, hbase.2]
    exact hboot
  case baseline => exact fun hnone => ⟨(hshows.atBoot hnone).cr3, (hshows.atBoot hnone).rsp0⟩
  case boot => exact hbase
  case restored =>
    intro i k hnone hact t' hrun' hcur hgen l hok
    have hchange := Sys.exec_changed hs (.activate i k)
    have hs' := hs.changed hchange
    have hshown := Sys.exec_shows hw hs hshows (.activate i k)
    rw [irqBefore, if_pos hnone] at hshown
    obtain ⟨hst, hshow'⟩ := hrun'.lasts hw hs' hshown hact hcur hgen
    have hat := hshows.atBoot hnone
    obtain ⟨hcr3, hrsp0⟩ := hrun'.baseline hw hs'
    rcases finish_outcome hw hst hshow' hcur l with
      ⟨-, -, hcr3', hrsp0', hirq, hsealed⟩ | ⟨hfail, -⟩
    · refine ⟨?_, ?_, hirq, hsealed⟩
      · exact ((hcr3'.trans hcr3).trans hchange.baseline.1).trans hat.cr3.symm
      · exact ((hrsp0'.trans hrsp0).trans hchange.baseline.2).trans hat.rsp0.symm
    · exact absurd hok hfail
  case damaged =>
    intro i k hcur hlive hdamaged
    rcases finish_outcome hw hs hshows hcur k with ⟨-, hintact, -⟩ | ⟨hfail, hguard, hoff⟩
    · exact absurd hdamaged hintact
    · exact ⟨hfail, hguard.trans hlive, hoff⟩

theorem imagePlatform_takesWrites : TakesWrites imagePlatform := ⟨fun _ _ => rfl, fun _ _ => rfl⟩

/-- The image while slot 0 runs with guard 0. -/
def imageRunning : Sys :=
  (Sys.exec imagePlatform (.activate 0 0)
    (Sys.exec imagePlatform (.prepare 0 true) ⟨fun _ => .zero, imageInit⟩).2).2

theorem ownership_runs_sound_running :
    imageRunning.state.current = some 0 ∧ (imageRunning.exec imagePlatform (.finish 0 0)).1 = .ok ∧
      OwnershipSound imagePlatform imageBoot imageRunning :=
  ⟨by decide +kernel, by decide +kernel,
    ownership_runs_sound imagePlatform imagePlatform_takesWrites imageBoot imageInit rfl
      imageInit_ok (by decide +kernel) _ (.call _ (.call _ .start))⟩

end AiosKernel.Process
