/-
# `AiosKernel.AddressSpace.Residency` — what a guard stands for

A guard is idle, resident in a slot, or waiting for its interrupts after CR3 is
back.  `Tracks` says which of the three phases the guard, the registers and the
lent slot together show, against the CR3 and the interrupt flag that the caller
had at home; each call of the file then makes one of the moves a phase allows.
-/
import AiosKernel.AddressSpace.Model

namespace AiosKernel.AddressSpace

/-! ## Phases -/

inductive Phase where
  | idle
  | resident (slot : Nat)
  | deferred
  deriving DecidableEq, Repr

/-- What a caller outside any user slot sees: its CR3 and its interrupt flag. -/
structure Home where
  cr3 : BitVec 64
  irq : Bool

/-- The state at a guard that has lent no slot is the caller's home. -/
def State.home (s : State) : Home := ⟨s.cr3, s.interruptsEnabled⟩

/-- The guard `g` and the state `s` are in the given phase, away from `home` or at it. -/
def Tracks (home : Home) (g : Guard) (s : State) : Phase → Prop
  | .idle =>
    s.activeSlot = ADDRESS_SPACE_NO_SLOT ∧ g.active = false ∧ g.irqRestorePending = false ∧
      s.cr3 = home.cr3 ∧ s.interruptsEnabled = home.irq
  | .resident i =>
    i < ADDRESS_SPACE_BOOTSTRAP_USER_SLOT_COUNT ∧ s.activeSlot = i ∧ g.active = true ∧
      g.activeSlot = i ∧ g.previousCr3 = home.cr3 ∧
      Flag.test g.previousFlags RFLAGS_IF_BIT = home.irq ∧ s.interruptsEnabled = false
  | .deferred =>
    s.activeSlot = ADDRESS_SPACE_NO_SLOT ∧ g.active = false ∧ g.irqRestorePending = true ∧
      g.cr3Restored = true ∧ s.cr3 = home.cr3 ∧
      Flag.test g.previousFlags RFLAGS_IF_BIT = home.irq ∧ s.interruptsEnabled = false

/-- The registers and the lent slot are the same. -/
structure SameCpu (s t : State) : Prop where
  cr3 : t.cr3 = s.cr3
  rflags : t.rflags = s.rflags
  activeSlot : t.activeSlot = s.activeSlot

/-- The page tables, executable flags and backing bytes of every slot are the same. -/
structure SameMappings (s t : State) : Prop where
  pml4 : t.pml4 = s.pml4
  pdpt : t.pdpt = s.pdpt
  pd0 : t.pd0 = s.pd0
  executable : t.userSlotExecutable = s.userSlotExecutable
  backing : t.backing = s.backing

theorem SameCpu.refl (s : State) : SameCpu s s := ⟨rfl, rfl, rfl⟩

theorem SameCpu.trans {s t u : State} (h₁ : SameCpu s t) (h₂ : SameCpu t u) : SameCpu s u :=
  ⟨h₂.cr3.trans h₁.cr3, h₂.rflags.trans h₁.rflags, h₂.activeSlot.trans h₁.activeSlot⟩

theorem SameMappings.refl (s : State) : SameMappings s s := ⟨rfl, rfl, rfl, rfl, rfl⟩

theorem SameMappings.trans {s t u : State} (h₁ : SameMappings s t) (h₂ : SameMappings t u) :
    SameMappings s u :=
  ⟨h₂.pml4.trans h₁.pml4, h₂.pdpt.trans h₁.pdpt, h₂.pd0.trans h₁.pd0,
    h₂.executable.trans h₁.executable, h₂.backing.trans h₁.backing⟩

variable {g : Guard} {s s' : State} {home : Home} {p : Platform} {φ : Phase}

theorem Tracks.congr {s t : State} (h : Tracks home g s φ) (hcpu : SameCpu s t) :
    Tracks home g t φ := by
  have hirq : t.interruptsEnabled = s.interruptsEnabled := by
    unfold State.interruptsEnabled
    rw [hcpu.rflags]
  cases φ <;> simpa only [Tracks, hirq, hcpu.cr3, hcpu.activeSlot] using h

theorem Tracks.eq_idle (h : Tracks home g s φ) (hactive : g.active = false)
    (hpending : g.irqRestorePending = false) : φ = .idle := by
  cases φ with
  | idle => rfl
  | resident i => exact absurd (hactive.symm.trans h.2.2.1) Bool.noConfusion
  | deferred => exact absurd (hpending.symm.trans h.2.2.1) Bool.noConfusion

theorem Tracks.inactive (h : Tracks home g s φ) (hφ : ∀ i, φ ≠ .resident i) : g.active = false := by
  cases φ with
  | idle | deferred => exact h.2.1
  | resident i => exact absurd rfl (hφ i)

/-! ## The registers -/

section

variable (p : Platform) (s : State) (v : BitVec 64)

@[simp] theorem switchCr3Record_cr3 : (switchCr3Record p s v).cr3 = p.cr3After s.cr3Writes v := rfl

end

@[simp] theorem irqDisable_interruptsEnabled :
    (irqDisable s).interruptsEnabled = false := Flag.test_clear _ _

section

variable (flags : BitVec 64) (s : State)

@[simp] theorem irqRestore_interruptsEnabled :
    (irqRestore flags s).interruptsEnabled = Flag.test flags RFLAGS_IF_BIT := by
  unfold irqRestore
  cases hflag : Flag.test flags RFLAGS_IF_BIT with
  | true => exact Flag.test_set _ (by decide)
  | false => exact Flag.test_clear _ _

@[simp] theorem irqRestore_cr3 : (irqRestore flags s).cr3 = s.cr3 := by
  unfold irqRestore
  split <;> rfl

@[simp] theorem irqRestore_activeSlot : (irqRestore flags s).activeSlot = s.activeSlot := by
  unfold irqRestore
  split <;> rfl

theorem irqRestore_mappings : SameMappings s (irqRestore flags s) := by
  unfold irqRestore
  split <;> exact ⟨rfl, rfl, rfl, rfl, rfl⟩

end

/-! ## Building, preparing and sealing leave the registers alone -/

theorem buildSlots_cpu (p : Platform) (flags : BitVec 64) (is : List Slot) (s : State) :
    SameCpu s (buildSlots p flags is s).2 := by
  induction is generalizing s with
  | nil => exact .refl s
  | cons i rest ih =>
    have hslot : SameCpu s (buildSlot p flags s i) := ⟨rfl, rfl, rfl⟩
    unfold buildSlots
    split
    · exact hslot.trans (ih _)
    · exact .refl s

theorem buildPrivateUserSpaces_cpu (p : Platform) (s : State) :
    SameCpu s (buildPrivateUserSpaces p s).2 := by
  have hloop := buildSlots_cpu p (bootstrapUserLeafFlags p false) (List.finRange _) s
  unfold buildPrivateUserSpaces
  split
  · exact .refl s
  · split
    case h_1 heq =>
      rw [heq] at hloop
      split
      · exact hloop
      · exact { hloop with }
    case h_2 heq =>
      rw [heq] at hloop
      exact hloop

theorem slotPrepare_cpu (p : Platform) (slot : Nat) (executable : Bool)
    (out : Option BootstrapSlot) (s : State) :
    SameCpu s (slotPrepare p slot executable out s).2.2 := by
  have hbuild := buildPrivateUserSpaces_cpu p s
  unfold slotPrepare
  split
  · exact .refl s
  · split
    · split
      · exact .refl s
      · split
        case h_1 heq =>
          rw [heq] at hbuild
          exact { hbuild with }
        case h_2 heq =>
          rw [heq] at hbuild
          exact hbuild
    · exact .refl s

theorem slotSeal_cpu (p : Platform) (slot : Nat) (s : State) :
    SameCpu s (slotSeal p slot s).2.2 := by
  have hbuild := buildPrivateUserSpaces_cpu p s
  unfold slotSeal
  split
  · dsimp only
    split
    · exact .refl s
    · split
      case h_1 heq =>
        rw [heq] at hbuild
        split <;> exact { hbuild with }
      case h_2 heq =>
        rw [heq] at hbuild
        exact hbuild
  · exact .refl s

variable {i : Slot} {executable : Bool} {out out' : Option BootstrapSlot}

theorem slotPrepare_ok (h : slotPrepare p i executable out s = (.ok, out', s')) :
    ∃ d, out' = some d ∧ d.slot = i ∧ d.cr3 = p.userPml4 i ∧ d.ready = true := by
  revert h
  unfold slotPrepare
  split
  · intro h
    cases h
  · rw [dif_pos i.isLt]
    split
    · intro h
      cases h
    · split
      · intro h
        cases h
        exact ⟨_, rfl, rfl, rfl, rfl⟩
      · rename_i hne _
        intro h
        cases h
        exact absurd rfl hne

/-- A preparation succeeds only while no slot is lent out. -/
theorem slotPrepare_free {slot : Nat} (h : slotPrepare p slot executable out s = (.ok, out', s')) :
    s.activeSlot = ADDRESS_SPACE_NO_SLOT := by
  unfold slotPrepare at h
  split at h
  · cases h
  · split at h
    · split at h
      · cases h
      · rename_i hfree
        exact not_not.mp hfree
    · cases h

/-- The slot is scrubbed: its bytes are zero, it is not executable, and its leaf has the NX
bit wherever the processor has one to set. -/
structure Sealed (p : Platform) (i : Slot) (s : State) : Prop where
  backing : ∀ k, s.backing i k = 0
  executable : s.userSlotExecutable i = false
  nx : p.nxEnabled = true → Flag.test (s.pd0 i pdeIndex) PAGE_NX_BIT = true

theorem slotSeal_sealed (p : Platform) (i : Slot) (s : State)
    (hok : (slotSeal p i s).1 = .ok) : Sealed p i (slotSeal p i s).2.2 := by
  revert hok
  unfold slotSeal
  rw [dif_pos i.isLt]
  dsimp only
  split
  · intro hok
    cases hok
  · split
    · split
      · intro hok
        cases hok
      · rename_i hnx
        intro _
        refine ⟨fun k => ?_, ?_, fun hen => ?_⟩
        · simp [zeroBacking]
        · simp [zeroBacking, setExecutable]
        · simpa [hen] using hnx
    · intro hok
      cases hok

theorem Sealed.congr (h : Sealed p i s) (hm : SameMappings s s') : Sealed p i s' := by
  refine ⟨fun k => ?_, ?_, fun hen => ?_⟩
  · rw [hm.backing]
    exact h.backing k
  · rw [hm.executable]
    exact h.executable
  · rw [hm.pd0]
    exact h.nx hen

/-! ## The guard's moves -/

theorem restoreInterrupts_eq (hactive : g.active = false) (hcr3 : g.cr3Restored = true)
    (hpending : g.irqRestorePending = true) :
    restoreInterrupts g s =
      (.ok, { g with ifRestored := true, irqRestorePending := false },
        irqRestore g.previousFlags s) := by
  have hif : Flag.test ((irqRestore g.previousFlags s).rflags ^^^ g.previousFlags)
      RFLAGS_IF_BIT = false := by
    rw [Flag.test_xor]
    have := irqRestore_interruptsEnabled g.previousFlags s
    unfold State.interruptsEnabled at this
    rw [this, Bool.xor_self]
  simp [restoreInterrupts, hactive, hcr3, hpending, hif]

theorem restoreInterrupts_mappings (g : Guard) (s : State) :
    SameMappings s (restoreInterrupts g s).2.2 := by
  have hirq := irqRestore_mappings g.previousFlags s
  unfold restoreInterrupts
  split
  · exact .refl s
  · dsimp only
    split
    · exact hirq
    · exact hirq.trans ⟨rfl, rfl, rfl, rfl, rfl⟩

theorem restoreDeferredIrq_mappings (p : Platform) (g : Guard) (s : State) :
    SameMappings s (restoreDeferredIrq p g s).2.2 := by
  unfold restoreDeferredIrq
  split
  · exact .refl s
  · dsimp only
    split <;> exact ⟨rfl, rfl, rfl, rfl, rfl⟩

theorem restore_mappings : SameMappings s (restore p g s).2.2 := by
  have hcr3 := restoreDeferredIrq_mappings p g s
  unfold restore
  split
  case h_1 g' s' heq =>
    rw [heq] at hcr3
    exact hcr3.trans (restoreInterrupts_mappings g' s')
  case h_2 heq =>
    rw [heq] at hcr3
    exact hcr3

theorem enterSpace_mappings (space : BootstrapSlot) :
    SameMappings s (enterSpace p space s).2.2 := by
  unfold enterSpace
  dsimp only
  split
  · exact ⟨rfl, rfl, rfl, rfl, rfl⟩
  · split
    · refine SameMappings.trans ?_ (restoreInterrupts_mappings _ _)
      exact ⟨rfl, rfl, rfl, rfl, rfl⟩
    · exact ⟨rfl, rfl, rfl, rfl, rfl⟩

section

variable (p : Platform) (space : Option BootstrapSlot) (g : Guard) (s : State)

theorem activate_mappings :
    SameMappings s (activate p space g s).2.2 := by
  unfold activate
  cases space with
  | none => exact .refl s
  | some space =>
    dsimp only
    split
    · exact .refl s
    · split
      · exact .refl s
      · exact enterSpace_mappings space

/-- An activation is refused with nothing changed, or enters the slot of its descriptor. -/
theorem activate_cases :
    (∃ st, st ≠ .ok ∧ activate p space g s = (st, g, s)) ∨
      ∃ sp, space = some sp ∧ sp.slot < ADDRESS_SPACE_BOOTSTRAP_USER_SLOT_COUNT ∧
        g.active = false ∧ g.irqRestorePending = false ∧ activate p space g s = enterSpace p sp s := by
  cases space with
  | none => exact .inl ⟨.errInval, AiosStatus.noConfusion, rfl⟩
  | some sp =>
    unfold activate
    dsimp only
    split
    · exact .inl ⟨.errInval, AiosStatus.noConfusion, rfl⟩
    · rename_i hspace
      split
      · exact .inl ⟨.errBusy, AiosStatus.noConfusion, rfl⟩
      · rename_i hfree
        simp only [Bool.or_eq_true, not_or, Bool.not_eq_true] at hfree
        have hlt : sp.slot < ADDRESS_SPACE_BOOTSTRAP_USER_SLOT_COUNT := by
          by_contra hge
          exact hspace (by rw [spaceSlot, dif_neg hge]; rfl)
        exact .inr ⟨sp, rfl, hlt, hfree.1.1, hfree.1.2, rfl⟩

end

/-- Entering a slot from home ends inside it, with success or with a rollback that did not
take, or back at home. -/
theorem enterSpace_tracks {space : BootstrapSlot} (h : Tracks home g s .idle)
    (hslot : space.slot < ADDRESS_SPACE_BOOTSTRAP_USER_SLOT_COUNT) :
    let r := enterSpace p space s
    Tracks home r.2.1 r.2.2 (.resident space.slot) ∨
      r.1 = .errIo ∧ Tracks home r.2.1 r.2.2 .idle := by
  obtain ⟨-, -, -, hcr3, hirq⟩ := h
  unfold enterSpace
  dsimp only [irqSaveDisable]
  split
  · exact .inl ⟨hslot, rfl, rfl, rfl, hcr3, hirq, irqDisable_interruptsEnabled⟩
  · split
    · rename_i hback
      rw [restoreInterrupts_eq rfl hback rfl]
      refine .inr ⟨rfl, ?_, rfl, rfl, ?_, ?_⟩
      · exact irqRestore_activeSlot _ _
      · rw [irqRestore_cr3]
        exact (eq_of_beq hback).trans hcr3
      · rw [irqRestore_interruptsEnabled]
        exact hirq
    · exact .inl ⟨hslot, rfl, rfl, rfl, hcr3, hirq, irqDisable_interruptsEnabled⟩

theorem restoreDeferredIrq_refused (h : g.active = false) :
    restoreDeferredIrq p g s = (.errInval, g, s) := by
  unfold restoreDeferredIrq
  rw [h]
  rfl

theorem restoreDeferredIrq_tracks {i : Nat} (h : Tracks home g s (.resident i)) :
    let r := restoreDeferredIrq p g s
    r.1 = .ok ∧ Tracks home r.2.1 r.2.2 .deferred ∨
      r.1 = .errIo ∧ Tracks home r.2.1 r.2.2 (.resident i) := by
  obtain ⟨hi, hactive, hg, hslot, hcr3, hflags, hirq⟩ := h
  unfold restoreDeferredIrq
  rw [if_neg (by simp [hg, hslot, hactive])]
  dsimp only
  split
  · rename_i hback
    exact .inl ⟨rfl, rfl, rfl, rfl, hback, (eq_of_beq hback).trans hcr3, hflags, hirq⟩
  · exact .inr ⟨rfl, hi, hactive, hg, hslot, hcr3, hflags, hirq⟩

theorem restoreInterrupts_tracks (h : Tracks home g s .deferred) :
    let r := restoreInterrupts g s
    r.1 = .ok ∧ Tracks home r.2.1 r.2.2 .idle := by
  obtain ⟨hnone, hactive, hpending, hback, hcr3, hflags, -⟩ := h
  rw [restoreInterrupts_eq hactive hback hpending]
  refine ⟨rfl, ?_, hactive, rfl, ?_, ?_⟩
  · rw [irqRestore_activeSlot, hnone]
  · rw [irqRestore_cr3, hcr3]
  · rw [irqRestore_interruptsEnabled, hflags]

theorem restore_tracks {i : Nat} (h : Tracks home g s (.resident i)) :
    let r := restore p g s
    r.1 = .ok ∧ Tracks home r.2.1 r.2.2 .idle ∨
      r.1 = .errIo ∧ Tracks home r.2.1 r.2.2 (.resident i) := by
  have hleave := restoreDeferredIrq_tracks (p := p) h
  unfold restore
  split
  case h_1 heq =>
    rw [heq] at hleave
    rcases hleave with ⟨-, hdeferred⟩ | ⟨hio, -⟩
    · exact .inl (restoreInterrupts_tracks hdeferred)
    · cases hio
  case h_2 hne heq =>
    rw [heq] at hleave
    rcases hleave with ⟨hok, -⟩ | hstay
    · exact absurd hok hne
    · exact .inr hstay

/-! ## A CR3 that takes its writes -/

section TakesWrites

variable {home : Home} {p : Platform} (hw : ∀ n v, p.cr3After n v = v)
include hw

theorem switchCr3Record_takes (v : BitVec 64) : (switchCr3Record p s v).cr3 = v := hw _ _

variable {s : State} {g : Guard}

variable {space : BootstrapSlot} {i : Slot}

theorem enterSpace_takes (hslot : space.slot = i) (hcr3 : s.cr3 = home.cr3)
    (hirq : s.interruptsEnabled = home.irq) :
    let r := enterSpace p space s
    r.1 = .ok ∧ Tracks home r.2.1 r.2.2 (.resident i) ∧ r.2.2.cr3 = space.cr3 := by
  unfold enterSpace
  dsimp only [irqSaveDisable]
  rw [if_pos (switchCr3Record_takes hw _)]
  exact ⟨rfl, ⟨i.isLt, hslot, rfl, hslot, hcr3, hirq, irqDisable_interruptsEnabled⟩, hw _ _⟩

theorem activate_takes {st : AiosStatus} (hslot : space.slot = i)
    (h : activate p (some space) Guard.zero s = (st, g, s')) :
    st ≠ .ok ∧ s' = s ∨ st = .ok ∧ Tracks s.home g s' (.resident i) ∧ s'.cr3 = space.cr3 := by
  rcases activate_cases p (some space) Guard.zero s with ⟨st', hst, heq⟩ | ⟨sp, hsp, -, -, -, heq⟩
  · rw [heq] at h
    cases h
    exact .inl ⟨hst, rfl⟩
  · cases hsp
    have hcr3 : s.cr3 = s.home.cr3 := rfl
    have henter := enterSpace_takes hw hslot hcr3 rfl
    rw [← heq, h] at henter
    exact .inr henter

theorem restoreDeferredIrq_takes {i : Nat} (h : Tracks home g s (.resident i)) :
    let r := restoreDeferredIrq p g s
    r.1 = .ok ∧ Tracks home r.2.1 r.2.2 .deferred := by
  rcases restoreDeferredIrq_tracks h with hout | ⟨hio, -⟩
  · exact hout
  · obtain ⟨-, hactive, hg, hslot, -⟩ := h
    unfold restoreDeferredIrq at hio
    simp [hg, hslot, hactive, hw] at hio

theorem restore_takes {i : Nat} (h : Tracks home g s (.resident i)) :
    let r := restore p g s
    r.1 = .ok ∧ Tracks home r.2.1 r.2.2 .idle := by
  obtain ⟨hok, hdeferred⟩ := restoreDeferredIrq_takes hw h
  unfold restore
  split
  case h_1 heq =>
    rw [heq] at hdeferred
    exact restoreInterrupts_tracks hdeferred
  case h_2 hne heq =>
    rw [heq] at hok
    exact absurd hok hne

end TakesWrites

end AiosKernel.AddressSpace
