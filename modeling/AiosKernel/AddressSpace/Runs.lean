/-
# `AiosKernel.AddressSpace.Runs` — one guard through any sequence of calls

A run is any sequence of the six calls with one guard, between which other code
may write the backing pages but neither CR3 nor the interrupt flag.  Every call
makes a move of the guard's phases, so that a whole run follows them.  The moves
are the specification: there is one way from home into a slot and one way back,
and only a successful restore of the interrupts completes it.
-/
import AiosKernel.AddressSpace.Residency

namespace AiosKernel.AddressSpace

/-! ## Runs -/

/-- The calls of the file, with whatever arguments the caller passes. -/
inductive Call where
  | slotPrepare (slot : Nat) (executable : Bool) (out : Option BootstrapSlot)
  | activate (space : Option BootstrapSlot)
  | restoreDeferredIrq
  | restoreInterrupts
  | restore
  | slotSeal (slot : Nat)

/-- The file's state and the caller's guard. -/
structure Sys where
  guard : Guard
  state : State

/-- One call: its status, and the guard and state it leaves. -/
def exec (p : Platform) (c : Call) (t : Sys) : AiosStatus × Sys :=
  match c with
  | .slotPrepare slot executable out =>
    let r := AddressSpace.slotPrepare p slot executable out t.state
    (r.1, ⟨t.guard, r.2.2⟩)
  | .activate space =>
    let r := AddressSpace.activate p space t.guard t.state
    (r.1, ⟨r.2.1, r.2.2⟩)
  | .restoreDeferredIrq =>
    let r := AddressSpace.restoreDeferredIrq p t.guard t.state
    (r.1, ⟨r.2.1, r.2.2⟩)
  | .restoreInterrupts =>
    let r := AddressSpace.restoreInterrupts t.guard t.state
    (r.1, ⟨r.2.1, r.2.2⟩)
  | .restore =>
    let r := AddressSpace.restore p t.guard t.state
    (r.1, ⟨r.2.1, r.2.2⟩)
  | .slotSeal slot =>
    let r := AddressSpace.slotSeal p slot t.state
    (r.1, ⟨t.guard, r.2.2⟩)

/-- The calls that give the interrupts back when they succeed. -/
def Call.restoresInterrupts : Call → Bool
  | .restoreInterrupts | .restore => true
  | _ => false

/-- A run from one system to another, with the calls made and their statuses. -/
inductive Run (p : Platform) (t₀ : Sys) : List (Call × AiosStatus) → Sys → Prop
  | start : Run p t₀ [] t₀
  | call {tr : List (Call × AiosStatus)} {t : Sys} (c : Call) :
      Run p t₀ tr t → Run p t₀ (tr ++ [(c, (exec p c t).1)]) (exec p c t).2
  | store {tr : List (Call × AiosStatus)} {t : Sys} (backing : Slot → Backing) :
      Run p t₀ tr t → Run p t₀ tr ⟨t.guard, { t.state with backing := backing }⟩

/-! ## The moves of a call -/

/-- The moves a call with a given status may make. -/
inductive Phase.Move : Call → AiosStatus → Phase → Phase → Prop
  | slotPrepare (slot : Nat) (executable : Bool) (out : Option BootstrapSlot) (st : AiosStatus)
      (φ : Phase) : Move (.slotPrepare slot executable out) st φ φ
  | slotSeal (slot : Nat) (st : AiosStatus) (φ : Phase) : Move (.slotSeal slot) st φ φ
  | refuse (c : Call) {st : AiosStatus} (φ : Phase) (h : st ≠ .ok) : Move c st φ φ
  | enter (space : Option BootstrapSlot) (st : AiosStatus) (i : Nat) :
      Move (.activate space) st .idle (.resident i)
  | leave (i : Nat) : Move .restoreDeferredIrq .ok (.resident i) .deferred
  | release : Move .restoreInterrupts .ok .deferred .idle
  | restore (i : Nat) : Move .restore .ok (.resident i) .idle

variable {φ : Phase} {c : Call}

theorem Phase.Move.idle_of {st : AiosStatus} (h : Phase.Move c st φ .idle) (hne : φ ≠ .idle) :
    c.restoresInterrupts = true ∧ st = .ok := by
  cases h with
  | slotPrepare | slotSeal | refuse => exact absurd rfl hne
  | release | restore i => exact ⟨rfl, rfl⟩

theorem Phase.Move.restored {φ ψ : Phase} (h : Phase.Move c .ok φ ψ)
    (hc : c.restoresInterrupts = true) : ψ = .idle := by
  cases h with
  | slotPrepare | slotSeal | enter | leave => cases hc
  | refuse _ _ hne => exact absurd rfl hne
  | release => rfl
  | restore i => rfl

/-- A call makes a move from the phase `φ` and leaves a system in the phase it moves to. -/
def Moves (home : Home) (p : Platform) (c : Call) (t : Sys) (φ : Phase) : Prop :=
  ∃ ψ, Phase.Move c (exec p c t).1 φ ψ ∧
    Tracks home (exec p c t).2.guard (exec p c t).2.state ψ

section Moves

variable {home : Home} {p : Platform} {c : Call} {t : Sys} {φ : Phase}

theorem Moves.failed (hst : (exec p c t).1 ≠ .ok)
    (h : Tracks home (exec p c t).2.guard (exec p c t).2.state φ) : Moves home p c t φ :=
  ⟨φ, .refuse c φ hst, h⟩

variable {st : AiosStatus}

theorem Moves.refused (h : Tracks home t.guard t.state φ) (hst : st ≠ .ok)
    (heq : exec p c t = (st, t)) : Moves home p c t φ := by
  refine .failed ?_ ?_
  · rw [heq]
    exact hst
  · rw [heq]
    exact h

theorem Moves.succeeded {ψ : Phase} (hst : (exec p c t).1 = .ok) (hmove : Phase.Move c .ok φ ψ)
    (h : Tracks home (exec p c t).2.guard (exec p c t).2.state ψ) : Moves home p c t φ := by
  refine ⟨ψ, ?_, h⟩
  rw [hst]
  exact hmove

theorem errInval_ne_ok : AiosStatus.errInval ≠ .ok := AiosStatus.noConfusion

theorem errIo_ne_ok (h : st = .errIo) : st ≠ .ok := by
  rw [h]
  exact AiosStatus.noConfusion

section

variable (h : Tracks home t.guard t.state φ)
include h

theorem activate_moves (space : Option BootstrapSlot) : Moves home p (.activate space) t φ := by
  have hexec : exec p (.activate space) t =
      ((AddressSpace.activate p space t.guard t.state).1,
        ⟨(AddressSpace.activate p space t.guard t.state).2.1,
          (AddressSpace.activate p space t.guard t.state).2.2⟩) := rfl
  rcases activate_cases p space t.guard t.state with
    ⟨st, hst, heq⟩ | ⟨sp, rfl, hslot, hactive, hpending, heq⟩
  · rw [heq] at hexec
    exact .refused h hst hexec
  · cases h.eq_idle hactive hpending
    rw [heq] at hexec
    unfold Moves
    rw [hexec]
    rcases enterSpace_tracks h hslot with hin | ⟨hio, hback⟩
    · exact ⟨_, .enter _ _ _, hin⟩
    · exact ⟨_, .refuse _ _ (errIo_ne_ok hio), hback⟩

theorem restoreDeferredIrq_moves : Moves home p .restoreDeferredIrq t φ := by
  by_cases hφ : ∃ i, φ = .resident i
  · obtain ⟨i, rfl⟩ := hφ
    rcases restoreDeferredIrq_tracks h with ⟨hok, hout⟩ | ⟨hio, hin⟩
    · exact .succeeded hok (.leave i) hout
    · exact .failed (errIo_ne_ok hio) hin
  · have hactive : t.guard.active = false := h.inactive (not_exists.mp hφ)
    refine .refused h errInval_ne_ok ?_
    unfold exec
    rw [restoreDeferredIrq_refused hactive]

theorem restoreInterrupts_moves : Moves home p .restoreInterrupts t φ := by
  have hrefused (hg : t.guard.active = true ∨ t.guard.irqRestorePending = false) :
      Moves home p .restoreInterrupts t φ := by
    refine .refused h errInval_ne_ok ?_
    unfold exec restoreInterrupts
    rw [if_pos (by rcases hg with hg | hg <;> simp [hg])]
  cases φ with
  | idle => exact hrefused (.inr h.2.2.1)
  | resident i => exact hrefused (.inl h.2.2.1)
  | deferred =>
    obtain ⟨hok, hhome⟩ := restoreInterrupts_tracks h
    exact .succeeded hok .release hhome

theorem restore_moves : Moves home p .restore t φ := by
  by_cases hφ : ∃ i, φ = .resident i
  · obtain ⟨i, rfl⟩ := hφ
    rcases restore_tracks h with ⟨hok, hhome⟩ | ⟨hio, hin⟩
    · exact .succeeded hok (.restore i) hhome
    · exact .failed (errIo_ne_ok hio) hin
  · have hactive : t.guard.active = false := h.inactive (not_exists.mp hφ)
    refine .refused h errInval_ne_ok ?_
    unfold exec AddressSpace.restore
    rw [restoreDeferredIrq_refused hactive]

/-- **Every call makes a move of the phases.** -/
theorem exec_moves (c : Call) : Moves home p c t φ := by
  cases c with
  | slotPrepare slot executable out =>
    exact ⟨φ, .slotPrepare slot executable out _ φ, h.congr (slotPrepare_cpu p _ _ _ _)⟩
  | slotSeal slot => exact ⟨φ, .slotSeal slot _ φ, h.congr (slotSeal_cpu p slot _)⟩
  | activate space => exact activate_moves h space
  | restoreDeferredIrq => exact restoreDeferredIrq_moves h
  | restoreInterrupts => exact restoreInterrupts_moves h
  | restore => exact restore_moves h

end

end Moves

/-- While a slot is lent out no call touches the mappings of any slot. -/
theorem exec_mappings (p : Platform) (c : Call) {t : Sys}
    (h : t.state.activeSlot ≠ ADDRESS_SPACE_NO_SLOT) :
    SameMappings t.state (exec p c t).2.state := by
  cases c with
  | slotPrepare slot executable out =>
    have hsame : (slotPrepare p slot executable out t.state).2.2 = t.state := by
      unfold slotPrepare
      repeat' split
      all_goals rfl
    show SameMappings _ (AddressSpace.slotPrepare p slot executable out t.state).2.2
    rw [hsame]
    exact .refl _
  | slotSeal slot =>
    have hsame : (slotSeal p slot t.state).2.2 = t.state := by
      unfold slotSeal
      split <;> rfl
    show SameMappings _ (AddressSpace.slotSeal p slot t.state).2.2
    rw [hsame]
    exact .refl _
  | activate space => exact activate_mappings p space _ _
  | restoreDeferredIrq => exact restoreDeferredIrq_mappings p _ _
  | restoreInterrupts => exact restoreInterrupts_mappings _ _
  | restore => exact restore_mappings

/-! ## Whole runs -/

variable {home : Home} {p : Platform} {t₀ t : Sys} {tr : List (Call × AiosStatus)}

variable {φ₀ : Phase} {g : Guard} {s : State}

theorem Run.tracks (h₀ : Tracks home t₀.guard t₀.state φ₀) (h : Run p t₀ tr t) :
    ∃ φ, Tracks home t.guard t.state φ := by
  induction h with
  | start => exact ⟨φ₀, h₀⟩
  | call c _ ih =>
    obtain ⟨φ, hφ⟩ := ih
    obtain ⟨ψ, -, hψ⟩ := exec_moves hφ c
    exact ⟨ψ, hψ⟩
  | store backing _ ih =>
    obtain ⟨φ, hφ⟩ := ih
    exact ⟨φ, hφ.congr ⟨rfl, rfl, rfl⟩⟩

theorem Run.away (h₀ : Tracks home t₀.guard t₀.state φ₀) (hne : φ₀ ≠ .idle) (h : Run p t₀ tr t)
    (htr : ∀ e ∈ tr, ¬(e.1.restoresInterrupts = true ∧ e.2 = .ok)) :
    ∃ φ, Tracks home t.guard t.state φ ∧ φ ≠ .idle := by
  induction h with
  | start => exact ⟨φ₀, h₀, hne⟩
  | call c _ ih =>
    obtain ⟨φ, hφ, haway⟩ := ih fun e he => htr e (List.mem_append_left _ he)
    obtain ⟨ψ, hmove, hψ⟩ := exec_moves hφ c
    refine ⟨ψ, hψ, ?_⟩
    rintro rfl
    exact htr _ (List.mem_append_right _ (List.mem_singleton.mpr rfl)) (hmove.idle_of haway)
  | store backing _ ih =>
    obtain ⟨φ, hφ, haway⟩ := ih htr
    exact ⟨φ, hφ.congr ⟨rfl, rfl, rfl⟩, haway⟩

theorem Tracks.interrupts_off (h : Tracks home g s φ) (hne : φ ≠ .idle) :
    s.interruptsEnabled = false := by
  cases φ with
  | idle => exact absurd rfl hne
  | resident i | deferred => exact h.2.2.2.2.2.2

theorem Tracks.resident_of_cr3 (h : Tracks home g s φ) (hcr3 : s.cr3 ≠ home.cr3) :
    ∃ i, φ = .resident i := by
  cases φ with
  | idle => exact absurd h.2.2.2.1 hcr3
  | resident i => exact ⟨i, rfl⟩
  | deferred => exact absurd h.2.2.2.2.1 hcr3

/-- An activation that succeeds, or fails and still leaves the guard active, starts at home and
ends away from it. -/
theorem activate_leaves_home (h : Tracks home t.guard t.state φ) {space : Option BootstrapSlot}
    (hact : (exec p (.activate space) t).1 = .ok ∨ t.guard.active = false ∧ (exec p (.activate
      space) t).2.guard.active = true) :
    t.state.interruptsEnabled = home.irq ∧
      ∃ ψ, Tracks home (exec p (.activate space) t).2.guard
        (exec p (.activate space) t).2.state ψ ∧ ψ ≠ .idle := by
  obtain ⟨ψ, hmove, hψ⟩ := exec_moves h (.activate space)
  have hboth : φ = .idle ∧ ψ ≠ .idle := by
    rcases hact with hok | ⟨hbefore, hafter⟩
    · rw [hok] at hmove
      cases hmove with
      | refuse _ _ hne => exact absurd rfl hne
      | enter _ _ i => exact ⟨rfl, Phase.noConfusion⟩
    · cases ψ with
      | idle | deferred => exact absurd (hψ.2.1.symm.trans hafter) Bool.noConfusion
      | resident i =>
        cases hmove with
        | refuse => exact absurd (hbefore.symm.trans h.2.2.1) Bool.noConfusion
        | enter => exact ⟨rfl, Phase.noConfusion⟩
  obtain ⟨rfl, hne⟩ := hboth
  exact ⟨h.2.2.2.2, ψ, hψ, hne⟩

/-- What holds of every system `t` that a run from the boot state `s₀` reaches. -/
structure ResidencySound (p : Platform) (s₀ : State) (t : Sys) : Prop where
  /-- A slot is lent out exactly while the guard is active. -/
  lent_iff : t.state.activeSlot < ADDRESS_SPACE_BOOTSTRAP_USER_SLOT_COUNT ↔ t.guard.active = true
  /-- It is the guard's slot. -/
  lent_slot : t.guard.active = true → t.state.activeSlot = t.guard.activeSlot
  /-- While one is, no call touches the mappings of any slot. -/
  mappings : t.state.activeSlot ≠ ADDRESS_SPACE_NO_SLOT →
    ∀ c, SameMappings t.state (exec p c t).2.state
  /-- Without an active guard CR3 is the one of boot. -/
  boot_cr3 : t.guard.active = false → t.state.cr3 = s₀.cr3
  /-- From an activation until an interrupt restore succeeds the interrupts are off, and the
  restore makes the flag what it was before the activation. -/
  interrupts : ∀ space,
    (exec p (.activate space) t).1 = .ok ∨
      t.guard.active = false ∧ (exec p (.activate space) t).2.guard.active = true →
    ∀ tr' t', Run p (exec p (.activate space) t).2 tr' t' →
      (∀ e ∈ tr', ¬(e.1.restoresInterrupts = true ∧ e.2 = .ok)) →
      t'.state.interruptsEnabled = false ∧
        ∀ c, c.restoresInterrupts = true → (exec p c t').1 = .ok →
          (exec p c t').2.state.interruptsEnabled = t.state.interruptsEnabled
  /-- A call that leaves CR3 off its boot value leaves the guard active and the interrupts off. -/
  rollback : ∀ c, (exec p c t).2.state.cr3 ≠ s₀.cr3 →
    (exec p c t).2.guard.active = true ∧ (exec p c t).2.state.interruptsEnabled = false
  /-- A slot that was sealed is scrubbed. -/
  scrubbed : ∀ i : Slot, (exec p (.slotSeal i) t).1 = .ok →
    Sealed p i (exec p (.slotSeal i) t).2.state

/-- **Every sequence of calls with one zeroed guard keeps slot, guard, CR3 and interrupt flag
together**, whatever each write to CR3 leaves in the register. -/
theorem guard_runs_sound (p : Platform) (s₀ : State)
    (hfree : s₀.activeSlot = ADDRESS_SPACE_NO_SLOT) (tr : List (Call × AiosStatus)) (t : Sys)
    (hrun : Run p ⟨Guard.zero, s₀⟩ tr t) : ResidencySound p s₀ t := by
  have hstart : Tracks s₀.home Guard.zero s₀ .idle := ⟨hfree, rfl, rfl, rfl, rfl⟩
  obtain ⟨φ, h⟩ := hrun.tracks hstart
  constructor
  case lent_iff =>
    cases φ with
    | idle | deferred =>
      rw [h.1, h.2.1]
      decide
    | resident i =>
      rw [h.2.1, h.2.2.1]
      exact iff_of_true h.1 rfl
  case lent_slot =>
    intro hactive
    cases φ with
    | idle | deferred => exact absurd (h.2.1.symm.trans hactive) Bool.noConfusion
    | resident i => rw [h.2.1, h.2.2.2.1]
  case mappings => exact fun hlent c => exec_mappings p c hlent
  case boot_cr3 =>
    intro hactive
    by_contra hcr3
    obtain ⟨i, rfl⟩ := h.resident_of_cr3 hcr3
    exact absurd (hactive.symm.trans h.2.2.1) Bool.noConfusion
  case interrupts =>
    intro space hact tr' t' hrun' htr'
    obtain ⟨hbefore, ψ, hψ, hne⟩ := activate_leaves_home h hact
    obtain ⟨χ, hχ, haway⟩ := hrun'.away hψ hne htr'
    refine ⟨hχ.interrupts_off haway, fun c hc hok => ?_⟩
    obtain ⟨ω, hmove, hω⟩ := exec_moves hχ c
    rw [hok] at hmove
    cases hmove.restored hc
    rw [hbefore]
    exact hω.2.2.2.2
  case rollback =>
    intro c hcr3
    obtain ⟨ψ, -, hψ⟩ := exec_moves h c
    obtain ⟨i, rfl⟩ := hψ.resident_of_cr3 hcr3
    exact ⟨hψ.2.2.1, hψ.2.2.2.2.2.2⟩
  case scrubbed => exact fun i hok => slotSeal_sealed p i t.state hok

/-! ## An image whose CR3 takes its writes -/

/-- Page tables and backing pages of two slots, one after the other from 2 MiB on. -/
def imagePlatform : Platform where
  userPml4 i := 0x200000 + 0x1000 * BitVec.ofNat 64 i
  userPdpt i := 0x202000 + 0x1000 * BitVec.ofNat 64 i
  userPd0 i := 0x204000 + 0x1000 * BitVec.ofNat 64 i
  userBacking i := 0x400000 + HUGE_PAGE_SIZE * BitVec.ofNat 64 i
  p4Table _ := 0
  p3Table _ := 0
  p2Table0 _ := 0
  nxEnabled := true
  cr3After _ value := value

/-- Boot with the interrupts on and nothing built yet. -/
def imageBoot : State where
  cr3 := 0x1000
  rflags := 0x202
  cr3Writes := 0
  pml4 _ _ := 0
  pdpt _ _ := 0
  pd0 _ _ := 0
  backing _ _ := 0
  userSpacesReady := false
  userSlotExecutable _ := false
  activeSlot := ADDRESS_SPACE_NO_SLOT
  stats := ⟨0, 0, 0⟩

/-- The descriptor that preparing slot 1 fills in. -/
def imageSpace : BootstrapSlot :=
  ⟨1, 0x201000, AIOS_BOOTSTRAP_USER_BASE, AIOS_BOOTSTRAP_USER_SIZE, 0x600000, true, true⟩

def imagePrepared : AiosStatus × Sys :=
  exec imagePlatform (.slotPrepare 1 true (some imageSpace)) ⟨Guard.zero, imageBoot⟩

/-- The image inside slot 1. -/
def imageEntered : AiosStatus × Sys :=
  exec imagePlatform (.activate (some imageSpace)) imagePrepared.2

theorem guard_runs_sound_entered :
    imageEntered.1 = .ok ∧ imageEntered.2.guard.active = true ∧
      imageEntered.2.state.cr3 ≠ imageBoot.cr3 ∧
      ResidencySound imagePlatform imageBoot imageEntered.2 :=
  ⟨by decide +kernel, by decide +kernel, by decide +kernel,
    guard_runs_sound imagePlatform imageBoot rfl _ _ (.call _ (.call _ .start))⟩

end AiosKernel.AddressSpace
