/-
# `AiosKernel.Process.Runs` — the journal over whole runs

A run starts after a successful `bootstrap_process_init` and makes any calls in
any order, with any guards, up to an activation or finish that fails after it
has published an owner.  Between calls other code may run: user code on the
process's own stack and run state, the hardware under the registers.  The run
lists its activations, and the journal consists of one group of events for each
of them, of which only the last may be open.
-/
import AiosKernel.Process.Calls
import AiosKernel.AddressSpace.Runs

namespace AiosKernel.Process

open List

open AddressSpace (Slot)

/-! ## Runs -/

/-- The calls of the file.  A guard is whatever the caller's memory holds. -/
inductive Call where
  | prepare (slot : Nat) (executable : Bool)
  | cancel (i : Slot)
  | activate (i : Slot) (guard : ProcessGuard)
  | captureCurrentTrap (frame : Option (BitVec 64 × InterruptFrame))
  | finish (i : Slot) (guard : ProcessGuard)

/-- One call: its status and the state it leaves. -/
def exec (p : Platform) (c : Call) (s : State) : AiosStatus × State :=
  match c with
  | .prepare slot executable =>
    let r := Process.prepare p slot executable s
    (r.1, r.2.2)
  | .cancel i => Process.cancel p i s
  | .activate i guard =>
    let r := Process.activate p i guard s
    (r.1, r.2.2)
  | .captureCurrentTrap frame => Process.captureCurrentTrap p frame s
  | .finish i guard =>
    let r := Process.finish p i guard s
    (r.1, r.2.2)

/-- An activation or a finish that fails after it has published a new owner. -/
def FailStop (p : Platform) (c : Call) (s : State) : Prop :=
  match c with
  | .activate _ _ | .finish _ _ =>
    (exec p c s).1 ≠ .ok ∧ (exec p c s).2.current ≠ s.current
  | .prepare _ _ | .cancel _ | .captureCurrentTrap _ => False

/-- The slot and run generation a call activates, if it does. -/
def activated (p : Platform) (c : Call) (s : State) : List (Nat × Nat) :=
  match c with
  | .activate i _ =>
    if (exec p c s).1 = .ok then [(i.val, (s.processes i).runGeneration)] else []
  | _ => []

/-- The state after other code has run: user code on the stacks and run states, and whatever
moves the registers and the state of the two files below. -/
def otherCode (s : State) (runs : Slot → RunState) (floors : Slot → BitVec 64)
    (mm : AddressSpace.State) (um : UserMode.State) : State :=
  { s with
    processes := fun i => { s.processes i with runState := runs i }
    stackFloor := floors
    mm := mm
    um := um }

inductive Run (p : Platform) (s₀ : State) : List (Nat × Nat) → State → Prop
  | start : Run p s₀ [] s₀
  | call {acts : List (Nat × Nat)} {s : State} (c : Call) :
      Run p s₀ acts s → ¬FailStop p c s → Run p s₀ (acts ++ activated p c s) (exec p c s).2
  | other {acts : List (Nat × Nat)} {s : State} (runs : Slot → RunState)
      (floors : Slot → BitVec 64) (mm : AddressSpace.State) (um : UserMode.State) :
      Run p s₀ acts s → Run p s₀ acts (otherCode s runs floors mm um)

/-! ## The groups of a run -/

theorem otherCode_quiet (s : State) (runs : Slot → RunState) (floors : Slot → BitVec 64)
    (mm : AddressSpace.State) (um : UserMode.State) : Quiet s (otherCode s runs floors mm um) :=
  ⟨fun _ => ⟨rfl, rfl⟩, rfl, rfl, rfl, rfl, rfl, rfl, rfl⟩

theorem not_failStop {st : AiosStatus} {current current' : Option Slot}
    (h : ¬(st ≠ .ok ∧ current' ≠ current)) : st = .ok ∨ current' = current := by
  by_cases hst : st = .ok
  · exact .inl hst
  · exact .inr (not_not.mp fun hne => h ⟨hst, hne⟩)

variable {p : Platform} {s : State} {groups : List Group}

/-- **Every call extends the list of activations by its own and moves the groups with it.** -/
theorem exec_advance (h : Inv p s groups) (c : Call) (hstop : ¬FailStop p c s) :
    ∃ groups', groups'.map Group.key = groups.map Group.key ++ activated p c s ∧
      Advance p s (exec p c s).2 groups' := by
  cases c with
  | prepare slot executable =>
    exact ⟨groups, (append_nil _).symm, prepare_advance h slot executable⟩
  | cancel i => exact ⟨groups, (append_nil _).symm, cancel_advance h i⟩
  | captureCurrentTrap frame =>
    obtain ⟨groups', hkey, hadv⟩ := captureCurrentTrap_advance h frame
    exact ⟨groups', hkey.trans (append_nil _).symm, hadv⟩
  | finish i guard =>
    obtain ⟨groups', hkey, hadv⟩ := finish_advance h i guard (not_failStop hstop)
    exact ⟨groups', hkey.trans (append_nil _).symm, hadv⟩
  | activate i guard =>
    rcases activate_advance h i guard (not_failStop hstop) with ⟨hst, hadv⟩ | ⟨hst, hadv⟩
    · refine ⟨_, ?_, hadv⟩
      rw [show activated p (.activate i guard) s = [(i.val, (s.processes i).runGeneration)] from
        if_pos hst, map_append]
      rfl
    · refine ⟨groups, ?_, hadv⟩
      rw [show activated p (.activate i guard) s = [] from if_neg hst, append_nil]

theorem Run.advance {s₀ s : State} {acts : List (Nat × Nat)} {groups₀ : List Group}
    (h₀ : Inv p s₀ groups₀) (h : Run p s₀ acts s) :
    ∃ groups, groups.map Group.key = groups₀.map Group.key ++ acts ∧ Advance p s₀ s groups := by
  induction h with
  | start => exact ⟨groups₀, (append_nil _).symm, .quiet h₀ (.refl s₀)⟩
  | call c _ hstop ih =>
    obtain ⟨groups, hkey, hadv⟩ := ih
    obtain ⟨groups', hkey', hadv'⟩ := exec_advance hadv.inv c hstop
    refine ⟨groups', ?_, hadv.trans hadv'⟩
    rw [hkey', hkey, append_assoc]
  | other runs floors mm um _ ih =>
    obtain ⟨groups, hkey, hadv⟩ := ih
    exact ⟨groups, hkey, hadv.then_quiet (otherCode_quiet _ runs floors mm um)⟩

/-! ## Reading the journal -/

theorem JournalInv.sequences (h : JournalInv p s groups) :
    s.journal.map (·.eventSequence) = (List.range s.eventCount).map (· + 1) := by
  unfold State.journal
  rw [map_map]
  refine map_congr_left fun k hk => ?_
  exact (h.committed k (mem_range.mp hk)).sequence

theorem JournalInv.getEvent (h : JournalInv p s groups) (hnone : s.current = none) {k : Nat}
    (hk : k < s.eventCount) : Process.getEvent p k s = (.ok, some (s.events k)) := by
  obtain ⟨hvalid, hseq, i, hslot, hfields⟩ := h.committed k hk
  have hlt : (s.events k).slot < AddressSpace.ADDRESS_SPACE_BOOTSTRAP_USER_SLOT_COUNT := by
    rw [hslot]
    exact i.isLt
  have hi : (⟨(s.events k).slot, hlt⟩ : Slot) = i := Fin.ext hslot
  unfold Process.getEvent
  rw [if_neg (by simp [h.initialized, hk]), if_neg (by simp [hnone])]
  rw [dif_pos hlt, hi, if_pos (by simp [hvalid, hseq, hfields])]

/-- What holds of the journal in every state `s` of a run with the activations `acts`. -/
structure JournalSound (p : Platform) (acts : List (Nat × Nat)) (s : State) : Prop where
  /-- It is one group per activation, all closed but that of the current process. -/
  grouped : ∃ groups, groups.map Group.key = acts ∧
    s.journal.map tag = groups.flatMap Group.tags ∧ OneOpen s groups
  /-- Its events are numbered from 1 on. -/
  numbered : s.journal.map (·.eventSequence) = (List.range s.journal.length).map (· + 1)
  /-- A run from here on leaves its events where and as they are. -/
  appendOnly : ∀ acts' s', Run p s acts' s' → s.journal <+: s'.journal
  /-- With no process current, reading gives every event as it was committed, and nothing
  else. -/
  readable : s.current = none → s.journal.length = s.eventCount ∧
    ∀ k e, s.journal[k]? = some e → Process.getEvent p k s = (.ok, some e)

/-- **The event journal is a sequence of well-formed activations in every run**, it only grows,
and every event in it stays readable. -/
theorem journal_runs_sound (p : Platform) (s₀ s₁ : State) (hcold : s₀.initialized = false)
    (hinit : init p s₀ = (.ok, s₁)) (acts : List (Nat × Nat)) (s : State)
    (hrun : Run p s₁ acts s) : JournalSound p acts s := by
  obtain ⟨groups, hkey, hadv⟩ := hrun.advance (init_inv hcold hinit)
  have hlength : s.journal.length = s.eventCount := by
    unfold State.journal
    rw [List.length_map, List.length_range]
  refine ⟨⟨groups, hkey, hadv.inv.journal.tags, hadv.inv.owner.oneOpen⟩, ?_, ?_, ?_⟩
  · rw [hlength]
    exact hadv.inv.journal.sequences
  · intro acts' s' hrun'
    obtain ⟨_, -, hadv'⟩ := hrun'.advance hadv.inv
    exact hadv'.grows
  · intro hnone
    refine ⟨hlength, fun k e hk => ?_⟩
    obtain ⟨hlt, rfl⟩ := List.getElem?_eq_some_iff.mp hk
    rw [hlength] at hlt
    rw [hadv.inv.journal.getEvent hnone hlt]
    simp [State.journal]

/-! ## A run of one process -/

/-- The image of `AddressSpace.imagePlatform` with two kernel stacks, on hardware that takes
every store. -/
def imagePlatform : Platform where
  space := AddressSpace.imagePlatform
  kernelStacks i := 0x10000 + 0x4000 * BitVec.ofNat 64 i
  rsp0After _ value := value

/-- Boot, with the ring-3 scaffold up and nothing initialised. -/
def imageBoot : State where
  processes _ := .zero
  stackFloor _ := 0
  current := none
  stats := .zero
  events _ := .zero
  eventCount := 0
  eventSequence := 0
  eventDropped := 0
  eventOverflow := false
  baselineCr3 := 0
  baselineRsp0 := 0
  trapCaptureSequence := 0
  initialized := false
  mm := AddressSpace.imageBoot
  um := ⟨0x9000, 0, true, 0x9000, false⟩

/-- A user breakpoint on the stack of slot 0. -/
def imageTrap : BitVec 64 × InterruptFrame :=
  (0x10000 + 0x4000 - TRAPFRAME_SIZE, { InterruptFrame.zero with
    intNo := 3
    rip := 0x4000000
    cs := UserMode.AIOS_USER_CS_RPL3
    rflags := 0x40002
    rsp := 0x4001000
    ss := UserMode.AIOS_USER_DS_RPL3 })

def imageInit : State := (init imagePlatform imageBoot).2
def imagePrepared : State := (exec imagePlatform (.prepare 0 true) imageInit).2
def imageActive : State := (exec imagePlatform (.activate 0 .zero) imagePrepared).2

/-- The guard that the activation leaves with its caller. -/
def imageGuard : ProcessGuard := (activate imagePlatform 0 .zero imagePrepared).2.1

def imageTrapped : State := (exec imagePlatform (.captureCurrentTrap imageTrap) imageActive).2
def imageFinished : State := (exec imagePlatform (.finish 0 imageGuard) imageTrapped).2

theorem imageInit_ok : init imagePlatform imageBoot = (.ok, imageInit) := by
  have hst : (init imagePlatform imageBoot).1 = .ok := by decide +kernel
  exact Prod.ext hst rfl

theorem imageFinished_run : Run imagePlatform imageInit [(0, 1)] imageFinished :=
  have h₁ : Run imagePlatform imageInit _ imagePrepared := .call (.prepare 0 true) .start id
  have h₂ : Run imagePlatform imageInit _ imageActive :=
    .call (.activate 0 .zero) h₁ fun h => h.1 (by decide +kernel)
  have h₃ : Run imagePlatform imageInit _ imageTrapped :=
    .call (.captureCurrentTrap imageTrap) h₂ id
  .call (.finish 0 imageGuard) h₃ fun h => h.1 (by decide +kernel)

theorem journal_runs_sound_finished :
    imageFinished.journal.map (·.kind) = [.acquire, .trapCapture, .release] ∧
      imageFinished.current = none ∧ JournalSound imagePlatform [(0, 1)] imageFinished :=
  ⟨by decide +kernel, by decide +kernel,
    journal_runs_sound imagePlatform imageBoot imageInit rfl imageInit_ok _ _ imageFinished_run⟩

end AiosKernel.Process
