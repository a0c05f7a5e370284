/-
# `AiosKernel.Pci` — the configuration space of `kernel/drivers/pci_core.c`

`pci_probe_capabilities`, over an arbitrary content of the configuration space.
A device can link its list into a circle, so the walk counts its turns; 48 are
enough, for there are only 48 places a capability can have.

And `pci_ecam_address`, where the memory-mapped configuration space has a dword.
-/
import AiosKernel.Types
import AiosKernel.Lib.Word
import Mathlib.Data.Finset.Card

namespace AiosKernel.Pci

open Function

/-! ## The configuration space -/

/-- What `pci_config_read32` finds at each offset of one function; only the dwords are read. -/
abbrev Config := UInt8 → UInt32

variable (cfg : Config)

def pciConfigRead32 (offset : UInt8) : UInt32 := cfg (offset &&& 0xFC)

def pciConfigRead8 (offset : UInt8) : UInt8 :=
  (pciConfigRead32 cfg offset >>> ((offset &&& 3) * 8).toUInt32).toUInt8

inductive Capability where
  | pm
  | msi
  | msix
  | pcie
  deriving DecidableEq, Repr

/-- `PCI_CAP_ID_PM` and the other numbers. -/
def Capability.id : Capability → UInt8
  | pm => 0x01
  | msi => 0x05
  | msix => 0x11
  | pcie => 0x10

structure Capabilities where
  hasCapList : Bool := false
  firstCapPtr : UInt8 := 0
  hasPm : Bool := false
  hasMsi : Bool := false
  hasMsix : Bool := false
  hasPcie : Bool := false
  pcieLinkSpeed : UInt8 := 0
  pcieLinkWidth : UInt8 := 0
  deriving DecidableEq, Repr

def Capabilities.has (out : Capabilities) : Capability → Bool
  | .pm => out.hasPm
  | .msi => out.hasMsi
  | .msix => out.hasMsix
  | .pcie => out.hasPcie

/-- What the capability at `p` adds. -/
def noteCap (out : Capabilities) (p : UInt8) : Capabilities :=
  if pciConfigRead8 cfg p = Capability.pm.id then { out with hasPm := true }
  else if pciConfigRead8 cfg p = Capability.msi.id then { out with hasMsi := true }
  else if pciConfigRead8 cfg p = Capability.msix.id then { out with hasMsix := true }
  else if pciConfigRead8 cfg p = Capability.pcie.id then
    let linkStatus := pciConfigRead32 cfg (p + 0x14) >>> 16
    { out with
      hasPcie := true
      pcieLinkSpeed := (linkStatus &&& 0x0F).toUInt8
      pcieLinkWidth := (linkStatus >>> 4 &&& 0x3F).toUInt8 }
  else out

def nextCap (p : UInt8) : UInt8 := pciConfigRead8 cfg (p + 1) &&& 0xFC

/-- The loop of `pci_probe_capabilities`. -/
def capWalk : Nat → UInt8 → Capabilities → Capabilities
  | 0, _, out => out
  | guard + 1, p, out =>
    if 0x40 ≤ p then
      if nextCap cfg p = 0 ∨ nextCap cfg p = p then noteCap cfg out p
      else capWalk guard (nextCap cfg p) (noteCap cfg out p)
    else out

/-- Bit 4 of the status register. -/
def hasCapList : Bool := pciConfigRead32 cfg 0x04 >>> 16 &&& 0x10 != 0

def firstCapPtr : UInt8 := pciConfigRead8 cfg 0x34 &&& 0xFC

/-- `pci_probe_capabilities`; no `out` is a null pointer. -/
def pciProbeCapabilities : Option Capabilities → AiosStatus × Option Capabilities
  | none => (.errInval, none)
  | some _ => (.ok, some (if hasCapList cfg
      then capWalk cfg 48 (firstCapPtr cfg) { hasCapList := true, firstCapPtr := firstCapPtr cfg }
      else {}))

/-! ## The chain -/

/-- From a pointer to the next; a pointer below `0x40` ends the chain, as does one to itself. -/
def follow (p : UInt8) : UInt8 := if 0x40 ≤ p then nextCap cfg p else p

/-- A capability on the chain lies at `p`. -/
def OnChain (p : UInt8) : Prop := 0x40 ≤ p ∧ ∃ n, (follow cfg)^[n] (firstCapPtr cfg) = p

variable {cfg} {p : UInt8} {out : Capabilities} {c : Capability}

theorem noteCap_has : (noteCap cfg out p).has c = true ↔
    out.has c = true ∨ pciConfigRead8 cfg p = c.id := by
  unfold noteCap
  cases c <;> grind [Capabilities.has, Capability.id]

theorem iterate_follow_of_stops (h : ¬0x40 ≤ p ∨ nextCap cfg p = 0 ∨ nextCap cfg p = p) {n : Nat}
    (hn : 0x40 ≤ (follow cfg)^[n] p) : (follow cfg)^[n] p = p := by
  by_cases hfix : follow cfg p = p
  · exact iterate_fixed hfix n
  cases n with
  | zero => rfl
  | succ n =>
    have hp : 0x40 ≤ p := by_contra fun hlow => hfix (if_neg hlow)
    have hzero : follow cfg p = 0 := by
      rw [follow, if_pos hp] at hfix ⊢
      simpa [hp, hfix] using h
    rw [iterate_succ_apply, hzero, iterate_fixed rfl] at hn
    cases hn

theorem capWalk_has (turns : Nat) : (capWalk cfg turns p out).has c = true ↔ out.has c = true ∨
    ∃ n < turns, 0x40 ≤ (follow cfg)^[n] p ∧ pciConfigRead8 cfg ((follow cfg)^[n] p) = c.id := by
  induction turns generalizing p out with
  | zero => simp [capWalk]
  | succ turns ih =>
    rw [capWalk]
    split
    · rename_i hp
      split
      · rename_i hstop
        rw [noteCap_has]
        refine or_congr_right ⟨fun hid => ⟨0, Nat.succ_pos _, hp, hid⟩, ?_⟩
        rintro ⟨n, -, hn, hid⟩
        rwa [iterate_follow_of_stops (.inr hstop) hn] at hid
      · rw [ih, noteCap_has, or_assoc, Nat.exists_lt_succ_left]
        simp [hp, follow]
    · rename_i hp
      refine ⟨.inl, fun h => h.resolve_right ?_⟩
      rintro ⟨n, -, hn, -⟩
      exact hp (iterate_follow_of_stops (.inl hp) hn ▸ hn)

/-! ## The turns suffice -/

/-- What an iteration comes to, it comes to in fewer turns than there are places on the way. -/
theorem exists_iterate_lt_card {α : Type} {f : α → α} {s : Finset α} {a b : α} {n : Nat}
    (hn : f^[n] a = b) (hs : ∀ i ≤ n, f^[i] a ∈ s) : ∃ m < s.card, f^[m] a = b := by
  induction n using Nat.strong_induction_on with
  | _ n ih =>
    by_cases hlt : n < s.card
    · exact ⟨n, hlt, hn⟩
    -- otherwise some place is visited twice, and what lies between the visits can be left out
    obtain ⟨i, hi, j, hj, hne, heq⟩ := Finset.exists_ne_map_eq_of_card_lt_of_maps_to
      (s := Finset.range (n + 1)) (t := s) (f := fun i => f^[i] a) (by simpa [Nat.lt_succ_iff] using hlt)
      (fun i hi => hs i (Nat.le_of_lt_succ (Finset.mem_range.mp hi)))
    rw [Finset.mem_range] at hi hj
    wlog hij : i < j generalizing i j
    · exact this j hj i hi hne.symm heq.symm (by omega)
    refine ih (n - (j - i)) (by omega) ?_ fun k hk => hs k (by omega)
    rw [show n - (j - i) = n - j + i by omega, iterate_add_apply, heq,
      ← iterate_add_apply, Nat.sub_add_cancel (by omega), hn]

def places : Finset UInt8 := (Finset.range 48).image fun k => UInt8.ofNat (0x40 + 4 * k)

theorem and_mem_places {q : UInt8} (h : 0x40 ≤ q &&& 0xFC) : q &&& 0xFC ∈ places := by
  have hq : (q &&& 0xFC).toNat = q.toNat / 4 * 4 := by
    have hmask := Word.land_mask q.toNat (by decide : 2 ≤ 8)
    rwa [Nat.mod_eq_of_lt q.toNat_lt] at hmask
  have hlt := q.toNat_lt
  rw [UInt8.le_iff_toNat_le, hq] at h
  change 64 ≤ _ at h
  refine Finset.mem_image.mpr ⟨q.toNat / 4 - 16, Finset.mem_range.mpr (by omega), ?_⟩
  rw [← UInt8.toNat_inj, hq, UInt8.toNat_ofNat']
  omega

theorem iterate_follow_mem_places {n : Nat} (h : 0x40 ≤ (follow cfg)^[n] (firstCapPtr cfg)) :
    (follow cfg)^[n] (firstCapPtr cfg) ∈ places := by
  induction n with
  | zero => exact and_mem_places h
  | succ n ih =>
    rw [iterate_succ_apply'] at h ⊢
    by_cases hp : 0x40 ≤ (follow cfg)^[n] (firstCapPtr cfg)
    · rw [follow, if_pos hp] at h ⊢
      exact and_mem_places h
    · rw [follow, if_neg hp] at h ⊢
      exact ih h

theorem OnChain.exists_lt (h : OnChain cfg p) :
    ∃ n < 48, (follow cfg)^[n] (firstCapPtr cfg) = p := by
  obtain ⟨hp, n, hn⟩ := h
  have hway : ∀ i ≤ n, 0x40 ≤ (follow cfg)^[i] (firstCapPtr cfg) := by
    intro i hi
    by_contra hlow
    obtain ⟨k, rfl⟩ := Nat.exists_eq_add_of_le' hi
    rw [iterate_add_apply] at hn
    rw [← hn] at hp
    exact hlow (iterate_follow_of_stops (.inl hlow) hp ▸ hp)
  obtain ⟨m, hm, heq⟩ := exists_iterate_lt_card hn fun i hi => iterate_follow_mem_places (hway i hi)
  exact ⟨m, hm.trans_le (Finset.card_image_le.trans_eq (Finset.card_range 48)), heq⟩

/-- **A flag is set exactly if the function has a capability list and a capability of that kind is
on the chain.** -/
theorem probe_capabilities_exact (cfg : Config) (out : Capabilities) :
    ∃ r, pciProbeCapabilities cfg (some out) = (.ok, some r) ∧ ∀ c, r.has c = true ↔
      hasCapList cfg = true ∧ ∃ p, OnChain cfg p ∧ pciConfigRead8 cfg p = c.id := by
  refine ⟨_, rfl, fun c => ?_⟩
  by_cases hlist : hasCapList cfg = true
  · rw [if_pos hlist, capWalk_has, or_iff_right (by cases c <;> simp [Capabilities.has])]
    refine ⟨?_, ?_⟩
    · rintro ⟨n, -, hn, hid⟩
      exact ⟨hlist, _, ⟨hn, n, rfl⟩, hid⟩
    · rintro ⟨-, p, hp, hid⟩
      obtain ⟨n, hn, rfl⟩ := hp.exists_lt
      exact ⟨n, hn, hp.1, hid⟩
  · rw [if_neg hlist]
    exact ⟨by cases c <;> simp [Capabilities.has], fun h => absurd h.1 hlist⟩

/-- No list is announced, but the capability pointer leads to a capability. -/
theorem unannounced_list_is_ignored :
    ¬∀ cfg out, ∃ r, pciProbeCapabilities cfg (some out) = (.ok, some r) ∧ ∀ c, r.has c = true ↔
      ∃ p, OnChain cfg p ∧ pciConfigRead8 cfg p = c.id := by
  intro h
  obtain ⟨r, hr, hiff⟩ := h (fun offset => if offset = 0x34 then 0x40 else
    if offset = 0x40 then 0x01 else 0) {}
  cases hr
  have hfound := (hiff .pm).mpr ⟨0x40, ⟨by decide, 0, by decide⟩, by decide⟩
  cases hfound

/-! ## The memory-mapped configuration space -/

/-- What `pci_core_init` looks at in `acpi_info_t`. -/
structure Mcfg where
  mcfgPresent : Bool
  mcfgBaseAddr : UInt64
  mcfgStartBus : UInt8
  mcfgEndBus : UInt8

/-- Where `g_pci_core` says that the configuration space is. -/
structure PciCore where
  ecamAvailable : Bool
  ecamBase : UInt64
  ecamStartBus : UInt8
  ecamEndBus : UInt8

def pciCoreInit (acpi : Mcfg) : PciCore where
  ecamAvailable := acpi.mcfgPresent && acpi.mcfgBaseAddr != 0 && acpi.mcfgBaseAddr < 0x100000000
  ecamBase := acpi.mcfgBaseAddr
  ecamStartBus := acpi.mcfgStartBus
  ecamEndBus := acpi.mcfgEndBus

def pciEcamUsable (core : PciCore) (bus : UInt8) : Bool :=
  core.ecamAvailable && core.ecamStartBus ≤ bus && bus ≤ core.ecamEndBus &&
    core.ecamBase < 0x100000000

def pciEcamAddress (core : PciCore) (bus slot function offset : UInt8) : UInt64 :=
  core.ecamBase + (bus.toUInt64 - core.ecamStartBus.toUInt64) <<< 20 + slot.toUInt64 <<< 15 +
    function.toUInt64 <<< 12 + (offset &&& 0xFC).toUInt64

/-- A byte of the configuration space. -/
structure Place where
  bus : UInt8
  slot : UInt8
  function : UInt8
  offset : UInt8
  slot_lt : slot.toNat < 32
  function_lt : function.toNat < 8

def Place.address (p : Place) (core : PciCore) : Nat :=
  (pciEcamAddress core p.bus p.slot p.function p.offset).toNat

/-- Where the window of a bus starts. -/
def PciCore.window (core : PciCore) (bus : UInt8) : Nat :=
  core.ecamBase.toNat + (bus.toNat - core.ecamStartBus.toNat) * 2 ^ 20

/-- The dwords of the usable buses are below 4 GiB, in the window of their bus, and each has an
address of its own. -/
structure EcamSound (core : PciCore) : Prop where
  within : ∀ p : Place, pciEcamUsable core p.bus = true → p.address core + 4 ≤ 2 ^ 32 ∧
    core.window p.bus ≤ p.address core ∧ p.address core + 4 ≤ core.window p.bus + 2 ^ 20
  distinct : ∀ p q : Place, pciEcamUsable core p.bus = true → pciEcamUsable core q.bus = true →
    p.address core = q.address core → p.bus = q.bus ∧ p.slot = q.slot ∧
      p.function = q.function ∧ p.offset / 4 = q.offset / 4

variable {core : PciCore} {bus : UInt8}

theorem pciEcamUsable_iff : pciEcamUsable core bus = true ↔ core.ecamAvailable = true ∧
    core.ecamStartBus.toNat ≤ bus.toNat ∧ bus.toNat ≤ core.ecamEndBus.toNat ∧
      core.ecamBase.toNat < 2 ^ 32 := by
  simp [pciEcamUsable, UInt8.le_iff_toNat_le, UInt64.lt_iff_toNat_lt, and_assoc]

theorem Place.address_eq (p : Place) (h : pciEcamUsable core p.bus = true) :
    p.address core = core.window p.bus + p.slot.toNat * 2 ^ 15 + p.function.toNat * 2 ^ 12 +
      p.offset.toNat / 4 * 4 := by
  obtain ⟨-, hstart, -, hbase⟩ := pciEcamUsable_iff.mp h
  have hmask : ∀ o : BitVec 8, o.toNat &&& 0xFC = o.toNat / 4 * 4 := by decide
  have hdword : p.offset.toNat &&& 0xFC = p.offset.toNat / 4 * 4 := hmask p.offset.toBitVec
  have hsub : (p.bus.toUInt64 - core.ecamStartBus.toUInt64).toNat =
      p.bus.toNat - core.ecamStartBus.toNat :=
    UInt64.toNat_sub_of_le _ _ (UInt64.le_iff_toNat_le.mpr (by simpa using hstart))
  have hbus := p.bus.toNat_lt
  have hslot := p.slot_lt
  have hfunction := p.function_lt
  have hoffset := p.offset.toNat_lt
  simp [Place.address, pciEcamAddress, PciCore.window, hsub, hdword, Nat.shiftLeft_eq]
  omega

/-- **The addresses are sound exactly if the last dword of the last bus ends below 4 GiB.** -/
theorem ecam_sound_iff (acpi : Mcfg) : EcamSound (pciCoreInit acpi) ↔
    (pciEcamUsable (pciCoreInit acpi) acpi.mcfgEndBus = true →
      (pciCoreInit acpi).window acpi.mcfgEndBus + 0xFF100 ≤ 2 ^ 32) := by
  constructor
  · intro h hend
    have hlast := (h.within ⟨acpi.mcfgEndBus, 31, 7, 0xFC, by decide, by decide⟩ hend).1
    rw [Place.address_eq _ hend] at hlast
    simp only [Nat.add_assoc] at hlast
    exact hlast
  · intro h
    refine ⟨fun p hp => ?_, fun p q hp hq heq => ?_⟩
    · obtain ⟨havail, hstart, hend, hbase⟩ := pciEcamUsable_iff.mp hp
      have hlast := h (pciEcamUsable_iff.mpr ⟨havail, hstart.trans hend, le_rfl, hbase⟩)
      have := p.slot_lt
      have := p.function_lt
      have := p.offset.toNat_lt
      rw [p.address_eq hp]
      simp only [PciCore.window, pciCoreInit] at *
      omega
    · have hstart := (pciEcamUsable_iff.mp hp).2.1
      have hstart' := (pciEcamUsable_iff.mp hq).2.1
      rw [p.address_eq hp, q.address_eq hq] at heq
      simp only [PciCore.window] at heq
      simp only [← UInt8.toNat_inj, UInt8.toNat_div, UInt8.reduceToNat]
      obtain ⟨_, _, _, o, hs, hf⟩ := p
      obtain ⟨_, _, _, o', hs', hf'⟩ := q
      have := o.toNat_lt
      have := o'.toNat_lt
      grind

/-- A window of one bus that starts with the last page below 4 GiB. -/
theorem ecam_beyond_4gib : ¬EcamSound (pciCoreInit ⟨true, 0xFFFFF000, 0, 0⟩) := by
  intro h
  have hlast := (h.within ⟨0, 1, 0, 0, by decide, by decide⟩ (by decide)).1
  exact absurd hlast (by decide)

end AiosKernel.Pci
