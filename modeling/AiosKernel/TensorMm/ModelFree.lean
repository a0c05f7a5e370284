/-
# `AiosKernel.TensorMm.ModelFree` — when `model_free` comes to an end

`model_free` looks at an index again after every `tensor_free`, whatever that
returned.  Every release takes a descriptor, and descriptors are never given
back: when they run out before the model tensors do, `tensor_free` fails, nothing
changes, and the loop looks at the same record for ever.

`MmInv.turn` says what one turn on a model tensor does.  Descriptors used and
model tensors left stay in balance (`demand`), and unless the descriptors are
exhausted the references and the records still to be looked at get fewer.
-/
import AiosKernel.TensorMm.Room

namespace AiosKernel.TensorMm

open List

/-- The live tensors of the model region. -/
def modelCount (s : MmState) : Nat := (live s).countP fun t => t.region = .model

/-- The descriptors used and those that releasing all model tensors will take. -/
def demand (s : MmState) : Nat := s.arena.blockPoolNext + modelCount s

/-- The references held on live tensors. -/
def refs (s : MmState) : Nat := ((live s).map TensorAlloc.refCount).sum

section

variable {M : MemRegion → Set Nat} {s s' : MmState} {F : MemRegion → List FreeNode} {i : Nat}
  {st : AiosStatus}

theorem live_setTensor_perm (hi : i < s.tensorCount) (f : TensorAlloc → TensorAlloc) :
    (live (s.setTensor i f)).Perm (f (s.tensorTable i) :: live (s.dropTensor i)) := by
  have hperm := live_dropTensor (s := s.setTensor i f) hi
  rwa [live_setTensor_dropTensor, show (s.setTensor i f).tensorTable i = f (s.tensorTable i) from
    Function.update_self ..] at hperm

theorem MmInv.turn (hM : Addressable M) (h : MmInv M s F)
    (hi : i < s.tensorCount) (hregion : (s.tensorTable i).region = .model) :
    ∃ st s' F', TensorMm.tensorFree (s.tensorTable i).id s = .done (st, s') ∧ MmInv M s' F' ∧
      demand s' = demand s ∧
      (refs s' + (s'.tensorCount - i) < refs s + (s.tensorCount - i) ∨
        s.arena.blockPoolNext = MAX_BLOCKS) := by
  have hperm := live_dropTensor hi
  by_cases href : 1 < (s.tensorTable i).refCount
  · -- one reference fewer
    have hcall : TensorMm.tensorFree (s.tensorTable i).id s =
        .done (.ok, s.setTensor i .dropped) := by
      simp [TensorMm.tensorFree, h.findTensor_self hi, href]
    have hperm' := live_setTensor_perm hi .dropped
    refine ⟨_, _, F, hcall, h.setTensor i _ fun _ => rfl, ?_, .inl ?_⟩
    · simp only [demand, modelCount, hperm.countP_eq, hperm'.countP_eq, countP_cons]
      rfl
    · have hrefs := (hperm.map TensorAlloc.refCount).sum_nat
      have hrefs' := (hperm'.map TensorAlloc.refCount).sum_nat
      simp only [map_cons, sum_cons] at hrefs hrefs'
      have hcount : (s.setTensor i .dropped).tensorCount = s.tensorCount := rfl
      simp only [refs]
      omega
  · rcases h.free_live hM (mem_live hi) (not_lt.mp href) with
      ⟨hcall, hfull⟩ | ⟨s', F', hcall, hinv, hperm', -, hnext, -⟩
    · exact ⟨_, s, F, hcall, h, rfl, .inr hfull⟩
    · -- the tensor is gone, for one descriptor
      refine ⟨_, s', F', hcall, hinv, ?_, .inl ?_⟩
      · simp only [demand, modelCount, hperm'.countP_eq, countP_cons, hregion, hnext]
        simp only [decide_true, if_true]
        omega
      · have hrefs := (hperm'.map TensorAlloc.refCount).sum_nat
        have hlen := hperm'.length_eq
        simp only [map_cons, sum_cons, length_cons, length_live] at hrefs hlen
        simp only [refs]
        omega

theorem modelCount_pos (hi : i < s.tensorCount) (hregion : (s.tensorTable i).region = .model) :
    0 < modelCount s :=
  countP_pos_iff.mpr ⟨_, mem_live hi, by simpa using hregion⟩

/-- With descriptors for all model tensors, the loop returns: by induction on the references and
the records it has still to look at. -/
theorem MmInv.modelFreeFrom_returns (hM : Addressable M) (d : Nat) :
    ∀ {i : Nat} {s : MmState} {F : MemRegion → List FreeNode}, MmInv M s F →
      demand s ≤ MAX_BLOCKS → refs s + (s.tensorCount - i) = d →
      ∃ fuel st s', TensorMm.modelFreeFrom fuel i s = .done (st, s') := by
  induction d using Nat.strong_induction_on with
  | _ d ih =>
    intro i s F h hdemand hd
    by_cases hi : i < s.tensorCount
    · by_cases hregion : (s.tensorTable i).region = .model
      · obtain ⟨st₁, s₁, F₁, hfree, hinv, hkeep, hless | hfull⟩ := h.turn hM hi hregion
        · obtain ⟨fuel, st, s', hrest⟩ := ih _ (hd ▸ hless) hinv (hkeep ▸ hdemand) rfl
          refine ⟨fuel + 1, st, s', ?_⟩
          simp only [TensorMm.modelFreeFrom, if_pos hi, if_pos hregion, hfree, Outcome.done_bind,
            hrest]
        · have hpos := modelCount_pos hi hregion
          simp only [demand] at hdemand
          omega
      · obtain ⟨fuel, st, s', hrest⟩ := ih (refs s + (s.tensorCount - (i + 1))) (by omega) h
          hdemand rfl
        refine ⟨fuel + 1, st, s', ?_⟩
        simp only [TensorMm.modelFreeFrom, if_pos hi, if_neg hregion, hrest]
    · exact ⟨1, .ok, s, by simp only [TensorMm.modelFreeFrom, if_neg hi]⟩

theorem RunInv.modelFree_demand {fuel : Nat} (h : RunInv s)
    (hcall : TensorMm.modelFree fuel s = .done (st, s')) : demand s ≤ MAX_BLOCKS := by
  have hloop := modelFree_induction (P := fun i s' => Cleared i s' ∧ demand s' = demand s) ?_
    (fun _ _ hregion h => ⟨h.1.skip hregion, h.2⟩) ⟨.zero h, rfl⟩ hcall
  · obtain ⟨-, i, hi, hclear, hkeep⟩ := hloop
    have hnone : modelCount s' = 0 :=
      countP_eq_zero.mpr fun t ht => by simpa using hclear.all hi t ht
    obtain ⟨F, hinv⟩ := hclear.1.inv
    rw [← hkeep, demand, hnone]
    exact hinv.represents.cap
  · rintro i s₁ st₁ s₂ hi hregion hfree ⟨hclear, hkeep⟩
    obtain ⟨F, hinv⟩ := hclear.1.inv
    obtain ⟨st', s', F', hfree', -, hdemand, -⟩ := hinv.turn hclear.1.managed_lt hi hregion
    cases hfree'.symm.trans hfree
    exact ⟨hclear.free hi hfree, hdemand.trans hkeep⟩

end

/-- From every state of a run, `model_free` returns with no model tensor left just when there is
a descriptor for each of them. -/
theorem model_free_clears_iff {l : Layout} {s : MmState} (h : Reach l s) :
    (∃ fuel st s', modelFree fuel s = .done (st, s') ∧ ∀ t ∈ live s', t.region ≠ .model) ↔
      s.arena.blockPoolNext + (live s).countP (fun t => t.region = .model) ≤ MAX_BLOCKS := by
  constructor
  · rintro ⟨fuel, st, s', hcall, -⟩
    exact h.invariant.modelFree_demand hcall
  · intro hdemand
    obtain ⟨F, hinv⟩ := h.invariant.inv
    obtain ⟨fuel, st, s', hcall⟩ := hinv.modelFreeFrom_returns h.invariant.managed_lt _ hdemand rfl
    exact ⟨fuel, st, s', hcall, (h.invariant.modelFree_clears hcall).2⟩

def modelLine : AllocRequest := { lineRequest with region := 2 }

theorem modelLine_inRange : modelLine.InRange := ⟨by decide, by decide⟩

theorem modelLine_passes : modelLine.Passes .model (2 ^ 6) :=
  ⟨by decide, rfl, by decide, by decide, by decide, by decide⟩

/-- Right after the boot, with one model tensor. -/
theorem model_free_clears_one : ∃ s t, Reach imageLayout s ∧ live s = [t] ∧ t.region = .model ∧
    ∃ fuel st s', modelFree fuel s = .done (st, s') ∧ ∀ t ∈ live s', t.region ≠ .model := by
  obtain ⟨s₀, hinit⟩ := exists_init
  have hs₀ : Reach imageLayout s₀ := .init boot_bootState hinit
  obtain ⟨-, -, hlive, -, hnext₀⟩ := tensorMmInit_inv boot_bootState hinit
  obtain ⟨s, t, hcall, ha⟩ := hs₀.serve_line hlive
    (show (MB 512, .model) ∈ memoryPools by decide) modelLine_passes (by decide)
  have hs := hs₀.alloc modelLine_inRange hcall
  have hlive₁ : live s = [t] := by rw [ha.live_eq, hlive, nil_append]
  have hnext := alloc_next hcall
  refine ⟨s, t, hs, hlive₁, ha.region, (model_free_clears_iff hs).mpr ?_⟩
  have hone : (live s).countP (fun t => t.region = .model) ≤ 1 := by
    rw [hlive₁]
    exact countP_le_length
  simp only [MAX_BLOCKS]
  omega

/-- A run reaches a state with a model tensor from which `model_free` never returns. -/
theorem model_free_hangs : ∃ s t, Reach imageLayout s ∧ t ∈ live s ∧ t.region = .model ∧
    ∀ fuel st s', modelFree fuel s ≠ .done (st, s') := by
  obtain ⟨s₀, hs₀, hlive⟩ := exists_reach
  obtain ⟨s, t, hs, ht, -, hregion, hfull⟩ := exists_exhausted modelLine_inRange
    (show (MB 512, .model) ∈ memoryPools by decide) modelLine_passes (by decide) _ hs₀ hlive rfl
  refine ⟨s, t, hs, ht, hregion, fun fuel st s' hcall => ?_⟩
  have hdemand := hs.invariant.modelFree_demand hcall
  have hpos : 0 < modelCount s := countP_pos_iff.mpr ⟨t, ht, by simpa using hregion⟩
  simp only [demand] at hdemand
  omega

end AiosKernel.TensorMm
