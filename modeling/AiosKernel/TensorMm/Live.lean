/-
# `AiosKernel.TensorMm.Live` — what a call does to a tensor that somebody holds

The holders of a tensor (a shared window, a loaded model) know it by its id.
For each call this file says which live tensors it cannot touch, what it does
to the one it names, and that an id once handed out never stands for another
tensor (`Aged`): ids are not used again as long as descriptors last.
-/
import AiosKernel.TensorMm.Runs

namespace AiosKernel.TensorMm

open Word List Function

/-- A tensor of `s'` whose id is older than `s` was there in `s`. -/
structure Aged (s s' : MmState) : Prop where
  next_le : s.nextTensorId ≤ s'.nextTensorId
  back : ∀ t' ∈ live s', t'.id < s.nextTensorId →
    ∃ t ∈ live s, t.id = t'.id ∧ t.size = t'.size ∧ t.region = t'.region

/-- A reference of the tensor `id` is dropped: nothing else goes, and the tensor stays if it had
another one. -/
structure Drops (id : Nat) (s s' : MmState) : Prop where
  others : ∀ t ∈ live s, t.id ≠ id → t ∈ live s'
  counted : ∀ t ∈ live s, t.id = id → 1 < t.refCount →
    { t with refCount := t.refCount - 1 } ∈ live s'
  aged : Aged s s'

/-- A reference of the tensor `id` is taken. -/
structure Takes (id : Nat) (s s' : MmState) : Prop where
  others : ∀ t ∈ live s, t.id ≠ id → t ∈ live s'
  counted : ∀ t ∈ live s, t.id = id → { t with refCount := u32 (t.refCount + 1) } ∈ live s'
  aged : Aged s s'

section

variable {M : MemRegion → Set Nat} {F : MemRegion → List FreeNode} {s s₁ s' : MmState}
  {i id : Nat} {st : AiosStatus} {t : TensorAlloc}

theorem Aged.refl (s : MmState) : Aged s s := ⟨Nat.le_refl _, fun t ht _ => ⟨t, ht, rfl, rfl, rfl⟩⟩

theorem Aged.trans (h : Aged s s₁) (h' : Aged s₁ s') : Aged s s' := by
  refine ⟨h.next_le.trans h'.next_le, fun t' ht' hlt => ?_⟩
  obtain ⟨t₁, ht₁, hid₁, hsize₁, hregion₁⟩ := h'.back t' ht' (hlt.trans_le h.next_le)
  obtain ⟨t, ht, hid, hsize, hregion⟩ := h.back t₁ ht₁ (hid₁ ▸ hlt)
  exact ⟨t, ht, hid.trans hid₁, hsize.trans hsize₁, hregion.trans hregion₁⟩

theorem MmInv.live_ext (h : MmInv M s F) {t u : TensorAlloc} (ht : t ∈ live s) (hu : u ∈ live s)
    (hid : t.id = u.id) : t = u :=
  inj_on_of_nodup_map h.sound.ids ht hu hid

theorem MmInv.eq_found (h : MmInv M s F) (hfind : findTensor s id = some i) (ht : t ∈ live s)
    (hid : t.id = id) : t = s.tensorTable i := by
  obtain ⟨hi, he⟩ := findTensor_some hfind
  exact h.live_ext ht (mem_live hi) (hid.trans he.symm)

theorem MmInv.found (h : MmInv M s F) (ht : t ∈ live s) (hid : t.id = id) :
    ∃ i, findTensor s id = some i ∧ s.tensorTable i = t := by
  obtain ⟨i, hfind, hrec⟩ := h.find_live ht
  exact ⟨i, hid ▸ hfind, hrec⟩

variable {f : TensorAlloc → TensorAlloc}

theorem mem_live_setTensor (ht : t ∈ live (s.setTensor i f)) :
    t ∈ live s ∨ i < s.tensorCount ∧ t = f (s.tensorTable i) := by
  obtain ⟨j, hj, rfl⟩ := mem_map.mp ht
  have hlt : j < s.tensorCount := mem_range.mp hj
  by_cases hij : j = i
  · subst hij
    exact .inr ⟨hlt, update_self ..⟩
  · refine .inl ?_
    have hsame : (s.setTensor i f).tensorTable j = s.tensorTable j := update_of_ne hij _ _
    rw [hsame]
    exact mem_live hlt

theorem mem_live_setTensor_self (hi : i < s.tensorCount) :
    f (s.tensorTable i) ∈ live (s.setTensor i f) := by
  refine mem_map.mpr ⟨i, mem_range.mpr hi, ?_⟩
  exact update_self ..

theorem mem_live_setTensor_of_ne (ht : t ∈ live s) (hne : t.id ≠ (s.tensorTable i).id) :
    t ∈ live (s.setTensor i f) := by
  obtain ⟨j, hj, rfl⟩ := mem_map.mp ht
  have hij : j ≠ i := fun he => hne (he ▸ rfl)
  exact mem_map.mpr ⟨j, hj, update_of_ne hij _ _⟩

theorem aged_setTensor (hf : ∀ t, (f t).key = t.key) : Aged s (s.setTensor i f) := by
  refine ⟨le_rfl, fun t' ht' _ => ?_⟩
  rcases mem_live_setTensor ht' with ht | ⟨hi, rfl⟩
  · exact ⟨t', ht, rfl, rfl, rfl⟩
  · have hkey := hf (s.tensorTable i)
    exact ⟨_, mem_live hi, (congrArg (fun k => k.1) hkey).symm,
      (congrArg (fun k => k.2.1.size) hkey).symm, (congrArg (fun k => k.2.2) hkey).symm⟩

theorem MmInv.drops_refl (h : MmInv M s F) (hnone : findTensor s id = none) : Drops id s s := by
  refine ⟨fun t ht _ => ht, fun t ht hid _ => ?_, .refl s⟩
  obtain ⟨i, hfind, -⟩ := h.found ht hid
  rw [hnone] at hfind
  exact nomatch hfind

theorem MmInv.tensorFree_drops (h : MmInv M s F)
    (hcall : TensorMm.tensorFree id s = .done (st, s')) : Drops id s s' := by
  cases tensorFree_freed hcall with
  | missing hfind => exact h.drops_refl hfind
  | counted i hfind href =>
    obtain ⟨hi, hid⟩ := findTensor_some hfind
    refine ⟨fun t ht hne => mem_live_setTensor_of_ne ht (hid ▸ hne), fun t ht he _ => ?_,
      aged_setTensor fun _ => rfl⟩
    rw [h.eq_found hfind ht he]
    exact @mem_live_setTensor_self s i .dropped hi
  | full i hfind href =>
    refine ⟨fun t ht _ => ht, fun t ht he hcount => ?_, .refl s⟩
    exact absurd (h.eq_found hfind ht he ▸ hcount) href
  | gone i s' hfind href hp hblocks hnext =>
    refine ⟨fun t ht hne => ?_, fun t ht he hcount => ?_, hnext.symm.le, ?_⟩
    · rcases mem_cons.mp (hp.mem_iff.mp ht) with rfl | ht'
      · exact absurd (findTensor_some hfind).2 hne
      · exact ht'
    · exact absurd (h.eq_found hfind ht he ▸ hcount) href
    · intro t' ht' _
      exact ⟨t', hp.mem_iff.mpr (mem_cons_of_mem _ ht'), rfl, rfl, rfl⟩

theorem MmInv.tensorUnref_drops (h : MmInv M s F)
    (hcall : TensorMm.tensorUnref id s = .done (st, s')) : Drops id s s' := by
  unfold TensorMm.tensorUnref at hcall
  cases hfind : findTensor s id with
  | none =>
    obtain ⟨-, rfl⟩ : AiosStatus.errInval = st ∧ s = s' := by simpa [hfind] using hcall
    exact h.drops_refl hfind
  | some i =>
    obtain ⟨hi, hid⟩ := findTensor_some hfind
    simp only [hfind] at hcall
    by_cases hzero : (s.tensorTable i).refCount = 0
    · obtain ⟨-, rfl⟩ : AiosStatus.errInval = st ∧ s = s' := by simpa [hzero] using hcall
      refine ⟨fun t ht _ => ht, fun t ht he hcount => ?_, .refl s⟩
      rw [h.eq_found hfind ht he] at hcount
      omega
    · rw [if_neg hzero] at hcall
      have hdec : ((s.setTensor i .dropped).tensorTable i).refCount =
          (s.tensorTable i).refCount - 1 := by
        simp [MmState.setTensor]
      rw [hdec] at hcall
      have hothers : ∀ t ∈ live s, t.id ≠ id → t ∈ live (s.setTensor i .dropped) :=
        fun t ht hne => mem_live_setTensor_of_ne ht (hid ▸ hne)
      by_cases hlast : (s.tensorTable i).refCount - 1 = 0
      · -- the last reference: what is left of the record is freed
        rw [if_pos hlast] at hcall
        have hinv := h.setTensor i .dropped fun _ => rfl
        have hdrop := hinv.tensorFree_drops hcall
        have haged : Aged s (s.setTensor i .dropped) := aged_setTensor fun _ => rfl
        refine ⟨fun t ht hne => hdrop.others t (hothers t ht hne) hne, fun t ht he hcount => ?_,
          haged.trans hdrop.aged⟩
        rw [h.eq_found hfind ht he] at hcount
        omega
      · rw [if_neg hlast] at hcall
        cases hcall
        refine ⟨hothers, fun t ht he _ => ?_, aged_setTensor fun _ => rfl⟩
        rw [h.eq_found hfind ht he]
        exact @mem_live_setTensor_self s i .dropped hi

theorem MmInv.tensorRef_takes (h : MmInv M s F) (id : Nat) :
    Takes id s (TensorMm.tensorRef id s).2 := by
  cases hfind : findTensor s id with
  | none =>
    have hsame : (TensorMm.tensorRef id s).2 = s := by simp [TensorMm.tensorRef, hfind]
    rw [hsame]
    refine ⟨fun t ht _ => ht, fun t ht he => ?_, .refl s⟩
    obtain ⟨i, hfound, -⟩ := h.found ht he
    rw [hfind] at hfound
    exact nomatch hfound
  | some i =>
    obtain ⟨hi, hid⟩ := findTensor_some hfind
    have hset : (TensorMm.tensorRef id s).2 =
        s.setTensor i fun t => { t with refCount := u32 (t.refCount + 1) } := by
      simp [TensorMm.tensorRef, hfind]
    rw [hset]
    refine ⟨fun t ht hne => mem_live_setTensor_of_ne ht (hid ▸ hne), fun t ht he => ?_,
      aged_setTensor fun _ => rfl⟩
    rw [h.eq_found hfind ht he]
    exact @mem_live_setTensor_self s i (fun t => { t with refCount := u32 (t.refCount + 1) }) hi

theorem MmInv.alloc_aged (hM : Addressable M) (h : MmInv M s F) {hasOut : Bool}
    {q : AllocRequest} {res : AllocResult} (hq : q.InRange)
    (hcall : tensorAllocAlignedProfiled hasOut q s = .done (res, s')) :
    (∀ t ∈ live s, t ∈ live s') ∧ Aged s s' := by
  rcases h.alloc_returned hM hq hcall with ⟨-, -, -, rfl⟩ | ⟨t, r, -, ha⟩
  · exact ⟨fun t ht => ht, .refl _⟩
  · obtain ⟨F', hinv'⟩ := ha.inv
    have hmem : t ∈ live s' := by simp [ha.live_eq]
    refine ⟨fun u hu => by simp [ha.live_eq, hu], ?_, fun u hu hlt => ?_⟩
    · have hid := hinv'.idsLt t hmem
      rw [ha.id] at hid
      exact hid.le
    · rw [ha.live_eq] at hu
      rcases mem_append.mp hu with hu | hu
      · exact ⟨u, hu, rfl, rfl, rfl⟩
      · rw [mem_singleton.mp hu, ha.id] at hlt
        exact absurd hlt (lt_irrefl _)

/-! ## `model_free` clears its region -/

theorem MmInv.findTensor_self (h : MmInv M s F) (hi : i < s.tensorCount) :
    findTensor s (s.tensorTable i).id = some i := by
  obtain ⟨j, hfind, hrec⟩ := h.find_live (mem_live hi)
  obtain ⟨hj, -⟩ := findTensor_some hfind
  have hids : ((List.range s.tensorCount).map fun i => (s.tensorTable i).id).Nodup := by
    have hnd := h.sound.ids
    rwa [live, map_map] at hnd
  have hij : j = i := inj_on_of_nodup_map hids (mem_range.mpr hj) (mem_range.mpr hi)
    (congrArg TensorAlloc.id hrec)
  rw [hfind, hij]

theorem tensorFree_below (hfind : findTensor s id = some i)
    (hcall : tensorFree id s = .done (st, s')) : ∀ j < i, s'.tensorTable j = s.tensorTable j := by
  intro j hj
  cases tensorFree_freed hcall with
  | missing hnone => rfl
  | full i' hfind' href => rfl
  | counted i' hfind' href =>
    cases hfind.symm.trans hfind'
    exact update_of_ne hj.ne _ _
  | gone i' s' hfind' href hp hblocks hnext hstats hbelow =>
    cases hfind.symm.trans hfind'
    exact hbelow j hj

end

/-! ## In a run -/

section

variable {s s' : MmState} {id : Nat} {st : AiosStatus}

theorem RunInv.live_ext (h : RunInv s) {t u : TensorAlloc} (ht : t ∈ live s) (hu : u ∈ live s)
    (hid : t.id = u.id) : t = u := by
  obtain ⟨F, hinv⟩ := h.inv
  exact hinv.live_ext ht hu hid

theorem RunInv.tensorFree (h : RunInv s) (hcall : tensorFree id s = .done (st, s')) :
    RunInv s' ∧ Drops id s s' := by
  obtain ⟨F, hinv⟩ := h.inv
  exact ⟨h.of_free hcall, hinv.tensorFree_drops hcall⟩

theorem RunInv.tensorUnref (h : RunInv s) (hcall : tensorUnref id s = .done (st, s')) :
    RunInv s' ∧ Drops id s s' := by
  obtain ⟨F, hinv⟩ := h.inv
  exact ⟨h.of_unref hcall, hinv.tensorUnref_drops hcall⟩

theorem RunInv.tensorRef (h : RunInv s) (hcall : tensorRef id s = (st, s')) :
    RunInv s' ∧ Takes id s s' := by
  obtain ⟨F, hinv⟩ := h.inv
  have hrun := h.of_ref id
  have htake := hinv.tensorRef_takes id
  rw [hcall] at hrun htake
  exact ⟨hrun, htake⟩

variable {i fuel : Nat} {hasOut : Bool} {q : AllocRequest} {t : TensorAlloc}

theorem RunInv.alloc (h : RunInv s) {res : AllocResult} (hq : q.InRange)
    (hcall : tensorAllocAlignedProfiled hasOut q s = .done (res, s')) :
    RunInv s' ∧ (∀ t ∈ live s, t ∈ live s') ∧ Aged s s' := by
  obtain ⟨F, hinv⟩ := h.inv
  exact ⟨h.of_alloc hq hcall, hinv.alloc_aged h.managed_lt hq hcall⟩

theorem RunInv.alloc_new (h : RunInv s) (hq : q.InRange)
    (hcall : tensorAllocAlignedProfiled hasOut q s = .done ((.ok, some t), s')) :
    t ∈ live s' ∧ t.id = s.nextTensorId := by
  obtain ⟨F, hinv⟩ := h.inv
  rcases hinv.alloc_returned h.managed_lt hq hcall with ⟨st, -, hres, -⟩ | ⟨u, r, hres, ha⟩
  · cases hres
  · cases hres
    exact ⟨by simp [ha.live_eq], ha.id⟩

theorem RunInv.idsLt (h : RunInv s) : ∀ t ∈ live s, t.id < s.nextTensorId := by
  obtain ⟨F, hinv⟩ := h.inv
  exact hinv.idsLt

/-- The loop has looked at all records below its index. -/
def Cleared (i : Nat) (s : MmState) : Prop :=
  RunInv s ∧ ∀ j < i, (s.tensorTable j).region ≠ .model

theorem Cleared.zero (h : RunInv s) : Cleared 0 s := ⟨h, fun j hj => absurd hj (Nat.not_lt_zero j)⟩

theorem Cleared.free (hi : i < s.tensorCount)
    (hfree : TensorMm.tensorFree (s.tensorTable i).id s = .done (st, s')) (h : Cleared i s) :
    Cleared i s' := by
  obtain ⟨F, hinv⟩ := h.1.inv
  refine ⟨h.1.of_free hfree, fun j hj => ?_⟩
  rw [tensorFree_below (hinv.findTensor_self hi) hfree j hj]
  exact h.2 j hj

theorem Cleared.skip (hregion : (s.tensorTable i).region ≠ .model) (h : Cleared i s) :
    Cleared (i + 1) s := by
  refine ⟨h.1, fun j hj => ?_⟩
  rcases Nat.lt_succ_iff_lt_or_eq.mp hj with hj | rfl
  · exact h.2 j hj
  · exact hregion

theorem Cleared.all (h : Cleared i s) (hi : s.tensorCount ≤ i) :
    ∀ t ∈ live s, t.region ≠ .model := by
  intro t ht
  obtain ⟨j, hj, rfl⟩ := mem_map.mp ht
  exact h.2 j ((mem_range.mp hj).trans_le hi)

theorem RunInv.modelFree_clears (h : RunInv s) (hcall : modelFree fuel s = .done (st, s')) :
    st = .ok ∧ ∀ t ∈ live s', t.region ≠ .model := by
  obtain ⟨hst, i, hi, h'⟩ :=
    modelFree_induction (fun _ _ _ _ hi _ => Cleared.free hi) (fun _ _ => Cleared.skip) (.zero h) hcall
  exact ⟨hst, h'.all hi⟩

theorem RunInv.modelFree (h : RunInv s) (hcall : modelFree fuel s = .done (st, s')) :
    RunInv s' ∧ (∀ t ∈ live s, t.region ≠ .model → t ∈ live s') ∧ Aged s s' := by
  refine modelFree_preserves (P := fun s' => RunInv s' ∧
    (∀ t ∈ live s, t.region ≠ .model → t ∈ live s') ∧ Aged s s') ?_
    ⟨h, fun t ht _ => ht, .refl s⟩ hcall
  rintro i s₁ st₁ s₂ hi hregion hfree ⟨hrun, hkeep, haged⟩
  obtain ⟨hrun', hdrop⟩ := hrun.tensorFree hfree
  refine ⟨hrun', fun t ht hr => hdrop.others t (hkeep t ht hr) fun he => ?_, haged.trans hdrop.aged⟩
  -- a tensor of another region is not the one that is freed
  exact hr (hrun.live_ext (hkeep t ht hr) (mem_live hi) he ▸ hregion)

theorem live_of_tensorRef (hcall : tensorRef id s = (.ok, s')) : ∃ t ∈ live s, t.id = id := by
  unfold TensorMm.tensorRef at hcall
  split at hcall
  · cases hcall
  · rename_i i hfind
    obtain ⟨hi, hid⟩ := findTensor_some hfind
    exact ⟨_, mem_live hi, hid⟩

theorem live_of_tensorInfo (hcall : tensorInfo id s = some t) : t ∈ live s ∧ t.id = id := by
  obtain ⟨i, hfind, rfl⟩ := Option.map_eq_some_iff.mp hcall
  obtain ⟨hi, hid⟩ := findTensor_some hfind
  exact ⟨mem_live hi, hid⟩

end

end AiosKernel.TensorMm
