/-
# `AiosKernel.TensorMm.Calls` — what each call does to the regions

`MmInv M s F`: the arena represents the free nodes `F`, and these with the live
records of the table are sound for the managed sets `M`.  Every call keeps it;
`MmInv.free_live` and `MmInv.unref_live` say in addition which tensor goes.  In a
release there are states between: the node that was given back may touch its
neighbours until `coalesce_blocks` has merged them (`Merging`).
-/
import AiosKernel.TensorMm.Regions

namespace AiosKernel.TensorMm

open Word DList Tiling List Function

/-! ## `coalesce_blocks` -/

/-- The addresses a managed set may hold: far from where 32-bit arithmetic wraps. -/
def ADDR_LIMIT : Nat := 2 ^ 30

/-- Every managed address is below the limit. -/
def Addressable (M : MemRegion → Set Nat) : Prop := ∀ r, ∀ x ∈ M r, x < ADDR_LIMIT

/-- A node between two sorted stretches of nodes, being merged with its neighbours. -/
structure Merging (M : MemRegion → Set Nat) (a : Arena) (F : MemRegion → List FreeNode)
    (live : List TensorAlloc) (r : MemRegion) (as : List FreeNode) (n : FreeNode)
    (bs : List FreeNode) : Prop where
  represents : Represents a F
  covers : Covers M F live
  split : F r = as ++ n :: bs
  before : as.Pairwise Gap
  after : bs.Pairwise Gap
  others : ∀ r', r' ≠ r → (F r').Pairwise Gap
  fin_le : ∀ m ∈ as, m.span.fin ≤ n.span.base
  le_base : ∀ m ∈ bs, n.span.fin ≤ m.span.base

section

variable {M : MemRegion → Set Nat} {a : Arena} {F : MemRegion → List FreeNode}
  {live : List TensorAlloc} {r : MemRegion} {as bs : List FreeNode} {n : FreeNode}

theorem Represents.isFree (h : Represents a F) (hn : n ∈ F r) :
    (a.blockPool n.ix).isFree = true := (h.holds r n hn).isFree

variable {m : FreeNode}

/-- The test of a merge, on nodes whose ends stay inside a word. -/
theorem Represents.adjacent_iff (h : Represents a F) (hn : n ∈ F r) (hm : m ∈ F r)
    (hfin : n.span.fin < 2 ^ 64) : a.adjacent n.ix m.ix = true ↔ n.span.fin = m.span.base := by
  have hword : u64 (n.span.base + n.span.size) = n.span.fin := u64_eq hfin
  simp only [Arena.adjacent, (h.holds r n hn).base_eq, (h.holds r n hn).size_eq,
    (h.holds r m hm).base_eq, hword, decide_eq_true_eq]

theorem Merging.join (hM : Addressable M) (h : Merging M a F live r as n (m :: bs))
    (hadj : n.span.fin = m.span.base) :
    Merging M (a.absorb n.ix m.ix)
      (update F r (as ++ ⟨n.ix, ⟨n.span.base, n.span.size + m.span.size⟩⟩ :: bs)) live r as
      ⟨n.ix, ⟨n.span.base, n.span.size + m.span.size⟩⟩ bs := by
  obtain ⟨hm, hbs⟩ := pairwise_cons.mp h.after
  have hmfin := h.covers.node_fin_le hM (by rw [h.split]; simp : m ∈ F r)
  have hsum : n.span.base + (n.span.size + m.span.size) = m.span.fin := by
    simp only [Span.fin] at hadj ⊢
    omega
  refine ⟨h.represents.absorb h.split ?_, h.covers.join h.split hadj, update_self .., h.before,
    hbs, fun r' hr => ?_, h.fin_le, fun k hk => ?_⟩
  · simp only [ADDR_LIMIT] at hmfin
    omega
  · rw [update_of_ne hr]
    exact h.others r' hr
  · have := hm k hk
    simp only [Gap] at this
    simp only [Span.fin] at this ⊢
    simp only [Span.fin] at hsum
    omega

/-- The first `if` of `coalesce_blocks`: afterwards nothing touches the node from above. -/
theorem Merging.mergeNext (hM : Addressable M) (h : Merging M a F live r as n bs) :
    ∃ F' n' bs', Merging M (a.mergeNext n.ix) F' live r as n' bs' ∧ n'.ix = n.ix ∧
      ∀ k ∈ bs', Gap n' k := by
  have hnext := (h.represents.list h.split).next_eq
  have hnfin := h.covers.node_fin_le hM (by rw [h.split]; simp : n ∈ F r)
  cases bs with
  | nil =>
    have hsame : a.mergeNext n.ix = a := by simp [Arena.mergeNext, hnext]
    rw [hsame]
    exact ⟨F, n, [], h, rfl, by simp⟩
  | cons m bs =>
    have hnF : n ∈ F r := by simp [h.split]
    have hmF : m ∈ F r := by simp [h.split]
    have hadj := h.represents.adjacent_iff hnF hmF (by simp only [ADDR_LIMIT] at hnfin; omega)
    have hstep : a.mergeNext n.ix =
        if a.adjacent n.ix m.ix then a.absorb n.ix m.ix else a := by
      simp [Arena.mergeNext, hnext, h.represents.isFree hmF]
    obtain ⟨hm, -⟩ := pairwise_cons.mp h.after
    rw [hstep]
    by_cases hcond : n.span.fin = m.span.base
    · rw [if_pos (hadj.mpr hcond)]
      refine ⟨_, _, bs, h.join hM hcond, rfl, fun k hk => ?_⟩
      have hk' := hm k hk
      simp only [Gap, Span.fin] at hk' hcond ⊢
      omega
    · rw [if_neg (mt hadj.mp hcond)]
      refine ⟨F, n, m :: bs, h, rfl, fun k hk => ?_⟩
      have hle := h.le_base m (by simp)
      rcases mem_cons.mp hk with rfl | hk
      · simp only [Gap]
        omega
      · have hk' := hm k hk
        simp only [Gap, Span.fin] at hk' hcond hle ⊢
        omega

theorem Merging.sound (h : Merging M a F live r as n bs) (ha : ∀ k ∈ as, Gap k n)
    (hb : ∀ k ∈ bs, Gap n k) : Sound M F live :=
  { h.covers with
    gaps := by
      intro r'
      by_cases hr : r' = r
      · subst hr
        rw [h.split]
        refine pairwise_append.mpr ⟨h.before, pairwise_cons.mpr ⟨hb, h.after⟩, ?_⟩
        refine fun m hm => forall_mem_cons.mpr ⟨ha m hm, fun k hk => ?_⟩
        have h₁ := ha m hm
        have h₂ := hb k hk
        simp only [Gap, Span.fin] at h₁ h₂ ⊢
        omega
      · exact h.others r' hr }

/-- The second `if`: afterwards nothing touches it from below either. -/
theorem Merging.mergePrev (hM : Addressable M) (h : Merging M a F live r as n bs)
    (hb : ∀ k ∈ bs, Gap n k) :
    ∃ F', Represents (a.mergePrev n.ix) F' ∧ Sound M F' live := by
  have hprev := (h.represents.list h.split).prev_eq
  rcases eq_nil_or_concat as with rfl | ⟨as', p, rfl⟩
  · have hsame : a.mergePrev n.ix = a := by simp [Arena.mergePrev, hprev]
    rw [hsame]
    exact ⟨F, h.represents, h.sound (by simp) hb⟩
  · rw [concat_eq_append] at *
    have hnF : n ∈ F r := by simp [h.split]
    have hpF : p ∈ F r := by simp [h.split]
    have hpfin := h.covers.node_fin_le hM hpF
    have hadj := h.represents.adjacent_iff hpF hnF (by simp only [ADDR_LIMIT] at hpfin; omega)
    have hstep : a.mergePrev n.ix =
        if a.adjacent p.ix n.ix then a.absorb p.ix n.ix else a := by
      simp [Arena.mergePrev, hprev, h.represents.isFree hpF]
    obtain ⟨has', -, hap⟩ := pairwise_append.mp h.before
    have hple := h.fin_le p (by simp)
    rw [hstep]
    by_cases hcond : p.span.fin = n.span.base
    · rw [if_pos (hadj.mpr hcond)]
      -- seen from `p`, the node being merged is its successor
      have h' : Merging M a F live r as' p (n :: bs) :=
        { represents := h.represents
          covers := h.covers
          split := by simp [h.split]
          before := has'
          after := pairwise_cons.mpr ⟨hb, h.after⟩
          others := h.others
          fin_le := fun m hm => (hap m hm p (by simp)).le
          le_base := by
            refine forall_mem_cons.mpr ⟨hple, fun k hk => ?_⟩
            have hk' := hb k hk
            simp only [Gap, Span.fin] at hk' hple ⊢
            omega }
      have hj := h'.join hM hcond
      refine ⟨_, hj.represents, hj.sound (fun m hm => hap m hm p (by simp)) fun k hk => ?_⟩
      have hk' := hb k hk
      simp only [Gap, Span.fin] at hk' hcond ⊢
      omega
    · rw [if_neg (mt hadj.mp hcond)]
      refine ⟨F, h.represents, h.sound (forall_mem_append.mpr ⟨fun m hm => ?_, ?_⟩) hb⟩
      · have hm' := hap m hm p (by simp)
        simp only [Gap, Span.fin] at hm' hple ⊢
        omega
      · exact forall_mem_singleton.mpr (Nat.lt_of_le_of_ne hple hcond)

@[simp] theorem coalesceBlocks_blockPoolNext {i : Nat} :
    (a.coalesceBlocks i).blockPoolNext = a.blockPoolNext := by
  have hnext : (a.mergeNext i).blockPoolNext = a.blockPoolNext := by
    unfold Arena.mergeNext
    split
    · rfl
    · split <;> simp
  have hprev : ∀ a : Arena, (a.mergePrev i).blockPoolNext = a.blockPoolNext := by
    intro a
    unfold Arena.mergePrev
    split
    · rfl
    · split <;> simp
  rw [Arena.coalesceBlocks, hprev, hnext]

theorem Merging.coalesce (hM : Addressable M) (h : Merging M a F live r as n bs) :
    ∃ F', Represents (a.coalesceBlocks n.ix) F' ∧ Sound M F' live := by
  obtain ⟨F', n', bs', h', hix, hb⟩ := h.mergeNext hM
  have := h'.mergePrev hM hb
  rwa [hix] at this

end

/-! ## The table -/

def live (s : MmState) : List TensorAlloc := (List.range s.tensorCount).map s.tensorTable

/-- The invariant of the manager, with the free nodes it has. -/
structure MmInv (M : MemRegion → Set Nat) (s : MmState) (F : MemRegion → List FreeNode) :
    Prop where
  represents : Represents s.arena F
  sound : Sound M F (live s)
  idsLt : ∀ t ∈ live s, t.id < s.nextTensorId
  /-- Every id handed out belongs to a live tensor or has cost its release a descriptor. -/
  idsBound : s.nextTensorId ≤ s.tensorCount + s.arena.blockPoolNext + 1
  countLe : s.tensorCount ≤ MAX_TENSORS

section

variable {M : MemRegion → Set Nat} {s : MmState} {F : MemRegion → List FreeNode} {i id : Nat}

@[simp] theorem length_live : (live s).length = s.tensorCount := by
  simp [live]

theorem mem_live (hi : i < s.tensorCount) : s.tensorTable i ∈ live s :=
  mem_map_of_mem (mem_range.mpr hi)

theorem findTensor_some (h : findTensor s id = some i) :
    i < s.tensorCount ∧ (s.tensorTable i).id = id := by
  have hmem := mem_of_find?_eq_some h
  have hid := find?_some h
  exact ⟨mem_range.mp hmem, by simpa using hid⟩

theorem live_setTensor {β : Type} (g : TensorAlloc → β) (f : TensorAlloc → TensorAlloc)
    (hf : ∀ t, g (f t) = g t) : (live (s.setTensor i f)).map g = (live s).map g := by
  simp only [live, MmState.setTensor, map_map]
  refine map_congr_left fun j _ => ?_
  simp only [comp, update_apply]
  split
  · rename_i hj
    rw [hf, hj]
  · rfl

section

variable (s : MmState) (i : Nat)

@[simp] theorem dropTensor_arena : (s.dropTensor i).arena = s.arena := by
  simp only [MmState.dropTensor]
  split <;> rfl

@[simp] theorem dropTensor_nextTensorId : (s.dropTensor i).nextTensorId = s.nextTensorId := by
  simp only [MmState.dropTensor]
  split <;> rfl

@[simp] theorem dropTensor_poolBase : (s.dropTensor i).poolBase = s.poolBase := by
  simp only [MmState.dropTensor]
  split <;> rfl

@[simp] theorem dropTensor_tensorCount : (s.dropTensor i).tensorCount = s.tensorCount - 1 := by
  simp only [MmState.dropTensor]
  split <;> rfl

theorem dropTensor_tensorTable : (s.dropTensor i).tensorTable =
    if i < s.tensorCount - 1 then
      update s.tensorTable i (s.tensorTable (s.tensorCount - 1)) else s.tensorTable := by
  simp only [MmState.dropTensor]
  split <;> rfl

end

theorem live_dropTensor (hi : i < s.tensorCount) :
    (live s).Perm (s.tensorTable i :: live (s.dropTensor i)) := by
  obtain ⟨m, hm⟩ : ∃ m, s.tensorCount = m + 1 := ⟨s.tensorCount - 1, by omega⟩
  have hlive : live s = (List.range m).map s.tensorTable ++ [s.tensorTable m] := by
    rw [live, hm, range_succ, map_append]
    rfl
  by_cases hlast : i < m
  · -- the records before and after `i` stay, and the last one fills the gap
    obtain ⟨xs, ys, hxy⟩ := append_of_mem (mem_range.mpr hlast)
    have hnd : (xs ++ i :: ys).Nodup := hxy ▸ nodup_range
    have hdrop : live (s.dropTensor i) =
        (List.range m).map (update s.tensorTable i (s.tensorTable m)) := by
      simp [live, dropTensor_tensorTable, hm, hlast]
    have hother : ∀ zs : List Nat, i ∉ zs →
        zs.map (update s.tensorTable i (s.tensorTable m)) = zs.map s.tensorTable := by
      intro zs hz
      refine map_congr_left fun j hj => update_of_ne ?_ _ _
      rintro rfl
      exact hz hj
    obtain ⟨-, hnd', hd⟩ := nodup_append.mp hnd
    have hxs : i ∉ xs := fun h => hd i h i (by simp) rfl
    have hys : i ∉ ys := (nodup_cons.mp hnd').1
    rw [hlive, hdrop, hxy, map_append, map_append, map_cons, map_cons,
      hother xs hxs, hother ys hys, update_self]
    refine perm_iff_count.mpr fun t => ?_
    simp only [count_append, count_cons, count_nil]
    omega
  · obtain rfl : i = m := by omega
    have hdrop : live (s.dropTensor i) = (List.range i).map s.tensorTable := by
      simp [live, dropTensor_tensorTable, hm]
    rw [hlive, hdrop]
    exact perm_append_singleton _ _

theorem MmInv.setTensor (h : MmInv M s F) (i : Nat) (f : TensorAlloc → TensorAlloc)
    (hf : ∀ t, (f t).key = t.key) : MmInv M (s.setTensor i f) F where
  represents := h.represents
  sound := h.sound.congr_live (live_setTensor TensorAlloc.key f hf)
  idsLt t ht := by
    have hm : t.key ∈ (live s).map TensorAlloc.key :=
      live_setTensor TensorAlloc.key f hf ▸ mem_map_of_mem ht
    obtain ⟨u, hu, he⟩ := mem_map.mp hm
    have hid : u.id = t.id := congrArg (fun k => k.1) he
    exact hid ▸ h.idsLt u hu
  idsBound := h.idsBound
  countLe := h.countLe

/-! ## `tensor_free` -/

theorem MmInv.release (hM : Addressable M) (h : MmInv M s F)
    (hfind : findTensor s id = some i) (href : (s.tensorTable i).refCount ≤ 1)
    (hlt : s.arena.blockPoolNext < MAX_BLOCKS) :
    ∃ s' F', tensorFree id s = .done (.ok, s') ∧ MmInv M s' F' ∧
      (live s).Perm (s.tensorTable i :: live s') ∧ s'.poolBase = s.poolBase ∧
      s'.arena.blockPoolNext = s.arena.blockPoolNext + 1 ∧ s'.nextTensorId = s.nextTensorId := by
  obtain ⟨hi, -⟩ := findTensor_some hfind
  have hperm := live_dropTensor hi
  have hsound := h.sound.perm hperm
  obtain ⟨as, bs, hF, has, hbs⟩ := hsound.place
  rcases h.represents.allocBlock with ⟨-, hfull⟩ | ⟨a₁, halloc, h₁, hnext₁, hfresh, -⟩
  · omega
  -- the descriptor gets the tensor's span, is inserted, and merged with its neighbours
  have hself : (a₁.setBlock s.arena.blockPoolNext (s.tensorTable i).toBlock).blockPool
      s.arena.blockPoolNext = (s.tensorTable i).toBlock (a₁.blockPool s.arena.blockPoolNext) := by
    rw [Arena.setBlock_blockPool, if_pos rfl]
  have h₂ := h₁.setFresh hfresh (s.tensorTable i).toBlock
  have hins : Insertable (a₁.setBlock s.arena.blockPoolNext (s.tensorTable i).toBlock) F
      (s.tensorTable i).region as bs s.arena.blockPoolNext :=
    { split := hF
      fresh := hfresh
      lt := by simp [hnext₁]
      type := by rw [hself]; rfl
      isFree := by rw [hself]; rfl
      before := fun m hm => by rw [hself]; exact (has m hm).1
      after := fun m hm => by rw [hself]; exact (hbs m (mem_of_mem_head? hm)).1 }
  obtain ⟨a₃, hins₃, h₃, hnext₃, -⟩ := h₂.insert hins
  rw [hself] at h₃
  have hgaps := h.sound.gaps (s.tensorTable i).region
  rw [hF] at hgaps
  obtain ⟨hga, hgb, -⟩ := pairwise_append.mp hgaps
  have hmerge : Merging M a₃ _ (live (s.dropTensor i)) (s.tensorTable i).region as
      ⟨s.arena.blockPoolNext, (s.tensorTable i).span⟩ bs :=
    { represents := h₃
      covers := hsound.toCovers.giveBack hF _
      split := update_self ..
      before := hga
      after := hgb
      others := fun r' hr => by
        rw [update_of_ne hr]
        exact h.sound.gaps r'
      fin_le := fun m hm => (has m hm).2
      le_base := fun m hm => (hbs m hm).2 }
  obtain ⟨F', hrep, hsnd⟩ := hmerge.coalesce hM
  have hlive : live (({ s with
      arena := a₃.coalesceBlocks s.arena.blockPoolNext,
      globalStats := statsAfterFree (s.tensorTable i) s.globalStats } : MmState).dropTensor i) =
      live (s.dropTensor i) := by
    simp only [live, dropTensor_tensorCount, dropTensor_tensorTable]
  refine ⟨_, F', ?_, ?_, hlive ▸ hperm, by simp, by simp [hnext₃, hnext₁], by simp⟩
  · simp only [tensorFree, hfind, if_neg href.not_gt, halloc, hins₃, Outcome.done_bind]
  · refine ⟨by simpa using hrep, hlive ▸ hsnd, fun t ht => ?_, ?_, ?_⟩
    · rw [dropTensor_nextTensorId]
      exact h.idsLt t (hperm.mem_iff.mpr (mem_cons_of_mem _ (hlive ▸ ht)))
    · have hb := h.idsBound
      simp only [dropTensor_nextTensorId, dropTensor_tensorCount, dropTensor_arena,
        coalesceBlocks_blockPoolNext, hnext₃, Arena.setBlock_blockPoolNext, hnext₁]
      omega
    · have hc := h.countLe
      simp only [dropTensor_tensorCount]
      omega

variable {t : TensorAlloc} {fuel : Nat} {st : AiosStatus}

theorem MmInv.find_live (h : MmInv M s F) (ht : t ∈ live s) :
    ∃ i, findTensor s t.id = some i ∧ s.tensorTable i = t := by
  cases hfind : findTensor s t.id with
  | none =>
    obtain ⟨j, hj, rfl⟩ := mem_map.mp ht
    have := find?_eq_none.mp hfind j hj
    simp at this
  | some i =>
    obtain ⟨hi, hid⟩ := findTensor_some hfind
    exact ⟨i, rfl, inj_on_of_nodup_map h.sound.ids (mem_live hi) ht hid⟩

/-- A record with one reference less. -/
abbrev TensorAlloc.dropped (t : TensorAlloc) : TensorAlloc := { t with refCount := t.refCount - 1 }

section

variable (hM : Addressable M) (h : MmInv M s F)
include hM h

/-- Releasing a live tensor with one reference: it fails for want of a descriptor, or the
tensor is gone. -/
theorem MmInv.free_live (ht : t ∈ live s)
    (href : t.refCount ≤ 1) :
    (TensorMm.tensorFree t.id s = .done (.errNomem, s) ∧ s.arena.blockPoolNext = MAX_BLOCKS) ∨
    ∃ s' F', TensorMm.tensorFree t.id s = .done (.ok, s') ∧ MmInv M s' F' ∧
      (live s).Perm (t :: live s') ∧ s'.poolBase = s.poolBase ∧
      s'.arena.blockPoolNext = s.arena.blockPoolNext + 1 ∧ s'.nextTensorId = s.nextTensorId := by
  obtain ⟨i, hfind, rfl⟩ := h.find_live ht
  by_cases hlt : s.arena.blockPoolNext < MAX_BLOCKS
  · exact .inr (h.release hM hfind href hlt)
  · have hfull : s.arena.allocBlock = none := by
      simp [Arena.allocBlock, not_lt.mp hlt]
    refine .inl ⟨?_, h.represents.cap.antisymm (not_lt.mp hlt)⟩
    simp only [TensorMm.tensorFree, hfind, if_neg href.not_gt, hfull]

theorem MmInv.tensorFree (id : Nat) :
    ∃ st s' F', tensorFree id s = .done (st, s') ∧ MmInv M s' F' ∧ s'.poolBase = s.poolBase := by
  cases hfind : findTensor s id with
  | none => exact ⟨.errInval, s, F, by simp [TensorMm.tensorFree, hfind], h, rfl⟩
  | some i =>
    by_cases href : 1 < (s.tensorTable i).refCount
    · exact ⟨.ok, _, F, by simp [TensorMm.tensorFree, hfind, href],
        h.setTensor i .dropped fun _ => rfl, rfl⟩
    · by_cases hlt : s.arena.blockPoolNext < MAX_BLOCKS
      · obtain ⟨s', F', hcall, hinv, -, hbase, -⟩ := h.release hM hfind (not_lt.mp href) hlt
        exact ⟨.ok, s', F', hcall, hinv, hbase⟩
      · have hfull : s.arena.allocBlock = none := by
          simp [Arena.allocBlock, not_lt.mp hlt]
        exact ⟨.errNomem, s, F, by simp [TensorMm.tensorFree, hfind, href, hfull], h, rfl⟩

end

theorem live_setTensor_dropTensor (f : TensorAlloc → TensorAlloc) :
    live ((s.setTensor i f).dropTensor i) = live (s.dropTensor i) := by
  simp only [live, dropTensor_tensorCount, dropTensor_tensorTable, MmState.setTensor]
  refine map_congr_left fun j hj => ?_
  have hj := mem_range.mp hj
  by_cases hlast : i < s.tensorCount - 1
  · rw [if_pos hlast, if_pos hlast, update_idem,
      update_of_ne hlast.ne']
  · rw [if_neg hlast, if_neg hlast, update_of_ne (by omega)]

/-- Dropping the last reference: it fails for want of a descriptor, or the tensor is gone. -/
theorem MmInv.unref_live (hM : Addressable M) (h : MmInv M s F) (ht : t ∈ live s)
    (href : t.refCount = 1) :
    (∃ s', TensorMm.tensorUnref t.id s = .done (.errNomem, s') ∧
      s.arena.blockPoolNext = MAX_BLOCKS) ∨
    ∃ s' F', TensorMm.tensorUnref t.id s = .done (.ok, s') ∧ MmInv M s' F' ∧
      (live s).Perm (t :: live s') ∧
      s'.arena.blockPoolNext = s.arena.blockPoolNext + 1 := by
  obtain ⟨i, hfind, rfl⟩ := h.find_live ht
  obtain ⟨hi, -⟩ := findTensor_some hfind
  have hdec := h.setTensor i .dropped fun _ => rfl
  generalize hs₁ : s.setTensor i .dropped = s₁ at hdec
  have hrec : s₁.tensorTable i = { s.tensorTable i with refCount := 0 } := by
    simp [← hs₁, MmState.setTensor, href]
  have hcall : TensorMm.tensorUnref (s.tensorTable i).id s =
      TensorMm.tensorFree (s₁.tensorTable i).id s₁ := by
    simp [TensorMm.tensorUnref, hfind, href, hs₁, hrec]
  have hi₁ : i < s₁.tensorCount := hs₁ ▸ hi
  rw [hcall]
  rcases hdec.free_live hM (mem_live hi₁) (by simp [hrec]) with
    ⟨hc, hfull⟩ | ⟨s', F', hc, hinv, hp, -, hn, -⟩
  · exact .inl ⟨s₁, hc, by rwa [← hs₁] at hfull⟩
  · refine .inr ⟨s', F', hc, hinv, (live_dropTensor hi).trans (List.Perm.cons _ ?_),
      by rwa [← hs₁] at hn⟩
    have hp' := (live_dropTensor hi₁).symm.trans hp
    rw [← hs₁, live_setTensor_dropTensor] at hp'
    exact hp'.cons_inv

theorem MmInv.tensorRef (h : MmInv M s F) (id : Nat) :
    MmInv M (tensorRef id s).2 F ∧ (TensorMm.tensorRef id s).2.poolBase = s.poolBase := by
  unfold TensorMm.tensorRef
  split
  · exact ⟨h, rfl⟩
  · exact ⟨h.setTensor _ (fun t => { t with refCount := u32 (t.refCount + 1) }) fun _ => rfl, rfl⟩

theorem MmInv.tensorUnref (hM : Addressable M) (h : MmInv M s F) (id : Nat) :
    ∃ st s' F', tensorUnref id s = .done (st, s') ∧ MmInv M s' F' ∧ s'.poolBase = s.poolBase := by
  unfold TensorMm.tensorUnref
  split
  · exact ⟨.errInval, s, F, rfl, h, rfl⟩
  · rename_i i _
    have hdec := h.setTensor i .dropped fun _ => rfl
    split
    · exact ⟨.errInval, s, F, rfl, h, rfl⟩
    · simp only []
      split
      · exact hdec.tensorFree hM id
      · exact ⟨.ok, _, F, rfl, hdec, rfl⟩

/-- The loop of `model_free`: what a release keeps, and a step to the next index, holds where the
loop stops, behind the last record. -/
theorem modelFree_induction {P : Nat → MmState → Prop}
    (free : ∀ i s st s', i < s.tensorCount → (s.tensorTable i).region = .model →
      TensorMm.tensorFree (s.tensorTable i).id s = .done (st, s') → P i s → P i s')
    (skip : ∀ i s, (s.tensorTable i).region ≠ .model → P i s → P (i + 1) s) {s s' : MmState}
    (h : P 0 s) (hcall : modelFree fuel s = .done (st, s')) :
    st = .ok ∧ ∃ i, s'.tensorCount ≤ i ∧ P i s' := by
  unfold modelFree at hcall
  generalize 0 = i at h hcall
  induction fuel generalizing i s with
  | zero => cases hcall
  | succ fuel ih =>
    simp only [modelFreeFrom] at hcall
    split at hcall
    · rename_i hi
      split at hcall
      · rename_i hregion
        obtain ⟨⟨st₁, s₁⟩, hfree, hrest⟩ := Outcome.bind_eq_done.mp hcall
        exact ih i (free i s st₁ s₁ hi hregion hfree h) hrest
      · rename_i hregion
        exact ih (i + 1) (skip i s hregion h) hcall
    · rename_i hi
      cases hcall
      exact ⟨rfl, i, not_lt.mp hi, h⟩

theorem modelFree_preserves {P : MmState → Prop}
    (free : ∀ i s st s', i < s.tensorCount → (s.tensorTable i).region = .model →
      TensorMm.tensorFree (s.tensorTable i).id s = .done (st, s') → P s → P s') {s s' : MmState}
    (h : P s) (hcall : modelFree fuel s = .done (st, s')) : P s' := by
  obtain ⟨-, i, -, h'⟩ := modelFree_induction free (fun _ _ _ h => h) h hcall
  exact h'

end

end AiosKernel.TensorMm
