/-
# `AiosKernel.TensorMm.Regions` — what the manager is for: regions cut into free and live spans

The abstract state is, for each region, the free nodes in address order, and
the list of live tensors.  `Covers M F live` is the conservation law: in every
region `r` the free spans and the spans of the region's tensors are disjoint and
make up exactly the managed set `M r`.  `Sound` adds that free nodes are sorted
and never touch.

Carving an allocation out of a node (`Sound.carve`), putting a tensor's span
back (`Covers.giveBack`) and joining two nodes (`Covers.join`) are all there is.
-/
import AiosKernel.TensorMm.FreeList

namespace AiosKernel.TensorMm

open Word DList Tiling List Function

def TensorAlloc.span (t : TensorAlloc) : Span := ⟨t.physAddr, t.size⟩

/-- Base and size are positive multiples of 64. -/
structure Aligned (sp : Span) : Prop where
  base_pos : 0 < sp.base
  base_mod : sp.base % TENSOR_ALIGN = 0
  size_pos : 0 < sp.size
  size_mod : sp.size % TENSOR_ALIGN = 0

/-- The first node ends strictly before the second begins. -/
def Gap (m n : FreeNode) : Prop := m.span.fin < n.span.base

/-- The spans of a region, free ones first. -/
def spansOf (F : MemRegion → List FreeNode) (live : List TensorAlloc) (r : MemRegion) :
    List Span :=
  (F r).map FreeNode.span ++ (live.filter fun t => t.region = r).map TensorAlloc.span

/-- Free and live spans make up the managed sets, and tensors have their own ids. -/
structure Covers (M : MemRegion → Set Nat) (F : MemRegion → List FreeNode)
    (live : List TensorAlloc) : Prop where
  freeAligned : ∀ r, ∀ n ∈ F r, Aligned n.span
  liveAligned : ∀ t ∈ live, Aligned t.span
  tiles : ∀ r, Tiles (spansOf F live r) (M r)
  ids : (live.map TensorAlloc.id).Nodup

/-- Moreover free nodes are sorted and no two of them touch. -/
structure Sound (M : MemRegion → Set Nat) (F : MemRegion → List FreeNode)
    (live : List TensorAlloc) : Prop extends Covers M F live where
  gaps : ∀ r, (F r).Pairwise Gap

section

variable {M : MemRegion → Set Nat} {F : MemRegion → List FreeNode} {live rest : List TensorAlloc}
  {r : MemRegion} {as bs : List FreeNode} {n : FreeNode} {t : TensorAlloc}

theorem Covers.perm (h : Covers M F live) (hp : live.Perm rest) : Covers M F rest where
  freeAligned := h.freeAligned
  liveAligned t ht := h.liveAligned t (hp.mem_iff.mpr ht)
  tiles r := (h.tiles r).perm (List.Perm.append_left _ ((hp.filter _).map _))
  ids := (hp.map _).nodup_iff.mp h.ids

theorem Sound.perm (h : Sound M F live) (hp : live.Perm rest) : Sound M F rest :=
  { h.toCovers.perm hp with gaps := h.gaps }

/-- What the regions know of a tensor. -/
def TensorAlloc.key (t : TensorAlloc) : Nat × Span × MemRegion := (t.id, t.span, t.region)

theorem Sound.congr_live (h : Sound M F live)
    (hk : rest.map TensorAlloc.key = live.map TensorAlloc.key) : Sound M F rest := by
  have hspan : ∀ (l : List TensorAlloc) r, (l.filter fun t => t.region = r).map TensorAlloc.span =
      ((l.map TensorAlloc.key).filter fun k => k.2.2 = r).map fun k => k.2.1 := by
    intro l r
    rw [filter_map, map_map]
    rfl
  have hid : ∀ l : List TensorAlloc,
      l.map TensorAlloc.id = (l.map TensorAlloc.key).map fun k => k.1 := by
    intro l
    rw [map_map]
    rfl
  refine ⟨⟨h.freeAligned, fun t ht => ?_, fun r => ?_, ?_⟩, h.gaps⟩
  · have hm : t.key ∈ live.map TensorAlloc.key := hk ▸ mem_map_of_mem ht
    obtain ⟨u, hu, he⟩ := mem_map.mp hm
    have : u.span = t.span := congrArg (fun k => k.2.1) he
    exact this ▸ h.liveAligned u hu
  · have := h.tiles r
    rw [spansOf, hspan, ← hk, ← hspan] at this
    exact this
  · rw [hid, hk, ← hid]
    exact h.ids

/-! ## Bytes -/

def freeBytes (F : MemRegion → List FreeNode) : Nat :=
  (MemRegion.all.map fun r => ((F r).map fun n => n.span.size).sum).sum

def bytes (ts : List TensorAlloc) : Nat := (ts.map TensorAlloc.size).sum

noncomputable def managedBytes (M : MemRegion → Set Nat) : Nat :=
  (MemRegion.all.map fun r => Set.ncard (M r)).sum

theorem sum_bytes_region (ts : List TensorAlloc) :
    (MemRegion.all.map fun r => bytes (ts.filter fun t => t.region = r)).sum = bytes ts := by
  induction ts with
  | nil => rfl
  | cons t ts ih =>
    have hone : (MemRegion.all.map fun r => if t.region = r then t.size else 0).sum = t.size := by
      cases t.region <;> simp [MemRegion.all]
    have hcons (r : MemRegion) : bytes ((t :: ts).filter fun t => t.region = r) =
        (if t.region = r then t.size else 0) + bytes (ts.filter fun t => t.region = r) := by
      by_cases hr : t.region = r
      · simp [bytes, hr]
      · simp [bytes, hr]
    simp only [hcons, sum_map_add, hone, ih]
    rfl

/-- **Free and live bytes together are the managed ones.** -/
theorem Covers.balance (h : Covers M F live) : freeBytes F + bytes live = managedBytes M := by
  have hregion (r : MemRegion) : ((F r).map fun n => n.span.size).sum +
      bytes (live.filter fun t => t.region = r) = Set.ncard (M r) := by
    have hsum := (h.tiles r).sum_size.2
    rw [spansOf, map_append, sum_append, map_map, map_map] at hsum
    exact hsum
  unfold managedBytes
  simp only [← hregion, sum_map_add, sum_bytes_region]
  rfl

variable {sp : Span} {fs gs : List FreeNode}

theorem Covers.fin_le (h : Covers M F live) {z : Nat} (hM : ∀ r, ∀ a ∈ M r, a < z)
    (hsp : sp ∈ spansOf F live r) (hpos : 0 < sp.size) : sp.fin ≤ z := by
  have hmem : sp.base + sp.size - 1 ∈ sp := by
    rw [Span.mem_iff]
    omega
  have := hM r _ (((h.tiles r).cover _).mpr ⟨sp, hsp, hmem⟩)
  simp only [Span.fin]
  omega

theorem Covers.node_fin_le (h : Covers M F live) {z : Nat} (hM : ∀ r, ∀ a ∈ M r, a < z)
    (hn : n ∈ F r) : n.span.fin ≤ z :=
  h.fin_le hM (mem_append_left _ (mem_map_of_mem hn)) (h.freeAligned r n hn).size_pos

/-! ## Putting a span back -/

theorem Covers.giveBack (h : Covers M F (t :: rest)) (hF : F t.region = as ++ bs) (i : Nat) :
    Covers M (update F t.region (as ++ ⟨i, t.span⟩ :: bs)) rest where
  freeAligned := by
    refine forall_mem_update (fun n hn => ?_) fun r _ => h.freeAligned r
    simp only [mem_append, mem_cons] at hn
    rcases hn with hn | rfl | hn
    · exact h.freeAligned t.region n (by simp [hF, hn])
    · exact h.liveAligned t (by simp)
    · exact h.freeAligned t.region n (by simp [hF, hn])
  liveAligned u hu := h.liveAligned u (by simp [hu])
  tiles r := by
    have htiles := h.tiles r
    by_cases hr : r = t.region
    · subst hr
      refine htiles.perm ?_
      simp only [spansOf, update_self, hF, filter_cons, decide_true, if_true,
        map_append, map_cons, append_assoc, cons_append]
      refine List.Perm.append_left _ ?_
      exact perm_middle
    · have hr' : ¬ t.region = r := fun he => hr he.symm
      simpa only [spansOf, update_of_ne hr, filter_cons, hr', decide_false,
        Bool.false_eq_true, if_false] using htiles
  ids := (nodup_cons.mp h.ids).2

theorem Covers.join {m : FreeNode} (h : Covers M F live) (hF : F r = as ++ n :: m :: bs)
    (hadj : n.span.fin = m.span.base) :
    Covers M (update F r
      (as ++ ⟨n.ix, ⟨n.span.base, n.span.size + m.span.size⟩⟩ :: bs)) live where
  freeAligned := by
    refine forall_mem_update (fun e he => ?_) fun r' _ => h.freeAligned r'
    simp only [mem_append, mem_cons] at he
    rcases he with he | rfl | he
    · exact h.freeAligned r e (by simp [hF, he])
    · have hn := h.freeAligned r n (by simp [hF])
      have hm := h.freeAligned r m (by simp [hF])
      refine ⟨hn.base_pos, hn.base_mod, Nat.add_pos_left hn.size_pos _, ?_⟩
      rw [Nat.add_mod, hn.size_mod, hm.size_mod]
      rfl
    · exact h.freeAligned r e (by simp [hF, he])
  liveAligned := h.liveAligned
  tiles r' := by
    have htiles := h.tiles r'
    by_cases hr : r' = r
    · subst hr
      simp only [spansOf, update_self, hF, map_append, map_cons,
        append_assoc, cons_append] at htiles ⊢
      -- bring the two spans to the front, join them there, and put the result back
      have hfront := htiles.perm (perm_middle.trans (perm_middle.cons _))
      have hm : m.span = ⟨n.span.base + n.span.size, m.span.size⟩ := by
        have : m.span.base = n.span.base + n.span.size := hadj.symm
        rw [← this]
      rw [hm] at hfront
      exact (tiles_cut.mpr hfront).perm perm_middle.symm
    · simpa only [spansOf, update_of_ne hr] using htiles
  ids := h.ids

/-! ## Carving out an allocation -/

/-- A node is cut into the nodes `fs`, the new tensor and the nodes `gs`. -/
structure Carved (n : FreeNode) (fs : List FreeNode) (sp : Span) (gs : List FreeNode) : Prop where
  abut : Abut n.span.base (fs.map FreeNode.span ++ sp :: gs.map FreeNode.span) n.span.fin
  frontAligned : ∀ m ∈ fs, Aligned m.span
  aligned : Aligned sp
  backAligned : ∀ m ∈ gs, Aligned m.span
  frontLe : fs.length ≤ 1
  backLe : gs.length ≤ 1

theorem Carved.bounds (h : Carved n fs sp gs) :
    (∀ m ∈ fs, n.span.base ≤ m.span.base ∧ m.span.fin ≤ sp.base) ∧
    (n.span.base ≤ sp.base ∧ sp.fin ≤ n.span.fin) ∧
    ∀ m ∈ gs, sp.fin ≤ m.span.base ∧ m.span.fin ≤ n.span.fin := by
  obtain ⟨z, hfs, hsp, hgs⟩ := abut_append.mp h.abut
  refine ⟨fun m hm => ?_, ⟨hsp ▸ hfs.le, hgs.le⟩, fun m hm => ?_⟩
  · exact hsp ▸ hfs.mem_bounds m.span (mem_map_of_mem hm)
  · exact hgs.mem_bounds m.span (mem_map_of_mem hm)

theorem pairwise_of_length_le_one {α : Type*} {R : α → α → Prop} {l : List α}
    (h : l.length ≤ 1) : l.Pairwise R := by
  match l, h with
  | [], _ => exact List.Pairwise.nil
  | [x], _ => exact pairwise_singleton R x

theorem Carved.gaps (h : Carved n fs sp gs) (hg : (as ++ n :: bs).Pairwise Gap) :
    (as ++ (fs ++ gs) ++ bs).Pairwise Gap := by
  obtain ⟨hfs, hsp, hgs⟩ := h.bounds
  obtain ⟨hga, hgn, hab⟩ := pairwise_append.mp hg
  obtain ⟨hnb, hgb⟩ := pairwise_cons.mp hgn
  have hpos := h.aligned.size_pos
  have hinside : ∀ m ∈ fs ++ gs, n.span.base ≤ m.span.base ∧ m.span.fin ≤ n.span.fin := by
    intro m hm
    rcases mem_append.mp hm with hm | hm
    · have := hfs m hm
      simp only [Span.fin] at *
      omega
    · have := hgs m hm
      simp only [Span.fin] at *
      omega
  have hmid : (fs ++ gs).Pairwise Gap := by
    refine pairwise_append.mpr ⟨pairwise_of_length_le_one h.frontLe,
      pairwise_of_length_le_one h.backLe, fun m hm k hk => ?_⟩
    have h₁ := (hfs m hm).2
    have h₂ := (hgs k hk).1
    simp only [Gap, Span.fin] at *
    omega
  refine pairwise_append.mpr ⟨pairwise_append.mpr ⟨hga, hmid, ?_⟩, hgb, ?_⟩
  · intro m hm k hk
    exact (hab m hm n (by simp)).trans_le (hinside k hk).1
  · intro m hm k hk
    rcases mem_append.mp hm with hm | hm
    · exact hab m hm k (by simp [hk])
    · exact (hinside m hm).2.trans_lt (hnb k hk)

theorem Sound.carve (h : Sound M F live) (hF : F t.region = as ++ n :: bs)
    (hc : Carved n fs t.span gs) (hid : t.id ∉ live.map TensorAlloc.id) :
    Sound M (update F t.region (as ++ (fs ++ gs) ++ bs)) (t :: live) where
  gaps := (forall_update_iff F fun _ ns => ns.Pairwise Gap).mpr
    ⟨hc.gaps (hF ▸ h.gaps t.region), fun r _ => h.gaps r⟩
  freeAligned := by
    refine forall_mem_update (fun m hm => ?_) fun r _ => h.freeAligned r
    simp only [mem_append] at hm
    rcases hm with (hm | hm | hm) | hm
    · exact h.freeAligned t.region m (by simp [hF, hm])
    · exact hc.frontAligned m hm
    · exact hc.backAligned m hm
    · exact h.freeAligned t.region m (by simp [hF, hm])
  liveAligned := forall_mem_cons.mpr ⟨hc.aligned, h.liveAligned⟩
  tiles r := by
    have htiles := h.tiles r
    by_cases hr : r = t.region
    · subst hr
      simp only [spansOf, update_self, hF, filter_cons, decide_true, if_true,
        map_append, map_cons, append_assoc, cons_append] at htiles ⊢
      have hsize : n.span = ⟨n.span.base, n.span.fin - n.span.base⟩ := by
        simp [Span.fin]
      have hfront := htiles.perm perm_middle
      rw [hsize] at hfront
      refine ((tiles_abut hc.abut).mp hfront).perm (perm_iff_count.mpr fun x => ?_)
      simp only [count_append, count_cons]
      omega
    · have hr' : ¬ t.region = r := fun he => hr he.symm
      simpa only [spansOf, update_of_ne hr, filter_cons, hr', decide_false,
        Bool.false_eq_true, if_false] using htiles
  ids := nodup_cons.mpr ⟨hid, h.ids⟩

/-! ## Where a span belongs -/

/-- Among the free nodes of its region a live span has a place: nodes end before it or begin
after it. -/
theorem Sound.place (h : Sound M F (t :: rest)) :
    ∃ as bs, F t.region = as ++ bs ∧
      (∀ m ∈ as, m.span.base < t.span.base ∧ m.span.fin ≤ t.span.base) ∧
      ∀ m ∈ bs, t.span.base < m.span.base ∧ t.span.fin ≤ m.span.base := by
  obtain ⟨as, bs, hF, has, hbs⟩ := exists_place
    (h.gaps t.region) fun m n hgap hlt =>
      ((Nat.le_add_right _ _).trans_lt hgap).trans hlt
  have ht := h.liveAligned t (by simp)
  -- the tiling keeps every free node apart from the tensor
  have hapart : ∀ m ∈ F t.region, m.span.fin ≤ t.span.base ∨ t.span.fin ≤ m.span.base := by
    intro m hm
    have hap := (h.tiles t.region).apart
    have := (pairwise_append.mp hap).2.2 m.span (mem_map_of_mem hm) t.span (by simp)
    exact (Span.apart_iff (h.freeAligned _ m hm).size_pos ht.size_pos).mp this
  refine ⟨as, bs, hF, fun m hm => ⟨has m hm, ?_⟩, fun m hm => ?_⟩
  · have h₁ := has m hm
    rcases hapart m (by simp [hF, hm]) with h₂ | h₂
    · exact h₂
    · simp only [Span.fin] at h₂
      omega
  · have h₁ := not_lt.mp (hbs m hm)
    have hpos := (h.freeAligned t.region m (by simp [hF, hm])).size_pos
    have htpos := ht.size_pos
    rcases hapart m (by simp [hF, hm]) with h₂ | h₂
    · simp only [Span.fin] at h₂
      omega
    · simp only [Span.fin] at h₂ ⊢
      exact ⟨by omega, h₂⟩

end

end AiosKernel.TensorMm
