/-
# `AiosKernel.TensorMm.FreeList` — the descriptors represent one list of free spans per region

`Represents a F`: for every region `r` the descriptors reached from
`free_lists[r]` are those of `F r`, in order and linked both ways, and each
carries the span that `F r` gives it.  The lists of two regions never share a
descriptor, because a descriptor records its region.

Each list operation of `tensor_mm.c` is one edit of one `F r`:
`free_list_insert` inserts at the place its base has, `free_list_remove` takes
a node out, and a merge of `coalesce_blocks` replaces two nodes by one.
-/
import AiosKernel.TensorMm.Model
import AiosKernel.Lib.Tiling

namespace AiosKernel.TensorMm

open Word DList Tiling Arena List Function

/-- A descriptor and the addresses it stands for. -/
structure FreeNode where
  ix : Nat
  span : Span
  deriving DecidableEq, Repr

/-- The addresses a descriptor records. -/
def MemBlock.span (b : MemBlock) : Span := ⟨b.base, b.size⟩

/-- The descriptor `b` is the free node `n` of region `r`. -/
structure Holds (b : MemBlock) (r : MemRegion) (n : FreeNode) : Prop where
  span : b.span = n.span
  type : b.type = r
  isFree : b.isFree = true

/-- A descriptor without its links. -/
def MemBlock.unlinked (b : MemBlock) : MemBlock := { b with next := none, prev := none }

variable {r : MemRegion} {n : FreeNode} {b : MemBlock}

theorem Holds.of_unlinked {b b' : MemBlock} (h : Holds b r n) (he : b'.unlinked = b.unlinked) :
    Holds b' r n :=
  ⟨(congrArg MemBlock.span he).trans h.span, (congrArg MemBlock.type he).trans h.type,
    (congrArg MemBlock.isFree he).trans h.isFree⟩

theorem Holds.base_eq (h : Holds b r n) : b.base = n.span.base := congrArg Span.base h.span

theorem Holds.size_eq (h : Holds b r n) : b.size = n.span.size := congrArg Span.size h.span

/-- The free lists of the arena are the nodes `F`. -/
structure Represents (a : Arena) (F : MemRegion → List FreeNode) : Prop where
  links : ∀ r, IsList a.next a.prev (a.freeLists r) ((F r).map FreeNode.ix)
  holds : ∀ r, ∀ n ∈ F r, Holds (a.blockPool n.ix) r n
  bound : ∀ r, ∀ n ∈ F r, n.ix < a.blockPoolNext
  cap : a.blockPoolNext ≤ MAX_BLOCKS

namespace Arena

/-! ## What the writes leave -/

section

variable (a : Arena) (i y : Nat) (f : MemBlock → MemBlock) (r : MemRegion) (h : Option Nat)

theorem setBlock_blockPool :
    (a.setBlock i f).blockPool y = if y = i then f (a.blockPool i) else a.blockPool y := by
  simp only [setBlock, update_apply]

theorem setBlock?_blockPool (j : Option Nat) :
    (a.setBlock? j f).blockPool y = if j = some y then f (a.blockPool y) else a.blockPool y := by
  cases j with
  | none => simp [setBlock?]
  | some j =>
    simp only [setBlock?, setBlock_blockPool, Option.some.injEq, @eq_comm _ j]
    split <;> simp_all

theorem setBlock_span (hf : ∀ b : MemBlock, (f b).span = b.span) :
    ((a.setBlock i f).blockPool y).span = (a.blockPool y).span := by
  rw [setBlock_blockPool]
  split
  · rename_i hy
    rw [hf, hy]
  · rfl

theorem setBlock?_span (j : Option Nat) (hf : ∀ b : MemBlock, (f b).span = b.span) :
    ((a.setBlock? j f).blockPool y).span = (a.blockPool y).span := by
  cases j with
  | none => rfl
  | some j => exact setBlock_span a j y f hf

@[simp] theorem setBlock_freeLists : (a.setBlock i f).freeLists = a.freeLists := rfl
@[simp] theorem setBlock_blockPoolNext : (a.setBlock i f).blockPoolNext = a.blockPoolNext := rfl
@[simp] theorem setHead_blockPool : (a.setHead r h).blockPool = a.blockPool := rfl
@[simp] theorem setHead_blockPoolNext : (a.setHead r h).blockPoolNext = a.blockPoolNext := rfl

@[simp] theorem setBlock?_freeLists (j : Option Nat) :
    (a.setBlock? j f).freeLists = a.freeLists := by
  cases j <;> rfl

@[simp] theorem setBlock?_blockPoolNext (j : Option Nat) :
    (a.setBlock? j f).blockPoolNext = a.blockPoolNext := by
  cases j <;> rfl

theorem setHead_freeLists (r' : MemRegion) :
    (a.setHead r h).freeLists r' = if r' = r then h else a.freeLists r' := by
  simp only [setHead, update_apply]

theorem bypass_blockPool (p : Option Nat) : (a.bypass p h r).blockPool y =
    if p = some y then { a.blockPool y with next := h } else a.blockPool y := by
  cases p with
  | none => simp [bypass]
  | some p =>
    simp only [bypass, setBlock_blockPool, Option.some.injEq, @eq_comm _ p]
    split <;> simp_all

theorem bypass_freeLists (p : Option Nat) (r' : MemRegion) : (a.bypass p h r).freeLists r' =
    if p = none ∧ r' = r then h else a.freeLists r' := by
  cases p with
  | none => simp [bypass, setHead_freeLists]
  | some p => simp [bypass]

@[simp] theorem bypass_blockPoolNext (p : Option Nat) :
    (a.bypass p h r).blockPoolNext = a.blockPoolNext := by
  cases p <;> rfl

end

end Arena

section

variable {a a' : Arena} {F : MemRegion → List FreeNode} {r : MemRegion}
  {as bs : List FreeNode} {n : FreeNode}

variable {block i nx : Nat} {m : FreeNode}

theorem Represents.family (h : Represents a F) :
    Family a.next a.prev a.freeLists fun r => (F r).map FreeNode.ix where
  links := h.links
  apart r r' i hi hi' := by
    obtain ⟨n, hn, rfl⟩ := mem_map.mp hi
    obtain ⟨m, hm, he⟩ := mem_map.mp hi'
    have htype := (h.holds r' m hm).type
    rwa [he, (h.holds r n hn).type] at htype

theorem map_ix_split (hF : F r = as ++ n :: bs) :
    (F r).map FreeNode.ix = as.map FreeNode.ix ++ n.ix :: bs.map FreeNode.ix := by
  rw [hF, map_append, map_cons]

theorem forall_mem_update {P : MemRegion → FreeNode → Prop} {ns : List FreeNode}
    (hns : ∀ m ∈ ns, P r m) (h : ∀ r', r' ≠ r → ∀ m ∈ F r', P r' m) :
    ∀ r', ∀ m ∈ update F r ns r', P r' m :=
  (forall_update_iff F fun r' ns => ∀ m ∈ ns, P r' m).mpr ⟨hns, h⟩

section

variable (h : Represents a F)
include h

theorem Represents.list (hF : F r = as ++ n :: bs) :
    IsList a.next a.prev (a.freeLists r) (as.map FreeNode.ix ++ n.ix :: bs.map FreeNode.ix) :=
  h.family.list (map_ix_split hF)

theorem Represents.ix_ne {r' : MemRegion} (hr : r' ≠ r) (hm : m ∈ F r')
    (hn : n ∈ F r) : m.ix ≠ n.ix := fun he =>
  h.family.notMem_of_ne hr (mem_map_of_mem hm) (he ▸ mem_map_of_mem hn)

theorem Represents.ix_notMem (hF : F r = as ++ n :: bs) : ∀ m ∈ as ++ bs, m.ix ≠ n.ix := by
  obtain ⟨hna, hnb⟩ := (h.list hF).notMem
  intro m hm he
  rcases mem_append.mp hm with hm | hm
  · exact hna (he ▸ mem_map_of_mem hm)
  · exact hnb (he ▸ mem_map_of_mem hm)

theorem Represents.length_le (r : MemRegion) : (F r).length ≤ MAX_BLOCKS := by
  have hsub : (F r).map FreeNode.ix ⊆ List.range a.blockPoolNext := by
    intro i hi
    obtain ⟨n, hn, rfl⟩ := mem_map.mp hi
    exact mem_range.mpr (h.bound r n hn)
  have hle := ((h.links r).nodup.subperm hsub).length_le
  rw [length_map, length_range] at hle
  exact hle.trans h.cap

theorem Represents.edit (i : Nat) (zs ys : List FreeNode) (hF : F r = as ++ (zs ++ bs))
    (hfamily : Family a'.next a'.prev a'.freeLists (update (fun r => (F r).map FreeNode.ix)
      r ((as ++ (ys ++ bs)).map FreeNode.ix)))
    (hkeep : ∀ y, y ≠ i → (a'.blockPool y).unlinked = (a.blockPool y).unlinked)
    (hi : ∀ m ∈ as ++ bs, m.ix ≠ i) (hother : ∀ r', r' ≠ r → ∀ m ∈ F r', m.ix ≠ i)
    (hys : ∀ m ∈ ys, Holds (a'.blockPool m.ix) r m ∧ m.ix < a.blockPoolNext)
    (hnext : a'.blockPoolNext = a.blockPoolNext) :
    Represents a' (update F r (as ++ (ys ++ bs))) := by
  have hrest : ∀ m ∈ as ++ bs, m ∈ F r := by
    intro m hm
    rw [hF]
    rcases mem_append.mp hm with hm | hm <;> simp [hm]
  have hnodes : ∀ m ∈ as ++ (ys ++ bs), Holds (a'.blockPool m.ix) r m ∧ m.ix < a.blockPoolNext := by
    intro m hm
    have hm : m ∈ as ++ bs ∨ m ∈ ys := by
      simp only [mem_append] at hm ⊢
      tauto
    rcases hm with hm | hm
    · exact ⟨(h.holds r m (hrest m hm)).of_unlinked (hkeep _ (hi m hm)), h.bound r m (hrest m hm)⟩
    · exact hys m hm
  refine ⟨fun r' => ?_, ?_, ?_, hnext ▸ h.cap⟩
  · have hlist := hfamily.links r'
    by_cases hr : r' = r
    · subst hr
      rwa [update_self] at hlist ⊢
    · rwa [update_of_ne hr] at hlist ⊢
  · exact forall_mem_update (fun m hm => (hnodes m hm).1) fun r' hr m hm =>
      (h.holds r' m hm).of_unlinked (hkeep _ (hother r' hr m hm))
  · rw [hnext]
    exact forall_mem_update (fun m hm => (hnodes m hm).2) fun r' _ => h.bound r'

end

/-! ## `free_list_insert` -/

theorem linkFront_blockPool (hne : a.freeLists r ≠ some block) (y : Nat) :
    (a.linkFront block r).blockPool y =
      if y = block then { a.blockPool block with next := a.freeLists r, prev := none }
      else if a.freeLists r = some y then { a.blockPool y with prev := some block }
      else a.blockPool y := by
  simp only [Arena.linkFront, setHead_blockPool, setBlock?_blockPool, setBlock_blockPool]
  by_cases hy : y = block
  · simp only [hy, if_true, if_neg hne]
  · simp [hy]

theorem linkAfter_blockPool {block curr : Nat} (hne : curr ≠ block)
    (hself : a.next curr ≠ some curr) (hfresh : a.next curr ≠ some block) (y : Nat) :
    (a.linkAfter block curr).blockPool y =
      if y = curr then { a.blockPool curr with next := some block }
      else if y = block then { a.blockPool block with next := a.next curr, prev := some curr }
      else if a.next curr = some y then { a.blockPool y with prev := some block }
      else a.blockPool y := by
  have hnext : (a.setBlock block fun b =>
      { b with next := a.next curr, prev := some curr }).next curr = a.next curr := by
    simp only [Arena.next, setBlock_blockPool, if_neg hne]
  simp only [Arena.linkAfter, hnext, setBlock?_blockPool, setBlock_blockPool,
    if_neg hne, if_neg hself]
  by_cases hy : y = curr
  · simp [hy]
  · by_cases hy' : y = block
    · simp only [hy', if_true, if_neg hne.symm, if_neg hfresh]
    · simp [hy, hy']

theorem Represents.setFresh (h : Represents a F) (hi : ∀ r, ∀ m ∈ F r, m.ix ≠ i)
    (f : MemBlock → MemBlock) : Represents (a.setBlock i f) F := by
  have hsame : ∀ r, ∀ m ∈ F r, (a.setBlock i f).blockPool m.ix = a.blockPool m.ix := by
    intro r m hm
    rw [setBlock_blockPool, if_neg (hi r m hm)]
  refine ⟨fun r => (h.links r).congr fun j hj => ?_, fun r m hm => ?_, h.bound, h.cap⟩
  · obtain ⟨m, hm, rfl⟩ := mem_map.mp hj
    simp [Arena.next, Arena.prev, hsame r m hm]
  · rw [hsame r m hm]
    exact h.holds r m hm

/-- What `free_list_insert` needs of the block it inserts: it is on no list and its base
belongs between `as` and `bs`. -/
structure Insertable (a : Arena) (F : MemRegion → List FreeNode) (r : MemRegion)
    (as bs : List FreeNode) (i : Nat) : Prop where
  split : F r = as ++ bs
  fresh : ∀ r, ∀ m ∈ F r, m.ix ≠ i
  lt : i < a.blockPoolNext
  type : (a.blockPool i).type = r
  isFree : (a.blockPool i).isFree = true
  before : ∀ m ∈ as, m.span.base < (a.blockPool i).base
  after : ∀ m ∈ bs.head?, (a.blockPool i).base < m.span.base

theorem Insertable.notMem (hi : Insertable a F r as bs i) (r' : MemRegion) :
    i ∉ (F r').map FreeNode.ix := by
  intro hm
  obtain ⟨m, hm, he⟩ := mem_map.mp hm
  exact hi.fresh r' m hm he

theorem Insertable.represents (hi : Insertable a F r as bs i) (h : Represents a F)
    (hfamily : Family a'.next a'.prev a'.freeLists (update (fun r => (F r).map FreeNode.ix)
      r (as.map FreeNode.ix ++ i :: bs.map FreeNode.ix)))
    (hkeep : ∀ y, (a'.blockPool y).unlinked = (a.blockPool y).unlinked)
    (hnext : a'.blockPoolNext = a.blockPoolNext) :
    Represents a' (update F r (as ++ ⟨i, (a.blockPool i).span⟩ :: bs)) := by
  have hF : F r = as ++ ([] ++ bs) := hi.split
  refine h.edit i [] [⟨i, (a.blockPool i).span⟩] hF ?_ (fun y _ => hkeep y)
    (fun m hm => hi.fresh r m (hF ▸ hm)) (fun r' _ => hi.fresh r') (fun m hm => ?_) hnext
  · rwa [map_append]
  · obtain rfl := mem_singleton.mp hm
    have hold : Holds (a.blockPool i) r ⟨i, (a.blockPool i).span⟩ := ⟨rfl, hi.type, hi.isFree⟩
    exact ⟨hold.of_unlinked (hkeep i), hi.lt⟩

theorem Represents.linkFront (h : Represents a F) (hi : Insertable a F r [] bs i) :
    Represents (a.linkFront i r) (update F r (⟨i, (a.blockPool i).span⟩ :: bs)) := by
  have hpool := linkFront_blockPool fun he => hi.notMem r (h.family.head_mem he)
  have hF : F r = bs := hi.split
  refine hi.represents h ?_ (fun y => ?_) (by simp [Arena.linkFront])
  · have hfront : Family (a.linkFront i r).next (a.linkFront i r).prev (a.linkFront i r).freeLists
        (update (fun r => (F r).map FreeNode.ix) r (i :: (F r).map FreeNode.ix)) := by
      refine h.family.insertFront hi.notMem (fun y => ?_) (fun y => ?_) fun r' => ?_
      · simp only [Arena.next, hpool]
        split
        · rfl
        · split <;> rfl
      · simp only [Arena.prev, hpool]
        split
        · rfl
        · split <;> rfl
      · simp [Arena.linkFront, setHead_freeLists]
    rwa [hF] at hfront
  · rw [hpool]
    split
    · rename_i hy
      rw [hy]
      rfl
    · split <;> rfl

theorem Represents.linkAfter (h : Represents a F) (hi : Insertable a F r (as ++ [n]) bs i) :
    Represents (a.linkAfter i n.ix)
      (update F r ((as ++ [n]) ++ ⟨i, (a.blockPool i).span⟩ :: bs)) := by
  have hF : F r = as ++ n :: bs := by simpa using hi.split
  have hlist := h.list hF
  have hself := hlist.next_ne_self
  have hnot : i ∉ as.map FreeNode.ix ++ n.ix :: bs.map FreeNode.ix := map_ix_split hF ▸ hi.notMem r
  have hni : n.ix ≠ i := fun he => hnot (by simp [he])
  have hpool := linkAfter_blockPool hni hself fun he =>
    hnot (mem_append_right _ (mem_cons_of_mem _ (hlist.next_mem he)))
  refine hi.represents h ?_ (fun y => ?_) (by simp [Arena.linkAfter])
  · rw [map_append, map_cons, map_nil, append_assoc, singleton_append]
    refine h.family.insertAfter (map_ix_split hF) hi.notMem (fun y => ?_) (fun y => ?_)
      (by simp [Arena.linkAfter])
    · show ((a.linkAfter i n.ix).blockPool y).next = if y = n.ix then some i
        else if y = i then a.next n.ix else (a.blockPool y).next
      rw [hpool]
      split
      · rfl
      · split
        · rfl
        · split <;> rfl
    · show ((a.linkAfter i n.ix).blockPool y).prev = if y = i then some n.ix
        else if a.next n.ix = some y then some i else (a.blockPool y).prev
      rw [hpool]
      by_cases hy : y = n.ix
      · subst hy
        rw [if_pos rfl, if_neg hni, if_neg hself]
      · rw [if_neg hy]
        split
        · rfl
        · split <;> rfl
  · rw [hpool]
    split
    · rename_i hy
      rw [hy]
      rfl
    · split
      · rename_i hy
        rw [hy]
        rfl
      · split <;> rfl

theorem Represents.insert (h : Represents a F) (hi : Insertable a F r as bs i) :
    ∃ a', a.freeListInsert i r = .done a' ∧
      Represents a' (update F r (as ++ ⟨i, (a.blockPool i).span⟩ :: bs)) ∧
      a'.blockPoolNext = a.blockPoolNext ∧
      ∀ y, (a'.blockPool y).span = (a.blockPool y).span := by
  -- the first write sets a flag that is set already
  have hset : (a.setBlock i fun b => { b with isFree := true }) = a := by
    have : { a.blockPool i with isFree := true } = a.blockPool i := by
      rw [← hi.isFree]
    simp [Arena.setBlock, this]
  have hhead := (h.links r).head_eq
  rw [hi.split] at hhead
  simp only [Arena.freeListInsert, hset]
  cases as with
  | nil =>
    refine ⟨a.linkFront i r, ?_, h.linkFront hi, by simp [Arena.linkFront], fun y => ?_⟩
    · cases bs with
      | nil =>
        rw [hhead]
        rfl
      | cons m bs =>
        have hm := (h.holds r m (by simp [hi.split])).base_eq
        have hlt := hi.after m rfl
        rw [hhead]
        simp only [nil_append, map_cons, head?_cons, hm, if_pos hlt]
    · simp only [Arena.linkFront, setHead_blockPool]
      rw [setBlock?_span, setBlock_span]
      · exact fun _ => rfl
      · exact fun _ => rfl
  | cons m as =>
    obtain ⟨as', d, hd⟩ : ∃ as' d, m :: as = as' ++ [d] :=
      ⟨_, _, (dropLast_append_getLast (cons_ne_nil m as)).symm⟩
    have hbase : ∀ e ∈ F r, (a.blockPool e.ix).base = e.span.base := fun e he =>
      (h.holds r e he).base_eq
    have hm : ¬ (a.blockPool i).base < (a.blockPool m.ix).base := by
      rw [hbase m (by simp [hi.split])]
      exact (hi.before m (by simp)).le.not_gt
    -- the walk passes the nodes of `as` and stops before `bs`
    have hwalk : advance a.next (fun e => (a.blockPool e).base < (a.blockPool i).base)
        (MAX_BLOCKS + 1) m.ix = some d.ix := by
      have hseg := (h.links r).2
      rw [hi.split, map_append, map_cons] at hseg
      have hlen := h.length_le r
      rw [hi.split, length_append, length_cons] at hlen
      have hlast : (m.ix :: as.map FreeNode.ix).getLast? = some d.ix := by
        rw [← map_cons, hd]
        simp
      rw [← hlast]
      refine advance_eq hseg ?_ ?_ ?_
      · rw [length_map]
        omega
      · intro j hj
        obtain ⟨e, he, rfl⟩ := mem_map.mp hj
        rw [hbase e (by simp [hi.split, he])]
        simpa using hi.before e (by simp [he])
      · intro j hj
        rw [head?_map] at hj
        obtain ⟨e, he, rfl⟩ := Option.map_eq_some_iff.mp hj
        rw [hbase e (by simp [hi.split, mem_of_mem_head? he])]
        simpa using (hi.after e he).le
    have hi' : Insertable a F r (as' ++ [d]) bs i := hd ▸ hi
    have hrep := h.linkAfter hi'
    rw [hd]
    refine ⟨a.linkAfter i d.ix, ?_, hrep, by simp [Arena.linkAfter], fun y => ?_⟩
    · rw [hhead]
      simp only [cons_append, map_cons, head?_cons, if_neg hm, hwalk]
    · simp only [Arena.linkAfter]
      rw [setBlock_span, setBlock?_span, setBlock_span]
      all_goals exact fun _ => rfl

/-! ## `free_list_remove` -/

theorem freeListRemove_blockPool (hp : a.prev block ≠ some block) (hn : a.next block ≠ some block)
    (hpn : ∀ y, a.prev block = some y → a.next block ≠ some y) (y : Nat) :
    (a.freeListRemove block r).blockPool y =
      if y = block then { a.blockPool block with prev := none, next := none, isFree := false }
      else if a.prev block = some y then { a.blockPool y with next := a.next block }
      else if a.next block = some y then { a.blockPool y with prev := a.prev block }
      else a.blockPool y := by
  simp only [Arena.next, Arena.prev] at hp hn hpn ⊢
  simp only [Arena.freeListRemove, setBlock_blockPool, setBlock?_blockPool,
    bypass_blockPool, if_neg hp, if_neg hn]
  by_cases hy : y = block
  · simp [hy]
  · by_cases hyp : (a.blockPool block).prev = some y
    · simp only [hyp, if_true, if_neg (hpn y hyp)]
    · simp only [hyp, if_false]
      rfl

@[simp] theorem freeListRemove_blockPoolNext :
    (a.freeListRemove block r).blockPoolNext = a.blockPoolNext := by
  simp [Arena.freeListRemove]

theorem Represents.remove (h : Represents a F) (hF : F r = as ++ n :: bs) :
    Represents (a.freeListRemove n.ix r) (update F r (as ++ bs)) ∧
      (a.freeListRemove n.ix r).blockPoolNext = a.blockPoolNext ∧
      ((a.freeListRemove n.ix r).blockPool n.ix).span = n.span := by
  have hlist := h.list hF
  have hn : n ∈ F r := by simp [hF]
  have hpool := @freeListRemove_blockPool a r n.ix hlist.prev_ne_self hlist.next_ne_self
    fun _ => hlist.prev_ne_next
  refine ⟨h.edit n.ix [n] [] hF ?_ (fun y hy => ?_) (h.ix_notMem hF)
    (fun r' hr m hm => h.ix_ne hr hm hn) (by simp) freeListRemove_blockPoolNext,
    freeListRemove_blockPoolNext, ?_⟩
  · rw [nil_append, map_append]
    refine h.family.unlink (map_ix_split hF) (fun y hy => ?_) (fun y hy => ?_) fun r' => ?_
    · show ((a.freeListRemove n.ix r).blockPool y).next = _
      rw [hpool, if_neg hy]
      split
      · rfl
      · split <;> rfl
    · show ((a.freeListRemove n.ix r).blockPool y).prev = _
      rw [hpool, if_neg hy]
      split
      · rename_i hprev
        rw [if_neg (hlist.prev_ne_next hprev)]
        rfl
      · split <;> rfl
    · simp only [Arena.freeListRemove, setBlock_freeLists, setBlock?_freeLists, bypass_freeLists]
      rfl
  · rw [hpool, if_neg hy]
    split
    · rfl
    · split <;> rfl
  · rw [hpool, if_pos rfl]
    exact (h.holds r n hn).span

/-! ## `coalesce_blocks` -/

theorem absorb_blockPool (hback : a.next nx ≠ some block) (y : Nat) :
    (a.absorb block nx).blockPool y =
      if y = block then
        { a.blockPool block with
          size := u64 ((a.blockPool block).size + (a.blockPool nx).size), next := a.next nx }
      else if a.next nx = some y then { a.blockPool y with prev := some block }
      else a.blockPool y := by
  have hback' : (a.blockPool nx).next ≠ some block := hback
  simp only [Arena.absorb, setBlock?_blockPool, setBlock_blockPool]
  by_cases hy : y = block
  · simp only [hy, if_true, if_neg hback']
    rfl
  · simp only [hy, if_false]
    rfl

@[simp] theorem absorb_freeLists : (a.absorb block nx).freeLists = a.freeLists := by
  simp [Arena.absorb]

@[simp] theorem absorb_blockPoolNext : (a.absorb block nx).blockPoolNext = a.blockPoolNext := by
  simp [Arena.absorb]

theorem Represents.absorb (h : Represents a F) (hF : F r = as ++ n :: m :: bs)
    (hsz : n.span.size + m.span.size < 2 ^ 64) :
    Represents (a.absorb n.ix m.ix) (update F r
      (as ++ ⟨n.ix, ⟨n.span.base, n.span.size + m.span.size⟩⟩ :: bs)) := by
  have hF' : F r = (as ++ [n]) ++ m :: bs := by simpa using hF
  have hn : n ∈ F r := by simp [hF]
  have hlist := h.list hF'
  have hprev : a.prev m.ix = some n.ix := by
    rw [hlist.prev_eq]
    simp
  have hback := hlist.prev_ne_next hprev
  have hpool := absorb_blockPool hback
  have holdn := h.holds r n hn
  refine h.edit n.ix [n, m] [_] hF ?_ (fun y hy => ?_) (fun e he => ?_)
    (fun r' hr e he => h.ix_ne hr he hn) (fun e he => ?_) absorb_blockPoolNext
  · have hfamily : Family (a.absorb n.ix m.ix).next (a.absorb n.ix m.ix).prev
        (a.absorb n.ix m.ix).freeLists (update (fun r => (F r).map FreeNode.ix) r
          ((as ++ [n]).map FreeNode.ix ++ bs.map FreeNode.ix)) := by
      refine h.family.unlink (map_ix_split hF') (fun y hy => ?_) (fun y hy => ?_) fun r' => ?_
      · show ((a.absorb n.ix m.ix).blockPool y).next = _
        rw [hpool, hprev]
        simp only [Option.some.injEq, @eq_comm _ n.ix y]
        split
        · rfl
        · split <;> rfl
      · show ((a.absorb n.ix m.ix).blockPool y).prev = _
        rw [hpool, hprev]
        by_cases hyn : y = n.ix
        · subst hyn
          rw [if_pos rfl, if_neg hback]
          rfl
        · rw [if_neg hyn]
          split <;> rfl
      · rw [hprev, absorb_freeLists]
        simp
    simpa using hfamily
  · rw [hpool, if_neg hy]
    split <;> rfl
  · refine h.ix_notMem hF e ?_
    rcases mem_append.mp he with he | he <;> simp [he]
  · obtain rfl := mem_singleton.mp he
    refine ⟨?_, h.bound r n hn⟩
    rw [hpool, if_pos rfl]
    refine ⟨?_, holdn.type, holdn.isFree⟩
    simp only [MemBlock.span]
    rw [holdn.size_eq, (h.holds r m (by simp [hF])).size_eq, holdn.base_eq, u64_eq hsz]

/-! ## Fresh descriptors and resized nodes -/

/-- `alloc_block` fails only when all descriptors have been handed out; otherwise the
descriptor it returns is on no list. -/
theorem Represents.allocBlock (h : Represents a F) :
    (a.allocBlock = none ∧ a.blockPoolNext = MAX_BLOCKS) ∨
    ∃ a', a.allocBlock = some (a.blockPoolNext, a') ∧ Represents a' F ∧
      a'.blockPoolNext = a.blockPoolNext + 1 ∧
      (∀ r, ∀ m ∈ F r, m.ix ≠ a.blockPoolNext) ∧
      ∀ y, y ≠ a.blockPoolNext → a'.blockPool y = a.blockPool y := by
  have hcap := h.cap
  by_cases hfull : MAX_BLOCKS ≤ a.blockPoolNext
  · exact .inl ⟨by simp [Arena.allocBlock, hfull], hcap.antisymm hfull⟩
  · have hfresh : ∀ r, ∀ m ∈ F r, m.ix ≠ a.blockPoolNext := fun r m hm =>
      (h.bound r m hm).ne
    have hbump : Represents { a with blockPoolNext := a.blockPoolNext + 1 } F :=
      ⟨h.links, h.holds, fun r m hm => Nat.lt_succ_of_lt (h.bound r m hm), by
        show a.blockPoolNext + 1 ≤ MAX_BLOCKS
        omega⟩
    have hset := hbump.setFresh hfresh fun b =>
      { b with next := none, prev := none, isFree := true, tensorId := 0 }
    refine .inr ⟨_, by simp only [Arena.allocBlock, if_neg hfull], hset, rfl, hfresh, ?_⟩
    intro y hy
    rw [setBlock_blockPool, if_neg hy]

theorem Represents.setSpan (h : Represents a F) (hF : F r = as ++ n :: bs) (sp : Span)
    (f : MemBlock → MemBlock) (hspan : (f (a.blockPool n.ix)).span = sp)
    (htype : ∀ b, (f b).type = b.type) (hfree : ∀ b, (f b).isFree = b.isFree)
    (hnext : ∀ b, (f b).next = b.next) (hprev : ∀ b, (f b).prev = b.prev) :
    Represents (a.setBlock n.ix f) (update F r (as ++ ⟨n.ix, sp⟩ :: bs)) := by
  have hn : n ∈ F r := by simp [hF]
  have hlinkEq : ∀ y, (a.setBlock n.ix f).next y = a.next y ∧
      (a.setBlock n.ix f).prev y = a.prev y := by
    intro y
    simp only [Arena.next, Arena.prev, setBlock_blockPool]
    split
    · rename_i hy
      rw [hnext, hprev, hy]
      exact ⟨rfl, rfl⟩
    · exact ⟨rfl, rfl⟩
  have holdn := h.holds r n hn
  refine h.edit n.ix [n] [⟨n.ix, sp⟩] hF ?_ (fun y hy => ?_) (h.ix_notMem hF)
    (fun r' hr e he => h.ix_ne hr he hn) (fun e he => ?_) rfl
  · have hsame : (as ++ ([(⟨n.ix, sp⟩ : FreeNode)] ++ bs)).map FreeNode.ix =
        (F r).map FreeNode.ix := by
      simp [hF]
    rw [hsame, funext fun y => (hlinkEq y).1, funext fun y => (hlinkEq y).2]
    exact (update_eq_self r fun r => (F r).map FreeNode.ix).symm ▸ h.family
  · rw [setBlock_blockPool, if_neg hy]
  · obtain rfl := mem_singleton.mp he
    rw [setBlock_blockPool, if_pos rfl]
    exact ⟨⟨hspan, (htype _).trans holdn.type, (hfree _).trans holdn.isFree⟩, h.bound r n hn⟩

/-! ## `find_best_fit` -/

/-- Of the nodes `as ++ n :: bs`, `n` is the first of the smallest ones that fit. -/
structure BestFit (a : Arena) (size alignment : Nat) (as : List FreeNode) (n : FreeNode)
    (bs : List FreeNode) : Prop where
  fits : Arena.fits (a.blockPool n.ix) size alignment = true
  before : ∀ m ∈ as, Arena.fits (a.blockPool m.ix) size alignment = true →
    (a.blockPool n.ix).size < (a.blockPool m.ix).size
  after : ∀ m ∈ bs, Arena.fits (a.blockPool m.ix) size alignment = true →
    (a.blockPool n.ix).size ≤ (a.blockPool m.ix).size

/-- The walk returns the best one so far if nothing smaller fits, and else the first of the
smallest nodes that fit. -/
theorem findBestFitFrom_spec {size alignment : Nat} :
    ∀ {fuel : Nat} {p : Option Nat} {ns : List FreeNode} {best : Option Nat} {bestSize : Nat},
      Seg a.next a.prev p (ns.map FreeNode.ix) none → ns.length < fuel →
      ∃ res, a.findBestFitFrom size alignment fuel (ns.map FreeNode.ix).head? best bestSize =
          .done res ∧
        ((res = best ∧ ∀ n ∈ ns, Arena.fits (a.blockPool n.ix) size alignment →
            bestSize ≤ (a.blockPool n.ix).size) ∨
          ∃ as n bs, ns = as ++ n :: bs ∧ res = some n.ix ∧ (a.blockPool n.ix).size < bestSize ∧
            BestFit a size alignment as n bs)
  | fuel, _, [], best, _, _, _ => by
    refine ⟨best, ?_, .inl ⟨rfl, fun n hn => absurd hn not_mem_nil⟩⟩
    cases fuel <;> rfl
  | 0, _, n :: ns, _, _, _, hf => absurd hf (Nat.not_lt_zero _)
  | fuel + 1, _, n :: ns, best, bestSize, hseg, hf => by
    have hnext : (a.blockPool n.ix).next = (ns.map FreeNode.ix).head? := by
      simpa [Arena.next] using hseg.2.1
    have hlen : ns.length < fuel := Nat.lt_of_succ_lt_succ hf
    have hstep : a.findBestFitFrom size alignment (fuel + 1)
        ((n :: ns).map FreeNode.ix).head? best bestSize =
        if Arena.fits (a.blockPool n.ix) size alignment && (a.blockPool n.ix).size < bestSize then
          a.findBestFitFrom size alignment fuel (ns.map FreeNode.ix).head? (some n.ix)
            (a.blockPool n.ix).size
        else a.findBestFitFrom size alignment fuel (ns.map FreeNode.ix).head? best bestSize := by
      simp [Arena.findBestFitFrom, hnext]
    rw [hstep]
    split
    · -- `n` is the best so far: it stays, or a later node is smaller
      rename_i hcond
      simp only [Bool.and_eq_true, decide_eq_true_eq] at hcond
      obtain ⟨res, hres, ⟨rfl, hrest⟩ | ⟨as, m, bs, rfl, rfl, hlt, hbest⟩⟩ :=
        @findBestFitFrom_spec size alignment fuel _ ns (some n.ix) (a.blockPool n.ix).size
          hseg.2.2 hlen
      · exact ⟨_, hres, .inr ⟨[], n, ns, rfl, rfl, hcond.2, hcond.1, nofun, hrest⟩⟩
      · refine ⟨_, hres, .inr ⟨n :: as, m, bs, rfl, rfl, hlt.trans hcond.2, hbest.fits, ?_,
          hbest.after⟩⟩
        exact forall_mem_cons.mpr ⟨fun _ => hlt, hbest.before⟩
    · -- `n` is passed over: it does not fit, or is no smaller
      rename_i hcond
      have hn : Arena.fits (a.blockPool n.ix) size alignment = true →
          bestSize ≤ (a.blockPool n.ix).size := by
        intro hfit
        simp only [hfit, Bool.true_and, decide_eq_true_eq] at hcond
        exact not_lt.mp hcond
      obtain ⟨res, hres, ⟨rfl, hrest⟩ | ⟨as, m, bs, rfl, rfl, hlt, hbest⟩⟩ :=
        @findBestFitFrom_spec size alignment fuel _ ns best bestSize hseg.2.2 hlen
      · exact ⟨_, hres, .inl ⟨rfl, forall_mem_cons.mpr ⟨hn, hrest⟩⟩⟩
      · refine ⟨_, hres, .inr ⟨n :: as, m, bs, rfl, rfl, hlt, hbest.fits, ?_, hbest.after⟩⟩
        exact forall_mem_cons.mpr ⟨fun hfit => hlt.trans_le (hn hfit), hbest.before⟩

section

variable (h : Represents a F) (r : MemRegion) (size alignment : Nat)
  (hsize : ∀ n ∈ F r, n.span.size < UINT64_MAX)
include h hsize

/-- `find_best_fit` returns the first of the smallest nodes that fit, and fails only if none
fits. -/
theorem Represents.findBestFit_best :
    (a.findBestFit r size alignment = .done none ∧
      ∀ n ∈ F r, Arena.fits (a.blockPool n.ix) size alignment = false) ∨
    ∃ as n bs, F r = as ++ n :: bs ∧ a.findBestFit r size alignment = .done (some n.ix) ∧
      BestFit a size alignment as n bs := by
  have hlen := h.length_le r
  obtain ⟨res, hres, hfrom⟩ := @findBestFitFrom_spec a size alignment (MAX_BLOCKS + 1)
    none (F r) none UINT64_MAX (h.links r).2 (by omega)
  rw [← (h.links r).head_eq] at hres
  rcases hfrom with ⟨rfl, hnone⟩ | ⟨as, n, bs, hF, rfl, -, hbest⟩
  · refine .inl ⟨hres, fun n hn => ?_⟩
    cases hfit : Arena.fits (a.blockPool n.ix) size alignment with
    | false => rfl
    | true =>
      have hle := hnone n hn hfit
      have hlt := hsize n hn
      rw [(h.holds r n hn).size_eq] at hle
      omega
  · exact .inr ⟨as, n, bs, hF, hres, hbest⟩

theorem Represents.findBestFit :
    (a.findBestFit r size alignment = .done none ∧
      ∀ n ∈ F r, Arena.fits (a.blockPool n.ix) size alignment = false) ∨
    ∃ n ∈ F r, a.findBestFit r size alignment = .done (some n.ix) ∧
      Arena.fits (a.blockPool n.ix) size alignment = true := by
  rcases h.findBestFit_best r size alignment hsize with hnone | ⟨as, n, bs, hF, hfind, hbest⟩
  · exact .inl hnone
  · exact .inr ⟨n, by simp [hF], hfind, hbest.fits⟩

end

end

end AiosKernel.TensorMm
