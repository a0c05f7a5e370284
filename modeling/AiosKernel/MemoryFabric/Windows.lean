/-
# `AiosKernel.MemoryFabric.Windows` — a shared window and the tensor it refers to

Calls of the fabric are interleaved with calls of the tensor manager wherever
the fabric lock is not held.  A call that is under way is an entry of `pending`;
each step of the system is one locked section or one call of the manager.

A window keeps its tensor alive only as far as the reference count does, and the
count is as good as the callers of `tensor_free`, `tensor_unref` and `model_free`:
nothing stops them from dropping the reference of a window.  If they drop
references of their own only (`Balanced`), then a tensor has at least as many
references as there are windows on it and window calls between taking and
dropping one (`Held.refs`), and every active window finds its tensor.
-/
import AiosKernel.MemoryFabric.Model
import AiosKernel.Lib.Slots
import AiosKernel.TensorMm.Live

namespace AiosKernel.MemoryFabric

open TensorMm Outcome List
open Word Slots

/-! ## The system -/

/-- Where a window call stands that does not hold the fabric lock. -/
inductive Pending where
  /-- `window_share`, after `tensor_info` returned the record. -/
  | informed (q : ShareRequest) (tensor : TensorAlloc)
  /-- `window_share`, after `tensor_ref` succeeded. -/
  | referenced (q : ShareRequest) (tensor : TensorAlloc)
  /-- `window_share` or `window_release`, before its `tensor_unref`. -/
  | dropping (tensorId : Nat)
  deriving DecidableEq

/-- The tensor manager, the fabric, and the window calls under way. -/
structure Sys where
  mm : MmState
  fabric : State
  pending : List Pending

/-- What can happen next. -/
inductive Action where
  | alloc (hasOut : Bool) (q : AllocRequest)
  | free (id : Nat)
  | ref (id : Nat)
  | unref (id : Nat)
  | modelFree
  | shareInfo (q : ShareRequest)
  | shareRef (q : ShareRequest)
  | shareEnter (q : ShareRequest) (now : Nat)
  | attach (windowId domainId : Nat) (writeAccess : Bool) (now : Nat)
  | release (windowId : Nat)
  | drop (tensorId : Nat)

/-- One call of the manager, or one part of a window call. -/
inductive Step : Sys → Action → Sys → Prop where
  | alloc {s : Sys} {mm' : MmState} {hasOut : Bool} {q : AllocRequest} {res : AllocResult} :
      q.InRange → tensorAllocAlignedProfiled hasOut q s.mm = .done (res, mm') →
      Step s (.alloc hasOut q) { s with mm := mm' }
  | free {s : Sys} {mm' : MmState} {id : Nat} {st : AiosStatus} :
      tensorFree id s.mm = .done (st, mm') → Step s (.free id) { s with mm := mm' }
  | ref {s : Sys} (id : Nat) : Step s (.ref id) { s with mm := (tensorRef id s.mm).2 }
  | unref {s : Sys} {mm' : MmState} {id : Nat} {st : AiosStatus} :
      tensorUnref id s.mm = .done (st, mm') → Step s (.unref id) { s with mm := mm' }
  | modelFree {s : Sys} {mm' : MmState} {fuel : Nat} {st : AiosStatus} :
      modelFree fuel s.mm = .done (st, mm') → Step s .modelFree { s with mm := mm' }
  | shareInfo {s : Sys} {q : ShareRequest} {tensor : TensorAlloc} :
      q.tensorId ≠ 0 → tensorInfo q.tensorId s.mm = some tensor →
      Step s (.shareInfo q) { s with pending := .informed q tensor :: s.pending }
  | shareRef {s : Sys} {q : ShareRequest} {tensor : TensorAlloc} {rest : List Pending}
      {mm' : MmState} :
      s.pending.Perm (.informed q tensor :: rest) → tensorRef q.tensorId s.mm = (.ok, mm') →
      Step s (.shareRef q) { s with mm := mm', pending := .referenced q tensor :: rest }
  | shareFail {s : Sys} {q : ShareRequest} {tensor : TensorAlloc} {rest : List Pending}
      {st : AiosStatus} {mm' : MmState} :
      s.pending.Perm (.informed q tensor :: rest) → tensorRef q.tensorId s.mm = (st, mm') →
      st ≠ .ok → Step s (.shareRef q) { s with mm := mm', pending := rest }
  | shareEnter {s : Sys} {q : ShareRequest} {tensor : TensorAlloc} {rest : List Pending} {now : Nat}
      {out : Option Nat} {fabric' : State} :
      s.pending.Perm (.referenced q tensor :: rest) →
      shareLocked q tensor now s.fabric = ((.ok, out), fabric') →
      Step s (.shareEnter q now) { s with fabric := fabric', pending := rest }
  | shareRefuse {s : Sys} {q : ShareRequest} {tensor : TensorAlloc} {rest : List Pending} {now : Nat}
      {st : AiosStatus} {out : Option Nat} {fabric' : State} :
      s.pending.Perm (.referenced q tensor :: rest) →
      shareLocked q tensor now s.fabric = ((st, out), fabric') → st ≠ .ok →
      Step s (.shareEnter q now)
        { s with fabric := fabric', pending := .dropping q.tensorId :: rest }
  | attach {s : Sys} (windowId domainId : Nat) (writeAccess : Bool) (now : Nat) :
      Step s (.attach windowId domainId writeAccess now)
        { s with fabric := (attachLocked windowId domainId writeAccess now s.fabric).2 }
  | release {s : Sys} {windowId tensorId : Nat} {fabric' : State} :
      releaseLocked windowId s.fabric = (some tensorId, fabric') →
      Step s (.release windowId)
        { s with fabric := fabric', pending := .dropping tensorId :: s.pending }
  | drop {s : Sys} {tensorId : Nat} {rest : List Pending} {st : AiosStatus} {mm' : MmState} :
      s.pending.Perm (.dropping tensorId :: rest) → tensorUnref tensorId s.mm = .done (st, mm') →
      Step s (.drop tensorId) { s with mm := mm', pending := rest }

/-- The states that runs reach whose steps all meet the condition: from a successful
`tensor_mm_init` on, with no window and any domains. -/
inductive Reach (l : Layout) (Meets : Sys → Action → Prop) : Sys → Prop where
  | init {mm₀ mm : MmState} {domains : List Domain} : Boot mm₀ →
      tensorMmInit l mm₀ = .done (.ok, mm) → Reach l Meets ⟨mm, ⟨domains, [], 1⟩, []⟩
  | step {s s' : Sys} {a : Action} : Reach l Meets s → Meets s a → Step s a s' → Reach l Meets s'

/-! ## References -/

def Window.on (id : Nat) (w : Window) : Bool := w.active && w.tensorId == id

/-- A call that has taken a reference of the tensor and not dropped it yet. -/
def Pending.holds (id : Nat) : Pending → Bool
  | .informed _ _ => false
  | .referenced q _ => q.tensorId == id
  | .dropping tensorId => tensorId == id

/-- The references of a tensor that windows and window calls count on. -/
def claims (s : Sys) (id : Nat) : Nat :=
  s.fabric.windows.countP (Window.on id) + s.pending.countP (Pending.holds id)

/-- The callers of the manager drop references of their own only, and no count wraps: a
`tensor_free` or `tensor_unref` leaves as many references as are claimed, `model_free` finds no
claimed model tensor, and references are taken below the limit of the counter. -/
def Balanced (s : Sys) : Action → Prop
  | .free id | .unref id =>
    ∀ t ∈ live s.mm, t.id = id → claims s id = 0 ∨ claims s id < t.refCount
  | .ref id => ∀ t ∈ live s.mm, t.id = id → claims s id = 0 ∨ t.refCount + 1 < 2 ^ 32
  | .shareRef q => ∀ t ∈ live s.mm, t.id = q.tensorId → t.refCount + 1 < 2 ^ 32
  | .modelFree => ∀ t ∈ live s.mm, t.region = .model → claims s t.id = 0
  | _ => True

/-- The tensor and the size that a `window_share` under way will enter. -/
def Pending.note : Pending → Option (Nat × Nat)
  | .informed q tensor => some (q.tensorId, tensor.size)
  | .referenced q tensor => some (q.tensorId, tensor.size)
  | .dropping _ => none

/-- Somebody has noted down the size of the tensor: a window, or a `window_share` under way. -/
inductive Noted (s : Sys) : Nat → Nat → Prop where
  | window (w : Window) : w ∈ s.fabric.windows → w.active = true →
      Noted s w.tensorId w.sizeBytes
  | call (p : Pending) {id size : Nat} : p ∈ s.pending → p.note = some (id, size) → Noted s id size

/-- The invariant of balanced runs. -/
structure Held (s : Sys) : Prop where
  run : RunInv s.mm
  /-- A claimed tensor is live and has a reference for each claim. -/
  refs : ∀ id, 0 < claims s id → ∃ t ∈ live s.mm, t.id = id ∧ claims s id ≤ t.refCount
  /-- A noted size is the size of the tensor, as long as it lives. -/
  sizes : ∀ id size, Noted s id size →
    id < s.mm.nextTensorId ∧ ∀ t ∈ live s.mm, t.id = id → t.size = size

/-! ## The locked sections -/

section

variable {s s' : State} {q : ShareRequest} {tensor : TensorAlloc} {now : Nat}

theorem allocWindowSlotLocked_split {slot : Nat} (hslot : allocWindowSlotLocked s = some (slot, s')) :
    ∃ as x bs, s' = { s with windows := as ++ x :: bs } ∧ slot = as.length ∧ x.active = false ∧
      (s.windows = as ++ x :: bs ∨
        s.windows = as ∧ bs = [] ∧ s.windows.length < MEMORY_FABRIC_MAX_WINDOWS) := by
  unfold allocWindowSlotLocked at hslot
  split at hslot
  · rename_i i hfind
    obtain ⟨as, x, bs, hl, hi, hx, -⟩ := findIdx?_split hfind
    cases Option.some.inj hslot
    exact ⟨as, x, bs, by rw [← hl], hi, by simpa using hx, .inl hl⟩
  · split at hslot
    · cases hslot
    · rename_i hroom
      cases Option.some.inj hslot
      exact ⟨s.windows, Window.zero, [], rfl, rfl, rfl, .inr ⟨rfl, rfl, Nat.lt_of_not_le hroom⟩⟩

theorem shareLocked_windows {out : Option Nat}
    (hcall : shareLocked q tensor now s = ((.ok, out), s')) :
    (∀ id, s'.windows.countP (Window.on id) =
      s.windows.countP (Window.on id) + if q.tensorId = id then 1 else 0) ∧
    ∀ w ∈ s'.windows, w.active = true →
      w ∈ s.windows ∨ w.tensorId = q.tensorId ∧ w.sizeBytes = tensor.size := by
  simp only [shareLocked] at hcall
  split at hcall
  · simp at hcall
  split at hcall
  · simp at hcall
  rename_i slot s₁ hslot
  cases hcall
  have hon : ∀ id, Window.on id (q.window tensor s₁.nextWindowId now) = decide (q.tensorId = id) := by
    intro id
    rfl
  obtain ⟨as, x, bs, rfl, rfl, hx, hwindows⟩ := allocWindowSlotLocked_split hslot
  have hcount : ∀ id, s.windows.countP (Window.on id) = (as ++ bs).countP (Window.on id) := by
    intro id
    rcases hwindows with hl | ⟨hl, rfl, -⟩
    · simp [hl, Window.on, hx]
    · simp [hl]
  have hsub : as ++ bs ⊆ s.windows := by
    intro w hw
    rcases hwindows with hl | ⟨hl, rfl, -⟩
    · rw [hl]
      simp only [mem_append, mem_cons] at hw ⊢
      tauto
    · simpa [hl] using hw
  simp only [State.touchDomain, updateWindowAccountingLocked, set_split]
  constructor
  · intro id
    rw [hcount]
    simp only [countP_append, countP_cons, hon, decide_eq_true_eq]
    omega
  · intro w hw _
    simp only [mem_append, mem_cons] at hw
    rcases hw with hw | rfl | hw
    · exact .inl (hsub (mem_append_left _ hw))
    · exact .inr ⟨rfl, rfl⟩
    · exact .inl (hsub (mem_append_right _ hw))

theorem shareLocked_refused {st : AiosStatus} {out : Option Nat}
    (hcall : shareLocked q tensor now s = ((st, out), s')) (hst : st ≠ .ok) : s' = s := by
  simp only [shareLocked] at hcall
  iterate 2
    split at hcall
    · exact (Prod.mk.inj hcall).2.symm
  · obtain ⟨hres, -⟩ := Prod.mk.inj hcall
    exact absurd (Prod.mk.inj hres).1.symm hst

theorem attachLocked_windows (windowId domainId : Nat) (writeAccess : Bool) (now : Nat) (s : State) :
    (∀ id, (attachLocked windowId domainId writeAccess now s).2.windows.countP (Window.on id) =
      s.windows.countP (Window.on id)) ∧
    ∀ w ∈ (attachLocked windowId domainId writeAccess now s).2.windows, w.active = true →
      ∃ u ∈ s.windows, u.active = true ∧ u.tensorId = w.tensorId ∧ u.sizeBytes = w.sizeBytes := by
  have hsame : (∀ id, s.windows.countP (Window.on id) = s.windows.countP (Window.on id)) ∧
      ∀ w ∈ s.windows, w.active = true →
        ∃ u ∈ s.windows, u.active = true ∧ u.tensorId = w.tensorId ∧ u.sizeBytes = w.sizeBytes :=
    ⟨fun _ => rfl, fun w hw ha => ⟨w, hw, ha, rfl, rfl⟩⟩
  simp only [attachLocked]
  split
  · exact hsame
  split
  · rename_i i d hfind hdomain
    split
    · exact hsame
    split
    · exact hsame
    obtain ⟨as, x, bs, hl, rfl, hx, -⟩ := findIdx?_split hfind
    simp only [State.touchDomain, hl, modify_split]
    refine ⟨fun id => ?_, fun w hw ha => ?_⟩
    · simp [countP_cons, Window.on]
    · simp only [mem_append, mem_cons] at hw
      rcases hw with hw | rfl | hw
      · exact ⟨w, by simp [hw], ha, rfl, rfl⟩
      · exact ⟨x, by simp, ha, rfl, rfl⟩
      · exact ⟨w, by simp [hw], ha, rfl, rfl⟩
  · exact hsame

theorem releaseLocked_windows {windowId tensorId : Nat}
    (hcall : releaseLocked windowId s = (some tensorId, s')) :
    (∀ id, s.windows.countP (Window.on id) =
      s'.windows.countP (Window.on id) + if tensorId = id then 1 else 0) ∧
    ∀ w ∈ s'.windows, w.active = true → w ∈ s.windows := by
  simp only [releaseLocked] at hcall
  split at hcall
  · cases hcall
  · rename_i i hfind
    obtain ⟨as, x, bs, hl, rfl, hx, -⟩ := findIdx?_split hfind
    obtain ⟨hid, rfl⟩ := Prod.mk.inj hcall
    have hactive : x.active = true := (Bool.and_eq_true_iff.mp hx).1
    have htensor : x.tensorId = tensorId := by simpa [hl] using hid
    simp only [updateWindowAccountingLocked, hl, modify_split]
    refine ⟨fun id => ?_, fun w hw ha => ?_⟩
    · simp only [countP_append, countP_cons, Window.on, hactive, htensor, Bool.true_and,
        Bool.false_and, beq_iff_eq, Bool.false_eq_true, if_false]
      omega
    · simp only [mem_append, mem_cons] at hw
      rcases hw with hw | rfl | hw
      · simp [hw]
      · cases ha
      · simp [hw]

end

/-! ## What the steps preserve -/

section

variable {s s' : Sys} {mm' : MmState} {id : Nat}

theorem Noted.weaken {id size : Nat} (hn : Noted s' id size)
    (hw : ∀ w ∈ s'.fabric.windows, w.active = true → Noted s w.tensorId w.sizeBytes)
    (hp : ∀ p ∈ s'.pending, ∀ id size, p.note = some (id, size) → Noted s id size) :
    Noted s id size := by
  cases hn with
  | window w hmem ha => exact hw w hmem ha
  | call p hmem he => exact hp p hmem _ _ he

theorem Held.move (h : Held s) (hrun : RunInv s'.mm) (haged : Aged s.mm s'.mm)
    (hnoted : ∀ id size, Noted s' id size → Noted s id size ∨
      id < s'.mm.nextTensorId ∧ ∀ t ∈ live s'.mm, t.id = id → t.size = size)
    (hrefs : ∀ id, 0 < claims s' id → ∃ t ∈ live s'.mm, t.id = id ∧ claims s' id ≤ t.refCount) :
    Held s' := by
  refine ⟨hrun, hrefs, fun id size hn => ?_⟩
  rcases hnoted id size hn with hold | hnew
  · obtain ⟨hlt, hsize⟩ := h.sizes id size hold
    refine ⟨hlt.trans_le haged.next_le, fun t' ht' hid => ?_⟩
    obtain ⟨t, ht, hid', hsize', -⟩ := haged.back t' ht' (hid ▸ hlt)
    rw [← hsize', hsize t ht (hid'.trans hid)]
  · exact hnew

theorem Held.manager (h : Held s) (hrun : RunInv mm') (haged : Aged s.mm mm')
    (hrefs : ∀ id, 0 < claims s id → ∃ t ∈ live mm', t.id = id ∧ claims s id ≤ t.refCount) :
    Held { s with mm := mm' } := by
  refine h.move hrun haged (fun id size hn => .inl ?_) hrefs
  exact hn.weaken (fun w hw ha => .window w hw ha) fun p hp _ _ he => .call p hp he

theorem Held.recount (h : Held s) (hrun : RunInv mm') (haged : Aged s.mm mm')
    (hothers : ∀ t ∈ live s.mm, t.id ≠ id → t ∈ live mm')
    (hcount : ∀ t ∈ live s.mm, t.id = id → 0 < claims s id → claims s id ≤ t.refCount →
      ∃ t' ∈ live mm', t'.id = id ∧ claims s id ≤ t'.refCount) : Held { s with mm := mm' } := by
  refine h.manager hrun haged fun j hj => ?_
  obtain ⟨t, ht, hid, hle⟩ := h.refs j hj
  by_cases hij : j = id
  · subst hij
    exact hcount t ht hid hj hle
  · exact ⟨t, hothers t ht (hid ▸ hij), hid, hle⟩

theorem Held.drops (h : Held s) (hrun : RunInv mm') (hdrop : Drops id s.mm mm')
    (hfree : ∀ t ∈ live s.mm, t.id = id → claims s id = 0 ∨ claims s id < t.refCount) :
    Held { s with mm := mm' } := by
  refine h.recount hrun hdrop.aged hdrop.others fun t ht hid hpos hle => ?_
  have hlt := (hfree t ht hid).resolve_left hpos.ne'
  exact ⟨_, hdrop.counted t ht hid (by omega), hid, Nat.le_sub_one_of_lt hlt⟩

variable {rest : List Pending} {q : ShareRequest} {tensor : TensorAlloc}

theorem claims_perm {p : Pending} (hp : s.pending.Perm (p :: rest)) (id : Nat) :
    claims s id = s.fabric.windows.countP (Window.on id) + rest.countP (Pending.holds id) +
      if p.holds id then 1 else 0 := by
  rw [claims, hp.countP_eq, countP_cons]
  omega

section

variable (h : Held s)
include h

theorem Held.takes (hrun : RunInv mm') (htake : Takes id s.mm mm')
    (hroom : ∀ t ∈ live s.mm, t.id = id → claims s id = 0 ∨ t.refCount + 1 < 2 ^ 32) :
    Held { s with mm := mm' } := by
  refine h.recount hrun htake.aged htake.others fun t ht hid hpos hle => ?_
  have hlt := (hroom t ht hid).resolve_left hpos.ne'
  refine ⟨_, htake.counted t ht hid, hid, ?_⟩
  rw [u32_eq hlt]
  exact Nat.le_succ_of_le hle

theorem Held.shareRef (hp : s.pending.Perm (.informed q tensor :: rest))
    (hcall : tensorRef q.tensorId s.mm = (.ok, mm'))
    (hroom : ∀ t ∈ live s.mm, t.id = q.tensorId → t.refCount + 1 < 2 ^ 32) :
    Held { s with mm := mm', pending := .referenced q tensor :: rest } := by
  obtain ⟨hrun, htake⟩ := h.run.tensorRef hcall
  refine h.move hrun htake.aged (fun id size hn => .inl ?_) fun id hid => ?_
  · refine hn.weaken (fun w hw ha => .window w hw ha) fun p hm id size he => ?_
    rcases mem_cons.mp hm with rfl | hm
    · exact .call (.informed q tensor) (hp.mem_iff.mpr mem_cons_self) he
    · exact .call p (hp.mem_iff.mpr (mem_cons_of_mem _ hm)) he
  · have hold := claims_perm hp id
    have hnew : claims { s with mm := mm', pending := .referenced q tensor :: rest } id =
        claims s id + if q.tensorId = id then 1 else 0 := by
      rw [hold]
      simp only [claims, countP_cons, Pending.holds, beq_iff_eq, Bool.false_eq_true, if_false]
      omega
    rw [hnew] at hid ⊢
    by_cases hq : q.tensorId = id
    · -- the tensor itself: it is found, and its count is one higher
      obtain ⟨t, ht, hid', hle⟩ : ∃ t ∈ live s.mm, t.id = q.tensorId ∧ claims s id ≤ t.refCount := by
        obtain ⟨t, ht, hid'⟩ := live_of_tensorRef hcall
        refine ⟨t, ht, hid', ?_⟩
        by_cases hzero : 0 < claims s id
        · obtain ⟨u, hu, huid, hle⟩ := h.refs id hzero
          rw [h.run.live_ext ht hu (hid'.trans (hq.trans huid.symm))]
          exact hle
        · omega
      refine ⟨_, htake.counted t ht hid', hid'.trans hq, ?_⟩
      show claims s id + (if q.tensorId = id then 1 else 0) ≤ u32 (t.refCount + 1)
      rw [u32_eq (hroom t ht hid'), if_pos hq]
      omega
    · rw [if_neg hq, Nat.add_zero] at hid ⊢
      obtain ⟨t, ht, hid', hle⟩ := h.refs id hid
      exact ⟨t, htake.others t ht (fun he => hq (he.symm.trans hid')), hid', hle⟩

theorem Held.shareEnter {now : Nat} {out : Option Nat} {fabric' : State}
    (hp : s.pending.Perm (.referenced q tensor :: rest))
    (hcall : shareLocked q tensor now s.fabric = ((.ok, out), fabric')) :
    Held { s with fabric := fabric', pending := rest } := by
  obtain ⟨hcount, hmem⟩ := shareLocked_windows hcall
  have hnew : ∀ id, claims { s with fabric := fabric', pending := rest } id = claims s id := by
    intro id
    rw [claims_perm hp]
    simp only [claims, hcount, Pending.holds, beq_iff_eq]
    omega
  refine h.move h.run (.refl _) (fun id size hn => .inl ?_) fun id hid => ?_
  · refine hn.weaken (fun w hw ha => ?_) fun p hm _ _ he =>
      .call p (hp.mem_iff.mpr (mem_cons_of_mem _ hm)) he
    rcases hmem w hw ha with hw | ⟨htensor, hbytes⟩
    · exact .window w hw ha
    · rw [htensor, hbytes]
      exact .call (.referenced q tensor) (hp.mem_iff.mpr mem_cons_self) rfl
  · rw [hnew] at hid ⊢
    exact h.refs id hid

theorem Held.fabric (hmm : s'.mm = s.mm) (hclaims : ∀ id, claims s' id = claims s id)
    (hw : ∀ w ∈ s'.fabric.windows, w.active = true → Noted s w.tensorId w.sizeBytes)
    (hp : ∀ p ∈ s'.pending, ∀ id size, p.note = some (id, size) → Noted s id size) : Held s' := by
  refine h.move (hmm ▸ h.run) (hmm ▸ .refl _) (fun id size hn => .inl (hn.weaken hw hp)) ?_
  intro id hid
  rw [hclaims] at hid ⊢
  rw [hmm]
  exact h.refs id hid

theorem Held.shareInfo (hinfo : tensorInfo q.tensorId s.mm = some tensor) :
    Held { s with pending := .informed q tensor :: s.pending } := by
  obtain ⟨ht, hid⟩ := live_of_tensorInfo hinfo
  refine h.move h.run (.refl _) (fun id size hn => ?_) fun id hid => ?_
  · cases hn with
    | window w hw ha => exact .inl (.window w hw ha)
    | call p hm he =>
      rcases mem_cons.mp hm with rfl | hm
      · -- the record is a live tensor's: ids are unique
        cases he
        obtain ⟨F, hinv⟩ := h.run.inv
        refine .inr ⟨hid ▸ hinv.idsLt tensor ht, fun u hu huid => ?_⟩
        rw [h.run.live_ext hu ht (huid.trans hid.symm)]
      · exact .inl (.call p hm he)
  · exact h.refs id hid

theorem Held.shareFail {st : AiosStatus} (hp : s.pending.Perm (.informed q tensor :: rest))
    (hcall : tensorRef q.tensorId s.mm = (st, mm')) (hst : st ≠ .ok) :
    Held { s with mm := mm', pending := rest } := by
  have hmm : mm' = s.mm := by
    unfold tensorRef at hcall
    split at hcall
    · exact (Prod.mk.inj hcall).2.symm
    · exact absurd (Prod.mk.inj hcall).1.symm hst
  refine h.fabric hmm (fun id => ?_) (fun w hw ha => .window w hw ha) fun p hm _ _ he =>
    .call p (hp.mem_iff.mpr (mem_cons_of_mem _ hm)) he
  rw [claims_perm hp]
  rfl

theorem Held.drop {tensorId : Nat} {st : AiosStatus}
    (hp : s.pending.Perm (.dropping tensorId :: rest))
    (hcall : tensorUnref tensorId s.mm = .done (st, mm')) :
    Held { s with mm := mm', pending := rest } := by
  obtain ⟨hrun, hdrop⟩ := h.run.tensorUnref hcall
  refine h.move hrun hdrop.aged (fun id size hn => .inl ?_) fun id hid => ?_
  · exact hn.weaken (fun w hw ha => .window w hw ha) fun p hm _ _ he =>
      .call p (hp.mem_iff.mpr (mem_cons_of_mem _ hm)) he
  · have hold := claims_perm hp id
    have hnew : claims { s with mm := mm', pending := rest } id =
        s.fabric.windows.countP (Window.on id) + rest.countP (Pending.holds id) := rfl
    obtain ⟨t, ht, hid', hle⟩ := h.refs id (by omega)
    by_cases hq : tensorId = id
    · simp only [Pending.holds, hq, BEq.rfl, if_true] at hold
      refine ⟨_, hdrop.counted t ht (hid'.trans hq.symm) (by omega), hid', ?_⟩
      show claims { s with mm := mm', pending := rest } id ≤ t.refCount - 1
      omega
    · exact ⟨t, hdrop.others t ht (fun he => hq (he.symm.trans hid')), hid', by omega⟩

/-- **Balanced steps keep the invariant.** -/
theorem Held.step {a : Action} (hbal : Balanced s a) (hstep : Step s a s') : Held s' := by
  cases hstep with
  | alloc hq hcall =>
    obtain ⟨hrun, hkeep, haged⟩ := h.run.alloc hq hcall
    refine h.manager hrun haged fun id hid => ?_
    obtain ⟨t, ht, hid', hle⟩ := h.refs id hid
    exact ⟨t, hkeep t ht, hid', hle⟩
  | free hcall =>
    obtain ⟨hrun, hdrop⟩ := h.run.tensorFree hcall
    exact h.drops hrun hdrop hbal
  | ref id =>
    obtain ⟨hrun, htake⟩ := h.run.tensorRef (Prod.eta _).symm
    exact h.takes hrun htake hbal
  | unref hcall =>
    obtain ⟨hrun, hdrop⟩ := h.run.tensorUnref hcall
    exact h.drops hrun hdrop hbal
  | modelFree hcall =>
    obtain ⟨hrun, hkeep, haged⟩ := h.run.modelFree hcall
    refine h.manager hrun haged fun id hid => ?_
    obtain ⟨t, ht, hid', hle⟩ := h.refs id hid
    refine ⟨t, hkeep t ht fun hregion => ?_, hid', hle⟩
    have hzero := hbal t ht hregion
    rw [hid'] at hzero
    omega
  | shareInfo _ hinfo => exact h.shareInfo hinfo
  | shareRef hp hcall => exact h.shareRef hp hcall hbal
  | shareFail hp hcall hst => exact h.shareFail hp hcall hst
  | shareEnter hp hcall => exact h.shareEnter hp hcall
  | shareRefuse hp hcall hst =>
    obtain rfl := shareLocked_refused hcall hst
    refine h.fabric rfl (fun id => ?_) (fun w hw ha => .window w hw ha) fun p hm id size he => ?_
    · rw [claims_perm hp]
      simp only [claims, countP_cons, Pending.holds, beq_iff_eq]
      omega
    · rcases mem_cons.mp hm with rfl | hm
      · exact nomatch he
      · exact .call p (hp.mem_iff.mpr (mem_cons_of_mem _ hm)) he
  | attach windowId domainId writeAccess now =>
    obtain ⟨hcount, hmem⟩ := attachLocked_windows windowId domainId writeAccess now s.fabric
    refine h.fabric rfl (fun id => ?_) (fun w hw ha => ?_) fun p hm _ _ he => .call p hm he
    · simp only [claims, hcount]
    · obtain ⟨u, hu, hua, hid, hsize⟩ := hmem w hw ha
      rw [← hid, ← hsize]
      exact .window u hu hua
  | release hcall =>
    obtain ⟨hcount, hmem⟩ := releaseLocked_windows hcall
    refine h.fabric rfl (fun id => ?_) (fun w hw ha => .window w (hmem w hw ha) ha)
      fun p hm id size he => ?_
    · simp only [claims, hcount, countP_cons, Pending.holds, beq_iff_eq]
      omega
    · rcases mem_cons.mp hm with rfl | hm
      · exact nomatch he
      · exact .call p hm he
  | drop hp hcall => exact h.drop hp hcall

end

end

/-- Every active window refers to a live tensor of the size it records. -/
def WindowsLive (s : Sys) : Prop :=
  ∀ w ∈ s.fabric.windows, w.active = true →
    ∃ t ∈ live s.mm, t.id = w.tensorId ∧ t.size = w.sizeBytes

theorem Held.windowsLive {s : Sys} (h : Held s) : WindowsLive s := by
  intro w hw ha
  have hpos : 0 < claims s w.tensorId := by
    have hcount : 0 < s.fabric.windows.countP (Window.on w.tensorId) :=
      countP_pos_iff.mpr ⟨w, hw, by simp [Window.on, ha]⟩
    simp only [claims]
    omega
  obtain ⟨t, ht, hid, -⟩ := h.refs w.tensorId hpos
  exact ⟨t, ht, hid, (h.sizes _ _ (.window w hw ha)).2 t ht hid⟩

theorem Reach.held {l : Layout} {s : Sys} (h : Reach l Balanced s) : Held s := by
  induction h with
  | init hb hcall =>
    refine ⟨(TensorMm.Reach.init hb hcall).invariant, fun id hid => ?_, fun id size hn => ?_⟩
    · simp [claims] at hid
    · cases hn with
      | window w hw ha => simp at hw
      | call p hm he => simp at hm
  | step _ hbal hstep ih => exact ih.step hbal hstep

/-- In every run whose steps are balanced, every active window refers to a live tensor of its
size, in every state. -/
theorem balanced_windows_live {l : Layout} {s : Sys} (h : Reach l Balanced s) : WindowsLive s :=
  h.held.windowsLive

/-! ## The table of windows -/

theorem shareLocked_length {s s' : State} {q : ShareRequest} {tensor : TensorAlloc} {now : Nat}
    {res : AiosStatus × Option Nat} (hcall : shareLocked q tensor now s = (res, s'))
    (h : s.windows.length ≤ MEMORY_FABRIC_MAX_WINDOWS) :
    s'.windows.length ≤ MEMORY_FABRIC_MAX_WINDOWS := by
  simp only [shareLocked] at hcall
  iterate 2
    split at hcall
    · exact (Prod.mk.inj hcall).2 ▸ h
  rename_i slot s₁ hslot
  cases hcall
  simp only [State.touchDomain, updateWindowAccountingLocked, length_set]
  obtain ⟨as, x, bs, rfl, -, -, hl | ⟨rfl, rfl, hroom⟩⟩ := allocWindowSlotLocked_split hslot
  · exact hl ▸ h
  · rw [length_append]
    exact hroom

theorem attachLocked_length (windowId domainId : Nat) (writeAccess : Bool) (now : Nat) (s : State) :
    (attachLocked windowId domainId writeAccess now s).2.windows.length = s.windows.length := by
  simp only [attachLocked]
  split
  · rfl
  split
  · split
    · rfl
    split
    · rfl
    · exact length_modify ..
  · rfl

theorem releaseLocked_length {s s' : State} {windowId : Nat} {out : Option Nat}
    (hcall : releaseLocked windowId s = (out, s')) : s'.windows.length = s.windows.length := by
  unfold releaseLocked at hcall
  split at hcall
  · rw [(Prod.mk.inj hcall).2]
  · cases hcall
    exact length_modify ..

theorem Step.windows_length {s s' : Sys} {a : Action} (hstep : Step s a s')
    (h : s.fabric.windows.length ≤ MEMORY_FABRIC_MAX_WINDOWS) :
    s'.fabric.windows.length ≤ MEMORY_FABRIC_MAX_WINDOWS := by
  cases hstep with
  | shareEnter _ hcall | shareRefuse _ hcall _ => exact shareLocked_length hcall h
  | attach windowId domainId writeAccess now =>
    exact (attachLocked_length windowId domainId writeAccess now s.fabric).trans_le h
  | release hcall => exact (releaseLocked_length hcall).trans_le h
  | _ => exact h

/-! ## Whole calls -/

section

variable {l : Layout} {s : Sys} {mm' : MmState} {fabric' : State}

/-- A `window_share` that nothing interrupts is a run of its parts. -/
theorem Reach.windowShare (h : Reach l (fun _ _ => True) s) {q : ShareRequest} {now : Nat}
    {res : AiosStatus × Option Nat}
    (hcall : windowShare q now s.mm s.fabric = .done (res, mm', fabric')) :
    Reach l (fun _ _ => True) ⟨mm', fabric', s.pending⟩ := by
  unfold MemoryFabric.windowShare at hcall
  split at hcall
  · cases hcall
    exact h
  rename_i hid
  split at hcall
  · cases hcall
    exact h
  rename_i tensor hinfo
  have h₁ := h.step trivial (Step.shareInfo hid hinfo)
  split at hcall
  · rename_i mm₁ href
    have h₂ := h₁.step trivial (Step.shareRef (.refl _) href)
    split at hcall
    · rename_i out fabric₁ hlocked
      cases hcall
      exact h₂.step trivial (Step.shareEnter (.refl _) hlocked)
    · rename_i st out fabric₁ hst hlocked
      obtain ⟨⟨st', mm₂⟩, hunref, hrest⟩ := bind_eq_done.mp hcall
      cases hrest
      have h₃ := h₂.step trivial (Step.shareRefuse (.refl _) hlocked hst)
      exact h₃.step trivial (Step.drop (.refl _) hunref)
  · rename_i st mm₁ hst href
    cases hcall
    exact h₁.step trivial (Step.shareFail (.refl _) href hst)

/-- So is a `window_release`. -/
theorem Reach.windowRelease (h : Reach l (fun _ _ => True) s) {windowId : Nat} {st : AiosStatus}
    (hcall : windowRelease windowId s.mm s.fabric = .done (st, mm', fabric')) :
    Reach l (fun _ _ => True) ⟨mm', fabric', s.pending⟩ := by
  unfold MemoryFabric.windowRelease at hcall
  split at hcall
  · rename_i fabric₁ hlocked
    obtain ⟨-, rfl, rfl⟩ : _ ∧ s.mm = mm' ∧ fabric₁ = fabric' := by simpa using hcall
    have hsame : fabric₁ = s.fabric := by
      unfold releaseLocked at hlocked
      split at hlocked
      · exact (Prod.mk.inj hlocked).2.symm
      · cases hlocked
    rw [hsame]
    exact h
  · rename_i tensorId fabric₁ hlocked
    obtain ⟨⟨st', mm₁⟩, hunref, hrest⟩ := bind_eq_done.mp hcall
    cases hrest
    exact (h.step trivial (Step.release hlocked)).step trivial (Step.drop (.refl _) hunref)

end

/-- A fabric with one domain and no window. -/
def oneDomain : State := ⟨[⟨1, true, 0, 0⟩], [], 1⟩

/-- A request of that domain to share a tensor. -/
def shareLine (id : Nat) : ShareRequest := ⟨1, id, 0, 0, .sharedRw⟩

/-- Whether sharing a tensor and freeing it twice goes through, and leaves a window. -/
def sharedFreedTwice : Outcome Bool := do
  let (st₀, mm) ← tensorMmInit imageLayout bootState
  let ((st₁, out), mm₁) ← tensorAllocAlignedProfiled true lineRequest mm
  let ((st₂, wid), mm₂, fabric) ← windowShare (shareLine 1) 0 mm₁ oneDomain
  let (st₃, mm₃) ← tensorFree 1 mm₂
  let (st₄, mm₄) ← tensorFree 1 mm₃
  Outcome.done (decide (st₀ = .ok ∧ st₁ = .ok ∧ out.map TensorAlloc.id = some 1 ∧ st₂ = .ok ∧
    wid = some 1 ∧ st₃ = .ok ∧ st₄ = .ok ∧ mm₄.tensorCount = 0 ∧
    fabric.windows.any (fun w => w.active) = true))

/-- A tensor that is shared and then freed twice is gone, and its window is still active. -/
theorem window_outlives_tensor : ∃ mm t mm₁ mm₂ fabric mm₃ mm₄,
    tensorMmInit imageLayout bootState = .done (.ok, mm) ∧
    tensorAllocAlignedProfiled true lineRequest mm = .done ((.ok, some t), mm₁) ∧ t.id = 1 ∧
    windowShare (shareLine 1) 0 mm₁ oneDomain = .done ((.ok, some 1), mm₂, fabric) ∧
    tensorFree 1 mm₂ = .done (.ok, mm₃) ∧ tensorFree 1 mm₃ = .done (.ok, mm₄) ∧
    Reach imageLayout (fun _ _ => True) ⟨mm₄, fabric, []⟩ ∧ ¬ WindowsLive ⟨mm₄, fabric, []⟩ := by
  have hret : sharedFreedTwice = .done true := by decide +kernel
  obtain ⟨⟨st₀, mm⟩, h₀, hret⟩ := bind_eq_done.mp hret
  obtain ⟨⟨⟨st₁, out⟩, mm₁⟩, h₁, hret⟩ := bind_eq_done.mp hret
  obtain ⟨⟨⟨st₂, wid⟩, mm₂, fabric⟩, h₂, hret⟩ := bind_eq_done.mp hret
  obtain ⟨⟨st₃, mm₃⟩, h₃, hret⟩ := bind_eq_done.mp hret
  obtain ⟨⟨st₄, mm₄⟩, h₄, hret⟩ := bind_eq_done.mp hret
  obtain ⟨rfl, rfl, hout, rfl, rfl, rfl, rfl, hempty, hany⟩ := of_decide_eq_true (done.inj hret)
  obtain ⟨t, rfl, hid⟩ := Option.map_eq_some_iff.mp hout
  have hreach : Reach imageLayout (fun _ _ => True) ⟨mm₁, oneDomain, []⟩ :=
    (Reach.init boot_bootState h₀).step trivial (Step.alloc lineRequest_inRange h₁)
  have hshared := hreach.windowShare h₂
  have hfreed := (hshared.step trivial (Step.free h₃)).step trivial (Step.free h₄)
  refine ⟨mm, t, mm₁, mm₂, fabric, mm₃, mm₄, h₀, h₁, hid, h₂, h₃, h₄, hfreed, fun hlive => ?_⟩
  obtain ⟨w, hw, ha⟩ := any_eq_true.mp hany
  obtain ⟨u, hu, -⟩ := hlive w hw ha
  simp [live, hempty] at hu

/-- Whether a tensor can be allocated, referenced and freed, with no count at its bound. -/
def referencedFreed : Outcome Bool := do
  let (st₀, mm) ← tensorMmInit imageLayout bootState
  let (_, mm₁) ← tensorAllocAlignedProfiled true lineRequest mm
  let _ ← tensorFree 1 (tensorRef 1 mm₁).2
  Outcome.done (decide (st₀ = .ok ∧ (tensorInfo 1 mm₁).isSome = true ∧
    (tensorRef 1 mm₁).1 = .ok ∧ (∀ t ∈ live mm₁, t.refCount + 1 < 2 ^ 32) ∧
    ∀ t ∈ live (tensorRef 1 mm₁).2, 1 < t.refCount))

/-- The owner of a shared tensor may drop its own reference: the window still finds the tensor. -/
theorem balanced_windows_live_owner : ∃ s, Reach imageLayout Balanced s ∧
    (∃ w ∈ s.fabric.windows, w.active = true) ∧ WindowsLive s := by
  have hret : referencedFreed = .done true := by decide +kernel
  obtain ⟨⟨st₀, mm⟩, h₀, hret⟩ := bind_eq_done.mp hret
  obtain ⟨⟨res, mm₁⟩, h₁, hret⟩ := bind_eq_done.mp hret
  obtain ⟨⟨st₃, mm₃⟩, h₃, hret⟩ := bind_eq_done.mp hret
  obtain ⟨rfl, hinfo, hst, hroom, hcount⟩ := of_decide_eq_true (done.inj hret)
  obtain ⟨t, hinfo⟩ := Option.isSome_iff_exists.mp hinfo
  have href : tensorRef 1 mm₁ = (.ok, (tensorRef 1 mm₁).2) := Prod.ext hst rfl
  have hreach : Reach imageLayout Balanced ⟨mm₁, oneDomain, []⟩ :=
    .step (a := .alloc true lineRequest) (.init boot_bootState h₀) trivial
      (Step.alloc lineRequest_inRange h₁)
  have hinformed := Reach.step (a := .shareInfo (shareLine 1)) hreach trivial
    (Step.shareInfo (by decide) hinfo)
  have hreferenced := Reach.step (a := .shareRef (shareLine 1)) hinformed
    (fun u hu _ => hroom u hu) (Step.shareRef (.refl _) href)
  have hentered := Reach.step (a := .shareEnter (shareLine 1) 0) hreferenced trivial
    (Step.shareEnter (.refl _) rfl)
  have hfreed := Reach.step (a := .free 1) hentered (fun u hu _ => .inr (hcount u hu))
    (Step.free h₃)
  exact ⟨_, hfreed, ⟨_, mem_cons_self, rfl⟩, balanced_windows_live hfreed⟩

end AiosKernel.MemoryFabric
