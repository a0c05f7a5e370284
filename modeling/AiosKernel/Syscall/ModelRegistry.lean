/-
# `AiosKernel.Syscall.ModelRegistry` — loaded models and their weights

`sys_model_load` and `sys_model_unload` of `kernel/runtime/ai_syscall.c`.  A load
allocates the weights in the model region and enters the model into the
registry, which does not record which allocation is whose: `owners` of `Sys`
does, beside the state of the program.

An unload hands the model's id to `model_free`, which ignores it and releases
every tensor of the region (`unload_clears`).  So a loaded model keeps its
weights only as long as no other model is unloaded (`Alone`).
-/
import AiosKernel.Lib.Slots
import AiosKernel.TensorMm.Live

namespace AiosKernel.Syscall

open TensorMm Outcome List
open Word Slots

/-! ## The model -/

def MAX_MODELS_REGISTRY : Nat := 64

structure ModelInfo where
  id : Nat
  name : String
  arch : String
  paramCount : Nat
  memoryUsage : Nat
  dtype : Nat
  accelId : Nat
  loaded : Bool
  inferenceCount : Nat
  avgLatencyNs : Nat
  deriving DecidableEq, Repr

def ModelInfo.zero : ModelInfo := ⟨0, "", "", 0, 0, 0, 0, false, 0, 0⟩

/-- The entries below `model_count`, and `next_model_id`. -/
structure Registry where
  models : List ModelInfo
  nextModelId : Nat
  deriving DecidableEq, Repr

/-- `syscall_model_load_t`; a null `path` is `none`, and of the output only whether it is null. -/
structure ModelLoad where
  path : Option String
  hasModelIdOut : Bool
  targetAccel : Nat
  dtype : Nat
  deriving DecidableEq, Repr

/-- What the accesses to user memory return, in the order `sys_model_load` makes them. -/
structure UserAccess where
  request : AiosStatus
  idBuffer : AiosStatus
  path : AiosStatus
  idCopy : AiosStatus
  deriving DecidableEq, Repr

def copyStr (src : String) (maxLen : Nat) : String := String.ofList (src.toList.take (maxLen - 1))

def findModelLocked (r : Registry) (id : Nat) : Option Nat := r.models.findIdx? fun m => m.id == id

def ModelLoad.entry (req : ModelLoad) (path : String) (modelId : Nat) (alloc : TensorAlloc) :
    ModelInfo where
  id := modelId
  name := copyStr path 64
  arch := copyStr "transformer" 32
  paramCount := 0
  memoryUsage := alloc.size
  dtype := req.dtype
  accelId := req.targetAccel
  loaded := true
  inferenceCount := 0
  avgLatencyNs := 0

/-- `sys_model_load`: the status, and the local `alloc` if the model was published. -/
def sysModelLoad (fuel : Nat) (u : UserAccess) (req : ModelLoad) (mm : MmState) (r : Registry) :
    Outcome (AiosStatus × Option TensorAlloc × MmState × Registry) :=
  if u.request ≠ .ok then .done (u.request, none, mm, r)
  else
    match req.path, req.hasModelIdOut with
    | some path, true =>
      if u.idBuffer ≠ .ok then .done (u.idBuffer, none, mm, r)
      else if u.path ≠ .ok then .done (u.path, none, mm, r)
      else if MAX_MODELS_REGISTRY ≤ r.models.length then .done (.errNomem, none, mm, r)
      else do
        let modelId := r.nextModelId
        let r := { r with nextModelId := u32 (r.nextModelId + 1) }
        match ← modelAlloc (MB 64) mm with
        | ((.ok, some alloc), mm) =>
          if MAX_MODELS_REGISTRY ≤ r.models.length then do
            let (_, mm) ← modelFree fuel mm
            .done (.errNomem, none, mm, r)
          else
            .done (u.idCopy, some alloc, mm,
              { r with models := r.models ++ [req.entry path modelId alloc] })
        | ((status, _), mm) => .done (status, none, mm, r)
    | _, _ => .done (.errInval, none, mm, r)

def ModelInfo.unloaded (m : ModelInfo) : ModelInfo := { m with loaded := false, memoryUsage := 0 }

def sysModelUnload (fuel id : Nat) (mm : MmState) (r : Registry) :
    Outcome (AiosStatus × MmState × Registry) :=
  match findModelLocked r id with
  | none => .done (.errInval, mm, r)
  | some i =>
    let snapshot := r.models.getD i ModelInfo.zero
    if !snapshot.loaded then .done (.errInval, mm, r)
    else do
      let r := { r with models := r.models.modify i ModelInfo.unloaded }
      let (status, mm) ← modelFree fuel mm
      if status ≠ .ok then
        match findModelLocked r id with
        | none => .done (status, mm, r)
        | some i => .done (status, mm, { r with models := r.models.modify i fun m =>
          { m with loaded := snapshot.loaded, memoryUsage := snapshot.memoryUsage } })
      else .done (.ok, mm, r)

/-! ## Runs -/

/-- The program's state, and for each entry of the registry the id of the tensor its load got. -/
structure Sys where
  mm : MmState
  registry : Registry
  owners : List Nat

inductive Call where
  | load (u : UserAccess) (req : ModelLoad)
  | unload (id : Nat)
  | alloc (hasOut : Bool) (q : AllocRequest)
  | free (id : Nat)
  | ref (id : Nat)
  | unref (id : Nat)
  | modelFree

inductive Step : Sys → Call → Sys → Prop where
  | load {s : Sys} {fuel : Nat} {u : UserAccess} {req : ModelLoad} {st : AiosStatus}
      {alloc : Option TensorAlloc} {mm' : MmState} {r' : Registry} :
      sysModelLoad fuel u req s.mm s.registry = .done (st, alloc, mm', r') →
      Step s (.load u req) ⟨mm', r', s.owners ++ (alloc.map TensorAlloc.id).toList⟩
  | unload {s : Sys} {fuel id : Nat} {st : AiosStatus} {mm' : MmState} {r' : Registry} :
      sysModelUnload fuel id s.mm s.registry = .done (st, mm', r') →
      Step s (.unload id) ⟨mm', r', s.owners⟩
  | alloc {s : Sys} {mm' : MmState} {hasOut : Bool} {q : AllocRequest} {res : AllocResult} :
      q.InRange → tensorAllocAlignedProfiled hasOut q s.mm = .done (res, mm') →
      Step s (.alloc hasOut q) { s with mm := mm' }
  | free {s : Sys} {mm' : MmState} {id : Nat} {st : AiosStatus} :
      tensorFree id s.mm = .done (st, mm') → Step s (.free id) { s with mm := mm' }
  | ref {s : Sys} (id : Nat) : Step s (.ref id) { s with mm := (tensorRef id s.mm).2 }
  | unref {s : Sys} {mm' : MmState} {id : Nat} {st : AiosStatus} :
      tensorUnref id s.mm = .done (st, mm') → Step s (.unref id) { s with mm := mm' }
  | modelFree {s : Sys} {mm' : MmState} {fuel : Nat} {st : AiosStatus} :
      modelFree fuel s.mm = .done (st, mm') → Step s .modelFree { s with mm := mm' }

/-- The states of runs whose calls all meet the condition, from `tensor_mm_init` and
`ai_syscall_init` on. -/
inductive Reach (l : Layout) (Meets : Sys → Call → Prop) : Sys → Prop where
  | init {mm₀ mm : MmState} : Boot mm₀ → tensorMmInit l mm₀ = .done (.ok, mm) →
      Reach l Meets ⟨mm, ⟨[], 1⟩, []⟩
  | step {s s' : Sys} {c : Call} : Reach l Meets s → Meets s c → Step s c s' → Reach l Meets s'

/-- The model at a position of the registry is loaded, and its weights are the tensor `o`. -/
structure LoadedAt (s : Sys) (i : Nat) (m : ModelInfo) (o : Nat) : Prop where
  entry : s.registry.models[i]? = some m
  loaded : m.loaded = true
  owner : s.owners[i]? = some o

/-- Releases do not name the weights of a loaded model. -/
def Foreign (s : Sys) : Call → Prop
  | .free id | .unref id => ∀ i m o, LoadedAt s i m o → o ≠ id
  | _ => True

/-- A loaded model is unloaded only while no other one is loaded, and `model_free` is called only
while none is. -/
def Alone (s : Sys) : Call → Prop
  | .unload id => ∀ i m, findModelLocked s.registry id = some i →
      s.registry.models[i]? = some m → m.loaded = true →
      ∀ j n, s.registry.models[j]? = some n → n.loaded = true → i = j
  | .modelFree => ∀ m ∈ s.registry.models, m.loaded = false
  | _ => True

/-- Every loaded model owns a live tensor of the model region with its size, and no two models own
the same one. -/
structure Owns (s : Sys) : Prop where
  owner : ∀ i m, s.registry.models[i]? = some m → m.loaded = true → ∃ o, LoadedAt s i m o ∧
    ∃ t ∈ live s.mm, t.id = o ∧ t.region = .model ∧ t.size = m.memoryUsage
  distinct : ∀ i j m n o, LoadedAt s i m o → LoadedAt s j n o → i = j

/-! ## What the calls do -/

section

variable {s s' : Sys} {mm mm' : MmState} {r r' : Registry} {fuel id : Nat} {st : AiosStatus}

/-- A load publishes a model with the tensor it has allocated, and then only the copy of the id can
fail; or it fails before and leaves tensors and entries alone. -/
theorem sysModelLoad_cases {u : UserAccess} {req : ModelLoad} {alloc : Option TensorAlloc}
    (hcall : sysModelLoad fuel u req mm r = .done (st, alloc, mm', r')) :
    (∃ t path, alloc = some t ∧ st = u.idCopy ∧ u.idBuffer = .ok ∧
      modelAlloc (MB 64) mm = .done ((.ok, some t), mm') ∧
      r'.models = r.models ++ [req.entry path r.nextModelId t]) ∨
    alloc = none ∧ st ≠ .ok ∧ mm' = mm ∧ r'.models = r.models := by
  have hfail : ∀ {st₁ : AiosStatus} {r₁ : Registry}, st₁ ≠ .ok → r₁.models = r.models →
      (Outcome.done (st₁, none, mm, r₁) :
        Outcome (AiosStatus × Option TensorAlloc × MmState × Registry)) =
        .done (st, alloc, mm', r') →
      alloc = none ∧ st ≠ .ok ∧ mm' = mm ∧ r'.models = r.models := by
    intro st₁ r₁ hst hmodels heq
    cases heq
    exact ⟨rfl, hst, rfl, hmodels⟩
  unfold sysModelLoad at hcall
  split at hcall
  · rename_i hrequest
    exact .inr (hfail hrequest rfl hcall)
  split at hcall
  · rename_i path hpath hout
    split at hcall
    · rename_i hbuffer
      exact .inr (hfail hbuffer rfl hcall)
    rename_i hbuffer
    split at hcall
    · rename_i hstring
      exact .inr (hfail hstring rfl hcall)
    split at hcall
    · exact .inr (hfail (by decide) rfl hcall)
    rename_i hroom
    obtain ⟨⟨res, mm₁⟩, halloc, hrest⟩ := bind_eq_done.mp hcall
    rcases alloc_cases halloc with ⟨st₁, hst₁, rfl, rfl⟩ | ⟨_, _, _, -, -, -, rfl⟩
    · split at hrest
      · rename_i heq
        cases heq
      · rename_i heq
        cases heq
        refine .inr (hfail hst₁ ?_ hrest)
        rfl
    · -- no entry has been added since the first check
      simp only [if_neg hroom] at hrest
      cases hrest
      exact .inl ⟨_, path, rfl, rfl, not_not.mp hbuffer, halloc, rfl⟩
  · exact .inr (hfail (by decide) rfl hcall)

/-- An unload is refused, or it marks the model and clears the whole region. -/
theorem sysModelUnload_cases (hrun : RunInv mm)
    (hcall : sysModelUnload fuel id mm r = .done (st, mm', r')) :
    (st = .errInval ∧ mm' = mm ∧ r' = r) ∨
    ∃ i m, findModelLocked r id = some i ∧ r.models[i]? = some m ∧
      m.loaded = true ∧ modelFree fuel mm = .done (.ok, mm') ∧ st = .ok ∧
      r' = { r with models := r.models.modify i ModelInfo.unloaded } := by
  unfold sysModelUnload at hcall
  split at hcall
  · cases hcall
    exact .inl ⟨rfl, rfl, rfl⟩
  rename_i i hfind
  obtain ⟨as, m, bs, hl, hi, -, -⟩ := findIdx?_split hfind
  have hm : r.models.getD i ModelInfo.zero = m := by rw [hl, hi, getD_split]
  have hentry : r.models[i]? = some m := by simp [hl, hi]
  simp only [hm] at hcall
  split at hcall
  · cases hcall
    exact .inl ⟨rfl, rfl, rfl⟩
  rename_i hloaded
  obtain ⟨⟨st₁, mm₁⟩, hfree, hrest⟩ := bind_eq_done.mp hcall
  obtain ⟨rfl, -⟩ := hrun.modelFree_clears hfree
  cases hrest
  exact .inr ⟨i, m, hfind, hentry, by simpa using hloaded, hfree, rfl, rfl⟩

/-- **An unload that succeeds leaves no tensor of the model region**, whoever owned it. -/
theorem unload_clears (hrun : RunInv mm)
    (hcall : sysModelUnload fuel id mm r = .done (.ok, mm', r')) :
    ∀ t ∈ live mm', t.region ≠ .model := by
  rcases sysModelUnload_cases hrun hcall with ⟨hst, -⟩ | ⟨i, m, -, -, -, hfree, -⟩
  · exact nomatch hst
  · exact (hrun.modelFree_clears hfree).2

/-! ## The invariant -/

structure Inv (s : Sys) : Prop where
  run : RunInv s.mm
  length : s.owners.length = s.registry.models.length
  owns : Owns s

theorem Inv.manager (h : Inv s) (hrun : RunInv mm')
    (hkeep : ∀ i m o, LoadedAt s i m o → ∀ t ∈ live s.mm, t.id = o → t.region = .model →
      ∃ u ∈ live mm', u.id = t.id ∧ u.region = t.region ∧ u.size = t.size) :
    Inv { s with mm := mm' } := by
  refine ⟨hrun, h.length, fun i m hm hl => ?_, fun i j m n o hi hj => ?_⟩
  · obtain ⟨o, hat, t, ht, hid, hregion, hsize⟩ := h.owns.owner i m hm hl
    obtain ⟨u, hu, huid, huregion, husize⟩ := hkeep i m o hat t ht hid hregion
    exact ⟨o, { hat with }, u, hu, huid.trans hid, huregion.trans hregion,
      husize.trans hsize⟩
  · exact h.owns.distinct i j m n o { hi with } { hj with }

theorem Inv.drops (h : Inv s) (hrun : RunInv mm') (hdrop : Drops id s.mm mm')
    (hforeign : ∀ i m o, LoadedAt s i m o → o ≠ id) : Inv { s with mm := mm' } := by
  refine h.manager hrun fun i m o hat t ht hid _ => ⟨t, ?_, rfl, rfl, rfl⟩
  exact hdrop.others t ht (hid ▸ hforeign i m o hat)

theorem owns_of_none_loaded (hnone : ∀ m ∈ s.registry.models, m.loaded = false) : Owns s := by
  have hfalse : ∀ {i : Nat} {m : ModelInfo}, s.registry.models[i]? = some m →
      m.loaded = true → False := by
    intro i m hm hl
    rw [hnone m (mem_of_getElem? hm)] at hl
    exact nomatch hl
  exact ⟨fun i m hm hl => (hfalse hm hl).elim, fun i j m n o hi _ => (hfalse hi.entry hi.loaded).elim⟩

theorem modelAlloc_inRange : AllocRequest.InRange
    { size := alignUp64 (MB 64) HUGE_PAGE_SIZE, alignment := HUGE_PAGE_SIZE, region := 2,
      lifetime := .longTerm, realtimeCritical := false, stochastic := false } :=
  ⟨by decide, by decide⟩

variable {m n : ModelInfo}

theorem LoadedAt.of_snoc {i id o : Nat} (hlen : s.owners.length = s.registry.models.length)
    (hmodels : r'.models = s.registry.models ++ [m])
    (hat : LoadedAt ⟨mm', r', s.owners ++ [id]⟩ i n o) :
    LoadedAt s i n o ∨ i = s.registry.models.length ∧ n = m ∧ o = id := by
  have hentry : (s.registry.models ++ [m])[i]? = some n := hmodels ▸ hat.entry
  have howner : (s.owners ++ [id])[i]? = some o := hat.owner
  by_cases hi : i < s.registry.models.length
  · rw [getElem?_append_left hi] at hentry
    rw [getElem?_append_left (hlen ▸ hi)] at howner
    exact .inl ⟨hentry, hat.loaded, howner⟩
  · have hle := (List.getElem?_eq_some_iff.mp hentry).1
    rw [length_append, length_singleton] at hle
    obtain rfl : i = s.registry.models.length := by omega
    rw [getElem?_concat_length] at hentry
    rw [← hlen, getElem?_concat_length] at howner
    exact .inr ⟨rfl, (Option.some.inj hentry).symm, (Option.some.inj howner).symm⟩

theorem LoadedAt.snoc {i id o : Nat} (hmodels : r'.models = s.registry.models ++ [m])
    (hat : LoadedAt s i n o) : LoadedAt ⟨mm', r', s.owners ++ [id]⟩ i n o := by
  refine ⟨?_, hat.loaded, ?_⟩
  · rw [hmodels, List.getElem?_append_left (List.getElem?_eq_some_iff.mp hat.entry).1]
    exact hat.entry
  · rw [List.getElem?_append_left (List.getElem?_eq_some_iff.mp hat.owner).1]
    exact hat.owner

theorem Inv.owner_lt (h : Inv s) {i o : Nat} (hat : LoadedAt s i n o) : o < s.mm.nextTensorId := by
  obtain ⟨o', hat', u, hu, huid, -⟩ := h.owns.owner i n hat.entry hat.loaded
  obtain rfl : o' = o := Option.some.inj (hat'.owner.symm.trans hat.owner)
  exact huid ▸ h.run.idsLt u hu

theorem Inv.publish (h : Inv s) {t : TensorAlloc}
    (halloc : modelAlloc (MB 64) s.mm = .done ((.ok, some t), mm'))
    (hmodels : r'.models = s.registry.models ++ [m]) (hsize : m.memoryUsage = t.size) :
    Inv ⟨mm', r', s.owners ++ [t.id]⟩ := by
  obtain ⟨hrun, hkeep, -⟩ := h.run.alloc modelAlloc_inRange halloc
  obtain ⟨ht, hid⟩ := h.run.alloc_new modelAlloc_inRange halloc
  have hregion : some MemRegion.model = some t.region := alloc_region halloc
  refine ⟨hrun, by simp [hmodels, h.length], fun i n hn hl => ?_, fun i j n k o hi hj => ?_⟩
  · have hbound : i < (s.owners ++ [t.id]).length := by
      have hlt := (List.getElem?_eq_some_iff.mp hn).1
      simpa [hmodels, h.length] using hlt
    have hat : LoadedAt ⟨mm', r', s.owners ++ [t.id]⟩ i n _ :=
      ⟨hn, hl, getElem?_eq_getElem hbound⟩
    rcases LoadedAt.of_snoc h.length hmodels hat with hold | ⟨-, rfl, howner⟩
    · obtain ⟨o, hat', u, hu, hown⟩ := h.owns.owner i n hold.entry hl
      exact ⟨o, hat'.snoc hmodels, u, hkeep u hu, hown⟩
    · exact ⟨_, hat, t, ht, howner.symm, (Option.some.inj hregion).symm, hsize.symm⟩
  · rcases LoadedAt.of_snoc h.length hmodels hi with hi' | ⟨rfl, -, rfl⟩
    · rcases LoadedAt.of_snoc h.length hmodels hj with hj' | ⟨-, -, rfl⟩
      · exact h.owns.distinct i j n k o hi' hj'
      · exact absurd (h.owner_lt hi') (by omega)
    · rcases LoadedAt.of_snoc h.length hmodels hj with hj' | ⟨rfl, -⟩
      · exact absurd (h.owner_lt hj') (by omega)
      · rfl

theorem Inv.unpublished (h : Inv s) (hmodels : r'.models = s.registry.models) :
    Inv ⟨s.mm, r', s.owners⟩ := by
  refine ⟨h.run, by simp [hmodels, h.length], fun i m hm hl => ?_, fun i j m n o hi hj => ?_⟩
  · obtain ⟨o, hat, hown⟩ := h.owns.owner i m (hmodels ▸ hm) hl
    exact ⟨o, ⟨hm, hl, hat.owner⟩, hown⟩
  · exact h.owns.distinct i j m n o ⟨hmodels ▸ hi.entry, hi.loaded, hi.owner⟩
      ⟨hmodels ▸ hj.entry, hj.loaded, hj.owner⟩

theorem none_loaded_of_alone {i : Nat} (hm : s.registry.models[i]? = some m)
    (halone : ∀ j n, s.registry.models[j]? = some n → n.loaded = true → i = j) :
    ∀ n ∈ s.registry.models.modify i ModelInfo.unloaded, n.loaded = false := by
  intro n hn
  obtain ⟨j, hj⟩ := getElem?_of_mem hn
  rw [getElem?_modify] at hj
  by_cases hij : i = j
  · subst hij
    rw [hm] at hj
    obtain rfl : m.unloaded = n := by simpa using hj
    rfl
  · have hj' : s.registry.models[j]? = some n := by simpa [hij] using hj
    cases hl : n.loaded with
    | false => rfl
    | true => exact absurd (halone j n hj' hl) hij

/-- Calls that do not touch the weights of loaded models keep the invariant. -/
theorem Inv.step {c : Call} (h : Inv s) (hforeign : Foreign s c) (halone : Alone s c)
    (hstep : Step s c s') : Inv s' := by
  cases hstep with
  | load hcall =>
    rcases sysModelLoad_cases hcall with
      ⟨t, path, rfl, -, -, halloc, hmodels⟩ | ⟨rfl, -, rfl, hmodels⟩
    · exact h.publish halloc hmodels rfl
    · simpa using h.unpublished hmodels
  | unload hcall =>
    rcases sysModelUnload_cases h.run hcall with ⟨-, rfl, rfl⟩ | ⟨i, m, hfind, hm, hl, hfree, -, rfl⟩
    · exact h
    · obtain ⟨hrun, -⟩ := h.run.modelFree hfree
      exact ⟨hrun, by simp [h.length],
        owns_of_none_loaded (none_loaded_of_alone hm (halone i m hfind hm hl))⟩
  | alloc hq hcall =>
    obtain ⟨hrun, hkeep, -⟩ := h.run.alloc hq hcall
    exact h.manager hrun fun i m o _ t ht _ _ => ⟨t, hkeep t ht, rfl, rfl, rfl⟩
  | free hcall =>
    obtain ⟨hrun, hdrop⟩ := h.run.tensorFree hcall
    exact h.drops hrun hdrop hforeign
  | ref id =>
    obtain ⟨hrun, htake⟩ := h.run.tensorRef (Prod.eta (tensorRef id s.mm)).symm
    refine h.manager hrun fun i m o _ t ht _ _ => ?_
    by_cases hid : t.id = id
    · exact ⟨_, htake.counted t ht hid, rfl, rfl, rfl⟩
    · exact ⟨t, htake.others t ht hid, rfl, rfl, rfl⟩
  | unref hcall =>
    obtain ⟨hrun, hdrop⟩ := h.run.tensorUnref hcall
    exact h.drops hrun hdrop hforeign
  | modelFree hcall =>
    obtain ⟨hrun, -⟩ := h.run.modelFree hcall
    exact ⟨hrun, h.length, owns_of_none_loaded halone⟩

end

theorem Reach.inv {l : Layout} {s : Sys} (h : Reach l (fun s c => Foreign s c ∧ Alone s c) s) :
    Inv s := by
  induction h with
  | init hb hcall =>
    exact ⟨(TensorMm.Reach.init hb hcall).invariant, rfl, owns_of_none_loaded (by simp)⟩
  | step _ hmeets hstep ih => exact ih.step hmeets.1 hmeets.2 hstep

/-- In every run in which no model is unloaded beside another loaded one, every loaded model owns
its weights in every state. -/
theorem alone_models_own {l : Layout} {s : Sys}
    (h : Reach l (fun s c => Foreign s c ∧ Alone s c) s) : Owns s :=
  h.inv.owns

/-- A load that the user's memory lets through. -/
def loadWeights : ModelLoad := ⟨some "weights", true, 0, 0⟩

/-- All accesses to user memory succeed. -/
def allAccessible : UserAccess := ⟨.ok, .ok, .ok, .ok⟩

/-- Two models are loaded and the first is unloaded: the second is still loaded, and no tensor of
its region is left. -/
theorem unload_releases_other : ∃ mm s₁ s₂ s₃ m, Reach imageLayout Foreign ⟨mm, ⟨[], 1⟩, []⟩ ∧
    Step ⟨mm, ⟨[], 1⟩, []⟩ (.load allAccessible loadWeights) s₁ ∧
    Step s₁ (.load allAccessible loadWeights) s₂ ∧ Step s₂ (.unload 1) s₃ ∧
    Reach imageLayout Foreign s₃ ∧ m ∈ s₃.registry.models ∧ m.id = 2 ∧ m.loaded = true ∧
    live s₃.mm = [] ∧ ¬ Owns s₃ := by
  have hret : (do
      let (st₀, mm) ← tensorMmInit imageLayout bootState
      let (st₁, _, mm₁, r₁) ← sysModelLoad 0 allAccessible loadWeights mm ⟨[], 1⟩
      let (st₂, _, mm₂, r₂) ← sysModelLoad 0 allAccessible loadWeights mm₁ r₁
      let (st₃, mm₃, r₃) ← sysModelUnload 8 1 mm₂ r₂
      Outcome.done (decide (st₀ = .ok ∧ st₁ = .ok ∧ st₂ = .ok ∧ st₃ = .ok ∧ mm₃.tensorCount = 0 ∧
        (r₃.models[1]?).any (fun m => m.id == 2 && m.loaded) = true)) : Outcome Bool) =
      .done true := by
    decide +kernel
  obtain ⟨⟨st₀, mm⟩, h₀, hret⟩ := bind_eq_done.mp hret
  obtain ⟨⟨st₁, a₁, mm₁, r₁⟩, h₁, hret⟩ := bind_eq_done.mp hret
  obtain ⟨⟨st₂, a₂, mm₂, r₂⟩, h₂, hret⟩ := bind_eq_done.mp hret
  obtain ⟨⟨st₃, mm₃, r₃⟩, h₃, hret⟩ := bind_eq_done.mp hret
  obtain ⟨rfl, rfl, rfl, rfl, hempty, hany⟩ := of_decide_eq_true (done.inj hret)
  obtain ⟨m, hm, hloaded⟩ := (Option.any_eq_true _ _).mp hany
  obtain ⟨hid, hloaded⟩ := Bool.and_eq_true_iff.mp hloaded
  have hinit : Reach imageLayout Foreign ⟨mm, ⟨[], 1⟩, []⟩ := .init boot_bootState h₀
  have hstep₁ := @Step.load ⟨mm, ⟨[], 1⟩, []⟩ _ _ _ _ _ _ _ h₁
  generalize ([] : List Nat) ++ (a₁.map TensorAlloc.id).toList = owners₁ at hstep₁
  have hstep₂ := @Step.load ⟨mm₁, r₁, owners₁⟩ _ _ _ _ _ _ _ h₂
  generalize owners₁ ++ (a₂.map TensorAlloc.id).toList = owners₂ at hstep₂
  have hstep₃ := @Step.unload ⟨mm₂, r₂, owners₂⟩ _ _ _ _ _ h₃
  have hreach₁ := Reach.step (c := .load allAccessible loadWeights) hinit trivial hstep₁
  have hreach₂ := Reach.step (c := .load allAccessible loadWeights) hreach₁ trivial hstep₂
  have hreach := Reach.step (c := .unload 1) hreach₂ trivial hstep₃
  have hlive : live mm₃ = [] := by simp [live, hempty]
  refine ⟨mm, _, _, _, m, hinit, hstep₁, hstep₂, hstep₃, hreach, mem_of_getElem? hm,
    by simpa using hid, hloaded, hlive, fun howns => ?_⟩
  obtain ⟨o, -, t, ht, -⟩ := howns.owner 1 m hm hloaded
  simp [hlive] at ht

/-- A model is loaded, unloaded and loaded again. -/
theorem alone_models_own_reloaded : ∃ s,
    Reach imageLayout (fun s c => Foreign s c ∧ Alone s c) s ∧ s.registry.models.length = 2 ∧
    (∃ m ∈ s.registry.models, m.loaded = true) ∧ Owns s := by
  have hret : (do
      let (st₀, mm) ← tensorMmInit imageLayout bootState
      let (_, _, mm₁, r₁) ← sysModelLoad 0 allAccessible loadWeights mm ⟨[], 1⟩
      let (_, mm₂, r₂) ← sysModelUnload 8 1 mm₁ r₁
      let (_, _, _, r₃) ← sysModelLoad 0 allAccessible loadWeights mm₂ r₂
      Outcome.done (decide (st₀ = .ok ∧ r₁.models.length = 1 ∧ r₃.models.length = 2 ∧
        r₃.models.any (fun m => m.loaded) = true)) : Outcome Bool) = .done true := by
    decide +kernel
  obtain ⟨⟨st₀, mm⟩, h₀, hret⟩ := bind_eq_done.mp hret
  obtain ⟨⟨st₁, a₁, mm₁, r₁⟩, h₁, hret⟩ := bind_eq_done.mp hret
  obtain ⟨⟨st₂, mm₂, r₂⟩, h₂, hret⟩ := bind_eq_done.mp hret
  obtain ⟨⟨st₃, a₃, mm₃, r₃⟩, h₃, hret⟩ := bind_eq_done.mp hret
  obtain ⟨rfl, hone, htwo, hany⟩ := of_decide_eq_true (done.inj hret)
  have hloaded : Reach imageLayout (fun s c => Foreign s c ∧ Alone s c) _ :=
    .step (c := .load allAccessible loadWeights) (.init boot_bootState h₀) ⟨trivial, trivial⟩
      (@Step.load ⟨mm, ⟨[], 1⟩, []⟩ _ _ _ _ _ _ _ h₁)
  generalize ([] : List Nat) ++ (a₁.map TensorAlloc.id).toList = owners at hloaded
  have halone : Alone ⟨mm₁, r₁, owners⟩ (.unload 1) := by
    intro i m _ hi _ j n hj _
    have hi : i < r₁.models.length := (List.getElem?_eq_some_iff.mp hi).1
    have hj : j < r₁.models.length := (List.getElem?_eq_some_iff.mp hj).1
    omega
  have hunloaded := Reach.step (c := .unload 1) hloaded ⟨trivial, halone⟩
    (@Step.unload ⟨mm₁, r₁, owners⟩ _ _ _ _ _ h₂)
  have hreach := Reach.step (c := .load allAccessible loadWeights) hunloaded ⟨trivial, trivial⟩
    (@Step.load ⟨mm₂, r₂, owners⟩ _ _ _ _ _ _ _ h₃)
  exact ⟨_, hreach, htwo, any_eq_true.mp hany, alone_models_own hreach⟩

end AiosKernel.Syscall
