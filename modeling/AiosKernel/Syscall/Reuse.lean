/-
# `AiosKernel.Syscall.Reuse` — when `sys_model_load` runs out of memory

A run of loads and unloads publishes at most `MAX_MODELS_REGISTRY` models, so it
uses few tensors and few descriptors (`Bounded`) and `model_alloc` fails only for
want of room in the region.  But `model_count` never goes down: an unloaded
model keeps its entry, and once the registry is full every load is refused,
whatever has been unloaded since.
-/
import AiosKernel.TensorMm.Room
import AiosKernel.Syscall.ModelRegistry

namespace AiosKernel.Syscall

open TensorMm List
open Word Slots

/-- The two handlers, called with arguments that the accesses to user memory let through. -/
def ModelCall : Call → Prop
  | .load u req => u = allAccessible ∧ req.path ≠ none ∧ req.hasModelIdOut = true
  | .unload _ => True
  | _ => False

/-- The number of models that are loaded now. -/
def Registry.loadedCount (r : Registry) : Nat := r.models.countP fun m => m.loaded

/-- All entries of the registry are taken, one of them by a model that is no longer loaded. -/
def AwaitsReuse (r : Registry) : Prop :=
  MAX_MODELS_REGISTRY ≤ r.models.length ∧ ∃ m ∈ r.models, m.loaded = false

/-- The model region has the 64 MiB a load asks for. -/
def ModelRoom (mm : MmState) : Prop := HasRoom mm .model (MB 64) HUGE_PAGE_SIZE

section

variable {s s' : Sys} {mm mm' : MmState} {r r' : Registry} {fuel id : Nat} {st : AiosStatus}
  {u : UserAccess} {req : ModelLoad}

/-- A load finds the registry full, or gets no memory, or publishes the model. -/
theorem load_cases (hrun : RunInv mm) (hreq : ModelCall (.load u req)) :
    (MAX_MODELS_REGISTRY ≤ r.models.length ∧
      sysModelLoad fuel u req mm r = .done (.errNomem, none, mm, r)) ∨
    (r.models.length < MAX_MODELS_REGISTRY ∧ ∃ st, st ≠ .ok ∧
      modelAlloc (MB 64) mm = .done ((st, none), mm) ∧
      sysModelLoad fuel u req mm r = .done (st, none, mm, ⟨r.models, u32 (r.nextModelId + 1)⟩)) ∨
    (r.models.length < MAX_MODELS_REGISTRY ∧ ∃ t mm' path,
      modelAlloc (MB 64) mm = .done ((.ok, some t), mm') ∧
      sysModelLoad fuel u req mm r = .done (.ok, some t, mm',
        ⟨r.models ++ [req.entry path r.nextModelId t], u32 (r.nextModelId + 1)⟩)) := by
  obtain ⟨rfl, hpath, hout⟩ := hreq
  obtain ⟨path, hpath⟩ := Option.ne_none_iff_exists'.mp hpath
  by_cases hfull : MAX_MODELS_REGISTRY ≤ r.models.length
  · exact .inl ⟨hfull, by simp [sysModelLoad, allAccessible, hpath, hout, hfull]⟩
  · obtain ⟨F, hinv⟩ := hrun.inv
    rcases hinv.alloc hrun.managed_lt true _ modelAlloc_inRange with
      ⟨st, hst, halloc⟩ | ⟨mm', t, region, halloc, -⟩
    · have hcall : modelAlloc (MB 64) mm = .done ((st, none), mm) := halloc
      refine .inr (.inl ⟨not_le.mp hfull, st, hst, hcall, ?_⟩)
      simp [sysModelLoad, allAccessible, hpath, hout, hfull, hcall]
    · have hcall : modelAlloc (MB 64) mm = .done ((.ok, some t), mm') := halloc
      refine .inr (.inr ⟨not_le.mp hfull, t, mm', path, hcall, ?_⟩)
      simp [sysModelLoad, allAccessible, hpath, hout, hfull, hcall]

/-! ## What a run uses -/

/-- Tensors and descriptors are bounded by the number of models published. -/
structure Bounded (s : Sys) : Prop where
  run : RunInv s.mm
  entries : s.registry.models.length ≤ MAX_MODELS_REGISTRY
  tensors : s.mm.tensorCount ≤ s.registry.models.length
  descriptors : s.mm.arena.blockPoolNext + s.mm.tensorCount ≤ 20 + 3 * s.registry.models.length

theorem Bounded.step {c : Call} (h : Bounded s) (hc : ModelCall c) (hstep : Step s c s') :
    Bounded s' := by
  have hdesc := h.descriptors
  cases hstep with
  | load hcall =>
    rcases load_cases h.run hc with
      ⟨-, hend⟩ | ⟨-, st, -, -, hend⟩ | ⟨hroom, t, mm', path, halloc, hend⟩
    iterate 2
      · cases hend.symm.trans hcall
        exact { h with }
    · -- one entry, one tensor and up to two descriptors more
      have huse := alloc_next halloc
      obtain ⟨region, block, a, -, hmm, -⟩ := alloc_enters halloc
      have hcount : mm'.tensorCount = s.mm.tensorCount + 1 := by rw [hmm]; rfl
      have htensors := h.tensors
      cases hend.symm.trans hcall
      refine ⟨h.run.of_alloc modelAlloc_inRange halloc, by simpa using hroom, ?_, ?_⟩
      all_goals
        simp only [length_append, length_singleton]
        omega
  | unload hcall =>
    rcases sysModelUnload_cases h.run hcall with ⟨-, rfl, rfl⟩ | ⟨i, m, -, -, -, hfree, -, rfl⟩
    · exact h
    · obtain ⟨hrun, -⟩ := h.run.modelFree hfree
      obtain ⟨hle, hsum⟩ := modelFree_counts hfree
      refine ⟨hrun, by simpa using h.entries, ?_, ?_⟩
      · simpa using hle.trans h.tensors
      · simp only [length_modify]
        omega
  | alloc | free | ref | unref | modelFree => exact hc.elim

theorem Reach.bounded {l : Layout} (h : Reach l (fun _ c => ModelCall c) s) : Bounded s := by
  induction h with
  | @init mm₀ mm hb hcall =>
    obtain ⟨-, -, hlive, -, hnext⟩ := tensorMmInit_inv hb hcall
    have hcount : mm.tensorCount = 0 := by simpa [live] using hlive
    refine ⟨(TensorMm.Reach.init hb hcall).invariant, Nat.zero_le _, hcount.le, ?_⟩
    simp only [length_nil]
    omega
  | step _ hc hstep ih => exact ih.step hc hstep

theorem Bounded.modelAlloc (h : Bounded s) (hroom : ModelRoom s.mm) :
    ∃ mm' t, modelAlloc (MB 64) s.mm = .done ((.ok, some t), mm') ∧
      Allocated (managed s.mm.poolBase memoryPools) s.mm .model mm' t := by
  have hentries := h.entries
  have hdesc := h.descriptors
  simp only [MAX_MODELS_REGISTRY] at hentries
  refine h.run.modelAlloc_of_room hroom ?_ ?_
  · simp only [MAX_TENSORS]
    omega
  · simp only [MAX_BLOCKS]
    omega

/-- With the registry full, all models are loaded unless one of them was unloaded. -/
theorem loadedCount_eq_iff (hlen : r.models.length = MAX_MODELS_REGISTRY) :
    r.loadedCount = MAX_MODELS_REGISTRY ↔ ¬ ∃ m ∈ r.models, m.loaded = false := by
  rw [Registry.loadedCount, ← hlen, countP_eq_length]
  simp

/-! ## Refusals -/

/-- In every state of every run of loads and unloads, a load returns, and that it reports
`AIOS_ERR_NOMEM` only with all models loaded or no room left holds exactly unless it would have to
use an entry again. -/
theorem nomem_justified_iff {l : Layout} (h : Reach l (fun _ c => ModelCall c) s)
    (hreq : ModelCall (.load u req)) :
    ∃ st out, sysModelLoad fuel u req s.mm s.registry = .done (st, out) ∧
      ((st = .errNomem → s.registry.loadedCount = MAX_MODELS_REGISTRY ∨ ¬ ModelRoom s.mm) ↔
        ¬ (AwaitsReuse s.registry ∧ ModelRoom s.mm)) := by
  have hb := h.bounded
  rcases load_cases hb.run hreq with
    ⟨hfull, hend⟩ | ⟨hlt, st, -, halloc, hend⟩ | ⟨hlt, t, mm', path, -, hend⟩
  · have hcount := loadedCount_eq_iff (hb.entries.antisymm hfull)
    refine ⟨_, _, hend, ?_⟩
    simp only [forall_const, hcount, AwaitsReuse, hfull, true_and, not_and_or]
  · refine ⟨_, _, hend, fun _ => fun ⟨hawait, _⟩ => absurd hawait.1 hlt.not_ge, ?_⟩
    intro _ _
    refine .inr fun hroom => ?_
    obtain ⟨mm', t, hok, -⟩ := hb.modelAlloc hroom
    cases halloc.symm.trans hok
  · refine ⟨_, _, hend, fun _ => fun ⟨hawait, _⟩ => absurd hawait.1 hlt.not_ge, ?_⟩
    intro _ hst
    cases hst

end

/-! ## Loading and unloading one model again and again -/

/-- After `k` rounds nothing is loaded, the region is empty, and `k` entries are taken. -/
structure Idle (k : Nat) (s : Sys) : Prop where
  reach : Reach imageLayout (fun _ c => ModelCall c) s
  empty : live s.mm = []
  entries : s.registry.models.length = k
  nextId : s.registry.nextModelId = k + 1
  ids : ∀ m ∈ s.registry.models, m.id ≤ k
  unloaded : ∀ m ∈ s.registry.models, m.loaded = false

section

variable {s : Sys} {mm mm' : MmState} {r : Registry} {fuel id i k : Nat} {m : ModelInfo}
  {t : TensorAlloc}

theorem modelFree_single (hrun : RunInv mm) (hlive : live mm = [t]) (hregion : t.region = .model)
    (href : t.refCount = 1) (hnext : mm.arena.blockPoolNext < MAX_BLOCKS) :
    ∃ mm', modelFree 2 mm = .done (.ok, mm') ∧ live mm' = [] := by
  obtain ⟨F, hinv⟩ := hrun.inv
  have hcount : mm.tensorCount = 1 := by
    have hlen := congrArg List.length hlive
    simpa [live] using hlen
  have hfirst : mm.tensorTable 0 = t := by simpa [live, hcount] using hlive
  rcases hinv.free_live hrun.managed_lt (hlive ▸ mem_singleton_self t) href.le with
    ⟨-, hfull⟩ | ⟨mm', F', hfree, -, hperm, -⟩
  · omega
  · rw [hlive] at hperm
    have hlive' : live mm' = [] := perm_nil.mp hperm.cons_inv.symm
    have hcount' : mm'.tensorCount = 0 := by simpa [live] using hlive'
    refine ⟨mm', ?_, hlive'⟩
    simp [modelFree, modelFreeFrom, hcount, hfirst, hregion, hfree, hcount']

theorem sysModelUnload_eq (hfind : findModelLocked r id = some i) (hm : r.models[i]? = some m)
    (hloaded : m.loaded = true) (hfree : modelFree fuel mm = .done (.ok, mm')) :
    sysModelUnload fuel id mm r =
      .done (.ok, mm', { r with models := r.models.modify i ModelInfo.unloaded }) := by
  simp [sysModelUnload, hfind, getD_eq_getElem?_getD, hm, hloaded, hfree]

theorem findModelLocked_snoc (hids : ∀ n ∈ r.models, n.id ≠ m.id) (next : Nat) :
    findModelLocked ⟨r.models ++ [m], next⟩ m.id = some r.models.length := by
  have hnone : r.models.findIdx? (fun n => n.id == m.id) = none := by
    simpa [findIdx?_eq_none_iff] using hids
  simp [findModelLocked, findIdx?_append, hnone]

/-- One more round: the load finds the region empty, the unload leaves it so. -/
theorem Idle.round (h : Idle k s) (hk : k < MAX_MODELS_REGISTRY) : ∃ s', Idle (k + 1) s' := by
  have hload : ModelCall (.load allAccessible loadWeights) := ⟨rfl, by decide, rfl⟩
  have hb := h.reach.bounded
  obtain ⟨mm₁, t, hok, halloc⟩ := hb.modelAlloc (hasRoom_of_empty h.empty)
  rcases @load_cases s.mm s.registry 0 _ _ hb.run hload with
    ⟨hfull, -⟩ | ⟨-, st, -, hfail, -⟩ | ⟨-, t', mm', path, hsame, hend⟩
  · have hentries := h.entries
    omega
  · cases hfail.symm.trans hok
  cases hsame.symm.trans hok
  generalize hnew : loadWeights.entry path s.registry.nextModelId t = m at hend
  have hid : m.id = k + 1 := hnew ▸ h.nextId
  have hreach₁ := h.reach.step hload (.load hend)
  have hb₁ := hreach₁.bounded
  have hlive₁ : live mm₁ = [t] := by simp [halloc.live_eq, h.empty]
  have hnext₁ : mm₁.arena.blockPoolNext < MAX_BLOCKS := by
    have hdesc := hb₁.descriptors
    have hentries := hb₁.entries
    simp only [MAX_MODELS_REGISTRY, MAX_BLOCKS] at *
    omega
  obtain ⟨mm₂, hfree, hlive₂⟩ := modelFree_single hb₁.run hlive₁ halloc.region halloc.refCount hnext₁
  -- the new model is found under its id and marked
  have hids : ∀ n ∈ s.registry.models, n.id ≠ m.id := by
    intro n hn heq
    have hle := h.ids n hn
    omega
  have hunload := sysModelUnload_eq (findModelLocked_snoc hids (u32 (s.registry.nextModelId + 1)))
    getElem?_concat_length (hnew ▸ rfl) hfree
  have hmodels : (s.registry.models ++ [m]).modify s.registry.models.length ModelInfo.unloaded =
      s.registry.models ++ [m.unloaded] := modify_split _
  simp only [hmodels] at hunload
  refine ⟨_, hreach₁.step (c := .unload m.id) trivial (.unload hunload), hlive₂, ?_, ?_, ?_, ?_⟩
  · simp [h.entries]
  · simp only [h.nextId]
    exact u32_eq (by simp only [MAX_MODELS_REGISTRY] at hk; omega)
  · refine forall_mem_append.mpr ⟨fun n hn => ?_, forall_mem_singleton.mpr hid.le⟩
    exact Nat.le_succ_of_le (h.ids n hn)
  · exact forall_mem_append.mpr ⟨h.unloaded, forall_mem_singleton.mpr rfl⟩

/-- The registry fills up although never more than one model is loaded. -/
theorem exists_idle : ∀ {k : Nat}, k ≤ MAX_MODELS_REGISTRY → ∃ s, Idle k s := by
  intro k
  induction k with
  | zero =>
    intro _
    obtain ⟨mm, hinit⟩ := exists_init
    obtain ⟨-, -, hlive, -⟩ := tensorMmInit_inv boot_bootState hinit
    exact ⟨⟨mm, ⟨[], 1⟩, []⟩, .init boot_bootState hinit, hlive, rfl, rfl, by simp, by simp⟩
  | succ k ih =>
    intro hk
    obtain ⟨s, hs⟩ := ih (Nat.le_of_succ_le hk)
    exact hs.round hk

/-- The next load after a model was loaded and unloaded. -/
theorem nomem_justified_round : ∃ s, Reach imageLayout (fun _ c => ModelCall c) s ∧
    s.registry.models.length = 1 ∧ (∀ m ∈ s.registry.models, m.loaded = false) ∧
    ∃ st out, sysModelLoad 0 allAccessible loadWeights s.mm s.registry = .done (st, out) ∧
      ((st = .errNomem → s.registry.loadedCount = MAX_MODELS_REGISTRY ∨ ¬ ModelRoom s.mm) ↔
        ¬ (AwaitsReuse s.registry ∧ ModelRoom s.mm)) := by
  obtain ⟨s, hs⟩ := exists_idle (k := 1) (by decide)
  exact ⟨s, hs.reach, hs.entries, hs.unloaded, nomem_justified_iff hs.reach ⟨rfl, by decide, rfl⟩⟩

/-- One model has been loaded and unloaded 64 times: nothing is loaded and the region is empty, but
the next load is refused for want of memory. -/
theorem load_refused_when_idle : ∃ s, Reach imageLayout (fun _ c => ModelCall c) s ∧
    s.registry.loadedCount = 0 ∧ live s.mm = [] ∧ ModelRoom s.mm ∧
    ModelCall (.load allAccessible loadWeights) ∧
    sysModelLoad 0 allAccessible loadWeights s.mm s.registry =
      .done (.errNomem, none, s.mm, s.registry) := by
  obtain ⟨s, hs⟩ := exists_idle (le_refl MAX_MODELS_REGISTRY)
  have hload : ModelCall (.load allAccessible loadWeights) := ⟨rfl, by decide, rfl⟩
  have hcount : s.registry.loadedCount = 0 := by
    rw [Registry.loadedCount, countP_eq_zero]
    intro m hm
    simp [hs.unloaded m hm]
  have hfull : MAX_MODELS_REGISTRY ≤ s.registry.models.length := hs.entries.symm.le
  refine ⟨s, hs.reach, hcount, hs.empty, hasRoom_of_empty hs.empty, hload, ?_⟩
  simp [sysModelLoad, allAccessible, loadWeights, hfull]

end

end AiosKernel.Syscall
