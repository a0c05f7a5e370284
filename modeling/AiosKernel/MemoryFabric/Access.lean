/-
# `AiosKernel.MemoryFabric.Access` — who may attach a window, and how many a domain counts

Whatever the tensor manager does in between, a call of the fabric changes the
tables in one locked section, so a run of the fabric is a sequence of sections
(`run`).  What the sections do to the tables is said once, in terms of the grants
of the active windows (`Change`); both results are read off it.

**Access.**  A window id is used once, so the reused slots are a map from ids to
the request of the one share that returned the id, and an attach succeeds exactly
when that request gives the access.

**Accounting.**  `attached_windows` is counted up by a share and down by a
release, for every domain that the masks name *and that is open by then*.  A domain
opened later starts at zero although windows may name it already: the count is
the number of windows that name the domain exactly in the runs that open a domain
only while no active window names it.
-/
import AiosKernel.MemoryFabric.Windows

namespace AiosKernel.MemoryFabric

open TensorMm (TensorAlloc tensorMmInit imageLayout bootState tensorAllocAlignedProfiled lineRequest)
open Word Slots Outcome List

/-! ## Masks as sets of domains -/

/-- The domains that a mask names. -/
def members (mask : BitVec 32) : Set Nat := {d | 0 < d ∧ d ≤ 32 ∧ mask.getLsbD (d - 1) = true}

variable {s s' : State} {d : Nat} {q : ShareRequest}

theorem domainBit_eq (hpos : 0 < d) (hle : d ≤ 32) : domainBit d = BitVec.twoPow 32 (d - 1) := by
  rw [domainBit, if_neg (by simp; omega)]
  apply BitVec.eq_of_toNat_eq
  simp [BitVec.toNat_twoPow, Nat.one_shiftLeft]

theorem domainBit_eq_zero (hd : d = 0 ∨ 32 < d) : domainBit d = 0 :=
  if_pos (by simpa using hd)

theorem mem_members {mask : BitVec 32} : d ∈ members mask ↔ mask &&& domainBit d ≠ 0 := by
  by_cases hd : d = 0 ∨ 32 < d
  · rw [domainBit_eq_zero hd, BitVec.ofNat_eq_ofNat, BitVec.and_zero]
    refine iff_of_false (fun hmem => ?_) (fun hne => hne rfl)
    obtain ⟨hpos, hle, -⟩ := hmem
    omega
  · rw [domainBit_eq (by omega) (by omega), BitVec.and_twoPow]
    have hbit : BitVec.twoPow 32 (d - 1) ≠ 0 := by
      intro hzero
      have hget := congrArg (fun v : BitVec 32 => v.getLsbD (d - 1)) hzero
      simp at hget
      omega
    cases hget : mask.getLsbD (d - 1) with
    | true => exact iff_of_true ⟨by omega, by omega, hget⟩ hbit
    | false =>
      refine iff_of_false (fun hmem => ?_) (fun hne => hne rfl)
      exact Bool.false_ne_true (hget.symm.trans hmem.2.2)

theorem members_or (a b : BitVec 32) : members (a ||| b) = members a ∪ members b := by
  ext d
  constructor
  · rintro ⟨hpos, hle, hget⟩
    rw [BitVec.getLsbD_or, Bool.or_eq_true] at hget
    exact hget.imp (fun h => ⟨hpos, hle, h⟩) fun h => ⟨hpos, hle, h⟩
  · rintro (⟨hpos, hle, hget⟩ | ⟨hpos, hle, hget⟩)
    · exact ⟨hpos, hle, by simp [hget]⟩
    · exact ⟨hpos, hle, by simp [hget]⟩

theorem members_domainBit (hpos : 0 < d) (hle : d ≤ 32) : members (domainBit d) = {d} := by
  ext e
  rw [domainBit_eq hpos hle]
  constructor
  · rintro ⟨hpos', hle', hget⟩
    simp only [BitVec.getLsbD_twoPow, Bool.and_eq_true, decide_eq_true_eq] at hget
    exact Set.mem_singleton_iff.mpr (by omega)
  · rintro rfl
    exact ⟨hpos, hle, by simp [BitVec.getLsbD_twoPow]; omega⟩

/-- Who may read, by the request: the requested readers, the writers and the owner. -/
def ShareRequest.readers (q : ShareRequest) : Set Nat :=
  members q.readerMask ∪ members q.writerMask ∪ {q.ownerDomainId}

/-- Who may write: the requested writers and the owner. -/
def ShareRequest.writers (q : ShareRequest) : Set Nat :=
  members q.writerMask ∪ {q.ownerDomainId}

/-! ## Runs of locked sections -/

/-- A locked section of the fabric; `tensor` is what `tensor_info` returned to the share. -/
inductive Section where
  | openDomain (now : Nat)
  | share (q : ShareRequest) (tensor : TensorAlloc) (now : Nat)
  | attach (windowId domainId : Nat) (writeAccess : Bool) (now : Nat)
  | release (windowId : Nat)

/-- What a run is remembered by. -/
inductive Event where
  | shared (windowId : Nat) (q : ShareRequest)
  | released (windowId : Nat)
  deriving DecidableEq, Repr

def Section.exec : Section → State → List Event × State
  | .openDomain now, s => ([], (domainOpen now s).2)
  | .share q tensor now, s =>
    match shareLocked q tensor now s with
    | ((.ok, some windowId), s) => ([.shared windowId q], s)
    | (_, s) => ([], s)
  | .attach windowId domainId writeAccess now, s =>
    ([], (attachLocked windowId domainId writeAccess now s).2)
  | .release windowId, s =>
    match releaseLocked windowId s with
    | (some _, s) => ([.released windowId], s)
    | (none, s) => ([], s)

/-- The events of a run, the latest first, and the state it reaches. -/
def run (s : State) (cs : List Section) : List Event × State :=
  cs.foldl (fun r c => ((c.exec r.2).1 ++ r.1, (c.exec r.2).2)) ([], s)

theorem run_snoc (cs : List Section) (c : Section) :
    run s (cs ++ [c]) = ((c.exec (run s cs).2).1 ++ (run s cs).1, (c.exec (run s cs).2).2) := by
  rw [run, foldl_append]
  rfl

/-! ## What a section does -/

/-- What an active window grants. -/
structure Grant where
  windowId : Nat
  readerMask : BitVec 32
  writerMask : BitVec 32
  deriving DecidableEq, Repr

def Window.grant (w : Window) : Grant := ⟨w.windowId, w.readerMask, w.writerMask⟩

def ShareRequest.grant (q : ShareRequest) (windowId : Nat) : Grant :=
  ⟨windowId, q.readerMask ||| domainBit q.ownerDomainId ||| q.writerMask,
    q.writerMask ||| domainBit q.ownerDomainId⟩

/-- The domains whose windows are counted for a grant. -/
def Grant.mask (g : Grant) : BitVec 32 := g.readerMask ||| g.writerMask

def State.grants (s : State) : List Grant :=
  (s.windows.filter (·.active)).map Window.grant

def State.IsOpen (s : State) (domainId : Nat) : Prop :=
  ∃ d ∈ s.domains, d.active = true ∧ d.domainId = domainId

/-- The domains of `s'` are those of `s`, counted anew by `f`; the times do not matter. -/
structure Recounted (f : Domain → Domain) (s s' : State) : Prop where
  length_eq : s'.domains.length = s.domains.length
  back : ∀ d' ∈ s'.domains, ∃ d ∈ s.domains, d'.domainId = d.domainId ∧ d'.active = d.active ∧
    d'.attachedWindows = (f d).attachedWindows

/-- Everything that a section can do to the tables. -/
inductive Change (s : State) : Section → List Event → State → Prop where
  | quiet {c : Section} {s' : State} : s'.grants = s.grants → s'.nextWindowId = s.nextWindowId →
      Recounted id s s' → Change s c [] s'
  | opened (now : Nat) : s.domains.length < MEMORY_FABRIC_MAX_DOMAINS →
      Change s (.openDomain now) []
        { s with domains := s.domains ++ [⟨s.domains.length + 1, true, 0, now⟩] }
  | shared {s' : State} {tensor : TensorAlloc} {now : Nat} (q : ShareRequest) :
      s.IsOpen q.ownerDomainId → s'.grants.Perm (q.grant s.nextWindowId :: s.grants) →
      s'.nextWindowId = u32 (s.nextWindowId + 1) →
      Recounted (fun d => d.account (q.grant s.nextWindowId).mask true) s s' →
      Change s (.share q tensor now) [.shared s.nextWindowId q] s'
  | released {s' : State} (g : Grant) : s.grants.Perm (g :: s'.grants) →
      s'.nextWindowId = s.nextWindowId → Recounted (fun d => d.account g.mask false) s s' →
      Change s (.release g.windowId) [.released g.windowId] s'

theorem Change.refl (s : State) (c : Section) : Change s c [] s :=
  .quiet rfl rfl ⟨rfl, fun d hd => ⟨d, hd, rfl, rfl, rfl⟩⟩

theorem Recounted.touch {f : Domain → Domain} (h : Recounted f s s') (i now : Nat) :
    Recounted f s (s'.touchDomain i now) := by
  refine ⟨(length_modify ..).trans h.length_eq, fun d' hd' => ?_⟩
  obtain ⟨j, hj⟩ := mem_iff_getElem?.mp hd'
  rw [State.touchDomain, getElem?_modify] at hj
  obtain ⟨d₁, hd₁, rfl⟩ := Option.map_eq_some_iff.mp hj
  obtain ⟨d, hd, hid, hactive, hcount⟩ := h.back d₁ (mem_of_getElem? hd₁)
  refine ⟨d, hd, ?_⟩
  split <;> exact ⟨hid, hactive, hcount⟩

theorem Recounted.of_map (mask : BitVec 32) (attach : Bool)
    (h : s'.domains = s.domains.map fun d => d.account mask attach) :
    Recounted (fun d => d.account mask attach) s s' := by
  refine ⟨by rw [h, length_map], fun d' hd' => ?_⟩
  rw [h] at hd'
  obtain ⟨d, hd, rfl⟩ := mem_map.mp hd'
  refine ⟨d, hd, ?_⟩
  unfold Domain.account
  split
  · exact ⟨rfl, rfl, rfl⟩
  · split <;> exact ⟨rfl, rfl, rfl⟩

theorem findDomainLocked_isSome {domainId i : Nat} (h : findDomainLocked s domainId = some i) :
    s.IsOpen domainId := by
  obtain ⟨as, d, bs, hl, -, hd, -⟩ := findIdx?_split h
  obtain ⟨hactive, hid⟩ := Bool.and_eq_true_iff.mp hd
  exact ⟨d, by simp [hl], hactive, beq_iff_eq.mp hid⟩

variable {now n : Nat} {out : Option Nat} {g : Grant} {mm mm' : TensorMm.MmState} {st : AiosStatus}

theorem shareLocked_out {tensor : TensorAlloc}
    (hcall : shareLocked q tensor now s = ((.ok, out), s')) : ∃ windowId, out = some windowId := by
  simp only [shareLocked] at hcall
  split at hcall
  · cases hcall
  split at hcall
  · cases hcall
  · cases hcall
    exact ⟨_, rfl⟩

theorem shareLocked_change (tensor : TensorAlloc) :
    Change s (.share q tensor now) ((Section.share q tensor now).exec s).1
      ((Section.share q tensor now).exec s).2 := by
  simp only [Section.exec]
  cases hcall : shareLocked q tensor now s with
  | mk res s' =>
  obtain ⟨st, out⟩ := res
  by_cases hst : st = .ok
  · subst hst
    simp only [shareLocked] at hcall
    split at hcall
    · cases hcall
    rename_i owner howner
    split at hcall
    · cases hcall
    rename_i slot s₁ hslot
    obtain ⟨as, x, bs, rfl, rfl, hx, hwindows⟩ := allocWindowSlotLocked_split hslot
    obtain ⟨hres, rfl⟩ := Prod.mk.inj hcall
    obtain rfl := (Prod.mk.inj hres).2
    have hgrants : s.grants = ((as ++ bs).filter (·.active)).map Window.grant := by
      rcases hwindows with hl | ⟨hl, rfl, -⟩
      · simp [State.grants, hl, hx]
      · simp [State.grants, hl]
    refine .shared q (findDomainLocked_isSome howner) ?_ rfl ?_
    · rw [hgrants]
      simp only [State.grants, State.touchDomain, updateWindowAccountingLocked, set_split,
        filter_append, map_append]
      exact perm_middle
    · exact (Recounted.of_map _ true rfl).touch owner now
  · obtain rfl := shareLocked_refused hcall hst
    cases st <;> first | exact absurd rfl hst | exact .refl _ _

theorem attachLocked_change (windowId domainId : Nat) (writeAccess : Bool) :
    Change s (.attach windowId domainId writeAccess now) []
      (attachLocked windowId domainId writeAccess now s).2 := by
  simp only [attachLocked]
  split
  · exact .refl s _
  split
  · rename_i i d hfind hdomain
    split
    · exact .refl s _
    split
    · exact .refl s _
    obtain ⟨as, x, bs, hl, rfl, hx, -⟩ := findIdx?_split hfind
    have hactive : x.active = true := (Bool.and_eq_true_iff.mp hx).1
    have hsame : ∀ windows, Recounted id s { s with windows := windows } :=
      fun _ => ⟨rfl, fun d hd => ⟨d, hd, rfl, rfl, rfl⟩⟩
    refine .quiet ?_ rfl ((hsame _).touch d now)
    simp only [State.grants, State.touchDomain, hl, modify_split, filter_append,
      filter_cons, hactive, if_true, map_append, map_cons]
    rfl
  · exact .refl s _

theorem releaseLocked_change (windowId : Nat) :
    Change s (.release windowId) ((Section.release windowId).exec s).1
      ((Section.release windowId).exec s).2 := by
  simp only [Section.exec, releaseLocked]
  cases hfind : findWindowLocked s windowId with
  | none => exact .refl s _
  | some i =>
    obtain ⟨as, x, bs, hl, rfl, hx, -⟩ := findIdx?_split hfind
    obtain ⟨hactive, hid⟩ := Bool.and_eq_true_iff.mp hx
    obtain rfl : x.windowId = windowId := beq_iff_eq.mp hid
    have hwindow : s.windows.getD as.length Window.zero = x := by rw [hl, getD_split]
    refine .released x.grant ?_ rfl ?_
    · simp only [State.grants, updateWindowAccountingLocked, hl, modify_split, filter_append,
        filter_cons, hactive, if_true, map_append, map_cons, Bool.false_eq_true,
        if_false]
      exact perm_middle
    · refine Recounted.of_map _ false ?_
      simp only [updateWindowAccountingLocked, hwindow]
      rfl

theorem domainOpen_change : Change s (.openDomain now) [] (domainOpen now s).2 := by
  unfold domainOpen
  split
  · exact .refl s _
  · rename_i hroom
    exact .opened now (Nat.lt_of_not_le hroom)

/-- **Each section is one of the changes.** -/
theorem exec_change (c : Section) : Change s c (c.exec s).1 (c.exec s).2 := by
  cases c with
  | openDomain now => exact domainOpen_change
  | share q tensor now => exact shareLocked_change tensor
  | attach windowId domainId writeAccess now =>
    exact attachLocked_change windowId domainId writeAccess
  | release windowId => exact releaseLocked_change windowId

theorem memoryFabricInit_induct {P : State → Prop} (hempty : P ⟨[], [], 1⟩)
    (hopen : ∀ now s, P s → P (domainOpen now s).2) (slots : Nat) (clock : Nat → Nat) :
    P (memoryFabricInit slots clock) := by
  have hloop : ∀ (l : List Nat) (s : State), P s →
      P (l.foldl (fun s i => (domainOpen (clock (3 + i)) s).2) s) := by
    intro l
    induction l with
    | nil => exact fun s hs => hs
    | cons i l ih => exact fun s hs => ih _ (hopen _ s hs)
  exact hloop _ _ (hopen _ _ (hopen _ _ (hopen _ _ hempty)))

/-! ## The tables fit -/

/-- Domains are open, have the ids from 1 on, and the tables are not over-full. -/
structure Seated (s : State) : Prop where
  active : ∀ d ∈ s.domains, d.active = true
  ids : ∀ d ∈ s.domains, 0 < d.domainId ∧ d.domainId ≤ s.domains.length
  domains_le : s.domains.length ≤ MEMORY_FABRIC_MAX_DOMAINS
  windows_le : s.windows.length ≤ MEMORY_FABRIC_MAX_WINDOWS

section

variable {s s' : State}

theorem Recounted.seated {f : Domain → Domain} (hr : Recounted f s s') (h : Seated s)
    (hwindows : s'.windows.length ≤ MEMORY_FABRIC_MAX_WINDOWS) : Seated s' := by
  refine ⟨fun d' hd' => ?_, fun d' hd' => ?_, hr.length_eq ▸ h.domains_le, hwindows⟩
  · obtain ⟨d, hd, -, hactive, -⟩ := hr.back d' hd'
    exact hactive.trans (h.active d hd)
  · obtain ⟨d, hd, hid, -, -⟩ := hr.back d' hd'
    rw [hid, hr.length_eq]
    exact h.ids d hd

theorem Seated.change {c : Section} {es : List Event} (h : Seated s) (hc : Change s c es s')
    (hwindows : s'.windows.length ≤ MEMORY_FABRIC_MAX_WINDOWS) : Seated s' := by
  cases hc with
  | quiet _ _ hr | shared _ _ _ _ hr | released _ _ _ hr => exact hr.seated h hwindows
  | opened now hroom =>
    have hlen : ∀ d : Domain, (s.domains ++ [d]).length = s.domains.length + 1 := by simp
    refine ⟨forall_mem_append.mpr ⟨h.active, forall_mem_singleton.mpr rfl⟩, ?_,
      (hlen _).trans_le hroom, hwindows⟩
    rw [hlen]
    refine forall_mem_append.mpr ⟨fun d hd => ?_, forall_mem_singleton.mpr ?_⟩
    · exact ⟨(h.ids d hd).1, Nat.le_succ_of_le (h.ids d hd).2⟩
    · exact ⟨Nat.succ_pos _, le_rfl⟩

theorem exec_windows_length (c : Section) (h : s.windows.length ≤ MEMORY_FABRIC_MAX_WINDOWS) :
    (c.exec s).2.windows.length ≤ MEMORY_FABRIC_MAX_WINDOWS := by
  cases c with
  | openDomain now =>
    simp only [Section.exec, domainOpen]
    split <;> exact h
  | share q tensor now =>
    have hlen := shareLocked_length (Prod.eta (shareLocked q tensor now s)).symm h
    simp only [Section.exec]
    split
    all_goals
      rename_i hcall
      rwa [hcall] at hlen
  | attach windowId domainId writeAccess now =>
    exact (attachLocked_length windowId domainId writeAccess now s).trans_le h
  | release windowId =>
    have hlen := releaseLocked_length (Prod.eta (releaseLocked windowId s)).symm
    simp only [Section.exec]
    split
    all_goals
      rename_i hcall
      rw [hcall] at hlen
      exact hlen.trans_le h

theorem Seated.exec (h : Seated s) (c : Section) : Seated (c.exec s).2 :=
  h.change (exec_change c) (exec_windows_length c h.windows_le)

theorem Seated.run (h : Seated s) (cs : List Section) : Seated (run s cs).2 := by
  induction cs using List.reverseRecOn with
  | nil => exact h
  | append_singleton cs c ih =>
    rw [run_snoc]
    exact ih.exec c

end

/-! ## Accounting -/

/-- The window is active and its reader or writer mask contains the domain's bit. -/
def Window.names (domainId : Nat) (w : Window) : Bool :=
  w.active && (w.readerMask &&& domainBit domainId != 0 || w.writerMask &&& domainBit domainId != 0)

def State.naming (s : State) (domainId : Nat) : Nat := s.windows.countP (Window.names domainId)

/-- Every open domain counts the windows that name it. -/
def Accounted (s : State) : Prop :=
  ∀ d ∈ s.domains, d.active = true → d.attachedWindows = s.naming d.domainId

instance (s : State) : Decidable (Accounted s) :=
  inferInstanceAs (Decidable (∀ d ∈ s.domains, d.active = true → _))

/-- No window names the domain that would be opened next. -/
def Unnamed (s : State) : Prop :=
  s.domains.length < MEMORY_FABRIC_MAX_DOMAINS → s.naming (s.domains.length + 1) = 0

def Grant.names (domainId : Nat) (g : Grant) : Bool := g.mask &&& domainBit domainId != 0

theorem naming_eq (domainId : Nat) :
    s.naming domainId = s.grants.countP (Grant.names domainId) := by
  rw [State.naming, State.grants, countP_map, countP_filter]
  refine countP_congr fun w _ => ?_
  have hmask : (w.readerMask ||| w.writerMask) &&& domainBit domainId ≠ 0 ↔
      w.readerMask &&& domainBit domainId ≠ 0 ∨ w.writerMask &&& domainBit domainId ≠ 0 := by
    rw [← mem_members, ← mem_members, ← mem_members, members_or, Set.mem_union]
  simp only [Window.names, Function.comp_apply, Grant.names, Grant.mask, Window.grant,
    Bool.and_eq_true, Bool.or_eq_true, bne_iff_ne, hmask]
  exact and_comm

theorem account_attach {d : Domain} (hn : n ≤ MEMORY_FABRIC_MAX_WINDOWS)
    (hd : d.attachedWindows = n) :
    (d.account g.mask true).attachedWindows = n + if g.names d.domainId then 1 else 0 := by
  have hclamp : clampU16Value (n + 1) 0 0xFFFF = n + 1 := by
    have hmax : MEMORY_FABRIC_MAX_WINDOWS = 64 := rfl
    rw [clampU16Value, if_neg (Nat.not_lt_zero _), if_neg (by omega)]
  unfold Domain.account Grant.names
  by_cases hbit : g.mask &&& domainBit d.domainId = 0
  · rw [if_pos hbit, if_neg (by simpa using hbit), hd, Nat.add_zero]
  · rw [if_neg hbit, if_pos rfl, if_pos (bne_iff_ne.mpr hbit), ← hclamp, ← hd]

theorem account_release {d : Domain}
    (hd : d.attachedWindows = n + if g.names d.domainId then 1 else 0) :
    (d.account g.mask false).attachedWindows = n := by
  unfold Domain.account
  by_cases hbit : g.mask &&& domainBit d.domainId = 0
  · rw [if_pos hbit, hd, Grant.names, if_neg (by simpa using hbit), Nat.add_zero]
  · rw [if_neg hbit, if_neg (by decide)]
    rw [hd, Grant.names, if_pos (by simpa using hbit), Nat.add_sub_cancel]

section

variable {s s' : State}

theorem Accounted.recounted {f : Domain → Domain} (h : Accounted s) (hr : Recounted f s s')
    (hf : ∀ d ∈ s.domains, d.attachedWindows = s.naming d.domainId →
      (f d).attachedWindows = s'.naming d.domainId) : Accounted s' := by
  intro d' hd' ha
  obtain ⟨d, hd, hid, hactive, hcount⟩ := hr.back d' hd'
  rw [hcount, hid]
  exact hf d hd (h d hd (hactive ▸ ha))

theorem Accounted.change {c : Section} {es : List Event} (h : Accounted s) (hs : Seated s)
    (hc : Change s c es s') (hopen : ∀ now, c = .openDomain now → Unnamed s) : Accounted s' := by
  cases hc with
  | quiet hgrants _ hr =>
    refine h.recounted hr fun d _ hd => ?_
    rw [naming_eq, hgrants, ← naming_eq]
    exact hd
  | shared q _ hgrants _ hr =>
    refine h.recounted hr fun d _ hd => ?_
    have hle : s.naming d.domainId ≤ _ := countP_le_length.trans hs.windows_le
    rw [account_attach hle hd, naming_eq, naming_eq, hgrants.countP_eq, countP_cons]
  | released g hgrants _ hr =>
    refine h.recounted hr fun d _ hd => account_release ?_
    rw [hd, naming_eq, naming_eq, hgrants.countP_eq, countP_cons]
  | opened now hroom =>
    -- the new domain counts nothing, and no window names it yet
    exact forall_mem_append.mpr ⟨h, forall_mem_singleton.mpr fun _ => (hopen now rfl hroom).symm⟩

/-- What `memory_fabric_init` leaves. -/
structure Fresh (s : State) : Prop where
  seated : Seated s
  accounted : Accounted s
  windows_eq : s.windows = []
  next_eq : s.nextWindowId = 1

theorem Fresh.domainOpen (h : Fresh s) (now : Nat) : Fresh (domainOpen now s).2 := by
  refine ⟨h.seated.exec (.openDomain now), ?_, ?_, ?_⟩
  · refine h.accounted.change h.seated domainOpen_change fun _ _ _ => ?_
    rw [State.naming, h.windows_eq, countP_nil]
  · rw [MemoryFabric.domainOpen]
    split <;> exact h.windows_eq
  · rw [MemoryFabric.domainOpen]
    split <;> exact h.next_eq

theorem fresh_init (slots : Nat) (clock : Nat → Nat) : Fresh (memoryFabricInit slots clock) := by
  have hempty : Fresh ⟨[], [], 1⟩ :=
    ⟨⟨by simp, by simp, by decide, by decide⟩, by simp [Accounted], rfl, rfl⟩
  exact memoryFabricInit_induct hempty (fun now _ hs => hs.domainOpen now) slots clock

theorem unnamed_of_accounted (h : Accounted (domainOpen now s).2) : Unnamed s := by
  intro hroom
  rw [domainOpen, if_neg hroom.not_ge] at h
  exact (h ⟨s.domains.length + 1, true, 0, now⟩ (by simp) rfl).symm

end

/-- **The counts of a run are exact in every state exactly if no domain is opened that a window
names already.** -/
theorem accounted_iff (slots : Nat) (clock : Nat → Nat) (cs : List Section) :
    (∀ pre, pre <+: cs → Accounted (run (memoryFabricInit slots clock) pre).2) ↔
      ∀ pre now, pre ++ [.openDomain now] <+: cs →
        Unnamed (run (memoryFabricInit slots clock) pre).2 := by
  constructor
  · intro h pre now hpre
    have hafter := h _ hpre
    rw [run_snoc] at hafter
    exact unnamed_of_accounted hafter
  · intro h pre hpre
    have hseated := (fresh_init slots clock).seated.run
    induction pre using List.reverseRecOn with
    | nil => exact (fresh_init slots clock).accounted
    | append_singleton pre c ih =>
      rw [run_snoc]
      refine (ih ((prefix_append pre [c]).trans hpre)).change (hseated pre)
        (exec_change c) fun now hc => ?_
      exact h pre now (hc ▸ hpre)

/-! ## Whole calls -/

/-- A whole `window_share` is at most one section; the id it returns is that of the event. -/
theorem windowShare_run (hcall : windowShare q now mm s = .done ((st, out), mm', s')) :
    ∃ cs, run s cs = ((out.map fun windowId => Event.shared windowId q).toList, s') := by
  unfold windowShare at hcall
  iterate 2
    split at hcall
    · cases hcall
      exact ⟨[], rfl⟩
  rename_i tensor hinfo
  split at hcall
  · split at hcall
    · rename_i out' s₁ hlocked
      cases hcall
      obtain ⟨windowId, rfl⟩ := shareLocked_out hlocked
      refine ⟨[.share q tensor now], ?_⟩
      simp [run, Section.exec, hlocked]
    · rename_i st' out' s₁ hst hlocked
      obtain ⟨⟨st'', mm₂⟩, hunref, hrest⟩ := bind_eq_done.mp hcall
      cases hrest
      exact ⟨[], by rw [shareLocked_refused hlocked hst]; rfl⟩
  · cases hcall
    exact ⟨[], rfl⟩

theorem windowRelease_run {windowId : Nat}
    (hcall : windowRelease windowId mm s = .done (st, mm', s')) :
    (run s [.release windowId]).2 = s' := by
  unfold windowRelease at hcall
  split at hcall
  · rename_i s₁ hlocked
    cases hcall
    simp [run, Section.exec, hlocked]
  · rename_i tensorId s₁ hlocked
    obtain ⟨⟨st', mm₁⟩, hunref, hrest⟩ := bind_eq_done.mp hcall
    cases hrest
    simp [run, Section.exec, hlocked]

/-- A share by the first domain that lets the fifth read, which is not open yet. -/
def shareAhead : ShareRequest := ⟨1, 1, 0x10, 0, .sharedRo⟩

/-- Whether a tensor can be shared ahead and the fifth domain opened then, its count at 0. -/
def sharedAhead : Outcome Bool := do
  let (st₀, mm) ← tensorMmInit imageLayout bootState
  let ((st₁, out), mm₁) ← tensorAllocAlignedProfiled true lineRequest mm
  let ((st₂, wid), _, fabric) ← windowShare shareAhead 0 mm₁ (memoryFabricInit 4 fun _ => 0)
  Outcome.done (decide (st₀ = .ok ∧ st₁ = .ok ∧ out.map TensorAlloc.id = some 1 ∧ st₂ = .ok ∧
    wid = some 1 ∧ (domainOpen 0 fabric).1 = (.ok, some 5) ∧ ¬ Accounted (domainOpen 0 fabric).2))

/-- A domain that a window names before it is opened does not count the window. -/
theorem later_domain_uncounted : ∃ mm t mm₁ mm₂ fabric,
    tensorMmInit imageLayout bootState = .done (.ok, mm) ∧
    tensorAllocAlignedProfiled true lineRequest mm = .done ((.ok, some t), mm₁) ∧ t.id = 1 ∧
    windowShare shareAhead 0 mm₁ (memoryFabricInit 4 fun _ => 0) =
      .done ((.ok, some 1), mm₂, fabric) ∧
    (domainOpen 0 fabric).1 = (.ok, some 5) ∧
    (∃ cs, (run (memoryFabricInit 4 fun _ => 0) cs).2 = (domainOpen 0 fabric).2) ∧
    ¬ Accounted (domainOpen 0 fabric).2 := by
  have hret : sharedAhead = .done true := by decide +kernel
  obtain ⟨⟨st₀, mm⟩, h₀, hret⟩ := bind_eq_done.mp hret
  obtain ⟨⟨⟨st₁, out⟩, mm₁⟩, h₁, hret⟩ := bind_eq_done.mp hret
  obtain ⟨⟨⟨st₂, wid⟩, mm₂, fabric⟩, h₂, hret⟩ := bind_eq_done.mp hret
  obtain ⟨rfl, rfl, hout, rfl, rfl, hopen, hcount⟩ := of_decide_eq_true (done.inj hret)
  obtain ⟨t, rfl, hid⟩ := Option.map_eq_some_iff.mp hout
  obtain ⟨cs, hcs⟩ := windowShare_run h₂
  refine ⟨mm, t, mm₁, mm₂, fabric, h₀, h₁, hid, h₂, hopen, ⟨cs ++ [.openDomain 0], ?_⟩, hcount⟩
  rw [run_snoc, hcs]
  rfl

/-! ## Access -/

def shares (h : List Event) : Nat := h.countP fun
  | .shared .. => true
  | .released _ => false

/-- The history explains the grants: ids are handed out in order, each once, and an active window
grants what its share asked for. -/
structure Explains (h : List Event) (s : State) : Prop where
  next_eq : s.nextWindowId = shares h + 1
  shared_id : ∀ {w q}, .shared w q ∈ h →
    0 < w ∧ w ≤ shares h ∧ 0 < q.ownerDomainId ∧ q.ownerDomainId ≤ 32
  released_id : ∀ {w}, .released w ∈ h → w ≤ shares h
  once : ∀ {w q q'}, .shared w q ∈ h → .shared w q' ∈ h → q = q'
  mem_grants : ∀ {g}, g ∈ s.grants ↔
    ∃ q, .shared g.windowId q ∈ h ∧ .released g.windowId ∉ h ∧ g = q.grant g.windowId
  nodup : (s.grants.map Grant.windowId).Nodup

section

variable {h : List Event} {s s' : State}

theorem shares_shared (w : Nat) : shares (.shared w q :: h) = shares h + 1 := countP_cons_of_pos rfl

theorem shares_released (w : Nat) : shares (.released w :: h) = shares h :=
  countP_cons_of_neg Bool.false_ne_true

theorem Explains.shared (hx : Explains h s) (hs : Seated s) (hopen : s.IsOpen q.ownerDomainId)
    (hgrants : s'.grants.Perm (q.grant s.nextWindowId :: s.grants))
    (hnext : s'.nextWindowId = u32 (s.nextWindowId + 1))
    (hfew : shares (.shared s.nextWindowId q :: h) < 2 ^ 32 - 1) :
    Explains (.shared s.nextWindowId q :: h) s' := by
  have hid := hx.next_eq
  rw [shares_shared] at hfew
  -- the id is above every id of the history
  have hfresh : ∀ q', .shared s.nextWindowId q' ∉ h := by
    intro q' hmem
    have hle := (hx.shared_id hmem).2.1
    omega
  have hunreleased : .released s.nextWindowId ∉ h := by
    intro hmem
    have hle := hx.released_id hmem
    omega
  refine ⟨?_, ?_, ?_, ?_, ?_, ?_⟩
  · rw [hnext, hid, shares_shared, u32_eq (by omega)]
  · intro w q' hmem
    rw [shares_shared]
    rcases mem_cons.mp hmem with heq | hmem
    · cases heq
      obtain ⟨d, hd, -, howner⟩ := hopen
      have hmax : MEMORY_FABRIC_MAX_DOMAINS = 16 := rfl
      have hids := hs.ids d hd
      have hdomains := hs.domains_le
      omega
    · have hold := hx.shared_id hmem
      omega
  · intro w hmem
    rw [shares_shared]
    rcases mem_cons.mp hmem with heq | hmem
    · cases heq
    · exact Nat.le_succ_of_le (hx.released_id hmem)
  · intro w q₁ q₂ h₁ h₂
    rcases mem_cons.mp h₁ with heq₁ | h₁ <;> rcases mem_cons.mp h₂ with heq₂ | h₂
    · cases heq₁; cases heq₂; rfl
    · cases heq₁; exact absurd h₂ (hfresh q₂)
    · cases heq₂; exact absurd h₁ (hfresh q₁)
    · exact hx.once h₁ h₂
  · intro g
    rw [hgrants.mem_iff, mem_cons, hx.mem_grants]
    constructor
    · rintro (rfl | ⟨q', hmem, hrel, hg⟩)
      · exact ⟨q, mem_cons_self, by simpa [ShareRequest.grant] using hunreleased, rfl⟩
      · exact ⟨q', mem_cons_of_mem _ hmem, by simpa using hrel, hg⟩
    · rintro ⟨q', hmem, hrel, hg⟩
      rcases mem_cons.mp hmem with heq | hmem
      · obtain ⟨hw, rfl⟩ : g.windowId = s.nextWindowId ∧ q' = q := by simpa using heq
        exact .inl (hw ▸ hg)
      · exact .inr ⟨q', hmem, fun hr => hrel (mem_cons_of_mem _ hr), hg⟩
  · rw [(hgrants.map _).nodup_iff, map_cons, nodup_cons]
    refine ⟨fun hmem => ?_, hx.nodup⟩
    obtain ⟨g, hg, hw⟩ := mem_map.mp hmem
    obtain ⟨q', hmem', -⟩ := hx.mem_grants.mp hg
    rw [show g.windowId = s.nextWindowId from hw] at hmem'
    exact hfresh q' hmem'

variable {g : Grant}

theorem Explains.released (hx : Explains h s) (hgrants : s.grants.Perm (g :: s'.grants))
    (hnext : s'.nextWindowId = s.nextWindowId) : Explains (.released g.windowId :: h) s' := by
  have hnodup := hx.nodup
  rw [(hgrants.map _).nodup_iff, map_cons, nodup_cons] at hnodup
  obtain ⟨hnot, hrest⟩ := hnodup
  have hshared : ∀ {w q}, .shared w q ∈ Event.released g.windowId :: h → .shared w q ∈ h := by
    intro w q hmem
    simpa using hmem
  refine ⟨?_, fun hmem => ?_, fun {w} hmem => ?_, fun h₁ h₂ => hx.once (hshared h₁) (hshared h₂),
    fun {g'} => ?_, hrest⟩
  · rw [hnext, shares_released, hx.next_eq]
  · exact hx.shared_id (hshared hmem)
  · rcases mem_cons.mp hmem with heq | hmem
    · cases heq
      obtain ⟨q, hq, -⟩ := hx.mem_grants.mp (hgrants.mem_iff.mpr mem_cons_self)
      exact (hx.shared_id hq).2.1
    · exact hx.released_id hmem
  · constructor
    · intro hg'
      obtain ⟨q, hq, hrel, heq⟩ := hx.mem_grants.mp (hgrants.mem_iff.mpr (mem_cons_of_mem _ hg'))
      refine ⟨q, mem_cons_of_mem _ hq, fun hmem => ?_, heq⟩
      rcases mem_cons.mp hmem with hw | hmem
      · exact hnot (mem_map.mpr ⟨g', hg', by simpa using hw⟩)
      · exact hrel hmem
    · rintro ⟨q, hq, hrel, heq⟩
      have hold : g' ∈ s.grants :=
        hx.mem_grants.mpr ⟨q, hshared hq, fun hmem => hrel (mem_cons_of_mem _ hmem), heq⟩
      rcases mem_cons.mp (hgrants.mem_iff.mp hold) with rfl | hold
      · exact absurd mem_cons_self hrel
      · exact hold

theorem Explains.quiet (hx : Explains h s) (hgrants : s'.grants = s.grants)
    (hnext : s'.nextWindowId = s.nextWindowId) : Explains h s' :=
  ⟨hnext ▸ hx.next_eq, hx.shared_id, hx.released_id, hx.once, hgrants ▸ hx.mem_grants,
    hgrants ▸ hx.nodup⟩

theorem Explains.change {c : Section} {es : List Event} (hx : Explains h s) (hs : Seated s)
    (hc : Change s c es s') (hfew : shares (es ++ h) < 2 ^ 32 - 1) : Explains (es ++ h) s' := by
  cases hc with
  | quiet hgrants hnext _ => exact hx.quiet hgrants hnext
  | opened now _ => exact hx.quiet rfl rfl
  | shared q hopen hgrants hnext _ => exact hx.shared hs hopen hgrants hnext hfew
  | released g hgrants hnext _ => exact hx.released hgrants hnext

theorem explains_run {slots : Nat} {clock : Nat → Nat} (cs : List Section)
    (hfew : shares (run (memoryFabricInit slots clock) cs).1 < 2 ^ 32 - 1) :
    Explains (run (memoryFabricInit slots clock) cs).1 (run (memoryFabricInit slots clock) cs).2 := by
  have hfresh := fresh_init slots clock
  induction cs using List.reverseRecOn with
  | nil =>
    have hgrants : (memoryFabricInit slots clock).grants = [] := by
      simp [State.grants, hfresh.windows_eq]
    exact ⟨hfresh.next_eq, by simp [run], by simp [run], by simp [run],
      by simp [run, hgrants], by simp [run, hgrants]⟩
  | append_singleton cs c ih =>
    rw [run_snoc] at hfew ⊢
    refine (ih ?_).change (hfresh.seated.run cs) (exec_change c) hfew
    have hle : ∀ es h, shares h ≤ shares (es ++ h) := fun es h => by simp [shares]
    exact (hle _ _).trans_lt hfew

theorem mem_grants_of_active {x : Window} (hx : x ∈ s.windows) (ha : x.active = true) :
    x.grant ∈ s.grants :=
  mem_map_of_mem (mem_filter.mpr ⟨hx, ha⟩)

theorem findDomainLocked_of_isOpen {domainId : Nat} (h : s.IsOpen domainId) :
    ∃ i, findDomainLocked s domainId = some i := by
  obtain ⟨d, hd, ha, hid⟩ := h
  refine Option.ne_none_iff_exists'.mp fun hnone => ?_
  have hfail := findIdx?_eq_none_iff.mp hnone d hd
  simp [ha, hid] at hfail

theorem findWindowLocked_grant (hnodup : (s.grants.map Grant.windowId).Nodup) (hg : g ∈ s.grants) :
    ∃ i, findWindowLocked s g.windowId = some i ∧ (s.windows.getD i Window.zero).grant = g := by
  obtain ⟨x, hx, rfl⟩ := mem_map.mp hg
  obtain ⟨hmem, ha⟩ := mem_filter.mp hx
  obtain ⟨i, hi⟩ : ∃ i, findWindowLocked s x.windowId = some i := by
    refine Option.ne_none_iff_exists'.mp fun hnone => ?_
    have hfail := findIdx?_eq_none_iff.mp hnone x hmem
    simp [show x.active = true from ha] at hfail
  refine ⟨i, hi, ?_⟩
  obtain ⟨as, y, bs, hl, rfl, hy, -⟩ := findIdx?_split hi
  obtain ⟨hactive, hid⟩ := Bool.and_eq_true_iff.mp hy
  rw [hl, getD_split]
  exact inj_on_of_nodup_map hnodup (mem_grants_of_active (by simp [hl]) hactive) hg
    (beq_iff_eq.mp hid)

/-- An attach succeeds by the masks of the active window with the id. -/
theorem attachLocked_ok_iff (hnodup : (s.grants.map Grant.windowId).Nodup)
    (windowId domainId : Nat) (writeAccess : Bool) (now : Nat) :
    (attachLocked windowId domainId writeAccess now s).1 = .ok ↔
      s.IsOpen domainId ∧ ∃ g ∈ s.grants, g.windowId = windowId ∧ domainId ∈ members g.readerMask ∧
        (writeAccess = true → domainId ∈ members g.writerMask) := by
  simp only [mem_members]
  constructor
  · intro hok
    simp only [attachLocked] at hok
    split at hok
    · cases hok
    split at hok
    · rename_i i d hwindow hdomain
      split at hok
      · cases hok
      rename_i hread
      split at hok
      · cases hok
      rename_i hwrite
      obtain ⟨as, x, bs, hl, rfl, hx, -⟩ := findIdx?_split hwindow
      obtain ⟨hactive, hid⟩ := Bool.and_eq_true_iff.mp hx
      rw [hl, getD_split] at hread hwrite
      refine ⟨findDomainLocked_isSome hdomain, x.grant,
        mem_grants_of_active (by simp [hl]) hactive, beq_iff_eq.mp hid, hread, fun hw => ?_⟩
      intro hzero
      exact hwrite (Bool.and_eq_true_iff.mpr ⟨hw, beq_iff_eq.mpr hzero⟩)
    · cases hok
  · rintro ⟨hopen, g, hg, rfl, hread, hwrite⟩
    obtain ⟨i, hi, hgrant⟩ := findWindowLocked_grant hnodup hg
    obtain ⟨j, hj⟩ := findDomainLocked_of_isOpen hopen
    -- a domain that a mask names has a bit
    have hbit : domainBit domainId ≠ 0 := by
      intro hzero
      rw [hzero] at hread
      exact hread BitVec.and_zero
    subst hgrant
    change (s.windows.getD i Window.zero).readerMask &&& _ ≠ 0 at hread
    simp only [attachLocked, if_neg hbit, hi, hj]
    rw [if_neg hread, if_neg]
    intro hdenied
    obtain ⟨hw, hzero⟩ := Bool.and_eq_true_iff.mp hdenied
    exact hwrite hw (beq_iff_eq.mp hzero)

end

theorem members_grant (hpos : 0 < q.ownerDomainId) (hle : q.ownerDomainId ≤ 32) (windowId : Nat) :
    members (q.grant windowId).readerMask = q.readers ∧
      members (q.grant windowId).writerMask = q.writers := by
  constructor
  · simp only [ShareRequest.grant, ShareRequest.readers, members_or, members_domainBit hpos hle]
    exact Set.union_right_comm ..
  · simp only [ShareRequest.grant, ShareRequest.writers, members_or, members_domainBit hpos hle]

/-- **Attaching follows the shares.**  In every run with fewer than `2 ^ 32 - 1` shares. -/
theorem attach_follows_shares {slots : Nat} {clock : Nat → Nat} {cs : List Section}
    {h : List Event} {s : State} (hrun : run (memoryFabricInit slots clock) cs = (h, s))
    (hfew : shares h < 2 ^ 32 - 1) :
    (∀ w d write now, (attachLocked w d write now s).1 = .ok ↔
      (∃ x ∈ s.windows, x.active = true ∧ x.windowId = w) ∧ s.IsOpen d ∧
        ∃ q, .shared w q ∈ h ∧ d ∈ q.readers ∧ (write = true → d ∈ q.writers)) ∧
    (∀ w q q', .shared w q ∈ h → .shared w q' ∈ h → q = q') ∧
    Distinct Window.active Window.windowId s.windows ∧
    (∀ x ∈ s.windows, x.active = true → x.windowId ≠ 0 ∧
      members x.writerMask ⊆ members x.readerMask ∧
      ∃ q, .shared x.windowId q ∈ h ∧ x.grant = q.grant x.windowId) ∧
    ∀ w, .released w ∈ h → ∀ d write now, (attachLocked w d write now s).1 ≠ .ok := by
  have hx : Explains h s := by
    have hx := @explains_run slots clock cs
    rw [hrun] at hx
    exact hx hfew
  have hsets : ∀ {w q}, .shared w q ∈ h → members (q.grant w).readerMask = q.readers ∧
      members (q.grant w).writerMask = q.writers := by
    intro w q hq
    obtain ⟨-, -, hpos, hle⟩ := hx.shared_id hq
    exact members_grant hpos hle w
  have hattach := attachLocked_ok_iff hx.nodup
  refine ⟨fun w d write now => ?_, fun w q q' => hx.once, ?_, fun x hmem ha => ?_, ?_⟩
  · rw [hattach]
    constructor
    · rintro ⟨hopen, g, hg, rfl, hread, hwrite⟩
      obtain ⟨q, hq, -, heq⟩ := hx.mem_grants.mp hg
      rw [heq] at hread hwrite
      rw [(hsets hq).1] at hread
      rw [(hsets hq).2] at hwrite
      obtain ⟨x, hmem, hgrant⟩ := mem_map.mp hg
      obtain ⟨hmem, ha⟩ := mem_filter.mp hmem
      exact ⟨⟨x, hmem, ha, congrArg Grant.windowId hgrant⟩, hopen, q, hq, hread, hwrite⟩
    · rintro ⟨⟨x, hmem, ha, rfl⟩, hopen, q, hq, hread, hwrite⟩
      have hg := mem_grants_of_active hmem ha
      obtain ⟨q', hq', -, heq⟩ := hx.mem_grants.mp hg
      obtain rfl := hx.once hq hq'
      refine ⟨hopen, x.grant, hg, rfl, ?_, ?_⟩
      · rw [heq, (hsets hq').1]
        exact hread
      · rw [heq, (hsets hq').2]
        exact hwrite
  · have hnodup := hx.nodup
    rwa [State.grants, map_map] at hnodup
  · obtain ⟨q, hq, -, heq⟩ := hx.mem_grants.mp (mem_grants_of_active hmem ha)
    change .shared x.windowId q ∈ h at hq
    refine ⟨Nat.pos_iff_ne_zero.mp (hx.shared_id hq).1, ?_, q, hq, heq⟩
    rw [show x.writerMask = (q.grant x.windowId).writerMask from congrArg Grant.writerMask heq,
      show x.readerMask = (q.grant x.windowId).readerMask from congrArg Grant.readerMask heq,
      (hsets hq).1, (hsets hq).2]
    exact Set.union_subset_union_left _ Set.subset_union_right
  · intro w hrel d write now hok
    obtain ⟨-, g, hg, rfl, -⟩ := (hattach w d write now).mp hok
    obtain ⟨q, -, hnot, -⟩ := hx.mem_grants.mp hg
    exact hnot hrel

/-- A line of memory, as `tensor_info` returns it. -/
def sharedLine : TensorAlloc :=
  ⟨1, 0, 0, 64, ⟨1, [16], [1], 0⟩, .tensor, .shortTerm, false, false, false, false, 2⟩

/-- The reader that a share names ahead may attach the window once it is open. -/
theorem attach_follows_shares_ahead :
    (attachLocked 1 5 false 0 (run (memoryFabricInit 4 fun _ => 0)
      [.share shareAhead sharedLine 0, .openDomain 0]).2).1 = .ok := by
  refine ((attach_follows_shares (Prod.eta _).symm (by decide)).1 1 5 false 0).mpr
    ⟨⟨_, mem_cons_self, rfl, rfl⟩, by unfold State.IsOpen; decide, shareAhead,
      mem_cons_self, .inl (.inl (mem_members.mpr (by decide))), fun hw => ?_⟩
  cases hw

end AiosKernel.MemoryFabric
