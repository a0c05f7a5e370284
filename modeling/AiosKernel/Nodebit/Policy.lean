/-
# `AiosKernel.Nodebit.Policy` — the table is a map from nodes to policies

What the gate is for: each registered node has a policy, its capabilities and
whether health gates the risky ones.  `policyAfter` reads the policies off a
history of calls and their results, without any table.  The table follows it
along every run (`run_refines`), so a decision is the one the history asks for.
-/
import AiosKernel.Nodebit.Model
import AiosKernel.Lib.Flag
import AiosKernel.Lib.Slots

namespace AiosKernel.Nodebit

open Slots Flag Function

/-! ## Policies -/

/-- What a node may do. -/
structure Policy where
  caps : BitVec 64
  healthGate : Bool
  deriving DecidableEq, Repr

/-- The calls of a run; an evaluation comes with the health and the clock it finds. -/
inductive Call where
  | register (nodeId : Nat) (label : Option String) (caps : BitVec 64) (healthGate : Bool)
  | updateCaps (nodeId : Nat) (caps : BitVec 64)
  | evaluate (nodeId : Nat) (caps : BitVec 64) (hasOut : Bool) (health : Health.Summary)
      (startNs endNs : Nat)

def exec (c : Call) (s : State) : AiosStatus × State :=
  match c with
  | .register nodeId label caps healthGate => register nodeId label caps healthGate s
  | .updateCaps nodeId caps => updateCaps nodeId caps s
  | .evaluate nodeId caps hasOut health startNs endNs =>
    let ((status, _), s) := evaluate nodeId caps hasOut health startNs endNs s
    (status, s)

/-- Make calls one after the other; returns the history and the last state. -/
def run : List Call → State → List (Call × AiosStatus) × State
  | [], s => ([], s)
  | c :: cs, s =>
    let (status, s) := exec c s
    let (hist, s) := run cs s
    ((c, status) :: hist, s)

/-- The policies after one more call: only successful registrations and updates count. -/
def policyStep (m : Nat → Option Policy) (e : Call × AiosStatus) : Nat → Option Policy :=
  match e with
  | (.register nodeId _ caps healthGate, .ok) => update m nodeId (some ⟨caps, healthGate⟩)
  | (.updateCaps nodeId caps, .ok) =>
    update m nodeId ((m nodeId).map fun p => { p with caps := caps })
  | _ => m

variable {m : Nat → Option Policy}

theorem policyStep_error {c : Call} {st : AiosStatus} (h : st ≠ .ok) :
    policyStep m (c, st) = m := by
  cases st with
  | ok => exact absurd rfl h
  | _ => cases c <;> rfl

/-- The policies a history leaves: for each node the latest capabilities it was given
successfully, and the gate it was registered with. -/
def policyAfter (hist : List (Call × AiosStatus)) : Nat → Option Policy :=
  hist.foldl policyStep fun _ => none

/-- The request may be granted: the node is registered, it has every capability asked for, and if
health gates it, none of them is risky or the kernel is stable and allows risky I/O. -/
def Permitted (p : Option Policy) (capsRequested : BitVec 64) (health : Health.Summary) : Prop :=
  ∃ q, p = some q ∧ (∀ i, capsRequested.getLsbD i = true → q.caps.getLsbD i = true) ∧
    (q.healthGate = true →
      (∃ i, capsRequested.getLsbD i = true ∧ NODEBIT_CAP_RISKY_MASK.getLsbD i = true) →
      health.level = .stable ∧ health.riskyIoAllowed = true)

/-! ## The table -/

def State.policy (s : State) (nodeId : Nat) : Option Policy :=
  (lookup Entry.active Entry.nodeId s.entries nodeId).map fun e => ⟨e.capsAllowed, e.healthGate⟩

/-- The table is initialised, has no node twice, and grants only known capabilities. -/
structure Table (s : State) : Prop where
  ready : s.ready = true
  distinct : Distinct Entry.active Entry.nodeId s.entries
  known : ∀ e ∈ s.entries, e.active = true → e.capsAllowed &&& ~~~NODEBIT_CAP_ALL = 0

theorem table_init : Table init where
  ready := rfl
  distinct := List.nodup_nil
  known := by decide

section

variable {s s' : State} {nodeId : Nat}

theorem findEntryLocked_some {slot : Nat} (h : findEntryLocked s nodeId = some slot) :
    ∃ as e bs, s.entries = as ++ e :: bs ∧ slot = as.length ∧
      holds Entry.active Entry.nodeId nodeId e = true ∧
      (∀ a ∈ as, holds Entry.active Entry.nodeId nodeId a = false) ∧
      s.policy nodeId = some ⟨e.capsAllowed, e.healthGate⟩ := by
  obtain ⟨as, e, bs, hl, hslot, he, has⟩ := findIdx?_split h
  refine ⟨as, e, bs, hl, hslot, he, has, ?_⟩
  rw [State.policy, hl, lookup_here has he]
  rfl

theorem findEntryLocked_none (h : findEntryLocked s nodeId = none) :
    (∀ e ∈ s.entries, e.active = true → e.nodeId ≠ nodeId) ∧ s.policy nodeId = none := by
  have hno : ∀ e ∈ s.entries, e.active = true → e.nodeId ≠ nodeId := by
    intro e he
    exact holds_eq_false.mp (List.findIdx?_eq_none_iff.mp h e he)
  refine ⟨hno, ?_⟩
  rw [State.policy, lookup_eq_none.mpr hno]
  rfl

variable {caps : BitVec 64}

variable {label : Option String} {gate : Bool} {st : AiosStatus}

theorem register_ok (h : Table s) (hcall : register nodeId label caps gate s = (.ok, s')) :
    Table s' ∧ s'.policy = update s.policy nodeId (some ⟨caps, gate⟩) ∧
      s.policy nodeId = none := by
  unfold register at hcall
  split at hcall
  · cases hcall
  split at hcall
  · cases hcall
  rename_i hvalid
  split at hcall
  · cases hcall
  rename_i hfind
  split at hcall
  · cases hcall
  rename_i slot hfree
  obtain ⟨as, x, bs, hl, rfl, hx, -⟩ := findIdx?_split hfree
  cases hcall
  obtain ⟨hno, hnone⟩ := findEntryLocked_none hfind
  have hdead : x.active = false := by simpa using hx
  have hcaps : caps &&& ~~~NODEBIT_CAP_ALL = 0 := by simpa [h.ready, capsMaskValid] using hvalid
  have hrest : ∀ e ∈ as ++ bs, e ∈ s.entries := fun e he => hl ▸ mem_split.mpr (.inr he)
  have hdistinct := h.distinct
  rw [hl, distinct_dead hdead] at hdistinct
  refine ⟨⟨h.ready, ?_, ?_⟩, ?_, hnone⟩
  · rw [hl, set_split, distinct_live rfl]
    exact ⟨fun e he => hno e (hrest e he), hdistinct⟩
  · rw [hl, set_split, forall_mem_split]
    exact ⟨fun _ => hcaps, fun e he => h.known e (hrest e he)⟩
  · funext n
    show (lookup _ _ (s.entries.set _ _) n).map _ = _
    rw [hl, set_split]
    rcases eq_or_ne n nodeId with rfl | hn
    · rw [update_self, lookup_here
        (fun a ha => holds_eq_false.mpr (hno a (hrest a (List.mem_append_left _ ha))))
        (holds_eq_true.mpr ⟨rfl, rfl⟩)]
      rfl
    · rw [update_of_ne hn, State.policy, hl, lookup_other
        (holds_eq_false.mpr fun hlive => Bool.noConfusion (hdead.symm.trans hlive))
        (holds_eq_false.mpr fun _ => hn.symm)]

theorem updateCaps_ok (h : Table s) (hcall : updateCaps nodeId caps s = (.ok, s')) :
    Table s' ∧ s'.policy = update s.policy nodeId
      ((s.policy nodeId).map fun p => { p with caps := caps }) := by
  unfold updateCaps at hcall
  split at hcall
  · cases hcall
  rename_i hvalid
  split at hcall
  · cases hcall
  rename_i slot hfind
  obtain ⟨as, x, bs, hl, rfl, hx, has, hpolicy⟩ := findEntryLocked_some hfind
  obtain ⟨hlive, hid⟩ := holds_eq_true.mp hx
  cases hcall
  have hcaps : caps &&& ~~~NODEBIT_CAP_ALL = 0 := by simpa [h.ready, capsMaskValid] using hvalid
  refine ⟨⟨h.ready, ?_, ?_⟩, ?_⟩
  · rw [hl, modify_split]
    exact (hl ▸ h.distinct).edit hlive hlive rfl
  · rw [hl, modify_split, forall_mem_split]
    exact ⟨fun _ => hcaps, fun e he => h.known e (hl ▸ mem_split.mpr (.inr he))⟩
  · funext n
    show (lookup _ _ (s.entries.modify _ _) n).map _ = _
    rw [hl, modify_split]
    rcases eq_or_ne n nodeId with rfl | hn
    · rw [update_self, hpolicy, lookup_here has]
      · rfl
      · exact holds_eq_true.mpr ⟨hlive, hid⟩
    · rw [update_of_ne hn, State.policy, hl, lookup_other
        (holds_eq_false.mpr fun _ => hid ▸ hn.symm) (holds_eq_false.mpr fun _ => hid ▸ hn.symm)]

theorem evaluate_state (s : State) (nodeId : Nat) (caps : BitVec 64) (hasOut : Bool)
    (health : Health.Summary) (startNs endNs : Nat) :
    ∃ stats, (evaluate nodeId caps hasOut health startNs endNs s).2 = { s with stats := stats } := by
  unfold evaluate
  split
  · exact ⟨_, rfl⟩
  split <;> exact ⟨_, rfl⟩

theorem register_error (hcall : register nodeId label caps gate s = (st, s')) (hst : st ≠ .ok) :
    s' = s := by
  unfold register at hcall
  repeat' split at hcall
  all_goals obtain ⟨rfl, rfl⟩ := Prod.mk.inj hcall
  all_goals first | rfl | exact absurd rfl hst

theorem updateCaps_error (hcall : updateCaps nodeId caps s = (st, s')) (hst : st ≠ .ok) :
    s' = s := by
  unfold updateCaps at hcall
  repeat' split at hcall
  all_goals obtain ⟨rfl, rfl⟩ := Prod.mk.inj hcall
  all_goals first | rfl | exact absurd rfl hst

end

/-! ## Runs -/

/-- Policies stay, with the health gate they have. -/
def Keeps (m m' : Nat → Option Policy) : Prop :=
  ∀ n q, m n = some q → ∃ q', m' n = some q' ∧ q'.healthGate = q.healthGate

theorem Keeps.refl (m : Nat → Option Policy) : Keeps m m := fun _ q hq => ⟨q, hq, rfl⟩

theorem Keeps.trans {m₁ m₂ m₃ : Nat → Option Policy} (h₁ : Keeps m₁ m₂) (h₂ : Keeps m₂ m₃) :
    Keeps m₁ m₃ := by
  intro n q hq
  obtain ⟨q₂, hq₂, hgate₂⟩ := h₁ n q hq
  obtain ⟨q₃, hq₃, hgate₃⟩ := h₂ n q₂ hq₂
  exact ⟨q₃, hq₃, hgate₃.trans hgate₂⟩

theorem Keeps.update {n : Nat} {p : Option Policy}
    (h : ∀ q, m n = some q → ∃ q', p = some q' ∧ q'.healthGate = q.healthGate) :
    Keeps m (update m n p) := by
  intro k q hq
  rcases eq_or_ne k n with rfl | hk
  · rw [update_self]
    exact h q hq
  · exact ⟨q, by rw [update_of_ne hk, hq], rfl⟩

variable {s : State}

theorem exec_refines (h : Table s) (c : Call) :
    Table (exec c s).2 ∧ (exec c s).2.policy = policyStep s.policy (c, (exec c s).1) ∧
      Keeps s.policy (exec c s).2.policy := by
  cases c with
  | register nodeId label caps healthGate =>
    rcases hcall : register nodeId label caps healthGate s with ⟨st, s'⟩
    simp only [exec, hcall]
    by_cases hst : st = .ok
    · subst hst
      obtain ⟨htable, hpolicy, hnone⟩ := register_ok h hcall
      refine ⟨htable, hpolicy, hpolicy ▸ Keeps.update ?_⟩
      intro q hq
      exact nomatch hnone.symm.trans hq
    · obtain rfl := register_error hcall hst
      exact ⟨h, (policyStep_error hst).symm, Keeps.refl _⟩
  | updateCaps nodeId caps =>
    rcases hcall : updateCaps nodeId caps s with ⟨st, s'⟩
    simp only [exec, hcall]
    by_cases hst : st = .ok
    · subst hst
      obtain ⟨htable, hpolicy⟩ := updateCaps_ok h hcall
      refine ⟨htable, hpolicy, hpolicy ▸ Keeps.update ?_⟩
      intro q hq
      exact ⟨{ q with caps := caps }, by rw [hq]; rfl, rfl⟩
    · obtain rfl := updateCaps_error hcall hst
      exact ⟨h, (policyStep_error hst).symm, Keeps.refl _⟩
  | evaluate nodeId caps hasOut health startNs endNs =>
    obtain ⟨stats, hs⟩ := evaluate_state s nodeId caps hasOut health startNs endNs
    simp only [exec, hs]
    exact ⟨{ h with }, rfl, Keeps.refl _⟩

/-- Along a run the table follows the policies of the history. -/
theorem run_refines (calls : List Call) (h : Table s) :
    Table (run calls s).2 ∧ (run calls s).2.policy = (run calls s).1.foldl policyStep s.policy ∧
      Keeps s.policy (run calls s).2.policy := by
  induction calls generalizing s with
  | nil => exact ⟨h, rfl, Keeps.refl _⟩
  | cons c calls ih =>
    obtain ⟨htable, hpolicy, hkeeps⟩ := exec_refines h c
    obtain ⟨htable', hpolicy', hkeeps'⟩ := ih htable
    refine ⟨htable', ?_, hkeeps.trans hkeeps'⟩
    show (run calls (exec c s).2).2.policy = _
    rw [hpolicy', hpolicy]
    rfl

theorem run_append (calls more : List Call) (s : State) :
    (run (calls ++ more) s).2 = (run more (run calls s).2).2 := by
  induction calls generalizing s with
  | nil => rfl
  | cons c calls ih => exact ih (exec c s).2

/-! ## Decisions -/

/-- The entry decides as its policy asks, and grants all or nothing. -/
theorem Entry.decide_spec (e : Entry) (req : BitVec 64) (health : Health.Summary) :
    ((e.decide req health).1 = .permit ↔
      Permitted (some ⟨e.capsAllowed, e.healthGate⟩) req health) ∧
    ((e.decide req health).1 = .permit ∧ (e.decide req health).2.1 = req ∨
      (e.decide req health).1 = .deny ∧ (e.decide req health).2.1 = 0) := by
  unfold Entry.decide
  split
  · rename_i hcaps
    refine ⟨⟨(nomatch ·), ?_⟩, .inr ⟨rfl, rfl⟩⟩
    rintro ⟨q, hq, hallowed, -⟩
    cases hq
    exact absurd (and_eq_self_iff.mpr hallowed) hcaps
  rename_i hcaps
  have hallowed := and_eq_self_iff.mp (not_not.mp hcaps)
  split
  · -- a risky request of a gated node, and the kernel is not up to it
    rename_i hblocked
    simp only [Bool.and_eq_true, bne_iff_ne, Bool.or_eq_true, Bool.not_eq_true',
      and_ne_zero_iff] at hblocked
    obtain ⟨⟨hgate, hrisky⟩, hhealth⟩ := hblocked
    refine ⟨⟨(nomatch ·), ?_⟩, .inr ⟨rfl, rfl⟩⟩
    rintro ⟨q, hq, -, hstable⟩
    cases hq
    obtain ⟨hlevel, hio⟩ := hstable hgate hrisky
    rcases hhealth with hhealth | hhealth
    · exact absurd hlevel hhealth
    · exact nomatch hhealth.symm.trans hio
  · rename_i hopen
    refine ⟨⟨fun _ => ⟨_, rfl, hallowed, ?_⟩, fun _ => rfl⟩, .inl ⟨rfl, rfl⟩⟩
    intro hgate hrisky
    have hne := and_ne_zero_iff.mpr hrisky
    simp only [Bool.and_eq_true, bne_iff_ne, Bool.or_eq_true, Bool.not_eq_true'] at hopen
    have hhealth := fun h => hopen ⟨⟨hgate, hne⟩, h⟩
    exact ⟨not_not.mp fun h => hhealth (.inl h), Bool.not_eq_false _ ▸ fun h => hhealth (.inr h)⟩

/-- A request is let through exactly if the gate is initialised and the policy of the node permits
it, in whatever state the table is. -/
theorem evaluate_permits_iff (s : State) (nodeId : Nat) (req : BitVec 64) (health : Health.Summary)
    (startNs endNs : Nat) :
    ((evaluate nodeId req true health startNs endNs s).1.1 = .ok ∧
      (evaluate nodeId req true health startNs endNs s).1.2.map (·.action) = some .permit) ↔
      s.ready = true ∧ Permitted (s.policy nodeId) req health := by
  unfold evaluate
  cases hready : s.ready with
  | false => simp
  | true =>
    simp only [Bool.not_true, Bool.or_self, Bool.false_eq_true, if_false, true_and]
    cases hfind : findEntryLocked s nodeId with
    | none =>
      have hnone := (findEntryLocked_none hfind).2
      simp [hnone, Permitted]
    | some slot =>
      obtain ⟨as, e, bs, hl, rfl, -, -, hpolicy⟩ := findEntryLocked_some hfind
      simp only [hl, getD_split, hpolicy, Option.map_some, Option.some.injEq, true_and]
      exact (e.decide_spec req health).1

theorem evaluate_spec (h : Table s) (nodeId : Nat) (req : BitVec 64) (health : Health.Summary)
    (startNs endNs : Nat) :
    ∃ d, (evaluate nodeId req true health startNs endNs s).1.2 = some d ∧
      (d.action = .permit ↔ Permitted (s.policy nodeId) req health) ∧
      (d.action = .permit ∧ d.capsGranted = req ∨ d.action = .deny ∧ d.capsGranted = 0) ∧
      d.capsGranted &&& ~~~NODEBIT_CAP_ALL = 0 := by
  simp only [evaluate, h.ready, Bool.not_true, Bool.or_self, Bool.false_eq_true, if_false]
  cases hfind : findEntryLocked s nodeId with
  | none =>
    refine ⟨_, rfl, ⟨?_, ?_⟩, .inr ⟨rfl, rfl⟩, BitVec.zero_and⟩
    · intro hpermit
      cases hpermit
    · rintro ⟨q, hq, -⟩
      cases (findEntryLocked_none hfind).2.symm.trans hq
  | some slot =>
    obtain ⟨as, e, bs, hl, rfl, he, -, hpolicy⟩ := findEntryLocked_some hfind
    obtain ⟨hpermit, hgrant⟩ := e.decide_spec req health
    have hknown := h.known e (by simp [hl]) (holds_eq_true.mp he).1
    simp only [hl, getD_split, hpolicy]
    refine ⟨_, rfl, hpermit, hgrant, ?_⟩
    rcases hgrant with ⟨haction, hgranted⟩ | ⟨-, hgranted⟩
    · -- what is granted lies within the caps of the entry
      obtain ⟨q, hq, hallowed, -⟩ := hpermit.mp haction
      cases hq
      rw [hgranted, ← and_eq_self_iff.mpr hallowed, BitVec.and_assoc, hknown]
      exact BitVec.and_zero
    · rw [hgranted]
      exact BitVec.zero_and

/-- Along every run and for every health the kernel may be found in: a request is permitted
exactly when the latest policy of the node permits it, it is granted whole or not at all and
never beyond the known capabilities, no node has two entries, and an entry never changes its
health gate. -/
theorem evaluate_follows_history (calls more : List Call) (nodeId : Nat) (req : BitVec 64)
    (health : Health.Summary) (startNs endNs : Nat) :
    let (hist, s) := run calls init
    (∃ d, (evaluate nodeId req true health startNs endNs s).1.2 = some d ∧
      (d.action = .permit ↔ Permitted (policyAfter hist nodeId) req health) ∧
      (d.action = .permit ∧ d.capsGranted = req ∨ d.action = .deny ∧ d.capsGranted = 0) ∧
      d.capsGranted &&& ~~~NODEBIT_CAP_ALL = 0) ∧
    ((s.entries.filter Entry.active).map Entry.nodeId).Nodup ∧
    ∀ e ∈ s.entries, e.active = true → ∃ e' ∈ (run (calls ++ more) init).2.entries,
      e'.active = true ∧ e'.nodeId = e.nodeId ∧ e'.healthGate = e.healthGate := by
  obtain ⟨htable, hpolicy, -⟩ := run_refines calls table_init
  rcases hrun : run calls init with ⟨hist, s⟩
  rw [hrun] at htable hpolicy
  change s.policy = policyAfter hist at hpolicy
  refine ⟨?_, htable.distinct, ?_⟩
  · rw [← hpolicy]
    exact evaluate_spec htable nodeId req health startNs endNs
  · intro e he hactive
    rw [run_append, hrun]
    obtain ⟨htable', -, hkeeps⟩ := run_refines more htable
    have hbefore : s.policy e.nodeId = some ⟨e.capsAllowed, e.healthGate⟩ := by
      rw [State.policy, lookup_of_mem htable.distinct he hactive]
      rfl
    obtain ⟨q, hq, hgate⟩ := hkeeps _ _ hbefore
    obtain ⟨e', hlookup, rfl⟩ := Option.map_eq_some_iff.mp hq
    obtain ⟨hmem, hlive, hid⟩ := mem_of_lookup hlookup
    exact ⟨e', hmem, hlive, hid, hgate⟩

end AiosKernel.Nodebit
