/-
# `AiosKernel.NodePipeline.Runs` — every interleaving of calls

A call that has passed the gate is past it for good, and the step at which it
passed is in the history.  Between its two sections an execution keeps `Own` of
the id it was called with, whatever other calls do meanwhile, because ids are
not used again.  That is where the bound on the number of creations comes from:
an execution may be suspended for as long as it takes an id to come around.
-/
import AiosKernel.NodePipeline.Sections

namespace AiosKernel.NodePipeline

open Slots Interleave
open Nodebit (NODEBIT_CAP_PIPELINE)

/-! ## One step of a call -/

/-- The pipeline of an execution that is between its two sections. -/
def Progress.executing : Progress → Option Nat
  | .walking pipelineId _ | .failing pipelineId _ _ | .finishing pipelineId _ _ => some pipelineId
  | _ => none

/-- The call has been permitted and has not returned. -/
def Progress.past : Progress → Bool
  | .permitted | .walking _ _ | .failing _ _ _ | .finishing _ _ _ | .observing _ _ => true
  | _ => false

/-- The call has returned the id of a new pipeline. -/
def Progress.created : Progress → Bool
  | .returned reply => reply.pipelineIdOut.isSome
  | _ => false

/-- What a call relies on between its steps. -/
def Relies (k : Kernel) (t : Thread) : Prop :=
  ∀ pipelineId, t.progress.executing = some pipelineId → Own k.pipe t.call.nodeId pipelineId

section

variable {env : Env} {k : Kernel} {c : Call} {progress : Progress} {n : Nat}

theorem enter_change (nowNs : Nat) (s : State) :
    ∃ new, Change c.nodeId new s (c.enter nowNs s).2 ∧ (c.enter nowNs s).1.created = new := by
  obtain ⟨nodeId, op⟩ := c
  cases op with
  | create label hasOut => exact ⟨_, createLocked_change (label.getD "") nowNs, rfl⟩
  | addStage pipelineId stage => exact ⟨_, addStageLocked_change (stage.getD Stage.zero), rfl⟩
  | destroy pipelineId => exact ⟨_, destroyLocked_change, rfl⟩
  | execute pipelineId hasOut =>
    have hsame := @snapshotLocked_same s nodeId pipelineId
    refine ⟨false, ?_⟩
    unfold Call.enter
    dsimp only
    split <;> exact ⟨hsame, rfl⟩

theorem next_entry : c.next env k .entry = (.gate, k) ∨
    ∃ status, c.next env k .entry = (.status status, k) := by
  simp only [Call.next]
  split
  · exact .inr ⟨_, rfl⟩
  · exact .inl rfl

theorem next_gate : ∃ nodebit, c.next env k .gate = (.refused, { k with nodebit := nodebit }) ∨
    (c.next env k .gate = (.permitted, { k with nodebit := nodebit }) ∧
      ∃ d, (Nodebit.evaluate c.nodeId NODEBIT_CAP_PIPELINE true env.health env.startNs env.endNs
        k.nodebit).1 = (.ok, some d) ∧ d.action = .permit) := by
  simp only [Call.next]
  split
  · exact ⟨_, .inl rfl⟩
  · rename_i hpermit
    obtain ⟨hstatus, haction⟩ := not_or.mp hpermit
    obtain ⟨d, hd, hpermit⟩ := Option.map_eq_some_iff.mp (not_not.mp haction)
    exact ⟨_, .inr ⟨rfl, d, Prod.ext (not_not.mp hstatus) hd, hpermit⟩⟩

theorem next_walking (pipelineId : Nat) (stages : List Stage) :
    (∃ executed ns, c.next env k (.walking pipelineId stages) =
      (.failing pipelineId executed ns, k)) ∨
    ∃ ns, c.next env k (.walking pipelineId stages) =
      (.finishing pipelineId stages.length ns, k) := by
  simp only [Call.next]
  split
  · exact .inl ⟨_, _, rfl⟩
  · exact .inr ⟨_, rfl⟩

theorem next_before (h : progress.past = false) :
    (c.next env k progress).2.pipe.pipelines = k.pipe.pipelines ∧
      ((c.next env k progress).1.past = true → progress = .gate ∧
        ∃ d, (Nodebit.evaluate c.nodeId NODEBIT_CAP_PIPELINE true env.health env.startNs env.endNs
          k.nodebit).1 = (.ok, some d) ∧ d.action = .permit) := by
  cases progress with
  | entry =>
    obtain hnext | ⟨status, hnext⟩ := @next_entry env k c
    all_goals
      rw [hnext]
      exact ⟨rfl, (nomatch ·)⟩
  | gate =>
    obtain ⟨nodebit, hnext | ⟨hnext, hpermit⟩⟩ := @next_gate env k c
    all_goals rw [hnext]
    · exact ⟨rfl, (nomatch ·)⟩
    · exact ⟨rfl, fun _ => ⟨rfl, hpermit⟩⟩
  | refused | returned reply => exact ⟨rfl, (nomatch ·)⟩
  | _ => exact nomatch h

theorem next_change (hrelies : Relies k ⟨c, progress⟩) :
    ∃ new, Change c.nodeId new k.pipe (c.next env k progress).2.pipe ∧
      (c.next env k progress).1.created.toNat = progress.created.toNat + new.toNat := by
  cases progress with
  | entry =>
    obtain hnext | ⟨status, hnext⟩ := @next_entry env k c
    all_goals
      rw [hnext]
      exact ⟨false, .same rfl rfl, rfl⟩
  | gate =>
    obtain ⟨nodebit, hnext | ⟨hnext, -⟩⟩ := @next_gate env k c
    all_goals
      rw [hnext]
      exact ⟨false, .same rfl rfl, rfl⟩
  | refused | observing stageCount durationNs | returned reply => exact ⟨false, .same rfl rfl, rfl⟩
  | permitted =>
    obtain ⟨new, hchange, hcreated⟩ := @enter_change c env.startNs k.pipe
    refine ⟨new, hchange, ?_⟩
    rw [← hcreated]
    exact (Nat.zero_add _).symm
  | walking pipelineId stages =>
    obtain ⟨executed, ns, hnext⟩ | ⟨ns, hnext⟩ := @next_walking env k c pipelineId stages
    all_goals
      rw [hnext]
      exact ⟨false, .same rfl rfl, rfl⟩
  | failing pipelineId executed durationNs =>
    exact ⟨false, failLocked_change (hrelies pipelineId rfl), rfl⟩
  | finishing pipelineId stageCount durationNs =>
    exact ⟨false, commitLocked_change (hrelies pipelineId rfl) stageCount durationNs, rfl⟩

variable {pipelineId : Nat}

theorem next_executing (htable : Table n k.pipe) (hrelies : Relies k ⟨c, progress⟩)
    (h : (c.next env k progress).1.executing = some pipelineId) :
    Own k.pipe c.nodeId pipelineId := by
  cases progress with
  | entry =>
    obtain hnext | ⟨status, hnext⟩ := @next_entry env k c
    all_goals
      rw [hnext] at h
      exact nomatch h
  | gate =>
    obtain ⟨nodebit, hnext | ⟨hnext, -⟩⟩ := @next_gate env k c
    all_goals
      rw [hnext] at h
      exact nomatch h
  | permitted =>
    -- only the first section of an execution leads on
    obtain ⟨nodeId, op⟩ := c
    cases op with
    | execute id hasOut =>
      simp only [Call.next, Call.enter] at h
      cases hfound : (snapshotLocked nodeId id k.pipe).1 with
      | error status =>
        rw [hfound] at h
        exact nomatch h
      | ok stages =>
        rw [hfound] at h
        cases h
        exact snapshotLocked_own htable hfound
    | _ => exact nomatch h
  | walking id stages =>
    obtain ⟨executed, ns, hnext⟩ | ⟨ns, hnext⟩ := @next_walking env k c id stages
    all_goals
      rw [hnext] at h
      exact hrelies pipelineId h
  | _ => exact nomatch h

def Progress.through : Progress → Bool
  | .observing _ _ | .returned _ => true
  | _ => false

theorem next_gone (hgone : Gone k.pipe pipelineId)
    (h : progress.executing = some pipelineId ∨ progress.through = true) :
    (c.next env k progress).2.pipe.pipelines = k.pipe.pipelines ∧
      ((c.next env k progress).1.executing = some pipelineId ∨
        (c.next env k progress).1.through = true) := by
  cases progress with
  | walking id stages =>
    obtain rfl : id = pipelineId := by simpa [Progress.executing, Progress.through] using h
    obtain ⟨executed, ns, hnext⟩ | ⟨ns, hnext⟩ := @next_walking env k c id stages
    all_goals
      rw [hnext]
      exact ⟨rfl, .inl rfl⟩
  | failing id executed durationNs =>
    obtain rfl : id = pipelineId := by simpa [Progress.executing, Progress.through] using h
    exact ⟨failLocked_gone hgone, .inr rfl⟩
  | finishing id stageCount durationNs =>
    obtain rfl : id = pipelineId := by simpa [Progress.executing, Progress.through] using h
    refine ⟨?_, .inr rfl⟩
    show (commitLocked _ _ _ _).pipelines = _
    simp only [commitLocked, findPipelineLocked_none hgone.2]
  | observing stageCount durationNs | returned reply => exact ⟨rfl, .inr rfl⟩
  | _ => exact absurd h (by simp [Progress.executing, Progress.through])

end

/-! ## All interleavings -/

/-- The kernel when the registry has been initialised, with any policies. -/
def boot (nodebit : Nodebit.State) : World Kernel Thread := ⟨⟨nodebit, init⟩, []⟩

/-- The event at which the call of the thread was permitted is in the history. -/
def Granted (nodebit : Nodebit.State) (es : List (Event Call Env Nodebit.State)) (tid : Nat)
    (c : Call) : Prop :=
  ∃ before env after d, es = before ++ .advance tid env :: after ∧
    (run machine (boot nodebit) before).threads[tid]? = some ⟨c, .gate⟩ ∧
    (Nodebit.evaluate c.nodeId NODEBIT_CAP_PIPELINE true env.health env.startNs env.endNs
      (run machine (boot nodebit) before).shared.nodebit).1 = (.ok, some d) ∧ d.action = .permit

def created (w : World Kernel Thread) : Nat := w.count fun t => t.progress.created

section

variable {nodebit : Nodebit.State} {es : List (Event Call Env Nodebit.State)}

theorem created_stays (env : Env) (k : Kernel) (t : Thread) (h : t.progress.created = true) :
    (machine.advance env k t).1.progress.created = true := by
  obtain ⟨c, progress⟩ := t
  cases progress with
  | returned reply => exact h
  | _ => exact nomatch h

/-- The registry is in order, and every call may rely on what it knows. -/
theorem run_table (hfew : created (run machine (boot nodebit) es) < 2 ^ 32 - 1) :
    Holds (fun n k => Table n k.pipe) Relies (fun t => t.progress.created)
      (run machine (boot nodebit) es) := by
  refine run_invariant ?_ created_stays ?_ ?_ ?_ hfew
  · intro c k
    refine ⟨?_, rfl⟩
    intro pipelineId h
    exact nomatch h
  · intro n env k t htable hrelies hfew
    obtain ⟨c, progress⟩ := t
    obtain ⟨new, hchange, hcount⟩ := @next_change env k c progress hrelies
    have hcreated : n + (machine.advance env k ⟨c, progress⟩).1.progress.created.toNat =
        n + progress.created.toNat + new.toNat := by
      rw [Nat.add_assoc]
      exact congrArg (n + ·) hcount
    rw [hcreated] at hfew ⊢
    refine ⟨htable.change hchange hfew, ?_, ?_⟩
    · intro pipelineId h
      exact (next_executing htable hrelies h).change htable hchange hfew
    · intro u hu pipelineId h
      exact (hu pipelineId h).change htable hchange hfew
  · intro n nodebit k htable
    exact ⟨htable, fun u hu => hu⟩
  · exact ⟨table_init, fun t ht => nomatch ht⟩

variable {w : World Kernel Thread}

theorem step_change (hrelies : ∀ t ∈ w.threads, Relies w.shared t)
    (e : Event Call Env Nodebit.State) :
    ∃ nodeId new, Change nodeId new w.shared.pipe (step machine w e).shared.pipe ∧
      created (step machine w e) = created w + new.toNat ∧
      ((step machine w e).shared.pipe.pipelines = w.shared.pipe.pipelines ∨
        ∃ tid env t, e = .advance tid env ∧ w.threads[tid]? = some t ∧ t.call.nodeId = nodeId ∧
          t.progress.past = true) := by
  obtain ⟨c, -, hstep⟩ | ⟨_, _, -, -, hstep⟩ | ⟨as, t, bs, env, rfl, hthreads, hstep⟩ |
    ⟨nb, -, hstep⟩ := step_cases machine w e
  · refine ⟨0, false, ?_⟩
    rw [hstep]
    exact ⟨.same rfl rfl, count_split _ _ _ [] _, .inl rfl⟩
  · refine ⟨0, false, ?_⟩
    rw [hstep]
    exact ⟨.same rfl rfl, rfl, .inl rfl⟩
  · obtain ⟨k, ts⟩ := w
    obtain rfl : ts = as ++ t :: bs := hthreads
    obtain ⟨c, progress⟩ := t
    obtain ⟨new, hchange, hcount⟩ :=
      @next_change env k c progress (hrelies _ (List.mem_append_right _ List.mem_cons_self))
    rw [hstep]
    refine ⟨c.nodeId, new, hchange, ?_, ?_⟩
    · rw [created, created, count_split, count_split, Nat.add_assoc _ _ new.toNat]
      exact congrArg (Nat.add _) hcount
    · cases hpast : progress.past with
      | false => exact .inl (next_before hpast).1
      | true => exact .inr ⟨as.length, env, ⟨c, progress⟩, rfl, by simp, rfl, hpast⟩
  · refine ⟨0, false, ?_⟩
    rw [hstep]
    exact ⟨.same rfl rfl, rfl, .inl rfl⟩

theorem granted_of_past {tid : Nat} {t : Thread}
    (ht : (run machine (boot nodebit) es).threads[tid]? = some t)
    (hpast : t.progress.past = true) : Granted nodebit es tid t.call := by
  obtain ⟨before, env, after, ⟨c, progress⟩, hes, ht₀, hc, hbefore, hafter⟩ :=
    crossing (Q := fun t => t.progress.past = true) (c := Thread.call)
      (fun _ h => Bool.false_ne_true h) (fun _ _ _ => rfl) rfl ht hpast
  obtain ⟨rfl, d, hd, hpermit⟩ := (next_before (Bool.eq_false_iff.mpr hbefore)).2 hafter
  obtain rfl : c = t.call := hc
  exact ⟨before, env, after, d, hes, ht₀, hd, hpermit⟩

/-- The thread is an execution of the pipeline between its sections, or through with them. -/
def Settling (pipelineId tid : Nat) (w : World Kernel Thread) : Prop :=
  ∃ t, w.threads[tid]? = some t ∧
    (t.progress.executing = some pipelineId ∨ t.progress.through = true)

/-- A step by the thread itself writes no record if the pipeline is gone; nothing else moves it. -/
theorem Settling.step {pipelineId tid : Nat} (h : Settling pipelineId tid w)
    (hgone : Gone w.shared.pipe pipelineId) (e : Event Call Env Nodebit.State) :
    Settling pipelineId tid (step machine w e) ∧
      ∀ env, e = .advance tid env →
        (step machine w e).shared.pipe.pipelines = w.shared.pipe.pipelines := by
  obtain ⟨t, ht, hprogress⟩ := h
  cases e with
  | start c =>
    refine ⟨⟨t, ?_, hprogress⟩, (nomatch ·, ·)⟩
    exact List.getElem?_append_left (List.getElem?_eq_some_iff.mp ht).1 ▸ ht
  | outside nb => exact ⟨⟨t, ht, hprogress⟩, (nomatch ·, ·)⟩
  | advance tid' env =>
    rcases eq_or_ne tid' tid with rfl | hne
    · obtain ⟨c, progress⟩ := t
      obtain ⟨hsame, hprogress'⟩ := @next_gone env w.shared c progress pipelineId hgone hprogress
      simp only [Interleave.step, ht]
      refine ⟨⟨_, List.getElem?_set_self (List.getElem?_eq_some_iff.mp ht).1, hprogress'⟩, ?_⟩
      intro env' _
      exact hsame
    · refine ⟨?_, fun env' he => absurd (Event.advance.inj he).1 hne⟩
      simp only [Interleave.step]
      split
      · exact ⟨t, ht, hprogress⟩
      · refine ⟨t, ?_, hprogress⟩
        rw [← ht]
        exact List.getElem?_set_ne hne

/-- While ids do not wrap around, an execution whose pipeline is gone stays that way. -/
theorem run_gone {before : List (Event Call Env Nodebit.State)} {tid pipelineId : Nat}
    (hgone : Gone (run machine (boot nodebit) before).shared.pipe pipelineId)
    (ht : Settling pipelineId tid (run machine (boot nodebit) before))
    (after : List (Event Call Env Nodebit.State))
    (hfew : created (run machine (boot nodebit) (before ++ after)) < 2 ^ 32 - 1) :
    Gone (run machine (boot nodebit) (before ++ after)).shared.pipe pipelineId ∧
      Settling pipelineId tid (run machine (boot nodebit) (before ++ after)) := by
  induction after using List.reverseRecOn with
  | nil =>
    rw [List.append_nil]
    exact ⟨hgone, ht⟩
  | append_singleton after e ih =>
    rw [← List.append_assoc, run_concat] at hfew ⊢
    have hprefix : created (run machine (boot nodebit) (before ++ after)) < 2 ^ 32 - 1 :=
      Nat.lt_of_le_of_lt (count_le_run created_stays _ [e]) hfew
    obtain ⟨hgone', ht'⟩ := ih hprefix
    obtain ⟨htable, hrelies⟩ := run_table hprefix
    obtain ⟨nodeId, new, hchange, hcreated, -⟩ := step_change hrelies e
    rw [hcreated] at hfew
    exact ⟨hgone'.change htable hchange hfew, (ht'.step hgone' e).1⟩

/-- In every interleaving of calls, while fewer than `2 ^ 32 - 1` pipelines have been created:

* an event that changes or removes a pipeline is a step of a call of its owner, and that call was
  permitted by the gate earlier in the run;
* pipelines have distinct ids, none of them `0`, are ready exactly when they have stages, and have
  at most `NODE_PIPELINE_MAX_STAGES`;
* an execution between its two sections whose pipeline has been destroyed writes no record from
  then on, whatever the slot is used for. -/
theorem pipelines_owned (nodebit : Nodebit.State) (es : List (Event Call Env Nodebit.State))
    (hfew : created (run machine (boot nodebit) es) < 2 ^ 32 - 1) :
    let w := run machine (boot nodebit) es
    (∀ (e : Event Call Env Nodebit.State) (i : Nat) (p : Pipeline),
      w.shared.pipe.pipelines[i]? = some p → p.live = true →
      (step machine w e).shared.pipe.pipelines[i]? ≠ some p →
      ∃ tid env t, e = .advance tid env ∧ w.threads[tid]? = some t ∧
        t.call.nodeId = p.ownerNode ∧ Granted nodebit es tid t.call) ∧
    ((w.shared.pipe.pipelines.filter Pipeline.live).map Pipeline.pipelineId).Nodup ∧
    (∀ p ∈ w.shared.pipe.pipelines, p.live = true → p.pipelineId ≠ 0 ∧
      (p.state = .ready ↔ 0 < p.stageCount) ∧ p.stageCount ≤ NODE_PIPELINE_MAX_STAGES) ∧
    ∀ before after tid t pipelineId, es = before ++ after →
      (run machine (boot nodebit) before).threads[tid]? = some t →
      t.progress.executing = some pipelineId →
      (∀ p ∈ (run machine (boot nodebit) before).shared.pipe.pipelines, p.live = true →
        p.pipelineId ≠ pipelineId) →
      ∀ env, (step machine w (.advance tid env)).shared.pipe.pipelines =
        w.shared.pipe.pipelines := by
  intro w
  obtain ⟨htable, hrelies⟩ := run_table hfew
  refine ⟨?_, htable.distinct, ?_, ?_⟩
  · intro e i p hp hlive hne
    obtain ⟨nodeId, new, hchange, -, hwho⟩ := step_change hrelies e
    rcases hwho with hsame | ⟨tid, env, t, rfl, ht, hnode, hpast⟩
    · exact absurd (hsame ▸ hp) hne
    · refine ⟨tid, env, t, rfl, ht, ?_, granted_of_past ht hpast⟩
      rw [hnode]
      exact hchange.owner hp hlive hne
  · intro p hp hlive
    exact ⟨Nat.pos_iff_ne_zero.mp (htable.ids p hp hlive).1, htable.staged p hp hlive⟩
  · rintro before after tid t pipelineId rfl ht hexecuting hdestroyed env
    have hprefix : created (run machine (boot nodebit) before) < 2 ^ 32 - 1 := by
      rw [run_append] at hfew
      exact Nat.lt_of_le_of_lt (count_le_run created_stays _ after) hfew
    have hown := (run_table hprefix).2 t (List.mem_of_getElem? ht) pipelineId hexecuting
    obtain ⟨hgone, hsettling⟩ := run_gone ⟨hown.1, hdestroyed⟩ ⟨t, ht, .inl hexecuting⟩ after hfew
    exact (hsettling.step hgone (.advance tid env)).2 env rfl

/-! ## A slot used again

Node 40 creates a pipeline, adds a stage and starts to execute it; while the walk goes on it
destroys the pipeline and creates another, which gets the same slot. -/

/-- What every step of the scenario finds. -/
def calm : Env := ⟨Health.getSummary Health.initial, 0, 0, fun _ => 1⟩

/-- A call by node 40, with its checks, the gate and its first section. -/
def firstSection (tid : Nat) (op : Op) : List (Event Call Env Nodebit.State) :=
  .start ⟨40, op⟩ :: List.replicate 3 (.advance tid calm)

/-- The execution is at its walk, and its pipeline has been destroyed. -/
def destroyedMeanwhile : List (Event Call Env Nodebit.State) :=
  firstSection 0 (.create (some "a") true) ++ firstSection 1 (.addStage 1 (some Stage.zero)) ++
    firstSection 2 (.execute 1 true) ++ firstSection 3 (.destroy 1)

/-- The gate with node 40 registered. -/
def oneNode : Nodebit.State :=
  (Nodebit.register 40 (some "n") NODEBIT_CAP_PIPELINE false Nodebit.init).2

/-- Another pipeline is in the slot when the execution comes to its second section. -/
def reused : List (Event Call Env Nodebit.State) :=
  destroyedMeanwhile ++ (firstSection 4 (.create (some "b") true) ++ [.advance 2 calm])

theorem pipelines_owned_reused : created (run machine (boot oneNode) reused) < 2 ^ 32 - 1 ∧
    ((run machine (boot oneNode) reused).shared.pipe.pipelines[0]?.map Pipeline.pipelineId) =
      some 2 ∧
    (run machine (boot oneNode) reused).threads[2]? = some ⟨⟨40, .execute 1 true⟩, .finishing 1 1 0⟩ ∧
    (step machine (run machine (boot oneNode) reused) (.advance 2 calm)).shared.pipe.pipelines =
      (run machine (boot oneNode) reused).shared.pipe.pipelines := by
  have hfew : created (run machine (boot oneNode) reused) < 2 ^ 32 - 1 := by decide +kernel
  refine ⟨hfew, by decide +kernel, by decide +kernel, ?_⟩
  have hwalk : (run machine (boot oneNode) destroyedMeanwhile).threads[2]? =
      some ⟨⟨40, .execute 1 true⟩, .walking 1 [Stage.zero]⟩ := by decide +kernel
  exact (pipelines_owned oneNode reused hfew).2.2.2 destroyedMeanwhile _ 2 _ 1 rfl hwalk rfl
    (by decide +kernel) calm

end

end AiosKernel.NodePipeline
