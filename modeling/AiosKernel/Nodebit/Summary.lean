/-
# `AiosKernel.Nodebit.Summary` — what the statistics say about the decisions

The counters are 32 bits wide.  Up to their wrap they count the decisions, and
`eval_min_ns` is the least latency.  With the wrap they start over, and so does
the minimum, which takes the evaluation that makes the counter 1 for the first
one; the maximum and the total do not depend on the counters.  The sums over the
nodes that `nodebit_stats_summary` returns are of the same width.
-/
import AiosKernel.Nodebit.Stats
import Mathlib.Algebra.Order.BigOperators.Group.List
import Mathlib.Algebra.Order.Group.Nat

namespace AiosKernel.Nodebit

open Word Slots List

/-! ## What is read -/

def registered (s : State) : List Nat := (s.entries.filter Entry.active).map Entry.nodeId

/-- The statistics of the nodes of the table, as they are looked up. -/
def nodeStats (s : State) : List NodeStats :=
  (registered s).filterMap fun nodeId => (statsLookup nodeId true s).2

/-- What the statistics of a node say about its decisions, whatever their number. -/
structure Observed (st : NodeStats) (xs : List Sample) : Prop where
  evaluations : st.evaluations = u32 (st.permits + st.denies)
  total : st.evalTotalNs = u64 (latencies xs).sum
  max : xs ≠ [] → IsGreatest {l | l ∈ latencies xs} st.evalMaxNs

/-- What they say besides if no counter has wrapped. -/
structure Exact (st : NodeStats) (xs : List Sample) : Prop where
  evaluations : st.evaluations = st.permits + st.denies
  healthBlocks : st.healthBlocks ≤ st.denies
  min : xs ≠ [] → IsLeast {l | l ∈ latencies xs} st.evalMinNs

/-- The summary adds up the counters of these nodes, modulo their width, and has the greatest of
their maxima. -/
structure Summarizes (out : StatsSummary) (nodes : List NodeStats) : Prop where
  activeNodes : out.activeNodes = u32 nodes.length
  evaluations : out.evaluations = u32 (nodes.map (·.evaluations)).sum
  permits : out.permits = u32 (nodes.map (·.permits)).sum
  denies : out.denies = u32 (nodes.map (·.denies)).sum
  healthBlocks : out.healthBlocks = u32 (nodes.map (·.healthBlocks)).sum
  workTotalNs : out.workTotalNs = u64 (nodes.map (·.workTotalNs)).sum
  workCount : out.workCount = u32 (nodes.map (·.workCount)).sum
  evalMaxNs : out.evalMaxNs = (nodes.map (·.evalMaxNs)).foldl max 0

/-- The sums are the true ones, and as many decisions permit or deny as there are. -/
structure SummaryExact (out : StatsSummary) (nodes : List NodeStats) : Prop where
  evaluations : out.evaluations = (nodes.map (·.evaluations)).sum
  permits : out.permits = (nodes.map (·.permits)).sum
  denies : out.denies = (nodes.map (·.denies)).sum
  healthBlocks : out.healthBlocks = (nodes.map (·.healthBlocks)).sum
  decided : out.evaluations = out.permits + out.denies

theorem isGreatest_foldl_max {ls : List Nat} (hne : ls ≠ []) :
    IsGreatest {l | l ∈ ls} (ls.foldl max 0) := by
  obtain ⟨hmem, hle⟩ := max?_eq_some_iff.mp (@max?_cons' Nat 0 _ ls)
  refine ⟨?_, fun l hl => hle l (mem_cons_of_mem _ hl)⟩
  rcases mem_cons.mp hmem with hzero | hmem
  · -- then every element is 0
    obtain ⟨l, hl⟩ := exists_mem_of_ne_nil ls hne
    have hl0 := hle l (mem_cons_of_mem _ hl)
    rw [hzero, Nat.le_zero] at hl0
    rw [hzero, ← hl0]
    exact hl
  · exact hmem

section

variable {s : State} {nodeId : Nat} {tr : List (Nat × Sample)}

theorem Follows.lookup (h : Follows tr s) (htable : Table s) (hmem : nodeId ∈ registered s) :
    statsLookup nodeId true s = (.ok, some (recordAll nodeId (samplesOf nodeId tr))) := by
  simp only [statsLookup, htable.ready, Bool.not_true, Bool.or_self, Bool.false_eq_true, if_false]
  cases hfind : findEntryLocked s nodeId with
  | none =>
    obtain ⟨e, he, hid⟩ := mem_map.mp hmem
    obtain ⟨he, hactive⟩ := mem_filter.mp he
    exact absurd hid ((findEntryLocked_none hfind).1 e he hactive)
  | some slot =>
    simp [h.stats slot nodeId (findEntryLocked_holder hfind)]

theorem Follows.nodeStats_eq (h : Follows tr s) (htable : Table s) :
    nodeStats s = (registered s).map fun n => recordAll n (samplesOf n tr) := by
  rw [nodeStats, ← filterMap_eq_map]
  refine filterMap_congr fun n hn => ?_
  rw [h.lookup htable hn]
  rfl

theorem foldl_add_summarizes (xs : List (Entry × NodeStats)) :
    Summarizes (xs.foldl StatsSummary.add ⟨0, 0, 0, 0, 0, 0, 0, 0⟩)
      ((xs.filter fun x => x.1.active).map Prod.snd) := by
  induction xs using List.reverseRecOn with
  | nil => exact ⟨rfl, rfl, rfl, rfl, rfl, rfl, rfl, rfl⟩
  | append_singleton xs x ih =>
    rw [foldl_append, filter_append, map_append]
    cases hactive : x.1.active with
    | false => simpa [StatsSummary.add, hactive] using ih
    | true =>
      constructor <;>
        simp only [foldl_cons, foldl_nil, StatsSummary.add, hactive, Bool.not_true,
          Bool.false_eq_true, if_false, filter_cons, filter_nil, if_true,
          map_cons, map_nil, map_append, sum_append, sum_singleton,
          length_append, length_singleton, foldl_append, ih.activeNodes,
          ih.evaluations, ih.permits, ih.denies, ih.healthBlocks, ih.workTotalNs, ih.workCount,
          ih.evalMaxNs, u32, u64]
      case evalMaxNs => split <;> omega
      all_goals omega

theorem Follows.summarizes (h : Follows tr s) (htable : Table s) :
    Summarizes (statsSummary s) (nodeStats s) := by
  have hzip : ((s.entries.zip s.stats).filter fun x => x.1.active).map Prod.snd = nodeStats s := by
    rw [h.nodeStats_eq htable, registered, map_map]
    exact map_snd_zip_live h.length fun i e he hactive => h.stats i e.nodeId ⟨e, he, hactive, rfl⟩
  rw [← hzip]
  exact foldl_add_summarizes _

theorem length_eq_decided (xs : List Sample) : xs.length =
    xs.countP (fun x => x.action = .permit) + xs.countP (fun x => !(x.action = .permit)) := by
  rw [length_eq_countP_add_countP fun x : Sample => decide (x.action = .permit)]
  simp

theorem recordAll_observed (xs : List Sample) : Observed (recordAll nodeId xs) xs := by
  obtain ⟨hevaluations, hpermits, hdenies, -⟩ := recordAll_counts nodeId xs
  refine ⟨?_, recordAll_total nodeId xs, ?_⟩
  · rw [hevaluations, hpermits, hdenies, length_eq_decided]
    simp only [u32]
    omega
  · intro hne
    rw [recordAll_max]
    exact isGreatest_foldl_max (by simpa [latencies] using hne)

theorem recordAll_exact (nodeId : Nat) {xs : List Sample} (hlen : xs.length < 2 ^ 32)
    (hdenied : ∀ x ∈ xs, x.healthBlock = true → x.action ≠ .permit) :
    Exact (recordAll nodeId xs) xs := by
  obtain ⟨hevaluations, hpermits, hdenies, hblocks⟩ := recordAll_counts nodeId xs
  have hdecided := length_eq_decided xs
  have hle : xs.countP (fun x => x.healthBlock) ≤ xs.countP (fun x => !(x.action = .permit)) := by
    refine countP_mono_left fun x hx hblock => ?_
    simpa using hdenied x hx hblock
  rw [u32_eq (by omega)] at hevaluations hpermits hdenies hblocks
  refine ⟨?_, ?_, ?_⟩
  · rw [hevaluations, hpermits, hdenies, hdecided]
  · rw [hblocks, hdenies]
    exact hle
  · intro hne
    obtain ⟨hmem, hleast⟩ := min?_eq_some_iff.mp (recordAll_min hlen hne)
    exact ⟨hmem, fun l hl => hleast l hl⟩

theorem sum_samplesOf_le {ids : List Nat} (hids : ids.Nodup) (tr : List (Nat × Sample)) :
    (ids.map fun n => (samplesOf n tr).length).sum ≤ tr.length := by
  induction ids generalizing tr with
  | nil => exact Nat.zero_le _
  | cons n ids ih =>
    obtain ⟨hn, hids⟩ := nodup_cons.mp hids
    -- the other nodes have theirs in the rest
    have hrest := ih hids (tr.filter fun x => !(x.1 = n))
    have hother : ids.map (fun m => (samplesOf m (tr.filter fun x => !(x.1 = n))).length) =
        ids.map fun m => (samplesOf m tr).length := by
      refine map_congr_left fun m hm => ?_
      have hne : m ≠ n := ne_of_mem_of_not_mem hm hn
      rw [samplesOf, samplesOf, filter_filter]
      congr 3
      funext x
      by_cases hx : x.1 = m <;> simp [hx, hne]
    rw [hother] at hrest
    rw [map_cons, sum_cons,
      length_eq_length_filter_add fun x : Nat × Sample => decide (x.1 = n)]
    rw [samplesOf, length_map]
    exact Nat.add_le_add_left hrest _

variable {out : StatsSummary} {nodes : List NodeStats}

theorem Summarizes.exact (h : Summarizes out nodes)
    (hnodes : ∀ st ∈ nodes, st.evaluations = st.permits + st.denies ∧ st.healthBlocks ≤ st.denies)
    (hlt : (nodes.map (·.evaluations)).sum < 2 ^ 32) : SummaryExact out nodes := by
  have hdecided : (nodes.map (·.evaluations)).sum =
      (nodes.map (·.permits)).sum + (nodes.map (·.denies)).sum := by
    rw [← sum_map_add]
    exact congrArg List.sum (map_congr_left fun st hst => (hnodes st hst).1)
  have hblocks : (nodes.map (·.healthBlocks)).sum ≤ (nodes.map (·.denies)).sum :=
    sum_le_sum fun st hst => (hnodes st hst).2
  have hevaluations := h.evaluations
  have hpermits := h.permits
  have hdenies := h.denies
  have hhealth := h.healthBlocks
  rw [u32_eq (by omega)] at hevaluations hpermits hdenies hhealth
  exact ⟨hevaluations, hpermits, hdenies, hhealth, by omega⟩

theorem Summarizes.decided (h : Summarizes out nodes)
    (hnodes : ∀ st ∈ nodes, st.evaluations = u32 (st.permits + st.denies)) :
    out.evaluations = u32 (out.permits + out.denies) := by
  have hsum : u32 (nodes.map (·.evaluations)).sum =
      u32 ((nodes.map (·.permits)).sum + (nodes.map (·.denies)).sum) := by
    have hmod : nodes.map (·.evaluations) =
        (nodes.map fun st => st.permits + st.denies).map (· % 2 ^ 32) := by
      rw [map_map]
      exact map_congr_left hnodes
    rw [← sum_map_add, u32, u32, hmod, ← sum_nat_mod]
  rw [h.evaluations, h.permits, h.denies, hsum]
  simp only [u32]
  omega

end

/-- Health that blocks risky requests of a gated node. -/
def unstable : Health.Summary := ⟨.unsafeLevel, 0, 0, 0, 0, 0, 0, false, false⟩

/-- Two nodes that may do risky I/O, gated by health. -/
def twoNodes : List Call :=
  [.register 1 (some "io") NODEBIT_CAP_RISKY_IO true,
   .register 2 (some "net") NODEBIT_CAP_RISKY_IO true]

/-- Along every run of the gate, for every node of the table, the statistics that are looked up are
about the decisions of the node: the maximum is the greatest latency, the total is the sum of the
latencies modulo `2 ^ 64`, and the evaluations are the permissions and denials modulo `2 ^ 32`; the
summary adds up the counters of the nodes, with the same equation, and has the greatest maximum.
If fewer than `2 ^ 32` evaluations were made, the equations hold without the modulus, no more
decisions are blocked by health than deny, and the minimum is the least latency. -/
theorem stats_follow_decisions (calls : List Call) :
    let s := (run calls init).2
    let tr := trace calls init
    (∀ nodeId ∈ registered s, ∃ st, statsLookup nodeId true s = (.ok, some st) ∧
      Observed st (samplesOf nodeId tr) ∧
      (calls.countP Call.isEvaluate < 2 ^ 32 → Exact st (samplesOf nodeId tr))) ∧
    Summarizes (statsSummary s) (nodeStats s) ∧
    (statsSummary s).evaluations = u32 ((statsSummary s).permits + (statsSummary s).denies) ∧
    (calls.countP Call.isEvaluate < 2 ^ 32 → SummaryExact (statsSummary s) (nodeStats s)) := by
  intro s tr
  have htable : Table s := (run_refines calls table_init).1
  have hfollows : Follows tr s := follows_init.run calls table_init
  have hlength := length_trace_le calls init
  have hexact : calls.countP Call.isEvaluate < 2 ^ 32 → ∀ nodeId,
      Exact (recordAll nodeId (samplesOf nodeId tr)) (samplesOf nodeId tr) := by
    intro hlt nodeId
    refine recordAll_exact nodeId ?_ ?_
    · rw [samplesOf, length_map]
      exact ((length_filter_le _ _).trans hlength).trans_lt hlt
    · intro x hx
      obtain ⟨y, hy, rfl⟩ := mem_map.mp hx
      exact hfollows.denied y (mem_filter.mp hy).1
  have hsummary := hfollows.summarizes htable
  have hnodes := hfollows.nodeStats_eq htable
  refine ⟨?_, hsummary, ?_, ?_⟩
  · intro nodeId hmem
    exact ⟨_, hfollows.lookup htable hmem, recordAll_observed _, fun hlt => hexact hlt nodeId⟩
  · refine hsummary.decided ?_
    rw [hnodes]
    intro st hst
    obtain ⟨n, -, rfl⟩ := mem_map.mp hst
    exact (recordAll_observed _).evaluations
  · intro hlt
    refine hsummary.exact ?_ ?_
    · rw [hnodes]
      intro st hst
      obtain ⟨n, -, rfl⟩ := mem_map.mp hst
      exact ⟨(hexact hlt n).evaluations, (hexact hlt n).healthBlocks⟩
    · rw [hnodes, map_map]
      refine (le_trans ?_ hlength).trans_lt hlt
      refine (sum_le_sum fun n _ => ?_).trans (sum_samplesOf_le htable.distinct tr)
      rw [Function.comp_apply, (recordAll_counts _ _).1]
      exact Nat.mod_le _ _

/-- A blocked and a permitted request, four and two nanoseconds long. -/
theorem stats_follow_decisions_twoNodes :
    let calls := twoNodes ++ [.evaluate 1 NODEBIT_CAP_RISKY_IO true unstable 10 14,
      .evaluate 1 0 true unstable 20 22]
    calls.countP Call.isEvaluate < 2 ^ 32 ∧
    (∃ st, statsLookup 1 true (run calls init).2 = (.ok, some st) ∧
      Exact st [⟨.deny, true, 10, 14⟩, ⟨.permit, false, 20, 22⟩]) ∧
    SummaryExact (statsSummary (run calls init).2) (nodeStats (run calls init).2) := by
  intro calls
  obtain ⟨hnodes, -, -, hsummary⟩ := stats_follow_decisions calls
  obtain ⟨st, hlookup, -, hexact⟩ := hnodes 1 (by decide)
  exact ⟨by decide, ⟨st, hlookup, hexact (by decide)⟩, hsummary (by decide)⟩

/-! ## Past the wrap -/

theorem decisionOf_stats (c : Call) (s : State) (stats : List NodeStats) :
    decisionOf c { s with stats := stats } = decisionOf c s := by
  cases c with
  | register | updateCaps => rfl
  | evaluate nodeId caps hasOut health startNs endNs =>
    have hsame : (evaluate nodeId caps hasOut health startNs endNs { s with stats := stats }).1 =
        (evaluate nodeId caps hasOut health startNs endNs s).1 := by
      simp only [evaluate, findEntryLocked]
      split
      · rfl
      split <;> rfl
    simp only [decisionOf, hsame]

/-- Evaluations leave the table alone, so each decides as it would in the beginning. -/
theorem run_evaluations {calls : List Call} (h : ∀ c ∈ calls, c.isEvaluate = true) (s : State) :
    trace calls s = calls.flatMap (decisionOf · s) ∧ (run calls s).2.entries = s.entries := by
  induction calls generalizing s with
  | nil => exact ⟨rfl, rfl⟩
  | cons c calls ih =>
    obtain ⟨hc, hcalls⟩ := forall_mem_cons.mp h
    obtain ⟨htrace, hentries⟩ := ih hcalls (exec c s).2
    cases c with
    | register | updateCaps => cases hc
    | evaluate nodeId caps hasOut health startNs endNs =>
      obtain ⟨stats, hs⟩ := evaluate_state s nodeId caps hasOut health startNs endNs
      have hexec : (exec (.evaluate nodeId caps hasOut health startNs endNs) s).2 =
          { s with stats := stats } := hs
      rw [hexec] at htrace hentries
      refine ⟨?_, ?_⟩
      · rw [trace, hexec, htrace, flatMap_cons]
        simp only [decisionOf_stats]
      · rw [← hentries, ← hexec]
        rfl

/-- Three requests of the first node that health blocks, `n` that it denies and `n` that it permits;
then `n` of the second that it denies. -/
def requests (n : Nat) : List Call :=
  List.replicate 3 (.evaluate 1 NODEBIT_CAP_RISKY_IO true unstable 0 1) ++
  List.replicate n (.evaluate 1 NODEBIT_CAP_PIPELINE true unstable 0 2) ++
  List.replicate n (.evaluate 1 0 true unstable 0 3) ++
  List.replicate n (.evaluate 2 NODEBIT_CAP_PIPELINE true unstable 0 4)

theorem requests_evaluate (n : Nat) : ∀ c ∈ requests n, c.isEvaluate = true := by
  intro c hc
  simp only [requests, mem_append, mem_replicate] at hc
  rcases hc with ((⟨-, rfl⟩ | ⟨-, rfl⟩) | ⟨-, rfl⟩) | ⟨-, rfl⟩ <;> rfl

def firstSamples (n : Nat) : List Sample :=
  List.replicate 3 ⟨.deny, true, 0, 1⟩ ++ List.replicate n ⟨.deny, false, 0, 2⟩ ++
  List.replicate n ⟨.permit, false, 0, 3⟩

/-- Those of the second. -/
def secondSamples (n : Nat) : List Sample := List.replicate n ⟨.deny, false, 0, 4⟩

theorem trace_requests (n : Nat) : trace (twoNodes ++ requests n) init =
    (firstSamples n).map (Prod.mk 1) ++ (secondSamples n).map (Prod.mk 2) := by
  show trace (requests n) (run twoNodes init).2 = _
  have hblocked : decisionOf (.evaluate 1 NODEBIT_CAP_RISKY_IO true unstable 0 1)
      (run twoNodes init).2 = [(1, ⟨.deny, true, 0, 1⟩)] := by decide
  have hdenied : decisionOf (.evaluate 1 NODEBIT_CAP_PIPELINE true unstable 0 2)
      (run twoNodes init).2 = [(1, ⟨.deny, false, 0, 2⟩)] := by decide
  have hpermitted : decisionOf (.evaluate 1 0 true unstable 0 3)
      (run twoNodes init).2 = [(1, ⟨.permit, false, 0, 3⟩)] := by decide
  have hsecond : decisionOf (.evaluate 2 NODEBIT_CAP_PIPELINE true unstable 0 4)
      (run twoNodes init).2 = [(2, ⟨.deny, false, 0, 4⟩)] := by decide
  rw [(run_evaluations (requests_evaluate n) _).1]
  simp only [requests, firstSamples, secondSamples, flatMap_append, flatMap_replicate,
    hblocked, hdenied, hpermitted, hsecond, flatten_replicate_singleton, map_append,
    map_replicate]

theorem samplesOf_requests (n : Nat) :
    samplesOf 1 (trace (twoNodes ++ requests n) init) = firstSamples n ∧
      samplesOf 2 (trace (twoNodes ++ requests n) init) = secondSamples n := by
  rw [trace_requests]
  simp [samplesOf, filter_map, Function.comp_def]

theorem registered_requests (n : Nat) :
    registered (run (twoNodes ++ requests n) init).2 = [1, 2] := by
  rw [run_append, registered, (run_evaluations (requests_evaluate n) _).2]
  decide

theorem recordAll_firstSamples (n : Nat) :
    (recordAll 1 (firstSamples n)).evaluations = u32 (3 + n + n) ∧
    (recordAll 1 (firstSamples n)).permits = u32 n ∧
    (recordAll 1 (firstSamples n)).denies = u32 (3 + n) ∧
    (recordAll 1 (firstSamples n)).healthBlocks = 3 := by
  obtain ⟨hevaluations, hpermits, hdenies, hblocks⟩ := recordAll_counts 1 (firstSamples n)
  rw [hevaluations, hpermits, hdenies, hblocks]
  simp only [firstSamples, length_append, length_replicate, countP_append,
    countP_replicate]
  exact ⟨trivial, by simp, by simp, by simp [u32]⟩

theorem recordAll_secondSamples (n : Nat) : (recordAll 2 (secondSamples n)).evaluations = u32 n ∧
    (recordAll 2 (secondSamples n)).permits = 0 ∧
    (recordAll 2 (secondSamples n)).denies = u32 n := by
  obtain ⟨hevaluations, hpermits, hdenies, -⟩ := recordAll_counts 2 (secondSamples n)
  rw [hevaluations, hpermits, hdenies]
  simp only [secondSamples, length_replicate, countP_replicate]
  exact ⟨trivial, by simp [u32], by simp⟩

theorem recordAll_min_wrapped (nodeId : Nat) {xs : List Sample} (x : Sample)
    (h : u32 (xs.length + 1) = 1) : (recordAll nodeId (xs ++ [x])).evalMinNs = x.latencyNs := by
  rw [recordAll_snoc]
  simp [NodeStats.record, (recordAll_counts nodeId xs).1, u32_succ, h, Sample.latencyNs]

/-- After more than `2 ^ 32` evaluations the counters have wrapped: the evaluations are not the sum
of permissions and denials, more decisions were blocked by health than deny, the minimum is not the
least latency, and the summary's counters are not the sums of those of the nodes. -/
theorem counters_wrap : ∃ calls st, calls.countP Call.isEvaluate < 2 ^ 64 ∧
    statsLookup 1 true (run calls init).2 = (.ok, some st) ∧
    st.evaluations ≠ st.permits + st.denies ∧ st.denies < st.healthBlocks ∧
    ¬IsLeast {l | l ∈ latencies (samplesOf 1 (trace calls init))} st.evalMinNs ∧
    (statsSummary (run calls init).2).denies ≠ ((nodeStats (run calls init).2).map (·.denies)).sum ∧
    (statsSummary (run calls init).2).evaluations ≠
      (statsSummary (run calls init).2).permits + (statsSummary (run calls init).2).denies := by
  obtain ⟨n, hn⟩ : ∃ n, n + 2 = 2 ^ 32 := ⟨4294967294, rfl⟩
  have htable := (run_refines (twoNodes ++ requests (n + 1)) table_init).1
  have hfollows := follows_init.run (twoNodes ++ requests (n + 1)) table_init
  have hregistered := registered_requests (n + 1)
  obtain ⟨hfirst, hsecond⟩ := samplesOf_requests (n + 1)
  rw [nil_append] at hfollows
  have hlookup := hfollows.lookup htable (hregistered ▸ mem_cons_self)
  have hsummary := hfollows.summarizes htable
  have hnodes := hfollows.nodeStats_eq htable
  rw [hregistered, map_cons, map_singleton, hfirst, hsecond] at hnodes
  rw [hfirst] at hlookup
  rw [hnodes] at hsummary
  obtain ⟨hevaluations, hpermits, hdenies, hblocks⟩ := recordAll_firstSamples (n + 1)
  obtain ⟨hevaluations', hpermits', hdenies'⟩ := recordAll_secondSamples (n + 1)
  have hsevaluations := hsummary.evaluations
  have hspermits := hsummary.permits
  have hsdenies := hsummary.denies
  simp only [map_cons, map_nil, sum_cons, sum_nil, hevaluations, hpermits,
    hdenies, hevaluations', hpermits', hdenies', u32] at hsevaluations hspermits hsdenies
  refine ⟨twoNodes ++ requests (n + 1), _, ?_, hlookup, ?_, ?_, ?_, ?_, ?_⟩
  · rw [countP_append, countP_eq_length.mpr (requests_evaluate (n + 1))]
    have hregister : twoNodes.countP Call.isEvaluate = 0 := rfl
    simp only [requests, length_append, length_replicate]
    omega
  · simp only [hevaluations, hpermits, hdenies, u32]
    omega
  · simp only [hdenies, hblocks, u32]
    omega
  · rw [hfirst]
    intro hleast
    have hone : 1 ∈ latencies (firstSamples (n + 1)) := by
      simp [latencies, firstSamples, Sample.latencyNs, sub64]
    have hmin : (recordAll 1 (firstSamples (n + 1))).evalMinNs = 3 := by
      have hlast := @replicate_succ' n Sample ⟨.permit, false, 0, 3⟩
      rw [firstSamples, hlast, ← append_assoc]
      refine recordAll_min_wrapped 1 _ ?_
      simp only [length_append, length_replicate, u32]
      omega
    have hle := hleast.2 hone
    omega
  · rw [hsdenies, hnodes]
    simp only [map_cons, map_nil, sum_cons, sum_nil, hdenies, hdenies', u32]
    omega
  · omega

end AiosKernel.Nodebit
