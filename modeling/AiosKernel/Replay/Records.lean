/-
# `AiosKernel.Replay.Records` — the records of a clean trace

What phases 3 and 4 guarantee when they find nothing: every record is an
object, all but the last are events, and the last is the terminal.  `Reads`
says what trace such records are, and `passes_iff` that a trace passes just if
these phases find nothing and its replay reaches the terminal's summary.
-/
import AiosKernel.Replay.Lifetime

namespace AiosKernel.Replay

open Py List

/-! ## Records that phase 3 lets through -/

variable {d : Dict} {α : Type} {test : α → Bool} {xs : List α} {line : Nat} {t : TerminalRow}
  {executed : Bool}

theorem isEvent_obj :
    isEvent (.obj d) = true ↔ getField d "record_type" = some (.str (lit "event")) := by
  simp only [isEvent]
  cases getField d "record_type" with
  | none => simp
  | some value => cases value <;> simp

theorem isTerminal_obj :
    isTerminal (.obj d) = true ↔ getField d "record_type" = some (.str (lit "terminal")) := by
  simp only [isTerminal]
  cases getField d "record_type" with
  | none => simp
  | some value => cases value <;> simp

variable {interp : Interpreter} {records : List Json} {dicts : List Dict} {last : Dict}
  {record : Json} {n : Nat} {s : ReplayState} {p : Progress} {tr : Trace} {raw : List UInt8}

theorem isEvent_of_isTerminal (h : isTerminal record = true) : isEvent record = false := by
  cases record with
  | obj d =>
    rw [isTerminal_obj] at h
    simp only [isEvent, h]
    decide
  | null | bool | int | float | str | arr => rfl

theorem isTerminal_of_isEvent (h : isEvent record = true) : isTerminal record = false := by
  cases hterminal : isTerminal record with
  | false => rfl
  | true =>
    rw [isEvent_of_isTerminal hterminal] at h
    cases h

theorem recordFailures_eq_nil (h : recordFailures interp record = []) :
    ∃ d, record = .obj d ∧ (isEvent record = true ∨ isTerminal record = true) := by
  cases record with
  | obj d =>
    refine ⟨d, rfl, ?_⟩
    unfold recordFailures at h
    simp only at h
    split at h
    · cases h
    · rename_i recordType hd
      rw [isEvent_obj, isTerminal_obj, hd]
      unfold schemaOf at h
      by_cases hevent : recordType = lit "event"
      · exact .inl (by rw [hevent])
      · by_cases hterminal : recordType = lit "terminal"
        · exact .inr (by rw [hterminal])
        · simp [hevent, hterminal] at h
    · cases h
  | null | bool | int | float | str | arr => cases h

theorem mem_of_phaseShape_eq_nil (h : phaseShape interp records = []) (hmem : record ∈ records) :
    recordFailures interp record = [] := by
  obtain ⟨i, hi, rfl⟩ := getElem_of_mem hmem
  have hpair : (records[i], i + 1) ∈ records.zipIdx 1 := by
    rw [Nat.add_comm]
    exact mk_add_mem_zipIdx_iff_getElem?.mpr (getElem?_eq_getElem hi)
  have hnil := flatMap_eq_nil_iff.mp h _ hpair
  exact map_eq_nil_iff.mp hnil

/-! ## The terminal -/

theorem filter_zipIdx_eq_nil :
    (xs.zipIdx n).filter (fun x => test x.1) = [] ↔ ∀ x ∈ xs, test x = false := by
  induction xs generalizing n with
  | nil => simp
  | cons x xs ih =>
    cases hx : test x with
    | true => simp [hx]
    | false => simp [hx, ih]

theorem filter_zipIdx_singleton {x : α}
    (h : (xs.zipIdx n).filter (fun y => test y.1) = [(x, n + xs.length - 1)]) :
    ∃ ys, xs = ys ++ [x] ∧ (∀ y ∈ ys, test y = false) ∧ test x = true := by
  induction xs generalizing n with
  | nil => simp at h
  | cons y xs ih =>
    rw [zipIdx_cons] at h
    cases hy : test y with
    | true =>
      simp only [filter_cons, hy, if_true, List.cons.injEq, Prod.mk.injEq] at h
      obtain ⟨⟨rfl, hn⟩, hrest⟩ := h
      have hxs : xs = [] := by
        rw [length_cons] at hn
        exact length_eq_zero_iff.mp (by omega)
      exact ⟨[], by simp [hxs], by simp, hy⟩
    | false =>
      simp only [filter_cons, hy, Bool.false_eq_true, if_false] at h
      have hn : n + (y :: xs).length - 1 = n + 1 + xs.length - 1 := by
        rw [length_cons]
        omega
      rw [hn] at h
      obtain ⟨ys, rfl, hys, hx⟩ := ih h
      exact ⟨y :: ys, rfl, forall_mem_cons.mpr ⟨hy, hys⟩, hx⟩

theorem terminalFailures_eq_nil (h : terminalFailures records = []) :
    ∃ init last, records = init ++ [last] ∧ (∀ record ∈ init, isTerminal record = false) ∧
      isTerminal last = true := by
  unfold terminalFailures at h
  split at h
  · cases h
  · rename_i first row others hfilter
    obtain ⟨hothers, hrow⟩ := append_eq_nil_iff.mp h
    have hnone : others = [] := by
      cases others with
      | nil => rfl
      | cons other others => cases hothers
    have hlast : row = records.length := by
      by_contra hne
      simp [hne] at hrow
    rw [hnone, hlast] at hfilter
    have hfilter' : (records.zipIdx 1).filter (fun x => isTerminal x.1) =
        [(first, 1 + records.length - 1)] := by
      rw [Nat.add_sub_cancel_left]
      exact hfilter
    obtain ⟨init, hinit, hothers, hfirst⟩ := filter_zipIdx_singleton hfilter'
    exact ⟨init, first, hinit, hothers, hfirst⟩

/-! ## Reading the records -/

/-- A trace: its events with their lines, and its terminal. -/
structure Trace where
  events : List (Nat × EventRow)
  terminal : TerminalRow

def EventAt (object : Dict × Nat) (e : Nat × EventRow) : Prop :=
  e.1 = object.2 ∧ readEvent object.1 = .ok e.2

/-- The records are the events of the trace, numbered from line 1, and its terminal. -/
structure Reads (records : List Json) (tr : Trace) (dicts : List Dict) (last : Dict) : Prop where
  records : records = dicts.map Json.obj ++ [.obj last]
  areEvents : ∀ d ∈ dicts, isEvent (.obj d) = true
  isLast : isTerminal (.obj last) = true
  events : List.Forall₂ EventAt (dicts.zipIdx 1) tr.events
  terminal : readTerminal last = .ok tr.terminal

theorem objects_all {test : Json → Bool} (h : ∀ d ∈ dicts, test (.obj d) = true) :
    ((dicts.map Json.obj).zipIdx n).filterMap (objectIf test) = (dicts.zipIdx n).map Prod.swap := by
  induction dicts generalizing n with
  | nil => rfl
  | cons d dicts ih =>
    have hd : test (.obj d) = true := h d mem_cons_self
    have hrest := ih (n := n + 1) fun e he => h e (mem_cons_of_mem d he)
    simp only [map_cons, zipIdx_cons, filterMap_cons, objectIf, hd, if_true, hrest]
    rfl

theorem objects_none {test : Json → Bool} (h : ∀ d ∈ dicts, test (.obj d) = false) :
    ((dicts.map Json.obj).zipIdx n).filterMap (objectIf test) = [] := by
  refine filterMap_eq_nil_iff.mpr ?_
  rintro ⟨j, k⟩ hj
  obtain ⟨d, hd, rfl⟩ := mem_map.mp (fst_mem_of_mem_zipIdx hj)
  simp [objectIf, h d hd]

section

variable (hevents : ∀ d ∈ dicts, isEvent (.obj d) = true) (hlast : isTerminal (.obj last) = true)
include hevents hlast

theorem objectsWhere_isEvent :
    objectsWhere isEvent (dicts.map Json.obj ++ [.obj last]) = (dicts.zipIdx 1).map Prod.swap := by
  unfold objectsWhere
  rw [zipIdx_append, filterMap_append, objects_all hevents]
  simp [objectIf, isEvent_of_isTerminal hlast]

theorem objectsWhere_isTerminal :
    objectsWhere isTerminal (dicts.map Json.obj ++ [.obj last]) = [(1 + dicts.length, last)] := by
  have hnone : ∀ d ∈ dicts, isTerminal (.obj d) = false := fun d hd =>
    isTerminal_of_isEvent (hevents d hd)
  unfold objectsWhere
  rw [zipIdx_append, filterMap_append, objects_none hnone]
  simp [objectIf, hlast]

end

theorem readEvents_eq_ok {objects : List (Dict × Nat)} {events : List (Nat × EventRow)} :
    readEvents (objects.map Prod.swap) = .ok events ↔ List.Forall₂ EventAt objects events := by
  induction objects generalizing events with
  | nil =>
    constructor
    · intro h
      cases h
      exact .nil
    · intro h
      cases h
      rfl
  | cons object objects ih =>
    obtain ⟨d, line⟩ := object
    show readEvents ((line, d) :: objects.map Prod.swap) = _ ↔ _
    rw [readEvents]
    constructor
    · intro h
      cases hd : readEvent d with
      | error e => simp [hd, bind, Except.bind] at h
      | ok r =>
        cases hrest : readEvents (objects.map Prod.swap) with
        | error e => simp [hd, hrest, bind, Except.bind] at h
        | ok rows =>
          simp only [hd, hrest, bind, Except.bind, Except.ok.injEq] at h
          subst h
          exact .cons ⟨rfl, hd⟩ (ih.mp hrest)
    · intro h
      cases h with
      | @cons _ e _ rows hat hrest =>
        obtain ⟨hline, hd⟩ := hat
        obtain ⟨line', r⟩ := e
        cases hline
        simp [show readEvent d = .ok r from hd, ih.mpr hrest, bind, Except.bind]

/-! ## The terminal of a replay -/

/-- The terminal says what the replay found. -/
structure TerminalMatches (t : TerminalRow) (s : ReplayState) (p : Progress) : Prop where
  hostInstance : u64 t.hostInstance = s.hostInstance
  producerInstance : u64 t.producerInstance = s.producerInstance
  acceptedCount : t.acceptedCount = p.acceptedCount
  rejectedCount : t.rejectedCount = p.rejectedCount
  finalState : t.finalState = s.replayState
  finalBindingGeneration : t.finalBindingGeneration = dec s.bindingGeneration

/-- What the replay found, next to the sequence number of a terminal. -/
def summaryOf (t : TerminalRow) (s : ReplayState) (p : Progress) : Summary :=
  ⟨p.acceptedCount, p.rejectedCount, s.replayState, dec s.bindingGeneration, t.sequence⟩

theorem checkTerminal_of_matches (h : TerminalMatches t s p) :
    checkTerminal interp line t s p = .inr (summaryOf t s p) := by
  simp [checkTerminal, summaryOf, h.hostInstance, h.producerInstance, h.acceptedCount,
    h.rejectedCount, h.finalState, h.finalBindingGeneration]

theorem checkTerminal_eq_inr :
    (∃ summary, checkTerminal interp line t s p = .inr summary) ↔ TerminalMatches t s p := by
  constructor
  · rintro ⟨summary, h⟩
    simp only [checkTerminal, ite_eq_iff, reduceCtorEq, and_false, false_or, ne_eq, not_not] at h
    obtain ⟨hhost, hproducer, haccepted, hrejected, hfinal, hgeneration, -⟩ := h
    exact ⟨hhost, hproducer, haccepted, hrejected, hfinal, hgeneration⟩
  · intro h
    exact ⟨_, checkTerminal_of_matches h⟩

/-! ## Passing -/

theorem Reads.rows (h : Reads records tr dicts last) :
    readEvents ((dicts.zipIdx 1).map Prod.swap) = .ok tr.events := readEvents_eq_ok.mpr h.events

theorem Reads.phaseSemantic_eq (h : Reads records tr dicts last)
    (hp : progressAfter tr.events = some p) (hs : p.state = some s) :
    phaseSemantic interp records =
      .ok (checkTerminal interp (1 + dicts.length) tr.terminal s p) := by
  have hreplay := progressAfter_eq_some.mp hp
  have hne : tr.events ≠ [] := by
    intro hnil
    rw [hnil] at hp
    cases hp
    cases hs
  unfold Replay.phaseSemantic
  rw [h.records, objectsWhere_isEvent h.areEvents h.isLast,
    objectsWhere_isTerminal h.areEvents h.isLast, h.rows]
  simp [bind, Except.bind, h.terminal, hne, hreplay, hs]

theorem Reads.phaseSemantic (h : Reads records tr dicts last) :
    (∃ summary, phaseSemantic interp records = .ok (.inr summary)) ↔
      ∃ p s, progressAfter tr.events = some p ∧ p.state = some s ∧
        TerminalMatches tr.terminal s p := by
  constructor
  · rintro ⟨summary, hsem⟩
    unfold Replay.phaseSemantic at hsem
    rw [h.records, objectsWhere_isEvent h.areEvents h.isLast,
      objectsWhere_isTerminal h.areEvents h.isLast, h.rows] at hsem
    simp only [bind, Except.bind, h.terminal] at hsem
    split at hsem
    · cases hsem
    cases hreplay : replayEvents .start tr.events with
    | error e => simp [hreplay] at hsem
    | ok result =>
      cases result with
      | inl failure => simp [hreplay] at hsem
      | inr p =>
        cases hstate : p.state with
        | none => simp [hreplay, hstate] at hsem
        | some s =>
          simp only [hreplay, hstate, Except.ok.injEq] at hsem
          exact ⟨p, s, progressAfter_eq_some.mpr hreplay, hstate,
            checkTerminal_eq_inr.mp ⟨summary, hsem⟩⟩
  · rintro ⟨p, s, hp, hs, hmatches⟩
    exact ⟨_, by rw [h.phaseSemantic_eq hp hs, checkTerminal_of_matches hmatches]⟩

section

variable (hshape : phaseShape interp records = []) (hterminal : terminalFailures records = [])
include hshape hterminal

/-- Clean records are objects: events, and a terminal at the end. -/
theorem records_of_clean :
    ∃ (dicts : List Dict) (last : Dict), records = dicts.map Json.obj ++ [.obj last] ∧
      (∀ d ∈ dicts, isEvent (.obj d) = true) ∧ isTerminal (.obj last) = true := by
  obtain ⟨init, final, hsplit, hinit, hfinal⟩ := terminalFailures_eq_nil hterminal
  have hobj : ∀ record ∈ records, ∃ d, record = Json.obj d ∧
      (isEvent record = true ∨ isTerminal record = true) := fun record hmem =>
    recordFailures_eq_nil (mem_of_phaseShape_eq_nil hshape hmem)
  obtain ⟨last, rfl, -⟩ := hobj final (by simp [hsplit])
  have hdicts : init ∈ Set.range (List.map Json.obj) := by
    rw [Set.range_list_map]
    intro record hmem
    obtain ⟨d, hd, -⟩ := hobj record (hsplit ▸ mem_append_left _ hmem)
    exact ⟨d, hd.symm⟩
  obtain ⟨dicts, rfl⟩ := hdicts
  have hevents : ∀ d ∈ dicts, isEvent (.obj d) = true := by
    intro d hd
    have hmem : Json.obj d ∈ dicts.map Json.obj := mem_map_of_mem hd
    obtain ⟨_, -, hkind⟩ := hobj (.obj d) (hsplit ▸ mem_append_left _ hmem)
    exact hkind.resolve_right (by simp [hinit _ hmem])
  exact ⟨dicts, last, hsplit, hevents, hfinal⟩

theorem reads_of_clean {result : Failure ⊕ Summary}
    (hsem : phaseSemantic interp records = .ok result) :
    ∃ tr dicts last, Reads records tr dicts last := by
  obtain ⟨dicts, last, hsplit, hevents, hfinal⟩ := records_of_clean hshape hterminal
  unfold phaseSemantic at hsem
  rw [hsplit, objectsWhere_isEvent hevents hfinal, objectsWhere_isTerminal hevents hfinal] at hsem
  cases hrows : readEvents ((dicts.zipIdx 1).map Prod.swap) with
  | error e => simp [hrows, bind, Except.bind] at hsem
  | ok events =>
    cases hread : readTerminal last with
    | error e => simp [hrows, hread, bind, Except.bind] at hsem
    | ok terminal =>
      exact ⟨⟨events, terminal⟩, dicts, last, hsplit, hevents, hfinal,
        readEvents_eq_ok.mp hrows, hread⟩

end

theorem verdictOf_passed {failures : List Failure} {summary : Option Summary} :
    (verdictOf records failures summary executed).passed = failures.isEmpty := by
  show (failures.mergeSort failureLe).isEmpty = _
  rw [Bool.eq_iff_iff, List.isEmpty_iff, List.isEmpty_iff, ← List.length_eq_zero_iff,
    ← List.length_eq_zero_iff, List.length_mergeSort]

theorem verdictOf_final {summary : Summary} :
    (verdictOf records [] (some summary) executed).finalState = some summary.finalState ∧
      (verdictOf records [] (some summary) executed).finalBindingGeneration =
        some summary.finalBindingGeneration := by
  simp [verdictOf]

theorem verifyTraceBytes_passed :
    (∃ v, verifyTraceBytes interp raw = .ok v ∧ v.passed = true) ↔
      earlyFailures interp raw = [] ∧
        ∃ summary, phaseSemantic interp (recordsOf interp raw) = .ok (.inr summary) := by
  unfold verifyTraceBytes
  simp only
  constructor
  · rintro ⟨v, hv, hpassed⟩
    split at hv
    · rename_i hclean
      refine ⟨isEmpty_iff.mp hclean, ?_⟩
      split at hv
      · cases hv
      · cases hv
        rw [verdictOf_passed] at hpassed
        cases hpassed
      · rename_i summary hsem
        exact ⟨summary, hsem⟩
    · rename_i hclean
      cases hv
      rw [verdictOf_passed] at hpassed
      exact absurd hpassed hclean
  · rintro ⟨hclean, summary, hsem⟩
    refine ⟨verdictOf (recordsOf interp raw) [] (some summary) true, by simp [hclean, hsem], ?_⟩
    rw [verdictOf_passed]
    rfl

/-- A trace passes if its early phases find nothing and its records are a trace whose replay
ends with what the terminal says. -/
theorem passes_iff :
    (∃ v, verifyTraceBytes interp raw = .ok v ∧ v.passed = true) ↔
      earlyFailures interp raw = [] ∧
        ∃ tr dicts last, Reads (recordsOf interp raw) tr dicts last ∧
          ∃ p s, progressAfter tr.events = some p ∧ p.state = some s ∧
            TerminalMatches tr.terminal s p := by
  rw [verifyTraceBytes_passed]
  refine and_congr_right fun hclean => ?_
  constructor
  · rintro ⟨summary, hsem⟩
    have hparts := hclean
    simp only [earlyFailures, phaseEnvelope, append_eq_nil_iff] at hparts
    obtain ⟨tr, dicts, last, hreads⟩ := reads_of_clean hparts.1.2 hparts.2.2 hsem
    exact ⟨tr, dicts, last, hreads, hreads.phaseSemantic.mp ⟨summary, hsem⟩⟩
  · rintro ⟨tr, dicts, last, hreads, hreplay⟩
    exact hreads.phaseSemantic.mpr hreplay

theorem Reads.verdict (h : Reads (recordsOf interp raw) tr dicts last)
    (hclean : earlyFailures interp raw = []) (hp : progressAfter tr.events = some p)
    (hs : p.state = some s) (ht : TerminalMatches tr.terminal s p) :
    verifyTraceBytes interp raw =
      .ok (verdictOf (recordsOf interp raw) [] (some (summaryOf tr.terminal s p)) true) := by
  simp [verifyTraceBytes, hclean, h.phaseSemantic_eq hp hs, checkTerminal_of_matches ht]

end AiosKernel.Replay
