/-
# `AiosKernel.Replay.Stutter` — an expected rejection can be left out

A rejection that a trace has to claim leaves the replay where it was.  So a
passing trace still passes without it, once the records after it are renumbered
and the terminal counts one record and one rejection less, and it ends in the
same state with the same binding generation.
-/
import AiosKernel.Replay.Edit

namespace AiosKernel.Replay

open Py List

/-! ## Replaying without the event -/

def Progress.reject (p : Progress) : Progress := { p with rejectedCount := p.rejectedCount + 1 }

variable {d : Dict} {r : EventRow} {tr : Trace} {p : Progress} {records : List Json}
  {dicts : List Dict}

theorem Progress.Move.of_reject {p q : Progress} (h : p.reject.Move r q) (x : Option Int) :
    ∃ q', p.Move { r with sequence := x } q' ∧ q = q'.reject := by
  cases h with
  | accepted sane outcome reason accepts =>
    refine ⟨_, .accepted ⟨sane.native, sane.instances⟩ outcome reason ?_, rfl⟩
    rw [← transitionForEvent_eq_accept] at accepts ⊢
    exact accepts
  | @rejected s sane outcome reason state stale =>
    refine ⟨_, .rejected ⟨sane.native, sane.instances⟩ outcome reason state ?_, rfl⟩
    obtain ⟨detail, htransition⟩ := stale.transition
    have hmoved : transitionForEvent { r with sequence := x } (some s) = .stale detail :=
      htransition
    obtain ⟨_, hsame, hstale⟩ := transitionForEvent_eq_stale hmoved
    cases hsame
    exact hstale

theorem replayEvents_of_reject {after after' : List (Nat × EventRow)}
    (hsame : List.Forall₂ Renumbered after after') {p q : Progress}
    (h : replayEvents p.reject after = .ok (.inr q)) :
    ∃ q', replayEvents p after' = .ok (.inr q') ∧ q = q'.reject := by
  induction hsame generalizing p with
  | nil =>
    cases h
    exact ⟨p, rfl, rfl⟩
  | @cons e e' after after' he _ ih =>
    obtain ⟨line', r'⟩ := e'
    obtain ⟨x, rfl⟩ := he
    obtain ⟨m, hmove, hrest⟩ := replayEvents_cons.mp h
    obtain ⟨m', hmove', rfl⟩ := hmove.of_reject x
    obtain ⟨q', hq', hq⟩ := ih hrest
    exact ⟨q', replayEvents_cons.mpr ⟨m', hmove', hq'⟩, hq⟩

/-! ## What the rows say about the records -/

/-- The fields of an event that the edit needs, as the replay reads them. -/
structure ReadsFields (d : Dict) (r : EventRow) : Prop where
  outcome : itemEnum Outcome.text outcomes d "claimed_outcome" = .ok r.claimedOutcome
  canonicalNamespace : itemStr d "canonical_namespace" = .ok r.canonicalNamespace
  canonicalKind : itemStr d "canonical_kind" = .ok r.canonicalKind
  sourceNamespace : itemStr d "source_namespace" = .ok r.sourceNamespace
  sourceKind : itemStr d "source_kind" = .ok r.sourceKind
  sourceRole : itemStr d "source_role" = .ok r.sourceRole

theorem readsFields (h : readEvent d = .ok r) : ReadsFields d r := by
  unfold readEvent at h
  simp only [bind_eq_ok] at h
  -- the reads in the order of the code, one pair each
  obtain ⟨_, -, _, -, _, -, _, houtcome, _, -, _, hnamespace, _, -, _, hkind, _, -, _, -, h⟩ := h
  obtain ⟨_, -, _, -, _, -, _, -, _, -, _, -, _, hsourceNamespace, _, -, _, -, _, -, h⟩ := h
  obtain ⟨_, hsourceKind, _, hsourceRole, _, -, _, -, _, -, _, -, _, -, _, -, _, -, _, -, h⟩ := h
  obtain ⟨_, -, _, -, _, -, _, -, _, -, h⟩ := h
  cases h
  exact ⟨houtcome, hnamespace, hkind, hsourceNamespace, hsourceKind, hsourceRole⟩

variable {name : String} {state : Option ReplayState} {last : Dict} {pre post : List Dict}

theorem itemStr_eq_ok {s : Str} : itemStr d name = .ok s ↔ getField d name = some (.str s) := by
  unfold itemStr item
  cases getField d name with
  | none => simp
  | some v => cases v <;> simp

theorem itemInt_eq_ok {n : Int} : itemInt d name = .ok n ↔ getInt d name = some n := by
  unfold itemInt item getInt
  cases getField d name with
  | none => simp
  | some v => cases v <;> simp

theorem readTerminal_rejected {t : TerminalRow} (h : readTerminal d = .ok t) :
    getInt d "rejected_count" = some t.rejectedCount := by
  unfold readTerminal at h
  simp only [bind_eq_ok] at h
  obtain ⟨_, -, _, -, _, -, rejected, hrejected, _, -, _, -, h⟩ := h
  cases h
  exact itemInt_eq_ok.mp hrejected

theorem Sane.tokens (h : Sane state r) :
    r.canonicalNamespace = lit target.canonicalNamespace ∧
      r.canonicalKind = lit target.canonicalKind ∧
      r.sourceNamespace = lit target.sourceNamespace ∧ r.sourceKind = lit target.sourceKind ∧
      r.sourceRole = lit target.sourceRole := by
  have hnative := h.native
  simp only [nativeRecordIssue, firstIssue, Option.map_eq_none_iff, find?_eq_none] at hnative
  have hnamespace := hnative (decide (r.canonicalNamespace ≠ lit target.canonicalNamespace ∨
    r.sourceNamespace ≠ lit target.sourceNamespace), .nameSpace,
      "canonical/source namespace does not match trusted_target_v1") (by simp)
  have hkind := hnative (decide (r.canonicalKind ≠ lit target.canonicalKind ∨
    r.sourceKind ≠ lit target.sourceKind ∨ r.kindMatch ≠ 1), .kind,
      "canonical/source kind projection is inconsistent") (by simp)
  have hrole := hnative (decide (r.sourceRole ≠ lit target.sourceRole ∨ r.roleMatch ≠ 1), .role,
    "source role projection is inconsistent") (by simp)
  simp only [decide_eq_true_eq, not_or, not_not, ne_eq] at hnamespace hkind hrole
  exact ⟨hnamespace.1, hkind.1, hnamespace.2, hkind.2.1, hrole.1⟩

theorem shortTokens_of_sane (hread : readEvent d = .ok r) (hsane : Sane state r) :
    ShortTokens eventFields d := by
  have hfields := readsFields hread
  obtain ⟨hnamespace, hkind, hsourceNamespace, hsourceKind, hsourceRole⟩ := hsane.tokens
  have htoken : ∀ {name : String} {text s : Str}, itemStr d name = .ok text → text.length ≤ 64 →
      getField d name = some (.str s) → s.length ≤ 64 := by
    intro name text s hitem hlen hs
    rw [itemStr_eq_ok, hs] at hitem
    cases hitem
    exact hlen
  intro name s hname hs
  simp only [eventFields, mem_cons, Prod.mk.injEq, reduceCtorEq, and_false, false_or,
    not_mem_nil, or_false, and_true] at hname
  rcases hname with rfl | rfl | rfl | rfl | rfl
  · exact htoken hfields.canonicalNamespace (hnamespace ▸ by decide) hs
  · exact htoken hfields.canonicalKind (hkind ▸ by decide) hs
  · exact htoken hfields.sourceNamespace (hsourceNamespace ▸ by decide) hs
  · exact htoken hfields.sourceKind (hsourceKind ▸ by decide) hs
  · exact htoken hfields.sourceRole (hsourceRole ▸ by decide) hs

theorem sane_of_progress {events : List (Nat × EventRow)} (hp : progressAfter events = some p)
    {e : Nat × EventRow} (he : e ∈ events) : ∃ state, Sane state e.2 := by
  obtain ⟨before, after, hsplit⟩ := append_of_mem he
  obtain ⟨m, q, -, -, hmove⟩ := exists_move hp hsplit
  cases hmove with
  | accepted sane outcome reason accepts | rejected sane outcome reason state stale =>
    exact ⟨_, sane⟩

theorem Reads.row (h : Reads records tr dicts last) (hd : d ∈ dicts) :
    ∃ e ∈ tr.events, readEvent d = .ok e.2 := by
  obtain ⟨i, hi, rfl⟩ := getElem_of_mem hd
  obtain ⟨hlength, hget⟩ := forall₂_iff_get.mp h.events
  rw [length_zipIdx] at hlength
  have hat := hget i (by simpa using hi) (hlength ▸ hi)
  refine ⟨tr.events.get ⟨i, hlength ▸ hi⟩, get_mem _ _, ?_⟩
  simpa using hat.2

theorem recordOk_of_replay {interp : Interpreter} {raw : List UInt8}
    (h : Reads (recordsOf interp raw) tr dicts last) (hp : progressAfter tr.events = some p)
    (hshaped : ∀ d ∈ dicts ++ [last], Shaped d) : ∀ d ∈ dicts ++ [last], RecordOk d := by
  intro d hd
  refine ⟨hshaped d hd, ?_, fun hkind => ?_⟩
  · have hmem : Json.obj d ∈ recordsOf interp raw := by
      rw [h.records]
      simpa using hd
    exact keys_nodup hmem
  · have hmem : d ∈ dicts := by
      rcases mem_append.mp hd with hd | hd
      · exact hd
      · cases mem_singleton.mp hd
        rw [isEvent_of_isTerminal h.isLast] at hkind
        cases hkind
    obtain ⟨e, he, hread⟩ := h.row hmem
    obtain ⟨state, hsane⟩ := sane_of_progress hp he
    exact shortTokens_of_sane hread hsane

theorem RecordOk.moveUp (h : RecordOk d) (hshaped : Shaped (moveUp d)) : RecordOk (moveUp d) := by
  refine ⟨hshaped, by rw [keys_moveUp]; exact h.nodup, fun hkind name s hname hs => ?_⟩
  rw [isEvent_moveUp] at hkind
  have hne : ∀ f ∈ eventFields, f.2 = .kebabToken → f.1 ≠ "trace_sequence" := by decide
  rw [moveUp_event hkind, getField_lower (hne _ hname rfl)] at hs
  exact h.short hkind name s hname hs

theorem recordOk_without (h : ∀ x ∈ pre ++ d :: post ++ [last], RecordOk x)
    (hshaped : ∀ x ∈ pre ++ post.map moveUp ++ [moveUp last], Shaped x) :
    ∀ x ∈ pre ++ post.map moveUp ++ [moveUp last], RecordOk x := by
  intro x hx
  have hx' := hshaped x hx
  rcases mem_append.mp hx with hx | hx
  · rcases mem_append.mp hx with hx | hx
    · exact h x (by simp [hx])
    · obtain ⟨y, hy, rfl⟩ := mem_map.mp hx
      exact (h y (by simp [hy])).moveUp hx'
  · cases mem_singleton.mp hx
    exact (h last (by simp)).moveUp hx'

theorem forall₂_append_left {α β : Type} {R : α → β → Prop} {a b : List α} {l : List β}
    (h : List.Forall₂ R (a ++ b) l) :
    ∃ l₁ l₂, l = l₁ ++ l₂ ∧ List.Forall₂ R a l₁ ∧ List.Forall₂ R b l₂ := by
  induction a generalizing l with
  | nil => exact ⟨[], l, rfl, .nil, h⟩
  | cons x a ih =>
    cases h with
    | cons hx hrest =>
      obtain ⟨l₁, l₂, rfl, ha, hb⟩ := ih hrest
      exact ⟨_ :: l₁, l₂, rfl, .cons hx ha, hb⟩

/-! ## Leaving an expected rejection out -/

theorem claimedOutcome_rejected (hread : readEvent d = .ok r)
    (houtcome : getField d "claimed_outcome" = some (.str (lit "rejected"))) :
    r.claimedOutcome = .rejected := by
  have hitem := (readsFields hread).outcome
  rw [itemEnum, itemStr_eq_ok.mpr houtcome] at hitem
  have htext : ofText Outcome.text outcomes (lit "rejected") = some .rejected :=
    ofText_outcome .rejected
  simp only [htext, Except.ok.injEq] at hitem
  exact hitem.symm

/-- The trace without a rejected event: its records, and the replay of them. -/
theorem exists_without (h : Reads records tr (pre ++ d :: post) last)
    (houtcome : getField d "claimed_outcome" = some (.str (lit "rejected"))) {s : ReplayState}
    (hp : progressAfter tr.events = some p) (hs : p.state = some s)
    (ht : TerminalMatches tr.terminal s p) :
    ∃ tr' p', Reads (withoutRecord pre.length records) tr' (pre ++ post.map moveUp) (moveUp last) ∧
      progressAfter tr'.events = some p' ∧ p'.state = some s ∧ TerminalMatches tr'.terminal s p' ∧
      1 ≤ tr.terminal.rejectedCount := by
  have hrows := h.events
  rw [zipIdx_append, zipIdx_cons] at hrows
  obtain ⟨before, rest, hevents, hbefore, hrest⟩ := forall₂_append_left hrows
  cases hrest with
  | @cons _ e _ after hat hafter =>
    have hpost : ∀ x ∈ post, isEvent (.obj x) = true := fun x hx => h.areEvents x (by simp [hx])
    obtain ⟨after', hafter', hsame⟩ := exists_renumbered hpost hafter
    -- the event is not accepted, so it is an expected rejection
    rw [hevents, progressAfter_eq_some, replayEvents_append] at hp
    obtain ⟨m, hm, hrun⟩ := hp
    obtain ⟨m', hmove, hrun⟩ := replayEvents_cons.mp hrun
    have hrejected := claimedOutcome_rejected hat.2 houtcome
    cases hmove with
    | accepted sane outcome reason accepts =>
      rw [hrejected] at outcome
      cases outcome
    | rejected sane outcome reason state stale =>
      obtain ⟨p', hp', rfl⟩ := replayEvents_of_reject hsame hrun
      have hcount : tr.terminal.rejectedCount = p'.rejectedCount + 1 := by
        rw [ht.rejectedCount]
        rfl
      refine ⟨⟨before ++ after', { tr.terminal with
        sequence := sequenceOf (moveUp last)
        rejectedCount := tr.terminal.rejectedCount - 1 }⟩, p', ⟨?_, ?_, ?_, ?_, ?_⟩, ?_, hs,
        { ht with rejectedCount := ?_ }, ?_⟩
      · rw [h.records, withoutRecord_eq]
      · exact areEvents_without h.areEvents
      · rw [isTerminal_moveUp]
        exact h.isLast
      · rw [zipIdx_append]
        exact rel_append hbefore hafter'
      · rw [readTerminal_moveUp h.isLast, h.terminal]
        rfl
      · exact progressAfter_eq_some.mpr (replayEvents_append.mpr ⟨m, hm, hp'⟩)
      · show tr.terminal.rejectedCount - 1 = p'.rejectedCount
        omega
      · omega

/-- The place of an object that claims an outcome: it is an event. -/
theorem exists_split (h : Reads records tr dicts last)
    (hshape : WellShaped terminalFields last) {i : Nat} (hrecord : records[i]? = some (.obj d))
    {outcome : Json} (houtcome : getField d "claimed_outcome" = some outcome) :
    ∃ pre post, dicts = pre ++ d :: post ∧ pre.length = i := by
  rw [h.records] at hrecord
  by_cases hi : i < dicts.length
  · rw [getElem?_append_left (by simpa using hi), getElem?_map,
      getElem?_eq_getElem hi] at hrecord
    simp only [Option.map_some, Option.some.injEq, Json.obj.injEq] at hrecord
    refine ⟨dicts.take i, dicts.drop (i + 1), ?_, by simp [hi.le]⟩
    rw [← hrecord, ← drop_eq_getElem_cons hi, take_append_drop]
  · rw [getElem?_append_right (by simpa using hi), length_map] at hrecord
    have hlast : d = last := by
      obtain ⟨hlt, hget⟩ := List.getElem?_eq_some_iff.mp hrecord
      rw [List.getElem_singleton] at hget
      exact (Json.obj.inj hget).symm
    rw [hlast, hshape.noClaim] at houtcome
    cases houtcome

theorem objects_inj {dicts dicts' : List Dict} {last last' : Dict}
    (h : dicts.map Json.obj ++ [.obj last] = dicts'.map Json.obj ++ [.obj last']) :
    dicts = dicts' ∧ last = last' := by
  obtain ⟨hdicts, hlast⟩ := append_inj' h rfl
  refine ⟨map_injective_iff.mpr (fun _ _ he => Json.obj.inj he) hdicts, ?_⟩
  simpa using hlast

/-- A passing trace still passes without an event that it claims as rejected, with the later
records one line up and the terminal counting one record and one rejection less; and it ends with
the same state and binding generation.  The edited records can be written as a file, and this
holds of every file they are the records of. -/
theorem rejected_event_can_be_left_out {interp : Interpreter} {raw : List UInt8} {v : Verdict}
    (hv : verifyTraceBytes interp raw = .ok v) (hpassed : v.passed = true) {i : Nat} {d : Dict}
    (hrecord : (recordsOf interp raw)[i]? = some (.obj d))
    (houtcome : getField d "claimed_outcome" = some (.str (lit "rejected"))) :
    (∃ raw', Decodes interp raw' (withoutRecord i (recordsOf interp raw))) ∧
    ∀ raw', Decodes interp raw' (withoutRecord i (recordsOf interp raw)) →
      ∃ v', verifyTraceBytes interp raw' = .ok v' ∧ v'.passed = true ∧
        v'.finalState = v.finalState ∧
        v'.finalBindingGeneration = v.finalBindingGeneration := by
  obtain ⟨hclean, tr, dicts, last, hreads, p, s, hp, hs, ht⟩ := passes_iff.mp ⟨v, hv, hpassed⟩
  have hphases := (decodes_of_clean hclean).earlyFailures
  rw [hclean, eq_comm, append_eq_nil_iff, clean_iff] at hphases
  obtain ⟨traceId, dicts', last', hrecords, hcleanTrace⟩ := hphases
  obtain ⟨rfl, rfl⟩ := objects_inj (hreads.records.symm.trans hrecords)
  have hshape := (hcleanTrace.shaped last (by simp)).ofTerminal hreads.isLast
  obtain ⟨pre, post, rfl, rfl⟩ := exists_split hreads hshape hrecord houtcome
  obtain ⟨tr', p', hreads', hp', hs', ht', hpos⟩ := exists_without hreads houtcome hp hs ht
  have hcleanTrace' := hcleanTrace.without (readTerminal_rejected hreads.terminal) hpos
  constructor
  · have hrecordOk := recordOk_of_replay hreads hp hcleanTrace.shaped
    have hlen := length_recordsOf_le interp raw
    rw [hreads'.records, map_obj_snoc]
    refine exists_file interp (by simp) ?_ ?_
    · rw [hreads.records] at hlen
      simp only [length_append, length_map, length_cons, length_nil] at hlen ⊢
      omega
    · exact recordOk_without hrecordOk hcleanTrace'.shaped
  · intro raw' hdecodes
    have hclean' : earlyFailures interp raw' = [] := by
      rw [hdecodes.earlyFailures, append_eq_nil_iff, clean_iff]
      exact ⟨traceId, _, _, hreads'.records, hcleanTrace'⟩
    rw [← hdecodes.records] at hreads'
    have hverdict := hreads.verdict hclean hp hs ht
    rw [hv, Except.ok.injEq] at hverdict
    refine ⟨_, hreads'.verdict hclean' hp' hs' ht', ?_, ?_, ?_⟩
    · rw [verdictOf_passed]
      rfl
    · rw [hverdict, verdictOf_final.1, verdictOf_final.1]
      rfl
    · rw [hverdict, verdictOf_final.2, verdictOf_final.2]
      rfl

/-- The trace with stale events passes without its stale `bind`, the fourth record. -/
theorem rejected_event_can_be_left_out_bind :
    ∃ v raw' v', verifyTraceBytes plainInterpreter (encodeTrace (lit "trace") staleTrace) = .ok v ∧
      Decodes plainInterpreter raw' (withoutRecord 3
        (recordsOf plainInterpreter (encodeTrace (lit "trace") staleTrace))) ∧
      verifyTraceBytes plainInterpreter raw' = .ok v' ∧ v'.passed = true ∧
      v'.finalState = v.finalState ∧ v'.finalBindingGeneration = v.finalBindingGeneration := by
  obtain ⟨v, hv, hpassed⟩ := staleTrace_passes plainInterpreter
  obtain ⟨e, he, hline⟩ : ∃ e, staleEvents[3]? = some e ∧ e.2.claimedOutcome = .rejected :=
    ⟨_, rfl, rfl⟩
  have hrecord : (recordsOf plainInterpreter (encodeTrace (lit "trace") staleTrace))[3]? =
      some (.obj (dictOf (eventMembers e.1 e.2))) := by
    have hevent : staleTrace.events[3]? = some e := he
    rw [(encodable_staleTrace.reads plainInterpreter).records,
      getElem?_append_left (by decide), getElem?_map, getElem?_map, hevent]
    rfl
  have houtcome : getField (dictOf (eventMembers e.1 e.2)) "claimed_outcome" =
      some (.str (lit "rejected")) := by
    rw [getField_event 6 rfl rfl, hline]
    rfl
  obtain ⟨⟨raw', hdecodes⟩, hall⟩ := rejected_event_can_be_left_out hv hpassed hrecord houtcome
  obtain ⟨v', hv', hpassed', hstate, hgeneration⟩ := hall raw' hdecodes
  exact ⟨v, raw', v', hv, hdecodes, hv', hpassed', hstate, hgeneration⟩

end AiosKernel.Replay
