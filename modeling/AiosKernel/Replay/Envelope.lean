/-
# `AiosKernel.Replay.Envelope` — what phases 3 and 4 say about a trace

The records that `_phase_shape` and `_phase_envelope` have nothing against,
described without the phases: well-shaped events and a terminal after them, one
trace id, numbered from 1, each claim with a reason that goes with it, and a
terminal that counts the events.
-/
import AiosKernel.Replay.Files

namespace AiosKernel.Replay

open Py List

/-! ## One record -/

variable {d : Dict} {interp : Interpreter}

theorem Shaped.traceId (h : Shaped d) : ∃ s, getField d "trace_id" = some (.str s) := by
  have hfield : ∃ v, getField d "trace_id" = some v ∧ FieldType.traceId.Admits v := by
    cases h with
    | event _ shape | terminal _ shape => exact shape.field 2 rfl
  obtain ⟨v, hv, s, rfl, -⟩ := hfield
  exact ⟨s, hv⟩

theorem WellShaped.noClaim (h : WellShaped terminalFields d) :
    getField d "claimed_outcome" = none := by
  rw [getField_eq_none]
  intro hmem
  have hnot : lit "claimed_outcome" ∉ terminalFields.map fun f => lit f.1 := by decide +kernel
  exact hnot (h.known _ hmem)

theorem exists_allowed {outcome : Str} (h : outcome ∈ EnumName.claimedOutcome.values.map lit) :
    ∃ allowed, outcomePairing.lookup outcome = some allowed := by
  have hall : ∀ o ∈ EnumName.claimedOutcome.values.map lit,
      (outcomePairing.lookup o).isSome = true := by
    decide +kernel
  exact Option.isSome_iff_exists.mp (hall outcome h)

/-- A well-shaped record without envelope failures is at its place, and has the trace id that is
expected. -/
theorem Shaped.envelopeOk {line : Nat} {expected : Option Str} (hshaped : Shaped d)
    (h : envelopeRecord interp line expected d = []) :
    ∃ traceId, EnvelopeOk traceId line d ∧ (expected = none ∨ expected = some traceId) := by
  obtain ⟨traceId, htraceId⟩ := hshaped.traceId
  simp only [envelopeRecord, append_eq_nil_iff, htraceId] at h
  obtain ⟨⟨hsequence, hid⟩, houtcome⟩ := h
  refine ⟨traceId, ⟨?_, htraceId, ?_⟩, ?_⟩
  · by_contra hne
    simp [hne] at hsequence
  · cases hshaped with
    | terminal _ shape => exact .inl shape.noClaim
    | event _ shape =>
      obtain ⟨_, ho, outcome, rfl, hmem⟩ := shape.field 6 rfl
      obtain ⟨_, hr, reason, rfl, -⟩ := shape.field 7 rfl
      obtain ⟨allowed, hallowed⟩ := exists_allowed hmem
      refine .inr ⟨outcome, reason, allowed, ho, hr, hallowed, ?_⟩
      by_contra hne
      simp only [ho, hr, hallowed] at houtcome
      rw [if_neg hne] at houtcome
      cases houtcome
  · cases expected with
    | none => exact .inl rfl
    | some first =>
      refine .inr ?_
      by_contra hne
      have hne' : traceId ≠ first := fun heq => hne (heq ▸ rfl)
      simp [hne'] at hid

/-! ## The records of a trace -/

theorem envelopeOk_of_clean {expected : Option Str} {dicts : List Dict} {n : Nat}
    (hshaped : ∀ d ∈ dicts, Shaped d)
    (h : envelopeRecords interp n expected (dicts.map Json.obj) = []) :
    ∃ traceId, (expected = none ∨ expected = some traceId) ∧
      ∀ x ∈ dicts.zipIdx n, EnvelopeOk traceId x.2 x.1 := by
  induction dicts generalizing n expected with
  | nil =>
    cases expected with
    | none => exact ⟨[], .inl rfl, by simp⟩
    | some traceId => exact ⟨traceId, .inr rfl, by simp⟩
  | cons d dicts ih =>
    rw [map_cons, envelopeRecords, append_eq_nil_iff] at h
    obtain ⟨traceId, hok, hid⟩ := (hshaped d mem_cons_self).envelopeOk h.1
    rw [nextTraceId_clean hok hid] at h
    obtain ⟨traceId', hid', hall⟩ := ih (fun e he => hshaped e (mem_cons_of_mem d he)) h.2
    obtain rfl : traceId = traceId' := Option.some.inj (hid'.resolve_left (Option.some_ne_none _))
    exact ⟨traceId, hid, forall_mem_cons.mpr ⟨hok, hall⟩⟩

/-- The records of a trace: events with the terminal after them, in shape and in order. -/
structure CleanTrace (traceId : Str) (dicts : List Dict) (last : Dict) : Prop where
  shaped : ∀ d ∈ dicts ++ [last], Shaped d
  areEvents : ∀ d ∈ dicts, isEvent (.obj d) = true
  isLast : isTerminal (.obj last) = true
  inOrder : ∀ x ∈ (dicts ++ [last]).zipIdx 1, EnvelopeOk traceId x.2 x.1
  count : getInt last "record_count" = some (dicts.length : Int)
  counts : ∃ accepted rejected, getInt last "accepted_count" = some accepted ∧
    getInt last "rejected_count" = some rejected ∧ accepted + rejected = dicts.length

theorem WellShaped.getInt {schema : List Field} (h : WellShaped schema d) (i : Nat) {name : String}
    (hf : schema[i]? = some (name, .u32)) : ∃ n, getInt d name = some n := by
  obtain ⟨v, hv, n, rfl, -⟩ := h.field i hf
  exact ⟨n, by simp [Replay.getInt, hv]⟩

theorem terminalCounts_eq_nil {row eventRows : Nat} {count accepted rejected : Int}
    (hcount : getInt d "record_count" = some count)
    (haccepted : getInt d "accepted_count" = some accepted)
    (hrejected : getInt d "rejected_count" = some rejected)
    (h : terminalCounts row d eventRows = []) :
    count = eventRows ∧ accepted + rejected = count := by
  simp only [terminalCounts, hcount, haccepted, hrejected, append_eq_nil_iff] at h
  constructor
  · by_contra hne
    simp [hne] at h
  · by_contra hne
    simp [hne] at h

theorem map_obj_snoc (dicts : List Dict) (last : Dict) :
    dicts.map Json.obj ++ [.obj last] = (dicts ++ [last]).map Json.obj := by simp

/-- Phases 3 and 4 find nothing just if the records are those of a trace. -/
theorem clean_iff {records : List Json} :
    phaseShape interp records = [] ∧ phaseEnvelope interp records = [] ↔
      ∃ traceId dicts last, records = dicts.map Json.obj ++ [.obj last] ∧
        CleanTrace traceId dicts last := by
  constructor
  · rintro ⟨hshape, henvelope⟩
    rw [phaseEnvelope, append_eq_nil_iff] at henvelope
    obtain ⟨dicts, last, rfl, hevents, hlast⟩ := records_of_clean hshape henvelope.2
    have hnot : ∀ d ∈ dicts, isTerminal (.obj d) = false := fun d hd =>
      isTerminal_of_isEvent (hevents d hd)
    rw [terminalFailures_eq hnot hlast, map_obj_snoc] at henvelope
    rw [map_obj_snoc, phaseShape_eq_nil] at hshape
    obtain ⟨traceId, -, horder⟩ := envelopeOk_of_clean hshape henvelope.1
    have hterminal := (hshape last (by simp)).ofTerminal hlast
    obtain ⟨count, hcount⟩ := hterminal.getInt 6 rfl
    obtain ⟨accepted, haccepted⟩ := hterminal.getInt 7 rfl
    obtain ⟨rejected, hrejected⟩ := hterminal.getInt 8 rfl
    obtain ⟨rfl, hsum⟩ := terminalCounts_eq_nil hcount haccepted hrejected henvelope.2
    exact ⟨traceId, dicts, last, rfl, hshape, hevents, hlast, horder, hcount, accepted, rejected,
      haccepted, hrejected, hsum⟩
  · rintro ⟨traceId, dicts, last, rfl, h⟩
    obtain ⟨accepted, rejected, haccepted, hrejected, hsum⟩ := h.counts
    have hnot : ∀ d ∈ dicts, isTerminal (.obj d) = false := fun d hd =>
      isTerminal_of_isEvent (h.areEvents d hd)
    have hsequence : sequenceOf last = some (dicts.length + 1 : Int) := by
      have hmem : (last, dicts.length + 1) ∈ (dicts ++ [last]).zipIdx 1 := by
        rw [zipIdx_append]
        simp [Nat.add_comm]
      exact_mod_cast (h.inOrder _ hmem).sequence
    rw [phaseEnvelope, terminalFailures_clean hnot h.isLast hsequence h.count haccepted hrejected
      hsum, append_nil, map_obj_snoc]
    exact ⟨phaseShape_eq_nil.mpr h.shaped, envelopeRecords_clean traceId h.inOrder (.inl rfl)⟩

end AiosKernel.Replay
