/-
# `AiosKernel.Replay.Written` — a written trace passes by its replay

`encodeTrace` writes events and a terminal.  If they can be written at all
(`Encodable`), the verifier reads exactly them back, and passes the bytes just
if the replay of the events ends with what the terminal says.
-/
import AiosKernel.Replay.Encode

namespace AiosKernel.Replay

open Py List

def encodeTrace (traceId : Str) (tr : Trace) : List UInt8 :=
  encodeLines (tr.events.map (fun e => eventMembers e.1 e.2) ++
    [terminalMembers traceId (tr.events.length + 1) tr.terminal])

/-- What an event needs to be written on a line of its own. -/
structure EventRow.Encodable (traceId : Str) (line : Nat) (r : EventRow) : Prop where
  sequence : r.sequence = some (line : Int)
  traceId : r.traceId = traceId
  paired : r.claimedOutcome = .accepted ∧ r.claimedReason = .none ∨
    r.claimedOutcome = .rejected ∧ r.claimedReason ≠ .none
  flags : r.Flags
  fits : Fits eventFields (eventValues line r)
  writable : Writable (eventValues line r)

/-- What a trace needs to be written. -/
structure Trace.Encodable (traceId : Str) (tr : Trace) : Prop where
  count : tr.events.length + 1 ≤ MAX_RECORDS
  lines : tr.events.map Prod.fst = List.range' 1 tr.events.length
  events : ∀ e ∈ tr.events, e.2.Encodable traceId e.1
  sequence : tr.terminal.sequence = some (tr.events.length + 1 : Int)
  accepted : 0 ≤ tr.terminal.acceptedCount
  rejected : 0 ≤ tr.terminal.rejectedCount
  counts : tr.terminal.acceptedCount + tr.terminal.rejectedCount = tr.events.length
  fits : Fits terminalFields (terminalValues traceId (tr.events.length + 1) tr.terminal)
  writable : Writable (terminalValues traceId (tr.events.length + 1) tr.terminal)

/-! ## Objects -/

section Objects

variable {traceId : Str} {line : Nat} {r : EventRow} {t : TerminalRow}

variable {name : String} {type : FieldType}

variable {s : Str} {interp : Interpreter}

theorem getField_event (i : Nat) (hfield : eventFields[i]? = some (name, type))
    (hvalue : (eventValues line r)[i]? = some (.text s)) :
    getField (dictOf (eventMembers line r)) name = some (.str s) :=
  getField_row eventFields_nodup hfield hvalue

theorem getField_terminal (i : Nat) (hfield : terminalFields[i]? = some (name, type))
    (hvalue : (terminalValues traceId line t)[i]? = some (.text s)) :
    getField (dictOf (terminalMembers traceId line t)) name = some (.str s) :=
  getField_row terminalFields_nodup hfield hvalue

theorem getInt_terminal (i : Nat) {n : Nat} (hfield : terminalFields[i]? = some (name, type))
    (hvalue : (terminalValues traceId line t)[i]? = some (.number n)) :
    getInt (dictOf (terminalMembers traceId line t)) name = some (n : Int) := by
  rw [getInt, terminalMembers, getField_row terminalFields_nodup hfield hvalue]
  rfl

theorem isEvent_eventMembers : isEvent (.obj (dictOf (eventMembers line r))) = true :=
  isEvent_obj.mpr (getField_event 1 rfl rfl)

theorem isTerminal_terminalMembers :
    isTerminal (.obj (dictOf (terminalMembers traceId line t))) = true :=
  isTerminal_obj.mpr (getField_terminal 1 rfl rfl)

theorem isTerminal_eventMembers : isTerminal (.obj (dictOf (eventMembers line r))) = false :=
  isTerminal_of_isEvent isEvent_eventMembers

theorem recordFailures_eventMembers (h : Fits eventFields (eventValues line r)) :
    recordFailures interp (.obj (dictOf (eventMembers line r))) = [] :=
  schemaFailures_row eventFields_nodup h

theorem recordFailures_terminalMembers (h : Fits terminalFields (terminalValues traceId line t)) :
    recordFailures interp (.obj (dictOf (terminalMembers traceId line t))) = [] :=
  schemaFailures_row terminalFields_nodup h

theorem lineOk_eventMembers (h : r.Encodable traceId line) : LineOk (eventMembers line r) :=
  lineOk_row (cons_ne_nil _ _) eventFields_nodup eventFields_plain eventFields_length h.fits
    h.writable

theorem pairing_text {outcome : Outcome} {reason : NativeReason}
    (h : outcome = .accepted ∧ reason = .none ∨ outcome = .rejected ∧ reason ≠ .none) :
    ∃ allowed, outcomePairing.lookup (lit outcome.text) = some allowed ∧
      allowed.contains (lit reason.text) = true := by
  rcases h with ⟨rfl, rfl⟩ | ⟨rfl, hreason⟩
  · exact ⟨_, rfl, by decide⟩
  · refine ⟨_, rfl, ?_⟩
    cases reason with
    | none => exact absurd rfl hreason
    | _ => decide

theorem envelopeOk_eventMembers (h : r.Encodable traceId line) (hline : line ≤ MAX_RECORDS) :
    EnvelopeOk traceId line (dictOf (eventMembers line r)) := by
  refine ⟨sequenceOf_row eventFields_nodup (i := 3) rfl rfl hline, ?_, .inr ?_⟩
  · rw [← h.traceId]
    exact getField_event 2 rfl rfl
  · obtain ⟨allowed, hlookup, hallowed⟩ := pairing_text h.paired
    exact ⟨_, _, allowed, getField_event 6 rfl rfl, getField_event 7 rfl rfl, hlookup, hallowed⟩

theorem envelopeOk_terminalMembers (hline : line ≤ MAX_RECORDS) :
    EnvelopeOk traceId line (dictOf (terminalMembers traceId line t)) := by
  refine ⟨sequenceOf_row terminalFields_nodup (i := 3) rfl rfl hline,
    getField_terminal 2 rfl rfl, .inl ?_⟩
  rw [getField, lookup_eq_none_iff]
  intro x hx
  have hmem : x.1 ∈ terminalFields.map fun f => lit f.1 := by
    exact mem_map_of_mem hx
  have hnot : lit "claimed_outcome" ∉ terminalFields.map fun f => lit f.1 := by decide +kernel
  simp only [bne_iff_ne, ne_eq]
  intro heq
  exact hnot (heq ▸ hmem)

end Objects

/-! ## The whole trace -/

theorem zipIdx_of_lines {α β : Type} {f : Nat × α → β} {events : List (Nat × α)} {n : Nat}
    (h : events.map Prod.fst = List.range' n events.length) :
    (events.map f).zipIdx n = events.map fun e => (f e, e.1) := by
  induction events generalizing n with
  | nil => rfl
  | cons e events ih =>
    rw [map_cons, length_cons, range'_succ, List.cons.injEq] at h
    rw [map_cons, zipIdx_cons, map_cons, ih h.2, h.1]

namespace Trace.Encodable

variable {traceId : Str} {tr : Trace} (h : tr.Encodable traceId)

include h

theorem line_le {e : Nat × EventRow} (he : e ∈ tr.events) : e.1 ≤ MAX_RECORDS := by
  have hmem : e.1 ∈ List.range' 1 tr.events.length := by
    rw [← h.lines]
    exact mem_map_of_mem he
  rw [mem_range'_1] at hmem
  have := h.count
  omega

theorem lineOk : ∀ ms ∈ tr.events.map (fun e => eventMembers e.1 e.2) ++
    [terminalMembers traceId (tr.events.length + 1) tr.terminal], LineOk ms := by
  refine forall_mem_append.mpr ⟨forall_mem_map.mpr fun e he => ?_, forall_mem_singleton.mpr ?_⟩
  · exact lineOk_eventMembers (h.events e he)
  · exact lineOk_row (cons_ne_nil _ _) terminalFields_nodup terminalFields_plain
      terminalFields_length h.fits h.writable

theorem phaseRaw :
    Replay.phaseRaw (encodeTrace traceId tr) =
      ((tr.events.map (fun e => eventMembers e.1 e.2) ++
        [terminalMembers traceId (tr.events.length + 1) tr.terminal]).map renderObject, []) := by
  refine phaseRaw_encodeLines h.lineOk (by simp) ?_
  simp only [length_append, length_map, length_cons, length_nil]
  exact h.count

section

variable (interp : Interpreter)
include interp

theorem phaseJson :
    Replay.phaseJson interp (Replay.phaseRaw (encodeTrace traceId tr)).1 =
      ((tr.events.map fun e => dictOf (eventMembers e.1 e.2)).map Json.obj ++
        [.obj (dictOf (terminalMembers traceId (tr.events.length + 1) tr.terminal))], []) := by
  rw [h.phaseRaw, phaseJson_renderObject h.lineOk]
  simp

theorem reads :
    Reads (recordsOf interp (encodeTrace traceId tr)) tr
      (tr.events.map fun e => dictOf (eventMembers e.1 e.2))
      (dictOf (terminalMembers traceId (tr.events.length + 1) tr.terminal)) := by
  refine ⟨?_, ?_, isTerminal_terminalMembers, ?_, ?_⟩
  · rw [recordsOf, h.phaseJson]
  · intro d hd
    obtain ⟨e, he, rfl⟩ := mem_map.mp hd
    exact isEvent_eventMembers
  · rw [zipIdx_of_lines h.lines, forall₂_map_left_iff, forall₂_same]
    intro e he
    have hread := readEvent_eventMembers (h.events e he).flags (h.events e he).fits (h.line_le he)
    rw [← (h.events e he).sequence] at hread
    exact ⟨rfl, hread⟩
  · rw [readTerminal_terminalMembers h.accepted h.rejected h.fits h.count, Nat.cast_add,
      Nat.cast_one, ← h.sequence]

theorem shape : phaseShape interp (recordsOf interp (encodeTrace traceId tr)) = [] := by
  rw [(h.reads interp).records]
  refine flatMap_eq_nil_iff.mpr fun x hx => ?_
  have hmem := fst_mem_of_mem_zipIdx hx
  have hrecord : recordFailures interp x.1 = [] := by
    rcases mem_append.mp hmem with hmem | hmem
    · obtain ⟨d, hd, hobj⟩ := mem_map.mp hmem
      obtain ⟨e, he, rfl⟩ := mem_map.mp hd
      rw [← hobj]
      exact recordFailures_eventMembers (h.events e he).fits
    · rw [mem_singleton.mp hmem]
      exact recordFailures_terminalMembers h.fits
  obtain ⟨record, line⟩ := x
  show (recordFailures interp record).map _ = []
  rw [show recordFailures interp record = [] from hrecord, map_nil]

theorem envelope : phaseEnvelope interp (recordsOf interp (encodeTrace traceId tr)) = [] := by
  rw [(h.reads interp).records, phaseEnvelope, append_eq_nil_iff]
  constructor
  · have hobjects : ∀ dicts : List Dict, ∀ last : Dict,
        dicts.map Json.obj ++ [.obj last] = (dicts ++ [last]).map Json.obj := by simp
    rw [hobjects]
    refine envelopeRecords_clean traceId (fun x hx => ?_) (.inl rfl)
    rw [zipIdx_append, zipIdx_of_lines h.lines] at hx
    rcases mem_append.mp hx with hx | hx
    · obtain ⟨e, he, rfl⟩ := mem_map.mp hx
      exact envelopeOk_eventMembers (h.events e he) (h.line_le he)
    · rw [zipIdx_singleton, mem_singleton, length_map, Nat.add_comm 1] at hx
      rw [hx]
      exact envelopeOk_terminalMembers h.count
  · have hcount : getInt (dictOf (terminalMembers traceId (tr.events.length + 1) tr.terminal))
        "record_count" =
          some ((tr.events.map fun e => dictOf (eventMembers e.1 e.2)).length : Int) := by
      rw [length_map]
      exact getInt_terminal 6 rfl rfl
    have hsequence : sequenceOf (dictOf (terminalMembers traceId (tr.events.length + 1) tr.terminal))
        = some ((tr.events.map fun e => dictOf (eventMembers e.1 e.2)).length + 1 : Int) := by
      rw [length_map]
      exact sequenceOf_row terminalFields_nodup (i := 3) rfl rfl h.count
    refine terminalFailures_clean ?_ isTerminal_terminalMembers hsequence hcount
      (getInt_terminal 7 rfl rfl) (getInt_terminal 8 rfl rfl) ?_
    · intro d hd
      obtain ⟨e, he, rfl⟩ := mem_map.mp hd
      exact isTerminal_eventMembers
    · rw [Int.toNat_of_nonneg h.accepted, Int.toNat_of_nonneg h.rejected, length_map]
      exact h.counts

theorem clean : earlyFailures interp (encodeTrace traceId tr) = [] := by
  have hraw : (Replay.phaseRaw (encodeTrace traceId tr)).2 = [] := by rw [h.phaseRaw]
  have hjson : (Replay.phaseJson interp (Replay.phaseRaw (encodeTrace traceId tr)).1).2 = [] := by
    rw [h.phaseJson]
  have hshape : phaseShape interp
      (Replay.phaseJson interp (Replay.phaseRaw (encodeTrace traceId tr)).1).1 = [] := h.shape interp
  have henvelope : phaseEnvelope interp
      (Replay.phaseJson interp (Replay.phaseRaw (encodeTrace traceId tr)).1).1 = [] :=
    h.envelope interp
  simp [earlyFailures, hraw, hjson, hshape, henvelope]

theorem passes {p : Progress} {s : ReplayState}
    (hp : progressAfter tr.events = some p) (hs : p.state = some s)
    (ht : TerminalMatches tr.terminal s p) :
    ∃ v, verifyTraceBytes interp (encodeTrace traceId tr) = .ok v ∧ v.passed = true :=
  passes_iff.mpr ⟨h.clean interp, tr, _, _, h.reads interp, p, s, hp, hs, ht⟩

end

end Trace.Encodable

end AiosKernel.Replay
