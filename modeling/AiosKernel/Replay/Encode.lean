/-
# `AiosKernel.Replay.Encode` — writing a trace

A trace as bytes: one flat JSON object per line, in the contract's field order.
The first four phases find nothing in a trace that is written this way from
well-shaped rows, and read the same rows back, so that what such a trace's
verdict is depends on its replay alone.
-/
import AiosKernel.Replay.Shape
import AiosKernel.Lib.PyRender

namespace AiosKernel.Replay

open Py List

/-! ## Lines -/

/-- The bytes of a file with one object a line. -/
def encodeLines (rows : List (List Member)) : List UInt8 :=
  rows.flatMap fun ms => encodeAscii (renderObject ms) ++ [10]

/-- The object that a row decodes to. -/
def dictOf (ms : List Member) : Dict := ms.map Member.toPair

/-- A row that can be written on a line. -/
structure LineOk (ms : List Member) : Prop where
  nonempty : ms ≠ []
  plain : ∀ m ∈ ms, IsPlain m.1 ∧ m.2.IsPlain
  distinct : firstDuplicate [] (dictOf ms) = none
  length : (renderObject ms).length ≤ 4000

variable {s : Str} {b : UInt8} {type : FieldType} {last : Dict}

theorem mem_encodeAscii (h : ∀ c ∈ s, IsAscii c) (hb : b ∈ encodeAscii s) :
    32 ≤ b.toNat ∧ b.toNat < 127 := by
  obtain ⟨c, hc, rfl⟩ := mem_map.mp hb
  obtain ⟨hlow, hhigh⟩ := h c hc
  rw [UInt8.toNat_ofNat', Nat.mod_eq_of_lt (by omega)]
  exact ⟨hlow, hhigh⟩

theorem notMem_encodeAscii (h : ∀ c ∈ s, IsAscii c) (hb : b.toNat < 32) : b ∉ encodeAscii s := by
  intro hmem
  have := (mem_encodeAscii h hmem).1
  omega

variable {rows : List (List Member)} {schema : List Field} {values : List Flat}
  {interp : Interpreter} {line : Nat} {ms : List Member} {traceId : Str} {d : Dict}
  {expected : Option Str} {dicts : List Dict}

theorem split_encodeLines (h : ∀ ms ∈ rows, LineOk ms) :
    split 10 (encodeLines rows) = rows.map (fun ms => encodeAscii (renderObject ms)) ++ [[]] := by
  induction rows with
  | nil => rfl
  | cons ms rows ih =>
    have hms := h ms mem_cons_self
    have hten : (10 : UInt8) ∉ encodeAscii (renderObject ms) :=
      notMem_encodeAscii (fun _ hc => isAscii_renderObject hms.plain hc) (by decide)
    show split 10 (encodeAscii (renderObject ms) ++ [10] ++ encodeLines rows) = _
    rw [append_assoc, singleton_append, split_append hten,
      ih fun n hn => h n (mem_cons_of_mem ms hn)]
    rfl

theorem encodeLines_getLast (hne : rows ≠ []) : (encodeLines rows).getLast? = some 10 := by
  obtain ⟨init, last, rfl⟩ := eq_nil_or_concat rows |>.resolve_left hne
  simp [encodeLines]

theorem length_encodeLines (h : ∀ ms ∈ rows, LineOk ms) :
    (encodeLines rows).length ≤ rows.length * 4001 := by
  induction rows with
  | nil => exact le_refl 0
  | cons ms rows ih =>
    have hms := (h ms mem_cons_self).length
    have hrest := ih fun n hn => h n (mem_cons_of_mem ms hn)
    show (encodeAscii (renderObject ms) ++ [10] ++ encodeLines rows).length ≤ _
    simp only [length_append, length_cons, length_nil, encodeAscii, length_map]
    omega

theorem zipIdx_map_clean {α β γ : Type} {f : α × Nat → β × List γ} {g : α → β} {xs : List α}
    (h : ∀ x ∈ xs, ∀ i, f (x, i) = (g x, [])) (n : Nat) :
    (xs.zipIdx n).map f = xs.map fun x => (g x, []) := by
  induction xs generalizing n with
  | nil => rfl
  | cons x xs ih =>
    rw [zipIdx_cons, map_cons, h x mem_cons_self,
      ih (fun y hy => h y (mem_cons_of_mem x hy)), map_cons]

theorem stripLineEnding_clean {line : List UInt8} (h : (13 : UInt8) ∉ line) (index : Nat) :
    stripLineEnding true index line = (line, []) := by
  have hlast : (line.getLast? == some 13) = false := by
    cases hlast : line.getLast? with
    | none => rfl
    | some b =>
      have hne : b ≠ 13 := by
        rintro rfl
        exact h (mem_of_getLast? hlast)
      simpa using hne
  simp [stripLineEnding, hlast, h, ALLOWED_LINE_ENDINGS]

theorem decodeLine_clean (h : LineOk ms) (index : Nat) :
    decodeLine index (encodeAscii (renderObject ms)) = (renderObject ms, []) := by
  have hdecode : decodeUtf8 (encodeAscii (renderObject ms)) = some (renderObject ms) :=
    decodeUtf8_encodeAscii fun c hc => by
      have := (isAscii_renderObject h.plain hc).2
      omega
  have hbom : [0xEF, 0xBB, 0xBF].isPrefixOf (encodeAscii (renderObject ms)) = false := rfl
  simp [decodeLine, hdecode, hbom]

theorem contentsOf_encodeLines (h : ∀ ms ∈ rows, LineOk ms) (hne : rows ≠ []) :
    contentsOf (encodeLines rows) = rows.map fun ms => (encodeAscii (renderObject ms), []) := by
  have hclean : ∀ line ∈ rows.map (fun ms => encodeAscii (renderObject ms)), ∀ i : Nat,
      stripLineEnding true (i + 1) line = (line, []) := by
    intro line hline i
    obtain ⟨ms, hms, rfl⟩ := mem_map.mp hline
    exact stripLineEnding_clean (notMem_encodeAscii
      (fun _ hc => isAscii_renderObject (h ms hms).plain hc) (by decide)) _
  unfold contentsOf
  simp only [rawLines, split_encodeLines h, encodeLines_getLast hne, BEq.rfl, Bool.true_or, if_true,
    dropLast_concat]
  rw [zipIdx_map_clean (f := fun x : List UInt8 × Nat => stripLineEnding true (x.2 + 1) x.1) hclean]
  simp

theorem limitFailures_clean (h : ∀ ms ∈ rows, LineOk ms) (hlen : rows.length ≤ MAX_RECORDS) :
    limitFailures (rows.map fun ms => encodeAscii (renderObject ms)) = [] := by
  unfold limitFailures
  rw [length_map, if_neg hlen.not_gt, nil_append, flatMap_eq_nil_iff]
  rintro ⟨line, index⟩ hline
  have hmem : line ∈ rows.map fun ms => encodeAscii (renderObject ms) :=
    fst_mem_of_mem_zipIdx hline
  obtain ⟨ms, hms, rfl⟩ := mem_map.mp hmem
  have hle := (h ms hms).length
  have hnot : ¬(encodeAscii (renderObject ms)).length > MAX_LINE_BYTES := by
    rw [encodeAscii, length_map]
    simp only [MAX_LINE_BYTES]
    omega
  exact if_neg hnot

theorem phaseRaw_encodeLines (h : ∀ ms ∈ rows, LineOk ms) (hne : rows ≠ [])
    (hlen : rows.length ≤ MAX_RECORDS) :
    phaseRaw (encodeLines rows) = (rows.map renderObject, []) := by
  have hempty : (encodeLines rows).isEmpty = false := by
    cases hnil : encodeLines rows with
    | nil =>
      have hlast := encodeLines_getLast hne
      rw [hnil] at hlast
      cases hlast
    | cons b bs => rfl
  have htotal : ¬(encodeLines rows).length > MAX_TOTAL_BYTES := by
    have := length_encodeLines h
    have : rows.length * 4001 ≤ MAX_RECORDS * 4001 := Nat.mul_le_mul_right _ hlen
    simp only [MAX_RECORDS, MAX_TOTAL_BYTES] at this ⊢
    omega
  have hdecoded : ((rows.map fun ms => encodeAscii (renderObject ms)).zipIdx 1).map
      (fun x : List UInt8 × Nat => decodeLine x.2 x.1) =
        rows.map fun ms => (renderObject ms, []) := by
    rw [zipIdx_map, map_map]
    exact zipIdx_map_clean (fun ms hms i => decodeLine_clean (h ms hms) i) 1
  unfold phaseRaw
  rw [hempty, if_neg (by simp), if_neg htotal]
  simp only [contentsOf_encodeLines h hne, map_map, Function.comp_def,
    limitFailures_clean h hlen, hdecoded, encodeLines_getLast hne]
  simp

theorem decodeStrictJson_renderObject (h : LineOk ms) :
    decodeStrictJson interp (renderObject ms) = .ok (.obj (dictOf ms)) := by
  have hpairs : strictHooks.pairs (ms.map Member.toPair) = .ok (.obj (dictOf ms)) := by
    have hdistinct : firstDuplicate [] (ms.map Member.toPair) = none := h.distinct
    simp only [strictHooks, hdistinct]
    rfl
  rw [decodeStrictJson, loads_renderObject interp.nestingLimit_pos h.nonempty h.plain hpairs]

theorem phaseJson_renderObject (h : ∀ ms ∈ rows, LineOk ms) :
    phaseJson interp (rows.map renderObject) = (rows.map fun ms => .obj (dictOf ms), []) := by
  have hline : ∀ ms ∈ rows, ∀ i, jsonLine interp i (renderObject ms) = (.obj (dictOf ms), []) := by
    intro ms hms i
    have hblank : (strip (renderObject ms)).isEmpty = false :=
      isEmpty_eq_false_iff.mpr (strip_ne_nil rfl)
    simp [jsonLine, hblank, decodeStrictJson_renderObject (h ms hms)]
  have hrows : ((rows.map renderObject).zipIdx 1).map
      (fun x : Str × Nat => jsonLine interp x.2 x.1) =
        rows.map fun ms => (.obj (dictOf ms), []) := by
    rw [zipIdx_map, map_map]
    exact zipIdx_map_clean hline 1
  unfold phaseJson
  simp only [hrows]
  simp

/-! ## Rows -/

/-- A row with the given values in the fields of a schema. -/
def row (schema : List Field) (values : List Flat) : List Member :=
  (schema.map fun f => lit f.1).zip values

/-- The values of an event, in the contract's order. -/
def eventValues (line : Nat) (r : EventRow) : List Flat :=
  [.number 1, .text (lit "event"), .text r.traceId, .number line, .text r.hostInstance,
    .text (lit r.event.text), .text (lit r.claimedOutcome.text), .text (lit r.claimedReason.text),
    .text r.canonicalNamespace, .text r.canonicalId, .text r.canonicalKind,
    .text r.canonicalGeneration, .number r.canonicalValid.toNat, .text r.parentCellId,
    .text r.parentGeneration, .number r.parentValid.toNat, .text r.producerInstance,
    .number r.producerOwned.toNat, .number r.copiedRead.toNat, .text r.sourceNamespace,
    .text r.sourceId, .text r.sourceInstance, .text r.sourceGeneration, .text r.sourceKind,
    .text r.sourceRole, .number r.sourceValid.toNat, .text r.boundSourceInstance,
    .text r.boundSourceGeneration, .text r.bindingGeneration, .number r.bindingValid.toNat,
    .number r.bindingCurrent.toNat, .number r.kindMatch.toNat, .number r.roleMatch.toNat,
    .number r.generationValid.toNat, .text (lit r.lifecycleState.text),
    .number r.lifecycleValid.toNat, .text r.observedAtNs, .number r.observedAtValid.toNat,
    .number 1, .number 1]

/-- The values of a terminal, in the contract's order. -/
def terminalValues (traceId : Str) (line : Nat) (t : TerminalRow) : List Flat :=
  [.number 1, .text (lit "terminal"), .text traceId, .number line, .text t.hostInstance,
    .text t.producerInstance, .number (line - 1), .number t.acceptedCount.toNat,
    .number t.rejectedCount.toNat, .text (lit t.finalState.text), .text t.finalBindingGeneration,
    .number 1, .number 1]

def eventMembers (line : Nat) (r : EventRow) : List Member := row eventFields (eventValues line r)

def terminalMembers (traceId : Str) (line : Nat) (t : TerminalRow) : List Member :=
  row terminalFields (terminalValues traceId line t)

/-! ## Reading a row -/

/-- The values of a row fit their fields. -/
def Fits (schema : List Field) (values : List Flat) : Prop :=
  List.Forall₂ (fun field value => ∀ interp, checkField interp field value.toJson = none)
    schema values

theorem lit_injective : Function.Injective lit := by
  intro s t h
  have hlist := map_injective_iff.mpr (fun a b hab => Char.toNat_inj.mp hab) h
  exact String.toList_injective hlist

theorem eventFields_nodup : (eventFields.map Prod.fst).Nodup := by decide +kernel

theorem terminalFields_nodup : (terminalFields.map Prod.fst).Nodup := by decide

theorem getField_row (hnodup : (schema.map Prod.fst).Nodup) {i : Nat} {name : String} {v : Flat}
    (hfield : schema[i]? = some (name, type)) (hvalue : values[i]? = some v) :
    getField (dictOf (row schema values)) name = some v.toJson := by
  induction schema generalizing values i with
  | nil => cases hfield
  | cons field schema ih =>
    rw [map_cons, nodup_cons] at hnodup
    cases values with
    | nil => cases hvalue
    | cons value values =>
      cases i with
      | zero =>
        cases hfield
        cases hvalue
        exact lookup_cons_self
      | succ i =>
        have hmem : name ∈ schema.map Prod.fst :=
          mem_map.mpr ⟨(name, type), mem_of_getElem? hfield, rfl⟩
        have hne : lit name ≠ lit field.1 := by
          intro heq
          exact hnodup.1 (lit_injective heq ▸ hmem)
        have hbeq : (lit name == lit field.1) = false := beq_eq_false_iff_ne.mpr hne
        show List.lookup (lit name) ((lit field.1, value.toJson) :: dictOf (row schema values)) = _
        rw [lookup_cons, hbeq]
        exact ih hnodup.2 hfield hvalue

section Items

variable {schema : List Field} {values : List Flat} {i : Nat} {name : String} {type : FieldType}

variable {s : Str}

section

variable (hnodup : (schema.map Prod.fst).Nodup)
include hnodup

theorem itemStr_row (hfield : schema[i]? = some (name, type))
    (hvalue : values[i]? = some (.text s)) : itemStr (dictOf (row schema values)) name = .ok s := by
  rw [itemStr, item, getField_row hnodup hfield hvalue]
  rfl

theorem itemU64_row (hfits : Fits schema values)
    (hfield : schema[i]? = some (name, .u64Decimal)) (hvalue : values[i]? = some (.text s)) :
    itemU64 (dictOf (row schema values)) name = .ok s := by
  obtain ⟨hi, hget⟩ := List.getElem?_eq_some_iff.mp hfield
  obtain ⟨hi', hget'⟩ := List.getElem?_eq_some_iff.mp hvalue
  have hcheck := (List.forall₂_iff_get.mp hfits).2 i hi hi' ⟨1, Nat.one_pos, fun _ => true⟩
  simp only [List.get_eq_getElem, hget, hget', checkField_eq_none] at hcheck
  obtain ⟨⟨_, heq, hpattern, -⟩, -⟩ := hcheck
  cases heq
  obtain ⟨hempty, hdigits⟩ := u64Pattern_digits hpattern
  rw [itemU64, itemStr_row hnodup hfield hvalue]
  simp [hempty, hdigits]

theorem itemInt_row {n : Nat}
    (hfield : schema[i]? = some (name, type)) (hvalue : values[i]? = some (.number n)) :
    itemInt (dictOf (row schema values)) name = .ok n := by
  rw [itemInt, item, getField_row hnodup hfield hvalue]
  rfl

theorem itemEnum_row {α : Type} {text : α → String} {members : List α} {v : α}
    (hfield : schema[i]? = some (name, type)) (hvalue : values[i]? = some (.text (lit (text v))))
    (hread : ofText text members (lit (text v)) = some v) :
    itemEnum text members (dictOf (row schema values)) name = .ok v := by
  rw [itemEnum, itemStr_row hnodup hfield hvalue]
  simp only [hread]

end

end Items

structure EventRow.Flags (r : EventRow) : Prop where
  canonicalValid : 0 ≤ r.canonicalValid
  parentValid : 0 ≤ r.parentValid
  producerOwned : 0 ≤ r.producerOwned
  copiedRead : 0 ≤ r.copiedRead
  sourceValid : 0 ≤ r.sourceValid
  bindingValid : 0 ≤ r.bindingValid
  bindingCurrent : 0 ≤ r.bindingCurrent
  kindMatch : 0 ≤ r.kindMatch
  roleMatch : 0 ≤ r.roleMatch
  generationValid : 0 ≤ r.generationValid
  lifecycleValid : 0 ≤ r.lifecycleValid
  observedAtValid : 0 ≤ r.observedAtValid

theorem ofText_event (e : EventName) : ofText EventName.text eventNames (lit e.text) = some e := by
  cases e <;> decide

theorem ofText_outcome (o : Outcome) : ofText Outcome.text outcomes (lit o.text) = some o := by
  cases o <;> decide

theorem ofText_reason (r : NativeReason) :
    ofText NativeReason.text nativeReasons (lit r.text) = some r := by
  cases r <;> decide

theorem ofText_lifecycle (l : Lifecycle) :
    ofText Lifecycle.text lifecycles (lit l.text) = some l := by
  cases l <;> decide

theorem ofText_phase (q : ReplayPhase) :
    ofText ReplayPhase.text replayPhases (lit q.text) = some q := by
  cases q <;> decide

theorem sequenceOf_row (hnodup : (schema.map Prod.fst).Nodup) {i line : Nat}
    (hfield : schema[i]? = some ("trace_sequence", type))
    (hvalue : values[i]? = some (.number line)) (hline : line ≤ MAX_RECORDS) :
    sequenceOf (dictOf (row schema values)) = some (line : Int) := by
  rw [sequenceOf, getField_row hnodup hfield hvalue]
  have hrange : (0 : Int) ≤ line ∧ (line : Int) ≤ U32_MAX := by
    simp only [MAX_RECORDS, U32_MAX] at hline ⊢
    omega
  simp [Flat.toJson, hrange]

section Event

-- the object is a variable of its own, so that reading it never unfolds the row
variable {line : Nat} {r : EventRow} {d : Dict} (hd : d = dictOf (eventMembers line r)) (i : Nat)
  {name : String} {type : FieldType}

include hd

variable {s : Str}

theorem itemStr_event (hfield : eventFields[i]? = some (name, type))
    (hvalue : (eventValues line r)[i]? = some (.text s)) : itemStr d name = .ok s :=
  hd ▸ itemStr_row eventFields_nodup hfield hvalue

theorem itemU64_event (hfits : Fits eventFields (eventValues line r))
    (hfield : eventFields[i]? = some (name, .u64Decimal))
    (hvalue : (eventValues line r)[i]? = some (.text s)) : itemU64 d name = .ok s :=
  hd ▸ itemU64_row eventFields_nodup hfits hfield hvalue

theorem itemInt_event {n : Int} (hfield : eventFields[i]? = some (name, type))
    (hvalue : (eventValues line r)[i]? = some (.number n.toNat)) (hn : 0 ≤ n) :
    itemInt d name = .ok n := by
  rw [hd, eventMembers, itemInt_row eventFields_nodup hfield hvalue, Int.toNat_of_nonneg hn]

theorem itemEnum_event {α : Type} {text : α → String} {members : List α} {v : α}
    (hread : ofText text members (lit (text v)) = some v)
    (hfield : eventFields[i]? = some (name, type))
    (hvalue : (eventValues line r)[i]? = some (.text (lit (text v)))) :
    itemEnum text members d name = .ok v :=
  hd ▸ itemEnum_row eventFields_nodup hfield hvalue hread

end Event

theorem readEvent_eventMembers {r : EventRow} (h : r.Flags)
    (hfits : Fits eventFields (eventValues line r)) (hline : line ≤ MAX_RECORDS) :
    readEvent (dictOf (eventMembers line r)) = .ok { r with sequence := some (line : Int) } := by
  obtain ⟨d, hd⟩ : ∃ d, d = dictOf (eventMembers line r) := ⟨_, rfl⟩
  have hsequence : sequenceOf d = some (line : Int) :=
    hd ▸ sequenceOf_row eventFields_nodup (i := 3) rfl rfl hline
  rw [← hd]
  unfold readEvent
  simp only [hsequence, bind, Except.bind, pure, Except.pure,
    itemStr_event hd 2 rfl rfl, itemU64_event hd 4 hfits rfl rfl,
    itemEnum_event hd 5 (ofText_event r.event) rfl rfl,
    itemEnum_event hd 6 (ofText_outcome r.claimedOutcome) rfl rfl,
    itemEnum_event hd 7 (ofText_reason r.claimedReason) rfl rfl,
    itemStr_event hd 8 rfl rfl, itemStr_event hd 9 rfl rfl,
    itemStr_event hd 10 rfl rfl, itemU64_event hd 11 hfits rfl rfl,
    itemInt_event hd 12 rfl rfl h.canonicalValid, itemStr_event hd 13 rfl rfl,
    itemU64_event hd 14 hfits rfl rfl, itemInt_event hd 15 rfl rfl h.parentValid,
    itemU64_event hd 16 hfits rfl rfl, itemInt_event hd 17 rfl rfl h.producerOwned,
    itemInt_event hd 18 rfl rfl h.copiedRead, itemStr_event hd 19 rfl rfl,
    itemU64_event hd 20 hfits rfl rfl, itemU64_event hd 21 hfits rfl rfl,
    itemU64_event hd 22 hfits rfl rfl, itemStr_event hd 23 rfl rfl,
    itemStr_event hd 24 rfl rfl, itemInt_event hd 25 rfl rfl h.sourceValid,
    itemU64_event hd 26 hfits rfl rfl, itemU64_event hd 27 hfits rfl rfl,
    itemU64_event hd 28 hfits rfl rfl, itemInt_event hd 29 rfl rfl h.bindingValid,
    itemInt_event hd 30 rfl rfl h.bindingCurrent,
    itemInt_event hd 31 rfl rfl h.kindMatch, itemInt_event hd 32 rfl rfl h.roleMatch,
    itemInt_event hd 33 rfl rfl h.generationValid,
    itemEnum_event hd 34 (ofText_lifecycle r.lifecycleState) rfl rfl,
    itemInt_event hd 35 rfl rfl h.lifecycleValid, itemU64_event hd 36 hfits rfl rfl,
    itemInt_event hd 37 rfl rfl h.observedAtValid]

theorem readTerminal_terminalMembers {t : TerminalRow} (haccepted : 0 ≤ t.acceptedCount)
    (hrejected : 0 ≤ t.rejectedCount) (hfits : Fits terminalFields (terminalValues traceId line t))
    (hline : line ≤ MAX_RECORDS) :
    readTerminal (dictOf (terminalMembers traceId line t)) =
      .ok { t with sequence := some (line : Int) } := by
  obtain ⟨d, hd⟩ : ∃ d, d = dictOf (terminalMembers traceId line t) := ⟨_, rfl⟩
  have hn := terminalFields_nodup
  have hsequence : sequenceOf d = some (line : Int) := hd ▸ sequenceOf_row hn (i := 3) rfl rfl hline
  have hhost : itemU64 d "host_instance" = .ok t.hostInstance :=
    hd ▸ itemU64_row hn hfits (i := 4) rfl rfl
  have hproducer : itemU64 d "producer_instance" = .ok t.producerInstance :=
    hd ▸ itemU64_row hn hfits (i := 5) rfl rfl
  have hacceptedCount : itemInt d "accepted_count" = .ok (t.acceptedCount.toNat : Int) :=
    hd ▸ itemInt_row hn (i := 7) rfl rfl
  have hrejectedCount : itemInt d "rejected_count" = .ok (t.rejectedCount.toNat : Int) :=
    hd ▸ itemInt_row hn (i := 8) rfl rfl
  have hfinal : itemEnum ReplayPhase.text replayPhases d "final_state" = .ok t.finalState :=
    hd ▸ itemEnum_row hn (i := 9) rfl rfl (ofText_phase _)
  have hgeneration : itemStr d "final_binding_generation" = .ok t.finalBindingGeneration :=
    hd ▸ itemStr_row hn (i := 10) rfl rfl
  rw [Int.toNat_of_nonneg haccepted] at hacceptedCount
  rw [Int.toNat_of_nonneg hrejected] at hrejectedCount
  rw [← hd]
  unfold readTerminal
  simp only [bind, Except.bind, pure, Except.pure, hsequence, hhost, hproducer, hacceptedCount,
    hrejectedCount, hfinal, hgeneration]

/-! ## Phase 3 -/

theorem Fits.length (h : Fits schema values) :
    schema.length = values.length := List.Forall₂.length_eq h

theorem Fits.names (h : Fits schema values) :
    (dictOf (row schema values)).map Prod.fst = schema.map fun f => lit f.1 := by
  unfold dictOf row
  rw [map_map]
  exact map_fst_zip (by simp [h.length])

theorem nestedFailures_dictOf : nestedFailures (dictOf ms) = [] := by
  unfold nestedFailures dictOf
  rw [filterMap_map]
  refine filterMap_eq_nil_iff.mpr fun m _ => ?_
  obtain ⟨name, value⟩ := m
  cases value <;> rfl

theorem schemaFailures_row (hnodup : (schema.map Prod.fst).Nodup) (h : Fits schema values) :
    schemaFailures interp schema (dictOf (row schema values)) = [] := by
  refine schemaFailures_eq_nil.mpr ⟨fun field hfield => ?_, ?_, nestedFailures_dictOf⟩
  · obtain ⟨i, hi, rfl⟩ := getElem_of_mem hfield
    have hi' : i < values.length := h.length ▸ hi
    have hget : getField (dictOf (row schema values)) schema[i].1 = some (values[i]).toJson :=
      getField_row hnodup (getElem?_eq_getElem hi) (getElem?_eq_getElem hi')
    exact ⟨_, hget, checkField_eq_none.mp ((forall₂_iff_get.mp h).2 i hi hi' interp)⟩
  · rw [h.names]
    exact fun _ hkey => hkey

/-- The values of a row can be written. -/
structure Writable (values : List Flat) : Prop where
  plain : ∀ v ∈ values, v.IsPlain
  short : ∀ v ∈ values, v.render.length ≤ 66

theorem firstDuplicate_eq_none {seen : List Str} (hnodup : (d.map Prod.fst).Nodup)
    (hseen : ∀ key ∈ d.map Prod.fst, key ∉ seen) : firstDuplicate seen d = none := by
  induction d generalizing seen with
  | nil => rfl
  | cons kv d ih =>
    obtain ⟨key, value⟩ := kv
    rw [map_cons, nodup_cons] at hnodup
    have hkey : seen.contains key = false := by
      simpa using hseen key mem_cons_self
    rw [firstDuplicate, hkey]
    refine ih hnodup.2 fun k hk hmem => ?_
    rcases mem_cons.mp hmem with rfl | hmem
    · exact hnodup.1 hk
    · exact hseen k (mem_cons_of_mem key hk) hmem

theorem length_renderMembers (h : ∀ m ∈ ms, m.2.render.length ≤ 66) :
    (renderMembers ms).length ≤ (ms.map fun m => m.1.length + 70).sum := by
  induction ms with
  | nil => exact le_refl 0
  | cons m ms ih =>
    have hm := h m mem_cons_self
    have hrest := ih fun n hn => h n (mem_cons_of_mem m hn)
    cases ms with
    | nil =>
      simp [renderMembers, renderMember, renderString]
      omega
    | cons m' ms =>
      rw [renderMembers_cons (cons_ne_nil _ _)]
      simp only [map_cons, sum_cons, length_append, length_cons,
        renderMember, renderString, length_nil] at hrest ⊢
      omega

theorem lineOk_row (hne : schema ≠ []) (hnodup : (schema.map Prod.fst).Nodup)
    (hnames : ∀ f ∈ schema, IsPlain (lit f.1))
    (hlength : (schema.map fun f => (lit f.1).length + 70).sum ≤ 3998) (h : Fits schema values)
    (hw : Writable values) : LineOk (row schema values) := by
  have hvalue : ∀ m ∈ row schema values, m.2 ∈ values := fun m hm => (of_mem_zip hm).2
  have hname : ∀ m ∈ row schema values, ∃ f ∈ schema, lit f.1 = m.1 := fun m hm =>
    mem_map.mp (of_mem_zip hm).1
  refine ⟨?_, ?_, ?_, ?_⟩
  · intro hnil
    have hlen : (row schema values).length = schema.length := by
      simp [row, h.length]
    rw [hnil] at hlen
    exact hne (length_eq_zero_iff.mp hlen.symm)
  · intro m hm
    obtain ⟨f, hf, heq⟩ := hname m hm
    exact ⟨heq ▸ hnames f hf, hw.plain _ (hvalue m hm)⟩
  · refine firstDuplicate_eq_none ?_ (by simp)
    rw [h.names]
    have hlit : (schema.map fun f => lit f.1) = (schema.map Prod.fst).map lit := by
      rw [map_map]
      rfl
    rw [hlit]
    exact hnodup.map lit_injective
  · have hmembers := length_renderMembers fun m hm => hw.short _ (hvalue m hm)
    have hsum : ((row schema values).map fun m => m.1.length + 70) =
        schema.map fun f => (lit f.1).length + 70 := by
      have hfst : (row schema values).map Prod.fst = schema.map fun f => lit f.1 :=
        map_fst_zip (by simp [h.length])
      calc ((row schema values).map fun m => m.1.length + 70)
          = ((row schema values).map Prod.fst).map fun s => s.length + 70 := by
            rw [map_map]
            rfl
        _ = schema.map fun f => (lit f.1).length + 70 := by
            rw [hfst, map_map]
            rfl
    rw [hsum] at hmembers
    simp only [renderObject, length_cons, length_append, length_nil]
    omega

instance (s : Str) : Decidable (IsPlain s) :=
  inferInstanceAs (Decidable (∀ c ∈ s, 32 ≤ c ∧ c < 127 ∧ c ≠ 34 ∧ c ≠ 92))

theorem fieldNames_plain :
    ∀ f ∈ eventFields ++ terminalFields, IsPlain (lit f.1) ∧ (lit f.1).length ≤ 24 := by
  decide +kernel

theorem sum_length_le {fields : List Field} (h : ∀ f ∈ fields, (lit f.1).length ≤ 24) :
    (fields.map fun f => (lit f.1).length + 70).sum ≤ fields.length * 94 := by
  induction fields with
  | nil => exact le_refl 0
  | cons f fields ih =>
    obtain ⟨hf, hfields⟩ := forall_mem_cons.mp h
    have hrest := ih hfields
    rw [map_cons, sum_cons, length_cons]
    omega

theorem eventFields_plain : ∀ f ∈ eventFields, IsPlain (lit f.1) :=
  fun f hf => (fieldNames_plain f (mem_append_left _ hf)).1

theorem eventFields_length : (eventFields.map fun f => (lit f.1).length + 70).sum ≤ 3998 :=
  le_trans (sum_length_le fun f hf => (fieldNames_plain f (mem_append_left _ hf)).2)
    (by decide)

theorem terminalFields_plain : ∀ f ∈ terminalFields, IsPlain (lit f.1) :=
  fun f hf => (fieldNames_plain f (mem_append_right _ hf)).1

theorem terminalFields_length : (terminalFields.map fun f => (lit f.1).length + 70).sum ≤ 3998 :=
  le_trans (sum_length_le fun f hf => (fieldNames_plain f (mem_append_right _ hf)).2)
    (by decide)

/-! ## Phase 4 -/

/-- An object that the envelope has nothing against at its place in the trace. -/
structure EnvelopeOk (traceId : Str) (line : Nat) (d : Dict) : Prop where
  sequence : sequenceOf d = some (line : Int)
  traceId : getField d "trace_id" = some (.str traceId)
  paired : getField d "claimed_outcome" = none ∨
    ∃ outcome reason allowed, getField d "claimed_outcome" = some (.str outcome) ∧
      getField d "claimed_reason" = some (.str reason) ∧
      outcomePairing.lookup outcome = some allowed ∧ allowed.contains reason = true

section

variable (h : EnvelopeOk traceId line d) (hexpected : expected = none ∨ expected = some traceId)
include h hexpected

theorem envelopeRecord_clean : envelopeRecord interp line expected d = [] := by
  have hid : ∀ first, expected = some first → traceId = first := by
    rintro first rfl
    rcases hexpected with hnone | hsome
    · cases hnone
    · exact (Option.some.inj hsome).symm
  unfold envelopeRecord
  simp only [h.sequence, if_true, nil_append, append_eq_nil_iff]
  constructor
  · rw [h.traceId]
    cases expected with
    | none => rfl
    | some first => simp [hid first rfl]
  · rcases h.paired with hnone | ⟨outcome, reason, allowed, houtcome, hreason, hlookup, hallowed⟩
    · rw [hnone]
    · rw [houtcome, hreason]
      simp [hlookup]
      simpa using hallowed

theorem nextTraceId_clean : nextTraceId expected (.obj d) = some traceId := by
  rcases hexpected with rfl | rfl
  · simp [nextTraceId, h.traceId]
  · rfl

end

theorem envelopeRecords_clean (traceId : Str) {n : Nat}
    (h : ∀ x ∈ dicts.zipIdx n, EnvelopeOk traceId x.2 x.1)
    (hexpected : expected = none ∨ expected = some traceId) :
    envelopeRecords interp n expected (dicts.map Json.obj) = [] := by
  induction dicts generalizing n expected with
  | nil => rfl
  | cons d dicts ih =>
    have hd : EnvelopeOk traceId n d := h (d, n) (by simp)
    have hrest : ∀ x ∈ dicts.zipIdx (n + 1), EnvelopeOk traceId x.2 x.1 := fun x hx =>
      h x (by rw [zipIdx_cons]; exact mem_cons_of_mem _ hx)
    rw [map_cons, envelopeRecords, nextTraceId_clean hd hexpected,
      ih hrest (.inr rfl), envelopeRecord_clean hd hexpected]
    rfl

section

variable (hevents : ∀ d ∈ dicts, isTerminal (.obj d) = false)
  (hlast : isTerminal (.obj last) = true)
include hevents hlast

theorem terminalFailures_eq :
    terminalFailures (dicts.map Json.obj ++ [.obj last]) =
      terminalCounts (dicts.length + 1) last dicts.length := by
  have hnone : ((dicts.map Json.obj).zipIdx 1).filter (fun x => isTerminal x.1) = [] := by
    rw [filter_zipIdx_eq_nil]
    intro record hmem
    obtain ⟨d, hd, rfl⟩ := mem_map.mp hmem
    exact hevents d hd
  have hfilter : ((dicts.map Json.obj ++ [Json.obj last]).zipIdx 1).filter
      (fun x => isTerminal x.1) = [(Json.obj last, 1 + dicts.length)] := by
    rw [zipIdx_append, filter_append, hnone]
    simp [hlast]
  unfold terminalFailures
  rw [hfilter]
  simp [Nat.add_comm 1]

theorem terminalFailures_clean {accepted rejected : Int}
    (hsequence : sequenceOf last = some (dicts.length + 1 : Int))
    (hcount : getInt last "record_count" = some (dicts.length : Int))
    (haccepted : getInt last "accepted_count" = some accepted)
    (hrejected : getInt last "rejected_count" = some rejected)
    (hsum : accepted + rejected = dicts.length) :
    terminalFailures (dicts.map Json.obj ++ [.obj last]) = [] := by
  rw [terminalFailures_eq hevents hlast]
  simp [terminalCounts, hcount, hsequence, haccepted, hrejected, hsum]

end

end AiosKernel.Replay
