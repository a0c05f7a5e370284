/-
# `AiosKernel.Replay.Edit` — leaving a record out of a trace

The edit that deletes one record, renumbers those after it, and lets the
terminal count one record and one rejection less.  Phases 3 and 4 have nothing
against the edited records if they had nothing against the original ones and
the terminal counts a rejection, and the events are read as before but for
their sequence numbers.
-/
import AiosKernel.Replay.Envelope

namespace AiosKernel.Replay

open Py List

/-! ## The edit -/

def decrement : Json → Json
  | .int n => .int (n - 1)
  | v => v

/-- A record with one of its fields one lower. -/
def lower (name : String) (d : Dict) : Dict :=
  d.map fun kv => if kv.1 = lit name then (kv.1, decrement kv.2) else kv

/-- A record one line up.  A terminal has one record and one rejection less to count. -/
def moveUp (d : Dict) : Dict :=
  if isTerminal (.obj d) then
    lower "rejected_count" (lower "record_count" (lower "trace_sequence" d))
  else lower "trace_sequence" d

def moveUpRecord : Json → Json
  | .obj d => .obj (moveUp d)
  | v => v

/-- The records without the one at a place, and those after it one line up. -/
def withoutRecord (i : Nat) (records : List Json) : List Json :=
  records.take i ++ (records.drop (i + 1)).map moveUpRecord

section Lower

variable {name other : String} {d : Dict}

@[simp] theorem keys_lower : (lower name d).map Prod.fst = d.map Prod.fst := by
  rw [lower, map_map]
  refine map_congr_left fun kv _ => ?_
  simp only [Function.comp_apply]
  split <;> rfl

theorem getField_lower_self : getField (lower name d) name = (getField d name).map decrement := by
  induction d with
  | nil => rfl
  | cons kv d ih =>
    obtain ⟨key, v⟩ := kv
    unfold getField lower at ih ⊢
    rw [map_cons, lookup_cons]
    by_cases hkey : key = lit name
    · simp [hkey]
    · have hbeq : (lit name == key) = false := beq_eq_false_iff_ne.mpr (Ne.symm hkey)
      simp only [hkey, if_false, hbeq, lookup_cons]
      exact ih

theorem getField_lower (h : other ≠ name) : getField (lower name d) other = getField d other := by
  have hlit : lit other ≠ lit name := fun heq => h (lit_injective heq)
  induction d with
  | nil => rfl
  | cons kv d ih =>
    obtain ⟨key, v⟩ := kv
    unfold getField lower at ih ⊢
    rw [map_cons, lookup_cons, lookup_cons]
    by_cases hkey : key = lit name
    · have hbeq : (lit other == key) = false := beq_eq_false_iff_ne.mpr (hkey ▸ hlit)
      simp only [hkey, if_true] at ih ⊢
      rw [hkey] at hbeq
      simp only [hbeq]
      exact ih
    · simp only [hkey, if_false]
      split
      · rfl
      · exact ih

theorem nestedFailures_lower : nestedFailures (lower name d) = nestedFailures d := by
  unfold nestedFailures lower
  rw [filterMap_map]
  refine filterMap_congr fun kv _ => ?_
  obtain ⟨key, v⟩ := kv
  by_cases hkey : key = lit name
  · cases v <;> simp [hkey, decrement]
  · simp [hkey]

variable {n : Int}

theorem getInt_eq_some : getInt d name = some n ↔ getField d name = some (.int n) := by
  unfold getInt
  split
  · rename_i m hm
    simp [hm]
  · rename_i hne
    simp only [reduceCtorEq, false_iff]
    exact hne n

theorem getInt_lower_self (h : getInt d name = some n) :
    getInt (lower name d) name = some (n - 1) := by
  rw [getInt_eq_some] at h ⊢
  rw [getField_lower_self, h]
  rfl

theorem getInt_lower (h : other ≠ name) : getInt (lower name d) other = getInt d other := by
  rw [getInt, getInt, getField_lower h]

theorem isTerminal_lower (h : "record_type" ≠ name) :
    isTerminal (.obj (lower name d)) = isTerminal (.obj d) := by
  simp only [isTerminal, getField_lower h]

theorem isEvent_lower (h : "record_type" ≠ name) :
    isEvent (.obj (lower name d)) = isEvent (.obj d) := by
  simp only [isEvent, getField_lower h]

theorem WellShaped.lower {schema : List Field} (h : WellShaped schema d)
    (htype : ∀ f ∈ schema, f.1 = name → f.2 = .u32) (hconstant : constants.lookup name = none)
    (hn : Replay.getInt d name = some n) (hpos : 1 ≤ n) :
    WellShaped schema (Replay.lower name d) := by
  rw [getInt_eq_some] at hn
  refine ⟨fun f hf => ?_, ?_, ?_⟩
  · obtain ⟨v, hv, hadmits, hconst⟩ := h.fields f hf
    obtain ⟨field, type⟩ := f
    by_cases hname : field = name
    · subst hname
      cases htype _ hf rfl
      rw [hn] at hv
      cases hv
      obtain ⟨m, hm, hlow, hhigh⟩ := hadmits
      cases hm
      refine ⟨.int (n - 1), ?_, ⟨n - 1, rfl, by omega, by omega⟩, ?_⟩
      · rw [getField_lower_self, hn]
        rfl
      · simp [checkConstant, hconstant]
    · exact ⟨v, by rw [getField_lower hname, hv], hadmits, hconst⟩
  · rw [keys_lower]
    exact h.known
  · rw [nestedFailures_lower]
    exact h.flat

theorem Shaped.lower (h : Shaped d)
    (htype : ∀ f ∈ eventFields ++ terminalFields, f.1 = name → f.2 = .u32)
    (hconstant : constants.lookup name = none) (hname : "record_type" ≠ name)
    (hn : getInt d name = some n) (hpos : 1 ≤ n) : Shaped (Replay.lower name d) := by
  cases h with
  | event kind shape =>
    refine .event ?_ (shape.lower (fun f hf => htype f ?_) hconstant hn hpos)
    · rw [isEvent_lower hname]
      exact kind
    · exact mem_append_left _ hf
  | terminal kind shape =>
    refine .terminal ?_ (shape.lower (fun f hf => htype f ?_) hconstant hn hpos)
    · rw [isTerminal_lower hname]
      exact kind
    · exact mem_append_right _ hf

end Lower

/-! ## Clean traces -/

section MoveUp

variable {traceId : Str} {line : Nat} {d : Dict}

theorem EnvelopeOk.getInt (h : EnvelopeOk traceId line d) :
    Replay.getInt d "trace_sequence" = some (line : Int) ∧ (line : Int) ≤ U32_MAX := by
  have hsequence := h.sequence
  unfold sequenceOf at hsequence
  split at hsequence
  · rename_i n hn
    split at hsequence
    · rename_i hrange
      cases hsequence
      exact ⟨getInt_eq_some.mpr hn, hrange.2⟩
    · cases hsequence
  · cases hsequence

theorem EnvelopeOk.lower (h : EnvelopeOk traceId (line + 1) d) :
    EnvelopeOk traceId line (lower "trace_sequence" d) := by
  obtain ⟨hint, hmax⟩ := h.getInt
  have hlowered := getInt_eq_some.mp (getInt_lower_self hint)
  refine ⟨?_, ?_, ?_⟩
  · have hvalue : ((line + 1 : Nat) : Int) - 1 = line := by omega
    have hrange : (0 : Int) ≤ line ∧ (line : Int) ≤ U32_MAX := by omega
    rw [sequenceOf, hlowered, hvalue]
    simp [hrange]
  · rw [getField_lower (by decide)]
    exact h.traceId
  · rw [getField_lower (by decide), getField_lower (by decide)]
    exact h.paired

theorem EnvelopeOk.lower_count (h : EnvelopeOk traceId line d) {name : String}
    (hname : name ∉ ["trace_sequence", "trace_id", "claimed_outcome", "claimed_reason"]) :
    EnvelopeOk traceId line (Replay.lower name d) := by
  simp only [mem_cons, not_mem_nil, or_false, not_or] at hname
  obtain ⟨hsequence, htraceId, houtcome, hreason⟩ := hname
  refine ⟨?_, ?_, ?_⟩
  · rw [sequenceOf, getField_lower (Ne.symm hsequence)]
    exact h.sequence
  · rw [getField_lower (Ne.symm htraceId)]
    exact h.traceId
  · rw [getField_lower (Ne.symm houtcome), getField_lower (Ne.symm hreason)]
    exact h.paired

theorem EnvelopeOk.moveUp (h : EnvelopeOk traceId (line + 1) d) :
    EnvelopeOk traceId line (moveUp d) := by
  unfold Replay.moveUp
  split
  · exact (h.lower.lower_count (by decide)).lower_count (by decide)
  · exact h.lower

theorem Shaped.lower_sequence (h : Shaped d) (henvelope : EnvelopeOk traceId (line + 1) d) :
    Shaped (Replay.lower "trace_sequence" d) := by
  refine h.lower (by decide) rfl (by decide) henvelope.getInt.1 ?_
  omega

@[simp] theorem isTerminal_moveUp : isTerminal (.obj (moveUp d)) = isTerminal (.obj d) := by
  unfold moveUp
  split
  · rw [isTerminal_lower (by decide), isTerminal_lower (by decide), isTerminal_lower (by decide)]
  · rw [isTerminal_lower (by decide)]

@[simp] theorem isEvent_moveUp : isEvent (.obj (moveUp d)) = isEvent (.obj d) := by
  unfold moveUp
  split
  · rw [isEvent_lower (by decide), isEvent_lower (by decide), isEvent_lower (by decide)]
  · rw [isEvent_lower (by decide)]

@[simp] theorem keys_moveUp : (moveUp d).map Prod.fst = d.map Prod.fst := by
  unfold moveUp
  split <;> simp

theorem moveUp_event (h : isEvent (.obj d) = true) : moveUp d = lower "trace_sequence" d := by
  rw [moveUp, isTerminal_of_isEvent h]
  rfl

theorem moveUp_terminal (h : isTerminal (.obj d) = true) :
    moveUp d = lower "rejected_count" (lower "record_count" (lower "trace_sequence" d)) := by
  rw [moveUp, h]
  rfl

theorem Shaped.moveUp_terminal (h : Shaped d) (henvelope : EnvelopeOk traceId (line + 1) d)
    (hkind : isTerminal (.obj d) = true) {count rejected : Int}
    (hcount : getInt d "record_count" = some count) (hcountPos : 1 ≤ count)
    (hrejected : getInt d "rejected_count" = some rejected) (hrejectedPos : 1 ≤ rejected) :
    Shaped (moveUp d) := by
  rw [Replay.moveUp_terminal hkind]
  refine ((h.lower_sequence henvelope).lower (by decide) rfl (by decide) ?_ hcountPos).lower
    (by decide) rfl (by decide) ?_ hrejectedPos
  · rw [getInt_lower (by decide)]
    exact hcount
  · rw [getInt_lower (by decide), getInt_lower (by decide)]
    exact hrejected

end MoveUp

variable {n : Nat} {pre post : List Dict}

theorem forall_zipIdx_map {α β : Type} {P : Nat → α → Prop} {Q : Nat → β → Prop} {f : α → β}
    {l : List α} (hf : ∀ i a, P (i + 1) a → Q i (f a)) (h : ∀ x ∈ l.zipIdx (n + 1), P x.2 x.1) :
    ∀ x ∈ (l.map f).zipIdx n, Q x.2 x.1 := by
  intro x hx
  rw [zipIdx_map, mem_map] at hx
  obtain ⟨⟨a, i⟩, ha, rfl⟩ := hx
  refine hf i a (h (a, i + 1) ?_)
  rw [zipIdx_succ]
  exact mem_map_of_mem ha

theorem exists_line {α : Type} {P : Nat → α → Prop} {l : List α}
    (h : ∀ x ∈ l.zipIdx (n + 1), P x.2 x.1) {a : α} (ha : a ∈ l) : ∃ i, P (i + 1) a := by
  obtain ⟨k, hk, rfl⟩ := getElem_of_mem ha
  have hmem : (l[k], n + 1 + k) ∈ l.zipIdx (n + 1) :=
    mk_add_mem_zipIdx_iff_getElem?.mpr (getElem?_eq_getElem hk)
  refine ⟨n + k, ?_⟩
  rw [Nat.add_right_comm]
  exact h _ hmem

theorem areEvents_without {d : Dict} (h : ∀ x ∈ pre ++ d :: post, isEvent (.obj x) = true) :
    ∀ x ∈ pre ++ post.map moveUp, isEvent (.obj x) = true := by
  refine forall_mem_append.mpr ⟨fun x hx => h x (mem_append_left _ hx), ?_⟩
  refine forall_mem_map.mpr fun y hy => ?_
  rw [isEvent_moveUp]
  exact h y (by simp [hy])

theorem CleanTrace.without {traceId : Str} {d last : Dict}
    (h : CleanTrace traceId (pre ++ d :: post) last) {rejected : Int}
    (hrejected : getInt last "rejected_count" = some rejected) (hpos : 1 ≤ rejected) :
    CleanTrace traceId (pre ++ post.map moveUp) (moveUp last) := by
  have horder := h.inOrder
  rw [append_assoc, zipIdx_append, forall_mem_append, cons_append,
    zipIdx_cons, forall_mem_cons] at horder
  obtain ⟨hbefore, -, hafter⟩ := horder
  have hevents : ∀ e ∈ post, isEvent (.obj e) = true := fun e he => h.areEvents e (by simp [he])
  obtain ⟨accepted, _, haccepted, hsame, hsum⟩ := h.counts
  rw [hrejected] at hsame
  cases hsame
  have hlength : ((pre ++ d :: post).length : Int) - 1 = (pre ++ post.map moveUp).length := by
    simp
    omega
  have hlast := moveUp_terminal h.isLast
  refine ⟨?_, ?_, ?_, ?_, ?_, ?_⟩
  · rw [append_assoc, forall_mem_append]
    refine ⟨fun e he => h.shaped e (by simp [he]), forall_mem_append.mpr ⟨?_, ?_⟩⟩
    · intro e he
      obtain ⟨e', he', rfl⟩ := mem_map.mp he
      obtain ⟨line, hline⟩ := exists_line hafter (mem_append_left _ he')
      rw [moveUp_event (hevents e' he')]
      exact (h.shaped e' (by simp [he'])).lower_sequence hline
    · rw [forall_mem_singleton]
      obtain ⟨line, hline⟩ := exists_line hafter (mem_append_right _ mem_cons_self)
      refine (h.shaped last (by simp)).moveUp_terminal hline h.isLast h.count ?_ hrejected hpos
      omega
  · exact areEvents_without h.areEvents
  · rw [isTerminal_moveUp]
    exact h.isLast
  · have hmap : pre ++ post.map moveUp ++ [moveUp last] = pre ++ (post ++ [last]).map moveUp := by
      simp
    rw [hmap, zipIdx_append, forall_mem_append]
    exact ⟨hbefore, forall_zipIdx_map (fun _ _ hx => hx.moveUp) hafter⟩
  · rw [hlast, getInt_lower (by decide), getInt_lower_self, hlength]
    rw [getInt_lower (by decide)]
    exact h.count
  · refine ⟨accepted, rejected - 1, ?_, ?_, by omega⟩
    · rw [hlast, getInt_lower (by decide), getInt_lower (by decide), getInt_lower (by decide)]
      exact haccepted
    · rw [hlast]
      refine getInt_lower_self ?_
      rw [getInt_lower (by decide), getInt_lower (by decide)]
      exact hrejected

theorem withoutRecord_eq {d last : Dict} :
    withoutRecord pre.length ((pre ++ d :: post).map Json.obj ++ [.obj last]) =
      (pre ++ post.map moveUp).map Json.obj ++ [.obj (moveUp last)] := by
  have hmap : (pre ++ d :: post).map Json.obj ++ [.obj last] =
      (pre.map Json.obj ++ [.obj d]) ++ (post ++ [last]).map Json.obj := by simp
  have htake : ((pre.map Json.obj ++ [Json.obj d]) ++ (post ++ [last]).map Json.obj).take pre.length =
      pre.map Json.obj := by
    rw [append_assoc]
    exact take_left' (by simp)
  have hdrop : ((pre.map Json.obj ++ [Json.obj d]) ++ (post ++ [last]).map Json.obj).drop
      (pre.length + 1) = (post ++ [last]).map Json.obj := drop_left' (by simp)
  have hmoved : ∀ dicts : List Dict, (dicts.map Json.obj).map moveUpRecord =
      (dicts.map moveUp).map Json.obj := by
    intro dicts
    rw [map_map, map_map]
    rfl
  rw [withoutRecord, hmap, htake, hdrop, hmoved]
  simp

/-! ## Reading the edited records -/

section Items

variable {name other : String} {d : Dict}

section

variable (h : other ≠ name)
include h

theorem itemStr_lower : itemStr (lower name d) other = itemStr d other := by
  rw [itemStr, itemStr, item, item, getField_lower h]

theorem itemU64_lower : itemU64 (lower name d) other = itemU64 d other := by
  rw [itemU64, itemU64, itemStr_lower h]

theorem itemInt_lower : itemInt (lower name d) other = itemInt d other := by
  rw [itemInt, itemInt, item, item, getField_lower h]

theorem itemEnum_lower {α : Type} {text : α → String} {members : List α} :
    itemEnum text members (lower name d) other = itemEnum text members d other := by
  rw [itemEnum, itemEnum, itemStr_lower h]

end

theorem itemInt_lower_self : itemInt (lower name d) name = (fun n => n - 1) <$> itemInt d name := by
  unfold itemInt item
  rw [getField_lower_self]
  cases getField d name with
  | none => rfl
  | some v => cases v <;> rfl

end Items

theorem readEvent_lower (d : Dict) :
    readEvent (lower "trace_sequence" d) =
      (fun r => { r with sequence := sequenceOf (lower "trace_sequence" d) }) <$> readEvent d := by
  unfold readEvent
  simp only [ne_eq, String.reduceEq, not_false_eq_true, itemStr_lower, itemU64_lower, itemInt_lower,
    itemEnum_lower, map_bind, map_pure]

theorem readTerminal_moveUp {d : Dict} (h : isTerminal (.obj d) = true) :
    readTerminal (moveUp d) =
      (fun t => { t with
        sequence := sequenceOf (moveUp d)
        rejectedCount := t.rejectedCount - 1 }) <$> readTerminal d := by
  rw [moveUp_terminal h]
  unfold readTerminal
  simp only [ne_eq, String.reduceEq, not_false_eq_true, itemStr_lower, itemU64_lower, itemInt_lower,
    itemInt_lower_self, itemEnum_lower, map_bind, bind_map_left, map_pure]

/-- The same event up to its line and its sequence number. -/
def Renumbered (e e' : Nat × EventRow) : Prop := ∃ x, e'.2 = { e.2 with sequence := x }

/-- The events after the one left out are the same, one line up. -/
theorem exists_renumbered {after : List (Nat × EventRow)}
    (hevents : ∀ d ∈ post, isEvent (.obj d) = true)
    (h : List.Forall₂ EventAt (post.zipIdx (n + 1)) after) :
    ∃ after', List.Forall₂ EventAt ((post.map moveUp).zipIdx n) after' ∧
      List.Forall₂ Renumbered after after' := by
  induction post generalizing n after with
  | nil =>
    cases h
    exact ⟨[], .nil, .nil⟩
  | cons d post ih =>
    cases h with
    | @cons _ e _ after hat hrest =>
      obtain ⟨after', hafter', hrenumbered⟩ :=
        ih (fun x hx => hevents x (mem_cons_of_mem d hx)) hrest
      obtain ⟨hline, hread⟩ := hat
      refine ⟨(n, { e.2 with sequence := sequenceOf (lower "trace_sequence" d) }) :: after', ?_,
        .cons ⟨_, rfl⟩ hrenumbered⟩
      refine .cons ⟨rfl, ?_⟩ hafter'
      rw [moveUp_event (hevents d mem_cons_self), readEvent_lower, hread]
      rfl

end AiosKernel.Replay
