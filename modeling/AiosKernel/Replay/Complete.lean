/-
# `AiosKernel.Replay.Complete` — a trace for every lifecycle

For every word of the lifecycle there are rows that replay it: each event shows
the numbers that its state asks for, a generation grows by one where it has to
grow, and a rediscovered source gets the next instance.  With `Written`, which
turns rows into a file, this is why the verifier asks for no more than the
automaton does.
-/
import AiosKernel.Replay.Written

namespace AiosKernel.Replay

open Py List

/-! ## Numbers in a row -/

variable {n line : Nat} {s : ReplayState} {x : Shown} {p : Progress}
  {events : List (Nat × EventRow)} {e : EventName} {q : Mode} {w : List EventName}

theorem length_dec_le (h : n ≤ U64_MAX) : (dec n).length ≤ 20 := by
  unfold dec
  split
  · decide
  · rw [length_reverse, length_map, Nat.digits_length_le_iff (by norm_num)]
    simp only [U64_MAX] at h
    omega

theorem u64Pattern_dec (h : n ≤ U64_MAX) : u64Pattern (dec n) = true := by
  have hlen := length_dec_le h
  rcases dec_shape n with ⟨-, hdec⟩ | ⟨c, ds, hdec, hne, hc, hds⟩
  · rw [hdec]
    rfl
  · rw [hdec, length_cons] at hlen
    rw [hdec]
    simp only [isDigit, Bool.and_eq_true, decide_eq_true_eq] at hc
    unfold u64Pattern
    split
    · rfl
    · rename_i c' rest _ heq
      cases heq
      have hall : ds.all isDigit = true := all_eq_true.mpr hds
      simp only [Bool.and_eq_true, decide_eq_true_eq, hall, and_true]
      omega
    · rename_i heq
      cases heq

/-! ## Rows -/

/-- The numbers that an event shows of its source and binding. -/
structure Shown where
  sourceInstance : Nat
  sourceGeneration : Nat
  boundSourceInstance : Nat
  boundSourceGeneration : Nat
  bindingGeneration : Nat
  bindingValid : Bool
  bindingCurrent : Bool
  lifecycleState : Lifecycle

/-- A row of the trusted target with the given numbers. -/
def Shown.row (x : Shown) (line : Nat) (event : EventName) (outcome : Outcome)
    (reason : NativeReason) : EventRow where
  traceId := lit "trace"
  sequence := some (line : Int)
  hostInstance := lit "1"
  event := event
  claimedOutcome := outcome
  claimedReason := reason
  canonicalNamespace := lit target.canonicalNamespace
  canonicalId := lit target.canonicalId
  canonicalKind := lit target.canonicalKind
  canonicalGeneration := lit "1"
  canonicalValid := 1
  parentCellId := lit target.parentCellId
  parentGeneration := lit "1"
  parentValid := 1
  producerInstance := lit "1"
  producerOwned := 1
  copiedRead := 1
  sourceNamespace := lit target.sourceNamespace
  sourceId := lit target.nativeSourceId
  sourceInstance := dec x.sourceInstance
  sourceGeneration := dec x.sourceGeneration
  sourceKind := lit target.sourceKind
  sourceRole := lit target.sourceRole
  sourceValid := 1
  boundSourceInstance := dec x.boundSourceInstance
  boundSourceGeneration := dec x.boundSourceGeneration
  bindingGeneration := dec x.bindingGeneration
  bindingValid := if x.bindingValid then 1 else 0
  bindingCurrent := if x.bindingCurrent then 1 else 0
  kindMatch := 1
  roleMatch := 1
  generationValid := 1
  lifecycleState := x.lifecycleState
  lifecycleValid := 1
  observedAtNs := lit "0"
  observedAtValid := 0

structure Shown.InRange (x : Shown) : Prop where
  sourceInstance : x.sourceInstance ≤ U64_MAX
  sourceGeneration : x.sourceGeneration ≤ U64_MAX
  boundSourceInstance : x.boundSourceInstance ≤ U64_MAX
  boundSourceGeneration : x.boundSourceGeneration ≤ U64_MAX
  bindingGeneration : x.bindingGeneration ≤ U64_MAX

section Fits

variable {interp : Interpreter} {name : String} (hname : constants.lookup name = none)

include hname

theorem checkField_dec (h : n ≤ U64_MAX) :
    checkField interp (name, .u64Decimal) (.str (dec n)) = none := by
  simp [checkField, checkU64, u64Pattern_dec h, h, checkConstant, hname]

theorem checkField_flag (b : Bool) :
    checkField interp (name, .flag) (.int (if b then 1 else 0 : Int).toNat) = none := by
  cases b <;> simp [checkField, checkInteger, checkConstant, hname]

theorem checkField_enum {enumName : EnumName} {text : String} (h : text ∈ enumName.values) :
    checkField interp (name, .enum enumName) (.str (lit text)) = none := by
  have hmem : (enumName.values.map lit).contains (lit text) = true := by
    rw [contains_iff_mem]
    exact mem_map_of_mem h
  simp only [checkField, enumFailure, hmem, if_true, checkConstant, hname, Option.or_none]

theorem checkField_line (h : line ≤ MAX_RECORDS) :
    checkField interp (name, .u32) (.int line) = none := by
  have hrange : ¬((line : Int) < 0 ∨ (line : Int) > U32_MAX) := by
    simp only [MAX_RECORDS, U32_MAX] at h ⊢
    omega
  simp only [checkField, checkInteger, if_neg hrange, checkConstant, hname, Option.or_none]

end Fits

theorem fits_row (h : x.InRange) (hline : line ≤ MAX_RECORDS) (event : EventName)
    (outcome : Outcome) (reason : NativeReason) :
    Fits eventFields (eventValues line (x.row line event outcome reason)) := by
  have hevent : event.text ∈ EnumName.event.values := by cases event <;> decide
  have houtcome : outcome.text ∈ EnumName.claimedOutcome.values := by cases outcome <;> decide
  have hreason : reason.text ∈ EnumName.claimedReason.values := by cases reason <;> decide
  have hlifecycle : x.lifecycleState.text ∈ EnumName.lifecycleState.values := by
    cases x.lifecycleState <;> decide
  repeat' apply List.Forall₂.cons
  all_goals try exact fun _ => rfl
  · exact fun _ => checkField_line rfl hline
  · exact fun _ => checkField_enum rfl hevent
  · exact fun _ => checkField_enum rfl houtcome
  · exact fun _ => checkField_enum rfl hreason
  · exact fun _ => checkField_dec rfl h.sourceInstance
  · exact fun _ => checkField_dec rfl h.sourceGeneration
  · exact fun _ => checkField_dec rfl h.boundSourceInstance
  · exact fun _ => checkField_dec rfl h.boundSourceGeneration
  · exact fun _ => checkField_dec rfl h.bindingGeneration
  · exact fun _ => checkField_flag rfl x.bindingValid
  · exact fun _ => checkField_flag rfl x.bindingCurrent
  · exact fun _ => checkField_enum rfl hlifecycle
  · exact .nil

def WritableValue (v : Flat) : Prop := v.IsPlain ∧ v.render.length ≤ 66

theorem Writable.of_values {values : List Flat} (h : ∀ v ∈ values, WritableValue v) :
    Writable values :=
  ⟨fun v hv => (h v hv).1, fun v hv => (h v hv).2⟩

theorem writableValue_text {s : Str} (hplain : IsPlain s) (hlen : s.length ≤ 64) :
    WritableValue (.text s) := by
  refine ⟨hplain, ?_⟩
  simp only [Flat.render, renderString, length_cons, length_append, length_nil]
  omega

theorem writableValue_nat (h : n ≤ U64_MAX) : WritableValue (.number n) := by
  have hlen := length_dec_le h
  refine ⟨trivial, ?_⟩
  simp only [Flat.render]
  omega

section

variable {s : Str}

/-- The scalar that a value of a well-shaped record is. -/
def flatOf : Json → Flat
  | .str s => .text s
  | .int n => .number n.toNat
  | _ => .number 0

theorem isPlain_digits (h : s.all isDigit = true) : IsPlain s := by
  intro c hc
  have hdigit := all_eq_true.mp h c hc
  simp only [isDigit, Bool.and_eq_true, decide_eq_true_eq] at hdigit
  omega

theorem isPlain_kebab (h : kebabPattern s = true) : IsPlain s := by
  intro c hc
  have hsplit : c = 45 ∨ ∃ segment ∈ split 45 s, c ∈ segment := mem_split hc
  rcases hsplit with rfl | ⟨segment, hsegment, hmem⟩
  · decide
  · have hall := all_eq_true.mp h segment hsegment
    rw [Bool.and_eq_true] at hall
    have hchar := all_eq_true.mp hall.2 c hmem
    simp only [isLowerAlnum, isDigit, Bool.or_eq_true, Bool.and_eq_true, decide_eq_true_eq] at hchar
    omega

theorem length_u64Pattern (h : u64Pattern s = true) : s.length ≤ 20 := by
  unfold u64Pattern at h
  split at h
  · decide
  · simp only [Bool.and_eq_true, decide_eq_true_eq] at h
    rw [length_cons]
    omega
  · cases h

theorem enum_writable {enumName : EnumName} (h : s ∈ enumName.values.map lit) :
    WritableValue (.text s) := by
  have hall : ∀ t ∈ enumName.values.map lit, IsPlain t ∧ t.length ≤ 64 := by
    cases enumName <;> decide +kernel
  exact writableValue_text (hall s h).1 (hall s h).2

theorem FieldType.Admits.writable {type : FieldType} {v : Json} (h : type.Admits v)
    (htoken : type = .kebabToken → ∀ s, v = .str s → s.length ≤ 64) :
    WritableValue (flatOf v) ∧ (flatOf v).toJson = v := by
  cases type with
  | u32 =>
    obtain ⟨n, rfl, hlow, hhigh⟩ := h
    simp only [U32_MAX] at hhigh
    exact ⟨writableValue_nat (by simp only [U64_MAX]; omega), by
      simp [flatOf, Flat.toJson, hlow]⟩
  | flag =>
    obtain ⟨n, rfl, hlow, hhigh⟩ := h
    exact ⟨writableValue_nat (by simp only [U64_MAX]; omega), by
      simp [flatOf, Flat.toJson, hlow]⟩
  | u64Decimal =>
    obtain ⟨s, rfl, hpattern, -⟩ := h
    have hlen := length_u64Pattern hpattern
    exact ⟨writableValue_text (isPlain_digits (u64Pattern_digits hpattern).2) (by omega), rfl⟩
  | traceId =>
    obtain ⟨s, rfl, hpattern⟩ := h
    simp only [traceIdPattern, Bool.and_eq_true, decide_eq_true_eq] at hpattern
    exact ⟨writableValue_text (isPlain_kebab hpattern.2) hpattern.1, rfl⟩
  | kebabToken =>
    obtain ⟨s, rfl, hpattern⟩ := h
    exact ⟨writableValue_text (isPlain_kebab hpattern) (htoken rfl s rfl), rfl⟩
  | enum enumName =>
    obtain ⟨s, rfl, hs⟩ := h
    exact ⟨enum_writable hs, rfl⟩

theorem Fits.writable {schema : List Field} {values : List Flat} (h : Fits schema values)
    (hshort : ∀ x ∈ schema.zip values, x.1.2 = .kebabToken → ∀ s, x.2 = .text s → s.length ≤ 64) :
    Writable values := by
  refine Writable.of_values ?_
  induction h with
  | nil => simp
  | @cons field v schema values hfield _ ih =>
    rw [zip_cons_cons, forall_mem_cons] at hshort
    refine forall_mem_cons.mpr ⟨?_, ih hshort.2⟩
    obtain ⟨hadmits, -⟩ := checkField_eq_none.mp (hfield ⟨1, Nat.one_pos, fun _ => true⟩)
    cases v with
    | text s =>
      refine (hadmits.writable fun htype t ht => hshort.1 htype t ?_).1
      rw [Json.str.inj ht]
    | number n => exact (hadmits.writable fun _ _ ht => nomatch ht).1

end

theorem writable_row (h : x.InRange) (hline : line ≤ MAX_RECORDS) (event : EventName)
    (outcome : Outcome) (reason : NativeReason) :
    Writable (eventValues line (x.row line event outcome reason)) := by
  refine (fits_row h hline event outcome reason).writable ?_
  -- the tokens are those of the trusted target
  simp [eventFields, eventValues, Shown.row]
  decide

theorem encodable_row (h : x.InRange) (hline : line ≤ MAX_RECORDS) {event : EventName}
    {outcome : Outcome} {reason : NativeReason}
    (hpaired : outcome = .accepted ∧ reason = .none ∨ outcome = .rejected ∧ reason ≠ .none) :
    (x.row line event outcome reason).Encodable (lit "trace") line where
  sequence := rfl
  traceId := rfl
  paired := hpaired
  flags := by
    have hflag : ∀ b : Bool, (0 : Int) ≤ if b then 1 else 0 := by decide
    have hone : (0 : Int) ≤ 1 := by decide
    have hzero : (0 : Int) ≤ 0 := by decide
    constructor
    all_goals first | exact hflag _ | exact hone | exact hzero
  fits := fits_row h hline event outcome reason
  writable := writable_row h hline event outcome reason

/-! ## Sane rows -/

/-- The numbers of a row that has no native issue. -/
structure Shown.Sane (x : Shown) : Prop where
  sourceInstance : x.sourceInstance ≠ 0
  sourceGeneration : x.sourceGeneration ≠ 0
  valid : x.bindingValid = true →
    x.boundSourceInstance ≠ 0 ∧ x.boundSourceGeneration ≠ 0 ∧ x.bindingGeneration ≠ 0
  invalid : x.bindingValid = false →
    x.boundSourceInstance = 0 ∧ x.boundSourceGeneration = 0 ∧ x.bindingGeneration = 0 ∧
      x.bindingCurrent = false
  current : x.bindingCurrent = true → x.lifecycleState = .active

/-- The instances that every row shows. -/
structure ReplayState.OfRows (s : ReplayState) : Prop where
  hostInstance : s.hostInstance = 1
  producerInstance : s.producerInstance = 1
  sourceId : s.sourceId = 1

theorem sane_row (h : x.Sane) {state : Option ReplayState} (hstate : ∀ s, state = some s → s.OfRows)
    (line : Nat) (event : EventName) (outcome : Outcome) (reason : NativeReason) :
    Sane state (x.row line event outcome reason) := by
  have hone : u64 (lit "1") = 1 := by decide
  have hzero : u64 (lit "0") = 0 := by decide
  have hdec : ∀ n, u64 (dec n) = n := decValue_dec
  have hid : state.any (fun s => !decide (1 = s.sourceId)) = false := by
    cases state with
    | none => rfl
    | some s => simp [(hstate s rfl).sourceId]
  constructor
  · cases hvalid : x.bindingValid with
    | true =>
      obtain ⟨hbound, hboundGen, hgen⟩ := h.valid hvalid
      simp [nativeRecordIssue, firstIssue, Shown.row, hone, hzero, hdec, target, h.sourceInstance,
        h.sourceGeneration, hvalid, hbound, hboundGen, hgen]
      exact ⟨h.current, hid⟩
    | false =>
      obtain ⟨hbound, hboundGen, hgen, hcurrent⟩ := h.invalid hvalid
      simp [nativeRecordIssue, firstIssue, Shown.row, hone, hzero, hdec, target, h.sourceInstance,
        h.sourceGeneration, hvalid, hbound, hboundGen, hgen, hcurrent]
      exact hid
  · cases state with
    | none => rfl
    | some s =>
      have hs := hstate s rfl
      simp [instanceIssue, Shown.row, hone, hs.hostInstance, hs.producerInstance]

/-! ## The next row -/

def ReplayState.shown (s : ReplayState) (valid current : Bool) : Shown :=
  ⟨s.sourceInstance, s.sourceGeneration, s.boundSourceInstance, s.boundSourceGeneration,
    s.bindingGeneration, valid, current, s.lifecycleState⟩

/-- The numbers that the next event shows. -/
def nextShown : Option ReplayState → EventName → Shown
  | none, _ => ⟨1, 1, 0, 0, 0, false, false, .active⟩
  | some s, .discover =>
    { s.shown true false with
      sourceInstance := s.sourceInstance + 1
      sourceGeneration := 1
      lifecycleState := .active }
  | some s, .observe => s.shown true true
  | some s, .update =>
    { s.shown true false with
      sourceGeneration := s.sourceGeneration + 1
      lifecycleState := .active }
  | some s, .exit =>
    { s.shown true false with
      sourceGeneration := s.sourceGeneration + 1
      bindingGeneration := s.bindingGeneration + 1
      lifecycleState := .exited }
  | some s, .bind | some s, .rebind =>
    { s.shown true true with
      boundSourceInstance := s.sourceInstance
      boundSourceGeneration := s.sourceGeneration
      bindingGeneration := s.bindingGeneration + 1
      lifecycleState := .active }

/-- The next row of a trace in which every event is accepted. -/
def nextRow (state : Option ReplayState) (line : Nat) (e : EventName) : EventRow :=
  (nextShown state e).row line e .accepted .none

/-- A state that `n` rows led to. -/
structure Built (n : Nat) (s : ReplayState) : Prop where
  sound : s.Sound
  ofRows : s.OfRows
  sourceInstance : s.sourceInstance ≤ n
  sourceGeneration : s.sourceGeneration ≤ n
  sourceGeneration_ne : s.sourceGeneration ≠ 0
  boundSourceInstance : s.boundSourceInstance ≤ n
  boundSourceGeneration : s.boundSourceGeneration ≤ n
  bindingGeneration : s.bindingGeneration ≤ n
  retained : s.boundSourceInstance ≠ 0 → s.boundSourceGeneration ≠ 0 ∧ s.bindingGeneration ≠ 0
  seen : ∀ k ∈ s.seenSourceInstances, k ≤ s.sourceInstance

theorem Built.sane (h : Built n s) (hx : x.Sane) (line : Nat) (event : EventName)
    (outcome : Outcome) (reason : NativeReason) :
    Replay.Sane (some s) (x.row line event outcome reason) := by
  refine sane_row hx ?_ line event outcome reason
  rintro _ ⟨⟩
  exact h.ofRows

theorem Built.bounds (h : Built n s) :
    s.sourceInstance ≤ n ∧ s.sourceGeneration ≤ n ∧ s.boundSourceInstance ≤ n ∧
      s.boundSourceGeneration ≤ n ∧ s.bindingGeneration ≤ n :=
  ⟨h.sourceInstance, h.sourceGeneration, h.boundSourceInstance, h.boundSourceGeneration,
    h.bindingGeneration⟩

/-- What the next row does: it is accepted, and the state it leads to is built from one row
more. -/
structure NextOk (n : Nat) (state : Option ReplayState) (line : Nat) (e : EventName)
    (s' : ReplayState) : Prop where
  inRange : n + 1 ≤ MAX_RECORDS → (nextShown state e).InRange
  sane : Replay.Sane state (nextRow state line e)
  accepts : Accepts state (nextRow state line e) s'
  built : Built (n + 1) s'

@[simp] theorem u64_dec (n : Nat) : u64 (dec n) = n := decValue_dec n

theorem Shown.inRange_of_le (hn : n ≤ MAX_RECORDS)
    (h : x.sourceInstance ≤ n ∧ x.sourceGeneration ≤ n ∧ x.boundSourceInstance ≤ n ∧
      x.boundSourceGeneration ≤ n ∧ x.bindingGeneration ≤ n) : x.InRange := by
  have hmax : n ≤ U64_MAX := by
    simp only [MAX_RECORDS, U64_MAX] at hn ⊢
    omega
  obtain ⟨h₁, h₂, h₃, h₄, h₅⟩ := h
  exact ⟨h₁.trans hmax, h₂.trans hmax, h₃.trans hmax, h₄.trans hmax, h₅.trans hmax⟩

theorem nextOk_discover :
    NextOk 0 none line .discover (.discover (nextRow none line .discover)) := by
  have hsane : Replay.Sane none (nextRow none line .discover) :=
    sane_row ⟨by decide, by decide, by simp [nextShown], by simp [nextShown],
      by simp [nextShown]⟩ (by simp) line .discover .accepted .none
  have haccepts : Accepts none (nextRow none line .discover)
      (.discover (nextRow none line .discover)) :=
    .discover rfl rfl (by simp [nextRow, nextShown, Shown.row, target]) rfl rfl
  refine ⟨fun hn => Shown.inRange_of_le hn (by simp [nextShown]), hsane, haccepts, ?_⟩
  refine ⟨haccepts.sound hsane (by simp), ⟨rfl, rfl, rfl⟩, ?_, ?_, ?_, ?_, ?_, ?_, ?_, ?_⟩
  all_goals simp [ReplayState.discover, nextRow, nextShown, Shown.row]

theorem projects_retained (line : Nat) {mode : GenerationMode}
    (hx : x.bindingValid = true ∧ x.bindingCurrent = false ∧ x.boundSourceInstance =
      s.boundSourceInstance ∧ x.boundSourceGeneration = s.boundSourceGeneration)
    (hgen : mode.Holds s.bindingGeneration x.bindingGeneration) :
    Projects (x.row line e .accepted .none) (s.retained mode 1 0) := by
  obtain ⟨hvalid, hcurrent, hbound, hboundGen⟩ := hx
  refine ⟨?_, ?_, ?_, ?_, ?_⟩
  · simp [Shown.row, hvalid, ReplayState.retained]
  · simp [Shown.row, hcurrent, ReplayState.retained]
  · simp [Shown.row, hbound, ReplayState.retained]
  · simp [Shown.row, hboundGen, ReplayState.retained]
  · simpa [Shown.row, ReplayState.retained] using hgen

theorem atSource_increase (line : Nat) (hinst : x.sourceInstance = s.sourceInstance)
    (hgen : s.sourceGeneration < x.sourceGeneration) :
    AtSource (x.row line e .accepted .none) s .increase := by
  refine ⟨?_, ?_⟩
  · simp [Shown.row, hinst]
  · simpa [Shown.row, GenerationMode.Holds] using hgen

section Moves

variable {n : Nat} {s : ReplayState} (h : Built n s) (line : Nat)

include h

theorem Built.bound_ne (hs : s.replayState = .bound) : s.boundSourceInstance ≠ 0 :=
  (h.sound.bound hs).1 ▸ h.sound.sourceInstance

theorem Built.nextOk {s' : ReplayState} (current : Bool)
    (hshown : nextShown (some s) e = s'.shown true current)
    (hacc : Accepts (some s) (nextRow (some s) line e) s') (hrows : s'.OfRows)
    (hle : s'.sourceInstance ≤ n + 1 ∧ s'.sourceGeneration ≤ n + 1 ∧
      s'.boundSourceInstance ≤ n + 1 ∧ s'.boundSourceGeneration ≤ n + 1 ∧
      s'.bindingGeneration ≤ n + 1)
    (hne : s'.sourceInstance ≠ 0 ∧ s'.sourceGeneration ≠ 0 ∧ s'.boundSourceInstance ≠ 0 ∧
      s'.boundSourceGeneration ≠ 0 ∧ s'.bindingGeneration ≠ 0)
    (hcurrent : current = true → s'.lifecycleState = .active)
    (hseen : ∀ k ∈ s'.seenSourceInstances, k ≤ s'.sourceInstance) :
    NextOk n (some s) line e s' := by
  obtain ⟨hle₁, hle₂, hle₃, hle₄, hle₅⟩ := hle
  obtain ⟨hne₁, hne₂, hbound⟩ := hne
  have hx : (s'.shown true current).Sane :=
    ⟨hne₁, hne₂, fun _ => hbound, fun hfalse => (by cases hfalse), hcurrent⟩
  have hsane : Replay.Sane (some s) (nextRow (some s) line e) :=
    h.sane (hshown ▸ hx) line e .accepted .none
  have honly : ∀ s₁, some s = some s₁ → s₁.Sound := by
    rintro _ ⟨⟩
    exact h.sound
  refine ⟨fun hn => Shown.inRange_of_le hn ?_, hsane, hacc, ⟨hacc.sound hsane honly, hrows,
    hle₁, hle₂, hne₂, hle₃, hle₄, hle₅, fun _ => hbound.2, hseen⟩⟩
  rw [hshown]
  exact ⟨hle₁, hle₂, hle₃, hle₄, hle₅⟩

theorem nextOk_bind (hs : s.replayState = .discovered) (he : e = .bind ∨ e = .rebind)
    (haccepts : AtSource (nextRow (some s) line e) s .exact →
      Projects (nextRow (some s) line e) s.fresh →
      Accepts (some s) (nextRow (some s) line e) (s.bind (nextRow (some s) line e))) :
    NextOk n (some s) line e (s.bind (nextRow (some s) line e)) := by
  have hx : nextShown (some s) e = { s.shown true true with
      boundSourceInstance := s.sourceInstance
      boundSourceGeneration := s.sourceGeneration
      bindingGeneration := s.bindingGeneration + 1
      lifecycleState := .active } := by
    rcases he with rfl | rfl <;> rfl
  have hacc := haccepts ⟨by simp [nextRow, hx, Shown.row, ReplayState.shown],
      by simp [nextRow, hx, Shown.row, ReplayState.shown, GenerationMode.Holds]⟩
    ⟨by simp [nextRow, hx, Shown.row, ReplayState.shown, ReplayState.fresh],
      by simp [nextRow, hx, Shown.row, ReplayState.shown, ReplayState.fresh],
      by simp [nextRow, hx, Shown.row, ReplayState.fresh],
      by simp [nextRow, hx, Shown.row, ReplayState.fresh],
      by simp [nextRow, hx, Shown.row, ReplayState.fresh, GenerationMode.Holds]⟩
  have hactive := h.sound.active (by simp [hs])
  have hstate : s.bind (nextRow (some s) line e) = { s with
      boundSourceInstance := s.sourceInstance
      boundSourceGeneration := s.sourceGeneration
      bindingGeneration := s.bindingGeneration + 1
      replayState := .bound } := by
    simp [ReplayState.bind, nextRow, hx, Shown.row]
  rw [hstate] at hacc ⊢
  have hbounds := h.bounds
  refine h.nextOk line true ?_ hacc { h.ofRows with } ?_ ⟨h.sound.sourceInstance,
    h.sourceGeneration_ne, h.sound.sourceInstance, h.sourceGeneration_ne, Nat.succ_ne_zero _⟩
    (fun _ => hactive) h.seen
  · rw [hx, ← hactive]
    rfl
  · dsimp only
    omega

theorem nextOk_observe (hs : s.replayState = .bound) : NextOk n (some s) line .observe s := by
  have hne := h.bound_ne hs
  have hacc : Accepts (some s) (nextRow (some s) line .observe) s := by
    refine .observe hs rfl ⟨⟨u64_dec _, u64_dec _⟩, rfl, ?_⟩
    simp only [hs, hne, ne_eq, not_false_eq_true, if_true]
    exact ⟨rfl, rfl, u64_dec _, u64_dec _, u64_dec _⟩
  have hbounds := h.bounds
  exact h.nextOk line true rfl hacc h.ofRows (by omega)
    ⟨h.sound.sourceInstance, h.sourceGeneration_ne, hne, h.retained hne⟩
    (fun _ => h.sound.active (by simp [hs])) h.seen

theorem nextOk_update (hs : s.replayState = .bound) :
    NextOk n (some s) line .update (s.update (nextRow (some s) line .update)) := by
  have hne := h.bound_ne hs
  have hactive := h.sound.active (by simp [hs])
  have hstate : s.update (nextRow (some s) line .update) = { s with
      sourceGeneration := s.sourceGeneration + 1
      replayState := .discovered } := by
    simp [ReplayState.update, nextRow, nextShown, Shown.row]
  have hacc : Accepts (some s) (nextRow (some s) line .update)
      (s.update (nextRow (some s) line .update)) :=
    .update hs rfl (atSource_increase line rfl (Nat.lt_succ_self _)) rfl
      (projects_retained line ⟨rfl, rfl, rfl, rfl⟩ rfl)
  rw [hstate] at hacc ⊢
  have hbounds := h.bounds
  refine h.nextOk line false ?_ hacc { h.ofRows with } ?_ ⟨h.sound.sourceInstance,
    Nat.succ_ne_zero _, hne, h.retained hne⟩ (by simp) h.seen
  · rw [nextShown, ← hactive]
    rfl
  · dsimp only
    omega

theorem nextOk_exit (hs : s.replayState = .bound) :
    NextOk n (some s) line .exit (s.exit (nextRow (some s) line .exit)) := by
  have hne := h.bound_ne hs
  have hstate : s.exit (nextRow (some s) line .exit) = { s with
      sourceGeneration := s.sourceGeneration + 1
      bindingGeneration := s.bindingGeneration + 1
      lifecycleState := .exited
      replayState := .exited } := by
    simp [ReplayState.exit, nextRow, nextShown, Shown.row]
  have hacc : Accepts (some s) (nextRow (some s) line .exit)
      (s.exit (nextRow (some s) line .exit)) :=
    .exit hs rfl (atSource_increase line rfl (Nat.lt_succ_self _)) rfl
      (projects_retained line ⟨rfl, rfl, rfl, rfl⟩ (Nat.lt_succ_self _))
  rw [hstate] at hacc ⊢
  have hbounds := h.bounds
  refine h.nextOk line false rfl hacc { h.ofRows with } ?_ ⟨h.sound.sourceInstance,
    Nat.succ_ne_zero _, hne, (h.retained hne).1, Nat.succ_ne_zero _⟩ (by simp) h.seen
  dsimp only
  omega

theorem nextOk_rediscover (hs : s.replayState = .exited) :
    NextOk n (some s) line .discover (s.rediscover (nextRow (some s) line .discover)) := by
  have hne := (h.sound.exited hs).2
  have hstate : s.rediscover (nextRow (some s) line .discover) = { s with
      sourceInstance := s.sourceInstance + 1
      sourceGeneration := 1
      lifecycleState := .active
      replayState := .discovered
      seenSourceInstances := (s.sourceInstance + 1) :: s.seenSourceInstances } := by
    simp [ReplayState.rediscover, nextRow, nextShown, Shown.row]
  have hfresh : u64 (dec (s.sourceInstance + 1)) ∉ s.seenSourceInstances := by
    rw [u64_dec]
    exact fun hmem => Nat.not_succ_le_self _ (h.seen _ hmem)
  have hacc : Accepts (some s) (nextRow (some s) line .discover)
      (s.rediscover (nextRow (some s) line .discover)) :=
    .rediscover hs rfl hfresh (u64_dec 1) rfl (projects_retained line ⟨rfl, rfl, rfl, rfl⟩ rfl)
  rw [hstate] at hacc ⊢
  have hbounds := h.bounds
  refine h.nextOk line false rfl hacc { h.ofRows with } ?_ ⟨Nat.succ_ne_zero _,
    Nat.one_ne_zero, hne, h.retained hne⟩ (by simp) ?_
  · dsimp only
    omega
  · exact forall_mem_cons.mpr ⟨le_rfl, fun k hk => Nat.le_succ_of_le (h.seen k hk)⟩

end Moves

/-- Whatever event the automaton allows next has a row that is accepted. -/
theorem exists_nextOk {state : Option ReplayState} (hstart : state = none → n = 0)
    (hbuilt : ∀ s, state = some s → Built n s) (hstep : (modeOf state).step e = some q) (line : Nat) :
    ∃ s', NextOk n state line e s' := by
  cases state with
  | none =>
    rw [hstart rfl]
    cases e <;> simp [modeOf, Mode.step] at hstep
    exact ⟨_, nextOk_discover⟩
  | some s =>
    have h := hbuilt s rfl
    cases hs : s.replayState with
    | bound =>
      cases e <;> simp [modeOf, hs, Mode.step] at hstep
      · exact ⟨_, nextOk_observe h line hs⟩
      · exact ⟨_, nextOk_update h line hs⟩
      · exact ⟨_, nextOk_exit h line hs⟩
    | exited =>
      cases e <;> simp [modeOf, hs, Mode.step] at hstep
      exact ⟨_, nextOk_rediscover h line hs⟩
    | discovered =>
      by_cases hb : s.boundSourceInstance = 0
      · cases e <;> simp [modeOf, hs, hb, Mode.step] at hstep
        exact ⟨_, nextOk_bind h line hs (.inl rfl) fun source binding =>
          .bind hs hb rfl source rfl binding⟩
      · cases e <;> simp [modeOf, hs, hb, Mode.step] at hstep
        exact ⟨_, nextOk_bind h line hs (.inr rfl) fun source binding =>
          .rebind hs hb rfl source rfl binding⟩

/-! ## A trace for a word -/

/-- Rows that replay a word. -/
structure Writes (w : List EventName) (events : List (Nat × EventRow)) (p : Progress) : Prop where
  lines : events.map Prod.fst = List.range' 1 w.length
  encodable : ∀ e ∈ events, e.2.Encodable (lit "trace") e.1
  progress : progressAfter events = some p
  word : acceptedWord events = w
  accepted : p.acceptedCount = w.length
  rejected : p.rejectedCount = 0
  started : p.state = none → w.length = 0
  built : ∀ s, p.state = some s → Built w.length s

theorem Writes.length (h : Writes w events p) : events.length = w.length := by
  have hlen := congrArg List.length h.lines
  simpa using hlen

theorem Writes.snoc (h : Writes w events p) (hstep : (modeOf p.state).step e = some q)
    (hlen : w.length + 1 ≤ MAX_RECORDS) : ∃ events' p', Writes (w ++ [e]) events' p' := by
  obtain ⟨s', hnext⟩ := exists_nextOk h.started h.built hstep (w.length + 1)
  let r := nextRow p.state (w.length + 1) e
  have hmove : p.Move r ⟨some s', p.acceptedCount + 1, p.rejectedCount⟩ :=
    .accepted hnext.sane rfl rfl hnext.accepts
  refine ⟨events ++ [(w.length + 1, r)], ⟨some s', p.acceptedCount + 1, p.rejectedCount⟩,
    ?_, ?_, ?_, ?_, ?_, h.rejected, by simp, ?_⟩
  · rw [map_append, h.lines, length_append, length_singleton, range'_concat]
    simp [Nat.add_comm]
  · refine forall_mem_append.mpr ⟨h.encodable, forall_mem_singleton.mpr ?_⟩
    exact encodable_row (hnext.inRange hlen) hlen (.inl ⟨rfl, rfl⟩)
  · exact progressAfter_snoc.mpr ⟨p, h.progress, hmove⟩
  · rw [acceptedWord_snoc_accepted rfl, h.word]
    rfl
  · simp [h.accepted]
  · rintro _ ⟨⟩
    simpa using hnext.built

/-- Every word that the automaton reads has rows that replay it. -/
theorem exists_writes (hrun : Mode.start.run w = some q) (hlen : w.length ≤ MAX_RECORDS) :
    ∃ events p, Writes w events p := by
  induction w using List.reverseRecOn generalizing q with
  | nil =>
    exact ⟨[], .start, rfl, by simp, rfl, rfl, rfl, rfl, fun _ => rfl, by simp [Progress.start]⟩
  | append_singleton w e ih =>
    rw [length_append, length_singleton] at hlen
    rw [Mode.run_append] at hrun
    obtain ⟨q₁, hq₁, hlast⟩ := Option.bind_eq_some_iff.mp hrun
    obtain ⟨q₂, hstep, -⟩ := Option.bind_eq_some_iff.mp hlast
    obtain ⟨events, p, h⟩ := ih hq₁ (by omega)
    have hword := (replayed_of_progressAfter h.progress).word
    rw [h.word, hq₁, Option.some.injEq] at hword
    exact h.snoc (hword ▸ hstep) hlen

/-! ## The terminal of a built trace -/

/-- The terminal that says what the replay found. -/
def terminalFor (line : Nat) (s : ReplayState) (p : Progress) : TerminalRow where
  sequence := some (line : Int)
  hostInstance := lit "1"
  producerInstance := lit "1"
  acceptedCount := p.acceptedCount
  rejectedCount := p.rejectedCount
  finalState := s.replayState
  finalBindingGeneration := dec s.bindingGeneration

theorem terminalMatches_terminalFor (h : s.OfRows) (line : Nat) (p : Progress) :
    TerminalMatches (terminalFor line s p) s p where
  hostInstance := h.hostInstance.symm
  producerInstance := h.producerInstance.symm
  acceptedCount := rfl
  rejectedCount := rfl
  finalState := rfl
  finalBindingGeneration := rfl

section

variable (hline : line ≤ MAX_RECORDS) (haccepted : p.acceptedCount ≤ MAX_RECORDS)
  (hrejected : p.rejectedCount ≤ MAX_RECORDS) (hgen : s.bindingGeneration ≤ U64_MAX)
include hline haccepted hrejected hgen

theorem fits_terminalFor :
    Fits terminalFields (terminalValues (lit "trace") line (terminalFor line s p)) := by
  have hphase : s.replayState.text ∈ EnumName.finalState.values := by
    cases s.replayState <;> decide
  repeat' apply List.Forall₂.cons
  all_goals try exact fun _ => rfl
  · exact fun _ => checkField_line rfl hline
  · exact fun _ => checkField_line rfl ((Nat.sub_le _ _).trans hline)
  · exact fun _ => checkField_line rfl haccepted
  · exact fun _ => checkField_line rfl hrejected
  · exact fun _ => checkField_enum rfl hphase
  · exact fun _ => checkField_dec rfl hgen
  · exact .nil

theorem writable_terminalFor :
    Writable (terminalValues (lit "trace") line (terminalFor line s p)) := by
  refine (fits_terminalFor hline haccepted hrejected hgen).writable ?_
  simp [terminalFields, terminalValues]

end

theorem Replayed.counts (h : Replayed events p) :
    p.acceptedCount + p.rejectedCount = events.length := by
  rw [h.accepted, h.rejected, length_eq_countP_add_countP
    (fun e : Nat × EventRow => decide (e.2.claimedOutcome = .accepted)), Nat.add_left_cancel_iff]
  refine countP_congr fun e _ => ?_
  cases e.2.claimedOutcome <;> decide

theorem encodable_trace (hlines : events.map Prod.fst = List.range' 1 events.length)
    (hlen : events.length + 1 ≤ MAX_RECORDS) (hrows : ∀ e ∈ events, e.2.Encodable (lit "trace") e.1)
    (hp : progressAfter events = some p) (hgen : s.bindingGeneration ≤ U64_MAX) :
    Trace.Encodable (lit "trace") ⟨events, terminalFor (events.length + 1) s p⟩ := by
  have hcounts := (replayed_of_progressAfter hp).counts
  have haccepted : p.acceptedCount ≤ MAX_RECORDS := by omega
  have hrejected : p.rejectedCount ≤ MAX_RECORDS := by omega
  refine ⟨hlen, hlines, hrows, ?_, Int.natCast_nonneg _, Int.natCast_nonneg _, ?_,
    fits_terminalFor hlen haccepted hrejected hgen,
    writable_terminalFor hlen haccepted hrejected hgen⟩
  · simp [terminalFor]
  · show (p.acceptedCount : Int) + p.rejectedCount = events.length
    omega

end AiosKernel.Replay
