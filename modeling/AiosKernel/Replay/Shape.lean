/-
# `AiosKernel.Replay.Shape` — what phase 3 says about a record

A record in which `_phase_shape` finds nothing has every field of its schema,
each with a value of the field's type, and no other field.  So the lookups and
conversions of the later phases all succeed on it: `readEvent` and
`readTerminal` return a row.
-/
import AiosKernel.Replay.Records

namespace AiosKernel.Replay

open Py List

/-! ## The check of a field -/

section Checks

variable {interp : Interpreter} {name : String} {value : Json}

theorem u64Pattern_digits {s : Str} (h : u64Pattern s = true) :
    s.isEmpty = false ∧ s.all isDigit = true := by
  unfold u64Pattern at h
  split at h
  · exact ⟨rfl, rfl⟩
  · rename_i c rest _
    simp only [Bool.and_eq_true, decide_eq_true_eq] at h
    obtain ⟨⟨⟨hlow, hhigh⟩, hrest⟩, -⟩ := h
    have hc : isDigit c = true := by
      simp only [isDigit, Bool.and_eq_true, decide_eq_true_eq]
      omega
    exact ⟨rfl, by rw [all_cons, hc, hrest]; rfl⟩
  · cases h

theorem checkInteger_eq_none {maximum : Int} :
    checkInteger name maximum value = none ↔ ∃ n, value = .int n ∧ 0 ≤ n ∧ n ≤ maximum := by
  cases value with
  | int n =>
    simp [checkInteger, Json.int.injEq, reduceCtorEq, gt_iff_lt]
  | null | bool | float | str | arr | obj => simp [checkInteger]

theorem checkU64_eq_none :
    checkU64 interp name value = none ↔
      ∃ s, value = .str s ∧ u64Pattern s = true ∧ decValue s ≤ U64_MAX := by
  cases value with
  | str s =>
    simp only [checkU64, Json.str.injEq, exists_eq_left']
    cases hpattern : u64Pattern s with
    | false => simp
    | true => simp
  | null | bool | int | float | arr | obj => simp [checkU64]

theorem checkPattern_eq_none {spec : String} {pattern : Str → Bool} :
    checkPattern interp name spec pattern value = none ↔
      ∃ s, value = .str s ∧ pattern s = true := by
  cases value with
  | str s | null | bool | int | float | arr | obj => simp [checkPattern]

/-- A value that a field of the given type can have. -/
def FieldType.Admits : FieldType → Json → Prop
  | .u32, v => ∃ n, v = .int n ∧ 0 ≤ n ∧ n ≤ U32_MAX
  | .flag, v => ∃ n, v = .int n ∧ 0 ≤ n ∧ n ≤ 1
  | .u64Decimal, v => ∃ s, v = .str s ∧ u64Pattern s = true ∧ decValue s ≤ U64_MAX
  | .traceId, v => ∃ s, v = .str s ∧ traceIdPattern s = true
  | .kebabToken, v => ∃ s, v = .str s ∧ kebabPattern s = true
  | .enum enumName, v => ∃ s, v = .str s ∧ s ∈ enumName.values.map lit

theorem checkField_eq_none {type : FieldType} :
    checkField interp (name, type) value = none ↔
      type.Admits value ∧ checkConstant name value = none := by
  simp only [checkField, Option.or_eq_none_iff]
  refine and_congr_left fun _ => ?_
  cases type with
  | u32 | flag => exact checkInteger_eq_none
  | u64Decimal => exact checkU64_eq_none
  | traceId | kebabToken => exact checkPattern_eq_none
  | enum enumName =>
    cases value <;> simp [enumFailure, FieldType.Admits]

end Checks

/-! ## Well-shaped records -/

/-- A record with the fields of a schema and no others, each well typed. -/
structure WellShaped (schema : List Field) (d : Dict) : Prop where
  fields : ∀ f ∈ schema, ∃ v, getField d f.1 = some v ∧ f.2.Admits v ∧ checkConstant f.1 v = none
  known : ∀ key ∈ d.map Prod.fst, key ∈ schema.map fun f => lit f.1
  flat : nestedFailures d = []

variable {d : Dict} {schema : List Field} {interp : Interpreter}

theorem getField_eq_none {name : String} : getField d name = none ↔ lit name ∉ d.map Prod.fst := by
  rw [getField, lookup_eq_none_iff, mem_map]
  constructor
  · rintro h ⟨kv, hkv, heq⟩
    have hne := h kv hkv
    simp [heq] at hne
  · intro h kv hkv
    rw [bne_iff_ne]
    intro heq
    exact h ⟨kv, hkv, heq.symm⟩

theorem missingFields_eq_nil :
    missingFields schema d = [] ↔ ∀ f ∈ schema, ∃ v, getField d f.1 = some v := by
  have hfield : ∀ f : Field, (∃ v, getField d f.1 = some v) ↔ lit f.1 ∈ d.map Prod.fst := by
    intro f
    rw [← Option.isSome_iff_exists, Option.isSome_iff_ne_none, ne_eq, getField_eq_none, not_not]
  simp only [missingFields, filter_eq_nil_iff, forall_mem_map, hfield]
  simp

theorem unknownFields_eq_nil :
    unknownFields schema d = [] ↔ ∀ key ∈ d.map Prod.fst, key ∈ schema.map fun f => lit f.1 := by
  rw [unknownFields, ← length_eq_zero_iff, length_mergeSort, length_eq_zero_iff,
    filter_eq_nil_iff]
  simp

theorem schemaFailures_eq_nil : schemaFailures interp schema d = [] ↔ WellShaped schema d := by
  constructor
  · intro h
    simp only [schemaFailures, append_eq_nil_iff] at h
    obtain ⟨⟨hmissing, hunknown⟩, hrest⟩ := h
    have hnone : missingFields schema d = [] := by
      by_contra hne
      simp [hne] at hmissing
    have hknown : unknownFields schema d = [] := by
      by_contra hne
      simp [hne] at hunknown
    simp only [hnone, isEmpty_nil, if_true, append_eq_nil_iff] at hrest
    refine ⟨fun f hf => ?_, unknownFields_eq_nil.mp hknown, hrest.2⟩
    obtain ⟨v, hv⟩ := missingFields_eq_nil.mp hnone f hf
    have hcheck := filterMap_eq_nil_iff.mp hrest.1 f hf
    rw [hv] at hcheck
    exact ⟨v, hv, checkField_eq_none.mp hcheck⟩
  · intro h
    have hnone : missingFields schema d = [] :=
      missingFields_eq_nil.mpr fun f hf => ⟨_, (h.fields f hf).choose_spec.1⟩
    simp only [schemaFailures, hnone, unknownFields_eq_nil.mpr h.known, h.flat, isEmpty_nil,
      if_true, append_nil, nil_append]
    refine filterMap_eq_nil_iff.mpr fun f hf => ?_
    obtain ⟨v, hv, hcheck⟩ := h.fields f hf
    rw [hv]
    exact checkField_eq_none.mpr hcheck

/-- An event or a terminal with the shape of its type. -/
inductive Shaped : Dict → Prop
  | event {d : Dict} (kind : isEvent (.obj d) = true) (shape : WellShaped eventFields d) : Shaped d
  | terminal {d : Dict} (kind : isTerminal (.obj d) = true)
      (shape : WellShaped terminalFields d) : Shaped d

theorem recordFailures_obj : recordFailures interp (.obj d) = [] ↔ Shaped d := by
  constructor
  · intro h
    obtain ⟨e, he, hkind⟩ := recordFailures_eq_nil h
    rcases hkind with hkind | hkind
    · have hclean : schemaFailures interp eventFields d = [] := by
        simpa [recordFailures, isEvent_obj.mp hkind, schemaOf] using h
      exact .event hkind (schemaFailures_eq_nil.mp hclean)
    · have hne : lit "terminal" ≠ lit "event" := by decide
      have hclean : schemaFailures interp terminalFields d = [] := by
        simpa [recordFailures, isTerminal_obj.mp hkind, schemaOf, hne] using h
      exact .terminal hkind (schemaFailures_eq_nil.mp hclean)
  · intro h
    cases h with
    | event kind shape =>
      have hclean : schemaFailures interp eventFields d = [] := schemaFailures_eq_nil.mpr shape
      simpa [recordFailures, isEvent_obj.mp kind, schemaOf] using hclean
    | terminal kind shape =>
      have hne : lit "terminal" ≠ lit "event" := by decide
      have hclean : schemaFailures interp terminalFields d = [] := schemaFailures_eq_nil.mpr shape
      simpa [recordFailures, isTerminal_obj.mp kind, schemaOf, hne] using hclean

theorem Shaped.ofEvent (h : Shaped d) (hkind : isEvent (.obj d) = true) :
    WellShaped eventFields d := by
  cases h with
  | event _ shape => exact shape
  | terminal kind _ =>
    rw [isEvent_of_isTerminal kind] at hkind
    cases hkind

theorem Shaped.ofTerminal (h : Shaped d) (hkind : isTerminal (.obj d) = true) :
    WellShaped terminalFields d := by
  cases h with
  | event kind _ =>
    rw [isEvent_of_isTerminal hkind] at kind
    cases kind
  | terminal _ shape => exact shape

theorem phaseShape_eq_nil {dicts : List Dict} :
    phaseShape interp (dicts.map Json.obj) = [] ↔ ∀ d ∈ dicts, Shaped d := by
  constructor
  · intro h d hd
    exact recordFailures_obj.mp (mem_of_phaseShape_eq_nil h (mem_map_of_mem hd))
  · intro h
    refine flatMap_eq_nil_iff.mpr fun x hx => ?_
    obtain ⟨d, hd, hobj⟩ := mem_map.mp (fst_mem_of_mem_zipIdx hx)
    rw [map_eq_nil_iff, ← hobj]
    exact recordFailures_obj.mpr (h d hd)

/-! ## Reading a well-shaped record -/

/-- A computation that does not raise. -/
def Returns {ε α : Type} (x : Except ε α) : Prop := ∃ a, x = .ok a

variable {ε α β : Type} {x : Except ε α} {f : α → Except ε β} {type : FieldType} {v : Json}

theorem Returns.pure (a : α) : Returns (Pure.pure a : Except ε α) := ⟨a, rfl⟩

theorem Returns.bind (hx : Returns x) (hf : ∀ a, Returns (f a)) : Returns (x >>= f) := by
  obtain ⟨a, rfl⟩ := hx
  exact hf a

theorem bind_eq_ok {b : β} : (x >>= f) = .ok b ↔ ∃ a, x = .ok a ∧ f a = .ok b := by
  cases x with
  | error e | ok a => simp [bind, Except.bind]

/-- Whether the values of a field are strings; the others are integers. -/
def FieldType.isText : FieldType → Bool
  | .u32 | .flag => false
  | _ => true

theorem FieldType.Admits.text (h : type.Admits v) (htype : type.isText = true) :
    ∃ s, v = .str s := by
  cases type with
  | u32 | flag => cases htype
  | u64Decimal | traceId | kebabToken | enum =>
    obtain ⟨s, hs, -⟩ := h
    exact ⟨s, hs⟩

theorem FieldType.Admits.number (h : type.Admits v) (htype : type.isText = false) :
    ∃ n, v = .int n := by
  cases type with
  | u32 | flag =>
    obtain ⟨n, hn, -⟩ := h
    exact ⟨n, hn⟩
  | u64Decimal | traceId | kebabToken | enum => cases htype

namespace WellShaped

variable {schema : List Field} {d : Dict} (h : WellShaped schema d) (i : Nat) {name : String}
  {type : FieldType}

include h

theorem field (hf : schema[i]? = some (name, type)) :
    ∃ v, getField d name = some v ∧ type.Admits v := by
  obtain ⟨v, hv, hadmits, -⟩ := h.fields _ (mem_of_getElem? hf)
  exact ⟨v, hv, hadmits⟩

theorem itemU64 (hf : schema[i]? = some (name, .u64Decimal)) : Returns (itemU64 d name) := by
  obtain ⟨v, hv, s, rfl, hpattern, -⟩ := h.field i hf
  obtain ⟨hempty, hdigits⟩ := u64Pattern_digits hpattern
  exact ⟨s, by simp [Replay.itemU64, itemStr, item, hv, hempty, hdigits]⟩

theorem itemStr (hf : schema[i]? = some (name, type)) (htype : type.isText = true) :
    Returns (itemStr d name) := by
  obtain ⟨v, hv, hadmits⟩ := h.field i hf
  obtain ⟨s, rfl⟩ := hadmits.text htype
  exact ⟨s, by simp [Replay.itemStr, item, hv]⟩

theorem itemInt (hf : schema[i]? = some (name, type)) (htype : type.isText = false) :
    Returns (itemInt d name) := by
  obtain ⟨v, hv, hadmits⟩ := h.field i hf
  obtain ⟨n, rfl⟩ := hadmits.number htype
  exact ⟨n, by simp [Replay.itemInt, item, hv]⟩

theorem itemEnum {enumName : EnumName} (hf : schema[i]? = some (name, .enum enumName))
    {text : α → String} {members : List α} (hmembers : enumName.values = members.map text) :
    Returns (itemEnum text members d name) := by
  obtain ⟨v, hv, s, rfl, hs⟩ := h.field i hf
  rw [hmembers, map_map, mem_map] at hs
  obtain ⟨a, ha, htext⟩ := hs
  have hfound : (ofText text members s).isSome := by
    rw [ofText, find?_isSome]
    exact ⟨a, ha, beq_iff_eq.mpr htext⟩
  obtain ⟨b, hb⟩ := Option.isSome_iff_exists.mp hfound
  exact ⟨b, by simp [Replay.itemEnum, Replay.itemStr, item, hv, hb]⟩

end WellShaped

theorem WellShaped.readEvent (h : WellShaped eventFields d) : Returns (readEvent d) := by
  unfold Replay.readEvent
  -- the reads, in the order of the code
  repeat' with_reducible refine .bind ?_ fun _ => ?_
  exacts [h.itemStr 2 rfl rfl, h.itemU64 4 rfl, h.itemEnum 5 rfl rfl, h.itemEnum 6 rfl rfl,
    h.itemEnum 7 rfl rfl, h.itemStr 8 rfl rfl, h.itemStr 9 rfl rfl, h.itemStr 10 rfl rfl,
    h.itemU64 11 rfl, h.itemInt 12 rfl rfl, h.itemStr 13 rfl rfl, h.itemU64 14 rfl,
    h.itemInt 15 rfl rfl, h.itemU64 16 rfl, h.itemInt 17 rfl rfl, h.itemInt 18 rfl rfl,
    h.itemStr 19 rfl rfl, h.itemU64 20 rfl, h.itemU64 21 rfl, h.itemU64 22 rfl,
    h.itemStr 23 rfl rfl, h.itemStr 24 rfl rfl, h.itemInt 25 rfl rfl, h.itemU64 26 rfl,
    h.itemU64 27 rfl, h.itemU64 28 rfl, h.itemInt 29 rfl rfl, h.itemInt 30 rfl rfl,
    h.itemInt 31 rfl rfl, h.itemInt 32 rfl rfl, h.itemInt 33 rfl rfl, h.itemEnum 34 rfl rfl,
    h.itemInt 35 rfl rfl, h.itemU64 36 rfl, h.itemInt 37 rfl rfl, .pure _]

theorem WellShaped.readTerminal (h : WellShaped terminalFields d) : Returns (readTerminal d) := by
  unfold Replay.readTerminal
  -- the reads, in the order of the code
  repeat' with_reducible refine .bind ?_ fun _ => ?_
  exacts [h.itemU64 4 rfl, h.itemU64 5 rfl, h.itemInt 7 rfl rfl, h.itemInt 8 rfl rfl,
    h.itemEnum 9 rfl rfl, h.itemStr 10 rfl rfl, .pure _]

end AiosKernel.Replay
