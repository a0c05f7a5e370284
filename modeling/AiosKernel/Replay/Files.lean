/-
# `AiosKernel.Replay.Files` — the records of a file

What the first two phases guarantee of the records they decode, and which
records they can decode: an object of a file has no key twice, a file has at
most 64 records, and well-shaped records whose tokens are short are the records
of some file, whatever the order of their keys.
-/
import Mathlib.Algebra.Order.BigOperators.Group.Finset
import AiosKernel.Replay.Runs

namespace AiosKernel.Replay

open Py List

/-- The first two phases find nothing in the bytes, and decode them to the given records. -/
structure Decodes (interp : Interpreter) (raw : List UInt8) (records : List Json) : Prop where
  lines : (phaseRaw raw).2 = []
  values : (phaseJson interp (phaseRaw raw).1).2 = []
  records : recordsOf interp raw = records

variable {d : Dict} {interp : Interpreter} {s rest : Str} {pos pos' : Nat} {raw : List UInt8}

theorem Decodes.earlyFailures {records : List Json} (h : Decodes interp raw records) :
    earlyFailures interp raw = phaseShape interp records ++ phaseEnvelope interp records := by
  have hrecords := h.records
  unfold recordsOf at hrecords
  simp [Replay.earlyFailures, h.lines, h.values, hrecords]

theorem decodes_of_clean (h : earlyFailures interp raw = []) :
    Decodes interp raw (recordsOf interp raw) := by
  simp only [earlyFailures, append_eq_nil_iff] at h
  exact ⟨h.1.1.1, h.1.1.2, rfl⟩

/-! ## Distinct keys -/

theorem matchNumber_ne_obj : matchNumber pos s ≠ some (.obj d, pos', rest) := by
  intro h
  unfold matchNumber at h
  cases hpart : integerPart (numberSign s).2 with
  | none => simp [hpart] at h
  | some part =>
    simp only [hpart, Option.bind_eq_bind, Option.bind_some, Option.pure_def, Option.some.injEq,
      Prod.mk.injEq] at h
    have hvalue := h.1
    split at hvalue <;> cases hvalue

theorem scanScalar_ne_obj : scanScalar strictHooks pos s ≠ .ok (.obj d, pos', rest) := by
  intro h
  unfold scanScalar at h
  split at h
  · rename_i tail
    cases hs : scanString pos (pos + 1) tail with
    | error e | ok r => simp [hs, bind, Except.bind] at h
  · cases h
  · cases h
  · cases h
  · -- the constants are errors, so only a number is left
    repeat' split at h
    all_goals cases h
    rename_i hnumber
    exact matchNumber_ne_obj hnumber

theorem pairs_obj {kvs : List (Str × Json)} (h : strictHooks.pairs kvs = .ok (.obj d)) :
    firstDuplicate [] d = none := by
  simp only [strictHooks] at h
  split at h
  · cases h
  · rename_i hnone
    cases h
    exact hnone

variable {value : Scan Json} {text : Str}

theorem parseObject_distinct (h : parseObject strictHooks value pos s = .ok (.obj d, pos', rest)) :
    firstDuplicate [] d = none := by
  unfold parseObject at h
  simp only at h
  split at h
  · obtain ⟨v, hv, h⟩ := bind_eq_ok.mp h
    cases h
    exact pairs_obj hv
  · obtain ⟨kvs, -, h⟩ := bind_eq_ok.mp h
    obtain ⟨v, hv, h⟩ := bind_eq_ok.mp h
    cases h
    exact pairs_obj hv

theorem parseArray_ne_obj : parseArray value pos s ≠ .ok (.obj d, pos', rest) := by
  intro h
  unfold parseArray at h
  simp only at h
  split at h
  · cases h
  · obtain ⟨vs, -, h⟩ := bind_eq_ok.mp h
    cases h

theorem scanOnce_distinct {depth pos pos' : Nat}
    (h : scanOnce strictHooks depth pos s = .ok (.obj d, pos', rest)) :
    firstDuplicate [] d = none := by
  cases depth with
  | zero =>
    unfold scanOnce at h
    split at h
    · cases h
    · cases h
    · exact absurd h scanScalar_ne_obj
  | succ depth =>
    unfold scanOnce at h
    split at h
    · exact parseObject_distinct h
    · exact absurd h parseArray_ne_obj
    · exact absurd h scanScalar_ne_obj

theorem loads_distinct {depth : Nat} {doc : Str} (h : loads strictHooks depth doc = .ok (.obj d)) :
    firstDuplicate [] d = none := by
  unfold loads at h
  split at h
  · cases h
  · obtain ⟨⟨v, pos, rest⟩, hscan, h⟩ := bind_eq_ok.mp h
    simp only at h
    split at h
    · cases h
      exact scanOnce_distinct hscan
    · cases h

theorem decodeStrictJson_distinct (h : decodeStrictJson interp text = .ok (.obj d)) :
    firstDuplicate [] d = none := by
  unfold decodeStrictJson at h
  split at h
  · rename_i hloads
    cases h
    exact loads_distinct hloads
  · cases h
  · cases h

theorem jsonLine_distinct {index : Nat} (h : (jsonLine interp index text).1 = .obj d) :
    firstDuplicate [] d = none := by
  unfold jsonLine at h
  split at h
  · cases h
  · split at h
    · rename_i hdecode
      cases h
      exact decodeStrictJson_distinct hdecode
    · split at h <;> cases h

theorem nodup_of_firstDuplicate {seen : List Str} (h : firstDuplicate seen d = none) :
    (d.map Prod.fst).Nodup ∧ ∀ key ∈ d.map Prod.fst, key ∉ seen := by
  induction d generalizing seen with
  | nil => simp
  | cons kv d ih =>
    obtain ⟨key, value⟩ := kv
    rw [firstDuplicate] at h
    split at h
    · cases h
    · rename_i hkey
      obtain ⟨hnodup, hseen⟩ := ih h
      rw [map_cons, nodup_cons]
      refine ⟨⟨fun hmem => hseen key hmem mem_cons_self, hnodup⟩, forall_mem_cons.mpr ⟨?_, ?_⟩⟩
      · simpa using hkey
      · exact fun k hk hmem => hseen k hk (mem_cons_of_mem _ hmem)

theorem keys_nodup (h : Json.obj d ∈ recordsOf interp raw) : (d.map Prod.fst).Nodup := by
  simp only [recordsOf, phaseJson, map_map, mem_map] at h
  obtain ⟨⟨text, index⟩, -, hline⟩ := h
  exact (nodup_of_firstDuplicate (jsonLine_distinct hline)).1

/-! ## The number of records -/

/-- A file has at most 64 records: with more lines, the first phase gives none. -/
theorem length_recordsOf_le (interp : Interpreter) (raw : List UInt8) :
    (recordsOf interp raw).length ≤ MAX_RECORDS := by
  have hlength : (recordsOf interp raw).length = (phaseRaw raw).1.length := by
    simp [recordsOf, phaseJson]
  rw [hlength]
  unfold phaseRaw
  split
  · exact Nat.zero_le _
  · split
    · exact Nat.zero_le _
    · simp only
      split
      · exact Nat.zero_le _
      · rename_i hlimits
        by_contra hlt
        rw [limitFailures, if_pos (by simpa using hlt)] at hlimits
        simp at hlimits

/-! ## Writing records -/

def membersOf (d : Dict) : List Member := d.map fun kv => (kv.1, flatOf kv.2)

section Records

variable {schema : List Field} {d : Dict}

/-- The tokens of a record have at most 64 characters. -/
def ShortTokens (schema : List Field) (d : Dict) : Prop :=
  ∀ name s, (name, .kebabToken) ∈ schema → getField d name = some (.str s) → s.length ≤ 64

theorem getField_of_mem (hnodup : (d.map Prod.fst).Nodup) {name : String} {v : Json}
    (h : (lit name, v) ∈ d) : getField d name = some v := by
  induction d with
  | nil => cases h
  | cons kv d ih =>
    rw [map_cons, nodup_cons] at hnodup
    rcases mem_cons.mp h with rfl | h
    · exact lookup_cons_self
    · have hne : lit name ≠ kv.1 := by
        rintro heq
        exact hnodup.1 (heq ▸ mem_map_of_mem h)
      rw [getField, lookup_cons, beq_eq_false_iff_ne.mpr hne]
      exact ih hnodup.2 h

theorem sum_keys_le (h : WellShaped schema d) (hnodup : (d.map Prod.fst).Nodup)
    (hschema : (schema.map Prod.fst).Nodup) :
    (d.map fun kv => kv.1.length + 70).sum ≤ (schema.map fun f => (lit f.1).length + 70).sum := by
  have hnames : (schema.map fun f => lit f.1).Nodup := by
    have hlit := hschema.map lit_injective
    rwa [map_map] at hlit
  have hkeys : (d.map fun kv => kv.1.length + 70) = (d.map Prod.fst).map (·.length + 70) := by
    rw [map_map]
    rfl
  have hfields : (schema.map fun f => (lit f.1).length + 70) =
      (schema.map fun f => lit f.1).map (·.length + 70) := by
    rw [map_map]
    rfl
  rw [hkeys, hfields, ← sum_toFinset _ hnodup, ← sum_toFinset _ hnames]
  refine Finset.sum_le_sum_of_subset fun key hkey => ?_
  rw [mem_toFinset] at hkey ⊢
  exact h.known key hkey

variable (h : WellShaped schema d) (hnodup : (d.map Prod.fst).Nodup) (hshort : ShortTokens schema d)

include h hnodup hshort

theorem member_writable {kv : Str × Json} (hkv : kv ∈ d) :
    (∃ f ∈ schema, lit f.1 = kv.1) ∧ WritableValue (flatOf kv.2) ∧ (flatOf kv.2).toJson = kv.2 := by
  obtain ⟨key, v⟩ := kv
  obtain ⟨f, hf, rfl⟩ := mem_map.mp (h.known key (mem_map_of_mem hkv))
  obtain ⟨w, hw, hadmits, -⟩ := h.fields f hf
  have hget := getField_of_mem hnodup hkv
  rw [hw] at hget
  cases hget
  refine ⟨⟨f, hf, rfl⟩, hadmits.writable ?_⟩
  rintro htype s rfl
  exact hshort f.1 s (htype ▸ hf) hw

theorem dictOf_membersOf : dictOf (membersOf d) = d := by
  unfold dictOf membersOf
  rw [map_map]
  refine (map_congr_left fun kv hkv => ?_).trans (map_id d)
  have hjson := (member_writable h hnodup hshort hkv).2.2
  simp [Member.toPair, hjson, id]

theorem lineOk_membersOf (hne : schema ≠ []) (hschema : (schema.map Prod.fst).Nodup)
    (hnames : ∀ f ∈ schema, IsPlain (lit f.1))
    (hlength : (schema.map fun f => (lit f.1).length + 70).sum ≤ 3998) : LineOk (membersOf d) := by
  have hmember : ∀ m ∈ membersOf d, ∃ kv ∈ d, (kv.1, flatOf kv.2) = m := fun m hm =>
    mem_map.mp hm
  refine ⟨?_, ?_, ?_, ?_⟩
  · obtain ⟨f, hf⟩ := exists_mem_of_ne_nil schema hne
    obtain ⟨v, hv, -⟩ := h.fields f hf
    intro hnil
    rw [map_eq_nil_iff.mp hnil] at hv
    cases hv
  · intro m hm
    obtain ⟨kv, hkv, rfl⟩ := hmember m hm
    obtain ⟨⟨f, hf, hkey⟩, hvalue, -⟩ := member_writable h hnodup hshort hkv
    exact ⟨hkey ▸ hnames f hf, hvalue.1⟩
  · refine firstDuplicate_eq_none ?_ (by simp)
    rwa [dictOf_membersOf h hnodup hshort]
  · have hvalue : ∀ m ∈ membersOf d, m.2.render.length ≤ 66 := by
      intro m hm
      obtain ⟨kv, hkv, rfl⟩ := hmember m hm
      exact (member_writable h hnodup hshort hkv).2.1.2
    have hmembers := length_renderMembers hvalue
    have hkeys : (membersOf d).map (fun m => m.1.length + 70) =
        d.map fun kv => kv.1.length + 70 := by
      rw [membersOf, map_map]
      rfl
    have hsum := sum_keys_le h hnodup hschema
    rw [hkeys] at hmembers
    simp only [renderObject, length_cons, length_append, length_nil]
    omega

end Records

/-- What a record of a file needs: the shape of its type, no key twice, and short tokens. -/
structure RecordOk (d : Dict) : Prop where
  shaped : Shaped d
  nodup : (d.map Prod.fst).Nodup
  short : isEvent (.obj d) = true → ShortTokens eventFields d

theorem RecordOk.line (h : RecordOk d) : LineOk (membersOf d) ∧ dictOf (membersOf d) = d := by
  cases h.shaped with
  | event kind shape =>
    have hshort := h.short kind
    exact ⟨lineOk_membersOf shape h.nodup hshort (cons_ne_nil _ _) eventFields_nodup
      eventFields_plain eventFields_length, dictOf_membersOf shape h.nodup hshort⟩
  | terminal kind shape =>
    -- a terminal has no tokens
    have hshort : ShortTokens terminalFields d := by
      intro name s hname
      simp [terminalFields] at hname
    exact ⟨lineOk_membersOf shape h.nodup hshort (cons_ne_nil _ _) terminalFields_nodup
      terminalFields_plain terminalFields_length, dictOf_membersOf shape h.nodup hshort⟩

/-- Records that can be written are the records of a file. -/
theorem exists_file (interp : Interpreter) {dicts : List Dict} (hne : dicts ≠ [])
    (hlen : dicts.length ≤ MAX_RECORDS) (h : ∀ d ∈ dicts, RecordOk d) :
    ∃ raw, Decodes interp raw (dicts.map Json.obj) := by
  have hlines : ∀ ms ∈ dicts.map membersOf, LineOk ms := by
    intro ms hms
    obtain ⟨d, hd, rfl⟩ := mem_map.mp hms
    exact (h d hd).line.1
  have hraw : phaseRaw (encodeLines (dicts.map membersOf)) =
      ((dicts.map membersOf).map renderObject, []) :=
    phaseRaw_encodeLines hlines (by simpa using hne) (by simpa using hlen)
  have hdicts : (dicts.map membersOf).map (fun ms => Json.obj (dictOf ms)) =
      dicts.map Json.obj := by
    rw [map_map]
    exact map_congr_left fun d hd => by simp [(h d hd).line.2]
  refine ⟨encodeLines (dicts.map membersOf), ?_, ?_, ?_⟩
  · rw [hraw]
  · rw [hraw, phaseJson_renderObject hlines]
  · rw [recordsOf, hraw, phaseJson_renderObject hlines, hdicts]

end AiosKernel.Replay
