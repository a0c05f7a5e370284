/-
# `AiosKernel.Lib.PyRender` — writing flat JSON objects

An object whose members are plain strings and natural numbers, written without
spaces, and the theorem that `loads` reads it back.
-/
import AiosKernel.Lib.PyJson

namespace Py

open List

/-! ## Rendering -/

/-- A string that is written between quotes as it is. -/
def IsPlain (s : Str) : Prop := ∀ c ∈ s, 32 ≤ c ∧ c < 127 ∧ c ≠ 34 ∧ c ≠ 92

inductive Flat where
  | text (s : Str)
  | number (n : Nat)
  deriving DecidableEq, Repr

namespace Flat

def toJson : Flat → Json
  | text s => .str s
  | number n => .int n

def IsPlain : Flat → Prop
  | text s => Py.IsPlain s
  | number _ => True

end Flat

def renderString (s : Str) : Str := 34 :: (s ++ [34])

def Flat.render : Flat → Str
  | text s => renderString s
  | number n => dec n

abbrev Member : Type := Str × Flat

def Member.toPair (m : Member) : Str × Json := (m.1, m.2.toJson)

def renderMember (m : Member) : Str := renderString m.1 ++ 58 :: m.2.render

def renderMembers : List Member → Str
  | [] => []
  | [m] => renderMember m
  | m :: ms => renderMember m ++ 44 :: renderMembers ms

def renderObject (ms : List Member) : Str := 123 :: (renderMembers ms ++ [125])

/-! ## Characters -/

def IsAscii (c : Nat) : Prop := 32 ≤ c ∧ c < 127

theorem isAscii_dec {n c : Nat} (h : c ∈ dec n) : IsAscii c := by
  unfold dec at h
  split at h
  · cases mem_singleton.mp h
    exact ⟨by decide, by decide⟩
  · rw [mem_reverse, mem_map] at h
    obtain ⟨e, he, rfl⟩ := h
    have hlt := Nat.digits_lt_base (by norm_num) he
    exact ⟨by omega, by omega⟩

variable {rest s : Str} {ms : List Member} {hooks : Hooks} {c depth : Nat} {m : Member}

theorem isAscii_renderString (h : IsPlain s) (hc : c ∈ renderString s) : IsAscii c := by
  simp only [renderString, mem_cons, mem_append, not_mem_nil, or_false] at hc
  rcases hc with rfl | hc | rfl
  · exact ⟨by decide, by decide⟩
  · exact ⟨(h c hc).1, (h c hc).2.1⟩
  · exact ⟨by decide, by decide⟩

theorem isAscii_renderMember (hkey : IsPlain m.1) (hvalue : m.2.IsPlain) (hc : c ∈ renderMember m) :
    IsAscii c := by
  obtain ⟨key, value⟩ := m
  simp only [renderMember, mem_append, mem_cons] at hc
  rcases hc with hc | rfl | hc
  · exact isAscii_renderString hkey hc
  · exact ⟨by decide, by decide⟩
  · cases value with
    | text s => exact isAscii_renderString hvalue hc
    | number n => exact isAscii_dec hc

theorem isAscii_renderMembers (hplain : ∀ m ∈ ms, IsPlain m.1 ∧ m.2.IsPlain)
    (hc : c ∈ renderMembers ms) : IsAscii c := by
  induction ms with
  | nil => cases hc
  | cons m ms ih =>
    obtain ⟨hkey, hvalue⟩ := hplain m mem_cons_self
    cases ms with
    | nil => exact isAscii_renderMember hkey hvalue hc
    | cons m' ms =>
      simp only [renderMembers, mem_append, mem_cons] at hc
      rcases hc with hc | rfl | hc
      · exact isAscii_renderMember hkey hvalue hc
      · exact ⟨by decide, by decide⟩
      · exact ih (fun n hn => hplain n (mem_cons_of_mem m hn)) hc

/-- A flat object is written in printable ASCII. -/
theorem isAscii_renderObject (hplain : ∀ m ∈ ms, IsPlain m.1 ∧ m.2.IsPlain)
    (hc : c ∈ renderObject ms) : IsAscii c := by
  simp only [renderObject, mem_cons, mem_append, not_mem_nil, or_false] at hc
  rcases hc with rfl | hc | rfl
  · exact ⟨by decide, by decide⟩
  · exact isAscii_renderMembers hplain hc
  · exact ⟨by decide, by decide⟩

/-! ## Scalars -/

theorem skipSpace_of_not_space {pos c : Nat} (h : isJsonSpace c = false) :
    skipSpace pos (c :: rest) = (pos, c :: rest) := by
  simp [skipSpace, h]

theorem scanString_plain (h : IsPlain s) (start pos : Nat) (rest : Str) :
    scanString start pos (s ++ 34 :: rest) = .ok (s, pos + s.length + 1, rest) := by
  induction s generalizing pos with
  | nil =>
    rw [scanString.eq_def]
    rfl
  | cons c s ih =>
    obtain ⟨hlow, -, hquote, hslash⟩ := h c mem_cons_self
    have hrest := ih (fun d hd => h d (mem_cons_of_mem c hd)) (pos + 1)
    show scanString start pos (c :: (s ++ 34 :: rest)) = _
    rw [scanString.eq_def]
    simp only [if_neg hquote, if_neg hslash, if_neg (show ¬c ≤ 31 by omega), hrest, consChar,
      length_cons]
    rw [Nat.add_right_comm pos 1, Nat.add_assoc pos]

/-- The digits of a number: a zero, or digits that do not start with one. -/
theorem dec_shape (n : Nat) :
    (n = 0 ∧ dec n = [48]) ∨
      ∃ c ds, dec n = c :: ds ∧ c ≠ 48 ∧ isDigit c = true ∧ ∀ d ∈ ds, isDigit d = true := by
  by_cases hn : n = 0
  · exact .inl ⟨hn, by rw [dec, if_pos hn]⟩
  · right
    have hne : Nat.digits 10 n ≠ [] := Nat.digits_ne_nil_iff_ne_zero.mpr hn
    have hdigit : ∀ d ∈ dec n, isDigit d = true := by
      intro d hd
      rw [dec, if_neg hn, mem_reverse, mem_map] at hd
      obtain ⟨e, he, rfl⟩ := hd
      have hlt := Nat.digits_lt_base (by norm_num) he
      simp only [isDigit, Bool.and_eq_true, decide_eq_true_eq]
      omega
    have hlast := Nat.getLast_digit_ne_zero 10 hn
    have hdec : dec n = (48 + (Nat.digits 10 n).getLast hne) ::
        (((Nat.digits 10 n).dropLast).map (48 + ·)).reverse := by
      rw [dec, if_neg hn]
      conv_lhs => rw [← dropLast_append_getLast hne]
      simp
    refine ⟨_, _, hdec, by omega, hdigit _ (by simp [hdec]), ?_⟩
    intro d hd
    exact hdigit d (by rw [hdec]; exact mem_cons_of_mem _ hd)

/-- What may follow a number: the end of its member. -/
def EndsNumber (rest : Str) : Prop := ∃ c tail, rest = c :: tail ∧ (c = 44 ∨ c = 125)

theorem integerPart_dec {n : Nat} (h : EndsNumber rest) :
    integerPart (dec n ++ rest) = some (dec n, rest) := by
  obtain ⟨c, tail, rfl, hc⟩ := h
  have hnot : isDigit c = false := by rcases hc with rfl | rfl <;> rfl
  rcases dec_shape n with ⟨rfl, hdec⟩ | ⟨d, ds, hdec, hne, hd, hds⟩
  · rfl
  · rw [hdec]
    show integerPart (d :: (ds ++ c :: tail)) = _
    have hall : ∀ x ∈ d :: ds, isDigit x = true := forall_mem_cons.mpr ⟨hd, hds⟩
    rw [integerPart, if_neg hne, if_pos hd, span_eq_takeWhile_dropWhile,
      ← cons_append, takeWhile_append_of_pos hall, dropWhile_append_of_pos hall]
    simp [hnot]

/-- A number is read up to the end of its member. -/
theorem matchNumber_dec {n pos : Nat} (h : EndsNumber rest) :
    matchNumber pos (dec n ++ rest) = some (.int n, pos + (dec n).length, rest) := by
  have hpart := integerPart_dec (n := n) h
  obtain ⟨c, tail, rfl, hc⟩ := h
  have hsign : numberSign (dec n ++ c :: tail) = (false, dec n ++ c :: tail) := by
    unfold numberSign
    split
    · rename_i t ht
      rcases dec_shape n with ⟨-, hdec⟩ | ⟨d, ds, hdec, -, hd, -⟩
      · rw [hdec] at ht
        cases ht
      · rw [hdec] at ht
        cases ht
        cases hd
    · rfl
  have hfraction : fraction (c :: tail) = ([], c :: tail) := by
    rcases hc with rfl | rfl <;> rfl
  have hexponent : exponent (c :: tail) = ([], c :: tail) := by
    rcases hc with rfl | rfl <;> rfl
  simp [matchNumber, hsign, hpart, hfraction, hexponent]

theorem scanScalar_digit {pos d : Nat} (hd : isDigit d = true) {r : Json × Nat × Str}
    (h : matchNumber pos (d :: s) = some r) : scanScalar hooks pos (d :: s) = .ok r := by
  simp only [isDigit, Bool.and_eq_true, decide_eq_true_eq] at hd
  have hscan : scanScalar hooks pos (d :: s) =
      (matchNumber pos (d :: s)).elim (.error (.decode "Expecting value" pos)) .ok := by
    obtain ⟨hlow, hhigh⟩ := hd
    interval_cases d <;> rfl
  rw [hscan, h, Option.elim_some]

theorem scanOnce_digit {depth pos d : Nat} (hd : isDigit d = true) :
    scanOnce hooks depth pos (d :: s) = scanScalar hooks pos (d :: s) := by
  simp only [isDigit, Bool.and_eq_true, decide_eq_true_eq] at hd
  obtain ⟨hlow, hhigh⟩ := hd
  cases depth <;> interval_cases d <;> rfl

theorem dec_head (n : Nat) : ∃ d ds, dec n = d :: ds ∧ isDigit d = true := by
  rcases dec_shape n with ⟨-, hdec⟩ | ⟨d, ds, hdec, -, hd, -⟩
  · exact ⟨48, [], hdec, rfl⟩
  · exact ⟨d, ds, hdec, hd⟩

/-- A flat scalar is read up to the end of its member. -/
theorem scanOnce_flat (pos : Nat) {v : Flat} (hv : v.IsPlain) (hrest : EndsNumber rest) :
    scanOnce hooks depth pos (v.render ++ rest) = .ok (v.toJson, pos + v.render.length, rest) := by
  cases v with
  | text s =>
    have hscan := scanString_plain hv pos (pos + 1) rest
    have happ : (Flat.text s).render ++ rest = 34 :: (s ++ 34 :: rest) := by
      simp [Flat.render, renderString]
    have hlen : pos + 1 + s.length + 1 = pos + (Flat.text s).render.length := by
      simp [Flat.render, renderString]
      omega
    rw [happ, ← hlen]
    cases depth <;> simp [scanOnce, scanScalar, hscan, bind, Except.bind, Flat.toJson]
  | number n =>
    obtain ⟨d, ds, hdec, hd⟩ := dec_head n
    have hnumber : matchNumber pos (dec n ++ rest) = _ := matchNumber_dec hrest
    show scanOnce hooks depth pos (dec n ++ rest) = .ok (.int n, pos + (dec n).length, rest)
    rw [hdec] at hnumber ⊢
    exact (scanOnce_digit hd).trans (scanScalar_digit hd hnumber)

/-! ## Objects -/

theorem renderMembers_cons (h : ms ≠ []) :
    renderMembers (m :: ms) = renderMember m ++ 44 :: renderMembers ms := by
  cases ms with
  | nil => exact absurd rfl h
  | cons m' ms => rfl

/-- A member is a key, a colon, and a scalar. -/
theorem renderMember_append :
    renderMember m ++ rest = 34 :: (m.1 ++ 34 :: 58 :: (m.2.render ++ rest)) := by
  simp [renderMember, renderString]

theorem render_head (v : Flat) : ∃ c s, v.render = c :: s ∧ isJsonSpace c = false := by
  cases v with
  | text s => exact ⟨34, s ++ [34], rfl, rfl⟩
  | number n =>
    obtain ⟨d, ds, hdec, hd⟩ := dec_head n
    refine ⟨d, ds, hdec, ?_⟩
    simp only [isDigit, Bool.and_eq_true, decide_eq_true_eq] at hd
    simp [isJsonSpace]
    omega

/-- Before the members of an object there is no space to skip. -/
theorem skipSpace_renderMembers {pos : Nat} :
    skipSpace pos (renderMembers (m :: ms) ++ rest) = (pos, renderMembers (m :: ms) ++ rest) := by
  cases ms with
  | nil | cons m' ms => exact skipSpace_of_not_space rfl

/-- One member of an object is read up to what ends it: a brace, or a comma and the rest. -/
theorem members_member (hkey : IsPlain m.1) (hvalue : m.2.IsPlain) (fuel pos : Nat)
    (hc : c = 44 ∨ c = 125) :
    ∃ pos', members (scanOnce hooks depth) (fuel + 1) pos (renderMember m ++ c :: rest) =
      if c = 125 then .ok ([m.toPair], pos' + 1, rest)
      else
        (members (scanOnce hooks depth) fuel (skipSpace (pos' + 1) rest).1
          (skipSpace (pos' + 1) rest).2).bind fun r => .ok (m.toPair :: r.1, r.2) := by
  obtain ⟨d, s, hrender, hspace⟩ := render_head m.2
  have hkeyScan := scanString_plain hkey pos (pos + 1) (58 :: (m.2.render ++ c :: rest))
  let behindKey := pos + 1 + m.1.length + 1
  have hcolon : skipSpace behindKey (58 :: (m.2.render ++ c :: rest)) =
      (behindKey, 58 :: (m.2.render ++ c :: rest)) := skipSpace_of_not_space rfl
  have hstart : skipSpace (behindKey + 1) (m.2.render ++ c :: rest) =
      (behindKey + 1, m.2.render ++ c :: rest) := by
    rw [hrender]
    exact skipSpace_of_not_space hspace
  have hvalueScan : scanOnce hooks depth (behindKey + 1) (m.2.render ++ c :: rest) =
      .ok (m.2.toJson, behindKey + 1 + m.2.render.length, c :: rest) :=
    scanOnce_flat (behindKey + 1) hvalue ⟨c, rest, rfl, hc⟩
  have hend : skipSpace (behindKey + 1 + m.2.render.length) (c :: rest) =
      (behindKey + 1 + m.2.render.length, c :: rest) := by
    apply skipSpace_of_not_space
    rcases hc with rfl | rfl <;> rfl
  refine ⟨behindKey + 1 + m.2.render.length, ?_⟩
  rw [renderMember_append, members]
  simp only [bind, Except.bind, hkeyScan]
  rw [hcolon]
  simp only
  rw [hstart]
  simp only [hvalueScan, hend]
  rcases hc with rfl | rfl
  · rfl
  · rfl

/-- The members of a flat object are read up to the closing brace. -/
theorem members_render (hne : ms ≠ []) (hplain : ∀ m ∈ ms, IsPlain m.1 ∧ m.2.IsPlain) {fuel : Nat}
    (hfuel : ms.length ≤ fuel) (pos : Nat) (rest : Str) :
    ∃ pos', members (scanOnce hooks depth) fuel pos (renderMembers ms ++ 125 :: rest) =
      .ok (ms.map Member.toPair, pos', rest) := by
  induction ms generalizing fuel pos with
  | nil => exact absurd rfl hne
  | cons m ms ih =>
    rw [length_cons] at hfuel
    obtain ⟨fuel, rfl⟩ : ∃ k, fuel = k + 1 := ⟨fuel - 1, by omega⟩
    obtain ⟨hkey, hvalue⟩ := hplain m mem_cons_self
    cases ms with
    | nil =>
      obtain ⟨pos', hread⟩ := members_member hkey hvalue fuel pos (.inr rfl)
      exact ⟨pos' + 1, hread⟩
    | cons m' ms =>
      have hplain' : ∀ n ∈ m' :: ms, IsPlain n.1 ∧ n.2.IsPlain := fun n hn =>
        hplain n (mem_cons_of_mem m hn)
      obtain ⟨pos₁, hread⟩ := members_member hkey hvalue fuel pos (.inl rfl)
      have hle : (m' :: ms).length ≤ fuel := by omega
      obtain ⟨pos₂, hrest⟩ := ih (cons_ne_nil _ _) hplain' hle (pos₁ + 1)
      refine ⟨pos₂, ?_⟩
      rw [renderMembers_cons (cons_ne_nil _ _), append_assoc, cons_append, hread,
        if_neg (by decide), skipSpace_renderMembers, hrest]
      rfl

theorem length_le_renderMembers (ms : List Member) : ms.length ≤ (renderMembers ms).length := by
  induction ms with
  | nil => exact le_refl 0
  | cons m ms ih =>
    cases ms with
    | nil => simp [renderMembers, renderMember, renderString]
    | cons m' ms =>
      rw [renderMembers_cons (cons_ne_nil _ _)]
      simp only [length_cons, length_append] at ih ⊢
      omega

/-- `loads` reads a flat object back. -/
theorem loads_renderObject (hdepth : 0 < depth) (hne : ms ≠ [])
    (hplain : ∀ m ∈ ms, IsPlain m.1 ∧ m.2.IsPlain) {v : Json}
    (hpairs : hooks.pairs (ms.map Member.toPair) = .ok v) :
    loads hooks depth (renderObject ms) = .ok v := by
  obtain ⟨depth, rfl⟩ : ∃ k, depth = k + 1 := ⟨depth - 1, by omega⟩
  obtain ⟨m, ms, rfl⟩ := exists_cons_of_ne_nil hne
  have hfuel : (m :: ms).length ≤ (renderMembers (m :: ms) ++ [125]).length + 1 := by
    have := length_le_renderMembers (m :: ms)
    rw [length_append]
    omega
  obtain ⟨pos', hread⟩ : ∃ pos', members (scanOnce hooks depth)
      ((renderMembers (m :: ms) ++ [125]).length + 1) 1 (renderMembers (m :: ms) ++ [125]) =
        .ok ((m :: ms).map Member.toPair, pos', []) := members_render hne hplain hfuel 1 []
  have hobject : parseObject hooks (scanOnce hooks depth) 1 (renderMembers (m :: ms) ++ [125]) =
      .ok (v, pos', []) := by
    obtain ⟨s, hs⟩ : ∃ s, renderMembers (m :: ms) ++ [125] = 34 :: s := by
      cases ms with
      | nil | cons m' ms => exact ⟨_, rfl⟩
    unfold parseObject
    rw [skipSpace_renderMembers]
    simp only [bind, Except.bind, hread, hpairs]
    rw [hs]
    rfl
  unfold loads renderObject
  rw [if_neg (by simp), skipSpace_of_not_space rfl]
  simp only [scanOnce, bind, Except.bind, hobject]
  rfl

end Py
