/-
# `AiosKernel.Lib.Tiling` — address ranges that tile a set

A `Span` is a half-open range of addresses.  `Tiles rs S` says that the spans
`rs` are pairwise disjoint and that together they are exactly `S`.  Tilings do
not see the order of the spans (`Tiles.perm`), and cutting a span in two is the
only law an allocator needs (`tiles_cut`): read left to right it splits a block,
read right to left it coalesces two adjacent ones.  `Abut` iterates it: spans
that follow each other without gaps may be replaced by the one they fill.  If
on the other hand all spans are separated by gaps, whatever span they cover lies
within one of them (`exists_span_of_gaps`).  The sizes of the spans add up to the
size of the set they tile (`Tiles.sum_size`).
-/
import Mathlib.Data.Set.Card
import Mathlib.Order.Interval.Finset.Nat

namespace Tiling

open List

/-- The addresses `base ≤ a < base + size`. -/
structure Span where
  base : Nat
  size : Nat
  deriving DecidableEq, Repr

namespace Span

/-- The first address after the span. -/
def fin (r : Span) : Nat := r.base + r.size

instance : Membership Nat Span := ⟨fun r a => r.base ≤ a ∧ a < r.fin⟩

variable {r t : Span}

theorem mem_iff {a : Nat} : a ∈ r ↔ r.base ≤ a ∧ a < r.base + r.size := Iff.rfl

/-- No address lies in both. -/
def Apart (r t : Span) : Prop := ∀ a, a ∈ r → a ∉ t

theorem Apart.symm (h : r.Apart t) : t.Apart r := fun a ht hr => h a hr ht

/-- For nonempty spans, apart means one ends before the other begins. -/
theorem apart_iff (hr : 0 < r.size) (ht : 0 < t.size) :
    r.Apart t ↔ r.fin ≤ t.base ∨ t.fin ≤ r.base := by
  simp only [Apart, mem_iff, fin]
  constructor
  · intro h
    by_contra hc
    rcases Nat.le_total r.base t.base with hle | hle
    · exact h t.base ⟨hle, by omega⟩ ⟨le_rfl, by omega⟩
    · exact h r.base ⟨le_rfl, by omega⟩ ⟨hle, by omega⟩
  · rintro h a ⟨h₁, h₂⟩ ⟨h₃, h₄⟩
    omega

end Span

/-- The spans `rs` are pairwise disjoint and their union is `S`. -/
@[mk_iff]
structure Tiles (rs : List Span) (S : Set Nat) : Prop where
  apart : rs.Pairwise Span.Apart
  cover : ∀ a, a ∈ S ↔ ∃ r ∈ rs, a ∈ r

variable {rs : List Span} {S : Set Nat}

theorem Tiles.perm {rs ts : List Span} (h : Tiles rs S) (hp : rs.Perm ts) : Tiles ts S where
  apart := (hp.pairwise_iff Span.Apart.symm).mp h.apart
  cover a := (h.cover a).trans
    ⟨fun ⟨r, hr, ha⟩ => ⟨r, hp.mem_iff.mp hr, ha⟩, fun ⟨r, hr, ha⟩ => ⟨r, hp.mem_iff.mpr hr, ha⟩⟩

theorem tiles_nil : Tiles [] S ↔ S = ∅ := by
  constructor
  · intro h
    exact Set.eq_empty_iff_forall_notMem.mpr fun a ha => by simpa using (h.cover a).mp ha
  · rintro rfl
    exact ⟨List.Pairwise.nil, by simp⟩

/-- An address of a cut span lies in exactly one of the two parts. -/
theorem mem_cut {b s t a : Nat} :
    a ∈ (⟨b, s + t⟩ : Span) ↔ a ∈ (⟨b, s⟩ : Span) ∨ a ∈ (⟨b + s, t⟩ : Span) := by
  simp only [Span.mem_iff]
  omega

theorem apart_cut {b s t : Nat} {r : Span} :
    Span.Apart ⟨b, s + t⟩ r ↔ Span.Apart ⟨b, s⟩ r ∧ Span.Apart ⟨b + s, t⟩ r := by
  simp only [Span.Apart, mem_cut, or_imp, forall_and]

/-- Cutting a span in two, or joining two adjacent spans, keeps a tiling. -/
theorem tiles_cut {b s t : Nat} :
    Tiles (⟨b, s + t⟩ :: rs) S ↔ Tiles (⟨b, s⟩ :: ⟨b + s, t⟩ :: rs) S := by
  have hparts : Span.Apart ⟨b, s⟩ ⟨b + s, t⟩ := by
    intro a h₁ h₂
    simp only [Span.mem_iff] at h₁ h₂
    omega
  simp only [tiles_iff, pairwise_cons, apart_cut, mem_cons, forall_eq_or_imp, hparts,
    true_and, forall_and, exists_eq_or_imp, mem_cut, or_assoc, and_assoc]

theorem tiles_empty {b : Nat} : Tiles (⟨b, 0⟩ :: rs) S ↔ Tiles rs S := by
  have hnot : ∀ a, a ∉ (⟨b, 0⟩ : Span) := by
    intro a ha
    simp only [Span.mem_iff] at ha
    omega
  simp [tiles_iff, Span.Apart, hnot]

/-- The spans follow each other without gaps from `a` to `z`. -/
def Abut : Nat → List Span → Nat → Prop
  | a, [], z => a = z
  | a, r :: rs, z => r.base = a ∧ Abut r.fin rs z

variable {a z : Nat} {ts : List Span}

theorem Abut.le (h : Abut a rs z) : a ≤ z := by
  induction rs generalizing a with
  | nil => exact h.le
  | cons r rs ih =>
    have hfin := ih h.2
    have hr := h.1
    simp only [Span.fin] at hfin
    omega

theorem abut_append :
    ∀ {a : Nat} {rs : List Span}, Abut a (rs ++ ts) z ↔ ∃ m, Abut a rs m ∧ Abut m ts z
  | a, [] => by simp [Abut]
  | a, r :: rs => by
    simp only [cons_append, Abut, abut_append]
    constructor
    · rintro ⟨h, m, h₁, h₂⟩
      exact ⟨m, ⟨h, h₁⟩, h₂⟩
    · rintro ⟨m, ⟨h, h₁⟩, h₂⟩
      exact ⟨h, m, h₁, h₂⟩

theorem Abut.mem_bounds (h : Abut a rs z) : ∀ r ∈ rs, a ≤ r.base ∧ r.fin ≤ z := by
  intro r hr
  obtain ⟨xs, ys, rfl⟩ := append_of_mem hr
  obtain ⟨m, h₁, h₂, h₃⟩ := abut_append.mp h
  exact ⟨h₂ ▸ h₁.le, h₃.le⟩

/-- Spans that abut tile what the span from the first to the last does. -/
theorem tiles_abut :
    ∀ {b : Nat} {rs : List Span}, Abut b ts z →
      (Tiles (⟨b, z - b⟩ :: rs) S ↔ Tiles (ts ++ rs) S) := by
  induction ts with
  | nil =>
    rintro b rs rfl
    rw [Nat.sub_self]
    exact tiles_empty
  | cons t ts ih =>
    rintro b rs ⟨rfl, h⟩
    have hle := h.le
    simp only [Span.fin] at h hle
    have hsize : z - t.base = t.size + (z - (t.base + t.size)) := by omega
    have hswap : ∀ {x y : Span}, Tiles (x :: y :: rs) S ↔ Tiles (y :: x :: rs) S :=
      ⟨fun h => h.perm (List.Perm.swap _ _ _), fun h => h.perm (List.Perm.swap _ _ _)⟩
    rw [hsize, tiles_cut, hswap, ih h]
    exact ⟨fun h => h.perm perm_middle, fun h => h.perm perm_middle.symm⟩

/-! ## Gaps -/

/-- A span covered by spans that do not even touch each other lies within one of them. -/
theorem exists_span_of_gaps {sp : Span} (hgap : rs.Pairwise fun r t => r.fin < t.base)
    (hpos : 0 < sp.size) (hcover : ∀ a ∈ sp, ∃ r ∈ rs, a ∈ r) : ∃ r ∈ rs, ∀ a ∈ sp, a ∈ r := by
  have hapart : ∀ ⦃r⦄, r ∈ rs → ∀ ⦃t⦄, t ∈ rs → r = t ∨ r.fin < t.base ∨ t.fin < r.base :=
    List.Pairwise.forall_of_forall_of_flip (fun r _ => .inl rfl)
      (hgap.imp fun h => .inr (.inl h)) (hgap.imp fun h => .inr (.inr h))
  obtain ⟨r, hr, hbase⟩ := hcover sp.base ⟨le_rfl, Nat.lt_add_of_pos_right hpos⟩
  -- the span of one address reaches the next one, as any other would begin after a gap
  have hstep : ∀ k, k < sp.size → sp.base + k ∈ r := by
    intro k
    induction k with
    | zero => exact fun _ => hbase
    | succ k ih =>
      intro hk
      have hprev := ih (Nat.lt_of_succ_lt hk)
      obtain ⟨t, ht, hnext⟩ := hcover (sp.base + (k + 1))
        ⟨Nat.le_add_right _ _, Nat.add_lt_add_left hk _⟩
      rcases hapart hr ht with rfl | hlt | hlt
      · exact hnext
      all_goals
        simp only [Span.mem_iff, Span.fin] at hprev hnext hlt
        omega
  refine ⟨r, hr, fun a ha => ?_⟩
  obtain ⟨hle, hlt⟩ := Span.mem_iff.mp ha
  obtain ⟨k, rfl⟩ := Nat.exists_eq_add_of_le hle
  exact hstep k (by omega)

theorem Span.base_mem {u : Span} (hu : 0 < u.size) : u.base ∈ u :=
  ⟨le_rfl, Nat.lt_add_of_pos_right hu⟩

/-- The first of spans with gaps between them has the least address, and none has its end. -/
theorem cover_of_gaps {r : Span} {a : Nat} (hgap : (r :: rs).Pairwise fun r t => r.fin < t.base)
    (ha : ∃ t ∈ r :: rs, a ∈ t) : r.base ≤ a ∧ a ≠ r.fin := by
  obtain ⟨t, ht, hmem⟩ := ha
  rw [Span.mem_iff] at hmem
  rcases mem_cons.mp ht with rfl | ht
  · simp only [Span.fin]
    omega
  · have hlt := (pairwise_cons.mp hgap).1 t ht
    simp only [Span.fin] at hlt ⊢
    omega

/-- Spans with gaps between them are determined by the addresses they cover. -/
theorem eq_of_gaps (hr : rs.Pairwise fun r t => r.fin < t.base)
    (ht : ts.Pairwise fun r t => r.fin < t.base) (hrpos : ∀ r ∈ rs, 0 < r.size)
    (htpos : ∀ t ∈ ts, 0 < t.size) (hcover : ∀ a, (∃ r ∈ rs, a ∈ r) ↔ ∃ t ∈ ts, a ∈ t) :
    rs = ts := by
  induction rs generalizing ts with
  | nil =>
    cases ts with
    | nil => rfl
    | cons t ts =>
      have hmem := Span.base_mem (htpos t mem_cons_self)
      simpa using (hcover t.base).mpr ⟨t, mem_cons_self, hmem⟩
  | cons r rs ih =>
    obtain ⟨hr0, hrpos'⟩ := forall_mem_cons.mp hrpos
    cases ts with
    | nil =>
      simpa using (hcover r.base).mp ⟨r, mem_cons_self, Span.base_mem hr0⟩
    | cons t ts =>
      obtain ⟨ht0, htpos'⟩ := forall_mem_cons.mp htpos
      have hle := (cover_of_gaps ht ((hcover r.base).mp ⟨r, mem_cons_self, Span.base_mem hr0⟩)).1
      have hge := (cover_of_gaps hr ((hcover t.base).mpr ⟨t, mem_cons_self, Span.base_mem ht0⟩)).1
      -- neither can end within the other
      have hfin : r.fin ∉ t := fun h =>
        (cover_of_gaps hr ((hcover r.fin).mpr ⟨t, mem_cons_self, h⟩)).2 rfl
      have hfin' : t.fin ∉ r := fun h =>
        (cover_of_gaps ht ((hcover t.fin).mp ⟨r, mem_cons_self, h⟩)).2 rfl
      simp only [Span.mem_iff, Span.fin] at hfin hfin'
      obtain rfl : r = t := by
        cases r
        cases t
        simp only [Span.mk.injEq] at *
        omega
      rw [pairwise_cons] at hr ht
      have htail : ∀ {us : List Span}, (∀ u ∈ us, r.fin < u.base) → ∀ a,
          (∃ u ∈ us, a ∈ u) ↔ (∃ u ∈ r :: us, a ∈ u) ∧ a ∉ r := by
        intro us hus a
        rw [exists_mem_cons_iff]
        refine ⟨fun h => ⟨.inr h, fun hr => ?_⟩, fun h => h.1.resolve_left h.2⟩
        obtain ⟨u, hu, hau⟩ := h
        exact absurd (hus u hu) (Nat.not_lt.mpr (hau.1.trans hr.2.le))
      rw [ih hr.2 ht.2 hrpos' htpos' fun a => by rw [htail hr.1, htail ht.1, hcover]]

/-! ## Sizes -/

theorem Span.ncard (r : Span) : {a | a ∈ r}.ncard = r.size := by
  have hset : {a | a ∈ r} = ((Finset.Ico r.base r.fin : Finset Nat) : Set Nat) := by
    ext a
    simp [Span.mem_iff, Span.fin]
  rw [hset, Set.ncard_coe_finset, Nat.card_Ico]
  simp [Span.fin]

/-- The sizes of the spans add up to the number of addresses they tile. -/
theorem Tiles.sum_size :
    ∀ {S : Set Nat}, Tiles rs S → S.Finite ∧ (rs.map Span.size).sum = S.ncard := by
  induction rs with
  | nil =>
    intro S h
    rw [tiles_nil.mp h]
    simp
  | cons r rs ih =>
    intro S h
    obtain ⟨happ, htail⟩ := pairwise_cons.mp h.apart
    have hrest : Tiles rs {a | ∃ t ∈ rs, a ∈ t} := ⟨htail, fun a => Iff.rfl⟩
    obtain ⟨hfin, hsum⟩ := ih hrest
    have hrfin : {a | a ∈ r}.Finite := Set.finite_Ico r.base r.fin
    have hS : S = {a | a ∈ r} ∪ {a | ∃ t ∈ rs, a ∈ t} := by
      ext a
      rw [h.cover]
      simp
    have hdisj : Disjoint {a | a ∈ r} {a | ∃ t ∈ rs, a ∈ t} := by
      rw [Set.disjoint_left]
      rintro a hr ⟨t, ht, ha⟩
      exact happ t ht a hr ha
    rw [hS]
    refine ⟨hrfin.union hfin, ?_⟩
    rw [Set.ncard_union_eq hdisj hrfin hfin, map_cons, sum_cons, hsum, r.ncard]

end Tiling
