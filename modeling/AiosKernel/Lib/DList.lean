/-
# `AiosKernel.Lib.DList` — doubly linked lists threaded through two link maps

A list of nodes is threaded through a forward map `nx` and a backward map `pv`
on an arbitrary type `P` of pointers, `none` being the null pointer.  The node
records may live anywhere (a pool of descriptors, headers inside the managed
memory, task control blocks): only their two links matter here.

`Seg nx pv p xs q` says that the nodes `xs` follow each other through `nx`, that
`pv` inverts those links, that the node before the first is `p` and the one
after the last is `q`.  A segment splits at any point (`seg_append`), so each
edit of a list is the same three moves: split at the edit, transport the
untouched parts (`Seg.congr`), and state the new links at the seam.

`IsList nx pv head xs` is the null-terminated case, and a `Family` is one such
list for each key, with no node on two of them.  The edits are stated on the
maps *after* the edit, so that any way of performing the writes will do.
-/
import Mathlib.Data.List.Nodup

namespace DList

open List Function

variable {P : Type*} {nx pv nx' pv' : P → Option P}

/-! ## Segments -/

/-- The nodes `xs` are linked both ways, between `p` and `q`. -/
def Seg (nx pv : P → Option P) : Option P → List P → Option P → Prop
  | _, [], _ => True
  | p, x :: xs, q => pv x = p ∧ nx x = xs.head?.or q ∧ Seg nx pv (some x) xs q

@[simp] theorem seg_nil (p q : Option P) : Seg nx pv p [] q := trivial

variable {xs as bs : List P} {x : P} {head p q : Option P} {test : P → Bool}

theorem seg_cons :
    Seg nx pv p (x :: xs) q ↔ pv x = p ∧ nx x = xs.head?.or q ∧ Seg nx pv (some x) xs q :=
  Iff.rfl

/-- A segment splits anywhere: each half sees the other's end as its neighbour. -/
theorem seg_append {ys : List P} :
    ∀ {p : Option P} {xs : List P}, Seg nx pv p (xs ++ ys) q ↔
      Seg nx pv p xs (ys.head?.or q) ∧ Seg nx pv (xs.getLast?.or p) ys q
  | p, [] => by simp
  | p, x :: xs => by
    rw [cons_append, seg_cons, seg_cons, @seg_append ys (some x) xs]
    have hhead : (xs ++ ys).head?.or q = xs.head?.or (ys.head?.or q) := by
      cases xs <;> simp
    have hlast : (x :: xs).getLast?.or p = xs.getLast?.or (some x) := by
      cases xs with
      | nil => simp
      | cons y ys => simp [getLast?_cons]
    rw [hhead, hlast]
    constructor
    · rintro ⟨h₁, h₂, h₃, h₄⟩
      exact ⟨⟨h₁, h₂, h₃⟩, h₄⟩
    · rintro ⟨⟨h₁, h₂, h₃⟩, h₄⟩
      exact ⟨h₁, h₂, h₃, h₄⟩

/-- A segment only reads the links of its own nodes. -/
theorem Seg.congr :
    ∀ {p : Option P} {xs : List P}, Seg nx pv p xs q →
      (∀ x ∈ xs, nx' x = nx x ∧ pv' x = pv x) → Seg nx' pv' p xs q
  | _, [], _, _ => trivial
  | _, x :: _, ⟨h₁, h₂, h₃⟩, hag => by
    have hx := hag x mem_cons_self
    exact ⟨hx.2.trans h₁, hx.1.trans h₂, h₃.congr fun y hy => hag y (mem_cons_of_mem _ hy)⟩

/-- Changing the node after a segment changes the forward link of its last node only. -/
theorem Seg.retarget {p q q' : Option P} (h : Seg nx pv p xs q) (hd : xs.Nodup)
    (hlast : ∀ x ∈ xs.getLast?, nx' x = q') (hn : ∀ x ∈ xs, xs.getLast? ≠ some x → nx' x = nx x)
    (hp : ∀ x ∈ xs, pv' x = pv x) : Seg nx' pv' p xs q' := by
  rcases eq_nil_or_concat xs with rfl | ⟨ys, y, rfl⟩
  · trivial
  · rw [concat_eq_append] at *
    rw [seg_append] at h ⊢
    have hy : y ∉ ys := by
      have := nodup_append.mp hd
      exact fun hm => this.2.2 y hm y (by simp) rfl
    refine ⟨?_, ?_⟩
    · refine (h.1.congr fun x hx => ⟨?_, hp x (by simp [hx])⟩)
      refine hn x (by simp [hx]) ?_
      simp only [getLast?_append, getLast?_singleton, Option.or, ne_eq, Option.some.injEq]
      exact fun he => hy (he ▸ hx)
    · refine ⟨(hp y (by simp)).trans h.2.1, ?_, trivial⟩
      simpa using hlast y (by simp)

/-- Changing the node before a segment changes the backward link of its first node only. -/
theorem Seg.resource {p p' q : Option P} (h : Seg nx pv p xs q) (hd : xs.Nodup)
    (hhead : ∀ x ∈ xs.head?, pv' x = p') (hp : ∀ x ∈ xs, xs.head? ≠ some x → pv' x = pv x)
    (hn : ∀ x ∈ xs, nx' x = nx x) : Seg nx' pv' p' xs q := by
  cases xs with
  | nil => trivial
  | cons x xs =>
    refine ⟨hhead x (by simp), (hn x (by simp)).trans h.2.1, h.2.2.congr fun y hy => ?_⟩
    have hxy : x ≠ y := fun he => (nodup_cons.mp hd).1 (he ▸ hy)
    exact ⟨hn y (by simp [hy]), hp y (by simp [hy]) (by simpa using hxy)⟩

theorem Seg.next_eq (h : Seg nx pv p (as ++ x :: bs) q) : nx x = bs.head?.or q :=
  (seg_append.mp h).2.2.1

theorem Seg.prev_eq (h : Seg nx pv p (as ++ x :: bs) q) : pv x = as.getLast?.or p :=
  (seg_append.mp h).2.1

/-! ## Null-terminated lists -/

/-- Following `nx` from `head` meets exactly `xs` and ends in null, and `pv` inverts it. -/
def IsList (nx pv : P → Option P) (head : Option P) (xs : List P) : Prop :=
  head = xs.head? ∧ Seg nx pv none xs none

theorem IsList.head_eq (h : IsList nx pv head xs) : head = xs.head? := h.1

theorem IsList.next_eq (h : IsList nx pv head (as ++ x :: bs)) : nx x = bs.head? := by
  simpa using h.2.next_eq

theorem IsList.prev_eq (h : IsList nx pv head (as ++ x :: bs)) : pv x = as.getLast? := by
  simpa using h.2.prev_eq

theorem IsList.congr (h : IsList nx pv head xs) (hag : ∀ x ∈ xs, nx' x = nx x ∧ pv' x = pv x) :
    IsList nx' pv' head xs :=
  ⟨h.1, h.2.congr hag⟩

/-- The suffix that follows a node is determined by the node. -/
theorem suffix_unique {p p' : Option P} :
    ∀ {x : P} {xs ys : List P}, Seg nx pv p (x :: xs) none → Seg nx pv p' (x :: ys) none → xs = ys
  | _, [], [], _, _ => rfl
  | _, [], y :: ys, h, h' => by
    have := h.2.1.symm.trans h'.2.1
    simp at this
  | _, z :: zs, [], h, h' => by
    have := h.2.1.symm.trans h'.2.1
    simp at this
  | _, z :: zs, y :: ys, h, h' => by
    have hzy : z = y := by
      have := h.2.1.symm.trans h'.2.1
      simpa using this
    subst hzy
    exact congrArg _ (suffix_unique h.2.2 h'.2.2)

/-- A null-terminated list meets no node twice. -/
theorem Seg.nodup : ∀ {p : Option P} {xs : List P}, Seg nx pv p xs none → xs.Nodup
  | _, [], _ => nodup_nil
  | _, x :: xs, h => by
    refine nodup_cons.mpr ⟨fun hx => ?_, h.2.2.nodup⟩
    -- a second occurrence of `x` would have the same suffix, which is shorter
    obtain ⟨as, bs, rfl⟩ := append_of_mem hx
    have := suffix_unique h (seg_append.mp h.2.2).2
    have hlen := congrArg List.length this
    simp only [length_append, length_cons] at hlen
    omega

theorem IsList.nodup (h : IsList nx pv head xs) : xs.Nodup :=
  h.2.nodup

section

variable {head : Option P} {as bs : List P} {x y : P}

section

variable (h : IsList nx pv head (as ++ x :: bs))
include h

theorem IsList.notMem : x ∉ as ∧ x ∉ bs := by
  obtain ⟨-, hxb, hab⟩ := nodup_append.mp h.nodup
  exact ⟨fun hx => hab x hx x mem_cons_self rfl, (nodup_cons.mp hxb).1⟩

theorem IsList.next_mem (hy : nx x = some y) : y ∈ bs :=
  mem_of_mem_head? (h.next_eq ▸ hy)

theorem IsList.prev_mem (hy : pv x = some y) : y ∈ as :=
  mem_of_getLast? (h.prev_eq ▸ hy)

theorem IsList.next_ne_self : nx x ≠ some x :=
  fun he => h.notMem.2 (h.next_mem he)

theorem IsList.prev_ne_self : pv x ≠ some x :=
  fun he => h.notMem.1 (h.prev_mem he)

theorem IsList.prev_ne_next (hy : pv x = some y) : nx x ≠ some y := by
  intro he
  obtain ⟨-, -, hab⟩ := nodup_append.mp h.nodup
  exact hab y (h.prev_mem hy) y (mem_cons_of_mem _ (h.next_mem he)) rfl

end

end

/-! ## Edits -/

section

variable [DecidableEq P] {head head' : Option P} {xs as bs : List P} {b c x : P}

theorem IsList.insertFront (h : IsList nx pv head xs) (hb : b ∉ xs)
    (hnx : ∀ y, nx' y = if y = b then head else nx y)
    (hpv : ∀ y, pv' y = if y = b then none else if head = some y then some b else pv y) :
    IsList nx' pv' (some b) (b :: xs) := by
  have hne : ∀ y ∈ xs, y ≠ b := fun y hy he => hb (he ▸ hy)
  refine ⟨rfl, by rw [hpv, if_pos rfl], ?_, ?_⟩
  · rw [hnx, if_pos rfl, h.1]
    simp
  · refine h.2.resource h.nodup (fun y hy => ?_) (fun y hy hh => ?_) (fun y hy => ?_)
    · rw [hpv, if_neg (hne y (mem_of_mem_head? hy)), if_pos (h.1.trans hy)]
    · rw [hpv, if_neg (hne y hy), if_neg (h.1 ▸ hh)]
    · rw [hnx, if_neg (hne y hy)]

/-- Linking `b` in after `c`. -/
theorem IsList.insertAfter (h : IsList nx pv head (as ++ c :: bs)) (hb : b ∉ as ++ c :: bs)
    (hnx : ∀ y, nx' y = if y = c then some b else if y = b then nx c else nx y)
    (hpv : ∀ y, pv' y = if y = b then some c else if nx c = some y then some b else pv y) :
    IsList nx' pv' head (as ++ c :: b :: bs) := by
  have hne : ∀ y ∈ as ++ c :: bs, y ≠ b := fun y hy he => hb (he ▸ hy)
  obtain ⟨hca, hcb⟩ := h.notMem
  obtain ⟨-, hdc, hab⟩ := nodup_append.mp h.nodup
  obtain ⟨hsa, hpc, -, hsb⟩ := seg_append.mp h.2
  -- the nodes up to `c` keep their backward links, those after it their forward links
  have hback : ∀ y ∈ as ++ [c], pv' y = pv y := by
    intro y hy
    have hlast : nx c ≠ some y := by
      intro he
      rcases mem_append.mp hy with hy | hy
      · exact hab y hy y (mem_cons_of_mem _ (h.next_mem he)) rfl
      · exact h.next_ne_self (mem_singleton.mp hy ▸ he)
    rw [hpv, if_neg (hne y (by simpa using mem_append_left bs hy)), if_neg hlast]
  have hforth : ∀ y ∈ as ++ bs, nx' y = nx y := by
    intro y hy
    have hyc : y ≠ c := by
      rintro rfl
      exact (mem_append.mp hy).elim hca hcb
    rw [hnx, if_neg hyc, if_neg (hne y ((mem_append.mp hy).elim
      (mem_append_left _) fun hy => mem_append_right _ (mem_cons_of_mem _ hy)))]
  refine ⟨by rw [h.1]; cases as <;> simp, seg_append.mpr ⟨?_, ?_, ?_, ?_, ?_, ?_⟩⟩
  · exact hsa.congr fun y hy => ⟨hforth y (by simp [hy]), hback y (by simp [hy])⟩
  · exact (hback c (by simp)).trans hpc
  · rw [hnx, if_pos rfl]
    rfl
  · rw [hpv, if_pos rfl]
  · rw [hnx, if_neg (hne c (by simp)).symm, if_pos rfl, h.next_eq]
    simp
  · refine hsb.resource (nodup_cons.mp hdc).2 (fun y hy => ?_) (fun y hy hh => ?_)
      fun y hy => hforth y (by simp [hy])
    · rw [hpv, if_neg (hne y (by simp [mem_of_mem_head? hy])), if_pos (h.next_eq.trans hy)]
    · rw [hpv, if_neg (hne y (by simp [hy])), if_neg (h.next_eq ▸ hh)]

/-- Unlinking `x`.  What becomes of the links of `x` itself does not matter. -/
theorem IsList.unlink (h : IsList nx pv head (as ++ x :: bs))
    (hnx : ∀ y, y ≠ x → nx' y = if pv x = some y then nx x else nx y)
    (hpv : ∀ y, y ≠ x → pv' y = if nx x = some y then pv x else pv y)
    (hhead : head' = if pv x = none then nx x else head) : IsList nx' pv' head' (as ++ bs) := by
  obtain ⟨hxa, hxb⟩ := h.notMem
  obtain ⟨hda, hdx, hab⟩ := nodup_append.mp h.nodup
  obtain ⟨hsa, -, -, hsb⟩ := seg_append.mp h.2
  have hnext := h.next_eq
  have hprev := h.prev_eq
  have hnea : ∀ y ∈ as, y ≠ x := fun y hy he => hxa (he ▸ hy)
  have hneb : ∀ y ∈ bs, y ≠ x := fun y hy he => hxb (he ▸ hy)
  have hdisj : ∀ y ∈ as, y ∉ bs := fun y hy hy' => hab y hy y (by simp [hy']) rfl
  refine ⟨?_, seg_append.mpr ⟨?_, ?_⟩⟩
  · rw [hhead, hprev, hnext, h.1]
    cases as with
    | nil => simp
    | cons a as => simp
  · refine hsa.retarget hda (fun y hy => ?_) (fun y hy hh => ?_) (fun y hy => ?_)
    · rw [hnx y (hnea y (mem_of_getLast? hy)), if_pos (hprev.trans hy), hnext]
      simp
    · rw [hnx y (hnea y hy), if_neg (hprev ▸ hh)]
    · rw [hpv y (hnea y hy), if_neg fun he => hdisj y hy (h.next_mem he)]
  · refine hsb.resource (nodup_cons.mp hdx).2 (fun y hy => ?_) (fun y hy hh => ?_)
      (fun y hy => ?_)
    · rw [hpv y (hneb y (mem_of_mem_head? hy)), if_pos (hnext.trans hy), hprev]
      simp
    · rw [hpv y (hneb y hy), if_neg (hnext ▸ hh)]
    · rw [hnx y (hneb y hy), if_neg fun he => hdisj y (h.prev_mem he) hy]

end

/-! ## Families of lists -/

/-- Each key has its list, and no node is on two of them. -/
structure Family {K : Type*} (nx pv : P → Option P) (head : K → Option P) (Q : K → List P) :
    Prop where
  links : ∀ k, IsList nx pv (head k) (Q k)
  apart : ∀ k k', ∀ x ∈ Q k, x ∈ Q k' → k = k'

namespace Family

section

variable {K : Type*} {head head' : K → Option P} {Q : K → List P} {k k' : K} {as bs xs : List P}
  {b c x : P}

theorem notMem_of_ne (h : Family nx pv head Q) (hk : k' ≠ k) (hx : x ∈ Q k') : x ∉ Q k :=
  fun hx' => hk (h.apart k' k x hx hx')

theorem head_mem (h : Family nx pv head Q) (hx : head k = some x) : x ∈ Q k :=
  mem_of_mem_head? ((h.links k).head_eq ▸ hx)

theorem list (h : Family nx pv head Q) (hQ : Q k = xs) : IsList nx pv (head k) xs :=
  hQ ▸ h.links k

variable [DecidableEq K]

/-- An edit of one list, which leaves the links on the others alone. -/
theorem edit (h : Family nx pv head Q) (hlist : IsList nx' pv' (head' k) xs)
    (hheads : ∀ k', k' ≠ k → head' k' = head k')
    (hother : ∀ k', k' ≠ k → ∀ x ∈ Q k', nx' x = nx x ∧ pv' x = pv x)
    (hxs : ∀ x ∈ xs, ∀ k', k' ≠ k → x ∉ Q k') : Family nx' pv' head' (update Q k xs) where
  links := by
    refine (forall_update_iff Q fun k' q => IsList nx' pv' (head' k') q).mpr ⟨hlist, ?_⟩
    intro k' hk
    rw [hheads k' hk]
    exact (h.links k').congr (hother k' hk)
  apart k₁ k₂ x h₁ h₂ := by
    by_cases hk₁ : k₁ = k
    · by_cases hk₂ : k₂ = k
      · rw [hk₁, hk₂]
      · subst hk₁
        rw [update_self] at h₁
        rw [update_of_ne hk₂] at h₂
        exact absurd h₂ (hxs x h₁ k₂ hk₂)
    · rw [update_of_ne hk₁] at h₁
      by_cases hk₂ : k₂ = k
      · subst hk₂
        rw [update_self] at h₂
        exact absurd h₁ (hxs x h₂ k₁ hk₁)
      · rw [update_of_ne hk₂] at h₂
        exact h.apart k₁ k₂ x h₁ h₂

variable [DecidableEq P]

theorem insertFront (h : Family nx pv head Q) (hb : ∀ k, b ∉ Q k)
    (hnx : ∀ y, nx' y = if y = b then head k else nx y)
    (hpv : ∀ y, pv' y = if y = b then none else if head k = some y then some b else pv y)
    (hhead : ∀ k', head' k' = if k' = k then some b else head k') :
    Family nx' pv' head' (update Q k (b :: Q k)) := by
  refine h.edit ?_ (fun k' hk => ?_) (fun k' hk x hx => ?_) (fun x hx k' hk hx' => ?_)
  · rw [hhead, if_pos rfl]
    exact (h.links k).insertFront (hb k) hnx hpv
  · rw [hhead, if_neg hk]
  · have hxb : x ≠ b := fun he => hb k' (he ▸ hx)
    rw [hnx, hpv, if_neg hxb, if_neg hxb, if_neg fun he => h.notMem_of_ne hk hx (h.head_mem he)]
    exact ⟨rfl, rfl⟩
  · rcases mem_cons.mp hx with rfl | hx
    · exact hb k' hx'
    · exact h.notMem_of_ne hk hx' hx

theorem insertAfter (h : Family nx pv head Q) (hQ : Q k = as ++ c :: bs) (hb : ∀ k, b ∉ Q k)
    (hnx : ∀ y, nx' y = if y = c then some b else if y = b then nx c else nx y)
    (hpv : ∀ y, pv' y = if y = b then some c else if nx c = some y then some b else pv y)
    (hhead : head' = head) : Family nx' pv' head' (update Q k (as ++ c :: b :: bs)) := by
  have hlist := h.list hQ
  refine h.edit ?_ (fun k' _ => congrFun hhead k') (fun k' hk x hx => ?_) fun x hx k' hk hx' => ?_
  · rw [hhead]
    exact hlist.insertAfter (hQ ▸ hb k) hnx hpv
  · have hnot : x ∉ as ++ c :: bs := hQ ▸ h.notMem_of_ne hk hx
    have hxb : x ≠ b := fun he => hb k' (he ▸ hx)
    have hxc : x ≠ c := fun he => hnot (by simp [he])
    have hxn : nx c ≠ some x := fun he => hnot (by simp [hlist.next_mem he])
    rw [hnx, hpv, if_neg hxc, if_neg hxb, if_neg hxb, if_neg hxn]
    exact ⟨rfl, rfl⟩
  · have hnot : x ∉ as ++ c :: bs := hQ ▸ h.notMem_of_ne hk hx'
    have hxb : x ≠ b := fun he => hb k' (he ▸ hx')
    simp only [mem_append, mem_cons] at hx hnot
    tauto

theorem unlink (h : Family nx pv head Q) (hQ : Q k = as ++ x :: bs)
    (hnx : ∀ y, y ≠ x → nx' y = if pv x = some y then nx x else nx y)
    (hpv : ∀ y, y ≠ x → pv' y = if nx x = some y then pv x else pv y)
    (hhead : ∀ k', head' k' = if pv x = none ∧ k' = k then nx x else head k') :
    Family nx' pv' head' (update Q k (as ++ bs)) := by
  have hlist := h.list hQ
  refine h.edit (hlist.unlink hnx hpv ?_) (fun k' hk => ?_) (fun k' hk y hy => ?_)
    fun y hy k' hk hy' => ?_
  · rw [hhead]
    simp
  · rw [hhead, if_neg fun he => hk he.2]
  · have hnot : y ∉ as ++ x :: bs := hQ ▸ h.notMem_of_ne hk hy
    have hyx : y ≠ x := fun he => hnot (by simp [he])
    rw [hnx y hyx, hpv y hyx, if_neg fun he => hnot (by simp [hlist.prev_mem he]),
      if_neg fun he => hnot (by simp [hlist.next_mem he])]
    exact ⟨rfl, rfl⟩
  · have hnot : y ∉ as ++ x :: bs := hQ ▸ h.notMem_of_ne hk hy'
    simp only [mem_append, mem_cons] at hy hnot
    tauto

end

end Family

/-! ## Walks -/

/-- `while (c->next && test(c->next)) c = c->next;`, `none` when `fuel` does not suffice. -/
def advance (nx : P → Option P) (test : P → Bool) : Nat → P → Option P
  | 0, _ => none
  | fuel + 1, c =>
    match nx c with
    | none => some c
    | some d => if test d then advance nx test fuel d else some c

/-- On a null-terminated list the walk ends, at the last node of the longest run of nodes
that pass the test. -/
theorem advance_eq :
    ∀ {fuel : Nat} {p : Option P} {c : P} {as : List P},
      Seg nx pv p (c :: as ++ bs) none → as.length < fuel →
      (∀ y ∈ as, test y = true) → (∀ y ∈ bs.head?, test y = false) →
      advance nx test fuel c = (c :: as).getLast?
  | 0, _, _, _, _, hf, _, _ => absurd hf (Nat.not_lt_zero _)
  | fuel + 1, _, c, [], h, _, _, hbs => by
    have hc : nx c = bs.head? := by simpa using h.2.1
    cases bs with
    | nil => simp [advance, hc]
    | cons b bs =>
      have hb := hbs b rfl
      simp [advance, hc, hb]
  | fuel + 1, _, c, d :: as, h, hf, has, hbs => by
    have hc : nx c = some d := by simpa using h.2.1
    have hd := has d mem_cons_self
    have ih := advance_eq h.2.2 (Nat.lt_of_succ_lt_succ hf)
      (fun y hy => has y (mem_cons_of_mem _ hy)) hbs
    simp [advance, hc, hd, ih]

/-- More fuel does not change where a walk ends. -/
theorem advance_mono :
    ∀ {fuel fuel' : Nat} {c d : P}, fuel ≤ fuel' → advance nx test fuel c = some d →
      advance nx test fuel' c = some d
  | 0, _, _, _, _, h => by simp [advance] at h
  | fuel + 1, 0, _, _, hle, _ => absurd hle (Nat.not_succ_le_zero _)
  | fuel + 1, fuel' + 1, c, d, hle, h => by
    simp only [advance] at h ⊢
    split at h
    · exact h
    · split at h
      · rename_i ht
        simpa [ht] using advance_mono (Nat.le_of_succ_le_succ hle) h
      · rename_i ht
        simpa [ht] using h

/-- What holds of the first node and follows the links holds where the walk ends. -/
theorem advance_keeps {Q : P → Prop} (hnext : ∀ x y, Q x → nx x = some y → Q y) :
    ∀ {fuel : Nat} {c d : P}, Q c → advance nx test fuel c = some d → Q d
  | 0, _, _, _, h => by simp [advance] at h
  | fuel + 1, c, d, hc, h => by
    simp only [advance] at h
    split at h
    · exact Option.some.inj h ▸ hc
    · rename_i e he
      split at h
      · exact advance_keeps hnext (hnext c e hc he) h
      · exact Option.some.inj h ▸ hc

/-- A walk that comes to a node linked to itself does not end. -/
theorem advance_self {c : P} (hnext : nx c = some c) (htest : test c = true) :
    ∀ fuel, advance nx test fuel c = none := by
  intro fuel
  induction fuel with
  | zero => rfl
  | succ fuel ih =>
    rw [advance, hnext]
    simpa [htest] using ih

/-! ## Sorted lists -/

/-- The place of a node in a sorted list: behind all that go before it. -/
theorem exists_place {R : P → P → Prop} {p : P → Prop} (hs : xs.Pairwise R)
    (hp : ∀ x y, R x y → p y → p x) :
    ∃ as bs, xs = as ++ bs ∧ (∀ x ∈ as, p x) ∧ ∀ x ∈ bs, ¬ p x := by
  induction xs with
  | nil => exact ⟨[], [], rfl, by simp, by simp⟩
  | cons x xs ih =>
    obtain ⟨hx, hxs⟩ := pairwise_cons.mp hs
    by_cases hpx : p x
    · obtain ⟨as, bs, rfl, has, hbs⟩ := ih hxs
      exact ⟨x :: as, bs, rfl, forall_mem_cons.mpr ⟨hpx, has⟩, hbs⟩
    · refine ⟨[], x :: xs, rfl, by simp, forall_mem_cons.mpr ⟨hpx, ?_⟩⟩
      exact fun y hy hpy => hpx (hp x y (hx y hy) hpy)

end DList
