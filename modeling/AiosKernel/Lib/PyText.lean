/-
# `AiosKernel.Lib.PyText` — Python text and bytes

A Python `str` is a list of code points, lone surrogates included, and a `bytes`
a list of bytes.  Here are the few operations on them that a program reading
text needs: strict UTF-8 decoding, `split`, `strip`, `str` of an integer, and
`repr`, which asks the interpreter's character tables what it may print.
-/
import Mathlib.Data.Nat.Digits.Lemmas
import Mathlib.Data.List.TakeWhile

namespace Py

open List

/-- A Python `str`. -/
abbrev Str : Type := List Nat

/-- The code points of a literal. -/
def lit (s : String) : Str := s.toList.map Char.toNat

/-! ## Bytes -/

/-- A continuation byte between the given bounds. -/
def inRange (lo hi : UInt8) (b : UInt8) : Bool := lo ≤ b && b ≤ hi

/-- The low six bits of a continuation byte. -/
def low6 (b : UInt8) : Nat := b.toNat % 64

/-- `bytes.decode("utf-8", errors="strict")`; `none` is a `UnicodeDecodeError`. -/
def decodeUtf8 : List UInt8 → Option Str
  | [] => some []
  | a :: rest =>
    if a < 0x80 then (decodeUtf8 rest).map (a.toNat :: ·)
    else if inRange 0xC2 0xDF a then
      match rest with
      | b :: rest =>
        if inRange 0x80 0xBF b then
          (decodeUtf8 rest).map ((a.toNat % 32 * 64 + low6 b) :: ·)
        else none
      | [] => none
    else if inRange 0xE0 0xEF a then
      match rest with
      | b :: c :: rest =>
        -- no overlong forms, no surrogates
        let ok := if a = 0xE0 then inRange 0xA0 0xBF b
          else if a = 0xED then inRange 0x80 0x9F b
          else inRange 0x80 0xBF b
        if ok && inRange 0x80 0xBF c then
          (decodeUtf8 rest).map ((a.toNat % 16 * 4096 + low6 b * 64 + low6 c) :: ·)
        else none
      | _ => none
    else if inRange 0xF0 0xF4 a then
      match rest with
      | b :: c :: d :: rest =>
        let ok := if a = 0xF0 then inRange 0x90 0xBF b
          else if a = 0xF4 then inRange 0x80 0x8F b
          else inRange 0x80 0xBF b
        if ok && inRange 0x80 0xBF c && inRange 0x80 0xBF d then
          (decodeUtf8 rest).map
            ((a.toNat % 8 * 262144 + low6 b * 4096 + low6 c * 64 + low6 d) :: ·)
        else none
      | _ => none
    else none

/-- `s.split(sep)` for a separator of one element. -/
def split {α : Type} [DecidableEq α] (sep : α) : List α → List (List α)
  | [] => [[]]
  | x :: xs =>
    if x = sep then [] :: split sep xs
    else
      match split sep xs with
      | l :: ls => (x :: l) :: ls
      | [] => [[x]]

def encodeAscii (s : Str) : List UInt8 := s.map UInt8.ofNat

variable {s : Str} {α : Type} {l : List α}

theorem decodeUtf8_encodeAscii (h : ∀ c ∈ s, c < 128) : decodeUtf8 (encodeAscii s) = some s := by
  induction s with
  | nil => rfl
  | cons c s ih =>
    have hc : c < 128 := h c mem_cons_self
    have hnat : (UInt8.ofNat c).toNat = c := by
      exact Nat.mod_eq_of_lt (by omega)
    have hlt : UInt8.ofNat c < 0x80 := by
      rw [UInt8.lt_iff_toNat_lt, hnat]
      exact hc
    have hrest : decodeUtf8 (encodeAscii s) = some s :=
      ih fun d hd => h d (mem_cons_of_mem c hd)
    show decodeUtf8 (UInt8.ofNat c :: encodeAscii s) = _
    unfold decodeUtf8
    rw [if_pos hlt, hrest, hnat]
    rfl

/-- Splitting takes a piece without separators off the front. -/
theorem split_append [DecidableEq α] {sep : α} (h : sep ∉ l) (xs : List α) :
    split sep (l ++ sep :: xs) = l :: split sep xs := by
  induction l with
  | nil =>
    show split sep (sep :: xs) = _
    rw [split, if_pos rfl]
  | cons x l ih =>
    have hx : x ≠ sep := fun hx => h (hx ▸ mem_cons_self)
    show split sep (x :: (l ++ sep :: xs)) = _
    rw [split, if_neg hx, ih fun hmem => h (mem_cons_of_mem x hmem)]

/-- Every element is a separator or in one of the pieces. -/
theorem mem_split [DecidableEq α] {sep x : α} (h : x ∈ l) :
    x = sep ∨ ∃ piece ∈ split sep l, x ∈ piece := by
  induction l with
  | nil => cases h
  | cons y l ih =>
    rw [split]
    split
    · rename_i hy
      rcases mem_cons.mp h with rfl | h
      · exact .inl hy
      · refine (ih h).imp_right fun ⟨piece, hpiece, hx⟩ => ?_
        exact ⟨piece, mem_cons_of_mem _ hpiece, hx⟩
    · split
      · rename_i first rest hrest
        rw [hrest] at ih
        rcases mem_cons.mp h with rfl | h
        · exact .inr ⟨_, mem_cons_self, mem_cons_self⟩
        · refine (ih h).imp_right fun ⟨piece, hpiece, hx⟩ => ?_
          rcases mem_cons.mp hpiece with rfl | hpiece
          · exact ⟨_, mem_cons_self, mem_cons_of_mem _ hx⟩
          · exact ⟨piece, mem_cons_of_mem _ hpiece, hx⟩
      · rename_i hrest
        rw [hrest] at ih
        rcases mem_cons.mp h with rfl | h
        · exact .inr ⟨_, mem_cons_self, mem_cons_self⟩
        · rcases ih h with hsep | ⟨piece, hpiece, -⟩
          · exact .inl hsep
          · cases hpiece

/-! ## Characters -/

/-- `str.isspace` of one character. -/
def isSpace (c : Nat) : Bool :=
  (9 ≤ c && c ≤ 13) || (28 ≤ c && c ≤ 32) || c == 0x85 || c == 0xA0 || c == 0x1680 ||
    (0x2000 ≤ c && c ≤ 0x200A) || c == 0x2028 || c == 0x2029 || c == 0x202F || c == 0x205F ||
    c == 0x3000

/-- `s.strip()`. -/
def strip (s : Str) : Str := ((s.dropWhile isSpace).reverse.dropWhile isSpace).reverse

theorem strip_ne_nil {c : Nat} (h : isSpace c = false) : strip (c :: s) ≠ [] := by
  intro hnil
  rw [strip, reverse_eq_nil_iff, dropWhile_eq_nil_iff] at hnil
  have hc : c ∈ ((c :: s).dropWhile isSpace).reverse := by
    rw [mem_reverse, dropWhile_cons_of_neg (by simp [h])]
    exact mem_cons_self
  rw [hnil c hc] at h
  cases h

def isDigit (c : Nat) : Bool := 48 ≤ c && c ≤ 57

/-- One lower-case hexadecimal digit. -/
def hexDigit (n : Nat) : Nat := if n < 10 then 48 + n else 87 + n

/-- The last `width` hexadecimal digits of a number. -/
def hex : Nat → Nat → Str
  | 0, _ => []
  | width + 1, n => hex width (n / 16) ++ [hexDigit (n % 16)]

/-- `str(n)` of a natural number. -/
def dec (n : Nat) : Str := if n = 0 then [48] else ((Nat.digits 10 n).map (48 + ·)).reverse

/-- `str(n)` of an integer. -/
def decInt (n : Int) : Str := if n < 0 then 45 :: dec n.natAbs else dec n.natAbs

/-- The value of a string of decimal digits. -/
def decValue (s : Str) : Nat := s.foldl (fun a c => a * 10 + (c - 48)) 0

/-! ## `repr` -/

/-- How `repr` shows one character inside the given quote. -/
def reprChar (printable : Nat → Bool) (quote c : Nat) : Str :=
  if c = quote ∨ c = 92 then [92, c]
  else if c = 9 then lit "\\t"
  else if c = 10 then lit "\\n"
  else if c = 13 then lit "\\r"
  else if c < 32 ∨ c = 127 then lit "\\x" ++ hex 2 c
  else if c < 127 then [c]
  else if printable c then [c]
  else if c ≤ 0xFF then lit "\\x" ++ hex 2 c
  else if c ≤ 0xFFFF then lit "\\u" ++ hex 4 c
  else lit "\\U" ++ hex 8 c

/-- `repr(s)`: single quotes unless the text has some and no double ones. -/
def repr (printable : Nat → Bool) (s : Str) : Str :=
  let quote := if s.contains 39 && !s.contains 34 then 34 else 39
  quote :: (s.flatMap (reprChar printable quote) ++ [quote])

/-- `sep.join(parts)`. -/
def join (sep : Str) (parts : List Str) : Str := sep.intercalate parts

/-! ## Decimal strings -/

theorem decValue_reverse (ds : List Nat) :
    decValue ((ds.map (48 + ·)).reverse) = Nat.ofDigits 10 ds := by
  unfold decValue
  rw [foldl_reverse, foldr_map, Nat.ofDigits_eq_foldr]
  induction ds with
  | nil => rfl
  | cons d ds ih =>
    rw [foldr_cons, foldr_cons, ih, Nat.add_sub_cancel_left]
    simp only [Nat.cast_id]
    ring

@[simp] theorem decValue_dec (n : Nat) : decValue (dec n) = n := by
  unfold dec
  split
  · rename_i hzero
    rw [hzero]
    rfl
  · rw [decValue_reverse, Nat.ofDigits_digits]

end Py
