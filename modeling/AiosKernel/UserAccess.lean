/-
# `AiosKernel.UserAccess` — the user boundary of `kernel/core/user_access.c`

A buffer that crosses the boundary is probed first: its flags, its size, null,
the end of the address space and, while a program runs in ring 3, the window of
its memory.  The copies probe what they are about to touch once more.  The window
is all the state a probe looks at, so an output buffer that was probed before a
call did its work can still be written after it (`copyToUser_eq`).

The content of user memory is whatever the program has put there.
-/
import AiosKernel.Types
import AiosKernel.Lib.Word

namespace AiosKernel.UserAccess

open Word

def USER_ACCESS_UINTPTR_MAX : Nat := 2 ^ 64 - 1

def USER_ACCESS_F_READ : BitVec 32 := 1 <<< 0
def USER_ACCESS_F_WRITE : BitVec 32 := 1 <<< 1
def USER_ACCESS_F_ALLOW_ZERO : BitVec 32 := 1 <<< 2
def USER_ACCESS_F_MASK : BitVec 32 :=
  USER_ACCESS_F_READ ||| USER_ACCESS_F_WRITE ||| USER_ACCESS_F_ALLOW_ZERO

/-! ## The model -/

inductive Reason where
  | ok
  | nullPtr
  | zeroSize
  | rangeOverflow
  | badFlags
  | protectionUnavailable
  | outOfWindow
  deriving DecidableEq, Repr

/-- `g_window_active`, `g_window_start` and `g_window_end`, which is inclusive. -/
structure Window where
  active : Bool
  start : Nat
  last : Nat
  deriving DecidableEq, Repr

structure Check where
  ok : Bool
  reason : Reason
  start : Nat
  last : Nat
  size : Nat
  flags : BitVec 32
  deriving DecidableEq, Repr

def clearWindow : Window := ⟨false, 0, 0⟩

def setWindow (base size : Nat) : Window :=
  if size = 0 then clearWindow else ⟨true, base, u64 (base + (size - 1))⟩

def userAccessFlagsValid (flags : BitVec 32) : Bool :=
  let access := flags &&& (USER_ACCESS_F_READ ||| USER_ACCESS_F_WRITE)
  if flags &&& ~~~USER_ACCESS_F_MASK ≠ 0 then false else access != 0

def userAccessProbe (w : Window) (ptr size : Nat) (flags : BitVec 32) : Check :=
  if !userAccessFlagsValid flags then ⟨false, .badFlags, ptr, ptr, size, flags⟩
  else if size = 0 then
    let ok := flags &&& USER_ACCESS_F_ALLOW_ZERO != 0
    ⟨ok, if ok then .ok else .zeroSize, ptr, ptr, size, flags⟩
  else if ptr = 0 then ⟨false, .nullPtr, ptr, ptr, size, flags⟩
  else if USER_ACCESS_UINTPTR_MAX - (size - 1) < ptr then
    ⟨false, .rangeOverflow, ptr, ptr, size, flags⟩
  else
    let last := ptr + (size - 1)
    if w.active && (ptr < w.start || w.last < last) then
      ⟨false, .outOfWindow, ptr, last, size, flags⟩
    else ⟨true, .ok, ptr, last, size, flags⟩

def userAccessStatus : Reason → AiosStatus
  | .ok => .ok
  | .rangeOverflow => .errOverflow
  | .protectionUnavailable | .outOfWindow => .errPerm
  | .nullPtr | .zeroSize | .badFlags => .errInval

/-- What `copy_to_user` and `copy_from_user` return; they differ in the flags and in which of
their pointers is the user's.  `kernelPtr` says that the other one is not null. -/
def copyStatus (flags : BitVec 32) (w : Window) (userPtr : Nat) (kernelPtr : Bool) (size : Nat) :
    AiosStatus :=
  if size = 0 then .ok
  else if !kernelPtr then .errInval
  else
    let check := userAccessProbe w userPtr size flags
    if !check.ok then userAccessStatus check.reason else .ok

def copyToUser (w : Window) (userDst : Nat) (kernelSrc : Bool) (size : Nat) : AiosStatus :=
  copyStatus USER_ACCESS_F_WRITE w userDst kernelSrc size

def copyFromUser (w : Window) (kernelDst : Bool) (userSrc : Nat) (size : Nat) : AiosStatus :=
  copyStatus USER_ACCESS_F_READ w userSrc kernelDst size

/-- The loop of `copy_string_from_user`: the characters before the terminator, if it is among the
next `n`. -/
def readString (charAt : Nat → Char) (src : Nat) : Nat → Option (List Char)
  | 0 => none
  | n + 1 =>
    if charAt src = Char.ofNat 0 then some []
    else (readString charAt (src + 1) n).map (charAt src :: ·)

/-- `copy_string_from_user`: the string, or the status of the failure. -/
def copyStringFromUser (w : Window) (charAt : Nat → Char) (kernelDst : Bool) (userSrc maxLen : Nat) :
    Except AiosStatus String :=
  if !kernelDst || maxLen = 0 then .error .errInval
  else
    let check := userAccessProbe w userSrc maxLen USER_ACCESS_F_READ
    if !check.ok then .error (userAccessStatus check.reason)
    else
      match readString charAt userSrc maxLen with
      | some text => .ok (String.ofList text)
      | none => .error .errOverflow

/-- `syscall_output_buffer_status` of `kernel/runtime/ai_syscall.c`. -/
def syscallOutputBufferStatus (w : Window) (ptr size : Nat) : AiosStatus :=
  let check := userAccessProbe w ptr size USER_ACCESS_F_WRITE
  if !check.ok then userAccessStatus check.reason else .ok

/-! ## What a probe accepts -/

/-- The range is not at null, does not leave the address space, and lies in the window if one is
active. -/
structure Accessible (w : Window) (ptr size : Nat) : Prop where
  nonnull : ptr ≠ 0
  inRange : ptr + size ≤ 2 ^ 64
  inWindow : w.active = true → ∀ a, ptr ≤ a → a < ptr + size → w.start ≤ a ∧ a ≤ w.last

section

variable {w : Window} {ptr size : Nat} {flags : BitVec 32}

/-- A probe of a nonempty buffer accepts exactly the accessible ones. -/
theorem userAccessProbe_ok_iff (hflags : userAccessFlagsValid flags = true) (hsize : 0 < size)
    (hbound : size ≤ 2 ^ 64) :
    (userAccessProbe w ptr size flags).ok = true ↔ Accessible w ptr size := by
  have hne : size ≠ 0 := Nat.ne_of_gt hsize
  simp only [userAccessProbe, hflags, Bool.not_true, Bool.false_eq_true, if_false, if_neg hne]
  split
  · rename_i hnull
    exact ⟨(nomatch ·), fun h => absurd hnull h.nonnull⟩
  rename_i hnull
  split
  · rename_i hover
    refine ⟨(nomatch ·), fun h => ?_⟩
    have hrange := h.inRange
    simp only [USER_ACCESS_UINTPTR_MAX] at hover
    omega
  rename_i hover
  have hrange : ptr + size ≤ 2 ^ 64 := by
    simp only [USER_ACCESS_UINTPTR_MAX] at hover
    omega
  split
  · rename_i hout
    refine ⟨(nomatch ·), fun h => ?_⟩
    simp only [Bool.and_eq_true, Bool.or_eq_true, decide_eq_true_eq] at hout
    -- the first or the last address is outside
    have hfirst := h.inWindow hout.1 ptr (Nat.le_refl _) (by omega)
    have hlast := h.inWindow hout.1 (ptr + (size - 1)) (by omega) (by omega)
    omega
  · rename_i hin
    refine ⟨fun _ => ⟨hnull, hrange, fun hactive a hle hlt => ?_⟩, fun _ => rfl⟩
    simp only [hactive, Bool.true_and, Bool.or_eq_true, decide_eq_true_eq, not_or] at hin
    omega

theorem userAccessProbe_reason :
    (userAccessProbe w ptr size flags).reason = .ok ↔ (userAccessProbe w ptr size flags).ok = true := by
  unfold userAccessProbe
  iterate 4
    split
    · simp
  simp only
  split <;> simp

theorem userAccessStatus_eq_ok {r : Reason} : userAccessStatus r = .ok ↔ r = .ok := by
  cases r <;> simp [userAccessStatus]

theorem syscallOutputBufferStatus_eq_ok :
    syscallOutputBufferStatus w ptr size = .ok ↔
      (userAccessProbe w ptr size USER_ACCESS_F_WRITE).ok = true := by
  simp only [syscallOutputBufferStatus]
  split
  · rw [userAccessStatus_eq_ok, userAccessProbe_reason]
  · rename_i hok
    simpa using hok

theorem copyToUser_eq (hsize : 0 < size) :
    copyToUser w ptr true size = syscallOutputBufferStatus w ptr size := by
  simp [copyToUser, copyStatus, syscallOutputBufferStatus, Nat.ne_of_gt hsize]

end

/-! ## Strings -/

/-- The program has put `text` at `p`, with a terminator behind it. -/
def HoldsString (charAt : Nat → Char) : Nat → List Char → Prop
  | p, [] => charAt p = Char.ofNat 0
  | p, c :: text => (charAt p = c ∧ c ≠ Char.ofNat 0) ∧ HoldsString charAt (p + 1) text

variable {charAt : Nat → Char} {p maxLen : Nat} {text : List Char}

theorem readString_of_holds (h : HoldsString charAt p text) (hlen : text.length < maxLen) :
    readString charAt p maxLen = some text := by
  induction text generalizing p maxLen with
  | nil =>
    cases maxLen with
    | zero => cases hlen
    | succ n => exact if_pos h
  | cons c text ih =>
    cases maxLen with
    | zero => cases hlen
    | succ n =>
      obtain ⟨⟨rfl, hne⟩, hrest⟩ := h
      rw [readString, if_neg hne, ih hrest (Nat.lt_of_succ_lt_succ hlen)]
      rfl

/-- **A string inside the window is copied exactly if all the bytes that the kernel's buffer has
room for are inside.** -/
theorem copy_string_in_window_iff {w : Window} (hactive : w.active = true)
    (hlast : w.last < 2 ^ 64) (hmax : maxLen < 2 ^ 64) (hlen : text.length < maxLen)
    (htext : HoldsString charAt p text) (hinside : w.start ≤ p ∧ p + text.length ≤ w.last) :
    copyStringFromUser w charAt true p maxLen = .ok (String.ofList text) ↔
      p ≠ 0 ∧ p + maxLen ≤ w.last + 1 := by
  have hpos : 0 < maxLen := Nat.zero_lt_of_lt hlen
  have haccessible : Accessible w p maxLen ↔ p ≠ 0 ∧ p + maxLen ≤ w.last + 1 := by
    constructor
    · rintro ⟨hnull, -, hwindow⟩
      have hend := (hwindow hactive (p + (maxLen - 1)) (by omega) (by omega)).2
      exact ⟨hnull, by omega⟩
    · rintro ⟨hnull, hfits⟩
      exact ⟨hnull, by omega, fun _ a _ _ => ⟨by omega, by omega⟩⟩
  have hflags : userAccessFlagsValid USER_ACCESS_F_READ = true := rfl
  rw [← haccessible, ← userAccessProbe_ok_iff hflags hpos (Nat.le_of_lt hmax), copyStringFromUser,
    if_neg (by simp [Nat.ne_of_gt hpos])]
  by_cases hok : (userAccessProbe w p maxLen USER_ACCESS_F_READ).ok = true
  · simp [hok, readString_of_holds htext hlen]
  · simp [hok]

theorem copy_string_in_window_start :
    copyStringFromUser (setWindow 0x1000 0x1000) (fun a => if a = 0x1000 then 'a' else Char.ofNat 0)
      true 0x1000 64 = .ok "a" ↔ 0x1000 ≠ 0 ∧ 0x1000 + 64 ≤ 0x1FFF + 1 :=
  copy_string_in_window_iff rfl (by decide) (by decide) (show ['a'].length < 64 by decide)
    ⟨by decide, rfl⟩ (by decide)

/-- A string of one character in the last 64 bytes of a page is refused. -/
theorem copy_string_at_edge_refused : copyStringFromUser (setWindow 0x1000 0x1000)
    (fun a => if a = 0x1FF8 then 'a' else Char.ofNat 0) true 0x1FF8 64 = .error .errPerm := by
  decide

end AiosKernel.UserAccess
