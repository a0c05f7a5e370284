/-
# `AiosKernel.Keyboard` — the PS/2 keyboard driver

Model of `kernel/drivers/keyboard.c`.  The interrupt handler keeps one flag for two
shift keys, so that releasing one of them clears it while the other is held.  As long as
that does not happen, every character comes from the table of the keys that are held.

The indices of the buffer run to twice its size and are compared modulo its size; what
lies between them is a queue of at most 255 characters.  The reader takes two steps, the
load of a character and the update of the index, and an interrupt can put characters
between them: `Queues` keeps the loaded character in front.
-/
import AiosKernel.Lib.RingQueue

namespace AiosKernel.Keyboard

open List Function

def SC_LSHIFT : Fin 128 := 0x2A
def SC_RSHIFT : Fin 128 := 0x36
def SC_LCTRL : Nat := 0x1D
def SC_LALT : Nat := 0x38
def SC_CAPSLOCK : Nat := 0x3A
def SC_RELEASE : Nat := 0x80
def KBD_BUF_SIZE : Nat := 256
def KBD_BUF_MASK : Nat := KBD_BUF_SIZE - 1

/-- `sc_normal`, without the zeroes at its end. -/
def scNormal : String :=
  "\x00\x1b1234567890-=\x08\tqwertyuiop[]\n\x00asdfghjkl;'`\x00\\zxcvbnm,./\x00*\x00 "

/-- `sc_shift`, without the zeroes at its end. -/
def scShift : String :=
  "\x00\x1b!@#$%^&*()_+\x08\tQWERTYUIOP\x7b\x7d\n\x00ASDFGHJKL:\"~\x00|ZXCVBNM<>?\x00*\x00 "

structure State where
  buf : Fin KBD_BUF_SIZE → Char
  rd : Nat
  wr : Nat
  shift : Bool
  ctrl : Bool

/-- The place of an index in the buffer. -/
def cell (i : Nat) : Fin KBD_BUF_SIZE := ⟨i &&& KBD_BUF_MASK, Nat.lt_succ_of_le Nat.and_le_right⟩

def kbdBufFull (s : State) : Bool := cell (s.wr + 1) == cell s.rd

def kbdBufPush (c : Char) (s : State) : State :=
  if !kbdBufFull s then
    { s with buf := update s.buf (cell s.wr) c, wr := (s.wr + 1) &&& (KBD_BUF_SIZE * 2 - 1) }
  else s

/-- The entry of a key in the table for shifted or for plain typing; a zero is no character. -/
def translate (shifted : Bool) (sc : Nat) : Char :=
  (if shifted then scShift else scNormal).toList.getD sc '\x00'

def keyboardInit (s : State) : State := { s with rd := 0, wr := 0, shift := false, ctrl := false }

/-- `keyboard_irq_handler`, for the scancode at the data port. -/
def keyboardIrqHandler (sc : Nat) (s : State) : State :=
  if sc &&& SC_RELEASE ≠ 0 then
    let released := sc &&& 0x7F
    let s := if released = SC_LSHIFT ∨ released = SC_RSHIFT then { s with shift := false } else s
    if released = SC_LCTRL then { s with ctrl := false } else s
  else if sc = SC_LSHIFT ∨ sc = SC_RSHIFT then { s with shift := true }
  else if sc = SC_LCTRL then { s with ctrl := true }
  else if sc = SC_LALT ∨ sc = SC_CAPSLOCK ∨ 128 ≤ sc then s
  else
    let ascii := translate s.shift sc
    if ascii = '\x00' then s
    else if s.ctrl ∧ (ascii = 'c' ∨ ascii = 'C') then kbdBufPush '\x03' s
    else kbdBufPush ascii s

def keyboardHaschar (s : State) : Bool := cell s.rd != cell s.wr

/-- `keyboard_getchar` up to the load of the character, which waits as long as there is none. -/
def loadChar (s : State) : Option Char :=
  if keyboardHaschar s then some (s.buf (cell s.rd)) else none

/-- The rest of `keyboard_getchar`. -/
def passChar (s : State) : State := { s with rd := (s.rd + 1) &&& (KBD_BUF_SIZE * 2 - 1) }

def keyboardGetchar (s : State) : Option (Char × State) := (loadChar s).map fun c => (c, passChar s)

/-! ## The shift keys -/

/-- A key goes down, or up. -/
inductive Event where
  | press (k : Fin 128)
  | release (k : Fin 128)

def Event.scancode : Event → Nat
  | .press k => k
  | .release k => k + SC_RELEASE

/-- The keys that are down after events, of which the last comes first. -/
def held : List Event → Fin 128 → Bool
  | [] => fun _ => false
  | .press k :: es => update (held es) k true
  | .release k :: es => update (held es) k false

/-- Only keys that are down are released. -/
def WellFormed : List Event → Prop
  | [] => True
  | .press _ :: es => WellFormed es
  | .release k :: es => held es k = true ∧ WellFormed es

def driven (s : State) : List Event → State
  | [] => keyboardInit s
  | e :: es => keyboardIrqHandler e.scancode (driven s es)

/-- The flag tells whether a shift key is down. -/
def Agrees (s : State) (es : List Event) : Prop :=
  (driven s es).shift = true ↔ held es SC_LSHIFT = true ∨ held es SC_RSHIFT = true

/-- A press of a key with a character puts it into the buffer, from the shifted table just when a
shift key is down.  Ctrl and C put an ETX. -/
def Translates (s : State) (es : List Event) (k : Fin 128) : Prop :=
  let c := (if held es SC_LSHIFT || held es SC_RSHIFT then scShift else scNormal).toList.getD k '\x00'
  c ≠ '\x00' → driven s (.press k :: es) = kbdBufPush
    (if (driven s es).ctrl ∧ (c = 'c' ∨ c = 'C') then '\x03' else c) (driven s es)

theorem kbdBufPush_shift (c : Char) (s : State) : (kbdBufPush c s).shift = s.shift := by
  unfold kbdBufPush
  split <;> rfl

theorem press_bit : ∀ k : Fin 128, k.val &&& SC_RELEASE = 0 := by decide +kernel

theorem shift_press (k : Fin 128) (s : State) : (keyboardIrqHandler k s).shift =
    if k = SC_LSHIFT ∨ k = SC_RSHIFT then true else s.shift := by
  simp only [keyboardIrqHandler, press_bit, ne_eq, not_true_eq_false, if_false, Fin.val_inj]
  split
  · rfl
  · repeat' split
    all_goals first | rfl | exact kbdBufPush_shift _ _

theorem shift_release (k : Fin 128) (s : State) : (keyboardIrqHandler (k + SC_RELEASE) s).shift =
    if k = SC_LSHIFT ∨ k = SC_RSHIFT then false else s.shift := by
  have hbits : ∀ k : Fin 128, k.val + SC_RELEASE &&& SC_RELEASE ≠ 0 ∧
      k.val + SC_RELEASE &&& 0x7F = k.val := by decide +kernel
  simp only [keyboardIrqHandler, if_pos (hbits k).1, (hbits k).2, Fin.val_inj]
  repeat' split
  all_goals rfl

theorem press_pushes {k : Fin 128} {s : State} (hc : translate s.shift k ≠ '\x00') :
    keyboardIrqHandler k s = kbdBufPush (if s.ctrl ∧ (translate s.shift k = 'c' ∨
      translate s.shift k = 'C') then '\x03' else translate s.shift k) s := by
  -- the modifier keys have no character
  have hkey : ∀ (b : Bool) (k : Fin 128), translate b k ≠ '\x00' →
      ¬ (k.val = SC_LSHIFT ∨ k.val = SC_RSHIFT) ∧ k.val ≠ SC_LCTRL ∧
        ¬ (k.val = SC_LALT ∨ k.val = SC_CAPSLOCK ∨ 128 ≤ k.val) := by decide +kernel
  obtain ⟨hshift, hctrl, hother⟩ := hkey _ k hc
  simp only [keyboardIrqHandler, press_bit, ne_eq, not_true_eq_false, if_false, if_neg hshift,
    if_neg hctrl, if_neg hother, if_neg hc]
  split <;> rfl

theorem Agrees.translates {s : State} {es : List Event} (h : Agrees s es) (k : Fin 128) :
    Translates s es k := by
  have hshift : (driven s es).shift = (held es SC_LSHIFT || held es SC_RSHIFT) := by
    rw [Bool.eq_iff_iff, Bool.or_eq_true]
    exact h
  unfold Translates
  rw [← hshift]
  exact press_pushes

theorem agrees_cons {s : State} {es : List Event} (h : Agrees s es) (e : Event) :
    Agrees s (e :: es) ↔ ∀ k, e = .release k → (k = SC_LSHIFT → held es SC_RSHIFT = false) ∧
      (k = SC_RSHIFT → held es SC_LSHIFT = false) := by
  have hne : SC_LSHIFT ≠ SC_RSHIFT := by decide
  unfold Agrees at h ⊢
  cases e with
  | press k =>
    simp only [driven, Event.scancode, shift_press, held, update_apply]
    by_cases hl : k = SC_LSHIFT
    · simp [hl]
    · by_cases hr : k = SC_RSHIFT
      · simp [hr]
      · simp [hl, hr, Ne.symm hl, Ne.symm hr, h]
  | release k =>
    simp only [driven, Event.scancode, shift_release, held, update_apply]
    by_cases hl : k = SC_LSHIFT
    · simp [hl, hne, hne.symm]
    · by_cases hr : k = SC_RSHIFT
      · simp [hr, hne, hne.symm]
      · simp [hl, hr, Ne.symm hl, Ne.symm hr, h]

/-- No shift key was released while the other was down. -/
def ReleasesLast (es : List Event) : Prop := ∀ fs k, .release k :: fs <:+ es →
  (k = SC_LSHIFT → held fs SC_RSHIFT = false) ∧ (k = SC_RSHIFT → held fs SC_LSHIFT = false)

theorem agrees_all_iff (s : State) (es : List Event) :
    (∀ fs, fs <:+ es → Agrees s fs) ↔ ReleasesLast es := by
  induction es with
  | nil => simp [Agrees, driven, held, keyboardInit, ReleasesLast]
  | cons e es ih =>
    have hsplit : (∀ fs, fs <:+ e :: es → Agrees s fs) ↔
        Agrees s (e :: es) ∧ ∀ fs, fs <:+ es → Agrees s fs := by
      simp only [suffix_cons_iff, or_imp, forall_and, forall_eq]
    rw [hsplit]
    constructor
    · rintro ⟨hlast, hall⟩ fs k hfs
      rcases suffix_cons_iff.mp hfs with heq | hfs
      · obtain ⟨rfl, rfl⟩ := cons.inj heq
        exact (agrees_cons (hall fs suffix_rfl) _).mp hlast k rfl
      · exact ih.mp hall fs k hfs
    · intro h
      have hall := ih.mpr fun fs k hfs => h fs k (hfs.trans (suffix_cons e es))
      refine ⟨(agrees_cons (hall es suffix_rfl) e).mpr ?_, hall⟩
      rintro k rfl
      exact h es k suffix_rfl

/-- **The flag tells after each event whether a shift key is down, just when no shift key is
released while the other is down; and then every character that is typed comes from the table of
the keys that are held.** -/
theorem shift_agrees_iff (s : State) (es : List Event) :
    ((∀ fs, fs <:+ es → Agrees s fs) ↔ ReleasesLast es) ∧
      (ReleasesLast es → ∀ fs, fs <:+ es → ∀ k, Translates s fs k) :=
  ⟨agrees_all_iff s es, fun h fs hfs => ((agrees_all_iff s es).mpr h fs hfs).translates⟩

/-- Both shift keys go down and the left one up: the flag is cleared, and the `a` that is typed
next is not shifted. -/
theorem shift_flag_lost : ∃ s es, WellFormed es ∧ held es SC_RSHIFT = true ∧
    (driven s es).shift = false ∧ (driven s (.press 0x1E :: es)).buf (cell 0) = 'a' :=
  ⟨⟨fun _ => ' ', 0, 0, false, false⟩,
    [.release SC_LSHIFT, .press SC_RSHIFT, .press SC_LSHIFT], ⟨rfl, trivial⟩, by decide⟩

/-! ## The buffer -/

/-- What can happen next: the handler puts a character, or the reader does one of its two steps. -/
inductive Op where
  | push (c : Char)
  | load
  | pass

/-- The driver, all characters it has accepted and given out, and the one the reader has loaded. -/
structure System where
  driver : State
  accepted : List Char
  read : List Char
  loaded : Option Char

def System.exec (t : System) : Op → System
  | .push c => { t with
      driver := kbdBufPush c t.driver
      accepted := if kbdBufFull t.driver then t.accepted else t.accepted ++ [c] }
  | .load => { t with loaded := t.loaded <|> loadChar t.driver }
  | .pass =>
    match t.loaded with
    | none => t
    | some c => { t with driver := passChar t.driver, read := t.read ++ [c], loaded := none }

/-- The buffer is a queue of what was accepted and not read, with the loaded character in front. -/
structure Queues (t : System) (r : RingQueue Char KBD_BUF_SIZE) : Prop where
  cells : r.cells = t.driver.buf
  head : r.head = t.driver.rd % 256
  tail : r.tail = t.driver.wr % 256
  count : r.count < KBD_BUF_SIZE
  rd_lt : t.driver.rd < 512
  wr_lt : t.driver.wr < 512
  contents : t.accepted = t.read ++ r.contents
  loaded : ∀ c, t.loaded = some c → r.contents.head? = some c

theorem cell_val (i : Nat) : (cell i).val = i % 256 := Nat.and_two_pow_sub_one_eq_mod i 8

theorem next_eq (i : Nat) : i &&& (KBD_BUF_SIZE * 2 - 1) = i % 512 :=
  Nat.and_two_pow_sub_one_eq_mod i 9

variable {t : System} {r : RingQueue Char KBD_BUF_SIZE}

theorem index_eq (r : RingQueue Char KBD_BUF_SIZE) {i j : Nat} (h : i = j % 256) :
    r.index i = cell j := by
  rw [← Fin.val_inj, cell_val]
  show i % 256 = _
  omega

section

variable (h : Queues t r)
include h

theorem Queues.tests : (kbdBufFull t.driver = true ↔ r.count = 255) ∧
    (keyboardHaschar t.driver = true ↔ r.count ≠ 0) := by
  have htail : r.tail = (r.head + r.count) % 256 := r.tail_eq
  have hcount : r.count < 256 := h.count
  have hhead := h.head
  have hwr := h.tail
  rw [kbdBufFull, keyboardHaschar, beq_iff_eq, bne_iff_ne, ne_eq, ← Fin.val_inj, ← Fin.val_inj,
    cell_val, cell_val, cell_val]
  omega

theorem Queues.loadChar_eq : loadChar t.driver = r.contents.head? := by
  cases hhas : keyboardHaschar t.driver with
  | false =>
    have hzero : r.count = 0 := by simpa [hhas] using h.tests.2
    have hnil : r.contents = [] := length_eq_zero_iff.mp (r.length_contents.trans hzero)
    simp [loadChar, hhas, hnil]
  | true =>
    have hpos : 0 < r.count := Nat.pos_of_ne_zero (h.tests.2.mp hhas)
    rw [loadChar, if_pos hhas, r.contents_pop hpos, RingQueue.front, h.cells, index_eq r h.head]
    rfl

theorem Queues.push (c : Char) : ∃ r', Queues (t.exec (.push c)) r' := by
  cases hfull : kbdBufFull t.driver with
  | true =>
    have hsame : t.exec (.push c) = t := by simp [System.exec, kbdBufPush, hfull]
    rw [hsame]
    exact ⟨r, h⟩
  | false =>
    have hlt : r.count + 1 < 256 := by
      have hcount : r.count < 256 := h.count
      have hne : r.count ≠ 255 := fun he => by simp [h.tests.1.mpr he] at hfull
      omega
    refine ⟨r.push c h.count, ?_⟩
    simp only [System.exec, kbdBufPush, hfull, next_eq]
    refine ⟨?_, h.head, ?_, hlt, h.rd_lt, Nat.mod_lt _ (by decide), ?_, fun x hx => ?_⟩
    · exact index_eq r h.tail ▸ h.cells ▸ rfl
    · have htail := h.tail
      show (r.tail + 1) % 256 = (t.driver.wr + 1) % 512 % 256
      omega
    · rw [r.contents_push, ← append_assoc, ← h.contents]
      rfl
    · rw [r.contents_push, head?_append, h.loaded x hx]
      rfl

theorem Queues.load : Queues (t.exec .load) r := by
  refine { h with loaded := fun c hc => ?_ }
  cases hloaded : t.loaded with
  | none => simpa [System.exec, hloaded, h.loadChar_eq] using hc
  | some x => exact h.loaded c (by simpa [System.exec, hloaded] using hc)

theorem Queues.pass : ∃ r', Queues (t.exec .pass) r' := by
  cases hloaded : t.loaded with
  | none =>
    simp only [System.exec, hloaded]
    exact ⟨r, h⟩
  | some c =>
    have hhead := h.loaded c hloaded
    have hpos : 0 < r.count := by
      rw [← r.length_contents, length_pos_iff]
      rintro hnil
      simp [hnil] at hhead
    obtain rfl : r.front = c := by simpa [r.contents_pop hpos] using hhead
    refine ⟨r.pop hpos, ?_⟩
    simp only [System.exec, hloaded, passChar, next_eq]
    refine ⟨h.cells, ?_, h.tail, (Nat.sub_le _ _).trans_lt h.count,
      Nat.mod_lt _ (by decide), h.wr_lt, ?_, fun _ hnone => nomatch hnone⟩
    · have hhead := h.head
      show (r.head + 1) % 256 = (t.driver.rd + 1) % 512 % 256
      omega
    · simp [h.contents, r.contents_pop hpos]

theorem Queues.getchar {c : Char} {rest : List Char} (hcontents : r.contents = c :: rest) :
    (t.exec .load).exec .pass = { t with
      driver := passChar t.driver, read := t.read ++ [c], loaded := none } := by
  have hchar : (t.loaded <|> loadChar t.driver) = some c := by
    cases hloaded : t.loaded with
    | none => simp [h.loadChar_eq, hcontents]
    | some x => simpa [hcontents, eq_comm] using h.loaded x hloaded
  simp [System.exec, hchar]

end

/-- The driver after operations, of which the last comes first. -/
def run (s : State) : List Op → System
  | [] => ⟨keyboardInit s, [], [], none⟩
  | op :: ops => (run s ops).exec op

/-- **The buffer is a queue of at most 255 characters**: it holds what was accepted and not yet
read, in order, refuses a character just when it holds 255, has one just when it holds some, and
gives the oldest one to the next read. -/
theorem keyboard_fifo (s : State) (ops : List Op) : ∃ unread,
    (run s ops).accepted = (run s ops).read ++ unread ∧ unread.length ≤ 255 ∧
    (kbdBufFull (run s ops).driver = true ↔ unread.length = 255) ∧
    (keyboardHaschar (run s ops).driver = true ↔ unread ≠ []) ∧
    (run s ops).driver.rd < 512 ∧ (run s ops).driver.wr < 512 ∧
    ∀ c rest, unread = c :: rest →
      keyboardGetchar (run s ops).driver = some (c, (run s (.pass :: .load :: ops)).driver) ∧
      (run s (.pass :: .load :: ops)).read = (run s ops).read ++ [c] ∧
      (run s (.pass :: .load :: ops)).accepted = (run s ops).read ++ c :: rest := by
  obtain ⟨r, h⟩ : ∃ r, Queues (run s ops) r := by
    induction ops with
    | nil => exact ⟨.empty s.buf (by decide), rfl, rfl, rfl, Nat.succ_pos _, Nat.succ_pos _,
        Nat.succ_pos _, rfl, fun _ hnone => nomatch hnone⟩
    | cons op ops ih =>
      obtain ⟨r, h⟩ := ih
      cases op with
      | push c => exact h.push c
      | load => exact ⟨r, h.load⟩
      | pass => exact h.pass
  refine ⟨r.contents, h.contents, ?_, ?_, ?_, h.rd_lt, h.wr_lt, ?_⟩
  · rw [RingQueue.length_contents]
    exact Nat.le_of_lt_succ h.count
  · rw [RingQueue.length_contents]
    exact h.tests.1
  · rw [h.tests.2, ← r.length_contents, ne_eq, length_eq_zero_iff]
  · intro c rest hcontents
    have hread := h.getchar hcontents
    rw [run, run, hread, keyboardGetchar, h.loadChar_eq, hcontents]
    exact ⟨rfl, rfl, hcontents ▸ h.contents⟩

end AiosKernel.Keyboard
