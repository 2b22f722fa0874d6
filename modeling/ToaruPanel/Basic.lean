import Mathlib

/-!
# Python values and yutani messages

`panel.py` is a Python program that talks to the yutani compositor.  This module
fixes how the model reads the few pieces of Python and yutani behaviour that the
panel's logic depends on.

* List indexing `xs[i]` accepts a negative index, counted from the end, and raises
  `IndexError` outside `-len(xs) ≤ i < len(xs)` (`pyGetItem`).
* `int(a / n)` on two integers divides and truncates toward zero (`pyIntDiv`).  Python's
  true division rounds the quotient to a double, but for `|a| ≤ 2^53` the rounded quotient
  truncates to the same integer, and panel widths and pointer coordinates are far below
  that.
* `struct.pack("III", ...)` raises `struct.error` unless every field is in `[0, 2^32)`
  (`packIII`).

The yutani messages are records with the fields the panel reads.  The numeric constants
(mouse commands, button and modifier bits, key codes) are those of the yutani library and
its `kbd.h`; the library is not part of this repository, and no result below depends on
their values beyond their being distinct.

`Effect` lists the requests the panel's handlers make of the compositor and the system
(focus a window, launch a command, end the session, open a menu).

`firstIndex` is the search both hit-test loops make: the index of the first element that
satisfies a test.  `firstIndex_eq_some_iff` says that when no two elements pass the test
together, the search returns exactly the index of an element that passes.
-/

namespace ToaruPanel

/-! ## Python semantics -/

/-- `xs[i]` on a Python list: a negative index counts from the end. -/
def pyGetItem {α : Type} (xs : List α) (i : Int) : Except String α :=
  let j := if i < 0 then i + xs.length else i
  if h : 0 ≤ j ∧ j.toNat < xs.length then .ok (xs.get ⟨j.toNat, h.2⟩)
  else .error "IndexError: list index out of range"

/-- `int(a / n)`: the quotient truncated toward zero. -/
def pyIntDiv (a n : Int) : Int := a.tdiv n

/-- `struct.pack("III", a, b, c)`: it fails unless every field fits an unsigned int. -/
def packIII (a b c : Int) : Except String (Int × Int × Int) :=
  if 0 ≤ a ∧ a < 2 ^ 32 ∧ 0 ≤ b ∧ b < 2 ^ 32 ∧ 0 ≤ c ∧ c < 2 ^ 32 then .ok (a, b, c)
  else .error "struct.error: 'I' format requires 0 <= number <= 4294967295"

theorem pyGetItem_of_lt {α : Type} (xs : List α) {i : Nat} (h : i < xs.length) :
    pyGetItem xs i = .ok (xs.get ⟨i, h⟩) := by
  have hi : ¬ (i : Int) < 0 := by omega
  have h0 : (0 : Int) ≤ i := by omega
  simp [pyGetItem, hi, h, h0]

/-- What `xs[i]` returns is an element of `xs`. -/
theorem pyGetItem_mem {α : Type} {xs : List α} {i : Int} {x : α} (h : pyGetItem xs i = .ok x) :
    x ∈ xs := by
  by_cases hin : 0 ≤ (if i < 0 then i + xs.length else i) ∧
      (if i < 0 then i + xs.length else i).toNat < xs.length
  · simp only [pyGetItem, dif_pos hin, Except.ok.injEq] at h
    exact h ▸ List.get_mem _ _ _
  · simp only [pyGetItem, dif_neg hin, reduceCtorEq] at h

theorem pyIntDiv_of_nonneg {a n : Int} (ha : 0 ≤ a) (hn : 0 ≤ n) : pyIntDiv a n = a / n :=
  Int.tdiv_eq_ediv ha hn

theorem packIII_ok {a b c : Int} (ha : 0 ≤ a ∧ a < 2 ^ 32) (hb : 0 ≤ b ∧ b < 2 ^ 32)
    (hc : 0 ≤ c ∧ c < 2 ^ 32) : packIII a b c = .ok (a, b, c) := by
  simp only [packIII]
  rw [if_pos (by omega)]

/-- What a mapped computation succeeds with. -/
theorem map_eq_ok {ε α β : Type} {f : α → β} {x : Except ε α} {b : β} :
    f <$> x = .ok b ↔ ∃ a, x = .ok a ∧ f a = b := by
  cases x <;> simp [Functor.map, Except.map]

/-- A mapped computation succeeds when the computation does. -/
theorem map_ok_of_ok {ε α β : Type} (f : α → β) {x : Except ε α} (h : ∃ a, x = .ok a) :
    ∃ b, f <$> x = .ok b := by
  obtain ⟨a, rfl⟩ := h
  exact ⟨f a, rfl⟩

/-! ## The first element that passes a test -/

/-- The index of the first element of `xs` that passes `p`, if any. -/
def firstIndex {α : Type} (p : α → Prop) [DecidablePred p] : List α → Option Nat
  | [] => none
  | x :: xs => if p x then some 0 else (firstIndex p xs).map (· + 1)

theorem firstIndex_eq_some_iff {α : Type} (p : α → Prop) [DecidablePred p] :
    ∀ {xs : List α}, xs.Pairwise (fun a b => ¬ (p a ∧ p b)) →
      ∀ i, firstIndex p xs = some i ↔ ∃ x, xs[i]? = some x ∧ p x
  | [], _, i => by simp [firstIndex]
  | x :: xs, h, i => by
    rw [List.pairwise_cons] at h
    by_cases hx : p x
    · rw [firstIndex, if_pos hx]
      cases i with
      | zero => exact iff_of_true rfl ⟨x, List.getElem?_cons_zero, hx⟩
      | succ i =>
        refine ⟨(fun h => by cases h), fun ⟨y, hy, hpy⟩ => ?_⟩
        rw [List.getElem?_cons_succ] at hy
        exact absurd ⟨hx, hpy⟩ (h.1 y (List.getElem?_mem hy))
    · rw [firstIndex, if_neg hx]
      cases i with
      | zero =>
        refine iff_of_false (fun h' => ?_) (fun ⟨y, hy, hpy⟩ => hx ?_)
        · obtain ⟨a, -, ha⟩ := Option.map_eq_some'.mp h'
          omega
        · rw [List.getElem?_cons_zero, Option.some.injEq] at hy
          exact hy ▸ hpy
      | succ i =>
        rw [List.getElem?_cons_succ, ← firstIndex_eq_some_iff p h.2]
        cases firstIndex p xs <;> simp

theorem firstIndex_eq_none_iff {α : Type} (p : α → Prop) [DecidablePred p] :
    ∀ {xs : List α}, firstIndex p xs = none ↔ ∀ x ∈ xs, ¬ p x
  | [] => by simp [firstIndex]
  | x :: xs => by
    have ih : firstIndex p xs = none ↔ ∀ y ∈ xs, ¬ p y := firstIndex_eq_none_iff p
    by_cases hx : p x <;> simp [firstIndex, hx, ih]

/-! ## yutani messages -/

/-- A window record as the compositor advertises it (`MSG_WINDOW_ADVERTISE`). -/
structure WindowAdvertise where
  /-- The window's identifier. -/
  wid : Nat
  /-- The window's title. -/
  name : List Char
  /-- The icon hint. -/
  icon : List Char
  /-- Flag bits; bit 0 marks the focused window. -/
  flags : Nat
deriving DecidableEq, Repr

/-- A mouse event addressed to one of the panel's windows. -/
structure WindowMouseEvent where
  /-- The window the event is for. -/
  wid : Nat
  /-- Pointer position in window coordinates. -/
  newX : Int
  /-- Pointer position in window coordinates. -/
  newY : Int
  /-- Button bits. -/
  buttons : Nat
  /-- The kind of event (`MouseEvent`). -/
  command : Nat
deriving DecidableEq, Repr

/-- A key event, with the window that had focus when it was sent. -/
structure KeyEvent where
  /-- The window the event is for. -/
  wid : Nat
  /-- The key code. -/
  keycode : Nat
  /-- The byte the key types, `0` for none. -/
  key : UInt8
  /-- Modifier bits held. -/
  modifiers : Nat
  /-- Press or release (`KeyAction`). -/
  action : Nat
deriving DecidableEq, Repr

namespace MouseEvent
/-- A click: a press and release without motion. -/
def CLICK : Nat := 0
/-- The pointer left the window; the panel tests for it as `msg.command == 5`. -/
def LEAVE : Nat := 5
end MouseEvent

namespace MouseButton
/-- The right button bit. -/
def BUTTON_RIGHT : Nat := 0x02
/-- The scroll-up bit. -/
def SCROLL_UP : Nat := 0x10
/-- The scroll-down bit. -/
def SCROLL_DOWN : Nat := 0x20
end MouseButton

namespace Modifier
/-- The left control bit. -/
def MOD_LEFT_CTRL : Nat := 0x01
/-- The left shift bit. -/
def MOD_LEFT_SHIFT : Nat := 0x02
/-- The left alt bit. -/
def MOD_LEFT_ALT : Nat := 0x04
end Modifier

namespace KeyAction
/-- A key press. -/
def ACTION_DOWN : Nat := 1
/-- A key release. -/
def ACTION_UP : Nat := 2
end KeyAction

namespace Keycode
/-- Escape. -/
def ESCAPE : Nat := 27
/-- Left alt. -/
def LEFT_ALT : Nat := 1003
/-- F1. -/
def F1 : Nat := 2001
/-- F2. -/
def F2 : Nat := 2002
/-- F11. -/
def F11 : Nat := 2011
/-- Delete. -/
def DEL : Nat := 2017
end Keycode

/-- Python's truth value of `n & bit` for a flag word. -/
def hasBit (n bit : Nat) : Bool := n &&& bit != 0

/-- A request the panel makes of the compositor or the system while it handles a message. -/
inductive Effect where
  /-- `yctx.focus_window(wid)`. -/
  | focusWindow (wid : Nat)
  /-- `launch_app(item, terminal)`, and the desktop icons' own `/bin/sh -c` spawn. -/
  | launchApp (item : List Char) (terminal : Bool)
  /-- `yctx.session_end()`. -/
  | sessionEnd
  /-- The applications menu opens under the panel. -/
  | applicationsMenu
  /-- The window list's "Move" menu for a window opens at a panel position. -/
  | windowMenu (wid : Nat) (x : Int)
  /-- `yutani_window_drag_start_wid(ctx, wid)`: the window menu's "Move". -/
  | dragWindow (wid : Nat)
deriving DecidableEq, Repr

end ToaruPanel
