import ToaruPanel.Basic

/-!
# Focus tracking

`PanelWindow` and `WallpaperWindow` track the element under the pointer the same way.
When the pointer leaves the window while something is focused, that element gets
`focus_leave` and the focus is cleared.  Otherwise the element under the pointer is found,
and when it differs from the focused one the focused one gets `focus_leave`, the focus
moves, and the new one, if any, gets `focus_enter`.

The model records every callback in a log, newest first, and `entered log i` says the
last callback made on element `i` was `focus_enter`.  A log is `WellFormed` when every
`focus_enter` was made while no element was entered and every `focus_leave` on an element
that was.  `FocusInv` ties the log to the window's focus: the log is well formed and the
entered elements are exactly the focused one.  Both moves keep it (`FocusInv.leave`,
`FocusInv.switch`).
-/

namespace ToaruPanel

/-- A focus callback made on the element at an index. -/
inductive FocusCall where
  /-- `focus_enter`. -/
  | enter (i : Nat)
  /-- `focus_leave`. -/
  | leave (i : Nat)
deriving DecidableEq, Repr

namespace FocusCall

/-- The element the callback is made on. -/
def index : FocusCall → Nat
  | enter i => i
  | leave i => i

/-- Whether the callback is `focus_enter`. -/
def isEnter : FocusCall → Bool
  | enter _ => true
  | leave _ => false

/-- Apply the callback to the elements, with the element's own `focus_enter` and
`focus_leave`. -/
def apply {α : Type} (onEnter onLeave : α → α) (xs : List α) : FocusCall → List α
  | enter i => xs.modify onEnter i
  | leave i => xs.modify onLeave i

end FocusCall

/-- The last callback on element `i` in the log (newest first) was `focus_enter`. -/
def entered : List FocusCall → Nat → Bool
  | [], _ => false
  | c :: log, i => if c.index = i then c.isEnter else entered log i

/-- A callback is allowed after `log`: enter only when no element is entered, leave only an
entered element. -/
def FocusCall.Allowed (log : List FocusCall) : FocusCall → Prop
  | enter _ => ∀ j, entered log j = false
  | leave i => entered log i = true

/-- Every callback of the log was allowed when it was made. -/
def WellFormed : List FocusCall → Prop
  | [] => True
  | c :: log => WellFormed log ∧ c.Allowed log

/-- The callbacks of a focus move from `focused` to `under`, in the order they are made. -/
def switchCalls (focused under : Option Nat) : List FocusCall :=
  (focused.map FocusCall.leave).toList ++ (under.map FocusCall.enter).toList

/-- The log is well formed and the entered elements are exactly the focused one. -/
def FocusInv (focused : Option Nat) (log : List FocusCall) : Prop :=
  WellFormed log ∧ ∀ i, entered log i = true ↔ focused = some i

@[simp] theorem entered_nil (i : Nat) : entered [] i = false := rfl

@[simp] theorem entered_enter (log : List FocusCall) (i j : Nat) :
    entered (.enter i :: log) j = if i = j then true else entered log j := rfl

@[simp] theorem entered_leave (log : List FocusCall) (i j : Nat) :
    entered (.leave i :: log) j = if i = j then false else entered log j := rfl

namespace FocusInv

theorem init : FocusInv none [] := ⟨trivial, by simp⟩

theorem not_entered {focused : Option Nat} {log : List FocusCall} (h : FocusInv focused log)
    (j : Nat) (hj : focused ≠ some j) : entered log j = false := by
  simpa [hj] using (h.2 j).not

/-- Leaving the focused element. -/
theorem leave {f : Nat} {log : List FocusCall} (h : FocusInv (some f) log) :
    FocusInv none (.leave f :: log) := by
  refine ⟨⟨h.1, (h.2 f).mpr rfl⟩, fun i => ?_⟩
  by_cases hi : f = i
  · simp [hi]
  · simpa [hi] using h.not_entered i (by simpa [eq_comm] using hi)

/-- Entering an element while nothing is focused. -/
theorem enter {u : Nat} {log : List FocusCall} (h : FocusInv none log) :
    FocusInv (some u) (.enter u :: log) := by
  refine ⟨⟨h.1, fun j => h.not_entered j (by simp)⟩, fun i => ?_⟩
  by_cases hi : u = i
  · simp [hi]
  · simpa [hi] using h.not_entered i (by simp)

/-- A focus move keeps the invariant: leave the old element, then enter the new one. -/
theorem switch {focused under : Option Nat} {log : List FocusCall} (h : FocusInv focused log)
    (hne : under ≠ focused) : FocusInv under ((switchCalls focused under).reverse ++ log) := by
  cases focused with
  | none =>
    cases under with
    | none => exact absurd rfl hne
    | some u => exact h.enter
  | some f =>
    cases under with
    | none => exact h.leave
    | some u => exact h.leave.enter

end FocusInv

/-- An element that neither callback makes from another stays where it was through any
callbacks. -/
theorem FocusCall.foldl_apply_fixed {α : Type} {onEnter onLeave : α → α} {x : α}
    (henter : ∀ y, onEnter y = x → y = x) (hleave : ∀ y, onLeave y = x → y = x) :
    ∀ (calls : List FocusCall) (xs : List α) (i : Nat),
      (calls.foldl (apply onEnter onLeave) xs)[i]? = some x → xs[i]? = some x
  | [], _, _, h => h
  | c :: calls, xs, i, h => by
    have h' := foldl_apply_fixed henter hleave calls _ i h
    cases hx : xs[i]? <;> cases c <;>
      simp only [apply, List.getElem?_modify, hx, Option.map_eq_map, Option.map_none',
        Option.map_some', Option.some.injEq, reduceCtorEq] at h' <;>
      split_ifs at h' <;>
      first | exact congrArg some (henter _ h') | exact congrArg some (hleave _ h') | exact congrArg some h'

end ToaruPanel
