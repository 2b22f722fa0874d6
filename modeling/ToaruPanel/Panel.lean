import ToaruPanel.Widgets
import ToaruPanel.Layout

/-!
# The panel window

`PanelWindow` owns the widgets, the focused widget, and its size.  `draw` hands each
widget the `(offset, remaining)` of the layout loop (`drawArgs`).  `mouse_action` has
three branches: the pointer left the panel while a widget was focused (leave it, redraw);
the pointer is on the panel (hit-test; a different widget takes the focus, or the focused
widget gets the event); or nothing.  The model keeps the log of focus callbacks
(`focusLog`) next to the state the code keeps, so that the focus protocol can be stated.

`mouseAction_cases` says once what one mouse event can do, and each part of the panel's
invariant `PanelWindow.Inv` is kept by it and by a draw: `FocusProtocol` (the log is well
formed, the entered widget is the focused one, and only the focused widget may have a
hovered window), `HilightFocused` (only the focused widget is drawn highlighted),
`LayoutCurrent` (every window-list widget remembers the offset and tile width the layout
gives it for the current windows and width), `VolumesBounded`, and the shipped widths.
Under it a mouse event does not raise (`mouseAction_ok`).

With the shipped widths the window list's extent is `[140, W - 206)` and its draw paints one
tile per window, `unitWidthFor (W - 346) n` wide (`draw_tiles_shipped`).  The 28-pixel tiles
of a share below 50 are not bounded by the extent: the tiles fit exactly when
`28 * n ≤ W - 346` (`window_list_tiles_fit_iff`), and a window whose tile starts at or past
`W - 206` cannot be reached by the pointer (`window_tile_reachable_iff`).
-/

namespace ToaruPanel

/-- `PANEL_HEIGHT`. -/
def PANEL_HEIGHT : Int := 28

/-- The panel's state. -/
structure PanelWindow where
  /-- The panel's window. -/
  wid : Nat
  /-- Its width, the display width once the compositor accepted it. -/
  width : Int
  /-- Its height. -/
  height : Int
  /-- The widgets, left to right. -/
  widgets : List Widget
  /-- The widget under the pointer, if any. -/
  focusedWidget : Option Nat
  /-- Whether the panel is slid in. -/
  visible : Bool
  /-- The focus callbacks made so far, newest first. -/
  focusLog : List FocusCall
deriving DecidableEq, Repr

namespace PanelWindow

/-- `__init__`: a panel across the display, nothing focused. -/
def init (wid : Nat) (displayWidth : Int) (widgets : List Widget) : PanelWindow :=
  ⟨wid, displayWidth, PANEL_HEIGHT, widgets, none, true, []⟩

/-- The widgets' declared widths. -/
def widths (p : PanelWindow) : List Int := p.widgets.map Widget.width

/-- `draw`: every widget draws at its `(offset, remaining)`; the window tiles painted. -/
def draw (windows : List WindowAdvertise) (p : PanelWindow) : PanelWindow × List (Int × Nat) :=
  let drawn := p.widgets.zipWith (fun w a => w.draw windows a.1 a.2) (drawArgs p.width 0 p.widths)
  ({ p with widgets := drawn.map Prod.fst }, (drawn.map Prod.snd).flatten)

/-- Make focus callbacks on the widgets and move the focus. -/
def applyFocus (calls : List FocusCall) (focused : Option Nat) (p : PanelWindow) : PanelWindow :=
  { p with
    widgets := calls.foldl (FocusCall.apply Widget.focusEnter Widget.focusLeave) p.widgets
    focusedWidget := focused
    focusLog := calls.reverse ++ p.focusLog }

/-- The hit-test branch of `mouse_action`. -/
def pointerMoved (windows : List WindowAdvertise) (menusOpen : Bool) (p : PanelWindow)
    (msg : WindowMouseEvent) : Except String (PanelWindow × List Effect) :=
  let under := widgetUnderMouse p.width msg.newX 0 p.widths
  if under ≠ p.focusedWidget then
    let p' := p.applyFocus (switchCalls p.focusedWidget under) under
    .ok (if p.focusedWidget.isSome || under.isSome then (p'.draw windows).1 else p', [])
  else
    match under.bind (p.widgets[·]?) with
    | none => .ok (p, [])
    | some w => do
      let (w', redraw, effects) ← w.mouseAction windows menusOpen msg
      let p' := { p with widgets := p.widgets.set (under.getD 0) w' }
      pure (if redraw then (p'.draw windows).1 else p', effects)

/-- `mouse_action`.  `menusOpen` is whether the panel has a menu open. -/
def mouseAction (windows : List WindowAdvertise) (menusOpen : Bool) (p : PanelWindow)
    (msg : WindowMouseEvent) : Except String (PanelWindow × List Effect) :=
  match p.focusedWidget with
  | some f =>
    if msg.command = MouseEvent.LEAVE ∨ msg.newY ≥ p.height then
      .ok (((p.applyFocus [.leave f] none).draw windows).1, [])
    else if msg.newY < p.height then p.pointerMoved windows menusOpen msg
    else .ok (p, [])
  | none => if msg.newY < p.height then p.pointerMoved windows menusOpen msg else .ok (p, [])

/-- `finish_resize`: take the new size, then redraw. -/
def finishResize (windows : List WindowAdvertise) (width height : Int) (p : PanelWindow) :
    PanelWindow :=
  ({ p with width := width, height := height }.draw windows).1

/-- `toggle_visibility`: slide out or in; the slide itself only moves the window. -/
def toggleVisibility (p : PanelWindow) : PanelWindow := { p with visible := !p.visible }

/-! ## What draw and the focus callbacks change -/

@[simp] theorem draw_width (windows : List WindowAdvertise) (p : PanelWindow) :
    (p.draw windows).1.width = p.width := rfl

@[simp] theorem draw_height (windows : List WindowAdvertise) (p : PanelWindow) :
    (p.draw windows).1.height = p.height := rfl

@[simp] theorem draw_focusedWidget (windows : List WindowAdvertise) (p : PanelWindow) :
    (p.draw windows).1.focusedWidget = p.focusedWidget := rfl

@[simp] theorem draw_focusLog (windows : List WindowAdvertise) (p : PanelWindow) :
    (p.draw windows).1.focusLog = p.focusLog := rfl

theorem length_drawArgs (width : Int) : ∀ (offset : Int) (widths : List Int),
    (drawArgs width offset widths).length = widths.length
  | _, [] => rfl
  | _, _ :: rest => by simp [drawArgs, length_drawArgs width _ rest]

/-- The widget at index `i` after a draw is the one before, drawn at its `drawArgs`. -/
theorem draw_widgets_getElem? (windows : List WindowAdvertise) (p : PanelWindow) (i : Nat) :
    (p.draw windows).1.widgets[i]? =
      (p.widgets[i]?).bind fun w =>
        ((drawArgs p.width 0 p.widths)[i]?).map fun a => (w.draw windows a.1 a.2).1 := by
  simp only [draw, List.getElem?_map, List.getElem?_zipWith]
  cases p.widgets[i]? <;> cases (drawArgs p.width 0 p.widths)[i]? <;> rfl

theorem draw_widgets_some {windows : List WindowAdvertise} {p : PanelWindow} {i : Nat}
    {w : Widget} (h : (p.draw windows).1.widgets[i]? = some w) :
    ∃ v a, p.widgets[i]? = some v ∧ (drawArgs p.width 0 p.widths)[i]? = some a ∧
      w = (v.draw windows a.1 a.2).1 := by
  rw [draw_widgets_getElem?] at h
  cases hv : p.widgets[i]? <;> cases ha : (drawArgs p.width 0 p.widths)[i]? <;>
    simp_all [Option.bind]

@[simp] theorem draw_widths (windows : List WindowAdvertise) (p : PanelWindow) :
    (p.draw windows).1.widths = p.widths := by
  apply List.ext_getElem?
  intro i
  simp only [widths, List.getElem?_map, draw_widgets_getElem?]
  cases hv : p.widgets[i]? with
  | none => rfl
  | some v =>
    have hlen : i < (drawArgs p.width 0 p.widths).length := by
      rw [length_drawArgs, widths, List.length_map]
      exact (List.getElem?_eq_some_iff.mp hv).1
    rw [widths] at hlen
    simp [List.getElem?_eq_getElem hlen]

theorem foldl_apply_getElem? (ws : List Widget) : ∀ (calls : List FocusCall) (i : Nat),
    (calls.foldl (FocusCall.apply Widget.focusEnter Widget.focusLeave) ws)[i]?.map Widget.width =
      ws[i]?.map Widget.width
  | [], _ => rfl
  | c :: calls, i => by
    rw [List.foldl_cons, foldl_apply_getElem?]
    cases c <;> simp only [FocusCall.apply, List.getElem?_modify] <;>
      cases ws[i]? <;> simp <;> split <;> simp

@[simp] theorem applyFocus_widths (calls : List FocusCall) (focused : Option Nat) (p : PanelWindow) :
    (p.applyFocus calls focused).widths = p.widths := by
  apply List.ext_getElem?
  intro i
  simpa [widths, applyFocus, List.getElem?_map] using foldl_apply_getElem? p.widgets calls i

@[simp] theorem applyFocus_width (calls : List FocusCall) (focused : Option Nat) (p : PanelWindow) :
    (p.applyFocus calls focused).width = p.width := rfl

@[simp] theorem applyFocus_height (calls : List FocusCall) (focused : Option Nat)
    (p : PanelWindow) : (p.applyFocus calls focused).height = p.height := rfl

/-! ## Hovered windows -/

/-- The window hovered by the widget at index `j`, if it is a window list. -/
def hoveredAt (ws : List Widget) (j : Nat) : Option Nat := (ws[j]?).bind Widget.hovered

@[simp] theorem hoveredAt_modify_enter (ws : List Widget) (i j : Nat) :
    hoveredAt (ws.modify Widget.focusEnter i) j = hoveredAt ws j := by
  simp only [hoveredAt, List.getElem?_modify]
  cases ws[j]? <;> simp; split <;> simp

@[simp] theorem hoveredAt_modify_leave (ws : List Widget) (i j : Nat) :
    hoveredAt (ws.modify Widget.focusLeave i) j = if i = j then none else hoveredAt ws j := by
  simp only [hoveredAt, List.getElem?_modify]
  cases ws[j]? <;> split <;> simp_all

theorem hoveredAt_set (ws : List Widget) (i j : Nat) (w : Widget) (hij : i ≠ j) :
    hoveredAt (ws.set i w) j = hoveredAt ws j := by
  simp [hoveredAt, List.getElem?_set, hij]

@[simp] theorem hoveredAt_draw (windows : List WindowAdvertise) (p : PanelWindow) (j : Nat) :
    hoveredAt (p.draw windows).1.widgets j = hoveredAt p.widgets j := by
  simp only [hoveredAt, draw_widgets_getElem?]
  cases hv : p.widgets[j]? with
  | none => rfl
  | some v =>
    have hlen : j < (drawArgs p.width 0 p.widths).length := by
      rw [length_drawArgs, widths, List.length_map]
      exact (List.getElem?_eq_some_iff.mp hv).1
    simp [List.getElem?_eq_getElem hlen]

/-- Only the focused widget may have a hovered window. -/
def HoverFocused (p : PanelWindow) : Prop := ∀ j, hoveredAt p.widgets j ≠ none → p.focusedWidget = some j

/-- The focus protocol: the log agrees with the focus, and only the focused widget hovers. -/
def FocusProtocol (p : PanelWindow) : Prop := FocusInv p.focusedWidget p.focusLog ∧ p.HoverFocused

/-! ## One mouse event -/

theorem pointerMoved_cases {windows : List WindowAdvertise} {menusOpen : Bool} {p p' : PanelWindow}
    {msg : WindowMouseEvent} {effects : List Effect}
    (h : p.pointerMoved windows menusOpen msg = .ok (p', effects)) :
    (widgetUnderMouse p.width msg.newX 0 p.widths ≠ p.focusedWidget ∧
      p' = ((p.applyFocus (switchCalls p.focusedWidget (widgetUnderMouse p.width msg.newX 0 p.widths))
        (widgetUnderMouse p.width msg.newX 0 p.widths)).draw windows).1) ∨
    (∃ i w w' redraw, p.focusedWidget = some i ∧ widgetUnderMouse p.width msg.newX 0 p.widths = some i ∧
      p.widgets[i]? = some w ∧ w.mouseAction windows menusOpen msg = .ok (w', redraw, effects) ∧
      p' = if redraw then ({ p with widgets := p.widgets.set i w' }.draw windows).1
        else { p with widgets := p.widgets.set i w' }) ∨
    p' = p := by
  unfold pointerMoved at h
  dsimp only at h
  split at h
  · next hne =>
    refine Or.inl ⟨hne, ?_⟩
    have hsome : (p.focusedWidget.isSome || (widgetUnderMouse p.width msg.newX 0 p.widths).isSome) = true := by
      cases hf : p.focusedWidget <;> cases hu : widgetUnderMouse p.width msg.newX 0 p.widths <;>
        simp_all
    simp only [hsome, if_true, Except.ok.injEq, Prod.mk.injEq] at h
    exact h.1.symm
  · next heq =>
    split at h
    · cases h; exact Or.inr (Or.inr rfl)
    · next w hw =>
      obtain ⟨i, hi, hwi⟩ := Option.bind_eq_some.mp hw
      cases hm : w.mouseAction windows menusOpen msg with
      | error e => rw [hm] at h; cases h
      | ok r =>
        obtain ⟨w', redraw, eff⟩ := r
        rw [hm] at h
        simp only [bind, Except.bind, pure, Except.pure, Except.ok.injEq, Prod.mk.injEq] at h
        obtain ⟨rfl, rfl⟩ := h
        refine Or.inr (Or.inl ⟨i, w, w', redraw, ?_, hi, hwi, hm, by simp [hi]⟩)
        rw [← hi]; exact (not_not.mp heq).symm

/-- What one mouse event can do to the panel: leave the focused widget, move the focus to
the widget under the pointer, forward the event to the focused widget under the pointer,
or nothing. -/
theorem mouseAction_cases {windows : List WindowAdvertise} {menusOpen : Bool} {p p' : PanelWindow}
    {msg : WindowMouseEvent} {effects : List Effect}
    (h : p.mouseAction windows menusOpen msg = .ok (p', effects)) :
    (∃ f, p.focusedWidget = some f ∧ p' = ((p.applyFocus [.leave f] none).draw windows).1) ∨
    p.pointerMoved windows menusOpen msg = .ok (p', effects) ∨ p' = p := by
  unfold mouseAction at h
  split at h
  · next f hf =>
    split at h
    · simp only [Except.ok.injEq, Prod.mk.injEq] at h
      exact Or.inl ⟨f, hf, h.1.symm⟩
    · split at h
      · exact Or.inr (Or.inl h)
      · cases h; exact Or.inr (Or.inr rfl)
  · split at h
    · exact Or.inr (Or.inl h)
    · cases h; exact Or.inr (Or.inr rfl)

/-! ## The focus protocol along runs -/

theorem hoveredAt_leave_then {p : PanelWindow} (hp : p.HoverFocused) (under : Option Nat) (j : Nat) :
    hoveredAt (p.applyFocus (switchCalls p.focusedWidget under) under).widgets j = none := by
  cases hf : p.focusedWidget with
  | none =>
    have := hp j
    cases under <;> simp_all [applyFocus, switchCalls, FocusCall.apply]
  | some f =>
    have := hp j
    cases under <;> simp only [applyFocus, switchCalls, hf, Option.map_some', Option.toList_some,
      Option.map_none', Option.toList_none, List.singleton_append, List.append_nil, List.foldl_cons,
      List.foldl_nil, FocusCall.apply, hoveredAt_modify_enter, hoveredAt_modify_leave] <;>
      split <;> simp_all

theorem focusProtocol_draw {windows : List WindowAdvertise} {p : PanelWindow} (h : p.FocusProtocol) :
    (p.draw windows).1.FocusProtocol :=
  ⟨h.1, fun j hj => h.2 j (by simpa using hj)⟩

theorem mouseAction_focusProtocol {windows : List WindowAdvertise} {menusOpen : Bool}
    {p p' : PanelWindow} {msg : WindowMouseEvent} {effects : List Effect} (hp : p.FocusProtocol)
    (h : p.mouseAction windows menusOpen msg = .ok (p', effects)) : p'.FocusProtocol := by
  rcases mouseAction_cases h with ⟨f, hf, rfl⟩ | h | rfl
  · apply focusProtocol_draw
    refine ⟨by simpa [applyFocus, hf] using (hf ▸ hp.1).leave, fun j hj => absurd ?_ hj⟩
    simpa [switchCalls, hf] using hoveredAt_leave_then hp.2 none j
  · rcases pointerMoved_cases h with ⟨hne, rfl⟩ | ⟨i, w, w', redraw, hf, -, -, -, rfl⟩ | rfl
    · exact focusProtocol_draw ⟨hp.1.switch hne, fun j hj => absurd (hoveredAt_leave_then hp.2 _ j) hj⟩
    · have hset : ({ p with widgets := p.widgets.set i w' } : PanelWindow).FocusProtocol := by
        refine ⟨hp.1, fun j hj => ?_⟩
        by_cases hij : i = j
        · exact hij ▸ hf
        · exact hp.2 j (by simpa [hoveredAt_set _ _ _ _ hij] using hj)
      split
      · exact focusProtocol_draw hset
      · exact hset
    · exact hp
  · exact hp

/-- A fresh panel: nothing focused, no callback made, no window hovered. -/
theorem focusProtocol_fresh {p : PanelWindow} (hf : p.focusedWidget = none) (hl : p.focusLog = [])
    (hw : ∀ w ∈ p.widgets, w.hovered = none) : p.FocusProtocol := by
  refine ⟨by rw [hf, hl]; exact FocusInv.init, fun j hj => absurd ?_ hj⟩
  cases hj' : p.widgets[j]? with
  | none => simp [hoveredAt, hj']
  | some w => simp [hoveredAt, hj', hw w (List.getElem?_mem hj')]

/-! ## The window list's layout -/

/-- Every window-list widget holds the offset and tile width that the layout gives it for
`windows` and the panel's width. -/
def LayoutCurrent (windows : List WindowAdvertise) (p : PanelWindow) : Prop :=
  windows ≠ [] → ∀ (i : Nat) (wl : WindowListWidget), p.widgets[i]? = some (.windowList wl) →
    ∃ a, (drawArgs p.width 0 p.widths)[i]? = some a ∧ wl.offset = a.1 ∧
      wl.unitWidth = some (unitWidthFor (a.2 - a.1) windows.length)

theorem draw_layoutCurrent (windows : List WindowAdvertise) (p : PanelWindow) :
    (p.draw windows).1.LayoutCurrent windows := by
  intro hne i wl hi
  obtain ⟨v, a, -, ha, hw⟩ := draw_widgets_some hi
  obtain ⟨wl₀, rfl, rfl⟩ := Widget.draw_eq_windowList hw.symm
  exact ⟨a, by simpa using ha, by simp [WindowListWidget.draw, hne]⟩

theorem widths_set {p : PanelWindow} {i : Nat} {w w' : Widget} (hw : p.widgets[i]? = some w)
    (hwidth : w'.width = w.width) :
    ({ p with widgets := p.widgets.set i w' } : PanelWindow).widths = p.widths := by
  apply List.ext_getElem?
  intro j
  by_cases hij : i = j
  · subst hij
    obtain ⟨hlt, rfl⟩ := List.getElem?_eq_some_iff.mp hw
    simp [widths, List.getElem?_set, hlt, hwidth]
  · simp [widths, List.getElem?_set_ne hij]

/-- Forwarding an event to a widget keeps the layout it remembers. -/
theorem set_layoutCurrent {windows : List WindowAdvertise} {menusOpen : Bool} {p : PanelWindow}
    {msg : WindowMouseEvent} {i : Nat} {w w' : Widget} {redraw : Bool} {effects : List Effect}
    (hp : p.LayoutCurrent windows) (hw : p.widgets[i]? = some w)
    (hm : w.mouseAction windows menusOpen msg = .ok (w', redraw, effects)) :
    ({ p with widgets := p.widgets.set i w' } : PanelWindow).LayoutCurrent windows := by
  intro hne j wl hj
  rw [widths_set hw (Widget.width_mouseAction hm)]
  by_cases hij : i = j
  · subst hij
    have hw' : w' = .windowList wl := by
      simpa [List.getElem?_set, (List.getElem?_eq_some_iff.mp hw).1] using hj
    subst hw'
    obtain ⟨wl₀, rfl, ho, hu⟩ := Widget.mouseAction_eq_windowList hm
    obtain ⟨a, ha, h1, h2⟩ := hp hne i wl₀ hw
    exact ⟨a, ha, ho.trans h1, hu.trans h2⟩
  · exact hp hne j wl (by simpa [List.getElem?_set_ne hij] using hj)

theorem mouseAction_layoutCurrent {windows : List WindowAdvertise} {menusOpen : Bool}
    {p p' : PanelWindow} {msg : WindowMouseEvent} {effects : List Effect}
    (hp : p.LayoutCurrent windows) (h : p.mouseAction windows menusOpen msg = .ok (p', effects)) :
    p'.LayoutCurrent windows := by
  rcases mouseAction_cases h with ⟨f, -, rfl⟩ | h | rfl
  · exact draw_layoutCurrent _ _
  · rcases pointerMoved_cases h with ⟨-, rfl⟩ | ⟨i, w, w', redraw, -, -, hw, hm, rfl⟩ | rfl
    · exact draw_layoutCurrent _ _
    · split
      · exact draw_layoutCurrent _ _
      · exact set_layoutCurrent hp hw hm
    · exact hp
  · exact hp

/-- A mouse event keeps the widgets' declared widths. -/
theorem mouseAction_widths {windows : List WindowAdvertise} {menusOpen : Bool}
    {p p' : PanelWindow} {msg : WindowMouseEvent} {effects : List Effect}
    (h : p.mouseAction windows menusOpen msg = .ok (p', effects)) : p'.widths = p.widths := by
  rcases mouseAction_cases h with ⟨f, -, rfl⟩ | h | rfl
  · simp
  · rcases pointerMoved_cases h with ⟨-, rfl⟩ | ⟨i, w, w', redraw, -, -, hw, hm, rfl⟩ | rfl
    · simp
    · have hset := widths_set hw (Widget.width_mouseAction hm)
      split
      · simpa using hset
      · exact hset
    · rfl
  · rfl

/-! ## Highlights -/

/-- The widgets drawn highlighted are exactly the focused one, when it has a highlight. -/
def HilightAt (focused : Option Nat) (ws : List Widget) : Prop :=
  ∀ (j : Nat) (w : Widget), ws[j]? = some w → w.hilighted = (w.hilightable && decide (focused = some j))

/-- The panel highlights exactly its focused widget. -/
def HilightFocused (p : PanelWindow) : Prop := HilightAt p.focusedWidget p.widgets

theorem HilightAt.leave {f : Nat} {ws : List Widget} (h : HilightAt (some f) ws) :
    HilightAt none (ws.modify Widget.focusLeave f) := by
  intro j w hj
  rw [List.getElem?_modify] at hj
  by_cases hfj : f = j
  · subst hfj
    obtain ⟨v, -, rfl⟩ := Option.map_eq_some'.mp hj
    simp
  · simpa [hfj, Ne.symm hfj] using h j w (by simpa [hfj] using hj)

theorem HilightAt.enter {u : Nat} {ws : List Widget} (h : HilightAt none ws) :
    HilightAt (some u) (ws.modify Widget.focusEnter u) := by
  intro j w hj
  rw [List.getElem?_modify] at hj
  by_cases huj : u = j
  · subst huj
    obtain ⟨v, -, rfl⟩ := Option.map_eq_some'.mp hj
    simp
  · simpa [huj] using h j w (by simpa [huj] using hj)

/-- A focus move keeps the highlight on the focused widget. -/
theorem HilightAt.switch {focused under : Option Nat} {ws : List Widget} (h : HilightAt focused ws)
    (hne : under ≠ focused) :
    HilightAt under ((switchCalls focused under).foldl
      (FocusCall.apply Widget.focusEnter Widget.focusLeave) ws) := by
  cases focused with
  | none =>
    cases under with
    | none => exact absurd rfl hne
    | some u => exact h.enter
  | some f =>
    cases under with
    | none => exact h.leave
    | some u => exact h.leave.enter

theorem hilightFocused_draw {windows : List WindowAdvertise} {p : PanelWindow}
    (h : p.HilightFocused) : (p.draw windows).1.HilightFocused := by
  intro j w hj
  obtain ⟨v, a, hv, -, rfl⟩ := draw_widgets_some hj
  simpa using h j v hv

theorem hilightFocused_set {windows : List WindowAdvertise} {menusOpen : Bool} {p : PanelWindow}
    {msg : WindowMouseEvent} {i : Nat} {w w' : Widget} {redraw : Bool} {effects : List Effect}
    (hp : p.HilightFocused) (hw : p.widgets[i]? = some w)
    (hm : w.mouseAction windows menusOpen msg = .ok (w', redraw, effects)) :
    ({ p with widgets := p.widgets.set i w' } : PanelWindow).HilightFocused := by
  intro j v hj
  by_cases hij : i = j
  · subst hij
    have hv : v = w' := by
      simpa [List.getElem?_set, (List.getElem?_eq_some_iff.mp hw).1] using hj.symm
    obtain ⟨-, hh, hk⟩ := Widget.mouseAction_same_kind hm
    rw [hv, hh, hk]
    exact hp i w hw
  · exact hp j v (by simpa [List.getElem?_set_ne hij] using hj)

theorem mouseAction_hilightFocused {windows : List WindowAdvertise} {menusOpen : Bool}
    {p p' : PanelWindow} {msg : WindowMouseEvent} {effects : List Effect}
    (hp : p.HilightFocused) (h : p.mouseAction windows menusOpen msg = .ok (p', effects)) :
    p'.HilightFocused := by
  rcases mouseAction_cases h with ⟨f, hf, rfl⟩ | h | rfl
  · exact hilightFocused_draw (hf ▸ hp : HilightAt (some f) p.widgets).leave
  · rcases pointerMoved_cases h with ⟨hne, rfl⟩ | ⟨i, w, w', redraw, -, -, hw, hm, rfl⟩ | rfl
    · exact hilightFocused_draw (HilightAt.switch hp hne)
    · have hset := hilightFocused_set hp hw hm
      split
      · exact hilightFocused_draw hset
      · exact hset
    · exact hp
  · exact hp

/-! ## Mouse events do not raise -/

/-- Every volume widget holds levels `set_volume` can pack. -/
def VolumesBounded (p : PanelWindow) : Prop :=
  ∀ (i : Nat) (v : VolumeWidget), p.widgets[i]? = some (.volume v) → v.Bounded

theorem volumesBounded_draw {windows : List WindowAdvertise} {p : PanelWindow}
    (h : p.VolumesBounded) : (p.draw windows).1.VolumesBounded := by
  intro i v hi
  obtain ⟨w, a, hw, -, hv⟩ := draw_widgets_some hi
  exact h i v (Widget.draw_eq_volume hv.symm ▸ hw)

theorem volumesBounded_applyFocus {calls : List FocusCall} {focused : Option Nat}
    {p : PanelWindow} (h : p.VolumesBounded) : (p.applyFocus calls focused).VolumesBounded :=
  fun i v hi => h i v <| FocusCall.foldl_apply_fixed (fun _ => Widget.focusEnter_eq_volume)
    (fun _ => Widget.focusLeave_eq_volume) calls _ i hi

theorem volumesBounded_set {windows : List WindowAdvertise} {menusOpen : Bool} {p : PanelWindow}
    {msg : WindowMouseEvent} {i : Nat} {w w' : Widget} {redraw : Bool} {effects : List Effect}
    (hp : p.VolumesBounded) (hw : p.widgets[i]? = some w)
    (hm : w.mouseAction windows menusOpen msg = .ok (w', redraw, effects)) :
    ({ p with widgets := p.widgets.set i w' } : PanelWindow).VolumesBounded := by
  intro j v hj
  by_cases hij : i = j
  · subst hij
    have hw' : w' = .volume v := by
      simpa [List.getElem?_set, (List.getElem?_eq_some_iff.mp hw).1] using hj
    subst hw'
    exact Widget.mouseAction_volume_bounded (fun v hv => hp i v (hv ▸ hw)) hm
  · exact hp j v (by simpa [List.getElem?_set_ne hij] using hj)

theorem mouseAction_volumesBounded {windows : List WindowAdvertise} {menusOpen : Bool}
    {p p' : PanelWindow} {msg : WindowMouseEvent} {effects : List Effect}
    (hp : p.VolumesBounded) (h : p.mouseAction windows menusOpen msg = .ok (p', effects)) :
    p'.VolumesBounded := by
  rcases mouseAction_cases h with ⟨f, -, rfl⟩ | h | rfl
  · exact volumesBounded_draw (volumesBounded_applyFocus hp)
  · rcases pointerMoved_cases h with ⟨-, rfl⟩ | ⟨i, w, w', redraw, -, -, hw, hm, rfl⟩ | rfl
    · exact volumesBounded_draw (volumesBounded_applyFocus hp)
    · have hset := volumesBounded_set hp hw hm
      split
      · exact volumesBounded_draw hset
      · exact hset
    · exact hp
  · exact hp

theorem pointerMoved_ok {windows : List WindowAdvertise} (menusOpen : Bool) (msg : WindowMouseEvent)
    {p : PanelWindow} (hl : p.LayoutCurrent windows) (hv : p.VolumesBounded) :
    ∃ r, p.pointerMoved windows menusOpen msg = .ok r := by
  unfold pointerMoved
  dsimp only
  split
  · exact ⟨_, rfl⟩
  · split
    · exact ⟨_, rfl⟩
    · next w hw =>
      obtain ⟨i, hi, hwi⟩ := Option.bind_eq_some.mp hw
      have hwl : ∀ wl, w = .windowList wl → windows ≠ [] →
          ∃ u, wl.unitWidth = some u ∧ 0 < u ∧ wl.offset ≤ msg.newX := by
        rintro wl rfl hne
        obtain ⟨a, ha, hoff, hu⟩ := hl hne i wl hwi
        obtain ⟨a', ha', hx⟩ := widgetUnderMouse_drawArgs _ _ _ _ _ hi
        rw [ha, Option.some.injEq] at ha'
        subst ha'
        exact ⟨_, hu, unitWidthFor_pos _ _, hoff ▸ hx⟩
      obtain ⟨r, hr⟩ := Widget.mouseAction_ok menusOpen msg (fun v hv' => hv i v (hv' ▸ hwi)) hwl
      rw [hr]
      exact ⟨_, rfl⟩

/-- With the window lists' layout current and every volume in range, a mouse event does not
raise. -/
theorem mouseAction_ok {windows : List WindowAdvertise} (menusOpen : Bool) (msg : WindowMouseEvent)
    {p : PanelWindow} (hl : p.LayoutCurrent windows) (hv : p.VolumesBounded) :
    ∃ r, p.mouseAction windows menusOpen msg = .ok r := by
  unfold mouseAction
  split
  · split
    · exact ⟨_, rfl⟩
    · split
      · exact pointerMoved_ok menusOpen msg hl hv
      · exact ⟨_, rfl⟩
  · split
    · exact pointerMoved_ok menusOpen msg hl hv
    · exact ⟨_, rfl⟩

/-! ## The panel's invariant -/

/-- What every panel the loop reaches keeps, for the current `windows`: the focus protocol,
the highlight on the focused widget, the window lists' layout, volume levels in range, and
the widths of `Widget.shipped`. -/
structure Inv (windows : List WindowAdvertise) (p : PanelWindow) : Prop where
  focus : p.FocusProtocol
  hilight : p.HilightFocused
  layout : p.LayoutCurrent windows
  volumes : p.VolumesBounded
  widths : p.widths = [140, -1, 28, 70, 80, 28]

/-- A draw over any windows makes the layout current for them. -/
theorem Inv.draw {windows windows' : List WindowAdvertise} {p : PanelWindow} (h : p.Inv windows) :
    (p.draw windows').1.Inv windows' :=
  ⟨focusProtocol_draw h.focus, hilightFocused_draw h.hilight, draw_layoutCurrent _ _,
    volumesBounded_draw h.volumes, by rw [draw_widths, h.widths]⟩

theorem Inv.finishResize {windows : List WindowAdvertise} {p : PanelWindow} (h : p.Inv windows)
    (width height : Int) : (p.finishResize windows width height).Inv windows :=
  ⟨focusProtocol_draw h.focus, hilightFocused_draw h.hilight, draw_layoutCurrent _ _,
    volumesBounded_draw h.volumes,
    (draw_widths windows { p with width := width, height := height }).trans h.widths⟩

theorem Inv.toggleVisibility {windows : List WindowAdvertise} {p : PanelWindow}
    (h : p.Inv windows) : p.toggleVisibility.Inv windows :=
  ⟨h.focus, h.hilight, h.layout, h.volumes, h.widths⟩

theorem Inv.mouseAction {windows : List WindowAdvertise} {menusOpen : Bool} {p p' : PanelWindow}
    {msg : WindowMouseEvent} {effects : List Effect} (h : p.Inv windows)
    (hm : p.mouseAction windows menusOpen msg = .ok (p', effects)) : p'.Inv windows :=
  ⟨mouseAction_focusProtocol h.focus hm, mouseAction_hilightFocused h.hilight hm,
    mouseAction_layoutCurrent h.layout hm, mouseAction_volumesBounded h.volumes hm,
    (mouseAction_widths hm).trans h.widths⟩

/-- The panel `__main__` builds and draws. -/
theorem Inv.startup (wid : Nat) (displayWidth : Int) (reading : UInt32)
    (windows : List WindowAdvertise) :
    ((init wid displayWidth (Widget.shipped reading)).draw windows).1.Inv windows := by
  have hmem : ∀ (j : Nat) (w : Widget), (Widget.shipped reading)[j]? = some w →
      w = .applicationsMenu false ∨ w = .windowList {} ∨ w = .volume (VolumeWidget.init reading) ∨
        w = .date ∨ w = .clock false ∨ w = .logOut false := fun j w hj => by
    simpa [Widget.shipped, or_comm, eq_comm] using List.getElem?_mem hj
  refine @Inv.draw [] windows _ ⟨focusProtocol_fresh rfl rfl ?_, fun j w hj => ?_, ?_, ?_, rfl⟩
  · simp [init, Widget.shipped, Widget.hovered]
  · rcases hmem j w hj with rfl | rfl | rfl | rfl | rfl | rfl <;> rfl
  · intro hne; exact absurd rfl hne
  · intro j v hj
    rcases hmem j _ hj with h | h | h | h | h | h <;> cases h
    exact VolumeWidget.init_bounded reading

/-! ## The window tiles -/

/-- With the shipped widths the draw paints the window list's tiles only: one per window, from
`140`, in the share `W - 346` the fixed widgets leave. -/
theorem draw_tiles_shipped {p : PanelWindow} (hw : p.widths = [140, -1, 28, 70, 80, 28])
    (windows : List WindowAdvertise) :
    (p.draw windows).2 =
      if windows = [] then [] else tilesFrom (unitWidthFor (p.width - 346) windows.length) 140 windows := by
  have hws := hw
  simp only [widths, List.map_eq_cons_iff, List.map_eq_nil_iff] at hws
  obtain ⟨w0, _, hp, h0, w1, _, rfl, h1, w2, _, rfl, h2, w3, _, rfl, h3, w4, _, rfl, h4, w5, _, rfl,
    h5, rfl⟩ := hws
  rw [draw, hw, hp, show p.width - 346 = p.width - 206 - 140 by ring]
  simp [drawArgs, remainingAfter, nextOffset, Widget.draw_snd, h0, h1, h2, h3, h4, h5]

/-- On a panel with the shipped widths, at least 346 pixels wide, the window list's extent is
`[140, W - 206)`, the draw paints one tile per window from `140`, tile `k` at
`[140 + k * u, 140 + (k + 1) * u)` with `u = unitWidthFor (W - 346) n`, and every tile lies in
the extent exactly when the share leaves 28 pixels a window, `28 * n ≤ W - 346`. -/
theorem window_list_tiles_fit_iff {p : PanelWindow} (hw : p.widths = [140, -1, 28, 70, 80, 28])
    (hW : 346 ≤ p.width) {windows : List WindowAdvertise} (hne : windows ≠ []) :
    (drawArgs p.width 0 p.widths)[1]? = some (140, p.width - 206) ∧
    (p.draw windows).2 = tilesFrom (unitWidthFor (p.width - 346) windows.length) 140 windows ∧
    ((∀ k < windows.length, 140 ≤ 140 + k * unitWidthFor (p.width - 346) windows.length ∧
        140 + (k + 1) * unitWidthFor (p.width - 346) windows.length ≤ p.width - 206) ↔
      28 * windows.length ≤ p.width - 346) := by
  have hu := unitWidthFor_pos (p.width - 346) windows.length
  have hn : 0 < windows.length := List.length_pos.mpr hne
  refine ⟨by simp [hw, drawArgs, remainingAfter, nextOffset], by rw [draw_tiles_shipped hw, if_neg hne], ?_⟩
  have hleft : ∀ k : Nat, 140 ≤ 140 + (k : Int) * unitWidthFor (p.width - 346) windows.length :=
    fun k => by have := Int.mul_nonneg (Int.natCast_nonneg k) hu.le; omega
  simp only [hleft, true_and]
  rw [tiles_end_by_iff hu hn, ← unitWidthFor_fits_iff (by omega) hn,
    show p.width - 206 - 140 = p.width - 346 by ring]

/-- A panel with the shipped widths, at the 1024-pixel width of the startup display. -/
theorem window_list_tiles_fit_iff_shipped :
    (init 0 1024 (Widget.shipped 0)).widths = [140, -1, 28, 70, 80, 28] ∧
    346 ≤ (init 0 1024 (Widget.shipped 0)).width ∧
    [(⟨0, [], [], 0⟩ : WindowAdvertise)] ≠ [] ∧
    ((drawArgs (init 0 1024 (Widget.shipped 0)).width 0 (init 0 1024 (Widget.shipped 0)).widths)[1]? =
        some (140, (init 0 1024 (Widget.shipped 0)).width - 206) ∧
      ((init 0 1024 (Widget.shipped 0)).draw [⟨0, [], [], 0⟩]).2 =
        tilesFrom (unitWidthFor ((init 0 1024 (Widget.shipped 0)).width - 346) 1) 140 [⟨0, [], [], 0⟩] ∧
      ((∀ k : Nat, k < 1 →
          140 ≤ 140 + (k : Int) * unitWidthFor ((init 0 1024 (Widget.shipped 0)).width - 346) 1 ∧
          140 + ((k : Int) + 1) * unitWidthFor ((init 0 1024 (Widget.shipped 0)).width - 346) 1 ≤
            (init 0 1024 (Widget.shipped 0)).width - 206) ↔
        28 * ((1 : Nat) : Int) ≤ (init 0 1024 (Widget.shipped 0)).width - 346)) :=
  have hw : (init 0 1024 (Widget.shipped 0)).widths = [140, -1, 28, 70, 80, 28] := rfl
  have hW : 346 ≤ (init 0 1024 (Widget.shipped 0)).width := by decide
  have hne : [(⟨0, [], [], 0⟩ : WindowAdvertise)] ≠ [] := List.cons_ne_nil _ _
  ⟨hw, hW, hne, window_list_tiles_fit_iff hw hW hne⟩

/-- With the shipped widths on a panel at least 346 pixels wide, the hit test hands the window
list a pointer position inside the tile of window `k` exactly when that tile starts left of
the extent's end `W - 206`.  A tile that starts at or past it lies under the widgets to the
right, and its window can be neither hovered nor clicked. -/
theorem window_tile_reachable_iff {p : PanelWindow} (hw : p.widths = [140, -1, 28, 70, 80, 28])
    (hW : 346 ≤ p.width) (n k : Nat) :
    (∃ x, widgetUnderMouse p.width x 0 p.widths = some 1 ∧
        InTile 140 (unitWidthFor (p.width - 346) n) x k) ↔
      140 + k * unitWidthFor (p.width - 346) n < p.width - 206 := by
  have hu := unitWidthFor_pos (p.width - 346) n
  have hk := Int.mul_nonneg (Int.natCast_nonneg k) hu.le
  have hstep : ((k : Int) + 1) * unitWidthFor (p.width - 346) n =
      k * unitWidthFor (p.width - 346) n + unitWidthFor (p.width - 346) n := by ring
  have htiles : TilesPanel p.width (extents p.width [140, -1, 28, 70, 80, 28]) :=
    (extents_partition_iff (by decide) (by decide) (by omega)).mpr (by simp [fixedSum]; omega)
  -- the window list is the widget under the pointer exactly on its extent `[140, W - 206)`
  have hunder : ∀ x, widgetUnderMouse p.width x 0 [140, -1, 28, 70, 80, 28] = some 1 ↔
      140 ≤ x ∧ x < p.width - 206 := fun x => by
    rw [(widgetUnderMouse_of_tiles htiles x).1 1]
    simp [extents, extentsFrom, nextOffset, remainingAfter, InExtent]
  simp only [hw, hunder, InTile]
  constructor
  · rintro ⟨x, ⟨-, hx⟩, hlo, -⟩
    omega
  · intro h
    exact ⟨_, ⟨by omega, h⟩, le_rfl, by omega⟩

/-- Window `24` of thirty on the shipped panel at the startup display's 1024 pixels. -/
theorem window_tile_reachable_iff_shipped :
    (init 0 1024 (Widget.shipped 0)).widths = [140, -1, 28, 70, 80, 28] ∧
    346 ≤ (init 0 1024 (Widget.shipped 0)).width ∧
    ((∃ x, widgetUnderMouse (init 0 1024 (Widget.shipped 0)).width x 0
          (init 0 1024 (Widget.shipped 0)).widths = some 1 ∧
        InTile 140 (unitWidthFor ((init 0 1024 (Widget.shipped 0)).width - 346) 30) x 24) ↔
      140 + ((24 : Nat) : Int) * unitWidthFor ((init 0 1024 (Widget.shipped 0)).width - 346) 30 <
        (init 0 1024 (Widget.shipped 0)).width - 206) :=
  have hw : (init 0 1024 (Widget.shipped 0)).widths = [140, -1, 28, 70, 80, 28] := rfl
  have hW : 346 ≤ (init 0 1024 (Widget.shipped 0)).width := by decide
  ⟨hw, hW, window_tile_reachable_iff hw hW 30 24⟩

/-- Thirty windows on a 1024-pixel panel: the share `678 / 30` is below 50, so the tiles are 28
pixels wide and run to 980, past the window list's extent `[140, 818)`.  The tile of window
`25` is `[840, 868)`, right of the extent, and the panel's hit test hands no pointer position
in it to the window list. -/
theorem window_list_tile_past_extent :
    (drawArgs 1024 0 [140, -1, 28, 70, 80, 28])[1]? = some (140, 818) ∧
    unitWidthFor (818 - 140) 30 = 28 ∧
    ((init 0 1024 (Widget.shipped 0)).draw ((List.range 30).map fun i => ⟨i, [], [], 0⟩)).2[25]? =
      some (840, 25) ∧
    ∀ x, 840 ≤ x → x < 868 → widgetUnderMouse 1024 x 0 [140, -1, 28, 70, 80, 28] ≠ some 1 := by
  refine ⟨rfl, by decide, rfl, fun x hlo _ hx => ?_⟩
  have htiles := (extents_partition_iff (by decide) (by decide) (by decide)).mpr
    (show fixedSum [140, -1, 28, 70, 80, 28] ≤ 1024 by decide)
  obtain ⟨e, he, hin⟩ := ((widgetUnderMouse_of_tiles htiles x).1 1).mp hx
  rw [show (extents 1024 [140, -1, 28, 70, 80, 28])[1]? = some (140, 818) from rfl,
    Option.some.injEq] at he
  subst he
  exact absurd hin.2 (by omega)

end PanelWindow

end ToaruPanel
