import ToaruPanel.Volume
import ToaruPanel.Focus

/-!
# The panel widgets

The panel holds six kinds of widget.  Each declares a width, draws itself at the
`(offset, remaining)` the panel hands it, may react to `focus_enter` and `focus_leave`, and
may handle the mouse events the panel forwards while it is focused.

`WindowListWidget` is the one with layout state.  Its `draw` shares the space
`remaining - offset` among the open windows: the tile width is the share, at most 150,
and 28 (an icon alone) when the share is below 50 (`unitWidthFor`).  It remembers the
offset and tile width of that draw, and its `mouse_action` maps the pointer back to a tile
with them: tile `k` is `[offset + k * unit_width, offset + (k + 1) * unit_width)`
(`mouseAction_hovered`).  `focus_leave` clears the hovered window.

The other kinds keep a highlight flag (the application menu, the clock and the log-out
button) or the volume state.  Their drawing only paints.
-/

namespace ToaruPanel

/-- The window list's state. -/
structure WindowListWidget where
  /-- The window under the pointer, if any. -/
  hovered : Option Nat := none
  /-- The tile width of the last draw with windows to show (`None` before one). -/
  unitWidth : Option Int := none
  /-- Where the last such draw started. -/
  offset : Int := 0
deriving DecidableEq, Repr

/-- The tile width for `count` windows in `availableWidth` pixels. -/
def unitWidthFor (availableWidth : Int) (count : Nat) : Int :=
  if min (pyIntDiv availableWidth count) 150 < 50 then 28 else min (pyIntDiv availableWidth count) 150

/-- The tiles the window list paints from `offset`: each window's left edge and id. -/
def tilesFrom (unitWidth : Int) : Int → List WindowAdvertise → List (Int × Nat)
  | _, [] => []
  | offset, w :: ws => (offset, w.wid) :: tilesFrom unitWidth (offset + unitWidth) ws

namespace WindowListWidget

/-- `WindowListWidget.draw`: remember the offset and tile width, and paint a tile per window. -/
def draw (windows : List WindowAdvertise) (wl : WindowListWidget) (offset remaining : Int) :
    WindowListWidget × List (Int × Nat) :=
  if windows = [] then (wl, [])
  else
    ({ wl with offset := offset, unitWidth := some (unitWidthFor (remaining - offset) windows.length) },
      tilesFrom (unitWidthFor (remaining - offset) windows.length) offset windows)

/-- `int(msg.new_x / self.unit_width)` with the stored tile width. -/
def hoveredIndex (wl : WindowListWidget) (x : Int) : Except String Int :=
  match wl.unitWidth with
  | none => .error "TypeError: unsupported operand type(s) for /: 'int' and 'NoneType'"
  | some u => if u = 0 then .error "ZeroDivisionError: division by zero" else .ok (pyIntDiv (x - wl.offset) u)

/-- `WindowListWidget.mouse_action`: the state, whether the hovered window changed, and the
requests made.  `menusOpen` is whether the panel has a menu open. -/
def mouseAction (windows : List WindowAdvertise) (menusOpen : Bool) (wl : WindowListWidget)
    (msg : WindowMouseEvent) : Except String (WindowListWidget × Bool × List Effect) :=
  if windows = [] then .ok (wl, false, [])
  else do
    let k ← wl.hoveredIndex msg.newX
    if k < windows.length then
      let w ← pyGetItem windows k
      pure ({ wl with hovered := some w.wid }, some w.wid != wl.hovered,
        if msg.command = MouseEvent.CLICK then [.focusWindow w.wid]
        else if hasBit msg.buttons MouseButton.BUTTON_RIGHT && !menusOpen then
          [.windowMenu w.wid msg.newX]
        else [])
    else pure ({ wl with hovered := none }, none != wl.hovered, [])

/-- `focus_leave`. -/
def focusLeave (wl : WindowListWidget) : WindowListWidget := { wl with hovered := none }

end WindowListWidget

/-- Tile `k` of a window list drawn from `offset` with tiles `unitWidth` wide holds `x`. -/
def InTile (offset unitWidth x : Int) (k : Nat) : Prop :=
  offset + k * unitWidth ≤ x ∧ x < offset + (k + 1) * unitWidth

/-- A panel widget with its state. -/
inductive Widget where
  /-- `ApplicationsMenuWidget`; the flag is its highlighted font. -/
  | applicationsMenu (hilighted : Bool)
  /-- `WindowListWidget`. -/
  | windowList (state : WindowListWidget)
  /-- `VolumeWidget`. -/
  | volume (state : VolumeWidget)
  /-- `DateWidget`. -/
  | date
  /-- `ClockWidget`; the flag is its highlighted font. -/
  | clock (hilighted : Bool)
  /-- `LogOutWidget`; the flag selects the highlighted icon. -/
  | logOut (hilighted : Bool)
deriving DecidableEq, Repr

namespace Widget

/-- The declared width; `-1` asks for the space the others leave. -/
def width : Widget → Int
  | applicationsMenu _ => 140
  | windowList _ => -1
  | volume _ => 28
  | date => 70
  | clock _ => 80
  | logOut _ => 28

/-- `focus_enter` (`BaseWidget` does nothing). -/
def focusEnter : Widget → Widget
  | applicationsMenu _ => applicationsMenu true
  | clock _ => clock true
  | logOut _ => logOut true
  | w => w

/-- `focus_leave` (`BaseWidget` does nothing). -/
def focusLeave : Widget → Widget
  | applicationsMenu _ => applicationsMenu false
  | windowList wl => windowList wl.focusLeave
  | clock _ => clock false
  | logOut _ => logOut false
  | w => w

/-- The window a window-list widget has hovered. -/
def hovered : Widget → Option Nat
  | windowList wl => wl.hovered
  | _ => none

/-- `draw`: the state afterwards and the window tiles painted. -/
def draw (windows : List WindowAdvertise) (offset remaining : Int) : Widget → Widget × List (Int × Nat)
  | windowList wl => ((wl.draw windows offset remaining).1 |> windowList, (wl.draw windows offset remaining).2)
  | w => (w, [])

/-- `mouse_action`: the state, whether the panel must redraw, and the requests made. -/
def mouseAction (windows : List WindowAdvertise) (menusOpen : Bool) (msg : WindowMouseEvent) :
    Widget → Except String (Widget × Bool × List Effect)
  | applicationsMenu h =>
    .ok (applicationsMenu h, false, if msg.command = MouseEvent.CLICK then [.applicationsMenu] else [])
  | windowList wl => (fun r => (windowList r.1, r.2)) <$> wl.mouseAction windows menusOpen msg
  | volume v => (fun r => (volume r.1, r.2, [])) <$> v.mouseAction msg
  | date => .ok (date, false, [])
  | clock h => .ok (clock h, false, [])
  | logOut h => .ok (logOut h, false, if msg.command = MouseEvent.CLICK then [.sessionEnd] else [])

/-- Whether the widget draws highlighted (its font colour or icon). -/
def hilighted : Widget → Bool
  | applicationsMenu h => h
  | clock h => h
  | logOut h => h
  | _ => false

/-- Whether `focus_enter` highlights the widget. -/
def hilightable : Widget → Bool
  | applicationsMenu _ => true
  | clock _ => true
  | logOut _ => true
  | _ => false

/-- `[appmenu, WindowListWidget(), VolumeWidget(), DateWidget(), ClockWidget(),
LogOutWidget()]`, the volume widget reading the mixer. -/
def shipped (reading : UInt32) : List Widget :=
  [applicationsMenu false, windowList {}, volume (VolumeWidget.init reading), date, clock false,
    logOut false]

@[simp] theorem hovered_focusEnter (w : Widget) : w.focusEnter.hovered = w.hovered := by
  cases w <;> rfl

@[simp] theorem hovered_focusLeave (w : Widget) : w.focusLeave.hovered = none := by
  cases w <;> rfl

@[simp] theorem width_focusEnter (w : Widget) : w.focusEnter.width = w.width := by
  cases w <;> rfl

@[simp] theorem width_focusLeave (w : Widget) : w.focusLeave.width = w.width := by
  cases w <;> rfl

@[simp] theorem hovered_draw (windows : List WindowAdvertise) (offset remaining : Int) (w : Widget) :
    (w.draw windows offset remaining).1.hovered = w.hovered := by
  cases w <;> simp only [draw, hovered, WindowListWidget.draw]
  split <;> rfl

@[simp] theorem width_draw (windows : List WindowAdvertise) (offset remaining : Int) (w : Widget) :
    (w.draw windows offset remaining).1.width = w.width := by
  cases w <;> rfl

@[simp] theorem hilighted_focusEnter (w : Widget) : w.focusEnter.hilighted = w.hilightable := by
  cases w <;> rfl

@[simp] theorem hilighted_focusLeave (w : Widget) : w.focusLeave.hilighted = false := by
  cases w <;> rfl

@[simp] theorem hilightable_focusEnter (w : Widget) : w.focusEnter.hilightable = w.hilightable := by
  cases w <;> rfl

@[simp] theorem hilightable_focusLeave (w : Widget) : w.focusLeave.hilightable = w.hilightable := by
  cases w <;> rfl

@[simp] theorem hilighted_draw (windows : List WindowAdvertise) (offset remaining : Int) (w : Widget) :
    (w.draw windows offset remaining).1.hilighted = w.hilighted := by
  cases w <;> rfl

@[simp] theorem hilightable_draw (windows : List WindowAdvertise) (offset remaining : Int)
    (w : Widget) : (w.draw windows offset remaining).1.hilightable = w.hilightable := by
  cases w <;> rfl

/-- `mouse_action` keeps the widget's kind: its width and its highlight. -/
theorem mouseAction_same_kind {windows : List WindowAdvertise} {menusOpen : Bool}
    {msg : WindowMouseEvent} {w w' : Widget} {redraw : Bool} {effects : List Effect}
    (h : w.mouseAction windows menusOpen msg = .ok (w', redraw, effects)) :
    w'.width = w.width ∧ w'.hilighted = w.hilighted ∧ w'.hilightable = w.hilightable := by
  cases w <;> simp only [mouseAction] at h
  all_goals first
    | (simp only [Except.ok.injEq, Prod.mk.injEq] at h; rw [← h.1]; exact ⟨rfl, rfl, rfl⟩)
    | (obtain ⟨_, -, h⟩ := map_eq_ok.mp h; simp only [Prod.mk.injEq] at h; rw [← h.1]
       exact ⟨rfl, rfl, rfl⟩)

theorem width_mouseAction {windows : List WindowAdvertise} {menusOpen : Bool}
    {msg : WindowMouseEvent} {w w' : Widget} {redraw : Bool} {effects : List Effect}
    (h : w.mouseAction windows menusOpen msg = .ok (w', redraw, effects)) : w'.width = w.width :=
  (mouseAction_same_kind h).1

end Widget

/-! ## Tile widths -/

theorem unitWidthFor_range (availableWidth : Int) (count : Nat) :
    unitWidthFor availableWidth count = 28 ∨
      (50 ≤ unitWidthFor availableWidth count ∧ unitWidthFor availableWidth count ≤ 150) := by
  unfold unitWidthFor
  split <;> omega

theorem unitWidthFor_pos (availableWidth : Int) (count : Nat) :
    0 < unitWidthFor availableWidth count := by
  rcases unitWidthFor_range availableWidth count with h | h <;> omega

/-- `count` tiles fit a share of `availableWidth ≥ 0` pixels exactly when 28 pixels a window
do: from a quotient of 50 on the tile is at most the quotient, below it the tile is 28 wide. -/
theorem unitWidthFor_fits_iff {a : Int} {n : Nat} (ha : 0 ≤ a) (hn : 0 < n) :
    n * unitWidthFor a n ≤ a ↔ 28 * n ≤ a := by
  have hq := Int.ediv_mul_le a (show (n : Int) ≠ 0 by omega)
  rw [mul_comm] at hq
  unfold unitWidthFor
  rw [pyIntDiv_of_nonneg ha (by omega)]
  split
  · omega
  · have hle := Int.mul_le_mul_of_nonneg_left (min_le_left (a / n) 150) (Int.natCast_nonneg n)
    have hge := Int.mul_le_mul_of_nonneg_left (show (50 : Int) ≤ min (a / n) 150 by omega)
      (Int.natCast_nonneg n)
    constructor <;> intro <;> omega

/-- Tiles `u > 0` wide from `offset` all end by `remaining` exactly when the last of the `n`
does. -/
theorem tiles_end_by_iff {offset remaining u : Int} {n : Nat} (hu : 0 < u) (hn : 0 < n) :
    (∀ k < n, offset + ((k : Int) + 1) * u ≤ remaining) ↔ n * u ≤ remaining - offset := by
  constructor
  · intro h
    have hlast := h (n - 1) (by omega)
    rw [show ((n - 1 : Nat) : Int) + 1 = n by omega] at hlast
    linarith
  · intro h k hk
    have := Int.mul_le_mul_of_nonneg_right (show (k : Int) + 1 ≤ n by omega) hu.le
    linarith

theorem tilesFrom_getElem? (unitWidth : Int) : ∀ (offset : Int) (windows : List WindowAdvertise)
    (k : Nat), (tilesFrom unitWidth offset windows)[k]? =
      windows[k]?.map fun w => (offset + k * unitWidth, w.wid)
  | _, [], _ => rfl
  | offset, w :: ws, 0 => by simp [tilesFrom]
  | offset, w :: ws, k + 1 => by
    rw [tilesFrom, List.getElem?_cons_succ, tilesFrom_getElem?, List.getElem?_cons_succ]
    simp only [Option.map_eq_map, Nat.cast_add, Nat.cast_one, Prod.mk.injEq]
    congr 1
    funext v
    congr 1
    ring

/-! ## Hovering the window list -/

/-- The tile holding `x` is the one `int((x - offset) / unit_width)` names. -/
theorem InTile.index_eq {o u x : Int} {k : Nat} (h : InTile o u x k) (hu : 0 < u) :
    (x - o) / u = k := by
  obtain ⟨hlo, hhi⟩ := h
  exact ((@Int.ediv_emod_unique (x - o) u (x - o - k * u) k hu).mpr
    ⟨by ring, by linarith, by linarith⟩).1

/-- When the pointer is right of the offset, `int((x - offset) / unit_width)` names a tile
that holds it. -/
theorem inTile_div {o u x : Int} (hu : 0 < u) (hx : o ≤ x) :
    InTile o u x ((x - o) / u).toNat := by
  have hq : 0 ≤ (x - o) / u := Int.ediv_nonneg (by omega) hu.le
  have hlo := Int.ediv_mul_le (x - o) hu.ne'
  have hhi := Int.lt_ediv_add_one_mul_self (x - o) hu
  rw [InTile, Int.toNat_of_nonneg hq]
  constructor <;> linarith

namespace WindowListWidget

/-- `mouse_action` keeps what the last draw stored. -/
theorem mouseAction_layout {windows : List WindowAdvertise} {menusOpen : Bool}
    {wl wl' : WindowListWidget} {msg : WindowMouseEvent} {redraw : Bool} {effects : List Effect}
    (h : wl.mouseAction windows menusOpen msg = .ok (wl', redraw, effects)) :
    wl'.offset = wl.offset ∧ wl'.unitWidth = wl.unitWidth := by
  unfold mouseAction at h
  split at h
  · cases h; exact ⟨rfl, rfl⟩
  · cases hk : wl.hoveredIndex msg.newX with
    | error e => rw [hk] at h; cases h
    | ok k =>
      simp only [hk, bind, Except.bind] at h
      split at h
      · cases hg : pyGetItem windows k with
        | error e => rw [hg] at h; cases h
        | ok w =>
          simp only [hg, pure, Except.pure, Except.ok.injEq, Prod.mk.injEq] at h
          rw [← h.1]; exact ⟨rfl, rfl⟩
      · simp only [pure, Except.pure, Except.ok.injEq, Prod.mk.injEq] at h
        rw [← h.1]; exact ⟨rfl, rfl⟩

/-- The hover mapping: with a stored tile width and the pointer right of the stored offset,
`mouse_action` does not raise, hovers (and on a click focuses) the window of the tile
under the pointer, and hovers nothing when no tile holds it. -/
theorem mouseAction_hovered {windows : List WindowAdvertise} (menusOpen : Bool)
    {wl : WindowListWidget} {msg : WindowMouseEvent} {u : Int} (hne : windows ≠ [])
    (hu : wl.unitWidth = some u) (hpos : 0 < u) (hx : wl.offset ≤ msg.newX) :
    ∃ wl' redraw effects, wl.mouseAction windows menusOpen msg = .ok (wl', redraw, effects) ∧
      (∀ (k : Nat) w, windows[k]? = some w → InTile wl.offset u msg.newX k →
        wl'.hovered = some w.wid ∧ (msg.command = MouseEvent.CLICK → effects = [.focusWindow w.wid])) ∧
      ((∀ k < windows.length, ¬ InTile wl.offset u msg.newX k) → wl'.hovered = none) := by
  have hq : 0 ≤ (msg.newX - wl.offset) / u := Int.ediv_nonneg (by omega) hpos.le
  have hidx : wl.hoveredIndex msg.newX = .ok ((msg.newX - wl.offset) / u) := by
    simp [hoveredIndex, hu, hpos.ne', pyIntDiv_of_nonneg (by omega : 0 ≤ msg.newX - wl.offset) hpos.le]
  have htile := inTile_div hpos hx
  simp only [mouseAction, hne, if_false, hidx, bind, Except.bind]
  split
  · next hlt =>
    have hk : ((msg.newX - wl.offset) / u).toNat < windows.length := by omega
    have hget : pyGetItem windows ((msg.newX - wl.offset) / u) =
        .ok windows[((msg.newX - wl.offset) / u).toNat] := by
      conv_lhs => rw [← Int.toNat_of_nonneg hq]
      exact pyGetItem_of_lt windows hk
    simp only [hget]
    refine ⟨_, _, _, rfl, fun k w hw ht => ?_, fun hnone => absurd htile (hnone _ hk)⟩
    have hkq : ((msg.newX - wl.offset) / u).toNat = k := by rw [ht.index_eq hpos]; rfl
    subst hkq
    rw [List.getElem?_eq_getElem hk, Option.some.injEq] at hw
    subst hw
    exact ⟨rfl, fun hc => by simp [hc]⟩
  · next hge =>
    refine ⟨_, _, _, rfl, fun k w hw ht => absurd ?_ hge, fun _ => rfl⟩
    rw [ht.index_eq hpos]
    exact_mod_cast (List.getElem?_eq_some_iff.mp hw).1

end WindowListWidget

namespace Widget

/-- Only the window list paints window tiles, one per window. -/
theorem draw_snd (windows : List WindowAdvertise) (offset remaining : Int) (w : Widget) :
    (w.draw windows offset remaining).2 =
      if w.width = -1 ∧ windows ≠ [] then
        tilesFrom (unitWidthFor (remaining - offset) windows.length) offset windows
      else [] := by
  cases w with
  | windowList wl =>
    simp only [draw, width, WindowListWidget.draw, true_and]
    split <;> simp_all
  | _ => simp [draw, width]

/-- A drawn window list was a window list before, drawn. -/
theorem draw_eq_windowList {windows : List WindowAdvertise} {offset remaining : Int} {v : Widget}
    {wl : WindowListWidget} (h : (v.draw windows offset remaining).1 = windowList wl) :
    ∃ wl₀, v = windowList wl₀ ∧ wl = (wl₀.draw windows offset remaining).1 := by
  cases v <;> simp_all [draw]

/-- A window list after `mouse_action` was a window list before, with the same layout. -/
theorem mouseAction_eq_windowList {windows : List WindowAdvertise} {menusOpen : Bool}
    {msg : WindowMouseEvent} {w : Widget} {wl' : WindowListWidget} {redraw : Bool}
    {effects : List Effect} (h : w.mouseAction windows menusOpen msg = .ok (windowList wl', redraw, effects)) :
    ∃ wl, w = windowList wl ∧ wl'.offset = wl.offset ∧ wl'.unitWidth = wl.unitWidth := by
  cases w with
  | windowList wl =>
    obtain ⟨⟨v, r, e⟩, hv, h⟩ := map_eq_ok.mp h
    simp only [Prod.mk.injEq, windowList.injEq] at h
    obtain ⟨rfl, rfl, rfl⟩ := h
    exact ⟨wl, rfl, WindowListWidget.mouseAction_layout hv⟩
  | volume v => obtain ⟨_, -, h⟩ := map_eq_ok.mp h; simp at h
  | _ => simp [mouseAction] at h

/-! ## The volume widget among the others -/

theorem focusEnter_eq_volume {w : Widget} {v : VolumeWidget} (h : w.focusEnter = volume v) :
    w = volume v := by
  cases w <;> simp_all [focusEnter]

theorem focusLeave_eq_volume {w : Widget} {v : VolumeWidget} (h : w.focusLeave = volume v) :
    w = volume v := by
  cases w <;> simp_all [focusLeave]

theorem draw_eq_volume {windows : List WindowAdvertise} {offset remaining : Int} {w : Widget}
    {v : VolumeWidget} (h : (w.draw windows offset remaining).1 = volume v) : w = volume v := by
  cases w <;> simp_all [draw]

/-- A volume widget after `mouse_action` was a volume widget in range before, so it is in
range after. -/
theorem mouseAction_volume_bounded {windows : List WindowAdvertise} {menusOpen : Bool}
    {msg : WindowMouseEvent} {w : Widget} {v' : VolumeWidget} {redraw : Bool} {effects : List Effect}
    (hb : ∀ v, w = volume v → v.Bounded)
    (h : w.mouseAction windows menusOpen msg = .ok (volume v', redraw, effects)) : v'.Bounded := by
  cases w with
  | volume v =>
    obtain ⟨v₁, redraw₁, hm, hb₁, -⟩ := VolumeWidget.mouseAction_spec (hb v rfl) msg
    rw [mouseAction, hm] at h
    cases h
    exact hb₁
  | windowList wl => obtain ⟨_, -, h⟩ := map_eq_ok.mp h; simp at h
  | _ => simp [mouseAction] at h

/-- `mouse_action` does not raise on a volume widget in range, nor on a window list that
stores a positive tile width and an offset left of the pointer. -/
theorem mouseAction_ok {windows : List WindowAdvertise} (menusOpen : Bool) (msg : WindowMouseEvent)
    {w : Widget} (hv : ∀ v, w = volume v → v.Bounded)
    (hwl : ∀ wl, w = windowList wl → windows ≠ [] →
      ∃ u, wl.unitWidth = some u ∧ 0 < u ∧ wl.offset ≤ msg.newX) :
    ∃ r, w.mouseAction windows menusOpen msg = .ok r := by
  cases w with
  | windowList wl =>
    by_cases hne : windows = []
    · exact ⟨_, by simp [mouseAction, WindowListWidget.mouseAction, hne]; rfl⟩
    · obtain ⟨u, hu, hpos, hx⟩ := hwl wl rfl hne
      obtain ⟨wl', redraw, effects, hm, -⟩ :=
        WindowListWidget.mouseAction_hovered menusOpen hne hu hpos hx
      exact map_ok_of_ok _ ⟨_, hm⟩
  | volume v =>
    obtain ⟨v', redraw, hm, -⟩ := VolumeWidget.mouseAction_spec (hv v rfl) msg
    exact map_ok_of_ok _ ⟨_, hm⟩
  | _ => exact ⟨_, rfl⟩

end Widget

/-! ## The menus

The applications menu and the window list's menu are `menu_bar` menus built from the
entries below.  The menu library decides which key or click activates which entry; the
panel gives the entries and their callbacks.  An entry is named by its path of positions,
each position but the last opening a submenu.  The titles and icons the library draws are
not modelled. -/

/-- The callback of a `MenuEntryAction`, with the data it was built with. -/
inductive MenuAction where
  /-- `launch_app(data)`. -/
  | launchApp (data : List Char)
  /-- `logout_callback`. -/
  | logOut
  /-- `move_window(wid)`: `yutani_window_drag_start_wid`. -/
  | moveWindow (wid : Nat)
deriving DecidableEq, Repr

/-- A menu entry as the panel builds it. -/
inductive MenuEntry where
  /-- `MenuEntryAction`. -/
  | action (act : MenuAction)
  /-- `MenuEntrySubmenu`. -/
  | submenu (entries : List MenuEntry)
  /-- `MenuEntryDivider`. -/
  | divider
deriving Repr

/-- The entry at a path of positions in a menu. -/
def MenuEntry.entryAt : List MenuEntry → List Nat → Option MenuEntry
  | _, [] => none
  | es, [i] => es[i]?
  | es, i :: j :: p =>
    match es[i]? with
    | some (.submenu sub) => entryAt sub (j :: p)
    | _ => none

/-- The requests a callback makes. -/
def MenuAction.run : MenuAction → List Effect
  | .launchApp data => [.launchApp data false]
  | .logOut => [.sessionEnd]
  | .moveWindow wid => [.dragWindow wid]

/-- `ApplicationsMenuWidget.menu_entries`. -/
def ApplicationsMenuWidget.menuEntries : List MenuEntry :=
  [.submenu [                                                -- Accesories
      .action (.launchApp "calculator.py".toList),           -- Calculator
      .action (.launchApp "clock-win".toList),               -- Clock Widget
      .action (.launchApp "file_browser.py".toList),         -- File Browser
      .action (.launchApp "terminal".toList),                -- Terminal
      .action (.launchApp "terminal vim-install-or-run.py".toList)],  -- Vim
    .submenu [                                               -- Demos
      .submenu [                                             -- Cairo
        .action (.launchApp "cairo-demo".toList),            -- Cairo Demo
        .action (.launchApp "make-it-snow".toList),          -- Cairo Snow
        .action (.launchApp "pixman-demo".toList)],          -- Pixman Demo
      .submenu [                                             -- Mesa (swrast)
        .action (.launchApp "gears".toList),                 -- Gears
        .action (.launchApp "teapot".toList)],               -- Teapot
      .action (.launchApp "drawlines".toList),               -- Draw Lines
      .action (.launchApp "julia".toList),                   -- Julia Fractals
      .action (.launchApp "plasma".toList)],                 -- Plasma
    .submenu [.action (.launchApp "game".toList)],           -- Games: RPG Demo
    .submenu [.action (.launchApp "draw".toList)],           -- Graphics: Draw!
    .submenu [.action (.launchApp "select-wallpaper".toList)],  -- Settings: Select Wallpaper
    .divider,
    .action (.launchApp "help-browser.py".toList),           -- Help
    .action (.launchApp "about-applet.py".toList),           -- About ToaruOS
    .action .logOut]                                         -- Log Out

/-- The window list's menu for the window it hovers: `[MenuEntryAction("Move", ...)]`. -/
def WindowListWidget.menuEntries (hovered : Nat) : List MenuEntry :=
  [.action (.moveWindow hovered)]

/-- A menu the panel opens. -/
inductive PanelMenu where
  /-- `appmenu.activate()`: the applications menu. -/
  | applications
  /-- The window list's menu for a window. -/
  | window (wid : Nat)
deriving DecidableEq, Repr

/-- The entries a panel menu is built from. -/
def PanelMenu.entries : PanelMenu → List MenuEntry
  | .applications => ApplicationsMenuWidget.menuEntries
  | .window wid => WindowListWidget.menuEntries wid

/-- What activating the entry at a path runs: an action's callback; a submenu or a divider
runs none of the panel's code. -/
def PanelMenu.activate (menu : PanelMenu) (path : List Nat) : List Effect :=
  match MenuEntry.entryAt menu.entries path with
  | some (.action act) => act.run
  | _ => []

/-- The window list's menu has one entry, "Move". -/
theorem WindowListWidget.entryAt_menuEntries {wid : Nat} {path : List Nat} {e : MenuEntry}
    (h : MenuEntry.entryAt (WindowListWidget.menuEntries wid) path = some e) :
    e = .action (.moveWindow wid) := by
  rcases path with _ | ⟨_ | i, _ | ⟨j, p⟩⟩ <;>
    simp [MenuEntry.entryAt, WindowListWidget.menuEntries] at h
  exact h.symm

/-- Only an entry of the applications menu launches a program, its command, never in a
terminal. -/
theorem PanelMenu.activate_launch {menu : PanelMenu} {path : List Nat} {item : List Char}
    {terminal : Bool} (h : Effect.launchApp item terminal ∈ menu.activate path) :
    menu = .applications ∧
      MenuEntry.entryAt ApplicationsMenuWidget.menuEntries path = some (.action (.launchApp item)) ∧
      terminal = false := by
  unfold activate at h
  split at h
  · next act he =>
    cases menu with
    | window wid =>
      cases WindowListWidget.entryAt_menuEntries he
      simp [MenuAction.run] at h
    | applications =>
      cases act <;> simp only [MenuAction.run, List.mem_singleton, Effect.launchApp.injEq,
        reduceCtorEq] at h
      obtain ⟨rfl, rfl⟩ := h
      exact ⟨rfl, he, rfl⟩
  · cases h

example : PanelMenu.applications.activate [0, 3] = [.launchApp "terminal".toList false] := rfl

end ToaruPanel
