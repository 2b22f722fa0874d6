import ToaruPanel.Session
import ToaruPanel.Repaint
import ToaruPanel.Desktop
import ToaruPanel.AltTab

/-!
# What the panel launches

The panel starts programs in four places, and this module shows they are the only ones.

* `Ctrl+Alt+T` in the key bindings runs `launch_app('terminal')`.
* A click on a desktop icon runs the icon's action, `launch_application`, which spawns
  `/bin/sh -c` with the icon's command (`WallpaperWindow.mouseAction_click`).
* `Enter` in the application runner runs `launch_app` on the typed text and its
  suggestion, in a terminal when Shift is held.
* An entry of the applications menu runs `launch_app` on its command; the window list's
  menu only starts a drag (`PanelMenu.activate_launch`).

The panel's widgets only focus windows of its list, open menus or end the session
(`PanelWindow.mouseAction_effects`).  The runner's suggestion is empty or completes the
text to the least name on the search path (`ApplicationRunnerWindow.CompletionInv`).  So
every program the loop starts is the terminal, the command of the focused icon under a
click, the typed text, completed or not, or the command of an applications-menu entry
(`loop_launches_only`).

*The desktop icons.*  No event changes an icon's label or command (`handle_keeps_entries`),
so along every run the wallpaper's icons are those `load_icons` read, in the order of the
file (`mainLoop_keeps_entries`).  A click on the focused icon under the pointer runs the
command of that icon's line of the desktop file, its second field (`desktop_click_runs_line`).

Three inversion lemmas carry the proofs.  `Session.dispatch_frame` says once what a message
can do to the wallpaper and to the runner, `Session.dispatch_effect_cases` where each of its
requests comes from, and `Session.keyEvent_runner_cases` where a key event goes.
-/

namespace ToaruPanel

/-! ## What the panel asks for -/

/-- A request the panel's widgets may make over the window list `windows`: focus a listed
window or open its menu, open the applications menu, or end the session.  None launches a
program. -/
def Effect.FromPanel (windows : List WindowAdvertise) : Effect → Prop
  | .focusWindow wid => ∃ w ∈ windows, w.wid = wid
  | .windowMenu wid _ => ∃ w ∈ windows, w.wid = wid
  | .applicationsMenu => True
  | .sessionEnd => True
  | .launchApp _ _ => False
  | .dragWindow _ => False

theorem WindowListWidget.mouseAction_effects {windows : List WindowAdvertise} {menusOpen : Bool}
    {wl wl' : WindowListWidget} {msg : WindowMouseEvent} {redraw : Bool} {effects : List Effect}
    (h : wl.mouseAction windows menusOpen msg = .ok (wl', redraw, effects)) :
    ∀ e ∈ effects, e.FromPanel windows := by
  unfold mouseAction at h
  split at h
  · cases h; simp
  · cases hk : wl.hoveredIndex msg.newX with
    | error e => simp [hk, bind, Except.bind] at h
    | ok k =>
      simp only [hk, bind, Except.bind] at h
      split at h
      · cases hw : pyGetItem windows k with
        | error e => simp [hw] at h
        | ok w =>
          simp only [hw, pure, Except.pure, Except.ok.injEq, Prod.mk.injEq] at h
          rw [← h.2.2]
          have hmem : ∃ w' ∈ windows, w'.wid = w.wid := ⟨w, pyGetItem_mem hw, rfl⟩
          split_ifs <;> simp [Effect.FromPanel, hmem]
      · simp only [pure, Except.pure, Except.ok.injEq, Prod.mk.injEq] at h
        rw [← h.2.2]; simp

theorem Widget.mouseAction_effects {windows : List WindowAdvertise} {menusOpen : Bool}
    {msg : WindowMouseEvent} {w w' : Widget} {redraw : Bool} {effects : List Effect}
    (h : w.mouseAction windows menusOpen msg = .ok (w', redraw, effects)) :
    ∀ e ∈ effects, e.FromPanel windows := by
  cases w with
  | windowList wl =>
    obtain ⟨⟨wl', rd, eff⟩, hr, he⟩ := map_eq_ok.mp h
    simp only [Prod.mk.injEq] at he
    obtain ⟨-, -, rfl⟩ := he
    exact WindowListWidget.mouseAction_effects hr
  | volume v =>
    obtain ⟨r, -, he⟩ := map_eq_ok.mp h
    simp only [Prod.mk.injEq] at he
    simp [← he.2.2]
  | applicationsMenu | logOut =>
    simp only [mouseAction, Except.ok.injEq, Prod.mk.injEq] at h
    rw [← h.2.2]
    split_ifs <;> simp [Effect.FromPanel]
  | date | clock =>
    simp only [mouseAction, Except.ok.injEq, Prod.mk.injEq] at h
    simp [← h.2.2]

/-- The panel's requests come from its widgets. -/
theorem PanelWindow.mouseAction_effects {windows : List WindowAdvertise} {menusOpen : Bool}
    {p p' : PanelWindow} {msg : WindowMouseEvent} {effects : List Effect}
    (h : p.mouseAction windows menusOpen msg = .ok (p', effects)) :
    ∀ e ∈ effects, e.FromPanel windows := by
  have hpm : ∀ {p'' : PanelWindow}, p.pointerMoved windows menusOpen msg = .ok (p'', effects) →
      ∀ e ∈ effects, e.FromPanel windows := fun hp => by
    unfold pointerMoved at hp
    dsimp only at hp
    split at hp
    · cases hp; simp
    · split at hp
      · cases hp; simp
      · next w _ =>
        cases hw : w.mouseAction windows menusOpen msg with
        | error e => simp [hw, bind, Except.bind] at hp
        | ok r =>
          simp only [hw, bind, Except.bind, pure, Except.pure, Except.ok.injEq, Prod.mk.injEq] at hp
          exact hp.2 ▸ Widget.mouseAction_effects hw
  unfold mouseAction at h
  split at h
  · split at h
    · cases h; simp
    · split at h
      · exact hpm h
      · cases h; simp
  · split at h
    · exact hpm h
    · cases h; simp

/-! ## A wallpaper icon launches its command -/

namespace WallpaperWindow

/-- The hit-test branch launches only on a click on the focused icon under the pointer, and
then runs that icon's command. -/
theorem pointerMoved_effects {msg : WindowMouseEvent} {now : ℚ} {w w' : WallpaperWindow}
    {frames : List Frame} {effects : List Effect}
    (h : w.pointerMoved msg now = .ok (w', frames, effects)) :
    effects = [] ∨ ∃ i icon, msg.command = MouseEvent.CLICK ∧
      iconUnderMouse w.height msg.newX msg.newY w.icons = some i ∧ w.focusedIcon = some i ∧
      w.icons[i]? = some icon ∧ effects = [.launchApp icon.data false] := by
  unfold pointerMoved at h
  dsimp only at h
  split at h
  · split at h
    · obtain ⟨r, -, he⟩ := map_eq_ok.mp h
      simp only [Prod.mk.injEq] at he
      exact .inl he.2.2.symm
    · cases h; exact .inl rfl
  · next hne =>
    cases hb : (iconUnderMouse w.height msg.newX msg.newY w.icons).bind (w.icons[·]?) with
    | none => rw [hb] at h; cases h; exact .inl rfl
    | some icon =>
      simp only [hb] at h
      obtain ⟨i, hi, hicon⟩ := Option.bind_eq_some.mp hb
      split at h
      · next hc =>
        simp only [Except.ok.injEq, Prod.mk.injEq] at h
        exact .inr ⟨i, icon, hc, hi, (not_not.mp hne).symm.trans hi, hicon, h.2.2.symm⟩
      · cases h; exact .inl rfl

theorem mouseAction_effects {msg : WindowMouseEvent} {now : ℚ} {w w' : WallpaperWindow}
    {frames : List Frame} {effects : List Effect}
    (h : w.mouseAction msg now = .ok (w', frames, effects)) :
    effects = [] ∨ ∃ i icon, msg.command = MouseEvent.CLICK ∧
      iconUnderMouse w.height msg.newX msg.newY w.icons = some i ∧ w.focusedIcon = some i ∧
      w.icons[i]? = some icon ∧ effects = [.launchApp icon.data false] := by
  unfold mouseAction at h
  split at h
  · split at h
    · obtain ⟨r, -, he⟩ := map_eq_ok.mp h
      simp only [Prod.mk.injEq] at he
      exact .inl he.2.2.symm
    · exact pointerMoved_effects h
  · exact pointerMoved_effects h

/-- Only a mouse event launches. -/
theorem handle_effects {e : WallpaperEvent} {w w' : WallpaperWindow} {frames : List Frame}
    {effects : List Effect} (h : w.handle e = .ok (w', frames, effects)) :
    effects = [] ∨ ∃ msg now, e = .mouse msg now ∧ w.mouseAction msg now = .ok (w', frames, effects) := by
  cases e with
  | mouse msg now => exact .inr ⟨msg, now, rfl, h⟩
  | timerTick tick drawNow =>
    rw [handle] at h
    split at h
    · cases h; exact .inl rfl
    · obtain ⟨r, -, he⟩ := map_eq_ok.mp h
      simp only [Prod.mk.injEq] at he
      exact .inl he.2.2.symm
  | animateNew image now => cases h; exact .inl rfl
  | draw now | finishResize width height now =>
    obtain ⟨r, -, he⟩ := map_eq_ok.mp h
    simp only [Prod.mk.injEq] at he
    exact .inl he.2.2.symm

/-- A click on the focused icon under the pointer starts its bounce and runs its command. -/
theorem mouseAction_click {msg : WindowMouseEvent} {now : ℚ} {w : WallpaperWindow} {i : Nat}
    {icon : WallpaperIcon} (hclick : msg.command = MouseEvent.CLICK) (hy : msg.newY < w.height)
    (hunder : iconUnderMouse w.height msg.newX msg.newY w.icons = some i)
    (hfocus : w.focusedIcon = some i) (hicon : w.icons[i]? = some icon) :
    w.mouseAction msg now = .ok (w.addAnimation i now, [], [.launchApp icon.data false]) := by
  have hleave : ¬ (msg.command = MouseEvent.LEAVE ∨ msg.newY ≥ w.height) := by
    rw [hclick]; simp only [MouseEvent.CLICK, MouseEvent.LEAVE]; omega
  simp only [mouseAction, hfocus, if_neg hleave, pointerMoved, hunder, ne_eq, not_true_eq_false,
    if_false, Option.some_bind, hicon, if_pos hclick, Option.getD_some]

end WallpaperWindow

/-! ## The runner launches its text -/

namespace ApplicationRunnerWindow

/-- `key_action` launches only on Enter with text typed: the text and its suggestion, in a
terminal when Shift is held, and the prompt closes. -/
theorem keyAction_effects {r : ApplicationRunnerWindow} {msg : KeyEvent}
    {r' : Option ApplicationRunnerWindow} {effects : List Effect}
    (h : r.keyAction msg = .ok (r', effects)) :
    effects = [] ∨ (msg.key = 10 ∧ r.data ≠ [] ∧ r' = none ∧
      effects = [.launchApp (r.data ++ r.complete) (hasBit msg.modifiers Modifier.MOD_LEFT_SHIFT)]) := by
  rcases keyAction_text h with ⟨rfl, -, rfl | ⟨hkey, hdata, rfl⟩⟩ | ⟨rfl, -⟩
  · exact .inl rfl
  · exact .inr ⟨hkey, hdata, rfl, rfl⟩
  · exact .inl rfl

end ApplicationRunnerWindow

/-! ## The loop -/

namespace Session

/-- The bindings' own requests: Alt+F1 opens the applications menu, and Ctrl+Alt+T runs the
terminal. -/
theorem launchEffects_cases {env : Env} {ev : KeyEvent} {e : Effect}
    (h : e ∈ launchEffects env ev) :
    e = .applicationsMenu ∨
      (hasBit ev.modifiers Modifier.MOD_LEFT_CTRL ∧ hasBit ev.modifiers Modifier.MOD_LEFT_ALT ∧
        ev.keycode = 't'.toNat ∧ ev.action = KeyAction.ACTION_DOWN ∧
        e = .launchApp "terminal".toList false) := by
  unfold launchEffects at h
  split_ifs at h <;> simp_all

/-- The first two bindings leave the wallpaper and the window list alone, and only Alt+F2
touches the runner. -/
theorem openRunner_toggle_frame {env : Env} {ev : KeyEvent} {s s₁ : Session}
    (h : s.openRunner env ev = .ok s₁) :
    (s₁.toggleOnCtrlF11 ev).wallpaper = s.wallpaper ∧
      (s₁.toggleOnCtrlF11 ev).appRunner = s₁.appRunner ∧
      (s₁.toggleOnCtrlF11 ev).windowsZorder = s.windowsZorder := by
  rcases openRunner_toggle_eq h with e | e <;> rw [e] <;> exact ⟨rfl, rfl, rfl⟩

theorem releaseAlt_frame {ev : KeyEvent} {s s' : Session} {focus : List Effect}
    (h : s.releaseAlt ev = .ok (s', focus)) :
    s'.wallpaper = s.wallpaper ∧ s'.appRunner = s.appRunner ∧
      s'.windowsZorder = s.windowsZorder := by
  rcases releaseAlt_cases h with ⟨-, -, hf⟩ | ⟨rfl, -⟩
  · obtain ⟨w, a, rest, -, -, rfl, -⟩ := finishAltTab_cases hf
    exact ⟨rfl, rfl, rfl⟩
  · exact ⟨rfl, rfl, rfl⟩

/-- The bindings leave the wallpaper and the window list alone, and the runner as Alt+F2
leaves it. -/
theorem bindings_frame {env : Env} {ev : KeyEvent} {s s' : Session} {effects : List Effect}
    (h : s.bindings env ev = .ok (s', effects)) :
    s'.wallpaper = s.wallpaper ∧ (∃ s₁, s.openRunner env ev = .ok s₁ ∧ s'.appRunner = s₁.appRunner) ∧
      s'.windowsZorder = s.windowsZorder := by
  obtain ⟨s₁, s₂, focus, ho, hr, hp, -⟩ := bindings_cases h
  obtain ⟨hw₁, ha₁, hz₁⟩ := openRunner_toggle_frame ho
  obtain ⟨hw₂, ha₂, hz₂⟩ := releaseAlt_frame hr
  rcases pressTab_cases hp with ha | rfl
  · obtain ⟨hw₃, ha₃, hz₃⟩ := altTab_frame ha
    exact ⟨hw₃.trans (hw₂.trans hw₁), ⟨s₁, ho, ha₃.trans (ha₂.trans ha₁)⟩, hz₃.trans (hz₂.trans hz₁)⟩
  · exact ⟨hw₂.trans hw₁, ⟨s₁, ho, ha₂.trans ha₁⟩, hz₂.trans hz₁⟩

/-- The bindings ask for what Alt+F1 and Ctrl+Alt+T ask for, and on an Alt release focus a
window of `windows_zorder`. -/
theorem bindings_effects {env : Env} {ev : KeyEvent} {s s' : Session} {effects : List Effect}
    (h : s.bindings env ev = .ok (s', effects)) :
    ∀ e ∈ effects, e ∈ launchEffects env ev ∨ ∃ w ∈ s.windowsZorder, e = .focusWindow w.wid := by
  obtain ⟨s₁, s₂, focus, ho, hr, -, rfl⟩ := bindings_cases h
  intro e he
  rcases List.mem_append.mp he with he | he
  · exact .inl he
  · rcases releaseAlt_cases hr with ⟨-, -, hf⟩ | ⟨-, rfl⟩
    · obtain ⟨w, -, -, hw, -, -, rfl⟩ := finishAltTab_cases hf
      rw [List.mem_singleton] at he
      exact .inr ⟨w, (openRunner_toggle_frame ho).2.2 ▸ pyGetItem_mem hw, he⟩
    · cases he

/-- What a message does to the wallpaper and to the runner: a wallpaper handler runs on the
wallpaper; a key event addressed to the runner runs `key_action`, Alt+F2 with no runner opens
one, and nothing else touches the runner. -/
theorem dispatch_frame {env : Env} {s s' : Session} {msg : Message} {effects : List Effect}
    (h : s.dispatch env msg = .ok (s', effects)) :
    (s'.wallpaper = s.wallpaper ∨
      ∃ e frames effs, s.wallpaper.handle e = .ok (s'.wallpaper, frames, effs)) ∧
    (s'.appRunner = s.appRunner ∨
      (∃ ev r, msg = .keyEvent ev ∧ s.appRunner = some r ∧ r.keyAction ev = .ok (s'.appRunner, effects)) ∨
      (s.appRunner = none ∧ ∃ bins, env.bins = .ok bins ∧
        s'.appRunner = some (.init env.newWid bins))) := by
  have hwall : ∀ (s₁ : Session) (e : WallpaperEvent), s₁.wallpaper = s.wallpaper →
      s₁.appRunner = s.appRunner → s₁.withWallpaper e = .ok (s', effects) →
      (s'.wallpaper = s.wallpaper ∨
        ∃ e frames effs, s.wallpaper.handle e = .ok (s'.wallpaper, frames, effs)) ∧
      s'.appRunner = s.appRunner := fun _ _ hw hr h' => by
    obtain ⟨w, frames, hh, rfl⟩ := withWallpaper_eq h'
    exact ⟨.inr ⟨_, frames, effects, hw ▸ hh⟩, hr⟩
  cases msg with
  | keyEvent ev =>
    rcases keyEvent_runner_cases h with ⟨r, r', hr, -, hk, rfl⟩ | ⟨-, hb⟩
    · exact ⟨.inl rfl, .inr (.inl ⟨ev, r, rfl, hr, hk⟩)⟩
    · obtain ⟨hw, ⟨s₁, ho, ha⟩, -⟩ := bindings_frame hb
      refine ⟨.inl hw, ?_⟩
      rcases openRunner_cases ho with rfl | ⟨hn, -, bins, hbins, rfl⟩
      · exact .inl ha
      · exact .inr (.inr ⟨hn, bins, hbins, ha⟩)
  | timerTick now tick drawNow =>
    have := hwall (if ⌊now⌋ ≠ s.currentTime then
      { s with currentTime := ⌊now⌋, panel := (s.panel.draw s.windows).1 } else s) _
      (by split <;> rfl) (by split <;> rfl) h
    exact ⟨this.1, .inl this.2⟩
  | resizeOffer wid width height now =>
    simp only [Session.dispatch] at h
    split at h
    · cases h; exact ⟨.inl rfl, .inl rfl⟩
    · split at h
      · exact ⟨(hwall _ _ rfl rfl h).1, .inl (hwall _ _ rfl rfl h).2⟩
      · cases h; exact ⟨.inl rfl, .inl rfl⟩
  | mouseEvent m now =>
    simp only [Session.dispatch] at h
    split at h
    · obtain ⟨⟨p, eff⟩, -, hr⟩ := map_eq_ok.mp h
      simp only [Prod.mk.injEq] at hr
      obtain ⟨rfl, -⟩ := hr
      exact ⟨.inl rfl, .inl rfl⟩
    · split at h
      · exact ⟨(hwall _ _ rfl rfl h).1, .inl (hwall _ _ rfl rfl h).2⟩
      · cases h; exact ⟨.inl rfl, .inl rfl⟩
  | reloadWallpaper image now =>
    cases image with
    | error e => cases h
    | ok image =>
      rw [dispatch_reloadWallpaper_ok] at h
      exact ⟨(hwall _ _ rfl rfl h).1, .inl (hwall _ _ rfl rfl h).2⟩
  | sessionEnd | notify _ | welcome _ _ | focusChange _ _ | resetZorder | menuActivate _ _ =>
    cases h; exact ⟨.inl rfl, .inl rfl⟩

/-- A wallpaper handler other than a mouse event makes no request. -/
theorem withWallpaper_effects {s s' : Session} {e : WallpaperEvent} {effects : List Effect}
    (he : ∀ m t, e ≠ .mouse m t) (h : s.withWallpaper e = .ok (s', effects)) : effects = [] := by
  obtain ⟨w, frames, hh, -⟩ := withWallpaper_eq h
  rcases WallpaperWindow.handle_effects hh with h' | ⟨m, t, rfl, -⟩
  · exact h'
  · exact absurd rfl (he m t)

/-- Where each request of a step comes from.  A key event that is not for the runner asks for
what the bindings ask for; Enter in the runner launches its text and suggestion; a mouse event
on the panel asks for what the panel asks for over `windows`; a click on the focused
wallpaper icon under the pointer launches the icon's command; a menu entry asks for what its
callback asks for.  No other message asks for anything. -/
theorem dispatch_effect_cases {env : Env} {s s' : Session} {msg : Message} {effects : List Effect}
    (h : s.dispatch env msg = .ok (s', effects)) {e : Effect} (he : e ∈ effects) :
    (∃ ev, msg = .keyEvent ev ∧
      (e ∈ launchEffects env ev ∨ ∃ w ∈ s.windowsZorder, e = .focusWindow w.wid)) ∨
    (∃ ev r, msg = .keyEvent ev ∧ s.appRunner = some r ∧ ev.wid = r.wid ∧ ev.key = 10 ∧
      r.data ≠ [] ∧
      e = .launchApp (r.data ++ r.complete) (hasBit ev.modifiers Modifier.MOD_LEFT_SHIFT)) ∨
    (∃ m now, msg = .mouseEvent m now ∧ e.FromPanel s.windows) ∨
    (∃ m now i icon, msg = .mouseEvent m now ∧ m.wid = s.wallpaper.wid ∧
      m.command = MouseEvent.CLICK ∧
      iconUnderMouse s.wallpaper.height m.newX m.newY s.wallpaper.icons = some i ∧
      s.wallpaper.focusedIcon = some i ∧ s.wallpaper.icons[i]? = some icon ∧
      e = .launchApp icon.data false) ∨
    (∃ menu path, msg = .menuActivate menu path ∧ e ∈ menu.activate path) := by
  have hwall : ∀ {s₁ : Session} {e' : WallpaperEvent}, (∀ m t, e' ≠ .mouse m t) →
      s₁.withWallpaper e' = .ok (s', effects) → False := fun he' h' => by
    rw [withWallpaper_effects he' h'] at he; cases he
  cases msg with
  | keyEvent ev =>
    rcases keyEvent_runner_cases h with ⟨r, r', hr, hwid, hk, -⟩ | ⟨-, hb⟩
    · rcases ApplicationRunnerWindow.keyAction_effects hk with rfl | ⟨hkey, hdata, -, rfl⟩
      · cases he
      · exact .inr (.inl ⟨ev, r, rfl, hr, hwid, hkey, hdata, List.mem_singleton.mp he⟩)
    · exact .inl ⟨ev, rfl, bindings_effects hb e he⟩
  | mouseEvent m now =>
    simp only [Session.dispatch] at h
    split at h
    · obtain ⟨⟨p, eff⟩, hp, hr⟩ := map_eq_ok.mp h
      simp only [Prod.mk.injEq] at hr
      obtain ⟨-, rfl⟩ := hr
      exact .inr (.inr (.inl ⟨m, now, rfl, PanelWindow.mouseAction_effects hp e he⟩))
    · split at h
      · next hwid =>
        obtain ⟨w, frames, hh, -⟩ := withWallpaper_eq h
        rcases WallpaperWindow.mouseAction_effects hh with rfl | ⟨i, icon, hc, hu, hf, hi, rfl⟩
        · cases he
        · exact .inr (.inr (.inr (.inl ⟨m, now, i, icon, rfl, hwid, hc, hu, hf, hi,
            List.mem_singleton.mp he⟩)))
      · cases h; cases he
  | timerTick now tick drawNow => exact (hwall (fun _ _ => by simp) h).elim
  | resizeOffer wid width height now =>
    simp only [Session.dispatch] at h
    split at h
    · cases h; cases he
    · split at h
      · exact (hwall (fun _ _ => by simp) h).elim
      · cases h; cases he
  | reloadWallpaper image now =>
    cases image with
    | error e => cases h
    | ok image =>
      rw [dispatch_reloadWallpaper_ok] at h
      exact (hwall (fun _ _ => by simp) h).elim
  | menuActivate menu path =>
    cases h; exact .inr (.inr (.inr (.inr ⟨menu, path, rfl, he⟩)))
  | sessionEnd | notify _ | welcome _ _ | focusChange _ _ | resetZorder => cases h; cases he

/-- The open runner, if any, is a prompt that key events reached from its opening. -/
def RunnerReachable (s : Session) : Prop := ∀ r, s.appRunner = some r → r.Reachable

theorem RunnerReachable.dispatch {env : Env} {s s' : Session} {msg : Message} {effects : List Effect}
    (hs : s.RunnerReachable) (h : s.dispatch env msg = .ok (s', effects)) : s'.RunnerReachable := by
  intro r hr
  rcases (dispatch_frame h).2 with he | ⟨ev, r₀, -, hr₀, hk⟩ | ⟨-, bins, -, he⟩
  · exact hs r (he ▸ hr)
  · exact .step (hs r₀ hr₀) (hr ▸ hk)
  · rw [he] at hr; cases hr; exact .init _ _

theorem Reachable.runnerReachable {s : Session} (hs : s.Reachable) : s.RunnerReachable := by
  induction hs with
  | start => intro r hr; cases hr
  | step _ h ih => exact ih.dispatch h

/-- The programs the loop may start while it handles `msg` in the state `s`.  Ctrl+Alt+T
runs the terminal.  A click on the focused wallpaper icon under the pointer runs that icon's
command.  Enter in the runner runs its text, or the least name on the search path that the
text starts, in a terminal when Shift is held.  An entry of the applications menu runs its
command. -/
def MayLaunch (s : Session) (msg : Message) (item : List Char) (terminal : Bool) : Prop :=
  (∃ ev, msg = .keyEvent ev ∧ hasBit ev.modifiers Modifier.MOD_LEFT_CTRL ∧
      hasBit ev.modifiers Modifier.MOD_LEFT_ALT ∧ ev.keycode = 't'.toNat ∧
      ev.action = KeyAction.ACTION_DOWN ∧ item = "terminal".toList ∧ terminal = false) ∨
    (∃ m now i icon, msg = .mouseEvent m now ∧ m.wid = s.wallpaper.wid ∧
      m.command = MouseEvent.CLICK ∧
      iconUnderMouse s.wallpaper.height m.newX m.newY s.wallpaper.icons = some i ∧
      s.wallpaper.focusedIcon = some i ∧ s.wallpaper.icons[i]? = some icon ∧
      item = icon.data ∧ terminal = false) ∨
    (∃ ev r, msg = .keyEvent ev ∧ s.appRunner = some r ∧ ev.wid = r.wid ∧ ev.key = 10 ∧
      r.data ≠ [] ∧ terminal = hasBit ev.modifiers Modifier.MOD_LEFT_SHIFT ∧
      (item = r.data ∨ IsLeast (ApplicationRunnerWindow.matchingNames r.bins r.data) item)) ∨
    (∃ path, msg = .menuActivate .applications path ∧
      MenuEntry.entryAt ApplicationsMenuWidget.menuEntries path = some (.action (.launchApp item)) ∧
      terminal = false)

/-- In every reachable state, every program the loop starts while it handles a message is
one it may start: the terminal, the command of the focused icon under a click, the runner's
text, completed or not, or the command of an applications-menu entry. -/
theorem loop_launches_only {env : Env} {s s' : Session} {msg : Message} {effects : List Effect}
    (hs : s.Reachable) (h : s.dispatch env msg = .ok (s', effects)) :
    ∀ item terminal, Effect.launchApp item terminal ∈ effects → s.MayLaunch msg item terminal := by
  intro item terminal hl
  rcases dispatch_effect_cases h hl with ⟨ev, rfl, hl | ⟨w, -, ⟨⟩⟩⟩ |
    ⟨ev, r, rfl, hr, hwid, hkey, hdata, hl⟩ | ⟨m, now, rfl, hp⟩ |
    ⟨m, now, i, icon, rfl, hwid, hc, hu, hf, hi, hl⟩ | ⟨menu, path, rfl, hl⟩
  · rcases launchEffects_cases hl with hl | ⟨hc, ha, hk, hd, hl⟩
    · cases hl
    · rw [Effect.launchApp.injEq] at hl
      exact .inl ⟨ev, rfl, hc, ha, hk, hd, hl⟩
  · rw [Effect.launchApp.injEq] at hl
    obtain ⟨rfl, rfl⟩ := hl
    refine .inr (.inr (.inl ⟨ev, r, rfl, hr, hwid, hkey, hdata, rfl, ?_⟩))
    rcases (hs.runnerReachable r hr).completionInv with ⟨-, hc⟩ | ⟨-, hleast⟩
    · exact .inl (by rw [hc, List.append_nil])
    · exact .inr hleast
  · exact hp.elim
  · rw [Effect.launchApp.injEq] at hl
    exact .inr (.inl ⟨m, now, i, icon, rfl, hwid, hc, hu, hf, hi, hl⟩)
  · obtain ⟨rfl, he, ht⟩ := PanelMenu.activate_launch hl
    exact .inr (.inr (.inr ⟨path, rfl, he, ht⟩))

/-- The applications menu's "Terminal" entry launches the terminal. -/
theorem loop_launches_only_menuTerminal :
    twoWindows.Reachable ∧
    twoWindows.dispatch ⟨false, 9, .ok []⟩ (.menuActivate .applications [0, 3]) =
      .ok (twoWindows, [.launchApp "terminal".toList false]) ∧
    twoWindows.MayLaunch (.menuActivate .applications [0, 3]) "terminal".toList false :=
  have h : twoWindows.dispatch ⟨false, 9, .ok []⟩ (.menuActivate .applications [0, 3]) =
      .ok (twoWindows, [.launchApp "terminal".toList false]) := rfl
  ⟨twoWindows_reachable, h, loop_launches_only twoWindows_reachable h _ _ (List.mem_singleton_self _)⟩

end Session

/-! ## The desktop icons -/

/-- What an icon keeps of its line of the desktop file: the label and the command. -/
def WallpaperIcon.entry (icon : WallpaperIcon) : List Char × List Char := (icon.name, icon.data)

/-- The icon `load_icons` builds from an entry. -/
def DesktopEntry.toIcon (e : DesktopEntry) : WallpaperIcon := WallpaperIcon.init e.name e.data

namespace WallpaperWindow

theorem drawIcons_entry (clips : List AnimationKey) (w : WallpaperWindow) :
    (w.drawIcons clips).map WallpaperIcon.entry = w.icons.map WallpaperIcon.entry :=
  List.ext_getElem? fun j => by
    simpa only [List.getElem?_map] using
      placeIcons_map WallpaperIcon.entry (fun _ _ _ => rfl) _ _ _ _ j

theorem draw_entry {clips : List AnimationKey} {now : ℚ} {w w' : WallpaperWindow} {f : Frame}
    (hd : w.draw clips now = .ok (w', f)) :
    w'.icons.map WallpaperIcon.entry = w.icons.map WallpaperIcon.entry := by
  obtain ⟨-, hw', -⟩ := draw_spec hd
  rw [hw']
  exact drawIcons_entry clips w

/-- No event changes an icon's label or command. -/
theorem handle_keeps_entries {e : WallpaperEvent} {w w' : WallpaperWindow} {frames : List Frame}
    {effects : List Effect} (h : w.handle e = .ok (w', frames, effects)) :
    w'.icons.map WallpaperIcon.entry = w.icons.map WallpaperIcon.entry := by
  rcases handle_cases h with ⟨now, f, -, hd, -⟩ | ⟨width, height, now, f, -, hd, -⟩ |
    ⟨image, now, -, rfl, -⟩ | ⟨msg, now, -, hm⟩ | ⟨tick, drawNow, -, -, rfl, -⟩ |
    ⟨tick, drawNow, f, -, ha, -⟩
  · exact draw_entry hd
  · exact (draw_entry hd).trans rfl
  · rfl
  · rcases mouseAction_cases hm with ⟨under, clips, f, -, hd, -, -⟩ | ⟨i, -, rfl, -⟩ | ⟨rfl, -⟩
    · exact (draw_entry hd).trans
        (map_foldl_focus WallpaperIcon.entry (fun _ => ⟨rfl, rfl⟩) _ w.icons)
    · rfl
    · rfl
  · rfl
  · obtain ⟨w₂, hd, rfl⟩ := animate_spec ha
    exact (draw_entry hd : w₂.icons.map _ = _)

end WallpaperWindow

namespace Session

theorem dispatch_keeps_entries {env : Env} {s s' : Session} {msg : Message} {effects : List Effect}
    (h : s.dispatch env msg = .ok (s', effects)) :
    s'.wallpaper.icons.map WallpaperIcon.entry = s.wallpaper.icons.map WallpaperIcon.entry := by
  rcases (dispatch_frame h).1 with hw | ⟨e, frames, effs, hh⟩
  · rw [hw]
  · exact WallpaperWindow.handle_keeps_entries hh

/-- Every state a run reaches from a reachable state is reachable, with the icons' labels
and commands it started with. -/
theorem mainLoop_keeps_entries :
    ∀ {s s' : Session} {msgs : List (Env × Message)} {effects : List Effect}, s.Reachable →
      s.mainLoop msgs = .ok (s', effects) →
      s'.Reachable ∧ s'.wallpaper.icons.map WallpaperIcon.entry = s.wallpaper.icons.map WallpaperIcon.entry
  | s, s', [], effects, hs, h => by cases h; exact ⟨hs, rfl⟩
  | s, s', (_, _) :: _, effects, hs, h => by
    rcases mainLoop_cons_cases h with ⟨-, rfl, -⟩ | ⟨s₁, e₁, e₂, -, h₁, h₂, -⟩
    · exact ⟨hs, rfl⟩
    · obtain ⟨hr, he⟩ := mainLoop_keeps_entries (.step hs h₁) h₂
      exact ⟨hr, he.trans (dispatch_keeps_entries h₁)⟩

/-- From a startup whose wallpaper read its icons from a desktop file, after any run of the
loop the icons' labels and commands are those of the file's lines, in order; and a click on
the focused wallpaper icon under the pointer runs the second field of that icon's line of
the file, and makes no other request. -/
theorem desktop_click_runs_line {content : List Char} {es : List DesktopEntry}
    (hload : loadIcons content = .ok es) {wid : Nat} {width height : Int} {background : Nat}
    {now : ℚ} {w : WallpaperWindow} {f : Frame}
    (hdraw : (WallpaperWindow.init wid width height background (es.map DesktopEntry.toIcon)).draw
      [] now = .ok (w, f))
    {panelWid : Nat} {displayWidth : Int} {reading : UInt32} {zorder : List WindowAdvertise}
    {now₀ : ℚ} {msgs : List (Env × Message)} {s : Session} {effects : List Effect}
    (hrun : (startup panelWid displayWidth reading w zorder now₀).mainLoop msgs = .ok (s, effects))
    {m : WindowMouseEvent} (hpanel : m.wid ≠ s.panel.wid) (hwid : m.wid = s.wallpaper.wid)
    (hclick : m.command = MouseEvent.CLICK) (hy : m.newY < s.wallpaper.height) {i : Nat}
    (hunder : iconUnderMouse s.wallpaper.height m.newX m.newY s.wallpaper.icons = some i)
    (hfocus : s.wallpaper.focusedIcon = some i) (env' : Env) (t : ℚ) :
    s.wallpaper.icons.map WallpaperIcon.entry = es.map (fun e => (e.name, e.data)) ∧
    ∃ line image command label rest s', (fileLines content)[i]? = some line ∧
      (pyStrip line).splitOn ',' = image :: command :: label :: rest ∧
      s.dispatch env' (.mouseEvent m t) = .ok (s', [.launchApp command false]) := by
  have hw : w.Reachable := .step (.init wid width height background (es.map DesktopEntry.toIcon)
      (by simp [DesktopEntry.toIcon, WallpaperIcon.init]))
    (show WallpaperWindow.handle (.draw now) _ = .ok (w, [f], []) by rw [WallpaperWindow.handle, hdraw]; rfl)
  obtain ⟨-, hentries⟩ := mainLoop_keeps_entries (.start _ _ _ _ _ hw) hrun
  have hfile : s.wallpaper.icons.map WallpaperIcon.entry = es.map fun e => (e.name, e.data) := by
    rw [hentries, show (startup panelWid displayWidth reading w zorder now₀).wallpaper = w from rfl,
      WallpaperWindow.draw_entry hdraw]
    simp [WallpaperWindow.init, DesktopEntry.toIcon, WallpaperIcon.entry, WallpaperIcon.init]
  obtain ⟨icon, hicon⟩ : ∃ icon, s.wallpaper.icons[i]? = some icon :=
    ⟨_, List.getElem?_eq_getElem (iconUnderMouseFrom_lt _ _ _ _ _ hunder)⟩
  have he := congrArg (·[i]?) hfile
  simp only [List.getElem?_map, hicon, Option.map_some'] at he
  obtain ⟨e, hes, he⟩ := Option.map_eq_some'.mp he.symm
  simp only [WallpaperIcon.entry, Prod.mk.injEq] at he
  obtain ⟨line, rest, hline, hsplit⟩ := loadIcons_getElem? hload hes
  refine ⟨hfile, line, e.icon, e.data, e.name, rest,
    { s with wallpaper := s.wallpaper.addAnimation i t }, hline, hsplit, ?_⟩
  simp only [Session.dispatch, if_neg hpanel, if_pos hwid, withWallpaper, WallpaperWindow.handle,
    WallpaperWindow.mouseAction_click hclick hy hunder hfocus hicon, ← he.2]
  rfl

/-- A desktop file with one line, the terminal's. -/
def terminalDesktop : List Char := "terminal,terminal,Terminal\n".toList

/-- The entry `load_icons` reads from it. -/
def terminalEntry : DesktopEntry := ⟨"terminal".toList, "Terminal".toList, "terminal".toList⟩

/-- The wallpaper of that file after its first draw: the icon heads the first column. -/
def terminalWallpaper : WallpaperWindow :=
  WallpaperWindow.init 1 1024 768 0 [{ terminalEntry.toIcon with x := 20, y := 50 }]

/-- The loop once the pointer has moved onto the icon. -/
def terminalHovered : Session :=
  { startup 0 1024 0 terminalWallpaper [] 0 with
    wallpaper := { terminalWallpaper with
      icons := [{ terminalEntry.toIcon with x := 20, y := 50, hilighted := true }]
      focusedIcon := some 0
      focusLog := [.enter 0] } }

theorem desktop_click_runs_line_terminal :
    loadIcons terminalDesktop = .ok [terminalEntry] ∧
    (WallpaperWindow.init 1 1024 768 0 ([terminalEntry].map DesktopEntry.toIcon)).draw [] 0 =
      .ok (terminalWallpaper, ⟨none, 0, [0]⟩) ∧
    (startup 0 1024 0 terminalWallpaper [] 0).mainLoop [(⟨false, 9, .ok []⟩, .mouseEvent ⟨1, 60, 70, 0, 1⟩ 0)] =
      .ok (terminalHovered, []) ∧
    1 ≠ terminalHovered.panel.wid ∧ 1 = terminalHovered.wallpaper.wid ∧
    (70 : Int) < terminalHovered.wallpaper.height ∧
    iconUnderMouse terminalHovered.wallpaper.height 60 70 terminalHovered.wallpaper.icons = some 0 ∧
    terminalHovered.wallpaper.focusedIcon = some 0 ∧
    terminalHovered.wallpaper.icons.map WallpaperIcon.entry =
      [terminalEntry].map (fun e => (e.name, e.data)) ∧
    ∃ line image command label rest s', (fileLines terminalDesktop)[0]? = some line ∧
      (pyStrip line).splitOn ',' = image :: command :: label :: rest ∧
      terminalHovered.dispatch ⟨false, 9, .ok []⟩ (.mouseEvent ⟨1, 60, 70, 0, MouseEvent.CLICK⟩ 0) =
        .ok (s', [.launchApp command false]) :=
  have hload : loadIcons terminalDesktop = .ok [terminalEntry] := rfl
  have hdraw : (WallpaperWindow.init 1 1024 768 0 ([terminalEntry].map DesktopEntry.toIcon)).draw [] 0 =
      .ok (terminalWallpaper, ⟨none, 0, [0]⟩) := rfl
  have hrun : (startup 0 1024 0 terminalWallpaper [] 0).mainLoop
      [(⟨false, 9, .ok []⟩, .mouseEvent ⟨1, 60, 70, 0, 1⟩ 0)] = .ok (terminalHovered, []) := rfl
  ⟨hload, hdraw, hrun, by decide, rfl, by decide, rfl, rfl,
    desktop_click_runs_line hload hdraw hrun
      (show (⟨1, 60, 70, 0, MouseEvent.CLICK⟩ : WindowMouseEvent).wid ≠ terminalHovered.panel.wid by
        decide) rfl rfl (by decide) rfl rfl _ _⟩

end Session

end ToaruPanel
