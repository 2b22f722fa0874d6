import ToaruPanel.Session

/-!
# Alt-tab

Alt+Tab and Alt+Shift+Tab walk `new_focused` through `windows_zorder`, one way or the other,
and the overlay shows the window selected; releasing Alt focuses `windows_zorder[new_focused]`.

Only the key events that reach the bindings count: while the application runner is open,
the loop hands it the key events addressed to its window, Alt+Tab included
(`alt_tab_taken_by_open_runner`).  `bindingKeys` lists the key events of a run that reach
the bindings, each judged in the state it arrives in, and `altTabPresses` the directions of
the Alt+Tab presses among them.  Every other message leaves `windows_zorder` and the alt-tab
state alone, apart from a window-list notification (`dispatch_tab_frame`).  So along a run
from an idle state with no notification and no Alt release reaching the bindings, with any
other messages between the presses, the loop is tabbing onto `(n - 1 + d₁ + … + dₖ) mod n`
with the one overlay the first press made open, and the release then focuses that window,
closes the overlay and goes back to idle (`alt_tab_wraps_outside_runner`).  The proof carries
`TabView`, the alt-tab state after the presses so far, over the run: one lemma per message
(`tabView_dispatch`), then induction over the run (`mainLoop_tabView`).

`finish_alt_tab` indexes `windows_zorder` with the `new_focused` of the last press, but a
window-list notification in between rebuilds `windows_zorder`.  When the list shrank below
that index, the release raises (`alt_release_after_window_closed_raises`).  Every other
message keeps the overlay showing `windows_zorder[new_focused]` (`ShowsSelection`), so along
a run with no notification the release focuses exactly the window the overlay shows
(`alt_release_focuses_shown`).
-/

namespace ToaruPanel

namespace Session

/-! ## The selection after presses -/

/-- `wrapIndex` wraps one step past either end. -/
theorem wrapIndex_eq_emod {n x : Int} (hn : 0 < n) (hlo : -1 ≤ x) (hhi : x ≤ n) :
    wrapIndex n x = x % n := by
  unfold wrapIndex
  split
  · obtain rfl : x = -1 := by omega
    exact ((@Int.ediv_emod_unique (-1) n (n - 1) (-1) hn).mpr ⟨by ring, by omega, by omega⟩).2.symm
  · split
    · obtain rfl : x = n := by omega
      exact Int.emod_self.symm
    · exact (Int.emod_eq_of_lt (by omega) (by omega)).symm

theorem direction_cases (ev : KeyEvent) : ev.direction = 1 ∨ ev.direction = -1 := by
  unfold KeyEvent.direction; split <;> simp

/-- Tabbing onto `newFocused`, with the overlay made by the first press in front. -/
def tabState (s : Session) (newFocused : Int) : Session :=
  { s with
    tabbing := true
    newFocused := newFocused
    alttabs := ⟨{ s with newFocused := newFocused }.alttabShown, false⟩ :: s.alttabs }

theorem altTab_idle {ev : KeyEvent} {s : Session} (hN : s.windowsZorder ≠ [])
    (ht : s.tabbing = false) :
    s.altTab ev = .ok (s.tabState (wrapIndex s.windowsZorder.length
      (s.windowsZorder.length - 1 + ev.direction))) := by
  have hlen : ¬ s.windowsZorder.length < 1 := by simpa [Nat.lt_one_iff] using hN
  simp only [altTab, hlen, if_false, ht, Bool.false_eq_true]
  rfl

/-- The key event reaches the bindings. -/
def NotForRunner (s : Session) (ev : KeyEvent) : Prop :=
  ∀ r, s.appRunner = some r → ev.wid ≠ r.wid

theorem keyEvent_bindings {env : Env} {ev : KeyEvent} {s : Session} (hr : s.NotForRunner ev) :
    s.keyEvent env ev = s.bindings env ev := by
  unfold keyEvent
  split
  · next r hs => rw [if_neg (hr r hs)]
  · rfl

/-- A release while tabbing is `finish_alt_tab`. -/
theorem dispatch_release {env : Env} {ev : KeyEvent} {s : Session} (hev : ev.IsAltRelease)
    (hr : s.NotForRunner ev) (ht : s.tabbing = true) :
    s.dispatch env (.keyEvent ev) = s.finishAltTab := by
  obtain ⟨hkey, hmod, hup⟩ := hev
  have hbits : hasBit 0 Modifier.MOD_LEFT_ALT = false ∧ hasBit 0 Modifier.MOD_LEFT_CTRL = false := by
    decide
  rw [dispatch, keyEvent_bindings hr]
  simp only [bindings, openRunner, toggleOnCtrlF11, releaseAlt, pressTab, launchEffects, hmod, hup,
    ht, hkey, hbits, Bool.false_eq_true, false_and, and_false, if_false, and_self, if_true,
    List.append_nil, List.nil_append, bind, Except.bind]
  cases s.finishAltTab <;> rfl

/-- `finish_alt_tab` with the selection in range focuses the selected window and closes the
overlay in front. -/
theorem finishAltTab_of_range {s : Session} {a : AlttabWindow} {rest : List AlttabWindow}
    (h0 : 0 ≤ s.newFocused) (hlt : s.newFocused < s.windowsZorder.length) (halt : s.alttabs = a :: rest) :
    ∃ w, s.windowsZorder[s.newFocused.toNat]? = some w ∧ s.finishAltTab =
      .ok ({ s with tabbing := false, newFocused := -1, alttabs := { a with closed := true } :: rest },
        [.focusWindow w.wid]) := by
  have hk : s.newFocused.toNat < s.windowsZorder.length := by omega
  refine ⟨s.windowsZorder[s.newFocused.toNat], List.getElem?_eq_getElem hk, ?_⟩
  have hget : pyGetItem s.windowsZorder s.newFocused = .ok s.windowsZorder[s.newFocused.toNat] := by
    conv_lhs => rw [← Int.toNat_of_nonneg h0]
    exact pyGetItem_of_lt _ hk
  simp only [finishAltTab, hget, halt, bind, Except.bind, pure, Except.pure]

/-- `alt_tab` while tabbing moves the selection one step, wrapping around, and redraws the
overlay in front. -/
theorem altTab_tabbing {ev : KeyEvent} {s : Session} {a : AlttabWindow} {rest : List AlttabWindow}
    (hN : s.windowsZorder ≠ []) (ht : s.tabbing = true) (halt : s.alttabs = a :: rest) :
    s.altTab ev = .ok { s with
      newFocused := wrapIndex s.windowsZorder.length (s.newFocused + ev.direction)
      alttabs := { a with
        shown := ({ s with
          newFocused := wrapIndex s.windowsZorder.length (s.newFocused + ev.direction) }).alttabShown }
          :: rest } := by
  have hlen : ¬ s.windowsZorder.length < 1 := by simpa [Nat.lt_one_iff] using hN
  simp only [altTab, hlen, if_false, ht, if_true, halt]

/-! ## The presses of a run -/

instance (s : Session) (ev : KeyEvent) : Decidable (s.NotForRunner ev) :=
  match h : s.appRunner with
  | none => isTrue fun r hr => by rw [h] at hr; cases hr
  | some r =>
    if hw : ev.wid = r.wid then isFalse fun hn => hn r h hw
    else isTrue fun r' hr' => by rw [h] at hr'; cases hr'; exact hw

/-- The key event a message hands the bindings in the state `s`: a key event not addressed to
the open runner. -/
def keyToBindings (s : Session) : Message → List KeyEvent
  | .keyEvent ev => if s.NotForRunner ev then [ev] else []
  | _ => []

/-- The key events a run of the loop hands the bindings, in order, each judged in the state it
arrives in. -/
def bindingKeys : Session → List (Env × Message) → List KeyEvent
  | _, [] => []
  | s, (env, msg) :: msgs =>
    if s.running then
      match s.dispatch env msg with
      | .ok (s₁, _) => s.keyToBindings msg ++ bindingKeys s₁ msgs
      | .error _ => []
    else []

/-- The directions of the Alt+Tab presses a run hands the bindings. -/
def altTabPresses (s : Session) (msgs : List (Env × Message)) : List Int :=
  ((s.bindingKeys msgs).filter fun ev => decide ev.IsAltTabDown).map KeyEvent.direction

theorem bindingKeys_cons {s s₁ : Session} {env : Env} {msg : Message}
    {msgs : List (Env × Message)} {e₁ : List Effect} (hr : s.running = true)
    (h : s.dispatch env msg = .ok (s₁, e₁)) :
    s.bindingKeys ((env, msg) :: msgs) = s.keyToBindings msg ++ s₁.bindingKeys msgs := by
  simp only [bindingKeys, hr, if_true, h]

/-- The alt-tab state after Alt+Tab presses of directions `ds` from the idle state `s₀`:
`windows_zorder` as in `s₀`; idle with the overlays of `s₀` before the first press; after
it, tabbing onto `(n - 1 + d₁ + … + dₖ) mod n` with one new overlay in front, open. -/
def TabView (s₀ : Session) (ds : List Int) (s : Session) : Prop :=
  s.windowsZorder = s₀.windowsZorder ∧
    (ds = [] → s.tabbing = false ∧ s.newFocused = -1 ∧ s.alttabs = s₀.alttabs) ∧
    (ds ≠ [] → s.tabbing = true ∧
      s.newFocused = (s₀.windowsZorder.length - 1 + ds.sum) % s₀.windowsZorder.length ∧
      ∃ a, s.alttabs = a :: s₀.alttabs ∧ a.closed = false)

/-- Every message but a key event or a window-list notification leaves `windows_zorder` and
the alt-tab state alone. -/
theorem dispatch_tab_frame {env : Env} {s s' : Session} {msg : Message} {effects : List Effect}
    (hk : ∀ ev, msg ≠ .keyEvent ev) (hq : ∀ z, msg ≠ .notify z)
    (h : s.dispatch env msg = .ok (s', effects)) :
    s'.windowsZorder = s.windowsZorder ∧ s'.tabbing = s.tabbing ∧ s'.newFocused = s.newFocused ∧
      s'.alttabs = s.alttabs := by
  cases msg with
  | keyEvent ev => exact absurd rfl (hk ev)
  | notify z => exact absurd rfl (hq z)
  | timerTick now tick drawNow =>
    obtain ⟨w, -, -, rfl⟩ := withWallpaper_eq h
    split <;> exact ⟨rfl, rfl, rfl, rfl⟩
  | resizeOffer wid width height now =>
    simp only [dispatch] at h
    split at h
    · cases h; exact ⟨rfl, rfl, rfl, rfl⟩
    · split at h
      · obtain ⟨w, -, -, rfl⟩ := withWallpaper_eq h; exact ⟨rfl, rfl, rfl, rfl⟩
      · cases h; exact ⟨rfl, rfl, rfl, rfl⟩
  | mouseEvent m now =>
    simp only [dispatch] at h
    split at h
    · obtain ⟨_, -, hr⟩ := map_eq_ok.mp h
      simp only [Prod.mk.injEq] at hr
      rw [← hr.1]; exact ⟨rfl, rfl, rfl, rfl⟩
    · split at h
      · obtain ⟨w, -, -, rfl⟩ := withWallpaper_eq h; exact ⟨rfl, rfl, rfl, rfl⟩
      · cases h; exact ⟨rfl, rfl, rfl, rfl⟩
  | reloadWallpaper image now =>
    cases image with
    | error e => cases h
    | ok image =>
      rw [dispatch_reloadWallpaper_ok] at h
      obtain ⟨w, -, -, rfl⟩ := withWallpaper_eq h; exact ⟨rfl, rfl, rfl, rfl⟩
  | sessionEnd | welcome _ _ | focusChange _ _ | resetZorder | menuActivate _ _ =>
    cases h; exact ⟨rfl, rfl, rfl, rfl⟩

/-- One press moves the view one step. -/
theorem tabView_altTab {s₀ t t' : Session} {ds : List Int} {ev : KeyEvent}
    (hN : s₀.windowsZorder ≠ []) (hv : TabView s₀ ds t) (h : t.altTab ev = .ok t') :
    TabView s₀ (ds ++ [ev.direction]) t' := by
  obtain ⟨hz, hidle, htab⟩ := hv
  have hn : (0 : Int) < s₀.windowsZorder.length := by simpa [List.length_pos] using hN
  have hNt : t.windowsZorder ≠ [] := hz ▸ hN
  have hd := direction_cases ev
  refine ⟨(altTab_frame h).2.2.trans hz, fun h' => absurd h' (by simp), fun _ => ?_⟩
  by_cases hds : ds = []
  · obtain ⟨ht, -, ha⟩ := hidle hds
    rw [altTab_idle hNt ht] at h
    cases h
    subst hds
    refine ⟨rfl, ?_, _, by rw [tabState, ha], rfl⟩
    simp only [tabState, hz, List.nil_append, List.sum_cons, List.sum_nil, add_zero]
    exact wrapIndex_eq_emod hn (by omega) (by omega)
  · obtain ⟨ht, hf, a, ha, hc⟩ := htab hds
    rw [altTab_tabbing hNt ht ha] at h
    cases h
    refine ⟨ht, ?_, _, rfl, hc⟩
    have h0 := Int.emod_nonneg (s₀.windowsZorder.length - 1 + ds.sum) hn.ne'
    have hlt := Int.emod_lt_of_pos (s₀.windowsZorder.length - 1 + ds.sum) hn
    simp only [hf, hz, List.sum_append, List.sum_cons, List.sum_nil, add_zero]
    rw [wrapIndex_eq_emod hn (by omega) (by omega), Int.emod_add_emod, add_assoc]

/-- A key event that reaches the bindings and is not an Alt release moves the view by its
press, if it is one. -/
theorem tabView_bindings {s₀ t t' : Session} {ds : List Int} {env : Env} {ev : KeyEvent}
    {effects : List Effect} (hN : s₀.windowsZorder ≠ []) (hv : TabView s₀ ds t)
    (hrel : ¬ ev.IsAltRelease) (h : t.bindings env ev = .ok (t', effects)) :
    TabView s₀ (ds ++ ([ev].filter fun ev => decide ev.IsAltTabDown).map KeyEvent.direction) t' := by
  obtain ⟨t₁, t₂, focus, ho, hr, hp, -⟩ := bindings_cases h
  rw [releaseAlt_of_not _ hrel, Except.ok.injEq, Prod.mk.injEq] at hr
  obtain ⟨rfl, -⟩ := hr
  have hv₂ : TabView s₀ ds (t₁.toggleOnCtrlF11 ev) := by
    rcases openRunner_toggle_eq ho with e | e <;> rw [e] <;> exact hv
  by_cases hd : ev.IsAltTabDown
  · rw [pressTab_of_altTabDown _ hd] at hp
    simpa [hd] using tabView_altTab hN hv₂ hp
  · rw [pressTab_of_not _ hd, Except.ok.injEq] at hp
    subst hp
    simpa [hd] using hv₂

/-- One message of the loop moves the view by the press it hands the bindings, if any. -/
theorem tabView_dispatch {s₀ t t' : Session} {ds : List Int} {env : Env} {msg : Message}
    {effects : List Effect} (hN : s₀.windowsZorder ≠ []) (hv : TabView s₀ ds t)
    (hq : ∀ z, msg ≠ .notify z) (hrel : ∀ ev ∈ t.keyToBindings msg, ¬ ev.IsAltRelease)
    (h : t.dispatch env msg = .ok (t', effects)) :
    TabView s₀ (ds ++ ((t.keyToBindings msg).filter fun ev => decide ev.IsAltTabDown).map
      KeyEvent.direction) t' := by
  cases msg with
  | keyEvent ev =>
    rcases keyEvent_runner_cases h with ⟨r, r', hr, hwid, -, rfl⟩ | ⟨hnot, hb⟩
    · have hk : t.keyToBindings (.keyEvent ev) = [] := if_neg fun hn => hn r hr hwid
      rw [hk, List.filter_nil, List.map_nil, List.append_nil]
      exact hv
    · have hk : t.keyToBindings (.keyEvent ev) = [ev] := if_pos hnot
      rw [hk] at hrel ⊢
      exact tabView_bindings hN hv (hrel ev (List.mem_singleton_self _)) hb
  | notify z => exact absurd rfl (hq z)
  | _ =>
    obtain ⟨hz, ht, hf, ha⟩ := dispatch_tab_frame (fun _ => by simp) hq h
    simp only [keyToBindings, List.filter_nil, List.map_nil, List.append_nil, TabView, hz, ht, hf, ha]
    exact hv

/-- The view along a whole run. -/
theorem mainLoop_tabView {s₀ : Session} (hN : s₀.windowsZorder ≠ []) :
    ∀ {t t' : Session} {ds : List Int} {msgs : List (Env × Message)} {effects : List Effect},
      TabView s₀ ds t → (∀ m ∈ msgs, ∀ z, m.2 ≠ .notify z) →
      (∀ ev ∈ t.bindingKeys msgs, ¬ ev.IsAltRelease) → t.mainLoop msgs = .ok (t', effects) →
      TabView s₀ (ds ++ t.altTabPresses msgs) t'
  | _, _, _, [], _, hv, _, _, h => by cases h; simpa [altTabPresses, bindingKeys] using hv
  | t, t', ds, (env, msg) :: msgs, effects, hv, hq, hrel, h => by
    rcases mainLoop_cons_cases h with ⟨hoff, rfl, -⟩ | ⟨t₁, e₁, e₂, hon, h₁, h₂, -⟩
    · simpa [altTabPresses, bindingKeys, hoff] using hv
    · rw [bindingKeys_cons hon h₁] at hrel
      rw [altTabPresses, bindingKeys_cons hon h₁, List.filter_append, List.map_append,
        ← List.append_assoc]
      exact mainLoop_tabView hN
        (tabView_dispatch hN hv (hq _ (List.mem_cons_self _ _))
          (fun ev he => hrel ev (List.mem_append_left _ he)) h₁)
        (fun m hm => hq m (List.mem_cons_of_mem _ hm))
        (fun ev he => hrel ev (List.mem_append_right _ he)) h₂

/-- Alt-tab from an idle state, along any run of the loop with no window-list notification
and no Alt release reaching the bindings, whatever other messages come between the presses.
Let `d₁ … dₖ` be the directions of the Alt+Tab presses that reach the bindings (a key event
addressed to the open runner does not).  After the run `windows_zorder` is unchanged.  With
no press the loop is still idle and made no overlay.  Otherwise it is tabbing onto
`(n - 1 + d₁ + … + dₖ) mod n`, one overlay was made and it is the only one open; an Alt
release that then reaches the bindings focuses `windows_zorder[(n - 1 + d₁ + … + dₖ) mod n]`,
closes that overlay and goes back to idle.  A run cut after the `j`-th press gives the
state after it. -/
theorem alt_tab_wraps_outside_runner {s s' : Session} {msgs : List (Env × Message)}
    {effects : List Effect} (hs : s.Reachable) (hidle : s.tabbing = false)
    (hN : s.windowsZorder ≠ []) (hq : ∀ m ∈ msgs, ∀ z, m.2 ≠ .notify z)
    (hrel : ∀ ev ∈ s.bindingKeys msgs, ¬ ev.IsAltRelease)
    (hrun : s.mainLoop msgs = .ok (s', effects)) :
    s'.windowsZorder = s.windowsZorder ∧
    (s.altTabPresses msgs = [] →
      s'.tabbing = false ∧ s'.newFocused = -1 ∧ s'.alttabs = s.alttabs) ∧
    (s.altTabPresses msgs ≠ [] →
      s'.tabbing = true ∧
      s'.newFocused = (s.windowsZorder.length - 1 + (s.altTabPresses msgs).sum) %
        s.windowsZorder.length ∧
      s'.alttabs.length = s.alttabs.length + 1 ∧ (s'.alttabs.filter (!·.closed)).length = 1 ∧
      ∀ (env : Env) (ev : KeyEvent), ev.IsAltRelease → s'.NotForRunner ev → ∃ s'' w,
        s.windowsZorder[((s.windowsZorder.length - 1 + (s.altTabPresses msgs).sum) %
          s.windowsZorder.length).toNat]? = some w ∧
        s'.dispatch env (.keyEvent ev) = .ok (s'', [.focusWindow w.wid]) ∧
        s''.tabbing = false ∧ s''.newFocused = -1 ∧ s''.alttabs.length = s.alttabs.length + 1 ∧
        (s''.alttabs.filter (!·.closed)).length = 0) := by
  have hclosed : s.alttabs.filter (!·.closed) = [] := by
    simpa [List.filter_eq_nil_iff] using (hs.inv.idle hidle).2
  have hn : (0 : Int) < s.windowsZorder.length := by simpa [List.length_pos] using hN
  obtain ⟨hz, hidle', htab⟩ := mainLoop_tabView hN
    (⟨rfl, fun _ => ⟨hidle, (hs.inv.idle hidle).1, rfl⟩, fun h => absurd rfl h⟩ : TabView s [] s)
    hq hrel hrun
  rw [List.nil_append] at hidle' htab
  refine ⟨hz, hidle', fun hne => ?_⟩
  obtain ⟨ht, hf, a, ha, hc⟩ := htab hne
  have h0 := Int.emod_nonneg (s.windowsZorder.length - 1 + (s.altTabPresses msgs).sum) hn.ne'
  have hlt := Int.emod_lt_of_pos (s.windowsZorder.length - 1 + (s.altTabPresses msgs).sum) hn
  refine ⟨ht, hf, by simp [ha], by simp [ha, hc, hclosed], fun env ev hev hr => ?_⟩
  obtain ⟨w, hw, hfin⟩ := finishAltTab_of_range (hf ▸ h0) (by rw [hf, hz]; exact hlt) ha
  rw [hf, hz] at hw
  exact ⟨_, w, hw, (dispatch_release hev hr ht).trans hfin, rfl, rfl, by simp [ha],
    by simp [hclosed]⟩

/-- Alt+Tab, from the panel's window. -/
def altTabKey : KeyEvent := ⟨0, 9, 9, Modifier.MOD_LEFT_ALT, KeyAction.ACTION_DOWN⟩

/-- Alt+Shift+Tab, from the panel's window. -/
def altShiftTabKey : KeyEvent :=
  ⟨0, 9, 9, Modifier.MOD_LEFT_ALT ||| Modifier.MOD_LEFT_SHIFT, KeyAction.ACTION_DOWN⟩

/-- Alt released, from the panel's window. -/
def altReleaseKey : KeyEvent := ⟨0, Keycode.LEFT_ALT, 0, 0, KeyAction.ACTION_UP⟩

/-- Startup over three windows. -/
def threeWindows : Session :=
  startup 0 1024 0 shippedWallpaper [⟨3, "a".toList, [], 0⟩, ⟨4, "b".toList, [], 0⟩, ⟨5, "c".toList, [], 1⟩] 0

theorem threeWindows_reachable : threeWindows.Reachable :=
  .start 0 1024 0 _ 0 (.init 1 1024 768 0 _ (by simp))

/-- Alt+Tab, a clock tick, Alt+Shift+Tab, a pointer move over the window list, a key typed
into window `3`, and Alt+Tab again. -/
def pressRun : List (Env × Message) :=
  [.keyEvent altTabKey, .timerTick 0 0 0, .keyEvent altShiftTabKey, .mouseEvent ⟨0, 150, 10, 0, 1⟩ 0,
    .keyEvent ⟨3, 97, 97, 0, KeyAction.ACTION_DOWN⟩, .keyEvent altTabKey].map (⟨false, 9, .ok []⟩, ·)

theorem alt_tab_wraps_outside_runner_threeWindows :
    ∃ s' effects, threeWindows.Reachable ∧ threeWindows.tabbing = false ∧
    threeWindows.windowsZorder ≠ [] ∧ (∀ m ∈ pressRun, ∀ z, m.2 ≠ .notify z) ∧
    (∀ ev ∈ threeWindows.bindingKeys pressRun, ¬ ev.IsAltRelease) ∧
    threeWindows.mainLoop pressRun = .ok (s', effects) ∧ threeWindows.altTabPresses pressRun = [-1, 1, -1] ∧
    (s'.windowsZorder = threeWindows.windowsZorder ∧
    (threeWindows.altTabPresses pressRun = [] →
      s'.tabbing = false ∧ s'.newFocused = -1 ∧ s'.alttabs = threeWindows.alttabs) ∧
    (threeWindows.altTabPresses pressRun ≠ [] →
      s'.tabbing = true ∧
      s'.newFocused = (threeWindows.windowsZorder.length - 1 +
        (threeWindows.altTabPresses pressRun).sum) % threeWindows.windowsZorder.length ∧
      s'.alttabs.length = threeWindows.alttabs.length + 1 ∧ (s'.alttabs.filter (!·.closed)).length = 1 ∧
      ∀ (env : Env) (ev : KeyEvent), ev.IsAltRelease → s'.NotForRunner ev → ∃ s'' w,
        threeWindows.windowsZorder[((threeWindows.windowsZorder.length - 1 +
          (threeWindows.altTabPresses pressRun).sum) % threeWindows.windowsZorder.length).toNat]? =
            some w ∧
        s'.dispatch env (.keyEvent ev) = .ok (s'', [.focusWindow w.wid]) ∧
        s''.tabbing = false ∧ s''.newFocused = -1 ∧
        s''.alttabs.length = threeWindows.alttabs.length + 1 ∧
        (s''.alttabs.filter (!·.closed)).length = 0)) :=
  have hq : ∀ m ∈ pressRun, ∀ z, m.2 ≠ .notify z := by simp [pressRun]
  have hrel : ∀ ev ∈ threeWindows.bindingKeys pressRun, ¬ ev.IsAltRelease := by decide
  ⟨_, _, threeWindows_reachable, rfl, by decide, hq, hrel, rfl, by decide,
    alt_tab_wraps_outside_runner threeWindows_reachable rfl (by decide) hq hrel rfl⟩

/-! ## Alt+Tab while the runner is open -/

/-- Startup over one window. -/
def oneWindow : Session := startup 0 1024 0 shippedWallpaper [⟨3, "a".toList, [], 1⟩] 0

/-- Alt+F2 opens the runner as window `7`. -/
def runnerOpen : Session := { oneWindow with appRunner := some (ApplicationRunnerWindow.init 7 []) }

theorem runnerOpen_reachable : runnerOpen.Reachable :=
  .step (.start 0 1024 0 _ 0 (.init 1 1024 768 0 _ (by simp)))
    (rfl : oneWindow.dispatch ⟨false, 7, .ok []⟩
      (.keyEvent ⟨0, Keycode.F2, 0, Modifier.MOD_LEFT_ALT, KeyAction.ACTION_DOWN⟩) = .ok (runnerOpen, []))

/-- With the runner open and holding the keyboard, an Alt+Tab press goes to the runner: the
loop stays idle. -/
theorem alt_tab_taken_by_open_runner :
    runnerOpen.Reachable ∧ runnerOpen.running = true ∧ runnerOpen.tabbing = false ∧
    runnerOpen.newFocused = -1 ∧ runnerOpen.windowsZorder.length = 1 ∧
    KeyEvent.IsAltTabDown ⟨7, 9, 9, Modifier.MOD_LEFT_ALT, KeyAction.ACTION_DOWN⟩ ∧
    ∃ s' effects, runnerOpen.dispatchAll ⟨false, 9, .ok []⟩
      [.keyEvent ⟨7, 9, 9, Modifier.MOD_LEFT_ALT, KeyAction.ACTION_DOWN⟩] = .ok (s', effects) ∧
      s'.tabbing = false :=
  ⟨runnerOpen_reachable, rfl, rfl, rfl, rfl, by decide, _, _, rfl, rfl⟩

/-! ## A notification between the press and the release -/

/-- Alt+Tab over three windows selects the middle one; a notification then leaves one window
open, and the release indexes past the end of the new list. -/
theorem alt_release_after_window_closed_raises :
    threeWindows.dispatchAll ⟨false, 9, .ok []⟩
      [.keyEvent altTabKey, .notify [⟨3, "a".toList, [], 1⟩], .keyEvent altReleaseKey] =
        .error "IndexError: list index out of range" := rfl

/-! ## With no notification, the release focuses what the overlay shows -/

/-- While tabbing, the selection is in range and the overlay in front shows it. -/
def ShowsSelection (s : Session) : Prop :=
  s.tabbing = true → 0 ≤ s.newFocused ∧ s.newFocused < s.windowsZorder.length ∧
    ∃ a rest, s.alttabs = a :: rest ∧ a.shown = s.alttabShown

/-- `wrapIndex` lands in range from anywhere. -/
theorem wrapIndex_range {n : Int} (hn : 0 < n) (x : Int) : 0 ≤ wrapIndex n x ∧ wrapIndex n x < n := by
  unfold wrapIndex
  split_ifs <;> omega

theorem showsSelection_altTab {ev : KeyEvent} {s s' : Session} (hq : s.ShowsSelection)
    (h : s.altTab ev = .ok s') : s'.ShowsSelection := by
  unfold altTab at h
  split at h
  · cases h; exact hq
  · next hlen =>
    have hr : ∀ x, 0 ≤ wrapIndex s.windowsZorder.length x ∧
        wrapIndex s.windowsZorder.length x < s.windowsZorder.length := wrapIndex_range (by omega)
    cases ht : s.tabbing
    · simp only [ht, Bool.false_eq_true, if_false, Except.ok.injEq] at h
      subst h
      exact fun _ => ⟨(hr _).1, (hr _).2, _, _, rfl, rfl⟩
    · obtain ⟨-, -, a, rest, halt, -⟩ := hq ht
      simp only [ht, if_true, halt, Except.ok.injEq] at h
      subst h
      exact fun _ => ⟨(hr _).1, (hr _).2, _, _, rfl, rfl⟩

theorem showsSelection_bindings {env : Env} {ev : KeyEvent} {s s' : Session}
    {effects : List Effect} (hq : s.ShowsSelection) (h : s.bindings env ev = .ok (s', effects)) :
    s'.ShowsSelection := by
  obtain ⟨s₁, s₂, focus, ho, hr, hp, -⟩ := bindings_cases h
  have h₂ : s₂.ShowsSelection := by
    rcases releaseAlt_cases hr with ⟨-, -, hf⟩ | ⟨rfl, -⟩
    · obtain ⟨-, -, -, -, -, rfl, -⟩ := finishAltTab_cases hf
      exact fun ht => absurd ht (by simp)
    · rcases openRunner_toggle_eq ho with e | e <;> rw [e] <;> exact hq
  rcases pressTab_cases hp with ha | rfl
  · exact showsSelection_altTab h₂ ha
  · exact h₂

/-- Every message but a window-list notification keeps the overlay showing the selection. -/
theorem showsSelection_dispatch {env : Env} {s s' : Session} {msg : Message}
    {effects : List Effect} (hq : s.ShowsSelection) (hmsg : ∀ z, msg ≠ .notify z)
    (h : s.dispatch env msg = .ok (s', effects)) : s'.ShowsSelection := by
  cases msg with
  | keyEvent ev =>
    rcases keyEvent_runner_cases h with ⟨r, r', -, -, -, rfl⟩ | ⟨-, h⟩
    · exact hq
    · exact showsSelection_bindings hq h
  | notify zorder => exact absurd rfl (hmsg zorder)
  | _ =>
    obtain ⟨hz, ht, hf, ha⟩ := dispatch_tab_frame (fun _ => by simp) hmsg h
    simp only [ShowsSelection, alttabShown, hz, ht, hf, ha]
    exact hq

theorem mainLoop_showsSelection :
    ∀ {s s' : Session} {msgs : List (Env × Message)} {effects : List Effect}, s.ShowsSelection →
      (∀ m ∈ msgs, ∀ z, m.2 ≠ .notify z) → s.mainLoop msgs = .ok (s', effects) →
      s'.ShowsSelection
  | _, _, [], _, hq, _, h => by cases h; exact hq
  | _, _, (_, _) :: _, _, hq, hm, h => by
    rcases mainLoop_cons_cases h with ⟨-, rfl, -⟩ | ⟨s₁, e₁, e₂, -, h₁, h₂, -⟩
    · exact hq
    · exact mainLoop_showsSelection (showsSelection_dispatch hq (hm _ (List.mem_cons_self _ _)) h₁)
        (fun m hm' => hm m (List.mem_cons_of_mem _ hm')) h₂

/-- The switcher focuses what it shows: along any run of the loop from an idle state in
which no window-list notification arrives, while tabbing the selection is in range of
`windows_zorder`, the overlay shows `windows_zorder[new_focused]`, and an Alt release that
reaches the bindings focuses exactly that window and ends tabbing. -/
theorem alt_release_focuses_shown {s s' : Session} {msgs : List (Env × Message)}
    {effects : List Effect} (hidle : s.tabbing = false) (hq : ∀ m ∈ msgs, ∀ z, m.2 ≠ .notify z)
    (hrun : s.mainLoop msgs = .ok (s', effects)) (htab : s'.tabbing = true) :
    0 ≤ s'.newFocused ∧ s'.newFocused < s'.windowsZorder.length ∧
    ∃ a rest w, s'.alttabs = a :: rest ∧ a.shown = some w ∧
      s'.windowsZorder[s'.newFocused.toNat]? = some w ∧
      ∀ (env' : Env) (ev : KeyEvent), ev.IsAltRelease → s'.NotForRunner ev →
        ∃ s'', s'.dispatch env' (.keyEvent ev) = .ok (s'', [.focusWindow w.wid]) ∧
          s''.tabbing = false := by
  have hsel := mainLoop_showsSelection (fun h => absurd (hidle.symm.trans h) (by simp)) hq hrun
  obtain ⟨h0, hlt, a, rest, halt, hshown⟩ := hsel htab
  obtain ⟨w, hw, hfin⟩ := finishAltTab_of_range h0 hlt halt
  refine ⟨h0, hlt, a, rest, w, halt, ?_, hw, fun env' ev hev hr => ⟨_, (dispatch_release hev hr htab).trans hfin, rfl⟩⟩
  rw [hshown, alttabShown, if_pos ⟨h0, hlt⟩, hw]

theorem alt_release_focuses_shown_threeWindows :
    ∃ s' effects, threeWindows.tabbing = false ∧ (∀ m ∈ pressRun, ∀ z, m.2 ≠ .notify z) ∧
    threeWindows.mainLoop pressRun = .ok (s', effects) ∧ s'.tabbing = true ∧
    0 ≤ s'.newFocused ∧ s'.newFocused < s'.windowsZorder.length ∧
    ∃ a rest w, s'.alttabs = a :: rest ∧ a.shown = some w ∧
      s'.windowsZorder[s'.newFocused.toNat]? = some w ∧
      ∀ (env' : Env) (ev : KeyEvent), ev.IsAltRelease → s'.NotForRunner ev →
        ∃ s'', s'.dispatch env' (.keyEvent ev) = .ok (s'', [.focusWindow w.wid]) ∧
          s''.tabbing = false :=
  have hq : ∀ m ∈ pressRun, ∀ z, m.2 ≠ .notify z := by simp [pressRun]
  ⟨_, _, rfl, hq, rfl, rfl, @alt_release_focuses_shown threeWindows _ _ _ rfl hq rfl rfl⟩

end Session

end ToaruPanel
