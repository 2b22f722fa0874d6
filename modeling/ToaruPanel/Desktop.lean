import ToaruPanel.Basic

/-!
# The desktop file

`WallpaperWindow.__init__` reads its icons with `load_icons`, from `~/.desktop` or, when
there is none, from `/etc/default.desktop`.  The file is text with one icon a line and
three fields a line, separated by commas: the icon's image, the command a click runs, and
the label.

`load_icons` takes three steps.

* `for line in f` reads the lines in text mode, where `'\r\n'` and a lone `'\r'` read as
  `'\n'` (`universalNewlines`); each line keeps its `'\n'` (`fileLines`).
* `line.strip().split(',')` cuts each line into fields (`pyStrip`; Python's `str.split` with
  a separator is `List.splitOn`).
* `WallpaperIcon(icon[0], icon[2], launch_application, icon[1])` builds an icon from each
  list of fields.  The image is only painted, so what the model keeps is `DesktopEntry`:
  the image's name, the label and the command.

*Acceptance.*  The subscripts are the only step that can fail.  `load_icons` raises
`IndexError` exactly when some line has fewer than two commas (`loadIcons_accepts_iff`).
A blank line is such a line, so a desktop file with an empty line, even a last one, stops
the panel at startup.

*Round trip.*  Write entries one a line, with the fields joined by commas, and read the file
back: the result is the entries again (`loadIcons_desktopFile`).  This holds for every
entry whose fields hold no comma or line break and whose line neither starts nor ends with
white space (`DesktopEntry.WellFormed`).
-/

namespace ToaruPanel

/-! ## Reading the lines -/

/-- `str.isspace()` of one character, the characters `str.strip()` removes: the C0 separators,
the space, and the Unicode spaces and line separators. -/
def pyIsSpace (c : Char) : Bool :=
  (0x09 ≤ c.toNat && c.toNat ≤ 0x0D) || (0x1C ≤ c.toNat && c.toNat ≤ 0x20) || c.toNat == 0x85 ||
    c.toNat == 0xA0 || c.toNat == 0x1680 || (0x2000 ≤ c.toNat && c.toNat ≤ 0x200A) ||
    c.toNat == 0x2028 || c.toNat == 0x2029 || c.toNat == 0x202F || c.toNat == 0x205F ||
    c.toNat == 0x3000

/-- `str.strip()`: drop the white space at both ends. -/
def pyStrip (s : List Char) : List Char := (s.dropWhile pyIsSpace).rdropWhile pyIsSpace

/-- Text mode's universal newlines: `'\r\n'` and a lone `'\r'` read as `'\n'`. -/
def universalNewlines : List Char → List Char
  | '\r' :: '\n' :: s => '\n' :: universalNewlines s
  | '\r' :: s => '\n' :: universalNewlines s
  | c :: s => c :: universalNewlines s
  | [] => []

/-- The lines `for line in f` yields, `acc` being the line read so far: each line ends in its
`'\n'`, and the text after the last `'\n'`, if any, is a last line. -/
def linesFrom (acc : List Char) : List Char → List (List Char)
  | [] => if acc = [] then [] else [acc]
  | c :: s => if c = '\n' then (acc ++ [c]) :: linesFrom [] s else linesFrom (acc ++ [c]) s

/-- `for line in f` over the text of the file. -/
def fileLines (content : List Char) : List (List Char) := linesFrom [] (universalNewlines content)

@[simp] theorem universalNewlines_cons {c : Char} (hc : c ≠ '\r') (s : List Char) :
    universalNewlines (c :: s) = c :: universalNewlines s := by
  rw [universalNewlines]
  · exact fun _ h => absurd h hc
  · exact hc

theorem universalNewlines_of_forall_ne : ∀ {s : List Char}, (∀ c ∈ s, c ≠ '\r') →
    universalNewlines s = s
  | [], _ => rfl
  | c :: s, h => by
    rw [universalNewlines_cons (h c (List.mem_cons_self c s)),
      universalNewlines_of_forall_ne fun d hd => h d (List.mem_cons_of_mem c hd)]

/-- A line with no `'\n'` in it is read up to its `'\n'`. -/
theorem linesFrom_append_newline {l : List Char} (hl : '\n' ∉ l) (acc rest : List Char) :
    linesFrom acc (l ++ '\n' :: rest) = (acc ++ l ++ ['\n']) :: linesFrom [] rest := by
  induction l generalizing acc with
  | nil => simp [linesFrom]
  | cons c l ih =>
    have hc : c ≠ '\n' := fun h => hl (h ▸ List.mem_cons_self c l)
    rw [List.cons_append, linesFrom, if_neg hc, ih (fun h => hl (List.mem_cons_of_mem c h))]
    simp

/-- What `load_icons` builds an icon from. -/
structure DesktopEntry where
  /-- `icon[0]`, the name of the image. -/
  icon : List Char
  /-- `icon[2]`, the label. -/
  name : List Char
  /-- `icon[1]`, the command `launch_application` runs. -/
  data : List Char
deriving DecidableEq, Repr

/-- `WallpaperIcon(icon[0], icon[2], launch_application, icon[1])`, with the subscripts in the
order Python evaluates them. -/
def DesktopEntry.ofFields (icon : List (List Char)) : Except String DesktopEntry := do
  let image ← pyGetItem icon 0
  let name ← pyGetItem icon 2
  let data ← pyGetItem icon 1
  pure ⟨image, name, data⟩

/-- `icons.append(line.strip().split(','))` for each line. -/
def readIcons (content : List Char) : List (List (List Char)) :=
  (fileLines content).map fun line => (pyStrip line).splitOn ','

/-- `load_icons` on the text of the desktop file. -/
def loadIcons (content : List Char) : Except String (List DesktopEntry) :=
  (readIcons content).mapM DesktopEntry.ofFields

namespace DesktopEntry

@[simp] theorem ofFields_three (i d n : List Char) (rest : List (List Char)) :
    ofFields (i :: d :: n :: rest) = .ok ⟨i, n, d⟩ := by
  simp [ofFields, pyGetItem, bind, Except.bind, pure, Except.pure]

end DesktopEntry

/-- One step of a loop of fallible steps that runs through. -/
theorem mapM_cons_ok {α β : Type} {f : α → Except String β} {a : α} {l : List α} {r : List β} :
    (a :: l).mapM f = .ok r ↔ ∃ b r', f a = .ok b ∧ l.mapM f = .ok r' ∧ r = b :: r' := by
  rw [List.mapM_cons]
  cases f a <;> cases l.mapM f <;> simp [bind, Except.bind, pure, Except.pure, eq_comm]

/-- A loop of fallible steps that runs through pairs each result with its input. -/
theorem mapM_ok_getElem? {α β : Type} {f : α → Except String β} :
    ∀ {l : List α} {r : List β}, l.mapM f = .ok r →
      ∀ {i : Nat} {b : β}, r[i]? = some b → ∃ a, l[i]? = some a ∧ f a = .ok b
  | [], r, h, i, b, hb => by cases h; cases hb
  | a :: l, r, h, i, b, hb => by
    obtain ⟨b₀, r₀, ha, hl, rfl⟩ := mapM_cons_ok.mp h
    cases i with
    | zero =>
      rw [List.getElem?_cons_zero, Option.some.injEq] at hb
      exact ⟨a, List.getElem?_cons_zero, hb ▸ ha⟩
    | succ i =>
      rw [List.getElem?_cons_succ] at hb ⊢
      exact mapM_ok_getElem? hl hb

theorem DesktopEntry.ofFields_eq_ok {fs : List (List Char)} {e : DesktopEntry}
    (h : ofFields fs = .ok e) : ∃ rest, fs = e.icon :: e.data :: e.name :: rest := by
  match fs with
  | [] | [_] | [_, _] => simp [ofFields, pyGetItem, bind, Except.bind] at h
  | i :: d :: n :: rest =>
    rw [ofFields_three, Except.ok.injEq] at h
    exact ⟨rest, by rw [← h]⟩

/-- Icon `i` is read from line `i` of the file: its image, command and label are the line's
first three fields. -/
theorem loadIcons_getElem? {content : List Char} {es : List DesktopEntry}
    (h : loadIcons content = .ok es) {i : Nat} {e : DesktopEntry} (he : es[i]? = some e) :
    ∃ line rest, (fileLines content)[i]? = some line ∧
      (pyStrip line).splitOn ',' = e.icon :: e.data :: e.name :: rest := by
  obtain ⟨fs, hfs, hof⟩ := mapM_ok_getElem? h he
  obtain ⟨rest, rfl⟩ := DesktopEntry.ofFields_eq_ok hof
  rw [readIcons, List.getElem?_map] at hfs
  obtain ⟨line, hline, hsplit⟩ := Option.map_eq_some'.mp hfs
  exact ⟨line, rest, hline, hsplit⟩

example : loadIcons "terminal,terminal,Terminal\n\n".toList =
    .error "IndexError: list index out of range" := rfl

/-! ## Writing a desktop file -/

/-- The line of the desktop file an entry is read from: `icon,command,label`. -/
def DesktopEntry.line (e : DesktopEntry) : List Char := [','].intercalate [e.icon, e.data, e.name]

/-- A desktop file with the entries one a line. -/
def desktopFile (es : List DesktopEntry) : List Char := es.flatMap fun e => e.line ++ ['\n']

/-- An entry a line can hold: no field has a comma or a line break, and the line neither
starts nor ends with white space. -/
def DesktopEntry.WellFormed (e : DesktopEntry) : Prop :=
  (∀ f ∈ [e.icon, e.data, e.name], ∀ c ∈ f, c ≠ ',' ∧ c ≠ '\n' ∧ c ≠ '\r') ∧
    (∀ c ∈ e.icon.head?, pyIsSpace c = false) ∧ ∀ c ∈ e.name.getLast?, pyIsSpace c = false

instance (e : DesktopEntry) : Decidable e.WellFormed := inferInstanceAs (Decidable (_ ∧ _ ∧ _))

namespace DesktopEntry

theorem line_eq (e : DesktopEntry) : e.line = e.icon ++ ',' :: (e.data ++ ',' :: e.name) := by
  simp [line, List.intercalate]

theorem mem_line {e : DesktopEntry} {c : Char} (h : c ∈ e.line) :
    c ∈ e.icon ∨ c ∈ e.data ∨ c ∈ e.name ∨ c = ',' := by
  rw [line_eq] at h
  simp only [List.mem_append, List.mem_cons] at h
  tauto

theorem WellFormed.not_mem_line {e : DesktopEntry} (he : e.WellFormed) {c : Char}
    (hc : c = '\n' ∨ c = '\r') : c ∉ e.line := fun h => by
  have hfield : ∀ f ∈ [e.icon, e.data, e.name], c ∉ f := fun f hf hcf => by
    have := he.1 f hf c hcf
    rcases hc with rfl | rfl <;> simp at this
  rcases mem_line h with h | h | h | rfl
  · exact hfield _ (by simp) h
  · exact hfield _ (by simp) h
  · exact hfield _ (by simp) h
  · rcases hc with h | h <;> cases h

/-- `split(',')` gives the fields back. -/
theorem splitOn_line {e : DesktopEntry} (he : e.WellFormed) :
    e.line.splitOn ',' = [e.icon, e.data, e.name] :=
  List.splitOn_intercalate _ ',' (fun f hf hc => (he.1 f hf ',' hc).1 rfl) (List.cons_ne_nil _ _)

/-- `strip()` takes the `'\n'` off and nothing else. -/
theorem pyStrip_line {e : DesktopEntry} (he : e.WellFormed) :
    pyStrip (e.line ++ ['\n']) = e.line := by
  have hcomma : pyIsSpace ',' = false := by decide
  have hleft : (e.line ++ ['\n']).dropWhile pyIsSpace = e.line ++ ['\n'] := by
    rw [line_eq]
    cases hi : e.icon with
    | nil => exact List.dropWhile_cons_of_neg (by simp [hcomma])
    | cons c t => exact List.dropWhile_cons_of_neg (by simpa [hi] using he.2.1 c)
  rw [pyStrip, hleft, List.rdropWhile_concat_pos _ _ _ (by decide), line_eq]
  rcases List.eq_nil_or_concat e.name with hn | ⟨L, b, hn⟩
  · have hl : e.icon ++ ',' :: (e.data ++ ',' :: e.name) = (e.icon ++ ',' :: e.data) ++ [','] := by
      simp [hn]
    rw [hl, List.rdropWhile_concat_neg _ _ _ (by simp [hcomma])]
  · have hl : e.icon ++ ',' :: (e.data ++ ',' :: e.name) =
        (e.icon ++ ',' :: (e.data ++ ',' :: L)) ++ [b] := by simp [hn]
    rw [hl, List.rdropWhile_concat_neg _ _ _ (by simpa [hn] using he.2.2 b)]

end DesktopEntry

/-- The file has one line per entry. -/
theorem fileLines_desktopFile {es : List DesktopEntry} (hes : ∀ e ∈ es, e.WellFormed) :
    fileLines (desktopFile es) = es.map fun e => e.line ++ ['\n'] := by
  have hr : ∀ c ∈ desktopFile es, c ≠ '\r' := by
    intro c hc
    obtain ⟨e, he, hc⟩ := List.mem_flatMap.mp hc
    rcases List.mem_append.mp hc with hc | hc
    · exact fun h => (hes e he).not_mem_line (.inr rfl) (h ▸ hc)
    · rw [List.mem_singleton.mp hc]; decide
  rw [fileLines, universalNewlines_of_forall_ne hr]
  clear hr
  induction es with
  | nil => rfl
  | cons e es ih =>
    have hn := (hes e (List.mem_cons_self e es)).not_mem_line (.inl rfl)
    rw [desktopFile, List.flatMap_cons, List.append_assoc, List.singleton_append,
      linesFrom_append_newline hn, ← desktopFile, ih (fun e' h' => hes e' (List.mem_cons_of_mem e h'))]
    simp

/-- Reading a desktop file written from well-formed entries gives the entries back. -/
theorem loadIcons_desktopFile (es : List DesktopEntry) (hes : ∀ e ∈ es, e.WellFormed) :
    loadIcons (desktopFile es) = .ok es := by
  rw [loadIcons, readIcons, fileLines_desktopFile hes, List.map_map]
  induction es with
  | nil => rfl
  | cons e es ih =>
    have he := hes e (List.mem_cons_self e es)
    rw [List.map_cons, List.mapM_cons, Function.comp_apply, DesktopEntry.pyStrip_line he,
      DesktopEntry.splitOn_line he, DesktopEntry.ofFields_three,
      ih fun e' h' => hes e' (List.mem_cons_of_mem e h')]
    rfl

theorem loadIcons_desktopFile_terminal :
    (∀ e ∈ [DesktopEntry.mk "terminal".toList "Terminal".toList "terminal".toList], e.WellFormed) ∧
    loadIcons (desktopFile [⟨"terminal".toList, "Terminal".toList, "terminal".toList⟩]) =
      .ok [⟨"terminal".toList, "Terminal".toList, "terminal".toList⟩] :=
  ⟨by decide, loadIcons_desktopFile _ (by decide)⟩

end ToaruPanel
