import Mathlib
import OspabOs.Framebuffer.Transcript

/-!
# Text on a cleared console

What the reader of the console sees of printed text. After `clear`, the
characters of a printable text go one after another into the rows,
`cols` to a row. Character `i` stands at line `i / cols` and column
`i % cols` of the transcript, and the cells after the text are blank
(`Wrapped`). The screen shows the `rows` lines that end with the cursor's
line (`console_wraps_text`).
-/

namespace OspabOs.Framebuffer

/-- A character `draw_char` draws. -/
def Printable (c : Char) : Prop := 32 ≤ c.toNat ∧ c.toNat ≤ 126

instance : DecidablePred Printable := fun _ => inferInstanceAs (Decidable (_ ∧ _))

/-- A cell with no character on it. -/
def Blank (cell : Cell) : Prop := ∃ color, cell = .solid color ∨ cell = .cleared color

/-! ## Characters in rows of `cols` -/

section Rows

variable {cols : Nat}

/-- The character after the `n`-th stays on its row. -/
theorem div_mod_succ_of_lt (pos : 0 < cols) {n : Nat} (fits : n % cols + 1 < cols) :
    (n + 1) / cols = n / cols ∧ (n + 1) % cols = n % cols + 1 := by
  apply (Nat.div_mod_unique pos).mpr
  have split := Nat.mod_add_div n cols
  exact ⟨by omega, fits⟩

/-- The character after the last one of a row starts the next row. -/
theorem div_mod_succ_of_eq (pos : 0 < cols) {n : Nat} (full : n % cols + 1 = cols) :
    (n + 1) / cols = n / cols + 1 ∧ (n + 1) % cols = 0 := by
  apply (Nat.div_mod_unique pos).mpr
  have split := Nat.mod_add_div n cols
  rw [Nat.mul_succ]
  exact ⟨by omega, pos⟩

/-- Two places in the rows are the same exactly when they hold the same character. -/
theorem eq_of_div_mod_eq {i n : Nat} (sameRow : i / cols = n / cols) (sameCol : i % cols = n % cols) : i = n := by
  rw [← Nat.mod_add_div i cols, ← Nat.mod_add_div n cols, sameRow, sameCol]

/-- The place of the character at row `line`, column `col`. -/
theorem div_mod_of_place (pos : 0 < cols) {line col : Nat} (inside : col < cols) :
    (line * cols + col) / cols = line ∧ (line * cols + col) % cols = col :=
  (Nat.div_mod_unique pos).mpr ⟨by rw [Nat.mul_comm, Nat.add_comm], inside⟩

/-- Painting the place of the next character keeps every earlier character
where it stands and adds the new one. -/
theorem typed_paint {lines : Nat → Nat → Cell} {text : List Char} {fg bg : UInt32}
    (typed : ∀ i (lt : i < text.length), lines (i / cols) (i % cols) = .glyph text[i] fg bg) (c : Char) :
    ∀ i (lt : i < (text ++ [c]).length),
      paint lines (text.length / cols) (text.length % cols) (.glyph c fg bg) (i / cols) (i % cols) =
        .glyph (text ++ [c])[i] fg bg := by
  intro i lt
  unfold paint
  rw [List.length_append, List.length_singleton] at lt
  by_cases last : i = text.length
  · subst last
    rw [Function.update_self, Function.update_self, List.getElem_concat_length rfl]
  · have earlier : i < text.length := by omega
    rw [List.getElem_append_left earlier]
    by_cases sameRow : i / cols = text.length / cols
    · have otherCol : i % cols ≠ text.length % cols := fun sameCol => last (eq_of_div_mod_eq sameRow sameCol)
      rw [sameRow, Function.update_self, Function.update_of_ne otherCol, ← sameRow, typed i earlier]
    · rw [Function.update_of_ne sameRow, typed i earlier]

/-- Painting the place of the next character leaves the cells after it blank. -/
theorem blank_paint (pos : 0 < cols) {lines : Nat → Nat → Cell} {n : Nat}
    (blank : ∀ line col, col < cols → n ≤ line * cols + col → Blank (lines line col)) (cell : Cell) :
    ∀ line col, col < cols → n + 1 ≤ line * cols + col → Blank (paint lines (n / cols) (n % cols) cell line col) := by
  intro line col inside after
  unfold paint
  by_cases sameRow : line = n / cols
  · have otherCol : col ≠ n % cols := by
      intro sameCol
      have place : (line * cols + col) / cols = line ∧ (line * cols + col) % cols = col :=
        div_mod_of_place pos inside
      rw [sameRow, sameCol] at place
      have := eq_of_div_mod_eq place.1 place.2
      rw [sameRow, sameCol] at after
      omega
    rw [sameRow, Function.update_self, Function.update_of_ne otherCol, ← sameRow]
    exact blank line col inside (by omega)
  · rw [Function.update_of_ne sameRow]
    exact blank line col inside (by omega)

end Rows

/-! ## The transcript of a text -/

namespace Transcript

theorem clear_of_sized (t : Transcript) (init : t.initialized = true) (wide : 0 < t.cols) (tall : 0 < t.rows) :
    t.clear = { t with lines := fun _ _ => .cleared (t.bgColor ||| 0xFF000000), top := 0, line := 0, col := 0 } := by
  unfold clear
  have width : t.width ≠ 0 := fun zero => by
    rw [cols, zero, Nat.zero_div] at wide
    exact absurd wide (Nat.lt_irrefl 0)
  have height : t.height ≠ 0 := fun zero => by
    rw [rows, zero, Nat.zero_div] at tall
    exact absurd tall (Nat.lt_irrefl 0)
  rw [if_neg (by simp only [init, Bool.true_eq_false, false_or, not_or]; exact ⟨width, height⟩)]

theorem draw_of_printable (t : Transcript) (init : t.initialized = true) {c : Char} (printable : Printable c)
    (line col : Nat) : t.draw line col c = { t with lines := paint t.lines line col (.glyph c t.fgColor t.bgColor) } := by
  unfold draw
  rw [if_neg (by simp only [init, Bool.true_eq_false, false_or, not_or, Nat.not_lt]; exact printable)]

theorem newLine_of_lt (t : Transcript) (down : t.line + 1 < t.top + t.rows) :
    t.newLine = { t with line := t.line + 1 } := by
  rw [newLine, if_pos down]

theorem newLine_of_ge (t : Transcript) (bottom : ¬ t.line + 1 < t.top + t.rows) :
    t.newLine =
      { t with line := t.line + 1, top := t.top + 1,
               lines := Function.update t.lines (t.line + 1) fun _ => .solid t.bgColor } := by
  rw [newLine, if_neg bottom]

end Transcript

/-- The transcript after `text` was written in colours `fg` on `bg` from a
cleared screen. Character `i` stands at line `i / cols` and column
`i % cols`, and the cells after the text are blank. The cursor is where the
next character goes, and the screen's last line is the cursor's or below. -/
structure Wrapped (t : Transcript) (fg bg : UInt32) (text : List Char) : Prop where
  init : t.initialized = true
  wide : 0 < t.cols
  fgColor : t.fgColor = fg
  bgColor : t.bgColor = bg
  col : t.col = text.length % t.cols
  line : t.line = text.length / t.cols
  top : t.top = text.length / t.cols + 1 - t.rows
  typed : ∀ i (lt : i < text.length), t.lines (i / t.cols) (i % t.cols) = .glyph text[i] fg bg
  blank : ∀ line col, col < t.cols → text.length ≤ line * t.cols + col → Blank (t.lines line col)

section Wrapped

variable {t : Transcript} {fg bg : UInt32} {text : List Char}

theorem wrapped_clear (init : t.initialized = true) (wide : 0 < t.cols) (tall : 0 < t.rows) :
    Wrapped t.clear t.fgColor t.bgColor [] := by
  rw [t.clear_of_sized init wide tall]
  exact {
    init := init
    wide := wide
    fgColor := rfl
    bgColor := rfl
    col := (Nat.zero_mod _).symm
    line := (Nat.zero_div _).symm
    top := by
      show 0 = 0 / t.cols + 1 - t.rows
      rw [Nat.zero_div]
      omega
    typed := fun i lt => absurd lt (Nat.not_lt_zero i)
    blank := fun _ _ _ _ => ⟨_, .inr rfl⟩ }

/-- One more printable character: it goes to the cursor, and the cursor
moves on, to the next row at the end of one, scrolling from the last. -/
theorem Wrapped.writeChar (wrapped : Wrapped t fg bg text) {c : Char} (printable : Printable c) :
    Wrapped (t.writeChar c) fg bg (text ++ [c]) := by
  have control : ∀ d : Char, d.toNat < 32 → c ≠ d := fun d below same => by
    rw [same] at printable
    exact absurd printable.1 (by omega)
  have wide := wrapped.wide
  rw [t.writeChar_other wrapped.init (control '\n' (by decide)) (control '\r' (by decide))
    (control '\x08' (by decide)), t.draw_of_printable wrapped.init printable, wrapped.line, wrapped.col,
    wrapped.fgColor, wrapped.bgColor]
  have typed := typed_paint wrapped.typed c
  have blank := blank_paint wide wrapped.blank (.glyph c fg bg)
  have length : (text ++ [c]).length = text.length + 1 := by simp
  have top := wrapped.top
  by_cases fits : text.length % t.cols + 1 < t.cols
  · -- the character after it stays on the row
    obtain ⟨sameRow, nextCol⟩ := div_mod_succ_of_lt wide fits
    rw [if_pos fits]
    exact ⟨wrapped.init, wide, rfl, rfl,
      show _ = (text ++ [c]).length % t.cols by rw [length, nextCol],
      show _ = (text ++ [c]).length / t.cols by rw [length, sameRow],
      show t.top = (text ++ [c]).length / t.cols + 1 - t.rows by rw [length, sameRow, top],
      typed, fun line col inside after => blank line col inside (by rw [length] at after; exact after)⟩
  · -- the row is full: a line feed, which scrolls from the screen's last line
    have full : text.length % t.cols + 1 = t.cols := by
      have := Nat.mod_lt text.length wide
      omega
    obtain ⟨nextRow, firstCol⟩ := div_mod_succ_of_eq wide full
    have earlier : ∀ i, i < (text ++ [c]).length → i / t.cols ≠ text.length / t.cols + 1 := fun i lt => by
      have := Nat.div_le_div_right (c := t.cols) (show i ≤ text.length by omega)
      omega
    rw [if_neg fits]
    by_cases down : text.length / t.cols + 1 < t.top + t.rows
    · rw [Transcript.newLine_of_lt _ down]
      exact ⟨wrapped.init, wide, rfl, rfl,
        show 0 = (text ++ [c]).length % t.cols by rw [length, firstCol],
        show _ = (text ++ [c]).length / t.cols by rw [length, nextRow],
        show t.top = (text ++ [c]).length / t.cols + 1 - t.rows by rw [length, nextRow]; omega,
        typed, fun line col inside after => blank line col inside (by rw [length] at after; exact after)⟩
    · rw [Transcript.newLine_of_ge _ down]
      refine ⟨wrapped.init, wide, rfl, rfl,
        show 0 = (text ++ [c]).length % t.cols by rw [length, firstCol],
        show _ = (text ++ [c]).length / t.cols by rw [length, nextRow],
        show t.top + 1 = (text ++ [c]).length / t.cols + 1 - t.rows by rw [length, nextRow]; omega,
        fun i lt => ?_, fun line col inside after => ?_⟩
      · show Function.update (paint t.lines (text.length / t.cols) (text.length % t.cols) (.glyph c fg bg))
          (text.length / t.cols + 1) (fun _ => .solid bg) (i / t.cols) (i % t.cols) = _
        rw [Function.update_of_ne (earlier i lt)]
        exact typed i lt
      · show Blank (Function.update (paint t.lines (text.length / t.cols) (text.length % t.cols) (.glyph c fg bg))
          (text.length / t.cols + 1) (fun _ => .solid bg) line col)
        by_cases uncovered : line = text.length / t.cols + 1
        · rw [uncovered, Function.update_self]
          exact ⟨_, .inl rfl⟩
        · rw [Function.update_of_ne uncovered]
          exact blank line col inside (by rw [length] at after; exact after)

/-- Every printable text written after `clear`. -/
theorem wrapped_writeText (init : t.initialized = true) (wide : 0 < t.cols) (tall : 0 < t.rows)
    (text : List Char) (printable : ∀ c ∈ text, Printable c) :
    Wrapped (text.foldl Transcript.writeChar t.clear) t.fgColor t.bgColor text := by
  induction text using List.reverseRecOn with
  | nil => exact wrapped_clear init wide tall
  | append_singleton text c ih =>
    rw [List.foldl_append, List.foldl_cons, List.foldl_nil]
    have before := ih fun d mem => printable d (List.mem_append_left _ mem)
    exact before.writeChar (printable c (List.mem_append_right _ (List.mem_singleton_self c)))

end Wrapped

/-! ## What the screen shows -/

theorem foldl_step_writeChar (t : Transcript) (text : List Char) :
    (text.map Op.writeChar).foldl Transcript.step t = text.foldl Transcript.writeChar t := by
  rw [List.foldl_map]
  rfl

/-- On a console booted on a framebuffer of at least one text cell, a
printable text written after `clear` stands in rows of `cols` characters,
and the screen shows the `rows` of them that end with the cursor's row.
Character `i` of the text is on the screen in column `i % cols`, at row
`i / cols` less the rows scrolled off the top, when its row is not one of
those. The cells after the text are blank, and the cursor is where the
next character goes. -/
theorem console_wraps_text (fb : BootFramebuffer) (wide : charWidth ≤ fb.width) (tall : charHeight ≤ fb.height)
    (text : List Char) (printable : ∀ c ∈ text, Printable c) :
    ∃ con, (Op.clear :: text.map Op.writeChar).foldlM step (boot fb) = some con ∧
      con.cursorX = text.length % con.cols ∧
      con.cursorY = min (text.length / con.cols) (con.rows - 1) ∧
      (∀ i (lt : i < text.length), text.length / con.cols + 1 - con.rows ≤ i / con.cols →
        con.screen (i / con.cols - (text.length / con.cols + 1 - con.rows)) (i % con.cols) =
          .glyph text[i] 0x00FFFFFF 0x00000000) ∧
      ∀ row < con.rows, ∀ col < con.cols,
        text.length ≤ (text.length / con.cols + 1 - con.rows + row) * con.cols + col →
          Blank (con.screen row col) := by
  obtain ⟨con, run, shows⟩ := (shows_boot fb wide tall).run (Op.clear :: text.map Op.writeChar)
  rw [List.foldl_cons, foldl_step_writeChar] at shows
  -- the transcript of the same run holds the text in rows
  have wrapped := wrapped_writeText (t := Transcript.boot fb) rfl (Nat.div_pos wide (by decide))
    (Nat.div_pos tall (by decide)) text printable
  change Shows con (text.foldl Transcript.writeChar (Transcript.boot fb).clear) at shows
  have line := shows.line
  have onScreen := shows.row_lt
  rw [wrapped.line, wrapped.top, ← shows.cols_eq, ← shows.rows_eq] at line
  refine ⟨con, run, ?_, ?_, ?_, ?_⟩
  · rw [shows.col, wrapped.col, shows.cols_eq]
  · omega
  · intro i lt below
    have rowAbove : i / con.cols ≤ text.length / con.cols := Nat.div_le_div_right (Nat.le_of_lt lt)
    have window := shows.window (i / con.cols - (text.length / con.cols + 1 - con.rows)) (by omega)
    rw [wrapped.top, ← shows.cols_eq, ← shows.rows_eq, show text.length / con.cols + 1 - con.rows +
      (i / con.cols - (text.length / con.cols + 1 - con.rows)) = i / con.cols by omega] at window
    rw [window, shows.cols_eq]
    exact wrapped.typed i lt
  · intro row below col inside after
    rw [shows.window row below, wrapped.top, ← shows.cols_eq, ← shows.rows_eq]
    exact wrapped.blank _ col (by rw [← shows.cols_eq]; exact inside) (by rw [← shows.cols_eq]; exact after)

theorem console_wraps_text_on_vga :
    charWidth ≤ 640 ∧ charHeight ≤ 480 ∧ (∀ c ∈ ['o', 'k'], Printable c) ∧
      ∃ con, (Op.clear :: ['o', 'k'].map Op.writeChar).foldlM step (boot ⟨640, 480, fun _ _ => .cleared 0⟩) =
          some con ∧
        con.cursorX = ['o', 'k'].length % con.cols ∧
        con.cursorY = min (['o', 'k'].length / con.cols) (con.rows - 1) ∧
        (∀ i (lt : i < ['o', 'k'].length), ['o', 'k'].length / con.cols + 1 - con.rows ≤ i / con.cols →
          con.screen (i / con.cols - (['o', 'k'].length / con.cols + 1 - con.rows)) (i % con.cols) =
            .glyph ['o', 'k'][i] 0x00FFFFFF 0x00000000) ∧
        ∀ row < con.rows, ∀ col < con.cols,
          ['o', 'k'].length ≤ (['o', 'k'].length / con.cols + 1 - con.rows + row) * con.cols + col →
            Blank (con.screen row col) :=
  ⟨by decide, by decide, by simp [Printable],
    console_wraps_text ⟨640, 480, fun _ _ => .cleared 0⟩ (by decide) (by decide) ['o', 'k'] (by simp [Printable])⟩

end OspabOs.Framebuffer
