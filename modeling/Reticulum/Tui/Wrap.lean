import Reticulum.Nomad.Envelope

/-!
# Wrapping text for the terminal

`tui_text_wrap_next` of `apps/tui_text.c` returns the rows of a text one by one. It walks over the
characters until a newline, the end of the text or the edge of the pane, and takes back the word
that it stands in when the row can end before it. A byte that begins no UTF-8 character is walked
over alone. `tui_editor_position` of `apps/tui_editor.c` finds the cursor in these rows.

`Pane.Walk` says what a row may hold, `Pane.Fits` what one call returns, and `Pane.Wraps` what
repeated calls return. `wrap_partition` is the result about the rows and `cursor_below_newline_iff`
the one about the cursor, which a newline does not always take to a lower row.
-/

namespace Reticulum.Tui

open List Option Nat UInt8
open Bytes (slice)
open Rrc (character continuation leading)

/-! ## The code -/

/-- `tui_utf8_length`, whose checks are those of `utf8` of `src/nomad/rrc.c`. -/
def utf8Length : List UInt8 → ℕ
  | [] => 0
  | lead :: rest => (character lead rest).elim 0 (· + 1)

/-- `tui_text_cell_width`, for what the locale says. -/
def cellWidth (wcwidth : ℕ → ℤ) : List UInt8 → ℕ
  | [] => 0
  | lead :: rest =>
    let n := utf8Length (lead :: rest)
    if n = 0 then 1
    else
      let cp :=
        if 1 < n then
          (rest.take (n - 1)).foldl (fun cp b => cp * 64 + (b &&& 0x3f).toNat)
            (lead &&& if n = 2 then 0x1f else if n = 3 then 0x0f else 0x07).toNat
        else lead.toNat
      if wcwidth cp < 0 then 1 else (wcwidth cp).toNat

/-- A row: where it starts, the bytes it shows, and the offset from which to go on. -/
structure Row where
  start : ℕ
  bytes : ℕ
  offset : ℕ
deriving DecidableEq

/-- A text, the columns it is wrapped to, and the locale. -/
structure Pane where
  text : List UInt8
  columns : ℕ
  wcwidth : ℕ → ℤ

namespace Pane

variable (v : Pane)

/-- The cells of the character at an offset. -/
def width (pos : ℕ) : ℕ := cellWidth v.wcwidth (v.text.drop pos)

/-- How far the loops go from an offset: over the character, or over a byte that begins none. -/
def stride (pos : ℕ) : ℕ :=
  if utf8Length (v.text.drop pos) ≠ 0 then utf8Length (v.text.drop pos) else 1

/-- What `tui_text_wrap_next` returns behind its loop. -/
def rowEnd (start pos word : ℕ) : Row :=
  let stop := if pos < v.text.length ∧ v.text[pos]? ≠ some 0x0a ∧ start < word then word else pos
  ⟨start, stop - start, stop⟩

/-- The loop of `tui_text_wrap_next`. -/
def wrapLoop (start : ℕ) : ℕ → ℕ → ℕ → ℕ → Row
  | 0, pos, _, word => v.rowEnd start pos word
  | fuel + 1, pos, cells, word =>
    if v.text.length ≤ pos then v.rowEnd start pos word
    else if v.text[pos]? = some 0x0a then ⟨start, pos - start, pos + 1⟩
    else
      let cells := cells + v.width pos
      if v.columns < cells ∧ start < pos then v.rowEnd start pos word
      else
        let pos := pos + v.stride pos
        let word := if v.text[pos - 1]? = some 0x20 then pos else word
        -- A wide character in a pane of one column.
        if v.columns < cells then v.rowEnd start pos word
        else wrapLoop start fuel pos cells word

/-- `tui_text_wrap_next`. -/
def wrapNext (offset : ℕ) : Option Row :=
  if v.columns = 0 ∨ v.text.length ≤ offset then none
  else some (v.wrapLoop offset v.text.length offset 0 offset)

/-- The rows that at most so many calls return. -/
def rowsFrom : ℕ → ℕ → List Row
  | 0, _ => []
  | fuel + 1, offset =>
    match v.wrapNext offset with
    | none => []
    | some row => row :: rowsFrom fuel row.offset

/-- The rows of the text. -/
def rows : List Row := v.rowsFrom v.text.length 0

/-- The cells from `pos` to `stop`, as `tui_editor_position` adds them up. -/
def cellsTo (stop : ℕ) : ℕ → ℕ → ℕ
  | 0, _ => 0
  | fuel + 1, pos => if pos < stop then v.width pos + cellsTo stop fuel (pos + v.stride pos) else 0

/-- Behind a full row the cursor goes to the next one. -/
def place (row column : ℕ) : ℕ × ℕ := if v.columns ≤ column then (row + 1, 0) else (row, column)

/-- The loop of `tui_editor_position` over the rows that `tui_text_wrap_next` returns. -/
def positionLoop (cursor : ℕ) : List Row → ℕ → ℕ × ℕ
  | [], row => (row, 0)
  | r :: rs, row =>
    let last := r.offset = v.text.length ∧ (r.bytes = 0 ∨ v.text[r.offset - 1]? ≠ some 0x0a)
    if cursor < r.offset ∨ last ∧ cursor = r.offset then
      v.place row (v.cellsTo (min cursor (r.start + r.bytes)) r.bytes r.start)
    else positionLoop cursor rs (row + 1)

/-- `tui_editor_position`: the row and the column of the cursor. -/
def position (cursor : ℕ) : ℕ × ℕ :=
  if v.columns = 0 then (0, 0) else v.positionLoop cursor v.rows 0

/-! ## What is said of it -/

/-- The calls from an offset on, until one returns false: they return these rows. -/
inductive Wraps : ℕ → List Row → Prop
  | done {offset : ℕ} : v.wrapNext offset = none → Wraps offset []
  | next {offset : ℕ} {row : Row} {rs : List Row} : v.wrapNext offset = some row →
    Wraps row.offset rs → Wraps offset (row :: rs)

/-- The cells that a row takes. -/
def cells (row : Row) : ℕ := v.cellsTo (row.start + row.bytes) row.bytes row.start

/-- The bytes of a row, and the newline if there is one behind it. -/
def content (row : Row) : List UInt8 :=
  slice v.text row.start row.bytes ++ if row.offset = row.start + row.bytes then [] else [0x0a]

/-- Characters from one offset to another, none of them a newline, with the cells they take. -/
inductive Walk : ℕ → ℕ → ℕ → Prop
  | done (pos : ℕ) : Walk pos pos 0
  | next {pos stop cells : ℕ} {b : UInt8} : v.text[pos]? = some b → b ≠ 0x0a →
    Walk (pos + v.stride pos) stop cells → Walk pos stop (v.width pos + cells)

/-- A row may end here: its characters fit, or there is only one. -/
def Ends (start pos : ℕ) : Prop :=
  ∃ cells, v.Walk start pos cells ∧ (cells ≤ v.columns ∨ pos = start + v.stride start)

/-- What a call returns: a row from the offset on, with the newline if the row stops before one. -/
structure Fits (offset : ℕ) (row : Row) : Prop where
  starts : row.start = offset
  ends : v.Ends offset (offset + row.bytes)
  later : offset < row.offset
  behind : row.offset = offset + row.bytes ∨
    row.offset = offset + row.bytes + 1 ∧ v.text[offset + row.bytes]? = some 0x0a

end Pane

/-- The bytes of characters, one behind the other. -/
def encode (cs : List Char) : List UInt8 := cs.flatMap String.utf8EncodeChar

/-- An offset that stands between two characters, or at either end. -/
def Boundary (cs : List Char) (pos : ℕ) : Prop :=
  ∃ before after, cs = before ++ after ∧ pos = (encode before).length

/-! ## Characters -/

/-- Behind the first byte of a character there are continuation bytes. -/
theorem continuation_spec {count value v : ℕ} {bytes : List UInt8}
    (h : continuation count value bytes = some v) : ∀ b ∈ bytes.take count, b &&& 0xc0 = 0x80 := by
  induction count generalizing value bytes with
  | zero => simp
  | succ count ih =>
    cases bytes with
    | nil => simp
    | cons b bytes =>
      rw [continuation] at h
      split_ifs at h with hb
      simpa using ⟨not_not.mp hb, ih h⟩

theorem character_spec {f : UInt8} {rest : List UInt8} {count : ℕ}
    (h : character f rest = some count) : ∀ b ∈ rest.take count, b &&& 0xc0 = 0x80 := by
  unfold character at h
  split_ifs at h
  · cases h
    simp
  · simp only [bind_eq_some_iff] at h
    obtain ⟨⟨n, value, least⟩, -, v, hv, h⟩ := h
    split_ifs at h
    cases h
    exact continuation_spec hv

/-- A continuation byte adds its six bits to the value. -/
theorem continuation_cons (n value : ℕ) (tail rest : List UInt8) :
    continuation (ofNat (n % 64 + 128) :: tail).length value
        (ofNat (n % 64 + 128) :: tail ++ rest) =
      continuation tail.length (value * 64 + n % 64) (tail ++ rest) := by
  have hbits : ∀ k < 64, ofNat (k + 128) &&& 0xc0 = 0x80 ∧
      (ofNat (k + 128) &&& 0x3f).toNat = k := by decide
  obtain ⟨hmark, hvalue⟩ := hbits (n % 64) (mod_lt _ (by decide))
  rw [length_cons, cons_append, continuation, if_neg (not_not.mpr hmark), hvalue]

/-- The encoding of a character is read as one character. -/
theorem character_utf8EncodeChar (c : Char) : ∃ f tail, String.utf8EncodeChar c = f :: tail ∧
    ∀ rest, character f (tail ++ rest) = some tail.length := by
  have hvalid : c.val.toNat < 0xd800 ∨ 0xdfff < c.val.toNat ∧ c.val.toNat < 0x110000 := c.valid
  rw [String.utf8EncodeChar.eq_def]
  generalize c.val.toNat = v at hvalid ⊢
  dsimp only
  -- The first byte of a longer character tells how many bytes follow.
  have hlonger {f : UInt8} {value count least : ℕ} {bytes : List UInt8}
      (hlead : ¬ f < 0x80 ∧ leading f = some (count, value, least))
      (hvalue : continuation count value bytes = some v) (hleast : least ≤ v) :
      character f bytes = some count := by
    simp only [character, if_neg hlead.1, hlead.2, bind_some, hvalue]
    exact if_neg (by omega)
  split_ifs with h1 h2 h3
  · have hlow : ∀ n < 128, ofNat n < 0x80 := by decide
    exact ⟨_, _, rfl, fun rest => if_pos (hlow v (by omega))⟩
  · have hlead : ∀ n < 32, 2 ≤ n → ¬ ofNat (n + 192) < 0x80 ∧
        leading (.ofNat (n + 192)) = some (1, n, 0x80) := by decide
    refine ⟨_, _, rfl, fun rest => hlonger (hlead _ (by omega) (by omega)) ?_ (by omega)⟩
    rw [continuation_cons]
    exact congrArg some (by omega)
  · have hlead : ∀ n < 16, ¬ ofNat (n + 224) < 0x80 ∧
        leading (.ofNat (n + 224)) = some (2, n, 0x800) := by decide
    refine ⟨_, _, rfl, fun rest => hlonger (hlead _ (by omega)) ?_ (by omega)⟩
    rw [continuation_cons, continuation_cons]
    exact congrArg some (by omega)
  · have hlead : ∀ n < 5, ¬ ofNat (n + 240) < 0x80 ∧
        leading (.ofNat (n + 240)) = some (3, n, 0x10000) := by decide
    refine ⟨_, _, rfl, fun rest => hlonger (hlead _ (by omega)) ?_ (by omega)⟩
    rw [continuation_cons, continuation_cons, continuation_cons]
    exact congrArg some (by omega)

namespace Pane

variable {v : Pane} {b : UInt8} {pos stop cells : ℕ}

theorem drop_text (h : v.text[pos]? = some b) : v.text.drop pos = b :: v.text.drop (pos + 1) := by
  obtain ⟨hlt, rfl⟩ := List.getElem?_eq_some_iff.mp h
  exact drop_eq_getElem_cons hlt

theorem stride_eq (h : v.text[pos]? = some b) :
    v.stride pos = (character b (v.text.drop (pos + 1))).getD 0 + 1 := by
  rw [stride, drop_text h, utf8Length]
  cases character b (v.text.drop (pos + 1)) <;> simp

/-- A stride passes over no newline. -/
theorem stride_spec (hb : v.text[pos]? = some b) (hline : b ≠ 0x0a) :
    ∀ q, pos ≤ q → q < pos + v.stride pos → v.text[q]? ≠ some 0x0a := by
  intro q hle hq hnewline
  rw [stride_eq hb] at hq
  have hne : q ≠ pos := by
    rintro rfl
    exact hline (some.inj (hb.symm.trans hnewline))
  cases hchar : character b (v.text.drop (pos + 1)) with
  | none =>
    rw [hchar, getD_none] at hq
    omega
  | some count =>
    rw [hchar, getD_some] at hq
    -- Behind the first byte of a character there are continuation bytes only.
    have hmem : 0x0a ∈ (v.text.drop (pos + 1)).take count := by
      refine mem_of_getElem? (i := q - (pos + 1)) ?_
      rw [getElem?_take_of_lt (by omega), getElem?_drop, ← hnewline]
      congr 1
      omega
    exact absurd (character_spec hchar _ hmem) (by decide)

/-! ## Rows -/

/-- A walk meets no newline. -/
theorem Walk.spec (h : v.Walk pos stop cells) :
    pos ≤ stop ∧ ∀ q, pos ≤ q → q < stop → v.text[q]? ≠ some 0x0a := by
  induction h with
  | done pos => exact ⟨le_rfl, fun q hle hlt => by omega⟩
  | @next pos stop cells b hb hline _ ih =>
    refine ⟨by omega, fun q hq hlt => ?_⟩
    rcases lt_or_ge q (pos + v.stride pos) with h | h
    · exact stride_spec hb hline q hq h
    · exact ih.2 q h hlt

/-- A walk goes on over the next character. -/
theorem Walk.snoc (h : v.Walk pos stop cells) (hb : v.text[stop]? = some b) (hline : b ≠ 0x0a) :
    v.Walk pos (stop + v.stride stop) (cells + v.width stop) := by
  induction h with
  | done pos => simpa using .next hb hline (.done _)
  | next hfirst hnone _ ih =>
    rw [add_assoc]
    exact .next hfirst hnone (ih hb)

/-- The cells of a walk are those that `tui_editor_position` adds up. -/
theorem Walk.cellsTo_eq (h : v.Walk pos stop cells) {fuel : ℕ} (hfuel : stop ≤ pos + fuel) :
    v.cellsTo stop fuel pos = cells := by
  induction h generalizing fuel with
  | done pos => cases fuel <;> simp [cellsTo]
  | @next pos stop cells b hb hline hrest ih =>
    have hstride := stride_eq hb
    have hle := hrest.spec.1
    obtain ⟨fuel, rfl⟩ : ∃ n, fuel = n + 1 := ⟨fuel - 1, by omega⟩
    rw [cellsTo, if_pos (by omega), ih (by omega)]

variable {start word : ℕ}

theorem fits_rowEnd (hpos : start < pos) (hends : v.Ends start pos)
    (hword : start < word → v.Ends start word) : v.Fits start (v.rowEnd start pos word) := by
  have hrow {stop} (hlt : start < stop) (h : v.Ends start stop) :
      v.Fits start ⟨start, stop - start, stop⟩ := by
    have hstop : stop = start + (stop - start) := by omega
    exact ⟨rfl, hstop ▸ h, hlt, .inl hstop⟩
  unfold rowEnd
  split_ifs with h
  · exact hrow h.2.2 (hword h.2.2)
  · exact hrow hpos hends

/-- The loop returns a row that fits. -/
theorem fits_wrapLoop {fuel : ℕ} (hstart : start < v.text.length)
    (hfuel : v.text.length ≤ pos + fuel) (hwalk : v.Walk start pos cells)
    (hcells : cells ≤ v.columns) (hword : start < word → v.Ends start word) :
    v.Fits start (v.wrapLoop start fuel pos cells word) := by
  induction fuel generalizing pos cells word with
  | zero => exact fits_rowEnd (by omega) ⟨cells, hwalk, .inl hcells⟩ hword
  | succ fuel ih =>
    have hends : v.Ends start pos := ⟨cells, hwalk, .inl hcells⟩
    have hle := hwalk.spec.1
    rw [wrapLoop]
    split_ifs with hend hline
    · exact fits_rowEnd (by omega) hends hword
    · have hstop : pos = start + (pos - start) := by omega
      exact ⟨rfl, hstop ▸ hends, lt_succ_of_le hle, .inr ⟨congrArg _ hstop, hstop ▸ hline⟩⟩
    · obtain ⟨b, hb⟩ : ∃ b, v.text[pos]? = some b := ⟨_, getElem?_eq_getElem (by omega)⟩
      have hstride := stride_eq hb
      have hnext := hwalk.snoc hb fun h => hline (h ▸ hb)
      dsimp only
      by_cases hfull : v.columns < cells + v.width pos ∧ start < pos
      · rw [if_pos hfull]
        exact fits_rowEnd hfull.2 hends hword
      · rw [if_neg hfull]
        have hends' : v.Ends start (pos + v.stride pos) := by
          refine ⟨_, hnext, or_iff_not_imp_left.mpr fun hwide => ?_⟩
          -- Only the first character of a row is taken although it does not fit.
          obtain rfl : pos = start := by omega
          rfl
        split_ifs
        · exact fits_rowEnd (by omega) hends' fun _ => hends'
        · exact fits_rowEnd (by omega) hends' hword
        · exact ih (by omega) hnext (by omega) fun _ => hends'
        · exact ih (by omega) hnext (by omega) hword

variable {offset : ℕ} {row : Row} {rs : List Row}

theorem fits_wrapNext (h : v.wrapNext offset = some row) : v.Fits offset row := by
  unfold wrapNext at h
  split_ifs at h with hnone
  cases h
  exact fits_wrapLoop (by omega) (by omega) (.done _) (zero_le _) fun h => absurd h (lt_irrefl _)

/-- The bytes of a row are those up to the next offset. -/
theorem Fits.content_append (h : v.Fits offset row) :
    v.content row ++ v.text.drop row.offset = v.text.drop offset := by
  have hslice : slice v.text offset row.bytes ++ v.text.drop (offset + row.bytes) =
      v.text.drop offset := by
    rw [← drop_drop]
    exact take_append_drop _ _
  rw [content, h.starts]
  rcases h.behind with heq | ⟨heq, hline⟩
  · rw [if_pos heq, heq, append_nil, hslice]
  · rw [if_neg (by omega), heq, append_assoc, singleton_append, ← drop_text hline, hslice]

/-- As many calls as there are bytes come to the end of the text. -/
theorem wraps_rowsFrom {fuel : ℕ} (h : v.text.length ≤ offset + fuel) :
    v.Wraps offset (v.rowsFrom fuel offset) := by
  induction fuel generalizing offset with
  | zero => exact .done (if_pos (.inr h))
  | succ fuel ih =>
    rw [rowsFrom]
    cases hnext : v.wrapNext offset with
    | none => exact .done hnext
    | some row =>
      have hlater := (fits_wrapNext hnext).later
      exact .next hnext (ih (by omega))

/-- What holds of an offset and of the one behind each row holds where each row starts. -/
theorem Wraps.invariant (h : v.Wraps offset rs) {P : ℕ → Prop} (hP : P offset)
    (hstep : ∀ offset row, v.Fits offset row → P offset → P row.offset) :
    ∀ row ∈ rs, P row.start ∧ v.Fits row.start row := by
  induction h with
  | done => simp
  | @next offset row rs hnext _ ih =>
    have hfits := fits_wrapNext hnext
    rw [forall_mem_cons, hfits.starts]
    exact ⟨⟨hP, hfits⟩, ih (hstep offset row hfits hP)⟩

theorem Wraps.content (h : v.Wraps offset rs) (hcolumns : 0 < v.columns) :
    rs.flatMap v.content = v.text.drop offset := by
  induction h with
  | done hnone =>
    unfold wrapNext at hnone
    split_ifs at hnone with hend
    rw [drop_eq_nil_of_le (hend.resolve_left hcolumns.ne'), flatMap_nil]
  | next hnext _ ih => rw [flatMap_cons, ih, (fits_wrapNext hnext).content_append]

variable {cs : List Char}

/-- The offset behind a character stands between two characters if the one before it does. -/
theorem boundary_stride (htext : v.text = encode cs) (hb : v.text[pos]? = some b)
    (h : Boundary cs pos) : Boundary cs (pos + v.stride pos) := by
  obtain ⟨before, after, rfl, rfl⟩ := h
  have hdrop : v.text.drop (encode before).length = encode after := by simp [htext, encode]
  cases after with
  | nil => simp [htext, encode] at hb
  | cons c after =>
    obtain ⟨f, tail, henc, hchar⟩ := character_utf8EncodeChar c
    refine ⟨before ++ [c], after, by simp, ?_⟩
    rw [stride, hdrop]
    simp [encode, henc, utf8Length, hchar]

/-- Rows start and stop between characters. -/
theorem Wraps.boundary (htext : v.text = encode cs) (h : v.Wraps 0 rs) :
    ∀ row ∈ rs, Boundary cs row.start ∧ Boundary cs (row.start + row.bytes) := by
  have hwalk {pos stop cells} (h : v.Walk pos stop cells) (hpos : Boundary cs pos) :
      Boundary cs stop := by
    induction h with
    | done => exact hpos
    | next hb _ _ ih => exact ih (boundary_stride htext hb hpos)
  have hstep (offset row) (hfits : v.Fits offset row) (hoffset : Boundary cs offset) :
      Boundary cs row.offset := by
    have hstop := hwalk hfits.ends.choose_spec.1 hoffset
    rcases hfits.behind with heq | ⟨heq, hline⟩
    · exact heq ▸ hstop
    · have hnewline := boundary_stride htext hline hstop
      rwa [stride_eq hline, show (character 0x0a _).getD 0 = 0 from rfl, ← heq] at hnewline
  intro row hrow
  obtain ⟨hstart, hfits⟩ := h.invariant ⟨[], cs, rfl, rfl⟩ hstep row hrow
  exact ⟨hstart, hwalk hfits.ends.choose_spec.1 hstart⟩

/-- Repeated calls of `tui_text_wrap_next` from offset 0 come to an end. The rows they return and
the newlines they consume are the text. If the text is that of characters, no row splits one of
them. A row takes no more cells than the pane has columns, unless it is a single character. -/
theorem wrap_partition (v : Pane) (hcolumns : 0 < v.columns) :
    ∃ rs, v.Wraps 0 rs ∧ rs.flatMap v.content = v.text ∧
      (∀ cs, v.text = encode cs →
        ∀ row ∈ rs, Boundary cs row.start ∧ Boundary cs (row.start + row.bytes)) ∧
      ∀ row ∈ rs, v.cells row ≤ v.columns ∨ row.bytes = v.stride row.start := by
  have hwraps : v.Wraps 0 v.rows := wraps_rowsFrom (by omega)
  refine ⟨_, hwraps, hwraps.content hcolumns, fun cs htext => hwraps.boundary htext, ?_⟩
  intro row hrow
  obtain ⟨-, hfits⟩ := hwraps.invariant (P := fun _ => True) trivial (fun _ _ _ => id) row hrow
  obtain ⟨cells, hwalk, hcells⟩ := hfits.ends
  rw [Pane.cells, hwalk.cellsTo_eq le_rfl]
  exact hcells.imp id (by omega)

/-- Two words in a pane that has room for one. -/
theorem wrap_partition_words :
    let v : Pane := ⟨[0x61, 0x20, 0x62, 0x0a], 2, fun _ => 1⟩
    ∃ rs, v.Wraps 0 rs ∧ rs.flatMap v.content = v.text := by
  obtain ⟨rs, hwraps, hcontent, -⟩ :=
    wrap_partition ⟨[0x61, 0x20, 0x62, 0x0a], 2, fun _ => 1⟩ (by decide)
  exact ⟨rs, hwraps, hcontent⟩

/-! ## The cursor -/

variable {row column cursor : ℕ}

theorem place_le : toLex (v.place row column) ≤ toLex (row + 1, 0) := by
  rw [Prod.Lex.toLex_le_toLex]
  unfold place
  split_ifs
  exacts [.inr ⟨rfl, le_rfl⟩, .inl (lt_succ_self _)]

theorem place_mono {column' : ℕ} (h : column ≤ column') :
    toLex (v.place row column) ≤ toLex (v.place row column') := by
  by_cases hfull : v.columns ≤ column'
  · exact place_le.trans_eq (by rw [place, if_pos hfull])
  · rw [place, place, if_neg hfull, if_neg (by omega), Prod.Lex.toLex_le_toLex]
    exact .inr ⟨rfl, h⟩

theorem cellsTo_mono {stop' fuel : ℕ} (h : stop ≤ stop') :
    v.cellsTo stop fuel pos ≤ v.cellsTo stop' fuel pos := by
  induction fuel generalizing pos with
  | zero => exact le_rfl
  | succ fuel ih =>
    rw [cellsTo, cellsTo]
    split_ifs
    exacts [Nat.add_le_add_left ih _, by omega, Nat.zero_le _, le_rfl]

section

variable (hcolumns : 0 < v.columns)
include hcolumns

theorem place_zero (row : ℕ) : v.place row 0 = (row, 0) := if_neg (by omega)

theorem positionLoop_column : (v.positionLoop cursor rs row).2 < v.columns := by
  induction rs generalizing row with
  | nil => exact hcolumns
  | cons r rs ih =>
    rw [positionLoop, place]
    split_ifs
    exacts [hcolumns, by omega, ih]

theorem le_positionLoop : toLex (row, 0) ≤ toLex (v.positionLoop cursor rs row) := by
  have hzero (row) := place_zero hcolumns row
  induction rs generalizing row with
  | nil => exact le_rfl
  | cons r rs ih =>
    rw [positionLoop, ← hzero]
    split_ifs
    · exact place_mono (zero_le _)
    · exact place_le.trans ih

/-- A cursor that moves forward does not move up or back. -/
theorem positionLoop_mono {cursor' : ℕ} (h : cursor ≤ cursor') :
    toLex (v.positionLoop cursor rs row) ≤ toLex (v.positionLoop cursor' rs row) := by
  induction rs generalizing row with
  | nil => exact le_rfl
  | cons r rs ih =>
    rw [positionLoop, positionLoop]
    split_ifs
    · exact place_mono (cellsTo_mono (by omega))
    · exact place_le.trans (le_positionLoop hcolumns)
    · grind
    · exact ih

/-- Where the cursor is before a newline and behind it. -/
theorem positionLoop_newline {q : ℕ} (h : v.Wraps offset rs) (hq : offset ≤ q)
    (hline : v.text[q]? = some 0x0a) : ∃ r n, rs.find? (q < ·.offset) = some r ∧
      v.positionLoop q rs row = v.place n (v.cells r) ∧ v.positionLoop (q + 1) rs row =
        if r.offset = v.text.length ∧ r.bytes = 0 then (n, 0) else (n + 1, 0) := by
  have hlt := (List.getElem?_eq_some_iff.mp hline).1
  induction h generalizing row with
  | done hnone =>
    unfold wrapNext at hnone
    split_ifs at hnone
    omega
  | @next offset r rs hnext hrest ih =>
    obtain ⟨hstarts, ⟨cells, hwalk, -⟩, hlater, hbehind⟩ := fits_wrapNext hnext
    by_cases hin : q < r.offset
    · -- No byte of the row is a newline, so this one ends it.
      have hstop : r.start + r.bytes = q ∧ r.offset = q + 1 := by
        have hnone := hwalk.spec.2 q hq
        grind
      have hzero {stop fuel pos} (h : stop ≤ pos) : v.cellsTo stop fuel pos = 0 := by
        cases fuel <;> simp [cellsTo, h]
      refine ⟨r, row, by simp [hin], ?_, ?_⟩
      · rw [positionLoop, if_pos (.inl hin), Pane.cells, min_eq_right hstop.1.le]
      · rw [positionLoop]
        by_cases hlast : r.offset = v.text.length ∧ r.bytes = 0
        · rw [if_pos (.inr ⟨⟨hlast.1, .inl hlast.2⟩, hstop.2.symm⟩), if_pos hlast,
            hzero (by omega), place_zero hcolumns]
        · rw [if_neg (by grind), if_neg hlast]
          cases hrest with
          | done => rfl
          | next hnext' =>
            obtain ⟨hstarts', -, hlater', -⟩ := fits_wrapNext hnext'
            rw [positionLoop, if_pos (.inl (by omega)), hzero (by omega), place_zero hcolumns]
    · obtain ⟨r', n, hfind, hbefore, hafter⟩ := @ih (row + 1) (by omega)
      refine ⟨r', n, by simp [hin, hfind], ?_, ?_⟩
      · rw [positionLoop, if_neg (by omega), hbefore]
      · rw [positionLoop, if_neg (by omega), hafter]

end

/-- The cursor stays inside the pane and does not move back when it moves forward. A newline takes
it to the beginning of a lower row exactly if the row that the newline ends is not full and, when
the newline is the last byte of the text, not empty. -/
theorem cursor_below_newline_iff (v : Pane) (hcolumns : 0 < v.columns) :
    (∀ cursor, (v.position cursor).2 < v.columns) ∧
    (∀ cursor cursor', cursor ≤ cursor' →
      toLex (v.position cursor) ≤ toLex (v.position cursor')) ∧
    ∀ q, v.text[q]? = some 0x0a →
      ((v.position q).1 < (v.position (q + 1)).1 ∧ (v.position (q + 1)).2 = 0 ↔
        ∃ r, v.rows.find? (q < ·.offset) = some r ∧ v.cells r < v.columns ∧
          ¬ (r.offset = v.text.length ∧ r.bytes = 0)) := by
  have hposition (cursor) : v.position cursor = v.positionLoop cursor v.rows 0 :=
    if_neg hcolumns.ne'
  have hwraps : v.Wraps 0 v.rows := wraps_rowsFrom (by omega)
  simp only [hposition]
  refine ⟨fun _ => positionLoop_column hcolumns, fun _ _ => positionLoop_mono hcolumns,
    fun q hline => ?_⟩
  obtain ⟨r, n, hfind, hbefore, hafter⟩ := positionLoop_newline hcolumns hwraps q.zero_le hline
  rw [hbefore, hafter, hfind, place]
  grind

/-- `ab` fills the row before the newline, and the cursor is in the same place behind it. So it is
where a newline is all there is. -/
theorem full_row_newline : (Pane.mk [0x61, 0x62, 0x0a] 2 fun _ => 1).position 2 = (1, 0) ∧
    (Pane.mk [0x61, 0x62, 0x0a] 2 fun _ => 1).position 3 = (1, 0) ∧
    (Pane.mk [0x0a] 2 fun _ => 1).position 0 = (0, 0) ∧
    (Pane.mk [0x0a] 2 fun _ => 1).position 1 = (0, 0) := by
  decide

theorem cursor_below_newline_plain :
    let v : Pane := ⟨[0x61, 0x0a, 0x62], 2, fun _ => 1⟩
    (v.position 1).1 < (v.position 2).1 := by
  obtain ⟨-, -, h⟩ := cursor_below_newline_iff ⟨[0x61, 0x0a, 0x62], 2, fun _ => 1⟩ (by decide)
  exact ((h 1 rfl).mpr ⟨⟨0, 1, 2⟩, by decide, by decide, by decide⟩).1

end Pane

end Reticulum.Tui
