/-
**Drawing a bitmap.**

`parse_bmp` looks at the header of a BMP file, and `tegrabl_render_bmp` copies its pixels, row by row
from the bottom, into a buffer that is then written to the surface, turned by the rotation angle.

* `render_rotation`: the buffer of an angle is the clockwise rotation of the buffer of angle 0, and
  each of its cells is written once.
* `render_inside_iff`: width, height and depth are not compared with the size of the image data, so
  the reads stay inside only if the last pixel does.
-/

import Cboot.Error
import Cboot.Lib.ByteMem

namespace Cboot.Graphics

/-! ### The functions -/

structure BitmapFile where
  magic : BitVec 16
  fileSize : BitVec 32
  startOffset : BitVec 32
  width : BitVec 32
  height : BitVec 32
  depth : BitVec 16
  compressionType : BitVec 32
  imageSize : BitVec 32

def fillBmpHeader (buf : ByteMem) : BitmapFile where
  magic := word16 buf 0
  fileSize := word32 buf 2
  startOffset := word32 buf 10
  width := word32 buf 18
  height := word32 buf 22
  depth := word16 buf 28
  compressionType := word32 buf 30
  imageSize := word32 buf 34

def parseBmp (buf : ByteMem) (len : BitVec 32) : Result BitmapFile :=
  if len < 54 then tegrablError .graphics .invalid 1
  else
    let bmf := fillBmpHeader buf
    if bmf.magic ≠ 0x4D42 then tegrablError .graphics .notSupported 2
    else
      let imageSize := if bmf.imageSize = 0 then bmf.fileSize - bmf.startOffset else bmf.imageSize
      if bmf.fileSize.slt 0 || imageSize.slt 0 || bmf.fileSize < bmf.startOffset + imageSize ||
          len < bmf.fileSize then tegrablError .graphics .invalid 2
      else .ok { bmf with imageSize }

/-- The values `tegrabl_render_image_set_rotation_angle` stores. -/
inductive Angle
  | deg0
  | deg90
  | deg180
  | deg270

/-- A run of the loops: the bytes of the image data that are read, and the cells of the buffer of
`width * height` cells that are written. -/
structure Drawing where
  width : Nat
  height : Nat
  reads : List Nat
  writes : List (Nat × BitVec 32)

section Render

variable (bmf : BitmapFile)

def drawSize : Angle → Nat × Nat
  | .deg90 | .deg270 => (bmf.height.toNat, bmf.width.toNat)
  | .deg0 | .deg180 => (bmf.width.toNat, bmf.height.toNat)

def bytesPerPixel : Nat := bmf.depth.toNat / 8

def imageOffset (y : Nat) : Nat := y * ((bmf.width.toNat * bytesPerPixel bmf + 3) / 4 * 4) % 2 ^ 32

def pixelOffset (x y : Nat) : Nat := (imageOffset bmf y + x * bytesPerPixel bmf) % 2 ^ 32

def pixelBytes (x y : Nat) : List Nat :=
  (List.range (if bytesPerPixel bmf = 2 then 2 else 3)).map fun k => (pixelOffset bmf x y + k) % 2 ^ 32

def pixelColor (data : ByteMem) (x y : Nat) : BitVec 32 :=
  let byte (k : Nat) : BitVec 32 := (data ((pixelOffset bmf x y + k) % 2 ^ 32)).setWidth 32
  if bytesPerPixel bmf = 2 then
    let color := byte 0 ||| byte 1 <<< 8
    (color >>> 10 &&& 0x1f) ||| (color >>> 5 &&& 0x1f) <<< 8 ||| (color &&& 0x1f) <<< 16
  else byte 2 ||| byte 1 <<< 8 ||| byte 0 <<< 16

/-- Row and column of a pixel in the buffer. -/
def place (x y : Nat) : Angle → Nat × Nat
  | .deg90 => (x, y)
  | .deg180 => (y, bmf.width.toNat - x - 1)
  | .deg270 => (bmf.width.toNat - x - 1, bmf.height.toNat - y - 1)
  | .deg0 => (bmf.height.toNat - y - 1, x)

def surfaceIndex (angle : Angle) (x y : Nat) : Nat :=
  ((place bmf x y angle).1 * (drawSize bmf angle).1 + (place bmf x y angle).2) % 2 ^ 32

def pixels : List (Nat × Nat) :=
  (List.range bmf.height.toNat).flatMap fun y => (List.range bmf.width.toNat).map fun x => (x, y)

def drawPixels (data : ByteMem) (angle : Angle) : Drawing where
  width := (drawSize bmf angle).1
  height := (drawSize bmf angle).2
  reads := (pixels bmf).flatMap fun p => pixelBytes bmf p.1 p.2
  writes := (pixels bmf).map fun p => (surfaceIndex bmf angle p.1 p.2, pixelColor bmf data p.1 p.2)

/-- `tegrabl_render_bmp` behind `parse_bmp`, with the buffer allocated. A depth that is not supported
ends the loops at their first pixel. -/
def renderParsed (buf : ByteMem) (surfWidth surfHeight : Nat) (angle : Angle) : Result Drawing :=
  if bmf.compressionType ≠ 0 then tegrablError .graphics .notSupported 4
  else if bmf.height.slt 0 || bmf.width.slt 0 then tegrablError .graphics .invalid 4
  else if surfWidth < (drawSize bmf angle).1 then tegrablError .graphics .notSupported 6
  else if surfHeight < (drawSize bmf angle).2 then tegrablError .graphics .notSupported 7
  else if bytesPerPixel bmf ∉ [2, 3, 4] ∧ pixels bmf ≠ [] then tegrablError .graphics .notSupported 8
  else .ok (drawPixels bmf (buf.view bmf.startOffset.toNat) angle)

end Render

def tegrablRenderBmp (buf : ByteMem) (length : BitVec 32) (surfWidth surfHeight : Nat)
    (angle : Angle) : Result Drawing :=
  if length = 0 then tegrablError .graphics .invalid 3
  else do
    let bmf ← parseBmp buf length
    renderParsed bmf buf surfWidth surfHeight angle

/-! ### The buffer -/

namespace Drawing

variable (d : Drawing)

/-- A cell of the buffer, which was cleared before. -/
def cell (i : Nat) : BitVec 32 := ((d.writes.reverse.find? (·.1 = i)).map Prod.snd).getD 0

def pixel (row col : Nat) : BitVec 32 := d.cell (row * d.width + col)

theorem cell_of_write {d : Drawing} (once : (d.writes.map Prod.fst).Nodup) {i : Nat}
    {color : BitVec 32} (member : (i, color) ∈ d.writes) : d.cell i = color := by
  cases found : d.writes.reverse.find? (·.1 = i) with
  | none => simpa using List.find?_eq_none.mp found _ (List.mem_reverse.mpr member)
  | some write =>
    have isWrite : write ∈ d.writes := by simpa using List.mem_of_find?_eq_some found
    have index : write.1 = i := by simpa using List.find?_some found
    have same := List.inj_on_of_nodup_map once isWrite member index
    rw [cell, found, same]
    rfl

end Drawing

section Places

variable (bmf : BitmapFile)

theorem mem_pixels {x y : Nat} :
    (x, y) ∈ pixels bmf ↔ x < bmf.width.toNat ∧ y < bmf.height.toNat := by
  simp [pixels, and_comm]

/-- The pixel that is drawn at a row and a column. -/
def source (row col : Nat) : Angle → Nat × Nat
  | .deg90 => (row, col)
  | .deg180 => (bmf.width.toNat - col - 1, row)
  | .deg270 => (bmf.width.toNat - row - 1, bmf.height.toNat - col - 1)
  | .deg0 => (col, bmf.height.toNat - row - 1)

variable {row col : Nat} {angle : Angle} (small : bmf.width.toNat * bmf.height.toNat < 2 ^ 32)

theorem place_source (low : row < (drawSize bmf angle).2) (left : col < (drawSize bmf angle).1) :
    source bmf row col angle ∈ pixels bmf ∧
      place bmf (source bmf row col angle).1 (source bmf row col angle).2 angle = (row, col) := by
  cases angle <;> simp [source, place, drawSize, mem_pixels] at * <;> omega

include small

theorem surfaceIndex_source (low : row < (drawSize bmf angle).2)
    (left : col < (drawSize bmf angle).1) :
    surfaceIndex bmf angle (source bmf row col angle).1 (source bmf row col angle).2 =
      row * (drawSize bmf angle).1 + col := by
  have cells : (drawSize bmf angle).2 * (drawSize bmf angle).1 < 2 ^ 32 := by
    cases angle <;> simpa only [drawSize, Nat.mul_comm] using small
  have row' : (row + 1) * (drawSize bmf angle).1 ≤ (drawSize bmf angle).2 * (drawSize bmf angle).1 :=
    Nat.mul_le_mul_right _ low
  rw [Nat.succ_mul] at row'
  rw [surfaceIndex, (place_source bmf low left).2, Nat.mod_eq_of_lt (by dsimp only; omega)]

variable (angle) (data : ByteMem)

/-- Every cell is written once. -/
theorem writes_perm : ((drawPixels bmf data angle).writes.map Prod.fst).Perm
    (List.range ((drawSize bmf angle).1 * (drawSize bmf angle).2)) := by
  refine ((List.subperm_of_subset List.nodup_range fun i member => ?_).perm_of_length_le ?_).symm
  · have bound := List.mem_range.mp member
    have wide : 0 < (drawSize bmf angle).1 := Nat.pos_of_mul_pos_right (Nat.zero_lt_of_lt bound)
    have low : i / (drawSize bmf angle).1 < (drawSize bmf angle).2 := Nat.div_lt_of_lt_mul bound
    have left := Nat.mod_lt i wide
    refine List.mem_map.mpr ⟨_, List.mem_map.mpr ⟨_, (place_source bmf low left).1, rfl⟩, ?_⟩
    rw [surfaceIndex_source bmf small low left]
    exact Nat.div_add_mod' i _
  · cases angle <;> simp [drawPixels, pixels, drawSize, Nat.mul_comm]

theorem pixel_drawn (low : row < (drawSize bmf angle).2) (left : col < (drawSize bmf angle).1) :
    (drawPixels bmf data angle).pixel row col =
      pixelColor bmf data (source bmf row col angle).1 (source bmf row col angle).2 := by
  have once := (writes_perm bmf angle small data).nodup_iff.mpr List.nodup_range
  refine Drawing.cell_of_write once (List.mem_map.mpr ⟨_, (place_source bmf low left).1, ?_⟩)
  rw [surfaceIndex_source bmf small low left]
  rfl

end Places

/-! ### Rotation -/

def rotateClockwise {α : Type} (height width : Nat) (array : Nat → Nat → α) :
    Angle → Nat → Nat → α
  | .deg0 => array
  | .deg90 => fun row col => array (height - 1 - col) row
  | .deg180 => fun row col => array (height - 1 - row) (width - 1 - col)
  | .deg270 => fun row col => array col (width - 1 - row)

theorem render_drawn {buf : ByteMem} {length : BitVec 32} {surfWidth surfHeight : Nat}
    {angle : Angle} {d : Drawing}
    (drawn : tegrablRenderBmp buf length surfWidth surfHeight angle = .ok d) :
    ∃ bmf, parseBmp buf length = .ok bmf ∧ (bytesPerPixel bmf ∈ [2, 3, 4] ∨ pixels bmf = []) ∧
      d = drawPixels bmf (buf.view bmf.startOffset.toNat) angle := by
  unfold tegrablRenderBmp at drawn
  cases parsed : parseBmp buf length with
  | error e => split_ifs at drawn <;> simp [parsed, bind, Except.bind, tegrablError] at drawn
  | ok bmf =>
    simp only [parsed, bind, Except.bind, renderParsed] at drawn
    split_ifs at drawn with _ _ _ _ _ depth <;>
      simp only [tegrablError, reduceCtorEq, Except.ok.injEq] at drawn
    exact ⟨bmf, rfl, by simpa only [not_and_or, not_not] using depth, drawn.symm⟩

theorem render_rotation {buf : ByteMem} {length : BitVec 32} {angle : Angle} {d₀ d : Drawing}
    {surfWidth₀ surfHeight₀ surfWidth surfHeight : Nat}
    (upright : tegrablRenderBmp buf length surfWidth₀ surfHeight₀ .deg0 = .ok d₀)
    (turned : tegrablRenderBmp buf length surfWidth surfHeight angle = .ok d)
    (small : d₀.width * d₀.height * 4 < 2 ^ 32) :
    (d.writes.map Prod.fst).Perm (List.range (d.width * d.height)) ∧
      (d.width, d.height) = (match angle with
        | .deg0 | .deg180 => (d₀.width, d₀.height)
        | .deg90 | .deg270 => (d₀.height, d₀.width)) ∧
      ∀ row < d.height, ∀ col < d.width,
        d.pixel row col = rotateClockwise d₀.height d₀.width d₀.pixel angle row col := by
  obtain ⟨bmf, parsed, -, rfl⟩ := render_drawn upright
  obtain ⟨bmf', parsed', -, rfl⟩ := render_drawn turned
  obtain rfl : bmf = bmf' := Except.ok.inj (parsed.symm.trans parsed')
  have cells : bmf.width.toNat * bmf.height.toNat < 2 ^ 32 := by
    have := small
    simp only [drawPixels, drawSize] at this
    omega
  refine ⟨writes_perm bmf angle cells _, by cases angle <;> rfl, fun row low col left => ?_⟩
  rw [pixel_drawn bmf angle cells _ low left]
  cases angle <;> simp only [drawPixels, drawSize, rotateClockwise] at low left ⊢ <;>
    refine Eq.symm ((pixel_drawn bmf .deg0 cells _ ?_ ?_).trans ?_) <;>
    simp only [drawSize, source] <;> try omega
  all_goals congr 1 <;> omega

/-- A file of 62 bytes: one row of 32-bit pixels, of which it holds two. -/
def oneRow (width : Byte) : ByteMem
  | 0 => 0x42
  | 1 => 0x4d
  | 2 => 62
  | 10 => 54
  | 18 => width
  | 22 => 1
  | 28 => 32
  | 34 => 8
  | _ => 0

theorem oneRow_drawn (angle : Angle) : ∃ d, tegrablRenderBmp (oneRow 2) 62 9 9 angle = .ok d ∧
    d.width * d.height * 4 < 2 ^ 32 := by
  cases angle <;> exact ⟨_, rfl, by decide⟩

theorem render_rotation_oneRow : ∃ d₀ d, tegrablRenderBmp (oneRow 2) 62 9 9 .deg0 = .ok d₀ ∧
    tegrablRenderBmp (oneRow 2) 62 9 9 .deg90 = .ok d ∧
      (d.width, d.height) = (d₀.height, d₀.width) := by
  obtain ⟨d₀, upright, small⟩ := oneRow_drawn .deg0
  obtain ⟨d, turned, -⟩ := oneRow_drawn .deg90
  exact ⟨d₀, d, upright, turned, (render_rotation upright turned small).2.1⟩

/-! ### The bytes read -/

section Reads

variable (bmf : BitmapFile)

/-- The end of the bytes of a pixel, without wrapping. -/
def pixelEnd (x y : Nat) : Nat :=
  y * ((bmf.width.toNat * bytesPerPixel bmf + 3) / 4 * 4) + x * bytesPerPixel bmf +
    if bytesPerPixel bmf = 2 then 2 else 3

def lastEnd : Nat := pixelEnd bmf (bmf.width.toNat - 1) (bmf.height.toNat - 1)

variable {bmf} {data : ByteMem} {angle : Angle} {x y o : Nat}

theorem mem_reads : o ∈ (drawPixels bmf data angle).reads ↔ ∃ x y, (x, y) ∈ pixels bmf ∧
    ∃ k < if bytesPerPixel bmf = 2 then 2 else 3, (pixelOffset bmf x y + k) % 2 ^ 32 = o := by
  simp [drawPixels, pixelBytes]

theorem pixelOffset_add (k : Nat) : (pixelOffset bmf x y + k) % 2 ^ 32 =
    (pixelEnd bmf x y - (if bytesPerPixel bmf = 2 then 2 else 3) + k) % 2 ^ 32 := by
  simp only [pixelOffset, imageOffset, pixelEnd, Nat.add_sub_cancel, Nat.mod_add_mod]

theorem pixelEnd_le (member : (x, y) ∈ pixels bmf) : pixelEnd bmf x y ≤ lastEnd bmf := by
  obtain ⟨left, top⟩ := (mem_pixels bmf).mp member
  exact Nat.add_le_add_right (Nat.add_le_add (Nat.mul_le_mul_right _ (by omega))
    (Nat.mul_le_mul_right _ (by omega))) _

theorem read_last (member : (x, y) ∈ pixels bmf) (below : pixelEnd bmf x y ≤ 2 ^ 32) :
    pixelEnd bmf x y - 1 ∈ (drawPixels bmf data angle).reads := by
  refine mem_reads.mpr ⟨x, y, member, (if bytesPerPixel bmf = 2 then 2 else 3) - 1, ?_, ?_⟩
  · split_ifs <;> omega
  · rw [pixelOffset_add, Nat.mod_eq_of_lt]
    all_goals
      rw [pixelEnd] at *
      split_ifs at * <;> omega

theorem reads_lt (below : lastEnd bmf ≤ 2 ^ 32) (member : o ∈ (drawPixels bmf data angle).reads) :
    o < lastEnd bmf := by
  obtain ⟨x, y, inside, k, small, rfl⟩ := mem_reads.mp member
  have last := pixelEnd_le inside
  have whole : (if bytesPerPixel bmf = 2 then 2 else 3) ≤ pixelEnd bmf x y := Nat.le_add_left _ _
  rw [pixelOffset_add, Nat.mod_eq_of_lt] <;> omega

theorem last_pixel (some : pixels bmf ≠ []) :
    (bmf.width.toNat - 1, bmf.height.toNat - 1) ∈ pixels bmf ∧
      0 < bmf.width.toNat ∧ 0 < bmf.height.toNat := by
  obtain ⟨⟨x, y⟩, member⟩ := List.exists_mem_of_ne_nil _ some
  have inside := (mem_pixels bmf).mp member
  exact ⟨(mem_pixels bmf).mpr (by omega), by omega⟩

theorem cells_le_lastEnd (depth : bytesPerPixel bmf ∈ [2, 3, 4]) (some : pixels bmf ≠ []) :
    bmf.width.toNat * bmf.height.toNat ≤ lastEnd bmf := by
  obtain ⟨_, left, top⟩ := last_pixel some
  have pixel : 1 ≤ bytesPerPixel bmf := by
    simp only [List.mem_cons, List.not_mem_nil, or_false] at depth
    omega
  have row : bmf.width.toNat ≤ (bmf.width.toNat * bytesPerPixel bmf + 3) / 4 * 4 := by
    have := Nat.le_mul_of_pos_right bmf.width.toNat pixel
    omega
  have rows := Nat.mul_le_mul_left (bmf.height.toNat - 1) row
  have cols := Nat.le_mul_of_pos_right (bmf.width.toNat - 1) pixel
  have whole := Nat.sub_one_mul bmf.height.toNat bmf.width.toNat
  have := Nat.le_mul_of_pos_left bmf.width.toNat top
  rw [Nat.mul_comm, lastEnd, pixelEnd]
  split_ifs <;> omega

/-- Where every read stays below a bound, no offset wraps before the last pixel: the next pixel is only
a few bytes away. -/
theorem lastEnd_le {bound : Nat} (small : bound < 2 ^ 31) (depth : bytesPerPixel bmf ∈ [2, 3, 4])
    (some : pixels bmf ≠ []) (inside : ∀ o ∈ (drawPixels bmf data angle).reads, o < bound) :
    lastEnd bmf ≤ bound := by
  have near (x y : Nat) (member : (x, y) ∈ pixels bmf) (below : pixelEnd bmf x y ≤ 2 ^ 32) :
      pixelEnd bmf x y ≤ bound := by
    have := inside _ (read_last member below)
    omega
  obtain ⟨-, left, top⟩ := last_pixel some
  have wide : bytesPerPixel bmf ≤ 4 := by
    simp only [List.mem_cons, List.not_mem_nil, or_false] at depth
    omega
  have row (y : Nat) (low : y < bmf.height.toNat) (first : pixelEnd bmf 0 y ≤ 2 ^ 32) (x : Nat)
      (inRow : x < bmf.width.toNat) : pixelEnd bmf x y ≤ bound := by
    induction x with
    | zero => exact near 0 y ((mem_pixels bmf).mpr ⟨inRow, low⟩) first
    | succ x before =>
      have next : pixelEnd bmf (x + 1) y = pixelEnd bmf x y + bytesPerPixel bmf := by
        simp only [pixelEnd, Nat.succ_mul]
        omega
      have := before (by omega)
      exact near _ y ((mem_pixels bmf).mpr ⟨inRow, low⟩) (by omega)
  have rows (y : Nat) (low : y < bmf.height.toNat) : pixelEnd bmf 0 y ≤ 2 ^ 32 := by
    induction y with
    | zero =>
      rw [pixelEnd]
      split_ifs <;> omega
    | succ y before =>
      have last := row y (by omega) (before (by omega)) (bmf.width.toNat - 1) (by omega)
      have next : pixelEnd bmf 0 (y + 1) ≤
          pixelEnd bmf (bmf.width.toNat - 1) y + bytesPerPixel bmf + 3 := by
        have := Nat.sub_one_mul bmf.width.toNat (bytesPerPixel bmf)
        have := Nat.le_mul_of_pos_left (bytesPerPixel bmf) left
        simp only [pixelEnd, Nat.succ_mul]
        omega
      omega
  exact row _ (by omega) (rows _ (by omega)) _ (by omega)

end Reads

theorem parse_small {buf : ByteMem} {length : BitVec 32} {bmf : BitmapFile}
    (parsed : parseBmp buf length = .ok bmf) : bmf.imageSize.toNat < 2 ^ 31 := by
  simp only [parseBmp, tegrablError] at parsed
  generalize (if (fillBmpHeader buf).imageSize = 0 then _ else _) = size at parsed
  split_ifs at parsed with _ _ bad
  obtain rfl := Except.ok.inj parsed
  simp only [Bool.or_eq_true, not_or, Bool.not_eq_true] at bad
  have sign : size.msb = false := BitVec.slt_zero_eq_msb.symm.trans bad.1.1.2
  exact BitVec.toNat_lt_of_msb_false sign

theorem render_inside_iff {buf : ByteMem} {length : BitVec 32} {surfWidth surfHeight : Nat}
    {angle : Angle} {bmf : BitmapFile} {d : Drawing} (parsed : parseBmp buf length = .ok bmf)
    (drawn : tegrablRenderBmp buf length surfWidth surfHeight angle = .ok d) :
    ((∀ o ∈ d.reads,
        o < bmf.imageSize.toNat ∧ bmf.startOffset.toNat + o < length.toNat) ∧
      ∀ write ∈ d.writes, write.1 < d.width * d.height % 2 ^ 32) ↔
    pixels bmf = [] ∨
      lastEnd bmf ≤ bmf.imageSize.toNat ∧ bmf.startOffset.toNat + lastEnd bmf ≤ length.toNat := by
  obtain ⟨bmf', parsed', depth, rfl⟩ := render_drawn drawn
  obtain rfl : bmf = bmf' := Except.ok.inj (parsed.symm.trans parsed')
  have small := parse_small parsed
  by_cases none : pixels bmf = []
  · simp [drawPixels, none]
  have depth := depth.resolve_right none
  simp only [none, false_or]
  constructor
  · rintro ⟨reads, -⟩
    have image := lastEnd_le small depth none fun o member => (reads o member).1
    have last := reads _ (read_last (last_pixel none).1 (image.trans (by omega)))
    exact ⟨image, by rw [lastEnd]; omega⟩
  · rintro ⟨image, file⟩
    have cells := cells_le_lastEnd depth none
    refine ⟨fun o member => ?_, fun write member => ?_⟩
    · have := reads_lt (by omega) member
      omega
    · have index := (writes_perm bmf angle (by omega) _).subset (List.mem_map_of_mem member)
      rw [Nat.mod_eq_of_lt]
      · exact List.mem_range.mp index
      · cases angle <;> simp only [drawPixels, drawSize] <;> lia

theorem render_inside_oneRow : ∃ bmf d, parseBmp (oneRow 2) 62 = .ok bmf ∧
    tegrablRenderBmp (oneRow 2) 62 9 9 .deg0 = .ok d ∧
      ∀ write ∈ d.writes, write.1 < d.width * d.height % 2 ^ 32 := by
  have parsed : parseBmp (oneRow 2) 62 = .ok _ := rfl
  obtain ⟨d, drawn, -⟩ := oneRow_drawn .deg0
  exact ⟨_, d, parsed, drawn, ((render_inside_iff parsed drawn).mpr (.inr (by decide))).2⟩

theorem pixels_behind_image : ∃ bmf d, parseBmp (oneRow 9) 62 = .ok bmf ∧
    tegrablRenderBmp (oneRow 9) 62 9 9 .deg0 = .ok d ∧
      32 ∈ d.reads ∧ bmf.imageSize = 8 ∧ ¬bmf.startOffset.toNat + 32 < 62 :=
  ⟨_, _, rfl, rfl, by decide, by decide, by decide⟩

end Cboot.Graphics
