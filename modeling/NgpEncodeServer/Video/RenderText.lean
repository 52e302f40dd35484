import NgpEncodeServer.Video.RenderedFrame

/-!
# `RenderTextContext::render_string_to_frame`

The text overlay draws white pixels over the scene picture.  FreeType is outside the repository, so
what `FT_Load_Char` leaves in the glyph slot of the face is an argument, `loadChar`; it may depend
on the slot it overwrites, because a character that fails to load is drawn from what is left there.

The arithmetic is that of the code: `pen_x`, `pen_y` and the loop variables are 32-bit signed, the
dimensions of the picture and of the bitmap 32-bit unsigned, and an operation on both is unsigned.
-/

namespace Ngp

/-- What `render_string_to_frame` reads from the glyph slot. -/
structure GlyphSlot where
  bitmapLeft : Int32
  bitmapTop : Int32
  bitmapWidth : UInt32
  bitmapRows : UInt32
  /-- `bitmap.buffer`. -/
  buffer : List UInt8
  /-- `advance.x`, in units of 1/64 pixel. -/
  advanceX : Int64
  deriving DecidableEq, Repr

/-- `RenderPosition`. -/
inductive RenderPosition where
  | leftTop
  | leftBottom
  | rightTop
  | rightBottom
  | center
  deriving DecidableEq, Repr

namespace RenderTextContext

/-- The pen position a rendering starts from, with `x_box = 300`, `y_box = 100` and
`margin = 50`. -/
def anchor (width height : UInt32) : RenderPosition → Int32 × Int32
  | .leftTop => (50, 50)
  | .leftBottom => (50, (height - 100 + 50).toInt32)
  | .rightTop => ((width - 300 + 50).toInt32, 50)
  | .rightBottom => ((width - 300 + 50).toInt32, (height - 100 + 50).toInt32)
  | .center => ((width / 2 - 300).toInt32, (height / 2 - 100).toInt32)

/-- The number of iterations of a loop that counts up from `start` while it is below `stop`. -/
def loopCount (start stop : Int32) : ℕ := (stop.toInt - start.toInt).toNat

/-- The bytes written for the cell `(p, q)` of a glyph that falls on the pixel `(i, j)`. -/
def cellOffsets (width height : UInt32) (slot : GlyphSlot) (i j : Int32) (p q : ℕ) : List UInt32 :=
  if i < 0 ∨ j < 0 ∨ width ≤ i.toUInt32 ∨ height ≤ j.toUInt32 then []
  else
    let cell := UInt32.ofNat q * slot.bitmapWidth + UInt32.ofNat p
    if slot.buffer.getD cell.toNat 0 ≠ 0 then
      let offset := (j.toUInt32 * width + i.toUInt32) * 3
      [offset, offset + 1, offset + 2]
    else []

/-- The bytes written for a glyph, row by row. -/
def glyphOffsets (width height : UInt32) (slot : GlyphSlot) (penX penY : Int32) : List UInt32 :=
  let iStart := penX + slot.bitmapLeft
  let jStart := penY - slot.bitmapTop
  let xMax := (iStart.toUInt32 + slot.bitmapWidth).toInt32
  let yMax := (jStart.toUInt32 + slot.bitmapRows).toInt32
  (List.range (loopCount jStart yMax)).flatMap fun q =>
    (List.range (loopCount iStart xMax)).flatMap fun p =>
      cellOffsets width height slot (iStart + Int32.ofNat p) (jStart + Int32.ofNat q) p q

/-- The loop over the characters of the string. -/
def contentOffsets (width height : UInt32) (loadChar : GlyphSlot → UInt8 → GlyphSlot)
    (origPenX : Int32) : List UInt8 → Int32 → Int32 → GlyphSlot → List UInt32
  | [], _, _, _ => []
  | ch :: content, penX, penY, slot =>
    if ch = 10 then
      contentOffsets width height loadChar origPenX content origPenX (penY + 20) slot
    else
      let slot := loadChar slot ch
      glyphOffsets width height slot penX penY ++
        contentOffsets width height loadChar origPenX content
          (penX.toInt64 + slot.advanceX >>> 6).toInt32 penY slot

/-- The bytes of the surface that one call writes, in order. -/
def renderOffsets (loadChar : GlyphSlot → UInt8 → GlyphSlot) (slot : GlyphSlot)
    (frame : FrameManager) (opt : RenderPosition) (content : List UInt8) : List UInt32 :=
  let width := frame.context.width
  let height := frame.context.height
  let pen := anchor width height opt
  contentOffsets width height loadChar pen.1 content pen.1 pen.2 slot

/-- `render_string_to_frame`: every byte it writes is `255`. -/
def renderStringToFrame (loadChar : GlyphSlot → UInt8 → GlyphSlot) (slot : GlyphSlot)
    (frame : FrameManager) (opt : RenderPosition) (content : List UInt8) : FrameManager :=
  let offsets := renderOffsets loadChar slot frame opt content
  { frame with
    buffer := frame.buffer.map fun surface =>
      offsets.foldl (fun surface offset => surface.set offset.toNat 255) surface }

/-! ### The bytes written belong to the picture -/

/-- The three bytes of a pixel inside a picture of `w * h` pixels. -/
theorem pixel_lt {w h i j c : ℕ} (hi : i < w) (hj : j < h) (hc : c < 3) :
    (j * w + i) * 3 + c < 3 * w * h := by
  have hrow : j * w + i < (j + 1) * w := by
    rw [Nat.succ_mul]
    omega
  have hlast : (j + 1) * w ≤ h * w := Nat.mul_le_mul_right w hj
  have htotal : 3 * w * h = 3 * (h * w) := by
    rw [Nat.mul_assoc, Nat.mul_comm w h]
  omega

/-- The 32-bit offset of a byte of a pixel is at most the exact one. -/
theorem toNat_offset_le (width i j c : UInt32) :
    ((j * width + i) * 3 + c).toNat ≤ (j.toNat * width.toNat + i.toNat) * 3 + c.toNat := by
  have hadd : ∀ a b : UInt32, (a + b).toNat ≤ a.toNat + b.toNat :=
    fun a b => UInt32.toNat_add a b ▸ Nat.mod_le _ _
  have hmul : ∀ a b : UInt32, (a * b).toNat ≤ a.toNat * b.toNat :=
    fun a b => UInt32.toNat_mul a b ▸ Nat.mod_le _ _
  calc ((j * width + i) * 3 + c).toNat
      ≤ ((j * width + i) * 3).toNat + c.toNat := hadd _ _
    _ ≤ (j * width + i).toNat * 3 + c.toNat := Nat.add_le_add_right (hmul _ 3) _
    _ ≤ ((j * width).toNat + i.toNat) * 3 + c.toNat :=
        Nat.add_le_add_right (Nat.mul_le_mul_right 3 (hadd _ _)) _
    _ ≤ (j.toNat * width.toNat + i.toNat) * 3 + c.toNat :=
        Nat.add_le_add_right (Nat.mul_le_mul_right 3 (Nat.add_le_add_right (hmul _ _) _)) _

variable {width height : UInt32} {slot : GlyphSlot} {o : UInt32}

/-- Every byte written for a cell belongs to a pixel of the picture. -/
theorem lt_of_mem_cellOffsets {i j : Int32} {p q : ℕ}
    (h : o ∈ cellOffsets width height slot i j p q) :
    o.toNat < 3 * width.toNat * height.toNat := by
  unfold cellOffsets at h
  split at h
  · cases h
  · rename_i hguard
    simp only [not_or, UInt32.not_le] at hguard
    obtain ⟨-, -, hi, hj⟩ := hguard
    have hbyte : ∀ c : UInt32, c.toNat < 3 →
        ((j.toUInt32 * width + i.toUInt32) * 3 + c).toNat < 3 * width.toNat * height.toNat :=
      fun c hc => Nat.lt_of_le_of_lt (toNat_offset_le width i.toUInt32 j.toUInt32 c)
        (pixel_lt hi hj hc)
    dsimp only at h
    split at h
    · rcases List.mem_cons.mp h with rfl | h
      · simpa using hbyte 0 (by decide)
      · rcases List.mem_cons.mp h with rfl | h
        · exact hbyte 1 (by decide)
        · rw [List.mem_singleton.mp h]
          exact hbyte 2 (by decide)
    · cases h

/-- Every byte written for a glyph belongs to a pixel of the picture. -/
theorem lt_of_mem_glyphOffsets {penX penY : Int32}
    (h : o ∈ glyphOffsets width height slot penX penY) :
    o.toNat < 3 * width.toNat * height.toNat := by
  obtain ⟨q, -, hq⟩ := List.mem_flatMap.mp h
  obtain ⟨p, -, hp⟩ := List.mem_flatMap.mp hq
  exact lt_of_mem_cellOffsets hp

/-- Every byte written for a string belongs to a pixel of the picture. -/
theorem lt_of_mem_contentOffsets {loadChar : GlyphSlot → UInt8 → GlyphSlot} {origPenX : Int32}
    {content : List UInt8} {penX penY : Int32}
    (h : o ∈ contentOffsets width height loadChar origPenX content penX penY slot) :
    o.toNat < 3 * width.toNat * height.toNat := by
  induction content generalizing penX penY slot with
  | nil => cases h
  | cons ch content ih =>
    unfold contentOffsets at h
    split at h
    · exact ih h
    · rcases List.mem_append.mp h with h | h
      · exact lt_of_mem_glyphOffsets h
      · exact ih h

/-- Every byte `render_string_to_frame` writes belongs to a pixel of the picture, of the size the
picture is said to have. -/
theorem lt_of_mem_renderOffsets {loadChar : GlyphSlot → UInt8 → GlyphSlot} {frame : FrameManager}
    {opt : RenderPosition} {content : List UInt8}
    (h : o ∈ renderOffsets loadChar slot frame opt content) :
    o.toNat < 3 * frame.context.width.toNat * frame.context.height.toNat :=
  lt_of_mem_contentOffsets h

/-- A glyph of one row and two cells, the second of which is beyond the right edge. -/
example : glyphOffsets 4 2 ⟨0, 0, 2, 1, [1, 1], 0⟩ 3 1 = [21, 22, 23] := by decide

end RenderTextContext

end Ngp
