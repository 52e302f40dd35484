import Mathlib.Data.List.GetD
import NgpEncodeServer.Foundation.ListUpdate
import NgpEncodeServer.Foundation.MachineInt
import NgpEncodeServer.Video.RenderText

/-!
# The text overlay is a clipped blit

`penStops` follows the pen over a string in exact integers, and `referenceBlit` paints white every
pixel of the picture on which some glyph has a cell that is not blank.  The code computes in 32-bit
words, half of them unsigned, and `render_eq_referenceBlit` says that it paints the same picture
whenever pens and glyphs stay within 32-bit signed integers and no bitmap has more than `2 ^ 32`
cells.  The last condition is needed: the index of a cell is an unsigned 32-bit product, so a larger
bitmap is read from its beginning again (`tallGlyph_not_referenceBlit`).

`CellAccess` records what the loops of the code do at each cell that falls on the picture.
-/

namespace Ngp

namespace RenderTextContext

/-! ### The reference -/

/-- A position of the pen, in exact integers. -/
structure PenStop where
  x : ℤ
  y : ℤ
  /-- The glyph drawn here. At a newline and at the end of the string nothing is drawn. -/
  glyph : Option GlyphSlot
  deriving DecidableEq, Repr

namespace PenStop

/-- The pen and the edges of the glyph drawn here fit in a 32-bit `int`. -/
def Fits (s : PenStop) : Prop :=
  FitsInt32 s.x ∧ FitsInt32 s.y ∧ ∀ slot ∈ s.glyph,
    (FitsInt32 (s.x + slot.bitmapLeft.toInt) ∧
      FitsInt32 (s.x + slot.bitmapLeft.toInt + slot.bitmapWidth.toNat)) ∧
    (FitsInt32 (s.y - slot.bitmapTop.toInt) ∧
      FitsInt32 (s.y - slot.bitmapTop.toInt + slot.bitmapRows.toNat))

instance (s : PenStop) : Decidable s.Fits := inferInstanceAs (Decidable (_ ∧ _))

/-- A glyph drawn here has a cell on the pixel `(x, y)` that is not blank.  `read` gives the index
at which a cell is looked up in the bitmap. -/
def Paints (read : ℕ → ℕ) (s : PenStop) (x y : ℤ) : Prop :=
  ∃ slot ∈ s.glyph, ∃ q < slot.bitmapRows.toNat, ∃ p < slot.bitmapWidth.toNat,
    slot.buffer.getD (read (q * slot.bitmapWidth.toNat + p)) 0 ≠ 0 ∧
      x = s.x + slot.bitmapLeft.toInt + p ∧ y = s.y - slot.bitmapTop.toInt + q

instance (read : ℕ → ℕ) (s : PenStop) (x y : ℤ) : Decidable (s.Paints read x y) :=
  inferInstanceAs (Decidable (∃ slot ∈ s.glyph, _))

end PenStop

/-- The pen position a rendering starts from. -/
def exactAnchor (width height : ℕ) : RenderPosition → ℤ × ℤ
  | .leftTop => (50, 50)
  | .leftBottom => (50, height - 50)
  | .rightTop => (width - 250, 50)
  | .rightBottom => (width - 250, height - 50)
  | .center => (width / 2 - 300, height / 2 - 100)

/-- The stops of the pen over a string: a newline returns to the column `origX`, 20 pixels down, and
a glyph advances the pen by its advance, rounded down to whole pixels. -/
def penPath (loadChar : GlyphSlot → UInt8 → GlyphSlot) (origX : ℤ) :
    List UInt8 → ℤ → ℤ → GlyphSlot → List PenStop
  | [], x, y, _ => [⟨x, y, none⟩]
  | ch :: content, x, y, slot =>
    if ch = 10 then ⟨x, y, none⟩ :: penPath loadChar origX content origX (y + 20) slot
    else
      let slot := loadChar slot ch
      ⟨x, y, some slot⟩ :: penPath loadChar origX content (x + slot.advanceX.toInt / 64) y slot

/-- The stops of the pen in one rendering. -/
def penStops (loadChar : GlyphSlot → UInt8 → GlyphSlot) (slot : GlyphSlot) (frame : FrameManager)
    (opt : RenderPosition) (content : List UInt8) : List PenStop :=
  let pen := exactAnchor frame.context.width.toNat frame.context.height.toNat opt
  penPath loadChar pen.1 content pen.1 pen.2 slot

/-- The picture with the three bytes of a pixel white if a glyph has a cell there that is not
blank. -/
def referenceBlit (width : ℕ) (stops : List PenStop) (surface : List UInt8) : List UInt8 :=
  surface.mapIdx fun k byte =>
    if ∃ s ∈ stops, s.Paints id ↑(k / 3 % width) ↑(k / 3 / width) then 255 else byte

/-! ### The accesses of the code -/

/-- What the innermost loop does at a cell that falls on the picture. -/
structure CellAccess where
  slot : GlyphSlot
  /-- The index read in `bitmap.buffer`. -/
  cell : UInt32
  /-- The first byte of the pixel. -/
  offset : UInt32
  deriving DecidableEq, Repr

/-- The bytes written after the cell is read. -/
def CellAccess.writes (a : CellAccess) : List UInt32 :=
  if a.slot.buffer.getD a.cell.toNat 0 ≠ 0 then [a.offset, a.offset + 1, a.offset + 2] else []

/-- The access at the cell `(p, q)`, if it falls on the picture. -/
def cellAccesses (width height : UInt32) (slot : GlyphSlot) (i j : Int32) (p q : ℕ) :
    List CellAccess :=
  if i < 0 ∨ j < 0 ∨ width ≤ i.toUInt32 ∨ height ≤ j.toUInt32 then []
  else
    [⟨slot, UInt32.ofNat q * slot.bitmapWidth + UInt32.ofNat p,
      (j.toUInt32 * width + i.toUInt32) * 3⟩]

/-- The accesses for a glyph, row by row. -/
def glyphAccesses (width height : UInt32) (slot : GlyphSlot) (penX penY : Int32) :
    List CellAccess :=
  let iStart := penX + slot.bitmapLeft
  let jStart := penY - slot.bitmapTop
  let xMax := (iStart.toUInt32 + slot.bitmapWidth).toInt32
  let yMax := (jStart.toUInt32 + slot.bitmapRows).toInt32
  (List.range (loopCount jStart yMax)).flatMap fun q =>
    (List.range (loopCount iStart xMax)).flatMap fun p =>
      cellAccesses width height slot (iStart + Int32.ofNat p) (jStart + Int32.ofNat q) p q

/-- The accesses for a string. -/
def contentAccesses (width height : UInt32) (loadChar : GlyphSlot → UInt8 → GlyphSlot)
    (origPenX : Int32) : List UInt8 → Int32 → Int32 → GlyphSlot → List CellAccess
  | [], _, _, _ => []
  | ch :: content, penX, penY, slot =>
    if ch = 10 then
      contentAccesses width height loadChar origPenX content origPenX (penY + 20) slot
    else
      let slot := loadChar slot ch
      glyphAccesses width height slot penX penY ++
        contentAccesses width height loadChar origPenX content
          (penX.toInt64 + slot.advanceX >>> 6).toInt32 penY slot

/-- The accesses of one call. -/
def renderAccesses (loadChar : GlyphSlot → UInt8 → GlyphSlot) (slot : GlyphSlot)
    (frame : FrameManager) (opt : RenderPosition) (content : List UInt8) : List CellAccess :=
  let width := frame.context.width
  let height := frame.context.height
  let pen := anchor width height opt
  contentAccesses width height loadChar pen.1 content pen.1 pen.2 slot

section Accesses

variable {width height : UInt32} {loadChar : GlyphSlot → UInt8 → GlyphSlot}

/-- A cell is written exactly where it is accessed. -/
theorem cellOffsets_eq (slot : GlyphSlot) (i j : Int32) (p q : ℕ) :
    cellOffsets width height slot i j p q =
      (cellAccesses width height slot i j p q).flatMap CellAccess.writes := by
  unfold cellOffsets cellAccesses
  split
  · rfl
  · simp only [List.flatMap_cons, List.flatMap_nil, List.append_nil]
    rfl

theorem glyphOffsets_eq (slot : GlyphSlot) (penX penY : Int32) :
    glyphOffsets width height slot penX penY =
      (glyphAccesses width height slot penX penY).flatMap CellAccess.writes := by
  unfold glyphOffsets glyphAccesses
  simp only [List.flatMap_assoc, cellOffsets_eq]

theorem contentOffsets_eq (origPenX : Int32) (content : List UInt8) (penX penY : Int32)
    (slot : GlyphSlot) :
    contentOffsets width height loadChar origPenX content penX penY slot =
      (contentAccesses width height loadChar origPenX content penX penY slot).flatMap
        CellAccess.writes := by
  induction content generalizing penX penY slot with
  | nil => rfl
  | cons ch content ih =>
    unfold contentOffsets contentAccesses
    split
    · exact ih origPenX (penY + 20) slot
    · dsimp only
      rw [List.flatMap_append, glyphOffsets_eq, ih]

/-- The bytes a call writes are those its accesses write. -/
theorem renderOffsets_eq (slot : GlyphSlot) (frame : FrameManager) (opt : RenderPosition)
    (content : List UInt8) :
    renderOffsets loadChar slot frame opt content =
      (renderAccesses loadChar slot frame opt content).flatMap CellAccess.writes :=
  contentOffsets_eq ..

end Accesses

/-! ### Where the accesses fall -/

/-- The pixel `(x, y)` belongs to the picture. -/
def InPicture (width height : UInt32) (x y : ℤ) : Prop :=
  (0 ≤ x ∧ x < width.toNat) ∧ 0 ≤ y ∧ y < height.toNat

/-- The access at the cell `(p, q)` of a glyph, when it falls on the pixel `(x, y)`. -/
def accessAt (width : UInt32) (slot : GlyphSlot) (x y : ℤ) (p q : ℕ) : CellAccess where
  slot := slot
  cell := UInt32.ofNat (q * slot.bitmapWidth.toNat + p)
  offset := UInt32.ofNat ((y.toNat * width.toNat + x.toNat) * 3)

/-- The glyph drawn at `s` makes the code access `a`. -/
def PenStop.Accesses (width height : UInt32) (s : PenStop) (a : CellAccess) : Prop :=
  ∃ slot ∈ s.glyph, ∃ q < slot.bitmapRows.toNat, ∃ p < slot.bitmapWidth.toNat,
    InPicture width height (s.x + slot.bitmapLeft.toInt + p) (s.y - slot.bitmapTop.toInt + q) ∧
      a = accessAt width slot (s.x + slot.bitmapLeft.toInt + p) (s.y - slot.bitmapTop.toInt + q) p q

section Pictures

variable {width height : UInt32} {slot : GlyphSlot} {a : CellAccess}

/-- The guard of the innermost loop, with its mixture of signed and unsigned comparisons, keeps
exactly the pixels of the picture. -/
theorem guard_iff {i j : Int32} :
    (i < 0 ∨ j < 0 ∨ width ≤ i.toUInt32 ∨ height ≤ j.toUInt32) ↔
      ¬InPicture width height i.toInt j.toInt := by
  have hneg : ∀ i : Int32, i < 0 ↔ i.toInt < 0 := fun i => Int32.lt_iff_toInt_lt
  by_cases hi : i.toInt < 0
  · simp only [hneg, hi, true_or, true_iff]
    exact fun h => absurd h.1.1 (Int.not_le.mpr hi)
  · by_cases hj : j.toInt < 0
    · simp only [hneg, hj, true_or, or_true, true_iff]
      exact fun h => absurd h.2.1 (Int.not_le.mpr hj)
    · have hiNat := toNat_toUInt32_of_nonneg (Int.not_lt.mp hi)
      have hjNat := toNat_toUInt32_of_nonneg (Int.not_lt.mp hj)
      rw [hneg, hneg, UInt32.le_iff_toNat_le, UInt32.le_iff_toNat_le, hiNat, hjNat]
      unfold InPicture
      omega

theorem mem_cellAccesses {i j : Int32} {p q : ℕ} :
    a ∈ cellAccesses width height slot i j p q ↔
      InPicture width height i.toInt j.toInt ∧ a = accessAt width slot i.toInt j.toInt p q := by
  unfold cellAccesses
  by_cases h : InPicture width height i.toInt j.toInt
  · have hword : ∀ {i : Int32}, 0 ≤ i.toInt → i.toUInt32 = UInt32.ofNat i.toInt.toNat := by
      intro i hi
      rw [← toNat_toUInt32_of_nonneg hi]
      exact UInt32.ofNat_toNat.symm
    have haccess : CellAccess.mk slot (UInt32.ofNat q * slot.bitmapWidth + UInt32.ofNat p)
        ((j.toUInt32 * width + i.toUInt32) * 3) = accessAt width slot i.toInt j.toInt p q := by
      unfold accessAt
      rw [hword h.1.1, hword h.2.1, UInt32.ofNat_add, UInt32.ofNat_mul, UInt32.ofNat_mul,
        UInt32.ofNat_add, UInt32.ofNat_mul, UInt32.ofNat_toNat, UInt32.ofNat_toNat]
      rfl
    rw [if_neg (mt guard_iff.mp (not_not_intro h)), List.mem_singleton, haccess]
    exact (and_iff_right h).symm
  · rw [if_pos (guard_iff.mpr h)]
    simp [h]

/-- A loop whose bounds do not wrap around visits every row or column once. -/
theorem loopCount_eq {start : Int32} {n : UInt32} (h : FitsInt32 (start.toInt + n.toNat)) :
    loopCount start (start.toUInt32 + n).toInt32 = n.toNat := by
  unfold loopCount
  rw [toInt_add_unsigned_of_fits h]
  omega

/-- A glyph that fits is accessed at the cells that fall on the picture, each at its place. -/
theorem mem_glyphAccesses {penX penY : Int32}
    (h : (PenStop.mk penX.toInt penY.toInt (some slot)).Fits) :
    a ∈ glyphAccesses width height slot penX penY ↔
      (PenStop.mk penX.toInt penY.toInt (some slot)).Accesses width height a := by
  obtain ⟨-, -, hextent⟩ := h
  obtain ⟨⟨hleft, hright⟩, htop, hbottom⟩ := hextent slot rfl
  have hi : (penX + slot.bitmapLeft).toInt = penX.toInt + slot.bitmapLeft.toInt :=
    toInt_add_of_fits hleft
  have hj : (penY - slot.bitmapTop).toInt = penY.toInt - slot.bitmapTop.toInt :=
    toInt_sub_of_fits htop
  have hcell : ∀ {start : Int32} {n k : ℕ}, FitsInt32 (start.toInt + n) → k < n →
      (start + Int32.ofNat k).toInt = start.toInt + k := by
    intro start n k hn hk
    have hstart := fitsInt32_toInt start
    apply toInt_add_ofNat_of_fits
    unfold FitsInt32 at *
    omega
  rw [← hi] at hright
  rw [← hj] at hbottom
  unfold glyphAccesses PenStop.Accesses
  simp only [List.mem_flatMap, List.mem_range, mem_cellAccesses, loopCount_eq hright,
    loopCount_eq hbottom, Option.mem_some_iff, exists_eq_left', ← hi, ← hj]
  refine exists_congr fun q => and_congr_right fun hq => exists_congr fun p =>
    and_congr_right fun hp => ?_
  rw [hcell hright hp, hcell hbottom hq]

/-- The path of the pen starts at the pen. -/
theorem pen_fits {loadChar : GlyphSlot → UInt8 → GlyphSlot} {origX x y : ℤ} {content : List UInt8}
    (h : ∀ s ∈ penPath loadChar origX content x y slot, s.Fits) : FitsInt32 x ∧ FitsInt32 y := by
  cases content with
  | nil =>
    have hstop := h ⟨x, y, none⟩ List.mem_cons_self
    exact ⟨hstop.1, hstop.2.1⟩
  | cons ch content =>
    unfold penPath at h
    split at h
    · have hstop := h ⟨x, y, none⟩ List.mem_cons_self
      exact ⟨hstop.1, hstop.2.1⟩
    · have hstop := h ⟨x, y, some (loadChar slot ch)⟩ List.mem_cons_self
      exact ⟨hstop.1, hstop.2.1⟩

/-- While the pen fits, the accesses for a string are those of the stops of the exact pen. -/
theorem mem_contentAccesses {loadChar : GlyphSlot → UInt8 → GlyphSlot} {origPenX penX penY : Int32}
    {content : List UInt8}
    (h : ∀ s ∈ penPath loadChar origPenX.toInt content penX.toInt penY.toInt slot, s.Fits) :
    a ∈ contentAccesses width height loadChar origPenX content penX penY slot ↔
      ∃ s ∈ penPath loadChar origPenX.toInt content penX.toInt penY.toInt slot,
        s.Accesses width height a := by
  induction content generalizing penX penY slot with
  | nil => simp [contentAccesses, penPath, PenStop.Accesses]
  | cons ch content ih =>
    unfold contentAccesses penPath
    unfold penPath at h
    split
    · -- a newline: nothing is drawn and both pens move alike
      rename_i hch
      rw [if_pos hch, List.forall_mem_cons] at h
      have hy : (penY + 20).toInt = penY.toInt + 20 := toInt_add_of_fits (pen_fits h.2).2
      rw [← hy] at h ⊢
      rw [ih h.2]
      simp [PenStop.Accesses]
    · rename_i hch
      rw [if_neg hch, List.forall_mem_cons] at h
      have hadvance := toInt_shiftRight_six (loadChar slot ch).advanceX
      have hx : (penX.toInt64 + (loadChar slot ch).advanceX >>> 6).toInt32.toInt =
          penX.toInt + (loadChar slot ch).advanceX.toInt / 64 := by
        rw [← hadvance]
        exact toInt_add_wide_of_fits (hadvance ▸ (pen_fits h.2).1)
      rw [← hx] at h
      dsimp only
      rw [← hx, List.mem_append, mem_glyphAccesses h.1, ih h.2]
      simp only [List.mem_cons, exists_eq_or_imp]

/-- The anchors, computed in unsigned words and stored in signed ones, are the exact ones, also in
pictures smaller than the text box. -/
theorem anchor_eq (hwidth : width.toNat < 2147483648) (hheight : height.toNat < 2147483648)
    (opt : RenderPosition) :
    (anchor width height opt).1.toInt = (exactAnchor width.toNat height.toNat opt).1 ∧
      (anchor width height opt).2.toInt = (exactAnchor width.toNat height.toNat opt).2 := by
  have hedge : ∀ u c d : UInt32, u.toNat < 2147483648 → d.toNat ≤ c.toNat → c.toNat < 2147483648 →
      (u - c + d).toInt32.toInt = (u.toNat : ℤ) - (c.toNat - d.toNat : ℕ) := by
    intro u c d hu hd hc
    apply toInt_toInt32_of_emod_eq
    · unfold FitsInt32
      omega
    · rw [UInt32.toNat_add, UInt32.toNat_sub]
      omega
  have hmiddle : ∀ u c : UInt32, u.toNat < 2147483648 → c.toNat < 2147483648 →
      (u / 2 - c).toInt32.toInt = (u.toNat : ℤ) / 2 - c.toNat := by
    intro u c hu hc
    apply toInt_toInt32_of_emod_eq
    · unfold FitsInt32
      omega
    · have htwo : (2 : UInt32).toNat = 2 := rfl
      rw [UInt32.toNat_sub, UInt32.toNat_div, htwo]
      omega
  have hright : (width - 300 + 50).toInt32.toInt = (width.toNat : ℤ) - 250 :=
    hedge width 300 50 hwidth (by decide) (by decide)
  have hbottom : (height - 100 + 50).toInt32.toInt = (height.toNat : ℤ) - 50 :=
    hedge height 100 50 hheight (by decide) (by decide)
  cases opt with
  | leftTop => exact ⟨rfl, rfl⟩
  | leftBottom => exact ⟨rfl, hbottom⟩
  | rightTop => exact ⟨hright, rfl⟩
  | rightBottom => exact ⟨hright, hbottom⟩
  | center => exact ⟨hmiddle width 300 hwidth (by decide), hmiddle height 100 hheight (by decide)⟩

/-- The accesses of one call are those of the stops of the exact pen. -/
theorem mem_renderAccesses {loadChar : GlyphSlot → UInt8 → GlyphSlot} {frame : FrameManager}
    {opt : RenderPosition} {content : List UInt8}
    (hwidth : frame.context.width.toNat < 2147483648)
    (hheight : frame.context.height.toNat < 2147483648)
    (h : ∀ s ∈ penStops loadChar slot frame opt content, s.Fits) :
    a ∈ renderAccesses loadChar slot frame opt content ↔
      ∃ s ∈ penStops loadChar slot frame opt content,
        s.Accesses frame.context.width frame.context.height a := by
  obtain ⟨hx, hy⟩ := anchor_eq hwidth hheight opt
  unfold penStops at *
  dsimp only at *
  rw [← hx, ← hy] at h ⊢
  exact mem_contentAccesses h

/-- The number of a cell is less than the number of cells. -/
theorem cell_lt {p q width rows : ℕ} (hp : p < width) (hq : q < rows) :
    q * width + p < rows * width :=
  calc q * width + p < (q + 1) * width := by
        rw [Nat.succ_mul]
        exact Nat.add_lt_add_left hp _
    _ ≤ rows * width := Nat.mul_le_mul_right width hq

/-- The index read for a cell is inside the bitmap, also if it wraps around. -/
theorem cell_lt_of_accesses {s : PenStop} (h : s.Accesses width height a)
    (hbitmap : ∀ slot ∈ s.glyph,
      slot.buffer.length = slot.bitmapRows.toNat * slot.bitmapWidth.toNat) :
    a.cell.toNat < a.slot.buffer.length := by
  obtain ⟨slot, hslot, q, hq, p, hp, -, rfl⟩ := h
  calc (UInt32.ofNat (q * slot.bitmapWidth.toNat + p)).toNat
      ≤ q * slot.bitmapWidth.toNat + p := Nat.mod_le _ _
    _ < slot.bitmapRows.toNat * slot.bitmapWidth.toNat := cell_lt hp hq
    _ = slot.buffer.length := (hbitmap slot hslot).symm

end Pictures

/-! ### The pixels painted -/

section Painted

variable {width height : UInt32} {slot : GlyphSlot}

/-- A cell that is not blank writes the three bytes of its pixel, and no others. -/
theorem mem_writes_iff {x y : ℤ} {p q k : ℕ} (hin : InPicture width height x y)
    (hsize : 3 * width.toNat * height.toNat < 4294967296) :
    (∃ o ∈ (accessAt width slot x y p q).writes, o.toNat = k) ↔
      slot.buffer.getD ((q * slot.bitmapWidth.toNat + p) % 4294967296) 0 ≠ 0 ∧
        ↑(k / 3 % width.toNat) = x ∧ ↑(k / 3 / width.toNat) = y := by
  obtain ⟨⟨hx, hxw⟩, hy, hyh⟩ := hin
  have hlast : (y.toNat * width.toNat + x.toNat) * 3 + 2 < 3 * width.toNat * height.toNat :=
    pixel_lt (by omega) (by omega) (by decide)
  -- a byte of the pixel, first by its offset and then by the coordinates of the pixel
  have hpixel : k / 3 = y.toNat * width.toNat + x.toNat ↔
      ↑(k / 3 % width.toNat) = x ∧ ↑(k / 3 / width.toNat) = y := by
    have hpos : 0 < width.toNat := by omega
    have hunique : k / 3 / width.toNat = y.toNat ∧ k / 3 % width.toNat = x.toNat ↔
        x.toNat + width.toNat * y.toNat = k / 3 ∧ x.toNat < width.toNat :=
      Nat.div_mod_unique hpos
    rw [Nat.mul_comm width.toNat] at hunique
    omega
  have hbytes : (∃ o ∈ [UInt32.ofNat ((y.toNat * width.toNat + x.toNat) * 3),
      UInt32.ofNat ((y.toNat * width.toNat + x.toNat) * 3) + 1,
      UInt32.ofNat ((y.toNat * width.toNat + x.toNat) * 3) + 2], o.toNat = k) ↔
        k / 3 = y.toNat * width.toNat + x.toNat := by
    have hone : (1 : UInt32).toNat = 1 := rfl
    have htwo : (2 : UInt32).toNat = 2 := rfl
    simp only [List.mem_cons, List.not_mem_nil, or_false, exists_eq_or_imp, exists_eq_left,
      UInt32.toNat_add, UInt32.toNat_ofNat', hone, htwo]
    omega
  rw [← hpixel, ← hbytes]
  unfold CellAccess.writes accessAt
  simp only [UInt32.toNat_ofNat']
  split
  · rename_i hcell
    exact (and_iff_right hcell).symm
  · rename_i hcell
    exact iff_of_false (by simp) fun h => hcell h.1

/-- The pixel a byte of the picture belongs to. -/
theorem inPicture_of_lt {k : ℕ} (hk : k < 3 * width.toNat * height.toNat) :
    InPicture width height ↑(k / 3 % width.toNat) ↑(k / 3 / width.toNat) := by
  have hpos : 0 < width.toNat := by
    apply Nat.pos_of_ne_zero
    intro hzero
    simp [hzero] at hk
  have hthird : k / 3 < width.toNat * height.toNat := by
    rw [Nat.mul_assoc] at hk
    omega
  have hx := Nat.mod_lt (k / 3) hpos
  have hy := Nat.div_lt_of_lt_mul hthird
  exact ⟨⟨Int.natCast_nonneg _, Int.ofNat_lt.mpr hx⟩, Int.natCast_nonneg _, Int.ofNat_lt.mpr hy⟩

/-- The glyph drawn at a stop writes a byte if it has a cell on the pixel that is not blank, where
the index of the cell is taken modulo `2 ^ 32`. -/
theorem exists_writes_iff {s : PenStop} {k : ℕ} (hk : k < 3 * width.toNat * height.toNat)
    (hsize : 3 * width.toNat * height.toNat < 4294967296) :
    (∃ a, s.Accesses width height a ∧ ∃ o ∈ a.writes, o.toNat = k) ↔
      s.Paints (· % 4294967296) ↑(k / 3 % width.toNat) ↑(k / 3 / width.toNat) := by
  constructor
  · rintro ⟨a, ⟨slot, hslot, q, hq, p, hp, hin, rfl⟩, ho⟩
    exact ⟨slot, hslot, q, hq, p, hp, (mem_writes_iff hin hsize).mp ho⟩
  · rintro ⟨slot, hslot, q, hq, p, hp, hcell, hx, hy⟩
    have hin := inPicture_of_lt hk
    rw [hx, hy] at hin
    exact ⟨_, ⟨slot, hslot, q, hq, p, hp, hin, rfl⟩, (mem_writes_iff hin hsize).mpr ⟨hcell, hx, hy⟩⟩

variable {loadChar : GlyphSlot → UInt8 → GlyphSlot} {frame : FrameManager} {opt : RenderPosition}
  {content : List UInt8} {surface : List UInt8}

/-- The bytes a call writes. -/
theorem mem_renderOffsets_iff (hwidth : frame.context.width.toNat < 2147483648)
    (hheight : frame.context.height.toNat < 2147483648)
    (hsize : 3 * frame.context.width.toNat * frame.context.height.toNat < 4294967296)
    (hfits : ∀ s ∈ penStops loadChar slot frame opt content, s.Fits) {k : ℕ}
    (hk : k < 3 * frame.context.width.toNat * frame.context.height.toNat) :
    (∃ o ∈ renderOffsets loadChar slot frame opt content, o.toNat = k) ↔
      ∃ s ∈ penStops loadChar slot frame opt content,
        s.Paints (· % 4294967296) ↑(k / 3 % frame.context.width.toNat)
          ↑(k / 3 / frame.context.width.toNat) := by
  have hmem := fun a => mem_renderAccesses (a := a) hwidth hheight hfits
  constructor
  · rintro ⟨o, ho, hok⟩
    rw [renderOffsets_eq, List.mem_flatMap] at ho
    obtain ⟨a, ha, ho⟩ := ho
    obtain ⟨s, hs, ha⟩ := (hmem a).mp ha
    exact ⟨s, hs, (exists_writes_iff hk hsize).mp ⟨a, ha, o, ho, hok⟩⟩
  · rintro ⟨s, hs, hpaints⟩
    obtain ⟨a, ha, o, ho, hok⟩ := (exists_writes_iff hk hsize).mpr hpaints
    refine ⟨o, ?_, hok⟩
    rw [renderOffsets_eq, List.mem_flatMap]
    exact ⟨a, (hmem a).mpr ⟨s, hs, ha⟩, ho⟩

/-- A bitmap of at most `2 ^ 32` cells is read where the reference reads it. -/
theorem paints_mod_iff {s : PenStop} {x y : ℤ}
    (hcells : ∀ slot ∈ s.glyph,
      slot.bitmapRows.toNat * slot.bitmapWidth.toNat ≤ 4294967296) :
    s.Paints (· % 4294967296) x y ↔ s.Paints id x y := by
  refine exists_congr fun slot => and_congr_right fun hslot => exists_congr fun q =>
    and_congr_right fun hq => exists_congr fun p => and_congr_right fun hp => ?_
  have hlt := Nat.lt_of_lt_of_le (cell_lt hp hq) (hcells slot hslot)
  dsimp only [id]
  rw [Nat.mod_eq_of_lt hlt]

/-- Writing `255` at the offsets gives the reference if the offsets are the bytes of the pixels
painted. -/
theorem foldl_set_eq_referenceBlit {w : ℕ} {stops : List PenStop} {offsets : List UInt32}
    (h : ∀ k < surface.length, (∃ o ∈ offsets, o.toNat = k) ↔
      ∃ s ∈ stops, s.Paints id ↑(k / 3 % w) ↑(k / 3 / w)) :
    offsets.foldl (fun surface offset => surface.set offset.toNat 255) surface =
      referenceBlit w stops surface := by
  apply List.ext_getElem?
  intro k
  rw [referenceBlit, List.getElem?_mapIdx]
  by_cases hk : k < surface.length
  · rw [List.getElem?_eq_getElem hk, Option.map_some]
    by_cases ho : ∃ o ∈ offsets, o.toNat = k
    · rw [getElem?_foldl_set_of_mem 255 ho hk, if_pos ((h k hk).mp ho)]
    · have hne : ∀ o ∈ offsets, o.toNat ≠ k := fun o hmem heq => ho ⟨o, hmem, heq⟩
      rw [getElem?_foldl_set_of_not_mem 255 surface hne, if_neg (mt (h k hk).mpr ho)]
      exact List.getElem?_eq_getElem hk
  · have hlen := length_foldl_set UInt32.toNat 255 offsets surface
    rw [List.getElem?_eq_none (by omega), List.getElem?_eq_none (by omega)]
    rfl

/-- **The text overlay is a clipped blit.**  On a picture of `3 * w * h` bytes, with pens and glyphs
that fit in a 32-bit `int` and bitmaps of at most `2 ^ 32` cells, a call changes the picture as
`referenceBlit` does, writes no byte outside the picture and reads no byte outside a bitmap. -/
theorem render_eq_referenceBlit (hbuffer : frame.buffer = some surface)
    (hlength : surface.length = 3 * frame.context.width.toNat * frame.context.height.toNat)
    (hwidth : frame.context.width.toNat < 2147483648)
    (hheight : frame.context.height.toNat < 2147483648)
    (hsize : 3 * frame.context.width.toNat * frame.context.height.toNat < 4294967296)
    (hfits : ∀ s ∈ penStops loadChar slot frame opt content, s.Fits)
    (hbitmap : ∀ s ∈ penStops loadChar slot frame opt content, ∀ slot ∈ s.glyph,
      slot.buffer.length = slot.bitmapRows.toNat * slot.bitmapWidth.toNat ∧
        slot.bitmapRows.toNat * slot.bitmapWidth.toNat ≤ 4294967296) :
    renderStringToFrame loadChar slot frame opt content =
        { frame with
          buffer := some (referenceBlit frame.context.width.toNat
            (penStops loadChar slot frame opt content) surface) } ∧
      (∀ o ∈ renderOffsets loadChar slot frame opt content, o.toNat < surface.length) ∧
      ∀ a ∈ renderAccesses loadChar slot frame opt content,
        a.cell.toNat < a.slot.buffer.length := by
  refine ⟨?_, ?_, ?_⟩
  · unfold renderStringToFrame
    dsimp only
    rw [hbuffer, Option.map_some]
    congr 2
    apply foldl_set_eq_referenceBlit
    intro k hk
    apply (mem_renderOffsets_iff hwidth hheight hsize hfits (hlength ▸ hk)).trans
    refine exists_congr fun s => and_congr_right fun hs => ?_
    exact paints_mod_iff fun slot hslot => (hbitmap s hs slot hslot).2
  · intro o ho
    rw [hlength]
    exact lt_of_mem_renderOffsets ho
  · intro a ha
    obtain ⟨s, hs, ha⟩ := (mem_renderAccesses hwidth hheight hfits).mp ha
    exact cell_lt_of_accesses ha fun slot hslot => (hbitmap s hs slot hslot).1

end Painted

/-- A picture of two pixels. -/
def narrowFrame : FrameManager := ⟨⟨2, 1, .rgb24⟩, some [7, 7, 7, 7, 7, 7], false⟩

/-- A glyph of one row and two cells that reaches over the right edge of `narrowFrame`. -/
def wideGlyph : GlyphSlot := ⟨-49, 50, 2, 1, [1, 1], 640⟩

/-- Two lines of one glyph each: the first glyph is clipped, the second is below the picture. -/
theorem render_eq_referenceBlit_narrowFrame :
    renderStringToFrame (fun _ _ => wideGlyph) wideGlyph narrowFrame .leftTop [65, 10, 65] =
      { narrowFrame with buffer := some [7, 7, 7, 255, 255, 255] } :=
  (render_eq_referenceBlit rfl (by decide) (by decide) (by decide) (by decide) (by decide)
    (by decide)).1.trans (by decide)

/-! ### A bitmap too large for the index -/

/-- A bitmap with one cell that is not blank. -/
def dotBuffer (before after : ℕ) : List UInt8 :=
  List.replicate before 0 ++ 1 :: List.replicate after 0

theorem length_dotBuffer (before after : ℕ) :
    (dotBuffer before after).length = before + (after + 1) := by
  unfold dotBuffer
  rw [List.length_append, List.length_cons, List.length_replicate, List.length_replicate]

theorem dotBuffer_of_lt {before after n : ℕ} (hn : n < before) :
    (dotBuffer before after).getD n 0 = 0 := by
  unfold dotBuffer
  rw [List.getD_append _ _ _ _ (by rwa [List.length_replicate])]
  exact List.getD_replicate _ hn

theorem dotBuffer_dot (before after : ℕ) : (dotBuffer before after).getD before 0 = 1 := by
  unfold dotBuffer
  rw [List.getD_append_right _ _ _ _ (Nat.le_of_eq List.length_replicate), List.length_replicate,
    Nat.sub_self]
  rfl

/-- A glyph of `65537` rows and `65536` columns whose only cell that is not blank is the first one
of the last row, the cell with the number `2 ^ 32`. -/
noncomputable def tallGlyph : GlyphSlot :=
  ⟨-50, 65586, 65536, 65537, dotBuffer 4294967296 65535, 0⟩

/-- A picture of one black pixel. -/
def blackPixel : FrameManager := ⟨⟨1, 1, .rgb24⟩, some [0, 0, 0], false⟩

theorem penStops_tallGlyph :
    penStops (fun _ _ => tallGlyph) tallGlyph blackPixel .leftTop [65] =
      [⟨50, 50, some tallGlyph⟩, ⟨50, 50, none⟩] := rfl

theorem fits_tallGlyph : (PenStop.mk 50 50 (some tallGlyph)).Fits := by
  refine ⟨by decide, by decide, fun slot hslot => ?_⟩
  obtain rfl : tallGlyph = slot := Option.some.inj hslot
  exact ⟨⟨by decide, by decide⟩, by decide, by decide⟩

/-- For the reference the cell that is not blank is on the pixel of the picture. -/
theorem paints_tallGlyph : (PenStop.mk 50 50 (some tallGlyph)).Paints id 0 0 := by
  refine ⟨tallGlyph, rfl, 65536, by decide, 0, by decide, ?_, by decide, by decide⟩
  have hdot : tallGlyph.buffer.getD (id 4294967296) 0 = 1 := dotBuffer_dot ..
  exact hdot ▸ by decide

/-- The code reads the first cell for that pixel. -/
theorem not_paints_tallGlyph :
    ¬(PenStop.mk 50 50 (some tallGlyph)).Paints (· % 4294967296) 0 0 := by
  rintro ⟨slot, hslot, q, -, p, -, hcell, hx, hy⟩
  obtain rfl : tallGlyph = slot := Option.some.inj hslot
  have hleft : tallGlyph.bitmapLeft.toInt = -50 := by decide
  have htop : tallGlyph.bitmapTop.toInt = 65586 := by decide
  have hwidth : tallGlyph.bitmapWidth.toNat = 65536 := by decide
  dsimp only at hcell hx hy
  have hindex : (q * tallGlyph.bitmapWidth.toNat + p) % 4294967296 = 0 := by
    rw [hwidth]
    omega
  rw [hindex] at hcell
  exact hcell (dotBuffer_of_lt (by decide))

/-- The cell of `tallGlyph` on the pixel of the picture is the one that is not blank, but the index
of that cell wraps around to the first cell, so the pixel stays black. -/
theorem tallGlyph_not_referenceBlit :
    (∀ s ∈ penStops (fun _ _ => tallGlyph) tallGlyph blackPixel .leftTop [65],
      s.Fits ∧ ∀ slot ∈ s.glyph,
        slot.buffer.length = slot.bitmapRows.toNat * slot.bitmapWidth.toNat) ∧
      renderStringToFrame (fun _ _ => tallGlyph) tallGlyph blackPixel .leftTop [65] ≠
        { blackPixel with
          buffer := some (referenceBlit 1
            (penStops (fun _ _ => tallGlyph) tallGlyph blackPixel .leftTop [65]) [0, 0, 0]) } := by
  have hstops : ∀ s ∈ penStops (fun _ _ => tallGlyph) tallGlyph blackPixel .leftTop [65],
      s.Fits ∧ ∀ slot ∈ s.glyph,
        slot.buffer.length = slot.bitmapRows.toNat * slot.bitmapWidth.toNat := by
    rw [penStops_tallGlyph]
    intro s hs
    rcases List.mem_cons.mp hs with rfl | hs
    · refine ⟨fits_tallGlyph, fun slot hslot => ?_⟩
      obtain rfl : tallGlyph = slot := Option.some.inj hslot
      exact length_dotBuffer ..
    · rw [List.mem_singleton.mp hs]
      exact ⟨by decide, fun slot hslot => nomatch hslot⟩
  refine ⟨hstops, fun heq => ?_⟩
  have hnone : ∀ o ∈ renderOffsets (fun _ _ => tallGlyph) tallGlyph blackPixel .leftTop [65],
      o.toNat ≠ 0 := by
    intro o ho hzero
    obtain ⟨s, hs, hpaints⟩ := (mem_renderOffsets_iff (by decide) (by decide) (by decide)
      (fun s hs => (hstops s hs).1) (by decide)).mp ⟨o, ho, hzero⟩
    rw [penStops_tallGlyph] at hs
    rcases List.mem_cons.mp hs with rfl | hs
    · exact not_paints_tallGlyph hpaints
    · rw [List.mem_singleton.mp hs] at hpaints
      obtain ⟨slot, hslot, -⟩ := hpaints
      exact nomatch hslot
  have hsurface := Option.some.inj (congrArg FrameManager.buffer heq)
  have hbyte := congrArg (·[0]?) hsurface
  dsimp only at hbyte
  rw [getElem?_foldl_set_of_not_mem 255 [0, 0, 0] hnone, referenceBlit, List.getElem?_mapIdx,
    List.getElem?_cons_zero, Option.map_some, penStops_tallGlyph,
    if_pos ⟨_, List.mem_cons_self, paints_tallGlyph⟩] at hbyte
  exact absurd (Option.some.inj hbyte) (by decide)

end RenderTextContext

end Ngp
