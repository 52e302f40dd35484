import NgpEncodeServer.Server.Processing
import NgpEncodeServer.Video.Overlay

/-!
# The four texts of `process_frame_thread`

`process_frame_thread` draws four texts over the scene picture of a reply, one call of
`render_string_to_frame` after the other.  Each call is a clipped blit, and blits in a row are one
blit, so the picture that is converted is the one that the renderer has sent with the cells of all
glyphs white, whatever their order and wherever they overlap.
-/

namespace Ngp

namespace RenderTextContext

variable {w : ℕ} {stops stops' : List PenStop} {surface : List UInt8}

/-- A blit without glyphs changes nothing. -/
@[simp] theorem referenceBlit_nil : referenceBlit w [] surface = surface := by
  apply List.ext_getElem?
  intro k
  simp [referenceBlit, List.getElem?_mapIdx]

/-- Blits in a row are one blit. -/
theorem referenceBlit_append :
    referenceBlit w (stops ++ stops') surface =
      referenceBlit w stops' (referenceBlit w stops surface) := by
  unfold referenceBlit
  rw [List.mapIdx_mapIdx]
  congr 1
  funext k byte
  by_cases hpaints : ∃ s ∈ stops, s.Paints id ↑(k / 3 % w) ↑(k / 3 / w)
  · have heither : ∃ s ∈ stops ++ stops', s.Paints id ↑(k / 3 % w) ↑(k / 3 / w) := by
      obtain ⟨s, hs, hpaint⟩ := hpaints
      exact ⟨s, List.mem_append_left _ hs, hpaint⟩
    simp only [hpaints, heither, if_true, Function.comp_def, ite_self]
  · have hsecond : (∃ s ∈ stops ++ stops', s.Paints id ↑(k / 3 % w) ↑(k / 3 / w)) ↔
        ∃ s ∈ stops', s.Paints id ↑(k / 3 % w) ↑(k / 3 / w) := by
      constructor
      · rintro ⟨s, hs, hpaint⟩
        rcases List.mem_append.mp hs with hs | hs
        · exact absurd ⟨s, hs, hpaint⟩ hpaints
        · exact ⟨s, hs, hpaint⟩
      · rintro ⟨s, hs, hpaint⟩
        exact ⟨s, List.mem_append_right _ hs, hpaint⟩
    simp only [hpaints, hsecond, if_false, Function.comp_def]

/-- The order of the glyphs does not matter. -/
theorem referenceBlit_perm (h : stops.Perm stops') :
    referenceBlit w stops surface = referenceBlit w stops' surface := by
  unfold referenceBlit
  congr 1
  funext k byte
  simp only [h.mem_iff]

/-- A blit keeps the size of the picture. -/
@[simp] theorem length_referenceBlit :
    (referenceBlit w stops surface).length = surface.length :=
  List.length_mapIdx

/-- The pens and the glyphs fit in a 32-bit `int`, and the bitmaps have at most `2 ^ 32` cells. -/
def Drawable (stops : List PenStop) : Prop :=
  ∀ s ∈ stops, s.Fits ∧ ∀ slot ∈ s.glyph,
    slot.bitmapRows.toNat * slot.bitmapWidth.toNat ≤ 4294967296

instance (stops : List PenStop) : Decidable (Drawable stops) :=
  inferInstanceAs (Decidable (∀ s ∈ stops, _))

/-- One call on a picture of the announced size. -/
theorem render_of_drawable {loadChar : GlyphSlot → UInt8 → GlyphSlot} {slot : GlyphSlot}
    {frame : FrameManager} {opt : RenderPosition} {content : List UInt8}
    (hbuffer : frame.buffer = some surface)
    (hlength : surface.length = 3 * frame.context.width.toNat * frame.context.height.toNat)
    (hwidth : frame.context.width.toNat < 2147483648)
    (hheight : frame.context.height.toNat < 2147483648)
    (hsize : 3 * frame.context.width.toNat * frame.context.height.toNat < 4294967296)
    (hdrawable : Drawable (penStops loadChar slot frame opt content)) :
    renderStringToFrame loadChar slot frame opt content =
      { frame with
        buffer := some (referenceBlit frame.context.width.toNat
          (penStops loadChar slot frame opt content) surface) } := by
  unfold renderStringToFrame
  dsimp only
  rw [hbuffer, Option.map_some]
  congr 2
  apply foldl_set_eq_referenceBlit
  intro k hk
  have hoffsets := mem_renderOffsets_iff hwidth hheight hsize (fun s hs => (hdrawable s hs).1)
    (hlength ▸ hk)
  apply hoffsets.trans
  exact exists_congr fun s => and_congr_right fun hs => paints_mod_iff (hdrawable s hs).2

end RenderTextContext

open RenderTextContext

namespace ProcessEnv

variable {env : ProcessEnv} {f : RenderedFrame} {surface : List UInt8}

/-- The stops of the pen for some texts. -/
def stopsOf (env : ProcessEnv) (frame : FrameManager)
    (texts : List (RenderPosition × List UInt8)) : List PenStop :=
  texts.flatMap fun t => penStops env.loadChar (env.slot t.1) frame t.1 t.2

/-- The stops of the pen for the four texts. -/
def stops (env : ProcessEnv) (f : RenderedFrame) : List PenStop :=
  env.stopsOf f.sourceAvframeScene (env.texts f)

/-- Texts drawn one after the other on a picture of the announced size. -/
theorem foldlM_render (texts : List (RenderPosition × List UInt8))
    (hbuffer : f.sourceAvframeScene.buffer = some surface)
    (hlength : surface.length = 3 * f.sourceAvframeScene.context.width.toNat *
      f.sourceAvframeScene.context.height.toNat)
    (hwidth : f.sourceAvframeScene.context.width.toNat < 2147483648)
    (hheight : f.sourceAvframeScene.context.height.toNat < 2147483648)
    (hsize : 3 * f.sourceAvframeScene.context.width.toNat *
      f.sourceAvframeScene.context.height.toNat < 4294967296)
    (hdrawable : Drawable (env.stopsOf f.sourceAvframeScene texts)) :
    texts.foldlM (fun f t => env.render t.1 t.2 f) f =
      .ok { f with
        sourceAvframeScene := { f.sourceAvframeScene with
          buffer := some (referenceBlit f.sourceAvframeScene.context.width.toNat
            (env.stopsOf f.sourceAvframeScene texts) surface) } } := by
  induction texts generalizing f surface with
  | nil =>
    obtain ⟨response, ⟨context, buffer, owned⟩, convertedScene, depth, convertedDepth, converted,
      receipt⟩ := f
    obtain rfl : buffer = some surface := hbuffer
    simp only [List.foldlM_nil, stopsOf, List.flatMap_nil, referenceBlit_nil]
    rfl
  | cons t texts ih =>
    obtain ⟨hfirst, hrest⟩ : Drawable (penStops env.loadChar (env.slot t.1) f.sourceAvframeScene
        t.1 t.2) ∧ Drawable (env.stopsOf f.sourceAvframeScene texts) :=
      ⟨fun s hs => hdrawable s (List.mem_append_left _ hs),
        fun s hs => hdrawable s (List.mem_append_right _ hs)⟩
    obtain ⟨drawn, hdrawn⟩ : ∃ drawn, drawn =
        referenceBlit f.sourceAvframeScene.context.width.toNat
          (penStops env.loadChar (env.slot t.1) f.sourceAvframeScene t.1 t.2) surface := ⟨_, rfl⟩
    have hbytes : f.sourceAvframeScene.bytes = surface := by rw [FrameManager.bytes, hbuffer]; rfl
    have hrender : env.render t.1 t.2 f =
        .ok { f with
          sourceAvframeScene := { f.sourceAvframeScene with buffer := some drawn } } := by
      rw [hdrawn, ← render_of_drawable hbuffer hlength hwidth hheight hsize hfirst]
      exact render_eq_ok fun _ ho =>
        (lt_of_mem_renderOffsets ho).trans_eq (hbytes ▸ hlength.symm)
    have hkept : drawn.length = surface.length := by rw [hdrawn, length_referenceBlit]
    have hnext := @ih
      { f with sourceAvframeScene := { f.sourceAvframeScene with buffer := some drawn } } drawn rfl
      (hkept.trans hlength) hwidth hheight hsize hrest
    rw [List.foldlM_cons, hrender]
    refine hnext.trans ?_
    rw [hdrawn, ← referenceBlit_append]
    rfl

end ProcessEnv

namespace Server

variable {s : Server}

/-- In every run, and for every reply that announces the size of its scene picture and carries the
bytes of its depth picture, with texts that can be drawn: when `process_frame_thread` has taken the
frame, the body of its loop either throws because there is no context for a conversion, or makes
exactly the cells of the glyphs of the four texts white in the picture that the renderer has sent,
clipped to the picture; has `sws_scale` convert this picture and the depth picture; marks the frame
as converted; and changes nothing else of it.  The order in which glyphs are drawn over each other
does not matter. -/
theorem converting_overlay {env : ProcessEnv} (hrgb : ∀ w, env.linesize .rgb24 w = 3 * w.toNat)
    (hgray : ∀ w, env.linesize .gray8 w = w.toNat) {info : CodecInitInfo} {as : List Action}
    (hrun : step.run (init info) as = some s) {e : Bool} {i : UInt64} {f : RenderedFrame}
    (hat : (s.pipe.get e).process = .converting i f)
    (hlength : f.frameResponse.frame.length =
      3 * f.frameResponse.camera.width.toNat * f.frameResponse.camera.height.toNat)
    (hdepth : f.frameResponse.camera.width.toNat * f.frameResponse.camera.height.toNat ≤
      f.frameResponse.depth.length)
    (hwidth : f.frameResponse.camera.width.toNat < 2147483648)
    (hheight : f.frameResponse.camera.height.toNat < 2147483648)
    (hsize : 3 * f.frameResponse.camera.width.toNat * f.frameResponse.camera.height.toNat <
      4294967296)
    (hdrawable : Drawable (env.stops f)) :
    (env.processFrame f =
      if env.swsScene f = true ∧ env.swsDepth f = true then
        let overlaid := referenceBlit f.frameResponse.camera.width.toNat (env.stops f)
          f.frameResponse.frame
        .ok {
          frame := { f with
            converted := true
            sourceAvframeScene := { f.sourceAvframeScene with buffer := some overlaid } }
          scene := env.scale f.sourceAvframeScene.context f.convertedAvframeScene.context overlaid
          depth := env.scale f.sourceAvframeDepth.context f.convertedAvframeDepth.context
            (f.frameResponse.depth.take
              (f.frameResponse.camera.width.toNat * f.frameResponse.camera.height.toNat)) }
      else .error (.throws (.runtimeError "Failed to allocate sws_context."))) ∧
    ∀ stops, stops.Perm (env.stops f) →
      referenceBlit f.frameResponse.camera.width.toNat stops f.frameResponse.frame =
        referenceBlit f.frameResponse.camera.width.toNat (env.stops f) f.frameResponse.frame := by
  obtain ⟨hfresh, -⟩ := convertsFresh_run hrun e i f hat
  refine ⟨?_, fun stops hperm => referenceBlit_perm hperm⟩
  obtain ⟨hscene, hdepthBytes⟩ := f.swsScaleBytes_of_fresh hfresh hrgb hgray
  have hcontext := hfresh.context_eq
  obtain ⟨hnew, hbuffer, hdepthBuffer⟩ : f.converted = false ∧
      f.sourceAvframeScene.buffer = some f.frameResponse.frame ∧
      f.sourceAvframeDepth.buffer = some f.frameResponse.depth := by
    obtain ⟨infoScene, infoDepth, hf⟩ := hfresh
    rw [hf]
    exact ⟨rfl, rfl, rfl⟩
  have hw : f.sourceAvframeScene.context.width = f.frameResponse.camera.width := by rw [hcontext]
  have hh : f.sourceAvframeScene.context.height = f.frameResponse.camera.height := by rw [hcontext]
  have hdraw := ProcessEnv.foldlM_render (env.texts f) hbuffer (by rw [hw, hh, hlength])
    (hw ▸ hwidth) (hh ▸ hheight) (by rw [hw, hh]; exact hsize) hdrawable
  rw [hw] at hdraw
  obtain ⟨overlaid, hoverlaid⟩ : ∃ overlaid, overlaid =
      referenceBlit f.frameResponse.camera.width.toNat (env.stops f) f.frameResponse.frame :=
    ⟨_, rfl⟩
  have hkept : overlaid.length = f.frameResponse.frame.length := by
    rw [hoverlaid, length_referenceBlit]
  -- of the picture drawn on `sws_scale` reads every byte
  have hsceneLe : f.sourceAvframeScene.swsScaleBytes env.linesize ≤ overlaid.length := by omega
  have hread : overlaid.take (f.sourceAvframeScene.swsScaleBytes env.linesize) = overlaid :=
    List.take_of_length_le (by omega)
  unfold ProcessEnv.processFrame
  rw [ProcessEnv.drawTexts_eq_foldlM, hdraw]
  rw [show env.stopsOf f.sourceAvframeScene (env.texts f) = env.stops f from rfl, ← hoverlaid]
  split
  · rename_i hsws
    have hdepthBytesEq : f.sourceAvframeDepth.bytes = f.frameResponse.depth := by
      rw [FrameManager.bytes, hdepthBuffer]
      rfl
    refine ProcessEnv.convertFrame_eq_ok_iff.mpr ⟨⟨hnew, hsws.1, hsceneLe, hsws.2, ?_⟩, ?_⟩
    · rw [hdepthBytesEq, hdepthBytes]
      exact hdepth
    · rw [hdepthBytesEq, hdepthBytes]
      congr 2
      exact hread.symm
  · rename_i hnone
    exact ProcessEnv.convertFrame_of_not_found hnew hsceneLe hnone

/-- Every character is the glyph of one row and two cells, and the time is one character. -/
def overlayEnv : ProcessEnv :=
  { plainEnv nonzeroSizes with
    timestamp := [65], loadChar := fun _ _ => wideGlyph, slot := fun _ => wideGlyph }

/-- Of all the glyphs only one cell of the time is on the picture of two by two pixels. -/
theorem converting_overlay_smallReply :
    ∃ c, overlayEnv.processFrame (defaultFrame smallReply) = .ok c ∧
      c.frame.sourceAvframeScene.buffer = some [0, 0, 0, 255, 255, 255, 0, 0, 0, 0, 0, 0] := by
  have hdrawable : Drawable (overlayEnv.stops (defaultFrame smallReply)) := by decide +kernel
  have hblit : referenceBlit 2 (overlayEnv.stops (defaultFrame smallReply)) (List.replicate 12 0) =
      [0, 0, 0, 255, 255, 255, 0, 0, 0, 0, 0, 0] := by decide +kernel
  have hframe := (@converting_overlay _ overlayEnv (fun _ => rfl) (fun _ => rfl) defaultInitInfo
    (firstFrame smallReply) rfl false _ (defaultFrame smallReply) rfl rfl (by decide) (by decide)
    (by decide) (by decide) hdrawable).1
  have hsws : overlayEnv.swsScene (defaultFrame smallReply) = true ∧
      overlayEnv.swsDepth (defaultFrame smallReply) = true := ⟨rfl, rfl⟩
  rw [if_pos hsws] at hframe
  exact ⟨_, hframe, congrArg some hblit⟩

end Server

end Ngp
