import NgpEncodeServer.Video.RenderText

/-!
# Accesses to the pixels of a reply

A reply announces the size of its pictures in one field and carries their bytes in two others, and
nothing between the parser and the two consumers compares them: the text overlay writes into the
scene picture and `sws_scale` reads both pictures, each up to the size announced.
`offsetsInBounds_iff` says for which frames this stays inside the bytes received.

`av_image_get_linesize` is outside the repository and an argument here.
-/

namespace Ngp

/-- The bytes of a source picture that `sws_scale` reads: `height` rows of `linesize`. -/
def FrameManager.swsScaleBytes (linesize : AVPixelFormat → UInt32 → ℕ) (m : FrameManager) : ℕ :=
  linesize m.context.pixFmt m.context.width * m.context.height.toNat

namespace RenderedFrame

/-- The bytes of the scene picture that `convert_frame` reads, when `sws_getContext` answers as
given. -/
def sceneBytesRead (linesize : AVPixelFormat → UInt32 → ℕ) (f : RenderedFrame)
    (swsScene : Bool) : ℕ :=
  if f.converted || !swsScene then 0 else f.sourceAvframeScene.swsScaleBytes linesize

/-- The bytes of the depth picture that `convert_frame` reads. -/
def depthBytesRead (linesize : AVPixelFormat → UInt32 → ℕ) (f : RenderedFrame)
    (swsScene swsDepth : Bool) : ℕ :=
  if f.converted || !swsScene || !swsDepth then 0 else f.sourceAvframeDepth.swsScaleBytes linesize

/-- No access to the pixels of the reply goes beyond the bytes received, whatever text is drawn
where, whatever the font is, and whatever `sws_getContext` answers. -/
structure OffsetsInBounds (linesize : AVPixelFormat → UInt32 → ℕ) (f : RenderedFrame) : Prop where
  render : ∀ loadChar slot opt content,
    ∀ o ∈ RenderTextContext.renderOffsets loadChar slot f.sourceAvframeScene opt content,
      o.toNat < f.frameResponse.frame.length
  scene : ∀ swsScene, ∀ o < f.sceneBytesRead linesize swsScene, o < f.frameResponse.frame.length
  depth : ∀ swsScene swsDepth, ∀ o < f.depthBytesRead linesize swsScene swsDepth,
    o < f.frameResponse.depth.length

/-- A frame as a client thread constructs it. -/
def Fresh (f : RenderedFrame) : Prop :=
  ∃ infoScene infoDepth,
    f = RenderedFrame.new f.frameResponse .rgb24 .gray8 infoScene infoDepth f.receipt

/-- The size to which the overlay on a fresh frame clips is the announced one. -/
theorem Fresh.context_eq {f : RenderedFrame} (hf : f.Fresh) :
    f.sourceAvframeScene.context =
      ⟨f.frameResponse.camera.width, f.frameResponse.camera.height, .rgb24⟩ := by
  obtain ⟨infoScene, infoDepth, hf⟩ := hf
  rw [hf]
  rfl

section Linesize

variable {linesize : AVPixelFormat → UInt32 → ℕ} {f : RenderedFrame}

/-- What the two source pictures of a fresh frame have `sws_scale` read. -/
theorem swsScaleBytes_of_fresh (hf : f.Fresh) (hrgb : ∀ w, linesize .rgb24 w = 3 * w.toNat)
    (hgray : ∀ w, linesize .gray8 w = w.toNat) :
    f.sourceAvframeScene.swsScaleBytes linesize =
        3 * f.frameResponse.camera.width.toNat * f.frameResponse.camera.height.toNat ∧
      f.sourceAvframeDepth.swsScaleBytes linesize =
        f.frameResponse.camera.width.toNat * f.frameResponse.camera.height.toNat := by
  obtain ⟨infoScene, infoDepth, hf⟩ := hf
  rw [hf]
  exact ⟨congrArg (· * _) (hrgb _), congrArg (· * _) (hgray _)⟩

/-- All accesses to the pixels of a fresh frame stay inside the bytes received if and only if
`frame` holds three bytes and `depth` one byte for every pixel of the size announced. -/
theorem offsetsInBounds_iff (hf : f.Fresh) (hrgb : ∀ w, linesize .rgb24 w = 3 * w.toNat)
    (hgray : ∀ w, linesize .gray8 w = w.toNat) :
    OffsetsInBounds linesize f ↔
      3 * f.frameResponse.camera.width.toNat * f.frameResponse.camera.height.toNat ≤
          f.frameResponse.frame.length ∧
        f.frameResponse.camera.width.toNat * f.frameResponse.camera.height.toNat ≤
          f.frameResponse.depth.length := by
  obtain ⟨hscene, hdepth⟩ := swsScaleBytes_of_fresh hf hrgb hgray
  have hnew : f.converted = false := by
    obtain ⟨infoScene, infoDepth, hf⟩ := hf
    rw [hf]
    rfl
  rw [← hscene, ← hdepth]
  constructor
  · intro h
    have hs : f.sceneBytesRead linesize true = f.sourceAvframeScene.swsScaleBytes linesize := by
      simp [sceneBytesRead, hnew]
    have hd : f.depthBytesRead linesize true true =
        f.sourceAvframeDepth.swsScaleBytes linesize := by
      simp [depthBytesRead, hnew]
    refine ⟨Nat.le_of_not_lt fun hlt => ?_, Nat.le_of_not_lt fun hlt => ?_⟩
    · exact Nat.lt_irrefl _ (h.scene true _ (hs ▸ hlt))
    · exact Nat.lt_irrefl _ (h.depth true true _ (hd ▸ hlt))
  · rintro ⟨hframe, hdepthLen⟩
    refine ⟨fun loadChar slot opt content o ho => ?_, fun swsScene o ho => ?_,
      fun swsScene swsDepth o ho => ?_⟩
    · have hlt := RenderTextContext.lt_of_mem_renderOffsets ho
      rw [hf.context_eq] at hlt
      exact Nat.lt_of_lt_of_le hlt (hscene ▸ hframe)
    · unfold sceneBytesRead at ho
      split at ho
      · exact absurd ho (Nat.not_lt_zero _)
      · exact Nat.lt_of_lt_of_le ho hframe
    · unfold depthBytesRead at ho
      split at ho
      · exact absurd ho (Nat.not_lt_zero _)
      · exact Nat.lt_of_lt_of_le ho hdepthLen

end Linesize

end RenderedFrame

end Ngp
