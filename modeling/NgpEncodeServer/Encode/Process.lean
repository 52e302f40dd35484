import NgpEncodeServer.Encode.Pipeline
import NgpEncodeServer.Video.PixelBounds

/-!
# The body of `process_frame_thread`

What `process_frame_thread` does with a frame between `pop` and `insert`: it draws four texts over
the scene picture and converts both pictures.  Nothing in it compares the bytes of a picture with
the size announced, so besides an exception it can end in an access beyond the bytes received, which
no handler stops.  Of a body that returns the threads see only the flag of the frame, so the step
`convert` of the pipeline stands for it.
-/

namespace Ngp

/-- What the body uses from outside the repository. -/
structure ProcessEnv where
  /-- How a stream with `std::fixed`, `std::showpos`, `std::setw(7)`, `std::setprecision(5)` and
  `std::setfill('0')` prints a float. -/
  formatFloat : UInt32 → List UInt8
  /-- `timestamp()`. -/
  timestamp : List UInt8
  /-- `FT_Load_Char`. -/
  loadChar : GlyphSlot → UInt8 → GlyphSlot
  /-- The glyph slot before the rendering at a position. -/
  slot : RenderPosition → GlyphSlot
  /-- `sws_getContext` finds a context for the properties of source and destination. -/
  sws : FrameContext → FrameContext → Bool
  /-- `av_image_get_linesize` for the first plane. -/
  linesize : AVPixelFormat → UInt32 → ℕ
  /-- `sws_scale`: what it writes into the destination for the bytes of the source it reads. -/
  scale : FrameContext → FrameContext → List UInt8 → List UInt8

/-- How the body fails. -/
inductive BodyFailure where
  /-- An exception is thrown. -/
  | throws (e : Exn)
  /-- Memory beyond the bytes of a picture is accessed. -/
  | outOfBounds
  deriving DecidableEq, Repr

/-- A frame that has been converted, with what has been written into its two converted pictures. -/
structure ConvertedFrame where
  frame : RenderedFrame
  scene : List UInt8
  depth : List UInt8
  deriving DecidableEq, Repr

/-- The bytes a picture borrows. -/
def FrameManager.bytes (m : FrameManager) : List UInt8 := m.buffer.getD []

namespace ProcessEnv

/-- `cam_matrix.str()`: the entries of the matrix, four in a line, and the last row. -/
def camMatrix (env : ProcessEnv) (matrix : List UInt32) : List UInt8 :=
  let space : UInt8 := 32
  let newline : UInt8 := 10
  let entry := fun it => env.formatFloat it ++ [space]
  (matrix.zipIdx 1).flatMap (fun it => entry it.1 ++ if it.2 % 4 = 0 then [newline] else []) ++
    entry 0 ++ entry 0 ++ entry 0 ++ entry 0x3f800000

/-- One call of `etctx->render_string_to_frame` on `source_frame_scene()`. -/
def render (env : ProcessEnv) (opt : RenderPosition) (content : List UInt8) (f : RenderedFrame) :
    Except BodyFailure RenderedFrame :=
  let scene := f.sourceAvframeScene
  let offsets := RenderTextContext.renderOffsets env.loadChar (env.slot opt) scene opt content
  if offsets.all fun o => o.toNat < scene.bytes.length then
    .ok { f with
      sourceAvframeScene :=
        RenderTextContext.renderStringToFrame env.loadChar (env.slot opt) scene opt content }
  else .error .outOfBounds

/-- The four texts. -/
def drawTexts (env : ProcessEnv) (f : RenderedFrame) : Except BodyFailure RenderedFrame := do
  let index := "index=" ++ toString f.index
  let direction := if f.isLeft then "direction=left" else "direction=right"
  let f ← env.render .center (env.camMatrix f.frameResponse.camera.matrix) f
  let f ← env.render .leftBottom index.toUTF8.toList f
  let f ← env.render .leftTop env.timestamp f
  env.render .rightTop direction.toUTF8.toList f

/-- The constructor of `SwsContextManager`: what it writes into the destination, whose memory has
been allocated. -/
def swsContextManager (env : ProcessEnv) (source dest : FrameManager) :
    Except BodyFailure (List UInt8) :=
  if !env.sws source.context dest.context then
    .error (.throws (.runtimeError "Failed to allocate sws_context."))
  else if source.bytes.length < source.swsScaleBytes env.linesize then .error .outOfBounds
  else
    .ok (env.scale source.context dest.context
      (source.bytes.take (source.swsScaleBytes env.linesize)))

/-- `convert_frame`. -/
def convertFrame (env : ProcessEnv) (f : RenderedFrame) : Except BodyFailure ConvertedFrame := do
  if f.converted then
    throw (.throws (.runtimeError "Tried to convert a converted RenderedFrame."))
  let scene ← env.swsContextManager f.sourceAvframeScene f.convertedAvframeScene
  let depth ← env.swsContextManager f.sourceAvframeDepth f.convertedAvframeDepth
  return ⟨{ f with converted := true }, scene, depth⟩

/-- The body from `pop` to `insert`. -/
def processFrame (env : ProcessEnv) (f : RenderedFrame) : Except BodyFailure ConvertedFrame := do
  let f ← env.drawTexts f
  env.convertFrame f

/-- `sws_getContext` finds a context for the scene picture of the frame. -/
def swsScene (env : ProcessEnv) (f : RenderedFrame) : Bool :=
  env.sws f.sourceAvframeScene.context f.convertedAvframeScene.context

/-- `sws_getContext` finds a context for the depth picture of the frame. -/
def swsDepth (env : ProcessEnv) (f : RenderedFrame) : Bool :=
  env.sws f.sourceAvframeDepth.context f.convertedAvframeDepth.context

/-- The four texts with their positions, in the order in which they are drawn. -/
def texts (env : ProcessEnv) (f : RenderedFrame) : List (RenderPosition × List UInt8) :=
  [(.center, env.camMatrix f.frameResponse.camera.matrix),
    (.leftBottom, ("index=" ++ toString f.index).toUTF8.toList),
    (.leftTop, env.timestamp),
    (.rightTop, (if f.isLeft then "direction=left" else "direction=right").toUTF8.toList)]

variable {env : ProcessEnv} {f f' : RenderedFrame} {opt : RenderPosition} {content : List UInt8}

/-- `drawTexts` draws the texts one after the other. -/
theorem drawTexts_eq_foldlM (env : ProcessEnv) (f : RenderedFrame) :
    env.drawTexts f = (env.texts f).foldlM (fun f t => env.render t.1 t.2 f) f := by
  simp only [drawTexts, texts, List.foldlM_cons, List.foldlM_nil, bind_pure]

/-! ### What the texts leave as it is -/

/-- The frames differ at most in the bytes of the scene picture, and not in their number. -/
structure SameButPixels (f f' : RenderedFrame) : Prop where
  converted_eq : f'.converted = f.converted
  context_eq : f'.sourceAvframeScene.context = f.sourceAvframeScene.context
  length_eq : f'.sourceAvframeScene.bytes.length = f.sourceAvframeScene.bytes.length
  convertedScene_eq : f'.convertedAvframeScene = f.convertedAvframeScene
  sourceDepth_eq : f'.sourceAvframeDepth = f.sourceAvframeDepth
  convertedDepth_eq : f'.convertedAvframeDepth = f.convertedAvframeDepth

theorem SameButPixels.refl (f : RenderedFrame) : SameButPixels f f := ⟨rfl, rfl, rfl, rfl, rfl, rfl⟩

theorem SameButPixels.trans {f'' : RenderedFrame} (h : SameButPixels f f')
    (h' : SameButPixels f' f'') : SameButPixels f f'' where
  converted_eq := h'.converted_eq.trans h.converted_eq
  context_eq := h'.context_eq.trans h.context_eq
  length_eq := h'.length_eq.trans h.length_eq
  convertedScene_eq := h'.convertedScene_eq.trans h.convertedScene_eq
  sourceDepth_eq := h'.sourceDepth_eq.trans h.sourceDepth_eq
  convertedDepth_eq := h'.convertedDepth_eq.trans h.convertedDepth_eq

/-- The white bytes of a text do not change the number of bytes. -/
theorem length_bytes_renderStringToFrame {loadChar : GlyphSlot → UInt8 → GlyphSlot}
    {slot : GlyphSlot} {frame : FrameManager} :
    (RenderTextContext.renderStringToFrame loadChar slot frame opt content).bytes.length =
      frame.bytes.length := by
  have hset : ∀ (offsets : List UInt32) (surface : List UInt8),
      (offsets.foldl (fun surface offset => surface.set offset.toNat 255) surface).length =
        surface.length := by
    intro offsets
    induction offsets with
    | nil => exact fun _ => rfl
    | cons o offsets ih => exact fun surface => (ih _).trans List.length_set
  unfold RenderTextContext.renderStringToFrame FrameManager.bytes
  cases frame.buffer with
  | none => rfl
  | some surface => exact hset _ surface

/-- A text that is drawn changes pixels of the scene picture. -/
theorem sameButPixels_of_render (h : env.render opt content f = .ok f') : SameButPixels f f' := by
  unfold render at h
  dsimp only at h
  split at h
  · cases h
    exact ⟨rfl, rfl, length_bytes_renderStringToFrame, rfl, rfl, rfl⟩
  · cases h

/-- Texts that are drawn one after the other change pixels of the scene picture. -/
theorem sameButPixels_of_foldlM {texts : List (RenderPosition × List UInt8)}
    (h : texts.foldlM (fun f t => env.render t.1 t.2 f) f = .ok f') : SameButPixels f f' := by
  induction texts generalizing f with
  | nil => exact Except.ok.inj h ▸ .refl f
  | cons t texts ih =>
    rw [List.foldlM_cons] at h
    cases hfirst : env.render t.1 t.2 f with
    | error e =>
      rw [hfirst] at h
      cases h
    | ok f₁ =>
      rw [hfirst] at h
      exact (sameButPixels_of_render hfirst).trans (ih h)

/-- A text whose white bytes are all in the picture is drawn. -/
theorem render_eq_ok (hin : ∀ o ∈ RenderTextContext.renderOffsets env.loadChar (env.slot opt)
      f.sourceAvframeScene opt content, o.toNat < f.sourceAvframeScene.bytes.length) :
    env.render opt content f = .ok { f with
      sourceAvframeScene := RenderTextContext.renderStringToFrame env.loadChar (env.slot opt)
        f.sourceAvframeScene opt content } :=
  if_pos (List.all_eq_true.mpr fun o ho => decide_eq_true (hin o ho))

/-- On a picture with all the bytes of the size announced every text can be drawn. -/
theorem exists_render_eq_ok (hlength : 3 * f.sourceAvframeScene.context.width.toNat *
      f.sourceAvframeScene.context.height.toNat ≤ f.sourceAvframeScene.bytes.length) :
    ∃ f', env.render opt content f = .ok f' :=
  ⟨_, render_eq_ok fun _ ho => (RenderTextContext.lt_of_mem_renderOffsets ho).trans_le hlength⟩

/-- And so can texts one after the other. -/
theorem exists_foldlM_eq_ok {texts : List (RenderPosition × List UInt8)}
    (hlength : 3 * f.sourceAvframeScene.context.width.toNat *
      f.sourceAvframeScene.context.height.toNat ≤ f.sourceAvframeScene.bytes.length) :
    ∃ f', texts.foldlM (fun f t => env.render t.1 t.2 f) f = .ok f' := by
  induction texts generalizing f with
  | nil => exact ⟨f, rfl⟩
  | cons t texts ih =>
    obtain ⟨f₁, hfirst⟩ := @exists_render_eq_ok env f t.1 t.2 hlength
    have hsame := sameButPixels_of_render hfirst
    obtain ⟨f', hrest⟩ := @ih f₁ (by rwa [hsame.length_eq, hsame.context_eq])
    refine ⟨f', ?_⟩
    rw [List.foldlM_cons, hfirst]
    exact hrest

/-! ### What becomes of a frame -/

/-- The constructor of `SwsContextManager` returns if there is a context and every row of the
source is there. -/
theorem swsContextManager_eq_ok_iff {source dest : FrameManager} {picture : List UInt8} :
    env.swsContextManager source dest = .ok picture ↔
      env.sws source.context dest.context = true ∧
        source.swsScaleBytes env.linesize ≤ source.bytes.length ∧
        env.scale source.context dest.context
          (source.bytes.take (source.swsScaleBytes env.linesize)) = picture := by
  unfold swsContextManager
  split
  · rename_i hnone
    simp_all
  · rename_i hfound
    split
    · rename_i hshort
      simp [Nat.not_le_of_lt hshort]
    · rename_i hlong
      simp_all

/-- It throws only if there is no context. -/
theorem swsContextManager_eq_throws {source dest : FrameManager} {e : Exn}
    (h : env.swsContextManager source dest = .error (.throws e)) :
    env.sws source.context dest.context = false ∧
      e = .runtimeError "Failed to allocate sws_context." := by
  unfold swsContextManager at h
  split at h
  · rename_i hnone
    cases h
    exact ⟨by simpa using hnone, rfl⟩
  · split at h <;> cases h

/-- The frame has not been converted, there is a context for both pictures, and every row of both is
there. -/
structure Convertible (env : ProcessEnv) (f : RenderedFrame) : Prop where
  new : f.converted = false
  swsScene : env.swsScene f = true
  scene_le : f.sourceAvframeScene.swsScaleBytes env.linesize ≤ f.sourceAvframeScene.bytes.length
  swsDepth : env.swsDepth f = true
  depth_le : f.sourceAvframeDepth.swsScaleBytes env.linesize ≤ f.sourceAvframeDepth.bytes.length

theorem SameButPixels.swsScene_eq (h : SameButPixels f f') : env.swsScene f' = env.swsScene f := by
  rw [ProcessEnv.swsScene, h.context_eq, h.convertedScene_eq]
  rfl

theorem SameButPixels.swsDepth_eq (h : SameButPixels f f') : env.swsDepth f' = env.swsDepth f := by
  rw [ProcessEnv.swsDepth, h.sourceDepth_eq, h.convertedDepth_eq]
  rfl

/-- Whether a frame can be converted does not depend on its pixels. -/
theorem SameButPixels.convertible_iff (h : SameButPixels f f') :
    env.Convertible f' ↔ env.Convertible f := by
  have hbytes : f'.sourceAvframeScene.swsScaleBytes env.linesize =
      f.sourceAvframeScene.swsScaleBytes env.linesize := by
    rw [FrameManager.swsScaleBytes, h.context_eq]
    rfl
  constructor
  · rintro ⟨hnew, hs, hle, hd, hle'⟩
    rw [h.converted_eq] at hnew
    rw [h.length_eq, hbytes] at hle
    rw [h.sourceDepth_eq] at hle'
    exact ⟨hnew, h.swsScene_eq ▸ hs, hle, h.swsDepth_eq ▸ hd, hle'⟩
  · rintro ⟨hnew, hs, hle, hd, hle'⟩
    rw [← h.converted_eq] at hnew
    rw [← h.length_eq, ← hbytes] at hle
    rw [← h.sourceDepth_eq] at hle'
    exact ⟨hnew, h.swsScene_eq.trans hs, hle, h.swsDepth_eq.trans hd, hle'⟩

/-- `convert_frame` returns a frame and its converted pictures exactly if the frame can be
converted. -/
theorem convertFrame_eq_ok_iff {c : ConvertedFrame} :
    env.convertFrame f = .ok c ↔
      env.Convertible f ∧ c = ⟨{ f with converted := true },
        env.scale f.sourceAvframeScene.context f.convertedAvframeScene.context
          (f.sourceAvframeScene.bytes.take (f.sourceAvframeScene.swsScaleBytes env.linesize)),
        env.scale f.sourceAvframeDepth.context f.convertedAvframeDepth.context
          (f.sourceAvframeDepth.bytes.take (f.sourceAvframeDepth.swsScaleBytes env.linesize))⟩ := by
  unfold convertFrame
  cases hconverted : f.converted with
  | true => exact iff_of_false (fun h => nomatch h) fun h => by simp [h.1.new] at hconverted
  | false =>
    cases hscene : env.swsContextManager f.sourceAvframeScene f.convertedAvframeScene with
    | error e =>
      refine iff_of_false (fun h => nomatch h) fun h => ?_
      rw [swsContextManager_eq_ok_iff.mpr ⟨h.1.swsScene, h.1.scene_le, rfl⟩] at hscene
      cases hscene
    | ok scene =>
      obtain ⟨hs, hsle, rfl⟩ := swsContextManager_eq_ok_iff.mp hscene
      cases hdepth : env.swsContextManager f.sourceAvframeDepth f.convertedAvframeDepth with
      | error e =>
        refine iff_of_false (fun h => nomatch h) fun h => ?_
        rw [swsContextManager_eq_ok_iff.mpr ⟨h.1.swsDepth, h.1.depth_le, rfl⟩] at hdepth
        cases hdepth
      | ok depth =>
        obtain ⟨hd, hdle, rfl⟩ := swsContextManager_eq_ok_iff.mp hdepth
        exact ⟨fun h => ⟨⟨hconverted, hs, hsle, hd, hdle⟩, (Except.ok.inj h).symm⟩,
          fun h => congrArg Except.ok h.2.symm⟩

/-- Without a context for one of the pictures `convert_frame` throws, if the scene picture is all
there. -/
theorem convertFrame_of_not_found (hnew : f.converted = false)
    (hscene : f.sourceAvframeScene.swsScaleBytes env.linesize ≤ f.sourceAvframeScene.bytes.length)
    (hnone : ¬(env.swsScene f = true ∧ env.swsDepth f = true)) :
    env.convertFrame f =
      .error (.throws (.runtimeError "Failed to allocate sws_context.")) := by
  have hthrow : ∀ {source dest : FrameManager}, env.sws source.context dest.context = false →
      env.swsContextManager source dest =
        .error (.throws (.runtimeError "Failed to allocate sws_context.")) := by
    intro source dest hnone
    simp [swsContextManager, hnone]
  unfold convertFrame
  rw [hnew]
  cases hs : env.swsScene f with
  | false =>
    rw [hthrow hs]
    rfl
  | true =>
    have hd : env.swsDepth f = false := by simpa [hs] using hnone
    rw [swsContextManager_eq_ok_iff.mpr ⟨hs, hscene, rfl⟩, hthrow hd]
    rfl

/-- An exception out of `convert_frame` is the one that the pipeline gives to the thread. -/
theorem convertFrame_eq_throws {e : Exn} (h : env.convertFrame f = .error (.throws e)) :
    f.convertFrame (env.swsScene f) (env.swsDepth f) = .error e := by
  unfold convertFrame at h
  unfold RenderedFrame.convertFrame
  cases hconverted : f.converted with
  | true =>
    rw [hconverted] at h
    cases h
    rfl
  | false =>
    rw [hconverted] at h
    cases hscene : env.swsContextManager f.sourceAvframeScene f.convertedAvframeScene with
    | error e' =>
      rw [hscene] at h
      cases h
      obtain ⟨hnone, rfl⟩ := swsContextManager_eq_throws hscene
      simp [swsScene, hnone]
    | ok scene =>
      cases hdepth : env.swsContextManager f.sourceAvframeDepth f.convertedAvframeDepth with
      | error e' =>
        rw [hscene, hdepth] at h
        cases h
        obtain ⟨hnone, rfl⟩ := swsContextManager_eq_throws hdepth
        simp [swsDepth, hnone]
      | ok depth =>
        rw [hscene, hdepth] at h
        cases h

/-- Texts fail only by an access out of bounds. -/
theorem foldlM_eq_error {texts : List (RenderPosition × List UInt8)} {e : BodyFailure}
    (h : texts.foldlM (fun f t => env.render t.1 t.2 f) f = .error e) : e = .outOfBounds := by
  induction texts generalizing f with
  | nil => cases h
  | cons t texts ih =>
    rw [List.foldlM_cons] at h
    cases hfirst : env.render t.1 t.2 f with
    | error e' =>
      rw [hfirst] at h
      unfold render at hfirst
      dsimp only at hfirst
      split at hfirst <;> cases hfirst
      exact (Except.error.inj h).symm
    | ok f₁ =>
      rw [hfirst] at h
      exact ih h

/-- A body that stays in bounds ends as the conversion of the frame with other pixels ends. -/
theorem exists_of_processFrame {r : Except BodyFailure ConvertedFrame}
    (h : env.processFrame f = r) (hr : r ≠ .error .outOfBounds) :
    ∃ f', SameButPixels f f' ∧ env.convertFrame f' = r := by
  unfold processFrame at h
  rw [drawTexts_eq_foldlM] at h
  cases hdraw : (env.texts f).foldlM (fun f t => env.render t.1 t.2 f) f with
  | error e =>
    rw [hdraw] at h
    obtain rfl := foldlM_eq_error hdraw
    exact absurd h.symm hr
  | ok f' =>
    rw [hdraw] at h
    exact ⟨f', sameButPixels_of_foldlM hdraw, h⟩

/-- A frame that can be converted, with all the bytes that are drawn on, is converted. -/
theorem Convertible.exists_processFrame (h : env.Convertible f)
    (hpixels : 3 * f.sourceAvframeScene.context.width.toNat *
      f.sourceAvframeScene.context.height.toNat ≤ f.sourceAvframeScene.bytes.length) :
    ∃ c, env.processFrame f = .ok c := by
  obtain ⟨f', hdraw⟩ := @exists_foldlM_eq_ok env f (env.texts f) hpixels
  unfold processFrame
  rw [drawTexts_eq_foldlM, hdraw]
  exact ⟨_, convertFrame_eq_ok_iff.mpr
    ⟨(sameButPixels_of_foldlM hdraw).convertible_iff.mpr h, rfl⟩⟩

/-- Only a frame that can be converted is, and it is marked as converted. -/
theorem convertible_of_processFrame {c : ConvertedFrame} (h : env.processFrame f = .ok c) :
    env.Convertible f ∧ c.frame.converted = true := by
  obtain ⟨f', hsame, hconvert⟩ := exists_of_processFrame h (by simp)
  obtain ⟨hconvertible, rfl⟩ := convertFrame_eq_ok_iff.mp hconvert
  exact ⟨hsame.convertible_iff.mp hconvertible, rfl⟩

/-- An exception out of the body is the one that the pipeline gives to the thread. -/
theorem processFrame_eq_throws {e : Exn} (h : env.processFrame f = .error (.throws e)) :
    f.convertFrame (env.swsScene f) (env.swsDepth f) = .error e := by
  obtain ⟨f', hsame, hconvert⟩ := exists_of_processFrame h (by simp)
  have hthrow := convertFrame_eq_throws hconvert
  rw [hsame.swsScene_eq, hsame.swsDepth_eq] at hthrow
  unfold RenderedFrame.convertFrame at hthrow ⊢
  rw [hsame.converted_eq] at hthrow
  by_cases hconverted : f.converted = true
  · rw [if_pos hconverted] at hthrow ⊢
    exact hthrow
  · rw [if_neg hconverted] at hthrow ⊢
    split at hthrow
    · rename_i hnone
      rw [if_pos hnone]
      exact hthrow
    · cases hthrow

end ProcessEnv

namespace Pipe

/-- The rest of the iteration up to `insert`, for the frame in hand.  An access out of bounds ends
the process, and there is no state after it. -/
def bodyStep (env : ProcessEnv) (p : Pipe) : Option Pipe :=
  match p.process with
  | .converting frameIndex frame =>
    match env.processFrame frame with
    | .ok c =>
      -- the pictures are written in place, and the threads see of them only the flag
      some { p with process := .inserting frameIndex { frame with converted := c.frame.converted } }
    | .error (.throws e) => some { p with process := .raised e }
    | .error .outOfBounds => none
  | _ => none

variable {p p' : Pipe} {i : UInt64} {f : RenderedFrame}

/-- A body that stays in bounds is the step `convert` of the pipeline, with the answers that
`sws_getContext` gives for the frame. -/
theorem step_convert {env : ProcessEnv} (hat : p.process = .converting i f)
    (h : bodyStep env p = some p') :
    step p (.convert (env.swsScene f) (env.swsDepth f)) = some p' := by
  simp only [bodyStep, hat] at h
  simp only [step, hat]
  split at h
  · rename_i c hbody
    obtain ⟨⟨hnew, hs, -, hd, -⟩, hflag⟩ := ProcessEnv.convertible_of_processFrame hbody
    have hok : f.convertFrame (env.swsScene f) (env.swsDepth f) =
        .ok { f with converted := c.frame.converted } := by
      simp [RenderedFrame.convertFrame, hnew, hs, hd, hflag]
    rw [hok]
    exact h
  · rename_i e hbody
    rw [ProcessEnv.processFrame_eq_throws hbody]
    exact h
  · cases h

/-- A frame that is about to be inserted is inserted, or discarded when the map stays full; in both
cases the thread goes back to `pop`. -/
theorem step_inserting (hat : p.process = .inserting i f) :
    (∃ p', step p .insert = some p' ∧ p'.process = .popping ∧ p'.send = p.send ∧
        p'.frameMap.map = p.frameMap.map.insert i f) ∨
      (step p .insertTimeout = some { p with process := .popping } ∧
        p.frameMap.map.size = kFrameMapMaxSize) := by
  cases hins : p.frameMap.insert i f with
  | ok m =>
    have hstep : step p .insert = some { p with
        frameMap := m, process := .popping,
        late := if p.passed i then p.late + 1 else p.late } := by
      simp only [step, hat, hins]
    exact Or.inl ⟨_, hstep, rfl, rfl, (FrameMap.insert_eq_ok hins).2⟩
  | error e =>
    exact Or.inr ⟨by simp only [step, hat, hins], (FrameMap.insert_eq_error hins).2⟩

/-- The frame `process_frame_thread` converts is the one it took from the queue, under its index. -/
theorem converting_step {p' : Pipe} {a : PipeAction} (h : Trans p a p')
    (hat : p'.process = .converting i f) :
    p.process = .converting i f ∨ f ∈ p.frameQueue.queue ∧ i = f.index := by
  cases h with
  | pop _ hq =>
    obtain ⟨rfl, rfl⟩ := ProcessPoint.converting.inj hat
    right
    rw [hq]
    exact ⟨List.mem_cons_self, rfl⟩
  | convert | convertThrows | insert | insertTimeout => cases hat
  | _ => exact Or.inl hat

end Pipe

end Ngp
