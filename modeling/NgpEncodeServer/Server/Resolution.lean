import NgpEncodeServer.Server.Delivery
import NgpEncodeServer.Base.CameraAgreement

/-!
# Resolutions along the pipeline

The size a frame is converted to is fixed when its `RenderedFrame` is constructed, from the two
codecs that `main` gives to every client thread: those of the left eye.  The encoder that gets the
frame is the one of its eye, at the resolution it has when the frame arrives.

The first part says when the construction prepares a frame for the codecs of its own eye, the second
when the frames of the left eye fit its encoders at the moment they are handed over.
-/

namespace Ngp

open nesproto (Camera)

/-- The converted picture. -/
def RenderedFrame.convertedAvframe (f : RenderedFrame) : Picture → FrameManager
  | .scene => f.convertedAvframeScene
  | .depth => f.convertedAvframeDepth

/-- The codecs of the two eyes for a picture: each `send_frame_thread` is started by `main` with
those of its eye. -/
def CameraManager.codec (m : CameraManager) : Picture → Sided AVCodecContextManager
  | .scene => m.codecScene
  | .depth => m.codecDepth

/-- A frame of these properties has the size that the codec is configured with. -/
def FrameContext.SizeOf (ctx : FrameContext) (info : CodecInitInfo) : Prop :=
  ctx.width = info.width ∧ ctx.height = info.height

instance (ctx : FrameContext) (info : CodecInitInfo) : Decidable (ctx.SizeOf info) := by
  unfold FrameContext.SizeOf
  infer_instance

namespace Server

/-! ### The construction of a frame -/

/-- The two eyes have the same resolution for the given picture. -/
def SameSize (s : Server) (pic : Picture) : Prop :=
  (s.cameramgr.codec pic).left.info.width = (s.cameramgr.codec pic).right.info.width ∧
    (s.cameramgr.codec pic).left.info.height = (s.cameramgr.codec pic).right.info.height

instance (s : Server) (pic : Picture) : Decidable (s.SameSize pic) := by
  unfold SameSize
  infer_instance

/-- The converted picture has the size of the codec of the frame's own eye. -/
def Prepared (s : Server) (pic : Picture) (f : RenderedFrame) : Prop :=
  (f.convertedAvframe pic).context.SizeOf ((s.cameramgr.codec pic).get f.isLeft).info

instance (s : Server) (pic : Picture) (f : RenderedFrame) : Decidable (s.Prepared pic f) := by
  unfold Prepared
  infer_instance

variable {s s' : Server} {a : Action}

/-- A picture that takes its size from the codec of the left eye has the size for its own eye
exactly if it is a left frame or the eyes have the same resolution. -/
theorem prepared_iff {pic : Picture} {f : RenderedFrame}
    (h : (f.convertedAvframe pic).context =
      FrameContext.ofCodecInfo (s.cameramgr.codec pic).left.info) :
    s.Prepared pic f ↔ f.isLeft = true ∨ s.SameSize pic := by
  unfold Prepared FrameContext.SizeOf SameSize
  rw [h]
  cases f.isLeft with
  | true => simp [FrameContext.ofCodecInfo]
  | false => simp [FrameContext.ofCodecInfo]

/-- The steps of the other threads leave a client thread alone. -/
theorem clients_getElem?_run {as : List Action} {i : ℕ} {c : Client}
    (hc : s.clients[i]? = some c) (hrun : step.run s as = some s')
    (hother : ∀ b, .client i b ∉ as) : s'.clients[i]? = some c := by
  refine Machine.run_induction (P := fun as s' => (∀ b, .client i b ∉ as) →
    s'.clients[i]? = some c) (fun _ => hc) ?_ hrun hother
  intro as s₁ a s₂ _ ih hstep hother
  have hc₁ := ih fun b hb => hother b (List.mem_append_left _ hb)
  cases (trans_of_step hstep).1 with
  | connect =>
    obtain ⟨hlt, -⟩ := List.getElem?_eq_some_iff.mp hc₁
    change (s₁.clients ++ [Client.start])[i]? = _
    rw [List.getElem?_append_left hlt]
    exact hc₁
  | @client j _ _ b _ hj ht =>
    have hne : j ≠ i := by
      rintro rfl
      exact hother b (List.mem_append_right _ (List.mem_singleton_self _))
    change (s₁.clients.set j _)[i]? = _
    rw [List.getElem?_set_ne hne]
    exact hc₁
  | control ht => cases ht <;> exact hc₁
  | pipe hpush ht => exact hc₁

/-- What has been received stays received. -/
theorem received_prefix_run {as : List Action} (hrun : step.run s as = some s') :
    s.received <+: s'.received := by
  refine Machine.run_invariant (I := fun s' => s.received <+: s'.received) (List.prefix_refl _)
    (fun s₁ a s₂ hpre hstep => hpre.trans ?_) hrun
  rw [(trans_of_step hstep).1.received_eq]
  exact List.prefix_append _ _

/-- A frame that carries the same position as a reply on its way some steps earlier is a frame of
the eye that reply names. -/
theorem isLeft_eq_of_receipt_eq {info : CodecInitInfo} {as cs : List Action}
    {r : ℕ × nesproto.RenderedFrame} (hrun : step.run (init info) as = some s)
    (hr : r ∈ s.replies) (hrun' : step.run s cs = some s') {e : Bool} {g : RenderedFrame}
    (hg : g ∈ (s'.pipe.get e).frames) (hreceipt : g.receipt = r.1) : e = r.2.isLeft := by
  have hrun₂ := Machine.run_trans step hrun hrun'
  have hold : s.received[r.1]? = some r.2 := (provenance_run hrun).received r hr
  have hnow : s'.received[r.1]? = some r.2 := by
    obtain ⟨more, hmore⟩ := received_prefix_run hrun'
    obtain ⟨hlt, -⟩ := List.getElem?_eq_some_iff.mp hold
    rw [← hmore, List.getElem?_append_left hlt]
    exact hold
  have hframe : s'.received[r.1]? = some g.frameResponse :=
    hreceipt ▸ (provenance_run hrun₂).received g.reply (reply_mem_replies hg)
  have hsame : g.frameResponse = r.2 := Option.some.inj (hframe.symm.trans hnow)
  rw [← isLeft_of_mem_frames hrun₂ e g hg, RenderedFrame.isLeft, hsame]

/-- The construction of a frame reads the configuration of the scene codec and, after any steps of
the other threads, that of the depth codec.  The two pictures have the sizes that the codecs of the
frame's own eye have at these moments if and only if the frame is a left one or the two eyes have
the same resolution then; and when the frame reaches a `send_frame_thread`, it is the one of its
eye. -/
theorem construction_prepared_iff {info : CodecInitInfo} {as bs : List Action}
    {s₁ s₁' s₂ s₃ : Server} {i : ℕ} (hrun : step.run (init info) as = some s₁)
    (hscene : step s₁ (.client i .constructScene) = some s₁')
    (hbetween : step.run s₁' bs = some s₂) (hother : ∀ b, .client i b ∉ bs)
    (hdepth : step s₂ (.client i .constructDepth) = some s₃) :
    ∃ ret f, s₃.clients[i]? = some ⟨ret, .pushing f⟩ ∧
      (s₁.Prepared .scene f ∧ s₂.Prepared .depth f ↔
        f.isLeft = true ∨ s₁.SameSize .scene ∧ s₂.SameSize .depth) ∧
      ∀ cs s₄ e, step.run s₃ cs = some s₄ → ∀ g ∈ (s₄.pipe.get e).frames,
        g.receipt = f.receipt → e = f.isLeft := by
  obtain ⟨receipt, frame, ret, hc₁⟩ : ∃ receipt frame ret, s₁'.clients[i]? =
      some ⟨ret, .constructingDepth receipt frame s₁.ctxmgrScene.getCodecInfo⟩ := by
    cases (trans_of_step hscene).1 with
    | @client _ c _ _ _ hc ht =>
      cases ht with
      | @constructScene receipt frame hat =>
        refine ⟨receipt, frame, c.ret, ?_⟩
        rw [List.getElem?_set_self (List.getElem?_eq_some_iff.mp hc).1]
  have hc₂ := clients_getElem?_run hc₁ hbetween hother
  have hrun₃ : step.run (init info) (as ++ (.client i .constructScene :: (bs ++
      [.client i .constructDepth]))) = some s₃ := by
    refine Machine.run_trans step hrun ?_
    rw [Machine.run_cons, hscene]
    exact (Machine.run_concat_eq_some_iff step).mpr ⟨s₂, hbetween, hdepth⟩
  have hc₃ : s₃.clients[i]? = some ⟨ret, .pushing (RenderedFrame.new frame .rgb24 .gray8
      s₁.ctxmgrScene.getCodecInfo s₂.ctxmgrDepth.getCodecInfo receipt)⟩ := by
    cases (trans_of_step hdepth).1 with
    | @client _ c _ _ _ hc ht =>
      obtain rfl : _ = c := Option.some.inj (hc₂.symm.trans hc)
      cases ht with
      | constructDepth hat =>
        obtain ⟨rfl, rfl, rfl⟩ := ClientPoint.constructingDepth.inj hat
        rw [List.getElem?_set_self (List.getElem?_eq_some_iff.mp hc).1]
  refine ⟨ret, _, hc₃, ?_, fun cs s₄ e hrun₄ g hg hreceipt => ?_⟩
  · rw [prepared_iff rfl, prepared_iff rfl]
    exact or_and_left.symm
  · refine isLeft_eq_of_receipt_eq hrun₃ (r := (receipt, frame)) ?_ hrun₄ hg hreceipt
    refine List.mem_append_left _ (List.mem_append_left _ (List.mem_flatMap.mpr ?_))
    exact ⟨_, List.mem_of_getElem? hc₃, List.mem_singleton_self _⟩

/-- The camera control server sets a camera of a new resolution, and all encoders open. -/
def resizing (isLeft : Bool) (camera : Camera) : List Action :=
  [.setCamera isLeft camera, .changeScene .opens, .changeDepth .opens, .store].map .control

/-- The steps of the first client thread in an iteration up to the reply. -/
def receiving (frame : nesproto.RenderedFrame) : List Action :=
  [.draw, .allocate, .build, .send 0, .receive (.parsed frame)].map (.client 0)

/-- The right eye gets a resolution of its own and a reply is received. -/
def rightResized (frame : nesproto.RenderedFrame) : List Action :=
  resizing false { width := 640, height := 480 } ++ .connect :: receiving frame

/-- A left frame is prepared for the left codecs whatever the right resolution is. -/
theorem construction_prepared_leftFrame :
    ∃ s₁ s₂ s₃ f, step.run (init defaultInitInfo) (rightResized { isLeft := true }) = some s₁ ∧
      step s₁ (.client 0 .constructScene) = some s₂ ∧
      step s₂ (.client 0 .constructDepth) = some s₃ ∧
      s₃.clients[0]? = some ⟨0, .pushing f⟩ ∧
      (s₁.Prepared .scene f ∧ s₂.Prepared .depth f ↔
        f.isLeft = true ∨ s₁.SameSize .scene ∧ s₂.SameSize .depth) := by
  obtain ⟨ret, f, hc, hiff, -⟩ := @construction_prepared_iff defaultInitInfo
    (rightResized { isLeft := true }) [] _ _ _ _ 0 rfl rfl rfl (by simp) rfl
  exact ⟨_, _, _, f, rfl, rfl, rfl, by cases hc; rfl, hiff⟩

/-- With a resolution of its own for the right eye, a right frame is prepared for the left codecs:
neither of its pictures has the size of the right codecs. -/
theorem rightFrame_not_prepared :
    ∃ s₁ s₂ s₃ f, step.run (init defaultInitInfo) (rightResized {}) = some s₁ ∧
      step s₁ (.client 0 .constructScene) = some s₂ ∧
      step s₂ (.client 0 .constructDepth) = some s₃ ∧
      s₃.clients[0]? = some ⟨0, .pushing f⟩ ∧ f.isLeft = false ∧
      ¬s₁.Prepared .scene f ∧ ¬s₂.Prepared .depth f :=
  ⟨_, _, _, _, rfl, rfl, rfl, rfl, rfl, by decide, by decide⟩

end Server

end Ngp
