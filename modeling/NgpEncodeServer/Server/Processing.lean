import NgpEncodeServer.Encode.Process
import NgpEncodeServer.Server.Pixels

/-!
# Frames that end `process_frame_thread`

The loop of `process_frame_thread` catches `LockTimeout` only, and the conversion of a frame throws
`std::runtime_error` when `sws_getContext` finds no context.  What it looks for depends on the size
in the reply, which nobody has checked, and on the resolutions the codecs had when the frame was
constructed.  Nor has anybody compared that size with the bytes received, which the texts write to
and `sws_scale` reads.  The timed insert never ends the thread.
-/

namespace Ngp

/-- `sws_getContext` finds a context for both pictures: from the size that the reply announces to
the size that the codec had when the frame was constructed. -/
def RenderedFrame.ContextsFound (sws : FrameContext → FrameContext → Bool)
    (f : RenderedFrame) : Prop :=
  sws ⟨f.frameResponse.camera.width, f.frameResponse.camera.height, .rgb24⟩
      f.convertedAvframeScene.context = true ∧
    sws ⟨f.frameResponse.camera.width, f.frameResponse.camera.height, .gray8⟩
      f.convertedAvframeDepth.context = true

namespace Server

variable {s s' : Server} {a : Action}

/-- The frames that the two `process_frame_thread`s convert are fresh, and go under their index. -/
def ConvertsFresh (s : Server) : Prop :=
  ∀ e i f, (s.pipe.get e).process = .converting i f → f.Fresh ∧ i = f.index

theorem convertsFresh_init (info : CodecInitInfo) : ConvertsFresh (init info) := by
  intro e i f hat
  cases e <;> cases hat

/-- Every step keeps the frames that are converted fresh. -/
theorem ConvertsFresh.step (h : ConvertsFresh s) (hqueues : QueuesFresh s) (ht : Trans s a s') :
    ConvertsFresh s' := by
  intro e i f hat
  rcases ht.pipe_get e with ⟨heq, -⟩ | ⟨b, hpipe, -⟩
  · exact h e i f (heq ▸ hat)
  · rcases Pipe.converting_step hpipe hat with hold | ⟨hmem, hi⟩
    · exact h e i f hold
    · exact ⟨hqueues.queued e f hmem, hi⟩

/-- In every run the frames that are converted are fresh. -/
theorem convertsFresh_run {info : CodecInitInfo} {as : List Action}
    (hrun : step.run (init info) as = some s) : ConvertsFresh s := by
  have hboth : QueuesFresh s ∧ ConvertsFresh s := by
    refine Machine.run_invariant (I := fun s => QueuesFresh s ∧ ConvertsFresh s)
      ⟨queuesFresh_init info, convertsFresh_init info⟩ ?_ hrun
    rintro s a s' ⟨hqueues, hconverts⟩ hstep
    have ht := (trans_of_step hstep).1
    exact ⟨hqueues.step ht, hconverts.step hqueues ht⟩
  exact hboth.2

/-- A step of `process_frame_thread` ends the process exactly if it leaves the thread by an
exception. -/
theorem terminated_setPipe (hlive : s.terminated = false) {e : Bool} {p : Pipe}
    (hsend : p.send = (s.pipe.get e).send) :
    ({ s with pipe := s.pipe.set e p } : Server).terminated = p.process.isRaised := by
  simp only [terminated, Bool.or_eq_false_iff] at hlive ⊢
  obtain ⟨⟨⟨⟨⟨hclients, hcontrol⟩, h1⟩, h2⟩, h3⟩, h4⟩ := hlive
  cases e
  · simp [hclients, hcontrol, h1, h2, hsend, h4]
  · simp [hclients, hcontrol, hsend, h2, h3, h4]

/-- A step of a pipeline other than a push in a running process. -/
theorem step_pipe (hlive : s.terminated = false) {e : Bool} {b : PipeAction} {p : Pipe}
    (hpush : b.pushed = []) (h : Pipe.step (s.pipe.get e) b = some p) :
    step s (.pipe e b) = some { s with pipe := s.pipe.set e p } := by
  cases b with
  | push frame => cases hpush
  | _ => simp [step, hlive, h]

/-- The thread inserts the frame under the index, or discards it because the map stays full, and
goes back to `pop`. -/
def InsertsOrDiscards (s : Server) (e : Bool) (i : UInt64) (f : RenderedFrame) : Prop :=
  ∃ s', s'.terminated = false ∧ (s'.pipe.get e).process = .popping ∧
    (step s (.pipe e .insert) = some s' ∧
        (s'.pipe.get e).frameMap.map = (s.pipe.get e).frameMap.map.insert i f ∨
      step s (.pipe e .insertTimeout) = some s' ∧
        (s.pipe.get e).frameMap.map.size = kFrameMapMaxSize ∧
        (s'.pipe.get e).frameMap.map = (s.pipe.get e).frameMap.map)

/-- The frame has been converted, and whatever the other threads do until the thread goes on, it
inserts the converted frame under its index or discards it. -/
structure Contained (s' : Server) (e : Bool) (f : RenderedFrame) : Prop where
  live : s'.terminated = false
  converted : (s'.pipe.get e).process = .inserting f.index { f with converted := true }
  finishes : ∀ as s'', step.run s' as = some s'' → s''.terminated = false →
    (s''.pipe.get e).process = .inserting f.index { f with converted := true } →
    InsertsOrDiscards s'' e f.index { f with converted := true }

/-- In a running process a frame that is about to be inserted is inserted or discarded. -/
theorem insertsOrDiscards (hlive : s.terminated = false) {e : Bool} {i : UInt64} {f : RenderedFrame}
    (hat : (s.pipe.get e).process = .inserting i f) : InsertsOrDiscards s e i f := by
  rcases Pipe.step_inserting hat with ⟨p, hp, hprocess, hsend, hmap⟩ | ⟨hp, hfull⟩
  · refine ⟨_, ?_, ?_, Or.inl ⟨step_pipe hlive rfl hp, ?_⟩⟩
    · rw [terminated_setPipe hlive hsend, hprocess]
      rfl
    · rw [Sided.get_set_self, hprocess]
    · rw [Sided.get_set_self, hmap]
  · refine ⟨_, ?_, ?_, Or.inr ⟨step_pipe hlive rfl hp, hfull, ?_⟩⟩
    · refine (terminated_setPipe hlive ?_).trans rfl
      rfl
    · rw [Sided.get_set_self]
    · rw [Sided.get_set_self]

/-- The rest of the iteration of the `process_frame_thread` of an eye up to `insert`. -/
def bodyStep (env : ProcessEnv) (s : Server) (e : Bool) : Option Server :=
  if s.terminated then none
  else (Pipe.bodyStep env (s.pipe.get e)).map fun p => { s with pipe := s.pipe.set e p }

/-- A body that stays in bounds is a step of the server. -/
theorem step_of_bodyStep {env : ProcessEnv} {e : Bool} {i : UInt64} {f : RenderedFrame}
    (hat : (s.pipe.get e).process = .converting i f) (h : bodyStep env s e = some s') :
    step s (.pipe e (.convert (env.swsScene f) (env.swsDepth f))) = some s' := by
  unfold bodyStep at h
  split at h
  · cases h
  · rename_i hlive
    obtain ⟨p, hp, rfl⟩ := Option.map_eq_some_iff.mp h
    exact step_pipe (Bool.eq_false_iff.mpr hlive) rfl (Pipe.step_convert hat hp)

/-- What the size in the reply asks of a fresh frame. -/
theorem convertible_iff {env : ProcessEnv} (hrgb : ∀ w, env.linesize .rgb24 w = 3 * w.toNat)
    (hgray : ∀ w, env.linesize .gray8 w = w.toNat) {f : RenderedFrame} (hf : f.Fresh) :
    env.Convertible f ↔ f.ContextsFound env.sws ∧
      3 * f.frameResponse.camera.width.toNat * f.frameResponse.camera.height.toNat ≤
          f.frameResponse.frame.length ∧
      f.frameResponse.camera.width.toNat * f.frameResponse.camera.height.toNat ≤
          f.frameResponse.depth.length := by
  obtain ⟨hscene, hdepth⟩ := f.swsScaleBytes_of_fresh hf hrgb hgray
  rw [← hscene, ← hdepth]
  obtain ⟨infoScene, infoDepth, hf⟩ := hf
  rw [hf]
  exact ⟨fun h => ⟨⟨h.swsScene, h.swsDepth⟩, h.scene_le, h.depth_le⟩,
    fun ⟨⟨hs, hd⟩, hle, hle'⟩ => ⟨rfl, hs, hle, hd, hle'⟩⟩

/-- For every reply that has been parsed and every resolution of the codecs: when
`process_frame_thread` has taken its frame from the queue, the iteration converts the frame and then
inserts it under its index or discards it, without an exception or an access out of bounds that ends
the process, if and only if `sws_getContext` finds a context for both pictures and the reply carries
three bytes in `frame` and one byte in `depth` for every pixel of the size it announces. -/
theorem frame_contained_iff {env : ProcessEnv} (hrgb : ∀ w, env.linesize .rgb24 w = 3 * w.toNat)
    (hgray : ∀ w, env.linesize .gray8 w = w.toNat) {info : CodecInitInfo} {as : List Action}
    (hrun : step.run (init info) as = some s) (hlive : s.terminated = false) {e : Bool} {i : UInt64}
    {f : RenderedFrame} (hat : (s.pipe.get e).process = .converting i f) :
    (∃ s', bodyStep env s e = some s' ∧ s'.Contained e f) ↔
      f.ContextsFound env.sws ∧
        3 * f.frameResponse.camera.width.toNat * f.frameResponse.camera.height.toNat ≤
            f.frameResponse.frame.length ∧
        f.frameResponse.camera.width.toNat * f.frameResponse.camera.height.toNat ≤
            f.frameResponse.depth.length := by
  obtain ⟨hfresh, rfl⟩ := convertsFresh_run hrun e i f hat
  rw [← convertible_iff hrgb hgray hfresh]
  have hbody : bodyStep env s e = (Pipe.bodyStep env (s.pipe.get e)).map fun p =>
      { s with pipe := s.pipe.set e p } := if_neg (by simp [hlive])
  simp only [hbody, Pipe.bodyStep, hat]
  constructor
  · rintro ⟨s', hs', hcontained⟩
    have hconverted := hcontained.converted
    cases hprocess : env.processFrame f with
    | ok c => exact (ProcessEnv.convertible_of_processFrame hprocess).1
    | error failure =>
      rw [hprocess] at hs'
      cases failure with
      | outOfBounds => cases hs'
      | throws ex =>
        obtain rfl := Option.some.inj hs'
        rw [Sided.get_set_self] at hconverted
        cases hconverted
  · intro h
    have hpixels : 3 * f.sourceAvframeScene.context.width.toNat *
        f.sourceAvframeScene.context.height.toNat ≤ f.sourceAvframeScene.bytes.length := by
      have hscene := h.scene_le
      rw [(f.swsScaleBytes_of_fresh hfresh hrgb hgray).1] at hscene
      rwa [hfresh.context_eq]
    obtain ⟨c, hc⟩ := h.exists_processFrame hpixels
    have hflag := (ProcessEnv.convertible_of_processFrame hc).2
    rw [hc]
    refine ⟨_, rfl, ?_, ?_, fun _ s'' _ hlive hat => insertsOrDiscards hlive hat⟩
    · refine (terminated_setPipe hlive ?_).trans rfl
      rfl
    · rw [Sided.get_set_self, hflag]

/-- What the texts are made of, and what is in the converted pictures, matters to no thread. -/
def plainEnv (sws : FrameContext → FrameContext → Bool) : ProcessEnv where
  formatFloat := fun _ => []
  timestamp := []
  loadChar := fun slot _ => slot
  slot := fun _ => ⟨0, 0, 0, 0, [], 0⟩
  sws := sws
  linesize := firstPlaneLinesize
  scale := fun _ dest _ => List.replicate (dest.width.toNat * dest.height.toNat) 128

/-- `sws_getContext` as it answers to sizes: null when a dimension of source or destination is
zero. -/
def nonzeroSizes (source dest : FrameContext) : Bool :=
  source.width != 0 && source.height != 0 && dest.width != 0 && dest.height != 0

/-- The frame of a reply, as it is constructed at startup with the defaults of `main`. -/
def defaultFrame (frame : nesproto.RenderedFrame) : RenderedFrame :=
  RenderedFrame.new frame .rgb24 .gray8 defaultInitInfo defaultInitInfo 0

/-- The start of the server up to the first frame in the hands of a `process_frame_thread`, that of
the right eye. -/
def firstFrame (frame : nesproto.RenderedFrame) : List Action :=
  .connect :: iteration 0 frame ++ [.pipe false .pop]

/-- A reply of two by two pixels. -/
def smallReply : nesproto.RenderedFrame := twoByTwo (List.replicate 12 0) (List.replicate 4 0)

/-- The frame of a reply of two by two pixels is contained. -/
theorem frame_contained_smallReply :
    ∃ s s' : Server, step.run (init defaultInitInfo) (firstFrame smallReply) = some s ∧
      bodyStep (plainEnv nonzeroSizes) s false = some s' ∧
      s'.Contained false (defaultFrame smallReply) := by
  obtain ⟨s', hstep, hcontained⟩ := (@frame_contained_iff _ (plainEnv nonzeroSizes)
    (fun _ => rfl) (fun _ => rfl) defaultInitInfo (firstFrame smallReply) rfl rfl false _
    (defaultFrame smallReply) rfl).mpr ⟨⟨rfl, rfl⟩, by decide, by decide⟩
  exact ⟨_, s', rfl, hstep, hcontained⟩

/-- A reply without a camera announces a picture without pixels: there is no context for it, and the
conversion ends the process. -/
theorem cameralessReply_terminates :
    ∃ s : Server, step.run (init defaultInitInfo) (firstFrame {}) = some s ∧
      (bodyStep (plainEnv nonzeroSizes) s false).map (fun s' =>
          ((s'.pipe.get false).process, s'.terminated)) =
        some (.raised (.runtimeError "Failed to allocate sws_context."), true) :=
  ⟨_, rfl, by decide +kernel⟩

/-- A reply that announces two by two pixels and carries none ends the process without an
exception. -/
example : ∃ s : Server, step.run (init defaultInitInfo) (firstFrame (twoByTwo [] [])) = some s ∧
    (bodyStep (plainEnv nonzeroSizes) s false).isNone = true :=
  ⟨_, rfl, by decide +kernel⟩

end Server

end Ngp
