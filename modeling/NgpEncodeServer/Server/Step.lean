import NgpEncodeServer.Server.State
import NgpEncodeServer.Encode.Frames

/-!
# The steps of the server

`ClientTrans`, `ControlTrans` and `Server.Trans` list what a step of a thread and of the server can
do, with the guards spelled out.  `trans_of_step` is the only place where the step functions of the
server are unfolded; every invariant is a case analysis on these lists.
-/

namespace Ngp

open nesproto (Camera FrameRequest)

namespace Server

/-- The steps of a `socket_client_thread`. -/
inductive ClientTrans (s : Server) (c : Client) : ClientAction → Server → Client → Prop
  | exit (hat : c.point = .loopHead) (hret : c.ret < 0) :
      ClientTrans s c .exit s { c with point := .closed }
  | draw (hat : c.point = .loopHead) (hret : ¬c.ret < 0) :
      ClientTrans s c .draw { s with isLeft := s.isLeft ^^^ 1 }
        { c with point := .drawn (s.isLeft != 0) }
  | allocate {e : Bool} (hat : c.point = .drawn e) :
      ClientTrans s c .allocate
        { s with
          frameIndex := s.frameIndex.set e (s.frameIndex.get e + 1),
          allocated := s.allocated ++ [(e, s.frameIndex.get e)] }
        { c with point := .allocated e (s.frameIndex.get e) }
  | build {e : Bool} {i : UInt64} (hat : c.point = .allocated e i) :
      ClientTrans s c .build s
        { c with point := .sending ⟨i, s.cameramgr.camera.get e, e⟩ }
  | sendFails {req : FrameRequest} {ret : ℤ} (hat : c.point = .sending req) (hret : ret < 0) :
      ClientTrans s c (.send ret) s { ret := ret, point := .loopHead }
  | sendOk {req : FrameRequest} {ret : ℤ} (hat : c.point = .sending req) (hret : ¬ret < 0) :
      ClientTrans s c (.send ret) s { ret := ret, point := .receiving req }
  | parsed {req : FrameRequest} {frame : nesproto.RenderedFrame} (hat : c.point = .receiving req) :
      ClientTrans s c (.receive (.parsed frame))
        { s with received := s.received ++ [frame] }
        { c with point := .constructing s.received.length frame }
  | lost {req : FrameRequest} {o : ReceiveOutcome} (hat : c.point = .receiving req)
      (ho : o = .notParsed ∨ o = .runtimeError) :
      ClientTrans s c (.receive o) s { c with point := .loopHead }
  | badAlloc {req : FrameRequest} (hat : c.point = .receiving req) :
      ClientTrans s c (.receive .badAlloc) s { c with point := .raised .badAlloc }
  | constructScene {receipt : ℕ} {frame : nesproto.RenderedFrame}
      (hat : c.point = .constructing receipt frame) :
      ClientTrans s c .constructScene s
        { c with point := .constructingDepth receipt frame s.ctxmgrScene.getCodecInfo }
  | constructDepth {receipt : ℕ} {frame : nesproto.RenderedFrame} {infoScene : CodecInitInfo}
      (hat : c.point = .constructingDepth receipt frame infoScene) :
      ClientTrans s c .constructDepth s
        { c with point := .pushing (RenderedFrame.new frame .rgb24 .gray8 infoScene
            s.ctxmgrDepth.getCodecInfo receipt) }
  | push {frame : RenderedFrame} {p : Pipe} (hat : c.point = .pushing frame)
      (ht : Pipe.Trans (s.pipe.get frame.isLeft) (.push frame) p) :
      ClientTrans s c .push { s with pipe := s.pipe.set frame.isLeft p }
        { c with point := .loopHead }
  | pushTimeout {frame : RenderedFrame} (hat : c.point = .pushing frame)
      (hfull : (s.pipe.get frame.isLeft).frameQueue.queue.length = kFrameQueueMaxSize) :
      ClientTrans s c .pushTimeout s { c with point := .loopHead }

/-- The steps of the thread of the camera control server. -/
inductive ControlTrans (s : Server) : ControlAction → Server → Prop
  | changing {e : Bool} {camera : Camera} (hat : s.control = .idle)
      (hch : s.cameramgr.resolutionChanged e camera = true) :
      ControlTrans s (.setCamera e camera)
        { s with control := .changingScene e (CameraManager.evenResolution camera) }
  | keeping {e : Bool} {camera : Camera} (hat : s.control = .idle)
      (hch : s.cameramgr.resolutionChanged e camera = false) :
      ControlTrans s (.setCamera e camera) { s with control := .storing e camera }
  | changeScene {e : Bool} {camera : Camera} (hat : s.control = .changingScene e camera) :
      ControlTrans s (.changeScene .opens)
        { s with
          cameramgr := (s.cameramgr.changeScene e camera .opens).1,
          control := .changingDepth e camera }
  | changeSceneThrows {e : Bool} {camera : Camera} {o : InitOutcome} {ex : Exn}
      (hat : s.control = .changingScene e camera) :
      ControlTrans s (.changeScene o)
        { s with cameramgr := (s.cameramgr.changeScene e camera o).1, control := .raised ex }
  | changeDepth {e : Bool} {camera : Camera} (hat : s.control = .changingDepth e camera) :
      ControlTrans s (.changeDepth .opens)
        { s with
          cameramgr := (s.cameramgr.changeDepth e camera .opens).1,
          control := .storing e camera }
  | changeDepthThrows {e : Bool} {camera : Camera} {o : InitOutcome} {ex : Exn}
      (hat : s.control = .changingDepth e camera) :
      ControlTrans s (.changeDepth o)
        { s with cameramgr := (s.cameramgr.changeDepth e camera o).1, control := .raised ex }
  | store {e : Bool} {camera : Camera} (hat : s.control = .storing e camera) :
      ControlTrans s .store
        { s with cameramgr := s.cameramgr.storeCamera e camera, control := .idle }

/-- The steps of the server. -/
inductive Trans (s : Server) : Action → Server → Prop
  | connect : Trans s .connect { s with clients := s.clients ++ [Client.start] }
  | client {i : ℕ} {c c' : Client} {a : ClientAction} {s' : Server} (hc : s.clients[i]? = some c)
      (ht : ClientTrans s c a s' c') :
      Trans s (.client i a) { s' with clients := s.clients.set i c' }
  | control {a : ControlAction} {s' : Server} (ht : ControlTrans s a s') : Trans s (.control a) s'
  | pipe {e : Bool} {a : PipeAction} {p : Pipe} (hpush : a.pushed = [])
      (ht : Pipe.Trans (s.pipe.get e) a p) :
      Trans s (.pipe e a) { s with pipe := s.pipe.set e p }

/-- A client thread never touches the list of client threads. -/
theorem ClientTrans.clients_eq {s s' : Server} {c c' : Client} {a : ClientAction}
    (h : ClientTrans s c a s' c') : s'.clients = s.clients := by
  cases h <;> rfl

/-- Every step of a client thread is one of the listed steps. -/
theorem clientTrans_of_step {s s' : Server} {c c' : Client} {a : ClientAction}
    (h : s.clientStep c a = some (s', c')) : ClientTrans s c a s' c' := by
  unfold clientStep at h
  split at h
  · rename_i hat
    split at h
    · cases h
      exact .exit hat ‹_›
    · cases h
  · rename_i hat
    split at h
    · cases h
    · cases h
      exact .draw hat ‹_›
  · cases h
    exact .allocate ‹_›
  · cases h
    exact .build ‹_›
  · rename_i hat
    split at h
    · cases h
      exact .sendFails hat ‹_›
    · cases h
      exact .sendOk hat ‹_›
  · cases h
    exact .parsed ‹_›
  · cases h
    exact .lost ‹_› (Or.inl rfl)
  · cases h
    exact .lost ‹_› (Or.inr rfl)
  · cases h
    exact .badAlloc ‹_›
  · cases h
    exact .constructScene ‹_›
  · cases h
    exact .constructDepth ‹_›
  · rename_i hat
    split at h
    · rename_i hpush
      cases h
      exact .push hat (Pipe.trans_of_step hpush)
    · cases h
  · rename_i hat
    split at h
    · cases h
    · rename_i herr
      cases h
      exact .pushTimeout hat (FrameQueue.push_eq_error herr).2
  · cases h

/-- Every step of the control thread is one of the listed steps. -/
theorem controlTrans_of_step {s s' : Server} {a : ControlAction} (h : s.controlStep a = some s') :
    ControlTrans s a s' := by
  unfold controlStep at h
  split at h
  · rename_i hat
    split at h
    · exact Option.some.inj h ▸ .changing hat ‹_›
    · exact Option.some.inj h ▸ .keeping hat (Bool.eq_false_iff.mpr ‹_›)
  · rename_i outcome e camera hat
    dsimp only at h
    split at h
    · rename_i hok
      obtain rfl : outcome = .opens := CameraManager.changeScene_snd_eq_ok_iff.mp hok
      exact Option.some.inj h ▸ .changeScene hat
    · exact Option.some.inj h ▸ .changeSceneThrows hat
  · rename_i outcome e camera hat
    dsimp only at h
    split at h
    · rename_i hok
      obtain rfl : outcome = .opens := CameraManager.changeDepth_snd_eq_ok_iff.mp hok
      exact Option.some.inj h ▸ .changeDepth hat
    · exact Option.some.inj h ▸ .changeDepthThrows hat
  · exact Option.some.inj h ▸ .store ‹_›
  · cases h

/-- Every step of the server is one of the listed steps, and is taken by a running process. -/
theorem trans_of_step {s s' : Server} {a : Action} (h : step s a = some s') :
    Trans s a s' ∧ s.terminated = false := by
  unfold step at h
  split at h
  · cases h
  · rename_i hlive
    refine ⟨?_, Bool.eq_false_iff.mpr hlive⟩
    split at h
    · exact Option.some.inj h ▸ .connect
    · rename_i i a
      split at h
      · rename_i c hc
        split at h
        · rename_i s₁ c' hstep
          have ht := clientTrans_of_step hstep
          rw [ht.clients_eq] at h
          exact Option.some.inj h ▸ .client hc ht
        · cases h
      · cases h
    · exact .control (controlTrans_of_step h)
    · cases h
    · rename_i e a hnotpush
      split at h
      · rename_i p hp
        refine Option.some.inj h ▸ .pipe ?_ (Pipe.trans_of_step hp)
        cases a with
        | push frame => exact (hnotpush frame rfl).elim
        | _ => rfl
      · cases h

variable {s s' : Server} {a : Action}

/-- Only the control thread touches the camera manager and its codecs. -/
theorem Trans.cameramgr_eq (h : Trans s a s') (ha : ∀ b, a ≠ .control b) :
    s'.cameramgr = s.cameramgr ∧ s'.control = s.control := by
  cases h with
  | connect | pipe => exact ⟨rfl, rfl⟩
  | client hc ht => cases ht <;> exact ⟨rfl, rfl⟩
  | control ht => exact absurd rfl (ha _)

/-- The client threads after a step: one that was there and did not move, one that has just been
started, or the one that has moved. -/
theorem Trans.of_client (h : Trans s a s') {i : ℕ} {c' : Client} (hc' : s'.clients[i]? = some c') :
    (s.clients[i]? = some c' ∧ ∀ b, a ≠ .client i b) ∨ c' = Client.start ∨
      ∃ c b s₁, s.clients[i]? = some c ∧ a = .client i b ∧ ClientTrans s c b s₁ c' := by
  cases h with
  | connect =>
    rcases Nat.lt_or_ge i s.clients.length with hlt | hge
    · exact Or.inl ⟨(List.getElem?_append_left hlt).symm.trans hc', by simp⟩
    · have hnew : [Client.start][i - s.clients.length]? = some c' :=
        (List.getElem?_append_right hge).symm.trans hc'
      exact Or.inr (Or.inl (List.mem_singleton.mp (List.mem_of_getElem? hnew)))
  | @client j c c'' b s₁ hc ht =>
    by_cases hij : i = j
    · subst hij
      have hlt := (List.getElem?_eq_some_iff.mp hc).1
      obtain rfl : c'' = c' := Option.some.inj ((List.getElem?_set_self hlt).symm.trans hc')
      exact Or.inr (Or.inr ⟨c, b, s₁, hc, rfl, ht⟩)
    · refine Or.inl ⟨(List.getElem?_set_ne (Ne.symm hij)).symm.trans hc', fun b' heq => ?_⟩
      cases heq
      exact hij rfl
  | control ht => cases ht <;> exact Or.inl ⟨hc', by simp⟩
  | pipe => exact Or.inl ⟨hc', by simp⟩

/-! ### The pipelines inside the server -/

/-- For each eye a step of the server leaves the pipeline alone or is a step of it: a step of one
of its threads, or a push of a frame of that eye. -/
theorem Trans.pipe_get (h : Trans s a s') (e : Bool) :
    (s'.pipe.get e = s.pipe.get e ∧ ∀ b, a ≠ .pipe e b) ∨
      ∃ b, Pipe.Trans (s.pipe.get e) b (s'.pipe.get e) ∧
        (a = .pipe e b ∧ b.pushed = [] ∨
          ∃ frame i, b = .push frame ∧ frame.isLeft = e ∧ a = .client i .push) := by
  cases h with
  | connect => exact Or.inl ⟨rfl, by simp⟩
  | @client i _ _ _ _ hc ht =>
    cases ht with
    | @push frame p hat ht =>
      rcases eq_or_ne e frame.isLeft with rfl | hne
      · exact Or.inr ⟨_, by simpa using ht, Or.inr ⟨frame, i, rfl, rfl, rfl⟩⟩
      · exact Or.inl ⟨Sided.get_set_of_ne _ _ hne, by simp⟩
    | _ => exact Or.inl ⟨rfl, by simp⟩
  | control ht => cases ht <;> exact Or.inl ⟨rfl, by simp⟩
  | @pipe e' b p hpush ht =>
    rcases eq_or_ne e e' with rfl | hne
    · exact Or.inr ⟨b, by simpa using ht, Or.inl ⟨rfl, hpush⟩⟩
    · exact Or.inl ⟨Sided.get_set_of_ne _ _ hne, by simp [hne.symm]⟩

/-- What every step of a pipeline preserves holds of both pipelines in every run of the server. -/
theorem pipe_invariant {I : Pipe → Prop} (hinit : I Pipe.init)
    (hstep : ∀ p b p', I p → Pipe.Trans p b p' → I p') {info : CodecInitInfo} {as : List Action}
    (hrun : step.run (init info) as = some s) (e : Bool) : I (s.pipe.get e) := by
  refine Machine.run_invariant (I := fun s => I (s.pipe.get e)) ?_ (fun s a s' hI h => ?_) hrun
  · cases e <;> exact hinit
  · rcases (trans_of_step h).1.pipe_get e with ⟨heq, -⟩ | ⟨b, ht, -⟩
    · exact heq ▸ hI
    · exact hstep _ b _ hI ht

/-! ### Pieces of runs -/

/-- The steps of the client thread `i` in an iteration that receives the given reply. -/
def iteration (i : ℕ) (frame : nesproto.RenderedFrame) : List Action :=
  [.draw, .allocate, .build, .send 0, .receive (.parsed frame), .constructScene, .constructDepth,
    .push].map (.client i)

/-- The steps of `process_frame_thread` in an iteration that gets a frame into the map. -/
def processing (isLeft : Bool) : List Action :=
  [.pop, .convert true true, .insert].map (.pipe isLeft)

/-- The steps of `send_frame_thread` in an iteration that gets a frame and hands it over. -/
def sending (isLeft : Bool) : List Action :=
  [.getDelete, .sendScene 0, .sendDepth 0, .advance].map (.pipe isLeft)

end Server

end Ngp
