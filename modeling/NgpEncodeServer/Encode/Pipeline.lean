import NgpEncodeServer.Foundation.Machine
import Mathlib.Tactic.SplitIfs
import NgpEncodeServer.Video.FrameQueue
import NgpEncodeServer.Video.FrameMap
import NgpEncodeServer.Video.RenderedFrame

/-!
# The pipeline of one eye

`Pipe` is one eye's path from the client threads to its two encoders: `FrameQueue`, the
`process_frame_thread` that pops, converts and inserts, `FrameMap`, and the `send_frame_thread` that
asks for the indices in order.  Each thread is at a point of its loop; a step of the machine is one
critical section or one local action of one thread, and the action names the outcome of what the
thread cannot decide itself (a timeout, a return code of libavcodec, a conversion that fails).

A wait that has not returned is a thread at the point of the wait, without a step of its own.  The
timeout steps are enabled only while the predicate of the wait is false.

A run ends before an access beyond the pictures of a frame, and before a `to_avframe` that throws
for want of memory.
-/

namespace Ngp

/-- Where `process_frame_thread` is in its loop. -/
inductive ProcessPoint where
  /-- In `frame_queue->pop()`. -/
  | popping
  /-- Popped; the text is rendered and the frame converted next. -/
  | converting (frameIndex : UInt64) (frame : RenderedFrame)
  /-- In `encode_queue->insert(frame_index, std::move(frame))`. -/
  | inserting (frameIndex : UInt64) (frame : RenderedFrame)
  /-- Left by an exception that no handler of the thread catches. -/
  | raised (e : Exn)
  deriving DecidableEq, Repr

/-- Where `send_frame_thread` is in its loop. -/
inductive SendPoint where
  /-- In `encode_queue->get_delete(frame_index)`. -/
  | getting
  /-- Before `scene_codecctx->send_frame`. -/
  | sendingScene (frame : RenderedFrame)
  /-- Before `depth_codecctx->send_frame`. -/
  | sendingDepth (frame : RenderedFrame)
  /-- Before `frame_index++`. -/
  | advancing
  /-- Left by an exception that no handler of the thread catches. -/
  | raised (e : Exn)
  deriving DecidableEq, Repr

/-- One call of `send_frame` on an encoder. -/
structure Offer where
  /-- The number of the frame among the frames taken from the map, counted from one. -/
  take : ℕ
  /-- `frame_index` at the moment of the call. -/
  frameIndex : UInt64
  frame : RenderedFrame
  /-- The code that `avcodec_send_frame` returned. -/
  ret : ℤ
  deriving DecidableEq, Repr

/-- One eye's queue, map and threads.  The last five fields are history variables: they record what
happened and are never read by a step of the program. -/
structure Pipe where
  frameQueue : FrameQueue RenderedFrame
  process : ProcessPoint
  frameMap : FrameMap RenderedFrame
  /-- `frame_index` of `send_frame_thread`. -/
  frameIndex : UInt64
  send : SendPoint
  /-- The frames pushed, in order. -/
  pushed : List RenderedFrame
  /-- The frames `get_delete` returned, in order. -/
  takes : List RenderedFrame
  /-- The calls of `send_frame` on the scene encoder, in order. -/
  sceneOffers : List Offer
  /-- The calls of `send_frame` on the depth encoder, in order. -/
  depthOffers : List Offer
  /-- The number of insertions, since the last cleanup of the map, under an index that
  `send_frame_thread` had passed. -/
  late : ℕ

/-- What a thread of the pipeline does next. -/
inductive PipeAction where
  | push (frame : RenderedFrame)
  | pop
  | popTimeout
  | convert (swsScene swsDepth : Bool)
  | insert
  | insertTimeout
  | getDelete
  | getTimeout
  | sendScene (ret : ℤ)
  | sendDepth (ret : ℤ)
  | advance
  deriving DecidableEq, Repr

/-- The error codes of libav the threads test for. -/
def AVERROR_EINVAL : ℤ := -22
def AVERROR_ENOMEM : ℤ := -12
def AVERROR_EAGAIN : ℤ := -11
def AVERROR_EOF : ℤ := -541478725

/-- The `switch` on the result of `send_frame`. The error cases build a `std::runtime_error` without
throwing it, so that every case ends in `break`. -/
def sendSwitch (ret : ℤ) : Except Exn Unit :=
  if ret = AVERROR_EINVAL then
    let _unthrown := Exn.runtimeError "Codec not opened, it is a decoder, or requires flush."
    .ok ()
  else if ret = AVERROR_ENOMEM then
    let _unthrown := Exn.runtimeError "Failed to add packet to internal queue, or other."
    .ok ()
  else if ret = AVERROR_EOF then
    let _unthrown := Exn.runtimeError
      "The encoder has been flushed, and no new frames can be sent to it."
    .ok ()
  else if ret = AVERROR_EAGAIN then
    -- falls through to the default
    .ok ()
  else .ok ()

/-- No return code makes the `switch` throw. -/
theorem sendSwitch_eq_ok (ret : ℤ) : sendSwitch ret = .ok () := by
  unfold sendSwitch
  split_ifs <;> rfl

namespace Pipe

/-- The pipeline the server starts with. -/
def init : Pipe where
  frameQueue := .empty
  process := .popping
  frameMap := .empty
  frameIndex := 0
  send := .getting
  pushed := []
  takes := []
  sceneOffers := []
  depthOffers := []
  late := 0

/-- `send_frame_thread` is done with the index: it is smaller than `frame_index`, or it is
`frame_index` and its `get_delete` has returned or timed out. -/
def passed (p : Pipe) (index : UInt64) : Bool :=
  index < p.frameIndex || (index == p.frameIndex && p.send != .getting)

/-- One step of one thread. -/
def step : Machine Pipe PipeAction := fun p a =>
  match a with
  | .push frame =>
    match p.frameQueue.push frame with
    | .ok q => some { p with frameQueue := q, pushed := p.pushed ++ [frame] }
    | .error _ => none
  | .pop =>
    match p.process, p.frameQueue.pop with
    | .popping, .ok (frame, q) =>
      some { p with frameQueue := q, process := .converting frame.index frame }
    | _, _ => none
  | .popTimeout =>
    match p.process, p.frameQueue.pop with
    | .popping, .error _ => some p
    | _, _ => none
  | .convert swsScene swsDepth =>
    match p.process with
    | .converting frameIndex frame =>
      match frame.convertFrame swsScene swsDepth with
      | .ok frame => some { p with process := .inserting frameIndex frame }
      -- the handler of the loop catches `LockTimeout` only
      | .error e => some { p with process := .raised e }
    | _ => none
  | .insert =>
    match p.process with
    | .inserting frameIndex frame =>
      match p.frameMap.insert frameIndex frame with
      | .ok m =>
        some { p with
          frameMap := m, process := .popping,
          late := if p.passed frameIndex then p.late + 1 else p.late }
      | .error _ => none
    | _ => none
  | .insertTimeout =>
    match p.process with
    | .inserting frameIndex frame =>
      match p.frameMap.insert frameIndex frame with
      | .ok _ => none
      -- the frame is still owned by the iteration and destroyed with it
      | .error _ => some { p with process := .popping }
    | _ => none
  | .getDelete =>
    match p.send, p.frameMap.getDelete p.frameIndex with
    | .getting, .ok (frame, m) =>
      some { p with
        frameMap := m, send := .sendingScene frame, takes := p.takes ++ [frame],
        late := if p.frameIndex % kFrameMapDropFramesInterval = 0 then 0 else p.late }
    | _, _ => none
  | .getTimeout =>
    match p.send, p.frameMap.getDelete p.frameIndex with
    | .getting, .error _ => some { p with send := .advancing }
    | _, _ => none
  | .sendScene ret =>
    match p.send with
    | .sendingScene frame =>
      some { p with
        sceneOffers := p.sceneOffers ++ [⟨p.takes.length, p.frameIndex, frame, ret⟩],
        send := match sendSwitch ret with
          | .ok () => .sendingDepth frame
          | .error e => .raised e }
    | _ => none
  | .sendDepth ret =>
    match p.send with
    | .sendingDepth frame =>
      some { p with
        depthOffers := p.depthOffers ++ [⟨p.takes.length, p.frameIndex, frame, ret⟩],
        send := match sendSwitch ret with
          | .ok () => .advancing
          | .error e => .raised e }
    | _ => none
  | .advance =>
    match p.send with
    | .advancing => some { p with frameIndex := p.frameIndex + 1, send := .getting }
    | _ => none

/-! ### What a step does

`Trans p a p'` lists the steps with their guards spelled out on the contents of the queue and the
map; `trans_of_step` is the only place where `step` is unfolded. -/

/-- The steps of the pipeline. -/
inductive Trans (p : Pipe) : PipeAction → Pipe → Prop
  | push {frame : RenderedFrame} {q : FrameQueue RenderedFrame}
      (hroom : p.frameQueue.queue.length < kFrameQueueMaxSize)
      (hq : q.queue = p.frameQueue.queue ++ [frame]) :
      Trans p (.push frame) { p with frameQueue := q, pushed := p.pushed ++ [frame] }
  | pop {frame : RenderedFrame} {q : FrameQueue RenderedFrame} (hat : p.process = .popping)
      (hq : p.frameQueue.queue = frame :: q.queue) :
      Trans p .pop { p with frameQueue := q, process := .converting frame.index frame }
  | popTimeout (hat : p.process = .popping) (hq : p.frameQueue.queue = []) : Trans p .popTimeout p
  | convert {i : UInt64} {frame : RenderedFrame} {swsScene swsDepth : Bool}
      (hat : p.process = .converting i frame) :
      Trans p (.convert swsScene swsDepth)
        { p with process := .inserting i { frame with converted := true } }
  | convertThrows {i : UInt64} {frame : RenderedFrame} {swsScene swsDepth : Bool} {e : Exn}
      (hat : p.process = .converting i frame)
      (hthrow : frame.convertFrame swsScene swsDepth = .error e) :
      Trans p (.convert swsScene swsDepth) { p with process := .raised e }
  | insert {i : UInt64} {frame : RenderedFrame} {m : FrameMap RenderedFrame}
      (hat : p.process = .inserting i frame) (hroom : p.frameMap.map.size < kFrameMapMaxSize)
      (hm : m.map = p.frameMap.map.insert i frame) :
      Trans p .insert { p with
        frameMap := m, process := .popping, late := if p.passed i then p.late + 1 else p.late }
  | insertTimeout {i : UInt64} {frame : RenderedFrame} (hat : p.process = .inserting i frame)
      (hfull : p.frameMap.map.size = kFrameMapMaxSize) :
      Trans p .insertTimeout { p with process := .popping }
  | getDelete {frame : RenderedFrame} {m : FrameMap RenderedFrame} (hat : p.send = .getting)
      (hmem : (p.frameIndex, frame) ∈ p.frameMap.map.entries)
      (hm : m.map = FrameMap.remaining p.frameMap.map p.frameIndex) :
      Trans p .getDelete { p with
        frameMap := m, send := .sendingScene frame, takes := p.takes ++ [frame],
        late := if p.frameIndex % kFrameMapDropFramesInterval = 0 then 0 else p.late }
  | getTimeout (hat : p.send = .getting) (habs : p.frameIndex ∉ p.frameMap.map.keys) :
      Trans p .getTimeout { p with send := .advancing }
  | sendScene {frame : RenderedFrame} {ret : ℤ} (hat : p.send = .sendingScene frame) :
      Trans p (.sendScene ret) { p with
        sceneOffers := p.sceneOffers ++ [⟨p.takes.length, p.frameIndex, frame, ret⟩],
        send := .sendingDepth frame }
  | sendDepth {frame : RenderedFrame} {ret : ℤ} (hat : p.send = .sendingDepth frame) :
      Trans p (.sendDepth ret) { p with
        depthOffers := p.depthOffers ++ [⟨p.takes.length, p.frameIndex, frame, ret⟩],
        send := .advancing }
  | advance (hat : p.send = .advancing) :
      Trans p .advance { p with frameIndex := p.frameIndex + 1, send := .getting }

/-- Every step of the machine is one of the listed steps. -/
theorem trans_of_step {p p' : Pipe} {a : PipeAction} (h : step p a = some p') : Trans p a p' := by
  cases a with
  | push frame =>
    simp only [step] at h
    split at h
    · rename_i hpush
      obtain ⟨hroom, hq⟩ := FrameQueue.push_eq_ok hpush
      exact Option.some.inj h ▸ .push hroom hq
    · cases h
  | pop =>
    simp only [step] at h
    split at h
    · rename_i hat hpop
      exact Option.some.inj h ▸ .pop hat (FrameQueue.pop_eq_ok hpop)
    · cases h
  | popTimeout =>
    simp only [step] at h
    split at h
    · rename_i hat hpop
      exact Option.some.inj h ▸ .popTimeout hat (FrameQueue.pop_eq_error hpop).2
    · cases h
  | convert swsScene swsDepth =>
    simp only [step] at h
    split at h
    · rename_i hat
      split at h
      · rename_i hok
        have hframe := RenderedFrame.convertFrame_eq_ok hok
        subst hframe
        exact Option.some.inj h ▸ .convert hat
      · exact Option.some.inj h ▸ .convertThrows hat ‹_›
    · cases h
  | insert =>
    simp only [step] at h
    split at h
    · rename_i hat
      split at h
      · rename_i hok
        obtain ⟨hroom, hm⟩ := FrameMap.insert_eq_ok hok
        exact Option.some.inj h ▸ .insert hat hroom hm
      · cases h
    · cases h
  | insertTimeout =>
    simp only [step] at h
    split at h
    · rename_i hat
      split at h
      · cases h
      · rename_i herr
        exact Option.some.inj h ▸ .insertTimeout hat (FrameMap.insert_eq_error herr).2
    · cases h
  | getDelete =>
    simp only [step] at h
    split at h
    · rename_i hat hok
      obtain ⟨hmem, hm⟩ := FrameMap.getDelete_eq_ok hok
      exact Option.some.inj h ▸ .getDelete hat hmem hm
    · cases h
  | getTimeout =>
    simp only [step] at h
    split at h
    · rename_i hat herr
      exact Option.some.inj h ▸ .getTimeout hat (FrameMap.getDelete_eq_error herr).2
    · cases h
  | sendScene ret =>
    simp only [step, sendSwitch_eq_ok] at h
    split at h
    · exact Option.some.inj h ▸ .sendScene ‹_›
    · cases h
  | sendDepth ret =>
    simp only [step, sendSwitch_eq_ok] at h
    split at h
    · exact Option.some.inj h ▸ .sendDepth ‹_›
    · cases h
  | advance =>
    simp only [step] at h
    split at h
    · exact Option.some.inj h ▸ .advance ‹_›
    · cases h

end Pipe

end Ngp
