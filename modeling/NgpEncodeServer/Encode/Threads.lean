import NgpEncodeServer.Foundation.Calls
import NgpEncodeServer.Foundation.Progress
import NgpEncodeServer.Encode.Pipeline
import NgpEncodeServer.Video.Wakeups

/-!
# The threads of one eye with their mutexes and condition variables

`Pipe` takes every call of `FrameQueue` and `FrameMap` as one step.  `ThreadedPipe` is the same eye
with these calls as they are: any number of client threads that push, `process_frame_thread` and
`send_frame_thread`, each of them somewhere inside its call, acquiring a mutex, waiting on a
condition variable, being notified, or about to return.  What a loop does next is decided by the
call when it returns, not by the state of the queue or the map at that moment.

`ThreadedPipe.refines` is the justification of `Pipe`.  A call takes effect at its last test of the
predicate or in its critical section, and between that and its return the thread is seen, by
`processView` and `sendView`, where the call is going to leave it.
-/

namespace Ngp

/-- One eye's queue, map and threads.  Thread 0 of the queue is `process_frame_thread`, the others
are client threads; thread 0 of the map is `process_frame_thread` again and thread 1 is
`send_frame_thread`.  The last two fields are history variables. -/
structure ThreadedPipe where
  queue : FrameQueue.Threads RenderedFrame
  process : ProcessPoint
  map : FrameMap.Threads RenderedFrame
  /-- `frame_index` of `send_frame_thread`. -/
  frameIndex : UInt64
  send : SendPoint
  /-- The calls of `send_frame` on the scene encoder, in order. -/
  sceneOffers : List Offer
  /-- The calls of `send_frame` on the depth encoder, in order. -/
  depthOffers : List Offer

/-- What a thread does next: a step of its call on the queue or the map, or of its own code. -/
inductive ThreadAction where
  | queue (a : Monitor.Action (QueueOp RenderedFrame))
  | map (a : Monitor.Action (MapOp RenderedFrame))
  | convert (swsScene swsDepth : Bool)
  | sendScene (ret : ℤ)
  | sendDepth (ret : ℤ)
  | advance
  deriving DecidableEq, Repr

namespace ThreadedPipe

/-- An eye with `n` client threads. -/
def init (n : ℕ) : ThreadedPipe where
  queue := Monitor.init [] (n + 1)
  process := .popping
  map := Monitor.init .empty 2
  frameIndex := 0
  send := .getting
  sceneOffers := []
  depthOffers := []

/-- The calls on the queue that the code makes. -/
def queueCall (s : ThreadedPipe) : ℕ → QueueOp RenderedFrame → Bool
  | 0, .pop => s.process = .popping
  | _ + 1, .push _ => true
  | _, _ => false

/-- The calls on the map that the code makes. -/
def mapCall (s : ThreadedPipe) : ℕ → MapOp RenderedFrame → Bool
  | 0, .insert index frame => s.process = .inserting index frame
  | 1, .getDelete index => s.send = .getting && index = s.frameIndex
  | _, _ => false

/-- Where `process_frame_thread` goes on when `pop` has come to this result. -/
def popResult : List (FrameQueue.Entry RenderedFrame) → ProcessPoint
  | [⟨_, some frame, true⟩] => .converting frame.index frame
  -- the handler of the loop continues with the next iteration
  | _ => .popping

/-- Where `send_frame_thread` goes on when `get_delete` has come to this result. -/
def getResult : List (FrameMap.Entry RenderedFrame) → SendPoint
  | [⟨_, some frame, true⟩] => .sendingScene frame
  -- the handler is followed by `frame_index++`
  | _ => .advancing

/-- One step of one thread. -/
def step : Machine ThreadedPipe ThreadAction := fun s a =>
  match a with
  | .queue a =>
    if a.callsOnly s.queueCall then
      (frameQueueMonitor.step s.queue a).map fun queue =>
        { s with
          queue := queue,
          process := if a = .unlock 0 then popResult (s.queue.entryAt 0) else s.process }
    else none
  | .map a =>
    if a.callsOnly s.mapCall then
      (frameMapMonitor.step s.map a).map fun map =>
        { s with
          map := map,
          -- after `insert` the loop starts again, whether it has thrown or not
          process := if a = .unlock 0 then .popping else s.process,
          send := if a = .unlock 1 then getResult (s.map.entryAt 1) else s.send }
    else none
  | .convert swsScene swsDepth =>
    match s.process with
    | .converting frameIndex frame =>
      match frame.convertFrame swsScene swsDepth with
      | .ok frame => some { s with process := .inserting frameIndex frame }
      | .error e => some { s with process := .raised e }
    | _ => none
  | .sendScene ret =>
    match s.send with
    | .sendingScene frame =>
      some { s with
        sceneOffers :=
          s.sceneOffers ++ [⟨(FrameMap.returnedFrames s.map.log).length, s.frameIndex, frame, ret⟩],
        send := match sendSwitch ret with
          | .ok () => .sendingDepth frame
          | .error e => .raised e }
    | _ => none
  | .sendDepth ret =>
    match s.send with
    | .sendingDepth frame =>
      some { s with
        depthOffers :=
          s.depthOffers ++ [⟨(FrameMap.returnedFrames s.map.log).length, s.frameIndex, frame, ret⟩],
        send := match sendSwitch ret with
          | .ok () => .advancing
          | .error e => .raised e }
    | _ => none
  | .advance =>
    match s.send with
    | .advancing => some { s with frameIndex := s.frameIndex + 1, send := .getting }
    | _ => none

/-- Where `process_frame_thread` is seen: where it goes on, once the result of its call is fixed. -/
def processView (s : ThreadedPipe) : ProcessPoint :=
  match s.queue.entryAt 0, s.map.entryAt 0 with
  | [], [] => s.process
  | [], _ :: _ => .popping
  | es, _ => popResult es

/-- Where `send_frame_thread` is seen. -/
def sendView (s : ThreadedPipe) : SendPoint :=
  match s.map.entryAt 1 with
  | [] => s.send
  | es => getResult es

/-- What is seen of an eye's threads is the state of the pipeline. -/
structure View (s : ThreadedPipe) (p : Pipe) : Prop where
  frameQueue : p.frameQueue.queue = s.queue.shared
  frameMap : p.frameMap.map = s.map.shared
  process : p.process = s.processView
  send : p.send = s.sendView
  frameIndex : p.frameIndex = s.frameIndex
  pushed : p.pushed = FrameQueue.pushed s.queue.log
  takes : p.takes = (FrameMap.returnedFrames s.map.log).map Prod.snd
  sceneOffers : p.sceneOffers = s.sceneOffers
  depthOffers : p.depthOffers = s.depthOffers

/-! ### The steps -/

/-- The steps of the threads. -/
inductive Trans (s : ThreadedPipe) : ThreadAction → ThreadedPipe → Prop
  | queue {a : Monitor.Action (QueueOp RenderedFrame)}
      {queue : FrameQueue.Threads RenderedFrame}
      (hcalls : a.callsOnly s.queueCall = true) (h : frameQueueMonitor.Trans s.queue a queue) :
      Trans s (.queue a) { s with
        queue := queue,
        process := if a = .unlock 0 then popResult (s.queue.entryAt 0) else s.process }
  | map {a : Monitor.Action (MapOp RenderedFrame)}
      {map : FrameMap.Threads RenderedFrame}
      (hcalls : a.callsOnly s.mapCall = true) (h : frameMapMonitor.Trans s.map a map) :
      Trans s (.map a) { s with
        map := map,
        process := if a = .unlock 0 then .popping else s.process,
        send := if a = .unlock 1 then getResult (s.map.entryAt 1) else s.send }
  | convert {i : UInt64} {frame frame' : RenderedFrame} {swsScene swsDepth : Bool}
      (hat : s.process = .converting i frame)
      (hok : frame.convertFrame swsScene swsDepth = .ok frame') :
      Trans s (.convert swsScene swsDepth) { s with process := .inserting i frame' }
  | convertThrows {i : UInt64} {frame : RenderedFrame} {swsScene swsDepth : Bool} {e : Exn}
      (hat : s.process = .converting i frame)
      (hthrow : frame.convertFrame swsScene swsDepth = .error e) :
      Trans s (.convert swsScene swsDepth) { s with process := .raised e }
  | sendScene {frame : RenderedFrame} {ret : ℤ} (hat : s.send = .sendingScene frame) :
      Trans s (.sendScene ret) { s with
        sceneOffers :=
          s.sceneOffers ++ [⟨(FrameMap.returnedFrames s.map.log).length, s.frameIndex, frame, ret⟩],
        send := .sendingDepth frame }
  | sendDepth {frame : RenderedFrame} {ret : ℤ} (hat : s.send = .sendingDepth frame) :
      Trans s (.sendDepth ret) { s with
        depthOffers :=
          s.depthOffers ++ [⟨(FrameMap.returnedFrames s.map.log).length, s.frameIndex, frame, ret⟩],
        send := .advancing }
  | advance (hat : s.send = .advancing) :
      Trans s .advance { s with frameIndex := s.frameIndex + 1, send := .getting }

/-- Every step of the machine is one of the listed steps. -/
theorem trans_of_step {s s' : ThreadedPipe} {a : ThreadAction} (h : step s a = some s') :
    Trans s a s' := by
  cases a with
  | queue a =>
    simp only [step] at h
    split at h
    · obtain ⟨queue, hqueue, rfl⟩ := Option.map_eq_some_iff.mp h
      exact .queue ‹_› (Monitor.trans_of_step _ hqueue)
    · cases h
  | map a =>
    simp only [step] at h
    split at h
    · obtain ⟨map, hmap, rfl⟩ := Option.map_eq_some_iff.mp h
      exact .map ‹_› (Monitor.trans_of_step _ hmap)
    · cases h
  | convert swsScene swsDepth =>
    simp only [step] at h
    split at h
    · rename_i hat
      split at h
      · exact Option.some.inj h ▸ .convert hat ‹_›
      · exact Option.some.inj h ▸ .convertThrows hat ‹_›
    · cases h
  | sendScene ret =>
    simp only [step, sendSwitch_eq_ok] at h
    split at h
    · exact Option.some.inj h ▸ .sendScene ‹_›
    · cases h
  | sendDepth ret =>
    simp only [step, sendSwitch_eq_ok] at h
    split at h
    · exact Option.some.inj h ▸ .sendDepth ‹_›
    · cases h
  | advance =>
    simp only [step] at h
    split at h
    · exact Option.some.inj h ▸ .advance ‹_›
    · cases h

/-! ### The threads are in the calls their loops make -/

/-- What holds in every state reached: the calls in progress are those that the loops make where
they are. -/
structure Wired (s : ThreadedPipe) : Prop where
  queueInv : frameQueueMonitor.Inv [] s.queue
  mapInv : frameMapMonitor.Inv .empty s.map
  queueCalls : ∀ i op, s.queue.opAt i = some op → s.queueCall i op = true
  mapCalls : ∀ i op, s.map.opAt i = some op → s.mapCall i op = true

section Calls

variable {s s' : ThreadedPipe}

/-- `process_frame_thread` is in a call of `pop`, and at its place in the loop. -/
theorem queueCall_zero_iff {op : QueueOp RenderedFrame} :
    s.queueCall 0 op = true ↔ op = .pop ∧ s.process = .popping := by
  cases op <;> simp [queueCall]

/-- The client threads only push. -/
theorem queueCall_succ_iff {i : ℕ} {op : QueueOp RenderedFrame} :
    s.queueCall (i + 1) op = true ↔ ∃ frame, op = .push frame := by
  cases op <;> simp [queueCall]

/-- `process_frame_thread` is in a call of `insert`, and at its place in the loop. -/
theorem mapCall_zero_iff {op : MapOp RenderedFrame} :
    s.mapCall 0 op = true ↔
      ∃ index frame, op = .insert index frame ∧ s.process = .inserting index frame := by
  cases op <;> simp [mapCall]

/-- `send_frame_thread` is in a call of `get_delete`, and at its place in the loop. -/
theorem mapCall_one_iff {op : MapOp RenderedFrame} :
    s.mapCall 1 op = true ↔ op = .getDelete s.frameIndex ∧ s.send = .getting := by
  cases op <;> simp [mapCall, and_comm]

/-- Nobody else uses the map. -/
theorem mapCall_add_two {i : ℕ} {op : MapOp RenderedFrame} : s.mapCall (i + 2) op = false := by
  cases op <;> rfl

/-- Only `process_frame_thread` inserts. -/
theorem mapCall_insert {i : ℕ} {index : UInt64} {frame : RenderedFrame}
    (h : s.mapCall i (.insert index frame) = true) : i = 0 := by
  match i with
  | 0 => rfl
  | _ + 1 => simp [mapCall] at h

/-- Only `send_frame_thread` gets. -/
theorem mapCall_getDelete {i : ℕ} {index : UInt64} (h : s.mapCall i (.getDelete index) = true) :
    i = 1 := by
  match i with
  | 0 => simp [mapCall] at h
  | 1 => rfl
  | _ + 2 => simp [mapCall] at h

/-- Only the client threads push. -/
theorem queueCall_push {i : ℕ} {frame : RenderedFrame} (h : s.queueCall i (.push frame) = true) :
    i ≠ 0 := by
  rintro rfl
  simp [queueCall] at h

/-- Only `process_frame_thread` pops. -/
theorem queueCall_pop {i : ℕ} (h : s.queueCall i .pop = true) : i = 0 := by
  match i with
  | 0 => rfl
  | _ + 1 => simp [queueCall] at h

/-- What the code may call on the queue depends on where `process_frame_thread` is. -/
theorem queueCall_mono {i : ℕ} {op : QueueOp RenderedFrame} (h : s.queueCall i op = true)
    (hprocess : i = 0 → s.process = .popping → s'.process = .popping) :
    s'.queueCall i op = true := by
  cases i with
  | zero =>
    obtain ⟨rfl, hat⟩ := queueCall_zero_iff.mp h
    exact queueCall_zero_iff.mpr ⟨rfl, hprocess rfl hat⟩
  | succ i => exact queueCall_succ_iff.mpr (queueCall_succ_iff.mp h)

/-- What the code may call on the map depends on where its two threads are. -/
theorem mapCall_mono {i : ℕ} {op : MapOp RenderedFrame} (h : s.mapCall i op = true)
    (hprocess : i = 0 → ∀ index frame, s.process = .inserting index frame →
      s'.process = .inserting index frame)
    (hsend : i = 1 → s.send = .getting → s'.send = .getting ∧ s'.frameIndex = s.frameIndex) :
    s'.mapCall i op = true := by
  match i with
  | 0 =>
    obtain ⟨index, frame, rfl, hat⟩ := mapCall_zero_iff.mp h
    exact mapCall_zero_iff.mpr ⟨index, frame, rfl, hprocess rfl index frame hat⟩
  | 1 =>
    obtain ⟨rfl, hat⟩ := mapCall_one_iff.mp h
    obtain ⟨hsend', hindex⟩ := hsend rfl hat
    exact mapCall_one_iff.mpr ⟨by rw [hindex], hsend'⟩
  | i + 2 => simp [mapCall_add_two] at h

end Calls

namespace Wired

variable {s s' : ThreadedPipe} {a : ThreadAction}

/-- While `process_frame_thread` is not in front of `pop`, it is not in a call of it. -/
theorem queue_opAt_zero (h : s.Wired) (hat : s.process ≠ .popping) : s.queue.opAt 0 = none := by
  by_contra hop
  obtain ⟨op, hop⟩ := Option.ne_none_iff_exists'.mp hop
  exact hat (queueCall_zero_iff.mp (h.queueCalls 0 op hop)).2

/-- While `process_frame_thread` is not in front of `insert`, it is not in a call of it. -/
theorem map_opAt_zero (h : s.Wired)
    (hat : ∀ index frame, s.process ≠ .inserting index frame) : s.map.opAt 0 = none := by
  by_contra hop
  obtain ⟨op, hop⟩ := Option.ne_none_iff_exists'.mp hop
  obtain ⟨index, frame, -, hinserting⟩ := mapCall_zero_iff.mp (h.mapCalls 0 op hop)
  exact hat index frame hinserting

/-- While `send_frame_thread` is not in front of `get_delete`, it is not in a call of it. -/
theorem map_opAt_one (h : s.Wired) (hat : s.send ≠ .getting) : s.map.opAt 1 = none := by
  by_contra hop
  obtain ⟨op, hop⟩ := Option.ne_none_iff_exists'.mp hop
  exact hat (mapCall_one_iff.mp (h.mapCalls 1 op hop)).2

/-- At the start all threads are outside their calls. -/
theorem init (n : ℕ) : (ThreadedPipe.init n).Wired where
  queueInv := Monitor.inv_init [] _
  mapInv := Monitor.inv_init AssocMap.empty _
  queueCalls i op hop := by
    rw [ThreadedPipe.init, Monitor.opAt_init] at hop
    cases hop
  mapCalls i op hop := by
    rw [ThreadedPipe.init, Monitor.opAt_init] at hop
    cases hop

/-- A step of `process_frame_thread` outside its calls. -/
theorem of_process (h : s.Wired) {point : ProcessPoint} (hpop : s.process ≠ .popping)
    (hins : ∀ index frame, s.process ≠ .inserting index frame) :
    ({ s with process := point } : ThreadedPipe).Wired where
  queueInv := h.queueInv
  mapInv := h.mapInv
  queueCalls i op hop := queueCall_mono (h.queueCalls i op hop) fun _ hat => absurd hat hpop
  mapCalls i op hop :=
    mapCall_mono (h.mapCalls i op hop) (fun _ index frame hat => absurd hat (hins index frame))
      fun _ hat => ⟨hat, rfl⟩

/-- A step of `send_frame_thread` outside its calls. -/
theorem of_send (h : s.Wired) {point : SendPoint} {index : UInt64} {scene depth : List Offer}
    (hget : s.send ≠ .getting) :
    ({ s with
      send := point, frameIndex := index, sceneOffers := scene, depthOffers := depth } :
      ThreadedPipe).Wired where
  queueInv := h.queueInv
  mapInv := h.mapInv
  queueCalls i op hop := queueCall_mono (h.queueCalls i op hop) fun _ hat => hat
  mapCalls i op hop :=
    mapCall_mono (h.mapCalls i op hop) (fun _ _ _ hat => hat) fun _ hat => absurd hat hget

/-- Every step keeps the threads in the calls their loops make. -/
theorem trans (h : s.Wired) (ht : Trans s a s') : s'.Wired := by
  cases ht with
  | @queue a queue hcalls ht =>
    have heffect := h.queueInv.effect ht
    have hold := heffect.calls h.queueCalls (fun i op ha => by rw [ha] at hcalls; exact hcalls)
    refine ⟨h.queueInv.step ht, h.mapInv, fun i op hop => ?_, fun i op hop => ?_⟩
    · refine queueCall_mono (hold i op hop) (fun hi hat => ?_)
      have hne : a ≠ .unlock 0 := by
        rintro rfl
        obtain ⟨-, -, -, hnone⟩ := heffect.of_unlock
        rw [hi, hnone] at hop
        cases hop
      exact (if_neg hne).trans hat
    · refine mapCall_mono (h.mapCalls i op hop) (fun _ index frame hat => ?_)
        fun _ hat => ⟨hat, rfl⟩
      have hne : a ≠ .unlock 0 := by
        rintro rfl
        obtain ⟨e, hop', -, -⟩ := heffect.of_unlock
        rw [h.queue_opAt_zero (by simp [hat])] at hop'
        cases hop'
      exact (if_neg hne).trans hat
  | @map a map hcalls ht =>
    have heffect := h.mapInv.effect ht
    have hold := heffect.calls h.mapCalls (fun i op ha => by rw [ha] at hcalls; exact hcalls)
    refine ⟨h.queueInv, h.mapInv.step ht, fun i op hop => ?_, fun i op hop => ?_⟩
    · refine queueCall_mono (h.queueCalls i op hop) (fun _ hat => ?_)
      by_cases ha : a = .unlock 0
      · exact if_pos ha
      · exact (if_neg ha).trans hat
    · have hne : a ≠ .unlock i := by
        rintro rfl
        obtain ⟨-, -, -, hnone⟩ := heffect.of_unlock
        rw [hnone] at hop
        cases hop
      refine mapCall_mono (hold i op hop) (fun hi index frame hat => ?_) (fun hi hat => ⟨?_, rfl⟩)
      · exact (if_neg (hi ▸ hne)).trans hat
      · exact (if_neg (hi ▸ hne)).trans hat
  | convert hat | convertThrows hat => exact h.of_process (by simp [hat]) (by simp [hat])
  | sendScene hat | sendDepth hat | advance hat => exact h.of_send (by simp [hat])

end Wired

/-! ### What is seen -/

section Views

variable {s s' : ThreadedPipe}

/-- A thread whose calls have no result is seen where it is. -/
theorem processView_of_nil (hqueue : s.queue.entryAt 0 = []) (hmap : s.map.entryAt 0 = []) :
    s.processView = s.process := by
  simp only [processView, hqueue, hmap]

/-- The result of `pop` decides where the thread is seen. -/
theorem processView_of_pop {e : FrameQueue.Entry RenderedFrame}
    (hqueue : s.queue.entryAt 0 = [e]) : s.processView = popResult [e] := by
  simp only [processView, hqueue]

/-- After `insert` the thread is seen at the start of its loop. -/
theorem processView_of_insert {e : FrameMap.Entry RenderedFrame}
    (hqueue : s.queue.entryAt 0 = []) (hmap : s.map.entryAt 0 = [e]) :
    s.processView = .popping := by
  simp only [processView, hqueue, hmap]

/-- A step that does not concern the thread does not change where it is seen. -/
theorem processView_congr (hqueue : s'.queue.entryAt 0 = s.queue.entryAt 0)
    (hmap : s'.map.entryAt 0 = s.map.entryAt 0) (hprocess : s'.process = s.process) :
    s'.processView = s.processView := by
  simp only [processView, hqueue, hmap, hprocess]

/-- A thread whose call has no result is seen where it is. -/
theorem sendView_of_nil (hmap : s.map.entryAt 1 = []) : s.sendView = s.send := by
  simp only [sendView, hmap]

/-- The result of `get_delete` decides where the thread is seen. -/
theorem sendView_of_get {e : FrameMap.Entry RenderedFrame} (hmap : s.map.entryAt 1 = [e]) :
    s.sendView = getResult [e] := by
  simp only [sendView, hmap]

/-- A step that does not concern the thread does not change where it is seen. -/
theorem sendView_congr (hmap : s'.map.entryAt 1 = s.map.entryAt 1) (hsend : s'.send = s.send) :
    s'.sendView = s.sendView := by
  simp only [sendView, hmap, hsend]

end Views

/-- What the last call on the queue has pushed. -/
theorem pushed_concat (log : List (FrameQueue.Entry RenderedFrame))
    (e : FrameQueue.Entry RenderedFrame) :
    FrameQueue.pushed (log ++ [e]) = FrameQueue.pushed log ++ (FrameQueue.pushedBy e).toList := by
  unfold FrameQueue.pushed
  rw [List.filterMap_append]
  cases he : FrameQueue.pushedBy e <;> simp [he]

/-- What the last call on the map has returned. -/
theorem returnedFrames_concat (log : List (FrameMap.Entry RenderedFrame))
    (e : FrameMap.Entry RenderedFrame) :
    FrameMap.returnedFrames (log ++ [e]) =
      FrameMap.returnedFrames log ++ (FrameMap.returnedBy e).toList := by
  unfold FrameMap.returnedFrames
  rw [List.filterMap_append]
  cases he : FrameMap.returnedBy e <;> simp [he]

/-- A call on the queue whose result is fixed is one of the bounded queue. -/
theorem callStep_of_settles_queue {q : FrameQueue RenderedFrame} {queue : List RenderedFrame}
    {e : FrameQueue.Entry RenderedFrame} (h : frameQueueMonitor.Settles q.queue e queue) :
    ∃ q' : FrameQueue RenderedFrame, q'.queue = queue ∧ FrameQueue.CallStep q e q' := by
  cases h with
  | acts hready => exact FrameQueue.callStep_of_ready hready
  | givesUp hready => exact ⟨q, rfl, FrameQueue.callStep_of_not_ready hready⟩

/-- A call on the map whose result is fixed is one of the bounded map. -/
theorem callStep_of_settles_map {m : FrameMap RenderedFrame} {map : AssocMap UInt64 RenderedFrame}
    {e : FrameMap.Entry RenderedFrame} (h : frameMapMonitor.Settles m.map e map) :
    ∃ m' : FrameMap RenderedFrame, m'.map = map ∧ FrameMap.CallStep m e m' := by
  cases h with
  | acts hready => exact FrameMap.callStep_of_ready hready
  | givesUp hready => exact ⟨m, rfl, FrameMap.callStep_of_not_ready hready⟩

namespace View

variable {s s' : ThreadedPipe} {p : Pipe} {a : ThreadAction}

/-- What a step on the queue has to keep. -/
theorem of_queue (hv : s.View p)
    {queue : FrameQueue.Threads RenderedFrame}
    {point view : ProcessPoint} {q : FrameQueue RenderedFrame} {pushed : List RenderedFrame}
    (hq : q.queue = queue.shared)
    (hview : view = ({ s with queue := queue, process := point } : ThreadedPipe).processView)
    (hpushed : pushed = FrameQueue.pushed queue.log) :
    ({ s with queue := queue, process := point } : ThreadedPipe).View
      { p with frameQueue := q, process := view, pushed := pushed } :=
  ⟨hq, hv.frameMap, hview, hv.send, hv.frameIndex, hpushed, hv.takes, hv.sceneOffers,
    hv.depthOffers⟩

/-- What a step on the map has to keep. -/
theorem of_map (hv : s.View p)
    {map : FrameMap.Threads RenderedFrame}
    {point view : ProcessPoint} {send sendView : SendPoint} {m : FrameMap RenderedFrame}
    {takes : List RenderedFrame} {late : ℕ} (hm : m.map = map.shared)
    (hview : view =
      ({ s with map := map, process := point, send := send } : ThreadedPipe).processView)
    (hsend : sendView =
      ({ s with map := map, process := point, send := send } : ThreadedPipe).sendView)
    (htakes : takes = (FrameMap.returnedFrames map.log).map Prod.snd) :
    ({ s with map := map, process := point, send := send } : ThreadedPipe).View
      { p with frameMap := m, process := view, send := sendView, takes := takes, late := late } :=
  ⟨hv.frameQueue, hm, hview, hsend, hv.frameIndex, hv.pushed, htakes, hv.sceneOffers,
    hv.depthOffers⟩

/-- In a call of `pop` without a result, the pipeline's `process_frame_thread` is popping. -/
theorem process_of_pop (hw : s.Wired) (hv : s.View p) (hop : s.queue.opAt 0 = some .pop)
    (hnone : s.queue.entryAt 0 = []) : p.process = .popping := by
  have hat := (queueCall_zero_iff.mp (hw.queueCalls 0 _ hop)).2
  have hmap := Monitor.State.entryAt_of_opAt_eq_none (hw.map_opAt_zero (by simp [hat]))
  rw [hv.process, processView_of_nil hnone hmap, hat]

/-- A step in which the result of a call on the queue is fixed is one of the pipeline. -/
theorem queue_settles (hw : s.Wired) (hv : s.View p)
    {queue : FrameQueue.Threads RenderedFrame}
    {i : ℕ} {e : FrameQueue.Entry RenderedFrame} (hat : s.queue.opAt i = some e.op)
    (hsettles : frameQueueMonitor.Settles s.queue.shared e queue.shared)
    (hlog : queue.log = s.queue.log ++ [e]) (hnone : s.queue.entryAt i = [])
    (hentry : queue.entryAt = Function.update s.queue.entryAt i [e]) :
    ∃ bs p', Pipe.step.run p bs = some p' ∧ View { s with queue := queue } p' := by
  rw [← hv.frameQueue] at hsettles
  obtain ⟨q', hq', hcall⟩ := callStep_of_settles_queue hsettles
  have hcalls := hw.queueCalls i e.op hat
  have hpushed : FrameQueue.pushed queue.log = p.pushed ++ (FrameQueue.pushedBy e).toList := by
    rw [hlog, hv.pushed]
    exact pushed_concat _ _
  have hself : queue.entryAt i = [e] := by rw [hentry, Function.update_self]
  cases hcall with
  | @push frame _ hpush =>
    have hother : queue.entryAt 0 = s.queue.entryAt 0 := by
      rw [hentry, Function.update_of_ne (queueCall_push hcalls).symm]
    refine ⟨[.push frame], _, Machine.run_single (by simp only [Pipe.step, hpush]; rfl), ?_⟩
    refine hv.of_queue hq' ?_ hpushed.symm
    exact hv.process.trans (Eq.symm (processView_congr hother rfl rfl))
  | @pushTimeout frame hpush =>
    have hother : queue.entryAt 0 = s.queue.entryAt 0 := by
      rw [hentry, Function.update_of_ne (queueCall_push hcalls).symm]
    refine ⟨[], p, rfl, ?_⟩
    refine hv.of_queue hq' ?_ ?_
    · exact hv.process.trans (Eq.symm (processView_congr hother rfl rfl))
    · rw [hpushed]
      exact (List.append_nil _).symm
  | @pop frame _ hpop =>
    obtain rfl : i = 0 := queueCall_pop hcalls
    have hprocess := process_of_pop hw hv hat hnone
    refine ⟨[.pop], _, Machine.run_single (by simp only [Pipe.step, hprocess, hpop]; rfl), ?_⟩
    refine hv.of_queue hq' ?_ ?_
    · exact Eq.symm (processView_of_pop (e := ⟨.pop, some frame, true⟩) hself)
    · rw [hpushed]
      exact (List.append_nil _).symm
  | popTimeout hpop =>
    obtain rfl : i = 0 := queueCall_pop hcalls
    have hprocess := process_of_pop hw hv hat hnone
    refine ⟨[.popTimeout], p, Machine.run_single (by simp only [Pipe.step, hprocess, hpop]), ?_⟩
    refine hv.of_queue hq' ?_ ?_
    · exact hprocess.trans (Eq.symm (processView_of_pop (e := ⟨.pop, none, false⟩) hself))
    · rw [hpushed]
      exact (List.append_nil _).symm

/-- A step on the queue is a step of the pipeline, or it is not seen. -/
theorem queue (hw : s.Wired) (hv : s.View p) {a : Monitor.Action (QueueOp RenderedFrame)}
    {queue : FrameQueue.Threads RenderedFrame}
    (ht : frameQueueMonitor.Trans s.queue a queue) {point : ProcessPoint}
    (hstay : a ≠ .unlock 0 → point = s.process)
    (hreturn : a = .unlock 0 → point = popResult (s.queue.entryAt 0)) :
    ∃ bs p', Pipe.step.run p bs = some p' ∧
      View { s with queue := queue, process := point } p' := by
  -- a step that fixes no result changes neither the queue nor its history
  have hunseen (hshared : queue.shared = s.queue.shared) (hlog : queue.log = s.queue.log)
      (hview : ({ s with queue := queue, process := point } : ThreadedPipe).processView =
        s.processView) :
      ∃ bs p', Pipe.step.run p bs = some p' ∧
        View { s with queue := queue, process := point } p' :=
    ⟨[], p, rfl, hv.of_queue (hv.frameQueue.trans hshared.symm) (hv.process.trans hview.symm)
      (by rw [hlog, hv.pushed])⟩
  cases hw.queueInv.effect ht with
  | begins hshared hlog hop hentry =>
    exact hunseen hshared hlog (processView_congr (congrFun hentry 0) rfl (hstay nofun))
  | quiet hcall hunlock hshared hlog hop hentry =>
    exact hunseen hshared hlog (processView_congr (congrFun hentry 0) rfl (hstay (hunlock 0)))
  | settles hcall hunlock hat hsettles hlog hop hnone hentry =>
    rw [hstay (hunlock 0)]
    exact queue_settles hw hv hat hsettles hlog hnone hentry
  | @returns i e _ hat hshared hlog hop hsome hentry =>
    refine hunseen hshared hlog ?_
    by_cases hi : i = 0
    · subst hi
      -- the thread goes on where it has been seen
      have hpopping := (queueCall_zero_iff.mp (hw.queueCalls 0 _ hat)).2
      have hmap := Monitor.State.entryAt_of_opAt_eq_none (hw.map_opAt_zero (by simp [hpopping]))
      have hqueue : queue.entryAt 0 = [] := by rw [hentry, Function.update_self]
      rw [processView_of_nil (s := { s with queue := queue, process := point }) hqueue hmap,
        processView_of_pop hsome]
      exact (hreturn rfl).trans (by rw [hsome])
    · refine processView_congr ?_ rfl (hstay fun heq => hi (Monitor.Action.unlock.inj heq))
      exact (congrFun hentry 0).trans (Function.update_of_ne (Ne.symm hi) _ _)

/-- In a call of `insert` without a result, the pipeline's `process_frame_thread` is inserting. -/
theorem process_of_insert (hw : s.Wired) (hv : s.View p) {index : UInt64} {frame : RenderedFrame}
    (hop : s.map.opAt 0 = some (.insert index frame)) (hnone : s.map.entryAt 0 = []) :
    s.queue.entryAt 0 = [] ∧ p.process = .inserting index frame := by
  obtain ⟨_, _, heq, hat⟩ := mapCall_zero_iff.mp (hw.mapCalls 0 _ hop)
  cases heq
  have hqueue := Monitor.State.entryAt_of_opAt_eq_none (hw.queue_opAt_zero (by simp [hat]))
  exact ⟨hqueue, by rw [hv.process, processView_of_nil hqueue hnone, hat]⟩

/-- In a call of `get_delete` without a result, the pipeline's `send_frame_thread` is getting. -/
theorem send_of_get (hw : s.Wired) (hv : s.View p) {index : UInt64}
    (hop : s.map.opAt 1 = some (.getDelete index)) (hnone : s.map.entryAt 1 = []) :
    index = p.frameIndex ∧ p.send = .getting := by
  obtain ⟨heq, hat⟩ := mapCall_one_iff.mp (hw.mapCalls 1 _ hop)
  cases heq
  exact ⟨hv.frameIndex.symm, by rw [hv.send, sendView_of_nil hnone, hat]⟩

/-- A step in which the result of a call on the map is fixed is one of the pipeline. -/
theorem map_settles (hw : s.Wired) (hv : s.View p)
    {map : FrameMap.Threads RenderedFrame}
    {i : ℕ} {e : FrameMap.Entry RenderedFrame} (hat : s.map.opAt i = some e.op)
    (hsettles : frameMapMonitor.Settles s.map.shared e map.shared)
    (hlog : map.log = s.map.log ++ [e]) (hnone : s.map.entryAt i = [])
    (hentry : map.entryAt = Function.update s.map.entryAt i [e]) :
    ∃ bs p', Pipe.step.run p bs = some p' ∧ View { s with map := map } p' := by
  rw [← hv.frameMap] at hsettles
  obtain ⟨m', hm', hcall⟩ := callStep_of_settles_map hsettles
  have hcalls := hw.mapCalls i e.op hat
  have htakes : (FrameMap.returnedFrames map.log).map Prod.snd =
      p.takes ++ (FrameMap.returnedBy e).toList.map Prod.snd := by
    rw [hlog, hv.takes, returnedFrames_concat, List.map_append]
  have hself : map.entryAt i = [e] := by rw [hentry, Function.update_self]
  cases hcall with
  | @insert index frame _ hinsert =>
    obtain rfl : i = 0 := mapCall_insert hcalls
    have hother : map.entryAt 1 = s.map.entryAt 1 := by
      rw [hentry, Function.update_of_ne (by decide)]
    obtain ⟨hqueue, hprocess⟩ := process_of_insert hw hv hat hnone
    refine ⟨[.insert], _, Machine.run_single (by simp only [Pipe.step, hprocess, hinsert]; rfl), ?_⟩
    exact hv.of_map hm' (processView_of_insert (s := { s with map := map }) hqueue hself).symm
      (hv.send.trans (Eq.symm (sendView_congr hother rfl)))
      (htakes.trans (List.append_nil _)).symm
  | @insertTimeout index frame hinsert =>
    obtain rfl : i = 0 := mapCall_insert hcalls
    have hother : map.entryAt 1 = s.map.entryAt 1 := by
      rw [hentry, Function.update_of_ne (by decide)]
    obtain ⟨hqueue, hprocess⟩ := process_of_insert hw hv hat hnone
    refine ⟨[.insertTimeout], _,
      Machine.run_single (by simp only [Pipe.step, hprocess, hinsert]; rfl), ?_⟩
    exact hv.of_map hm' (processView_of_insert (s := { s with map := map }) hqueue hself).symm
      (hv.send.trans (Eq.symm (sendView_congr hother rfl)))
      (htakes.trans (List.append_nil _)).symm
  | @getDelete index frame _ hget =>
    obtain rfl : i = 1 := mapCall_getDelete hcalls
    have hother : map.entryAt 0 = s.map.entryAt 0 := by
      rw [hentry, Function.update_of_ne (by decide)]
    obtain ⟨rfl, hsend⟩ := send_of_get hw hv hat hnone
    refine ⟨[.getDelete], _, Machine.run_single (by simp only [Pipe.step, hsend, hget]; rfl), ?_⟩
    exact hv.of_map hm' (hv.process.trans (Eq.symm (processView_congr rfl hother rfl)))
      (sendView_of_get (s := { s with map := map }) hself).symm htakes.symm
  | @getTimeout index hget =>
    obtain rfl : i = 1 := mapCall_getDelete hcalls
    have hother : map.entryAt 0 = s.map.entryAt 0 := by
      rw [hentry, Function.update_of_ne (by decide)]
    obtain ⟨rfl, hsend⟩ := send_of_get hw hv hat hnone
    refine ⟨[.getTimeout], _, Machine.run_single (by simp only [Pipe.step, hsend, hget]; rfl), ?_⟩
    exact hv.of_map hm' (hv.process.trans (Eq.symm (processView_congr rfl hother rfl)))
      (sendView_of_get (s := { s with map := map }) hself).symm
      (htakes.trans (List.append_nil _)).symm

/-- A step on the map is a step of the pipeline, or it is not seen. -/
theorem map (hw : s.Wired) (hv : s.View p) {a : Monitor.Action (MapOp RenderedFrame)}
    {map : FrameMap.Threads RenderedFrame}
    (ht : frameMapMonitor.Trans s.map a map) {point : ProcessPoint} {send : SendPoint}
    (hstay : a ≠ .unlock 0 → point = s.process) (hreturn : a = .unlock 0 → point = .popping)
    (hstaySend : a ≠ .unlock 1 → send = s.send)
    (hreturnSend : a = .unlock 1 → send = getResult (s.map.entryAt 1)) :
    ∃ bs p', Pipe.step.run p bs = some p' ∧
      View { s with map := map, process := point, send := send } p' := by
  -- a step that fixes no result changes neither the map nor its history
  have hunseen (hshared : map.shared = s.map.shared) (hlog : map.log = s.map.log)
      (hview : ({ s with map := map, process := point, send := send } :
        ThreadedPipe).processView = s.processView)
      (hsend : ({ s with map := map, process := point, send := send } :
        ThreadedPipe).sendView = s.sendView) :
      ∃ bs p', Pipe.step.run p bs = some p' ∧
        View { s with map := map, process := point, send := send } p' :=
    ⟨[], p, rfl, hv.of_map (hv.frameMap.trans hshared.symm) (hv.process.trans hview.symm)
      (hv.send.trans hsend.symm) (by rw [hlog, hv.takes])⟩
  cases hw.mapInv.effect ht with
  | begins hshared hlog hop hentry =>
    exact hunseen hshared hlog (processView_congr rfl (congrFun hentry 0) (hstay nofun))
      (sendView_congr (congrFun hentry 1) (hstaySend nofun))
  | quiet hcall hunlock hshared hlog hop hentry =>
    exact hunseen hshared hlog (processView_congr rfl (congrFun hentry 0) (hstay (hunlock 0)))
      (sendView_congr (congrFun hentry 1) (hstaySend (hunlock 1)))
  | settles hcall hunlock hat hsettles hlog hop hnone hentry =>
    rw [hstay (hunlock 0), hstaySend (hunlock 1)]
    exact map_settles hw hv hat hsettles hlog hnone hentry
  | @returns i e _ hat hshared hlog hop hsome hentry =>
    refine hunseen hshared hlog ?_ ?_
    · by_cases hi : i = 0
      · subst hi
        obtain ⟨index, frame, -, hinserting⟩ := mapCall_zero_iff.mp (hw.mapCalls 0 _ hat)
        have hqueue := Monitor.State.entryAt_of_opAt_eq_none
          (hw.queue_opAt_zero (by simp [hinserting]))
        have hmap : map.entryAt 0 = [] := by rw [hentry, Function.update_self]
        rw [processView_of_nil (s := { s with map := map, process := point, send := send }) hqueue
          hmap, processView_of_insert hqueue hsome]
        exact hreturn rfl
      · refine processView_congr rfl ?_ (hstay fun heq => hi (Monitor.Action.unlock.inj heq))
        exact (congrFun hentry 0).trans (Function.update_of_ne (Ne.symm hi) _ _)
    · by_cases hi : i = 1
      · subst hi
        have hmap : map.entryAt 1 = [] := by rw [hentry, Function.update_self]
        rw [sendView_of_nil (s := { s with map := map, process := point, send := send }) hmap,
          sendView_of_get hsome]
        exact (hreturnSend rfl).trans (by rw [hsome])
      · refine sendView_congr ?_ (hstaySend fun heq => hi (Monitor.Action.unlock.inj heq))
        exact (congrFun hentry 1).trans (Function.update_of_ne (Ne.symm hi) _ _)

/-- While `process_frame_thread` converts, it is seen where it is. -/
theorem process_of_converting (hw : s.Wired) (hv : s.View p) {i : UInt64} {frame : RenderedFrame}
    (hat : s.process = .converting i frame) :
    s.queue.entryAt 0 = [] ∧ s.map.entryAt 0 = [] ∧ p.process = .converting i frame := by
  have hqueue := Monitor.State.entryAt_of_opAt_eq_none (hw.queue_opAt_zero (by simp [hat]))
  have hmap := Monitor.State.entryAt_of_opAt_eq_none (hw.map_opAt_zero (by simp [hat]))
  exact ⟨hqueue, hmap, by rw [hv.process, processView_of_nil hqueue hmap, hat]⟩

/-- While `send_frame_thread` is outside its call, it is seen where it is. -/
theorem send_of_ne (hw : s.Wired) (hv : s.View p) (hat : s.send ≠ .getting) :
    s.map.entryAt 1 = [] ∧ p.send = s.send := by
  have hmap := Monitor.State.entryAt_of_opAt_eq_none (hw.map_opAt_one hat)
  exact ⟨hmap, by rw [hv.send, sendView_of_nil hmap]⟩

/-- What a step of `process_frame_thread` outside its calls has to keep. -/
theorem of_process (hv : s.View p) {point : ProcessPoint} (hqueue : s.queue.entryAt 0 = [])
    (hmap : s.map.entryAt 0 = []) :
    ({ s with process := point } : ThreadedPipe).View { p with process := point } :=
  ⟨hv.frameQueue, hv.frameMap,
    (processView_of_nil (s := { s with process := point }) hqueue hmap).symm, hv.send,
    hv.frameIndex, hv.pushed, hv.takes, hv.sceneOffers, hv.depthOffers⟩

/-- What a step of `send_frame_thread` outside its call has to keep. -/
theorem of_send (hv : s.View p) {point : SendPoint} {index index' : UInt64}
    {scene scene' depth depth' : List Offer} (hmap : s.map.entryAt 1 = [])
    (hindex : index' = index) (hscene : scene' = scene) (hdepth : depth' = depth) :
    ({ s with
      send := point, frameIndex := index, sceneOffers := scene, depthOffers := depth } :
      ThreadedPipe).View
      { p with
        send := point, frameIndex := index', sceneOffers := scene', depthOffers := depth' } :=
  ⟨hv.frameQueue, hv.frameMap, hv.process,
    (sendView_of_nil (s := { s with
      send := point, frameIndex := index, sceneOffers := scene, depthOffers := depth }) hmap).symm,
    hindex, hv.pushed, hv.takes, hscene, hdepth⟩

/-- The number of frames taken. -/
theorem length_takes (hv : s.View p) :
    p.takes.length = (FrameMap.returnedFrames s.map.log).length := by
  rw [hv.takes, List.length_map]

/-- Every step of the threads is a step of the pipeline, or it is not seen. -/
theorem trans (hw : s.Wired) (hv : s.View p) (ht : Trans s a s') :
    ∃ bs p', Pipe.step.run p bs = some p' ∧ s'.View p' := by
  cases ht with
  | queue hcalls ht => exact hv.queue hw ht (fun hne => if_neg hne) (fun heq => if_pos heq)
  | map hcalls ht =>
    exact hv.map hw ht (fun hne => if_neg hne) (fun heq => if_pos heq) (fun hne => if_neg hne)
      (fun heq => if_pos heq)
  | @convert i frame frame' swsScene swsDepth hat hok =>
    obtain ⟨hqueue, hmap, hprocess⟩ := process_of_converting hw hv hat
    refine ⟨[.convert swsScene swsDepth], _, Machine.run_single ?_, hv.of_process hqueue hmap⟩
    simp only [Pipe.step, hprocess, hok]
  | @convertThrows i frame swsScene swsDepth e hat hthrow =>
    obtain ⟨hqueue, hmap, hprocess⟩ := process_of_converting hw hv hat
    refine ⟨[.convert swsScene swsDepth], _, Machine.run_single ?_, hv.of_process hqueue hmap⟩
    simp only [Pipe.step, hprocess, hthrow]
  | @sendScene frame ret hat =>
    obtain ⟨hmap, hsend⟩ := send_of_ne hw hv (by simp [hat])
    rw [hat] at hsend
    refine ⟨[.sendScene ret], _,
      Machine.run_single (by simp only [Pipe.step, hsend, sendSwitch_eq_ok]; rfl), ?_⟩
    exact hv.of_send hmap hv.frameIndex (by rw [hv.sceneOffers, hv.length_takes, hv.frameIndex])
      hv.depthOffers
  | @sendDepth frame ret hat =>
    obtain ⟨hmap, hsend⟩ := send_of_ne hw hv (by simp [hat])
    rw [hat] at hsend
    refine ⟨[.sendDepth ret], _,
      Machine.run_single (by simp only [Pipe.step, hsend, sendSwitch_eq_ok]; rfl), ?_⟩
    exact hv.of_send hmap hv.frameIndex hv.sceneOffers
      (by rw [hv.depthOffers, hv.length_takes, hv.frameIndex])
  | advance hat =>
    obtain ⟨hmap, hsend⟩ := send_of_ne hw hv (by simp [hat])
    rw [hat] at hsend
    refine ⟨[.advance], _, Machine.run_single (by simp only [Pipe.step, hsend]; rfl), ?_⟩
    exact hv.of_send hmap (by rw [hv.frameIndex]) hv.sceneOffers hv.depthOffers

end View

/-- At the start the pipeline is seen as it starts. -/
theorem view_init (n : ℕ) : (init n).View Pipe.init where
  frameQueue := rfl
  frameMap := rfl
  process :=
    (processView_of_nil (s := init n) (Monitor.entryAt_init _ 0) (Monitor.entryAt_init _ 0)).symm
  send := (sendView_of_nil (s := init n) (Monitor.entryAt_init _ 1)).symm
  frameIndex := rfl
  pushed := rfl
  takes := rfl
  sceneOffers := rfl
  depthOffers := rfl

/-- For any number of client threads and every interleaving of the atomic steps of their calls, of
`process_frame_thread` and of `send_frame_thread`: what is seen of them is the state of a run of the
pipeline, in which every call is one step.  It has the same queue, map and `frame_index`, the same
frames have been pushed, in the same order, the same frames have been taken from the map, and the
encoders have been offered the same frames at the same indices with the same results. -/
theorem refines {n : ℕ} {as : List ThreadAction} {s : ThreadedPipe}
    (hrun : step.run (init n) as = some s) :
    ∃ bs p, Pipe.step.run Pipe.init bs = some p ∧ s.View p := by
  have hstep : ∀ s a s' p, s.Wired ∧ s.View p → step s a = some s' →
      ∃ bs p', Pipe.step.run p bs = some p' ∧ s'.Wired ∧ s'.View p' := by
    rintro s a s' p ⟨hw, hv⟩ hstep
    obtain ⟨bs, p', hbs, hv'⟩ := hv.trans hw (trans_of_step hstep)
    exact ⟨bs, p', hbs, hw.trans (trans_of_step hstep), hv'⟩
  obtain ⟨bs, p, hbs, -, hv⟩ := Machine.exists_run_of_simulation
    (R := fun s p => s.Wired ∧ s.View p) ⟨Wired.init n, view_init n⟩ hstep hrun
  exact ⟨bs, p, hbs, hv⟩

/-- A frame of a reply without pixels, with the defaults of `main`. -/
def leftFrame : RenderedFrame :=
  .new { isLeft := true } .rgb24 .gray8 defaultInitInfo defaultInitInfo 0

/-- A frame goes from a client thread to the encoders.  `send_frame_thread` waits for it from the
start and is woken by its `insert`, and `process_frame_thread` waits for it in `pop`. -/
def awaitedFrame (frame : RenderedFrame) : List ThreadAction :=
  [.map (.call 1 (.getDelete 0)), .map (.acquire 1), .map (.test 1), .queue (.call 0 .pop),
    .queue (.acquire 0), .queue (.test 0), .queue (.call 1 (.push frame)), .queue (.acquire 1),
    .queue (.test 1), .queue (.act 1), .queue (.notify 1 (some 0)), .queue (.unlock 1),
    .queue (.acquire 0), .queue (.test 0), .queue (.act 0), .queue (.notify 0 none),
    .queue (.unlock 0), .convert true true,
    .map (.call 0 (.insert 0 { frame with converted := true })), .map (.acquire 0), .map (.test 0),
    .map (.act 0), .map (.notify 0 none), .map (.unlock 0), .map (.acquire 1), .map (.test 1),
    .map (.act 1), .map (.notify 1 none), .map (.unlock 1), .sendScene 0, .sendDepth 0, .advance]

/-- The encoders have been offered the awaited frame, in the pipeline as in the threads. -/
theorem refines_awaitedFrame :
    ∃ s p bs, step.run (init 1) (awaitedFrame leftFrame) = some s ∧
      Pipe.step.run Pipe.init bs = some p ∧ s.View p ∧ p.frameIndex = 1 ∧
      p.takes = [{ leftFrame with converted := true }] := by
  have hsome : (step.run (init 1) (awaitedFrame leftFrame)).any
      (fun s => s.frameIndex = 1 ∧ (FrameMap.returnedFrames s.map.log).map Prod.snd =
        [{ leftFrame with converted := true }]) = true := by decide +kernel
  obtain ⟨s, hrun, hs⟩ := (Option.any_eq_true _ _).mp hsome
  obtain ⟨hindex, htakes⟩ := of_decide_eq_true hs
  obtain ⟨bs, p, hbs, hv⟩ := refines hrun
  exact ⟨s, p, bs, hrun, hbs, hv, hv.frameIndex.trans hindex, hv.takes.trans htakes⟩

end ThreadedPipe

end Ngp
