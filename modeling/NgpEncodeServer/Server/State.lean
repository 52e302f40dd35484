import NgpEncodeServer.Base.CameraManager
import NgpEncodeServer.Encode.Pipeline

/-!
# The server

The threads of the server and the state they share, as `main` wires them: any number of
`socket_client_thread`s, the camera control server, and for each eye the pipeline with its
`process_frame_thread` and `send_frame_thread`.

A step is one atomic operation, critical section or local action of one thread; the action names the
thread and the outcome of what comes from outside (a send, a reply, an encoder that opens or not).
The copy of a camera into a request and the assignment of a camera are one step each; the code has
no lock that keeps the two apart.
A thread that is never scheduled again stands for one that has left its loop on shutdown.  An
exception that leaves a thread function terminates the process: no thread takes a step afterwards.
-/

namespace Ngp

open nesproto (Camera FrameRequest)

/-- Where a `socket_client_thread` is in its loop. -/
inductive ClientPoint where
  /-- Before the test of `ret` at the head of the loop. -/
  | loopHead
  /-- After `is_left.fetch_xor(true)`. -/
  | drawn (isLeftVal : Bool)
  /-- After `fetch_add(1)` on the counter of the eye drawn. -/
  | allocated (isLeftVal : Bool) (frameIndex : UInt64)
  /-- Before `socket_send_blocking_lpf`. -/
  | sending (req : FrameRequest)
  /-- Before `socket_receive_blocking_lpf` and the parser. -/
  | receiving (req : FrameRequest)
  /-- In the constructor of `RenderedFrame`, before the scene codec is read. -/
  | constructing (receipt : ℕ) (frame : nesproto.RenderedFrame)
  /-- In the constructor of `RenderedFrame`, before the depth codec is read. -/
  | constructingDepth (receipt : ℕ) (frame : nesproto.RenderedFrame) (infoScene : CodecInitInfo)
  /-- Before `push`. -/
  | pushing (frame : RenderedFrame)
  /-- The socket is closed. -/
  | closed
  /-- Left by an exception that no handler of the thread catches. -/
  | raised (e : Exn)
  deriving DecidableEq, Repr

/-- A `socket_client_thread` with its variable `ret`. -/
structure Client where
  ret : ℤ
  point : ClientPoint
  deriving DecidableEq, Repr

/-- The outcomes of receiving and parsing one reply. -/
inductive ReceiveOutcome where
  /-- A message that parses. -/
  | parsed (frame : nesproto.RenderedFrame)
  /-- A message that does not parse. -/
  | notParsed
  /-- `socket_receive_blocking_lpf` throws `std::runtime_error`. -/
  | runtimeError
  /-- The announced size cannot be allocated, for the buffer or for the copy that is returned. -/
  | badAlloc
  deriving DecidableEq, Repr

/-- What a `socket_client_thread` does next. -/
inductive ClientAction where
  | exit
  | draw
  | allocate
  | build
  | send (ret : ℤ)
  | receive (outcome : ReceiveOutcome)
  | constructScene
  | constructDepth
  | push
  | pushTimeout
  deriving DecidableEq, Repr

/-- Where the thread of the camera control server is in `set_camera`. -/
inductive ControlPoint where
  | idle
  | changingScene (isLeft : Bool) (camera : Camera)
  | changingDepth (isLeft : Bool) (camera : Camera)
  | storing (isLeft : Bool) (camera : Camera)
  | raised (e : Exn)
  deriving DecidableEq, Repr

/-- What the thread of the camera control server does next. -/
inductive ControlAction where
  | setCamera (isLeft : Bool) (camera : Camera)
  | changeScene (outcome : InitOutcome)
  | changeDepth (outcome : InitOutcome)
  | store
  deriving DecidableEq, Repr

/-- A step of the server. -/
inductive Action where
  /-- A renderer is connected and a `socket_client_thread` started for it. -/
  | connect
  | client (i : ℕ) (a : ClientAction)
  | control (a : ControlAction)
  | pipe (isLeft : Bool) (a : PipeAction)
  deriving DecidableEq, Repr

/-- The state of the server.  The last two fields are history variables. -/
structure Server where
  /-- `is_left`. -/
  isLeft : Int32
  /-- `frame_index_left` and `frame_index_right`. -/
  frameIndex : Sided UInt64
  cameramgr : CameraManager
  /-- The pipelines of the two eyes. -/
  pipe : Sided Pipe
  control : ControlPoint
  clients : List Client
  /-- The eyes and indices drawn for requests, in order. -/
  allocated : List (Bool × UInt64)
  /-- The replies parsed, in order. -/
  received : List nesproto.RenderedFrame

namespace ProcessPoint

/-- The thread has been left by an exception. -/
def isRaised : ProcessPoint → Bool
  | .raised _ => true
  | _ => false

end ProcessPoint

namespace SendPoint

/-- The thread has been left by an exception. -/
def isRaised : SendPoint → Bool
  | .raised _ => true
  | _ => false

end SendPoint

namespace ControlPoint

/-- The thread has been left by an exception. -/
def isRaised : ControlPoint → Bool
  | .raised _ => true
  | _ => false

end ControlPoint

namespace Client

/-- The thread has been left by an exception. -/
def isRaised (c : Client) : Bool :=
  match c.point with
  | .raised _ => true
  | _ => false

/-- A `socket_client_thread` at its start. -/
def start : Client := { ret := 0, point := .loopHead }

end Client

namespace Server

/-- The server when `main` has started its threads, with the configuration from the flags. -/
def init (info : CodecInitInfo) : Server where
  isLeft := 0
  frameIndex := ⟨0, 0⟩
  cameramgr := CameraManager.ofFlags info
  pipe := ⟨Pipe.init, Pipe.init⟩
  control := .idle
  clients := []
  allocated := []
  received := []

/-- Some thread has been left by an exception, and `std::terminate` has been called. -/
def terminated (s : Server) : Bool :=
  s.clients.any Client.isRaised || s.control.isRaised ||
    s.pipe.left.process.isRaised || s.pipe.left.send.isRaised ||
    s.pipe.right.process.isRaised || s.pipe.right.send.isRaised

/-- The scene codec `main` gives to `socket_main_thread`, `codec_scene_left`. -/
def ctxmgrScene (s : Server) : AVCodecContextManager := s.cameramgr.codecScene.left

/-- The depth codec `main` gives to `socket_main_thread`, `codec_depth_left`. -/
def ctxmgrDepth (s : Server) : AVCodecContextManager := s.cameramgr.codecDepth.left

/-- One step of a `socket_client_thread`: what it does to the shared state, and the thread
afterwards. -/
def clientStep (s : Server) (c : Client) (a : ClientAction) : Option (Server × Client) :=
  match a, c.point with
  | .exit, .loopHead =>
    if c.ret < 0 then some (s, { c with point := .closed }) else none
  | .draw, .loopHead =>
    if c.ret < 0 then none
    else some ({ s with isLeft := s.isLeft ^^^ 1 }, { c with point := .drawn (s.isLeft != 0) })
  | .allocate, .drawn isLeftVal =>
    let frameIndex := s.frameIndex.get isLeftVal
    some ({ s with
        frameIndex := s.frameIndex.set isLeftVal (frameIndex + 1),
        allocated := s.allocated ++ [(isLeftVal, frameIndex)] },
      { c with point := .allocated isLeftVal frameIndex })
  | .build, .allocated isLeftVal frameIndex =>
    let req : FrameRequest :=
      { index := frameIndex, camera := s.cameramgr.camera.get isLeftVal, isLeft := isLeftVal }
    some (s, { c with point := .sending req })
  | .send ret, .sending req =>
    if ret < 0 then some (s, { ret := ret, point := .loopHead })
    else some (s, { ret := ret, point := .receiving req })
  | .receive (.parsed frame), .receiving _ =>
    some ({ s with received := s.received ++ [frame] },
      { c with point := .constructing s.received.length frame })
  -- neither of the two sets `ret`
  | .receive .notParsed, .receiving _ => some (s, { c with point := .loopHead })
  | .receive .runtimeError, .receiving _ => some (s, { c with point := .loopHead })
  | .receive .badAlloc, .receiving _ => some (s, { c with point := .raised .badAlloc })
  | .constructScene, .constructing receipt frame =>
    some (s, { c with point := .constructingDepth receipt frame s.ctxmgrScene.getCodecInfo })
  | .constructDepth, .constructingDepth receipt frame infoScene =>
    let frame_o :=
      RenderedFrame.new frame .rgb24 .gray8 infoScene s.ctxmgrDepth.getCodecInfo receipt
    some (s, { c with point := .pushing frame_o })
  | .push, .pushing frame =>
    match Pipe.step (s.pipe.get frame.isLeft) (.push frame) with
    | some p => some ({ s with pipe := s.pipe.set frame.isLeft p }, { c with point := .loopHead })
    | none => none
  | .pushTimeout, .pushing frame =>
    match (s.pipe.get frame.isLeft).frameQueue.push frame with
    | .ok _ => none
    -- the frame is dropped
    | .error _ => some (s, { c with point := .loopHead })
  | _, _ => none

/-- One step of the thread of the camera control server. -/
def controlStep (s : Server) (a : ControlAction) : Option Server :=
  match a, s.control with
  | .setCamera isLeft camera, .idle =>
    if s.cameramgr.resolutionChanged isLeft camera then
      some { s with control := .changingScene isLeft (CameraManager.evenResolution camera) }
    else some { s with control := .storing isLeft camera }
  | .changeScene outcome, .changingScene isLeft camera =>
    let r := s.cameramgr.changeScene isLeft camera outcome
    match r.2 with
    | .ok () => some { s with cameramgr := r.1, control := .changingDepth isLeft camera }
    | .error e => some { s with cameramgr := r.1, control := .raised e }
  | .changeDepth outcome, .changingDepth isLeft camera =>
    let r := s.cameramgr.changeDepth isLeft camera outcome
    match r.2 with
    | .ok () => some { s with cameramgr := r.1, control := .storing isLeft camera }
    | .error e => some { s with cameramgr := r.1, control := .raised e }
  | .store, .storing isLeft camera =>
    some { s with cameramgr := s.cameramgr.storeCamera isLeft camera, control := .idle }
  | _, _ => none

/-- One step of the server. Only client threads push into a pipeline. -/
def step : Machine Server Action := fun s a =>
  if s.terminated then none
  else
    match a with
    | .connect => some { s with clients := s.clients ++ [Client.start] }
    | .client i a =>
      match s.clients[i]? with
      | some c =>
        match s.clientStep c a with
        | some (s', c') => some { s' with clients := s'.clients.set i c' }
        | none => none
      | none => none
    | .control a => s.controlStep a
    | .pipe _ (.push _) => none
    | .pipe isLeft a =>
      match Pipe.step (s.pipe.get isLeft) a with
      | some p => some { s with pipe := s.pipe.set isLeft p }
      | none => none

end Server

end Ngp
