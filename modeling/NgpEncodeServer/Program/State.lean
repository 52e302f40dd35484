import Mathlib.Logic.Function.Basic
import NgpEncodeServer.Server.Step
import NgpEncodeServer.Server.Manage
import NgpEncodeServer.Encode.ReceivePacket
import NgpEncodeServer.Encode.Stats

/-!
# The program

`main` with everything it runs: it starts the four packet stream servers and the camera control
server, spawns ten threads, joins them in the same order and stops the servers.  One of the ten is
`socket_main_thread`, which spawns and joins a `socket_manage_thread` for each renderer; that one
runs a `socket_client_thread` for each of its connections.

The state puts the machines of the parts together: the client threads, pipelines and camera control
of `Server`, a `Manage` for each renderer, a `ReceivePacket` for each stream and the statistics.
What is added is the control between them: the tests of `shutdown_requested` at the heads of the
loops, the spawning and the joining, and which server is running.

An exception that leaves a thread function terminates the process; no step follows.  The threads
themselves can always be created.
-/

namespace Ngp

/-- One of the four streams of packets. -/
structure PacketStream where
  isLeft : Bool
  picture : Picture
  deriving DecidableEq, Repr

/-- The websocket servers. -/
inductive ServerId where
  | packetStream (stream : PacketStream)
  | cameraControl
  deriving DecidableEq, Repr

/-- `m_server_name`. -/
def ServerId.name : ServerId → String
  | .packetStream ⟨true, .scene⟩ => "server_packet_stream_scene_left"
  | .packetStream ⟨true, .depth⟩ => "server_packet_stream_depth_left"
  | .packetStream ⟨false, .scene⟩ => "server_packet_stream_scene_right"
  | .packetStream ⟨false, .depth⟩ => "server_packet_stream_depth_right"
  | .cameraControl => "CameraControlServer"

/-- The order in which `main` starts the servers and in which it stops them. -/
def serverIds : List ServerId :=
  [.packetStream ⟨true, .scene⟩, .packetStream ⟨true, .depth⟩, .packetStream ⟨false, .scene⟩,
    .packetStream ⟨false, .depth⟩, .cameraControl]

/-- The threads that `main` spawns. -/
inductive ThreadId where
  | socketMain
  | processFrame (isLeft : Bool)
  | receivePacket (stream : PacketStream)
  | sendFrame (isLeft : Bool)
  | encodeStats
  deriving DecidableEq, Repr

/-- `threads`, in the order in which they are spawned and joined. -/
def threadIds : List ThreadId :=
  [.socketMain, .processFrame true, .processFrame false, .receivePacket ⟨true, .scene⟩,
    .receivePacket ⟨true, .depth⟩, .receivePacket ⟨false, .scene⟩, .receivePacket ⟨false, .depth⟩,
    .sendFrame true, .sendFrame false, .encodeStats]

/-- Where `main` is, with what is left of the list it goes over. -/
inductive MainPoint where
  | starting (rest : List ServerId)
  | spawning (rest : List ThreadId)
  | joining (rest : List ThreadId)
  | stopping (rest : List ServerId)
  | returned
  /-- An exception has been caught and logged by the handler in `main`. -/
  | failed
  /-- Left by an exception that destroys a running server, and with it a joinable thread:
  `std::terminate` has been called. -/
  | terminated
  deriving DecidableEq, Repr

/-- Where `socket_main_thread` is, with the number of threads it has spawned or joined. -/
inductive SocketMainPoint where
  | spawning (spawned : ℕ)
  | joining (joined : ℕ)
  | returned
  deriving DecidableEq, Repr

/-- Where a thread is in a loop `while (!shutdown_requested)`. -/
inductive LoopPoint where
  /-- Before the test. -/
  | test
  | body
  /-- After the loop. -/
  | done
  deriving DecidableEq, Repr

/-- The test of the loop. -/
def LoopPoint.next (shutdownRequested : Bool) : LoopPoint → Option LoopPoint
  | .test => some (if shutdownRequested then .done else .body)
  | _ => none

/-- `process_frame_thread` is back at the head of its loop, or not. -/
def ProcessPoint.loopPoint : ProcessPoint → LoopPoint
  | .popping => .test
  | _ => .body

/-- `send_frame_thread` is back at the head of its loop, or not. -/
def SendPoint.loopPoint : SendPoint → LoopPoint
  | .getting => .test
  | _ => .body

/-- A `socket_client_thread` is back at the head of its loop, has left it by `break`, or neither. -/
def ClientPoint.loopPoint : ClientPoint → LoopPoint
  | .loopHead => .test
  | .closed => .done
  | _ => .body

/-- The step is one of `send_frame_thread`. -/
def PipeAction.isSend : PipeAction → Bool
  | .getDelete | .getTimeout | .sendScene _ | .sendDepth _ | .advance => true
  | _ => false

/-- The step is one of `receive_packet_thread` itself. -/
def ReceivePacketAction.isThread {κ : Type*} : ReceivePacketAction κ → Bool
  | .opened .. | .closed _ | .shutdown => false
  | _ => true

/-- The thread has been left by an exception. -/
def ReceivePoint.isRaised : ReceivePoint → Bool
  | .raised _ => true
  | _ => false

/-- The thread is in `consume_packet`. -/
def ReceivePoint.isConsuming : ReceivePoint → Bool
  | .consuming _ => true
  | _ => false

/-- The thread has been left by an exception. -/
def ManagePoint.isRaised : ManagePoint → Bool
  | .raised _ => true
  | _ => false

/-- A `socket_manage_thread` with the `socket_client_thread` it waits for. -/
structure ManageThread where
  renderer : List UInt8
  manage : Manage
  client : Option ℕ

/-- The program, with connection handles `κ`. -/
structure Program (κ : Type*) where
  /-- `shutdown_requested`. -/
  shutdownRequested : Bool
  main : MainPoint
  socketMain : SocketMainPoint
  manages : List ManageThread
  /-- The client threads, the pipelines and the camera control. -/
  server : Server
  /-- Where the client threads are in their loops. -/
  clientLoops : List LoopPoint
  /-- Where the `process_frame_thread`s are in their loops. -/
  process : Sided LoopPoint
  /-- Where the `send_frame_thread`s are in their loops. -/
  send : Sided LoopPoint
  receive : PacketStream → ReceivePoint
  websocket : ServerId → WebSocketServer κ
  stats : EncodeStats

/-- What `main` does next. -/
inductive MainAction (κ : Type*) where
  /-- The next server is started; `listen` throws or not. -/
  | start (listen : Option String)
  | spawn
  | join
  /-- The next server is stopped, with what `close` throws for each connection on which it fails. -/
  | stop (fails : κ → Option String)
  /-- On to the next phase, with nothing left of the list. -/
  | proceed

/-- What `socket_main_thread` does next. -/
inductive SocketMainAction where
  | spawn
  | join
  | proceed
  deriving DecidableEq, Repr

/-- A step of the program. -/
inductive ProgramAction (κ : Type*) where
  /-- `signal_handler` runs. -/
  | signal
  | main (a : MainAction κ)
  | socketMain (a : SocketMainAction)
  | manage (i : ℕ) (a : ManageAction)
  | clientTest (i : ℕ)
  | client (i : ℕ) (a : ClientAction)
  | processTest (isLeft : Bool)
  | sendTest (isLeft : Bool)
  | pipe (isLeft : Bool) (a : PipeAction)
  | receive (stream : PacketStream) (a : ReceivePacketAction κ)
  | stats (a : StatsAction)
  | control (a : ControlAction)
  /-- The open handler of a server runs. -/
  | opened (id : ServerId) (position : ℕ) (hdl : κ)
  /-- The close handler of a server runs. -/
  | closed (id : ServerId) (hdl : κ)

namespace Program

variable {κ : Type*} [DecidableEq κ]

/-- The program when everything has been constructed and nothing started. -/
def init (info : CodecInitInfo) (renderers : List (List UInt8)) : Program κ where
  shutdownRequested := false
  main := .starting serverIds
  socketMain := .spawning 0
  manages := renderers.map fun renderer => ⟨renderer, Manage.init, none⟩
  server := Server.init info
  clientLoops := []
  process := ⟨.test, .test⟩
  send := ⟨.test, .test⟩
  receive := fun _ => .loopHead
  websocket := fun id => .constructed id.name
  stats := EncodeStats.init

/-- The four streams. -/
def streams : List PacketStream :=
  [⟨true, .scene⟩, ⟨true, .depth⟩, ⟨false, .scene⟩, ⟨false, .depth⟩]

/-- `std::terminate` has been called: an exception has left a thread function, or `main` has
destroyed a joinable thread. -/
def aborted (s : Program κ) : Bool :=
  s.server.terminated || s.main == .terminated ||
    s.manages.any (fun t => t.manage.point.isRaised) ||
    streams.any fun st => (s.receive st).isRaised

/-- `main` has spawned the thread. -/
def born (s : Program κ) (t : ThreadId) : Bool :=
  match s.main with
  | .starting _ | .failed => false
  | .spawning rest => t ∉ rest
  | _ => true

/-- `socket_main_thread` has spawned the thread of the renderer. -/
def managed (s : Program κ) (i : ℕ) : Bool :=
  match s.socketMain with
  | .spawning spawned => i < spawned
  | _ => true

/-- The thread function has returned. -/
def returned (s : Program κ) : ThreadId → Bool
  | .socketMain => s.socketMain == .returned
  | .processFrame isLeft => s.process.get isLeft == .done
  | .receivePacket stream => s.receive stream == .exited
  | .sendFrame isLeft => s.send.get isLeft == .done
  | .encodeStats => s.stats.point == .returned

/-- The stack of `main` is unwound by an exception.  A running server is destroyed with its thread
joinable; without one the exception gets to the handler. -/
def unwound (s : Program κ) : MainPoint :=
  if serverIds.any fun id => (s.websocket id).running then .terminated else .failed

/-- The program with another state of one server. -/
def setWebsocket (s : Program κ) (id : ServerId) (w : WebSocketServer κ) : Program κ :=
  { s with websocket := Function.update s.websocket id w }

/-- One step of `main`. -/
def mainStep (s : Program κ) (a : MainAction κ) : Option (Program κ) :=
  match a, s.main with
  | .start listen, .starting (id :: rest) =>
    let r := (s.websocket id).startOn listen
    match r.2 with
    | .ok () => some { s.setWebsocket id r.1 with main := .starting rest }
    | .error _ => some { s with main := s.unwound }
  | .proceed, .starting [] => some { s with main := .spawning threadIds }
  | .spawn, .spawning (_ :: rest) => some { s with main := .spawning rest }
  | .proceed, .spawning [] => some { s with main := .joining threadIds }
  | .join, .joining (t :: rest) =>
    if s.returned t then some { s with main := .joining rest } else none
  | .proceed, .joining [] => some { s with main := .stopping serverIds }
  | .stop fails, .stopping (id :: rest) =>
    let r := (s.websocket id).stop fails
    match r.2 with
    | .ok () =>
      -- the join in `stop` also waits for the message handler
      if id = .cameraControl ∧ s.server.control ≠ .idle then none
      else some { s.setWebsocket id r.1 with main := .stopping rest }
    | .error _ => some { s with main := s.unwound }
  | .proceed, .stopping [] => some { s with main := .returned }
  | _, _ => none

/-- One step of `socket_main_thread`. -/
def socketMainStep (s : Program κ) (a : SocketMainAction) : Option (Program κ) :=
  match a, s.socketMain with
  | .spawn, .spawning n =>
    if n < s.manages.length then some { s with socketMain := .spawning (n + 1) } else none
  | .proceed, .spawning n =>
    if n = s.manages.length then some { s with socketMain := .joining 0 } else none
  | .join, .joining n =>
    match s.manages[n]? with
    | some t =>
      if t.manage.point = .returned then some { s with socketMain := .joining (n + 1) } else none
    | none => none
  | .proceed, .joining n =>
    if n = s.manages.length then some { s with socketMain := .returned } else none
  | _, _ => none

/-- What a step of a `socket_manage_thread` depends on outside of the thread. -/
def allows (s : Program κ) (t : ManageThread) : ManageAction → Bool
  | .exit => s.shutdownRequested
  | .parse => !s.shutdownRequested
  -- the kernel gives out a descriptor that no thread has open
  | .socket (some fd) => s.manages.all fun t => fd ∉ t.manage.opened
  -- the client thread has left its loop
  | .clientCloses => t.client.any fun j => s.clientLoops[j]? == some .done
  | _ => true

/-- One step of a `socket_manage_thread`, or the close at the end of its client thread. -/
def manageStep (s : Program κ) (i : ℕ) (t : ManageThread) (a : ManageAction) :
    Option (Program κ) :=
  if s.allows t a then
    match Manage.step t.renderer t.manage a with
    | some m =>
      match a with
      | .connect ret =>
        if ret < 0 then some { s with manages := s.manages.set i { t with manage := m } }
        else
          match Server.step s.server .connect with
          | some server =>
            some { s with
              manages :=
                s.manages.set i { t with manage := m, client := some s.server.clients.length }
              server := server
              clientLoops := s.clientLoops ++ [.test] }
          | none => none
      | .clientCloses =>
        some { s with manages := s.manages.set i { t with manage := m, client := none } }
      | _ => some { s with manages := s.manages.set i { t with manage := m } }
    | none => none
  else none

/-- One step of a client thread in the body of its loop. -/
def clientStep (s : Program κ) (i : ℕ) (a : ClientAction) : Option (Program κ) :=
  match Server.step s.server (.client i a) with
  | some server =>
    match server.clients[i]? with
    | some c =>
      some { s with server := server, clientLoops := s.clientLoops.set i c.point.loopPoint }
    | none => none
  | none => none

/-- One step of `process_frame_thread` or `send_frame_thread` in the body of its loop. -/
def pipeStep (s : Program κ) (e : Bool) (a : PipeAction) : Option (Program κ) :=
  match Server.step s.server (.pipe e a) with
  | some server =>
    if a.isSend then
      some { s with server := server, send := s.send.set e (server.pipe.get e).send.loopPoint }
    else
      some { s with
        server := server, process := s.process.set e (server.pipe.get e).process.loopPoint }
  | none => none

/-- What a `receive_packet_thread` sees of the program. -/
def receivePacket (s : Program κ) (st : PacketStream) : ReceivePacket κ where
  shutdownRequested := s.shutdownRequested
  server := s.websocket (.packetStream st)
  point := s.receive st

/-- One step of a `receive_packet_thread`. -/
def receiveStep (s : Program κ) (st : PacketStream) (a : ReceivePacketAction κ) :
    Option (Program κ) :=
  match ReceivePacket.step (s.receivePacket st) a with
  | some r =>
    some { s.setWebsocket (.packetStream st) r.server with
      shutdownRequested := r.shutdownRequested
      receive := Function.update s.receive st r.point }
  | none => none

/-- One step of the program. -/
def step : Machine (Program κ) (ProgramAction κ) := fun s a =>
  if s.aborted then none
  else
    match a with
    | .signal => some { s with shutdownRequested := true }
    | .main a => s.mainStep a
    | .socketMain a => if s.born .socketMain then s.socketMainStep a else none
    | .manage i a =>
      match s.manages[i]? with
      | some t => if s.managed i then s.manageStep i t a else none
      | none => none
    | .clientTest i =>
      match s.clientLoops[i]?.bind (LoopPoint.next s.shutdownRequested) with
      | some l => some { s with clientLoops := s.clientLoops.set i l }
      | none => none
    | .client i a => if s.clientLoops[i]? = some .body then s.clientStep i a else none
    | .processTest e =>
      match (s.process.get e).next s.shutdownRequested with
      | some l =>
        if s.born (.processFrame e) then some { s with process := s.process.set e l } else none
      | none => none
    | .sendTest e =>
      match (s.send.get e).next s.shutdownRequested with
      | some l => if s.born (.sendFrame e) then some { s with send := s.send.set e l } else none
      | none => none
    | .pipe e a =>
      if (if a.isSend then s.send else s.process).get e = .body then s.pipeStep e a else none
    | .receive st a =>
      if s.born (.receivePacket st) && a.isThread then s.receiveStep st a else none
    | .stats a =>
      if s.born .encodeStats then
        match EncodeStats.step s.shutdownRequested s.server.frameIndex s.stats a with
        | some t => some { s with stats := t }
        | none => none
      else none
    | .control a =>
      if (s.websocket .cameraControl).running then
        match Server.step s.server (.control a) with
        | some server => some { s with server := server }
        | none => none
      else none
    | .opened id position hdl =>
      if (s.websocket id).running then
        some (s.setWebsocket id ((s.websocket id).opened position hdl))
      else none
    | .closed id hdl =>
      if (s.websocket id).running then some (s.setWebsocket id ((s.websocket id).closed hdl))
      else none

end Program

end Ngp
