import Mathlib.Data.List.TakeWhile
import NgpEncodeServer.Foundation.Machine
import NgpEncodeServer.Encode.Pipeline
import NgpEncodeServer.Base.PacketStream

/-!
# `receive_packet_thread`

The thread that takes the packets of one encoder and gives them to its `PacketStreamServer`, with
`receive_packet_handler` inlined.  A step is one test of a loop, one call of `receive_packet` or one
call of `consume_packet` by the thread, or one handler of the websocket server, which opens and
closes connections on its own thread.

`main` starts the server before the thread and stops it after the thread has been joined, so the
server is running in every state.  A broadcast is one step: a handler runs before it or after it,
although nothing in the code keeps the two apart.
-/

namespace Ngp

/-- Where `receive_packet_thread` is. -/
inductive ReceivePoint where
  /-- Before the test of the loop in `receive_packet_thread`. -/
  | loopHead
  /-- Before the test of the loop in `receive_packet_handler`. -/
  | handlerHead
  /-- Before `ctxmgr->receive_packet(pkt)`. -/
  | receiving
  /-- Before `mctx->consume_packet(pkt)`. -/
  | consuming (pkt : AVPacket)
  /-- The thread function has returned. -/
  | exited
  /-- Left by an exception that no handler of the thread catches. -/
  | raised (e : Exn)
  deriving DecidableEq, Repr

/-- The thread with the server it streams to and the flag that it shares with all threads. -/
structure ReceivePacket (κ : Type*) where
  /-- `shutdown_requested`. -/
  shutdownRequested : Bool
  /-- `mctx`. -/
  server : WebSocketServer κ
  point : ReceivePoint

/-- What happens next. -/
inductive ReceivePacketAction (κ : Type*) where
  /-- The thread tests its loop and allocates the packet. -/
  | enter (allocated : Bool)
  /-- The thread tests the loop of the handler. -/
  | poll
  /-- `avcodec_receive_packet` returns. -/
  | receive (ret : ℤ) (pkt : AVPacket)
  /-- `consume_packet` runs, with what `send` throws for each connection on which it fails. -/
  | consume (fails : κ → Option String)
  | opened (position : ℕ) (hdl : κ)
  | closed (hdl : κ)
  /-- Another thread sets the flag. -/
  | shutdown

namespace ReceivePacket

variable {κ : Type*} [DecidableEq κ]

/-- The thread at its start, with a server that `main` has started. -/
def init (serverName : String) : ReceivePacket κ where
  shutdownRequested := false
  server := .start serverName
  point := .loopHead

/-- `receive_packet_handler` returns -1, for which the thread requests the shutdown. -/
def handlerFails (s : ReceivePacket κ) : ReceivePacket κ :=
  { s with shutdownRequested := true, point := .loopHead }

/-- One step. -/
def step : Machine (ReceivePacket κ) (ReceivePacketAction κ) := fun s a =>
  match a, s.point with
  | .enter allocated, .loopHead =>
    if s.shutdownRequested then some { s with point := .exited }
    else if allocated then some { s with point := .handlerHead }
    -- the packet is allocated outside the `try`
    else some { s with point := .raised (.runtimeError "Failed to allocate AVPacket.") }
  | .poll, .handlerHead =>
    if s.shutdownRequested then some s.handlerFails else some { s with point := .receiving }
  | .receive ret pkt, .receiving =>
    if ret = AVERROR_EAGAIN then some { s with point := .handlerHead }
    else if ret = 0 then some { s with point := .consuming pkt }
    -- `AVERROR(EINVAL)` and the other errors fall through to `AVERROR_EOF`
    else some s.handlerFails
  | .consume fails, .consuming pkt =>
    let r := s.server.consumePacket fails pkt
    match r.2 with
    | .ok () => some { s with server := r.1, point := .loopHead }
    | .error .lockTimeout => some { s with server := r.1, point := .exited }
    | .error e => some { s with server := r.1, point := .raised e }
  | .opened position hdl, _ => some { s with server := s.server.opened position hdl }
  | .closed hdl, _ => some { s with server := s.server.closed hdl }
  | .shutdown, _ => some { s with shutdownRequested := true }
  | _, _ => none

variable {s s' : ReceivePacket κ} {a : ReceivePacketAction κ}

/-- No step stops the server. -/
theorem running_step (h : step s a = some s') : s'.server.running = s.server.running := by
  unfold step at h
  split at h
  · split_ifs at h <;> exact Option.some.inj h ▸ rfl
  · split_ifs at h <;> exact Option.some.inj h ▸ rfl
  · split_ifs at h <;> exact Option.some.inj h ▸ rfl
  · dsimp only at h
    split at h <;> exact Option.some.inj h ▸ WebSocketServer.sendToAll_fst.2
  · exact Option.some.inj h ▸ s.server.running_opened _ _
  · exact Option.some.inj h ▸ s.server.running_closed _
  · exact Option.some.inj h ▸ rfl
  · cases h

/-- The server is running in every state reached. -/
theorem running_run {serverName : String} {as : List (ReceivePacketAction κ)}
    (hrun : step.run (init serverName) as = some s) : s.server.running = true := by
  refine Machine.run_invariant (I := fun s => s.server.running = true) rfl ?_ hrun
  intro s a s' hrunning hstep
  rw [running_step hstep]
  exact hrunning

/-- The packet has gone to every connection on which `send` does not fail, and the thread goes on
with its loop. -/
structure Isolates (s : ReceivePacket κ) (fails : κ → Option String) (pkt : AVPacket)
    (s' : ReceivePacket κ) : Prop where
  sent : ∃ new, s'.server.sent = s.server.sent ++ new ∧
    ∀ c ∈ s.server.connections, fails c = none → (c, pkt.marked.data) ∈ new
  continues : s'.point = .loopHead

/-- What `consume_packet` does in a running server: the step of the thread, with the messages sent
and the point reached. -/
theorem step_consume {fails : κ → Option String} {pkt : AVPacket}
    (hrunning : s.server.running = true) (hat : s.point = .consuming pkt) :
    ∃ s', step s (.consume fails) = some s' ∧
      s'.server.sent = s.server.sent ++
        (WebSocketServer.sendEach fails pkt.marked.data s.server.connections).1 ∧
      (s'.point = .loopHead ↔
        (WebSocketServer.sendEach fails pkt.marked.data s.server.connections).2 = .ok ()) := by
  have hconsume : s.server.sendToAll fails pkt.marked.data = _ :=
    WebSocketServer.sendToAll_of_running hrunning
  unfold step
  simp only [hat, WebSocketServer.consumePacket, hconsume]
  split
  · rename_i hok
    exact ⟨_, rfl, rfl, iff_of_true rfl hok⟩
  · rename_i hthrow
    exact ⟨_, rfl, rfl, by simp [hthrow]⟩
  · rename_i hthrow
    exact ⟨_, rfl, rfl, by simp [hthrow]⟩

/-- For every packet, every set of connections that a run of the thread and of the handlers of the
server can reach, and every set of failing connections: the packet goes to all other connections and
the thread goes on with its loop, if and only if no connection fails. -/
theorem consume_isolates_iff {serverName : String} {as : List (ReceivePacketAction κ)}
    (hrun : step.run (init serverName) as = some s) {pkt : AVPacket}
    (hat : s.point = .consuming pkt) (fails : κ → Option String) :
    ∃ s', step s (.consume fails) = some s' ∧
      (Isolates s fails pkt s' ↔ ∀ c ∈ s.server.connections, fails c = none) := by
  obtain ⟨s', hstep, hsent, hpoint⟩ := @step_consume _ _ _ fails _ (running_run hrun) hat
  refine ⟨s', hstep, ?_⟩
  constructor
  · rintro ⟨-, hcontinues⟩
    exact WebSocketServer.sendEach_snd_eq_ok_iff.mp (hpoint.mp hcontinues)
  · intro hnone
    refine ⟨⟨_, hsent, fun c hc _ => ?_⟩,
      hpoint.mpr (WebSocketServer.sendEach_snd_eq_ok_iff.mpr hnone)⟩
    have hall : (s.server.connections.takeWhile fun it => fails it == none) =
        s.server.connections := by
      rw [List.takeWhile_eq_self_iff]
      intro it hit
      simp [hnone it hit]
    rw [WebSocketServer.sendEach_fst, hall]
    exact List.mem_map_of_mem hc

/-- The start of the thread up to its first packet, with two connections. -/
def firstPacket : List (ReceivePacketAction ℕ) :=
  [.opened 0 0, .opened 1 1, .enter true, .poll, .receive 0 { data := [0, 0, 1], flags := 1 }]

/-- Two connections that both work get the first packet, and the thread goes on. -/
theorem consume_isolates_twoViewers :
    ∃ s, step.run (init "server_packet_stream_scene_left") firstPacket = some s ∧
      ∃ s', step s (.consume fun _ => none) = some s' ∧
        Isolates s (fun _ => none) { data := [0, 0, 1], flags := 1 } s' := by
  refine ⟨_, rfl, ?_⟩
  obtain ⟨s', hstep, hiff⟩ := @consume_isolates_iff _ _ _ "server_packet_stream_scene_left"
    firstPacket rfl _ rfl fun _ => none
  exact ⟨s', hstep, hiff.mpr fun _ _ => rfl⟩

/-- What `send` answers when the first of the two connections is closing. -/
def firstIsClosing (hdl : ℕ) : Option String := if hdl = 0 then some "invalid state" else none

/-- The first of two connections is closing: the second gets nothing, and the exception leaves the
thread. -/
theorem closingViewer_ends_thread :
    ∃ s, step.run (init "server_packet_stream_scene_left") firstPacket = some s ∧
      ∃ s', step s (.consume firstIsClosing) = some s' ∧
        1 ∈ s.server.connections ∧ firstIsClosing 1 = none ∧ s'.server.sent = s.server.sent ∧
        s'.point = .raised (.websocketpp "invalid state") :=
  ⟨_, rfl, _, rfl, by decide, rfl, rfl, rfl⟩

end ReceivePacket

end Ngp
