import NgpEncodeServer.Base.Exceptions
import Mathlib.Data.Nat.Notation
import Mathlib.Data.List.Basic

/-!
# `WebSocketServer` and `PacketStreamServer`

The websocket server that streams the packets of one encoder.  `sendToAll` goes over the
connections in the order of the set `m_connections` and calls the throwing overload of
`websocketpp`'s `send` for each; nothing catches its exception, so the connections behind the first
one that fails get nothing.

The connection handles are a type variable.  The set is ordered by the addresses of the control
blocks, which the program does not choose: a new connection may come at any position.

The handlers change `m_connections` on the thread of the server, and `send_to_all` goes over it on
another one, without a lock.  Here a handler and a broadcast are one step each, so that the model
covers the runs in which they do not overlap.
-/

namespace Ngp

/-- The part of an `AVPacket` that the server reads.  A packet that an encoder gives out has
data. -/
structure AVPacket where
  /-- `data`, of the length `size`. -/
  data : List UInt8
  flags : Int32
  nonempty : data ≠ [] := by decide
  deriving DecidableEq, Repr

/-- The packet contains a key frame. -/
def AV_PKT_FLAG_KEY : Int32 := 1

/-- `pkt->data[0] = pkt->flags == AV_PKT_FLAG_KEY ? 0 : 1`. -/
def AVPacket.marked (pkt : AVPacket) : AVPacket :=
  { pkt with
    data := pkt.data.set 0 (if pkt.flags = AV_PKT_FLAG_KEY then 0 else 1)
    nonempty := by simpa using pkt.nonempty }

/-- A websocket server with connection handles `κ`.  The last field is a history variable. -/
structure WebSocketServer (κ : Type*) where
  /-- `m_server_name`. -/
  serverName : String
  /-- `m_running`. -/
  running : Bool
  /-- `m_connections`, in the order of the set. -/
  connections : List κ
  /-- No handle is in the set twice. -/
  nodup : connections.Nodup
  /-- The messages handed to the connections, in order. -/
  sent : List (κ × List UInt8)

namespace WebSocketServer

variable {κ : Type*}

/-- A server after `start`. -/
def start (serverName : String) : WebSocketServer κ where
  serverName := serverName
  running := true
  connections := []
  nodup := List.nodup_nil
  sent := []

/-- The loop of `send_to_all`, with what the exception of `send` says for each connection on which
it fails: the messages sent, and how the loop ends. -/
def sendEach (fails : κ → Option String) (data : List UInt8) :
    List κ → List (κ × List UInt8) × Except Exn Unit
  | [] => ([], .ok ())
  | it :: rest =>
    match fails it with
    | some what => ([], .error (.websocketpp what))
    | none =>
      let r := sendEach fails data rest
      ((it, data) :: r.1, r.2)

/-- `send_to_all`. -/
def sendToAll (s : WebSocketServer κ) (fails : κ → Option String) (data : List UInt8) :
    WebSocketServer κ × Except Exn Unit :=
  if s.running then
    let r := sendEach fails data s.connections
    ({ s with sent := s.sent ++ r.1 }, r.2)
  else (s, .error (.runtimeError (s.serverName ++ " websocket server is not running.")))

/-- `PacketStreamServer::consume_packet`. -/
def consumePacket (s : WebSocketServer κ) (fails : κ → Option String) (pkt : AVPacket) :
    WebSocketServer κ × Except Exn Unit :=
  s.sendToAll fails pkt.marked.data

variable [DecidableEq κ]

/-- The open handler, which inserts the new handle at its place in the set. -/
def opened (s : WebSocketServer κ) (position : ℕ) (hdl : κ) : WebSocketServer κ :=
  if hmem : hdl ∈ s.connections then s
  else
    { s with
      connections := s.connections.take position ++ hdl :: s.connections.drop position
      nodup := by
        rw [List.perm_middle.nodup_iff, List.take_append_drop, List.nodup_cons]
        exact ⟨hmem, s.nodup⟩ }

/-- The close handler. -/
def closed (s : WebSocketServer κ) (hdl : κ) : WebSocketServer κ :=
  { s with connections := s.connections.erase hdl, nodup := s.nodup.erase hdl }

@[simp] theorem running_opened (s : WebSocketServer κ) (position : ℕ) (hdl : κ) :
    (s.opened position hdl).running = s.running := by
  unfold opened
  split <;> rfl

@[simp] theorem running_closed (s : WebSocketServer κ) (hdl : κ) :
    (s.closed hdl).running = s.running := rfl

/-! ### Start and stop -/

omit [DecidableEq κ]

/-- A server after its constructor. -/
def constructed (serverName : String) : WebSocketServer κ where
  serverName := serverName
  running := false
  connections := []
  nodup := List.nodup_nil
  sent := []

/-- The method `start`, with the text of the exception of `listen` or `start_accept` if one
throws. -/
def startOn (s : WebSocketServer κ) (listen : Option String) :
    WebSocketServer κ × Except Exn Unit :=
  if s.running then
    (s, .error (.runtimeError (s.serverName ++ " websocket server is already running.")))
  else
    match listen with
    | some what => (s, .error (.websocketpp what))
    | none => ({ s with running := true }, .ok ())

/-- The method `stop`, with what the exception of `close` says for each connection on which it
fails.  The `join` in it returns when every connection has been closed. -/
def stop (s : WebSocketServer κ) (fails : κ → Option String) :
    WebSocketServer κ × Except Exn Unit :=
  if s.running then
    match s.connections.findSome? fails with
    | some what => (s, .error (.websocketpp what))
    | none => ({ s with running := false, connections := [], nodup := List.nodup_nil }, .ok ())
  else (s, .error (.runtimeError (s.serverName ++ " websocket server is not running.")))

/-- A server that `stop` stops was running, and is left without connections. -/
theorem stop_eq_ok {s w : WebSocketServer κ} {fails : κ → Option String}
    (h : s.stop fails = (w, .ok ())) :
    s.running = true ∧
      w = { s with running := false, connections := [], nodup := List.nodup_nil } := by
  unfold stop at h
  split at h
  · rename_i hrunning
    split at h
    · cases h
    · exact ⟨hrunning, (Prod.mk.inj h).1.symm⟩
  · cases h

/-- A constructed server that starts is what `start` describes. -/
theorem startOn_constructed (serverName : String) :
    (constructed serverName : WebSocketServer κ).startOn none = (start serverName, .ok ()) := rfl

/-! ### Who gets the message -/

variable {fails : κ → Option String} {data : List UInt8} {its : List κ} {s : WebSocketServer κ}

/-- The loop returns normally exactly if `send` fails on no connection. -/
theorem sendEach_snd_eq_ok_iff :
    (sendEach fails data its).2 = .ok () ↔ ∀ it ∈ its, fails it = none := by
  induction its with
  | nil => simp [sendEach]
  | cons it rest ih =>
    cases hfails : fails it with
    | none => simp [sendEach, hfails, ih]
    | some what => simp [sendEach, hfails]

/-- The message goes to the connections before the first one on which `send` fails. -/
theorem sendEach_fst :
    (sendEach fails data its).1 =
      (its.takeWhile fun it => fails it == none).map fun it => (it, data) := by
  induction its with
  | nil => rfl
  | cons it rest ih =>
    cases hfails : fails it with
    | none => simp [sendEach, hfails, ih]
    | some what => simp [sendEach, hfails]

/-- `send_to_all` only appends to the messages sent. -/
theorem sendToAll_of_running (h : s.running = true) :
    s.sendToAll fails data =
      ({ s with sent := s.sent ++ (sendEach fails data s.connections).1 },
        (sendEach fails data s.connections).2) := by
  simp [sendToAll, h]

/-- `send_to_all` keeps the connections and the server running. -/
theorem sendToAll_fst :
    (s.sendToAll fails data).1.connections = s.connections ∧
      (s.sendToAll fails data).1.running = s.running := by
  unfold sendToAll
  split <;> exact ⟨rfl, rfl⟩

end WebSocketServer

end Ngp
