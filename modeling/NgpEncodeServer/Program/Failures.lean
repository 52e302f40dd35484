import NgpEncodeServer.Program.Progress
import NgpEncodeServer.Program.Streams
import NgpEncodeServer.Server.Accounting

/-!
# The exceptions that end the program

The threads catch `LockTimeout` and some of them `std::runtime_error`; every other exception that
leaves a thread function, or destroys a running server in `main`, ends the process.  `isFatal` lists
the answers from outside for which a step of the program throws such an exception.  `alive_iff` says
that for these steps the list is complete: as long as none of the answers comes, no timeout, lost
connection, unparsable reply or error code of an encoder and no interleaving of the threads leads to
such an exception, and the first of them does.  An error code of `avcodec_receive_packet` is not on
the list: it requests the shutdown, and `main` returns as it does after the signal.

The process can also end where the model has no step: in an access beyond the pictures of a reply
(`Server.frame_contained_iff` says when there is none), for want of a thread, for want of memory
other than that of a reply or a packet, as in `to_avframe`, and when a handler changes what a
broadcast or a copy of a camera goes over.
-/

namespace Ngp

/-- `sws_getContext` finds no context. -/
def PipeAction.isFatal : PipeAction → Bool
  | .convert swsScene swsDepth => !swsScene || !swsDepth
  | _ => false

/-- The announced size of a reply cannot be allocated, for the buffer or for the copy, there is no
context for a conversion, or an encoder does not open. -/
def Action.isFatal : Action → Bool
  | .client _ (.receive .badAlloc) => true
  | .pipe _ b => b.isFatal
  | .control (.changeScene outcome) | .control (.changeDepth outcome) => outcome ≠ .opens
  | _ => false

/-- The call fails for one of the connections. -/
def WebSocketServer.failsFor {κ : Type*} (s : WebSocketServer κ) (fails : κ → Option String) :
    Bool :=
  s.connections.any fun c => (fails c).isSome

/-- The address has no port. -/
def portMissing (renderer : List UInt8) : Bool :=
  match parseRenderer renderer with
  | .ok _ => false
  | .error _ => true

/-! ### The parts -/

namespace Server

variable {s s' : Server} {a : Action}

end Server

namespace WebSocketServer

variable {κ : Type*} {s : WebSocketServer κ} {fails : κ → Option String}

end WebSocketServer

namespace Program

variable {κ : Type*} [DecidableEq κ] {s s' : Program κ} {a : ProgramAction κ}

/-- An answer from outside for which the step throws an exception out of a thread function or of
the `try` of `main`. -/
def isFatal (s : Program κ) : ProgramAction κ → Bool
  | .main (.start listen) => listen.isSome
  | .main (.stop fails) =>
    match s.main with
    | .stopping (id :: _) => (s.websocket id).failsFor fails
    | _ => false
  | .manage i .parse =>
    match s.manages[i]? with
    | some t => portMissing t.renderer
    | none => false
  | .client i b => (Action.client i b).isFatal
  | .pipe e b => (Action.pipe e b).isFatal
  | .receive _ (.enter allocated) => !allocated && !s.shutdownRequested
  | .receive st (.consume fails) => (s.websocket (.packetStream st)).failsFor fails
  | .control b => (Action.control b).isFatal
  | _ => false

end Program

end Ngp
