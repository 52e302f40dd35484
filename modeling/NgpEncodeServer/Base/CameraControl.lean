import NgpEncodeServer.Base.CameraManager

/-!
# `CameraControlServer`

The websocket server that receives `nesproto.Camera` messages.  Its handler parses the payload and
calls `set_camera` for the eye named in the message; nothing in it catches what `set_camera` throws,
so an encoder that does not open takes the exception into the run loop of the websocket library.

Protobuf is outside the repository: the parser is an argument.  What libavcodec answers to the two
reinitializations a message may cause is an argument as in `CameraManager.setCamera`.
-/

namespace Ngp

open nesproto (Camera)

/-- `CameraControlServer`. -/
structure CameraControlServer where
  /-- `m_camera_manager`. -/
  cameraManager : CameraManager
  /-- `m_message_count`. -/
  messageCount : UInt64
  /-- The lines the handler has written to the log, in order. -/
  tlog : List String
  deriving DecidableEq, Repr

/-- Interval of logging the receive event. -/
def kReceivedLoggingInterval : UInt64 := 1000

namespace CameraControlServer

/-- The constructor. -/
def new (cameraManager : CameraManager) : CameraControlServer where
  cameraManager := cameraManager
  messageCount := 0
  tlog := []

/-- `m_message_count++`. -/
def count (s : CameraControlServer) : CameraControlServer :=
  { s with messageCount := s.messageCount + 1 }

/-- A line for the log. -/
def write (s : CameraControlServer) (line : String) : CameraControlServer :=
  { s with tlog := s.tlog ++ [line] }

/-- `message_handler`. An exception of `set_camera` leaves it before the message is counted. -/
def messageHandler (parse : List UInt8 → Option Camera) (s : CameraControlServer)
    (payload : List UInt8) (scene depth : InitOutcome) : CameraControlServer × Except Exn Unit :=
  match parse payload with
  | some cam =>
    let r :=
      if cam.isLeft then s.cameraManager.setCameraLeft cam scene depth
      else s.cameraManager.setCameraRight cam scene depth
    let s := { s with cameraManager := r.1 }
    match r.2 with
    | .error e => (s, .error e)
    | .ok () =>
      let s :=
        if s.messageCount % kReceivedLoggingInterval = 0 then
          s.write "CameraControlServer: Receiving camera matrix..."
        else s
      (s.count, .ok ())
  | none => ((s.write "CameraControlServer: Failed to set camera matrix.").count, .ok ())

variable {parse : List UInt8 → Option Camera} {s : CameraControlServer} {payload : List UInt8}
  {scene depth : InitOutcome}

/-- A payload that does not parse is counted and changes no camera. -/
theorem messageHandler_of_not_parsed (h : parse payload = none) :
    s.messageHandler parse payload scene depth =
      ((s.write "CameraControlServer: Failed to set camera matrix.").count, .ok ()) := by
  simp [messageHandler, h]

/-- With a payload that parses the handler leaves the camera manager that `set_camera` leaves, and
throws what `set_camera` throws. -/
theorem messageHandler_of_parsed {cam : Camera} (h : parse payload = some cam) :
    (s.messageHandler parse payload scene depth).1.cameraManager =
        (CameraManager.setCamera cam.isLeft s.cameraManager cam scene depth).1 ∧
      (s.messageHandler parse payload scene depth).2 =
        (CameraManager.setCamera cam.isLeft s.cameraManager cam scene depth).2 := by
  have hcall : (if cam.isLeft then s.cameraManager.setCameraLeft cam scene depth
      else s.cameraManager.setCameraRight cam scene depth) =
        CameraManager.setCamera cam.isLeft s.cameraManager cam scene depth := by
    split
    · rename_i hleft
      rw [hleft]
      rfl
    · rename_i hright
      rw [Bool.eq_false_iff.mpr hright]
      rfl
  simp only [messageHandler, h, hcall]
  split
  · rename_i hthrow
    exact ⟨rfl, hthrow.symm⟩
  · rename_i hok
    refine ⟨?_, hok.symm⟩
    split <;> rfl

/-- If the message changes the resolution of its eye, both encoders open at the new one. -/
def EncodersOpen (parse : List UInt8 → Option Camera) (s : CameraControlServer)
    (payload : List UInt8) (scene depth : InitOutcome) : Prop :=
  ∀ cam, parse payload = some cam → s.cameraManager.resolutionChanged cam.isLeft cam = true →
    scene = .opens ∧ depth = .opens

/-- For every payload, in every state of the camera manager and its codecs and whatever libavcodec
answers: the handler returns normally if and only if the payload does not parse, or its camera has
the stored resolution of its eye, or both encoders open at the new resolution. -/
theorem messageHandler_returns_iff (parse : List UInt8 → Option Camera) (s : CameraControlServer)
    (payload : List UInt8) (scene depth : InitOutcome) :
    (s.messageHandler parse payload scene depth).2 = .ok () ↔
      s.EncodersOpen parse payload scene depth := by
  cases hparse : parse payload with
  | none =>
    rw [messageHandler_of_not_parsed hparse]
    simp [EncodersOpen, hparse]
  | some cam =>
    rw [(messageHandler_of_parsed hparse).2, CameraManager.setCamera_eq_ok_iff]
    simp [EncodersOpen, hparse]

/-- With an encoder that does not open for a size of zero, every camera that has a dimension of at
most one throws, unless that very size is stored: rounding to an even size makes zero of one. -/
theorem messageHandler_throws_of_small {cam : Camera} (hparse : parse payload = some cam)
    (hchanged : s.cameraManager.resolutionChanged cam.isLeft cam = true)
    (hsmall : cam.width ≤ 1 ∨ cam.height ≤ 1)
    (hzero : (CameraManager.evenResolution cam).width = 0 ∨
      (CameraManager.evenResolution cam).height = 0 → scene ≠ .opens) :
    (s.messageHandler parse payload scene depth).2 ≠ .ok () := by
  have hround : ∀ size : UInt32, size ≤ 1 → divisibleByTwo size = 0 := by
    intro size hsize
    unfold divisibleByTwo
    split <;> grind
  rw [(messageHandler_of_parsed hparse).2]
  intro hok
  refine hzero ?_ (CameraManager.setCamera_eq_ok_iff.mp hok hchanged).1
  rcases hsmall with hw | hh
  · exact Or.inl (hround _ hw)
  · exact Or.inr (hround _ hh)

/-- What proto3 makes of the payload without any field. -/
def parseEmpty (payload : List UInt8) : Option Camera := if payload = [] then some {} else none

/-- The empty payload is a camera of size zero, for which the encoder does not open: the first such
message takes the exception out of the handler. -/
theorem emptyMessage_escapes :
    ((new (CameraManager.ofFlags defaultInitInfo)).messageHandler parseEmpty []
        (.openFails "Invalid argument") .opens).2 =
      .error (.runtimeError "Failed to open codec: Invalid argument") :=
  rfl

end CameraControlServer

end Ngp
