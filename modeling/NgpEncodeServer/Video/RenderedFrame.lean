import NgpEncodeServer.Proto.Messages
import NgpEncodeServer.Video.CodecContext

/-!
# `FrameManager` and `RenderedFrame`

A `FrameManager` stands for one picture: the properties it was given (`FrameContext`) and, when it
borrows its pixels, the buffer behind `data[0]`.  A `RenderedFrame` is a parsed reply together with
its four pictures: the two source pictures borrow the bytes of the reply under the size the reply
announces, the two converted ones take their size from the codecs the constructor is given.

The white pixels that the text overlay draws into the borrowed scene picture are the subject of
`RenderText`, and what `sws_scale` writes into the converted pictures is in `ConvertedFrame`; here a
frame keeps the bytes it was received with, since no thread branches on them.
-/

namespace Ngp

/-- `FrameContext`: the properties of a frame. -/
structure FrameContext where
  width : UInt32
  height : UInt32
  pixFmt : AVPixelFormat
  deriving DecidableEq, Repr

/-- The `FrameContext` constructor that reads a `CodecInfoProvider`. -/
def FrameContext.ofCodecInfo (info : CodecInitInfo) : FrameContext where
  width := info.width
  height := info.height
  pixFmt := info.pixFmt

/-- `FrameManager`, with the bytes it borrows. -/
structure FrameManager where
  /-- `m_context`. -/
  context : FrameContext
  /-- The buffer given to the constructor; `none` is a null pointer, for which the manager has a
  buffer of its own from `av_image_alloc`. -/
  buffer : Option (List UInt8)
  /-- `m_should_free_buffer`. -/
  shouldFreeBuffer : Bool
  deriving DecidableEq, Repr

/-- The constructor. A failing `av_image_alloc` is not noticed: the `std::runtime_error` is built
and dropped. -/
def FrameManager.new (context : FrameContext) (buffer : Option (List UInt8)) : FrameManager where
  context := context
  buffer := buffer
  shouldFreeBuffer := buffer.isNone

/-- `RenderedFrame`. -/
structure RenderedFrame where
  /-- `m_frame_response`. -/
  frameResponse : nesproto.RenderedFrame
  sourceAvframeScene : FrameManager
  convertedAvframeScene : FrameManager
  sourceAvframeDepth : FrameManager
  convertedAvframeDepth : FrameManager
  /-- `m_converted`. -/
  converted : Bool
  /-- History variable: the position of `frameResponse` among the replies parsed so far.  It names
  the received frame and is never read by the program. -/
  receipt : ℕ
  deriving DecidableEq, Repr

namespace RenderedFrame

/-- The constructor, with the copies of the codec configurations that its two calls of
`get_codec_info` return. -/
def new (frame : nesproto.RenderedFrame) (pixFmtScene pixFmtDepth : AVPixelFormat)
    (infoScene infoDepth : CodecInitInfo) (receipt : ℕ) : RenderedFrame where
  frameResponse := frame
  sourceAvframeScene :=
    FrameManager.new ⟨frame.camera.width, frame.camera.height, pixFmtScene⟩ (some frame.frame)
  convertedAvframeScene := FrameManager.new (FrameContext.ofCodecInfo infoScene) none
  sourceAvframeDepth :=
    FrameManager.new ⟨frame.camera.width, frame.camera.height, pixFmtDepth⟩ (some frame.depth)
  convertedAvframeDepth := FrameManager.new (FrameContext.ofCodecInfo infoDepth) none
  converted := false
  receipt := receipt

/-- `index()`. -/
def index (f : RenderedFrame) : UInt64 := f.frameResponse.index

/-- `is_left()`. -/
def isLeft (f : RenderedFrame) : Bool := f.frameResponse.isLeft

/-- What the threads see of `convert_frame` when it stays inside the pictures: an exception or the
flag.  The arguments say whether `sws_getContext` finds a context for the scene and for the depth
picture.  The bytes read and written are in `ProcessEnv.convertFrame`. -/
def convertFrame (f : RenderedFrame) (swsScene swsDepth : Bool) : Except Exn RenderedFrame :=
  if f.converted then .error (.runtimeError "Tried to convert a converted RenderedFrame.")
  else if !swsScene || !swsDepth then .error (.runtimeError "Failed to allocate sws_context.")
  else .ok { f with converted := true }

/-- A conversion that succeeds sets the flag. -/
theorem convertFrame_eq_ok {f f' : RenderedFrame} {swsScene swsDepth : Bool}
    (h : f.convertFrame swsScene swsDepth = .ok f') : f' = { f with converted := true } := by
  unfold convertFrame at h
  split at h
  · cases h
  · split at h
    · cases h
    · exact (Except.ok.inj h).symm

end RenderedFrame

end Ngp
