import NgpEncodeServer.Base.Exceptions
import Mathlib.Data.Nat.Notation

/-!
# `AVCodecContextManager`

The manager of one H.264 encoder: its configuration `m_info`, the libavcodec context `m_ctx` and
the flag `m_opened`.  libavcodec itself is outside the repository, so what `codec_ctx_init` gets
from it is an argument, `InitOutcome`.  Every method returns the manager it leaves behind also when
it throws.
-/

namespace Ngp

/-- The pixel formats the server uses. -/
inductive AVPixelFormat where
  | yuv420p
  | rgb24
  | gray8
  deriving DecidableEq, Repr

/-- `CodecInitInfo`: the configuration data for the encoder, without `codec_id` and
`keyframe_interval`, which `codec_ctx_init` reads too and which nobody changes. -/
structure CodecInitInfo where
  pixFmt : AVPixelFormat
  x264EncodePreset : String
  x264EncodeTune : String
  width : UInt32
  height : UInt32
  bitRate : UInt32
  fps : UInt32
  deriving DecidableEq, Repr

/-- The part of an `AVCodecContext` that `codec_ctx_init` sets, with the options handed to
`avcodec_open2` and whether that call succeeded.  Its `width` and `height` are `int`; a size of
`2 ^ 31` or more becomes negative there, and `avcodec_open2` does not open it. -/
structure AVCodecContext where
  bitRate : UInt32
  width : UInt32
  height : UInt32
  timeBase : ℕ × UInt32
  pixFmt : AVPixelFormat
  preset : String
  tune : String
  isOpen : Bool
  deriving DecidableEq, Repr

/-- What libavcodec answers to one `codec_ctx_init`. -/
inductive InitOutcome where
  /-- `avcodec_find_encoder` returns null. -/
  | noEncoder
  /-- `avcodec_alloc_context3` returns null. -/
  | noContext
  /-- `avcodec_open2` fails; the argument is what `averror_explain` makes of its error. -/
  | openFails (explanation : String)
  /-- `avcodec_open2` succeeds. -/
  | opens
  deriving DecidableEq, Repr

/-- The manager of one encoder. -/
structure AVCodecContextManager where
  /-- `m_info`. -/
  info : CodecInitInfo
  /-- `m_ctx`; a freed or never allocated context is `none`. -/
  ctx : Option AVCodecContext
  /-- `m_opened`. -/
  opened : Bool
  deriving DecidableEq, Repr

/-- The context that `codec_ctx_init` fills in from the configuration. -/
def CodecInitInfo.context (info : CodecInitInfo) (isOpen : Bool) : AVCodecContext where
  bitRate := info.bitRate
  width := info.width
  height := info.height
  timeBase := (1, info.fps)
  pixFmt := info.pixFmt
  preset := info.x264EncodePreset
  tune := info.x264EncodeTune
  isOpen := isOpen

/-- The configuration that `main` builds from the default values of its flags. -/
def defaultInitInfo : CodecInitInfo where
  pixFmt := .yuv420p
  x264EncodePreset := "ultrafast"
  x264EncodeTune := "stillimage,zerolatency"
  width := 1280
  height := 720
  bitRate := 400000
  fps := 30

namespace AVCodecContextManager

/-- `codec_ctx_init`: initializes or reinitializes the context. The old context is freed before
anything that can fail, and `m_opened` is not cleared when it is. -/
def codecCtxInit (m : AVCodecContextManager) (outcome : InitOutcome) :
    AVCodecContextManager × Except Exn Unit :=
  let freed := if m.opened then none else m.ctx
  match outcome with
  | .noEncoder =>
    ({ m with ctx := freed }, .error (.runtimeError "Failed to find encoder."))
  | .noContext =>
    ({ m with ctx := none }, .error (.runtimeError "Failed to allocate codec context."))
  | .openFails explanation =>
    ({ m with ctx := some (m.info.context false) },
      .error (.runtimeError ("Failed to open codec: " ++ explanation)))
  | .opens => ({ m with ctx := some (m.info.context true), opened := true }, .ok ())

/-- `change_resolution`: updates `m_info` and reinitializes the encoder. -/
def changeResolution (m : AVCodecContextManager) (width height : UInt32) (outcome : InitOutcome) :
    AVCodecContextManager × Except Exn Unit :=
  codecCtxInit { m with info := { m.info with width := width, height := height } } outcome

/-- The constructor. -/
def new (info : CodecInitInfo) (outcome : InitOutcome) : AVCodecContextManager × Except Exn Unit :=
  codecCtxInit { info := info, ctx := none, opened := false } outcome

/-- `get_codec_info`: the copy of `m_info` that the provider exposes. -/
def getCodecInfo (m : AVCodecContextManager) : CodecInitInfo := m.info

/-- `codec_ctx_init` never touches the configuration. -/
@[simp] theorem info_codecCtxInit (m : AVCodecContextManager) (outcome : InitOutcome) :
    (m.codecCtxInit outcome).1.info = m.info := by
  cases outcome <;> rfl

/-- `change_resolution` stores the requested size whatever happens afterwards. -/
@[simp] theorem info_changeResolution (m : AVCodecContextManager) (w h : UInt32)
    (outcome : InitOutcome) :
    (m.changeResolution w h outcome).1.info = { m.info with width := w, height := h } :=
  info_codecCtxInit _ _

/-- `codec_ctx_init` returns normally exactly when the encoder opens. -/
theorem codecCtxInit_eq_ok_iff {m : AVCodecContextManager} {outcome : InitOutcome} :
    (m.codecCtxInit outcome).2 = .ok () ↔ outcome = .opens := by
  cases outcome <;> simp [codecCtxInit]

/-- After a failed `codec_ctx_init` of an opened manager no encoder is open. -/
theorem ctx_codecCtxInit_of_ne_opens {m : AVCodecContextManager} {outcome : InitOutcome}
    (hopened : m.opened = true) (h : outcome ≠ .opens) :
    ∀ c, (m.codecCtxInit outcome).1.ctx = some c → c.isOpen = false := by
  cases outcome with
  | noEncoder => simp [codecCtxInit, hopened]
  | noContext => simp [codecCtxInit]
  | openFails explanation => simp [codecCtxInit, CodecInitInfo.context]
  | opens => exact absurd rfl h

end AVCodecContextManager

end Ngp
