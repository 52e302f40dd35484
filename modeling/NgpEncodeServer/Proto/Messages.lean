/-!
# The protocol messages

The messages of `nes.proto`.  A `float` is kept as its 32-bit pattern and a `bytes` field as a list
of bytes; an absent field has its proto3 default, which parsing fills in.
-/

namespace Ngp.nesproto

/-- `nesproto.Camera`. -/
structure Camera where
  isLeft : Bool := false
  width : UInt32 := 0
  height : UInt32 := 0
  matrix : List UInt32 := []
  deriving DecidableEq, Repr

/-- `nesproto.FrameRequest`. -/
structure FrameRequest where
  index : UInt64 := 0
  camera : Camera := {}
  isLeft : Bool := false
  deriving DecidableEq, Repr

/-- `nesproto.RenderedFrame`: the reply of a renderer. -/
structure RenderedFrame where
  index : UInt64 := 0
  camera : Camera := {}
  isLeft : Bool := false
  /-- RGB pixels of the scene. -/
  frame : List UInt8 := []
  /-- Gray pixels of the depth picture. -/
  depth : List UInt8 := []
  deriving DecidableEq, Repr

end Ngp.nesproto
