import NgpEncodeServer.Base.CameraAgreement
import NgpEncodeServer.Foundation.Machine

/-!
# When the encoders are reinitialized

`set_camera` compares the size of the camera as it arrives with the stored size, which is already
rounded to even numbers.  For a camera with even dimensions the test is what its comment says, a
change of the resolution, and after one successful call the camera causes no further
reinitialization.  A camera with an odd dimension never equals a stored one: every call with it
reinitializes both encoders, at the size that they already have.

`setCameraTraced` is `setCamera` together with the calls of `change_resolution` that it makes.
-/

namespace Ngp

open nesproto (Camera)

/-- A call of `change_resolution` on one of the codecs of an eye. -/
inductive ChangeResolution where
  | scene (isLeft : Bool) (width height : UInt32)
  | depth (isLeft : Bool) (width height : UInt32)
  deriving DecidableEq, Repr

namespace ChangeResolution

/-- The call is made on the scene codec. -/
def isScene : ChangeResolution → Bool
  | .scene _ _ _ => true
  | .depth _ _ _ => false

/-- The call is made on the depth codec. -/
def isDepth : ChangeResolution → Bool
  | .scene _ _ _ => false
  | .depth _ _ _ => true

end ChangeResolution

/-- Rounding does not change an even size, and no other. -/
theorem divisibleByTwo_eq_self_iff {size : UInt32} : divisibleByTwo size = size ↔ size % 2 = 0 := by
  constructor
  · intro h
    rw [← h]
    exact divisibleByTwo_mod_two size
  · intro h
    simp [divisibleByTwo, h]

namespace CameraManager

/-- `set_camera_left` and `set_camera_right` with the calls of `change_resolution` that they
make. -/
def setCameraTraced (isLeft : Bool) (m : CameraManager) (camera : Camera)
    (scene depth : InitOutcome) : List ChangeResolution × CameraManager × Except Exn Unit :=
  if m.resolutionChanged isLeft camera then
    let camera := evenResolution camera
    let callScene := ChangeResolution.scene isLeft camera.width camera.height
    let callDepth := ChangeResolution.depth isLeft camera.width camera.height
    let scened := m.changeScene isLeft camera scene
    match scened.2 with
    | .error e => ([callScene], scened.1, .error e)
    | .ok () =>
      let depthed := scened.1.changeDepth isLeft camera depth
      match depthed.2 with
      | .error e => ([callScene, callDepth], depthed.1, .error e)
      | .ok () => ([callScene, callDepth], depthed.1.storeCamera isLeft camera, .ok ())
  else ([], m.storeCamera isLeft camera, .ok ())

/-- The calls of `change_resolution` in a row of calls with the same camera, with what libavcodec
answers in each.  A call that throws ends the row. -/
def repeated (isLeft : Bool) (camera : Camera) :
    CameraManager → List (InitOutcome × InitOutcome) → List ChangeResolution
  | _, [] => []
  | m, (scene, depth) :: outcomes =>
    let r := setCameraTraced isLeft m camera scene depth
    match r.2.2 with
    | .error _ => r.1
    | .ok () => r.1 ++ repeated isLeft camera r.2.1 outcomes

/-- Calls of `set_camera` that return normally. -/
def successful : Machine CameraManager SetCameraCall := fun m c =>
  match c.perform m with
  | (m', .ok ()) => some m'
  | (_, .error _) => none

/-- The encoders of the eye are reinitialized exactly when the effective resolution changes, and at
most once in a row of calls with the same camera. -/
structure ReinitializesOnChange (m : CameraManager) (isLeft : Bool) (camera : Camera) : Prop where
  calls_iff : ∀ scene depth, (setCameraTraced isLeft m camera scene depth).1 ≠ [] ↔
    ((evenResolution camera).width ≠ (m.camera.get isLeft).width ∨
      (evenResolution camera).height ≠ (m.camera.get isLeft).height)
  at_most_once : ∀ outcomes,
    (repeated isLeft camera m outcomes).countP ChangeResolution.isScene ≤ 1 ∧
      (repeated isLeft camera m outcomes).countP ChangeResolution.isDepth ≤ 1

/-- The stored cameras have even dimensions. -/
def StoredEven (m : CameraManager) : Prop :=
  ∀ e, (m.camera.get e).width % 2 = 0 ∧ (m.camera.get e).height % 2 = 0

variable {m m' : CameraManager} {isLeft : Bool} {camera : Camera} {scene depth : InitOutcome}

/-! ### The trace -/

/-- Without the trace the traced call is the call. -/
theorem snd_setCameraTraced :
    (setCameraTraced isLeft m camera scene depth).2 = setCamera isLeft m camera scene depth := by
  unfold setCameraTraced setCamera
  split
  · rcases hscene : m.changeScene isLeft (evenResolution camera) scene with ⟨m₁, ex | ⟨⟩⟩
    · simp only [hscene]
    · rcases hdepth : m₁.changeDepth isLeft (evenResolution camera) depth with ⟨m₂, ex | ⟨⟩⟩
      · simp only [hscene, hdepth]
      · simp only [hscene, hdepth]
  · rfl

/-- When both encoders open, each has been reinitialized once, at the rounded size. -/
theorem fst_setCameraTraced_of_opens (h : m.resolutionChanged isLeft camera = true) :
    (setCameraTraced isLeft m camera .opens .opens).1 =
      [.scene isLeft (evenResolution camera).width (evenResolution camera).height,
        .depth isLeft (evenResolution camera).width (evenResolution camera).height] := by
  simp only [setCameraTraced, h, if_true, changeScene_snd_eq_ok_iff.mpr,
    changeDepth_snd_eq_ok_iff.mpr]

/-- A call reinitializes encoders exactly if its test succeeds. -/
theorem fst_setCameraTraced_ne_nil_iff :
    (setCameraTraced isLeft m camera scene depth).1 ≠ [] ↔
      m.resolutionChanged isLeft camera = true := by
  unfold setCameraTraced
  split
  · rename_i hchanged
    refine iff_of_true ?_ hchanged
    dsimp only
    split
    · simp
    · split <;> simp
  · rename_i hchanged
    exact iff_of_false (by simp) hchanged

/-- One call reinitializes each encoder at most once. -/
theorem countP_fst_setCameraTraced_le :
    (setCameraTraced isLeft m camera scene depth).1.countP ChangeResolution.isScene ≤ 1 ∧
      (setCameraTraced isLeft m camera scene depth).1.countP ChangeResolution.isDepth ≤ 1 := by
  unfold setCameraTraced
  split
  · dsimp only
    split
    · exact ⟨Nat.le_refl 1, Nat.zero_le 1⟩
    · split <;> exact ⟨Nat.le_refl 1, Nat.le_refl 1⟩
  · exact ⟨Nat.zero_le 1, Nat.zero_le 1⟩

/-! ### The stored size -/

/-- A call that returns normally stores the rounded size if its test succeeds, and the size that was
stored already otherwise. -/
theorem camera_get_of_ok (hok : (setCamera isLeft m camera scene depth).2 = .ok ()) :
    (setCamera isLeft m camera scene depth).1.camera.get isLeft =
      if m.resolutionChanged isLeft camera then evenResolution camera else camera := by
  cases hchanged : m.resolutionChanged isLeft camera with
  | false =>
    rw [setCamera_of_not_changed hchanged]
    simp [storeCamera]
  | true =>
    obtain ⟨rfl, rfl⟩ := setCamera_eq_ok_iff.mp hok hchanged
    rw [setCamera_of_opens hchanged]
    simp [storeCamera]

/-- The stored sizes stay even. -/
theorem StoredEven.step {c : SetCameraCall} (h : StoredEven m) (hstep : successful m c = some m') :
    StoredEven m' := by
  unfold successful at hstep
  split at hstep
  · rename_i m₁ hperform
    obtain rfl : m₁ = m' := Option.some.inj hstep
    have hstate : (c.perform m).1 = m₁ := by rw [hperform]
    have hok : (c.perform m).2 = .ok () := by rw [hperform]
    intro e
    by_cases he : e = c.isLeft
    · rw [he, ← hstate]
      unfold SetCameraCall.perform at hok ⊢
      rw [camera_get_of_ok hok]
      split
      · exact ⟨divisibleByTwo_mod_two _, divisibleByTwo_mod_two _⟩
      · rename_i hchanged
        obtain ⟨hw, hh⟩ : (m.camera.get c.isLeft).width = c.camera.width ∧
            (m.camera.get c.isLeft).height = c.camera.height := by
          simpa [resolutionChanged] using hchanged
        rw [← hw, ← hh]
        exact h c.isLeft
    · rw [← hstate, (eyeUnchanged_of_ne he).camera]
      exact h e
  · cases hstep

/-- The stored sizes are even in every state that successful calls reach from even defaults. -/
theorem storedEven_run {codecScene codecDepth : Sided AVCodecContextManager}
    {defaultWidth defaultHeight : UInt32} (hwidth : defaultWidth % 2 = 0)
    (hheight : defaultHeight % 2 = 0) {calls : List SetCameraCall}
    (hrun : successful.run (new codecScene codecDepth defaultWidth defaultHeight) calls = some m) :
    StoredEven m := by
  refine Machine.run_invariant ?_ (fun m c m' h hstep => StoredEven.step h hstep) hrun
  intro e
  cases e <;> exact ⟨hwidth, hheight⟩

/-! ### Even and odd cameras -/

/-- An even camera passes through the rounding. -/
theorem evenResolution_eq_self (hw : camera.width % 2 = 0) (hh : camera.height % 2 = 0) :
    evenResolution camera = camera := by
  unfold evenResolution
  rw [divisibleByTwo_eq_self_iff.mpr hw, divisibleByTwo_eq_self_iff.mpr hh]

/-- A camera with an odd dimension always differs from the stored one. -/
theorem resolutionChanged_of_odd (h : StoredEven m)
    (hodd : ¬(camera.width % 2 = 0 ∧ camera.height % 2 = 0)) :
    m.resolutionChanged isLeft camera = true := by
  by_contra hchanged
  obtain ⟨hw, hh⟩ : (m.camera.get isLeft).width = camera.width ∧
      (m.camera.get isLeft).height = camera.height := by
    simpa [resolutionChanged] using hchanged
  rw [← hw, ← hh] at hodd
  exact hodd (h isLeft)

/-- With the stored size no call of a row reinitializes an encoder. -/
theorem repeated_of_not_changed {outcomes : List (InitOutcome × InitOutcome)}
    (h : m.resolutionChanged isLeft camera = false) : repeated isLeft camera m outcomes = [] := by
  induction outcomes generalizing m with
  | nil => rfl
  | cons o outcomes ih =>
    have hkeep : (m.storeCamera isLeft camera).resolutionChanged isLeft camera = false := by
      simp [resolutionChanged, storeCamera]
    simp [repeated, setCameraTraced, h, ih hkeep]

/-- In a row of calls with an even camera only the first can reinitialize the encoders. -/
theorem repeated_of_even (hw : camera.width % 2 = 0) (hh : camera.height % 2 = 0)
    (scene depth : InitOutcome) (outcomes : List (InitOutcome × InitOutcome)) :
    repeated isLeft camera m ((scene, depth) :: outcomes) =
      (setCameraTraced isLeft m camera scene depth).1 := by
  unfold repeated
  dsimp only
  split
  · rfl
  · rename_i hok
    rw [snd_setCameraTraced] at hok ⊢
    have hstored := camera_get_of_ok hok
    rw [evenResolution_eq_self hw hh, ite_self] at hstored
    rw [repeated_of_not_changed, List.append_nil]
    simp [resolutionChanged, hstored]

/-- Two successful calls in a row with an odd camera reinitialize the scene encoder twice. -/
theorem countP_repeated_of_odd (h : StoredEven m)
    (hodd : ¬(camera.width % 2 = 0 ∧ camera.height % 2 = 0)) :
    (repeated isLeft camera m [(.opens, .opens), (.opens, .opens)]).countP
      ChangeResolution.isScene = 2 := by
  have hchanged : m.resolutionChanged isLeft camera = true := resolutionChanged_of_odd h hodd
  have hopens := setCamera_of_opens hchanged
  have heven : StoredEven (setCamera isLeft m camera .opens .opens).1 := by
    refine h.step (c := ⟨isLeft, camera, .opens, .opens⟩) ?_
    simp [successful, SetCameraCall.perform, hopens]
  have hagain :
      (setCamera isLeft m camera .opens .opens).1.resolutionChanged isLeft camera = true :=
    resolutionChanged_of_odd heven hodd
  have hopens' := setCamera_of_opens hagain
  have hok : (setCamera isLeft m camera .opens .opens).2 = .ok () := by rw [hopens]
  have hok' :
      (setCamera isLeft (setCamera isLeft m camera .opens .opens).1 camera .opens .opens).2 =
        .ok () := by rw [hopens']
  simp only [repeated, snd_setCameraTraced, hok, hok', fst_setCameraTraced_of_opens hchanged,
    fst_setCameraTraced_of_opens hagain]
  rfl

/-- For every state of the camera manager that successful calls reach from even default dimensions,
each eye and every camera: the encoders of the eye are reinitialized exactly when the rounded
resolution differs from the stored one, and at most once in a row of calls with this camera, if and
only if both dimensions of the camera are even. -/
theorem reinitializesOnChange_iff (codecScene codecDepth : Sided AVCodecContextManager)
    {defaultWidth defaultHeight : UInt32} (hwidth : defaultWidth % 2 = 0)
    (hheight : defaultHeight % 2 = 0) {calls : List SetCameraCall}
    (hrun : successful.run (new codecScene codecDepth defaultWidth defaultHeight) calls = some m)
    (isLeft : Bool) (camera : Camera) :
    ReinitializesOnChange m isLeft camera ↔ camera.width % 2 = 0 ∧ camera.height % 2 = 0 := by
  have heven := storedEven_run hwidth hheight hrun
  constructor
  · intro h
    by_contra hodd
    have htwice : (repeated isLeft camera m [(.opens, .opens), (.opens, .opens)]).countP
        ChangeResolution.isScene = 2 := countP_repeated_of_odd heven hodd
    have honce := (h.at_most_once [(.opens, .opens), (.opens, .opens)]).1
    omega
  · rintro ⟨hw, hh⟩
    refine ⟨fun scene depth => ?_, fun outcomes => ?_⟩
    · rw [fst_setCameraTraced_ne_nil_iff, evenResolution_eq_self hw hh]
      simp [resolutionChanged, ne_comm]
    · rcases outcomes with _ | ⟨⟨scene, depth⟩, outcomes⟩
      · simp [repeated]
      · rw [repeated_of_even hw hh]
        exact countP_fst_setCameraTraced_le

/-- With the defaults of `main`, a camera of half the size is handled as it should be. -/
theorem reinitializesOnChange_half :
    ReinitializesOnChange (ofFlags defaultInitInfo) true { width := 640, height := 360 } :=
  (@reinitializesOnChange_iff _ _ _ _ _ (by decide) (by decide) [] rfl true _).mpr (by decide)

/-- The odd camera for the left eye. -/
def oddCamera : Camera := { isLeft := true, width := 641, height := 480 }

/-- After one successful call with the odd camera, `640 × 480` is stored.  That is the rounded size
of the odd camera, but the next call reinitializes both encoders at this size once more, and so does
the one after it. -/
theorem oddCamera_reinitializes_again :
    ∃ m, successful.run (ofFlags defaultInitInfo) [⟨true, oddCamera, .opens, .opens⟩] = some m ∧
      (m.camera.get true).width = (evenResolution oddCamera).width ∧
      (m.camera.get true).height = (evenResolution oddCamera).height ∧
      (setCameraTraced true m oddCamera .opens .opens).1 =
        [.scene true 640 480, .depth true 640 480] ∧
      (repeated true oddCamera m [(.opens, .opens), (.opens, .opens)]).countP
        ChangeResolution.isScene = 2 :=
  ⟨_, rfl, by decide, by decide, by decide, by decide⟩

end CameraManager

end Ngp
