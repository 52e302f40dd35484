import NgpEncodeServer.Server.Resolution

/-!
# The two snapshots of a construction

`RenderedFrame` reads the configurations of the scene and of the depth codec of the left eye, one
after the other, and `set_camera_left` changes them one after the other.  Each of the four steps is
under a lock of its own codec only, so that the two threads can interleave in every way.

The two pictures of a frame have the same size if the depth codec is changed exactly as often
between the snapshots as it takes to catch up with the scene snapshot (`InStep`): not at all, or
once, if the scene snapshot has found the scene codec changed and the depth codec not yet.
-/

namespace Ngp

open nesproto (Camera)

/-- The two converted pictures have the same size. -/
def RenderedFrame.SameSize (f : RenderedFrame) : Prop :=
  f.convertedAvframeScene.context.width = f.convertedAvframeDepth.context.width ∧
    f.convertedAvframeScene.context.height = f.convertedAvframeDepth.context.height

namespace Server

/-- A `set_camera_left` has changed the scene codec and not yet the depth codec. -/
def halfChanged (s : Server) : Bool :=
  match s.control with
  | .changingDepth true _ => true
  | _ => false

/-- The step changes the depth codec of the left eye. -/
def changesDepth (s : Server) (a : Action) : Bool :=
  match a with
  | .control (.changeDepth _) => s.halfChanged
  | _ => false

/-- The size of the codec of the left eye for a picture. -/
def leftSize (s : Server) (pic : Picture) : UInt32 × UInt32 :=
  ((s.cameramgr.codec pic).left.info.width, (s.cameramgr.codec pic).left.info.height)

/-- Between the two snapshots of each construction, the depth codec of the left eye is changed once
if the scene snapshot has found it half changed, and not at all otherwise. -/
def InStep (info : CodecInitInfo) (as : List Action) : Prop :=
  ∀ pre i mid post s s', as = pre ++ .client i .constructScene ::
      (mid ++ .client i .constructDepth :: post) →
    (∀ b, .client i b ∉ mid) → step.run (init info) pre = some s →
      step s (.client i .constructScene) = some s' →
        step.countSteps changesDepth s' mid = s.halfChanged.toNat

variable {info : CodecInitInfo} {s s' : Server} {a : Action} {as : List Action}

/-! ### The sizes of the left codecs -/

/-- The size that the depth codec of the left eye has, or is to get. -/
def depthTarget (s : Server) : UInt32 × UInt32 :=
  match s.control with
  | .changingDepth true camera => (camera.width, camera.height)
  | _ => s.leftSize .depth

/-- The scene codec of the left eye has the size that the depth codec has or is to get, as long as
both encoders open. -/
def LeftAgrees (s : Server) : Prop :=
  s.control.isRaised = true ∨ s.leftSize .scene = s.depthTarget

/-- The two calls of `change_resolution` keep this. -/
theorem LeftAgrees.step (h : s.LeftAgrees) (ht : Trans s a s') : s'.LeftAgrees := by
  by_cases ha : ∃ b, a = .control b
  · obtain ⟨b, rfl⟩ := ha
    cases ht with
    | control ht =>
      cases ht with
      | changing hat hch | keeping hat hch | store hat =>
        simp only [LeftAgrees, hat, depthTarget, ControlPoint.isRaised] at h ⊢
        exact h
      | @changeScene e camera hat =>
        simp only [LeftAgrees, hat, depthTarget, ControlPoint.isRaised] at h ⊢
        cases e with
        | true => exact Or.inr rfl
        | false => exact h
      | @changeDepth e camera hat =>
        simp only [LeftAgrees, hat, depthTarget, ControlPoint.isRaised] at h ⊢
        cases e with
        | true => exact h
        | false => exact h
      | changeSceneThrows hat | changeDepthThrows hat => exact Or.inl rfl
  · obtain ⟨hcameramgr, hcontrol⟩ := ht.cameramgr_eq fun b hb => ha ⟨b, hb⟩
    unfold LeftAgrees depthTarget leftSize at h ⊢
    rw [hcameramgr, hcontrol]
    exact h

/-- A change of the depth codec gives it the size that it is to get. -/
theorem leftSize_of_changesDepth (ht : Trans s a s') (ha : s.changesDepth a = true) :
    s'.leftSize .depth = s.depthTarget := by
  cases ht with
  | control ht =>
    cases ht with
    | @changeDepth e camera hat | @changeDepthThrows e camera o ex hat =>
      cases e with
      | true =>
        simp only [depthTarget, hat]
        simp [leftSize, CameraManager.codec, CameraManager.changeDepth]
      | false => simp [changesDepth, halfChanged, hat] at ha
    | _ => cases ha
  | _ => cases ha

/-- The other steps leave the depth codec alone, and half a change stays half a change. -/
theorem leftSize_of_not_changesDepth (ht : Trans s a s') (ha : s.changesDepth a = false) :
    s'.leftSize .depth = s.leftSize .depth ∧ (s.halfChanged = true → s'.control = s.control) := by
  by_cases hcontrol : ∃ b, a = .control b
  · obtain ⟨b, rfl⟩ := hcontrol
    cases ht with
    | control ht =>
      cases ht with
      | @changeDepth e camera hat | @changeDepthThrows e camera o ex hat =>
        cases e with
        | true => simp [changesDepth, halfChanged, hat] at ha
        | false => exact ⟨rfl, by simp [halfChanged, hat]⟩
      | changing hat | keeping hat | changeScene hat | changeSceneThrows hat | store hat =>
        exact ⟨rfl, by simp [halfChanged, hat]⟩
  · obtain ⟨hcameramgr, hcontrol⟩ := ht.cameramgr_eq fun b hb => hcontrol ⟨b, hb⟩
    unfold leftSize
    rw [hcameramgr]
    exact ⟨rfl, fun _ => hcontrol⟩

/-- Without half a change the depth codec has the size that it is to have. -/
theorem depthTarget_of_not_halfChanged (h : s.halfChanged = false) :
    s.depthTarget = s.leftSize .depth := by
  unfold halfChanged at h
  unfold depthTarget
  split at h
  · cases h
  · rfl

/-- Half a change fixes the size that the depth codec is to get. -/
theorem depthTarget_of_halfChanged (h : s.halfChanged = true) (hcontrol : s'.control = s.control) :
    s'.halfChanged = true ∧ s'.depthTarget = s.depthTarget := by
  unfold halfChanged at h ⊢
  unfold depthTarget
  rw [hcontrol]
  split at h
  · exact ⟨rfl, rfl⟩
  · cases h

/-- Along a run, as long as the depth codec is changed only to catch up with a change that has
begun, it gets the size that it was to get. -/
theorem leftSize_run (hrun : step.run s as = some s') :
    (step.countSteps changesDepth s as < s.halfChanged.toNat →
      s'.halfChanged = true ∧ s'.depthTarget = s.depthTarget) ∧
    (step.countSteps changesDepth s as = s.halfChanged.toNat →
      s'.leftSize .depth = s.depthTarget) := by
  refine Machine.run_induction (m := step) (P := fun as s' =>
    (step.countSteps changesDepth s as < s.halfChanged.toNat →
      s'.halfChanged = true ∧ s'.depthTarget = s.depthTarget) ∧
    (step.countSteps changesDepth s as = s.halfChanged.toNat →
      s'.leftSize .depth = s.depthTarget)) ⟨fun hlt => ?_, fun heq => ?_⟩ ?_ hrun
  · cases hhalf : s.halfChanged with
    | true => exact ⟨rfl, rfl⟩
    | false =>
      rw [hhalf] at hlt
      cases hlt
  · cases hhalf : s.halfChanged with
    | true =>
      rw [hhalf] at heq
      cases heq
    | false => exact (depthTarget_of_not_halfChanged hhalf).symm
  · rintro as s₁ a s₂ hrun ⟨hbefore, hafter⟩ hstep
    have ht := (trans_of_step hstep).1
    rw [Machine.countSteps_concat hrun]
    cases ha : s₁.changesDepth a with
    | true =>
      have hone : s.halfChanged.toNat ≤ 1 := Bool.toNat_le _
      have hsize := leftSize_of_changesDepth ht ha
      refine ⟨fun hlt => ?_, fun heq => ?_⟩
      · exact absurd (hlt.trans_le hone) (by simp)
      · have hlt : step.countSteps changesDepth s as < s.halfChanged.toNat := by
          rw [← heq]
          exact Nat.lt_succ_self _
        exact hsize.trans (hbefore hlt).2
    | false =>
      obtain ⟨hsize, hcontrol⟩ := leftSize_of_not_changesDepth ht ha
      refine ⟨fun hlt => ?_, fun heq => hsize.trans (hafter heq)⟩
      obtain ⟨hhalf, htarget⟩ := hbefore hlt
      obtain ⟨hhalf', htarget'⟩ := depthTarget_of_halfChanged hhalf (hcontrol hhalf)
      exact ⟨hhalf', htarget'.trans htarget⟩

/-! ### Constructions -/

/-- Where the scene snapshots of the frames under construction were taken. -/
def Snapshots (info : CodecInitInfo) (as : List Action) (s : Server) : Prop :=
  ∀ i c receipt frame infoScene, s.clients[i]? = some c →
    c.point = .constructingDepth receipt frame infoScene →
      ∃ pre mid s₁ s₁', as = pre ++ .client i .constructScene :: mid ∧
        (∀ b, .client i b ∉ mid) ∧ step.run (init info) pre = some s₁ ∧
        step s₁ (.client i .constructScene) = some s₁' ∧ step.run s₁' mid = some s ∧
        infoScene = s₁.ctxmgrScene.getCodecInfo

/-- The scene snapshot of a construction stays the one that was taken. -/
theorem snapshots_run (hrun : step.run (init info) as = some s) : Snapshots info as s := by
  refine Machine.run_induction (P := Snapshots info) ?_ ?_ hrun
  · intro i c receipt frame infoScene hc
    cases hc
  · intro as s a s' hrun ih hstep i c receipt frame infoScene hc hat
    rcases (trans_of_step hstep).1.of_client hc with ⟨hold, hne⟩ | rfl | ⟨c₁, b, s₁, hc₁, rfl, ht⟩
    · obtain ⟨pre, mid, s₁, s₁', rfl, hmid, hpre, hscene, hrest, hinfo⟩ := ih i c _ _ _ hold hat
      refine ⟨pre, mid ++ [a], s₁, s₁', by simp, fun b hb => ?_, hpre, hscene,
        (Machine.run_concat_eq_some_iff step).mpr ⟨s, hrest, hstep⟩, hinfo⟩
      rcases List.mem_append.mp hb with hb | hb
      · exact hmid b hb
      · exact hne b (List.mem_singleton.mp hb).symm
    · cases hat
    · cases ht with
      | constructScene hat₁ =>
        obtain ⟨-, -, rfl⟩ := ClientPoint.constructingDepth.inj hat
        exact ⟨as, [], s, s', rfl, by simp, hrun, hstep, rfl, rfl⟩
      | _ => cases hat

/-- The codecs of the left eye agree in every state of a run. -/
theorem leftAgrees_run (hrun : step.run (init info) as = some s) : s.LeftAgrees :=
  Machine.run_invariant (I := LeftAgrees) (Or.inr rfl)
    (fun _ _ _ h hstep => h.step (trans_of_step hstep).1) hrun

/-- A part of a run from its start is in step if the run is. -/
theorem InStep.of_append {bs : List Action} (h : InStep info (as ++ bs)) : InStep info as := by
  rintro pre i mid post s s' rfl
  exact h pre i mid (post ++ bs) s s' (by simp)

/-- A construction that is in step gives both pictures the size that the scene snapshot has
found. -/
theorem sameSize_of_construction {i : ℕ} (hrun : step.run (init info) as = some s)
    (hinstep : InStep info (as ++ [.client i .constructDepth])) {c : Client} {receipt : ℕ}
    {frame : nesproto.RenderedFrame} {infoScene : CodecInitInfo} (hc : s.clients[i]? = some c)
    (hat : c.point = .constructingDepth receipt frame infoScene) :
    (RenderedFrame.new frame .rgb24 .gray8 infoScene s.ctxmgrDepth.getCodecInfo
      receipt).SameSize := by
  obtain ⟨pre, mid, s₁, s₁', rfl, hmid, hpre, hscene, hrest, rfl⟩ :=
    snapshots_run hrun i c _ _ _ hc hat
  have hcount := hinstep pre i mid [] s₁ s₁' (by simp) hmid hpre hscene
  have hlive := (trans_of_step hscene).2
  obtain ⟨hcameramgr, hcontrol⟩ := (trans_of_step hscene).1.cameramgr_eq (by simp)
  have hhalf : s₁'.halfChanged = s₁.halfChanged := by unfold halfChanged; rw [hcontrol]
  have htarget : s₁'.depthTarget = s₁.depthTarget := by
    unfold depthTarget leftSize
    rw [hcontrol, hcameramgr]
  have hagrees : s₁.leftSize .scene = s₁.depthTarget := by
    refine (leftAgrees_run hpre).resolve_left fun hraised => ?_
    simp [terminated, hraised] at hlive
  have hsize : s.leftSize .depth = s₁.leftSize .scene :=
    ((leftSize_run hrest).2 (hhalf ▸ hcount)).trans (htarget.trans hagrees.symm)
  exact ⟨(congrArg Prod.fst hsize).symm, (congrArg Prod.snd hsize).symm⟩

/-- For every interleaving of constructions with calls of `set_camera`: if between the snapshots of
each construction the depth codec of the left eye is changed as often as it takes to catch up with
the scene snapshot, then the two pictures of every constructed frame have the same size. -/
theorem constructed_sameSize (hrun : step.run (init info) as = some s)
    (hinstep : InStep info as) {i : ℕ} {ret : ℤ} {f : RenderedFrame}
    (hc : s.clients[i]? = some ⟨ret, .pushing f⟩) : f.SameSize := by
  refine Machine.run_induction (P := fun as s => InStep info as → ∀ (i : ℕ) (c : Client) f,
    s.clients[i]? = some c → c.point = .pushing f → f.SameSize) ?_ ?_ hrun hinstep i _ f hc rfl
  · intro _ i c f hc
    cases hc
  · intro as s a s' hrun ih hstep hinstep i c f hc hat
    rcases (trans_of_step hstep).1.of_client hc with ⟨hold, -⟩ | rfl | ⟨c₁, b, s₁, hc₁, rfl, ht⟩
    · exact ih hinstep.of_append i c f hold hat
    · cases hat
    · cases ht with
      | constructDepth hat₁ =>
        obtain rfl := ClientPoint.pushing.inj hat
        exact sameSize_of_construction hrun hinstep hc₁ hat₁
      | _ => cases hat

/-- A camera of a new resolution for the left eye. -/
def smallLeft : Camera := { isLeft := true, width := 640, height := 480 }

/-- A reply is received while the scene codec has been changed and the depth codec not yet. -/
def halfway : List Action :=
  [.control (.setCamera true smallLeft), .control (.changeScene .opens), .connect] ++ receiving {}

/-- The depth codec catches up between the snapshots. -/
def catchesUp : List Action :=
  halfway ++ .client 0 .constructScene ::
    ([.control (.changeDepth .opens)] ++ .client 0 .constructDepth :: [])

/-- Such a construction is in step. -/
theorem inStep_catchesUp : InStep defaultInitInfo catchesUp := by
  intro pre i mid post s s' heq hmid hpre hscene
  obtain ⟨rfl, hi, hrest⟩ := (List.append_cons_inj_of_notMem (by simp [halfway, receiving])
    (by simp)).mp heq
  obtain rfl : 0 = i := by simpa using hi
  obtain ⟨rfl, -, -⟩ := (List.append_cons_inj_of_notMem (by simp) (by simp)).mp hrest
  cases hpre
  cases hscene
  rfl

/-- Both pictures of the frame have the new size. -/
theorem constructed_sameSize_catchesUp :
    ∃ s ret f, step.run (init defaultInitInfo) catchesUp = some s ∧
      s.clients[0]? = some ⟨ret, .pushing f⟩ ∧ f.convertedAvframeScene.context.width = 640 ∧
      f.SameSize :=
  ⟨_, _, _, rfl, rfl, rfl,
    @constructed_sameSize defaultInitInfo _ catchesUp rfl inStep_catchesUp 0 0 _ rfl⟩

/-- A reply is received, and the codecs are changed between its two snapshots. -/
def resizedBetween : List Action :=
  .connect :: receiving {} ++ .client 0 .constructScene :: resizing true smallLeft ++
    [.client 0 .constructDepth]

/-- The pictures of the frame have different sizes. -/
theorem resizedBetween_not_sameSize :
    ∃ s ret f, step.run (init defaultInitInfo) resizedBetween = some s ∧
      s.clients[0]? = some ⟨ret, .pushing f⟩ ∧ f.convertedAvframeScene.context.width = 1280 ∧
      f.convertedAvframeDepth.context.width = 640 ∧ ¬f.SameSize :=
  ⟨_, _, _, rfl, rfl, rfl, rfl, fun h => absurd h.1 (by decide)⟩

end Server

end Ngp
