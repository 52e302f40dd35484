import NgpEncodeServer.Encode.Pipeline

/-!
# The frames inside the pipeline

Where the frames of one eye are: in the queue, with `process_frame_thread`, in the map, or taken
from the map by `send_frame_thread`.  A step moves frames on or drops them; it never copies one and
never makes one up.  This is stated by counting, `countP_frames_le`, for every kind of frame that
does not depend on the flag `m_converted`, and gives the invariant rule `forall_mem_frames`.
-/

namespace Ngp

/-- The frame `process_frame_thread` holds. -/
def ProcessPoint.frames : ProcessPoint → List RenderedFrame
  | .converting _ frame => [frame]
  | .inserting _ frame => [frame]
  | _ => []

/-- The frame `send_frame_thread` still has to offer to the scene encoder. -/
def SendPoint.sceneTodo : SendPoint → List RenderedFrame
  | .sendingScene frame => [frame]
  | _ => []

/-- The frame `send_frame_thread` still has to offer to the depth encoder. -/
def SendPoint.depthTodo : SendPoint → List RenderedFrame
  | .sendingScene frame => [frame]
  | .sendingDepth frame => [frame]
  | _ => []

/-- The two pictures of a frame, each with an encoder of its own. -/
inductive Picture where
  | scene
  | depth
  deriving DecidableEq, Repr

/-- The frame `send_frame_thread` still has to offer to the encoder of the given picture. -/
def SendPoint.todo (sp : SendPoint) : Picture → List RenderedFrame
  | .scene => sp.sceneTodo
  | .depth => sp.depthTodo

/-- The frame a step brings into the pipeline. -/
def PipeAction.pushed : PipeAction → List RenderedFrame
  | .push frame => [frame]
  | _ => []

namespace Pipe

/-- The frames on their way to `send_frame_thread`. -/
def stored (p : Pipe) : List RenderedFrame :=
  p.frameQueue.queue ++ p.process.frames ++ p.frameMap.map.values

/-- All frames that are or were in the pipeline, without those dropped on the way. -/
def frames (p : Pipe) : List RenderedFrame := p.stored ++ p.takes

/-- The frames in the pipeline that have not been offered to the encoder of the given picture. -/
def waiting (p : Pipe) (pic : Picture) : List RenderedFrame := p.stored ++ p.send.todo pic

/-- A property of frames that the conversion does not change. -/
def ConversionInvariant (q : RenderedFrame → Bool) : Prop :=
  ∀ f : RenderedFrame, q { f with converted := true } = q f

variable {p p' : Pipe} {a : PipeAction} {q : RenderedFrame → Bool}

/-- The pipeline starts without frames. -/
@[simp] theorem frames_init : init.frames = [] := rfl

/-- The count of frames in the map. -/
theorem countP_values (m : AssocMap UInt64 RenderedFrame) (q : RenderedFrame → Bool) :
    m.values.countP q = m.entries.countP fun e => q e.2 := by
  rw [AssocMap.values, List.countP_map]
  rfl

/-- A step that takes nothing from the map leaves on their way, of every kind of frame, at most
those that were there and the one it pushes. -/
private theorem countP_stored_le (hq : ConversionInvariant q) (h : Trans p a p')
    (hne : a ≠ .getDelete) :
    p'.stored.countP q ≤ p.stored.countP q + a.pushed.countP q := by
  cases h with
  | push hroom hqueue =>
    simp only [stored, hqueue, PipeAction.pushed, List.countP_append]
    omega
  | pop hat hqueue =>
    simp only [stored, hat, hqueue, ProcessPoint.frames, PipeAction.pushed, List.countP_append,
      List.countP_cons, List.countP_nil]
    omega
  | @convert i frame swsScene swsDepth hat =>
    have hconv := hq frame
    simp only [stored, hat, ProcessPoint.frames, PipeAction.pushed, List.countP_append,
      List.countP_cons, List.countP_nil, hconv]
    omega
  | @insert i frame m hat hroom hm =>
    have hins := p.frameMap.map.countP_insert_le (fun e => q e.2) i frame
    simp only [stored, hat, ProcessPoint.frames, PipeAction.pushed, List.countP_append,
      List.countP_cons, List.countP_nil, countP_values, hm] at hins ⊢
    omega
  | convertThrows hat _ | insertTimeout hat _ =>
    simp only [stored, hat, ProcessPoint.frames, PipeAction.pushed, List.countP_append,
      List.countP_nil]
    omega
  | getDelete => exact absurd rfl hne
  | _ => exact Nat.le_add_right _ _

/-- A step that takes a frame from the map passes it to `send_frame_thread`. -/
private theorem countP_stored_getDelete_add_le (h : Trans p .getDelete p') :
    ∃ frame, p'.send = .sendingScene frame ∧ p'.takes = p.takes ++ [frame] ∧
      p'.stored.countP q + [frame].countP q ≤ p.stored.countP q := by
  cases h with
  | @getDelete frame m hat hmem hm =>
    have hrem := FrameMap.countP_remaining_add_le (fun e => q e.2) hmem
    refine ⟨frame, rfl, rfl, ?_⟩
    simp only [stored, List.countP_append, List.countP_cons, List.countP_nil, countP_values, hm]
      at hrem ⊢
    omega

/-- The frame a step takes from the map was there under `frame_index`. -/
theorem Trans.takes_getDelete (h : Trans p .getDelete p') :
    ∃ frame, (p.frameIndex, frame) ∈ p.frameMap.map.entries ∧ p'.takes = p.takes ++ [frame] := by
  cases h with
  | getDelete hat hmem hm => exact ⟨_, hmem, rfl⟩

/-- Only a step that takes a frame from the map touches the list of frames taken. -/
theorem takes_of_ne (h : Trans p a p') (hne : a ≠ .getDelete) : p'.takes = p.takes := by
  cases h <;> first | rfl | exact absurd rfl hne

/-- Only a step that takes a frame from the map adds to what is left to offer. -/
private theorem countP_todo_le (h : Trans p a p') (hne : a ≠ .getDelete) (pic : Picture) :
    (p'.send.todo pic).countP q ≤ (p.send.todo pic).countP q := by
  cases h with
  | getDelete => exact absurd rfl hne
  | sendScene hat =>
    rw [hat]
    cases pic with
    | scene => exact Nat.zero_le _
    | depth => exact Nat.le_refl _
  | getTimeout | sendDepth | advance => cases pic <;> exact Nat.zero_le _
  | _ => exact Nat.le_refl _

/-- A step neither copies nor makes up frames. -/
theorem countP_frames_le (hq : ConversionInvariant q) (h : Trans p a p') :
    p'.frames.countP q ≤ p.frames.countP q + a.pushed.countP q := by
  simp only [frames, List.countP_append]
  by_cases hget : a = .getDelete
  · subst hget
    obtain ⟨frame, -, htakes, hle⟩ := countP_stored_getDelete_add_le (q := q) h
    rw [htakes, List.countP_append]
    omega
  · have hle := countP_stored_le hq h hget
    rw [takes_of_ne h hget]
    omega

/-- A step neither copies nor makes up frames that wait for an encoder. -/
theorem countP_waiting_le (hq : ConversionInvariant q) (h : Trans p a p') (pic : Picture) :
    (p'.waiting pic).countP q ≤ (p.waiting pic).countP q + a.pushed.countP q := by
  simp only [waiting, List.countP_append]
  by_cases hget : a = .getDelete
  · subst hget
    obtain ⟨frame, hsend, -, hle⟩ := countP_stored_getDelete_add_le (q := q) h
    have htodo : p'.send.todo pic = [frame] := by
      rw [hsend]
      cases pic <;> rfl
    rw [htodo]
    omega
  · have hle := countP_stored_le hq h hget
    have htodo := countP_todo_le (q := q) h hget pic
    omega

/-- Where counts never grow beyond the frames there before and those added, a property of these is
a property of all. -/
private theorem forall_mem_of_countP_le {l l' added : List RenderedFrame}
    {Q : RenderedFrame → Prop} (hQ : ∀ f : RenderedFrame, Q { f with converted := true } ↔ Q f)
    (hle : ∀ q, ConversionInvariant q → l'.countP q ≤ l.countP q + added.countP q)
    (hl : ∀ f ∈ l, Q f) (hadded : ∀ f ∈ added, Q f) : ∀ f ∈ l', Q f := by
  classical
  have hcount := hle (fun f => !decide (Q f)) fun f => by simp [hQ]
  have hzero : ∀ l : List RenderedFrame,
      l.countP (fun f => !decide (Q f)) = 0 ↔ ∀ f ∈ l, Q f := by
    intro l
    rw [List.countP_eq_zero]
    simp
  rw [(hzero _).mpr hl, (hzero _).mpr hadded] at hcount
  exact (hzero _).mp (Nat.le_zero.mp hcount)

/-- What holds of every frame pushed holds of every frame in the pipeline. -/
theorem forall_mem_frames {Q : RenderedFrame → Prop}
    (hQ : ∀ f : RenderedFrame, Q { f with converted := true } ↔ Q f) (h : Trans p a p')
    (hp : ∀ f ∈ p.frames, Q f) (hpush : ∀ f ∈ a.pushed, Q f) : ∀ f ∈ p'.frames, Q f :=
  forall_mem_of_countP_le hQ (fun _ hq => countP_frames_le hq h) hp hpush

/-- What holds of every frame pushed holds of every frame that waits for an encoder. -/
theorem forall_mem_waiting {Q : RenderedFrame → Prop}
    (hQ : ∀ f : RenderedFrame, Q { f with converted := true } ↔ Q f) (h : Trans p a p')
    {pic : Picture} (hp : ∀ f ∈ p.waiting pic, Q f) (hpush : ∀ f ∈ a.pushed, Q f) :
    ∀ f ∈ p'.waiting pic, Q f :=
  forall_mem_of_countP_le hQ (fun _ hq => countP_waiting_le hq h pic) hp hpush

end Pipe

end Ngp
