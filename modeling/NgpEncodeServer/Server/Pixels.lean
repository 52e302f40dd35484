import NgpEncodeServer.Server.Delivery
import NgpEncodeServer.Video.PixelBounds

/-!
# The pixels of the frames in the queues

Every frame in a `FrameQueue` is as a client thread constructed it from a reply, so the condition on
the accesses to its pixels is a condition on the reply.
-/

namespace Ngp

namespace Server

/-- The frames that client threads are about to push and those in the queues are fresh. -/
structure QueuesFresh (s : Server) : Prop where
  pushing : ∀ c ∈ s.clients, ∀ f, c.point = .pushing f → f.Fresh
  queued : ∀ e, ∀ f ∈ (s.pipe.get e).frameQueue.queue, f.Fresh

theorem queuesFresh_init (info : CodecInitInfo) : QueuesFresh (init info) := by
  refine ⟨fun c hc => absurd hc List.not_mem_nil, fun e f hf => ?_⟩
  cases e <;> exact absurd hf List.not_mem_nil

/-- A step of a pipeline has in its queue only frames that were there and the one pushed. -/
private theorem mem_queue_step {p p' : Pipe} {b : PipeAction} (ht : Pipe.Trans p b p')
    {f : RenderedFrame} (hf : f ∈ p'.frameQueue.queue) :
    f ∈ p.frameQueue.queue ∨ f ∈ b.pushed := by
  cases ht with
  | push hroom hq =>
    change f ∈ _ at hf
    rw [hq] at hf
    exact List.mem_append.mp hf
  | pop hat hq =>
    left
    rw [hq]
    exact List.mem_cons_of_mem _ hf
  | _ => exact Or.inl hf

variable {s s' : Server} {a : Action}

/-- Every step keeps the frames fresh. -/
theorem QueuesFresh.step (h : QueuesFresh s) (ht : Trans s a s') : QueuesFresh s' := by
  have hqueue : ∀ e (p : Pipe) b, Pipe.Trans (s.pipe.get e) b p → (∀ f ∈ b.pushed, f.Fresh) →
      ∀ e', ∀ f ∈ ((s.pipe.set e p).get e').frameQueue.queue, f.Fresh := by
    intro e p b ht hpush e' f hf
    rw [Sided.get_set] at hf
    split at hf
    · rcases mem_queue_step ht hf with hold | hnew
      · exact h.queued e f hold
      · exact hpush f hnew
    · exact h.queued e' f hf
  cases ht with
  | connect =>
    refine ⟨fun c hc f hat => ?_, h.queued⟩
    rcases List.mem_append.mp hc with hc | hc
    · exact h.pushing c hc f hat
    · rw [List.mem_singleton.mp hc] at hat
      cases hat
  | @client i c c' b s₁ hc ht =>
    have hmoved : (∀ f, c'.point = .pushing f → f.Fresh) →
        ∀ d ∈ s.clients.set i c', ∀ f, d.point = .pushing f → f.Fresh := by
      intro hc' d hd
      rcases List.mem_or_eq_of_mem_set hd with hd | rfl
      · exact h.pushing d hd
      · exact hc'
    cases ht with
    | constructDepth hat =>
      refine ⟨hmoved fun f hf => ?_, h.queued⟩
      rw [← ClientPoint.pushing.inj hf]
      exact ⟨_, _, rfl⟩
    | @push frame p hat ht =>
      refine ⟨hmoved fun f hf => ClientPoint.noConfusion hf, hqueue _ p _ ht fun f hf => ?_⟩
      rw [List.mem_singleton.mp hf]
      exact h.pushing c (List.mem_of_getElem? hc) frame hat
    | _ => exact ⟨hmoved (by simp), h.queued⟩
  | control ht => cases ht <;> exact ⟨h.pushing, h.queued⟩
  | pipe hpush ht =>
    refine ⟨h.pushing, hqueue _ _ _ ht ?_⟩
    simp [hpush]

/-- In every run, for every frame in a queue: its reply has been received, and all accesses to its
pixels stay inside the bytes received if and only if `frame` holds three bytes and `depth` one byte
for every pixel of the size the reply announces. -/
theorem queued_offsetsInBounds_iff {linesize : AVPixelFormat → UInt32 → ℕ}
    (hrgb : ∀ w, linesize .rgb24 w = 3 * w.toNat) (hgray : ∀ w, linesize .gray8 w = w.toNat)
    {info : CodecInitInfo} {as : List Action} (hrun : step.run (init info) as = some s) {e : Bool}
    {f : RenderedFrame} (hf : f ∈ (s.pipe.get e).frameQueue.queue) :
    s.received[f.receipt]? = some f.frameResponse ∧
      (f.OffsetsInBounds linesize ↔
        3 * f.frameResponse.camera.width.toNat * f.frameResponse.camera.height.toNat ≤
            f.frameResponse.frame.length ∧
          f.frameResponse.camera.width.toNat * f.frameResponse.camera.height.toNat ≤
            f.frameResponse.depth.length) := by
  have hfresh : QueuesFresh s := Machine.run_invariant (queuesFresh_init info)
    (fun _ _ _ h hs => h.step (trans_of_step hs).1) hrun
  have hframe : f ∈ (s.pipe.get e).frames :=
    List.mem_append_left _ (List.mem_append_left _ (List.mem_append_left _ hf))
  exact ⟨(provenance_run hrun).received _ (reply_mem_replies hframe),
    RenderedFrame.offsetsInBounds_iff (hfresh.queued e f hf) hrgb hgray⟩

/-- The line size of the first plane. -/
def firstPlaneLinesize : AVPixelFormat → UInt32 → ℕ
  | .rgb24, width => 3 * width.toNat
  | .gray8, width => width.toNat
  | .yuv420p, width => width.toNat

/-- A reply that announces two by two pixels. -/
def twoByTwo (frame depth : List UInt8) : nesproto.RenderedFrame :=
  { camera := { width := 2, height := 2 }, frame := frame, depth := depth }

/-- With twelve and four bytes the accesses stay inside. -/
theorem queued_offsetsInBounds_twoByTwo :
    ∃ s f, step.run (init defaultInitInfo) (.connect :: iteration 0
        (twoByTwo (List.replicate 12 0) (List.replicate 4 0))) = some s ∧
      f ∈ s.pipe.right.frameQueue.queue ∧ f.OffsetsInBounds firstPlaneLinesize :=
  ⟨_, _, rfl, List.mem_singleton_self _,
    (@queued_offsetsInBounds_iff _ firstPlaneLinesize (fun _ => rfl) (fun _ => rfl)
      defaultInitInfo (.connect :: iteration 0 (twoByTwo (List.replicate 12 0)
        (List.replicate 4 0))) rfl false _ (List.mem_singleton_self _)).2.mpr (by decide)⟩

/-- A reply without pixels that announces two by two of them gets into the queue, and the conversion
reads bytes that were never received. -/
theorem emptyReply_out_of_bounds :
    ∃ s f, step.run (init defaultInitInfo) (.connect :: iteration 0 (twoByTwo [] [])) = some s ∧
      f ∈ s.pipe.right.frameQueue.queue ∧ ¬f.OffsetsInBounds firstPlaneLinesize :=
  ⟨_, _, rfl, List.mem_singleton_self _, fun h => absurd (h.scene true 0 (by decide)) (by decide)⟩

end Server

end Ngp
