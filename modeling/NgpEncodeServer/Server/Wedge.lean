import NgpEncodeServer.Server.Position
import NgpEncodeServer.Encode.Stale

/-!
# A wedged eye

The cleanup of `FrameMap` runs only inside a `get_delete` that succeeds.  A `send_frame_thread` that
has run ahead of the requests, which a start without renderers is enough for, therefore lets stale
frames pile up until they fill the map, and nothing is ever encoded for that eye again.  This does
not happen as long as fewer than `kFrameMapMaxSize` insertions are late between two cleanups.
-/

namespace Ngp

namespace Server

/-- The step leaves the late insertions of its pipeline below the size of the map. -/
def LateRoom (s : Server) : Action → Prop
  | .pipe e b => (s.pipe.get e).LateRoom b
  | _ => True

instance (s : Server) (a : Action) : Decidable (s.LateRoom a) := by
  unfold LateRoom
  split <;> infer_instance

/-- Renderers are conforming: the reply a client thread receives carries the index and the eye of
its request. -/
def conforming (s : Server) : Action → Bool
  | .client i (.receive (.parsed frame)) =>
    match s.clients[i]? with
    | some ⟨_, .receiving req⟩ => frame.index == req.index && frame.isLeft == req.isLeft
    | _ => true
  | _ => true

/-- In every run in which fewer than `kFrameMapMaxSize` insertions of an eye are late between two
cleanups of its map, no state reached has a wedged eye. -/
theorem not_wedged_of_lateRoom {info : CodecInitInfo} {as : List Action} {s : Server}
    (hrun : (step.guarded LateRoom).run (init info) as = some s) (e : Bool) :
    ¬(s.pipe.get e).Wedged := by
  have hinv : (s.pipe.get e).StaleBound ∧ (s.pipe.get e).late < kFrameMapMaxSize := by
    refine Machine.run_guarded_invariant
      (I := fun s => (s.pipe.get e).StaleBound ∧ (s.pipe.get e).late < kFrameMapMaxSize) ?_
      (fun s a s' ⟨hstale, hlate⟩ hroom hs => ?_) hrun
    · cases e <;> exact ⟨Pipe.staleBound_init, Nat.zero_lt_succ 99⟩
    · rcases (trans_of_step hs).1.pipe_get e with ⟨heq, -⟩ | ⟨b, ht, hact⟩
      · rw [heq]
        exact ⟨hstale, hlate⟩
      · refine ⟨hstale.step ht, Pipe.late_lt_step hlate ?_ ht⟩
        rcases hact with ⟨rfl, -⟩ | ⟨frame, i, rfl, -⟩
        · exact hroom
        · exact trivial
  exact Pipe.not_wedged hinv.1 hinv.2

/-! ### How an eye gets wedged -/

/-- `n` timeouts of the left `send_frame_thread` in a row. -/
def skipping (n : ℕ) : List Action :=
  (List.replicate n [Action.pipe true .getTimeout, .pipe true .advance]).flatten

/-- A renderer answers `n` pairs of requests, and the left frames go into the map. -/
def rendering (n : ℕ) : List Action :=
  (List.range n).flatMap fun i =>
    iteration 0 { index := UInt64.ofNat i } ++
      iteration 0 { index := UInt64.ofNat i, isLeft := true } ++ processing true

/-- One late frame leaves room. -/
theorem not_wedged_of_lateRoom_one :
    ∃ s, (step.guarded LateRoom).run (init defaultInitInfo)
        (skipping 1 ++ .connect :: rendering 1) = some s ∧
      s.pipe.left.late = 1 ∧ ¬s.pipe.left.Wedged :=
  ⟨_, rfl, rfl, @not_wedged_of_lateRoom defaultInitInfo (skipping 1 ++ .connect :: rendering 1) _
    rfl true⟩

set_option maxRecDepth 100000 in
/-- A hundred seconds without a renderer, then a conforming renderer: its first hundred left frames
are all late and wedge the left eye. -/
theorem lateStart_wedges :
    ∃ s, (step.guarded fun s a => s.conforming a).run (init defaultInitInfo)
        (skipping 100 ++ .connect :: rendering 100) = some s ∧ s.pipe.left.Wedged := by
  have hrun : (((step.guarded fun s a => s.conforming a).run (init defaultInitInfo)
      (skipping 100 ++ .connect :: rendering 100)).any fun s => s.pipe.left.Wedged) = true := by
    decide +kernel
  obtain ⟨s, hs, hwedged⟩ := (Option.any_eq_true _ _).mp hrun
  exact ⟨s, hs, of_decide_eq_true hwedged⟩

end Server

end Ngp
