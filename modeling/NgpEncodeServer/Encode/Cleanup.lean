import NgpEncodeServer.Encode.Pipeline

/-!
# The cleanup points of the map

The cleanup of `FrameMap` sits in the branch of `get_delete` that has found its frame.  When
`get_delete` times out at a multiple of `kFrameMapDropFramesInterval`, `send_frame_thread` goes on
to the next index without it, and the stale frames stay for another interval at least.

`alwaysCleared_iff` says that nothing else keeps a stale frame in the map: the cleanup points of a
run are effective exactly if every multiple that was skipped had found no smaller key.
-/

namespace Ngp

namespace Pipe

/-- `get_delete` ends, with a frame or with `LockTimeout`. -/
def EndsGet (a : PipeAction) : Prop := a = .getDelete ∨ a = .getTimeout

/-- For every multiple of the interval that `frame_index` has moved past, the map contains no frame
with a smaller key that was in the map when the `get_delete` of the multiple ended. -/
def Cleared (as : List PipeAction) (p : Pipe) : Prop :=
  ∀ pre a since p₁, as = pre ++ a :: since → EndsGet a → step.run init (pre ++ [a]) = some p₁ →
    p₁.frameIndex % kFrameMapDropFramesInterval = 0 → .advance ∈ since →
      ∀ e ∈ p₁.frameMap.map.entries, e.1 < p₁.frameIndex → e ∉ p.frameMap.map.entries

/-- The map is cleared in every state of the run. -/
def AlwaysCleared (as : List PipeAction) : Prop :=
  ∀ pre post p, as = pre ++ post → step.run init pre = some p → Cleared pre p

/-- Every `get_delete` at a multiple of the interval that timed out, and that `frame_index` has
moved past, had found no smaller key in the map. -/
def SkipsClean (as : List PipeAction) : Prop :=
  ∀ pre since p, as = pre ++ .getTimeout :: since → .advance ∈ since →
    step.run init pre = some p → p.frameIndex % kFrameMapDropFramesInterval = 0 →
      ∀ k ∈ p.frameMap.map.keys, ¬k < p.frameIndex

variable {p p' p₁ p₂ : Pipe} {a : PipeAction} {as pre mid : List PipeAction}

/-! ### The two ways in which `get_delete` ends -/

/-- A `get_delete` that returns at a multiple of the interval leaves no smaller key in the map. -/
theorem not_lt_of_getDelete (ht : Trans p .getDelete p')
    (hint : p'.frameIndex % kFrameMapDropFramesInterval = 0) {e : UInt64 × RenderedFrame}
    (he : e ∈ p'.frameMap.map.entries) : ¬e.1 < p'.frameIndex := by
  cases ht with
  | getDelete hat hmem hm =>
    intro hlt
    rw [hm] at he
    exact (FrameMap.mem_entries_remaining.mp he).2.2 ⟨hint, hlt⟩

/-- A `get_delete` that throws leaves the map alone. -/
theorem eq_of_getTimeout (ht : Trans p .getTimeout p') :
    p'.frameMap = p.frameMap ∧ p'.frameIndex = p.frameIndex ∧ p'.send = .advancing := by
  cases ht with
  | getTimeout => exact ⟨rfl, rfl, rfl⟩

/-! ### What stays in the map -/

/-- Between the end of its wait and `frame_index++`, only `send_frame_thread` itself could take a
frame out of the map, and it does not. -/
theorem keeps_entries_step (hat : p.send = .advancing) (ht : Trans p a p') (hne : a ≠ .advance) :
    p'.send = .advancing ∧ ∀ e ∈ p.frameMap.map.entries, e ∈ p'.frameMap.map.entries := by
  cases ht with
  | push | pop | popTimeout | convert | convertThrows | insertTimeout =>
    exact ⟨hat, fun e he => he⟩
  | insert _ _ hm =>
    refine ⟨hat, fun e he => ?_⟩
    rw [hm]
    exact AssocMap.mem_entries_insert_of_mem _ _ he
  | getDelete hat' | getTimeout hat' | sendScene hat' | sendDepth hat' =>
    rw [hat] at hat'
    cases hat'
  | advance => exact absurd rfl hne

/-- The steps up to `frame_index++` keep the frames in the map. -/
theorem keeps_entries_run (hat : p.send = .advancing) (hrun : step.run p mid = some p')
    (hadv : .advance ∉ mid) :
    p'.send = .advancing ∧ ∀ e ∈ p.frameMap.map.entries, e ∈ p'.frameMap.map.entries := by
  refine Machine.run_induction (m := step)
    (P := fun mid p' => .advance ∉ mid → p'.send = .advancing ∧
      ∀ e ∈ p.frameMap.map.entries, e ∈ p'.frameMap.map.entries) ?_ ?_ hrun hadv
  · exact fun _ => ⟨hat, fun e he => he⟩
  · intro mid p₁ a p₂ _ ih hstep hadv
    rw [List.mem_append, not_or] at hadv
    obtain ⟨hat₁, hkeep₁⟩ := ih hadv.1
    have hne : a ≠ .advance := fun heq => hadv.2 (heq ▸ List.mem_singleton_self _)
    obtain ⟨hat₂, hkeep₂⟩ := keeps_entries_step hat₁ (trans_of_step hstep) hne
    exact ⟨hat₂, fun e he => hkeep₂ e (hkeep₁ e he)⟩

/-- A frame that is stale when `get_delete` times out at a multiple of the interval is still in the
map when `frame_index` has moved past the multiple. -/
theorem not_cleared_of_skip (hpre : step.run init pre = some p)
    (hint : p.frameIndex % kFrameMapDropFramesInterval = 0)
    (htimeout : step p .getTimeout = some p₁) (hmid : step.run p₁ mid = some p₂)
    (hadv : .advance ∉ mid) (hlast : step p₂ .advance = some p')
    {k : UInt64} (hk : k ∈ p.frameMap.map.keys) (hlt : k < p.frameIndex) :
    ¬Cleared (pre ++ .getTimeout :: (mid ++ [.advance])) p' := by
  obtain ⟨hmap, hindex, hat⟩ := eq_of_getTimeout (trans_of_step htimeout)
  obtain ⟨e, he, rfl⟩ := List.mem_map.mp hk
  have hkept : e ∈ p₂.frameMap.map.entries :=
    (keeps_entries_run hat hmid hadv).2 e (hmap ▸ he)
  have hstays : e ∈ p'.frameMap.map.entries := by
    cases trans_of_step hlast with
    | advance => exact hkept
  intro hcleared
  have hrun₁ : step.run init (pre ++ [.getTimeout]) = some p₁ :=
    (Machine.run_concat_eq_some_iff step).mpr ⟨p, hpre, htimeout⟩
  exact hcleared pre .getTimeout (mid ++ [.advance]) p₁ rfl (Or.inr rfl) hrun₁ (hindex ▸ hint)
    (by simp) e (hmap ▸ he) (hindex ▸ hlt) hstays

/-! ### Runs -/

/-- In every run, with any insertions, hits and timeouts: the map is cleared at all times if and
only if every multiple of the interval that was skipped had found no smaller key in the map. -/
theorem alwaysCleared_iff (hrun : step.run init as = some p) :
    AlwaysCleared as ↔ SkipsClean as := by
  constructor
  · intro hclear pre since q hsplit hadv hpre hint k hk hlt
    obtain ⟨mid, post, rfl, hmid⟩ := List.eq_append_cons_of_mem hadv
    subst hsplit
    -- the run up to the first `frame_index++` after the timeout
    have hwhole : pre ++ .getTimeout :: (mid ++ .advance :: post) =
        (pre ++ .getTimeout :: (mid ++ [.advance])) ++ post := by simp
    rw [hwhole, Machine.run_append] at hrun
    obtain ⟨q', hq', -⟩ := Option.bind_eq_some_iff.mp hrun
    have hparts := hq'
    rw [Machine.run_append, hpre, Option.bind_some, Machine.run_cons] at hparts
    obtain ⟨q₁, htimeout, hrest⟩ := Option.bind_eq_some_iff.mp hparts
    obtain ⟨q₂, hq₂, hlast⟩ := (Machine.run_concat_eq_some_iff step).mp hrest
    exact not_cleared_of_skip hpre hint htimeout hq₂ hmid hlast hk hlt
      (hclear _ post q' hwhole hq')
  · rintro hskips pre post q rfl - cut a since p₁ rfl hends hrun₁ hint hadv e he hlt
    obtain ⟨q, hcut, hstep⟩ := (Machine.run_concat_eq_some_iff step).mp hrun₁
    have ht := trans_of_step hstep
    rcases hends with rfl | rfl
    · exact absurd hlt (not_lt_of_getDelete ht hint he)
    · obtain ⟨hmap, hindex, -⟩ := eq_of_getTimeout ht
      rw [hmap] at he
      rw [hindex] at hint hlt
      have hclean := hskips cut (since ++ post) q (by simp) (List.mem_append_left _ hadv) hcut hint
      exact absurd hlt (hclean e.1 (List.mem_map.mpr ⟨e, he, rfl⟩))

/-! ### Skips over a multiple of the interval -/

/-- A timeout of `get_delete` at a multiple of the interval finds no smaller key in the map. -/
def CleanSkip (p : Pipe) (a : PipeAction) : Prop :=
  a = .getTimeout → p.frameIndex % kFrameMapDropFramesInterval = 0 →
    ∀ k ∈ p.frameMap.map.keys, ¬k < p.frameIndex

instance (p : Pipe) (a : PipeAction) : Decidable (CleanSkip p a) :=
  decidable_of_iff (a = .getTimeout → p.frameIndex % kFrameMapDropFramesInterval = 0 →
    (p.frameMap.map.keys.all fun k => !decide (k < p.frameIndex)) = true) (by simp [CleanSkip])

/-- A run in which every timeout is a `CleanSkip` skips cleanly. -/
theorem skipsClean_of_guarded (hrun : (step.guarded CleanSkip).run init as = some p) :
    SkipsClean as := by
  rintro pre since q rfl - hpre hint
  rw [Machine.run_append] at hrun
  obtain ⟨q', hq', hrest⟩ := Option.bind_eq_some_iff.mp hrun
  have hsame : q' = q :=
    Option.some.inj ((Machine.run_of_run_guarded hq').symm.trans hpre)
  rw [Machine.run_cons] at hrest
  obtain ⟨q₁, htimeout, -⟩ := Option.bind_eq_some_iff.mp hrest
  exact hsame ▸ (Machine.guarded_eq_some_iff.mp htimeout).1 rfl (hsame ▸ hint)

/-- `n` timeouts of `send_frame_thread` in a row. -/
def skipping (n : ℕ) : List PipeAction := (List.replicate n [.getTimeout, .advance]).flatten

/-- With nothing in the map, `send_frame_thread` skips one index after the other. -/
theorem run_skipping (n : ℕ) (i : UInt64) :
    (step.guarded CleanSkip).run { init with frameIndex := i } (skipping n) =
      some { init with frameIndex := i + UInt64.ofNat n } := by
  induction n generalizing i with
  | zero =>
    change some { init with frameIndex := i } = some { init with frameIndex := i + 0 }
    rw [UInt64.add_zero]
  | succ n ih =>
    change (step.guarded CleanSkip).run { init with frameIndex := i }
      (.getTimeout :: .advance :: skipping n) = _
    have htimeout : step.guarded CleanSkip { init with frameIndex := i } .getTimeout =
        some { init with frameIndex := i, send := .advancing } := by
      refine Machine.guarded_eq_some_iff.mpr ⟨fun _ _ k hk => ?_, rfl⟩
      cases hk
    have hadvance : step.guarded CleanSkip { init with frameIndex := i, send := .advancing }
        .advance = some { init with frameIndex := i + 1 } := by
      refine Machine.guarded_eq_some_iff.mpr ⟨fun h => ?_, rfl⟩
      cases h
    rw [Machine.run_cons, htimeout, Option.bind_some, Machine.run_cons, hadvance, Option.bind_some,
      ih, UInt64.ofNat_add, UInt64.add_assoc, UInt64.add_comm 1]
    rfl

/-- A frame with the index is pushed, converted and inserted. -/
def inserting (index : UInt64) : List PipeAction :=
  [.push (RenderedFrame.new { index := index } .rgb24 .gray8 defaultInitInfo defaultInitInfo 0),
    .pop, .convert true true, .insert]

/-- The late frame 5 and the frame 1000 are inserted before `send_frame_thread` asks for the
latter. -/
def hitting : List PipeAction :=
  inserting 5 ++ inserting 1000 ++ [.getDelete, .sendScene 0, .sendDepth 0, .advance]

/-- The frame 1000 comes in time, and the late frame is dropped with it. -/
theorem alwaysCleared_hit :
    ∃ p, step.run init (skipping 1000 ++ hitting) = some p ∧ p.frameIndex = 1001 ∧
      p.frameMap.map.keys = [] ∧ AlwaysCleared (skipping 1000 ++ hitting) := by
  have hguarded := (step.guarded CleanSkip).run_trans (run_skipping 1000 0)
    (show (step.guarded CleanSkip).run { init with frameIndex := 0 + UInt64.ofNat 1000 } hitting =
      some _ from rfl)
  have hrun := Machine.run_of_run_guarded hguarded
  exact ⟨_, hrun, rfl, rfl, (alwaysCleared_iff hrun).mpr (skipsClean_of_guarded hguarded)⟩

/-- The frame 1000 does not come, and the late frame 5 stays in the map. -/
theorem skip_not_cleared :
    ∃ p, step.run init (skipping 1000 ++ inserting 5 ++ [.getTimeout, .advance]) = some p ∧
      p.frameIndex = 1001 ∧ p.frameMap.map.keys = [5] ∧
      ¬Cleared (skipping 1000 ++ inserting 5 ++ [.getTimeout, .advance]) p := by
  have hpre := step.run_trans (Machine.run_of_run_guarded (run_skipping 1000 0))
    (show step.run { init with frameIndex := 0 + UInt64.ofNat 1000 } (inserting 5) =
      some _ from rfl)
  have hrun := step.run_trans hpre (show step.run _ [.getTimeout, .advance] = some _ from rfl)
  have hstale := @not_cleared_of_skip _ _ _ _ _ [] hpre rfl rfl rfl (by simp) rfl 5 (by decide)
    (by decide)
  exact ⟨_, hrun, rfl, rfl, hstale⟩

end Pipe

end Ngp
