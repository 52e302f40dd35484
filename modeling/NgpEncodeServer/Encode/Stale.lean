import NgpEncodeServer.Encode.Pipeline

/-!
# Stale frames in the map

A frame inserted under an index that `send_frame_thread` has already passed can never be got: it
stays in the map until the cleanup of a successful `get_delete` at a multiple of
`kFrameMapDropFramesInterval`.  When such frames fill the map, the eye is wedged.

The number of stale frames is at most the number of late insertions since the last cleanup
(`StaleBound`), so an eye is never wedged as long as fewer than `kFrameMapMaxSize` insertions are
late between two cleanups.
-/

namespace Ngp

namespace Pipe

/-- The map is full of frames whose index `send_frame_thread` has passed: every insertion is blocked
and no `get_delete` can succeed again. -/
def Wedged (p : Pipe) : Prop :=
  p.frameMap.map.size = kFrameMapMaxSize ∧ ∀ k ∈ p.frameMap.map.keys, k < p.frameIndex

instance (p : Pipe) : Decidable (Wedged p) :=
  decidable_of_iff (p.frameMap.map.size = kFrameMapMaxSize ∧
    (p.frameMap.map.keys.all fun k => k < p.frameIndex) = true) (by simp [Wedged])

/-- An insertion under an index that has been passed leaves the number of such insertions since the
last cleanup below the size of the map. -/
def LateRoom (p : Pipe) (a : PipeAction) : Prop :=
  match a, p.process with
  | .insert, .inserting i _ => p.passed i = true → p.late + 1 < kFrameMapMaxSize
  | _, _ => True

instance (p : Pipe) (a : PipeAction) : Decidable (LateRoom p a) := by
  unfold LateRoom
  split <;> infer_instance

/-- The stale entries of the map are accounted for by late insertions. -/
def StaleBound (p : Pipe) : Prop :=
  (p.frameMap.map.entries.countP fun e => p.passed e.1) ≤ p.late

theorem staleBound_init : StaleBound init := Nat.le_refl _

variable {p p' : Pipe} {a : PipeAction}

/-- While `send_frame_thread` waits, the passed indices are the smaller ones. -/
theorem passed_of_getting (hat : p.send = .getting) (k : UInt64) :
    p.passed k = decide (k < p.frameIndex) := by
  simp [passed, hat]

/-- After the wait has ended, the index waited for is passed too. -/
theorem passed_of_ne_getting (hat : p.send ≠ .getting) (k : UInt64) :
    p.passed k = (decide (k < p.frameIndex) || k == p.frameIndex) := by
  have hne : (p.send != .getting) = true := by simpa using hat
  simp [passed, hne]

/-- An index below the incremented `frame_index` had been passed before the increment. -/
private theorem lt_or_eq_of_lt_succ {k i : UInt64} (h : k < i + 1) : k < i ∨ k = i := by
  rw [UInt64.lt_iff_toNat_lt, UInt64.toNat_add, UInt64.toNat_one] at h
  have hmod := Nat.mod_le (i.toNat + 1) (2 ^ 64)
  rcases Nat.lt_or_ge k.toNat i.toNat with hlt | hge
  · exact Or.inl (UInt64.lt_iff_toNat_lt.mpr hlt)
  · exact Or.inr (UInt64.toNat_inj.mp (by omega))

/-- A step that leaves the map and the late insertions alone keeps the bound if it passes no index
of the map. -/
private theorem StaleBound.of_passed (h : StaleBound p) (hmap : p'.frameMap = p.frameMap)
    (hlate : p'.late = p.late)
    (hpassed : ∀ e ∈ p.frameMap.map.entries, p'.passed e.1 = true → p.passed e.1 = true) :
    StaleBound p' := by
  unfold StaleBound at h ⊢
  rw [hmap, hlate]
  exact Nat.le_trans (List.countP_mono_left hpassed) h

/-- Getting a frame keeps the bound: the cleanup leaves no stale entry, and without it the entries
left are stale only if they were before. -/
private theorem StaleBound.getDelete {frame : RenderedFrame} (h : StaleBound p)
    (hat : p.send = .getting) (hmem : (p.frameIndex, frame) ∈ p.frameMap.map.entries)
    (hsend : p'.send ≠ .getting) (hindex : p'.frameIndex = p.frameIndex)
    (hm : p'.frameMap.map = FrameMap.remaining p.frameMap.map p.frameIndex)
    (hlate : p'.late = if p.frameIndex % kFrameMapDropFramesInterval = 0 then 0 else p.late) :
    StaleBound p' := by
  unfold StaleBound at h ⊢
  rw [hm, hlate]
  split
  · rename_i hint
    refine Nat.le_of_eq (List.countP_eq_zero.mpr fun e he => ?_)
    obtain ⟨-, hne, hnot⟩ := FrameMap.mem_entries_remaining.mp he
    have hge : ¬e.1 < p.frameIndex := fun hlt => hnot ⟨hint, hlt⟩
    rw [passed_of_ne_getting hsend, hindex]
    simp [hne, hge]
  · have hrem := FrameMap.countP_remaining_add_le (fun e => p.passed e.1) hmem
    refine Nat.le_trans (List.countP_mono_left fun e he hp => ?_)
      (Nat.le_trans (Nat.le_of_add_right_le hrem) h)
    obtain ⟨-, hne, -⟩ := FrameMap.mem_entries_remaining.mp he
    rw [passed_of_ne_getting hsend, hindex] at hp
    rw [passed_of_getting hat]
    simpa [hne] using hp

/-- Every step keeps the bound. -/
theorem StaleBound.step (h : StaleBound p) (ht : Trans p a p') : StaleBound p' := by
  cases ht with
  | @insert i frame m hat hroom hm =>
    have hins := p.frameMap.map.countP_insert_le (fun e => p.passed e.1) i frame
    change (m.map.entries.countP fun e : UInt64 × RenderedFrame => p.passed e.1) ≤
      if p.passed i then p.late + 1 else p.late
    rw [hm]
    refine Nat.le_trans hins ?_
    split
    · exact Nat.add_le_add_right h 1
    · exact h
  | getDelete hat hmem hm =>
    exact h.getDelete hat hmem (by simp) rfl hm rfl
  | getTimeout hat habs =>
    refine h.of_passed rfl rfl fun e he hp => ?_
    have hne : e.1 ≠ p.frameIndex := fun heq => habs (heq ▸ List.mem_map.mpr ⟨e, he, rfl⟩)
    rw [passed_of_ne_getting (by simp)] at hp
    rw [passed_of_getting hat]
    simpa [hne] using hp
  | sendScene hat | sendDepth hat =>
    refine h.of_passed rfl rfl fun e he hp => ?_
    rw [passed_of_ne_getting (by simp)] at hp
    rwa [passed_of_ne_getting (by simp [hat])]
  | advance hat =>
    refine h.of_passed rfl rfl fun e he hp => ?_
    rw [passed_of_getting rfl] at hp
    rw [passed_of_ne_getting (by simp [hat])]
    simpa using lt_or_eq_of_lt_succ (by simpa using hp)
  | _ => exact h

/-- A step with room for its late insertion keeps the number of late insertions below the size of
the map. -/
theorem late_lt_step (h : p.late < kFrameMapMaxSize) (hroom : LateRoom p a) (ht : Trans p a p') :
    p'.late < kFrameMapMaxSize := by
  cases ht with
  | insert hat _ _ =>
    simp only [LateRoom, hat] at hroom
    change (if _ then _ else _) < _
    split
    · exact hroom ‹_›
    · exact h
  | getDelete hat _ _ =>
    change (if _ then _ else _) < _
    split
    · decide
    · exact h
  | _ => exact h

/-- In a wedged eye every entry is stale. -/
theorem not_wedged (h : StaleBound p) (hlate : p.late < kFrameMapMaxSize) : ¬Wedged p := by
  rintro ⟨hfull, hall⟩
  have hcount : (p.frameMap.map.entries.countP fun e => p.passed e.1) =
      p.frameMap.map.entries.length := by
    refine List.countP_eq_length.mpr fun e he => ?_
    have hlt := hall e.1 (List.mem_map.mpr ⟨e, he, rfl⟩)
    simp [passed, hlt]
  unfold StaleBound at h
  rw [hcount] at h
  unfold AssocMap.size at hfull
  omega

end Pipe

end Ngp
