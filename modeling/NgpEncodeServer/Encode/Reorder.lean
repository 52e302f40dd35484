import NgpEncodeServer.Encode.Offers
import Mathlib.Data.List.Perm.Basic
import Mathlib.Tactic.ByContra

/-!
# Completeness of the reorder buffer

The frames `0, …, n - 1` of one eye are pushed in the order `order`, with fewer than
`kFrameMapMaxSize` larger indices in front of each index, and no wait times out.  Then
`send_frame_thread` gets `0, 1, 2, …` and the pipeline never blocks before it has sent everything.

The invariant `Sequenced` splits what was pushed into three parts in the order of the queue: frames
that reached the map, the frame `process_frame_thread` holds, and the queue.  A frame in a full map
was therefore pushed before the held frame and before everything in the queue; if the next index is
in neither, a hundred larger indices were pushed before it.
-/

namespace Ngp

namespace Pipe

/-- The steps of a run in which the frames are pushed in the order `order`, freshly constructed, no
wait times out and every conversion finds its contexts. -/
def InOrder (order : List UInt64) (p : Pipe) : PipeAction → Prop
  | .push f => f.converted = false ∧ p.pushed.map RenderedFrame.index ++ [f.index] <+: order
  | .convert swsScene swsDepth => swsScene = true ∧ swsDepth = true
  | .popTimeout | .insertTimeout | .getTimeout => False
  | _ => True

instance (order : List UInt64) (p : Pipe) (a : PipeAction) : Decidable (InOrder order p a) := by
  cases a <;> unfold InOrder <;> infer_instance

/-- The pipeline without timeouts, fed in the order `order`. -/
def inOrderStep (order : List UInt64) : Machine Pipe PipeAction := step.guarded (InOrder order)

/-- The indices that went through the queue into the map, and where they are now. -/
structure Sequenced (order : List UInt64) (p : Pipe) : Prop where
  keyed : Keyed p
  pushed_prefix : p.pushed.map RenderedFrame.index <+: order
  queue_fresh : ∀ f ∈ p.frameQueue.queue, f.converted = false
  process_fresh : ∀ i f, p.process = .converting i f → f.converted = false
  process_running : ∀ e, p.process ≠ .raised e
  split : ∃ done, p.pushed.map RenderedFrame.index =
      done ++ p.process.frames.map RenderedFrame.index ++
        p.frameQueue.queue.map RenderedFrame.index ∧
    ∀ k, done.count k = (p.takes.map RenderedFrame.index).count k + p.frameMap.map.keys.count k
  takes_range : p.takes.map (fun f => f.index.toNat) = List.range p.takes.length
  getting_index : p.send = .getting → p.frameIndex.toNat = p.takes.length % UInt64.size
  past_index : p.send ≠ .getting →
    (p.frameIndex.toNat + 1) % UInt64.size = p.takes.length % UInt64.size

theorem sequenced_init (order : List UInt64) : Sequenced order init where
  keyed := keyed_init
  pushed_prefix := List.nil_prefix
  queue_fresh := by simp [init]
  process_fresh := by simp [init]
  process_running := by simp [init]
  split := ⟨[], rfl, fun _ => rfl⟩
  takes_range := rfl
  getting_index := fun _ => rfl
  past_index := fun h => absurd rfl h

section Order

variable {n : ℕ} {order : List UInt64} (hperm : (order.map UInt64.toNat).Perm (List.range n))
  {p p' : Pipe} {a : PipeAction}

include hperm

/-- The order lists every index once. -/
private theorem order_nodup : order.Nodup :=
  List.Nodup.of_map _ (hperm.nodup_iff.mpr List.nodup_range)

/-- The indices of the order are those below `n`. -/
private theorem mem_order_iff {k : UInt64} : k ∈ order ↔ k.toNat < n := by
  rw [← List.mem_range, ← hperm.mem_iff]
  constructor
  · intro hk
    exact List.mem_map.mpr ⟨k, hk, rfl⟩
  · intro hk
    obtain ⟨k', hk', heq⟩ := List.mem_map.mp hk
    exact UInt64.toNat_inj.mp heq ▸ hk'

/-- No index is pushed twice. -/
private theorem count_pushed_le_one (h : Sequenced order p) (k : UInt64) :
    (p.pushed.map RenderedFrame.index).count k ≤ 1 := by
  have hnd : (p.pushed.map RenderedFrame.index).Nodup :=
    (order_nodup hperm).sublist h.pushed_prefix.sublist
  exact List.nodup_iff_count_le_one.mp hnd k

/-- An index that has been taken is not in the map. -/
private theorem not_mem_keys_of_lt (h : Sequenced order p) {k : UInt64}
    (hk : k.toNat < p.takes.length) : k ∉ p.frameMap.map.keys := by
  intro hmem
  obtain ⟨done, hsplit, hcount⟩ := h.split
  have htaken : k ∈ p.takes.map RenderedFrame.index := by
    have hk' : k.toNat ∈ p.takes.map fun f => f.index.toNat := by
      rw [h.takes_range]
      exact List.mem_range.mpr hk
    obtain ⟨f, hf, heq⟩ := List.mem_map.mp hk'
    exact List.mem_map.mpr ⟨f, hf, UInt64.toNat_inj.mp heq⟩
  have hpushed := count_pushed_le_one hperm h k
  rw [hsplit, List.count_append, List.count_append, hcount] at hpushed
  have h1 := List.count_pos_iff.mpr htaken
  have h2 := List.count_pos_iff.mpr hmem
  omega

omit hperm in
/-- The indices taken are those below the number of takes. -/
private theorem not_mem_takes_of_le (h : Sequenced order p) {k : UInt64}
    (hk : p.takes.length ≤ k.toNat) : k ∉ p.takes.map RenderedFrame.index := by
  intro hmem
  obtain ⟨f, hf, rfl⟩ := List.mem_map.mp hmem
  have hrange : f.index.toNat ∈ List.range p.takes.length :=
    h.takes_range ▸ List.mem_map.mpr ⟨f, hf, rfl⟩
  have hlt := List.mem_range.mp hrange
  omega

/-- The index `send_frame_thread` gets is the next one. -/
private theorem toNat_frameIndex_of_mem_keys (h : Sequenced order p) (hat : p.send = .getting)
    (hmem : p.frameIndex ∈ p.frameMap.map.keys) : p.frameIndex.toNat = p.takes.length := by
  have hge : ¬p.frameIndex.toNat < p.takes.length :=
    fun hlt => not_mem_keys_of_lt hperm h hlt hmem
  have hmod := h.getting_index hat
  have hle := Nat.mod_le p.takes.length UInt64.size
  omega

/-- The frame `process_frame_thread` is about to insert has an index that is not in the map. -/
private theorem not_mem_keys_of_inserting (h : Sequenced order p) {i : UInt64}
    {frame : RenderedFrame} (hat : p.process = .inserting i frame) :
    i ∉ p.frameMap.map.keys := by
  intro hmem
  obtain ⟨done, hsplit, hcount⟩ := h.split
  have hheld : p.process.frames.map RenderedFrame.index = [i] := by
    simp [hat, ProcessPoint.frames, h.keyed.process_index i frame (Or.inr hat)]
  have hpushed := count_pushed_le_one hperm h i
  have hpos := List.count_pos_iff.mpr hmem
  rw [hsplit, List.count_append, List.count_append, hcount, hheld, List.count_singleton_self]
    at hpushed
  omega

/-- When the next index is in the map, all smaller indices have been taken, so that the cleanup
finds nothing. -/
private theorem no_smaller_keys (h : Sequenced order p) (hat : p.send = .getting)
    (hmem : p.frameIndex ∈ p.frameMap.map.keys) :
    ∀ k ∈ p.frameMap.map.keys, ¬k < p.frameIndex := by
  intro k hk hlt
  have hnext := toNat_frameIndex_of_mem_keys hperm h hat hmem
  exact not_mem_keys_of_lt hperm h (hnext ▸ UInt64.lt_iff_toNat_lt.mp hlt) hk

/-- Every step of a run in order keeps the invariant. -/
private theorem Sequenced.step (h : Sequenced order p) (hg : InOrder order p a)
    (ht : Trans p a p') : Sequenced order p' := by
  have hkeyed := h.keyed.step ht
  cases ht with
  | @push frame q hroom hq =>
    obtain ⟨hfresh, hprefix⟩ := hg
    obtain ⟨done, hsplit, hcount⟩ := h.split
    refine ⟨hkeyed, ?_, ?_, h.process_fresh, h.process_running, ⟨done, ?_, hcount⟩, h.takes_range,
      h.getting_index, h.past_index⟩
    · rw [List.map_append]
      exact hprefix
    · intro f hf
      rw [hq] at hf
      rcases List.mem_append.mp hf with hf | hf
      · exact h.queue_fresh f hf
      · obtain rfl : f = frame := by simpa using hf
        exact hfresh
    · rw [List.map_append, hsplit, hq, List.map_append, List.append_assoc _ _ (List.map _ [frame])]
  | @pop frame q hat hq =>
    obtain ⟨done, hsplit, hcount⟩ := h.split
    have hmem : frame ∈ p.frameQueue.queue := by simp [hq]
    refine ⟨hkeyed, h.pushed_prefix, fun f hf => h.queue_fresh f (by simp [hq, hf]), ?_, by simp,
      ⟨done, ?_, hcount⟩, h.takes_range, h.getting_index, h.past_index⟩
    · rintro i f hf
      obtain ⟨rfl, rfl⟩ := ProcessPoint.converting.inj hf
      exact h.queue_fresh _ hmem
    · rw [hsplit, hat, hq]
      simp [ProcessPoint.frames]
  | popTimeout hat hq => exact hg.elim
  | @convert i frame _ _ hat =>
    obtain ⟨done, hsplit, hcount⟩ := h.split
    refine ⟨hkeyed, h.pushed_prefix, h.queue_fresh, by simp, by simp, ⟨done, ?_, hcount⟩,
      h.takes_range, h.getting_index, h.past_index⟩
    rw [hsplit, hat]
    rfl
  | @convertThrows i frame swsScene swsDepth e hat hthrow =>
    obtain ⟨rfl, rfl⟩ := hg
    simp [RenderedFrame.convertFrame, h.process_fresh i frame hat] at hthrow
  | @insert i frame m hat hroom hm =>
    obtain ⟨done, hsplit, hcount⟩ := h.split
    rw [hat] at hsplit
    have hidx : frame.index = i := h.keyed.process_index i frame (Or.inr hat)
    have hnew := not_mem_keys_of_inserting hperm h hat
    refine ⟨hkeyed, h.pushed_prefix, h.queue_fresh, by simp, by simp, ⟨done ++ [i], ?_, ?_⟩,
      h.takes_range, h.getting_index, h.past_index⟩
    · rw [hsplit]
      simp [ProcessPoint.frames, hidx]
    · intro k
      rw [List.count_append, hcount, hm, AssocMap.count_keys_insert frame hnew, Nat.add_assoc]
  | insertTimeout hat hfull => exact hg.elim
  | @getDelete frame m hat hmem hm =>
    obtain ⟨done, hsplit, hcount⟩ := h.split
    have hkey : p.frameIndex ∈ p.frameMap.map.keys := List.mem_map.mpr ⟨_, hmem, rfl⟩
    have hnext := toNat_frameIndex_of_mem_keys hperm h hat hkey
    have hidx : frame.index = p.frameIndex := h.keyed.map_index _ hmem
    rw [FrameMap.remaining_eq_erase (no_smaller_keys hperm h hat hkey)] at hm
    refine ⟨hkeyed, h.pushed_prefix, h.queue_fresh, h.process_fresh, h.process_running,
      ⟨done, hsplit, ?_⟩, ?_, by simp, ?_⟩
    · intro k
      have herase := AssocMap.count_keys_erase_add hkey k
      rw [hcount, hm, List.map_append, List.count_append, List.map_cons, List.map_nil, hidx]
      omega
    · rw [List.map_append, h.takes_range, List.length_append, List.length_singleton,
        List.range_succ, List.map_cons, List.map_nil, hidx, hnext]
    · intro _
      rw [hnext, List.length_append, List.length_singleton]
  | getTimeout hat habs => exact hg.elim
  | sendScene hat =>
    exact ⟨hkeyed, h.pushed_prefix, h.queue_fresh, h.process_fresh, h.process_running, h.split,
      h.takes_range, by simp, fun _ => h.past_index (by simp [hat])⟩
  | sendDepth hat =>
    exact ⟨hkeyed, h.pushed_prefix, h.queue_fresh, h.process_fresh, h.process_running, h.split,
      h.takes_range, by simp, fun _ => h.past_index (by simp [hat])⟩
  | advance hat =>
    refine ⟨hkeyed, h.pushed_prefix, h.queue_fresh, h.process_fresh, h.process_running, h.split,
      h.takes_range, fun _ => ?_, by simp⟩
    rw [UInt64.toNat_add, UInt64.toNat_one]
    exact h.past_index (by simp [hat])

/-- The invariant holds in every run in order. -/
theorem sequenced_run {as : List PipeAction}
    (hrun : (inOrderStep order).run init as = some p) : Sequenced order p := by
  apply Machine.run_guarded_invariant (sequenced_init order) _ hrun
  intro s a s' hs hg hm
  exact hs.step hperm hg (trans_of_step hm)

end Order

/-! ### States in which nothing can proceed -/

section Stuck

variable {order : List UInt64} {p : Pipe}

/-- An allowed action that is not enabled in a stuck state. -/
private theorem step_eq_none_of_stuck (hs : (inOrderStep order).Stuck p) {a : PipeAction}
    (hg : InOrder order p a) : step p a = none := by
  have h := hs a
  rwa [inOrderStep, Machine.guarded, if_pos hg] at h

/-- In a stuck state `send_frame_thread` waits for an index that is not in the map. -/
private theorem send_of_stuck (hs : (inOrderStep order).Stuck p) (hh : OfferHistory p) :
    p.send = .getting ∧ p.frameIndex ∉ p.frameMap.map.keys := by
  have hsend : p.send = .getting := by
    cases hat : p.send with
    | getting => rfl
    | sendingScene f =>
      have h := step_eq_none_of_stuck hs (a := .sendScene 0) trivial
      simp [step, hat] at h
    | sendingDepth f =>
      have h := step_eq_none_of_stuck hs (a := .sendDepth 0) trivial
      simp [step, hat] at h
    | advancing =>
      have h := step_eq_none_of_stuck hs (a := .advance) trivial
      simp [step, hat] at h
    | raised e => exact absurd hat (hh.not_raised e)
  refine ⟨hsend, fun hmem => ?_⟩
  obtain ⟨r, hr⟩ := FrameMap.exists_getDelete_eq_ok hmem
  have h := step_eq_none_of_stuck hs (a := .getDelete) trivial
  simp [step, hsend, hr] at h

/-- In a stuck state `process_frame_thread` waits for a frame or for room in the map. -/
private theorem process_of_stuck (hs : (inOrderStep order).Stuck p) (h : Sequenced order p) :
    (p.process = .popping ∧ p.frameQueue.queue = []) ∨
      ∃ i f, p.process = .inserting i f ∧ p.frameMap.map.size = kFrameMapMaxSize := by
  cases hat : p.process with
  | popping =>
    refine Or.inl ⟨rfl, ?_⟩
    by_contra hne
    obtain ⟨r, hr⟩ := FrameQueue.exists_pop_eq_ok hne
    have h := step_eq_none_of_stuck hs (a := .pop) trivial
    simp [step, hat, hr] at h
  | converting i f =>
    have hfresh := h.process_fresh i f hat
    have h := step_eq_none_of_stuck hs (a := .convert true true) ⟨rfl, rfl⟩
    simp [step, hat, RenderedFrame.convertFrame, hfresh] at h
  | inserting i f =>
    refine Or.inr ⟨i, f, rfl, ?_⟩
    by_contra hne
    have hle := p.frameMap.size_le
    obtain ⟨m, hm⟩ := FrameMap.exists_insert_eq_ok (lt_of_le_of_ne hle hne) i f
    have h := step_eq_none_of_stuck hs (a := .insert) trivial
    simp [step, hat, hm] at h
  | raised e => exact absurd hat (h.process_running e)

/-- In a stuck state with an empty queue every frame has been pushed. -/
private theorem pushed_of_stuck (hs : (inOrderStep order).Stuck p) (h : Sequenced order p)
    (hempty : p.frameQueue.queue = []) : p.pushed.map RenderedFrame.index = order := by
  obtain ⟨rest, hrest⟩ := h.pushed_prefix
  cases rest with
  | nil => rwa [List.append_nil] at hrest
  | cons k rest =>
    let frame : RenderedFrame :=
      RenderedFrame.new { index := k } .rgb24 .gray8 defaultInitInfo defaultInitInfo 0
    have hg : InOrder order p (.push frame) := by
      refine ⟨rfl, rest, ?_⟩
      rw [List.append_assoc, ← hrest]
      rfl
    have hroom : p.frameQueue.queue.length < kFrameQueueMaxSize := by
      rw [hempty]
      decide
    obtain ⟨q, hq⟩ := FrameQueue.exists_push_eq_ok hroom frame
    have h := step_eq_none_of_stuck hs hg
    simp [step, hq] at h

end Stuck

/-! ### What the order says about a missing index -/

/-- A prefix without `k` ends before the first `k`. -/
private theorem prefix_takeWhile_ne {l l' : List UInt64} {k : UInt64} (h : l <+: l')
    (hk : k ∉ l) : l <+: l'.takeWhile (· ≠ k) := by
  obtain ⟨rest, rfl⟩ := h
  have hall : ∀ x ∈ l, decide (x ≠ k) = true := by
    intro x hx
    simpa using fun heq : x = k => hk (heq ▸ hx)
  rw [List.takeWhile_append_of_pos hall]
  exact List.prefix_append _ _

/-- Distinct elements of a list that satisfy a condition are counted there. -/
private theorem length_le_countP {l l' : List UInt64} {q : UInt64 → Bool} (hnd : l.Nodup)
    (hl : ∀ x ∈ l, x ∈ l' ∧ q x = true) : l.length ≤ l'.countP q := by
  have hsub : l.Subperm (l'.filter q) :=
    List.subperm_of_subset hnd fun x hx => List.mem_filter.mpr (hl x hx)
  rw [List.countP_eq_length_filter]
  exact hsub.length_le

section Complete

variable {n : ℕ} {order : List UInt64} {p : Pipe}
  (hperm : (order.map UInt64.toNat).Perm (List.range n))

/-- An index in the map is one of those that reached the map. -/
private theorem mem_done_of_mem_keys {done : List UInt64}
    (hcount : ∀ k, done.count k =
      (p.takes.map RenderedFrame.index).count k + p.frameMap.map.keys.count k)
    {k : UInt64} (hk : k ∈ p.frameMap.map.keys) : k ∈ done := by
  have hpos := List.count_pos_iff.mpr hk
  refine List.count_pos_iff.mp ?_
  rw [hcount]
  omega

/-- An index that is in the map is in the order. -/
private theorem mem_order_of_mem_keys (h : Sequenced order p) {k : UInt64}
    (hk : k ∈ p.frameMap.map.keys) : k ∈ order := by
  obtain ⟨done, hsplit, hcount⟩ := h.split
  refine h.pushed_prefix.subset ?_
  rw [hsplit]
  exact List.mem_append_left _ (List.mem_append_left _ (mem_done_of_mem_keys hcount hk))

/-- An index that has not been taken and is not in the map has not reached the map. -/
private theorem not_mem_done (h : Sequenced order p) {done : List UInt64}
    (hcount : ∀ k, done.count k =
      (p.takes.map RenderedFrame.index).count k + p.frameMap.map.keys.count k)
    {k : UInt64} (hk : p.takes.length ≤ k.toNat) (habs : k ∉ p.frameMap.map.keys) : k ∉ done := by
  intro hin
  have hpos := List.count_pos_iff.mpr hin
  rw [hcount, List.count_eq_zero_of_not_mem (not_mem_takes_of_le h hk),
    List.count_eq_zero_of_not_mem habs] at hpos
  exact Nat.lt_irrefl 0 hpos

include hperm

/-- No more frames are taken than there are. -/
private theorem length_takes_le (h : Sequenced order p) : p.takes.length ≤ n := by
  by_contra hlt
  have hn : n ∈ p.takes.map fun f => f.index.toNat := by
    rw [h.takes_range]
    exact List.mem_range.mpr (by omega)
  obtain ⟨f, hf, heq⟩ := List.mem_map.mp hn
  obtain ⟨done, hsplit, hcount⟩ := h.split
  have hmem : f.index ∈ p.pushed.map RenderedFrame.index := by
    have htake := List.count_pos_iff.mpr (List.mem_map_of_mem (f := RenderedFrame.index) hf)
    rw [hsplit]
    refine List.mem_append_left _ (List.mem_append_left _ (List.count_pos_iff.mp ?_))
    rw [hcount]
    omega
  have horder := (mem_order_iff hperm).mp (h.pushed_prefix.subset hmem)
  omega

/-- While the next index is missing, every index in the map is larger, and `frame_index` is the
number of takes if there is one. -/
private theorem missing_lt (h : Sequenced order p) (hsend : p.send = .getting)
    (habs : p.frameIndex ∉ p.frameMap.map.keys) {k : UInt64} (hk : k ∈ p.frameMap.map.keys) :
    p.frameIndex.toNat = p.takes.length ∧ p.frameIndex < k := by
  have hge : ¬k.toNat < p.takes.length := fun hlt => not_mem_keys_of_lt hperm h hlt hk
  have hindex : p.frameIndex.toNat = p.takes.length := by
    rw [h.getting_index hsend]
    exact Nat.mod_eq_of_lt (lt_of_le_of_lt (Nat.le_of_not_lt hge) k.toNat_lt)
  have hne : k.toNat ≠ p.frameIndex.toNat := fun heq => habs (UInt64.toNat_inj.mp heq ▸ hk)
  refine ⟨hindex, ?_⟩
  rw [UInt64.lt_iff_toNat_lt]
  omega

/-- A full map in front of a missing index holds a hundred larger indices, and they were pushed
before everything that is not in the map yet. -/
private theorem not_full_of_missing (h : Sequenced order p)
    (hahead : ∀ k ∈ order,
      ((order.takeWhile (· ≠ k)).filter (k < ·)).length < kFrameMapMaxSize)
    (hsend : p.send = .getting) (habs : p.frameIndex ∉ p.frameMap.map.keys) :
    p.frameMap.map.size ≠ kFrameMapMaxSize := by
  intro hfull
  obtain ⟨done, hsplit, hcount⟩ := h.split
  have hkeys : p.frameMap.map.keys.length = kFrameMapMaxSize := by
    rw [AssocMap.keys, List.length_map]
    exact hfull
  -- some index of the map is larger than the next one, so the next one is below `n`
  obtain ⟨k₀, hk₀⟩ : ∃ k, k ∈ p.frameMap.map.keys :=
    List.exists_mem_of_length_pos (by rw [hkeys]; decide)
  obtain ⟨hindex, hlt₀⟩ := missing_lt hperm h hsend habs hk₀
  have hmem : p.frameIndex ∈ order := by
    have hk₀n := (mem_order_iff hperm).mp (mem_order_of_mem_keys h hk₀)
    exact (mem_order_iff hperm).mpr ((UInt64.lt_iff_toNat_lt.mp hlt₀).trans hk₀n)
  have hfront : done <+: order.takeWhile (· ≠ p.frameIndex) := by
    refine prefix_takeWhile_ne ?_ (not_mem_done h hcount (by omega) habs)
    refine List.IsPrefix.trans ?_ h.pushed_prefix
    rw [hsplit, List.append_assoc]
    exact List.prefix_append _ _
  have hlarger : kFrameMapMaxSize ≤ done.countP (p.frameIndex < ·) := by
    rw [← hkeys]
    refine length_le_countP p.frameMap.map.nodup fun k hk => ⟨mem_done_of_mem_keys hcount hk, ?_⟩
    exact decide_eq_true (missing_lt hperm h hsend habs hk).2
  have hfew := hahead _ hmem
  rw [← List.countP_eq_length_filter] at hfew
  have hmono := hfront.sublist.countP_le (p := fun k => p.frameIndex < k)
  omega

/-- When everything pushed has reached the map and the next index is missing, all frames have been
taken and the map is empty. -/
private theorem complete_of_missing (h : Sequenced order p) (hsend : p.send = .getting)
    (habs : p.frameIndex ∉ p.frameMap.map.keys)
    (hcount : ∀ k, order.count k =
      (p.takes.map RenderedFrame.index).count k + p.frameMap.map.keys.count k) :
    p.takes.length = n ∧ p.frameMap.map.entries = [] := by
  have hle := length_takes_le hperm h
  have hn : p.takes.length = n := by
    by_contra hne
    -- the next index has been pushed, so it would be in the map
    have hmem : p.takes.length ∈ order.map UInt64.toNat :=
      hperm.mem_iff.mpr (List.mem_range.mpr (by omega))
    obtain ⟨k, hk, hkeq⟩ := List.mem_map.mp hmem
    have hindex : p.frameIndex = k := by
      rw [← UInt64.toNat_inj, h.getting_index hsend, ← hkeq]
      exact Nat.mod_eq_of_lt k.toNat_lt
    exact not_mem_done h hcount (by omega) (hindex ▸ habs) hk
  refine ⟨hn, ?_⟩
  rw [← List.map_eq_nil_iff (f := Prod.fst), List.eq_nil_iff_forall_not_mem]
  intro k hk
  have hlt := (mem_order_iff hperm).mp (mem_order_of_mem_keys h hk)
  exact not_mem_keys_of_lt hperm h (by omega) hk

end Complete

/-- Let the frames `0, …, n - 1` be pushed in the order `order`, with fewer than `kFrameMapMaxSize`
larger indices before each index, and let no wait time out.  Then the frames got, and those handed
to either encoder, always are `0, 1, 2, …` in this order, and in every state in which nothing can
proceed all `n` frames have been sent and the queue and the map are empty. -/
theorem reorder_complete (n : ℕ) (order : List UInt64)
    (hperm : (order.map UInt64.toNat).Perm (List.range n))
    (hahead : ∀ k ∈ order,
      ((order.takeWhile (· ≠ k)).filter (k < ·)).length < kFrameMapMaxSize)
    {as : List PipeAction} {p : Pipe} (hrun : (inOrderStep order).run init as = some p) :
    (p.takes.map (fun f => f.index.toNat) = List.range p.takes.length ∧
      p.sceneOffers.map (fun o => o.frame.index.toNat) = List.range p.sceneOffers.length ∧
      p.depthOffers.map (fun o => o.frame.index.toNat) = List.range p.depthOffers.length) ∧
    ((inOrderStep order).Stuck p →
      p.sceneOffers.length = n ∧ p.depthOffers.length = n ∧ p.frameQueue.queue = [] ∧
        p.frameMap.map.entries = []) := by
  have hseq := sequenced_run hperm hrun
  have hh := offerHistory_run (Machine.run_of_run_guarded hrun)
  -- the offers are an initial part of the takes
  have hoffers : ∀ (offers : List Offer) (todo : List RenderedFrame),
      p.takes = offers.map Offer.frame ++ todo →
      offers.map (fun o => o.frame.index.toNat) = List.range offers.length := by
    intro offers todo htakes
    have hrange := congrArg (List.take offers.length) hseq.takes_range
    rw [htakes, List.map_append, List.take_left' (by simp), List.take_range, List.map_map] at hrange
    rw [List.length_append, List.length_map, Nat.min_eq_left (Nat.le_add_right _ _)] at hrange
    exact hrange
  refine ⟨⟨hseq.takes_range, hoffers _ _ hh.scene_frames, hoffers _ _ hh.depth_frames⟩, ?_⟩
  intro hstuck
  obtain ⟨hsend, habs⟩ := send_of_stuck hstuck hh
  have hscene : p.takes.length = p.sceneOffers.length := by
    simpa [hsend, SendPoint.sceneTodo] using congrArg List.length hh.scene_frames
  have hdepth : p.takes.length = p.depthOffers.length := by
    simpa [hsend, SendPoint.depthTodo] using congrArg List.length hh.depth_frames
  rcases process_of_stuck hstuck hseq with ⟨hpop, hempty⟩ | ⟨i, f, -, hfull⟩
  · have hall := pushed_of_stuck hstuck hseq hempty
    obtain ⟨done, hsplit, hcount⟩ := hseq.split
    have hdone : order = done := by simpa [hall, hpop, hempty, ProcessPoint.frames] using hsplit
    obtain ⟨hn, hmap⟩ := complete_of_missing hperm hseq hsend habs (hdone ▸ hcount)
    exact ⟨hscene ▸ hn, hdepth ▸ hn, hempty, hmap⟩
  · exact absurd hfull (not_full_of_missing hperm hseq hahead hsend habs)

/-- Two frames that arrive in the wrong order and go through to the encoders. -/
def swappedActions : List PipeAction :=
  let frame := fun i : UInt64 =>
    RenderedFrame.new { index := i } .rgb24 .gray8 defaultInitInfo defaultInitInfo 0
  [.push (frame 1), .push (frame 0), .pop, .convert true true, .insert, .pop, .convert true true,
    .insert, .getDelete, .sendScene 0, .sendDepth 0, .advance, .getDelete, .sendScene 0,
    .sendDepth 0, .advance]

/-- The swapped frames are sent in the order of their indices. -/
theorem reorder_complete_swapped :
    ∃ p, (inOrderStep [1, 0]).run init swappedActions = some p ∧
      p.sceneOffers.map (fun o => o.frame.index.toNat) = [0, 1] := by
  have hahead : ∀ k ∈ ([1, 0] : List UInt64),
      ((([1, 0] : List UInt64).takeWhile (· ≠ k)).filter (k < ·)).length < kFrameMapMaxSize := by
    intro k _
    have hle := (List.length_filter_le (k < ·) _).trans
      (List.takeWhile_sublist (· ≠ k) (l := [1, 0])).length_le
    exact Nat.lt_of_le_of_lt hle (by decide)
  exact ⟨_, rfl, (reorder_complete 2 [1, 0] (by decide) hahead
    (show (inOrderStep [1, 0]).run init swappedActions = some _ from rfl)).1.2.1⟩

end Pipe

end Ngp
