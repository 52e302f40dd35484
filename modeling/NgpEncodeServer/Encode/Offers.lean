import NgpEncodeServer.Encode.Frames
import Mathlib.Data.List.Range

/-!
# What `send_frame_thread` hands to the encoders

`OfferHistory` relates the frames taken from the map to the calls of `send_frame`: every frame taken
is offered once to the scene encoder and once to the depth encoder, whatever the encoders answer.
`Keyed` and `Ordered` are the invariants behind the order of the calls: a frame is stored under its
own index, the frame in hand has the index `frame_index`, and the indices offered so far increase
strictly.
-/

namespace Ngp

namespace Pipe

variable {p p' : Pipe} {a : PipeAction}

/-! ### Every frame taken is offered once to each encoder -/

/-- The offers so far are the frames taken so far, each numbered by its take. -/
structure OfferHistory (p : Pipe) : Prop where
  scene_frames : p.takes = p.sceneOffers.map Offer.frame ++ p.send.sceneTodo
  depth_frames : p.takes = p.depthOffers.map Offer.frame ++ p.send.depthTodo
  scene_takes : p.sceneOffers.map Offer.take = List.range' 1 p.sceneOffers.length
  depth_takes : p.depthOffers.map Offer.take = List.range' 1 p.depthOffers.length
  not_raised : ∀ e, p.send ≠ .raised e

theorem offerHistory_init : OfferHistory init := ⟨rfl, rfl, rfl, rfl, by simp [init]⟩

/-- Appending an offer with the next number keeps the numbering. -/
private theorem map_take_append {offers : List Offer} {o : Offer}
    (h : offers.map Offer.take = List.range' 1 offers.length) (ho : o.take = offers.length + 1) :
    (offers ++ [o]).map Offer.take = List.range' 1 (offers ++ [o]).length := by
  rw [List.map_append, h, List.length_append, List.length_singleton, List.range'_concat]
  simp [ho, Nat.add_comm]

/-- A step that touches neither the takes, nor the offers, nor the send thread keeps the history. -/
private theorem OfferHistory.congr (h : OfferHistory p) (htakes : p'.takes = p.takes)
    (hscene : p'.sceneOffers = p.sceneOffers) (hdepth : p'.depthOffers = p.depthOffers)
    (hsend : p'.send = p.send) : OfferHistory p' := by
  constructor
  · rw [htakes, hscene, hsend]; exact h.scene_frames
  · rw [htakes, hdepth, hsend]; exact h.depth_frames
  · rw [hscene]; exact h.scene_takes
  · rw [hdepth]; exact h.depth_takes
  · rw [hsend]; exact h.not_raised

/-- Every step keeps the history. -/
theorem OfferHistory.step (h : OfferHistory p) (ht : Trans p a p') : OfferHistory p' := by
  cases ht with
  | getDelete hat hmem hm =>
    have hs := h.scene_frames
    have hd := h.depth_frames
    rw [hat] at hs hd
    refine ⟨?_, ?_, h.scene_takes, h.depth_takes, by simp⟩
    · simpa [SendPoint.sceneTodo] using hs
    · simpa [SendPoint.depthTodo] using hd
  | getTimeout hat habs =>
    have hs := h.scene_frames
    have hd := h.depth_frames
    rw [hat] at hs hd
    exact ⟨hs, hd, h.scene_takes, h.depth_takes, by simp⟩
  | @sendScene frame ret hat =>
    have hs := h.scene_frames
    have hd := h.depth_frames
    rw [hat] at hs hd
    refine ⟨?_, hd, ?_, h.depth_takes, by simp⟩
    · simpa [SendPoint.sceneTodo] using hs
    · refine map_take_append h.scene_takes ?_
      have hlen := congrArg List.length hs
      simpa [SendPoint.sceneTodo] using hlen
  | @sendDepth frame ret hat =>
    have hs := h.scene_frames
    have hd := h.depth_frames
    rw [hat] at hs hd
    refine ⟨hs, ?_, h.scene_takes, ?_, by simp⟩
    · simpa [SendPoint.depthTodo] using hd
    · refine map_take_append h.depth_takes ?_
      have hlen := congrArg List.length hd
      simpa [SendPoint.depthTodo] using hlen
  | advance hat =>
    have hs := h.scene_frames
    have hd := h.depth_frames
    rw [hat] at hs hd
    exact ⟨hs, hd, h.scene_takes, h.depth_takes, by simp⟩
  | _ => exact h.congr rfl rfl rfl rfl

/-- The depth encoder is offered the frames that the scene encoder was offered before it. -/
theorem OfferHistory.depth_prefix_scene (h : OfferHistory p) :
    p.depthOffers.map Offer.frame <+: p.sceneOffers.map Offer.frame := by
  have htodo : p.send.sceneTodo.length ≤ p.send.depthTodo.length := by
    cases p.send <;> simp [SendPoint.sceneTodo, SendPoint.depthTodo]
  have hs := congrArg List.length h.scene_frames
  have hd := congrArg List.length h.depth_frames
  rw [List.length_append] at hs hd
  exact List.prefix_of_prefix_length_le ⟨_, h.depth_frames.symm⟩ ⟨_, h.scene_frames.symm⟩
    (by omega)

/-- The history holds in every run. -/
theorem offerHistory_run {as : List PipeAction} (hrun : step.run init as = some p) :
    OfferHistory p :=
  Machine.run_invariant offerHistory_init (fun _ _ _ h hs => h.step (trans_of_step hs)) hrun

/-! ### Frames are kept under their own index -/

/-- `process_frame_thread` holds a frame with its index, the map stores a frame under its index, and
the frame in the hand of `send_frame_thread` has the index `frame_index`. -/
structure Keyed (p : Pipe) : Prop where
  process_index : ∀ i f, p.process = .converting i f ∨ p.process = .inserting i f → f.index = i
  map_index : ∀ e ∈ p.frameMap.map.entries, e.2.index = e.1
  todo_index : ∀ f ∈ p.send.depthTodo, f.index = p.frameIndex

theorem keyed_init : Keyed init := by
  constructor <;> simp [init, SendPoint.depthTodo]

/-- Every step keeps the frames under their own index. -/
theorem Keyed.step (h : Keyed p) (ht : Trans p a p') : Keyed p' := by
  obtain ⟨hproc, hmap, htodo⟩ := h
  cases ht with
  | pop hat hq =>
    refine ⟨?_, hmap, htodo⟩
    rintro i f (hf | hf)
    · obtain ⟨rfl, rfl⟩ := ProcessPoint.converting.inj hf
      rfl
    · cases hf
  | @convert i frame _ _ hat =>
    have hidx : frame.index = i := hproc i frame (Or.inl hat)
    refine ⟨?_, hmap, htodo⟩
    rintro i' f (hf | hf)
    · cases hf
    · obtain ⟨rfl, rfl⟩ := ProcessPoint.inserting.inj hf
      exact hidx
  | convertThrows hat hthrow =>
    refine ⟨?_, hmap, htodo⟩
    rintro i f (hf | hf) <;> cases hf
  | @insert i frame m hat hroom hm =>
    refine ⟨?_, fun e he => ?_, htodo⟩
    · rintro i f (hf | hf) <;> cases hf
    · rw [hm] at he
      rcases AssocMap.mem_entries_insert he with rfl | he
      · exact hproc _ _ (Or.inr hat)
      · exact hmap e he
  | insertTimeout hat hfull =>
    refine ⟨?_, hmap, htodo⟩
    rintro i f (hf | hf) <;> cases hf
  | @getDelete frame m hat hmem hm =>
    refine ⟨hproc, fun e he => ?_, fun f hf => ?_⟩
    · rw [hm] at he
      exact hmap e (FrameMap.mem_entries_remaining.mp he).1
    · obtain rfl : f = frame := by simpa [SendPoint.depthTodo] using hf
      exact hmap _ hmem
  | getTimeout hat habs => exact ⟨hproc, hmap, by simp [SendPoint.depthTodo]⟩
  | @sendScene frame ret hat =>
    refine ⟨hproc, hmap, fun f hf => htodo f ?_⟩
    rw [hat]
    exact hf
  | sendDepth hat => exact ⟨hproc, hmap, by simp [SendPoint.depthTodo]⟩
  | advance hat => exact ⟨hproc, hmap, by simp [SendPoint.depthTodo]⟩
  | _ => exact ⟨hproc, hmap, htodo⟩

/-! ### The order of the indices -/

/-- Only the step at the end of an iteration moves `frame_index`. -/
theorem frameIndex_of_trans (ht : Trans p a p') :
    p'.frameIndex = if a = .advance then p.frameIndex + 1 else p.frameIndex := by
  cases ht <;> rfl

/-- The number of indices the scene encoder is past. -/
def sceneBound (p : Pipe) : ℕ :=
  match p.send with
  | .sendingDepth _ | .advancing => p.frameIndex.toNat + 1
  | _ => p.frameIndex.toNat

/-- The number of indices the depth encoder is past. -/
def depthBound (p : Pipe) : ℕ :=
  match p.send with
  | .advancing => p.frameIndex.toNat + 1
  | _ => p.frameIndex.toNat

/-- What an encoder was offered is increasing and below the bound for that encoder. -/
structure Ordered (p : Pipe) : Prop where
  scene_index : ∀ o ∈ p.sceneOffers, o.frame.index = o.frameIndex
  depth_index : ∀ o ∈ p.depthOffers, o.frame.index = o.frameIndex
  scene_lt : ∀ o ∈ p.sceneOffers, o.frameIndex.toNat < p.sceneBound
  depth_lt : ∀ o ∈ p.depthOffers, o.frameIndex.toNat < p.depthBound
  scene_sorted : (p.sceneOffers.map Offer.frameIndex).Pairwise (· < ·)
  depth_sorted : (p.depthOffers.map Offer.frameIndex).Pairwise (· < ·)

theorem ordered_init : Ordered init := by
  constructor <;> simp [init]

/-- Appending an offer whose index is the next one keeps the offers increasing. -/
private theorem sorted_append {offers : List Offer} {o : Offer} {n : ℕ}
    (hsorted : (offers.map Offer.frameIndex).Pairwise (· < ·))
    (hlt : ∀ o' ∈ offers, o'.frameIndex.toNat < n) (ho : o.frameIndex.toNat = n) :
    ((offers ++ [o]).map Offer.frameIndex).Pairwise (· < ·) := by
  rw [List.map_append, List.pairwise_append]
  refine ⟨hsorted, List.pairwise_singleton _ _, fun i hi j hj => ?_⟩
  obtain ⟨o', ho', rfl⟩ := List.mem_map.mp hi
  obtain rfl : j = o.frameIndex := by simpa using hj
  rw [UInt64.lt_iff_toNat_lt, ho]
  exact hlt o' ho'

/-- The bound after an offer of the index it was at. -/
private theorem lt_succ_append {offers : List Offer} {o : Offer} {n : ℕ}
    (hlt : ∀ o' ∈ offers, o'.frameIndex.toNat < n) (ho : o.frameIndex.toNat = n) :
    ∀ o' ∈ offers ++ [o], o'.frameIndex.toNat < n + 1 := by
  intro o' ho'
  rcases List.mem_append.mp ho' with h | h
  · have := hlt o' h
    omega
  · obtain rfl : o' = o := by simpa using h
    omega

/-- What one offer adds to the offers of an encoder: the own index of the frame. -/
private theorem index_append {offers : List Offer} {o : Offer}
    (hidx : ∀ o' ∈ offers, o'.frame.index = o'.frameIndex) (ho : o.frame.index = o.frameIndex) :
    ∀ o' ∈ offers ++ [o], o'.frame.index = o'.frameIndex := by
  intro o' ho'
  rcases List.mem_append.mp ho' with h | h
  · exact hidx o' h
  · obtain rfl : o' = o := by simpa using h
    exact ho

/-- Every step keeps the order, as long as `frame_index` does not wrap around. -/
theorem Ordered.step (h : Ordered p) (hk : Keyed p) (ht : Trans p a p')
    (hwrap : a = .advance → p.frameIndex.toNat + 1 < UInt64.size) : Ordered p' := by
  obtain ⟨hsi, hdi, hsl, hdl, hss, hds⟩ := h
  cases ht with
  | getDelete hat hmem hm =>
    simp only [sceneBound, depthBound, hat] at hsl hdl
    exact ⟨hsi, hdi, hsl, hdl, hss, hds⟩
  | getTimeout hat habs =>
    simp only [sceneBound, depthBound, hat] at hsl hdl
    refine ⟨hsi, hdi, fun o ho => ?_, fun o ho => ?_, hss, hds⟩
    · exact Nat.lt_succ_of_lt (hsl o ho)
    · exact Nat.lt_succ_of_lt (hdl o ho)
  | @sendScene frame ret hat =>
    simp only [sceneBound, depthBound, hat] at hsl hdl
    have hidx : frame.index = p.frameIndex :=
      hk.todo_index frame (by simp [hat, SendPoint.depthTodo])
    exact ⟨index_append hsi hidx, hdi, lt_succ_append hsl rfl, hdl, sorted_append hss hsl rfl, hds⟩
  | @sendDepth frame ret hat =>
    simp only [sceneBound, depthBound, hat] at hsl hdl
    have hidx : frame.index = p.frameIndex :=
      hk.todo_index frame (by simp [hat, SendPoint.depthTodo])
    exact ⟨hsi, index_append hdi hidx, hsl, lt_succ_append hdl rfl, hss, sorted_append hds hdl rfl⟩
  | advance hat =>
    have hnext : (p.frameIndex + 1).toNat = p.frameIndex.toNat + 1 := by
      have := hwrap rfl
      rw [UInt64.toNat_add, UInt64.toNat_one, Nat.mod_eq_of_lt this]
    simp only [sceneBound, depthBound, hat] at hsl hdl
    refine ⟨hsi, hdi, ?_, ?_, hss, hds⟩
    · simpa only [sceneBound, hnext] using hsl
    · simpa only [depthBound, hnext] using hdl
  | _ => exact ⟨hsi, hdi, hsl, hdl, hss, hds⟩

end Pipe

end Ngp
