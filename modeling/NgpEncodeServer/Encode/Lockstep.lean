import NgpEncodeServer.Encode.Offers

/-!
# Scene and depth streams in lockstep

What `send_frame_thread` does with the return codes of the two encoders.  The comments of its
`switch` ask for a resend on `EAGAIN` and build an exception for the other errors; the code does
neither and advances after every frame.  So the two streams are in lockstep, with no frame lost
between the map and the encoders, exactly in the runs in which every offer is accepted.
-/

namespace Ngp

namespace Pipe

/-- The indices of the frames an encoder accepted, in order. -/
def acceptedIndices (offers : List Offer) : List UInt64 :=
  (offers.filter fun o => o.ret = 0).map fun o => o.frame.index

/-- The encoder with these offers accepted the frame of the `n`-th take. -/
def Accepted (offers : List Offer) (n : ℕ) : Prop := ∃ o ∈ offers, o.take = n ∧ o.ret = 0

/-- The encoder with these offers was offered the frame of the `n`-th take more than once. -/
def OfferedAgain (offers : List Offer) (n : ℕ) : Prop := 2 ≤ offers.countP fun o => o.take = n

/-- Both encoders accepted the same indices, and no frame taken from the map was silently
skipped. -/
structure Lockstep (p : Pipe) : Prop where
  same_indices : acceptedIndices p.sceneOffers = acceptedIndices p.depthOffers
  not_skipped : ∀ n, 1 ≤ n → n ≤ p.takes.length →
    (Accepted p.sceneOffers n ∧ Accepted p.depthOffers n) ∨
      (OfferedAgain p.sceneOffers n ∨ OfferedAgain p.depthOffers n) ∨ ∃ e, p.send = .raised e

/-! ### Offers numbered by their take -/

section Numbered

variable {offers : List Offer} (hnum : offers.map Offer.take = List.range' 1 offers.length)

include hnum

/-- An offer is determined by its number. -/
private theorem eq_of_take_eq {o o' : Offer} (ho : o ∈ offers) (ho' : o' ∈ offers)
    (h : o.take = o'.take) : o = o' := by
  have hnd : (offers.map Offer.take).Nodup := hnum ▸ List.nodup_range'
  exact List.inj_on_of_nodup_map hnd ho ho' h

/-- No frame is offered twice. -/
private theorem not_offeredAgain (n : ℕ) : ¬OfferedAgain offers n := by
  have hcount : offers.countP (fun o => o.take = n) = (offers.map Offer.take).count n := by
    rw [List.count_eq_countP, List.countP_map]
    exact List.countP_congr fun o _ => by simp
  have hle : (offers.map Offer.take).count n ≤ 1 :=
    List.nodup_iff_count_le_one.mp (hnum ▸ List.nodup_range') n
  unfold OfferedAgain
  omega

/-- Every number up to the number of offers belongs to an offer, and no other does. -/
private theorem exists_take_eq_iff {n : ℕ} :
    (∃ o ∈ offers, o.take = n) ↔ 1 ≤ n ∧ n ≤ offers.length := by
  have hmem : (∃ o ∈ offers, o.take = n) ↔ n ∈ offers.map Offer.take := by simp
  rw [hmem, hnum, List.mem_range'_1]
  omega

/-- If every frame is settled by acceptance, every offer was accepted. -/
private theorem ret_eq_zero_of_accepted {o : Offer} (ho : o ∈ offers)
    (hacc : Accepted offers o.take) : o.ret = 0 := by
  obtain ⟨o', ho', htake, hret⟩ := hacc
  rwa [eq_of_take_eq hnum ho ho' htake.symm]

end Numbered

/-- Between two iterations of `send_frame_thread`, the streams are in lockstep with no frame skipped
if and only if every call of `send_frame` so far returned `0`. -/
theorem lockstep_iff {as : List PipeAction} {p : Pipe} (hrun : step.run init as = some p)
    (hidle : p.send.depthTodo = []) :
    Lockstep p ↔ ∀ o ∈ p.sceneOffers ++ p.depthOffers, o.ret = 0 := by
  have hh := offerHistory_run hrun
  have hidle' : p.send.sceneTodo = [] := by
    cases hsend : p.send <;> simp_all [SendPoint.sceneTodo, SendPoint.depthTodo]
  have hscene : p.takes = p.sceneOffers.map Offer.frame := by simpa [hidle'] using hh.scene_frames
  have hdepth : p.takes = p.depthOffers.map Offer.frame := by simpa [hidle] using hh.depth_frames
  have hslen : p.takes.length = p.sceneOffers.length := by rw [hscene, List.length_map]
  have hdlen : p.takes.length = p.depthOffers.length := by rw [hdepth, List.length_map]
  constructor
  · intro hlock o ho
    -- each offer carries the number of a take, and the frame of that take was accepted by both
    have haccepted : ∀ n, 1 ≤ n → n ≤ p.takes.length →
        Accepted p.sceneOffers n ∧ Accepted p.depthOffers n := by
      intro n hn hn'
      rcases hlock.not_skipped n hn hn' with h | (h | h) | ⟨e, h⟩
      · exact h
      · exact absurd h (not_offeredAgain hh.scene_takes n)
      · exact absurd h (not_offeredAgain hh.depth_takes n)
      · exact absurd h (hh.not_raised e)
    rcases List.mem_append.mp ho with ho | ho
    · obtain ⟨hn, hn'⟩ := (exists_take_eq_iff hh.scene_takes).mp ⟨o, ho, rfl⟩
      exact ret_eq_zero_of_accepted hh.scene_takes ho (haccepted _ hn (hslen ▸ hn')).1
    · obtain ⟨hn, hn'⟩ := (exists_take_eq_iff hh.depth_takes).mp ⟨o, ho, rfl⟩
      exact ret_eq_zero_of_accepted hh.depth_takes ho (haccepted _ hn (hdlen ▸ hn')).2
  · intro hzero
    have hfilter : ∀ offers : List Offer, (∀ o ∈ offers, o.ret = 0) →
        acceptedIndices offers = (offers.map Offer.frame).map RenderedFrame.index := by
      intro offers h
      have hall : offers.filter (fun o => o.ret = 0) = offers :=
        List.filter_eq_self.mpr fun o ho => by simp [h o ho]
      rw [acceptedIndices, hall, List.map_map]
      rfl
    have hszero : ∀ o ∈ p.sceneOffers, o.ret = 0 := fun o ho => hzero o (by simp [ho])
    have hdzero : ∀ o ∈ p.depthOffers, o.ret = 0 := fun o ho => hzero o (by simp [ho])
    refine ⟨?_, fun n hn hn' => Or.inl ⟨?_, ?_⟩⟩
    · rw [hfilter _ hszero, hfilter _ hdzero, ← hscene, ← hdepth]
    · obtain ⟨o, ho, htake⟩ := (exists_take_eq_iff hh.scene_takes).mpr ⟨hn, hslen ▸ hn'⟩
      exact ⟨o, ho, htake, hszero o ho⟩
    · obtain ⟨o, ho, htake⟩ := (exists_take_eq_iff hh.depth_takes).mpr ⟨hn, hdlen ▸ hn'⟩
      exact ⟨o, ho, htake, hdzero o ho⟩

/-- One frame through the pipeline of the left eye, with the given return codes. -/
def oneFrameActions (sceneRet depthRet : ℤ) : List PipeAction :=
  [.push (RenderedFrame.new { isLeft := true } .rgb24 .gray8 defaultInitInfo defaultInitInfo 0),
    .pop, .convert true true, .insert, .getDelete, .sendScene sceneRet, .sendDepth depthRet,
    .advance]

/-- With both encoders accepting, the frame is in lockstep. -/
theorem lockstep_oneFrame : ∃ p, step.run init (oneFrameActions 0 0) = some p ∧ Lockstep p :=
  ⟨_, rfl, (@lockstep_iff (oneFrameActions 0 0) _ rfl rfl).mpr (by decide)⟩

/-- A frame that the scene encoder refuses with `EAGAIN` is accepted by the depth encoder only and
never offered again. -/
theorem oneFrame_refused_not_lockstep :
    ∃ p, step.run init (oneFrameActions AVERROR_EAGAIN 0) = some p ∧ p.send = .getting ∧
      ¬Lockstep p := by
  refine ⟨_, rfl, rfl, fun hlock => ?_⟩
  have hsame := hlock.same_indices
  exact absurd hsame (by decide)

end Pipe

end Ngp
