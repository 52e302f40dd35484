import NgpEncodeServer.Server.Step
import NgpEncodeServer.Foundation.ListUpdate
import NgpEncodeServer.Encode.Offers

/-!
# From the renderers to the encoders

Every reply parsed by a client thread is known by its position among the replies parsed.
`Server.replies` lists the replies that are anywhere on the way from a client thread to the
encoders; a step adds the reply it parses and never copies one (`countP_replies_le`), so the
positions stay distinct and name what was received (`Provenance`).  Together with the routing by
`is_left` and the order within each pipeline this settles what each encoder is handed.
-/

namespace Ngp

/-- The reply behind a frame: its position among the replies parsed and its content. -/
def RenderedFrame.reply (f : RenderedFrame) : ℕ × nesproto.RenderedFrame :=
  (f.receipt, f.frameResponse)

/-- The reply a client thread holds. -/
def Client.replies (c : Client) : List (ℕ × nesproto.RenderedFrame) :=
  match c.point with
  | .constructing receipt frame => [(receipt, frame)]
  | .constructingDepth receipt frame _ => [(receipt, frame)]
  | .pushing frame => [frame.reply]
  | _ => []

namespace Server

/-- The replies on the way from the client threads to the encoders, those taken from the maps
included. -/
def replies (s : Server) : List (ℕ × nesproto.RenderedFrame) :=
  s.clients.flatMap Client.replies ++ s.pipe.left.frames.map RenderedFrame.reply ++
    s.pipe.right.frames.map RenderedFrame.reply

/-- The server starts without replies. -/
@[simp] theorem replies_init (info : CodecInitInfo) : (init info).replies = [] := rfl

/-- The reply a step parses. -/
def parsedReplies (s : Server) : Action → List (ℕ × nesproto.RenderedFrame)
  | .client _ (.receive (.parsed frame)) => [(s.received.length, frame)]
  | _ => []

variable {s s' : Server} {a : Action}

/-! ### Replies are neither copied nor made up -/

/-- The count of a kind of replies in the two pipelines. -/
def pipeCount (q : ℕ × nesproto.RenderedFrame → Bool) (pipe : Sided Pipe) : ℕ :=
  pipe.left.frames.countP (fun f => q f.reply) + pipe.right.frames.countP fun f => q f.reply

/-- The count of a kind of replies, place by place. -/
theorem countP_replies (s : Server) (q : ℕ × nesproto.RenderedFrame → Bool) :
    s.replies.countP q = (s.clients.flatMap Client.replies).countP q + pipeCount q s.pipe := by
  simp only [replies, List.countP_append, List.countP_map, Nat.add_assoc]
  rfl

/-- A step of a pipeline adds to the replies of both pipelines at most the reply pushed. -/
private theorem pipeCount_set_le {p : Pipe} {b : PipeAction} {e : Bool}
    (q : ℕ × nesproto.RenderedFrame → Bool) (ht : Pipe.Trans (s.pipe.get e) b p) :
    pipeCount q (s.pipe.set e p) ≤ pipeCount q s.pipe + b.pushed.countP fun f => q f.reply := by
  have hsum := s.pipe.sum_set_add e p fun p => p.frames.countP fun f => q f.reply
  have hstep := Pipe.countP_frames_le (q := fun f => q f.reply) (fun _ => rfl) ht
  unfold pipeCount
  omega

/-- What a client thread holds and the two pipelines together: a step of the thread moves a reply
from the one to the other or drops it, and adds at most the reply it parses. -/
private theorem ClientTrans.countP_replies_le {c c' : Client} {b : ClientAction} {i : ℕ}
    (q : ℕ × nesproto.RenderedFrame → Bool) (ht : ClientTrans s c b s' c') :
    c'.replies.countP q + pipeCount q s'.pipe ≤
      c.replies.countP q + pipeCount q s.pipe + (s.parsedReplies (.client i b)).countP q := by
  cases ht with
  | push hat ht =>
    have hpipe := pipeCount_set_le q ht
    simp only [Client.replies, hat, PipeAction.pushed, parsedReplies, List.countP_cons,
      List.countP_nil] at hpipe ⊢
    omega
  | parsed hat =>
    simp only [Client.replies, hat, parsedReplies, List.countP_nil]
    omega
  | _ hat => simp [Client.replies, hat, RenderedFrame.reply, RenderedFrame.new, parsedReplies]

/-- A step adds to the replies on their way at most the reply it parses. -/
theorem countP_replies_le (q : ℕ × nesproto.RenderedFrame → Bool) (h : Trans s a s') :
    s'.replies.countP q ≤ s.replies.countP q + (s.parsedReplies a).countP q := by
  rw [countP_replies, countP_replies]
  cases h with
  | connect => simp [Client.start, Client.replies]
  | @client i c c' a s₁ hc ht =>
    have hset := countP_flatMap_set_add (y := c') Client.replies q hc
    have hstep := ht.countP_replies_le (i := i) q
    dsimp only at hset ⊢
    omega
  | control ht => cases ht <;> exact Nat.le_add_right _ _
  | pipe hpush ht =>
    have hpipe := pipeCount_set_le q ht
    rw [hpush, List.countP_nil] at hpipe
    dsimp only
    omega

/-- A step appends the reply it parses to what has been received. -/
theorem Trans.received_eq (h : Trans s a s') :
    s'.received = s.received ++ (s.parsedReplies a).map Prod.snd := by
  cases h with
  | client hc ht =>
    cases ht with
    | lost hat ho => rcases ho with rfl | rfl <;> simp [parsedReplies]
    | _ => simp [parsedReplies]
  | control ht => cases ht <;> simp [parsedReplies]
  | _ => simp [parsedReplies]

/-! ### Where the replies come from -/

/-- The replies on their way were received, each at the position it carries, and no two of them
carry the same position. -/
structure Provenance (s : Server) : Prop where
  received : ∀ r ∈ s.replies, s.received[r.1]? = some r.2
  nodup : (s.replies.map Prod.fst).Nodup

theorem provenance_init (info : CodecInitInfo) : Provenance (init info) := by
  constructor <;> simp

/-- A reply on its way was on its way before the step or is parsed by the step. -/
theorem mem_replies_step (h : Trans s a s') {r : ℕ × nesproto.RenderedFrame}
    (hr : r ∈ s'.replies) : r ∈ s.replies ∨ r ∈ s.parsedReplies a := by
  have hcount := countP_replies_le (fun x => decide (x = r)) h
  have hpos : 0 < s'.replies.countP fun x => decide (x = r) :=
    List.countP_pos_iff.mpr ⟨r, hr, by simp⟩
  rcases Nat.eq_zero_or_pos (s.replies.countP fun x => decide (x = r)) with hzero | hold
  · have hnew : 0 < (s.parsedReplies a).countP fun x => decide (x = r) := by omega
    obtain ⟨x, hx, heq⟩ := List.countP_pos_iff.mp hnew
    exact Or.inr (of_decide_eq_true heq ▸ hx)
  · obtain ⟨x, hx, heq⟩ := List.countP_pos_iff.mp hold
    exact Or.inl (of_decide_eq_true heq ▸ hx)

/-- The reply a step parses carries the next position. -/
private theorem fst_of_mem_parsedReplies {r : ℕ × nesproto.RenderedFrame}
    (hr : r ∈ s.parsedReplies a) :
    r.1 = s.received.length ∧ s.parsedReplies a = [(s.received.length, r.2)] := by
  unfold parsedReplies at hr ⊢
  split at hr
  · obtain rfl := List.mem_singleton.mp hr
    exact ⟨rfl, rfl⟩
  · cases hr

/-- Every step keeps the provenance. -/
theorem Provenance.step (h : Provenance s) (ht : Trans s a s') : Provenance s' := by
  have hlt : ∀ r ∈ s.replies, r.1 < s.received.length := fun r hr =>
    (List.getElem?_eq_some_iff.mp (h.received r hr)).1
  refine ⟨fun r hr => ?_, List.nodup_iff_count_le_one.mpr fun n => ?_⟩
  · rw [ht.received_eq]
    rcases mem_replies_step ht hr with hold | hnew
    · rw [List.getElem?_append_left (hlt r hold)]
      exact h.received r hold
    · obtain ⟨hfst, hlist⟩ := fst_of_mem_parsedReplies hnew
      rw [hlist, hfst]
      simp
  · have hcount := countP_replies_le (fun x => x.1 == n) ht
    have hold := List.nodup_iff_count_le_one.mp h.nodup n
    rw [List.count, List.countP_map] at hold ⊢
    change s'.replies.countP (fun x => x.1 == n) ≤ 1
    change s.replies.countP (fun x => x.1 == n) ≤ 1 at hold
    rcases Nat.eq_zero_or_pos ((s.parsedReplies a).countP fun x => x.1 == n) with hzero | hpos
    · omega
    · -- the new position has not been carried before
      obtain ⟨r, hr, hrn⟩ := List.countP_pos_iff.mp hpos
      obtain ⟨hfst, hlist⟩ := fst_of_mem_parsedReplies hr
      have hnone : s.replies.countP (fun x => x.1 == n) = 0 := by
        refine List.countP_eq_zero.mpr fun x hx hxn => ?_
        have := hlt x hx
        have : x.1 = n := by simpa using hxn
        have : r.1 = n := by simpa using hrn
        omega
      have hone : (s.parsedReplies a).countP (fun x => x.1 == n) ≤ 1 := by
        rw [hlist]
        exact List.countP_le_length
      omega

/-- The provenance holds in every run. -/
theorem provenance_run {info : CodecInitInfo} {as : List Action}
    (hrun : step.run (init info) as = some s) : Provenance s :=
  Machine.run_invariant (provenance_init info) (fun _ _ _ h hs => h.step (trans_of_step hs).1) hrun

/-! ### Eyes and indices -/

/-- Every frame in the pipeline of an eye is a frame of that eye. -/
theorem isLeft_of_mem_frames {info : CodecInitInfo} {as : List Action}
    (hrun : step.run (init info) as = some s) (e : Bool) :
    ∀ f ∈ (s.pipe.get e).frames, f.isLeft = e := by
  refine Machine.run_invariant (I := fun s => ∀ f ∈ (s.pipe.get e).frames, f.isLeft = e) ?_
    (fun s a s' hI h => ?_) hrun
  · cases e <;> simp [init]
  · rcases (trans_of_step h).1.pipe_get e with ⟨heq, -⟩ | ⟨b, ht, hb⟩
    · exact heq ▸ hI
    · refine Pipe.forall_mem_frames (Q := fun f => f.isLeft = e) (fun _ => Iff.rfl) ht hI ?_
      rcases hb with ⟨-, hpush⟩ | ⟨frame, i, rfl, hframe, -⟩
      · simp [hpush]
      · simpa [PipeAction.pushed] using hframe

/-- `frame_index` counts the iterations of `send_frame_thread`, and what the encoders were offered
is in the order of the indices. -/
theorem ordered_run {info : CodecInitInfo} {as : List Action}
    (hrun : step.run (init info) as = some s) (e : Bool)
    (hloops : as.count (.pipe e .advance) < UInt64.size) :
    (s.pipe.get e).frameIndex.toNat = as.count (.pipe e .advance) ∧
      (s.pipe.get e).Keyed ∧ (s.pipe.get e).Ordered := by
  refine Machine.run_induction (P := fun as s => as.count (.pipe e .advance) < UInt64.size →
    (s.pipe.get e).frameIndex.toNat = as.count (.pipe e .advance) ∧
      (s.pipe.get e).Keyed ∧ (s.pipe.get e).Ordered) (fun _ => ?_) ?_ hrun hloops
  · cases e <;> exact ⟨rfl, Pipe.keyed_init, Pipe.ordered_init⟩
  · intro as s a s' _ ih hstep hlt
    rw [List.count_append, List.count_singleton] at hlt
    obtain ⟨hcount, hkeyed, hordered⟩ := ih (by omega)
    rw [List.count_append, List.count_singleton, ← hcount]
    rcases (trans_of_step hstep).1.pipe_get e with ⟨heq, hother⟩ | ⟨b, ht, hb⟩
    · rw [heq, if_neg (by simpa using hother .advance)]
      exact ⟨rfl, hkeyed, hordered⟩
    · have hadvance : a = .pipe e .advance ↔ b = .advance := by
        rcases hb with ⟨rfl, -⟩ | ⟨frame, i, rfl, -, rfl⟩ <;> simp
      simp only [beq_iff_eq, hadvance] at hlt ⊢
      have hwrap : b = .advance → (s.pipe.get e).frameIndex.toNat + 1 < UInt64.size := by
        intro hb
        rw [if_pos hb] at hlt
        omega
      refine ⟨?_, hkeyed.step ht, hordered.step hkeyed ht hwrap⟩
      rw [Pipe.frameIndex_of_trans ht]
      split
      · rename_i hb
        rw [UInt64.toNat_add, UInt64.toNat_one, Nat.mod_eq_of_lt (hwrap hb)]
      · rfl

/-! ### What the encoders are handed -/

/-- The calls of `send_frame` on one encoder of the eye `e` hand over frames in the order of their
indices, each when `frame_index` is its index, each a frame of that eye, and each with the content
of the reply received at the position it carries. -/
structure HandedOver (s : Server) (e : Bool) (offers : List Offer) : Prop where
  increasing : (offers.map fun o => o.frame.index).Pairwise (· < ·)
  index_eq : ∀ o ∈ offers, o.frame.index = o.frameIndex
  isLeft_eq : ∀ o ∈ offers, o.frame.isLeft = e
  received : ∀ o ∈ offers, s.received[o.frame.receipt]? = some o.frame.frameResponse

/-- A frame in a pipeline carries a reply on its way. -/
theorem reply_mem_replies {e : Bool} {f : RenderedFrame} (hf : f ∈ (s.pipe.get e).frames) :
    f.reply ∈ s.replies := by
  cases e
  · exact List.mem_append_right _ (List.mem_map_of_mem hf)
  · exact List.mem_append_left _ (List.mem_append_right _ (List.mem_map_of_mem hf))

/-- The positions of the replies taken from the two maps are positions of replies on their way. -/
theorem receipts_sublist_replies (s : Server) :
    ((s.pipe.left.takes ++ s.pipe.right.takes).map RenderedFrame.receipt).Sublist
      (s.replies.map Prod.fst) := by
  have htakes : ∀ p : Pipe, (p.takes.map RenderedFrame.receipt).Sublist
      ((p.frames.map RenderedFrame.reply).map Prod.fst) := by
    intro p
    rw [List.map_map]
    exact (List.sublist_append_right p.stored p.takes).map RenderedFrame.receipt
  have hclients : ((s.pipe.left.frames.map RenderedFrame.reply ++
      s.pipe.right.frames.map RenderedFrame.reply).map Prod.fst).Sublist
        (s.replies.map Prod.fst) := by
    rw [replies, List.append_assoc]
    exact (List.sublist_append_right _ _).map Prod.fst
  rw [List.map_append]
  rw [List.map_append] at hclients
  exact ((htakes s.pipe.left).append (htakes s.pipe.right)).trans hclients

/-- In every run in which neither `send_frame_thread` makes `UInt64.size` iterations, whatever
parses, times out or is scheduled: each encoder is handed the frames of its eye in increasing order
of their indices, each when `frame_index` is its index and each with the content it was received
with;
the depth encoder of an eye is handed the frames the scene encoder was handed before it; and no
received reply is handed over twice or to both eyes. -/
theorem encoders_fed_in_order {info : CodecInitInfo} {as : List Action}
    (hrun : step.run (init info) as = some s)
    (hloops : ∀ e, as.count (.pipe e .advance) < UInt64.size) :
    (∀ e, s.HandedOver e (s.pipe.get e).sceneOffers ∧ s.HandedOver e (s.pipe.get e).depthOffers ∧
      (s.pipe.get e).depthOffers.map Offer.frame <+: (s.pipe.get e).sceneOffers.map Offer.frame) ∧
    ((s.pipe.left.sceneOffers ++ s.pipe.right.sceneOffers).map fun o => o.frame.receipt).Nodup ∧
    ((s.pipe.left.depthOffers ++ s.pipe.right.depthOffers).map fun o => o.frame.receipt).Nodup := by
  have hprov := provenance_run hrun
  have hhist := pipe_invariant Pipe.offerHistory_init
    (fun _ _ _ h ht => Pipe.OfferHistory.step h ht) hrun
  have hscene : ∀ e, (s.pipe.get e).sceneOffers.map Offer.frame <+: (s.pipe.get e).takes :=
    fun e => ⟨_, (hhist e).scene_frames.symm⟩
  have hdepth : ∀ e, (s.pipe.get e).depthOffers.map Offer.frame <+: (s.pipe.get e).takes :=
    fun e => ⟨_, (hhist e).depth_frames.symm⟩
  -- an offered frame has been taken, so it is known where it comes from
  have hfrom : ∀ (e : Bool) (offers : List Offer),
      offers.map Offer.frame <+: (s.pipe.get e).takes → ∀ o ∈ offers,
        o.frame.isLeft = e ∧ s.received[o.frame.receipt]? = some o.frame.frameResponse := by
    intro e offers hpre o ho
    have hmem : o.frame ∈ (s.pipe.get e).frames :=
      List.mem_append_right _ (hpre.subset (List.mem_map_of_mem ho))
    exact ⟨isLeft_of_mem_frames hrun e _ hmem, hprov.received _ (reply_mem_replies hmem)⟩
  have hnodup : ∀ offersL offersR : List Offer,
      offersL.map Offer.frame <+: s.pipe.left.takes →
      offersR.map Offer.frame <+: s.pipe.right.takes →
      ((offersL ++ offersR).map fun o => o.frame.receipt).Nodup := by
    intro offersL offersR hl hr
    refine hprov.nodup.sublist (List.Sublist.trans ?_ (receipts_sublist_replies s))
    have := (hl.sublist.append hr.sublist).map RenderedFrame.receipt
    rwa [← List.map_append, List.map_map] at this
  refine ⟨fun e => ?_, hnodup _ _ (hscene true) (hscene false), hnodup _ _ (hdepth true)
    (hdepth false)⟩
  obtain ⟨-, -, hord⟩ := ordered_run hrun e (hloops e)
  refine ⟨⟨?_, hord.scene_index, fun o ho => (hfrom e _ (hscene e) o ho).1,
    fun o ho => (hfrom e _ (hscene e) o ho).2⟩, ⟨?_, hord.depth_index,
    fun o ho => (hfrom e _ (hdepth e) o ho).1, fun o ho => (hfrom e _ (hdepth e) o ho).2⟩,
    (hhist e).depth_prefix_scene⟩
  · rw [List.map_congr_left hord.scene_index]
    exact hord.scene_sorted
  · rw [List.map_congr_left hord.depth_index]
    exact hord.depth_sorted

/-- One frame for each eye on its way from the renderer to the encoders. -/
def oneFrameEach : List Action :=
  [.connect] ++ iteration 0 {} ++ iteration 0 { isLeft := true } ++ processing true ++
    processing false ++ sending false ++ sending true

/-- Both frames are handed over, each once. -/
theorem encoders_fed_in_order_oneFrameEach :
    ∃ s, step.run (init defaultInitInfo) oneFrameEach = some s ∧
      (s.pipe.left.sceneOffers ++ s.pipe.right.sceneOffers).length = 2 ∧
      ((s.pipe.left.sceneOffers ++ s.pipe.right.sceneOffers).map fun o => o.frame.receipt).Nodup :=
  ⟨_, rfl, rfl, (@encoders_fed_in_order _ defaultInitInfo oneFrameEach rfl (by decide)).2.1⟩

end Server

end Ngp
