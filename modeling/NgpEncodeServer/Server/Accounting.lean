import NgpEncodeServer.Encode.Discards
import NgpEncodeServer.Foundation.Observe
import NgpEncodeServer.Server.Delivery
import NgpEncodeServer.Server.Requests
import NgpEncodeServer.Server.Wedge

/-!
# Every reply and every request is accounted for

A reply that a client thread has parsed is with that thread, in a pipeline, or has been offered to
both encoders, unless it has been discarded in one of the ways that `discarded` lists: nothing else
makes a reply disappear, and none is in two places.  If the renderers answer what they have been
asked, then the same books can be kept for the requests: each index that has been drawn is still
asked for, has been given up on by its client thread, or is the index of one reply.
-/

namespace Ngp

/-- The eye and the index of the request that a client thread is about to make or waits for. -/
def Client.request (c : Client) : List (Bool × UInt64) :=
  match c.point with
  | .allocated e i => [(e, i)]
  | .sending req | .receiving req => [(req.isLeft, req.index)]
  | _ => []

/-- The eye and the index of the request that a reply claims to answer. -/
def answered (r : ℕ × nesproto.RenderedFrame) : Bool × UInt64 := (r.2.isLeft, r.2.index)

namespace Server

variable {s s' : Server} {a : Action}

/-! ### Replies -/

/-- The replies that a step discards. -/
def discarded (s : Server) : Action → List (ℕ × nesproto.RenderedFrame)
  | .client i .pushTimeout =>
    match s.clients[i]? with
    | some c => c.replies
    | none => []
  | .pipe e a => ((s.pipe.get e).discarded a).map RenderedFrame.reply
  | _ => []

/-- The replies that are with a client thread or on their way through a pipeline. -/
def underway (s : Server) : List (ℕ × nesproto.RenderedFrame) :=
  s.clients.flatMap Client.replies ++ (s.pipe.left.waiting .depth).map RenderedFrame.reply ++
    (s.pipe.right.waiting .depth).map RenderedFrame.reply

/-- The replies that have been offered to both encoders of an eye. -/
def encoded (s : Server) : List (ℕ × nesproto.RenderedFrame) :=
  (s.pipe.left.depthOffers ++ s.pipe.right.depthOffers).map fun o => o.frame.reply

/-- What a step of a pipeline does to the replies in both pipelines. -/
theorem pipeCount_set_add {e : Bool} {p : Pipe} {added : List RenderedFrame}
    (lost : List RenderedFrame) (q : ℕ × nesproto.RenderedFrame → Bool)
    (h : p.frames.countP (fun f => q f.reply) + lost.countP (fun f => q f.reply) =
      (s.pipe.get e).frames.countP (fun f => q f.reply) + added.countP fun f => q f.reply) :
    pipeCount q (s.pipe.set e p) + lost.countP (fun f => q f.reply) =
      pipeCount q s.pipe + added.countP fun f => q f.reply := by
  have hsum := s.pipe.sum_set_add e p fun p => p.frames.countP fun f => q f.reply
  unfold pipeCount
  omega

/-- What a client thread holds and the two pipelines together: a step of the thread keeps every
reply that it does not discard. -/
private theorem ClientTrans.countP_replies_add_discarded {c c' : Client} {b : ClientAction} {i : ℕ}
    (q : ℕ × nesproto.RenderedFrame → Bool) (hc : s.clients[i]? = some c)
    (ht : ClientTrans s c b s' c') :
    c'.replies.countP q + pipeCount q s'.pipe + (s.discarded (.client i b)).countP q =
      c.replies.countP q + pipeCount q s.pipe + (s.parsedReplies (.client i b)).countP q := by
  cases ht with
  | @push frame p hat ht =>
    have hpipe := pipeCount_set_add [] q (Pipe.countP_frames_push ht)
    simp only [Client.replies, hat, discarded, parsedReplies, List.countP_cons,
      List.countP_nil] at hpipe ⊢
    omega
  | pushTimeout hat hfull =>
    simp only [discarded, hc, Client.replies, hat, parsedReplies, List.countP_nil]
    omega
  | parsed hat =>
    simp only [Client.replies, hat, discarded, parsedReplies, List.countP_nil]
    omega
  | lost hat ho =>
    rcases ho with rfl | rfl <;> simp [Client.replies, hat, discarded, parsedReplies]
  | _ hat => simp [Client.replies, hat, RenderedFrame.reply, RenderedFrame.new, discarded,
      parsedReplies]

/-- A step of a thread of a pipeline is one of its pipeline. -/
theorem pipe_step_eq {e : Bool} {b : PipeAction} (h : step s (.pipe e b) = some s') :
    b.pushed = [] ∧ ∃ p, Pipe.step (s.pipe.get e) b = some p ∧
      s' = { s with pipe := s.pipe.set e p } := by
  have hpush : b.pushed = [] := by
    cases (trans_of_step h).1 with
    | pipe hpush => exact hpush
  have hlive := (trans_of_step h).2
  cases hp : Pipe.step (s.pipe.get e) b with
  | none => cases b <;> simp [step, hlive, hp] at h
  | some p =>
    refine ⟨hpush, p, rfl, ?_⟩
    cases b with
    | push frame => cases hpush
    | _ => simpa [step, hlive, hp] using h.symm

/-- A step keeps every reply that it does not discard, and adds the one that it parses. -/
theorem countP_replies_add_discarded (q : ℕ × nesproto.RenderedFrame → Bool)
    (h : step s a = some s') :
    s'.replies.countP q + (s.discarded a).countP q =
      s.replies.countP q + (s.parsedReplies a).countP q := by
  rw [countP_replies, countP_replies]
  by_cases hpipe : ∃ e b, a = .pipe e b
  · obtain ⟨e, b, rfl⟩ := hpipe
    obtain ⟨hpush, p, hp, rfl⟩ := pipe_step_eq h
    have hframes := Pipe.countP_frames_add_discarded (q := fun f => q f.reply) (fun _ => rfl) hp
    have hcount := pipeCount_set_add _ q hframes
    rw [hpush, List.countP_nil] at hcount
    have hlost : (s.discarded (.pipe e b)).countP q =
        ((s.pipe.get e).discarded b).countP fun f => q f.reply := List.countP_map
    simp only [hlost, parsedReplies, List.countP_nil] at hcount ⊢
    omega
  cases (trans_of_step h).1 with
  | connect => simp [Client.start, Client.replies, discarded, parsedReplies]
  | @client i c c' b s₁ hc ht =>
    have hset := countP_flatMap_set_add (y := c') Client.replies q hc
    have hstep := ht.countP_replies_add_discarded q hc
    dsimp only at hset ⊢
    omega
  | control ht => cases ht <;> rfl
  | @pipe e b => exact absurd ⟨e, b, rfl⟩ hpipe

/-- The replies parsed in a run are those received, each with its position. -/
theorem observed_parsedReplies {info : CodecInitInfo} {as : List Action}
    (hrun : step.run (init info) as = some s) :
    step.observed parsedReplies (init info) as = s.received.mapIdx Prod.mk := by
  refine Machine.run_induction (m := step)
    (P := fun as s => step.observed parsedReplies (init info) as = s.received.mapIdx Prod.mk)
    rfl ?_ hrun
  intro as s a s' hrun ih hlast
  rw [Machine.observed_concat hrun, ih, (trans_of_step hlast).1.received_eq]
  unfold parsedReplies
  split
  · rw [List.map_singleton, List.mapIdx_concat]
  · rw [List.map_nil, List.append_nil, List.append_nil]

/-- The replies under way and those that have been encoded are the replies that `replies` lists. -/
theorem underway_append_encoded_perm {info : CodecInitInfo} {as : List Action}
    (hrun : step.run (init info) as = some s) : (s.underway ++ s.encoded).Perm s.replies := by
  have hhist := pipe_invariant Pipe.offerHistory_init
    (fun _ _ _ h ht => Pipe.OfferHistory.step h ht) hrun
  have hleft : s.pipe.left.takes =
      s.pipe.left.depthOffers.map Offer.frame ++ s.pipe.left.send.depthTodo :=
    (hhist true).depth_frames
  have hright : s.pipe.right.takes =
      s.pipe.right.depthOffers.map Offer.frame ++ s.pipe.right.send.depthTodo :=
    (hhist false).depth_frames
  have hreply : (fun o : Offer => o.frame.reply) = RenderedFrame.reply ∘ Offer.frame := rfl
  refine List.perm_iff_count.mpr fun r => ?_
  simp only [underway, encoded, replies, Pipe.waiting, Pipe.frames, SendPoint.todo, hleft, hright,
    hreply, List.map_append, List.count_append, List.map_map]
  omega

/-- A run keeps every reply that it does not discard. -/
theorem replies_balance {info : CodecInitInfo} {as : List Action}
    (hrun : step.run (init info) as = some s) :
    (s.replies ++ step.observed discarded (init info) as).Perm (s.received.mapIdx Prod.mk) := by
  have hbalance : (s.replies ++ step.observed discarded (init info) as).Perm
      ((init info).replies ++ step.observed parsedReplies (init info) as) := by
    refine Machine.perm_of_balance (m := step) ?_ hrun
    intro as s a s' _ hlast
    refine List.perm_iff_count.mpr fun r => ?_
    rw [List.count_append, List.count_append]
    exact countP_replies_add_discarded _ hlast
  rwa [replies_init, List.nil_append, observed_parsedReplies hrun] at hbalance

/-- In every run, with any number of renderers that reply whatever they like: the replies parsed,
each known by its position, are those that are with a client thread or in a pipeline, those that
have been offered to both encoders of an eye, and those that were discarded; none is in two places,
and none has got lost in any other way. -/
theorem replies_accounted {info : CodecInitInfo} {as : List Action}
    (hrun : step.run (init info) as = some s) :
    (s.underway ++ s.encoded ++ step.observed discarded (init info) as).Perm
      (s.received.mapIdx Prod.mk) :=
  ((underway_append_encoded_perm hrun).append_right _).trans (replies_balance hrun)

/-- Two replies under one index: one is encoded, the other declined by the map. -/
def answeredTwice : List Action :=
  [.connect] ++ iteration 0 {} ++ iteration 0 {} ++ processing false ++ processing false ++
    sending false

/-- Of the two replies, the first is encoded and the second discarded. -/
theorem replies_accounted_answeredTwice :
    ∃ s, step.run (init defaultInitInfo) answeredTwice = some s ∧ s.underway = [] ∧
      s.encoded = [(0, { index := 0 })] ∧
      step.observed discarded (init defaultInitInfo) answeredTwice = [(1, { index := 0 })] ∧
      (s.underway ++ s.encoded ++ step.observed discarded (init defaultInitInfo) answeredTwice).Perm
        (s.received.mapIdx Prod.mk) := by
  refine ⟨_, rfl, rfl, rfl, rfl, ?_⟩
  exact @replies_accounted _ defaultInitInfo answeredTwice rfl

/-! ### Requests -/

/-- The requests that are being made or waited for. -/
def asked (s : Server) : List (Bool × UInt64) := s.clients.flatMap Client.request

/-- The index that a step draws. -/
def drawn (s : Server) : Action → List (Bool × UInt64)
  | .client i .allocate =>
    match s.clients[i]? with
    | some ⟨_, .drawn e⟩ => [(e, s.frameIndex.get e)]
    | _ => []
  | _ => []

/-- The request that a step gives up: it cannot be sent, or what comes back is no reply. -/
def abandoned (s : Server) : Action → List (Bool × UInt64)
  | .client _ (.receive (.parsed _)) => []
  | .client i (.receive _) =>
    match s.clients[i]? with
    | some c => c.request
    | none => []
  | .client i (.send ret) =>
    if ret < 0 then
      match s.clients[i]? with
      | some c => c.request
      | none => []
    else []
  | _ => []

/-- The requests that come to nothing with a step: given up, or answered and the reply discarded. -/
def lostRequests (s : Server) (a : Action) : List (Bool × UInt64) :=
  s.abandoned a ++ (s.discarded a).map answered

/-- What a client thread asks for: a step of the thread gives it up, gets a reply to it, or keeps
it. -/
private theorem ClientTrans.countP_request {c c' : Client} {b : ClientAction} {i : ℕ}
    (q : Bool × UInt64 → Bool) (hc : s.clients[i]? = some c) (ht : ClientTrans s c b s' c')
    (hconforming : s.conforming (.client i b) = true) :
    c'.request.countP q + (s.abandoned (.client i b)).countP q +
        (s.parsedReplies (.client i b)).countP (fun r => q (answered r)) =
      c.request.countP q + (s.drawn (.client i b)).countP q := by
  obtain ⟨ret, point⟩ := c
  cases ht with
  | allocate hat =>
    obtain rfl : point = _ := hat
    simp [Client.request, abandoned, parsedReplies, drawn, hc]
  | sendFails hat hret =>
    obtain rfl : point = _ := hat
    simp [Client.request, abandoned, parsedReplies, drawn, hc, hret]
  | sendOk hat hret =>
    obtain rfl : point = _ := hat
    simp [Client.request, abandoned, parsedReplies, drawn, hret]
  | parsed hat =>
    obtain rfl : point = _ := hat
    simp only [conforming, hc, Bool.and_eq_true, beq_iff_eq] at hconforming
    simp [Client.request, abandoned, parsedReplies, drawn, answered, hconforming.1, hconforming.2,
      List.countP_cons]
  | lost hat ho =>
    obtain rfl : point = _ := hat
    rcases ho with rfl | rfl <;> simp [Client.request, abandoned, parsedReplies, drawn, hc]
  | badAlloc hat =>
    obtain rfl : point = _ := hat
    simp [Client.request, abandoned, parsedReplies, drawn, hc]
  | exit hat | draw hat | build hat | constructScene hat | constructDepth hat | push hat
  | pushTimeout hat =>
    obtain rfl : point = _ := hat
    simp [Client.request, abandoned, parsedReplies, drawn]

/-- What the client threads ask for. -/
private theorem countP_asked (q : Bool × UInt64 → Bool) (h : step s a = some s')
    (hconforming : s.conforming a = true) :
    s'.asked.countP q + (s.abandoned a).countP q +
        (s.parsedReplies a).countP (fun r => q (answered r)) =
      s.asked.countP q + (s.drawn a).countP q := by
  cases (trans_of_step h).1 with
  | connect => simp [asked, Client.start, Client.request, abandoned, parsedReplies, drawn]
  | @client i c c' b s₁ hc ht =>
    have hset := countP_flatMap_set_add (y := c') Client.request q hc
    have hstep := ht.countP_request q hc hconforming
    simp only [asked] at hset ⊢
    omega
  | control ht => cases ht <;> rfl
  | pipe => rfl

/-- The indices drawn in a run are those that `allocated` lists. -/
theorem observed_drawn {info : CodecInitInfo} {as : List Action}
    (hrun : step.run (init info) as = some s) :
    step.observed drawn (init info) as = s.allocated := by
  refine Machine.run_induction (m := step)
    (P := fun as s => step.observed drawn (init info) as = s.allocated) rfl ?_ hrun
  intro as s a s' hrun ih hlast
  rw [Machine.observed_concat hrun, ih]
  cases (trans_of_step hlast).1 with
  | @client i c c' b s₁ hc ht =>
    obtain ⟨ret, point⟩ := c
    cases ht with
    | allocate hat =>
      obtain rfl : point = _ := hat
      simp [drawn, hc]
    | _ => exact List.append_nil _
  | control ht => cases ht <;> exact List.append_nil _
  | _ => exact List.append_nil _

/-- A run in which the renderers reply to what they have been asked keeps every request that it does
not lose. -/
theorem requests_balance {info : CodecInitInfo} {as : List Action}
    (hrun : (step.guarded fun s a => s.conforming a).run (init info) as = some s) :
    (s.asked ++ s.replies.map answered ++ step.observed lostRequests (init info) as).Perm
      s.allocated := by
  have hbalance := @Machine.perm_of_balance _ _ _ (step.guarded fun s a => s.conforming a)
    (fun s => s.asked ++ s.replies.map answered) drawn lostRequests (init info) ?_ as s hrun
  · rwa [Machine.observed_guarded hrun, Machine.observed_guarded hrun,
      observed_drawn (Machine.run_of_run_guarded hrun)] at hbalance
  · intro as s a s' _ hlast
    obtain ⟨hconforming, hlast⟩ := Machine.guarded_eq_some_iff.mp hlast
    refine List.perm_iff_count.mpr fun r => ?_
    have hasked := countP_asked (· == r) hlast hconforming
    have hreplies := countP_replies_add_discarded (fun x => answered x == r) hlast
    simp only [lostRequests, List.count_eq_countP, List.countP_append, List.countP_map,
      Function.comp_def] at hasked hreplies ⊢
    omega

/-- No eye and index are drawn together twice. -/
theorem allocated_nodup {info : CodecInitInfo} {as : List Action}
    (hrun : step.run (init info) as = some s) (hdraws : as.countP Action.isDraw < UInt64.size) :
    s.allocated.Nodup := by
  refine List.nodup_iff_count_le_one.mpr fun x => ?_
  have hnodup : (s.indices x.1).Nodup :=
    (allotment_run hrun hdraws).indices_eq x.1 ▸ List.nodup_range
  exact (count_allocated_le s x.1 x.2).trans (List.nodup_iff_count_le_one.mp hnodup _)

/-- The frames of a pipeline, those taken from its map included, answer different requests. -/
theorem indices_nodup {info : CodecInitInfo} {as : List Action}
    (hrun : (step.guarded fun s a => s.conforming a).run (init info) as = some s)
    (hdraws : as.countP Action.isDraw < UInt64.size) (e : Bool) :
    ((s.pipe.get e).frames.map RenderedFrame.index).Nodup := by
  have hplain := Machine.run_of_run_guarded hrun
  have hall : (s.replies.map answered).Nodup := by
    have hnodup := (requests_balance hrun).nodup_iff.mpr (allocated_nodup hplain hdraws)
    exact (List.nodup_append.mp (List.nodup_append.mp hnodup).1).2.1
  have hpipe : ((s.pipe.get e).frames.map RenderedFrame.reply).Sublist s.replies := by
    cases e
    · exact List.sublist_append_right _ _
    · exact (List.sublist_append_right _ _).trans (List.sublist_append_left _ _)
  have hframes := hall.sublist (hpipe.map answered)
  have hindex : ((s.pipe.get e).frames.map RenderedFrame.reply).map answered =
      ((s.pipe.get e).frames.map RenderedFrame.index).map (Prod.mk e) := by
    rw [List.map_map, List.map_map]
    refine List.map_congr_left fun f hf => ?_
    exact Prod.ext (isLeft_of_mem_frames hplain e f hf) rfl
  rw [hindex] at hframes
  exact List.Nodup.of_map _ hframes

/-- In every run in which the renderers reply to what they have been asked, with fewer than
`UInt64.size` draws: no two frames of an eye that are in its pipeline or have been taken from its
map have the same index, so that `FrameMap` never declines a frame for the sake of one that is
there. -/
theorem conforming_never_declined {info : CodecInitInfo} {as : List Action}
    (hrun : (step.guarded fun s a => s.conforming a).run (init info) as = some s)
    (hdraws : as.countP Action.isDraw < UInt64.size) (e : Bool) :
    ((s.pipe.get e).frames.map RenderedFrame.index).Nodup ∧
      ∀ i f, (s.pipe.get e).process = .inserting i f →
        i ∉ (s.pipe.get e).frameMap.map.keys ∧ (s.pipe.get e).discarded .insert = [] := by
  have hnodup := indices_nodup hrun hdraws e
  have hkeyed := pipe_invariant Pipe.keyed_init (fun _ _ _ h ht => Pipe.Keyed.step h ht)
    (Machine.run_of_run_guarded hrun) e
  refine ⟨hnodup, fun i f hat => ?_⟩
  have habsent : i ∉ (s.pipe.get e).frameMap.map.keys := by
    intro hmem
    obtain ⟨entry, hentry, hkey⟩ := List.mem_map.mp hmem
    have hindex : f.index = entry.2.index :=
      (hkeyed.process_index i f (Or.inr hat)).trans (hkey ▸ (hkeyed.map_index entry hentry).symm)
    have hdisjoint : ∀ g ∈ (s.pipe.get e).frameMap.map.values, f.index ≠ g.index := by
      simp only [Pipe.frames, Pipe.stored, hat, ProcessPoint.frames, List.map_append,
        List.map_singleton, List.append_assoc, List.nodup_append, List.mem_append,
        List.mem_map] at hnodup
      intro g hg heq
      exact hnodup.2.1.2.2 f.index (List.mem_singleton_self _) g.index (Or.inl ⟨g, hg, rfl⟩) heq
    exact hdisjoint entry.2 (List.mem_map_of_mem hentry) hindex
  refine ⟨habsent, ?_⟩
  simp [Pipe.discarded, hat, AssocMap.not_contains_iff.mpr habsent]

/-- Two frames of the left eye, the second of which is about to be inserted. -/
def twoLeftFrames : List Action :=
  [.connect] ++ iteration 0 {} ++ iteration 0 { isLeft := true } ++ iteration 0 { index := 1 } ++
    iteration 0 { index := 1, isLeft := true } ++ processing true ++
    [.pipe true .pop, .pipe true (.convert true true)]

/-- The map holds the first frame and takes the second. -/
theorem conforming_never_declined_twoLeftFrames :
    ∃ s, (step.guarded fun s a => s.conforming a).run (init defaultInitInfo) twoLeftFrames =
        some s ∧ s.pipe.left.frameMap.map.keys = [0] ∧
      (s.pipe.left.frames.map RenderedFrame.index).Nodup ∧
      ∀ i f, s.pipe.left.process = .inserting i f → i ∉ s.pipe.left.frameMap.map.keys ∧
        s.pipe.left.discarded .insert = [] :=
  ⟨_, rfl, rfl, @conforming_never_declined _ defaultInitInfo twoLeftFrames rfl (by decide) true⟩

end Server

end Ngp
