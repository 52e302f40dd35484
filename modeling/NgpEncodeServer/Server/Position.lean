import NgpEncodeServer.Server.Delivery
import NgpEncodeServer.Server.Requests
import NgpEncodeServer.Foundation.Observe

/-!
# The position of the sender

`send_frame_thread` moves on to the next index when it gets a frame and also when its wait times
out, whether or not anyone has been asked to render the index it waited for.  `InTime` asks the
renderers to keep up with the waits: since the request of the frame that the sender got last was
drawn, more requests have been drawn for its eye than waits have timed out since it got that frame.
`sender_behind` derives from it that every index skipped has been handed out.
-/

namespace Ngp

namespace Server

/-- The number of indices handed out for an eye. -/
def handedOut (s : Server) (isLeft : Bool) : ℕ := (s.indices isLeft).length

/-- The number of waits of `send_frame_thread` that have timed out since it last got a frame, since
the start if it never did. -/
def timeouts (isLeft : Bool) (past : List Action) : ℕ :=
  (afterLast (.pipe isLeft .getDelete) past).count (.pipe isLeft .getTimeout)

/-- The number of requests drawn for an eye since the request of the frame that its
`send_frame_thread` got last, since the start if it never got one. -/
def drawnSince (s : Server) (isLeft : Bool) : ℕ :=
  match (s.pipe.get isLeft).takes.getLast? with
  | some frame => (afterLast frame.index.toNat (s.indices isLeft)).length
  | none => s.handedOut isLeft

/-- The requests keep up with the waits: when a wait of `send_frame_thread` times out, fewer of its
waits have timed out since it last got a frame than requests have been drawn for its eye since the
one of that frame.  A reply carries an index that has been handed out for the eye it names. -/
def InTime (r : List Action × Server) : Action → Prop
  | .pipe e .getTimeout => timeouts e r.1 < r.2.drawnSince e
  | .client _ (.receive (.parsed frame)) => (frame.isLeft, frame.index) ∈ r.2.allocated
  | _ => True

instance (r : List Action × Server) (a : Action) : Decidable (InTime r a) := by
  unfold InTime
  split <;> infer_instance

/-- A wait of `send_frame_thread` times out only at an index that some client thread has drawn for
its eye. -/
def SkipsRequested (s : Server) : Action → Prop
  | .pipe e .getTimeout => (e, (s.pipe.get e).frameIndex) ∈ s.allocated
  | _ => True

instance (s : Server) (a : Action) : Decidable (s.SkipsRequested a) := by
  unfold SkipsRequested
  split <;> infer_instance

/-- Below `UInt64.size` draws, what has been handed out for an eye is what its counter says. -/
theorem handedOut_eq_frameIndex {info : CodecInitInfo} {as : List Action} {s : Server}
    (hrun : step.run (init info) as = some s) (hdraws : as.countP Action.isDraw < UInt64.size)
    (e : Bool) : s.handedOut e = (s.frameIndex.get e).toNat := by
  rw [handedOut, (allotment_run hrun hdraws).indices_eq e, List.length_range]

variable {s s' : Server} {a : Action} {past : List Action}

/-! ### The indices handed out -/

/-- Indices are never taken back. -/
theorem allocated_prefix_step (h : Trans s a s') : s.allocated <+: s'.allocated := by
  cases h with
  | client hc ht =>
    cases ht with
    | allocate hat => exact List.prefix_append _ _
    | _ => exact List.prefix_refl _
  | control ht => cases ht <;> exact List.prefix_refl _
  | _ => exact List.prefix_refl _

theorem handedOut_le_step (h : Trans s a s') (e : Bool) : s.handedOut e ≤ s'.handedOut e :=
  (((allocated_prefix_step h).filter _).map _).length_le

/-- The counter of an eye counts the indices handed out for it, and they are its values in order;
both wrap around. -/
structure Numbered (s : Server) (e : Bool) : Prop where
  counter_eq : (s.frameIndex.get e).toNat = s.handedOut e % UInt64.size
  indices_eq : s.indices e = (List.range (s.handedOut e)).map (· % UInt64.size)

theorem numbered_init (info : CodecInitInfo) (e : Bool) : Numbered (init info) e := by
  cases e <;> exact ⟨rfl, rfl⟩

/-- A step that hands out nothing for the eye keeps its numbering. -/
theorem Numbered.congr {e : Bool} (h : Numbered s e)
    (hcounter : s'.frameIndex.get e = s.frameIndex.get e) (hindices : s'.indices e = s.indices e) :
    Numbered s' e := by
  have hcount : s'.handedOut e = s.handedOut e := congrArg List.length hindices
  constructor
  · rw [hcounter, hcount]
    exact h.counter_eq
  · rw [hindices, hcount]
    exact h.indices_eq

/-- A step that hands out the next index for the eye keeps its numbering. -/
theorem Numbered.allocate {e : Bool} (h : Numbered s e)
    (hcounter : s'.frameIndex.get e = s.frameIndex.get e + 1)
    (hindices : s'.indices e = s.indices e ++ [(s.frameIndex.get e).toNat]) :
    Numbered s' e := by
  have hcount : s'.handedOut e = s.handedOut e + 1 := by simp [handedOut, hindices]
  constructor
  · rw [hcounter, hcount, UInt64.toNat_add, h.counter_eq]
    exact Nat.mod_add_mod _ _ _
  · rw [hindices, hcount, List.range_succ, List.map_append, ← h.indices_eq, h.counter_eq]
    rfl

/-- Every step keeps the numbering. -/
theorem Numbered.step {e : Bool} (h : Numbered s e) (ht : Trans s a s') : Numbered s' e := by
  cases ht with
  | client hc ht =>
    cases ht with
    | @allocate e' hat =>
      rcases eq_or_ne e e' with rfl | hne
      · exact h.allocate (Sided.get_set_self _ _ _) (by simp [indices])
      · exact h.congr (Sided.get_set_of_ne _ _ hne) (by simp [indices, hne.symm])
    | _ => exact h.congr rfl rfl
  | control ht => cases ht <;> exact h.congr rfl rfl
  | _ => exact h.congr rfl rfl

/-- An index has been handed out for an eye exactly if it is among its indices. -/
theorem mem_allocated_iff {e : Bool} {i : UInt64} :
    (e, i) ∈ s.allocated ↔ i.toNat ∈ s.indices e := by
  simp only [indices, List.mem_map, List.mem_filter, decide_eq_true_eq, Prod.exists]
  constructor
  · exact fun h => ⟨e, i, ⟨h, rfl⟩, rfl⟩
  · rintro ⟨e', i', ⟨h, rfl⟩, heq⟩
    exact UInt64.toNat_inj.mp heq ▸ h

/-- An index smaller than the number of indices handed out has been handed out. -/
theorem Numbered.mem_allocated {e : Bool} {i : UInt64} (h : Numbered s e)
    (hlt : i.toNat < s.handedOut e) : (e, i) ∈ s.allocated := by
  rw [mem_allocated_iff, h.indices_eq]
  exact List.mem_map.mpr ⟨i.toNat, List.mem_range.mpr hlt, Nat.mod_eq_of_lt i.toNat_lt⟩

/-- The requests drawn for an eye: up to the last one of an index that has been handed out, and
after it. -/
theorem Numbered.add_length_afterLast_le {e : Bool} {i : UInt64} (h : Numbered s e)
    (hmem : (e, i) ∈ s.allocated) :
    i.toNat + 1 + (afterLast i.toNat (s.indices e)).length ≤ s.handedOut e := by
  obtain ⟨k, hk, hlength⟩ := exists_length_afterLast (mem_allocated_iff.mp hmem)
  have hle : i.toNat ≤ k := by
    rw [h.indices_eq, List.getElem?_map] at hk
    obtain ⟨n, hn, hmod⟩ := Option.map_eq_some_iff.mp hk
    obtain ⟨_, rfl⟩ := List.getElem?_eq_some_iff.mp hn
    rw [List.getElem_range] at hmod
    exact hmod ▸ Nat.mod_le _ _
  change _ ≤ (s.indices e).length
  omega

/-! ### The sender behind the requests -/

/-- The index after the one of the frame that `send_frame_thread` got last. -/
def anchor (s : Server) (isLeft : Bool) : ℕ :=
  match (s.pipe.get isLeft).takes.getLast? with
  | some frame => frame.index.toNat + 1
  | none => 0

/-- What has been drawn for an eye since the request of the frame its sender got last comes on top
of the index of that frame. -/
theorem anchor_add_drawnSince_le {e : Bool} (h : Numbered s e)
    (hmem : ∀ f ∈ (s.pipe.get e).takes, (e, f.index) ∈ s.allocated) :
    s.anchor e + s.drawnSince e ≤ s.handedOut e := by
  unfold anchor drawnSince
  cases hlast : (s.pipe.get e).takes.getLast? with
  | none => exact (Nat.zero_add _).le
  | some frame => exact h.add_length_afterLast_le (hmem frame (List.mem_of_getLast? hlast))

/-- The timeouts since the sender last got a frame, after one more step. -/
theorem timeouts_concat (e : Bool) (past : List Action) (a : Action) :
    timeouts e (past ++ [a]) =
      if a = .pipe e .getDelete then 0
      else timeouts e past + if a = .pipe e .getTimeout then 1 else 0 := by
  unfold timeouts
  rw [afterLast_concat]
  split
  · rfl
  · rw [List.count_append, List.count_singleton]
    simp

/-- The sender of a pipeline has not passed the first `n` indices. -/
def Within (p : Pipe) (n : ℕ) : Prop :=
  p.frameIndex.toNat ≤ n ∧ (p.send ≠ .getting → p.frameIndex.toNat < n)

/-- A step of one pipeline keeps its sender within `n` indices, which may become more, if a wait
ends only at one of them. -/
theorem Within.step {p p' : Pipe} {b : PipeAction} {n n' : ℕ} (h : Within p n)
    (ht : Pipe.Trans p b p') (hmono : b ≠ .getDelete → n ≤ n')
    (hend : b = .getTimeout ∨ b = .getDelete → p.frameIndex.toNat < n') : Within p' n' := by
  obtain ⟨hle, hlt⟩ := h
  cases ht with
  | getDelete hat hmem hm =>
    have hbelow := hend (Or.inr rfl)
    exact ⟨hbelow.le, fun _ => hbelow⟩
  | getTimeout hat habs =>
    have hbelow := hend (Or.inl rfl)
    exact ⟨hbelow.le, fun _ => hbelow⟩
  | sendScene hat | sendDepth hat =>
    have hbelow := (hlt (by simp [hat])).trans_le (hmono (by simp))
    exact ⟨hbelow.le, fun _ => hbelow⟩
  | advance hat =>
    have hbelow := (hlt (by simp [hat])).trans_le (hmono (by simp))
    have hmod : (p.frameIndex + 1).toNat ≤ p.frameIndex.toNat + 1 := by
      rw [UInt64.toNat_add, UInt64.toNat_one]
      exact Nat.mod_le _ _
    exact ⟨hmod.trans hbelow, fun h => absurd rfl h⟩
  | _ => exact ⟨hle.trans (hmono (by simp)), fun h => (hlt h).trans_le (hmono (by simp))⟩

/-- The sender of an eye, its position measured from the frame it got last and from the start. -/
structure Behind (e : Bool) (past : List Action) (s : Server) : Prop where
  numbered : Numbered s e
  replies_mem : ∀ r ∈ s.replies, (r.2.isLeft, r.2.index) ∈ s.allocated
  anchored : Within (s.pipe.get e) (s.anchor e + timeouts e past)
  behind : Within (s.pipe.get e) (s.handedOut e)

theorem behind_init (info : CodecInitInfo) (e : Bool) : Behind e [] (init info) := by
  refine ⟨numbered_init info e, by simp, ?_, ?_⟩
  · cases e <;> exact ⟨Nat.le_refl 0, fun h => absurd rfl h⟩
  · cases e <;> exact ⟨Nat.le_refl 0, fun h => absurd rfl h⟩

/-- The frames the sender of an eye got have been asked for. -/
theorem Behind.mem_allocated {e : Bool} (h : Behind e past s)
    (heye : ∀ f ∈ (s.pipe.get e).frames, f.isLeft = e) {f : RenderedFrame}
    (hf : f ∈ (s.pipe.get e).frames) : (e, f.index) ∈ s.allocated := by
  have hmem := h.replies_mem _ (reply_mem_replies hf)
  rwa [show f.reply.2.isLeft = e from heye f hf] at hmem

/-- A wait that times out in time does so at one of the indices handed out. -/
theorem Behind.frameIndex_lt {e : Bool} (h : Behind e past s)
    (heye : ∀ f ∈ (s.pipe.get e).frames, f.isLeft = e) (hin : timeouts e past < s.drawnSince e) :
    (s.pipe.get e).frameIndex.toNat < s.handedOut e :=
  calc (s.pipe.get e).frameIndex.toNat
    _ ≤ s.anchor e + timeouts e past := h.anchored.1
    _ < s.anchor e + s.drawnSince e := Nat.add_lt_add_left hin _
    _ ≤ s.handedOut e := anchor_add_drawnSince_le h.numbered fun _ hf =>
      h.mem_allocated heye (List.mem_append_right _ hf)

/-- A frame in the map under `frame_index` has been asked for. -/
theorem Behind.frameIndex_lt_of_mem {e : Bool} (h : Behind e past s)
    (heye : ∀ f ∈ (s.pipe.get e).frames, f.isLeft = e) (hkeyed : (s.pipe.get e).Keyed)
    {frame : RenderedFrame}
    (hmem : ((s.pipe.get e).frameIndex, frame) ∈ (s.pipe.get e).frameMap.map.entries) :
    (s.pipe.get e).frameIndex.toNat < s.handedOut e := by
  have hframe : frame ∈ (s.pipe.get e).frames :=
    List.mem_append_left _ (List.mem_append_right _ (List.mem_map.mpr ⟨_, hmem, rfl⟩))
  have hindex : frame.index = (s.pipe.get e).frameIndex := hkeyed.map_index _ hmem
  have hlt := h.numbered.add_length_afterLast_le (hindex ▸ h.mem_allocated heye hframe)
  omega

/-- What a step of its pipeline does to the position of the sender measured from the frame it got
last. -/
theorem Behind.anchored_step {e : Bool} (h : Behind e past s) (hkeyed : (s.pipe.get e).Keyed)
    {b : PipeAction} (ht : Pipe.Trans (s.pipe.get e) b (s'.pipe.get e))
    (hget : a = .pipe e .getDelete ↔ b = .getDelete)
    (htimeout : a = .pipe e .getTimeout ↔ b = .getTimeout) :
    Within (s'.pipe.get e) (s'.anchor e + timeouts e (past ++ [a])) := by
  rw [timeouts_concat, if_congr hget rfl rfl, if_congr htimeout rfl rfl]
  by_cases hb : b = .getDelete
  · -- the measure starts anew at the frame got
    rw [if_pos hb]
    have hanchor : s'.anchor e = (s.pipe.get e).frameIndex.toNat + 1 := by
      subst hb
      obtain ⟨frame, hmem, htakes⟩ := ht.takes_getDelete
      simp [anchor, htakes, hkeyed.map_index _ hmem]
    exact h.anchored.step ht (absurd hb) fun _ => by omega
  · rw [if_neg hb]
    have hanchor : s'.anchor e = s.anchor e := by
      rw [anchor, Pipe.takes_of_ne ht hb]
      rfl
    rw [hanchor]
    refine h.anchored.step ht (fun _ => by omega) fun hend => ?_
    have hle := h.anchored.1
    rw [if_pos (hend.resolve_right hb)]
    omega

/-- Every step in time keeps the sender behind the requests. -/
theorem Behind.step {e : Bool} (h : Behind e past s) (hin : InTime (past, s) a)
    (ht : Trans s a s') (hkeyed : (s.pipe.get e).Keyed)
    (heye : ∀ f ∈ (s.pipe.get e).frames, f.isLeft = e) : Behind e (past ++ [a]) s' := by
  have hmono := handedOut_le_step ht e
  have hreplies : ∀ r ∈ s'.replies, (r.2.isLeft, r.2.index) ∈ s'.allocated := fun r hr => by
    rcases mem_replies_step ht hr with hold | hnew
    · exact (allocated_prefix_step ht).subset (h.replies_mem r hold)
    · unfold parsedReplies at hnew
      split at hnew
      · obtain rfl := List.mem_singleton.mp hnew
        exact (allocated_prefix_step ht).subset hin
      · cases hnew
  rcases ht.pipe_get e with ⟨heq, hnone⟩ | ⟨b, hb, hact⟩
  · refine ⟨h.numbered.step ht, hreplies, ?_, ?_⟩
    · have hanchor : s'.anchor e = s.anchor e := by rw [anchor, heq]; rfl
      rw [timeouts_concat, if_neg (hnone _), if_neg (hnone _), Nat.add_zero, hanchor, heq]
      exact h.anchored
    · rw [heq]
      exact ⟨h.behind.1.trans hmono, fun hs => (h.behind.2 hs).trans_le hmono⟩
  · have hab : ∀ c : PipeAction, c.pushed = [] → (a = .pipe e c ↔ b = c) := by
      intro c hc
      rcases hact with ⟨rfl, -⟩ | ⟨frame, i, rfl, -, rfl⟩
      · simp
      · refine iff_of_false (by simp) ?_
        rintro rfl
        cases hc
    refine ⟨h.numbered.step ht, hreplies,
      h.anchored_step hkeyed hb (hab _ rfl) (hab _ rfl), h.behind.step hb (fun _ => hmono) ?_⟩
    rintro (rfl | rfl)
    · obtain rfl := (hab .getTimeout rfl).mpr rfl
      exact (h.frameIndex_lt heye hin).trans_le hmono
    · obtain ⟨frame, hmem, -⟩ := hb.takes_getDelete
      exact (h.frameIndex_lt_of_mem heye hkeyed hmem).trans_le hmono

/-- In every run in which the requests keep up with the waits, an index is skipped on timeout only
if a client thread has already drawn it for the eye, and the `frame_index` of neither
`send_frame_thread` exceeds the number of indices handed out for its eye. -/
theorem sender_behind {info : CodecInitInfo} {as past : List Action}
    (hrun : (step.recorded.guarded InTime).run ([], init info) as = some (past, s)) :
    (step.guarded SkipsRequested).run (init info) as = some s ∧
      ∀ e, (s.pipe.get e).frameIndex.toNat ≤ s.handedOut e := by
  have hbehind : (step.guarded SkipsRequested).run (init info) as = some s ∧
      ∀ e, Behind e as s := by
    refine Machine.run_recorded_induction (P := fun as s =>
      (step.guarded SkipsRequested).run (init info) as = some s ∧ ∀ e, Behind e as s)
      ⟨rfl, behind_init info⟩ (fun as s a s' hrun ⟨hskips, h⟩ hin hs => ?_) hrun
    have heye := isLeft_of_mem_frames hrun
    refine ⟨(Machine.run_concat_eq_some_iff _).mpr
      ⟨s, hskips, Machine.guarded_eq_some_iff.mpr ⟨?_, hs⟩⟩, fun e => (h e).step hin
        (trans_of_step hs).1
        (pipe_invariant Pipe.keyed_init (fun _ _ _ h ht => Pipe.Keyed.step h ht) hrun e) (heye e)⟩
    unfold SkipsRequested
    split
    · rename_i e
      exact (h e).numbered.mem_allocated ((h e).frameIndex_lt (heye e) hin)
    · trivial
  exact ⟨hbehind.1, fun e => (hbehind.2 e).behind.1⟩

/-- A request for the right eye whose reply is not there in time. -/
def slowReply : List Action :=
  [.connect, .client 0 .draw, .client 0 .allocate, .pipe false .getTimeout, .pipe false .advance]

/-- The index skipped had been handed out. -/
theorem sender_behind_slowReply :
    ∃ s, (step.recorded.guarded InTime).run ([], init defaultInitInfo) slowReply =
        some (slowReply, s) ∧
      s.pipe.right.frameIndex = 1 ∧ s.pipe.right.frameIndex.toNat ≤ s.handedOut false :=
  ⟨_, rfl, rfl, (@sender_behind _ defaultInitInfo slowReply slowReply rfl).2 false⟩

/-- The server without a renderer: the first wait of the left `send_frame_thread` times out, and
the thread is past an index that nobody has asked for. -/
theorem startup_runs_ahead :
    ∃ s, step.run (init defaultInitInfo) [.pipe true .getTimeout, .pipe true .advance] = some s ∧
      s.handedOut true < s.pipe.left.frameIndex.toNat :=
  ⟨_, rfl, by decide⟩

end Server

end Ngp
