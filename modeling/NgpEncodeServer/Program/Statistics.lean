import NgpEncodeServer.Program.Step
import NgpEncodeServer.Server.Position

/-!
# The frame rate that is logged

`encode_stats_thread` adds up two counters that it does not read at once, while any number of client
threads advance them.  Each sum is nevertheless one that the number of requests has passed between
the first load and the second, so the sums never go back, and the rates that are logged are those
between one sum and the next.
-/

namespace Ngp

namespace Server

/-- The numbers of requests for the two eyes. -/
def counts (s : Server) : Sided ℕ := ⟨s.handedOut true, s.handedOut false⟩

@[simp] theorem get_counts (s : Server) (e : Bool) : s.counts.get e = s.handedOut e := by
  cases e <;> rfl

/-- Every request is one for the left or for the right eye. -/
theorem sum_counts (s : Server) : s.counts.left + s.counts.right = s.allocated.length := by
  have hsplit := List.length_eq_countP_add_countP (fun x : Bool × UInt64 => decide (x.1 = true))
    (l := s.allocated)
  have hright : s.allocated.countP (fun x => decide (x.1 = false)) =
      s.allocated.countP fun x => decide ¬decide (x.1 = true) = true :=
    List.countP_congr fun x _ => by simp
  simp only [counts, handedOut, indices, List.length_map, ← List.countP_eq_length_filter]
  omega

/-- The draws are the most that can have been handed out. -/
theorem Allotment.sum_counts_le {n : ℕ} {s : Server} (h : Allotment n s) :
    s.counts.left + s.counts.right ≤ n := by
  have hcount : ∀ e, s.handedOut e = (s.frameIndex.get e).toNat := by
    intro e
    rw [handedOut, h.indices_eq e, List.length_range]
  have hleft : s.counts.left = s.frameIndex.left.toNat := hcount true
  have hright : s.counts.right = s.frameIndex.right.toNat := hcount false
  have hr := h.right_eq
  have hl := h.left_eq
  omega

end Server

namespace Program

variable {κ : Type*} [DecidableEq κ] {s s' : Program κ} {a : ProgramAction κ}

/-- Only `encode_stats_thread` moves its variables. -/
theorem Trans.stats_eq (h : Trans s a s') (ha : ∀ b, a ≠ .stats b) : s'.stats = s.stats := by
  cases h with
  | stats => exact absurd rfl (ha _)
  | _ => rfl

/-- Indices are never taken back. -/
theorem Trans.counts_le (h : Trans s a s') (e : Bool) :
    s.server.counts.get e ≤ s'.server.counts.get e := by
  rw [Server.get_counts, Server.get_counts]
  cases h with
  | connect hmanaged ht hm hret hserver | client hloop hserver | process hsend hloop hserver
  | send hsend hloop hserver | control hrunning hserver =>
    exact Server.handedOut_le_step (Server.trans_of_step hserver).1 e
  | _ => exact Nat.le_refl _

/-- The number of draws among the steps. -/
def draws (as : List (ProgramAction κ)) : ℕ :=
  (as.filterMap ProgramAction.server).countP Action.isDraw

variable {info : CodecInitInfo} {renderers : List (List UInt8)} {as bs : List (ProgramAction κ)}
  {s₀ : Program κ}

omit [DecidableEq κ] in
theorem draws_append : draws (as ++ bs) = draws as + draws bs := by
  rw [draws, List.filterMap_append, List.countP_append]
  rfl

/-- What the requests that are drawn and the steps of `encode_stats_thread` keep holds along a run
with fewer than `UInt64.size` draws. -/
theorem stats_run {I : Sided ℕ → EncodeStats → Prop}
    (hmono : ∀ n n' t, (∀ e, n.get e ≤ n'.get e) → I n t → I n' t)
    (hthread : ∀ flag frameIndex n t b t', EncodeStats.Trans flag frameIndex t b t' →
      (∀ e, (frameIndex.get e).toNat = n.get e) → n.left + n.right < UInt64.size → I n t → I n t')
    (hrun₀ : step.run (init info renderers) as = some s₀) (hrun : step.run s₀ bs = some s)
    (hdraws : draws (as ++ bs) < UInt64.size) (hinit : I s₀.server.counts s₀.stats) :
    I s.server.counts s.stats := by
  refine Machine.run_induction (m := step)
    (P := fun bs s => draws (as ++ bs) < UInt64.size → I s.server.counts s.stats)
    (fun _ => hinit) ?_ hrun hdraws
  intro bs s a s' hrun ih hstep hdraws
  have hbefore : draws (as ++ bs) < UInt64.size := by
    rw [← List.append_assoc, draws_append] at hdraws
    omega
  have ht := (trans_of_step hstep).1
  have hkept := ih hbefore
  by_cases ha : ∃ b, a = .stats b
  · obtain ⟨b, rfl⟩ := ha
    have hserver := server_run (Machine.run_trans step hrun₀ hrun)
    cases ht with
    | stats hborn ht =>
      refine hthread _ _ _ _ _ _ ht (fun e => ?_) ?_ hkept
      · rw [Server.get_counts, Server.handedOut_eq_frameIndex hserver hbefore]
      · exact Nat.lt_of_le_of_lt (Server.allotment_run hserver hbefore).sum_counts_le hbefore
  · rw [ht.stats_eq fun b hb => ha ⟨b, hb⟩]
    exact hmono _ _ _ ht.counts_le hkept

/-- The thread's books are right in every run with fewer than `UInt64.size` draws. -/
theorem sound_run (hrun : step.run (init info renderers) as = some s)
    (hdraws : draws as < UInt64.size) : EncodeStats.Sound s.server.counts s.stats := by
  have hstart : step.run (init info renderers : Program κ) [] = some (init info renderers) := rfl
  exact stats_run (I := EncodeStats.Sound) (fun _ _ _ hle h => h.mono hle)
    (fun _ _ _ _ _ _ ht hcounts hsize h => h.step ht hcounts hsize) hstart hrun hdraws
    EncodeStats.sound_init

/-- What is reported after a state in which the thread has not read a counter yet. -/
theorem fresh_run (hrun₀ : step.run (init info renderers) as = some s₀)
    (hrun : step.run s₀ bs = some s) (hdraws : draws (as ++ bs) < UInt64.size) {least : ℕ}
    (hfloor : s₀.stats.point.Floor least s₀.server.counts) :
    EncodeStats.Fresh least s₀.stats.reports s.server.counts s.stats :=
  stats_run (I := EncodeStats.Fresh least s₀.stats.reports)
    (fun _ _ _ hle h => ⟨h.1.mono hle, h.2⟩)
    (fun _ _ _ _ _ _ ht hcounts hsize h => h.step ht hcounts hsize) hrun₀ hrun hdraws
    ⟨hfloor, [], (List.append_nil _).symm, fun _ hr => absurd hr List.not_mem_nil⟩

/-- In every run of the program with fewer than `UInt64.size` draws, whatever the client threads do
between the two loads: the rates that are logged are those between one sum and the next, in exact
arithmetic; the sums never go back, and the requests that the rates stand for are never more than
there are; and a report about an iteration that had not read a counter yet in an earlier state
counts at least the requests of that state, and at most those that there are now. -/
theorem reports_sound (hrun₀ : step.run (init info renderers) as = some s₀)
    (hrun : step.run s₀ bs = some s) (hdraws : draws (as ++ bs) < UInt64.size) :
    (s.stats.reports.map fun r => r.fps.toNat) = EncodeStats.rates 0 s.stats.sums ∧
    s.stats.sums.Pairwise (· ≤ ·) ∧
    kEncodeStatsLogIntervalSeconds.toNat * (s.stats.reports.map fun r => r.fps.toNat).sum ≤
      s.server.allocated.length ∧
    ∃ later, s.stats.reports = s₀.stats.reports ++ later ∧
      ∀ r ∈ later, r.currentIndex.toNat ≤ s.server.allocated.length ∧
        (s₀.stats.point = .loopHead ∨ s₀.stats.point = .loading →
          s₀.server.allocated.length ≤ r.currentIndex.toNat) := by
  have hsound := sound_run (Machine.run_trans step hrun₀ hrun) hdraws
  have hprevious := hsound.previous_le
  rw [Server.sum_counts] at hprevious
  refine ⟨hsound.fps_eq, hsound.sorted, hsound.mul_sum_fps_le.trans hprevious, ?_⟩
  have hcurrent : ∀ r ∈ s.stats.reports, r.currentIndex.toNat ≤ s.server.allocated.length :=
    fun r hr => (hsound.le_previous _ (List.mem_map_of_mem hr)).trans hprevious
  by_cases hat : s₀.stats.point = .loopHead ∨ s₀.stats.point = .loading
  · have hfloor : s₀.stats.point.Floor s₀.server.allocated.length s₀.server.counts := by
      have hsum := s₀.server.sum_counts
      rcases hat with hat | hat <;> rw [hat] <;> exact Nat.le_of_eq hsum.symm
    obtain ⟨-, later, hlater, hleast⟩ := fresh_run hrun₀ hrun hdraws hfloor
    refine ⟨later, hlater, fun r hr => ⟨hcurrent r ?_, fun _ => hleast r hr⟩⟩
    rw [hlater]
    exact List.mem_append_right _ hr
  · have hbefore : draws as < UInt64.size := by
      rw [draws_append] at hdraws
      omega
    have hfloor := (sound_run hrun₀ hbefore).floor.anti (Nat.zero_le _)
    obtain ⟨-, later, hlater, -⟩ := fresh_run hrun₀ hrun hdraws hfloor
    refine ⟨later, hlater, fun r hr => ⟨hcurrent r ?_, fun hat' => absurd hat' hat⟩⟩
    rw [hlater]
    exact List.mem_append_right _ hr

/-- A client thread makes eleven requests, which the renderer does not answer, and
`encode_stats_thread` counts for ten seconds. -/
def elevenRequests : List (ProgramAction ℕ) :=
  List.flatten [List.replicate 5 (.main (.start none)), [.main .proceed],
    List.replicate 10 (.main .spawn), [.main .proceed, .socketMain .spawn, .manage 0 .parse,
      .manage 0 (.socket (some 5)), .manage 0 (.connect 0)],
    (List.replicate 11 [.clientTest 0, .client 0 .draw, .client 0 .allocate, .client 0 .build,
      .client 0 (.send 0), .client 0 (.receive .notParsed)]).flatten,
    (List.replicate 9 [.stats .test, .stats (.loadFirst true), .stats .loadSecond,
      .stats .report]).flatten, [.stats .test]]

/-- The left counter is read before the twelfth request, which is one for the left eye. -/
def twelfthRequest : List (ProgramAction ℕ) :=
  [.stats (.loadFirst true), .clientTest 0, .client 0 .draw, .client 0 .allocate,
    .stats .loadSecond, .stats .report]

/-- Of the twelve requests eleven are counted. -/
theorem reports_sound_twelfthRequest :
    ∃ s₀ s, step.run (init defaultInitInfo [Manage.tenSevenThousand]) elevenRequests = some s₀ ∧
      step.run s₀ twelfthRequest = some s ∧ s₀.server.allocated.length = 11 ∧
      s.server.allocated.length = 12 ∧ s.stats.reports = [⟨1, 11⟩] ∧
      10 * (s.stats.reports.map fun r => r.fps.toNat).sum ≤ s.server.allocated.length := by
  have hreports : ((step.run (init defaultInitInfo [Manage.tenSevenThousand]) elevenRequests).bind
      fun s₀ => (step.run s₀ twelfthRequest).map fun s => (s₀.server.allocated.length,
        s.server.allocated.length, s.stats.reports)) = some (11, 12, [⟨1, 11⟩]) := by
    decide +kernel
  obtain ⟨s₀, hrun₀, hrest⟩ := Option.bind_eq_some_iff.mp hreports
  obtain ⟨s, hrun, hend⟩ := Option.map_eq_some_iff.mp hrest
  obtain ⟨hbefore, hafter, hlogged⟩ : s₀.server.allocated.length = 11 ∧
      s.server.allocated.length = 12 ∧ s.stats.reports = [⟨1, 11⟩] := by
    simpa using hend
  have hdraws : draws (elevenRequests ++ twelfthRequest) < UInt64.size := by decide +kernel
  exact ⟨s₀, s, hrun₀, hrun, hbefore, hafter, hlogged, (reports_sound hrun₀ hrun hdraws).2.2.1⟩

end Program

end Ngp
