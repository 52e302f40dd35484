import NgpEncodeServer.Foundation.ListSum
import NgpEncodeServer.Foundation.Progress
import NgpEncodeServer.Video.CodecLocks

/-!
# The codec is used by one thread at a time

Between the write of a new size and the moment at which the new context is open the manager is in no
state that a caller may see.  `Reached` says how far the thread that is changing it has got, and
`Refines.step` that every step of a thread is a piece of a call: the calls of libavcodec and the
changes of the resolution are those of some sequence of calls made one after the other.
-/

namespace Ngp

namespace CodecLocks

/-- Calls of libavcodec and changes of the resolution, each of them one step. -/
inductive Sequential (m₀ : AVCodecContextManager) :
    List CodecCall → AVCodecContextManager → Prop
  | nil : Sequential m₀ [] m₀
  | use {log : List CodecCall} {m : AVCodecContextManager} {op : CodecOp} {ret : ℤ}
      (h : Sequential m₀ log m) : Sequential m₀ (log ++ [.use op m.ctx ret]) m
  | changeResolution {log : List CodecCall} {m : AVCodecContextManager} {width height : UInt32}
      {outcome : InitOutcome} (h : Sequential m₀ log m) :
      Sequential m₀ (log ++ [.changeResolution width height outcome])
        (m.changeResolution width height outcome).1

end CodecLocks

/-- What a thread has made of the manager at a point of `change_resolution`. -/
def ChangePoint.reached (m : AVCodecContextManager) (width height : UInt32) :
    ChangePoint → AVCodecContextManager :=
  let resized := { m with info := { m.info with width := width, height := height } }
  let freed := { resized with ctx := if m.opened then none else m.ctx }
  fun
  | .writingWidth => m
  | .writingHeight => { m with info := { m.info with width := width } }
  | .freeing => resized
  | .finding | .allocating => freed
  | .opening => { freed with ctx := some (resized.info.context false) }
  | .finishing => { freed with ctx := some (resized.info.context true) }

/-- What a thread has made of the manager. -/
def CodecPoint.reached (m : AVCodecContextManager) : CodecPoint → AVCodecContextManager
  | .changing width height stage => stage.reached m width height
  | _ => m

namespace CodecLocks

section Refinement

variable {m₀ m m' : AVCodecContextManager} {s s' : CodecLocks} {i : ℕ} {p p' : CodecPoint}
  {log calls : List CodecCall} {x : CodecMutex}

/-- A thread that is not changing the manager has made nothing of it. -/
theorem reached_of_not_changing (h : p.isChanging = false) : p.reached m = m := by
  cases p with
  | changing => cases h
  | _ => rfl

/-- A step that uses or changes the manager is a piece of a call, and ends it when it logs it. -/
theorem Writes.sequential (h : Writes (p.reached m) p p' m' calls) (hlog : Sequential m₀ log m) :
    ∃ m₁, Sequential m₀ (log ++ calls) m₁ ∧ m' = p'.reached m₁ := by
  cases h with
  | use => exact ⟨m, hlog.use, rfl⟩
  | writeWidth | writeHeight | free | allocate | openCodec =>
    exact ⟨m, by rwa [List.append_nil], rfl⟩
  | notFound | notAllocated | notOpened | finish => exact ⟨_, hlog.changeResolution, rfl⟩

/-- The manager is what the thread that is changing it has made of `m`, and otherwise it is `m`. -/
def Reached (s : CodecLocks) (m : AVCodecContextManager) : Prop :=
  (∀ (i : ℕ) (p : CodecPoint), s.threads[i]? = some p → p.isChanging = true →
    s.manager = p.reached m) ∧
  ((∀ (i : ℕ) (p : CodecPoint), s.threads[i]? = some p → p.isChanging = false) → s.manager = m)

/-- No other thread is changing the manager. -/
def Alone (s : CodecLocks) (i : ℕ) : Prop :=
  ∀ (j : ℕ) (q : CodecPoint), j ≠ i → s.threads[j]? = some q → q.isChanging = false

/-- A thread with a mutex is alone: who changes the manager has both. -/
theorem AllOwned.alone (h : s.AllOwned) (hat : s.threads[i]? = some p) (hhas : p.has x = true) :
    s.Alone i := by
  intro j q hj hq
  cases q with
  | changing width height stage =>
    have hboth : (CodecPoint.changing width height stage).has x = true := rfl
    exact absurd ((h x).unique hq hat hboth hhas) hj
  | _ => rfl

/-- What a thread that is alone finds. -/
theorem Reached.eq_of_alone (h : s.Reached m) (hat : s.threads[i]? = some p) (halone : s.Alone i) :
    s.manager = p.reached m := by
  cases hp : p.isChanging with
  | true => exact h.1 i p hat hp
  | false =>
    rw [reached_of_not_changing hp]
    apply h.2
    intro j q hq
    by_cases hj : j = i
    · subst hj
      obtain rfl := Option.some.inj (hat.symm.trans hq)
      exact hp
    · exact halone j q hj hq

/-- What a thread that is alone leaves. -/
theorem reached_of_alone (hat : s.threads[i]? = some p) (halone : s.Alone i)
    (hthreads : s'.threads = s.threads.set i p') (hmanager : s'.manager = p'.reached m) :
    s'.Reached m := by
  refine ⟨?_, ?_⟩
  · intro j q hq hchanging
    rw [hthreads] at hq
    rcases getElem?_set_cases hq with ⟨rfl, rfl⟩ | ⟨hj, hold⟩
    · exact hmanager
    · rw [halone j q hj hold] at hchanging
      cases hchanging
  · intro hnone
    have hlt := (List.getElem?_eq_some_iff.mp hat).1
    have hp' : p'.isChanging = false := by
      apply hnone i p'
      rw [hthreads, List.getElem?_set_self hlt]
    rw [hmanager, reached_of_not_changing hp']

/-- A thread goes on outside `change_resolution`, and leaves the manager as it is. -/
theorem Reached.keep (h : s.Reached m) (hat : s.threads[i]? = some p)
    (hthreads : s'.threads = s.threads.set i p') (hmanager : s'.manager = s.manager)
    (hp : p.isChanging = false) (hp' : p'.isChanging = false) : s'.Reached m := by
  have hlt := (List.getElem?_eq_some_iff.mp hat).1
  refine ⟨?_, ?_⟩
  · intro j q hq hchanging
    rw [hthreads] at hq
    rcases getElem?_set_cases hq with ⟨rfl, rfl⟩ | ⟨hj, hold⟩
    · rw [hp'] at hchanging
      cases hchanging
    · rw [hmanager]
      exact h.1 j q hold hchanging
  · intro hnone
    rw [hmanager]
    apply h.2
    intro j q hq
    by_cases hj : j = i
    · subst hj
      obtain rfl := Option.some.inj (hat.symm.trans hq)
      exact hp
    · apply hnone j q
      rw [hthreads, List.getElem?_set_ne (Ne.symm hj)]
      exact hq

/-- The calls that have been logged are calls made one after the other, and the next one has got as
far as its thread. -/
def Refines (m₀ : AVCodecContextManager) (s : CodecLocks) : Prop :=
  ∃ m, Sequential m₀ s.log m ∧ s.Reached m

/-- Every step is a piece of a call. -/
theorem Refines.step (h : Refines m₀ s) (howned : s.AllOwned) (ht : Trans s i s') :
    Refines m₀ s' := by
  obtain ⟨m, hlog, hreached⟩ := h
  cases ht with
  | goes hat hgoes =>
    cases hgoes with
    | call method =>
      exact ⟨m, hlog, hreached.keep hat rfl rfl rfl (by cases method <;> rfl)⟩
    | tryFails => exact ⟨m, hlog, hreached.keep hat rfl rfl rfl rfl⟩
    | found =>
      have halone := howned.alone (x := .context) hat rfl
      have hmanager := hreached.eq_of_alone hat halone
      exact ⟨m, hlog, reached_of_alone hat halone rfl hmanager⟩
  | @takes x p p' hat htakes hfree =>
    have hsame : ((s.setOwner x (some i)).move i p').log = s.log := log_setOwner_move _ _ _ _ _
    refine ⟨m, hsame ▸ hlog, ?_⟩
    cases htakes with
    | lock | lockFirst =>
      exact hreached.keep hat (threads_setOwner_move _ _ _ _ _) (manager_setOwner_move _ _ _ _ _)
        rfl rfl
    | @trySucceeds x width height =>
      have halone := howned.alone (x := x) hat (by simp [CodecPoint.has])
      have hmanager := hreached.eq_of_alone hat halone
      apply reached_of_alone hat halone (threads_setOwner_move _ _ _ _ _)
      rw [manager_setOwner_move]
      exact hmanager
  | @releases x p p' hat hreleases =>
    have hsame : ((s.setOwner x none).move i p').log = s.log := log_setOwner_move _ _ _ _ _
    refine ⟨m, hsame ▸ hlog, ?_⟩
    apply hreached.keep hat (threads_setOwner_move _ _ _ _ _) (manager_setOwner_move _ _ _ _ _)
    · cases hreleases <;> rfl
    · cases hreleases <;> rfl
  | @writes p p' m' calls hat hwrites =>
    have halone := howned.alone hat hwrites.has.1
    rw [hreached.eq_of_alone hat halone] at hwrites
    obtain ⟨m₁, hlog₁, hm₁⟩ := hwrites.sequential hlog
    exact ⟨m₁, hlog₁, reached_of_alone hat halone rfl hm₁⟩
  | lockShared hat | unlockShared hat => exact ⟨m, hlog, hreached.keep hat rfl rfl rfl rfl⟩

end Refinement

end CodecLocks

/-! ### The calls return -/

namespace CodecPoint

/-- What a thread has to do from a point on.  A thread that backs off loses less than one that has
got the other mutex gains. -/
def work : CodecPoint → ℕ
  | .outside => 0
  | .unlocking _ | .providing => 1
  | .calling _ | .changed | .lockingShared => 2
  | .locking _ => 3
  | .changing _ _ .finishing => 4
  | .changing _ _ .opening => 5
  | .changing _ _ .allocating => 6
  | .changing _ _ .finding => 7
  | .changing _ _ .freeing => 8
  | .changing _ _ .writingHeight => 9
  | .changing _ _ .writingWidth => 10
  | .trying _ _ _ => 13
  | .acquiring _ _ => 14
  | .backingOff _ _ _ => 15

/-- The thread can go on, whatever the others do. -/
def isBusy : CodecPoint → Bool
  | .calling _ | .backingOff _ _ _ | .changing _ _ _ | .changed | .unlocking _ | .providing => true
  | .outside | .locking _ | .acquiring _ _ | .trying _ _ _ | .lockingShared => false

/-- The thread has one mutex and is going to try the other one. -/
def isTrying (x : CodecMutex) : CodecPoint → Bool
  | .trying y _ _ => x = y
  | _ => false

/-- The thread calls libavcodec, or is changing the context that the others use. -/
def usesContext : CodecPoint → Bool
  | .calling _ | .changing _ _ _ => true
  | _ => false

end CodecPoint

/-- A step other than the beginning of a call. -/
def CodecAction.isOwn : CodecAction → Bool
  | .call _ _ => false
  | _ => true

namespace CodecLocks

section Completion

variable {m₀ : AVCodecContextManager} {s s' : CodecLocks} {i j : ℕ} {p : CodecPoint}
  {x : CodecMutex}

/-- What all threads have to do. -/
def work (s : CodecLocks) : ℕ := (s.threads.map CodecPoint.work).sum

/-- What it does to the work when one thread goes on. -/
theorem work_set {p' : CodecPoint} (hat : s.threads[i]? = some p)
    (hthreads : s'.threads = s.threads.set i p') : s'.work + p.work = s.work + p'.work := by
  unfold work
  rw [hthreads]
  exact sum_map_set_add CodecPoint.work hat

/-- The thread `i` can take a step that leaves it with less to do. -/
def GoesOn (s : CodecLocks) (i : ℕ) (p : CodecPoint) : Prop :=
  ∃ a s' p', a.isOwn = true ∧ step s a = some s' ∧ s'.threads = s.threads.set i p' ∧
    p'.work < p.work

/-- A step after which its thread has less to do. -/
theorem goesOn_of_step {p' : CodecPoint} {a : CodecAction} (hstep : step s a = some s')
    (hthreads : s'.threads = s.threads.set i p') (hlt : p'.work < p.work)
    (hown : a.isOwn = true) : s.GoesOn i p :=
  ⟨a, s', p', hown, hstep, hthreads, hlt⟩

/-- A thread with both mutexes goes on. -/
theorem goesOn_of_changing {width height : UInt32} {stage : ChangePoint}
    (hat : s.threads[i]? = some (.changing width height stage)) :
    s.GoesOn i (.changing width height stage) := by
  let m := s.manager
  cases stage with
  | writingWidth =>
    have hstep : step s (.writeWidth i) = some (s.write i (.changing width height .writingHeight)
        { m with info := { m.info with width := width } } []) := by
      simp only [step, CodecAction.thread, hat, m]
    exact goesOn_of_step hstep rfl (Nat.lt_succ_self 9) rfl
  | writingHeight =>
    have hstep : step s (.writeHeight i) = some (s.write i (.changing width height .freeing)
        { m with info := { m.info with height := height } } []) := by
      simp only [step, CodecAction.thread, hat, m]
    exact goesOn_of_step hstep rfl (Nat.lt_succ_self 8) rfl
  | freeing =>
    have hstep : step s (.free i) = some (s.write i (.changing width height .finding)
        { m with ctx := if m.opened then none else m.ctx } []) := by
      simp only [step, CodecAction.thread, hat, m]
    exact goesOn_of_step hstep rfl (Nat.lt_succ_self 7) rfl
  | finding =>
    have hstep : step s (.find i true) = some
        (s.move i (.changing width height .allocating)) := by
      simp only [step, CodecAction.thread, hat, if_true]
    exact goesOn_of_step hstep rfl (Nat.lt_succ_self 6) rfl
  | allocating =>
    have hstep : step s (.allocate i true) = some (s.write i (.changing width height .opening)
        { m with ctx := some (m.info.context false) } []) := by
      simp only [step, CodecAction.thread, hat, if_true, m]
    exact goesOn_of_step hstep rfl (Nat.lt_succ_self 5) rfl
  | opening =>
    have hstep : step s (.openCodec i none) = some
        (s.write i (.changing width height .finishing)
          { m with ctx := m.ctx.map fun ctx => { ctx with isOpen := true } } []) := by
      simp only [step, CodecAction.thread, hat, m]
    exact goesOn_of_step hstep rfl (Nat.lt_succ_self 4) rfl
  | finishing =>
    have hstep : step s (.finish i) = some (s.write i .changed { m with opened := true }
        [.changeResolution width height .opens]) := by
      simp only [step, CodecAction.thread, hat, m]
    exact goesOn_of_step hstep rfl (Nat.lt_of_sub_pos (Nat.succ_pos 1)) rfl

/-- A busy thread goes on. -/
theorem goesOn_of_busy (hat : s.threads[i]? = some p) (hbusy : p.isBusy = true) : s.GoesOn i p := by
  cases p with
  | outside | locking | acquiring | trying | lockingShared => cases hbusy
  | calling op =>
    have hstep : step s (.use i 0) = some
        (s.write i (.unlocking .context) s.manager [.use op s.manager.ctx 0]) := by
      simp only [step, CodecAction.thread, hat]
    exact goesOn_of_step hstep rfl (Nat.lt_of_sub_pos Nat.one_pos) rfl
  | backingOff x width height =>
    have hstep : step s (.backOff i) = some
        ((s.setOwner x none).move i (.acquiring width height)) := by
      simp only [step, CodecAction.thread, hat]
    exact goesOn_of_step hstep (threads_setOwner_move _ _ _ _ _) (Nat.lt_succ_self 14) rfl
  | unlocking x =>
    have hstep : step s (.unlock i) = some ((s.setOwner x none).move i .outside) := by
      simp only [step, CodecAction.thread, hat]
    exact goesOn_of_step hstep (threads_setOwner_move _ _ _ _ _) Nat.one_pos rfl
  | changed =>
    have hstep : step s (.unlockFirst i .info) = some
        ((s.setOwner .info none).move i (.unlocking .context)) := by
      simp only [step, CodecAction.thread, hat, CodecMutex.other]
    exact goesOn_of_step hstep (threads_setOwner_move _ _ _ _ _) (Nat.lt_succ_self 1) rfl
  | providing =>
    have hstep : step s (.unlockShared i) = some
        { s.move i .outside with shared := s.shared.erase i } := by
      simp only [step, CodecAction.thread, hat]
    exact goesOn_of_step hstep rfl Nat.one_pos rfl
  | changing width height stage => exact goesOn_of_changing hat

/-- A thread that tries the other mutex gets it when it is free. -/
theorem step_trySucceeds {width height : UInt32}
    (hat : s.threads[i]? = some (.trying x width height)) (hfree : s.isFree x.other = true) :
    step s (.trySucceeds i) = some
      ((s.setOwner x.other (some i)).move i (.changing width height .writingWidth)) := by
  simp only [step, CodecAction.thread, hat, hfree, if_true]

/-- With all mutexes free every thread goes on. -/
theorem goesOn_of_free (hat : s.threads[i]? = some p) (hout : p ≠ .outside)
    (hbusy : p.isBusy = false) (htrying : ∀ x, p.isTrying x = false)
    (hfree : ∀ x, s.isFree x = true) : s.GoesOn i p := by
  cases p with
  | outside => exact absurd rfl hout
  | calling | backingOff | changing | changed | unlocking | providing => cases hbusy
  | trying x =>
    have := htrying x
    simp [CodecPoint.isTrying] at this
  | locking op =>
    have hstep : step s (.lock i) = some
        ((s.setOwner .context (some i)).move i (.calling op)) := by
      simp only [step, CodecAction.thread, hat, hfree, if_true]
    exact goesOn_of_step hstep (threads_setOwner_move _ _ _ _ _) (Nat.lt_succ_self 2) rfl
  | acquiring width height =>
    have hstep : step s (.lockFirst i .info) = some
        ((s.setOwner .info (some i)).move i (.trying .info width height)) := by
      simp only [step, CodecAction.thread, hat, hfree, if_true]
    exact goesOn_of_step hstep (threads_setOwner_move _ _ _ _ _) (Nat.lt_succ_self 13) rfl
  | lockingShared =>
    have hexclusive : s.exclusive = none := owner_of_isFree (hfree .info)
    have hstep : step s (.lockShared i) = some
        { s.move i .providing with shared := i :: s.shared } := by
      simp only [step, CodecAction.thread, hat, hexclusive, if_true]
    exact goesOn_of_step hstep rfl (Nat.lt_succ_self 1) rfl

/-- Two threads that have one mutex each and try the other one: when one of them backs off, the
other one goes on. -/
theorem exists_run_of_trying {width height width' height' : UInt32}
    (hi : s.threads[i]? = some (.trying x width height))
    (hj : s.threads[j]? = some (.trying x.other width' height')) (hne : j ≠ i)
    (hshared : s.shared = []) :
    ∃ as s', (∀ a ∈ as, CodecAction.isOwn a = true) ∧ step.run s as = some s' ∧
      s'.work < s.work := by
  let s₁ := s.move i (.backingOff x width height)
  let s₂ := (s₁.setOwner x none).move i (.acquiring width height)
  have hlt := (List.getElem?_eq_some_iff.mp hi).1
  have hi₁ : s₁.threads[i]? = some (.backingOff x width height) := List.getElem?_set_self hlt
  have hthreads₁ : s₁.threads = s.threads.set i (.backingOff x width height) := rfl
  have hthreads₂ : s₂.threads = s₁.threads.set i (.acquiring width height) :=
    threads_setOwner_move _ _ _ _ _
  have hj₂ : s₂.threads[j]? = some (.trying x.other width' height') := by
    rw [hthreads₂, List.getElem?_set_ne hne.symm]
    exact (List.getElem?_set_ne hne.symm).trans hj
  have hstep₁ : step s (.tryFails i) = some s₁ := by
    simp only [step, CodecAction.thread, hi, s₁]
  have hstep₂ : step s₁ (.backOff i) = some s₂ := by
    simp only [step, CodecAction.thread, hi₁, s₂]
  have hfree : s₂.isFree x.other.other = true := by
    cases x with
    | info => simp [s₂, s₁, CodecMutex.other, isFree, setOwner, move, hshared]
    | context => simp [s₂, s₁, CodecMutex.other, isFree, setOwner, move]
  let s₃ := (s₂.setOwner x.other.other (some j)).move j (.changing width' height' .writingWidth)
  have hstep₃ : step s₂ (.trySucceeds j) = some s₃ := step_trySucceeds hj₂ hfree
  have hthreads₃ : s₃.threads = s₂.threads.set j (.changing width' height' .writingWidth) :=
    threads_setOwner_move _ _ _ _ _
  refine ⟨[.tryFails i, .backOff i, .trySucceeds j], s₃, ?_, ?_, ?_⟩
  · simp [CodecAction.isOwn]
  · rw [Machine.run_cons, hstep₁, Option.bind_some, Machine.run_cons, hstep₂, Option.bind_some,
      Machine.run_cons, hstep₃]
    rfl
  · have hwork₁ := work_set hi hthreads₁
    have hwork₂ := work_set hi₁ hthreads₂
    have hwork₃ := work_set hj₂ hthreads₃
    simp only [CodecPoint.work] at hwork₁ hwork₂ hwork₃
    omega

/-- A thread that can go on takes work away. -/
theorem GoesOn.exists_run (h : s.GoesOn i p) (hat : s.threads[i]? = some p) :
    ∃ as s', (∀ a ∈ as, CodecAction.isOwn a = true) ∧ step.run s as = some s' ∧
      s'.work < s.work := by
  obtain ⟨a, s', p', hown, hstep, hthreads, hlt⟩ := h
  refine ⟨[a], s', by simpa using hown, ?_, ?_⟩
  · rw [Machine.run_cons, hstep]
    rfl
  · have hwork := work_set hat hthreads
    omega

/-- As long as a call is in progress, the calls go on: a busy thread does, or one of those that have
one mutex gets the other one, or all mutexes are free. -/
theorem exists_progress (howned : s.AllOwned) (hprovided : s.Provided)
    (hat : s.threads[i]? = some p) (hout : p ≠ .outside) :
    ∃ as s', (∀ a ∈ as, CodecAction.isOwn a = true) ∧ step.run s as = some s' ∧
      s'.work < s.work := by
  by_cases hbusy : ∃ (j : ℕ) (q : CodecPoint), s.threads[j]? = some q ∧ q.isBusy = true
  · obtain ⟨j, q, hq, hbusy⟩ := hbusy
    exact (goesOn_of_busy hq hbusy).exists_run hq
  · have hidle : ∀ (j : ℕ) (q : CodecPoint), s.threads[j]? = some q → q.isBusy = false := by
      intro j q hq
      exact Bool.eq_false_iff.mpr fun h => hbusy ⟨j, q, hq, h⟩
    have hshared : s.shared = [] := by
      by_contra hshared
      obtain ⟨j, q, hq, hproviding⟩ := hprovided.shared.exists_held hshared
      have hq' := hidle j q hq
      cases q with
      | providing => cases hq'
      | _ => cases hproviding
    -- who has a mutex is about to try the other one
    have htries : ∀ x, s.owner x ≠ none → ∃ (j : ℕ) (width height : UInt32),
        s.threads[j]? = some (.trying x width height) := by
      intro x howner
      obtain ⟨j, q, hq, hhas⟩ := (howned x).exists_held howner
      have hq' := hidle j q hq
      cases q with
      | trying y width height =>
        obtain rfl : x = y := of_decide_eq_true hhas
        exact ⟨j, width, height, hq⟩
      | calling | backingOff | changing | changed | unlocking | providing => cases hq'
      | outside | locking | acquiring | lockingShared => cases hhas
    have hfree : ∀ x, s.owner x = none → s.isFree x = true := by
      intro x howner
      cases x with
      | info =>
        have hexclusive : s.exclusive = none := howner
        simp [isFree, hexclusive, hshared]
      | context => exact decide_eq_true howner
    by_cases htrying : ∃ x, s.owner x ≠ none
    · obtain ⟨x, howner⟩ := htrying
      obtain ⟨j, width, height, hj⟩ := htries x howner
      by_cases hother : s.owner x.other = none
      · refine (goesOn_of_step (step_trySucceeds hj (hfree _ hother))
          (threads_setOwner_move _ _ _ _ _) ?_ rfl).exists_run hj
        exact Nat.lt_of_sub_pos (Nat.succ_pos 2)
      · obtain ⟨k, width', height', hk⟩ := htries x.other hother
        refine exists_run_of_trying hj hk ?_ hshared
        rintro rfl
        have heq := Option.some.inj (hj.symm.trans hk)
        cases x <;> cases heq
    · have hnone : ∀ x, s.owner x = none := by
        intro x
        by_contra howner
        exact htrying ⟨x, howner⟩
      refine (goesOn_of_free hat hout (hidle i p hat) ?_ fun x => hfree x (hnone x)).exists_run hat
      intro x
      by_contra htry
      cases p with
      | trying y =>
        have howner := ((howned y).held_iff i _ hat).mp (by simp [CodecPoint.has])
        rw [hnone y] at howner
        cases howner
      | _ => exact htry rfl

end Completion


/-! ### Runs -/

section Runs

variable {info : CodecInitInfo} {m₀ m : AVCodecContextManager} {s s' : CodecLocks} {i n : ℕ}
  {as : List CodecAction} {log : List CodecCall}

/-- The mutexes have their owners, and the calls are calls made one after the other. -/
structure Inv (m₀ : AVCodecContextManager) (s : CodecLocks) : Prop where
  owned : s.AllOwned
  provided : s.Provided
  refines : Refines m₀ s

/-- Every step keeps the invariant. -/
theorem Inv.step (h : Inv m₀ s) (ht : Trans s i s') : Inv m₀ s' :=
  ⟨h.owned.step ht, h.provided.step ht, h.refines.step h.owned ht⟩

/-- The invariant holds in every state reached. -/
theorem inv_run (hrun : step.run (init m₀ n) as = some s) : Inv m₀ s := by
  have hout : ∀ p ∈ (init m₀ n).threads, p = .outside := by
    intro p hp
    exact (List.mem_replicate.mp hp).2
  refine Machine.run_invariant (I := Inv m₀) ⟨?_, ⟨?_, ?_⟩, m₀, .nil, ?_, fun _ => rfl⟩ ?_ hrun
  · intro x
    have hfree : (init m₀ n).owner x = none := by cases x <;> rfl
    rw [hfree]
    apply Owned.init
    intro p hp
    rw [hout p hp]
    rfl
  · apply Shared.init
    intro p hp
    rw [hout p hp]
    rfl
  · intro hexclusive
    exact absurd rfl hexclusive
  · intro i p hp hchanging
    rw [hout p (List.mem_of_getElem? hp)] at hchanging
    cases hchanging
  · intro s a s' h hstep
    exact h.step (trans_of_step hstep)

/-- The log only grows. -/
theorem Trans.log_prefix (h : Trans s i s') : s.log <+: s'.log := by
  cases h with
  | goes | lockShared | unlockShared => exact List.prefix_rfl
  | takes | releases => exact ⟨[], by rw [log_setOwner_move, List.append_nil]⟩
  | writes => exact List.prefix_append _ _

/-- What is known of the codec in every state. -/
structure Atomic (m₀ : AVCodecContextManager) (s : CodecLocks) : Prop where
  /-- One thread at most calls libavcodec or changes the context. -/
  alone : ∀ (i j : ℕ) (p q : CodecPoint), s.threads[i]? = some p → s.threads[j]? = some q →
    p.usesContext = true → q.usesContext = true → i = j
  /-- Nobody changes the configuration while there is a provider. -/
  provided : ∀ (i j : ℕ) (p : CodecPoint), s.threads[i]? = some .providing →
    s.threads[j]? = some p → p.isChanging = false
  /-- libavcodec is called on what calls made one after the other have left. -/
  calls : ∀ (i : ℕ) (op : CodecOp), s.threads[i]? = some (.calling op) →
    Sequential m₀ s.log s.manager
  /-- While nobody is changing it, the manager is what such calls have left. -/
  settled : (∀ (i : ℕ) (p : CodecPoint), s.threads[i]? = some p → p.isChanging = false) →
    Sequential m₀ s.log s.manager
  /-- All calls in progress can return. -/
  returns : ∃ as s', step.run s as = some s' ∧ (∀ a ∈ as, CodecAction.isOwn a = true) ∧
    (∀ p ∈ s'.threads, p = .outside) ∧ s.log <+: s'.log ∧ Sequential m₀ s'.log s'.manager

/-- While nobody is changing the manager it is what the calls have left. -/
theorem Refines.sequential (h : Refines m₀ s)
    (hnone : ∀ (i : ℕ) (p : CodecPoint), s.threads[i]? = some p → p.isChanging = false) :
    Sequential m₀ s.log s.manager := by
  obtain ⟨m, hlog, hreached⟩ := h
  rw [hreached.2 hnone]
  exact hlog

/-- All calls in progress can return. -/
theorem exists_return (h : Inv m₀ s) :
    ∃ as s', step.run s as = some s' ∧ (∀ a ∈ as, CodecAction.isOwn a = true) ∧
      (∀ p ∈ s'.threads, p = .outside) ∧ s.log <+: s'.log ∧ Sequential m₀ s'.log s'.manager := by
  let I : CodecLocks → Prop := fun s' => Inv m₀ s' ∧ s.log <+: s'.log
  have hruns : ∀ s₁, I s₁ → ¬(∀ p ∈ s₁.threads, p = .outside) →
      ∃ as s₂, (∀ a ∈ as, CodecAction.isOwn a = true) ∧ step.run s₁ as = some s₂ ∧ I s₂ ∧
        s₂.work < s₁.work := by
    rintro s₁ hI hgoal
    push Not at hgoal
    obtain ⟨p, hmem, hout⟩ := hgoal
    obtain ⟨i, hat⟩ := List.mem_iff_getElem?.mp hmem
    obtain ⟨as, s₂, hown, hrun, hlt⟩ := exists_progress hI.1.owned hI.1.provided hat hout
    refine ⟨as, s₂, hown, hrun, ?_, hlt⟩
    refine Machine.run_invariant (I := I) hI ?_ hrun
    intro s a s' hI hstep
    have ht := trans_of_step hstep
    exact ⟨hI.1.step ht, hI.2.trans ht.log_prefix⟩
  obtain ⟨as, s', hrun, hown, ⟨hinv, hprefix⟩, hout⟩ :=
    Machine.exists_run_of_runs hruns ⟨h, List.prefix_rfl⟩
  refine ⟨as, s', hrun, hown, hout, hprefix, hinv.refines.sequential ?_⟩
  intro i p hp
  rw [hout p (List.mem_of_getElem? hp)]
  rfl

/-- The size is the initial one or that of a change. -/
def SizeOf (m₀ : AVCodecContextManager) (log : List CodecCall) (info : CodecInitInfo) : Prop :=
  (info.width, info.height) = (m₀.info.width, m₀.info.height) ∨
    ∃ outcome, .changeResolution info.width info.height outcome ∈ log

/-- A size stays known. -/
theorem SizeOf.append {info : CodecInitInfo} (h : SizeOf m₀ log info) (calls : List CodecCall) :
    SizeOf m₀ (log ++ calls) info := by
  rcases h with hinit | ⟨outcome, hmem⟩
  · exact Or.inl hinit
  · exact Or.inr ⟨outcome, List.mem_append_left _ hmem⟩

/-- If every change opens its encoder, an encoder is open, and libavcodec is never called without
one: each call gets an open context of a size that has been set. -/
theorem Sequential.uses_open (h : Sequential m₀ log m)
    (hopen : m₀.ctx = some (m₀.info.context true))
    (hall : ∀ width height outcome, .changeResolution width height outcome ∈ log →
      outcome = .opens) :
    (m.ctx = some (m.info.context true) ∧ SizeOf m₀ log m.info) ∧
      ∀ op ctx ret, .use op ctx ret ∈ log →
        ∃ info : CodecInitInfo, ctx = some (info.context true) ∧ SizeOf m₀ log info := by
  induction h with
  | nil => exact ⟨⟨hopen, Or.inl rfl⟩, by simp⟩
  | @use log m op ret h ih =>
    obtain ⟨⟨hctx, hsize⟩, huses⟩ := ih fun width height outcome hmem =>
      hall width height outcome (List.mem_append_left _ hmem)
    refine ⟨⟨hctx, hsize.append _⟩, ?_⟩
    intro op' ctx ret' hmem
    rcases List.mem_append.mp hmem with hold | hnew
    · obtain ⟨info, hinfo, hof⟩ := huses op' ctx ret' hold
      exact ⟨info, hinfo, hof.append _⟩
    · cases List.mem_singleton.mp hnew
      exact ⟨m.info, hctx, hsize.append _⟩
  | @changeResolution log m width height outcome h ih =>
    obtain ⟨-, huses⟩ := ih fun width height outcome hmem =>
      hall width height outcome (List.mem_append_left _ hmem)
    obtain rfl : outcome = .opens :=
      hall width height outcome (List.mem_append_right _ (List.mem_singleton_self _))
    refine ⟨⟨rfl, Or.inr ⟨.opens, ?_⟩⟩, ?_⟩
    · exact List.mem_append_right _ (List.mem_singleton_self _)
    · intro op ctx ret hmem
      rcases List.mem_append.mp hmem with hold | hnew
      · obtain ⟨info, hinfo, hof⟩ := huses op ctx ret hold
        exact ⟨info, hinfo, hof.append _⟩
      · cases List.mem_singleton.mp hnew

/-- For any number of threads and every interleaving of their steps, with any outcome of every call
of libavcodec and of every attempt to lock a mutex: one thread at a time calls libavcodec or changes
the context, what happens to the manager is what calls made one after the other do to it, and all
calls can return.  If every change of the resolution opens its encoder, then libavcodec always gets
an open context, of the initial size or of one that has been set. -/
theorem codec_atomic
    (hrun : step.run (init (AVCodecContextManager.new info .opens).1 n) as = some s) :
    Atomic (AVCodecContextManager.new info .opens).1 s ∧
      ((∀ width height outcome, .changeResolution width height outcome ∈ s.log →
          outcome = .opens) →
        ∀ op ctx ret, .use op ctx ret ∈ s.log → ∃ info' : CodecInitInfo,
          ctx = some (info'.context true) ∧
            SizeOf (AVCodecContextManager.new info .opens).1 s.log info') := by
  have hinv := inv_run hrun
  refine ⟨⟨?_, ?_, ?_, ?_, exists_return hinv⟩, ?_⟩
  · intro i j p q hp hq hi hj
    have hhas : ∀ r : CodecPoint, r.usesContext = true → r.has .context = true := by
      intro r hr
      cases r with
      | calling | changing => rfl
      | _ => cases hr
    exact (hinv.owned .context).unique hp hq (hhas p hi) (hhas q hj)
  · intro i j p hi hj
    have hmem := (hinv.provided.shared.held_iff i _ hi).mp rfl
    rw [Bool.eq_false_iff]
    intro hchanging
    have hhas : p.has .info = true := by
      cases p with
      | changing => rfl
      | _ => cases hchanging
    have howner : s.exclusive = some j := ((hinv.owned .info).held_iff j p hj).mp hhas
    rw [hinv.provided.excludes (by rw [howner]; simp)] at hmem
    cases hmem
  · intro i op hat
    apply hinv.refines.sequential
    intro j q hq
    by_cases hj : j = i
    · subst hj
      obtain rfl := Option.some.inj (hat.symm.trans hq)
      rfl
    · exact hinv.owned.alone (x := .context) hat rfl j q hj hq
  · exact hinv.refines.sequential
  · intro hall
    obtain ⟨m, hlog, -⟩ := hinv.refines
    exact (hlog.uses_open rfl hall).2

/-- Two threads change the resolution at once: each gets one mutex, tries the other one in vain, and
one of them backs off; a third one sends a frame afterwards. -/
def crossing : List CodecAction :=
  [.call 0 (.changeResolution 640 480), .call 1 (.changeResolution 800 600), .lockFirst 0 .info,
    .lockFirst 1 .context, .tryFails 0, .backOff 0, .trySucceeds 1, .writeWidth 1, .writeHeight 1,
    .free 1, .find 1 true, .allocate 1 true, .openCodec 1 none, .finish 1, .unlockFirst 1 .info,
    .lockFirst 0 .info, .unlock 1, .call 2 (.use .sendFrame), .lock 2]

/-- The frame goes to an encoder of the size that has been set, while the other thread waits with
one mutex. -/
theorem codec_atomic_crossing :
    ∃ s, step.run (init (AVCodecContextManager.new defaultInitInfo .opens).1 3) crossing = some s ∧
      s.threads[2]? = some (.calling .sendFrame) ∧
      (s.manager.info.width, s.manager.info.height) = (800, 600) ∧
      Sequential (AVCodecContextManager.new defaultInitInfo .opens).1 s.log s.manager := by
  have hatomic := (@codec_atomic defaultInitInfo _ 3 crossing rfl).1
  exact ⟨_, rfl, rfl, rfl, hatomic.calls 2 .sendFrame rfl⟩

end Runs

end CodecLocks

end Ngp
