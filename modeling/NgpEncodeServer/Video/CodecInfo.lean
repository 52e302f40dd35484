import NgpEncodeServer.Foundation.Machine

/-!
# `get_codec_info` and `change_resolution` under `m_codec_info_mutex`

The server takes a call of `get_codec_info` and one of `change_resolution` as one step each.  Here
they are taken apart: `change_resolution` writes `m_info.width` and `m_info.height` under an
exclusive lock, and a `CodecInfoProvider` copies the two fields and holds a shared lock.

`m_info` of the provider is declared before `m_lock`, so that the copy is made before the lock is
taken.  A write that comes between the copy of a field and the lock makes the copy stale, or torn.
Without such a write (`Undisturbed`) the provider exposes a pair that has been set, and it is the
current one as long as the lock is held (`exposed_run`).
-/

namespace Ngp

/-- Where a thread is in `get_codec_info` or `change_resolution`. -/
inductive InfoPoint where
  /-- In neither. -/
  | outside
  /-- In the constructor of `CodecInfoProvider`, before `width` is copied. -/
  | copying
  /-- Before `height` is copied. -/
  | copyingHeight (width : UInt32)
  /-- Before the shared lock is acquired. -/
  | copied (width height : UInt32)
  /-- With a provider that is constructed. -/
  | providing (width height : UInt32)
  /-- In `change_resolution`, before the exclusive lock is acquired. -/
  | changing (width height : UInt32)
  /-- Before `m_info.width = width`. -/
  | locked (width height : UInt32)
  /-- Before `m_info.height = height`. -/
  | writingHeight (width height : UInt32)
  /-- In `codec_ctx_init` or after it, before the exclusive lock is released. -/
  | written
  deriving DecidableEq, Repr

/-- The thread has copied `width` and not locked the mutex yet. -/
def InfoPoint.hasWidth : InfoPoint → Bool
  | .copyingHeight _ | .copied _ _ => true
  | _ => false

/-- The thread has locked the mutex. -/
def InfoPoint.hasLock : InfoPoint → Bool
  | .providing _ _ | .locked _ _ | .writingHeight _ _ | .written => true
  | _ => false

/-- The thread has copied `height` and not locked the mutex yet. -/
def InfoPoint.hasHeight : InfoPoint → Bool
  | .copied _ _ => true
  | _ => false

/-- The configuration that is shared, its mutex and the threads. -/
structure CodecInfo where
  /-- `m_info.width`. -/
  width : UInt32
  /-- `m_info.height`. -/
  height : UInt32
  /-- The thread that has locked `m_codec_info_mutex` exclusively. -/
  exclusive : Option ℕ
  /-- The threads that have locked it shared. -/
  shared : List ℕ
  threads : List InfoPoint
  /-- The pair of the initial configuration and those of the calls of `change_resolution`, a history
  variable. -/
  pairs : List (UInt32 × UInt32)
  deriving DecidableEq, Repr

/-- A step of the thread `i`. -/
inductive InfoAction where
  | getCodecInfo (i : ℕ)
  | copyWidth (i : ℕ)
  | copyHeight (i : ℕ)
  | lockShared (i : ℕ)
  /-- The provider is destroyed. -/
  | unlockShared (i : ℕ)
  | changeResolution (i : ℕ) (width height : UInt32)
  | lock (i : ℕ)
  | writeWidth (i : ℕ)
  | writeHeight (i : ℕ)
  | unlock (i : ℕ)
  deriving DecidableEq, Repr

/-- The thread that moves. -/
def InfoAction.thread : InfoAction → ℕ
  | .getCodecInfo i | .copyWidth i | .copyHeight i | .lockShared i | .unlockShared i
  | .changeResolution i _ _ | .lock i | .writeWidth i | .writeHeight i | .unlock i => i

namespace CodecInfo

/-- `n` threads that are in neither function. -/
def init (width height : UInt32) (n : ℕ) : CodecInfo where
  width := width
  height := height
  exclusive := none
  shared := []
  threads := List.replicate n .outside
  pairs := [(width, height)]

/-- The thread `i` goes on. -/
def move (s : CodecInfo) (i : ℕ) (p : InfoPoint) : CodecInfo :=
  { s with threads := s.threads.set i p }

/-- One step. -/
def step : Machine CodecInfo InfoAction := fun s a =>
  match a, s.threads[a.thread]? with
  | .getCodecInfo i, some .outside => some (s.move i .copying)
  | .copyWidth i, some .copying => some (s.move i (.copyingHeight s.width))
  | .copyHeight i, some (.copyingHeight width) => some (s.move i (.copied width s.height))
  | .lockShared i, some (.copied width height) =>
    if s.exclusive = none then
      some { s.move i (.providing width height) with shared := i :: s.shared }
    else none
  | .unlockShared i, some (.providing _ _) =>
    some { s.move i .outside with shared := s.shared.erase i }
  | .changeResolution i width height, some .outside =>
    some { s.move i (.changing width height) with pairs := s.pairs ++ [(width, height)] }
  | .lock i, some (.changing width height) =>
    if s.exclusive = none ∧ s.shared = [] then
      some { s.move i (.locked width height) with exclusive := some i }
    else none
  | .writeWidth i, some (.locked width height) =>
    some { s.move i (.writingHeight width height) with width := width }
  | .writeHeight i, some (.writingHeight _ height) =>
    some { s.move i .written with height := height }
  | .unlock i, some .written => some { s.move i .outside with exclusive := none }
  | _, _ => none

/-- The steps. -/
inductive Trans (s : CodecInfo) : InfoAction → CodecInfo → Prop
  | getCodecInfo {i : ℕ} (hat : s.threads[i]? = some .outside) :
      Trans s (.getCodecInfo i) (s.move i .copying)
  | copyWidth {i : ℕ} (hat : s.threads[i]? = some .copying) :
      Trans s (.copyWidth i) (s.move i (.copyingHeight s.width))
  | copyHeight {i : ℕ} {width : UInt32} (hat : s.threads[i]? = some (.copyingHeight width)) :
      Trans s (.copyHeight i) (s.move i (.copied width s.height))
  | lockShared {i : ℕ} {width height : UInt32}
      (hat : s.threads[i]? = some (.copied width height)) (hfree : s.exclusive = none) :
      Trans s (.lockShared i) { s.move i (.providing width height) with shared := i :: s.shared }
  | unlockShared {i : ℕ} {width height : UInt32}
      (hat : s.threads[i]? = some (.providing width height)) :
      Trans s (.unlockShared i) { s.move i .outside with shared := s.shared.erase i }
  | changeResolution {i : ℕ} {width height : UInt32} (hat : s.threads[i]? = some .outside) :
      Trans s (.changeResolution i width height)
        { s.move i (.changing width height) with pairs := s.pairs ++ [(width, height)] }
  | lock {i : ℕ} {width height : UInt32} (hat : s.threads[i]? = some (.changing width height))
      (hfree : s.exclusive = none) (hshared : s.shared = []) :
      Trans s (.lock i) { s.move i (.locked width height) with exclusive := some i }
  | writeWidth {i : ℕ} {width height : UInt32}
      (hat : s.threads[i]? = some (.locked width height)) :
      Trans s (.writeWidth i) { s.move i (.writingHeight width height) with width := width }
  | writeHeight {i : ℕ} {width height : UInt32}
      (hat : s.threads[i]? = some (.writingHeight width height)) :
      Trans s (.writeHeight i) { s.move i .written with height := height }
  | unlock {i : ℕ} (hat : s.threads[i]? = some .written) :
      Trans s (.unlock i) { s.move i .outside with exclusive := none }

variable {s s' : CodecInfo} {a : InfoAction} {i : ℕ}

/-- Every step is one of the listed steps. -/
theorem trans_of_step (h : step s a = some s') : Trans s a s' := by
  unfold step at h
  split at h
  · exact Option.some.inj h ▸ .getCodecInfo ‹_›
  · exact Option.some.inj h ▸ .copyWidth ‹_›
  · exact Option.some.inj h ▸ .copyHeight ‹_›
  · rename_i hat
    split at h
    · exact Option.some.inj h ▸ .lockShared hat ‹_›
    · cases h
  · exact Option.some.inj h ▸ .unlockShared ‹_›
  · exact Option.some.inj h ▸ .changeResolution ‹_›
  · rename_i hat
    split at h
    · rename_i hfree
      exact Option.some.inj h ▸ .lock hat hfree.1 hfree.2
    · cases h
  · exact Option.some.inj h ▸ .writeWidth ‹_›
  · exact Option.some.inj h ▸ .writeHeight ‹_›
  · exact Option.some.inj h ▸ .unlock ‹_›
  · cases h

/-! ### Undisturbed copies -/

/-- No field is written between its copy and the lock that is to protect it. -/
def Undisturbed (s : CodecInfo) : InfoAction → Prop
  | .writeWidth _ => ∀ p ∈ s.threads, p.hasWidth = false
  | .writeHeight _ => ∀ p ∈ s.threads, p.hasHeight = false
  | _ => True

instance (s : CodecInfo) (a : InfoAction) : Decidable (s.Undisturbed a) :=
  match a with
  | .writeWidth _ => inferInstanceAs (Decidable (∀ p ∈ s.threads, p.hasWidth = false))
  | .writeHeight _ => inferInstanceAs (Decidable (∀ p ∈ s.threads, p.hasHeight = false))
  | .getCodecInfo _ | .copyWidth _ | .copyHeight _ | .lockShared _ | .unlockShared _
  | .changeResolution _ _ _ | .lock _ | .unlock _ => instDecidableTrue

/-- The current pair. -/
def current (s : CodecInfo) : UInt32 × UInt32 := (s.width, s.height)

/-- What the thread `i` can rely on at its point. -/
def Knows (s : CodecInfo) (i : ℕ) : InfoPoint → Prop
  | .outside | .copying => True
  | .copyingHeight width => width = s.width
  | .copied width height => (width, height) = s.current
  | .providing width height => i ∈ s.shared ∧ (width, height) = s.current ∧ s.current ∈ s.pairs
  | .changing width height => (width, height) ∈ s.pairs
  | .locked width height =>
    s.exclusive = some i ∧ (width, height) ∈ s.pairs ∧ s.current ∈ s.pairs
  | .writingHeight width height =>
    s.exclusive = some i ∧ (width, height) ∈ s.pairs ∧ width = s.width
  | .written => s.exclusive = some i ∧ s.current ∈ s.pairs

/-- What holds in every state of an undisturbed run. -/
structure Inv (s : CodecInfo) : Prop where
  knows : ∀ (i : ℕ) (p : InfoPoint), s.threads[i]? = some p → s.Knows i p
  excludes : ∀ i, s.exclusive = some i → s.shared = []
  settled : s.exclusive = none → s.current ∈ s.pairs

/-- A step of one thread: what the others rely on stays true. -/
theorem Inv.of_set (h : s.Inv) {p p' : InfoPoint} (hi : s.threads[i]? = some p)
    (hthreads : s'.threads = s.threads.set i p') (hself : s'.Knows i p')
    (hother : ∀ j q, j ≠ i → s.Knows j q → s.threads[j]? = some q → s'.Knows j q)
    (hexcludes : ∀ j, s'.exclusive = some j → s'.shared = [])
    (hsettled : s'.exclusive = none → s'.current ∈ s'.pairs) : s'.Inv := by
  refine ⟨fun j q hq => ?_, hexcludes, hsettled⟩
  rw [hthreads] at hq
  by_cases hj : j = i
  · subst hj
    rw [List.getElem?_set_self (List.getElem?_eq_some_iff.mp hi).1] at hq
    cases hq
    exact hself
  · rw [List.getElem?_set_ne (Ne.symm hj)] at hq
    exact hother j q hj (h.knows j q hq) hq

/-- While a thread has locked the mutex exclusively, no other one has locked it. -/
theorem Knows.not_locked {j : ℕ} {q : InfoPoint} (hq : s.Knows j q) (hj : j ≠ i)
    (hexclusive : s.exclusive = some i) (hshared : s.shared = []) : q.hasLock = false := by
  have hne : s.exclusive ≠ some j := by
    rw [hexclusive]
    exact fun heq => hj (Option.some.inj heq).symm
  cases q with
  | providing =>
    have hmem := hq.1
    rw [hshared] at hmem
    cases hmem
  | locked | writingHeight | written => exact absurd hq.1 hne
  | _ => rfl

/-- Every undisturbed step keeps the invariant. -/
theorem Inv.step (h : s.Inv) (ht : Trans s a s') (hundisturbed : s.Undisturbed a) : s'.Inv := by
  cases ht with
  | getCodecInfo hat =>
    exact h.of_set hat rfl trivial (fun _ _ _ hq _ => hq) h.excludes h.settled
  | copyWidth hat =>
    exact h.of_set hat rfl rfl (fun _ _ _ hq _ => hq) h.excludes h.settled
  | @copyHeight i width hat =>
    have hwidth : width = s.width := h.knows i _ hat
    refine h.of_set hat rfl ?_ (fun _ _ _ hq _ => hq) h.excludes h.settled
    exact Prod.ext hwidth rfl
  | @lockShared i width height hat hfree =>
    have hcopied : (width, height) = s.current := h.knows i _ hat
    refine h.of_set hat rfl ⟨List.mem_cons_self, hcopied, h.settled hfree⟩ ?_ ?_ h.settled
    · intro j q _ hq _
      cases q with
      | providing => exact ⟨List.mem_cons_of_mem _ hq.1, hq.2⟩
      | _ => exact hq
    · intro j hj
      cases hfree.symm.trans hj
  | @unlockShared i width height hat =>
    refine h.of_set hat rfl trivial ?_ ?_ h.settled
    · intro j q hj hq _
      cases q with
      | providing => exact ⟨(List.mem_erase_of_ne hj).mpr hq.1, hq.2⟩
      | _ => exact hq
    · intro j hj
      change s.shared.erase i = []
      rw [h.excludes j hj]
      rfl
  | @changeResolution i width height hat =>
    refine h.of_set hat rfl (List.mem_append_right _ (List.mem_singleton_self _)) ?_ h.excludes
      (fun hfree => List.mem_append_left _ (h.settled hfree))
    intro j q _ hq _
    cases q with
    | providing => exact ⟨hq.1, hq.2.1, List.mem_append_left _ hq.2.2⟩
    | changing => exact List.mem_append_left _ hq
    | locked => exact ⟨hq.1, List.mem_append_left _ hq.2.1, List.mem_append_left _ hq.2.2⟩
    | writingHeight => exact ⟨hq.1, List.mem_append_left _ hq.2.1, hq.2.2⟩
    | written => exact ⟨hq.1, List.mem_append_left _ hq.2⟩
    | _ => exact hq
  | @lock i width height hat hfree hshared =>
    refine h.of_set hat rfl ⟨rfl, h.knows i _ hat, h.settled hfree⟩ ?_ (fun _ _ => hshared)
      (by rintro ⟨⟩)
    intro j q _ hq _
    cases q with
    | locked | writingHeight | written => cases hfree.symm.trans hq.1
    | _ => exact hq
  | @writeWidth i width height hat =>
    obtain ⟨hexclusive, hpair, -⟩ := h.knows i _ hat
    have hshared := h.excludes i hexclusive
    refine h.of_set hat rfl ⟨hexclusive, hpair, rfl⟩ ?_ h.excludes ?_
    · intro j q hj hq hqj
      have hcopy : q.hasWidth = false := hundisturbed q (List.mem_of_getElem? hqj)
      have hlock := hq.not_locked hj hexclusive hshared
      cases q with
      | copyingHeight | copied => cases hcopy
      | providing | locked | writingHeight | written => cases hlock
      | outside | copying | changing => exact hq
    · intro hfree
      cases hexclusive.symm.trans hfree
  | @writeHeight i width height hat =>
    obtain ⟨hexclusive, hpair, rfl⟩ := h.knows i _ hat
    have hshared := h.excludes i hexclusive
    refine h.of_set hat rfl ⟨hexclusive, hpair⟩ ?_ h.excludes (fun _ => hpair)
    intro j q hj hq hqj
    have hcopy : q.hasHeight = false := hundisturbed q (List.mem_of_getElem? hqj)
    have hlock := hq.not_locked hj hexclusive hshared
    cases q with
    | copied => cases hcopy
    | providing | locked | writingHeight | written => cases hlock
    | outside | copying | copyingHeight | changing => exact hq
  | @unlock i hat =>
    obtain ⟨hexclusive, hcurrent⟩ := h.knows i _ hat
    have hshared := h.excludes i hexclusive
    refine h.of_set hat rfl trivial ?_ (by rintro j ⟨⟩) (fun _ => hcurrent)
    intro j q hj hq _
    have hlock := hq.not_locked hj hexclusive hshared
    cases q with
    | providing | locked | writingHeight | written => cases hlock
    | outside | copying | copyingHeight | copied | changing => exact hq

/-- The provider of the thread `i` exposes the pair. -/
def Exposes (s : CodecInfo) (i : ℕ) (pair : UInt32 × UInt32) : Prop :=
  s.threads[i]? = some (.providing pair.1 pair.2)

variable {width height : UInt32} {n : ℕ} {as : List InfoAction}

/-- The invariant in every state of an undisturbed run. -/
theorem inv_run (hrun : (step.guarded Undisturbed).run (init width height n) as = some s) :
    s.Inv := by
  refine Machine.run_guarded_invariant (I := Inv) ⟨?_, by rintro i ⟨⟩, fun _ => ?_⟩ ?_ hrun
  · intro i p hp
    rw [(List.mem_replicate.mp (List.mem_of_getElem? hp)).2]
    trivial
  · exact List.mem_singleton_self _
  · intro s a s' h hundisturbed hstep
    exact h.step (trans_of_step hstep) hundisturbed

/-- The pairs are the initial one and those of the calls. -/
theorem mem_pairs_run (hrun : step.run (init width height n) as = some s)
    {pair : UInt32 × UInt32} (hpair : pair ∈ s.pairs) :
    pair = (width, height) ∨ ∃ j, .changeResolution j pair.1 pair.2 ∈ as := by
  refine Machine.run_induction (P := fun as s => pair ∈ s.pairs →
    pair = (width, height) ∨ ∃ j, .changeResolution j pair.1 pair.2 ∈ as) ?_ ?_ hrun hpair
  · exact fun hpair => Or.inl (List.mem_singleton.mp hpair)
  · intro as s a s' _ ih hstep hpair
    have hmore : pair ∈ s.pairs → pair = (width, height) ∨
        ∃ j, .changeResolution j pair.1 pair.2 ∈ as ++ [a] :=
      fun hold => (ih hold).imp_right fun ⟨j, hj⟩ => ⟨j, List.mem_append_left _ hj⟩
    cases trans_of_step hstep with
    | @changeResolution i w h hat =>
      rcases List.mem_append.mp hpair with hold | hnew
      · exact hmore hold
      · obtain rfl := List.mem_singleton.mp hnew
        exact Or.inr ⟨i, List.mem_append_right _ (List.mem_singleton_self _)⟩
    | _ => exact hmore hpair

/-- The pair that a provider exposes is the initial one or that of one call of `change_resolution`,
and it is the current one. -/
structure Intact (width height : UInt32) (as : List InfoAction) (s : CodecInfo)
    (pair : UInt32 × UInt32) : Prop where
  source : pair = (width, height) ∨ ∃ j, .changeResolution j pair.1 pair.2 ∈ as
  current : pair = s.current

/-- For any number of threads, every interleaving and every sequence of calls: if no field is
written between its copy by a provider and the lock of that provider, then the pair that a provider
exposes is intact, as long as it holds its lock. -/
theorem exposed_run (hrun : (step.guarded Undisturbed).run (init width height n) as = some s)
    {pair : UInt32 × UInt32} (hexposes : s.Exposes i pair) : Intact width height as s pair := by
  obtain ⟨-, hcurrent, hmem⟩ := (inv_run hrun).knows i _ hexposes
  have hpair : pair = s.current := hcurrent
  exact ⟨mem_pairs_run (Machine.run_of_run_guarded hrun) (hpair ▸ hmem), hpair⟩

/-- The configuration is changed between two calls of `get_codec_info`. -/
def changedBetween : List InfoAction :=
  [.getCodecInfo 0, .copyWidth 0, .copyHeight 0, .lockShared 0, .unlockShared 0,
    .changeResolution 1 640 480, .lock 1, .writeWidth 1, .writeHeight 1, .unlock 1,
    .getCodecInfo 0, .copyWidth 0, .copyHeight 0, .lockShared 0]

/-- The second provider exposes the new pair. -/
theorem exposed_changedBetween :
    ∃ s, (step.guarded Undisturbed).run (init 1280 720 2) changedBetween = some s ∧
      s.Exposes 0 (640, 480) ∧ Intact 1280 720 changedBetween s (640, 480) :=
  ⟨_, rfl, rfl, @exposed_run _ 0 1280 720 2 changedBetween rfl (640, 480) rfl⟩

/-- The configuration is changed between the copies of the two fields. -/
def tornCopy : List InfoAction :=
  [.getCodecInfo 0, .copyWidth 0, .changeResolution 1 640 480, .lock 1, .writeWidth 1,
    .writeHeight 1, .unlock 1, .copyHeight 0, .lockShared 0]

/-- The provider exposes the old width with the new height, under its lock. -/
theorem tornCopy_not_intact :
    ∃ s, step.run (init 1280 720 2) tornCopy = some s ∧ s.Exposes 0 (1280, 480) ∧
      (1280, 480) ∉ s.pairs ∧ ¬Intact 1280 720 tornCopy s (1280, 480) :=
  ⟨_, rfl, rfl, by decide, fun h => absurd h.current (by decide)⟩

end CodecInfo

end Ngp
