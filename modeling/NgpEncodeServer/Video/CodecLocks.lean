import Mathlib.Data.Int.Notation
import NgpEncodeServer.Foundation.Machine
import NgpEncodeServer.Foundation.Mutex
import NgpEncodeServer.Video.CodecContext

/-!
# `AVCodecContextManager` with its mutexes

The rest of the model takes `send_frame`, `receive_packet` and `change_resolution` as one step each.
Here they are taken apart.  `send_frame` and `receive_packet` call libavcodec under
`m_codec_context_mutex`; the predicate that they wait for is always true, so that the wait does not
block.  `change_resolution` locks both mutexes with `std::scoped_lock`, which locks one of them and
tries the other one, and releases the first one again when that fails; then it writes the
configuration, frees the context and opens a new one, statement by statement.  A `CodecInfoProvider`
has `m_codec_info_mutex` shared.
-/

namespace Ngp

/-- The functions of libavcodec that are called with the context. -/
inductive CodecOp where
  /-- `avcodec_send_frame`. -/
  | sendFrame
  /-- `avcodec_receive_packet`. -/
  | receivePacket
  deriving DecidableEq, Repr

/-- The mutexes of the manager. -/
inductive CodecMutex where
  /-- `m_codec_info_mutex`. -/
  | info
  /-- `m_codec_context_mutex`. -/
  | context
  deriving DecidableEq, Repr

/-- The other one of the two mutexes. -/
def CodecMutex.other : CodecMutex → CodecMutex
  | .info => .context
  | .context => .info

/-- The methods of the manager. -/
inductive CodecMethod where
  /-- `send_frame` or `receive_packet`. -/
  | use (op : CodecOp)
  | changeResolution (width height : UInt32)
  | getCodecInfo
  deriving DecidableEq, Repr

/-- Where a thread is in `change_resolution` once it has both mutexes. -/
inductive ChangePoint where
  /-- Before `m_info.width = width`. -/
  | writingWidth
  /-- Before `m_info.height = height`. -/
  | writingHeight
  /-- At the start of `codec_ctx_init`. -/
  | freeing
  /-- Before `avcodec_find_encoder`. -/
  | finding
  /-- Before `avcodec_alloc_context3`. -/
  | allocating
  /-- Before `avcodec_open2`. -/
  | opening
  /-- Before `m_opened = true`. -/
  | finishing
  deriving DecidableEq, Repr

/-- Where a thread is in a method of the manager. -/
inductive CodecPoint where
  /-- In none of them. -/
  | outside
  /-- Before the mutex of the context is locked for a call of libavcodec. -/
  | locking (op : CodecOp)
  /-- Before the call of libavcodec. -/
  | calling (op : CodecOp)
  /-- In the constructor of `std::scoped_lock`, with no mutex. -/
  | acquiring (width height : UInt32)
  /-- With one mutex, before the other one is tried. -/
  | trying (has : CodecMutex) (width height : UInt32)
  /-- After the other one could not be locked. -/
  | backingOff (has : CodecMutex) (width height : UInt32)
  | changing (width height : UInt32) (stage : ChangePoint)
  /-- `codec_ctx_init` has returned or thrown, and the destructor of `std::scoped_lock` is next. -/
  | changed
  /-- Before the last mutex is released. -/
  | unlocking (has : CodecMutex)
  /-- Before `m_codec_info_mutex` is locked shared for a provider. -/
  | lockingShared
  /-- With a provider. -/
  | providing
  deriving DecidableEq, Repr

/-- A call of libavcodec, or a change of the resolution. -/
inductive CodecCall where
  /-- With the context that is handed to libavcodec, and what it returns. -/
  | use (op : CodecOp) (ctx : Option AVCodecContext) (ret : ℤ)
  | changeResolution (width height : UInt32) (outcome : InitOutcome)
  deriving DecidableEq, Repr

/-- The manager with its mutexes and the threads that use it. -/
structure CodecLocks where
  manager : AVCodecContextManager
  /-- The thread that has locked `m_codec_context_mutex`. -/
  context : Option ℕ
  /-- The thread that has locked `m_codec_info_mutex` exclusively. -/
  exclusive : Option ℕ
  /-- The threads that have locked it shared. -/
  shared : List ℕ
  threads : List CodecPoint
  /-- The calls of libavcodec and the changes of the resolution, in order, a history variable. -/
  log : List CodecCall

/-- A step of the thread `i`. -/
inductive CodecAction where
  | call (i : ℕ) (method : CodecMethod)
  | lock (i : ℕ)
  /-- The call of libavcodec, with what it returns. -/
  | use (i : ℕ) (ret : ℤ)
  /-- `std::scoped_lock` locks the mutex first. -/
  | lockFirst (i : ℕ) (mutex : CodecMutex)
  | trySucceeds (i : ℕ)
  /-- The mutex is not free, or the attempt fails for no reason. -/
  | tryFails (i : ℕ)
  | backOff (i : ℕ)
  | writeWidth (i : ℕ)
  | writeHeight (i : ℕ)
  | free (i : ℕ)
  | find (i : ℕ) (found : Bool)
  /-- The context is allocated and its fields are set. -/
  | allocate (i : ℕ) (allocated : Bool)
  /-- With what `averror_explain` makes of the error, if it is not opened. -/
  | openCodec (i : ℕ) (error : Option String)
  | finish (i : ℕ)
  /-- `std::scoped_lock` releases the mutex first. -/
  | unlockFirst (i : ℕ) (mutex : CodecMutex)
  | unlock (i : ℕ)
  | lockShared (i : ℕ)
  /-- The provider is destroyed. -/
  | unlockShared (i : ℕ)
  deriving DecidableEq, Repr

/-- The thread that moves. -/
def CodecAction.thread : CodecAction → ℕ
  | .call i _ | .lock i | .use i _ | .lockFirst i _ | .trySucceeds i | .tryFails i | .backOff i
  | .writeWidth i | .writeHeight i | .free i | .find i _ | .allocate i _ | .openCodec i _
  | .finish i | .unlockFirst i _ | .unlock i | .lockShared i | .unlockShared i => i

/-- Where a method begins. -/
def CodecMethod.start : CodecMethod → CodecPoint
  | .use op => .locking op
  | .changeResolution width height => .acquiring width height
  | .getCodecInfo => .lockingShared

namespace CodecPoint

/-- The thread has locked the mutex, `m_codec_info_mutex` exclusively. -/
def has (x : CodecMutex) : CodecPoint → Bool
  | .calling _ => x = .context
  | .trying y _ _ | .backingOff y _ _ | .unlocking y => x = y
  | .changing _ _ _ | .changed => true
  | .outside | .locking _ | .acquiring _ _ | .lockingShared | .providing => false

/-- The thread has a provider. -/
def isProviding : CodecPoint → Bool
  | .providing => true
  | _ => false

/-- The thread is changing the configuration or the context. -/
def isChanging : CodecPoint → Bool
  | .changing _ _ _ => true
  | _ => false

end CodecPoint

namespace CodecLocks

/-- A manager that `n` threads are going to use. -/
def init (manager : AVCodecContextManager) (n : ℕ) : CodecLocks where
  manager := manager
  context := none
  exclusive := none
  shared := []
  threads := List.replicate n .outside
  log := []

/-- The thread that has locked the mutex, `m_codec_info_mutex` exclusively. -/
def owner (s : CodecLocks) : CodecMutex → Option ℕ
  | .info => s.exclusive
  | .context => s.context

/-- The mutex can be locked exclusively. -/
def isFree (s : CodecLocks) : CodecMutex → Bool
  | .info => s.exclusive = none && s.shared = []
  | .context => s.context = none

/-- The mutex gets an owner, or loses it. -/
def setOwner (s : CodecLocks) (x : CodecMutex) (owner : Option ℕ) : CodecLocks :=
  match x with
  | .info => { s with exclusive := owner }
  | .context => { s with context := owner }

/-- The thread `i` goes on. -/
def move (s : CodecLocks) (i : ℕ) (p : CodecPoint) : CodecLocks :=
  { s with threads := s.threads.set i p }

/-- The thread `i` goes on and has done something to the manager. -/
def write (s : CodecLocks) (i : ℕ) (p : CodecPoint) (manager : AVCodecContextManager)
    (calls : List CodecCall) : CodecLocks :=
  { s.move i p with manager := manager, log := s.log ++ calls }

/-- One step. -/
def step : Machine CodecLocks CodecAction := fun s a =>
  let m := s.manager
  match a, s.threads[a.thread]? with
  | .call i method, some .outside => some (s.move i method.start)
  | .lock i, some (.locking op) =>
    if s.isFree .context then some ((s.setOwner .context (some i)).move i (.calling op)) else none
  | .use i ret, some (.calling op) =>
    some (s.write i (.unlocking .context) m [.use op m.ctx ret])
  | .lockFirst i x, some (.acquiring width height) =>
    if s.isFree x then some ((s.setOwner x (some i)).move i (.trying x width height)) else none
  | .trySucceeds i, some (.trying x width height) =>
    if s.isFree x.other then
      some ((s.setOwner x.other (some i)).move i (.changing width height .writingWidth))
    else none
  | .tryFails i, some (.trying x width height) => some (s.move i (.backingOff x width height))
  | .backOff i, some (.backingOff x width height) =>
    some ((s.setOwner x none).move i (.acquiring width height))
  | .writeWidth i, some (.changing width height .writingWidth) =>
    some (s.write i (.changing width height .writingHeight)
      { m with info := { m.info with width := width } } [])
  | .writeHeight i, some (.changing width height .writingHeight) =>
    some (s.write i (.changing width height .freeing)
      { m with info := { m.info with height := height } } [])
  | .free i, some (.changing width height .freeing) =>
    some (s.write i (.changing width height .finding)
      { m with ctx := if m.opened then none else m.ctx } [])
  | .find i found, some (.changing width height .finding) =>
    if found then some (s.move i (.changing width height .allocating))
    else some (s.write i .changed m [.changeResolution width height .noEncoder])
  | .allocate i allocated, some (.changing width height .allocating) =>
    if allocated then
      some (s.write i (.changing width height .opening)
        { m with ctx := some (m.info.context false) } [])
    else
      some (s.write i .changed { m with ctx := none }
        [.changeResolution width height .noContext])
  | .openCodec i error, some (.changing width height .opening) =>
    match error with
    | none =>
      some (s.write i (.changing width height .finishing)
        { m with ctx := m.ctx.map fun ctx => { ctx with isOpen := true } } [])
    | some explanation =>
      some (s.write i .changed m [.changeResolution width height (.openFails explanation)])
  | .finish i, some (.changing width height .finishing) =>
    some (s.write i .changed { m with opened := true } [.changeResolution width height .opens])
  | .unlockFirst i x, some .changed => some ((s.setOwner x none).move i (.unlocking x.other))
  | .unlock i, some (.unlocking x) => some ((s.setOwner x none).move i .outside)
  | .lockShared i, some .lockingShared =>
    if s.exclusive = none then some { s.move i .providing with shared := i :: s.shared } else none
  | .unlockShared i, some .providing =>
    some { s.move i .outside with shared := s.shared.erase i }
  | _, _ => none

/-! ### What a step does -/

/-- The steps that concern only their thread. -/
inductive Goes : CodecPoint → CodecPoint → Prop
  | call (method : CodecMethod) : Goes .outside method.start
  | tryFails {x : CodecMutex} {width height : UInt32} :
      Goes (.trying x width height) (.backingOff x width height)
  | found {width height : UInt32} :
      Goes (.changing width height .finding) (.changing width height .allocating)

/-- The steps that lock a mutex. -/
inductive Takes : CodecMutex → CodecPoint → CodecPoint → Prop
  | lock {op : CodecOp} : Takes .context (.locking op) (.calling op)
  | lockFirst {x : CodecMutex} {width height : UInt32} :
      Takes x (.acquiring width height) (.trying x width height)
  | trySucceeds {x : CodecMutex} {width height : UInt32} :
      Takes x.other (.trying x width height) (.changing width height .writingWidth)

/-- The steps that release a mutex. -/
inductive Releases : CodecMutex → CodecPoint → CodecPoint → Prop
  | backOff {x : CodecMutex} {width height : UInt32} :
      Releases x (.backingOff x width height) (.acquiring width height)
  | unlockFirst {x : CodecMutex} : Releases x .changed (.unlocking x.other)
  | unlock {x : CodecMutex} : Releases x (.unlocking x) .outside

/-- The steps that use or change the manager. -/
inductive Writes (m : AVCodecContextManager) :
    CodecPoint → CodecPoint → AVCodecContextManager → List CodecCall → Prop
  | use {op : CodecOp} {ret : ℤ} :
      Writes m (.calling op) (.unlocking .context) m [.use op m.ctx ret]
  | writeWidth {width height : UInt32} :
      Writes m (.changing width height .writingWidth) (.changing width height .writingHeight)
        { m with info := { m.info with width := width } } []
  | writeHeight {width height : UInt32} :
      Writes m (.changing width height .writingHeight) (.changing width height .freeing)
        { m with info := { m.info with height := height } } []
  | free {width height : UInt32} :
      Writes m (.changing width height .freeing) (.changing width height .finding)
        { m with ctx := if m.opened then none else m.ctx } []
  | notFound {width height : UInt32} :
      Writes m (.changing width height .finding) .changed m
        [.changeResolution width height .noEncoder]
  | allocate {width height : UInt32} :
      Writes m (.changing width height .allocating) (.changing width height .opening)
        { m with ctx := some (m.info.context false) } []
  | notAllocated {width height : UInt32} :
      Writes m (.changing width height .allocating) .changed { m with ctx := none }
        [.changeResolution width height .noContext]
  | openCodec {width height : UInt32} :
      Writes m (.changing width height .opening) (.changing width height .finishing)
        { m with ctx := m.ctx.map fun ctx => { ctx with isOpen := true } } []
  | notOpened {width height : UInt32} {explanation : String} :
      Writes m (.changing width height .opening) .changed m
        [.changeResolution width height (.openFails explanation)]
  | finish {width height : UInt32} :
      Writes m (.changing width height .finishing) .changed { m with opened := true }
        [.changeResolution width height .opens]

/-- The steps of the thread `i`. -/
inductive Trans (s : CodecLocks) (i : ℕ) : CodecLocks → Prop
  | goes {p p' : CodecPoint} (hat : s.threads[i]? = some p) (h : Goes p p') :
      Trans s i (s.move i p')
  | takes {x : CodecMutex} {p p' : CodecPoint} (hat : s.threads[i]? = some p) (h : Takes x p p')
      (hfree : s.isFree x = true) : Trans s i ((s.setOwner x (some i)).move i p')
  | releases {x : CodecMutex} {p p' : CodecPoint} (hat : s.threads[i]? = some p)
      (h : Releases x p p') : Trans s i ((s.setOwner x none).move i p')
  | writes {p p' : CodecPoint} {m : AVCodecContextManager} {calls : List CodecCall}
      (hat : s.threads[i]? = some p) (h : Writes s.manager p p' m calls) :
      Trans s i (s.write i p' m calls)
  | lockShared (hat : s.threads[i]? = some .lockingShared) (hfree : s.exclusive = none) :
      Trans s i { s.move i .providing with shared := i :: s.shared }
  | unlockShared (hat : s.threads[i]? = some .providing) :
      Trans s i { s.move i .outside with shared := s.shared.erase i }

/-- Every step is one of the listed steps. -/
theorem trans_of_step {s s' : CodecLocks} {a : CodecAction} (h : step s a = some s') :
    Trans s a.thread s' := by
  unfold step at h
  dsimp only at h
  split at h
  · exact Option.some.inj h ▸ .goes ‹_› (.call _)
  · rename_i hat
    split at h
    · exact Option.some.inj h ▸ .takes hat .lock ‹_›
    · cases h
  · exact Option.some.inj h ▸ .writes ‹_› .use
  · rename_i hat
    split at h
    · exact Option.some.inj h ▸ .takes hat .lockFirst ‹_›
    · cases h
  · rename_i hat
    split at h
    · exact Option.some.inj h ▸ .takes hat .trySucceeds ‹_›
    · cases h
  · exact Option.some.inj h ▸ .goes ‹_› .tryFails
  · exact Option.some.inj h ▸ .releases ‹_› .backOff
  · exact Option.some.inj h ▸ .writes ‹_› .writeWidth
  · exact Option.some.inj h ▸ .writes ‹_› .writeHeight
  · exact Option.some.inj h ▸ .writes ‹_› .free
  · rename_i hat
    split at h
    · exact Option.some.inj h ▸ .goes hat .found
    · exact Option.some.inj h ▸ .writes hat .notFound
  · rename_i hat
    split at h
    · exact Option.some.inj h ▸ .writes hat .allocate
    · exact Option.some.inj h ▸ .writes hat .notAllocated
  · rename_i hat
    split at h
    · exact Option.some.inj h ▸ .writes hat .openCodec
    · exact Option.some.inj h ▸ .writes hat .notOpened
  · exact Option.some.inj h ▸ .writes ‹_› .finish
  · exact Option.some.inj h ▸ .releases ‹_› .unlockFirst
  · exact Option.some.inj h ▸ .releases ‹_› .unlock
  · rename_i hat
    split at h
    · exact Option.some.inj h ▸ .lockShared hat ‹_›
    · cases h
  · exact Option.some.inj h ▸ .unlockShared ‹_›
  · cases h

/-! ### The mutexes -/

section Mutexes

variable {s s' : CodecLocks} {i : ℕ} {p p' : CodecPoint} {x : CodecMutex}

@[simp] theorem owner_setOwner_self (s : CodecLocks) (x : CodecMutex) (owner : Option ℕ) :
    (s.setOwner x owner).owner x = owner := by
  cases x <;> rfl

theorem owner_setOwner_of_ne (s : CodecLocks) {x y : CodecMutex} (owner : Option ℕ) (h : y ≠ x) :
    (s.setOwner x owner).owner y = s.owner y := by
  cases x <;> cases y <;> first | rfl | exact absurd rfl h

@[simp] theorem threads_setOwner_move (s : CodecLocks) (x : CodecMutex) (owner : Option ℕ) (i : ℕ)
    (p : CodecPoint) : ((s.setOwner x owner).move i p).threads = s.threads.set i p := by
  cases x <;> rfl

@[simp] theorem manager_setOwner_move (s : CodecLocks) (x : CodecMutex) (owner : Option ℕ) (i : ℕ)
    (p : CodecPoint) : ((s.setOwner x owner).move i p).manager = s.manager := by
  cases x <;> rfl

@[simp] theorem log_setOwner_move (s : CodecLocks) (x : CodecMutex) (owner : Option ℕ) (i : ℕ)
    (p : CodecPoint) : ((s.setOwner x owner).move i p).log = s.log := by
  cases x <;> rfl

@[simp] theorem shared_setOwner_move (s : CodecLocks) (x : CodecMutex) (owner : Option ℕ) (i : ℕ)
    (p : CodecPoint) : ((s.setOwner x owner).move i p).shared = s.shared := by
  cases x <;> rfl

/-- A mutex that can be locked exclusively has no owner. -/
theorem owner_of_isFree (h : s.isFree x = true) : s.owner x = none := by
  cases x with
  | info =>
    simp only [isFree, Bool.and_eq_true, decide_eq_true_eq] at h
    exact h.1
  | context => exact of_decide_eq_true h

/-- The steps that concern only their thread leave the mutexes alone. -/
theorem Goes.has_eq (h : Goes p p') (x : CodecMutex) : p'.has x = p.has x := by
  cases h with
  | call method => cases method <;> rfl
  | tryFails | found => rfl

/-- The thread has the mutex that it takes, and the other one as before. -/
theorem Takes.has (h : Takes x p p') :
    p'.has x = true ∧ ∀ y, y ≠ x → p'.has y = p.has y := by
  cases h with
  | lock => exact ⟨rfl, fun y hy => by simp [CodecPoint.has, hy]⟩
  | lockFirst => exact ⟨by simp [CodecPoint.has], fun y hy => by simp [CodecPoint.has, hy]⟩
  | @trySucceeds x =>
    refine ⟨rfl, fun y hy => ?_⟩
    cases x <;> cases y <;> first | rfl | exact absurd rfl hy

/-- The thread has had the mutex that it releases, and has the other one as before. -/
theorem Releases.has (h : Releases x p p') :
    p.has x = true ∧ p'.has x = false ∧ ∀ y, y ≠ x → p'.has y = p.has y := by
  cases h with
  | backOff =>
    exact ⟨by simp [CodecPoint.has], rfl, fun y hy => by simp [CodecPoint.has, hy]⟩
  | unlockFirst =>
    refine ⟨rfl, by cases x <;> rfl, fun y hy => ?_⟩
    cases x <;> cases y <;> first | rfl | exact absurd rfl hy
  | unlock => exact ⟨by simp [CodecPoint.has], rfl, fun y hy => by simp [CodecPoint.has, hy]⟩

/-- Only the thread with the mutex of the context uses or changes the manager, and it keeps what it
has. -/
theorem Writes.has {m m' : AVCodecContextManager} {calls : List CodecCall}
    (h : Writes m p p' m' calls) :
    p.has .context = true ∧ ∀ y, p'.has y = p.has y := by
  cases h <;> exact ⟨rfl, fun y => by cases y <;> rfl⟩

/-- Every mutex is owned by the thread that has it. -/
def AllOwned (s : CodecLocks) : Prop := ∀ x, Owned (CodecPoint.has x) (s.owner x) s.threads

/-- Every step keeps the owners. -/
theorem AllOwned.step (h : s.AllOwned) (ht : Trans s i s') : s'.AllOwned := by
  intro x
  cases ht with
  | goes hat hgoes => exact (h x).keep hat (hgoes.has_eq x)
  | writes hat hwrites => exact (h x).keep hat (hwrites.has.2 x)
  | lockShared hat | unlockShared hat => exact (h x).keep hat rfl
  | @takes y p p' hat htakes hfree =>
    rw [threads_setOwner_move]
    change Owned _ ((s.setOwner y (some i)).owner x) _
    by_cases hxy : x = y
    · subst hxy
      rw [owner_setOwner_self]
      have hnone := h x
      rw [owner_of_isFree hfree] at hnone
      exact hnone.acquire hat htakes.has.1
    · rw [owner_setOwner_of_ne s _ hxy]
      exact (h x).keep hat (htakes.has.2 x hxy)
  | @releases y p p' hat hreleases =>
    obtain ⟨hhad, hgone, hother⟩ := hreleases.has
    rw [threads_setOwner_move]
    change Owned _ ((s.setOwner y none).owner x) _
    by_cases hxy : x = y
    · subst hxy
      rw [owner_setOwner_self]
      exact (h x).release hat hhad hgone
    · rw [owner_setOwner_of_ne s _ hxy]
      exact (h x).keep hat (hother x hxy)

theorem Goes.isProviding_eq (h : Goes p p') : p'.isProviding = p.isProviding := by
  cases h with
  | call method => cases method <;> rfl
  | tryFails | found => rfl

theorem Takes.isProviding_eq (h : Takes x p p') : p'.isProviding = p.isProviding := by
  cases h <;> rfl

theorem Releases.isProviding_eq (h : Releases x p p') : p'.isProviding = p.isProviding := by
  cases h <;> rfl

theorem Writes.isProviding_eq {m m' : AVCodecContextManager} {calls : List CodecCall}
    (h : Writes m p p' m' calls) : p'.isProviding = p.isProviding := by
  cases h <;> rfl

/-- The providers are those who have the configuration shared, and then nobody has it
exclusively. -/
structure Provided (s : CodecLocks) : Prop where
  shared : Shared CodecPoint.isProviding s.shared s.threads
  excludes : s.exclusive ≠ none → s.shared = []

/-- A mutex that gets an owner is not shared. -/
theorem Provided.excludes_setOwner (h : s.Provided) (hfree : s.isFree x = true)
    (owner : Option ℕ) : (s.setOwner x owner).exclusive ≠ none → s.shared = [] := by
  intro hexclusive
  cases x with
  | context => exact h.excludes hexclusive
  | info =>
    simp only [isFree, Bool.and_eq_true, decide_eq_true_eq] at hfree
    exact hfree.2

/-- Every step keeps the providers. -/
theorem Provided.step (h : s.Provided) (ht : Trans s i s') : s'.Provided := by
  cases ht with
  | goes hat hgoes => exact ⟨h.shared.keep hat hgoes.isProviding_eq, h.excludes⟩
  | writes hat hwrites => exact ⟨h.shared.keep hat hwrites.isProviding_eq, h.excludes⟩
  | lockShared hat hfree =>
    refine ⟨h.shared.acquire hat rfl rfl, ?_⟩
    intro hexclusive
    exact absurd hfree hexclusive
  | unlockShared hat =>
    refine ⟨h.shared.release rfl, ?_⟩
    intro hexclusive
    change s.shared.erase i = []
    rw [h.excludes hexclusive]
    rfl
  | @takes x p p' hat htakes hfree =>
    refine ⟨?_, ?_⟩
    · simpa using h.shared.keep hat htakes.isProviding_eq
    · intro hexclusive
      rw [shared_setOwner_move]
      exact h.excludes_setOwner hfree (some i) hexclusive
  | @releases x p p' hat hreleases =>
    refine ⟨?_, ?_⟩
    · simpa using h.shared.keep hat hreleases.isProviding_eq
    · intro hexclusive
      rw [shared_setOwner_move]
      cases x with
      | info => exact absurd rfl hexclusive
      | context => exact h.excludes hexclusive

end Mutexes

end CodecLocks

end Ngp
