import NgpEncodeServer.Program.Shutdown
import NgpEncodeServer.Foundation.ListSum

/-!
# The shutdown ends

Once `shutdown_requested` is set, every step of a thread takes it closer to its end: a loop is not
entered again, and a body that is under way has only so many steps left, whatever comes of them.
`work` adds up what is left for all threads.  A step is one call, so that a call which blocks for as
long as its peer likes is one step as well.

The camera control server is not told to stop before everything else has ended, and each message it
gets in the meantime is work of its own.
-/

namespace Ngp

/-! ### What is left to do -/

/-- The steps that `main` has left. -/
def MainPoint.work : MainPoint → ℕ
  | .stopping rest => rest.length + 1
  | .joining rest => rest.length + serverIds.length + 2
  | .spawning rest => rest.length + threadIds.length + serverIds.length + 3
  | .starting rest => rest.length + 2 * threadIds.length + serverIds.length + 4
  | .returned | .failed | .terminated => 0

/-- The steps that `socket_main_thread` has left, with `n` renderers. -/
def SocketMainPoint.work (n : ℕ) : SocketMainPoint → ℕ
  | .spawning spawned => (n - spawned) + n + 2
  | .joining joined => (n - joined) + 1
  | .returned => 0

/-- The steps that a `socket_manage_thread` has left, with those of a client thread that it may
still start. -/
def ManagePoint.work : ManagePoint → ℕ
  | .parsed .. => 6
  | .connecting .. => 5
  | .running _ => 3
  | .joining => 2
  | .loopHead => 1
  | .returned | .raised _ => 0

/-- The steps that a `socket_client_thread` has left in the body of its loop and after it. -/
def ClientPoint.work : ClientPoint → ℕ
  | .loopHead => 9
  | .drawn _ => 8
  | .allocated .. => 7
  | .sending _ => 6
  | .receiving _ => 5
  | .constructing .. => 4
  | .constructingDepth .. => 3
  | .pushing _ => 2
  | .closed | .raised _ => 0

/-- The steps that a `process_frame_thread` has left in the body of its loop and after it. -/
def ProcessPoint.work : ProcessPoint → ℕ
  | .popping => 4
  | .converting .. => 3
  | .inserting .. => 2
  | .raised _ => 0

/-- The steps that a `send_frame_thread` has left in the body of its loop and after it. -/
def SendPoint.work : SendPoint → ℕ
  | .getting => 5
  | .sendingScene _ => 4
  | .sendingDepth _ => 3
  | .advancing => 2
  | .raised _ => 0

/-- The steps that a thread has left, with those of the body of its loop. -/
def LoopPoint.work (body : ℕ) : LoopPoint → ℕ
  | .test => 1
  | .body => body
  | .done => 0

theorem ManagePoint.work_le (p : ManagePoint) : p.work ≤ 6 := by cases p <;> simp [work]

theorem ClientPoint.work_le (p : ClientPoint) : p.work ≤ 9 := by cases p <;> simp [work]

theorem ProcessPoint.work_le (p : ProcessPoint) : p.work ≤ 4 := by cases p <;> simp [work]

theorem SendPoint.work_le (p : SendPoint) : p.work ≤ 5 := by cases p <;> simp [work]

@[simp] theorem LoopPoint.work_test (body : ℕ) : LoopPoint.test.work body = 1 := rfl

@[simp] theorem LoopPoint.work_body (body : ℕ) : LoopPoint.body.work body = body := rfl

@[simp] theorem LoopPoint.work_done (body : ℕ) : LoopPoint.done.work body = 0 := rfl

theorem LoopPoint.work_le {body n : ℕ} (hbody : body ≤ n) (hn : 1 ≤ n) (l : LoopPoint) :
    l.work body ≤ n := by
  cases l with
  | test => exact hn
  | body => exact hbody
  | done => exact Nat.zero_le n

/-- The steps that a `receive_packet_thread` has left. -/
def ReceivePoint.work : ReceivePoint → ℕ
  | .receiving => 3
  | .handlerHead | .consuming _ => 2
  | .loopHead => 1
  | .exited | .raised _ => 0

/-- The steps that `encode_stats_thread` has left. -/
def StatsPoint.work : StatsPoint → ℕ
  | .loading => 4
  | .loaded .. => 3
  | .summed _ => 2
  | .loopHead => 1
  | .returned => 0

/-- The steps that the message handler of the camera control has left. -/
def ControlPoint.work : ControlPoint → ℕ
  | .changingScene .. => 3
  | .changingDepth .. => 2
  | .storing .. => 1
  | .idle | .raised _ => 0

theorem ReceivePoint.work_le (p : ReceivePoint) : p.work ≤ 3 := by cases p <;> simp [work]

theorem StatsPoint.work_le (p : StatsPoint) : p.work ≤ 4 := by cases p <;> simp [work]

theorem ControlPoint.work_le (p : ControlPoint) : p.work ≤ 3 := by cases p <;> simp [work]

namespace ProgramAction

variable {κ : Type*}

/-- The message handler of the camera control is called. -/
def isMessage : ProgramAction κ → Bool
  | .control (.setCamera ..) => true
  | _ => false

/-- A step of a thread, or the return of a call in which it waits for a peer: neither the signal,
nor a viewer that comes or leaves, nor a message for the camera control. -/
def isInner : ProgramAction κ → Bool
  | .signal | .opened .. | .closed .. | .control (.setCamera ..) => false
  | _ => true

end ProgramAction

namespace Program

variable {κ : Type*} {s s' : Program κ}

/-- The steps that a client thread has left. -/
def clientWork (x : LoopPoint × Client) : ℕ := x.1.work x.2.point.work

/-- The steps that all client threads have left. -/
def clientsWork (s : Program κ) : ℕ := ((s.clientLoops.zip s.server.clients).map clientWork).sum

/-- The steps that all `socket_manage_thread`s have left. -/
def managesWork (s : Program κ) : ℕ := (s.manages.map fun t => t.manage.point.work).sum

/-- The steps that the two threads of a pipeline have left. -/
def pipeWork (s : Program κ) (e : Bool) : ℕ :=
  (s.process.get e).work (s.server.pipe.get e).process.work +
    (s.send.get e).work (s.server.pipe.get e).send.work

/-- The steps that the `receive_packet_thread`s have left. -/
def receiveWork (s : Program κ) : ℕ := (streams.map fun st => (s.receive st).work).sum

/-- The steps that everything has left. -/
def work (s : Program κ) : ℕ :=
  s.main.work + s.socketMain.work s.manages.length + s.managesWork + s.clientsWork +
    (s.pipeWork true + s.pipeWork false) + s.receiveWork + s.stats.point.work +
    s.server.control.work

end Program

/-! ### What the steps of the parts take away -/

/-- A step of a client thread. -/
theorem Server.ClientTrans.work_lt {s s₁ : Server} {c c' : Client} {a : ClientAction}
    (h : ClientTrans s c a s₁ c') :
    c'.point.loopPoint.work c'.point.work < c.point.work := by
  cases h with
  | exit hat | draw hat | allocate hat | build hat | sendFails hat | sendOk hat | parsed hat
  | lost hat | badAlloc hat | constructScene hat | constructDepth hat | push hat
  | pushTimeout hat => simp [hat, ClientPoint.loopPoint, LoopPoint.work, ClientPoint.work]

/-- A step of `process_frame_thread`. -/
theorem Pipe.Trans.process_work_lt {p p' : Pipe} {a : PipeAction} (h : Trans p a p')
    (hpush : a.pushed = []) (hsend : a.isSend = false) :
    p'.process.loopPoint.work p'.process.work < p.process.work ∧ p'.send = p.send := by
  cases h with
  | push => cases hpush
  | getDelete | getTimeout | sendScene | sendDepth | advance => cases hsend
  | pop hat | popTimeout hat | convert hat | convertThrows hat | insert hat | insertTimeout hat =>
    simp [hat, ProcessPoint.loopPoint, LoopPoint.work, ProcessPoint.work]

/-- A step of `send_frame_thread`. -/
theorem Pipe.Trans.send_work_lt {p p' : Pipe} {a : PipeAction} (h : Trans p a p')
    (hsend : a.isSend = true) :
    p'.send.loopPoint.work p'.send.work < p.send.work ∧ p'.process = p.process := by
  cases h with
  | push | pop | popTimeout | convert | convertThrows | insert | insertTimeout => cases hsend
  | getDelete hat | getTimeout hat | sendScene hat | sendDepth hat | advance hat =>
    simp [hat, SendPoint.loopPoint, LoopPoint.work, SendPoint.work]

/-- A step of `receive_packet_thread` once the flag is set. -/
theorem ReceivePacket.Trans.work_lt {κ : Type*} [DecidableEq κ] {s s' : ReceivePacket κ}
    {a : ReceivePacketAction κ} (h : Trans s a s') (hthread : a.isThread = true)
    (hflag : s.shutdownRequested = true) : s'.point.work < s.point.work := by
  cases h with
  | opened | closed | shutdown => cases hthread
  | enter _ hclear | allocFails _ hclear | poll _ hclear =>
    rw [hflag] at hclear
    cases hclear
  | consumeThrows hat =>
    simp only [hat]
    split <;> simp [ReceivePoint.work]
  | exit hat | pollStops hat | again hat | receive hat | receiveFails hat | consume hat =>
    simp [hat, ReceivePoint.work, handlerFails]

/-- A step of `encode_stats_thread` once the flag is set. -/
theorem EncodeStats.Trans.work_lt {flag : Bool} {index : Sided UInt64} {t t' : EncodeStats}
    {a : StatsAction} (h : Trans flag index t a t') (hflag : flag = true) :
    t'.point.work < t.point.work := by
  cases h with
  | enter _ hclear =>
    rw [hflag] at hclear
    cases hclear
  | exit hat | loadFirst hat | loadSecond hat | report hat | tick hat =>
    simp [hat, StatsPoint.work]

/-- A step of a `socket_manage_thread` other than the parsing of the address. -/
theorem Manage.Trans.work_lt {renderer : List UInt8} {m m' : Manage} {a : ManageAction}
    (h : Trans renderer m a m') (hparse : a ≠ .parse) :
    m'.point.work < m.point.work ∧
      (∀ ret, a = .connect ret → ¬ret < 0 → m'.point.work + 2 ≤ m.point.work) := by
  cases h with
  | parse | parseThrows => exact absurd rfl hparse
  | connectFails hfails =>
    refine ⟨by simp [ManagePoint.work], ?_⟩
    rintro ret ⟨⟩ hret
    exact absurd hfails hret
  | exit | socketFails | socket | connect | clientCloses | join => simp [ManagePoint.work]

/-- A step of the message handler of the camera control other than a new message. -/
theorem Server.ControlTrans.work_lt {s s' : Server} {a : ControlAction} (h : ControlTrans s a s') :
    s'.control.work + 1 ≤ s.control.work ∨
      (∃ e camera, a = .setCamera e camera) ∧ s'.control.work ≤ s.control.work + 3 := by
  cases h with
  | changing | keeping => exact Or.inr ⟨⟨_, _, rfl⟩, by simp [ControlPoint.work]⟩
  | changeScene hat | changeSceneThrows hat | changeDepth hat | changeDepthThrows hat
  | store hat => exact Or.inl (by simp [hat, ControlPoint.work])

/-! ### What the parts leave alone -/

namespace Server

variable {s s' s₁ : Server}

/-- A client thread moves neither the threads of the pipelines nor the camera control. -/
theorem ClientTrans.frame {c c' : Client} {a : ClientAction} (h : ClientTrans s c a s₁ c') :
    s₁.control = s.control ∧ ∀ e, (s₁.pipe.get e).process = (s.pipe.get e).process ∧
      (s₁.pipe.get e).send = (s.pipe.get e).send := by
  cases h with
  | @push frame p hat ht =>
    refine ⟨rfl, fun e => ?_⟩
    by_cases he : e = frame.isLeft
    · subst he
      rw [Sided.get_set_self]
      cases ht
      exact ⟨rfl, rfl⟩
    · rw [Sided.get_set_of_ne _ _ he]
      exact ⟨rfl, rfl⟩
  | _ => exact ⟨rfl, fun _ => ⟨rfl, rfl⟩⟩

/-- A step of a client thread. -/
theorem step_client_eq {i : ℕ} {a : ClientAction} (h : step s (.client i a) = some s') :
    ∃ c c' s₁, s.clients[i]? = some c ∧ ClientTrans s c a s₁ c' ∧
      s' = { s₁ with clients := s.clients.set i c' } := by
  cases (trans_of_step h).1 with
  | client hc ht => exact ⟨_, _, _, hc, ht, rfl⟩

/-- A step of a thread of a pipeline. -/
theorem step_pipe_eq {e : Bool} {a : PipeAction} (h : step s (.pipe e a) = some s') :
    ∃ p, a.pushed = [] ∧ Pipe.Trans (s.pipe.get e) a p ∧
      s' = { s with pipe := s.pipe.set e p } := by
  cases (trans_of_step h).1 with
  | pipe hpush ht => exact ⟨_, hpush, ht, rfl⟩

/-- A step of the camera control. -/
theorem step_control_eq {a : ControlAction} (h : step s (.control a) = some s') :
    ControlTrans s a s' ∧ s'.clients = s.clients ∧ s'.pipe = s.pipe := by
  cases (trans_of_step h).1 with
  | control ht => exact ⟨ht, by cases ht <;> rfl, by cases ht <;> rfl⟩

end Server

namespace Program

variable {κ : Type*} {s s' : Program κ}

/-- What a step of the thread of one renderer takes away. -/
theorem managesWork_set {i : ℕ} {t : ManageThread} (t' : ManageThread)
    (ht : s.manages[i]? = some t) :
    ((s.manages.set i t').map fun t => t.manage.point.work).sum + t.manage.point.work =
      s.managesWork + t'.manage.point.work :=
  sum_map_set_add _ ht

/-- What a step of one client thread takes away. -/
theorem clientsWork_set {j : ℕ} {l : LoopPoint} {c : Client} (l' : LoopPoint) (c' : Client)
    (hl : s.clientLoops[j]? = some l) (hc : s.server.clients[j]? = some c) :
    (((s.clientLoops.set j l').zip (s.server.clients.set j c')).map clientWork).sum +
        l.work c.point.work = s.clientsWork + l'.work c'.point.work := by
  rw [zip_set]
  exact sum_map_set_add clientWork (getElem?_zip hl hc)

/-- What a step of one `receive_packet_thread` takes away. -/
theorem receiveWork_update (s : Program κ) (st : PacketStream) (p : ReceivePoint) :
    (streams.map fun st' => (Function.update s.receive st p st').work).sum + (s.receive st).work =
      s.receiveWork + p.work := by
  rcases st with ⟨_ | _, _ | _⟩ <;> simp [receiveWork, streams, Function.update_apply] <;> omega

variable [DecidableEq κ] {a : ProgramAction κ}

/-- Once the flag is set, an inner step takes at least one unit of work away, and no other step adds
any but a message for the camera control, which adds three. -/
theorem Trans.work_le (h : Trans s a s') (hattended : s.Attended)
    (hflag : s.shutdownRequested = true) :
    s'.work + a.isInner.toNat ≤ s.work + 3 * a.isMessage.toNat := by
  cases h with
  | signal | opened | closed => exact Nat.le_refl _
  | start hat | allStarted hat | spawn hat | allSpawned hat | join hat | allJoined hat | stop hat
  | allStopped hat =>
    simp only [work, managesWork, clientsWork, pipeWork, receiveWork, setWebsocket, hat,
      MainPoint.work, List.length_cons, List.length_nil, ProgramAction.isInner,
      ProgramAction.isMessage, Bool.toNat_true, Bool.toNat_false]
    omega
  | startThrows hat | stopThrows hat =>
    have hdone : s.unwound.work = 0 := by
      unfold unwound
      split <;> rfl
    have hpos : 0 < s.main.work := by simp [hat, MainPoint.work]
    simp only [work, managesWork, clientsWork, pipeWork, receiveWork, hdone,
      ProgramAction.isInner, ProgramAction.isMessage, Bool.toNat_true, Bool.toNat_false]
    omega
  | spawnManage _ hat | allManaged _ hat | socketMainReturns _ hat =>
    simp only [work, managesWork, clientsWork, pipeWork, receiveWork, hat, SocketMainPoint.work,
      ProgramAction.isInner, ProgramAction.isMessage, Bool.toNat_true, Bool.toNat_false]
    omega
  | joinManage _ hat ht =>
    have hlt := (List.getElem?_eq_some_iff.mp ht).1
    simp only [work, managesWork, clientsWork, pipeWork, receiveWork, hat, SocketMainPoint.work,
      ProgramAction.isInner, ProgramAction.isMessage, Bool.toNat_true, Bool.toNat_false]
    omega
  | @connect i t m ret server _ ht hm hret hserver =>
    obtain rfl := Server.step_connect_eq hserver
    have hwork := ((Manage.trans_of_step hm).work_lt (by simp)).2 ret rfl hret
    have hset := managesWork_set { t with manage := m, client := some s.server.clients.length } ht
    have hnew : ((s.clientLoops ++ [LoopPoint.test]).zip
        (s.server.clients ++ [Client.start])).map clientWork =
          (s.clientLoops.zip s.server.clients).map clientWork ++ [1] := by
      rw [List.zip_append hattended.length, List.map_append]
      rfl
    simp only [work, managesWork, clientsWork, pipeWork, receiveWork, hnew, List.sum_append,
      List.sum_singleton, List.length_set, ProgramAction.isInner, ProgramAction.isMessage,
      Bool.toNat_true, Bool.toNat_false] at hset ⊢
    omega
  | @clientCloses i j t m _ ht hm =>
    have hwork := ((Manage.trans_of_step hm).work_lt (by simp)).1
    have hset := managesWork_set { t with manage := m, client := none } ht
    simp only [work, managesWork, clientsWork, pipeWork, receiveWork, List.length_set,
      ProgramAction.isInner, ProgramAction.isMessage, Bool.toNat_true, Bool.toNat_false] at hset ⊢
    omega
  | @manage i t m b _ ht hallows hm =>
    have hparse : b ≠ .parse := by
      rintro rfl
      simp [allows, hflag] at hallows
    have hwork := ((Manage.trans_of_step hm).work_lt hparse).1
    have hset := managesWork_set { t with manage := m } ht
    simp only [work, managesWork, clientsWork, pipeWork, receiveWork, List.length_set,
      ProgramAction.isInner, ProgramAction.isMessage, Bool.toNat_true, Bool.toNat_false] at hset ⊢
    omega
  | @clientTest j hloop =>
    have hlt : j < s.server.clients.length :=
      hattended.length ▸ (List.getElem?_eq_some_iff.mp hloop).1
    have hset := clientsWork_set .done s.server.clients[j] hloop (List.getElem?_eq_getElem hlt)
    rw [List.set_getElem_self] at hset
    simp only [work, managesWork, clientsWork, pipeWork, receiveWork, hflag, if_true,
      LoopPoint.work_test, LoopPoint.work_done, ProgramAction.isInner, ProgramAction.isMessage,
      Bool.toNat_true, Bool.toNat_false] at hset ⊢
    omega
  | @client j c b server hloop hserver hc =>
    obtain ⟨c₀, c', s₁, hc₀, ht, rfl⟩ := Server.step_client_eq hserver
    obtain ⟨hcontrol, hpipe⟩ := ht.frame
    have hlt := (List.getElem?_eq_some_iff.mp hc₀).1
    obtain rfl : c' = c := Option.some.inj ((List.getElem?_set_self hlt).symm.trans hc)
    have hwork := ht.work_lt
    have hset := clientsWork_set c'.point.loopPoint c' hloop hc₀
    simp only [work, managesWork, clientsWork, pipeWork, receiveWork, hcontrol, hpipe,
      LoopPoint.work_body, ProgramAction.isInner, ProgramAction.isMessage, Bool.toNat_true,
      Bool.toNat_false] at hset ⊢
    omega
  | @processTest e _ hloop | @sendTest e _ hloop =>
    cases e <;>
      simp only [work, managesWork, clientsWork, pipeWork, receiveWork, Sided.get_set, hloop, hflag,
        if_true, Bool.true_eq_false, Bool.false_eq_true, if_false, LoopPoint.work_test,
        LoopPoint.work_done, ProgramAction.isInner, ProgramAction.isMessage, Bool.toNat_true,
        Bool.toNat_false] <;>
      omega
  | @process e b server hsend hloop hserver =>
    obtain ⟨p, hpush, ht, rfl⟩ := Server.step_pipe_eq hserver
    obtain ⟨hwork, hother⟩ := ht.process_work_lt hpush hsend
    cases e <;>
      simp only [work, managesWork, clientsWork, pipeWork, receiveWork, Sided.get_set, hloop,
        hother, if_true, Bool.true_eq_false, Bool.false_eq_true, if_false, LoopPoint.work_body,
        ProgramAction.isInner, ProgramAction.isMessage, Bool.toNat_true, Bool.toNat_false] <;>
      omega
  | @send e b server hsend hloop hserver =>
    obtain ⟨p, hpush, ht, rfl⟩ := Server.step_pipe_eq hserver
    obtain ⟨hwork, hother⟩ := ht.send_work_lt hsend
    cases e <;>
      simp only [work, managesWork, clientsWork, pipeWork, receiveWork, Sided.get_set, hloop,
        hother, if_true, Bool.true_eq_false, Bool.false_eq_true, if_false, LoopPoint.work_body,
        ProgramAction.isInner, ProgramAction.isMessage, Bool.toNat_true, Bool.toNat_false] <;>
      omega
  | @receive st b r _ hthread hstep =>
    have hwork := (ReceivePacket.trans_of_step hstep).work_lt hthread hflag
    have hset := receiveWork_update s st r.point
    simp only [receivePacket] at hwork
    simp only [work, managesWork, clientsWork, pipeWork, receiveWork, setWebsocket,
      ProgramAction.isInner, ProgramAction.isMessage, Bool.toNat_true, Bool.toNat_false] at hset ⊢
    omega
  | stats _ ht =>
    have hwork := ht.work_lt hflag
    simp only [work, managesWork, clientsWork, pipeWork, receiveWork, ProgramAction.isInner,
      ProgramAction.isMessage, Bool.toNat_true, Bool.toNat_false]
    omega
  | @control b server _ hserver =>
    obtain ⟨ht, hclients, hpipe⟩ := Server.step_control_eq hserver
    have hinner : (ProgramAction.isInner (.control b : ProgramAction κ)).toNat +
        (ProgramAction.isMessage (.control b : ProgramAction κ)).toNat = 1 := by
      cases b <;> rfl
    have hwork := ht.work_lt
    simp only [work, managesWork, clientsWork, pipeWork, receiveWork, hclients, hpipe]
    rcases hwork with hwork | ⟨⟨e, camera, rfl⟩, hwork⟩
    · omega
    · simp only [ProgramAction.isInner, ProgramAction.isMessage, Bool.toNat_true, Bool.toNat_false]
      omega

/-! ### How much is left to do -/

/-- There is a `socket_manage_thread` for each renderer. -/
theorem length_manages {info : CodecInitInfo} {renderers : List (List UInt8)}
    {as : List (ProgramAction κ)} (hrun : step.run (init info renderers) as = some s) :
    s.manages.length = renderers.length := by
  refine Machine.run_invariant (m := step) (I := fun s => s.manages.length = renderers.length)
    (by simp [init]) ?_ hrun
  intro s a s' h hstep
  have ht := (trans_of_step hstep).1
  by_cases ha : ∃ i b, a = .manage i b
  · obtain ⟨i, b, rfl⟩ := ha
    obtain ⟨t, t', -, hset, -⟩ := ht.of_manage
    rw [hset, List.length_set]
    exact h
  · rw [ht.manages_eq fun i b heq => ha ⟨i, b, heq⟩]
    exact h

omit [DecidableEq κ] in
/-- There are no more client threads that have not left their loop than there are renderers. -/
theorem Attended.countP_le (h : s.Attended) :
    (s.clientLoops.zip s.server.clients).countP (fun x => x.1 ≠ .done) ≤ s.manages.length := by
  refine (countP_le_length ?_).trans (List.length_filterMap_le ManageThread.client s.manages)
  intro j x hx hne
  obtain ⟨hl, -⟩ := List.getElem?_zip_eq_some.mp hx
  obtain ⟨i, t, hi, hclient⟩ := h.owner j x.1 hl (of_decide_eq_true hne)
  exact List.mem_filterMap.mpr ⟨t, List.mem_of_getElem? hi, hclient⟩

omit [DecidableEq κ] in
/-- There is only so much left to do. -/
theorem Ordered.work_le (h : s.Ordered) : s.work ≤ 73 + 17 * s.manages.length := by
  have hmain : s.main.work ≤ 34 := by
    have horder := h.phased.inOrder
    cases hat : s.main with
    | starting rest | stopping rest =>
      rw [hat] at horder
      have hle : rest.length ≤ 5 := horder.length_le
      simp only [MainPoint.work, serverIds, threadIds, List.length_cons, List.length_nil]
      omega
    | spawning rest | joining rest =>
      rw [hat] at horder
      have hle : rest.length ≤ 10 := horder.length_le
      simp only [MainPoint.work, serverIds, threadIds, List.length_cons, List.length_nil]
      omega
    | returned | failed | terminated => exact Nat.zero_le _
  have hsocket : s.socketMain.work s.manages.length ≤ 2 * s.manages.length + 2 := by
    cases s.socketMain <;> simp only [SocketMainPoint.work] <;> omega
  have hmanages : s.managesWork ≤ 6 * s.manages.length := by
    have hsum := sum_map_le_mul_countP (p := fun _ => true)
      fun t (_ : t ∈ s.manages) => t.manage.point.work_le
    rwa [List.countP_true] at hsum
  have hclients : s.clientsWork ≤ 9 * s.manages.length := by
    refine (sum_map_le_mul_countP (p := fun x => decide (x.1 ≠ .done)) ?_).trans
      (Nat.mul_le_mul_left 9 h.attended.countP_le)
    rintro ⟨l, c⟩ -
    by_cases hl : l = .done
    · simp [clientWork, hl]
    · simpa [clientWork, hl] using l.work_le (ClientPoint.work_le _) (by simp)
  have hpipe : ∀ e, s.pipeWork e ≤ 9 := fun e =>
    Nat.add_le_add ((s.process.get e).work_le (ProcessPoint.work_le _) (by simp))
      ((s.send.get e).work_le (SendPoint.work_le _) (by simp))
  have hreceive : s.receiveWork ≤ 12 :=
    sum_map_le_mul_countP (p := fun _ => true) fun st (_ : st ∈ streams) => (s.receive st).work_le
  have hstats := s.stats.point.work_le
  have hcontrol := s.server.control.work_le
  have htrue := hpipe true
  have hfalse := hpipe false
  unfold work
  omega

/-- For any number of renderers, in every run and from every state in which `shutdown_requested` is
set, whatever the threads and their peers do: the program takes at most 73 steps, 17 more for each
renderer, and three more for each message that the camera control still gets. -/
theorem shutdown_bounded {info : CodecInitInfo} {renderers : List (List UInt8)}
    {as bs : List (ProgramAction κ)} (hrun : step.run (init info renderers) as = some s)
    (hflag : s.shutdownRequested = true) (hrest : step.run s bs = some s') :
    bs.countP ProgramAction.isInner ≤
      73 + 17 * renderers.length + 3 * bs.countP ProgramAction.isMessage := by
  have hbound : s'.work + bs.countP ProgramAction.isInner ≤
      s.work + (bs.map fun a => 3 * a.isMessage.toNat).sum := by
    refine Machine.work_add_countP_le (m := step)
      (I := fun s => s.Ordered ∧ s.shutdownRequested = true) ?_ ?_ ⟨ordered_run hrun, hflag⟩ hrest
    · rintro s a s' ⟨h, hflag⟩ hstep
      have ht := (trans_of_step hstep).1
      exact ⟨h.step ht, ht.shutdownRequested_mono hflag⟩
    · rintro s a s' ⟨h, hflag⟩ hstep
      exact (trans_of_step hstep).1.work_le h.attended hflag
  have hwork := (ordered_run hrun).work_le
  rw [length_manages hrun] at hwork
  rw [sum_map_mul_toNat] at hbound
  omega

/-- With one renderer, 30 steps after the signal `main` has returned; there could not have been more
than 90. -/
theorem shutdown_bounded_interrupted :
    ∃ s s', step.run (init defaultInitInfo [Manage.tenSevenThousand]) (interrupted.take 22) =
      some s ∧ s.shutdownRequested = true ∧ step.run s (interrupted.drop 22) = some s' ∧
      s'.main = .returned ∧ (interrupted.drop 22).countP ProgramAction.isInner = 30 ∧
      (interrupted.drop 22).countP ProgramAction.isInner ≤ 73 + 17 * 1 + 3 * 0 := by
  obtain ⟨s, hrun, hflag, s', hrest, hmain⟩ : ∃ s, step.run (init defaultInitInfo
      [Manage.tenSevenThousand]) (interrupted.take 22) = some s ∧ s.shutdownRequested = true ∧
      ∃ s', step.run s (interrupted.drop 22) = some s' ∧ s'.main = .returned :=
    ⟨_, rfl, rfl, _, rfl, rfl⟩
  exact ⟨s, s', hrun, hflag, hrest, hmain, by decide, shutdown_bounded hrun hflag hrest⟩

end Program

end Ngp
