import NgpEncodeServer.Program.Step

/-!
# The order of the shutdown

`main` stops the servers after it has joined its threads.  It follows that no thread ever meets a
server that is not running, that no `start` and no `stop` finds its server in the wrong state, and
that when the first server is stopped nothing of the program is left running that refers to the
variables of `main`: every thread has returned, every renderer has been given up, and every
connection has been closed by the client thread that used it.
-/

namespace Ngp

/-! ### What `main` has done -/

/-- The servers that are running at a point of `main`. -/
def MainPoint.running : MainPoint → ServerId → Bool
  | .starting rest, id => id ∉ rest
  | .spawning _, _ | .joining _, _ => true
  | .stopping rest, id => id ∈ rest
  | .returned, _ | .failed, _ | .terminated, _ => false

/-- The threads that have been joined at a point of `main`. -/
def MainPoint.joined : MainPoint → ThreadId → Bool
  | .joining rest, t => t ∉ rest
  | .stopping _, _ | .returned, _ => true
  | .starting _, _ | .spawning _, _ | .failed, _ | .terminated, _ => false

/-- What `main` has left of a list is an end of it. -/
def MainPoint.InOrder : MainPoint → Prop
  | .starting rest | .stopping rest => rest <:+ serverIds
  | .spawning rest | .joining rest => rest <:+ threadIds
  | .returned | .failed | .terminated => True

/-- The threads that have been joined at a point of `socket_main_thread`. -/
def SocketMainPoint.joined : SocketMainPoint → ℕ → Bool
  | .spawning _, _ => false
  | .joining n, i => i < n
  | .returned, _ => true

theorem mem_serverIds (id : ServerId) : id ∈ serverIds := by
  rcases id with ⟨⟨_ | _⟩, _ | _⟩ | _ <;> decide

theorem nodup_serverIds : serverIds.Nodup := by decide

/-- A `socket_manage_thread` that has returned takes no step. -/
theorem Manage.step_of_returned {renderer : List UInt8} {m : Manage} (h : m.point = .returned)
    (b : ManageAction) : Manage.step renderer m b = none := by
  obtain ⟨point, opened⟩ := m
  subst h
  rcases b with _ | _ | ⟨_ | _⟩ | _ | _ | _ <;> rfl

/-! ### What the parts do to the client threads -/

namespace Server

variable {s s' : Server}

/-- A new client thread comes last. -/
theorem step_connect_eq (h : step s .connect = some s') :
    s' = { s with clients := s.clients ++ [Client.start] } := by
  cases (trans_of_step h).1
  rfl

/-- A client thread replaces its own entry. -/
theorem clients_of_step_client {i : ℕ} {a : ClientAction} (h : step s (.client i a) = some s') :
    ∃ c', s'.clients = s.clients.set i c' := by
  cases (trans_of_step h).1 with
  | client => exact ⟨_, rfl⟩

/-- The pipelines and the camera control do not touch the client threads. -/
theorem clients_of_step_pipe {e : Bool} {a : PipeAction} (h : step s (.pipe e a) = some s') :
    s'.clients = s.clients := by
  cases (trans_of_step h).1 with
  | pipe => rfl

theorem clients_of_step_control {a : ControlAction} (h : step s (.control a) = some s') :
    s'.clients = s.clients := by
  cases (trans_of_step h).1 with
  | control ht => cases ht <;> rfl

end Server

namespace Manage.Trans

variable {renderer : List UInt8} {m m' : Manage} {a : ManageAction}

/-- A `connect` that succeeds starts the client thread. -/
theorem of_connect {ret : ℤ} (h : Trans renderer m (.connect ret) m') (hret : ¬ret < 0) :
    (∀ fd, m.point ≠ .running fd) ∧ ∃ fd, m'.point = .running fd := by
  cases h with
  | connectFails hfails => exact absurd hfails hret
  | connect => exact ⟨by simp, _, rfl⟩

/-- The close of the socket ends the run of the client thread. -/
theorem of_clientCloses (h : Trans renderer m .clientCloses m') : m'.point = .joining := by
  cases h
  rfl

/-- Every other step of the thread is taken without a client thread. -/
theorem not_running (h : Trans renderer m a m') (hcloses : a ≠ .clientCloses)
    (hconnect : ∀ ret, a = .connect ret → ret < 0) :
    (∀ fd, m.point ≠ .running fd) ∧ ∀ fd, m'.point ≠ .running fd := by
  cases h with
  | clientCloses => exact absurd rfl hcloses
  | connect hret => exact absurd (hconnect _ rfl) hret
  | _ => exact ⟨by simp, by simp⟩

end Manage.Trans

/-- The step is one of the threads that `main` spawns, directly or not. -/
def ProgramAction.isThread {κ : Type*} : ProgramAction κ → Bool
  | .signal | .main _ | .control _ | .opened .. | .closed .. => false
  | _ => true

namespace Program

variable {κ : Type*} {s s' : Program κ}

/-- The servers run as far as `main` has started and not yet stopped them. -/
structure Phased (s : Program κ) : Prop where
  inOrder : s.main.InOrder
  running : s.main ≠ .terminated → ∀ id, (s.websocket id).running = s.main.running id

theorem phased_init (info : CodecInitInfo) (renderers : List (List UInt8)) :
    (init info renderers : Program κ).Phased := by
  refine ⟨List.suffix_refl _, fun _ id => ?_⟩
  have hmem := mem_serverIds id
  simp [init, MainPoint.running, hmem, WebSocketServer.constructed]

/-- Another state of a server that leaves it running or not. -/
theorem running_setWebsocket {id : ServerId} {w : WebSocketServer κ}
    (h : w.running = (s.websocket id).running) (id' : ServerId) :
    ((s.setWebsocket id w).websocket id').running = (s.websocket id').running := by
  by_cases hid : id' = id
  · subst hid
    simpa [setWebsocket] using h
  · simp [setWebsocket, hid]

/-- Without a running server the unwinding of `main` gets to the handler. -/
theorem unwound_eq_failed (h : s.unwound ≠ .terminated) :
    s.unwound = .failed ∧ ∀ id, (s.websocket id).running = false := by
  unfold unwound at h ⊢
  split at h
  · exact absurd rfl h
  · rename_i hnone
    rw [if_neg hnone]
    refine ⟨rfl, fun id => ?_⟩
    rw [List.any_eq_true, not_exists] at hnone
    exact Bool.eq_false_iff.mpr fun hrunning => hnone id ⟨mem_serverIds id, hrunning⟩

/-- With a running server the unwinding of `main` ends the process. -/
theorem unwound_eq_terminated {id : ServerId} (h : (s.websocket id).running = true) :
    s.unwound = .terminated :=
  if_pos (List.any_eq_true.mpr ⟨id, mem_serverIds id, h⟩)

/-- A step that leaves `main` where it is and the servers running or not. -/
theorem Phased.of_eq (h : s.Phased) (hmain : s'.main = s.main)
    (hrunning : ∀ id, (s'.websocket id).running = (s.websocket id).running) : s'.Phased := by
  refine ⟨hmain ▸ h.inOrder, fun hne id => ?_⟩
  rw [hrunning, hmain]
  exact h.running (hmain ▸ hne) id

/-- The unwinding of `main` keeps the servers as they are. -/
theorem Phased.unwound (s : Program κ) : Phased { s with main := s.unwound } := by
  refine ⟨?_, fun hne id => ?_⟩
  · change s.unwound.InOrder
    unfold Program.unwound
    split <;> exact trivial
  · obtain ⟨hfailed, hstopped⟩ := unwound_eq_failed hne
    change _ = s.unwound.running id
    rw [hfailed]
    exact hstopped id

variable [DecidableEq κ] {a : ProgramAction κ}

/-- Every step keeps the servers in line with `main`. -/
theorem Phased.step (h : s.Phased) (ht : Trans s a s') : s'.Phased := by
  cases ht with
  | @start id rest hat hstopped =>
    have hsuffix : id :: rest <:+ serverIds := (congrArg MainPoint.InOrder hat).mp h.inOrder
    have hnotMem : id ∉ rest := (List.nodup_cons.mp (nodup_serverIds.sublist hsuffix.sublist)).1
    refine ⟨(List.suffix_cons id rest).trans hsuffix, fun _ id' => ?_⟩
    have hold := h.running (by simp [hat]) id'
    by_cases hid : id' = id
    · subst hid
      simp [setWebsocket, MainPoint.running, hnotMem]
    · simpa [setWebsocket, hid, hat, MainPoint.running] using hold
  | startThrows => exact Phased.unwound s
  | allStarted hat =>
    refine ⟨List.suffix_refl _, fun _ id => ?_⟩
    simpa [hat, MainPoint.running] using h.running (by simp [hat]) id
  | @spawn t rest hat =>
    have hsuffix : t :: rest <:+ threadIds := (congrArg MainPoint.InOrder hat).mp h.inOrder
    refine ⟨(List.suffix_cons t rest).trans hsuffix, fun _ id => ?_⟩
    simpa [hat, MainPoint.running] using h.running (by simp [hat]) id
  | allSpawned hat =>
    refine ⟨List.suffix_refl _, fun _ id => ?_⟩
    simpa [hat, MainPoint.running] using h.running (by simp [hat]) id
  | @join t rest hat hreturned =>
    have hsuffix : t :: rest <:+ threadIds := (congrArg MainPoint.InOrder hat).mp h.inOrder
    refine ⟨(List.suffix_cons t rest).trans hsuffix, fun _ id => ?_⟩
    simpa [hat, MainPoint.running] using h.running (by simp [hat]) id
  | allJoined hat =>
    refine ⟨List.suffix_refl _, fun _ id => ?_⟩
    simpa [hat, MainPoint.running, mem_serverIds id] using h.running (by simp [hat]) id
  | @stop id rest fails w hat hstop hidle =>
    obtain ⟨-, rfl⟩ := WebSocketServer.stop_eq_ok hstop
    have hsuffix : id :: rest <:+ serverIds := (congrArg MainPoint.InOrder hat).mp h.inOrder
    have hnotMem : id ∉ rest := (List.nodup_cons.mp (nodup_serverIds.sublist hsuffix.sublist)).1
    refine ⟨(List.suffix_cons id rest).trans hsuffix, fun _ id' => ?_⟩
    have hold := h.running (by simp [hat]) id'
    by_cases hid : id' = id
    · subst hid
      simp [setWebsocket, MainPoint.running, hnotMem]
    · simpa [setWebsocket, hid, hat, MainPoint.running] using hold
  | stopThrows => exact Phased.unwound s
  | allStopped hat =>
    refine ⟨trivial, fun _ id => ?_⟩
    simpa [hat, MainPoint.running] using h.running (by simp [hat]) id
  | receive hborn hthread hstep =>
    refine h.of_eq rfl (running_setWebsocket ?_)
    exact ReceivePacket.running_step hstep
  | opened => exact h.of_eq rfl (running_setWebsocket (WebSocketServer.running_opened _ _ _))
  | closed => exact h.of_eq rfl (running_setWebsocket (WebSocketServer.running_closed _ _))
  | _ => exact h.of_eq rfl fun _ => rfl

/-! ### Threads that have not started or have returned -/

/-- A thread that has returned takes no step and does not come back. -/
theorem Trans.returned_mono (h : Trans s a s') {t : ThreadId} (ht : s.returned t = true) :
    s'.returned t = true := by
  cases t with
  | socketMain =>
    have hat : s.socketMain = .returned := eq_of_beq ht
    cases h with
    | spawnManage _ hat' | allManaged _ hat' | joinManage _ hat' | socketMainReturns _ hat' =>
      rw [hat] at hat'
      cases hat'
    | _ => exact ht
  | processFrame e =>
    have hat : s.process.get e = .done := eq_of_beq ht
    cases h with
    | @processTest e' _ hloop | @process e' _ _ _ hloop =>
      have hne : e ≠ e' := by
        rintro rfl
        rw [hat] at hloop
        cases hloop
      exact beq_iff_eq.mpr ((Sided.get_set_of_ne _ _ hne).trans hat)
    | _ => exact ht
  | sendFrame e =>
    have hat : s.send.get e = .done := eq_of_beq ht
    cases h with
    | @sendTest e' _ hloop | @send e' _ _ _ hloop =>
      have hne : e ≠ e' := by
        rintro rfl
        rw [hat] at hloop
        cases hloop
      exact beq_iff_eq.mpr ((Sided.get_set_of_ne _ _ hne).trans hat)
    | _ => exact ht
  | receivePacket st =>
    have hat : s.receive st = .exited := eq_of_beq ht
    cases h with
    | @receive st' b r _ hthread hstep =>
      have hne : st ≠ st' := by
        rintro rfl
        cases ReceivePacket.trans_of_step hstep with
        | opened | closed | shutdown => cases hthread
        | _ hat' => exact absurd (hat.symm.trans hat') (by simp)
      exact beq_iff_eq.mpr ((Function.update_of_ne hne _ _).trans hat)
    | _ => exact ht
  | encodeStats =>
    have hat : s.stats.point = .returned := eq_of_beq ht
    cases h with
    | stats _ hstats =>
      cases hstats with
      | _ hat' => exact absurd (hat.symm.trans hat') (by simp)
    | _ => exact ht

/-- A thread that has been spawned stays spawned. -/
theorem Trans.born_mono (h : Trans s a s') (hphased : s.Phased) {t : ThreadId}
    (ht : s.born t = true) : s'.born t = true := by
  unfold born at ht ⊢
  cases h with
  | start hat | startThrows hat | allStarted hat =>
    rw [hat] at ht
    cases ht
  | spawn hat =>
    rw [hat, decide_eq_true_iff] at ht
    exact decide_eq_true (fun hmem => ht (List.mem_cons_of_mem _ hmem))
  | @stopThrows id rest fails e hat =>
    have hrunning : (s.websocket id).running = true := by
      rw [hphased.running (by simp [hat]), hat]
      simp [MainPoint.running]
    rw [unwound_eq_terminated hrunning]
  | allSpawned | join | allJoined | stop | allStopped => rfl
  | _ => exact ht

/-- A thread that has not been spawned is where it starts. -/
structure Fresh (s : Program κ) : Prop where
  socketMain : s.socketMain ≠ .spawning 0 → s.born .socketMain = true
  clients : s.clientLoops ≠ [] → s.socketMain ≠ .spawning 0
  process : ∀ e, s.process.get e ≠ .test → s.born (.processFrame e) = true
  send : ∀ e, s.send.get e ≠ .test → s.born (.sendFrame e) = true
  receive : ∀ st, s.receive st ≠ .loopHead → s.born (.receivePacket st) = true

omit [DecidableEq κ] in
theorem fresh_init (info : CodecInitInfo) (renderers : List (List UInt8)) :
    (init info renderers : Program κ).Fresh where
  socketMain := fun h => absurd rfl h
  clients := fun h => absurd rfl h
  process := fun e h => absurd (by cases e <;> rfl) h
  send := fun e h => absurd (by cases e <;> rfl) h
  receive := fun _ h => absurd rfl h

/-- Every step keeps the threads that have not been spawned where they start. -/
theorem Fresh.step (h : s.Fresh) (hphased : s.Phased) (ht : Trans s a s') : s'.Fresh := by
  have hmono : ∀ t, s.born t = true → s'.born t = true := fun t => ht.born_mono hphased
  refine ⟨fun hmoved => hmono _ ?_, fun hmoved => ?_, fun e hmoved => hmono _ ?_,
    fun e hmoved => hmono _ ?_, fun st hmoved => hmono _ ?_⟩
  · cases ht with
    | spawnManage hborn | allManaged hborn | joinManage hborn | socketMainReturns hborn =>
      exact hborn
    | _ => exact h.socketMain hmoved
  · cases ht with
    | spawnManage | allManaged | joinManage | socketMainReturns => simp
    | connect hmanaged =>
      intro hat
      have hat : s.socketMain = .spawning 0 := hat
      simp [managed, hat] at hmanaged
    | clientTest | client => exact h.clients fun hnil => hmoved (by simp [hnil])
    | _ => exact h.clients hmoved
  · cases ht with
    | @processTest e' hborn hloop =>
      by_cases he : e = e'
      · exact he ▸ hborn
      · exact h.process e fun hat => hmoved ((Sided.get_set_of_ne _ _ he).trans hat)
    | @process e' _ _ _ hloop =>
      by_cases he : e = e'
      · exact h.process e (by simp [he, hloop])
      · exact h.process e fun hat => hmoved ((Sided.get_set_of_ne _ _ he).trans hat)
    | _ => exact h.process e hmoved
  · cases ht with
    | @sendTest e' hborn hloop =>
      by_cases he : e = e'
      · exact he ▸ hborn
      · exact h.send e fun hat => hmoved ((Sided.get_set_of_ne _ _ he).trans hat)
    | @send e' _ _ _ hloop =>
      by_cases he : e = e'
      · exact h.send e (by simp [he, hloop])
      · exact h.send e fun hat => hmoved ((Sided.get_set_of_ne _ _ he).trans hat)
    | _ => exact h.send e hmoved
  · cases ht with
    | @receive st' _ _ hborn =>
      by_cases hst : st = st'
      · exact hst ▸ hborn
      · exact h.receive st fun hat => hmoved ((Function.update_of_ne hst _ _).trans hat)
    | _ => exact h.receive st hmoved

/-! ### Joining -/

/-- `main` has joined only threads that have returned, and `socket_main_thread` as well. -/
structure Joined (s : Program κ) : Prop where
  threads : ∀ t, s.main.joined t = true → s.returned t = true
  manages : ∀ i t, s.manages[i]? = some t → s.socketMain.joined i = true →
    t.manage.point = .returned
  count : ∀ n, s.socketMain = .spawning n ∨ s.socketMain = .joining n → n ≤ s.manages.length

omit [DecidableEq κ] in
theorem joined_init (info : CodecInitInfo) (renderers : List (List UInt8)) :
    (init info renderers : Program κ).Joined := by
  refine ⟨fun _ h => Bool.noConfusion h, fun _ _ _ h => Bool.noConfusion h, ?_⟩
  rintro n (h | h)
  · cases h
    exact Nat.zero_le _
  · cases h

/-- Every step joins only what has returned. -/
theorem Joined.step (h : s.Joined) (ht : Trans s a s') : s'.Joined := by
  refine ⟨fun t hjoined => ?_, fun i t hi hjoined => ?_, fun n hn => ?_⟩
  · by_cases hbefore : s.main.joined t = true
    · exact ht.returned_mono (h.threads t hbefore)
    · cases ht with
      | @join t' rest hat hreturned =>
        have hmem : t ∈ t' :: rest :=
          not_not.mp fun hnot => hbefore (by rw [hat]; exact decide_eq_true hnot)
        have hrest : t ∉ rest := by simpa [MainPoint.joined] using hjoined
        obtain rfl := (List.mem_cons.mp hmem).resolve_right hrest
        exact hreturned
      | allSpawned hat =>
        have hmem : t ∈ threadIds := by
          rcases t with _ | ⟨_ | _⟩ | ⟨⟨_ | _⟩, _ | _⟩ | ⟨_ | _⟩ | _ <;> decide
        simp [MainPoint.joined, hmem] at hjoined
      | startThrows | stopThrows =>
        have hnone : s.unwound.joined t = false := by
          unfold unwound
          split <;> rfl
        exact absurd (hjoined.symm.trans hnone) (by simp)
      | allJoined hat | stop hat | allStopped hat =>
        rw [hat] at hbefore
        simp [MainPoint.joined] at hbefore
      | start | allStarted | spawn => cases hjoined
      | _ => exact absurd hjoined hbefore
  · by_cases ha : ∃ j b, a = .manage j b
    · obtain ⟨j, b, rfl⟩ := ha
      have hmain : s'.socketMain = s.socketMain := by
        cases ht <;> rfl
      obtain ⟨t₁, t', ht₁, hset, -, hm⟩ := ht.of_manage
      have hlt := (List.getElem?_eq_some_iff.mp ht₁).1
      rw [hmain] at hjoined
      by_cases hji : j = i
      · subst hji
        have hreturned := h.manages j t₁ ht₁ hjoined
        exact absurd hm (Manage.step_of_returned hreturned b ▸ by simp)
      · rw [hset, List.getElem?_set_ne hji] at hi
        exact h.manages i t hi hjoined
    · rw [ht.manages_eq fun j b heq => ha ⟨j, b, heq⟩] at hi
      cases ht with
      | spawnManage | allManaged => simp [SocketMainPoint.joined] at hjoined
      | @joinManage n t' hborn hat ht' hreturned =>
        have hle : i < n + 1 := by simpa [SocketMainPoint.joined] using hjoined
        rcases Nat.lt_succ_iff_lt_or_eq.mp hle with hlt | rfl
        · exact h.manages i t hi (by simpa [hat, SocketMainPoint.joined] using hlt)
        · obtain rfl : t' = t := Option.some.inj (ht'.symm.trans hi)
          exact hreturned
      | @socketMainReturns n hborn hat heq =>
        have hlt := (List.getElem?_eq_some_iff.mp hi).1
        exact h.manages i t hi (by simpa [hat, SocketMainPoint.joined, heq] using hlt)
      | connect | clientCloses | manage => exact absurd ⟨_, _, rfl⟩ ha
      | _ => exact h.manages i t hi hjoined
  · cases ht with
    | @spawnManage k hborn hat hlt =>
      have hk : k + 1 = n := by simpa using hn
      exact hk ▸ hlt
    | allManaged =>
      have hk : 0 = n := by simpa using hn
      exact hk ▸ Nat.zero_le _
    | @joinManage k t hborn hat ht hreturned =>
      have hk : k + 1 = n := by simpa using hn
      exact hk ▸ (List.getElem?_eq_some_iff.mp ht).1
    | socketMainReturns => simp at hn
    | connect | clientCloses | manage =>
      rw [List.length_set]
      exact h.count n hn
    | _ => exact h.count n hn

/-! ### Client threads -/

/-- Every client thread that has not left its loop is waited for by a `socket_manage_thread`, and
these wait for nothing else. -/
structure Attended (s : Program κ) : Prop where
  length : s.clientLoops.length = s.server.clients.length
  running : ∀ (i : ℕ) (t : ManageThread), s.manages[i]? = some t →
    (t.client.isSome = true ↔ ∃ fd, t.manage.point = .running fd)
  known : ∀ (i j : ℕ) (t : ManageThread), s.manages[i]? = some t → t.client = some j →
    j < s.clientLoops.length
  owner : ∀ (j : ℕ) (l : LoopPoint), s.clientLoops[j]? = some l → l ≠ .done →
    ∃ (i : ℕ) (t : ManageThread), s.manages[i]? = some t ∧ t.client = some j
  unclosed : ∀ (j : ℕ) (l : LoopPoint) (c : Client), s.clientLoops[j]? = some l → l ≠ .done →
    s.server.clients[j]? = some c → c.point ≠ .closed

omit [DecidableEq κ] in
theorem attended_init (info : CodecInitInfo) (renderers : List (List UInt8)) :
    (init info renderers : Program κ).Attended where
  length := rfl
  running := by
    intro i t hi
    simp only [init, List.getElem?_map, Option.map_eq_some_iff] at hi
    obtain ⟨renderer, -, rfl⟩ := hi
    simp [Manage.init]
  known := by
    intro i j t hi hj
    simp only [init, List.getElem?_map, Option.map_eq_some_iff] at hi
    obtain ⟨renderer, -, rfl⟩ := hi
    cases hj
  owner := by simp [init]
  unclosed := by simp [init]

omit [DecidableEq κ] in
/-- A step that touches neither the client threads nor those that wait for them. -/
theorem Attended.of_eq (h : s.Attended) (hloops : s'.clientLoops = s.clientLoops)
    (hclients : s'.server.clients = s.server.clients) (hmanages : s'.manages = s.manages) :
    s'.Attended := by
  refine ⟨?_, ?_, ?_, ?_, ?_⟩
  · rw [hloops, hclients]
    exact h.length
  · rw [hmanages]
    exact h.running
  · rw [hloops, hmanages]
    exact h.known
  · rw [hloops, hmanages]
    exact h.owner
  · rw [hloops, hclients]
    exact h.unclosed

omit [DecidableEq κ] in
/-- A client thread moves in its loop. -/
theorem Attended.of_loop (h : s.Attended) {j : ℕ} {l l' : LoopPoint}
    (hj : s.clientLoops[j]? = some l) (hl : l ≠ .done)
    (hloops : s'.clientLoops = s.clientLoops.set j l')
    (hlength : s'.server.clients.length = s.server.clients.length)
    (hothers : ∀ k, j ≠ k → s'.server.clients[k]? = s.server.clients[k]?)
    (hunclosed : ∀ c, s'.server.clients[j]? = some c → l' ≠ .done → c.point ≠ .closed)
    (hmanages : s'.manages = s.manages) : s'.Attended := by
  have hlt := (List.getElem?_eq_some_iff.mp hj).1
  refine ⟨?_, ?_, ?_, ?_, ?_⟩
  · rw [hloops, hlength, List.length_set]
    exact h.length
  · rw [hmanages]
    exact h.running
  · rw [hloops, hmanages, List.length_set]
    exact h.known
  · intro k l₁ hk hne
    rw [hmanages]
    by_cases hkj : j = k
    · subst hkj
      exact h.owner j l hj hl
    · rw [hloops, List.getElem?_set_ne hkj] at hk
      exact h.owner k l₁ hk hne
  · intro k l₁ c hk hne hc
    by_cases hkj : j = k
    · subst hkj
      rw [hloops, List.getElem?_set_self hlt] at hk
      exact hunclosed c hc (Option.some.inj hk ▸ hne)
    · rw [hloops, List.getElem?_set_ne hkj] at hk
      rw [hothers k hkj] at hc
      exact h.unclosed k l₁ c hk hne hc

omit [DecidableEq κ] in
/-- A `socket_manage_thread` moves. -/
theorem Attended.of_manage (h : s.Attended) {i : ℕ} {t t' : ManageThread}
    (ht : s.manages[i]? = some t) (hmanages : s'.manages = s.manages.set i t')
    (hrunning : t'.client.isSome = true ↔ ∃ fd, t'.manage.point = .running fd)
    (hlength : s'.clientLoops.length = s'.server.clients.length)
    (hgrows : s.clientLoops.length ≤ s'.clientLoops.length)
    (hknown : ∀ j, t'.client = some j → j < s'.clientLoops.length)
    (howner : ∀ (j : ℕ) (l : LoopPoint), s'.clientLoops[j]? = some l → l ≠ .done →
      t'.client = some j ∨ s.clientLoops[j]? = some l ∧ t.client ≠ some j)
    (hunclosed : ∀ (j : ℕ) (l : LoopPoint) (c : Client), s'.clientLoops[j]? = some l →
      l ≠ .done → s'.server.clients[j]? = some c → c.point ≠ .closed) : s'.Attended := by
  have hlt := (List.getElem?_eq_some_iff.mp ht).1
  refine ⟨hlength, ?_, ?_, ?_, hunclosed⟩
  · intro k t₁ hk
    rw [hmanages] at hk
    by_cases hik : i = k
    · subst hik
      rw [List.getElem?_set_self hlt] at hk
      exact Option.some.inj hk ▸ hrunning
    · rw [List.getElem?_set_ne hik] at hk
      exact h.running k t₁ hk
  · intro k j t₁ hk hj
    rw [hmanages] at hk
    by_cases hik : i = k
    · subst hik
      rw [List.getElem?_set_self hlt] at hk
      exact hknown j (Option.some.inj hk ▸ hj)
    · rw [List.getElem?_set_ne hik] at hk
      exact Nat.lt_of_lt_of_le (h.known k j t₁ hk hj) hgrows
  · intro j l hj hne
    rw [hmanages]
    rcases howner j l hj hne with hnew | ⟨hold, hother⟩
    · exact ⟨i, t', List.getElem?_set_self hlt, hnew⟩
    · obtain ⟨k, t₁, hk, hclient⟩ := h.owner j l hold hne
      have hik : i ≠ k := by
        rintro rfl
        obtain rfl : t = t₁ := Option.some.inj (ht.symm.trans hk)
        exact hother hclient
      exact ⟨k, t₁, (List.getElem?_set_ne hik).trans hk, hclient⟩

/-- Every step keeps the client threads attended. -/
theorem Attended.step (h : s.Attended) (ht : Trans s a s') : s'.Attended := by
  cases ht with
  | @connect i t m ret server hmanaged ht hm hret hserver =>
    obtain ⟨hbefore, hafter⟩ := (Manage.trans_of_step hm).of_connect hret
    obtain rfl := Server.step_connect_eq hserver
    have hnone : t.client = none := by
      refine Option.eq_none_iff_forall_not_mem.mpr fun j hj => ?_
      obtain ⟨fd, hfd⟩ := (h.running i t ht).mp (by simp [Option.mem_def.mp hj])
      exact hbefore fd hfd
    refine h.of_manage ht rfl (iff_of_true rfl hafter) ?_ ?_ ?_ ?_ ?_
    · simp [h.length]
    · simp
    · rintro j ⟨⟩
      simp [h.length]
    · intro j l hj hne
      rcases Nat.lt_or_ge j s.clientLoops.length with hlt | hge
      · refine Or.inr ⟨(List.getElem?_append_left hlt).symm.trans hj, by simp [hnone]⟩
      · have hlt : j < (s.clientLoops ++ [LoopPoint.test]).length :=
          (List.getElem?_eq_some_iff.mp hj).1
        rw [List.length_append, List.length_singleton] at hlt
        have hlast : j = s.server.clients.length := by
          have := h.length
          omega
        exact Or.inl (by rw [hlast])
    · intro j l c hj hne hc
      have hlen := h.length
      rcases Nat.lt_or_ge j s.clientLoops.length with hlt | hge
      · refine h.unclosed j l c ((List.getElem?_append_left hlt).symm.trans hj) hne ?_
        exact (List.getElem?_append_left (hlen ▸ hlt)).symm.trans hc
      · have hnew : [Client.start][j - s.server.clients.length]? = some c :=
          (List.getElem?_append_right (hlen ▸ hge)).symm.trans hc
        rw [List.mem_singleton.mp (List.mem_of_getElem? hnew)]
        simp [Client.start]
  | @clientCloses i j t m hmanaged ht hm hj hdone =>
    have hafter := (Manage.trans_of_step hm).of_clientCloses
    refine h.of_manage ht rfl ?_ h.length (Nat.le_refl _) (fun _ hj => by cases hj) ?_ h.unclosed
    · simp [hafter]
    · intro k l hk hne
      refine Or.inr ⟨hk, fun hclient => hne ?_⟩
      obtain rfl : j = k := Option.some.inj (hj.symm.trans hclient)
      exact Option.some.inj (hk.symm.trans hdone)
  | @manage i t m b hmanaged ht hallows hm hcloses hconnect =>
    obtain ⟨hbefore, hafter⟩ := (Manage.trans_of_step hm).not_running hcloses hconnect
    have hnone : t.client = none := by
      refine Option.eq_none_iff_forall_not_mem.mpr fun j hj => ?_
      obtain ⟨fd, hfd⟩ := (h.running i t ht).mp (by simp [Option.mem_def.mp hj])
      exact hbefore fd hfd
    refine h.of_manage ht rfl ?_ h.length (Nat.le_refl _) (h.known i · t ht)
      (fun j l hj _ => Or.inr ⟨hj, by simp [hnone]⟩) h.unclosed
    simp [hnone, hafter]
  | @clientTest j hloop =>
    exact h.of_loop hloop (by simp) rfl rfl (fun _ _ => rfl)
      (fun c hc _ => h.unclosed j .test c hloop (by simp) hc) rfl
  | @client j c b server hloop hserver hc =>
    obtain ⟨c', hclients⟩ := Server.clients_of_step_client hserver
    refine h.of_loop hloop (by simp) rfl ?_ ?_ ?_ rfl
    · simp [hclients]
    · intro k hk
      simp [hclients, List.getElem?_set_ne hk]
    · intro c₁ hc₁ hne hclosed
      obtain rfl : c = c₁ := Option.some.inj (hc.symm.trans hc₁)
      rw [hclosed] at hne
      exact hne rfl
  | process hsend hloop hserver | send hsend hloop hserver =>
    exact h.of_eq rfl (Server.clients_of_step_pipe hserver) rfl
  | control hrunning hserver => exact h.of_eq rfl (Server.clients_of_step_control hserver) rfl
  | _ => exact h.of_eq rfl rfl rfl

/-! ### Whole runs -/

/-- What holds in every state of a run. -/
structure Ordered (s : Program κ) : Prop where
  phased : s.Phased
  fresh : s.Fresh
  joined : s.Joined
  attended : s.Attended

/-- Every step keeps the invariant. -/
theorem Ordered.step (h : s.Ordered) (ht : Trans s a s') : s'.Ordered :=
  ⟨h.phased.step ht, h.fresh.step h.phased ht, h.joined.step ht, h.attended.step ht⟩

/-- The invariant in every run. -/
theorem ordered_run {info : CodecInitInfo} {renderers : List (List UInt8)}
    {as : List (ProgramAction κ)} (hrun : step.run (init info renderers) as = some s) :
    s.Ordered :=
  Machine.run_invariant (I := Ordered)
    ⟨phased_init _ _, fresh_init _ _, joined_init _ _, attended_init _ _⟩
    (fun _ _ _ h hstep => h.step (trans_of_step hstep).1) hrun

/-- All threads that `main` and `socket_main_thread` have spawned have returned, and no connection
is left open by a client thread.  The threads of the servers may still run, and with them the
handlers of the camera control. -/
structure Quiescent (s : Program κ) : Prop where
  threads : ∀ t, s.returned t = true
  manages : ∀ t ∈ s.manages, t.manage.point = .returned ∧ t.client = none
  clients : ∀ l ∈ s.clientLoops, l = .done

omit [DecidableEq κ] in
/-- When all threads have been joined, all of them have returned. -/
theorem Ordered.quiescent (h : s.Ordered) (hmain : ∀ t, s.main.joined t = true) : s.Quiescent := by
  have hthreads : ∀ t, s.returned t = true := fun t => h.joined.threads t (hmain t)
  have hsocket : s.socketMain = .returned := eq_of_beq (hthreads .socketMain)
  have hmanages : ∀ (i : ℕ) (t : ManageThread), s.manages[i]? = some t →
      t.manage.point = .returned ∧ t.client = none := by
    intro i t hi
    have hreturned := h.joined.manages i t hi (by rw [hsocket]; rfl)
    refine ⟨hreturned, ?_⟩
    cases hclient : t.client with
    | none => rfl
    | some j =>
      obtain ⟨fd, hfd⟩ := (h.attended.running i t hi).mp (by rw [hclient]; rfl)
      rw [hreturned] at hfd
      cases hfd
  refine ⟨hthreads, fun t ht => ?_, fun l hl => ?_⟩
  · obtain ⟨i, hi⟩ := List.mem_iff_getElem?.mp ht
    exact hmanages i t hi
  · obtain ⟨j, hj⟩ := List.mem_iff_getElem?.mp hl
    by_contra hne
    obtain ⟨i, t, hi, hclient⟩ := h.attended.owner j l hj hne
    rw [(hmanages i t hi).2] at hclient
    cases hclient

/-- Before `main` spawns them, no thread takes a step. -/
theorem Ordered.not_thread_of_unborn (h : s.Ordered) (hunborn : ∀ t, s.born t = false)
    (ht : Trans s a s') : a.isThread = false := by
  have hnot : ∀ t, ¬s.born t = true := fun t => Bool.eq_false_iff.mp (hunborn t)
  have hsocket : s.socketMain = .spawning 0 :=
    not_not.mp fun hmoved => hnot _ (h.fresh.socketMain hmoved)
  have hmanaged : ∀ i, ¬s.managed i = true := by simp [managed, hsocket]
  have hclients : s.clientLoops = [] := not_not.mp fun hne => h.fresh.clients hne hsocket
  cases ht with
  | spawnManage hborn | allManaged hborn | joinManage hborn | socketMainReturns hborn
  | processTest hborn | sendTest hborn | receive hborn | stats hborn => exact absurd hborn (hnot _)
  | connect hm | clientCloses hm | manage hm => exact absurd hm (hmanaged _)
  | clientTest hloop | client hloop => simp [hclients] at hloop
  | @process e _ _ _ hloop => exact absurd (h.fresh.process e (by simp [hloop])) (hnot _)
  | @send e _ _ _ hloop => exact absurd (h.fresh.send e (by simp [hloop])) (hnot _)
  | _ => rfl

/-- When all threads have returned, none takes a step. -/
theorem Quiescent.not_thread (h : s.Quiescent) (ht : Trans s a s') : a.isThread = false := by
  have hprocess : ∀ e, s.process.get e = .done := fun e => eq_of_beq (h.threads (.processFrame e))
  have hsend : ∀ e, s.send.get e = .done := fun e => eq_of_beq (h.threads (.sendFrame e))
  have hreceive : ∀ st, s.receive st = .exited :=
    fun st => eq_of_beq (h.threads (.receivePacket st))
  have hstats : s.stats.point = .returned := eq_of_beq (h.threads .encodeStats)
  have hsocket : s.socketMain = .returned := eq_of_beq (h.threads .socketMain)
  cases ht with
  | spawnManage _ hat | allManaged _ hat | joinManage _ hat | socketMainReturns _ hat =>
    rw [hsocket] at hat
    cases hat
  | connect _ hi hm | clientCloses _ hi hm | manage _ hi _ hm =>
    have hreturned := (h.manages _ (List.mem_of_getElem? hi)).1
    rw [Manage.step_of_returned hreturned] at hm
    cases hm
  | clientTest hloop | client hloop =>
    exact absurd (h.clients _ (List.mem_of_getElem? hloop)) (by simp)
  | @processTest e _ hloop | @process e _ _ _ hloop =>
    rw [hprocess e] at hloop
    cases hloop
  | @sendTest e _ hloop | @send e _ _ _ hloop =>
    rw [hsend e] at hloop
    cases hloop
  | @receive st b r _ hthread hstep =>
    cases ReceivePacket.trans_of_step hstep with
    | opened | closed | shutdown => cases hthread
    | _ hat => exact absurd ((hreceive st).symm.trans hat) (by simp)
  | stats _ hstep =>
    cases hstep with
    | _ hat => exact absurd (hstats.symm.trans hat) (by simp)
  | _ => rfl

omit [DecidableEq κ] in
/-- From the first stop on all threads have returned. -/
theorem Ordered.quiescent_of_stopping (h : s.Ordered)
    (hat : (∃ rest, s.main = .stopping rest) ∨ s.main = .returned) : s.Quiescent := by
  rcases hat with ⟨rest, hat⟩ | hat <;> exact h.quiescent (by simp [hat, MainPoint.joined])

/-- Every step of a thread is taken while all servers are running. -/
theorem Ordered.running_of_thread (h : s.Ordered) (hlive : s.aborted = false) (ht : Trans s a s')
    (hthread : a.isThread = true) (id : ServerId) : (s.websocket id).running = true := by
  have hrunning := h.phased.running (by rintro hat; simp [aborted, hat] at hlive) id
  have hbusy : ¬s.Quiescent := fun hq => by simp [hq.not_thread ht] at hthread
  cases hat : s.main with
  | spawning | joining => rw [hrunning, hat]; rfl
  | starting | failed =>
    have hunborn : ∀ t, s.born t = false := by simp [born, hat]
    exact absurd (hthread.symm.trans (h.not_thread_of_unborn hunborn ht)) (by simp)
  | stopping rest => exact absurd (h.quiescent_of_stopping (Or.inl ⟨rest, hat⟩)) hbusy
  | returned => exact absurd (h.quiescent_of_stopping (Or.inr hat)) hbusy
  | terminated => simp [aborted, hat] at hlive

/-- For any number of renderers and in every run of the program, whatever the threads, the signal
and the peers do: `main` starts each server while it is not running and stops it while it is; every
step of a thread is taken while all servers are running, so that no packet meets a stopped one; and
from the moment `main` stops the first server nothing but `main` and the servers is left running,
every renderer has been given up and every connection closed. -/
theorem servers_outlive_threads {info : CodecInitInfo} {renderers : List (List UInt8)}
    {as : List (ProgramAction κ)} (hrun : step.run (init info renderers) as = some s) :
    (∀ id rest, s.main = .starting (id :: rest) → (s.websocket id).running = false) ∧
    (∀ id rest, s.main = .stopping (id :: rest) → (s.websocket id).running = true) ∧
    (∀ a s', step s a = some s' → a.isThread = true → ∀ id, (s.websocket id).running = true) ∧
    ((∃ rest, s.main = .stopping rest) ∨ s.main = .returned → s.Quiescent) := by
  have h := ordered_run hrun
  refine ⟨fun id rest hat => ?_, fun id rest hat => ?_, fun a s' hstep hthread id => ?_,
    h.quiescent_of_stopping⟩
  · simpa [hat, MainPoint.running] using h.phased.running (by simp [hat]) id
  · simpa [hat, MainPoint.running] using h.phased.running (by simp [hat]) id
  · obtain ⟨ht, hlive⟩ := trans_of_step hstep
    exact h.running_of_thread hlive ht hthread id

/-- The program is started with one renderer, which it does not reach, and is interrupted. -/
def interrupted : List (ProgramAction ℕ) :=
  List.flatten [List.replicate 5 (.main (.start none)), [.main .proceed],
    List.replicate 10 (.main .spawn), [.main .proceed, .socketMain .spawn, .socketMain .proceed,
      .manage 0 .parse, .manage 0 (.socket (some 5)), .signal, .manage 0 (.connect (-1)),
      .manage 0 .exit, .socketMain .join, .socketMain .proceed, .processTest true,
      .processTest false, .sendTest true, .sendTest false, .stats .test],
    streams.map fun st => .receive st (.enter true), List.replicate 10 (.main .join),
    [.main .proceed], List.replicate 5 (.main (.stop fun _ => none)), [.main .proceed]]

/-- When `main` has returned, all threads have. -/
theorem servers_outlive_threads_interrupted :
    ∃ s, step.run (init defaultInitInfo [Manage.tenSevenThousand]) interrupted = some s ∧
      s.main = .returned ∧ s.Quiescent := by
  obtain ⟨s, hrun, hmain⟩ : ∃ s, step.run (init defaultInitInfo [Manage.tenSevenThousand])
      interrupted = some s ∧ s.main = .returned := ⟨_, rfl, rfl⟩
  exact ⟨s, hrun, hmain, (servers_outlive_threads hrun).2.2.2 (Or.inr hmain)⟩

end Program

end Ngp
