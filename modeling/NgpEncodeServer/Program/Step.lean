import NgpEncodeServer.Program.State
import NgpEncodeServer.Encode.Viewers
import NgpEncodeServer.Foundation.Progress

/-!
# The steps of the program

`Program.Trans` lists what a step of the program can do, with the guards spelled out;
`trans_of_step` is the only place where the step functions of the program are unfolded.  Seen from
the state that the client threads, the pipelines and the camera control share, a run of the program
is a run of `Server`, and seen from one renderer it is a run of `Manage`.
-/

namespace Ngp

namespace ProgramAction

variable {κ : Type*}

/-- What a step is for the machine of the client threads, the pipelines and the camera control. -/
def server : ProgramAction κ → Option Action
  | .manage _ (.connect ret) => if ret < 0 then none else some .connect
  | .client i a => some (.client i a)
  | .pipe e a => some (.pipe e a)
  | .control a => some (.control a)
  | _ => none

/-- What a step is for the `socket_manage_thread` of one renderer. -/
def manageAt (i : ℕ) : ProgramAction κ → Option ManageAction
  | .manage j a => if j = i then some a else none
  | _ => none

end ProgramAction

namespace Program

variable {κ : Type*} [DecidableEq κ]

/-- The steps of the program. -/
inductive Trans (s : Program κ) : ProgramAction κ → Program κ → Prop
  | signal : Trans s .signal { s with shutdownRequested := true }
  | start {id : ServerId} {rest : List ServerId} (hat : s.main = .starting (id :: rest))
      (hstopped : (s.websocket id).running = false) :
      Trans s (.main (.start none))
        { s.setWebsocket id { s.websocket id with running := true } with main := .starting rest }
  | startThrows {id : ServerId} {rest : List ServerId} {listen : Option String}
      (hat : s.main = .starting (id :: rest))
      (hthrow : (s.websocket id).running = true ∨ listen ≠ none) :
      Trans s (.main (.start listen)) { s with main := s.unwound }
  | allStarted (hat : s.main = .starting []) :
      Trans s (.main .proceed) { s with main := .spawning threadIds }
  | spawn {t : ThreadId} {rest : List ThreadId} (hat : s.main = .spawning (t :: rest)) :
      Trans s (.main .spawn) { s with main := .spawning rest }
  | allSpawned (hat : s.main = .spawning []) :
      Trans s (.main .proceed) { s with main := .joining threadIds }
  | join {t : ThreadId} {rest : List ThreadId} (hat : s.main = .joining (t :: rest))
      (hreturned : s.returned t = true) : Trans s (.main .join) { s with main := .joining rest }
  | allJoined (hat : s.main = .joining []) :
      Trans s (.main .proceed) { s with main := .stopping serverIds }
  | stop {id : ServerId} {rest : List ServerId} {fails : κ → Option String}
      {w : WebSocketServer κ} (hat : s.main = .stopping (id :: rest))
      (hstop : (s.websocket id).stop fails = (w, .ok ()))
      (hidle : id = .cameraControl → s.server.control = .idle) :
      Trans s (.main (.stop fails)) { s.setWebsocket id w with main := .stopping rest }
  | stopThrows {id : ServerId} {rest : List ServerId} {fails : κ → Option String} {e : Exn}
      (hat : s.main = .stopping (id :: rest))
      (hthrow : ((s.websocket id).stop fails).2 = .error e) :
      Trans s (.main (.stop fails)) { s with main := s.unwound }
  | allStopped (hat : s.main = .stopping []) :
      Trans s (.main .proceed) { s with main := .returned }
  | spawnManage {n : ℕ} (hborn : s.born .socketMain = true) (hat : s.socketMain = .spawning n)
      (hlt : n < s.manages.length) :
      Trans s (.socketMain .spawn) { s with socketMain := .spawning (n + 1) }
  | allManaged {n : ℕ} (hborn : s.born .socketMain = true) (hat : s.socketMain = .spawning n)
      (heq : n = s.manages.length) :
      Trans s (.socketMain .proceed) { s with socketMain := .joining 0 }
  | joinManage {n : ℕ} {t : ManageThread} (hborn : s.born .socketMain = true)
      (hat : s.socketMain = .joining n) (ht : s.manages[n]? = some t)
      (hreturned : t.manage.point = .returned) :
      Trans s (.socketMain .join) { s with socketMain := .joining (n + 1) }
  | socketMainReturns {n : ℕ} (hborn : s.born .socketMain = true) (hat : s.socketMain = .joining n)
      (heq : n = s.manages.length) :
      Trans s (.socketMain .proceed) { s with socketMain := .returned }
  | connect {i : ℕ} {t : ManageThread} {m : Manage} {ret : ℤ} {server : Server}
      (hmanaged : s.managed i = true) (ht : s.manages[i]? = some t)
      (hm : Manage.step t.renderer t.manage (.connect ret) = some m) (hret : ¬ret < 0)
      (hserver : Server.step s.server .connect = some server) :
      Trans s (.manage i (.connect ret)) { s with
        manages := s.manages.set i { t with manage := m, client := some s.server.clients.length }
        server := server
        clientLoops := s.clientLoops ++ [.test] }
  | clientCloses {i j : ℕ} {t : ManageThread} {m : Manage} (hmanaged : s.managed i = true)
      (ht : s.manages[i]? = some t) (hm : Manage.step t.renderer t.manage .clientCloses = some m)
      (hj : t.client = some j) (hdone : s.clientLoops[j]? = some .done) :
      Trans s (.manage i .clientCloses)
        { s with manages := s.manages.set i { t with manage := m, client := none } }
  | manage {i : ℕ} {t : ManageThread} {m : Manage} {a : ManageAction}
      (hmanaged : s.managed i = true) (ht : s.manages[i]? = some t) (hallows : s.allows t a = true)
      (hm : Manage.step t.renderer t.manage a = some m) (hcloses : a ≠ .clientCloses)
      (hconnect : ∀ ret, a = .connect ret → ret < 0) :
      Trans s (.manage i a) { s with manages := s.manages.set i { t with manage := m } }
  | clientTest {i : ℕ} (hloop : s.clientLoops[i]? = some .test) :
      Trans s (.clientTest i)
        { s with
          clientLoops := s.clientLoops.set i (if s.shutdownRequested then .done else .body) }
  | client {i : ℕ} {c : Client} {a : ClientAction} {server : Server}
      (hloop : s.clientLoops[i]? = some .body)
      (hserver : Server.step s.server (.client i a) = some server)
      (hc : server.clients[i]? = some c) :
      Trans s (.client i a)
        { s with server := server, clientLoops := s.clientLoops.set i c.point.loopPoint }
  | processTest {e : Bool} (hborn : s.born (.processFrame e) = true)
      (hloop : s.process.get e = .test) :
      Trans s (.processTest e)
        { s with process := s.process.set e (if s.shutdownRequested then .done else .body) }
  | sendTest {e : Bool} (hborn : s.born (.sendFrame e) = true) (hloop : s.send.get e = .test) :
      Trans s (.sendTest e)
        { s with send := s.send.set e (if s.shutdownRequested then .done else .body) }
  | process {e : Bool} {a : PipeAction} {server : Server} (hsend : a.isSend = false)
      (hloop : s.process.get e = .body) (hserver : Server.step s.server (.pipe e a) = some server) :
      Trans s (.pipe e a) { s with
        server := server, process := s.process.set e (server.pipe.get e).process.loopPoint }
  | send {e : Bool} {a : PipeAction} {server : Server} (hsend : a.isSend = true)
      (hloop : s.send.get e = .body) (hserver : Server.step s.server (.pipe e a) = some server) :
      Trans s (.pipe e a)
        { s with server := server, send := s.send.set e (server.pipe.get e).send.loopPoint }
  | receive {st : PacketStream} {a : ReceivePacketAction κ} {r : ReceivePacket κ}
      (hborn : s.born (.receivePacket st) = true) (hthread : a.isThread = true)
      (hstep : ReceivePacket.step (s.receivePacket st) a = some r) :
      Trans s (.receive st a)
        { s.setWebsocket (.packetStream st) r.server with
          shutdownRequested := r.shutdownRequested
          receive := Function.update s.receive st r.point }
  | stats {a : StatsAction} {t : EncodeStats} (hborn : s.born .encodeStats = true)
      (ht : EncodeStats.Trans s.shutdownRequested s.server.frameIndex s.stats a t) :
      Trans s (.stats a) { s with stats := t }
  | control {a : ControlAction} {server : Server}
      (hrunning : (s.websocket .cameraControl).running = true)
      (hserver : Server.step s.server (.control a) = some server) :
      Trans s (.control a) { s with server := server }
  | opened {id : ServerId} {position : ℕ} {hdl : κ} (hrunning : (s.websocket id).running = true) :
      Trans s (.opened id position hdl)
        (s.setWebsocket id ((s.websocket id).opened position hdl))
  | closed {id : ServerId} {hdl : κ} (hrunning : (s.websocket id).running = true) :
      Trans s (.closed id hdl) (s.setWebsocket id ((s.websocket id).closed hdl))

variable {s s' : Program κ} {a : ProgramAction κ}

/-- The test of a loop. -/
theorem LoopPoint.next_eq_some {flag : Bool} {l l' : LoopPoint} (h : l.next flag = some l') :
    l = .test ∧ l' = if flag then .done else .body := by
  cases l with
  | test => exact ⟨rfl, (Option.some.inj h).symm⟩
  | body | done => cases h

/-- Every step of `main` is one of the listed steps. -/
private theorem trans_of_mainStep {b : MainAction κ} (h : s.mainStep b = some s') :
    Trans s (.main b) s' := by
  unfold mainStep at h
  split at h
  · rename_i listen id rest hat
    dsimp only [WebSocketServer.startOn] at h
    split at h
    · rename_i hok
      split at hok
      · cases hok
      · rename_i hstopped
        cases listen with
        | some what => cases hok
        | none =>
          rw [if_neg hstopped] at h
          exact Option.some.inj h ▸ .start hat (Bool.eq_false_iff.mpr hstopped)
    · rename_i herror
      refine Option.some.inj h ▸ .startThrows hat ?_
      split at herror
      · exact Or.inl ‹_›
      · cases listen with
        | some what => exact Or.inr (by simp)
        | none => cases herror
  · exact Option.some.inj h ▸ .allStarted ‹_›
  · exact Option.some.inj h ▸ .spawn ‹_›
  · exact Option.some.inj h ▸ .allSpawned ‹_›
  · rename_i hat
    split at h
    · exact Option.some.inj h ▸ .join hat ‹_›
    · cases h
  · exact Option.some.inj h ▸ .allJoined ‹_›
  · rename_i fails id rest hat
    dsimp only at h
    split at h
    · rename_i hok
      split at h
      · cases h
      · rename_i hidle
        refine Option.some.inj h ▸ .stop hat (Prod.ext rfl hok) ?_
        exact fun hid => not_not.mp fun hbusy => hidle ⟨hid, hbusy⟩
    · exact Option.some.inj h ▸ .stopThrows hat ‹_›
  · exact Option.some.inj h ▸ .allStopped ‹_›
  · cases h

/-- Every step of `socket_main_thread` is one of the listed steps. -/
private theorem trans_of_socketMainStep {b : SocketMainAction}
    (hborn : s.born .socketMain = true) (h : s.socketMainStep b = some s') :
    Trans s (.socketMain b) s' := by
  unfold socketMainStep at h
  split at h
  · rename_i hat
    split at h
    · exact Option.some.inj h ▸ .spawnManage hborn hat ‹_›
    · cases h
  · rename_i hat
    split at h
    · exact Option.some.inj h ▸ .allManaged hborn hat ‹_›
    · cases h
  · rename_i hat
    split at h
    · rename_i ht
      split at h
      · exact Option.some.inj h ▸ .joinManage hborn hat ht ‹_›
      · cases h
    · cases h
  · rename_i hat
    split at h
    · exact Option.some.inj h ▸ .socketMainReturns hborn hat ‹_›
    · cases h
  · cases h

/-- Every step of a `socket_manage_thread` is one of the listed steps. -/
private theorem trans_of_manageStep {i : ℕ} {t : ManageThread} {b : ManageAction}
    (hmanaged : s.managed i = true) (ht : s.manages[i]? = some t)
    (h : s.manageStep i t b = some s') : Trans s (.manage i b) s' := by
  unfold manageStep at h
  split at h
  · rename_i hallows
    split at h
    · rename_i m hm
      split at h
      · rename_i ret
        split at h
        · rename_i hret
          refine Option.some.inj h ▸ .manage hmanaged ht hallows hm (by simp) ?_
          rintro ret' ⟨⟩
          exact hret
        · rename_i hret
          split at h
          · exact Option.some.inj h ▸ .connect hmanaged ht hm hret ‹_›
          · cases h
      · obtain ⟨j, hj, hdone⟩ := (Option.any_eq_true _ _).mp hallows
        exact Option.some.inj h ▸ .clientCloses hmanaged ht hm hj (eq_of_beq hdone)
      · rename_i hconnect hcloses
        refine Option.some.inj h ▸ .manage hmanaged ht hallows hm hcloses ?_
        rintro ret rfl
        exact (hconnect ret rfl).elim
    · cases h
  · cases h

/-- Every step of the program is one of the listed steps, and is taken by a running process. -/
theorem trans_of_step (h : step s a = some s') : Trans s a s' ∧ s.aborted = false := by
  unfold step at h
  split at h
  · cases h
  · rename_i hlive
    refine ⟨?_, Bool.eq_false_iff.mpr hlive⟩
    split at h
    · exact Option.some.inj h ▸ .signal
    · exact trans_of_mainStep h
    · split at h
      · exact trans_of_socketMainStep ‹_› h
      · cases h
    · split at h
      · rename_i ht
        split at h
        · exact trans_of_manageStep ‹_› ht h
        · cases h
      · cases h
    · split at h
      · rename_i hnext
        obtain ⟨l, hl, hnext⟩ := Option.bind_eq_some_iff.mp hnext
        obtain ⟨rfl, rfl⟩ := LoopPoint.next_eq_some hnext
        exact Option.some.inj h ▸ .clientTest hl
      · cases h
    · split at h
      · rename_i hloop
        unfold clientStep at h
        split at h
        · rename_i hserver
          split at h
          · exact Option.some.inj h ▸ .client hloop hserver ‹_›
          · cases h
        · cases h
      · cases h
    · split at h
      · rename_i hnext
        obtain ⟨hloop, rfl⟩ := LoopPoint.next_eq_some hnext
        split at h
        · exact Option.some.inj h ▸ .processTest ‹_› hloop
        · cases h
      · cases h
    · split at h
      · rename_i hnext
        obtain ⟨hloop, rfl⟩ := LoopPoint.next_eq_some hnext
        split at h
        · exact Option.some.inj h ▸ .sendTest ‹_› hloop
        · cases h
      · cases h
    · rename_i e b
      cases hsend : b.isSend with
      | true =>
        simp only [pipeStep, hsend, if_true] at h
        split at h
        · rename_i hloop
          split at h
          · exact Option.some.inj h ▸ .send hsend hloop ‹_›
          · cases h
        · cases h
      | false =>
        simp only [pipeStep, hsend, Bool.false_eq_true, if_false] at h
        split at h
        · rename_i hloop
          split at h
          · exact Option.some.inj h ▸ .process hsend hloop ‹_›
          · cases h
        · cases h
    · split at h
      · rename_i hguard
        obtain ⟨hborn, hthread⟩ := (Bool.and_eq_true _ _).mp hguard
        unfold receiveStep at h
        split at h
        · exact Option.some.inj h ▸ .receive hborn hthread ‹_›
        · cases h
      · cases h
    · split at h
      · rename_i hborn
        split at h
        · exact Option.some.inj h ▸ .stats hborn (EncodeStats.trans_of_step ‹_›)
        · cases h
      · cases h
    · split at h
      · rename_i hrunning
        split at h
        · exact Option.some.inj h ▸ .control hrunning ‹_›
        · cases h
      · cases h
    · split at h
      · exact Option.some.inj h ▸ .opened ‹_›
      · cases h
    · split at h
      · exact Option.some.inj h ▸ .closed ‹_›
      · cases h

/-! ### What a step leaves alone -/

/-- The flag is never taken back. -/
theorem Trans.shutdownRequested_mono (h : Trans s a s') (hflag : s.shutdownRequested = true) :
    s'.shutdownRequested = true := by
  cases h with
  | signal => rfl
  | receive hborn hthread hstep =>
    cases ReceivePacket.trans_of_step hstep with
    | pollStops | receiveFails | shutdown => rfl
    | _ => exact hflag
  | _ => exact hflag

/-! ### The parts of the program -/

/-- In every run the shared state is one that the client threads, the pipelines and the camera
control reach by themselves, with the same actions. -/
theorem server_run {info : CodecInitInfo} {renderers : List (List UInt8)}
    {as : List (ProgramAction κ)} (hrun : step.run (init info renderers) as = some s) :
    Server.step.run (Server.init info) (as.filterMap ProgramAction.server) = some s.server := by
  refine Machine.run_filterMap_of_projection (π := Program.server) ?_ ?_ hrun
  · intro s a s' hstep hnone
    cases (trans_of_step hstep).1 with
    | connect hmanaged ht hm hret => simp [ProgramAction.server, hret] at hnone
    | client | process | send | control => cases hnone
    | _ => rfl
  · intro s a s' b hstep hsome
    cases (trans_of_step hstep).1 with
    | connect hmanaged ht hm hret hserver =>
      simp only [ProgramAction.server, hret, if_false, Option.some.injEq] at hsome
      exact hsome ▸ hserver
    | @manage i t m c hmanaged ht hallows hm hcloses hconnect =>
      cases c with
      | connect ret => simp [ProgramAction.server, hconnect ret rfl] at hsome
      | _ => cases hsome
    | client hloop hserver => exact Option.some.inj hsome ▸ hserver
    | process hsend hloop hserver => exact Option.some.inj hsome ▸ hserver
    | send hsend hloop hserver => exact Option.some.inj hsome ▸ hserver
    | control hrunning hserver => exact Option.some.inj hsome ▸ hserver
    | _ => cases hsome

/-- A step of a `socket_manage_thread` is one of its machine, and replaces its entry. -/
theorem Trans.of_manage {i : ℕ} {b : ManageAction} (h : Trans s (.manage i b) s') :
    ∃ t t', s.manages[i]? = some t ∧ s'.manages = s.manages.set i t' ∧
      t'.renderer = t.renderer ∧ Manage.step t.renderer t.manage b = some t'.manage := by
  cases h with
  | connect hmanaged ht hm => exact ⟨_, _, ht, rfl, rfl, hm⟩
  | clientCloses hmanaged ht hm => exact ⟨_, _, ht, rfl, rfl, hm⟩
  | manage hmanaged ht hallows hm => exact ⟨_, _, ht, rfl, rfl, hm⟩

/-- No other step touches the `socket_manage_thread`s. -/
theorem Trans.manages_eq (h : Trans s a s') (ha : ∀ i b, a ≠ .manage i b) :
    s'.manages = s.manages := by
  cases h with
  | connect | clientCloses | manage => exact absurd rfl (ha _ _)
  | _ => rfl

/-- In every run each `socket_manage_thread` is in a state that it reaches by itself, with the same
actions. -/
theorem manage_run {info : CodecInitInfo} {renderers : List (List UInt8)}
    {as : List (ProgramAction κ)} (hrun : step.run (init info renderers) as = some s) {i : ℕ}
    {renderer : List UInt8} (hi : renderers[i]? = some renderer) :
    ∃ t, s.manages[i]? = some t ∧ t.renderer = renderer ∧
      (Manage.step renderer).run Manage.init (as.filterMap (ProgramAction.manageAt i)) =
        some t.manage := by
  refine Machine.run_induction (m := step) (P := fun as s => ∃ t, s.manages[i]? = some t ∧
    t.renderer = renderer ∧
    (Manage.step renderer).run Manage.init (as.filterMap (ProgramAction.manageAt i)) =
      some t.manage) ?_ ?_ hrun
  · exact ⟨⟨renderer, Manage.init, none⟩, by simp [init, hi], rfl, rfl⟩
  · rintro as s a s' - ⟨t, ht, rfl, ih⟩ hstep
    have htrans := (trans_of_step hstep).1
    rw [List.filterMap_append]
    by_cases ha : ∃ b, a = .manage i b
    · obtain ⟨b, rfl⟩ := ha
      obtain ⟨t₁, t', ht₁, hset, hrenderer, hm⟩ := htrans.of_manage
      obtain rfl : t = t₁ := Option.some.inj (ht.symm.trans ht₁)
      have hlt := (List.getElem?_eq_some_iff.mp ht).1
      refine ⟨t', ?_, hrenderer, ?_⟩
      · rw [hset]
        exact List.getElem?_set_self hlt
      · have hb : ProgramAction.manageAt i (.manage i b : ProgramAction κ) = some b := if_pos rfl
        rw [List.filterMap_cons_some hb, List.filterMap_nil]
        exact (Machine.run_concat_eq_some_iff _).mpr ⟨_, ih, hm⟩
    · have hnone : ProgramAction.manageAt i a = none := by
        cases a with
        | manage j b =>
          refine if_neg fun hji => ha ⟨b, ?_⟩
          rw [hji]
        | _ => rfl
      rw [List.filterMap_cons_none hnone, List.filterMap_nil, List.append_nil]
      refine ⟨t, ?_, rfl, ih⟩
      by_cases hany : ∃ j b, a = .manage j b
      · obtain ⟨j, b, rfl⟩ := hany
        obtain ⟨t₁, t', -, hset, -⟩ := htrans.of_manage
        have hji : j ≠ i := by
          rintro rfl
          exact ha ⟨b, rfl⟩
        rw [hset, List.getElem?_set_ne hji]
        exact ht
      · rw [htrans.manages_eq fun j b heq => hany ⟨j, b, heq⟩]
        exact ht

end Program

end Ngp
