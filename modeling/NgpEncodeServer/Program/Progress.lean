import NgpEncodeServer.Program.Termination
import NgpEncodeServer.Server.Connection
import NgpEncodeServer.Server.Processing

/-!
# No deadlock

As long as the process runs and `main` has not returned, some thread can take a step or waits for a
peer: the one that `main` waits for, or the one that this one waits for.  With the bound on the
steps after the signal it follows that the shutdown comes to its end if the peers answer.
-/

namespace Ngp

namespace Pipe

variable {p : Pipe}

/-- `process_frame_thread` can always take a step that does not end it. -/
theorem exists_process_step (hraised : p.process.isRaised = false)
    (hfresh : ∀ i f, p.process = .converting i f → f.converted = false) :
    ∃ a p', a.isSend = false ∧ a.pushed = [] ∧ step p a = some p' ∧
      p'.process.isRaised = false ∧ p'.send = p.send := by
  cases hat : p.process with
  | popping =>
    cases hpop : p.frameQueue.pop with
    | ok r => refine ⟨.pop, _, rfl, rfl, (by simp only [step, hat, hpop]; rfl), ?_, ?_⟩ <;> rfl
    | error e =>
      exact ⟨.popTimeout, p, rfl, rfl, by simp only [step, hat, hpop], hraised, rfl⟩
  | converting i f =>
    have hok : f.convertFrame true true = .ok { f with converted := true } := by
      simp [RenderedFrame.convertFrame, hfresh i f hat]
    refine ⟨.convert true true, _, rfl, rfl, (by simp only [step, hat, hok]; rfl), ?_, ?_⟩ <;> rfl
  | inserting i f =>
    rcases step_inserting hat with ⟨p', hp', hprocess, hsend, -⟩ | ⟨hp', -⟩
    · exact ⟨.insert, p', rfl, rfl, hp', by rw [hprocess]; rfl, hsend⟩
    · exact ⟨.insertTimeout, _, rfl, rfl, hp', rfl, rfl⟩
  | raised e =>
    rw [hat] at hraised
    cases hraised

/-- `send_frame_thread` can always take a step that does not end it. -/
theorem exists_send_step (hraised : p.send.isRaised = false) :
    ∃ a p', a.isSend = true ∧ step p a = some p' ∧
      p'.send.isRaised = false ∧ p'.process = p.process := by
  cases hat : p.send with
  | getting =>
    cases hget : p.frameMap.getDelete p.frameIndex with
    | ok r => refine ⟨.getDelete, _, rfl, (by simp only [step, hat, hget]; rfl), ?_, ?_⟩ <;> rfl
    | error e => refine ⟨.getTimeout, _, rfl, (by simp only [step, hat, hget]; rfl), ?_, ?_⟩ <;> rfl
  | sendingScene f =>
    refine ⟨.sendScene 0, _, rfl, (by simp only [step, hat, sendSwitch_eq_ok]; rfl), ?_, ?_⟩ <;> rfl
  | sendingDepth f =>
    refine ⟨.sendDepth 0, _, rfl, (by simp only [step, hat, sendSwitch_eq_ok]; rfl), ?_, ?_⟩ <;> rfl
  | advancing => refine ⟨.advance, _, rfl, (by simp only [step, hat]; rfl), ?_, ?_⟩ <;> rfl
  | raised e =>
    rw [hat] at hraised
    cases hraised

end Pipe

namespace Server

variable {s s' : Server}

/-- The process goes on if no thread has been left by an exception. -/
theorem terminated_eq_false (hclients : ∀ c ∈ s.clients, c.isRaised = false)
    (hcontrol : s.control.isRaised = false)
    (hpipe : ∀ e, (s.pipe.get e).process.isRaised = false ∧ (s.pipe.get e).send.isRaised = false) :
    s.terminated = false := by
  obtain ⟨hl, hl'⟩ := hpipe true
  obtain ⟨hr, hr'⟩ := hpipe false
  simp only [terminated, Bool.or_eq_false_iff]
  exact ⟨⟨⟨⟨⟨List.any_eq_false.mpr fun c hc => Bool.eq_false_iff.mp (hclients c hc), hcontrol⟩, hl⟩,
    hl'⟩, hr⟩, hr'⟩

/-- In a running process no thread has been left by an exception. -/
theorem not_raised (hlive : s.terminated = false) :
    (∀ c ∈ s.clients, c.isRaised = false) ∧ s.control.isRaised = false ∧
      ∀ e, (s.pipe.get e).process.isRaised = false ∧ (s.pipe.get e).send.isRaised = false := by
  simp only [terminated, Bool.or_eq_false_iff] at hlive
  obtain ⟨⟨⟨⟨⟨hclients, hcontrol⟩, hl⟩, hl'⟩, hr⟩, hr'⟩ := hlive
  refine ⟨fun c hc => Bool.eq_false_iff.mpr (List.any_eq_false.mp hclients c hc), hcontrol, ?_⟩
  rintro (_ | _)
  · exact ⟨hr, hr'⟩
  · exact ⟨hl, hl'⟩

/-- A step of a client thread that does not raise keeps the process running. -/
theorem terminated_client {i : ℕ} {c c' : Client} {a : ClientAction} {s₁ : Server}
    (hlive : s.terminated = false) (ht : ClientTrans s c a s₁ c') (hc' : c'.isRaised = false) :
    ({ s₁ with clients := s.clients.set i c' } : Server).terminated = false := by
  obtain ⟨hclients, hcontrol, hpipe⟩ := not_raised hlive
  obtain ⟨hcontrol', hpipe'⟩ := ht.frame
  refine terminated_eq_false (fun d hd => ?_) ?_ fun e => ?_
  · rcases List.mem_or_eq_of_mem_set hd with hd | rfl
    · exact hclients d hd
    · exact hc'
  · exact hcontrol' ▸ hcontrol
  · rw [(hpipe' e).1, (hpipe' e).2]
    exact hpipe e

/-- A client thread that has not closed its socket can take a step that does not end it. -/
theorem exists_client_step (hlive : s.terminated = false) {i : ℕ} {c : Client}
    (hc : s.clients[i]? = some c) (hclosed : c.point ≠ .closed) :
    ∃ a s' c', step s (.client i a) = some s' ∧ s'.terminated = false ∧
      s'.clients[i]? = some c' := by
  have hlt := (List.getElem?_eq_some_iff.mp hc).1
  suffices h : ∃ a s₁ c', s.clientStep c a = some (s₁, c') ∧ c'.isRaised = false by
    obtain ⟨a, s₁, c', hstep, hraised⟩ := h
    have ht := clientTrans_of_step hstep
    have hs := step_client hlive hc hstep
    rw [ht.clients_eq] at hs
    exact ⟨a, _, c', hs, terminated_client hlive ht hraised, List.getElem?_set_self hlt⟩
  cases hat : c.point with
  | loopHead =>
    by_cases hret : c.ret < 0
    · refine ⟨.exit, _, _, (by simp only [clientStep, hat, hret, if_true]; rfl), ?_⟩
      rfl
    · refine ⟨.draw, _, _, (by simp only [clientStep, hat, hret, if_false]; rfl), ?_⟩
      rfl
  | drawn e =>
    refine ⟨.allocate, _, _, (by simp only [clientStep, hat]; rfl), ?_⟩
    rfl
  | allocated e j =>
    refine ⟨.build, _, _, (by simp only [clientStep, hat]; rfl), ?_⟩
    rfl
  | sending req =>
    have hret : ¬(0 : ℤ) < 0 := by decide
    refine ⟨.send 0, _, _, (by simp only [clientStep, hat, hret, if_false]; rfl), ?_⟩
    rfl
  | receiving req =>
    refine ⟨.receive .notParsed, _, _, (by simp only [clientStep, hat]; rfl), ?_⟩
    rfl
  | constructing receipt frame =>
    refine ⟨.constructScene, _, _, (by simp only [clientStep, hat]; rfl), ?_⟩
    rfl
  | constructingDepth receipt frame info =>
    refine ⟨.constructDepth, _, _, (by simp only [clientStep, hat]; rfl), ?_⟩
    rfl
  | pushing frame =>
    cases hpush : (s.pipe.get frame.isLeft).frameQueue.push frame with
    | ok q =>
      refine ⟨.push, _, _, (by simp only [clientStep, hat, Pipe.step, hpush]; rfl), ?_⟩
      rfl
    | error e =>
      refine ⟨.pushTimeout, _, _, (by simp only [clientStep, hat, hpush]; rfl), ?_⟩
      rfl
  | closed => exact absurd hat hclosed
  | raised e =>
    have hraised := (not_raised hlive).1 c (List.mem_of_getElem? hc)
    simp [Client.isRaised, hat] at hraised

end Server

namespace Program

variable {κ : Type*} {s s' : Program κ}

theorem mem_streams (st : PacketStream) : st ∈ streams := by
  rcases st with ⟨_ | _, _ | _⟩ <;> decide

/-- The process runs as long as no thread has been left by an exception. -/
theorem aborted_eq_false_iff : s.aborted = false ↔
    s.server.terminated = false ∧ s.main ≠ .terminated ∧
      (∀ t ∈ s.manages, t.manage.point.isRaised = false) ∧
      ∀ st, (s.receive st).isRaised = false := by
  simp [aborted, List.any_eq_false, mem_streams, and_assoc]

variable [DecidableEq κ]

/-- Some inner step is possible that does not make `main` fail and, if the flag is set, keeps the
process running. -/
def Advances (s : Program κ) : Prop :=
  ∃ a s', a.isInner = true ∧ step s a = some s' ∧ (s'.main = .failed → s.main = .failed) ∧
    (s.shutdownRequested = true → s'.aborted = false)

variable (h : s.Ordered) (hlive : s.aborted = false)

include h hlive

/-- A client thread that has not left its loop. -/
theorem advances_of_client {j : ℕ} {l : LoopPoint} (hl : s.clientLoops[j]? = some l)
    (hne : l ≠ .done) : s.Advances := by
  cases l with
  | test =>
    refine ⟨.clientTest j, { s with
      clientLoops := s.clientLoops.set j (if s.shutdownRequested then .done else .body) }, rfl, ?_,
      id, fun _ => hlive⟩
    simp only [step, hlive, Bool.false_eq_true, if_false, hl, Option.bind_some, LoopPoint.next]
  | body =>
    have hlt : j < s.server.clients.length :=
      h.attended.length ▸ (List.getElem?_eq_some_iff.mp hl).1
    have hc := List.getElem?_eq_getElem hlt
    obtain ⟨hserver, hmain, hmanages, hreceive⟩ := aborted_eq_false_iff.mp hlive
    obtain ⟨a, server, c', hstep, hterm, hc'⟩ :=
      Server.exists_client_step hserver hc (h.attended.unclosed j .body _ hl hne hc)
    refine ⟨.client j a, { s with
      server := server, clientLoops := s.clientLoops.set j c'.point.loopPoint }, rfl, ?_,
      id, fun _ => aborted_eq_false_iff.mpr ⟨hterm, hmain, hmanages, hreceive⟩⟩
    simp only [step, hlive, Bool.false_eq_true, if_false, hl, if_true, clientStep, hstep, hc']
  | done => exact absurd rfl hne

omit h in
/-- A step of a `socket_manage_thread` that neither starts nor ends a client thread. -/
theorem advances_of_manageStep {i : ℕ} {t : ManageThread} {b : ManageAction} {m : Manage}
    (hi : s.manages[i]? = some t) (hmanaged : s.managed i = true) (hallows : s.allows t b = true)
    (hcloses : b ≠ .clientCloses) (hconnect : ∀ ret, b = .connect ret → ret < 0)
    (hm : Manage.step t.renderer t.manage b = some m)
    (hraised : s.shutdownRequested = true → m.point.isRaised = false) : s.Advances := by
  obtain ⟨hserver, hmain, hmanages, hreceive⟩ := aborted_eq_false_iff.mp hlive
  refine ⟨.manage i b, { s with manages := s.manages.set i { t with manage := m } }, rfl, ?_, id,
    fun hflag => aborted_eq_false_iff.mpr ⟨hserver, hmain, fun t' ht' => ?_, hreceive⟩⟩
  · simp only [step, hlive, Bool.false_eq_true, if_false, hi, hmanaged, if_true, manageStep,
      hallows, hm]
    cases b with
    | connect ret => exact if_pos (hconnect ret rfl)
    | clientCloses => exact absurd rfl hcloses
    | _ => rfl
  · rcases List.mem_or_eq_of_mem_set ht' with ht' | rfl
    · exact hmanages t' ht'
    · exact hraised hflag

/-- A `socket_manage_thread` that has been spawned and has not returned. -/
theorem advances_of_manage {i : ℕ} {t : ManageThread} (hi : s.manages[i]? = some t)
    (hmanaged : s.managed i = true) (hne : t.manage.point ≠ .returned) : s.Advances := by
  have hmove := @advances_of_manageStep _ s _ hlive i t
  cases hat : t.manage.point with
  | loopHead =>
    cases hflag : s.shutdownRequested with
    | true =>
      refine @hmove .exit { t.manage with point := .returned } hi hmanaged ?_ (by simp) (by simp)
        ?_ fun _ => rfl
      · exact hflag
      · simp only [Manage.step, hat]
    | false =>
      have hallows : s.allows t .parse = true := by simp [allows, hflag]
      cases hparse : parseRenderer t.renderer with
      | ok fields =>
        refine @hmove .parse { t.manage with point := .parsed fields.1 fields.2 } hi hmanaged
          hallows (by simp) (by simp) ?_ fun _ => rfl
        simp only [Manage.step, hat, hparse]
      | error e =>
        refine @hmove .parse { t.manage with point := .raised e } hi hmanaged hallows (by simp)
          (by simp) ?_ fun htrue => ?_
        · simp only [Manage.step, hat, hparse]
        · rw [hflag] at htrue
          cases htrue
  | parsed ip port =>
    refine @hmove (.socket none) { t.manage with point := .loopHead } hi hmanaged rfl (by simp)
      (by simp) ?_ fun _ => rfl
    simp only [Manage.step, hat]
  | connecting fd ip port =>
    have hret : (-1 : ℤ) < 0 := by decide
    refine @hmove (.connect (-1)) { t.manage with point := .loopHead } hi hmanaged rfl (by simp)
      ?_ ?_ fun _ => rfl
    · rintro ret ⟨⟩
      exact hret
    · simp only [Manage.step, hat, hret, if_true]
  | running fd =>
    obtain ⟨j, hj⟩ := Option.isSome_iff_exists.mp ((h.attended.running i t hi).mpr ⟨fd, hat⟩)
    obtain ⟨l, hl⟩ : ∃ l, s.clientLoops[j]? = some l :=
      ⟨_, List.getElem?_eq_getElem (h.attended.known i j t hi hj)⟩
    by_cases hdone : l = .done
    · subst hdone
      obtain ⟨hserver, hmain, hmanages, hreceive⟩ := aborted_eq_false_iff.mp hlive
      refine ⟨.manage i .clientCloses, { s with
        manages := s.manages.set i
          { t with manage := ⟨.joining, t.manage.opened.erase fd⟩, client := none } }, rfl, ?_,
        id, fun _ => aborted_eq_false_iff.mpr ⟨hserver, hmain, fun t' ht' => ?_, hreceive⟩⟩
      · have hallows : s.allows t .clientCloses = true := by simp [allows, hj, hl]
        simp only [step, hlive, Bool.false_eq_true, if_false, hi, hmanaged, if_true, manageStep,
          hallows, Manage.step, hat]
      · rcases List.mem_or_eq_of_mem_set ht' with ht' | rfl
        · exact hmanages t' ht'
        · rfl
    · exact advances_of_client h hlive hl hdone
  | joining =>
    refine @hmove .join { t.manage with point := .loopHead } hi hmanaged rfl (by simp) (by simp)
      ?_ fun _ => rfl
    simp only [Manage.step, hat]
  | returned => exact absurd hat hne
  | raised e =>
    have hraised := (aborted_eq_false_iff.mp hlive).2.2.1 t (List.mem_of_getElem? hi)
    simp [hat, ManagePoint.isRaised] at hraised

/-- `socket_main_thread` when it has been spawned and has not returned. -/
theorem advances_of_socketMain (hborn : s.born .socketMain = true)
    (hne : s.socketMain ≠ .returned) : s.Advances := by
  cases hat : s.socketMain with
  | spawning n =>
    rcases Nat.lt_or_eq_of_le (h.joined.count n (Or.inl hat)) with hlt | heq
    · refine ⟨.socketMain .spawn, { s with socketMain := .spawning (n + 1) }, rfl, ?_, id,
        fun _ => hlive⟩
      simp only [step, hlive, Bool.false_eq_true, if_false, hborn, if_true, socketMainStep, hat,
        hlt]
    · refine ⟨.socketMain .proceed, { s with socketMain := .joining 0 }, rfl, ?_, id,
        fun _ => hlive⟩
      simp only [step, hlive, Bool.false_eq_true, if_false, hborn, if_true, socketMainStep, hat,
        heq]
  | joining n =>
    rcases Nat.lt_or_eq_of_le (h.joined.count n (Or.inr hat)) with hlt | heq
    · have hi := List.getElem?_eq_getElem hlt
      by_cases hreturned : s.manages[n].manage.point = .returned
      · refine ⟨.socketMain .join, { s with socketMain := .joining (n + 1) }, rfl, ?_, id,
          fun _ => hlive⟩
        simp only [step, hlive, Bool.false_eq_true, if_false, hborn, if_true, socketMainStep, hat,
          hi, hreturned]
      · exact advances_of_manage h hlive hi (by simp [managed, hat]) hreturned
    · refine ⟨.socketMain .proceed, { s with socketMain := .returned }, rfl, ?_, id, fun _ => hlive⟩
      simp only [step, hlive, Bool.false_eq_true, if_false, hborn, if_true, socketMainStep, hat,
        heq]
  | returned => exact absurd hat hne

omit h in
/-- A step of a `process_frame_thread` or `send_frame_thread` in the body of its loop. -/
theorem advances_of_pipeStep {e : Bool} {b : PipeAction} {p : Pipe}
    (hloop : (if b.isSend then s.send else s.process).get e = .body) (hpush : b.pushed = [])
    (hp : Pipe.step (s.server.pipe.get e) b = some p) (hprocess : p.process.isRaised = false)
    (hsend : p.send.isRaised = false) : s.Advances := by
  obtain ⟨hserver, hmain, hmanages, hreceive⟩ := aborted_eq_false_iff.mp hlive
  obtain ⟨hclients, hcontrol, hpipe⟩ := Server.not_raised hserver
  have hstep := Server.step_pipe hserver hpush hp
  have hterm : ({ s.server with pipe := s.server.pipe.set e p } : Server).terminated = false := by
    refine Server.terminated_eq_false hclients hcontrol fun e' => ?_
    by_cases he : e' = e
    · subst he
      rw [Sided.get_set_self]
      exact ⟨hprocess, hsend⟩
    · rw [Sided.get_set_of_ne _ _ he]
      exact hpipe e'
  cases hb : b.isSend with
  | true =>
    rw [hb, if_pos rfl] at hloop
    refine ⟨.pipe e b, { s with
      server := { s.server with pipe := s.server.pipe.set e p }
      send := s.send.set e ((s.server.pipe.set e p).get e).send.loopPoint }, rfl, ?_, id,
      fun _ => aborted_eq_false_iff.mpr ⟨hterm, hmain, hmanages, hreceive⟩⟩
    simp only [step, hlive, Bool.false_eq_true, if_false, hb, if_true, hloop, pipeStep, hstep]
  | false =>
    rw [hb, if_neg Bool.false_ne_true] at hloop
    refine ⟨.pipe e b, { s with
      server := { s.server with pipe := s.server.pipe.set e p }
      process := s.process.set e ((s.server.pipe.set e p).get e).process.loopPoint }, rfl, ?_, id,
      fun _ => aborted_eq_false_iff.mpr ⟨hterm, hmain, hmanages, hreceive⟩⟩
    simp only [step, hlive, Bool.false_eq_true, if_false, hb, if_true, hloop, pipeStep, hstep]

omit h in
/-- A `process_frame_thread` that has been spawned and has not returned. -/
theorem advances_of_process {e : Bool} (hborn : s.born (.processFrame e) = true)
    (hne : s.process.get e ≠ .done) (hfresh : s.server.ConvertsFresh) : s.Advances := by
  obtain ⟨-, -, hpipe⟩ := Server.not_raised (aborted_eq_false_iff.mp hlive).1
  cases hat : s.process.get e with
  | test =>
    refine ⟨.processTest e, { s with
      process := s.process.set e (if s.shutdownRequested then .done else .body) }, rfl, ?_, id,
      fun _ => hlive⟩
    simp only [step, hlive, Bool.false_eq_true, if_false, hat, LoopPoint.next, hborn, if_true]
  | body =>
    obtain ⟨b, p, hsend, hpush, hp, hraised, hother⟩ :=
      Pipe.exists_process_step (hpipe e).1 fun i f hf => by
        obtain ⟨⟨infoScene, infoDepth, hnew⟩, -⟩ := hfresh e i f hf
        rw [hnew]
        rfl
    refine advances_of_pipeStep hlive ?_ hpush hp hraised (hother ▸ (hpipe e).2)
    rw [hsend, if_neg Bool.false_ne_true]
    exact hat
  | done => exact absurd hat hne

omit h in
/-- A `send_frame_thread` that has been spawned and has not returned. -/
theorem advances_of_send {e : Bool} (hborn : s.born (.sendFrame e) = true)
    (hne : s.send.get e ≠ .done) : s.Advances := by
  obtain ⟨-, -, hpipe⟩ := Server.not_raised (aborted_eq_false_iff.mp hlive).1
  cases hat : s.send.get e with
  | test =>
    refine ⟨.sendTest e, { s with
      send := s.send.set e (if s.shutdownRequested then .done else .body) }, rfl, ?_, id,
      fun _ => hlive⟩
    simp only [step, hlive, Bool.false_eq_true, if_false, hat, LoopPoint.next, hborn, if_true]
  | body =>
    obtain ⟨b, p, hsend, hp, hraised, hother⟩ := Pipe.exists_send_step (hpipe e).2
    have hpush : b.pushed = [] := by
      cases b with
      | push frame => cases hsend
      | _ => rfl
    refine advances_of_pipeStep hlive ?_ hpush hp (hother ▸ (hpipe e).1) hraised
    rw [hsend, if_pos rfl]
    exact hat
  | done => exact absurd hat hne

omit h in
/-- A step of a `receive_packet_thread` that does not end it. -/
theorem advances_of_receiveStep {st : PacketStream} {b : ReceivePacketAction κ}
    {r : ReceivePacket κ} (hborn : s.born (.receivePacket st) = true) (hthread : b.isThread = true)
    (hr : ReceivePacket.step (s.receivePacket st) b = some r) (hraised : r.point.isRaised = false) :
    s.Advances := by
  obtain ⟨hserver, hmain, hmanages, hreceive⟩ := aborted_eq_false_iff.mp hlive
  refine ⟨.receive st b, { s.setWebsocket (.packetStream st) r.server with
    shutdownRequested := r.shutdownRequested
    receive := Function.update s.receive st r.point }, rfl, ?_, id,
    fun _ => aborted_eq_false_iff.mpr ⟨hserver, hmain, hmanages, fun st' => ?_⟩⟩
  · simp only [step, hlive, Bool.false_eq_true, if_false, hborn, hthread, Bool.and_self, if_true,
      receiveStep, hr]
  · by_cases hst : st' = st
    · subst hst
      simpa using hraised
    · simpa [Function.update_of_ne hst] using hreceive st'

omit h in
/-- A `receive_packet_thread` that has been spawned and has not returned, with a running server. -/
theorem advances_of_receive {st : PacketStream} (hborn : s.born (.receivePacket st) = true)
    (hne : s.receive st ≠ .exited) (hrunning : (s.websocket (.packetStream st)).running = true) :
    s.Advances := by
  have hmove := @advances_of_receiveStep _ s _ hlive st
  cases hat : s.receive st with
  | loopHead =>
    cases hflag : s.shutdownRequested with
    | true =>
      refine @hmove (.enter true) { s.receivePacket st with point := .exited } hborn rfl ?_ rfl
      simp only [ReceivePacket.step, receivePacket, hat, hflag, if_true]
    | false =>
      refine @hmove (.enter true) { s.receivePacket st with point := .handlerHead } hborn rfl ?_ rfl
      simp only [ReceivePacket.step, receivePacket, hat, hflag, Bool.false_eq_true, if_false,
        if_true]
  | handlerHead =>
    cases hflag : s.shutdownRequested with
    | true =>
      refine @hmove .poll (s.receivePacket st).handlerFails hborn rfl ?_ rfl
      simp only [ReceivePacket.step, receivePacket, hat, hflag, if_true]
    | false =>
      refine @hmove .poll { s.receivePacket st with point := .receiving } hborn rfl ?_ rfl
      simp only [ReceivePacket.step, receivePacket, hat, hflag, Bool.false_eq_true, if_false]
  | receiving =>
    refine @hmove (.receive AVERROR_EAGAIN { data := [0], flags := 0 })
      { s.receivePacket st with point := .handlerHead } hborn rfl ?_ rfl
    simp only [ReceivePacket.step, receivePacket, hat, if_true]
  | consuming pkt =>
    obtain ⟨r, hr, -, hpoint⟩ :=
      @ReceivePacket.step_consume κ _ (s.receivePacket st) (fun _ => none) pkt hrunning hat
    have hloop : r.point = .loopHead :=
      hpoint.mpr (WebSocketServer.sendEach_snd_eq_ok_iff.mpr fun _ _ => rfl)
    refine hmove hborn rfl hr ?_
    rw [hloop]
    rfl
  | exited => exact absurd hat hne
  | raised e =>
    have hraised := (aborted_eq_false_iff.mp hlive).2.2.2 st
    simp [hat, ReceivePoint.isRaised] at hraised

omit h in
/-- `encode_stats_thread` when it has been spawned and has not returned. -/
theorem advances_of_stats (hborn : s.born .encodeStats = true)
    (hne : s.stats.point ≠ .returned) : s.Advances := by
  suffices hstep : ∃ b t, EncodeStats.step s.shutdownRequested s.server.frameIndex s.stats b =
      some t by
    obtain ⟨b, t, ht⟩ := hstep
    refine ⟨.stats b, { s with stats := t }, rfl, ?_, id, fun _ => hlive⟩
    simp only [step, hlive, Bool.false_eq_true, if_false, hborn, if_true, ht]
  cases hat : s.stats.point with
  | loopHead =>
    cases hflag : s.shutdownRequested with
    | true => exact ⟨.test, _, by simp only [EncodeStats.step, hat]; rfl⟩
    | false => exact ⟨.test, _, by simp only [EncodeStats.step, hat]; rfl⟩
  | loading => exact ⟨.loadFirst true, _, by simp only [EncodeStats.step, hat]; rfl⟩
  | loaded e index => exact ⟨.loadSecond, _, by simp only [EncodeStats.step, hat]; rfl⟩
  | summed currentIndex =>
    by_cases hsec : s.stats.seconds = kEncodeStatsLogIntervalSeconds
    · exact ⟨.report, _, by simp only [EncodeStats.step, hat, hsec, if_true]; rfl⟩
    · exact ⟨.report, _, by simp only [EncodeStats.step, hat, hsec, if_false]; rfl⟩
  | returned => exact absurd hat hne

/-- The thread that `main` waits for. -/
theorem advances_of_thread {t : ThreadId} {rest : List ThreadId} (hat : s.main = .joining rest)
    (hfresh : s.server.ConvertsFresh) (ht : s.returned t ≠ true) : s.Advances := by
  have hborn : ∀ t, s.born t = true := by simp [born, hat]
  cases t with
  | socketMain =>
    exact advances_of_socketMain h hlive (hborn _) fun hreturned => ht (beq_iff_eq.mpr hreturned)
  | processFrame e =>
    exact advances_of_process hlive (hborn _) (fun hdone => ht (beq_iff_eq.mpr hdone)) hfresh
  | receivePacket st =>
    refine advances_of_receive hlive (hborn _) (fun hexited => ht (beq_iff_eq.mpr hexited)) ?_
    rw [h.phased.running (by simp [hat]), hat]
    rfl
  | sendFrame e => exact advances_of_send hlive (hborn _) fun hdone => ht (beq_iff_eq.mpr hdone)
  | encodeStats =>
    exact advances_of_stats hlive (hborn _) fun hreturned => ht (beq_iff_eq.mpr hreturned)

omit h in
/-- The message handler that the stop of the camera control server waits for. -/
theorem advances_of_control (hrunning : (s.websocket .cameraControl).running = true)
    (hbusy : s.server.control ≠ .idle) : s.Advances := by
  obtain ⟨hserver, hmain, hmanages, hreceive⟩ := aborted_eq_false_iff.mp hlive
  obtain ⟨hclients, hcontrol, hpipe⟩ := Server.not_raised hserver
  suffices hstep : ∃ b server, ProgramAction.isInner (.control b : ProgramAction κ) = true ∧
      s.server.controlStep b = some server ∧ server.clients = s.server.clients ∧
      server.pipe = s.server.pipe ∧ server.control.isRaised = false by
    obtain ⟨b, server, hinner, hb, hclients', hpipe', hcontrol'⟩ := hstep
    refine ⟨.control b, { s with server := server }, hinner, ?_, id,
      fun _ => aborted_eq_false_iff.mpr ⟨?_, hmain, hmanages, hreceive⟩⟩
    · simp only [step, hlive, Bool.false_eq_true, if_false, hrunning, if_true, Server.step,
        hserver, hb]
    · exact Server.terminated_eq_false (hclients' ▸ hclients) hcontrol' (hpipe' ▸ hpipe)
  cases hat : s.server.control with
  | idle => exact absurd hat hbusy
  | changingScene e camera =>
    have hok := @CameraManager.changeScene_snd_eq_ok_iff s.server.cameramgr e camera .opens
    refine ⟨.changeScene .opens, _, rfl, (by simp only [Server.controlStep, hat, hok.mpr]; rfl), ?_⟩
    exact ⟨rfl, rfl, rfl⟩
  | changingDepth e camera =>
    have hok := @CameraManager.changeDepth_snd_eq_ok_iff s.server.cameramgr e camera .opens
    refine ⟨.changeDepth .opens, _, rfl, (by simp only [Server.controlStep, hat, hok.mpr]; rfl), ?_⟩
    exact ⟨rfl, rfl, rfl⟩
  | storing e camera =>
    refine ⟨.store, _, rfl, (by simp only [Server.controlStep, hat]; rfl), ?_⟩
    exact ⟨rfl, rfl, rfl⟩
  | raised e => simp [hat, ControlPoint.isRaised] at hcontrol

/-- As long as `main` has not come to its end, there is a step that can be taken. -/
theorem advances (hfresh : s.server.ConvertsFresh) (hreturned : s.main ≠ .returned)
    (hfailed : s.main ≠ .failed) : s.Advances := by
  have hterminated := (aborted_eq_false_iff.mp hlive).2.1
  have hmove : ∀ (b : MainAction κ) (s' : Program κ), s.mainStep b = some s' →
      s'.main ≠ .failed → s'.aborted = false → s.Advances := by
    intro b s' hb hne haborted
    refine ⟨.main b, s', rfl, ?_, fun hfails => absurd hfails hne, fun _ => haborted⟩
    simp only [step, hlive, Bool.false_eq_true, if_false, hb]
  have hkept : ∀ p w, p ≠ MainPoint.terminated →
      ({ s with main := p, websocket := w } : Program κ).aborted = false := by
    intro p w hp
    obtain ⟨hserver, -, hmanages, hreceive⟩ := aborted_eq_false_iff.mp hlive
    exact aborted_eq_false_iff.mpr ⟨hserver, hp, hmanages, hreceive⟩
  cases hat : s.main with
  | starting rest =>
    cases rest with
    | nil =>
      refine hmove .proceed _ (by simp only [mainStep, hat]; rfl) (by simp) (hkept _ _ (by simp))
    | cons id rest =>
      have hstopped : (s.websocket id).running = false := by
        rw [h.phased.running hterminated, hat]
        simp [MainPoint.running]
      refine hmove (.start none) _
        (by simp only [mainStep, hat, WebSocketServer.startOn, hstopped, Bool.false_eq_true,
          if_false]; rfl) (by simp) (hkept _ _ (by simp))
  | spawning rest =>
    cases rest with
    | nil =>
      refine hmove .proceed _ (by simp only [mainStep, hat]; rfl) (by simp) (hkept _ _ (by simp))
    | cons t rest =>
      refine hmove .spawn _ (by simp only [mainStep, hat]; rfl) (by simp) (hkept _ _ (by simp))
  | joining rest =>
    cases rest with
    | nil =>
      refine hmove .proceed _ (by simp only [mainStep, hat]; rfl) (by simp) (hkept _ _ (by simp))
    | cons t rest =>
      by_cases ht : s.returned t = true
      · refine hmove .join _ (by simp only [mainStep, hat, ht, if_true]; rfl) (by simp)
          (hkept _ _ (by simp))
      · exact advances_of_thread h hlive hat hfresh ht
  | stopping rest =>
    cases rest with
    | nil =>
      refine hmove .proceed _ (by simp only [mainStep, hat]; rfl) (by simp) (hkept _ _ (by simp))
    | cons id rest =>
      have hrunning : (s.websocket id).running = true := by
        rw [h.phased.running hterminated, hat]
        simp [MainPoint.running]
      by_cases hbusy : id = .cameraControl ∧ s.server.control ≠ .idle
      · exact advances_of_control hlive (hbusy.1 ▸ hrunning) hbusy.2
      · have hcloses : (s.websocket id).connections.findSome? (fun _ => none) =
            (none : Option String) := List.findSome?_eq_none_iff.mpr fun _ _ => rfl
        refine hmove (.stop fun _ => none) _
          (by simp only [mainStep, hat, hbusy, if_false, WebSocketServer.stop, hrunning, hcloses,
            if_true]; rfl) (by simp) (hkept _ _ (by simp))
  | returned => exact absurd hat hreturned
  | failed => exact absurd hat hfailed
  | terminated => exact absurd hat hterminated

/-! ### The end of the program -/

omit h hlive

/-- What holds between the signal and the return of `main`. -/
structure ShuttingDown (info : CodecInitInfo) (renderers : List (List UInt8)) (s : Program κ) :
    Prop where
  reachable : ∃ as, step.run (init info renderers) as = some s
  flag : s.shutdownRequested = true
  live : s.aborted = false
  notFailed : s.main ≠ .failed

/-- As long as `main` has not returned there is a step that brings the shutdown closer to its
end. -/
theorem ShuttingDown.exists_step {info : CodecInitInfo} {renderers : List (List UInt8)}
    (h : ShuttingDown info renderers s) (hreturned : s.main ≠ .returned) :
    ∃ a s', a.isInner = true ∧ step s a = some s' ∧ ShuttingDown info renderers s' ∧
      s'.work < s.work := by
  obtain ⟨as, hrun⟩ := h.reachable
  have hordered := ordered_run hrun
  obtain ⟨a, s', hinner, hstep, hmain, haborted⟩ := advances hordered h.live
    (Server.convertsFresh_run (server_run hrun)) hreturned h.notFailed
  have ht := (trans_of_step hstep).1
  have hmessage : a.isMessage = false := by
    cases a with
    | control b =>
      cases b with
      | setCamera => cases hinner
      | _ => rfl
    | _ => rfl
  have hwork := ht.work_le hordered.attended h.flag
  rw [hinner, hmessage] at hwork
  have hrun' : step.run (init info renderers) (as ++ [a]) = some s' :=
    (Machine.run_concat_eq_some_iff step).mpr ⟨s, hrun, hstep⟩
  exact ⟨a, s', hinner, hstep, ⟨⟨_, hrun'⟩, ht.shutdownRequested_mono h.flag, haborted h.flag,
    fun hfails => h.notFailed (hmain hfails)⟩, hwork⟩

end Program

end Ngp
