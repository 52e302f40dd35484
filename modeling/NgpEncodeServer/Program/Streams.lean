import NgpEncodeServer.Program.Shutdown

/-!
# The streams of the program

The model of `receive_packet_thread` takes its server to be running from its first step to its last.
In the program `main` starts the server before it spawns the thread and stops it after it has joined
the thread, other threads and the signal handler set the flag, and `stop` closes the connections
that are left.  `receive_run` shows that nevertheless every run of the program is a run of that
model for each of the four streams, so that what is sent to a viewer is known for the program as a
whole.

A broadcast is one step of this model, and so is the loop of `stop`.  The code has no lock between
these loops and the handlers that open and close connections, so `stream_messages` is about the runs
in which they do not meet.
-/

namespace Ngp

/-- The open handler does not look at whether the server is running. -/
theorem WebSocketServer.opened_running {κ : Type*} [DecidableEq κ] (s : WebSocketServer κ)
    (running : Bool) (position : ℕ) (hdl : κ) :
    ({ s with running := running } : WebSocketServer κ).opened position hdl =
      { s.opened position hdl with running := running } := by
  unfold opened
  split <;> rfl

namespace ReceivePacket

variable {κ : Type*} [DecidableEq κ]

/-- The close handlers of all connections run. -/
theorem run_closed (its : List κ) (s : ReceivePacket κ) (h : s.server.connections = its) :
    step.run s (its.map .closed) =
      some { s with server := { s.server with connections := [], nodup := List.nodup_nil } } := by
  induction its generalizing s with
  | nil =>
    obtain ⟨flag, ⟨serverName, running, connections, nodup, sent⟩, point⟩ := s
    obtain rfl : connections = [] := h
    rfl
  | cons it its ih =>
    have hclosed : step s (.closed it) = some { s with server := s.server.closed it } := rfl
    rw [List.map_cons, Machine.run_cons, hclosed, Option.bind_some, ih]
    · rfl
    · simp [WebSocketServer.closed, h]

/-- What the close handlers of all connections are for a viewer. -/
theorem observed_closed (c : κ) (its : List κ) (hnodup : its.Nodup) (s : ReceivePacket κ) :
    step.observed (viewed c) s (its.map .closed) = if c ∈ its then [.leave] else [] := by
  induction its generalizing s with
  | nil => rfl
  | cons it its ih =>
    rw [List.nodup_cons] at hnodup
    have hclosed : step s (.closed it) = some { s with server := s.server.closed it } := rfl
    rw [List.map_cons, Machine.observed_cons hclosed, ih hnodup.2]
    by_cases hit : it = c
    · subst hit
      simp [viewed, hnodup.1]
    · simp [viewed, hit, Ne.symm hit]

end ReceivePacket

namespace Program

variable {κ : Type*} [DecidableEq κ] {s s' : Program κ} {a : ProgramAction κ}

/-- A stream as its thread sees it from its first step to its last: with a running server. -/
def stream (s : Program κ) (st : PacketStream) : ReceivePacket κ :=
  { s.receivePacket st with server := { s.websocket (.packetStream st) with running := true } }

/-- What a step of the program is for one stream. -/
def streamActions (st : PacketStream) (s : Program κ) :
    ProgramAction κ → List (ReceivePacketAction κ)
  | .signal => [.shutdown]
  | .receive st' a =>
    if st' = st then [a]
    else
      match ReceivePacket.step (s.receivePacket st') a with
      | some r => if r.shutdownRequested then [.shutdown] else []
      | none => []
  | .opened id position hdl => if id = .packetStream st then [.opened position hdl] else []
  | .closed id hdl => if id = .packetStream st then [.closed hdl] else []
  | .main (.stop fails) =>
    match s.main with
    | .stopping (id :: _) =>
      match ((s.websocket id).stop fails).2 with
      -- `stop` closes the connections that are left
      | .ok () => if id = .packetStream st then (s.websocket id).connections.map .closed else []
      | .error _ => []
    | _ => []
  | _ => []

/-- What a step of the program is for a viewer of one stream. -/
def viewedOn (st : PacketStream) (c : κ) (s : Program κ) :
    ProgramAction κ → List (FeedEvent (List UInt8))
  | .receive st' (.consume _) =>
    match s.receive st with
    | .consuming pkt => if st' = st then [.publish pkt.marked.data] else []
    | _ => []
  | .opened id _ hdl => if id = .packetStream st ∧ hdl = c then [.join] else []
  | .closed id hdl => if id = .packetStream st ∧ hdl = c then [.leave] else []
  | .main (.stop fails) =>
    match s.main with
    | .stopping (id :: _) =>
      match ((s.websocket id).stop fails).2 with
      | .ok () =>
        if id = .packetStream st ∧ c ∈ (s.websocket id).connections then [.leave] else []
      | .error _ => []
    | _ => []
  | _ => []

/-- The packet that a step gets from the encoder of one stream. -/
def packetOf (st : PacketStream) : ProgramAction κ → Option AVPacket
  | .receive st' a => if st' = st then a.packet else none
  | _ => none

omit [DecidableEq κ] in
/-- A stream whose part of the state does not change. -/
theorem stream_eq {st : PacketStream} (hflag : s'.shutdownRequested = s.shutdownRequested)
    (hserver : s'.websocket (.packetStream st) = s.websocket (.packetStream st))
    (hreceive : s'.receive st = s.receive st) : s'.stream st = s.stream st := by
  simp [stream, receivePacket, hflag, hserver, hreceive]

/-- What a step of the program does to a stream: it is a short run of the model of the stream, and
shows each viewer what `viewedOn` says. -/
structure Streams (st : PacketStream) (s : Program κ) (a : ProgramAction κ) (s' : Program κ) :
    Prop where
  run : ReceivePacket.step.run (s.stream st) (streamActions st s a) = some (s'.stream st)
  viewed : ∀ c, ReceivePacket.step.observed (ReceivePacket.viewed c) (s.stream st)
    (streamActions st s a) = viewedOn st c s a

/-- A step that is none for the stream. -/
theorem Streams.of_idle {st : PacketStream} (hactions : streamActions st s a = [])
    (hviewed : ∀ c, viewedOn st c s a = []) (hstream : s'.stream st = s.stream st) :
    Streams st s a s' := by
  refine ⟨?_, fun c => ?_⟩
  · rw [hactions, hstream]
    rfl
  · rw [hactions, hviewed]
    rfl

/-- A step of the thread of the stream. -/
theorem Streams.of_receive {st : PacketStream} {b : ReceivePacketAction κ}
    {r : ReceivePacket κ} (hrunning : (s.websocket (.packetStream st)).running = true)
    (hthread : b.isThread = true) (hstep : ReceivePacket.step (s.receivePacket st) b = some r)
    (hflag : s'.shutdownRequested = r.shutdownRequested)
    (hserver : s'.websocket (.packetStream st) = r.server) (hreceive : s'.receive st = r.point) :
    Streams st s (.receive st b) s' := by
  have hbefore : s.stream st = s.receivePacket st := by
    simp [stream, receivePacket, ← hrunning]
  have hafter : s'.stream st = r := by
    have hr : r.server.running = true := (ReceivePacket.running_step hstep).trans hrunning
    obtain ⟨flag, server, point⟩ := r
    simp [stream, receivePacket, hflag, hserver, hreceive, ← hr]
  have hactions : streamActions st s (.receive st b) = [b] := if_pos rfl
  refine ⟨?_, fun c => ?_⟩
  · rw [hactions, hbefore, hafter, Machine.run_cons, hstep]
    rfl
  · rw [hactions, hbefore, Machine.observed_cons hstep, Machine.observed_nil, List.append_nil]
    cases b with
    | consume fails =>
      cases hat : s.receive st <;> simp [ReceivePacket.viewed, viewedOn, receivePacket, hat]
    | opened | closed | shutdown => cases hthread
    | _ => rfl

/-- A step of the thread of another stream: it may set the flag. -/
theorem Streams.of_other {st st' : PacketStream} {b : ReceivePacketAction κ}
    {r : ReceivePacket κ} (hne : st' ≠ st)
    (hstep : ReceivePacket.step (s.receivePacket st') b = some r)
    (hmono : s.shutdownRequested = true → r.shutdownRequested = true)
    (hflag : s'.shutdownRequested = r.shutdownRequested)
    (hserver : s'.websocket (.packetStream st) = s.websocket (.packetStream st))
    (hreceive : s'.receive st = s.receive st) : Streams st s (.receive st' b) s' := by
  have hviewed : ∀ c, viewedOn st c s (.receive st' b) = [] := by
    intro c
    cases b <;> simp only [viewedOn, hne, if_false]
    split <;> rfl
  have hactions : streamActions st s (.receive st' b) =
      if r.shutdownRequested then [.shutdown] else [] := by
    simp only [streamActions, hne, if_false, hstep]
  cases hset : r.shutdownRequested with
  | true =>
    rw [hset, if_pos rfl] at hactions
    refine ⟨?_, fun c => ?_⟩
    · rw [hactions]
      simp [stream, receivePacket, hflag, hserver, hreceive, hset, Machine.run, ReceivePacket.step]
    · rw [hactions, hviewed]
      rfl
  | false =>
    rw [hset, if_neg Bool.false_ne_true] at hactions
    have hclear : s.shutdownRequested = false := by
      by_contra htrue
      rw [hmono (Bool.not_eq_false _ ▸ htrue)] at hset
      cases hset
    exact .of_idle hactions hviewed (stream_eq (by rw [hflag, hset, hclear]) hserver hreceive)

/-- Every step of the program is a short run of the model of each stream. -/
theorem Trans.streams (h : Trans s a s') (st : PacketStream)
    (hrunning : a.isThread = true → ∀ id, (s.websocket id).running = true) :
    Streams st s a s' := by
  have hmono := h.shutdownRequested_mono
  cases h with
  | signal => exact ⟨rfl, fun _ => rfl⟩
  | @start id rest hat hstopped =>
    refine .of_idle rfl (fun _ => rfl) ?_
    by_cases hid : ServerId.packetStream st = id
    · subst hid
      simp [stream, receivePacket, setWebsocket]
    · simp [stream, receivePacket, setWebsocket, hid]
  | @stop id rest fails w hat hstop hidle =>
    obtain ⟨hid_running, rfl⟩ := WebSocketServer.stop_eq_ok hstop
    by_cases hid : id = .packetStream st
    · subst hid
      have hactions : streamActions st s (.main (.stop fails)) =
          (s.websocket (.packetStream st)).connections.map .closed := by
        simp [streamActions, hat, hstop]
      have hviewed : ∀ c, viewedOn st c s (.main (.stop fails)) =
          if c ∈ (s.websocket (.packetStream st)).connections then [.leave] else [] := by
        simp [viewedOn, hat, hstop]
      refine ⟨?_, fun c => ?_⟩
      · rw [hactions]
        refine (ReceivePacket.run_closed _ (s.stream st) rfl).trans ?_
        simp [stream, receivePacket, setWebsocket]
      · rw [hactions, hviewed]
        exact ReceivePacket.observed_closed c _ (s.websocket (.packetStream st)).nodup _
    · refine .of_idle (by simp [streamActions, hat, hstop, hid])
        (fun c => by simp [viewedOn, hat, hstop, hid]) ?_
      simp [stream, receivePacket, setWebsocket, Ne.symm hid]
  | @stopThrows id rest fails e hat hthrow =>
    exact .of_idle (by simp [streamActions, hat, hthrow])
      (fun c => by simp [viewedOn, hat, hthrow]) rfl
  | @receive st' b r hborn hthread hstep =>
    by_cases hst : st' = st
    · subst hst
      refine .of_receive (hrunning rfl _) hthread hstep rfl ?_ ?_ <;> simp [setWebsocket]
    · refine .of_other hst hstep hmono rfl ?_ ?_ <;> simp [setWebsocket, Ne.symm hst]
  | @opened id position hdl hopen =>
    by_cases hid : id = .packetStream st
    · subst hid
      have hactions : streamActions st s (.opened (.packetStream st) position hdl) =
          [.opened position hdl] := if_pos rfl
      refine ⟨?_, fun c => ?_⟩
      · rw [hactions, Machine.run_cons]
        simp [ReceivePacket.step, stream, receivePacket, setWebsocket,
          WebSocketServer.opened_running]
      · rw [hactions]
        simp [viewedOn, ReceivePacket.viewed, Machine.observed, ReceivePacket.step]
    · refine .of_idle (by simp [streamActions, hid]) (fun c => by simp [viewedOn, hid]) ?_
      simp [stream, receivePacket, setWebsocket, Ne.symm hid]
  | @closed id hdl hopen =>
    by_cases hid : id = .packetStream st
    · subst hid
      have hactions : streamActions st s (.closed (.packetStream st) hdl) = [.closed hdl] :=
        if_pos rfl
      refine ⟨?_, fun c => ?_⟩
      · rw [hactions, Machine.run_cons]
        simp [ReceivePacket.step, stream, receivePacket, setWebsocket, WebSocketServer.closed]
      · rw [hactions]
        simp [viewedOn, ReceivePacket.viewed, Machine.observed, ReceivePacket.step]
    · refine .of_idle (by simp [streamActions, hid]) (fun c => by simp [viewedOn, hid]) ?_
      simp [stream, receivePacket, setWebsocket, Ne.symm hid]
  | _ => exact .of_idle rfl (fun _ => rfl) rfl

/-! ### Whole runs -/

variable {info : CodecInitInfo} {renderers : List (List UInt8)} {as : List (ProgramAction κ)}

/-- Every step of a run is a short run of the model of each stream. -/
theorem streams_of_step (st : PacketStream) (hrun : step.run (init info renderers) as = some s)
    (hstep : step s a = some s') : Streams st s a s' := by
  obtain ⟨ht, hlive⟩ := trans_of_step hstep
  exact ht.streams st fun hthread => (ordered_run hrun).running_of_thread hlive ht hthread

/-- In every run of the program the state of a stream is one that its thread and the handlers of its
server reach by themselves. -/
theorem receive_run (st : PacketStream) (hrun : step.run (init info renderers) as = some s) :
    ReceivePacket.step.run (ReceivePacket.init (ServerId.packetStream st).name)
      (step.observed (streamActions st) (init info renderers) as) = some (s.stream st) :=
  Machine.run_observed (m := step) (π := fun s => s.stream st)
    (fun _ _ _ _ hrun hlast => (streams_of_step st hrun hlast).run) hrun

/-- The packets that a step brings. -/
theorem filterMap_streamActions (st : PacketStream) (s : Program κ) (a : ProgramAction κ) :
    (streamActions st s a).filterMap ReceivePacketAction.packet = (packetOf st a).toList := by
  cases a with
  | receive st' b =>
    by_cases hst : st' = st
    · cases hpacket : b.packet <;> simp [streamActions, packetOf, hst, hpacket]
    · simp only [streamActions, packetOf, hst, if_false]
      split
      · split <;> rfl
      · rfl
  | opened id | closed id =>
    simp only [streamActions, packetOf]
    split <;> rfl
  | main b =>
    cases b with
    | stop fails =>
      simp only [streamActions, packetOf]
      split
      · split
        · split
          · rw [List.filterMap_map]
            exact List.filterMap_eq_nil_iff.mpr fun _ _ => rfl
          · rfl
        · rfl
      · rfl
    | _ => rfl
  | _ => rfl

/-- What the model of a stream gets from its encoder is what the program gets. -/
theorem packets_eq (st : PacketStream) (hrun : step.run (init info renderers) as = some s) :
    (step.observed (streamActions st) (init info renderers) as).filterMap
      ReceivePacketAction.packet = as.filterMap (packetOf st) := by
  refine Machine.run_induction (m := step) (P := fun as _ =>
    (step.observed (streamActions st) (init info renderers) as).filterMap
      ReceivePacketAction.packet = as.filterMap (packetOf st)) rfl ?_ hrun
  intro as s a s' hrun ih _
  rw [Machine.observed_concat hrun, List.filterMap_append, ih, filterMap_streamActions,
    List.filterMap_append]
  cases hpacket : packetOf st a <;> simp [hpacket]

/-- No open or close handler of the server of a stream runs while the thread of the stream is in
`consume_packet`. -/
def HandlersApart (st : PacketStream) (s : Program κ) : ProgramAction κ → Prop
  | .opened id .. | .closed id _ =>
    id = .packetStream st → (s.receive st).isConsuming = false
  | _ => True

instance (st : PacketStream) (s : Program κ) (a : ProgramAction κ) :
    Decidable (HandlersApart st s a) := by
  unfold HandlersApart
  split <;> infer_instance

/-- In every run of the program in which no handler of the server of a stream runs during a
broadcast, for each of the four streams and every viewer: the messages that have been handed to
`send` for the viewer are what has been streamed while it was connected, in order, without a gap and
without a repetition, except that the last one may be missing once an exception has left the thread;
and what has been streamed is every packet that the encoder of the stream has given out, marked, in
its order, except for the one that the thread has in its hand. -/
theorem stream_messages (st : PacketStream) (c : κ)
    (happart : (step.guarded (HandlersApart st)).run (init info renderers) as = some s) :
    ∃ cut,
      (s.websocket (.packetStream st)).messagesTo c ++ cut =
        FeedEvent.delivered false (step.observed (viewedOn st c) (init info renderers) as) ∧
      cut.length ≤ 1 ∧ (cut ≠ [] → ∃ e, s.receive st = .raised e) ∧
      FeedEvent.published (step.observed (viewedOn st c) (init info renderers) as) ++
          (s.stream st).inHand.map (fun pkt => pkt.marked.data) =
        (as.filterMap (packetOf st)).map fun pkt => pkt.marked.data := by
  have hrun := Machine.run_of_run_guarded happart
  have hviewed := ReceivePacket.viewed_run c (receive_run st hrun)
  have hevents : ReceivePacket.step.observed (ReceivePacket.viewed c)
      (ReceivePacket.init (ServerId.packetStream st).name)
      (step.observed (streamActions st) (init info renderers) as) =
        step.observed (viewedOn st c) (init info renderers) as :=
    Machine.observed_observed (m := step) (π := fun s => s.stream st) (fun _ _ _ _ hrun hlast =>
      ⟨(streams_of_step st hrun hlast).run, (streams_of_step st hrun hlast).viewed c⟩) hrun
  have hpackets := hviewed.packets
  obtain ⟨cut, hcut, hlength, hraised⟩ := hviewed.messages
  rw [hevents] at hcut hpackets
  rw [packets_eq st hrun] at hpackets
  exact ⟨cut, hcut, hlength, hraised, hpackets⟩

/-- Two viewers of the left scene stream; one of them leaves before the second packet, and when the
program is interrupted the thread has a third packet in its hand. -/
def threePackets : List (ProgramAction ℕ) :=
  List.flatten [List.replicate 5 (.main (.start none)), [.main .proceed],
    List.replicate 10 (.main .spawn), [.main .proceed,
      .opened (.packetStream ⟨true, .scene⟩) 0 0, .opened (.packetStream ⟨true, .scene⟩) 1 1],
    [.enter true, .poll, .receive 0 { data := [9, 1], flags := 1 }, .consume fun _ => none].map
      (.receive ⟨true, .scene⟩), [.closed (.packetStream ⟨true, .scene⟩) 0],
    [.enter true, .poll, .receive 0 { data := [9, 2], flags := 0 }, .consume fun _ => none,
      .enter true, .poll, .receive 0 { data := [9, 3], flags := 0 }].map (.receive ⟨true, .scene⟩),
    [.signal]]

/-- One packet has been sent to the first viewer and two to the second. -/
theorem stream_messages_threePackets :
    ∃ s, (step.guarded (HandlersApart ⟨true, .scene⟩)).run (init defaultInitInfo []) threePackets =
        some s ∧
      (s.websocket (.packetStream ⟨true, .scene⟩)).messagesTo 0 = [[0, 1]] ∧
      (s.websocket (.packetStream ⟨true, .scene⟩)).messagesTo 1 = [[0, 1], [1, 2]] ∧
      ∃ cut, (s.websocket (.packetStream ⟨true, .scene⟩)).messagesTo 0 ++ cut =
        FeedEvent.delivered false
          (step.observed (viewedOn ⟨true, .scene⟩ 0) (init defaultInitInfo []) threePackets) ∧
        cut.length ≤ 1 := by
  have hmessages : (((step.guarded (HandlersApart ⟨true, .scene⟩)).run (init defaultInitInfo [])
      threePackets).map fun s =>
      ((s.websocket (.packetStream ⟨true, .scene⟩)).messagesTo 0,
        (s.websocket (.packetStream ⟨true, .scene⟩)).messagesTo 1)) =
      some ([[0, 1]], [[0, 1], [1, 2]]) := by decide +kernel
  obtain ⟨s, hrun, hsent⟩ := Option.map_eq_some_iff.mp hmessages
  obtain ⟨cut, hcut, hlength, -⟩ := stream_messages ⟨true, .scene⟩ 0 hrun
  exact ⟨s, hrun, congrArg Prod.fst hsent, congrArg Prod.snd hsent, cut, hcut, hlength⟩

/-- Every run of the program is a run of each of its parts, so that what is known of these holds of
the program: of the client threads, pipelines and camera control with the same actions, of each
`socket_manage_thread` with its own actions, and of each stream with the actions of its thread and
handlers, the shutdown requested by others, and the closing of the connections that are left when
`main` stops the server. -/
theorem parts_run (hrun : step.run (init info renderers) as = some s) :
    Server.step.run (Server.init info) (as.filterMap ProgramAction.server) = some s.server ∧
    (∀ i renderer, renderers[i]? = some renderer → ∃ t, s.manages[i]? = some t ∧
      (Manage.step renderer).run Manage.init (as.filterMap (ProgramAction.manageAt i)) =
        some t.manage) ∧
    ∀ st, ReceivePacket.step.run (ReceivePacket.init (ServerId.packetStream st).name)
      (step.observed (streamActions st) (init info renderers) as) = some (s.stream st) := by
  refine ⟨server_run hrun, fun i renderer hi => ?_, fun st => receive_run st hrun⟩
  obtain ⟨t, ht, -, hmanage⟩ := manage_run hrun hi
  exact ⟨t, ht, hmanage⟩

/-- The parts of the interrupted program, each up to the end of its thread. -/
theorem parts_run_interrupted :
    ∃ s, step.run (init defaultInitInfo [Manage.tenSevenThousand]) interrupted = some s ∧
      (Manage.step Manage.tenSevenThousand).run Manage.init
        [.parse, .socket (some 5), .connect (-1), .exit] = some ⟨.returned, {5}⟩ ∧
      ∃ t, s.manages[0]? = some t ∧ (Manage.step Manage.tenSevenThousand).run Manage.init
        (interrupted.filterMap (ProgramAction.manageAt 0)) = some t.manage := by
  obtain ⟨s, hrun⟩ : ∃ s, step.run (init defaultInitInfo [Manage.tenSevenThousand]) interrupted =
      some s := ⟨_, rfl⟩
  exact ⟨s, hrun, rfl, (parts_run hrun).2.1 0 _ rfl⟩

end Program

end Ngp
