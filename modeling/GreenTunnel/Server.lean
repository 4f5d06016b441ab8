import GreenTunnel.Session
import GreenTunnel.Startup

/-! # The server (`proxy.rs`)

`run_server` starts worker threads and waits for them.  Each worker opens a listener on
the same address and accepts connections for ever, and every connection is a task of its
own, so that the connections of a server go on in any order.  `Server.Step` says what may
happen next.  In a release build a panic on any of the threads ends the whole process
(`panic = "abort"` in `Cargo.toml`); in other builds it ends the task or the thread.

Whatever the order, what happens on a connection is a beginning of what `handleClient`
does on it alone, and follows the session protocol (`server_follows`); and a worker that
listens goes on listening, whatever the clients send: the server comes to an end only when
no worker has ever listened, or because a thread or the runtime of a worker could not be
made (`server_endures`).  The log is taken to be written: where the standard error output
cannot be, `eprintln!` panics, too.
-/
namespace GreenTunnel
open Trace

/-! ## Threads and tasks -/

/-- The listener of a worker. -/
def openListener (config : ServerConfig) (os : SocketCall → Bool) : Calls Unit := do
  Calls.require os (.new config.bindAddr.isIpv6)
  Calls.attempt .setReuseAddress
  Calls.attempt .setReusePort
  Calls.require os .setNonblocking
  Calls.require os (.bind config.bindAddr)
  Calls.require os (.listen 1024)
  Calls.require os .fromStd

/-- What a worker meets when it starts: whether its runtime can be built, and which calls
of its listener succeed. -/
structure WorkerStart where
  runtime : Bool
  os : SocketCall → Bool

/-- The worker gets as far as its loop. -/
def WorkerStart.Listens (start : WorkerStart) (config : ServerConfig) : Prop :=
  start.runtime = true ∧ (openListener config start.os).result = .ok ()

inductive Worker where
  | starting
  | listening
  /-- It could not start. -/
  | ended
  deriving DecidableEq

/-- How far `run_server` has come. -/
inductive MainThread where
  | spawning
  /-- The workers are waited for in turn, and `next` is the one whose turn it is. -/
  | joining (next : Nat)
  /-- It has returned, and the process is over. -/
  | returned (ok : Bool)
  /-- A thread has panicked, and the process is over. -/
  | aborted
  deriving DecidableEq

/-- The process is not over. -/
def MainThread.Running : MainThread → Prop
  | .spawning | .joining _ => True
  | .returned _ | .aborted => False

/-- A server: its threads, and what each connection has left to do. -/
structure Server where
  main : MainThread
  workers : List Worker
  tasks : List (Act Unit)

def Server.initial : Server := ⟨.spawning, [], []⟩

inductive ServerEvent where
  | spawned
  | spawnFailed
  | allSpawned
  | joined (worker : Nat)
  | allJoined
  | listening (worker : Nat)
  | startFailed (worker : Nat)
  | startAborted (worker : Nat)
  | acceptFailed (worker : Nat)
  /-- The worker accepts a connection in surroundings `net`, on which the client sends
  `stream`. -/
  | accepted (worker : Nat) (net : Network) (stream : Bytes)
  /-- Something happens on a connection. -/
  | performed (connection : Nat) (e : Event)
  /-- A connection panics. -/
  | crashed (connection : Nat)

/-- **What may happen in a server** with `numWorkers` workers. -/
inductive Server.Step (config : ServerConfig) (numWorkers : Nat) :
    Server → ServerEvent → Server → Prop where
  | spawn {s : Server} (spawning : s.main = .spawning) (more : s.workers.length < numWorkers) :
      Step config numWorkers s .spawned { s with workers := s.workers ++ [.starting] }
  | spawnFails {s : Server} (spawning : s.main = .spawning)
      (more : s.workers.length < numWorkers) :
      Step config numWorkers s .spawnFailed { s with main := .returned false }
  | spawnedAll {s : Server} (spawning : s.main = .spawning)
      (all : s.workers.length = numWorkers) :
      Step config numWorkers s .allSpawned { s with main := .joining 0 }
  | join {s : Server} {w : Nat} (waiting : s.main = .joining w)
      (ended : s.workers[w]? = some .ended) :
      Step config numWorkers s (.joined w) { s with main := .joining (w + 1) }
  | joinedAll {s : Server} (waiting : s.main = .joining s.workers.length) :
      Step config numWorkers s .allJoined { s with main := .returned true }
  | listen {s : Server} {w : Nat} {start : WorkerStart} (running : s.main.Running)
      (starting : s.workers[w]? = some .starting) (listens : start.Listens config) :
      Step config numWorkers s (.listening w) { s with workers := s.workers.set w .listening }
  | startFails {s : Server} {w : Nat} {start : WorkerStart} (running : s.main.Running)
      (starting : s.workers[w]? = some .starting) (fails : ¬ start.Listens config) :
      Step config numWorkers s (.startFailed w) { s with workers := s.workers.set w .ended }
  /-- In a release build the worker panics. -/
  | startAborts {s : Server} {w : Nat} {start : WorkerStart} (running : s.main.Running)
      (starting : s.workers[w]? = some .starting) (panics : start.runtime = false) :
      Step config numWorkers s (.startAborted w) { s with main := .aborted }
  /-- The loop goes on. -/
  | acceptFails {s : Server} {w : Nat} (running : s.main.Running)
      (listening : s.workers[w]? = some .listening) :
      Step config numWorkers s (.acceptFailed w) s
  | accept {s : Server} {w : Nat} {net : Network} {stream : Bytes} (running : s.main.Running)
      (listening : s.workers[w]? = some .listening) :
      Step config numWorkers s (.accepted w net stream)
        { s with tasks := s.tasks ++ [handleClient config.toProxyServerConfig net stream] }
  | perform {s : Server} {i : Nat} {e : Event} {rest : List Event} {result : Except Stop Unit}
      (running : s.main.Running) (next : s.tasks[i]? = some ⟨e :: rest, result⟩) :
      Step config numWorkers s (.performed i e) { s with tasks := s.tasks.set i ⟨rest, result⟩ }
  /-- In a release build the panic of one connection ends all of them. -/
  | crash {s : Server} {i : Nat} {f : Fault} (running : s.main.Running)
      (panics : s.tasks[i]? = some ⟨[], .error (.fault f)⟩) :
      Step config numWorkers s (.crashed i) { s with main := .aborted }

/-! ## The connections of a server -/

namespace ServerEvent

/-- What the event is among the connections. -/
def task (config : ServerConfig) : ServerEvent → Option (TaskEvent Event)
  | accepted _ net stream =>
    some (.started (handleClient config.toProxyServerConfig net stream).events)
  | performed i e => some (.did i e)
  | _ => none

/-- The connection that is accepted. -/
def connection : ServerEvent → Option (Network × Bytes)
  | accepted _ net stream => some (net, stream)
  | _ => none

/-- What happens on the connection. -/
def on (i : Nat) : ServerEvent → Option Event
  | performed j e => if j = i then some e else none
  | _ => none

end ServerEvent

section
variable {config : ServerConfig} {numWorkers : Nat} {s t : Server} {es : List ServerEvent}

/-- The connections of a server are tasks next to each other. -/
theorem Server.tasks_lead (h : Leads (Server.Step config numWorkers) s es t) :
    Leads Tasks.Step (s.tasks.map Trace.events) (es.filterMap (ServerEvent.task config))
      (t.tasks.map Trace.events) := by
  refine h.view (f := fun s => s.tasks.map Trace.events) (fun s e t hstep d hd => ?_)
    fun s e t hstep hnone => ?_
  · cases hstep with
    | accept =>
      cases hd
      rw [List.map_append]
      exact Tasks.Step.start _ _
    | perform _ next =>
      cases hd
      rw [List.map_set]
      exact Tasks.Step.go (by rw [List.getElem?_map, next]; rfl)
    | _ => cases hd
  · cases hstep with
    | accept => cases hnone
    | perform => cases hnone
    | _ => rfl

theorem todo_tasks (es : List ServerEvent) :
    (es.filterMap (ServerEvent.task config)).filterMap TaskEvent.todo =
      (es.filterMap ServerEvent.connection).map fun c =>
        (handleClient config.toProxyServerConfig c.1 c.2).events := by
  rw [List.filterMap_filterMap, List.map_filterMap]
  congr
  funext e
  cases e <;> rfl

theorem of_tasks (es : List ServerEvent) (i : Nat) :
    (es.filterMap (ServerEvent.task config)).filterMap (TaskEvent.of i) =
      es.filterMap (ServerEvent.on i) := by
  rw [List.filterMap_filterMap]
  congr
  funext e
  cases e <;> rfl

/-- **What happens on a connection** of a server, in whatever order it is with the others,
is a beginning of its own run. -/
theorem Server.performed_append
    (h : Leads (Server.Step config numWorkers) .initial es s) (i : Nat) :
    ((es.filterMap ServerEvent.connection)[i]?.map fun c =>
        (handleClient config.toProxyServerConfig c.1 c.2).events) =
      s.tasks[i]?.map fun left => es.filterMap (ServerEvent.on i) ++ left.events := by
  have heq := Tasks.started_eq (Server.tasks_lead h) i
  rw [todo_tasks, of_tasks, Server.initial, List.map_nil, List.nil_append, List.getElem?_map,
    List.getElem?_map, Option.map_map] at heq
  exact heq

/-- **Every connection of a server follows the session protocol**, in whatever order the
connections go on, next to whatever the others do.  What has happened on it is a
beginning of its own run; when all of that has happened, it has ended of its own accord
or because a read or a write failed. -/
theorem server_follows (h : Leads (Server.Step config numWorkers) .initial es s) :
    (∀ i e, .performed i e ∈ es → ∃ c, (es.filterMap ServerEvent.connection)[i]? = some c) ∧
    ∀ i net stream, (es.filterMap ServerEvent.connection)[i]? = some (net, stream) →
      ∃ left phase, s.tasks[i]? = some left ∧
        es.filterMap (ServerEvent.on i) ++ left.events =
          (handleClient config.toProxyServerConfig net stream).events ∧
        Leads (sessionOf config.toProxyServerConfig net stream).Step .fresh
          (es.filterMap (ServerEvent.on i)) phase ∧
        (left.events = [] →
          ((handleClient config.toProxyServerConfig net stream).result = .ok () → phase.Ended) ∧
          ∀ stop, (handleClient config.toProxyServerConfig net stream).result = .error stop →
            stop = .io) := by
  constructor
  · intro i e hmem
    have hdid : .did i e ∈ es.filterMap (ServerEvent.task config) :=
      List.mem_filterMap.mpr ⟨_, hmem, rfl⟩
    have hlt := Tasks.did_lt (Server.tasks_lead h) hdid
    rw [List.length_map] at hlt
    have heq := Server.performed_append h i
    rw [List.getElem?_eq_getElem hlt] at heq
    obtain ⟨c, hc, -⟩ := Option.map_eq_some_iff.mp heq
    exact ⟨c, hc⟩
  · intro i net stream haccepted
    have heq := Server.performed_append h i
    rw [haccepted, Option.map_some] at heq
    obtain ⟨left, hleft, hrun⟩ := Option.map_eq_some_iff.mp heq.symm
    dsimp only at hrun
    obtain ⟨final, hlead, hok, herror⟩ :=
      handleClient_follows config.toProxyServerConfig net stream
    rw [← hrun] at hlead
    obtain ⟨phase, hpart, hrest⟩ := hlead.split
    refine ⟨left, phase, hleft, hrun, hpart, fun hend => ?_⟩
    rw [hend] at hrest
    cases hrest
    exact ⟨hok (), herror⟩

/-- The options as they are if none is given. -/
def defaultServer : ServerConfig where
  dnsAddr := "127.0.0.1:53".toList
  fakeTtl := 0
  fakeSni := []
  windowShrink := 0
  httpSpace := true
  mixHeaderCase := true
  portRotate := true
  trailingDot := true
  bindAddr := ⟨.v4 ⟨127, 0, 0, 1⟩, 8080⟩
  stripAltSvc := true
  filterType65 := true
  fallbackTarget := "127.0.0.1:80".toList

/-- Surroundings in which everything succeeds. -/
def quietNetwork : Network := .answering ⟨.v4 ⟨0, 0, 0, 0⟩, 0⟩

/-- Two scanners send an `x` each, and the second one is answered first. -/
def scannedRun : List ServerEvent :=
  [.spawned, .allSpawned, .listening 0, .accepted 0 quietNetwork [0x78],
    .accepted 0 quietNetwork [0x78], .performed 1 (.replied benignNginx404Response),
    .performed 0 (.replied benignNginx404Response)]

theorem scannedRun_leads :
    Leads (Server.Step defaultServer 1) .initial scannedRun
      ⟨.joining 0, [.listening], [⟨[], .ok ()⟩, ⟨[], .ok ()⟩]⟩ := by
  have hscan : handleClient defaultServer.toProxyServerConfig quietNetwork [0x78] =
      ⟨[.replied benignNginx404Response], .ok ()⟩ := by
    have hread : quietNetwork.firstRead = some 65536 := rfl
    have hlen : readLength clientBufSize [0x78] 65536 = 1 := rfl
    have hconnect : isHttpConnect (preprocessHttpRequest (fromUtf8Lossy [0x78])
        defaultServer.httpSpace defaultServer.mixHeaderCase) = false := by decide +kernel
    have hplain : ¬ ("GET ".toList <+: fromUtf8Lossy [0x78] ∨
        "POST ".toList <+: fromUtf8Lossy [0x78]) := by decide +kernel
    have hpage := (Socket.writeAll_delivers (.fresh quietNetwork.client)
      benignNginx404Response).fresh.2 (Socket.writeAll_of_accepting (fun _ => ⟨65535, rfl⟩) _)
    unfold handleClient
    rw [hread]
    dsimp only
    rw [hlen, if_neg Nat.one_ne_zero, List.take_of_length_le (Nat.le_refl 1), hconnect,
      if_neg Bool.false_ne_true, if_neg hplain, handleActiveProbeDefense, hpage]
    rfl
  have haccept : ∀ tasks, Server.Step defaultServer 1 ⟨.joining 0, [.listening], tasks⟩
      (.accepted 0 quietNetwork [0x78])
      ⟨.joining 0, [.listening], tasks ++ [⟨[.replied benignNginx404Response], .ok ()⟩]⟩ := by
    intro tasks
    rw [← hscan]
    exact .accept trivial rfl
  have hlisten : Server.Step defaultServer 1 ⟨.joining 0, [.starting], []⟩ (.listening 0)
      ⟨.joining 0, [.listening], []⟩ :=
    @Server.Step.listen _ _ _ _ ⟨true, fun _ => true⟩ trivial rfl ⟨rfl, rfl⟩
  exact .cons (.spawn rfl (by decide)) (.cons (.spawnedAll rfl rfl) (.cons hlisten
    (.cons (haccept []) (.cons (haccept _) (.cons (.perform trivial rfl)
      (.cons (.perform trivial rfl) (.nil _)))))))

theorem server_follows_example :
    ∃ left phase, [(⟨[], .ok ()⟩ : Act Unit), ⟨[], .ok ()⟩][0]? = some left ∧
      scannedRun.filterMap (ServerEvent.on 0) ++ left.events =
        (handleClient defaultServer.toProxyServerConfig quietNetwork [0x78]).events ∧
      Leads (sessionOf defaultServer.toProxyServerConfig quietNetwork [0x78]).Step .fresh
        (scannedRun.filterMap (ServerEvent.on 0)) phase ∧
      (left.events = [] →
        ((handleClient defaultServer.toProxyServerConfig quietNetwork [0x78]).result = .ok () →
          phase.Ended) ∧
        ∀ stop, (handleClient defaultServer.toProxyServerConfig quietNetwork [0x78]).result =
          .error stop → stop = .io) :=
  (server_follows scannedRun_leads).2 0 quietNetwork [0x78] rfl

/-! ## The workers of a server -/

/-- Who a server has waited for, and whom it serves. -/
structure Server.Valid (numWorkers : Nat) (s : Server) : Prop where
  /-- Without a worker that listens there are no connections. -/
  served : s.tasks ≠ [] → ∃ w : Nat, s.workers[w]? = some .listening
  /-- No connection is going to panic. -/
  sound : ∀ task ∈ s.tasks, ∀ f, task.result ≠ .error (.fault f)
  joined : ∀ k, s.main = .joining k →
    s.workers.length = numWorkers ∧ ∀ w < k, s.workers[w]? = some .ended
  returned : s.main = .returned true →
    s.workers.length = numWorkers ∧ ∀ w < numWorkers, s.workers[w]? = some .ended

theorem Server.initial_valid : Server.initial.Valid numWorkers where
  served h := absurd rfl h
  sound _ h := by cases h
  joined _ h := by cases h
  returned h := by cases h

/-- When a worker has started, the others are where they were. -/
theorem getElem?_set_of_starting {workers : List Worker} {w v : Nat} {new old : Worker}
    (hw : workers[w]? = some .starting) (hv : workers[v]? = some old) (hold : old ≠ .starting) :
    (workers.set w new)[v]? = some old := by
  rw [List.getElem?_set_ne, hv]
  rintro rfl
  rw [hw] at hv
  exact hold (Option.some.inj hv).symm

/-- A worker that starts disturbs nobody. -/
theorem Server.Valid.set {w : Nat} {new : Worker} (hs : s.Valid numWorkers)
    (hw : s.workers[w]? = some .starting) :
    Server.Valid numWorkers { s with workers := s.workers.set w new } where
  served h := by
    obtain ⟨v, hv⟩ := hs.served h
    exact ⟨v, getElem?_set_of_starting hw hv (by decide)⟩
  sound := hs.sound
  joined k hk := by
    obtain ⟨hlen, hall⟩ := hs.joined k hk
    exact ⟨List.length_set.trans hlen, fun v hv =>
      getElem?_set_of_starting hw (hall v hv) (by decide)⟩
  returned hr := by
    obtain ⟨hlen, hall⟩ := hs.returned hr
    exact ⟨List.length_set.trans hlen, fun v hv =>
      getElem?_set_of_starting hw (hall v hv) (by decide)⟩

theorem Server.Step.valid {e : ServerEvent} (h : Server.Step config numWorkers s e t)
    (hs : s.Valid numWorkers) : t.Valid numWorkers := by
  cases h with
  | spawn spawning =>
    refine ⟨fun h => ?_, hs.sound, fun k hk => ?_, fun hr => ?_⟩
    · obtain ⟨w, hw⟩ := hs.served h
      exact ⟨w, by rw [List.getElem?_append_left (List.getElem?_eq_some_iff.mp hw).1, hw]⟩
    · cases spawning.symm.trans hk
    · cases spawning.symm.trans hr
  | spawnFails =>
    refine ⟨hs.served, hs.sound, fun k hk => ?_, fun hr => ?_⟩
    · cases hk
    · cases hr
  | spawnedAll _ all =>
    refine ⟨hs.served, hs.sound, fun k hk => ?_, fun hr => by cases hr⟩
    cases hk
    exact ⟨all, fun w hw => absurd hw (Nat.not_lt_zero w)⟩
  | @join w waiting ended =>
    refine ⟨hs.served, hs.sound, fun k hk => ?_, fun hr => by cases hr⟩
    cases hk
    obtain ⟨hlen, hall⟩ := hs.joined w waiting
    refine ⟨hlen, fun v hv => ?_⟩
    rcases Nat.lt_or_eq_of_le (Nat.le_of_lt_succ hv) with hlt | rfl
    · exact hall v hlt
    · exact ended
  | joinedAll waiting =>
    obtain ⟨hlen, hall⟩ := hs.joined _ waiting
    refine ⟨hs.served, hs.sound, fun k hk => ?_, fun _ => ⟨hlen, fun w hw => hall w (hlen ▸ hw)⟩⟩
    cases hk
  | listen _ starting => exact hs.set starting
  | startFails _ starting => exact hs.set starting
  | startAborts | crash =>
    refine ⟨hs.served, hs.sound, fun k hk => ?_, fun hr => ?_⟩
    · cases hk
    · cases hr
  | acceptFails => exact hs
  | @accept w net stream _ listening =>
    refine ⟨fun _ => ⟨w, listening⟩, fun task ht f hf => ?_, hs.joined, hs.returned⟩
    rcases List.mem_append.mp ht with ht | ht
    · exact hs.sound task ht f hf
    · rw [List.mem_singleton.mp ht] at hf
      obtain ⟨_, -, -, herror⟩ := handleClient_follows config.toProxyServerConfig net stream
      cases herror _ hf
  | perform _ next =>
    refine ⟨fun _ => hs.served fun hnil => ?_, fun task ht => ?_, hs.joined, hs.returned⟩
    · rw [hnil] at next
      cases next
    · rcases List.mem_or_eq_of_mem_set ht with ht | rfl
      · exact hs.sound task ht
      · have hsound := hs.sound _ (List.mem_of_getElem? next)
        exact hsound

/-- A worker that listens goes on listening, and one that has ended has ended. -/
theorem Server.Step.worker_stays {e : ServerEvent} {w : Nat} {old : Worker}
    (h : Server.Step config numWorkers s e t) (hw : s.workers[w]? = some old)
    (hold : old ≠ .starting) : t.workers[w]? = some old := by
  cases h with
  | spawn => exact List.getElem?_append_left (List.getElem?_eq_some_iff.mp hw).1 ▸ hw
  | listen _ starting => exact getElem?_set_of_starting starting hw hold
  | startFails _ starting => exact getElem?_set_of_starting starting hw hold
  | _ => exact hw

/-- A worker has ended because it could not start. -/
theorem Server.Step.worker_ends {e : ServerEvent} {w : Nat}
    (h : Server.Step config numWorkers s e t) (hs : ¬ s.workers[w]? = some .ended)
    (ht : t.workers[w]? = some .ended) : e = .startFailed w := by
  cases h with
  | spawn =>
    rw [List.getElem?_append] at ht
    split at ht
    · exact absurd ht hs
    · rw [List.getElem?_singleton] at ht
      split at ht <;> cases ht
  | @listen v _ _ starting =>
    by_cases hv : v = w
    · subst hv
      rw [List.getElem?_set_self (List.getElem?_eq_some_iff.mp starting).1] at ht
      cases ht
    · rw [List.getElem?_set_ne hv] at ht
      exact absurd ht hs
  | @startFails v =>
    by_cases hv : v = w
    · rw [hv]
    · rw [List.getElem?_set_ne hv] at ht
      exact absurd ht hs
  | _ => exact absurd ht hs

/-- Nothing happens after the process is over. -/
theorem Server.Step.running {e : ServerEvent} (h : Server.Step config numWorkers s e t) :
    s.main.Running := by
  cases h with
  | spawn spawning | spawnFails spawning | spawnedAll spawning => exact spawning ▸ trivial
  | join waiting | joinedAll waiting => exact waiting ▸ trivial
  | listen running | startFails running | startAborts running | acceptFails running
  | accept running | perform running | crash running => exact running

/-- **What ends a process.** -/
theorem Server.Step.over {e : ServerEvent} (h : Server.Step config numWorkers s e t)
    (hover : ¬ t.main.Running) : e = .spawnFailed ∨ (∃ w, e = .startAborted w) ∨
      (∃ i, e = .crashed i) ∨ t.main = .returned true := by
  have hrunning := h.running
  cases h with
  | spawnFails => exact Or.inl rfl
  | startAborts => exact Or.inr (Or.inl ⟨_, rfl⟩)
  | crash => exact Or.inr (Or.inr (Or.inl ⟨_, rfl⟩))
  | joinedAll => exact Or.inr (Or.inr (Or.inr rfl))
  | spawnedAll | join => exact absurd trivial hover
  | _ => exact absurd hrunning hover

/-- No connection panics. -/
theorem Server.Step.not_crashed {e : ServerEvent} (h : Server.Step config numWorkers s e t)
    (hs : s.Valid numWorkers) (i : Nat) : e ≠ .crashed i := by
  rintro rfl
  cases h with
  | crash _ panics => exact hs.sound _ (List.mem_of_getElem? panics) _ rfl

/-- When no worker has listened there are no connections. -/
theorem Server.unserved (h : Leads (Server.Step config numWorkers) .initial es s)
    (hvalid : s.Valid numWorkers) (hnone : ∀ w : Nat, s.workers[w]? ≠ some .listening) :
    es.filterMap ServerEvent.connection = [] := by
  have htasks : s.tasks = [] := by
    by_contra hne
    obtain ⟨w, hw⟩ := hvalid.served hne
    exact hnone w hw
  have heq := Server.performed_append h 0
  rw [htasks, List.getElem?_nil, Option.map_none, Option.map_eq_none_iff,
    List.getElem?_eq_none_iff] at heq
  exact List.eq_nil_of_length_eq_zero (Nat.le_zero.mp heq)

/-- **A server goes on**: a worker that listens goes on listening, whatever the clients send.
No connection panics.  The process is over only because a thread could not be spawned or
the runtime of a worker could not be built, or because no worker could start, and then no
connection has ever been accepted. -/
theorem server_endures (h : Leads (Server.Step config numWorkers) .initial es s) :
    (∀ w, .listening w ∈ es → s.workers[w]? = some .listening) ∧
    (∀ i, .crashed i ∉ es) ∧
    (¬ s.main.Running → .spawnFailed ∈ es ∨ (∃ w, .startAborted w ∈ es) ∨
      (∀ w < numWorkers, .startFailed w ∈ es) ∧ es.filterMap ServerEvent.connection = []) := by
  obtain ⟨hcrashed, hvalid⟩ := h.invariant (I := Server.Valid numWorkers)
    (P := fun e => ∀ i, e ≠ .crashed i)
    (fun s e t hstep hs => ⟨hstep.not_crashed hs, hstep.valid hs⟩) Server.initial_valid
  refine ⟨fun w hmem => ?_, fun i hmem => hcrashed _ hmem i rfl, fun hover => ?_⟩
  · obtain ⟨a, b, rfl⟩ := List.append_of_mem hmem
    obtain ⟨u, -, hb⟩ := h.split
    cases hb with
    | cons first rest =>
      refine (rest.invariant (I := fun s => s.workers[w]? = some .listening)
        (P := fun _ => True)
        (fun s e t hstep hs => ⟨trivial, hstep.worker_stays hs (by intro h; cases h)⟩) ?_).2
      cases first with
      | listen _ starting =>
        exact List.getElem?_set_self (List.getElem?_eq_some_iff.mp starting).1
  · have hne : Server.initial ≠ s := by
      rintro rfl
      exact hover trivial
    obtain ⟨fs, e, u, hes, -, hlast⟩ := h.last hne
    have hmem : e ∈ es := hes ▸ List.mem_append_right fs List.mem_cons_self
    rcases hlast.over hover with rfl | ⟨w, rfl⟩ | ⟨i, rfl⟩ | hreturned
    · exact Or.inl hmem
    · exact Or.inr (Or.inl ⟨w, hmem⟩)
    · exact absurd rfl (hcrashed _ hmem i)
    · obtain ⟨hlen, hall⟩ := hvalid.returned hreturned
      refine Or.inr (Or.inr ⟨fun w hw => ?_, Server.unserved h hvalid fun w hw => ?_⟩)
      · obtain ⟨a, e, b, u, v, rfl, -, -, rfl, -⟩ := h.exists_before
          (I := fun s => s.workers[w]? = some .ended) (P := fun _ e _ => e = .startFailed w)
          (fun s e t hstep hs ht => hstep.worker_ends hs ht) (by simp [Server.initial])
          (hall w hw)
        exact List.mem_append_right a List.mem_cons_self
      · have hlt := (List.getElem?_eq_some_iff.mp hw).1
        rw [hall w (hlen ▸ hlt)] at hw
        cases hw

end

/-- The only worker cannot start. -/
def failedRun : List ServerEvent := [.spawned, .allSpawned, .startFailed 0, .joined 0, .allJoined]

theorem failedRun_leads :
    Leads (Server.Step defaultServer 1) .initial failedRun ⟨.returned true, [.ended], []⟩ := by
  have hfail : Server.Step defaultServer 1 ⟨.joining 0, [.starting], []⟩ (.startFailed 0)
      ⟨.joining 0, [.ended], []⟩ :=
    @Server.Step.startFails _ _ _ _ ⟨false, fun _ => true⟩ trivial rfl fun h => by cases h.1
  exact .cons (.spawn rfl (by decide)) (.cons (.spawnedAll rfl rfl) (.cons hfail
    (.cons (.join rfl rfl) (.cons (.joinedAll rfl) (.nil _)))))

theorem server_endures_example : .spawnFailed ∈ failedRun ∨ (∃ w, .startAborted w ∈ failedRun) ∨
    (∀ w < 1, .startFailed w ∈ failedRun) ∧ failedRun.filterMap ServerEvent.connection = [] :=
  (server_endures failedRun_leads).2.2 id

end GreenTunnel
