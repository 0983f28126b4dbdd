import Dwpal.Lib.Machine
import Dwpal.Serializer.Model
import Dwpal.Daemon.IfaceManager

/-! The threads of the daemon and what they wait for: room in the list of a serializer, the mutexes
`pending_lock` of the server and `attach_mutex` of `dwpal_ext`, and the end of another thread. A
submission that finds the list full tries again until there is room. -/

namespace Dwpal.Daemon

open Machine Ipc
open Serializer (asyncWorkListMaxSize delayedWorkListMaxSize)

/-- `dwpald.hap_man` and `dwpald.nl_man`. -/
inductive ManagerId where
  | hapMan
  | nlMan
deriving DecidableEq

/-- The threads of `dwpal_ext`: one receives the events of all interfaces, the other one looks after
the connections to hostapd. -/
inductive ExtThread where
  | listener
  | monitor
deriving DecidableEq

/-- The thread of `wave_ipcs_run`, those of the two serializers, and those of `dwpal_ext`. -/
inductive DaemonThread where
  | main
  | worker (man : ManagerId)
  | ext (thread : ExtThread)
deriving DecidableEq

inductive DaemonLock where
  | pendingLock
  | attachMutex
deriving DecidableEq

/-- `IFACE_MAN_CMD_WORK` and so on. -/
inductive ManagerWorkId where
  | cmd
  | event
  | attach
  | detach
  | disconn
  | updateEvent
deriving DecidableEq

/-- What a thread does and others may hold up, or be held up by. `retrySubmit` and `retryDelayed`
are submissions that have found the list full, and `join` is a `cancel` that has told the thread to
stop. -/
inductive DaemonOp where
  | submit (man : ManagerId) (work : ManagerWorkId)
  | retrySubmit (man : ManagerId) (work : ManagerWorkId)
  | addDelayed (man : ManagerId) (ifname : IfName)
  | retryDelayed (man : ManagerId) (ifname : IfName)
  | cancelDelayed (man : ManagerId) (ifname : IfName)
  | send
  | lock (l : DaemonLock)
  | unlock (l : DaemonLock)
  | cancel (thread : ExtThread)
  | join (thread : ExtThread)
  | create (thread : ExtThread)

/-- `iface_manager_event_received`. -/
def ifaceManagerEventReceived (man : ManagerId) : List DaemonOp := [.submit man .event]

/-- `iface_manager_sta_disconnected`. -/
def ifaceManagerStaDisconnected (man : ManagerId) : List DaemonOp := [.submit man .disconn]

/-- `dwpald_removing_client`. -/
def dwpaldRemovingClient : List DaemonOp :=
  ifaceManagerStaDisconnected .hapMan ++ ifaceManagerStaDisconnected .nlMan

/-- `interfaceEventSend`, in the thread that comes to it; without memory for the event it is given
up before it gets to the manager. -/
def interfaceEventSend (received : Bool) : List DaemonOp :=
  if received then ifaceManagerEventReceived .hapMan else []

/-- What becomes of a command for hostapd: it is answered; it is not sent, as the interface is down
or waits to be connected again; or it fails or is not answered in time, the interface has to be
connected again, and `INTERFACE_DISCONNECTED` is sent. -/
inductive HostapReply where
  | answered
  | refused
  | failed (received : Bool)
deriving DecidableEq

/-- `dwpal_ext_hostap_cmd_send`. -/
def dwpalExtHostapCmdSend : HostapReply → List DaemonOp
  | .answered | .refused => []
  | .failed received => interfaceEventSend received

/-- `interfaceConnectedOkSend`: hostapd is asked for its status before `INTERFACE_CONNECTED_OK` is
sent. -/
def interfaceConnectedOkSend (status : HostapReply) (received : Bool) : List DaemonOp :=
  dwpalExtHostapCmdSend status ++
    if status = .answered then interfaceEventSend received else []

/-- What `dwpal_ext` finds at an attach: it is not asked, the interface is up, or there is no place
for it, and whether other interfaces keep the threads; or it is set up, without a connection to
hostapd or with one. -/
inductive ExtAttach where
  | skipped
  | alreadyUp
  | noPlace (active : Bool)
  | setUp
  | connected (status : HostapReply) (received : Bool)
deriving DecidableEq

/-- What `dwpal_ext` finds at a detach. -/
inductive ExtDetach where
  | skipped
  | down
  | removed (active : Bool)
deriving DecidableEq

/-- The threads that attaching or detaching an interface of the manager stops. -/
def ManagerId.extThreads : ManagerId → List ExtThread
  | .hapMan => [.listener, .monitor]
  | .nlMan => [.listener]

def cancelThreads (man : ManagerId) : List DaemonOp := man.extThreads.map .cancel

def createThreads (man : ManagerId) (active : Bool) : List DaemonOp :=
  if active then man.extThreads.map .create else []

/-- `dwpal_ext_hostap_interface_attach` and `dwpal_ext_driver_nl_attach`; only the former has a
connection to hostapd. -/
def dwpalExtAttach (man : ManagerId) : ExtAttach → List DaemonOp
  | .skipped => []
  | .alreadyUp => [.lock .attachMutex, .unlock .attachMutex]
  | .noPlace active =>
    .lock .attachMutex :: cancelThreads man ++ createThreads man active ++ [.unlock .attachMutex]
  | .setUp =>
    .lock .attachMutex :: cancelThreads man ++ createThreads man true ++ [.unlock .attachMutex]
  | .connected status received =>
    .lock .attachMutex :: cancelThreads man ++
      (if man = .hapMan then interfaceConnectedOkSend status received else []) ++
      createThreads man true ++ [.unlock .attachMutex]

/-- `dwpal_ext_hostap_interface_detach` and `dwpal_ext_driver_nl_detach`. -/
def dwpalExtDetach (man : ManagerId) : ExtDetach → List DaemonOp
  | .skipped => []
  | .down => [.lock .attachMutex, .unlock .attachMutex]
  | .removed active =>
    .lock .attachMutex :: cancelThreads man ++ createThreads man active ++ [.unlock .attachMutex]

/-- `hostap_execute_command` and `nl_execute_command`; the latter sends no command to hostapd. -/
def executeCommand (sent : HostapReply) (replies : Nat) : ManagerId → List DaemonOp
  | .hapMan => dwpalExtHostapCmdSend sent ++ List.replicate replies .send
  | .nlMan => List.replicate replies .send

/-- A work and what it finds: what becomes of a command, the number of its replies or of the
stations that are registered to the event, and which interfaces are left without a client. -/
inductive WorkRun where
  | executeCmd (sent : HostapReply) (replies : Nat)
  | sendEvent (stations : Nat)
  | ifaceAttach (found : ExtAttach)
  | ifaceDetach (ifname : IfName) (unused : Bool)
  | staDisconnect (unused : List IfName)
  | ifaceUpdateEvent

namespace WorkRun

def workId : WorkRun → ManagerWorkId
  | executeCmd _ _ => .cmd
  | sendEvent _ => .event
  | ifaceAttach _ => .attach
  | ifaceDetach _ _ => .detach
  | staDisconnect _ => .disconn
  | ifaceUpdateEvent => .updateEvent

/-- The delayed detach of an interface that nobody is attached to any more. -/
def detachLater (man : ManagerId) (ifname : IfName) : List DaemonOp :=
  [.cancelDelayed man ifname, .addDelayed man ifname]

def ops (man : ManagerId) : WorkRun → List DaemonOp
  | executeCmd sent replies => executeCommand sent replies man
  | sendEvent stations => List.replicate stations .send
  | ifaceAttach found => dwpalExtAttach man found ++ [.send]
  | ifaceDetach ifname unused =>
    .cancelDelayed man ifname :: (if unused then [.addDelayed man ifname] else []) ++ [.send]
  | staDisconnect unused => unused.flatMap (detachLater man)
  | ifaceUpdateEvent => [.send]

end WorkRun

/-- What the server does in one go: it attaches an interface of the command line before it runs,
takes a command in or refuses it, finds that a station is gone, or sends pending messages again and
removes the stations that have not taken any for too long. -/
inductive ServerTask where
  | seedIface (found : ExtAttach)
  | cmdAsync (man : ManagerId) (work : ManagerWorkId)
  | refuse
  | stationGone
  | resendPending (removed : Nat)

def ServerTask.ops : ServerTask → List DaemonOp
  | .seedIface found => dwpalExtAttach .hapMan found
  | .cmdAsync man work => [.submit man work]
  | .refuse => [.send]
  | .stationGone => [.lock .pendingLock, .unlock .pendingLock] ++ dwpaldRemovingClient
  | .resendPending removed =>
    -- `removing_client` is called with the lock
    .lock .pendingLock :: (List.replicate removed dwpaldRemovingClient).flatten ++
      [.unlock .pendingLock]

structure DaemonThreads where
  works : ManagerId → List ManagerWorkId
  delayed : ManagerId → List IfName
  code : DaemonThread → List DaemonOp
  owner : DaemonLock → Option DaemonThread
  alive : ExtThread → Bool

/-- A thread without code starts on something, or a thread goes on with its code; a message that it
sends blocks or not. -/
inductive DaemonAction where
  | serve (task : ServerTask)
  | receive (thread : ExtThread) (man : ManagerId)
  | takeWork (man : ManagerId) (run : WorkRun)
  | takeDelayed (man : ManagerId) (found : ExtDetach)
  | advance (t : DaemonThread) (wouldBlock : Bool)

namespace DaemonThreads

def init : DaemonThreads :=
  ⟨fun _ => [], fun _ => [], fun _ => [], fun _ => none, fun _ => false⟩

def setCode (s : DaemonThreads) (t : DaemonThread) (ops : List DaemonOp) : DaemonThreads :=
  { s with code := Function.update s.code t ops }

/-- `_serializer_exec_work` for an asynchronous work. -/
def submit (s : DaemonThreads) (t : DaemonThread) (man : ManagerId) (work : ManagerWorkId)
    (rest : List DaemonOp) : DaemonThreads :=
  if (s.works man).length ≥ asyncWorkListMaxSize then s.setCode t (.retrySubmit man work :: rest)
  else { s.setCode t rest with works := Function.update s.works man (s.works man ++ [work]) }

/-- `_serializer_exec_work` for a delayed work; all delays are equal. -/
def addDelayed (s : DaemonThreads) (t : DaemonThread) (man : ManagerId) (ifname : IfName)
    (rest : List DaemonOp) : DaemonThreads :=
  if (s.delayed man).length ≥ delayedWorkListMaxSize then
    s.setCode t (.retryDelayed man ifname :: rest)
  else
    { s.setCode t rest with delayed := Function.update s.delayed man (s.delayed man ++ [ifname]) }

/-- The thread goes on with `op`, which is in front of `rest`. -/
def advance (s : DaemonThreads) (t : DaemonThread) (wouldBlock : Bool) (rest : List DaemonOp) :
    DaemonOp → Option DaemonThreads
  | .submit man work | .retrySubmit man work => some (s.submit t man work rest)
  | .addDelayed man ifname | .retryDelayed man ifname => some (s.addDelayed t man ifname rest)
  | .cancelDelayed man ifname => some { s.setCode t rest with
      delayed := Function.update s.delayed man ((s.delayed man).filter (· ≠ ifname)) }
  | .send =>
    -- `wave_ipcs_send_would_block`
    some (s.setCode t
      (if wouldBlock then .lock .pendingLock :: .unlock .pendingLock :: rest else rest))
  | .lock l =>
    if s.owner l = none then
      some { s.setCode t rest with owner := Function.update s.owner l (some t) }
    else none
  | .unlock l => some { s.setCode t rest with owner := Function.update s.owner l none }
  | .cancel thread => some (s.setCode t (if s.alive thread then .join thread :: rest else rest))
  | .join thread =>
    if s.code (.ext thread) = [] then
      some { s.setCode t rest with alive := Function.update s.alive thread false }
    else none
  | .create thread =>
    some { s.setCode t rest with alive := Function.update s.alive thread true }

def step (s : DaemonThreads) : DaemonAction → Option DaemonThreads
  | .serve task => if s.code .main = [] then some (s.setCode .main task.ops) else none
  | .receive thread man =>
    -- only the listener receives events of the driver
    if s.code (.ext thread) = [] ∧ s.alive thread = true ∧
        (thread = .monitor → man = .hapMan) then
      some (s.setCode (.ext thread) (ifaceManagerEventReceived man))
    else none
  | .takeWork man run =>
    match s.works man with
    | work :: works =>
      if s.code (.worker man) = [] ∧ run.workId = work then
        some { s.setCode (.worker man) (run.ops man) with
          works := Function.update s.works man works }
      else none
    | [] => none
  | .takeDelayed man found =>
    match s.works man, s.delayed man with
    | [], ifname :: delayed =>
      if s.code (.worker man) = [] then
        some { s.setCode (.worker man) (.cancelDelayed man ifname :: dwpalExtDetach man found) with
          delayed := Function.update s.delayed man delayed }
      else none
    | _, _ => none
  | .advance t wouldBlock =>
    match s.code t with
    | op :: rest => s.advance t wouldBlock rest op
    | [] => none

end DaemonThreads

/-- The serializer whose list a submission waits for. -/
def DaemonOp.retries : DaemonOp → Option ManagerId
  | .retrySubmit man _ | .retryDelayed man _ => some man
  | _ => none

/-- The thread is in the loop of a submission to the serializer of `man`. -/
def Retries (s : DaemonThreads) (t : DaemonThread) (man : ManagerId) : Prop :=
  ∃ op ∈ (s.code t).head?, op.retries = some man

/-- The worker of `man` waits for the pending lock, and `t` holds it. -/
def WaitsForHolder (s : DaemonThreads) (man : ManagerId) (t : DaemonThread) : Prop :=
  (s.code (.worker man)).head? = some (.lock .pendingLock) ∧ s.owner .pendingLock = some t

/-- The worker of `man` waits for `t` to end. -/
def Joins (s : DaemonThreads) (man : ManagerId) (t : DaemonThread) : Prop :=
  ∃ thread, (s.code (.worker man)).head? = some (.join thread) ∧ t = .ext thread

/-- The worker of `man` is in the loop of a submission to its own serializer, or waits for a thread
that is. -/
def Wedged (s : DaemonThreads) (man : ManagerId) : Prop :=
  ∃ t, Retries s t man ∧ (t = .worker man ∨ WaitsForHolder s man t ∨ Joins s man t)

/-- There is room whenever a worker submits to its own serializer, and whenever a thread submits to
one whose worker waits for it; and no worker sends a message that blocks, or stops a thread, while
the holder of the lock or that thread waits for room in the list of its serializer. -/
def RoomWhereAwaited (s : DaemonThreads) : DaemonAction → Prop
  | .advance t wouldBlock =>
    match s.code t with
    | .submit man _ :: _ => (s.works man).length < asyncWorkListMaxSize ∨
        ¬(t = .worker man ∨ WaitsForHolder s man t ∨ Joins s man t)
    | .addDelayed man _ :: _ => (s.delayed man).length < delayedWorkListMaxSize
    | .send :: _ => wouldBlock = true → ∀ man u, t = .worker man →
        s.owner .pendingLock = some u → ¬Retries s u man
    | .cancel thread :: _ => ∀ man, t = .worker man → ¬Retries s (.ext thread) man
    | _ => True
  | _ => True

/-- An operation that `t` may have ahead of it: only the server takes the pending lock for itself,
and only a worker adds to the delayed works of its manager. -/
def DaemonOp.ahead (t : DaemonThread) : DaemonOp → Bool
  | .retrySubmit _ _ | .retryDelayed _ _ | .join _ => false
  | .lock .pendingLock => t = .main
  | .addDelayed man _ => t = .worker man
  | _ => true

/-- An operation that a thread comes to only by starting on the one before it. -/
def DaemonOp.waits : DaemonOp → Bool
  | .retrySubmit _ _ | .retryDelayed _ _ | .join _ | .lock .pendingLock => true
  | _ => false

def CodeShape (t : DaemonThread) : List DaemonOp → Prop
  | [] => True
  | op :: rest => (op.ahead t ∨ op.waits) ∧ ∀ next ∈ rest, next.ahead t

namespace CodeShape

variable {t : DaemonThread} {op : DaemonOp} {ops rest : List DaemonOp}

theorem of_ahead (h : ∀ op ∈ ops, op.ahead t) : CodeShape t ops := by
  cases ops with
  | nil => trivial
  | cons op rest =>
    rw [List.forall_mem_cons] at h
    exact ⟨.inl h.1, h.2⟩

theorem tail (h : CodeShape t (op :: rest)) : CodeShape t rest := of_ahead h.2

theorem waiting (h : CodeShape t (op :: rest)) {op' : DaemonOp} (hwaits : op'.waits) :
    CodeShape t (op' :: rest) :=
  ⟨.inr hwaits, h.2⟩

end CodeShape

section Programs

variable {t : DaemonThread} {man : ManagerId}

theorem ahead_cancelThreads : ∀ op ∈ cancelThreads man, op.ahead t := by
  simp [cancelThreads, DaemonOp.ahead]

theorem ahead_createThreads {active : Bool} : ∀ op ∈ createThreads man active, op.ahead t := by
  cases active <;> simp [createThreads, DaemonOp.ahead]

theorem ahead_dwpalExtDetach (found : ExtDetach) :
    ∀ op ∈ dwpalExtDetach man found, op.ahead t := by
  cases found with
  | skipped => simp [dwpalExtDetach]
  | down => simp [dwpalExtDetach, DaemonOp.ahead]
  | removed active =>
    simp only [dwpalExtDetach, List.cons_append, List.forall_mem_cons, List.forall_mem_append]
    exact ⟨rfl, ⟨ahead_cancelThreads, ahead_createThreads⟩, by simp [DaemonOp.ahead]⟩

theorem ahead_interfaceEventSend {received : Bool} :
    ∀ op ∈ interfaceEventSend received, op.ahead t := by
  cases received <;> simp [interfaceEventSend, ifaceManagerEventReceived, DaemonOp.ahead]

theorem ahead_dwpalExtHostapCmdSend (sent : HostapReply) :
    ∀ op ∈ dwpalExtHostapCmdSend sent, op.ahead t := by
  cases sent with
  | answered => simp [dwpalExtHostapCmdSend]
  | refused => simp [dwpalExtHostapCmdSend]
  | failed received => exact ahead_interfaceEventSend

theorem ahead_interfaceConnectedOkSend (status : HostapReply) (received : Bool) :
    ∀ op ∈ interfaceConnectedOkSend status received, op.ahead t := by
  rw [interfaceConnectedOkSend, List.forall_mem_append]
  refine ⟨ahead_dwpalExtHostapCmdSend status, ?_⟩
  split
  · exact ahead_interfaceEventSend
  · simp

theorem ahead_dwpalExtAttach (found : ExtAttach) :
    ∀ op ∈ dwpalExtAttach man found, op.ahead t := by
  cases found with
  | skipped => simp [dwpalExtAttach]
  | alreadyUp => simp [dwpalExtAttach, DaemonOp.ahead]
  | noPlace active =>
    simp only [dwpalExtAttach, List.cons_append, List.forall_mem_cons, List.forall_mem_append]
    exact ⟨rfl, ⟨ahead_cancelThreads, ahead_createThreads⟩, by simp [DaemonOp.ahead]⟩
  | setUp =>
    simp only [dwpalExtAttach, List.cons_append, List.forall_mem_cons, List.forall_mem_append]
    exact ⟨rfl, ⟨ahead_cancelThreads, ahead_createThreads⟩, by simp [DaemonOp.ahead]⟩
  | connected status received =>
    simp only [dwpalExtAttach, List.cons_append, List.forall_mem_cons, List.forall_mem_append]
    refine ⟨rfl, ⟨⟨ahead_cancelThreads, ?_⟩, ahead_createThreads⟩, by simp [DaemonOp.ahead]⟩
    split
    · exact ahead_interfaceConnectedOkSend status received
    · simp

theorem ahead_work (run : WorkRun) : ∀ op ∈ run.ops man, op.ahead (.worker man) := by
  cases run with
  | executeCmd sent replies =>
    have hsends : ∀ op ∈ List.replicate replies DaemonOp.send, op.ahead (.worker man) := by
      simp +contextual [List.mem_replicate, DaemonOp.ahead]
    cases man with
    | hapMan =>
      rw [WorkRun.ops, executeCommand, List.forall_mem_append]
      exact ⟨ahead_dwpalExtHostapCmdSend sent, hsends⟩
    | nlMan => exact hsends
  | sendEvent stations => simp +contextual [WorkRun.ops, List.mem_replicate, DaemonOp.ahead]
  | ifaceAttach found =>
    simp only [WorkRun.ops, List.forall_mem_append]
    exact ⟨ahead_dwpalExtAttach found, by simp [DaemonOp.ahead]⟩
  | ifaceDetach ifname unused => cases unused <;> simp [WorkRun.ops, DaemonOp.ahead]
  | staDisconnect unused =>
    simp +contextual [WorkRun.ops, WorkRun.detachLater, DaemonOp.ahead, or_imp]
  | ifaceUpdateEvent => simp [WorkRun.ops, DaemonOp.ahead]

theorem ahead_serverTask (task : ServerTask) : ∀ op ∈ task.ops, op.ahead .main := by
  cases task with
  | seedIface found => exact ahead_dwpalExtAttach found
  | cmdAsync man work => simp [ServerTask.ops, DaemonOp.ahead]
  | refuse => simp [ServerTask.ops, DaemonOp.ahead]
  | stationGone =>
    simp [ServerTask.ops, dwpaldRemovingClient, ifaceManagerStaDisconnected, DaemonOp.ahead]
  | resendPending removed =>
    simp +contextual [ServerTask.ops, dwpaldRemovingClient, ifaceManagerStaDisconnected,
      DaemonOp.ahead, List.mem_replicate, or_imp]

end Programs

structure CodeInv (s : DaemonThreads) : Prop where
  shape : ∀ t, CodeShape t (s.code t)
  dead : ∀ thread, s.alive thread = false → s.code (.ext thread) = []

namespace CodeInv

variable {s s' : DaemonThreads} {t : DaemonThread} {op : DaemonOp} {ops rest : List DaemonOp}

theorem init : CodeInv .init := ⟨fun _ => trivial, fun _ _ => rfl⟩

theorem setCode (hi : CodeInv s) (hcode : s'.code = Function.update s.code t ops)
    (hshape : CodeShape t ops)
    (hdead : ∀ thread, s'.alive thread = false →
      t ≠ .ext thread ∧ (s.alive thread = false ∨ s.code (.ext thread) = [])) : CodeInv s' := by
  constructor
  · intro u
    rw [hcode, Function.update_apply]
    split
    · next hu =>
      rw [hu]
      exact hshape
    · exact hi.shape u
  · intro thread hthread
    obtain ⟨hne, hidle⟩ := hdead thread hthread
    rw [hcode, Function.update_of_ne hne.symm]
    rcases hidle with hidle | hidle
    · exact hi.dead thread hidle
    · exact hidle

/-- A thread that has ended has no code. -/
theorem busy (hi : CodeInv s) (hcode : s.code t = op :: rest) {thread : ExtThread}
    (hthread : s.alive thread = false) : t ≠ .ext thread := by
  rintro rfl
  rw [hi.dead thread hthread] at hcode
  cases hcode

theorem advance (hi : CodeInv s) (hcode : s.code t = op :: rest) {wouldBlock : Bool}
    (hst : s.advance t wouldBlock rest op = some s') : CodeInv s' := by
  have hshape := hi.shape t
  rw [hcode] at hshape
  have hdead : ∀ thread, s.alive thread = false →
      t ≠ .ext thread ∧ (s.alive thread = false ∨ s.code (.ext thread) = []) :=
    fun thread hthread => ⟨hi.busy hcode hthread, .inl hthread⟩
  cases op with
  | submit man work | retrySubmit man work =>
    cases hst
    rw [DaemonThreads.submit]
    split
    · exact hi.setCode rfl (hshape.waiting rfl) hdead
    · exact hi.setCode rfl hshape.tail hdead
  | addDelayed man ifname | retryDelayed man ifname =>
    cases hst
    rw [DaemonThreads.addDelayed]
    split
    · exact hi.setCode rfl (hshape.waiting rfl) hdead
    · exact hi.setCode rfl hshape.tail hdead
  | cancelDelayed man ifname =>
    cases hst
    exact hi.setCode rfl hshape.tail hdead
  | send =>
    cases hst
    cases wouldBlock with
    | false => exact hi.setCode rfl hshape.tail hdead
    | true =>
      refine hi.setCode rfl ⟨.inr rfl, ?_⟩ hdead
      rw [List.forall_mem_cons]
      exact ⟨rfl, hshape.2⟩
  | lock l =>
    simp only [DaemonThreads.advance, Option.ite_none_right_eq_some] at hst
    obtain ⟨-, hst⟩ := hst
    cases hst
    exact hi.setCode rfl hshape.tail hdead
  | unlock l =>
    cases hst
    exact hi.setCode rfl hshape.tail hdead
  | cancel thread =>
    cases hst
    refine hi.setCode rfl ?_ hdead
    split
    · exact hshape.waiting rfl
    · exact hshape.tail
  | join thread =>
    simp only [DaemonThreads.advance, Option.ite_none_right_eq_some] at hst
    obtain ⟨hended, hst⟩ := hst
    cases hst
    apply hi.setCode rfl hshape.tail
    intro other hother
    by_cases hsame : other = thread
    · subst hsame
      refine ⟨?_, .inr hended⟩
      rintro rfl
      rw [hended] at hcode
      cases hcode
    · apply hdead
      rw [← hother]
      exact (Function.update_of_ne hsame _ _).symm
  | create thread =>
    cases hst
    apply hi.setCode rfl hshape.tail
    intro other hother
    by_cases hsame : other = thread
    · subst hsame
      have hstarted : Function.update s.alive other true other = true :=
        Function.update_self _ _ _
      cases hstarted.symm.trans hother
    · apply hdead
      rw [← hother]
      exact (Function.update_of_ne hsame _ _).symm

theorem step (hi : CodeInv s) {action : DaemonAction} (hst : s.step action = some s') :
    CodeInv s' := by
  cases action with
  | serve task =>
    simp only [DaemonThreads.step, Option.ite_none_right_eq_some] at hst
    obtain ⟨-, hst⟩ := hst
    cases hst
    exact hi.setCode rfl (.of_ahead (ahead_serverTask task)) fun _ h => ⟨nofun, .inl h⟩
  | receive thread man =>
    simp only [DaemonThreads.step, Option.ite_none_right_eq_some] at hst
    obtain ⟨⟨-, halive, -⟩, hst⟩ := hst
    cases hst
    apply hi.setCode rfl
    · exact .of_ahead (by simp [ifaceManagerEventReceived, DaemonOp.ahead])
    · rintro other (hother : s.alive other = false)
      refine ⟨?_, .inl hother⟩
      rintro ⟨⟩
      rw [halive] at hother
      cases hother
  | takeWork man run =>
    simp only [DaemonThreads.step] at hst
    split at hst
    · rw [Option.ite_none_right_eq_some] at hst
      obtain ⟨-, hst⟩ := hst
      cases hst
      exact hi.setCode rfl (.of_ahead (ahead_work run)) fun _ h => ⟨nofun, .inl h⟩
    · cases hst
  | takeDelayed man found =>
    simp only [DaemonThreads.step] at hst
    split at hst
    · rw [Option.ite_none_right_eq_some] at hst
      obtain ⟨-, hst⟩ := hst
      cases hst
      refine hi.setCode rfl ⟨.inl rfl, ahead_dwpalExtDetach found⟩ ?_
      exact fun _ h => ⟨nofun, .inl h⟩
    · cases hst
  | advance t wouldBlock =>
    simp only [DaemonThreads.step] at hst
    split at hst
    · next op rest hcode => exact hi.advance hcode hst
    · cases hst

end CodeInv

section Wedges

variable {s s' : DaemonThreads} {t u : DaemonThread} {man : ManagerId} {op : DaemonOp}
  {ops rest : List DaemonOp}

theorem retries_of_ne (hcode : s'.code = Function.update s.code t ops) (hne : u ≠ t) :
    Retries s' u man ↔ Retries s u man := by
  rw [Retries, Retries, hcode, Function.update_of_ne hne]

/-- After a thread has come to the code `ops`, either the worker was wedged before, or `ops` begins
with a submission that finds no room and that the worker waits for, or the worker begins to wait. -/
theorem Wedged.setCode (hwedged : Wedged s' man)
    (hcode : s'.code = Function.update s.code t ops)
    (howner : ∀ u, u ≠ t → s'.owner .pendingLock = some u → s.owner .pendingLock = some u) :
    Wedged s man ∨
      (∃ op ∈ ops.head?, op.retries = some man ∧
        (t = .worker man ∨ WaitsForHolder s' man t ∨ Joins s' man t)) ∨
      (t = .worker man ∧ ∃ u, Retries s u man ∧
        (ops.head? = some (.lock .pendingLock) ∧ s.owner .pendingLock = some u ∨
          ∃ thread, ops.head? = some (.join thread) ∧ u = .ext thread)) := by
  obtain ⟨u, hretries, hwaits⟩ := hwedged
  by_cases hu : u = t
  · subst hu
    right
    left
    obtain ⟨op, hop, hman⟩ := hretries
    rw [hcode, Function.update_self] at hop
    exact ⟨op, hop, hman, hwaits⟩
  · rw [retries_of_ne hcode hu] at hretries
    by_cases ht : t = .worker man
    · subst ht
      rcases hwaits with hself | ⟨hhead, hholds⟩ | ⟨thread, hhead, hthread⟩
      · exact (hu hself).elim
      · rw [hcode, Function.update_self] at hhead
        exact .inr (.inr ⟨rfl, u, hretries, .inl ⟨hhead, howner u hu hholds⟩⟩)
      · rw [hcode, Function.update_self] at hhead
        exact .inr (.inr ⟨rfl, u, hretries, .inr ⟨thread, hhead, hthread⟩⟩)
    · have hworker : s'.code (.worker man) = s.code (.worker man) := by
        rw [hcode, Function.update_of_ne (Ne.symm ht)]
      left
      refine ⟨u, hretries, ?_⟩
      rcases hwaits with hself | ⟨hhead, hholds⟩ | ⟨thread, hhead, hthread⟩
      · exact .inl hself
      · rw [hworker] at hhead
        exact .inr (.inl ⟨hhead, howner u hu hholds⟩)
      · rw [hworker] at hhead
        exact .inr (.inr ⟨thread, hhead, hthread⟩)

/-- Code that is only ahead of a thread makes nobody wait. -/
theorem Wedged.setCode_ahead (hwedged : Wedged s' man)
    (hcode : s'.code = Function.update s.code t ops)
    (howner : ∀ u, u ≠ t → s'.owner .pendingLock = some u → s.owner .pendingLock = some u)
    (hops : ∀ op ∈ ops, op.ahead t) : Wedged s man := by
  rcases hwedged.setCode hcode howner with hwas | ⟨op, hop, hretries, -⟩ |
    ⟨rfl, u, -, ⟨hhead, -⟩ | ⟨thread, hhead, -⟩⟩
  · exact hwas
  · have hahead := hops op (List.mem_of_head? hop)
    cases op <;> simp [DaemonOp.retries, DaemonOp.ahead] at hretries hahead
  · have hahead := hops _ (List.mem_of_head? hhead)
    simp [DaemonOp.ahead] at hahead
  · have hahead := hops _ (List.mem_of_head? hhead)
    simp [DaemonOp.ahead] at hahead

theorem waits_setCode :
    (t = .worker man ∨ WaitsForHolder (s.setCode t ops) man t ∨ Joins (s.setCode t ops) man t) ↔
      (t = .worker man ∨ WaitsForHolder s man t ∨ Joins s man t) := by
  by_cases ht : t = .worker man
  · simp [ht]
  · have hworker : (s.setCode t ops).code (.worker man) = s.code (.worker man) :=
      Function.update_of_ne (Ne.symm ht) _ _
    have howner : (s.setCode t ops).owner = s.owner := rfl
    simp only [WaitsForHolder, Joins, hworker, howner]

/-- A thread that comes to wait wedges nobody, unless it waits for room that a worker waits for, or
is a worker and waits for a thread that waits for room in its list. -/
theorem Wedged.setCode_cons (hwedged : Wedged (s.setCode t (op :: rest)) man)
    (hretry : op.retries = some man →
      ¬(t = .worker man ∨ WaitsForHolder s man t ∨ Joins s man t))
    (hlock : op = .lock .pendingLock → t = .worker man →
      ∀ u, s.owner .pendingLock = some u → ¬Retries s u man)
    (hjoin : ∀ thread, op = .join thread → t = .worker man → ¬Retries s (.ext thread) man) :
    Wedged s man := by
  rcases hwedged.setCode (s := s) rfl (fun _ _ h => h) with hwas | ⟨_, hhead, hop, hwaits⟩ |
    ⟨ht, u, hretries, ⟨hhead, howner⟩ | ⟨thread, hhead, hthread⟩⟩
  · exact hwas
  · cases hhead
    exact (hretry hop (waits_setCode.mp hwaits)).elim
  · cases hhead
    exact (hlock rfl ht u howner hretries).elim
  · cases hhead
    rw [hthread] at hretries
    exact (hjoin thread rfl ht hretries).elim

end Wedges

section Steps

variable {s s' : DaemonThreads} {t : DaemonThread} {man : ManagerId} {op : DaemonOp}
  {rest : List DaemonOp} {action : DaemonAction}

theorem Wedged.advance (hi : CodeInv s) (hcode : s.code t = op :: rest) {wouldBlock : Bool}
    (hok : RoomWhereAwaited s (.advance t wouldBlock))
    (hst : s.advance t wouldBlock rest op = some s') (hwedged : Wedged s' man) :
    Wedged s man := by
  have hshape := hi.shape t
  rw [hcode] at hshape
  simp only [RoomWhereAwaited, hcode] at hok
  cases op with
  | submit other work =>
    cases hst
    rw [DaemonThreads.submit] at hwedged
    split at hwedged
    · next hfull =>
      apply hwedged.setCode_cons _ nofun nofun
      rintro ⟨⟩
      exact hok.resolve_left (Nat.not_lt.mpr hfull)
    · exact hwedged.setCode_ahead rfl (fun _ _ h => h) hshape.2
  | retrySubmit other work =>
    cases hst
    rw [DaemonThreads.submit] at hwedged
    split at hwedged
    · rw [DaemonThreads.setCode, ← hcode, Function.update_eq_self] at hwedged
      exact hwedged
    · exact hwedged.setCode_ahead rfl (fun _ _ h => h) hshape.2
  | addDelayed other ifname =>
    cases hst
    rw [DaemonThreads.addDelayed, if_neg (Nat.not_le.mpr hok)] at hwedged
    exact hwedged.setCode_ahead rfl (fun _ _ h => h) hshape.2
  | retryDelayed other ifname =>
    cases hst
    rw [DaemonThreads.addDelayed] at hwedged
    split at hwedged
    · rw [DaemonThreads.setCode, ← hcode, Function.update_eq_self] at hwedged
      exact hwedged
    · exact hwedged.setCode_ahead rfl (fun _ _ h => h) hshape.2
  | cancelDelayed other ifname =>
    cases hst
    exact hwedged.setCode_ahead rfl (fun _ _ h => h) hshape.2
  | send =>
    cases hst
    cases wouldBlock with
    | false => exact hwedged.setCode_ahead rfl (fun _ _ h => h) hshape.2
    | true =>
      apply hwedged.setCode_cons nofun _ nofun
      intro _ ht u howner
      exact hok rfl man u ht howner
  | lock l =>
    simp only [DaemonThreads.advance, Option.ite_none_right_eq_some] at hst
    obtain ⟨-, hst⟩ := hst
    cases hst
    apply hwedged.setCode_ahead rfl _ hshape.2
    intro u hu howner
    cases l with
    | pendingLock =>
      replace howner : Function.update s.owner .pendingLock (some t) .pendingLock = some u := howner
      rw [Function.update_self, Option.some.injEq] at howner
      exact (hu howner.symm).elim
    | attachMutex => exact howner
  | unlock l =>
    cases hst
    apply hwedged.setCode_ahead rfl _ hshape.2
    intro u hu howner
    cases l with
    | pendingLock =>
      replace howner : Function.update s.owner .pendingLock none .pendingLock = some u := howner
      rw [Function.update_self] at howner
      cases howner
    | attachMutex => exact howner
  | cancel thread =>
    cases hst
    split at hwedged
    · apply hwedged.setCode_cons nofun nofun
      rintro _ ⟨⟩ ht
      exact hok man ht
    · exact hwedged.setCode_ahead rfl (fun _ _ h => h) hshape.2
  | join thread =>
    simp only [DaemonThreads.advance, Option.ite_none_right_eq_some] at hst
    obtain ⟨-, hst⟩ := hst
    cases hst
    exact hwedged.setCode_ahead rfl (fun _ _ h => h) hshape.2
  | create thread =>
    cases hst
    exact hwedged.setCode_ahead rfl (fun _ _ h => h) hshape.2

theorem Wedged.step (hi : CodeInv s) (hok : RoomWhereAwaited s action)
    (hst : s.step action = some s') (hwedged : Wedged s' man) : Wedged s man := by
  cases action with
  | serve task =>
    simp only [DaemonThreads.step, Option.ite_none_right_eq_some] at hst
    obtain ⟨-, hst⟩ := hst
    cases hst
    exact hwedged.setCode_ahead rfl (fun _ _ h => h) (ahead_serverTask task)
  | receive thread other =>
    simp only [DaemonThreads.step, Option.ite_none_right_eq_some] at hst
    obtain ⟨-, hst⟩ := hst
    cases hst
    apply hwedged.setCode_ahead rfl (fun _ _ h => h)
    simp [ifaceManagerEventReceived, DaemonOp.ahead]
  | takeWork other run =>
    simp only [DaemonThreads.step] at hst
    split at hst
    · rw [Option.ite_none_right_eq_some] at hst
      obtain ⟨-, hst⟩ := hst
      cases hst
      exact hwedged.setCode_ahead rfl (fun _ _ h => h) (ahead_work run)
    · cases hst
  | takeDelayed other found =>
    simp only [DaemonThreads.step] at hst
    split at hst
    · rw [Option.ite_none_right_eq_some] at hst
      obtain ⟨-, hst⟩ := hst
      cases hst
      apply hwedged.setCode_ahead rfl (fun _ _ h => h)
      rw [List.forall_mem_cons]
      exact ⟨rfl, ahead_dwpalExtDetach found⟩
    · cases hst
  | advance t wouldBlock =>
    simp only [DaemonThreads.step] at hst
    split at hst
    · next op rest hcode => exact hwedged.advance hi hcode hok hst
    · cases hst

/-- A step that does not meet the condition wedges a worker. -/
theorem wedged_of_full (hi : CodeInv s) (hok : ¬RoomWhereAwaited s action)
    (hst : s.step action = some s') : ∃ man, Wedged s' man := by
  cases action with
  | serve _ | receive _ _ | takeWork _ _ | takeDelayed _ _ => exact (hok trivial).elim
  | advance t wouldBlock =>
    simp only [DaemonThreads.step] at hst
    split at hst
    · next op rest hcode =>
      simp only [RoomWhereAwaited, hcode] at hok
      cases op with
      | submit other work =>
        rw [not_or, Nat.not_lt, not_not] at hok
        obtain ⟨hfull, hwaits⟩ := hok
        cases hst
        rw [DaemonThreads.submit, if_pos hfull]
        refine ⟨other, t, ⟨.retrySubmit other work, ?_, rfl⟩, waits_setCode.mpr hwaits⟩
        simp [DaemonThreads.setCode]
      | addDelayed other ifname =>
        have hshape := hi.shape t
        rw [hcode] at hshape
        obtain rfl : t = .worker other := by
          simpa [DaemonOp.ahead, DaemonOp.waits] using hshape.1
        cases hst
        rw [DaemonThreads.addDelayed, if_pos (Nat.not_lt.mp hok)]
        refine ⟨other, _, ⟨.retryDelayed other ifname, ?_, rfl⟩, .inl rfl⟩
        simp [DaemonThreads.setCode]
      | send =>
        simp only [not_forall, not_not] at hok
        obtain ⟨rfl, man, u, rfl, howner, hretries⟩ := hok
        cases hst
        have hne : u ≠ .worker man := by
          rintro rfl
          obtain ⟨op, hop, hman⟩ := hretries
          rw [hcode] at hop
          cases hop
          cases hman
        refine ⟨man, u, (retries_of_ne rfl hne).mpr hretries, .inr (.inl ⟨?_, howner⟩)⟩
        simp [DaemonThreads.setCode]
      | cancel thread =>
        simp only [not_forall, not_not] at hok
        obtain ⟨man, rfl, hretries⟩ := hok
        have halive : s.alive thread = true := by
          by_contra hdead
          obtain ⟨op, hop, -⟩ := hretries
          rw [hi.dead thread (by simpa using hdead)] at hop
          cases hop
        cases hst
        have hne : DaemonThread.ext thread ≠ .worker man := nofun
        refine ⟨man, .ext thread, (retries_of_ne rfl hne).mpr hretries,
          .inr (.inr ⟨thread, ?_, rfl⟩)⟩
        simp [DaemonThreads.setCode, halive]
      | retrySubmit _ _ | retryDelayed _ _ | cancelDelayed _ _ | lock _ | unlock _ | join _
        | create _ => exact (hok trivial).elim
    · cases hst

end Steps

theorem init_not_wedged (man : ManagerId) : ¬Wedged .init man := by
  rintro ⟨t, ⟨op, hop, -⟩, -⟩
  cases hop

/-- In every run whose steps all find room where somebody waits for it, no worker is ever wedged. -/
theorem backPressure {actions : List DaemonAction} {s : DaemonThreads}
    (hok : Along DaemonThreads.step RoomWhereAwaited .init actions)
    (hrun : exec DaemonThreads.step .init actions = some s) : ∀ man, ¬Wedged s man := by
  have hinv : CodeInv s ∧ ∀ man, ¬Wedged s man := by
    apply exec_along _ ⟨CodeInv.init, init_not_wedged⟩ hok hrun
    intro s action s' hs hok hst
    exact ⟨hs.1.step hst, fun man hwedged => hs.2 man (hwedged.step hs.1 hok hst)⟩
  exact hinv.2

/-- What an operation makes of the delayed works of `man`, once there is room for it. -/
def DaemonOp.delayedAfter (man : ManagerId) (delayed : List IfName) : DaemonOp → List IfName
  | .cancelDelayed other ifname =>
    if other = man then delayed.filter (· ≠ ifname) else delayed
  | .addDelayed other ifname | .retryDelayed other ifname =>
    if other = man then delayed ++ [ifname] else delayed
  | _ => delayed

theorem delayed_advance {s s' : DaemonThreads} {t : DaemonThread} {op : DaemonOp}
    {rest : List DaemonOp} {wouldBlock : Bool} {man : ManagerId}
    (hst : s.advance t wouldBlock rest op = some s')
    (hroom : (s.delayed man).length < delayedWorkListMaxSize) :
    s'.delayed man = op.delayedAfter man (s.delayed man) := by
  cases op with
  | submit _ _ | retrySubmit _ _ =>
    cases hst
    rw [DaemonThreads.submit]
    split <;> rfl
  | addDelayed other ifname | retryDelayed other ifname =>
    cases hst
    rw [DaemonThreads.addDelayed, DaemonOp.delayedAfter]
    by_cases hother : other = man
    · subst hother
      simp [Nat.not_le.mpr hroom]
    · rw [if_neg hother]
      split
      · rfl
      · exact Function.update_of_ne (Ne.symm hother) _ _
  | cancelDelayed other ifname =>
    cases hst
    by_cases hother : other = man
    · subst hother
      simp [DaemonOp.delayedAfter]
    · simp [DaemonOp.delayedAfter, hother, Ne.symm hother]
  | send | unlock _ | cancel _ | create _ =>
    cases hst
    rfl
  | lock _ | join _ =>
    simp only [DaemonThreads.advance, Option.ite_none_right_eq_some] at hst
    obtain ⟨-, hst⟩ := hst
    cases hst
    rfl

/-- An operation that takes one step where there is room. -/
def DaemonOp.atOnce : DaemonOp → Bool
  | .cancelDelayed _ _ | .addDelayed _ _ | .send => true
  | _ => false

theorem length_delayedAfter_le (man : ManagerId) (delayed : List IfName) (op : DaemonOp) :
    (op.delayedAfter man delayed).length ≤ delayed.length + 1 := by
  have hfilter := fun ifname => List.length_filter_le (fun name => name ≠ ifname) delayed
  cases op with
  | cancelDelayed other ifname =>
    rw [DaemonOp.delayedAfter]
    split
    · exact (hfilter ifname).trans (Nat.le_succ _)
    · exact Nat.le_succ _
  | addDelayed other ifname | retryDelayed other ifname =>
    rw [DaemonOp.delayedAfter]
    split
    · rw [List.length_append, List.length_singleton]
    · exact Nat.le_succ _
  | submit _ _ | retrySubmit _ _ | send | lock _ | unlock _ | cancel _ | join _ | create _ =>
    exact Nat.le_succ _

theorem advance_atOnce {s : DaemonThreads} {t : DaemonThread} {op : DaemonOp}
    {rest : List DaemonOp} (hop : op.atOnce)
    (hroom : ∀ man, (s.delayed man).length < delayedWorkListMaxSize) :
    ∃ s', s.advance t false rest op = some s' ∧ s'.code t = rest := by
  cases op with
  | cancelDelayed other ifname => exact ⟨_, rfl, Function.update_self _ _ _⟩
  | addDelayed other ifname =>
    refine ⟨_, rfl, ?_⟩
    rw [DaemonThreads.addDelayed, if_neg (Nat.not_le.mpr (hroom other))]
    exact Function.update_self _ _ _
  | send => exact ⟨_, rfl, Function.update_self _ _ _⟩
  | submit _ _ | retrySubmit _ _ | retryDelayed _ _ | lock _ | unlock _ | cancel _ | join _
    | create _ => cases hop

/-- A thread that is left alone goes through its operations, one step each. -/
theorem exec_atOnce {t : DaemonThread} {ops : List DaemonOp} (hops : ∀ op ∈ ops, op.atOnce)
    {s : DaemonThreads} (hcode : s.code t = ops)
    (hroom : ∀ man, (s.delayed man).length + ops.length ≤ delayedWorkListMaxSize) :
    ∃ s', exec DaemonThreads.step s (List.replicate ops.length (.advance t false)) = some s' ∧
      s'.code t = [] ∧
      ∀ man, s'.delayed man = ops.foldl (DaemonOp.delayedAfter man) (s.delayed man) := by
  induction ops generalizing s with
  | nil => exact ⟨s, rfl, hcode, fun _ => rfl⟩
  | cons op rest ih =>
    simp only [List.length_cons] at hroom
    rw [List.forall_mem_cons] at hops
    have hfree : ∀ man, (s.delayed man).length < delayedWorkListMaxSize := by
      intro man
      have hman := hroom man
      omega
    obtain ⟨next, hst, hnext⟩ :
        ∃ next, s.advance t false rest op = some next ∧ next.code t = rest :=
      advance_atOnce hops.1 hfree
    have hdelayed : ∀ man, next.delayed man = op.delayedAfter man (s.delayed man) :=
      fun man => delayed_advance hst (hfree man)
    have hstep : s.step (.advance t false) = some next := by
      rw [DaemonThreads.step, hcode]
      exact hst
    obtain ⟨s', hrun, hend, hafter⟩ := ih hops.2 hnext (by
      intro man
      have hlength := length_delayedAfter_le man (s.delayed man) op
      have hman := hroom man
      rw [hdelayed]
      omega)
    refine ⟨s', ?_, hend, fun man => ?_⟩
    · rw [List.length_cons, List.replicate_succ, exec, hstep]
      exact hrun
    · rw [hafter, hdelayed, List.foldl_cons]

section ManagerWorks

variable {ε β : Type} (w : World) (init : ManagerInit ε β) {m : IfaceManager ε β}
  (man : ManagerId)

/-- The interface is left without a client when `ipsta` is detached from it. -/
def IfaceManager.unusedWithout (m : IfaceManager ε β) (ifname : IfName) (ipsta : Station) : Bool :=
  match m.find ifname with
  | some iface => !iface.keepAttached ∧ iface.attachedClients.erase ipsta = []
  | none => false

/-- The interfaces that are left without a client when `ipsta` is gone. -/
def IfaceManager.unusedNames (m : IfaceManager ε β) (ipsta : Station) : List IfName :=
  (m.attachedIfaces.filter fun iface =>
    !iface.keepAttached ∧ iface.attachedClients.erase ipsta = []).map AttachedInterface.ifname

/-- The delayed works that a client's detach cancels and adds are those of its operations. -/
theorem ifaceDetachWork_ops (ifname : IfName) (seqNum : UInt8) (ipsta : Station) :
    (ifaceDetachWork w init m ⟨ifname, seqNum, some ipsta⟩).2.1.delayedDetach =
      ((WorkRun.ifaceDetach ifname (m.unusedWithout ifname ipsta)).ops man).foldl
        (DaemonOp.delayedAfter man) m.delayedDetach := by
  have hfind : ∀ delayed, IfaceManager.find { m with delayedDetach := delayed } ifname =
      m.find ifname := fun _ => rfl
  simp only [ifaceDetachWork, hfind]
  cases hiface : m.find ifname with
  | none =>
    rw [IfaceManager.unusedWithout, hiface]
    simp [requestFailed, WorkRun.ops, DaemonOp.delayedAfter]
  | some iface =>
    simp only
    by_cases hunused : !iface.keepAttached ∧ iface.attachedClients.erase ipsta = []
    · have hvalue : m.unusedWithout ifname ipsta = true := by
        rw [IfaceManager.unusedWithout, hiface]
        exact decide_eq_true hunused
      rw [if_pos hunused, hvalue]
      simp [WorkRun.ops, DaemonOp.delayedAfter, IfaceManager.store]
    · have hvalue : m.unusedWithout ifname ipsta = false := by
        rw [IfaceManager.unusedWithout, hiface]
        exact decide_eq_false hunused
      rw [if_neg hunused, hvalue]
      simp [WorkRun.ops, DaemonOp.delayedAfter, IfaceManager.store]

/-- One after the other, the interfaces that nobody is attached to any more get their delayed
detach. -/
theorem detachLater_foldl (names : List IfName) (delayed : List IfName) :
    (names.flatMap (WorkRun.detachLater man)).foldl (DaemonOp.delayedAfter man) delayed =
      names.foldl (fun works ifname => works.filter (· ≠ ifname) ++ [ifname]) delayed := by
  induction names generalizing delayed with
  | nil => rfl
  | cons ifname names ih =>
    rw [List.foldl_cons, ← ih, List.flatMap_cons, List.foldl_append]
    simp [WorkRun.detachLater, DaemonOp.delayedAfter]

/-- The delayed works that the loss of a station cancels and adds are those of its operations. -/
theorem staDisconnectWork_ops (ipsta : Station) :
    (staDisconnectWork init m ipsta).2.1.delayedDetach =
      ((WorkRun.staDisconnect (m.unusedNames ipsta)).ops man).foldl (DaemonOp.delayedAfter man)
        m.delayedDetach := by
  rw [WorkRun.ops, detachLater_foldl man]
  simp only [staDisconnectWork, IfaceManager.unusedNames, List.filter_map, List.map_map]
  rfl

variable {s : DaemonThreads} (hdelayed : s.delayed man = m.delayedDetach)
include hdelayed

/-- The worker that is left alone with a client's detach does to the delayed works what the work
does. -/
theorem ifaceDetachWork_exec (ifname : IfName) (seqNum : UInt8) (ipsta : Station)
    (hcode : s.code (.worker man) =
      (WorkRun.ifaceDetach ifname (m.unusedWithout ifname ipsta)).ops man)
    (hroom : ∀ other, (s.delayed other).length + (s.code (.worker man)).length ≤
      delayedWorkListMaxSize) :
    ∃ s', exec DaemonThreads.step s
        (List.replicate (s.code (.worker man)).length (.advance (.worker man) false)) = some s' ∧
      s'.code (.worker man) = [] ∧
      s'.delayed man =
        (ifaceDetachWork w init m ⟨ifname, seqNum, some ipsta⟩).2.1.delayedDetach := by
  have hops : ∀ op ∈ s.code (.worker man), op.atOnce := by
    rw [hcode, WorkRun.ops]
    cases m.unusedWithout ifname ipsta <;> simp [DaemonOp.atOnce]
  obtain ⟨s', hrun, hend, hafter⟩ := exec_atOnce hops rfl hroom
  refine ⟨s', hrun, hend, ?_⟩
  rw [hafter, hcode, hdelayed]
  exact (ifaceDetachWork_ops w init man ifname seqNum ipsta).symm

/-- Likewise with the loss of a station. -/
theorem staDisconnectWork_exec (ipsta : Station)
    (hcode : s.code (.worker man) = (WorkRun.staDisconnect (m.unusedNames ipsta)).ops man)
    (hroom : ∀ other, (s.delayed other).length + (s.code (.worker man)).length ≤
      delayedWorkListMaxSize) :
    ∃ s', exec DaemonThreads.step s
        (List.replicate (s.code (.worker man)).length (.advance (.worker man) false)) = some s' ∧
      s'.code (.worker man) = [] ∧
      s'.delayed man = (staDisconnectWork init m ipsta).2.1.delayedDetach := by
  have hops : ∀ op ∈ s.code (.worker man), op.atOnce := by
    rw [hcode, WorkRun.ops]
    simp +contextual [WorkRun.detachLater, DaemonOp.atOnce, or_imp]
  obtain ⟨s', hrun, hend, hafter⟩ := exec_atOnce hops rfl hroom
  refine ⟨s', hrun, hend, ?_⟩
  rw [hafter, hcode, hdelayed]
  exact (staDisconnectWork_ops init man ipsta).symm

end ManagerWorks

/-- A client attaches to an interface, which is connected at once. -/
def attachRun : List DaemonAction :=
  [.serve (.cmdAsync .hapMan .attach), .advance .main false,
    .takeWork .hapMan (.ifaceAttach (.connected .answered true))]

/-- The attach goes through, its event is sent to one station, and the next command fails. -/
def failedCmdRun : List DaemonAction :=
  attachRun ++ List.replicate 8 (.advance (.worker .hapMan) false) ++
    [.serve (.cmdAsync .hapMan .cmd), .advance .main false,
      .takeWork .hapMan (.sendEvent 1), .advance (.worker .hapMan) false,
      .takeWork .hapMan (.executeCmd (.failed true) 1), .advance (.worker .hapMan) false,
      .advance (.worker .hapMan) false]

theorem failedCmdRun_room : Along DaemonThreads.step RoomWhereAwaited .init failedCmdRun := by
  have hidle : ∀ man : ManagerId, ¬∃ op ∈ ([] : List DaemonOp).head?, op.retries = some man := by
    rintro _ ⟨_, ⟨⟩, _⟩
  exact ⟨trivial, .inl (by decide), trivial, trivial, fun man _ => hidle man,
    fun man _ => hidle man, .inl (by decide), trivial, trivial, trivial, nofun, trivial,
    .inl (by decide), trivial, nofun, trivial, .inl (by decide), nofun, trivial⟩

theorem backPressure_failedCmdRun :
    ∃ s, exec DaemonThreads.step .init failedCmdRun = some s ∧ s.works .hapMan = [.event] ∧
      ∀ man, ¬Wedged s man :=
  ⟨_, rfl, rfl, backPressure failedCmdRun_room rfl⟩

/-- As long as there is room, every command gets into the list. -/
theorem exec_commands {man : ManagerId} {work : ManagerWorkId} (n : Nat) {s : DaemonThreads}
    (hmain : s.code .main = []) (hroom : (s.works man).length + n ≤ asyncWorkListMaxSize) :
    exec DaemonThreads.step s
        (List.replicate n [.serve (.cmdAsync man work), .advance .main false]).flatten =
      some { s with
        works := Function.update s.works man (s.works man ++ List.replicate n work) } := by
  induction n generalizing s with
  | zero => simp
  | succ n ih =>
    have hfree : ¬(s.works man).length ≥ asyncWorkListMaxSize := by omega
    have hone : exec DaemonThreads.step s [.serve (.cmdAsync man work), .advance .main false] =
        some { s with works := Function.update s.works man (s.works man ++ [work]) } := by
      simp [DaemonThreads.step, DaemonThreads.advance, DaemonThreads.submit,
        DaemonThreads.setCode, ServerTask.ops, hmain, hfree]
    rw [List.replicate_succ, List.flatten_cons, exec_append, hone, Option.bind_some,
      ih (s := { s with works := Function.update s.works man (s.works man ++ [work]) }) hmain
        (by simp; omega)]
    simp [List.replicate_succ]

/-- 500 more commands come in before the attach is through; its worker then submits the event
`INTERFACE_CONNECTED_OK` to its own full list. -/
def burstRun : List DaemonAction :=
  attachRun ++
    ((List.replicate asyncWorkListMaxSize
        [.serve (.cmdAsync .hapMan .cmd), .advance .main false]).flatten ++
      List.replicate 4 (.advance (.worker .hapMan) false))

theorem attach_wedges_worker :
    ¬∀ (s : DaemonThreads) (actions : List DaemonAction),
      exec DaemonThreads.step .init actions = some s → ∀ man, ¬Wedged s man := by
  intro h
  obtain ⟨s, hstart, hmain, hworks, hworker, howner, halive⟩ : ∃ s,
      exec DaemonThreads.step .init attachRun = some s ∧ s.code .main = [] ∧
        s.works .hapMan = [] ∧
        s.code (.worker .hapMan) = (WorkRun.ifaceAttach (.connected .answered true)).ops .hapMan ∧
        s.owner .attachMutex = none ∧ ∀ thread, s.alive thread = false :=
    ⟨_, rfl, rfl, rfl, rfl, rfl, fun _ => rfl⟩
  have hburst : exec DaemonThreads.step s (List.replicate asyncWorkListMaxSize
      [.serve (.cmdAsync .hapMan .cmd), .advance .main false]).flatten = _ :=
    exec_commands asyncWorkListMaxSize hmain
      (by rw [hworks]; exact Nat.le_of_eq (Nat.zero_add _))
  obtain ⟨s', hend, hcode⟩ : ∃ s', exec DaemonThreads.step .init burstRun = some s' ∧
      (s'.code (.worker .hapMan)).head? = some (.retrySubmit .hapMan .event) := by
    rw [burstRun, exec_append, hstart, Option.bind_some, exec_append, hburst, Option.bind_some]
    simp [DaemonThreads.step, DaemonThreads.advance, DaemonThreads.submit, DaemonThreads.setCode,
      WorkRun.ops, dwpalExtAttach, interfaceConnectedOkSend, dwpalExtHostapCmdSend,
      interfaceEventSend, cancelThreads, ManagerId.extThreads, ifaceManagerEventReceived, hworker,
      howner, halive, hworks, List.replicate_succ]
  exact h s' burstRun hend .hapMan ⟨_, ⟨_, hcode, rfl⟩, .inl rfl⟩

end Dwpal.Daemon
