import Dwpal.Ipc.ServerCmd

/-! Commands of a client: `wave_ipcc_send_cmd_ex` on any thread, the event loop of `ipcc_listener`
or of `wave_ipcc_blocked_event_listener`, and the server with its answers, in any interleaving. A
step goes from one access to what the threads share to the next. -/

namespace Dwpal.Ipc

open Machine

/-- A message of the server: the ipc header that `ipc_header_pop` takes off, if it can, the message
without it, and the call that it answers. -/
structure ServerMsg (μ : Type) where
  hdr : Option IpcHeader
  msg : μ
  answers : Option Nat

/-- A message in an object of the pool, with its number among the messages received. -/
structure MsgObject (μ : Type) extends ServerMsg μ where
  obj : Nat

/-- `cmd_response` of the client, with the call of `wave_ipcc_send_cmd_ex` that it belongs to. The
list `response` is the multi message, empty for `NULL`. -/
structure ClientResponse (μ : Type) where
  call : Nat
  seqNum : UInt8
  status : CmdResponseStatus
  response : List (MsgObject μ)

/-- Where a call of `wave_ipcc_send_cmd_ex` is: in `wave_ipcc_send_cmd_listener`, in
`wave_ipcc_send_cmd_no_listener` with the parts `multiOut`, between the two halves of
`wave_ipc_recv_msg` or with a message from it, or in `disconnect_clb` on its way out. -/
inductive SendPhase (μ : Type) where
  | ended
  | listenerStart
  | listenerSend
  | listenerWait
  | start
  | send
  | again (multiOut : List (MsgObject μ))
  | recv (multiOut : List (MsgObject μ)) (m : ServerMsg μ)
  | handle (multiOut : List (MsgObject μ)) (out : MsgObject μ)
  | disconnectClb

/-- Where the event loop is: at its head, in `ipcc_wait_for_message`, in the callback for a
connection that it has made or lost there, between the two halves of `wave_ipc_recv_msg`, with a
message, or in the callback for an event or a command. -/
inductive LoopPhase (μ : Type) where
  | stopped
  | head
  | wait
  | connectionClb
  | recv (m : ServerMsg μ)
  | handle (out : MsgObject μ)
  | callback (out : MsgObject μ)

/-- What a call of `wave_ipcc_send_cmd_ex` has returned. -/
structure CallReturn (μ : Type) where
  call : Nat
  ret : WvIpcRet
  reply : List (MsgObject μ)

/-- The client, its connection, and the server. The calls on the thread of the event loop are in
`nested`, the innermost first. `server` has the commands of the connection that the server still
answers, `reading` says how many threads are in `wave_ipc_recv_msg`, and `torn` that they have taken
parts of each other's messages. The rest is what happened: the messages received, handed to the
callbacks, taken over by them, and put back to the pool, and what the calls have returned. -/
structure IpcClient (μ : Type) where
  cmdSeqNum : UInt8
  numCalls : Nat
  seqNum : Nat → UInt8
  call : Nat → SendPhase μ
  nested : List Nat
  listener : Bool
  loop : LoopPhase μ
  socket : Bool
  isConnected : Bool
  respList : List (ClientResponse μ)
  queuedMsgs : List (MsgObject μ)
  server : List Nat
  stream : List (ServerMsg μ)
  reading : Nat
  torn : Bool
  received : List (MsgObject μ)
  handed : List (MsgObject μ)
  taken : List (MsgObject μ)
  put : List (MsgObject μ)
  returned : List (CallReturn μ)

/-- What `select` says. -/
inductive SelectResult where
  | again
  | failed
  | timeout
  | ready
deriving DecidableEq

/-- What is decided below the client: whether a call succeeds, whether a callback is set, whether
`wave_ipcc_socket_init` succeeds, and what is read where two threads read. -/
structure Below (μ : Type) where
  ok : Bool
  clb : Bool
  socketInit : Bool
  garbled : ServerMsg μ

/-- What happens. First the threads of the client: a call, on the thread of the event loop or on
another one, and the steps of a call, then the steps of the event loop; last the server answers a
command or sends something else. -/
inductive ClientAction (μ : Type) where
  | call (onLoop : Bool) (pushed : Bool)
  | startWait (id : Nat) (obj node : Bool)
  | connect (id : Nat) (ok : Bool)
  | sendCmd (id : Nat) (ret : WvIpcRet)
  | endWait (id : Nat)
  | select (id : Nat) (res : SelectResult) (b : Below μ)
  | recv (id : Nat) (b : Below μ)
  | handle (id : Nat) (b : Below μ)
  | clbReturns (id : Nat)
  | startLoop (listener : Bool)
  | loopHead (stop : Bool)
  | loopConnect (ret : WvIpcRet) (clb : Bool)
  | loopSelect (res : SelectResult) (b : Below μ)
  | loopRecv (b : Below μ)
  | loopHandle (eventsThread : Bool) (b : Below μ)
  | loopClbReturns (takesOwnership : Bool)
  | answer (id : Nat) (failed : Bool) (hasMore : UInt8) (msg : μ)
  | notify (m : ServerMsg μ)

section Client

variable {μ : Type}

/-- The message that a call has received and not yet dealt with. -/
def SendPhase.out? : SendPhase μ → Option (MsgObject μ)
  | .handle _ out => some out
  | _ => none

def LoopPhase.out? : LoopPhase μ → Option (MsgObject μ)
  | .handle out => some out
  | _ => none

/-- `ipcc_handle_response_from_listener_ctx` on the `cmd_response` that it has found, and what goes
back to the pool. -/
def ClientResponse.answered (cs : ClientResponse μ) (hdr : IpcHeader) (resp : MsgObject μ) :
    ClientResponse μ × List (MsgObject μ) :=
  if hdr.header0 = waveIpcMsgResp then
    if hdr.header2 = 0 then
      ({ cs with status := .respSuccess, response := cs.response ++ [resp] }, [])
    else ({ cs with response := cs.response ++ [resp] }, [])
  else ({ cs with status := .respFailure, response := [resp] }, cs.response)

/-- `ipcc_handle_response_from_listener_ctx` on the list; a response that nobody waits for is
thrown. -/
def ipccHandleResponse (hdr : IpcHeader) (resp : MsgObject μ) :
    List (ClientResponse μ) → List (ClientResponse μ) × List (MsgObject μ)
  | [] => ([], [resp])
  | cs :: rest =>
    if cs.seqNum = hdr.header1 then
      ((cs.answered hdr resp).1 :: rest, (cs.answered hdr resp).2)
    else
      (cs :: (ipccHandleResponse hdr resp rest).1, (ipccHandleResponse hdr resp rest).2)

/-- What `wave_ipcc_send_cmd_listener` returns once its wait is over, by timeout or not. -/
def ClientResponse.result (cs : ClientResponse μ) : WvIpcRet × List (MsgObject μ) :=
  match cs.status with
  | .respNone => (.error, [])
  | .respFailure => (.cmdFailed, cs.response)
  | .respSuccess => (.success, cs.response)

namespace IpcClient

def init : IpcClient μ where
  cmdSeqNum := 0
  numCalls := 0
  seqNum _ := 0
  call _ := .ended
  nested := []
  listener := false
  loop := .stopped
  socket := true
  isConnected := false
  respList := []
  queuedMsgs := []
  server := []
  stream := []
  reading := 0
  torn := false
  received := []
  handed := []
  taken := []
  put := []
  returned := []

/-- The call goes on in another phase. -/
def setCall (s : IpcClient μ) (id : Nat) (phase : SendPhase μ) : IpcClient μ :=
  { s with call := Function.update s.call id phase }

def setLoop (s : IpcClient μ) (phase : LoopPhase μ) : IpcClient μ := { s with loop := phase }

/-- `wave_ipc_msg_put`, for each object of a multi message. -/
def putBack (s : IpcClient μ) (objs : List (MsgObject μ)) : IpcClient μ :=
  { s with put := s.put ++ objs }

def finish (s : IpcClient μ) (id : Nat) (ret : WvIpcRet) (reply : List (MsgObject μ)) :
    IpcClient μ :=
  { s.setCall id .ended with
    nested := s.nested.erase id
    returned := s.returned ++ [⟨id, ret, reply⟩] }

/-- The socket is connected to the server. -/
def connected (s : IpcClient μ) : IpcClient μ :=
  { s with isConnected := true, server := [], stream := [], torn := s.reading ≠ 0 }

/-- `wave_ipcc_socket_init`, and `is_connected` is 0. -/
def disconnected (s : IpcClient μ) (socketInit : Bool) : IpcClient μ :=
  { s with
    isConnected := false
    socket := socketInit
    server := []
    stream := []
    torn := s.reading ≠ 0 }

/-- The first half of `wave_ipc_recv_msg`, where there is something to read. -/
def startRecv (s : IpcClient μ) (rest : List (ServerMsg μ)) : IpcClient μ :=
  { s with stream := rest, reading := s.reading + 1, torn := s.torn || s.reading ≠ 0 }

def stopRecv (s : IpcClient μ) : IpcClient μ := { s with reading := s.reading - 1 }

/-- What the second half of `wave_ipc_recv_msg` makes of a message. -/
def object (s : IpcClient μ) (m garbled : ServerMsg μ) : MsgObject μ :=
  ⟨if s.torn then garbled else m, s.received.length⟩

/-- The object goes to the one who receives. -/
def endRecv (s : IpcClient μ) (out : MsgObject μ) : IpcClient μ :=
  { s.stopRecv with received := s.received ++ [out] }

/-- `ipcc_handle_response_from_listener_ctx`. -/
def handleResponse (s : IpcClient μ) (hdr : IpcHeader) (resp : MsgObject μ) : IpcClient μ :=
  { s.putBack (ipccHandleResponse hdr resp s.respList).2 with
    respList := (ipccHandleResponse hdr resp s.respList).1 }

/-! ### The steps of a call -/

/-- A call on the thread of the event loop can be made where that thread runs a callback, or where
it is not in the loop. -/
def LoopThreadFree (s : IpcClient μ) : Prop :=
  match s.nested with
  | [] => (s.loop matches .stopped | .connectionClb | .callback _)
  | id :: _ => (s.call id matches .disconnectClb)

instance (s : IpcClient μ) : Decidable s.LoopThreadFree :=
  match h : s.nested with
  | [] => decidable_of_iff (s.loop matches .stopped | .connectionClb | .callback _) (by
    rw [LoopThreadFree, h])
  | id :: _ => decidable_of_iff (s.call id matches .disconnectClb) (by rw [LoopThreadFree, h])

/-- The number of a call, and the function that it goes to, if its header can be pushed. -/
def startCall (s : IpcClient μ) (onLoop pushed : Bool) : IpcClient μ :=
  let s' : IpcClient μ := { s with
    cmdSeqNum := s.cmdSeqNum + 1
    numCalls := s.numCalls + 1
    seqNum := Function.update s.seqNum s.numCalls (s.cmdSeqNum + 1)
    nested := if onLoop then s.numCalls :: s.nested else s.nested }
  if pushed then
    s'.setCall s.numCalls (if s.listener && !onLoop then .listenerStart else .start)
  else s'.finish s.numCalls .error []

/-- `wave_ipcc_send_cmd_listener` up to its entry in the list. -/
def startWait (s : IpcClient μ) (id : Nat) (obj node : Bool) : IpcClient μ :=
  if s.isConnected ∧ s.socket then
    if obj then
      { s.setCall id .listenerSend with
        respList := if node then ⟨id, s.seqNum id, .respNone, []⟩ :: s.respList else s.respList }
    else s.finish id .error []
  else s.finish id .disconnected []

/-- `wave_ipcc_send_cmd_no_listener` up to the connection. -/
def connect (s : IpcClient μ) (id : Nat) (ok : Bool) : IpcClient μ :=
  if s.socket then
    if s.isConnected then s.setCall id .send
    else if s.listener = false ∧ ok then s.connected.setCall id .send
    else s.finish id .disconnected []
  else s.finish id .error []

/-- The entry of a call, which is taken out of the list. -/
def takeEntry (s : IpcClient μ) (id : Nat) : IpcClient μ :=
  { s with respList := s.respList.filter fun cs => cs.call != id }

/-- The end of `wave_ipcc_send_cmd_listener`. -/
def endWait (s : IpcClient μ) (id : Nat) : IpcClient μ :=
  match s.respList.find? fun cs => cs.call = id with
  | none => s.finish id .error []
  | some cs => (s.takeEntry id).finish id cs.result.1 cs.result.2

/-- `wave_ipc_send_msg` in both functions. -/
def sendCmd (s : IpcClient μ) (id : Nat) (ret : WvIpcRet) (next : SendPhase μ) : IpcClient μ :=
  if ret = .success ∧ s.isConnected then { s.setCall id next with server := s.server ++ [id] }
  else (s.takeEntry id).finish id (if ret = .success then .error else ret) []

/-- The label `disconnect`. -/
def disconnectCall (s : IpcClient μ) (id : Nat) (b : Below μ) : IpcClient μ :=
  if b.clb then (s.disconnected b.socketInit).setCall id .disconnectClb
  else (s.disconnected b.socketInit).finish id .disconnected []

/-- `select` and the first half of `wave_ipc_recv_msg`. -/
def selectCall (s : IpcClient μ) (id : Nat) (multiOut : List (MsgObject μ)) (b : Below μ) :
    SelectResult → IpcClient μ
  | .again => s
  | .failed => s.disconnectCall id b
  | .timeout => s.finish id .error []
  | .ready =>
    match s.stream with
    | m :: rest =>
      if b.ok then (s.startRecv rest).setCall id (.recv multiOut m) else s.disconnectCall id b
    | [] => s.disconnectCall id b

/-- The second half of `wave_ipc_recv_msg`. -/
def recvCall (s : IpcClient μ) (id : Nat) (multiOut : List (MsgObject μ)) (m : ServerMsg μ)
    (b : Below μ) : IpcClient μ :=
  if b.ok then
    (s.endRecv (s.object m b.garbled)).setCall id (.handle multiOut (s.object m b.garbled))
  else s.stopRecv.disconnectCall id b

/-- What `wave_ipcc_send_cmd_no_listener` does with a message. -/
def handleCall (s : IpcClient μ) (id : Nat) (multiOut : List (MsgObject μ)) (out : MsgObject μ)
    (b : Below μ) : IpcClient μ :=
  match out.hdr with
  | none => (s.putBack [out]).disconnectCall id b
  | some hdr =>
    if hdr.header0 = waveIpcMsgResp ∨ hdr.header0 = waveIpcMsgReqFail then
      if hdr.header1 = s.seqNum id then
        if hdr.header0 = waveIpcMsgReqFail then (s.putBack multiOut).finish id .cmdFailed [out]
        else if hdr.header2 = 0 then s.finish id .success (multiOut ++ [out])
        else s.setCall id (.again (multiOut ++ [out]))
      else if s.listener then (s.handleResponse hdr out).setCall id (.again multiOut)
      else (s.putBack [out]).setCall id (.again multiOut)
    else if hdr.header0 = waveIpcMsgEvent ∨ hdr.header0 = waveIpcMsgCmd then
      -- the list may have no node for it
      { s.setCall id (.again multiOut) with
        queuedMsgs := if b.ok then s.queuedMsgs ++ [out] else s.queuedMsgs }
    else (s.putBack [out]).setCall id (.again multiOut)

/-! ### The steps of the event loop -/

/-- The head of the loop. -/
def loopHead (s : IpcClient μ) (stop : Bool) : IpcClient μ :=
  if stop then s.setLoop .stopped
  else
    match s.queuedMsgs with
    | out :: rest => { s.setLoop (.handle out) with queuedMsgs := rest }
    | [] => s.setLoop .wait

/-- `ipcc_wait_for_message` where there is no connection. -/
def loopConnect (s : IpcClient μ) (ret : WvIpcRet) (clb : Bool) : IpcClient μ :=
  if s.socket ∧ ret = .success then s.connected.setLoop (if clb then .connectionClb else .wait)
  else if s.socket ∧ ret = .disconnected then s
  else s.setLoop .stopped

/-- `ipcc_wait_for_message` where `wave_ipc_recv_msg` has failed. -/
def loopDisconnect (s : IpcClient μ) (b : Below μ) : IpcClient μ :=
  (s.disconnected b.socketInit).setLoop
    (if b.socketInit then if b.clb then .connectionClb else .wait else .stopped)

/-- `select` and the first half of `wave_ipc_recv_msg` in `ipcc_wait_for_message`, where `failed` is
also the request to terminate. -/
def loopSelect (s : IpcClient μ) (b : Below μ) : SelectResult → IpcClient μ
  | .again | .timeout => s
  | .failed => s.setLoop .stopped
  | .ready =>
    match s.stream with
    | m :: rest => if b.ok then (s.startRecv rest).setLoop (.recv m) else s.loopDisconnect b
    | [] => s.loopDisconnect b

/-- The second half of `wave_ipc_recv_msg` in `ipcc_wait_for_message`. -/
def loopRecv (s : IpcClient μ) (m : ServerMsg μ) (b : Below μ) : IpcClient μ :=
  if b.ok then (s.endRecv (s.object m b.garbled)).setLoop (.handle (s.object m b.garbled))
  else s.stopRecv.loopDisconnect b

/-- What the loop does with a message. An event goes to the events thread, if there is one. -/
def loopHandle (s : IpcClient μ) (out : MsgObject μ) (eventsThread : Bool) (b : Below μ) :
    IpcClient μ :=
  match out.hdr with
  | none => (s.putBack [out]).setLoop .head
  | some hdr =>
    if hdr.header0 = waveIpcMsgEvent then
      if s.listener ∧ eventsThread then
        if b.ok then
          { s.setLoop .head with handed := s.handed ++ [out], taken := s.taken ++ [out] }
        else (s.putBack [out]).setLoop .head
      else { s.setLoop (.callback out) with handed := s.handed ++ [out] }
    else if s.listener ∧ (hdr.header0 = waveIpcMsgResp ∨ hdr.header0 = waveIpcMsgReqFail) then
      (s.handleResponse hdr out).setLoop .head
    else if hdr.header0 = waveIpcMsgCmd ∧ b.clb then
      { s.setLoop (.callback out) with handed := s.handed ++ [out] }
    else (s.putBack [out]).setLoop .head

/-- The loop behind the callback for an event or a command. -/
def callbackReturns (s : IpcClient μ) (out : MsgObject μ) (takesOwnership : Bool) : IpcClient μ :=
  if takesOwnership then { s.setLoop .head with taken := s.taken ++ [out] }
  else (s.putBack [out]).setLoop .head

/-- A callback of the loop returns. -/
def loopClbReturns (s : IpcClient μ) (takesOwnership : Bool) : Option (IpcClient μ) :=
  match s.loop with
  | .callback out => some (s.callbackReturns out takesOwnership)
  | .connectionClb => some (s.setLoop .wait)
  | _ => none

/-! ### The server -/

/-- The server answers a command of the connection; the last part, or a failure, is the end of
it. -/
def answer (s : IpcClient μ) (id : Nat) (failed : Bool) (hasMore : UInt8) (msg : μ) : IpcClient μ :=
  { s with
    stream := s.stream ++
      [⟨some ⟨if failed then waveIpcMsgReqFail else waveIpcMsgResp, s.seqNum id, hasMore, 0⟩, msg,
        some id⟩]
    server := if failed ∨ hasMore = 0 then s.server.erase id else s.server }

/-- A message that is no answer. -/
def IsNotice (m : ServerMsg μ) : Prop :=
  m.answers = none ∧ ∀ hdr, m.hdr = some hdr →
    hdr.header0 ≠ waveIpcMsgResp ∧ hdr.header0 ≠ waveIpcMsgReqFail

instance (m : ServerMsg μ) : Decidable (IsNotice m) :=
  match h : m.answers, h' : m.hdr with
  | some _, _ => .isFalse fun hn => by simp [hn.1] at h
  | none, none => .isTrue ⟨h, fun hdr heq => by simp [h'] at heq⟩
  | none, some hdr =>
    decidable_of_iff (hdr.header0 ≠ waveIpcMsgResp ∧ hdr.header0 ≠ waveIpcMsgReqFail)
      ⟨fun hne => ⟨h, fun hdr' heq => by cases h'.symm.trans heq; exact hne⟩,
        fun hn => hn.2 hdr h'⟩

/-- The call is not behind another one on the thread of the event loop. -/
def Runs (s : IpcClient μ) (id : Nat) : Prop := id ∈ s.nested → s.nested.head? = some id

instance (s : IpcClient μ) (id : Nat) : Decidable (s.Runs id) :=
  inferInstanceAs (Decidable (_ → _))

/-- The step of a call that runs. -/
def callStep (s : IpcClient μ) : ClientAction μ → Option (IpcClient μ)
  | .startWait id obj node =>
    match s.call id with
    | .listenerStart => some (s.startWait id obj node)
    | _ => none
  | .connect id ok =>
    match s.call id with
    | .start => some (s.connect id ok)
    | _ => none
  | .sendCmd id ret =>
    match s.call id with
    | .listenerSend => some (s.sendCmd id ret .listenerWait)
    | .send => some (s.sendCmd id ret (.again []))
    | _ => none
  | .endWait id =>
    match s.call id with
    | .listenerWait => some (s.endWait id)
    | _ => none
  | .select id res b =>
    match s.call id with
    | .again multiOut => some (s.selectCall id multiOut b res)
    | _ => none
  | .recv id b =>
    match s.call id with
    | .recv multiOut m => some (s.recvCall id multiOut m b)
    | _ => none
  | .handle id b =>
    match s.call id with
    | .handle multiOut out => some (s.handleCall id multiOut out b)
    | _ => none
  | .clbReturns id =>
    match s.call id with
    | .disconnectClb => some (s.finish id .disconnected [])
    | _ => none
  | _ => none

/-- The step of the event loop. -/
def loopStep (s : IpcClient μ) : ClientAction μ → Option (IpcClient μ)
  | .startLoop listener =>
    match s.loop with
    | .stopped => if s.listener then none else some { s.setLoop .head with listener := listener }
    | _ => none
  | .loopHead stop =>
    match s.loop with
    | .head => some (s.loopHead stop)
    | _ => none
  | .loopConnect ret clb =>
    match s.loop with
    | .wait => if s.isConnected then none else some (s.loopConnect ret clb)
    | _ => none
  | .loopSelect res b =>
    match s.loop with
    | .wait => if s.isConnected then some (s.loopSelect b res) else none
    | _ => none
  | .loopRecv b =>
    match s.loop with
    | .recv m => some (s.loopRecv m b)
    | _ => none
  | .loopHandle eventsThread b =>
    match s.loop with
    | .handle out => some (s.loopHandle out eventsThread b)
    | _ => none
  | .loopClbReturns takesOwnership => s.loopClbReturns takesOwnership
  | _ => none

/-- The call that goes on with an action. -/
def caller : ClientAction μ → Option Nat
  | .startWait id _ _ | .connect id _ | .sendCmd id _ | .endWait id | .select id _ _ | .recv id _
  | .handle id _ | .clbReturns id => some id
  | _ => none

def step (s : IpcClient μ) : ClientAction μ → Option (IpcClient μ)
  | .call onLoop pushed =>
    if onLoop = true → s.LoopThreadFree then some (s.startCall onLoop pushed) else none
  | .answer id failed hasMore msg =>
    if id ∈ s.server then some (s.answer id failed hasMore msg) else none
  | .notify m =>
    if s.isConnected ∧ IsNotice m then some { s with stream := s.stream ++ [m] } else none
  | a =>
    match caller a with
    | some id => if s.Runs id then s.callStep a else none
    -- the loop goes on where no call is under way on its thread
    | none => if s.nested = [] then s.loopStep a else none

/-- Everything that a step can be, with what it finds. -/
inductive Stepped (s : IpcClient μ) : ClientAction μ → IpcClient μ → Prop
  | call {onLoop pushed : Bool} (hfree : onLoop = true → s.LoopThreadFree) :
    Stepped s (.call onLoop pushed) (s.startCall onLoop pushed)
  | startWait {id : Nat} {obj node : Bool} (hruns : s.Runs id)
    (hcall : s.call id = .listenerStart) :
    Stepped s (.startWait id obj node) (s.startWait id obj node)
  | connect {id : Nat} {ok : Bool} (hruns : s.Runs id) (hcall : s.call id = .start) :
    Stepped s (.connect id ok) (s.connect id ok)
  | listenerSend {id : Nat} {ret : WvIpcRet} (hruns : s.Runs id)
    (hcall : s.call id = .listenerSend) :
    Stepped s (.sendCmd id ret) (s.sendCmd id ret .listenerWait)
  | send {id : Nat} {ret : WvIpcRet} (hruns : s.Runs id) (hcall : s.call id = .send) :
    Stepped s (.sendCmd id ret) (s.sendCmd id ret (.again []))
  | endWait {id : Nat} (hruns : s.Runs id) (hcall : s.call id = .listenerWait) :
    Stepped s (.endWait id) (s.endWait id)
  | select {id : Nat} {res : SelectResult} {b : Below μ} {multiOut : List (MsgObject μ)}
    (hruns : s.Runs id) (hcall : s.call id = .again multiOut) :
    Stepped s (.select id res b) (s.selectCall id multiOut b res)
  | recv {id : Nat} {b : Below μ} {multiOut : List (MsgObject μ)} {m : ServerMsg μ}
    (hruns : s.Runs id) (hcall : s.call id = .recv multiOut m) :
    Stepped s (.recv id b) (s.recvCall id multiOut m b)
  | handle {id : Nat} {b : Below μ} {multiOut : List (MsgObject μ)} {out : MsgObject μ}
    (hruns : s.Runs id) (hcall : s.call id = .handle multiOut out) :
    Stepped s (.handle id b) (s.handleCall id multiOut out b)
  | clbReturns {id : Nat} (hruns : s.Runs id) (hcall : s.call id = .disconnectClb) :
    Stepped s (.clbReturns id) (s.finish id .disconnected [])
  | startLoop {listener : Bool} (hnested : s.nested = []) (hloop : s.loop = .stopped)
    (hlistener : s.listener = false) :
    Stepped s (.startLoop listener) { s.setLoop .head with listener := listener }
  | loopHead {stop : Bool} (hnested : s.nested = []) (hloop : s.loop = .head) :
    Stepped s (.loopHead stop) (s.loopHead stop)
  | loopConnect {ret : WvIpcRet} {clb : Bool} (hnested : s.nested = []) (hloop : s.loop = .wait)
    (hconnected : s.isConnected = false) :
    Stepped s (.loopConnect ret clb) (s.loopConnect ret clb)
  | loopSelect {res : SelectResult} {b : Below μ} (hnested : s.nested = []) (hloop : s.loop = .wait)
    (hconnected : s.isConnected = true) :
    Stepped s (.loopSelect res b) (s.loopSelect b res)
  | loopRecv {b : Below μ} {m : ServerMsg μ} (hnested : s.nested = []) (hloop : s.loop = .recv m) :
    Stepped s (.loopRecv b) (s.loopRecv m b)
  | loopHandle {eventsThread : Bool} {b : Below μ} {out : MsgObject μ} (hnested : s.nested = [])
    (hloop : s.loop = .handle out) :
    Stepped s (.loopHandle eventsThread b) (s.loopHandle out eventsThread b)
  | loopCallback {takesOwnership : Bool} {out : MsgObject μ} (hnested : s.nested = [])
    (hloop : s.loop = .callback out) :
    Stepped s (.loopClbReturns takesOwnership) (s.callbackReturns out takesOwnership)
  | connectionClb {takesOwnership : Bool} (hnested : s.nested = [])
    (hloop : s.loop = .connectionClb) : Stepped s (.loopClbReturns takesOwnership) (s.setLoop .wait)
  | answer {id : Nat} {failed : Bool} {hasMore : UInt8} {msg : μ} (hserver : id ∈ s.server) :
    Stepped s (.answer id failed hasMore msg) (s.answer id failed hasMore msg)
  | notify {m : ServerMsg μ} (hconnected : s.isConnected = true) (hm : IsNotice m) :
    Stepped s (.notify m) { s with stream := s.stream ++ [m] }

variable {s s' : IpcClient μ} {a : ClientAction μ}

theorem Stepped.of_callStep {id : Nat} (hruns : s.Runs id) (hcaller : caller a = some id)
    (h : s.callStep a = some s') : s.Stepped a s' := by
  cases a with
  | startWait | connect | endWait | select | recv | handle | clbReturns =>
    cases hcaller
    simp only [callStep] at h
    split at h
    · next hcall =>
      cases h
      constructor <;> assumption
    · cases h
  | sendCmd id ret =>
    cases hcaller
    simp only [callStep] at h
    split at h
    · next hcall =>
      cases h
      exact .listenerSend hruns hcall
    · next hcall =>
      cases h
      exact .send hruns hcall
    · cases h
  | _ => cases hcaller

theorem Stepped.of_loopStep (hnested : s.nested = []) (h : s.loopStep a = some s') :
    s.Stepped a s' := by
  cases a with
  | startLoop listener =>
    simp only [loopStep] at h
    split at h
    · next hloop =>
      split_ifs at h with hlistener
      cases h
      exact .startLoop hnested hloop (Bool.not_eq_true _ ▸ hlistener)
    · cases h
  | loopConnect ret clb =>
    simp only [loopStep] at h
    split at h
    · next hloop =>
      split_ifs at h with hconnected
      cases h
      exact .loopConnect hnested hloop (Bool.not_eq_true _ ▸ hconnected)
    · cases h
  | loopSelect res b =>
    simp only [loopStep] at h
    split at h
    · next hloop =>
      split_ifs at h with hconnected
      cases h
      exact .loopSelect hnested hloop hconnected
    · cases h
  | loopHead | loopRecv | loopHandle =>
    simp only [loopStep] at h
    split at h
    · next hloop =>
      cases h
      constructor <;> assumption
    · cases h
  | loopClbReturns takesOwnership =>
    simp only [loopStep, loopClbReturns] at h
    split at h
    · next out hloop =>
      cases h
      exact .loopCallback hnested hloop
    · next hloop =>
      cases h
      exact .connectionClb hnested hloop
    · cases h
  | _ => cases h

theorem Stepped.of_step (h : s.step a = some s') : s.Stepped a s' := by
  cases a with
  | call onLoop pushed =>
    simp only [step, Option.ite_none_right_eq_some] at h
    obtain ⟨hfree, h⟩ := h
    cases h
    exact .call hfree
  | answer id failed hasMore msg =>
    simp only [step, Option.ite_none_right_eq_some] at h
    obtain ⟨hserver, h⟩ := h
    cases h
    exact .answer hserver
  | notify m =>
    simp only [step, Option.ite_none_right_eq_some] at h
    obtain ⟨⟨hconnected, hm⟩, h⟩ := h
    cases h
    exact .notify hconnected hm
  | startWait | connect | sendCmd | endWait | select | recv | handle | clbReturns =>
    simp only [step, caller, Option.ite_none_right_eq_some] at h
    exact .of_callStep h.1 rfl h.2
  | _ =>
    simp only [step, caller, Option.ite_none_right_eq_some] at h
    exact .of_loopStep h.1 h.2

end IpcClient

/-- A call waits for a reply of two parts, which the listener hands out. -/
def twoPartReply : List (ClientAction Nat) :=
  [.startLoop true, .loopHead false, .loopConnect .success false, .call false true,
    .startWait 0 true true, .sendCmd 0 .success, .answer 0 false 1 7, .answer 0 false 0 8,
    .loopSelect .ready ⟨true, false, true, ⟨none, 0, none⟩⟩,
    .loopRecv ⟨true, false, true, ⟨none, 0, none⟩⟩,
    .loopHandle false ⟨true, false, true, ⟨none, 0, none⟩⟩, .loopHead false,
    .loopSelect .ready ⟨true, false, true, ⟨none, 0, none⟩⟩,
    .loopRecv ⟨true, false, true, ⟨none, 0, none⟩⟩,
    .loopHandle false ⟨true, false, true, ⟨none, 0, none⟩⟩, .endWait 0]

/-- The calls that wait in the list are under way, and each has one entry. -/
structure CallsInv (s : IpcClient μ) : Prop where
  calls : ∀ id, s.numCalls ≤ id → s.call id = .ended
  entries : ∀ id ∈ s.respList.map ClientResponse.call,
    s.call id = .listenerSend ∨ s.call id = .listenerWait
  distinct : (s.respList.map ClientResponse.call).Nodup

theorem answered_sameCall (cs : ClientResponse μ) (hdr : IpcHeader) (resp : MsgObject μ) :
    (cs.answered hdr resp).1.call = cs.call := by
  rw [ClientResponse.answered]
  split_ifs
  · rfl
  · rfl
  · rfl

theorem handleResponse_calls (hdr : IpcHeader) (resp : MsgObject μ)
    (respList : List (ClientResponse μ)) :
    (ipccHandleResponse hdr resp respList).1.map ClientResponse.call =
      respList.map ClientResponse.call := by
  induction respList with
  | nil => rfl
  | cons cs rest ih =>
    rw [ipccHandleResponse]
    split_ifs
    · rw [List.map_cons, List.map_cons, answered_sameCall]
    · rw [List.map_cons, List.map_cons, ih]

namespace CallsInv

variable {s s' : IpcClient μ} {id : Nat} {phase : SendPhase μ}

theorem init : CallsInv (.init : IpcClient μ) where
  calls _ _ := rfl
  entries id hid := by cases hid
  distinct := List.nodup_nil

/-- A call that has something to do has a number. -/
theorem lt (h : CallsInv s) (hcall : s.call id ≠ .ended) : id < s.numCalls :=
  Nat.lt_of_not_le fun hle => hcall (h.calls id hle)

/-- A call that does not wait for the listener has no entry. -/
theorem not_listed (h : CallsInv s) (hsend : s.call id ≠ .listenerSend)
    (hwait : s.call id ≠ .listenerWait) : id ∉ s.respList.map ClientResponse.call :=
  fun hmem => (h.entries id hmem).elim hsend hwait

theorem setCall (h : CallsInv s) (hid : id < s.numCalls)
    (hphase : id ∈ s.respList.map ClientResponse.call →
      phase = .listenerSend ∨ phase = .listenerWait) : CallsInv (s.setCall id phase) where
  calls i hi := by
    have hne : i ≠ id := fun heq => Nat.not_lt.mpr hi (heq ▸ hid)
    show Function.update s.call id phase i = .ended
    rw [Function.update_of_ne hne]
    exact h.calls i hi
  entries i hi := by
    show Function.update s.call id phase i = .listenerSend ∨
      Function.update s.call id phase i = .listenerWait
    by_cases heq : i = id
    · subst heq
      rw [Function.update_self]
      exact hphase hi
    · rw [Function.update_of_ne heq]
      exact h.entries i hi
  distinct := h.distinct

theorem finish (h : CallsInv s) (hid : id < s.numCalls)
    (hlisted : id ∉ s.respList.map ClientResponse.call) (ret : WvIpcRet)
    (reply : List (MsgObject μ)) : CallsInv (s.finish id ret reply) := by
  obtain ⟨hcalls, hentries, hdistinct⟩ := @setCall _ s id .ended h hid fun hmem =>
    absurd hmem hlisted
  exact ⟨hcalls, hentries, hdistinct⟩

theorem handleResponse (h : CallsInv s) (hdr : IpcHeader) (resp : MsgObject μ) :
    CallsInv (s.handleResponse hdr resp) := by
  have hsame := handleResponse_calls hdr resp s.respList
  refine ⟨h.calls, ?_, ?_⟩
  · show ∀ i ∈ (ipccHandleResponse hdr resp s.respList).1.map ClientResponse.call, _
    rw [hsame]
    exact h.entries
  · show ((ipccHandleResponse hdr resp s.respList).1.map ClientResponse.call).Nodup
    rw [hsame]
    exact h.distinct

theorem takeEntry (h : CallsInv s) (id : Nat) :
    CallsInv (s.takeEntry id) ∧ id ∉ (s.takeEntry id).respList.map ClientResponse.call := by
  have hsub : ((s.takeEntry id).respList.map ClientResponse.call).Sublist
      (s.respList.map ClientResponse.call) := List.filter_sublist.map _
  refine ⟨⟨h.calls, fun i hi => h.entries i (hsub.subset hi), h.distinct.sublist hsub⟩, ?_⟩
  intro hmem
  obtain ⟨cs, hcs, hcall⟩ := List.mem_map.mp hmem
  exact bne_iff_ne.mp (List.mem_filter.mp hcs).2 hcall

/-- The numbers, the phases and the list of entries stay as they are. -/
theorem keep (h : CallsInv s) (hnum : s'.numCalls = s.numCalls) (hcall : s'.call = s.call)
    (hlist : s'.respList = s.respList) : CallsInv s' where
  calls := by
    rw [hnum, hcall]
    exact h.calls
  entries := by
    rw [hcall, hlist]
    exact h.entries
  distinct := by
    rw [hlist]
    exact h.distinct

theorem startCall (h : CallsInv s) (onLoop pushed : Bool) :
    CallsInv (s.startCall onLoop pushed) := by
  have hnew : CallsInv { s with
      cmdSeqNum := s.cmdSeqNum + 1
      numCalls := s.numCalls + 1
      seqNum := Function.update s.seqNum s.numCalls (s.cmdSeqNum + 1)
      nested := if onLoop then s.numCalls :: s.nested else s.nested } :=
    ⟨fun i hi => h.calls i (Nat.le_of_succ_le hi), h.entries, h.distinct⟩
  have hlisted : s.numCalls ∉ s.respList.map ClientResponse.call := by
    refine h.not_listed ?_ ?_
    all_goals
      rw [h.calls s.numCalls (Nat.le_refl _)]
      nofun
  cases pushed with
  | true => exact hnew.setCall (Nat.lt_succ_self _) fun hmem => absurd hmem hlisted
  | false => exact hnew.finish (Nat.lt_succ_self _) hlisted .error []

theorem startWait (h : CallsInv s) (hcall : s.call id = .listenerStart) (obj node : Bool) :
    CallsInv (s.startWait id obj node) := by
  have hid : id < s.numCalls := h.lt (by rw [hcall]; nofun)
  have hlisted : id ∉ s.respList.map ClientResponse.call :=
    h.not_listed (by rw [hcall]; nofun) (by rw [hcall]; nofun)
  obtain ⟨hcalls, hentries, hdistinct⟩ := @setCall _ s id .listenerSend h hid fun _ => .inl rfl
  rw [IpcClient.startWait]
  split_ifs
  · refine ⟨hcalls, fun i hi => ?_, List.nodup_cons.mpr ⟨hlisted, hdistinct⟩⟩
    rcases List.mem_cons.mp hi with rfl | hi
    · exact .inl (Function.update_self ..)
    · exact hentries i hi
  · exact ⟨hcalls, hentries, hdistinct⟩
  · exact h.finish hid hlisted _ _
  · exact h.finish hid hlisted _ _

theorem sendCmd (h : CallsInv s) (hid : id < s.numCalls)
    (hphase : id ∈ s.respList.map ClientResponse.call →
      phase = .listenerSend ∨ phase = .listenerWait) (ret : WvIpcRet) :
    CallsInv (s.sendCmd id ret phase) := by
  obtain ⟨htaken, hgone⟩ := h.takeEntry id
  rw [IpcClient.sendCmd]
  split_ifs
  · exact (h.setCall hid hphase).keep rfl rfl rfl
  · exact htaken.finish hid hgone _ _
  · exact htaken.finish hid hgone _ _

theorem endWait (h : CallsInv s) (hid : id < s.numCalls) : CallsInv (s.endWait id) := by
  obtain ⟨htaken, hgone⟩ := h.takeEntry id
  rw [IpcClient.endWait]
  cases hfind : s.respList.find? fun cs => cs.call = id with
  | none =>
    refine h.finish hid (fun hmem => ?_) _ _
    obtain ⟨cs, hcs, hcall⟩ := List.mem_map.mp hmem
    exact absurd (decide_eq_true hcall) (List.find?_eq_none.mp hfind cs hcs)
  | some cs => exact htaken.finish hid hgone _ _

theorem disconnectCall (h : CallsInv s) (hid : id < s.numCalls)
    (hlisted : id ∉ s.respList.map ClientResponse.call) (b : Below μ) :
    CallsInv (s.disconnectCall id b) := by
  have hgone : CallsInv (s.disconnected b.socketInit) := h.keep rfl rfl rfl
  rw [IpcClient.disconnectCall]
  split_ifs
  · exact hgone.setCall hid fun hmem => absurd hmem hlisted
  · exact hgone.finish hid hlisted _ _

theorem selectCall (h : CallsInv s) (hid : id < s.numCalls)
    (hlisted : id ∉ s.respList.map ClientResponse.call) (multiOut : List (MsgObject μ))
    (b : Below μ) (res : SelectResult) : CallsInv (s.selectCall id multiOut b res) := by
  cases res with
  | again => exact h
  | failed => exact h.disconnectCall hid hlisted b
  | timeout => exact h.finish hid hlisted _ _
  | ready =>
    rw [IpcClient.selectCall]
    split
    · next m rest hstream =>
      split_ifs
      · exact (h.keep rfl rfl rfl : CallsInv (s.startRecv rest)).setCall hid
          fun hmem => absurd hmem hlisted
      · exact h.disconnectCall hid hlisted b
    · exact h.disconnectCall hid hlisted b

theorem recvCall (h : CallsInv s) (hid : id < s.numCalls)
    (hlisted : id ∉ s.respList.map ClientResponse.call) (multiOut : List (MsgObject μ))
    (m : ServerMsg μ) (b : Below μ) : CallsInv (s.recvCall id multiOut m b) := by
  rw [IpcClient.recvCall]
  split_ifs
  · exact (h.keep rfl rfl rfl : CallsInv (s.endRecv _)).setCall hid fun hmem => absurd hmem hlisted
  · exact (h.keep rfl rfl rfl : CallsInv s.stopRecv).disconnectCall hid hlisted b

theorem handleCall (h : CallsInv s) (hid : id < s.numCalls)
    (hlisted : id ∉ s.respList.map ClientResponse.call) (multiOut : List (MsgObject μ))
    (out : MsgObject μ) (b : Below μ) : CallsInv (s.handleCall id multiOut out b) := by
  have hagain : ∀ parts, CallsInv (s.setCall id (.again parts)) := fun parts =>
    h.setCall hid fun hmem => absurd hmem hlisted
  rw [IpcClient.handleCall]
  cases out.hdr with
  | none => exact (h.keep rfl rfl rfl : CallsInv (s.putBack [out])).disconnectCall hid hlisted b
  | some hdr =>
    have hsame := handleResponse_calls hdr out s.respList
    dsimp only
    split_ifs
    · exact (h.keep rfl rfl rfl : CallsInv (s.putBack multiOut)).finish hid hlisted _ _
    · exact h.finish hid hlisted _ _
    · exact hagain _
    · refine (h.handleResponse hdr out).setCall hid fun hmem => absurd (hsame ▸ hmem) hlisted
    · exact (hagain multiOut).keep rfl rfl rfl
    · exact (hagain multiOut).keep rfl rfl rfl
    · exact (hagain multiOut).keep rfl rfl rfl
    · exact (hagain multiOut).keep rfl rfl rfl

theorem loopSelect (h : CallsInv s) (b : Below μ) (res : SelectResult) :
    CallsInv (s.loopSelect b res) := by
  cases res with
  | again => exact h
  | failed => exact h.keep rfl rfl rfl
  | timeout => exact h
  | ready =>
    rw [IpcClient.loopSelect]
    split
    · split_ifs
      · exact h.keep rfl rfl rfl
      · exact h.keep rfl rfl rfl
    · exact h.keep rfl rfl rfl

theorem loopHandle (h : CallsInv s) (out : MsgObject μ) (eventsThread : Bool) (b : Below μ) :
    CallsInv (s.loopHandle out eventsThread b) := by
  rw [IpcClient.loopHandle]
  cases out.hdr with
  | none => exact h.keep rfl rfl rfl
  | some hdr =>
    dsimp only
    split_ifs
    · exact h.keep rfl rfl rfl
    · exact h.keep rfl rfl rfl
    · exact h.keep rfl rfl rfl
    · exact (h.handleResponse hdr out).keep rfl rfl rfl
    · exact h.keep rfl rfl rfl
    · exact h.keep rfl rfl rfl

theorem step (h : CallsInv s) {a : ClientAction μ} (hstep : s.step a = some s') : CallsInv s' := by
  cases IpcClient.Stepped.of_step hstep with
  | call => exact h.startCall _ _
  | startWait _ hcall => exact h.startWait hcall _ _
  | connect _ hcall =>
    have hid := h.lt (by rw [hcall]; nofun)
    have hlisted := h.not_listed (by rw [hcall]; nofun) (by rw [hcall]; nofun)
    rw [IpcClient.connect]
    split_ifs
    · exact h.setCall hid fun hmem => absurd hmem hlisted
    · exact (h.keep rfl rfl rfl : CallsInv s.connected).setCall hid fun hmem => absurd hmem hlisted
    · exact h.finish hid hlisted _ _
    · exact h.finish hid hlisted _ _
  | listenerSend _ hcall => exact h.sendCmd (h.lt (by rw [hcall]; nofun)) (fun _ => .inr rfl) _
  | send _ hcall =>
    have hlisted := h.not_listed (by rw [hcall]; nofun) (by rw [hcall]; nofun)
    exact h.sendCmd (h.lt (by rw [hcall]; nofun)) (fun hmem => absurd hmem hlisted) _
  | endWait _ hcall => exact h.endWait (h.lt (by rw [hcall]; nofun))
  | select _ hcall =>
    exact h.selectCall (h.lt (by rw [hcall]; nofun))
      (h.not_listed (by rw [hcall]; nofun) (by rw [hcall]; nofun)) _ _ _
  | recv _ hcall =>
    exact h.recvCall (h.lt (by rw [hcall]; nofun))
      (h.not_listed (by rw [hcall]; nofun) (by rw [hcall]; nofun)) _ _ _
  | handle _ hcall =>
    exact h.handleCall (h.lt (by rw [hcall]; nofun))
      (h.not_listed (by rw [hcall]; nofun) (by rw [hcall]; nofun)) _ _ _
  | clbReturns _ hcall =>
    exact h.finish (h.lt (by rw [hcall]; nofun))
      (h.not_listed (by rw [hcall]; nofun) (by rw [hcall]; nofun)) _ _
  | loopHead =>
    rw [IpcClient.loopHead]
    split_ifs
    · exact h.keep rfl rfl rfl
    · split
      · exact h.keep rfl rfl rfl
      · exact h.keep rfl rfl rfl
  | loopConnect =>
    rw [IpcClient.loopConnect]
    split_ifs
    · exact h.keep rfl rfl rfl
    · exact h.keep rfl rfl rfl
    · exact h
    · exact h.keep rfl rfl rfl
  | loopSelect => exact h.loopSelect _ _
  | loopRecv =>
    rw [IpcClient.loopRecv]
    split_ifs
    · exact h.keep rfl rfl rfl
    · exact h.keep rfl rfl rfl
  | loopHandle => exact h.loopHandle _ _ _
  | loopCallback =>
    rw [IpcClient.callbackReturns]
    split_ifs
    · exact h.keep rfl rfl rfl
    · exact h.keep rfl rfl rfl
  | startLoop => exact h.keep rfl rfl rfl
  | connectionClb => exact h.keep rfl rfl rfl
  | answer => exact h.keep rfl rfl rfl
  | notify => exact h.keep rfl rfl rfl

end CallsInv

end Client

end Dwpal.Ipc
