import Dwpal.Ext.Services
import Dwpal.Lib.Machine

/-! The `get` commands of `dwpal_ext.c`: threads send requests to the driver and receive the answers
over one netlink socket, through the callback that stores what is received in the buffers of the
call. The driver may answer late. -/

namespace Dwpal.Ext

open Daemon (DwpalRet)
open Machine

def driverNlToDwpalMsgLength : Nat := 8192

/-- A message as the callbacks of `dwpal_driver_nl_msg_get` see it: with the data of the vendor,
with what there is of an error, or another one. -/
inductive NlMessage where
  | vendor (data : List UInt8)
  | error (err : Option Int)
  | other
deriving DecidableEq

/-- What one `nl_recvmsgs` takes from the socket: the request that it answers, the messages that a
callback is called for, and the result. -/
structure NlBatch where
  request : Nat
  messages : List NlMessage
  res : Int
deriving DecidableEq

/-- The output of a call: `*outLen` and the data in `outData`, `none` while they are not written. -/
structure GetOutput where
  outLen : Option Nat
  outData : Option (List UInt8)
deriving DecidableEq

/-- Where a thread is in `nl_cmd_handle`, and in `dwpal_ext_nl80211_cmd_send` and the other
synchronous commands. -/
inductive GetPhase where
  | idle
  | lock
  | cleanIfNeeded (selectFailureCount : Nat)
  | cmdSend
  | receiveResponse (request : Nat)
  | syncLock
  | sync
deriving DecidableEq

inductive SelectRet where
  | failed
  | timeout
  | ready
deriving DecidableEq

/-- What is below a step: whether the driver's interface is there, whether the socket has a
descriptor, what `select` gives, whether the callbacks of `dwpal_driver_nl_msg_get` are allocated,
and whether the request is sent. -/
structure GetOutcome where
  found : Bool
  fds : Bool
  select : SelectRet
  cb : Bool
  sent : Bool

/-- A call that returned: its request, what it returned, its output, and how many answers the driver
had given when the call had emptied the socket. -/
structure Returned where
  request : Option Nat
  ret : DwpalRet
  output : GetOutput
  mark : Nat

/-- The threads, `nl_cmd_mutex`, the messages on the socket, the requests that the driver works on,
the number of the next one, the variables of the callback, the outputs of the calls, all that the
driver answered, the number of answers when the call of a thread had emptied the socket, and the
calls that returned. -/
structure NlGet (T : Type) where
  mutex : Option T
  queue : List NlBatch
  pending : List Nat
  requests : Nat
  phase : T → GetPhase
  nlResponse : Option T
  nlResponseReceived : Bool
  nlResponseSaveData : Bool
  output : T → GetOutput
  answers : List NlBatch
  mark : T → Nat
  returned : List Returned

variable {T : Type} [DecidableEq T]

namespace NlGet

def setPhase (s : NlGet T) (t : T) (phase : GetPhase) : NlGet T :=
  { s with phase := Function.update s.phase t phase }

/-- `nlCmdGetCallback`. -/
def nlCmdGetCallback (s : NlGet T) (data : List UInt8) : NlGet T :=
  if data.length = 0 then s
  else if s.nlResponseSaveData then
    match s.nlResponse with
    | none => s
    | some t =>
      if data.length > driverNlToDwpalMsgLength then s
      else
        { s with
          output := Function.update s.output t ⟨some data.length, some data⟩
          nlResponseReceived := true }
  else s

/-- The callbacks of `dwpal_driver_nl_msg_get` for a message. -/
def receive (s : NlGet T) : NlMessage → NlGet T
  | .vendor data => s.nlCmdGetCallback data
  | .error _ | .other => s

/-- The error that `error_handler` leaves. -/
def errorOf (messages : List NlMessage) : Int :=
  messages.foldl (fun err message => match message with | .error (some e) => e | _ => err) 0

/-- `dwpal_driver_nl_msg_get` for the first messages on the socket. -/
def msgGet (s : NlGet T) (o : GetOutcome) : DwpalRet × NlGet T :=
  match s.queue with
  | [] => (.failure, s)
  | batch :: queue =>
    if o.cb then
      (if batch.res < 0 ∨ errorOf batch.messages < 0 then .failure else .success,
        batch.messages.foldl receive { s with queue := queue })
    else (.failure, s)

/-- `nl_cmd_handle` returns. -/
def cmdReturn (s : NlGet T) (t : T) (request : Option Nat) (ret : DwpalRet) : NlGet T :=
  { s.setPhase t .idle with returned := ⟨request, ret, s.output t, s.mark t⟩ :: s.returned }

/-- The label `cmd_err` of `nl_cmd_handle`. -/
def cmdErr (s : NlGet T) (t : T) (request : Option Nat) : NlGet T :=
  { ({ s with output := Function.update s.output t { s.output t with outLen := some 0 } }.cmdReturn
      t request .failure) with mutex := none }

/-- A call of `dwpal_ext_driver_nl_get`. -/
def call (s : NlGet T) (t : T) (o : GetOutcome) : NlGet T :=
  let s := { s with output := Function.update s.output t ⟨none, none⟩ }
  if o.found then s.setPhase t .lock else s.cmdReturn t none .interfaceIsDown

def lock (s : NlGet T) (t : T) (o : GetOutcome) : Option (NlGet T) :=
  if s.mutex.isSome then none
  else if o.fds then some { s.setPhase t (.cleanIfNeeded 0) with mutex := some t }
  else some (s.cmdErr t none)

/-- A round of the loop of `nl_cmd_socket_clean_if_needed`. -/
def cleanIfNeeded (s : NlGet T) (t : T) (o : GetOutcome) (selectFailureCount : Nat) :
    Option (NlGet T) :=
  match o.select with
  | .failed =>
    if selectFailureCount + 1 ≥ 3 then some (s.cmdErr t none)
    else some (s.setPhase t (.cleanIfNeeded (selectFailureCount + 1)))
  | .ready =>
    if s.queue = [] then none
    else
      match { s with nlResponseSaveData := false }.msgGet o with
      | (.failure, s) => some (s.cmdErr t none)
      | (_, s) => some s
  | .timeout =>
    if s.queue = [] then
      some { s.setPhase t .cmdSend with mark := Function.update s.mark t s.answers.length }
    else none

/-- `dwpal_driver_nl_cmd_send`, and the beginning of `nl_cmd_socket_receive_response`. -/
def cmdSend (s : NlGet T) (t : T) (o : GetOutcome) : NlGet T :=
  if o.sent then
    let s' := { s with pending := s.requests :: s.pending, requests := s.requests + 1 }
    if o.fds then s'.setPhase t (.receiveResponse s.requests) else s'.cmdErr t (some s.requests)
  else s.cmdErr t none

/-- `nl_cmd_socket_receive_response`. Nothing is written where nothing comes in time. -/
def receiveResponse (s : NlGet T) (t : T) (o : GetOutcome) (request : Nat) : Option (NlGet T) :=
  match o.select with
  | .failed => some s
  | .timeout =>
    if s.queue = [] then some { s.cmdReturn t (some request) .success with mutex := none } else none
  | .ready =>
    if s.queue = [] then none
    else
      match { s with
          nlResponseSaveData := true
          nlResponse := some t
          nlResponseReceived := false }.msgGet o with
      | (.failure, s) => some (s.cmdErr t (some request))
      | (_, s) =>
        if s.nlResponseReceived then
          some { s.cmdReturn t (some request) .success with mutex := none }
        else some (s.cmdErr t (some request))

def goOn (s : NlGet T) (t : T) (o : GetOutcome) : GetPhase → Option (NlGet T)
  | .lock => s.lock t o
  | .cleanIfNeeded n => s.cleanIfNeeded t o n
  | .cmdSend => some (s.cmdSend t o)
  | .receiveResponse request => s.receiveResponse t o request
  | .syncLock => if s.mutex.isSome then none else some { s.setPhase t .sync with mutex := some t }
  | .idle | .sync => none

def initial : NlGet T where
  mutex := none
  queue := []
  pending := []
  requests := 0
  phase := fun _ => .idle
  nlResponse := none
  nlResponseReceived := false
  nlResponseSaveData := false
  output := fun _ => ⟨none, none⟩
  answers := []
  mark := fun _ => 0
  returned := []

end NlGet

/-- A step: a thread calls `dwpal_ext_driver_nl_get`, or a synchronous command that locks the mutex,
or goes on in it; under the mutex a synchronous command sends requests and takes messages with
callbacks of its own, until it ends; and the driver answers a request, maybe not for the last
time. -/
inductive GetAction (T : Type) where
  | call (t : T) (o : GetOutcome)
  | syncCall (t : T)
  | go (t : T) (o : GetOutcome)
  | syncSend (t : T)
  | syncTake (t : T)
  | syncReturn (t : T)
  | answer (request : Nat) (messages : List NlMessage) (res : Int) (last : Bool)

namespace NlGet

def step (s : NlGet T) : GetAction T → Option (NlGet T)
  | .call t o => if s.phase t = .idle then some (s.call t o) else none
  | .syncCall t => if s.phase t = .idle then some (s.setPhase t .syncLock) else none
  | .go t o => s.goOn t o (s.phase t)
  | .syncSend t =>
    if s.phase t = .sync then
      some { s with pending := s.requests :: s.pending, requests := s.requests + 1 }
    else none
  | .syncTake t => if s.phase t = .sync ∧ s.queue ≠ [] then some { s with queue := s.queue.tail }
    else none
  | .syncReturn t => if s.phase t = .sync then some { s.setPhase t .idle with mutex := none }
    else none
  | .answer request messages res last =>
    if request ∈ s.pending then
      some { s with
        pending := if last then s.pending.erase request else s.pending
        queue := s.queue ++ [⟨request, messages, res⟩]
        answers := s.answers ++ [⟨request, messages, res⟩] }
    else none

end NlGet

end Dwpal.Ext
