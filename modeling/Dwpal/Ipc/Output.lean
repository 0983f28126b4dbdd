import Dwpal.Lib.Machine
import Dwpal.Lib.Tally
import Dwpal.Ipc.Exchange
import Mathlib.Logic.Function.Basic

/-! What the server sends to its stations: any thread sends directly or parks what would block, and
the thread of `wave_ipcs_run` sends the parked packets again and removes the stations that are gone
or stuck. A critical section of `pending_lock` is one step, but for a resend round, in which every
send and every assignment to `has_pending_msgs` is one. -/

namespace Dwpal.Ipc

open Machine Tally

def ipcClientArrSize : Nat := 36

def maxNumPendingIpcMsgs : Int := 1000

def staMaxNumPendingOnServLimit : Nat := 200

/-- What a packet is to its station, and so which of the two lists it is parked on. -/
inductive PacketClass where
  | reply
  | event
deriving DecidableEq

/-- A packet that a thread submits. The submissions are numbered in the order in which they are
made; `none` is the thread of `wave_ipcs_run`. -/
structure Packet (θ μ : Type) where
  thread : Option θ
  ipsta : Station
  cls : PacketClass
  number : Nat
  msg : μ

/-- A `dup_msg` on a pending list: the object of the pool and the packet in it. -/
structure PendingMsg (θ μ : Type) where
  obj : Nat
  packet : Packet θ μ

/-- `wv_ipstation`. `pending` is `pending_replies` and `pending_msgs`, and `written` what the socket
has taken so far. -/
structure WvIpstation (θ μ : Type) where
  refcnt : Int
  isConnected : Bool
  hasPendingMsgs : Bool
  resendAttempts : Nat
  pending : PacketClass → List (PendingMsg θ μ)
  written : List (Packet θ μ)

/-- Where a thread is in `wave_ipcs_send_reply` or `wave_ipcs_send_to`: behind the test of
`has_pending_msgs`, or at the call of `wave_ipcs_send_would_block`. -/
inductive SendPc (θ μ : Type) where
  | idle
  | send (packet : Packet θ μ)
  | wouldBlock (packet : Packet θ μ)

/-- Where a resend round is with the station that it has come to: in one of the two lists, before
the first or the second assignment to `has_pending_msgs`, or behind
`wave_ipcs_sta_resend_pending`. -/
inductive RoundStage where
  | resend (cls : PacketClass) (failedOnFirst : Bool)
  | setFlag
  | mergeFlag
  | removeStuck
deriving DecidableEq

/-- Where a resend round is: at the test of a slot of `stations`, or at the station in it. -/
inductive Round where
  | slot (i : Nat)
  | station (i : Nat) (ipsta : Station) (stage : RoundStage)

/-- `wv_ipserver`, with what its threads are doing. All that was ever allocated stays known by its
number: `created` stations, `submitted` packets and `dups` objects. -/
structure WvIpserver (θ μ : Type) where
  stations : Nat → Option Station
  sta : Station → WvIpstation θ μ
  created : Nat
  stationHasPendingMsgs : Int
  pc : Option θ → SendPc θ μ
  round : Option Round
  submitted : Nat
  accepted : List (Packet θ μ)
  dups : Nat
  returned : List Nat

/-- What happens, and what a step finds: how a send ends, and whether the pool has an object and
the list a node for it. -/
inductive OutputAction (θ μ : Type) where
  | accept
  | submit (t : Option θ) (ipsta : Station) (cls : PacketClass) (msg : μ)
  | send (t : Option θ) (ret : WvIpcRet)
  | sendWouldBlock (t : Option θ) (dup node : Bool)
  | startRound
  | round (ret : WvIpcRet)
  | disconnect (i : Nat)
  | incref (ipsta : Station)
  | decref (ipsta : Station)

section Output

variable {θ μ : Type}

namespace WvIpstation

/-- The station that `wave_ipcs_accept_new_client` puts into `stations`. -/
def fresh : WvIpstation θ μ where
  refcnt := 1
  isConnected := true
  hasPendingMsgs := false
  resendAttempts := 0
  pending _ := []
  written := []

def numPending (sta : WvIpstation θ μ) : Nat :=
  (sta.pending .reply).length + (sta.pending .event).length

def setPending (sta : WvIpstation θ μ) (cls : PacketClass) (msgs : List (PendingMsg θ μ)) :
    WvIpstation θ μ :=
  { sta with pending := Function.update sta.pending cls msgs }

/-- The objects on the two lists. -/
def objs (sta : WvIpstation θ μ) : List Nat :=
  (sta.pending .reply ++ sta.pending .event).map PendingMsg.obj

/-- The references that the upper layer holds. -/
def upperRefs (sta : WvIpstation θ μ) : Int := sta.refcnt - if sta.isConnected then 1 else 0

end WvIpstation

namespace WvIpserver

variable [DecidableEq θ]

def init : WvIpserver θ μ where
  stations _ := none
  sta _ := { WvIpstation.fresh with refcnt := 0, isConnected := false }
  created := 0
  stationHasPendingMsgs := 0
  pc _ := .idle
  round := none
  submitted := 0
  accepted := []
  dups := 0
  returned := []

def setSta (s : WvIpserver θ μ) (ipsta : Station) (sta : WvIpstation θ μ) : WvIpserver θ μ :=
  { s with sta := Function.update s.sta ipsta sta }

def setPc (s : WvIpserver θ μ) (t : Option θ) (pc : SendPc θ μ) : WvIpserver θ μ :=
  { s with pc := Function.update s.pc t pc }

/-- The thread of `wave_ipcs_run` is neither in a send nor in a resend round. -/
def serverFree (s : WvIpserver θ μ) : Bool :=
  match s.pc none, s.round with
  | .idle, none => true
  | _, _ => false

/-- `wave_ipcs_accept_new_client`, with everything allocated. -/
def waveIpcsAcceptNewClient (s : WvIpserver θ μ) : WvIpserver θ μ :=
  match (List.range ipcClientArrSize).find? fun i => (s.stations i).isNone with
  | none => s
  | some i => { s with
      stations := Function.update s.stations i (some s.created)
      sta := Function.update s.sta s.created .fresh
      created := s.created + 1 }

/-- The beginning of `wave_ipcs_send_reply` and of `wave_ipcs_send_to`. -/
def submit (s : WvIpserver θ μ) (t : Option θ) (ipsta : Station) (cls : PacketClass) (msg : μ) :
    WvIpserver θ μ :=
  let packet : Packet θ μ := ⟨t, ipsta, cls, s.submitted, msg⟩
  { s.setPc t (if (s.sta ipsta).hasPendingMsgs then .wouldBlock packet else .send packet) with
    submitted := s.submitted + 1 }

/-- The submission of `packet` returns. -/
def returns (s : WvIpserver θ μ) (packet : Packet θ μ) (ret : WvIpcRet) : WvIpserver θ μ :=
  { s.setPc packet.thread .idle with
    accepted := if ret = .success then s.accepted ++ [packet] else s.accepted }

/-- `wave_ipc_send_msg` on the socket of the station has taken `packet`. -/
def write (s : WvIpserver θ μ) (packet : Packet θ μ) : WvIpserver θ μ :=
  let sta := s.sta packet.ipsta
  s.setSta packet.ipsta { sta with written := sta.written ++ [packet] }

/-- `list_push_back` and what follows it in `wave_ipcs_send_would_block`; without a node the list
stays as it is. -/
def park (s : WvIpserver θ μ) (packet : Packet θ μ) (node : Bool) : WvIpserver θ μ :=
  let sta := s.sta packet.ipsta
  let msgs := sta.pending packet.cls
  { s.setSta packet.ipsta { sta.setPending packet.cls
      (if node then msgs ++ [⟨s.dups, packet⟩] else msgs) with hasPendingMsgs := true } with
    stationHasPendingMsgs := s.stationHasPendingMsgs + 1
    dups := s.dups + 1 }

/-- The limits leave no room for another packet to the station. -/
def limitReached (s : WvIpserver θ μ) (ipsta : Station) : Bool :=
  s.stationHasPendingMsgs ≥ maxNumPendingIpcMsgs ∧
    (s.sta ipsta).numPending ≥ staMaxNumPendingOnServLimit

/-- `wave_ipcs_send_would_block`. -/
def waveIpcsSendWouldBlock (s : WvIpserver θ μ) (packet : Packet θ μ) (dup node : Bool) :
    WvIpcRet × WvIpserver θ μ :=
  if dup = false then (.error, s)
  else if (s.sta packet.ipsta).isConnected = false then
    -- `dup_msg` is not put back
    (.disconnected, { s with dups := s.dups + 1 })
  else if s.limitReached packet.ipsta then
    (.error, { s with dups := s.dups + 1, returned := s.returned ++ [s.dups] })
  else (.success, s.park packet node)

/-- `wave_ipcs_sta_decref`; the last reference takes what is parked along. -/
def waveIpcsStaDecref (s : WvIpserver θ μ) (ipsta : Station) : WvIpserver θ μ :=
  let sta := s.sta ipsta
  let refcnt := sta.refcnt - 1
  { s.setSta ipsta { sta with
      refcnt
      pending := if refcnt = 0 then fun _ => [] else sta.pending } with
    returned := if refcnt = 0 then s.returned ++ sta.objs else s.returned }

/-- The end of a station, by the label `disconnect` of `wave_ipcs_handle_station_msg` or in
`wave_ipcs_run`. -/
def remove (s : WvIpserver θ μ) (i : Nat) (ipsta : Station) : WvIpserver θ μ :=
  let sta := s.sta ipsta
  let s := { s.setSta ipsta { sta with isConnected := false } with
    stationHasPendingMsgs := s.stationHasPendingMsgs - sta.numPending }
  { s.waveIpcsStaDecref ipsta with stations := Function.update s.stations i none }

/-- One turn of the loops of `wave_ipcs_sta_resend_pending`; the first message of the list is the
one that is sent. -/
def resendTurn (s : WvIpserver θ μ) (i : Nat) (ipsta : Station) (cls : PacketClass)
    (failedOnFirst : Bool) (ret : WvIpcRet) : WvIpserver θ μ :=
  let sta := s.sta ipsta
  match sta.pending cls with
  | [] =>
    let stage := if cls = .reply then .resend .event failedOnFirst else .setFlag
    { s with round := some (.station i ipsta stage) }
  | m :: rest =>
    if ret = .success then
      { s.setSta ipsta { sta.setPending cls rest with
          resendAttempts := 0
          written := sta.written ++ [m.packet] } with
        stationHasPendingMsgs := s.stationHasPendingMsgs - 1
        returned := s.returned ++ [m.obj]
        round := some (.station i ipsta (.resend cls false)) }
    else
      { s.setSta ipsta { sta with
          resendAttempts := if failedOnFirst then sta.resendAttempts + 1
            else sta.resendAttempts } with
        round := some (.station i ipsta .setFlag) }

/-- The resend round of `wave_ipcs_run` goes on. -/
def roundStep (s : WvIpserver θ μ) (ret : WvIpcRet) : Round → WvIpserver θ μ
  | .slot i =>
    if i < ipcClientArrSize then
      match s.stations i with
      | none => { s with round := some (.slot (i + 1)) }
      | some ipsta =>
        if (s.sta ipsta).hasPendingMsgs then
          { s with round := some (.station i ipsta (.resend .reply true)) }
        else { s with round := some (.slot (i + 1)) }
    else { s with round := none }
  | .station i ipsta (.resend cls failedOnFirst) => s.resendTurn i ipsta cls failedOnFirst ret
  | .station i ipsta .setFlag =>
    let sta := s.sta ipsta
    { s.setSta ipsta { sta with hasPendingMsgs := !(sta.pending .reply).isEmpty } with
      round := some (.station i ipsta .mergeFlag) }
  | .station i ipsta .mergeFlag =>
    let sta := s.sta ipsta
    { s.setSta ipsta { sta with
        hasPendingMsgs := sta.hasPendingMsgs || !(sta.pending .event).isEmpty } with
      round := some (.station i ipsta .removeStuck) }
  | .station i ipsta .removeStuck =>
    { (if (s.sta ipsta).resendAttempts ≥ 10 then s.remove i ipsta else s) with
      round := some (.slot (i + 1)) }

/-- The steps of all threads. Whoever drops a reference holds one. -/
def step (s : WvIpserver θ μ) : OutputAction θ μ → Option (WvIpserver θ μ)
  | .accept => if s.serverFree then some s.waveIpcsAcceptNewClient else none
  | .submit t ipsta cls msg =>
    match s.pc t with
    | .idle =>
      if ipsta < s.created ∧ (t = none → s.serverFree) then some (s.submit t ipsta cls msg)
      else none
    | _ => none
  | .send t ret =>
    match s.pc t with
    | .send packet =>
      match ret with
      | .success => some ((s.write packet).returns packet .success)
      | .cmdWouldBlock => some (s.setPc t (.wouldBlock packet))
      | ret => some (s.returns packet ret)
    | _ => none
  | .sendWouldBlock t dup node =>
    match s.pc t, s.round with
    | .wouldBlock packet, none =>
      let (ret, s) := s.waveIpcsSendWouldBlock packet dup node
      some (s.returns packet ret)
    | _, _ => none
  | .startRound =>
    if s.serverFree ∧ s.stationHasPendingMsgs ≠ 0 then some { s with round := some (.slot 0) }
    else none
  | .round ret => s.round.map (s.roundStep ret)
  | .disconnect i =>
    if s.serverFree then (s.stations i).map (s.remove i) else none
  | .incref ipsta =>
    let sta := s.sta ipsta
    if 0 < sta.refcnt then some (s.setSta ipsta { sta with refcnt := sta.refcnt + 1 }) else none
  | .decref ipsta =>
    if 0 < (s.sta ipsta).upperRefs then some (s.waveIpcsStaDecref ipsta) else none

end WvIpserver

end Output

end Dwpal.Ipc
