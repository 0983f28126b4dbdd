import Dwpal.Lib.Machine
import Dwpal.Ipc.Exchange
import Mathlib.Logic.Function.Basic

/-! Commands of the server to its stations: `wave_ipcs_send_cmd_to` on any thread, the callback of
the client with its answers, and the server's loop that hands the answers to the calls that wait. -/

namespace Dwpal.Ipc

open Machine

/-- `cmd_response_status`. -/
inductive CmdResponseStatus where
  | respNone
  | respSuccess
  | respFailure
deriving DecidableEq

/-- `cmd_response`, with the call of `wave_ipcs_send_cmd_to` that it belongs to. The list `response`
is the multi message, empty for `NULL`. -/
structure CmdResponse (μ : Type) where
  call : Nat
  ipsta : Station
  seqNum : UInt8
  status : CmdResponseStatus
  response : List μ

/-- A message from a station: the ipc header that `ipc_header_pop` takes off, the message without
it, and the call that it answers. -/
structure StationMsg (μ : Type) where
  hdr : IpcHeader
  msg : μ
  answers : Option Nat

/-- What is known of a call of `wave_ipcs_send_cmd_to`: its number, whether the command is sent and
whether the callback of the client has it, the answers that the client has sent, and those that the
server has read. -/
structure ServerCall (μ : Type) where
  ipsta : Station
  seqNum : UInt8
  sent : Bool
  delivered : Bool
  answers : List (StationMsg μ)
  arrived : List (StationMsg μ)

/-- What the callback for commands returns. -/
inductive CmdClbRet where
  | success
  | takeOwnership
  | failed
deriving DecidableEq

/-- The server, the messages under way in both directions, and the calls so far. -/
structure CmdSystem (μ : Type) where
  cmdSeqNum : UInt8
  respList : List (CmdResponse μ)
  numCalls : Nat
  call : Nat → ServerCall μ
  toStation : Station → List Nat
  fromStation : Station → List (StationMsg μ)
  disconnected : Station → Bool
  droppedByAnswer : Bool

/-- What happens: the two halves of a call up to its wait, the client's listener giving a command to
the callback, a part of an answer, the return of the callback, a command of the client, the server's
handling of a message, a connection that ends, and the end of a wait. -/
inductive CmdAction (μ : Type) where
  | call (ipsta : Station)
  | sendCmd (id : Nat) (ret : WvIpcRet)
  | dispatch (ipsta : Station)
  | sendResponse (id : Nat) (msg : μ) (hasMore : UInt8)
  | clbReturns (id : Nat) (ret : CmdClbRet) (msg : μ)
  | clientCmd (ipsta : Station) (seqNum : UInt8) (msg : μ)
  | handleMsg (ipsta : Station) (failed : Bool)
  | disconnect (ipsta : Station)
  | finish (id : Nat)

section Server

variable {μ : Type}

/-- An answer that ends the wait for it. -/
def StationMsg.isFinal (m : StationMsg μ) : Bool :=
  m.hdr.header0 == waveIpcMsgReqFail || m.hdr.header2 == 0

/-- `wave_ipcs_handle_response_from_client` on the `cmd_response` that it has found. -/
def CmdResponse.answered (cs : CmdResponse μ) (hdr : IpcHeader) (resp : μ) : CmdResponse μ :=
  if hdr.header0 = waveIpcMsgResp then
    if hdr.header2 = 0 then { cs with status := .respSuccess, response := cs.response ++ [resp] }
    else { cs with response := cs.response ++ [resp] }
  else { cs with status := .respFailure, response := [resp] }

/-- The test of the search in `wave_ipcs_handle_response_from_client`. -/
def CmdResponse.waits (ipsta : Station) (hdr : IpcHeader) (cs : CmdResponse μ) : Bool :=
  cs.seqNum == hdr.header1 && cs.ipsta == ipsta

/-- `wave_ipcs_handle_response_from_client` on the list; a response that nobody waits for is
thrown. -/
def waveIpcsHandleResponseFromClient (ipsta : Station) (hdr : IpcHeader) (resp : μ) :
    List (CmdResponse μ) → List (CmdResponse μ)
  | [] => []
  | cs :: rest =>
    if cs.waits ipsta hdr then cs.answered hdr resp :: rest
    else cs :: waveIpcsHandleResponseFromClient ipsta hdr resp rest

/-- What `_wave_ipcs_send_cmd_to` returns once its wait is over, by timeout or not. -/
def CmdResponse.result (cs : CmdResponse μ) : WvIpcRet × List μ :=
  match cs.status with
  | .respNone => (.error, [])
  | .respFailure => (.cmdFailed, cs.response)
  | .respSuccess => (.success, cs.response)

namespace CmdSystem

def init : CmdSystem μ where
  cmdSeqNum := 0
  respList := []
  numCalls := 0
  call _ := ⟨0, 0, false, false, [], []⟩
  toStation _ := []
  fromStation _ := []
  disconnected _ := false
  droppedByAnswer := false

/-- `wave_ipcs_send_cmd_to` up to the entry in the list; the number is a `uint8_t`. -/
def startCall (s : CmdSystem μ) (ipsta : Station) : CmdSystem μ :=
  { s with
    cmdSeqNum := s.cmdSeqNum + 1
    respList := ⟨s.numCalls, ipsta, s.cmdSeqNum + 1, .respNone, []⟩ :: s.respList
    numCalls := s.numCalls + 1
    call := Function.update s.call s.numCalls ⟨ipsta, s.cmdSeqNum + 1, false, false, [], []⟩ }

/-- The entry of a call is taken out of the list. -/
def endCall (s : CmdSystem μ) (id : Nat) : CmdSystem μ :=
  { s with respList := s.respList.filter fun cs => cs.call != id }

/-- The client sends an answer to the call `id`. -/
def answer (s : CmdSystem μ) (id : Nat) (hdr : IpcHeader) (msg : μ) : CmdSystem μ :=
  let c := s.call id
  let m : StationMsg μ := ⟨hdr, msg, some id⟩
  { s with
    call := Function.update s.call id { c with answers := c.answers ++ [m] }
    fromStation := Function.update s.fromStation c.ipsta (s.fromStation c.ipsta ++ [m]) }

def disconnectStation (s : CmdSystem μ) (ipsta : Station) : CmdSystem μ :=
  { s with disconnected := Function.update s.disconnected ipsta true }

/-- The server reads the message `m`, behind which `rest` is under way. -/
def readMsg (s : CmdSystem μ) (ipsta : Station) (m : StationMsg μ) (rest : List (StationMsg μ)) :
    CmdSystem μ :=
  { s with
    fromStation := Function.update s.fromStation ipsta rest
    call := match m.answers with
      | some id =>
        Function.update s.call id { s.call id with arrived := (s.call id).arrived ++ [m] }
      | none => s.call }

/-- The switch of `wave_ipcs_handle_station_msg`; `failed` says whether the handling of a command
ends with a request failure that cannot be sent. -/
def handleStationMsg (s : CmdSystem μ) (ipsta : Station) (m : StationMsg μ) (failed : Bool) :
    CmdSystem μ :=
  if m.hdr.header0 = waveIpcMsgCmd then
    if failed then s.disconnectStation ipsta else s
  else if m.hdr.header0 = waveIpcMsgResp then
    { s with respList := waveIpcsHandleResponseFromClient ipsta m.hdr m.msg s.respList }
  else
    { s.disconnectStation ipsta with
      droppedByAnswer := s.droppedByAnswer || m.answers.isSome }

def step (s : CmdSystem μ) : CmdAction μ → Option (CmdSystem μ)
  | .call ipsta => if s.disconnected ipsta then none else some (s.startCall ipsta)
  | .sendCmd id ret =>
    if id < s.numCalls ∧ (s.call id).sent = false ∧ id ∈ s.respList.map CmdResponse.call then
      if ret = .success then
        some { s with
          call := Function.update s.call id { s.call id with sent := true }
          toStation := Function.update s.toStation (s.call id).ipsta
            (s.toStation (s.call id).ipsta ++ [id]) }
      else some (s.endCall id)
    else none
  | .dispatch ipsta =>
    match s.toStation ipsta with
    | [] => none
    | id :: rest => some { s with
        call := Function.update s.call id { s.call id with delivered := true }
        toStation := Function.update s.toStation ipsta rest }
  | .sendResponse id msg hasMore =>
    -- no part follows the last one
    if (s.call id).delivered ∧ ∀ m ∈ (s.call id).answers, m.isFinal = false then
      some (s.answer id ⟨waveIpcMsgResp, (s.call id).seqNum, hasMore, 0⟩ msg)
    else none
  | .clbReturns id ret msg =>
    if (s.call id).delivered then
      if ret = .failed then
        some (s.answer id ⟨waveIpcMsgReqFail, (s.call id).seqNum, 0, 0⟩ msg)
      else some s
    else none
  | .clientCmd ipsta seqNum msg => some { s with
      fromStation := Function.update s.fromStation ipsta
        (s.fromStation ipsta ++ [⟨⟨waveIpcMsgCmd, seqNum, 0, 0⟩, msg, none⟩]) }
  | .handleMsg ipsta failed =>
    if s.disconnected ipsta then none
    else
      match s.fromStation ipsta with
      | [] => none
      | m :: rest => some ((s.readMsg ipsta m rest).handleStationMsg ipsta m failed)
  | .disconnect ipsta => some (s.disconnectStation ipsta)
  | .finish id =>
    if (s.call id).sent ∧ id ∈ s.respList.map CmdResponse.call then some (s.endCall id) else none

end CmdSystem

/-- What the answers that have arrived amount to: a final part completes the client's reply, a
failure is one, and everything else leaves the wait to its timeout. -/
def outcome (arrived : List (StationMsg μ)) : WvIpcRet × List μ :=
  match arrived.getLast? with
  | none => (.error, [])
  | some m =>
    if m.hdr.header0 = waveIpcMsgReqFail then (.cmdFailed, [m.msg])
    else if m.hdr.header2 = 0 then (.success, arrived.map StationMsg.msg)
    else (.error, [])

/-- A call that returns now returns what its answers amount to; every answer is under way or has
arrived, in the order in which the client has sent them; no station was dropped for an answer. -/
structure Served (s : CmdSystem μ) : Prop where
  results : ∀ cs ∈ s.respList, cs.result = outcome (s.call cs.call).arrived
  answers : ∀ id, (s.call id).arrived ++
    ((s.fromStation (s.call id).ipsta).filter fun m => m.answers = some id) = (s.call id).answers
  kept : s.droppedByAnswer = false

/-- No callback fails, and no answer arrives while a newer command of the station waits under the
same number. -/
def Attributed (s : CmdSystem μ) : CmdAction μ → Prop
  | .clbReturns _ ret _ => ret ≠ .failed
  | .handleMsg ipsta _ => ∀ m rest, s.fromStation ipsta = m :: rest → ∀ id, m.answers = some id →
      ∀ cs, s.respList.find? (CmdResponse.waits ipsta m.hdr) = some cs → cs.call = id
  | _ => True

/-- The status of a `cmd_response` whose answers so far are `arrived`, when none is a failure. -/
def statusOf (arrived : List (StationMsg μ)) : CmdResponseStatus :=
  if arrived.getLast?.any StationMsg.isFinal then .respSuccess else .respNone

structure CmdInv (s : CmdSystem μ) : Prop where
  entries : ∀ cs ∈ s.respList, cs.call < s.numCalls ∧ cs.ipsta = (s.call cs.call).ipsta ∧
    cs.seqNum = (s.call cs.call).seqNum ∧
    cs.response = (s.call cs.call).arrived.map StationMsg.msg ∧
    cs.status = statusOf (s.call cs.call).arrived
  distinct : (s.respList.map CmdResponse.call).Nodup
  flow : ∀ id, (s.call id).arrived ++
    ((s.fromStation (s.call id).ipsta).filter fun m => m.answers = some id) = (s.call id).answers
  wire : ∀ id, ∀ m ∈ (s.call id).answers,
    m.hdr.header0 = waveIpcMsgResp ∧ m.hdr.header1 = (s.call id).seqNum
  finals : ∀ id, ∀ m ∈ (s.call id).answers.dropLast, m.isFinal = false
  origin : ∀ ipsta, ∀ m ∈ s.fromStation ipsta,
    (∀ id, m.answers = some id → (s.call id).ipsta = ipsta ∧ id < s.numCalls) ∧
    (m.answers = none → m.hdr.header0 = waveIpcMsgCmd)
  fresh : ∀ id, s.numCalls ≤ id → (s.call id).delivered = false ∧ (s.call id).answers = []
  queued : ∀ ipsta, ∀ id ∈ s.toStation ipsta, id < s.numCalls
  kept : s.droppedByAnswer = false

@[simp] theorem isFinal_of_resp {m : StationMsg μ} (h : m.hdr.header0 = waveIpcMsgResp) :
    m.isFinal = (m.hdr.header2 == 0) := by
  simp [StationMsg.isFinal, h, waveIpcMsgResp, waveIpcMsgReqFail]

/-- The response changes the entry of the call that it answers, if that is there. -/
theorem handleResponse_eq_map {ipsta : Station} {hdr : IpcHeader} {resp : μ} {id : Nat}
    {respList : List (CmdResponse μ)} (hdistinct : (respList.map CmdResponse.call).Nodup)
    (hfind : ∀ cs, respList.find? (CmdResponse.waits ipsta hdr) = some cs → cs.call = id)
    (hwaits : ∀ cs ∈ respList, cs.call = id → cs.waits ipsta hdr = true) :
    waveIpcsHandleResponseFromClient ipsta hdr resp respList =
      respList.map fun cs => if cs.call = id then cs.answered hdr resp else cs := by
  induction respList with
  | nil => rfl
  | cons cs rest ih =>
    obtain ⟨hnew, hrest⟩ := List.nodup_cons.mp hdistinct
    rw [waveIpcsHandleResponseFromClient, List.map_cons]
    by_cases hcs : cs.waits ipsta hdr = true
    · have hid : cs.call = id := hfind cs (List.find?_cons_of_pos hcs)
      rw [if_pos hcs, if_pos hid]
      have hother : ∀ x ∈ rest, x.call ≠ id := fun x hx hxid =>
        hnew (hid.trans hxid.symm ▸ List.mem_map_of_mem hx)
      have hsame : rest.map (fun x => if x.call = id then x.answered hdr resp else x) = rest := by
        conv_rhs => rw [← List.map_id rest]
        exact List.map_congr_left fun x hx => if_neg (hother x hx)
      rw [hsame]
    · have hid : cs.call ≠ id := fun hid => hcs (hwaits cs List.mem_cons_self hid)
      rw [if_neg hcs, if_neg hid, ih hrest]
      · intro x hx
        refine hfind x ?_
        rw [List.find?_cons_of_neg hcs]
        exact hx
      · exact fun x hx => hwaits x (List.mem_cons_of_mem cs hx)

theorem statusOf_append {arrived : List (StationMsg μ)} {m : StationMsg μ}
    (hresp : m.hdr.header0 = waveIpcMsgResp) :
    statusOf (arrived ++ [m]) = if m.hdr.header2 = 0 then .respSuccess else .respNone := by
  simp [statusOf, isFinal_of_resp hresp]

theorem statusOf_open {arrived : List (StationMsg μ)} (h : ∀ m ∈ arrived, m.isFinal = false) :
    statusOf arrived = .respNone := by
  rw [statusOf]
  cases hlast : arrived.getLast? with
  | none => rfl
  | some m => simp [h m (List.mem_of_getLast? hlast)]

/-- The entry of a call when one more part arrives. -/
theorem answered_part {cs : CmdResponse μ} {arrived : List (StationMsg μ)} {m : StationMsg μ}
    (hresp : m.hdr.header0 = waveIpcMsgResp) (hopen : ∀ x ∈ arrived, x.isFinal = false)
    (hresponse : cs.response = arrived.map StationMsg.msg)
    (hstatus : cs.status = statusOf arrived) :
    (cs.answered m.hdr m.msg).response = (arrived ++ [m]).map StationMsg.msg ∧
      (cs.answered m.hdr m.msg).status = statusOf (arrived ++ [m]) := by
  rw [statusOf_append hresp, CmdResponse.answered, if_pos hresp]
  rw [statusOf_open hopen] at hstatus
  split
  · exact ⟨by simp [hresponse], rfl⟩
  · exact ⟨by simp [hresponse], hstatus⟩

@[simp] theorem answered_call (cs : CmdResponse μ) (hdr : IpcHeader) (resp : μ) :
    (cs.answered hdr resp).call = cs.call := by
  simp only [CmdResponse.answered]
  split_ifs <;> rfl

@[simp] theorem answered_ipsta (cs : CmdResponse μ) (hdr : IpcHeader) (resp : μ) :
    (cs.answered hdr resp).ipsta = cs.ipsta := by
  simp only [CmdResponse.answered]
  split_ifs <;> rfl

@[simp] theorem answered_seqNum (cs : CmdResponse μ) (hdr : IpcHeader) (resp : μ) :
    (cs.answered hdr resp).seqNum = cs.seqNum := by
  simp only [CmdResponse.answered]
  split_ifs <;> rfl

namespace CmdInv

variable {s : CmdSystem μ}

theorem init : CmdInv (CmdSystem.init : CmdSystem μ) where
  entries cs hcs := by cases hcs
  distinct := List.nodup_nil
  flow _ := rfl
  wire _ m hm := by cases hm
  finals _ m hm := by cases hm
  origin _ m hm := by cases hm
  fresh _ _ := ⟨rfl, rfl⟩
  queued _ id hid := by cases hid
  kept := rfl

theorem startCall (h : CmdInv s) (ipsta : Station) : CmdInv (s.startCall ipsta) := by
  have hold : ∀ {id}, id < s.numCalls → (s.startCall ipsta).call id = s.call id := fun hid =>
    Function.update_of_ne (Nat.ne_of_lt hid) _ _
  have hnew : (s.startCall ipsta).call s.numCalls =
      ⟨ipsta, s.cmdSeqNum + 1, false, false, [], []⟩ := Function.update_self ..
  have hnobody : ∀ sta, ∀ m ∈ s.fromStation sta, m.answers ≠ some s.numCalls := fun sta m hm hid =>
    Nat.lt_irrefl _ ((h.origin sta m hm).1 _ hid).2
  refine ⟨?_, ?_, ?_, ?_, ?_, ?_, ?_, ?_, h.kept⟩
  · intro cs hcs
    rcases List.mem_cons.mp hcs with rfl | hcs
    · exact ⟨Nat.lt_succ_self _, by rw [hnew], by rw [hnew], by rw [hnew]; rfl, by rw [hnew]; rfl⟩
    · obtain ⟨hlt, hrest⟩ := h.entries cs hcs
      rw [hold hlt]
      exact ⟨Nat.lt_succ_of_lt hlt, hrest⟩
  · refine List.nodup_cons.mpr ⟨fun hmem => ?_, h.distinct⟩
    obtain ⟨cs, hcs, hcall⟩ := List.mem_map.mp hmem
    exact Nat.ne_of_lt (h.entries cs hcs).1 hcall
  · intro id
    by_cases hid : id = s.numCalls
    · subst hid
      rw [hnew]
      exact List.filter_eq_nil_iff.mpr fun m hm => by simpa using hnobody _ m hm
    · rw [show (s.startCall ipsta).call id = s.call id from Function.update_of_ne hid _ _]
      exact h.flow id
  · intro id m hm
    by_cases hid : id = s.numCalls
    · subst hid
      rw [hnew] at hm
      cases hm
    · rw [show (s.startCall ipsta).call id = s.call id from Function.update_of_ne hid _ _] at hm ⊢
      exact h.wire id m hm
  · intro id m hm
    by_cases hid : id = s.numCalls
    · subst hid
      rw [hnew] at hm
      cases hm
    · rw [show (s.startCall ipsta).call id = s.call id from Function.update_of_ne hid _ _] at hm
      exact h.finals id m hm
  · intro sta m hm
    refine ⟨fun id hid => ?_, (h.origin sta m hm).2⟩
    obtain ⟨hsta, hlt⟩ := (h.origin sta m hm).1 id hid
    rw [hold hlt]
    exact ⟨hsta, Nat.lt_succ_of_lt hlt⟩
  · intro id hid
    have hid' : s.numCalls < id := hid
    rw [show (s.startCall ipsta).call id = s.call id from
      Function.update_of_ne (Nat.ne_of_gt hid') _ _]
    exact h.fresh id (Nat.le_of_lt hid')
  · exact fun sta id hid => Nat.lt_succ_of_lt (h.queued sta id hid)

theorem endCall (h : CmdInv s) (id : Nat) : CmdInv (s.endCall id) :=
  { h with
    entries := fun cs hcs => h.entries cs (List.mem_of_mem_filter hcs)
    distinct := h.distinct.sublist (List.filter_sublist.map _) }

theorem disconnectStation (h : CmdInv s) (ipsta : Station) : CmdInv (s.disconnectStation ipsta) :=
  { h with }

/-- Nothing changes in the calls but who has got the command. -/
theorem setDelivery (h : CmdInv s) {call : Nat → ServerCall μ} {toStation : Station → List Nat}
    (hcall : ∀ id, (call id).ipsta = (s.call id).ipsta ∧ (call id).seqNum = (s.call id).seqNum ∧
      (call id).answers = (s.call id).answers ∧ (call id).arrived = (s.call id).arrived)
    (hfresh : ∀ id, s.numCalls ≤ id → (call id).delivered = false)
    (hqueued : ∀ ipsta, ∀ id ∈ toStation ipsta, id < s.numCalls) :
    CmdInv { s with call := call, toStation := toStation } where
  entries cs hcs := by
    obtain ⟨hipsta, hseq, -, harrived⟩ := hcall cs.call
    simp only [hipsta, hseq, harrived]
    exact h.entries cs hcs
  distinct := h.distinct
  flow id := by
    obtain ⟨hipsta, -, hanswers, harrived⟩ := hcall id
    simp only [hipsta, hanswers, harrived]
    exact h.flow id
  wire id := by
    obtain ⟨-, hseq, hanswers, -⟩ := hcall id
    simp only [hseq, hanswers]
    exact h.wire id
  finals id := by
    simp only [(hcall id).2.2.1]
    exact h.finals id
  origin ipsta m hm := by
    simp only [(hcall _).1]
    exact h.origin ipsta m hm
  fresh id hid := ⟨hfresh id hid, (hcall id).2.2.1.trans (h.fresh id hid).2⟩
  queued := hqueued
  kept := h.kept

theorem clientCmd (h : CmdInv s) (ipsta : Station) {m : StationMsg μ} (hnone : m.answers = none)
    (hcmd : m.hdr.header0 = waveIpcMsgCmd) :
    CmdInv { s with
      fromStation := Function.update s.fromStation ipsta (s.fromStation ipsta ++ [m]) } :=
  { h with
    flow := fun id => by
      rw [← h.flow id]
      by_cases hsta : (s.call id).ipsta = ipsta
      · simp [hsta, hnone]
      · simp only [Function.update_of_ne hsta]
    origin := fun sta x hx => by
      replace hx : x ∈ Function.update s.fromStation ipsta (s.fromStation ipsta ++ [m]) sta := hx
      by_cases hsta : sta = ipsta
      · subst hsta
        rw [Function.update_self] at hx
        rcases List.mem_append.mp hx with hx | hx
        · exact h.origin sta x hx
        · obtain rfl := List.mem_singleton.mp hx
          exact ⟨fun id hid => absurd (hnone.symm.trans hid) (by simp), fun _ => hcmd⟩
      · rw [Function.update_of_ne hsta] at hx
        exact h.origin sta x hx }

/-- One more part of an answer that is not complete. -/
theorem answer (h : CmdInv s) {id : Nat} (hdelivered : (s.call id).delivered = true)
    (hopen : ∀ m ∈ (s.call id).answers, m.isFinal = false) (msg : μ) (hasMore : UInt8) :
    CmdInv (s.answer id ⟨waveIpcMsgResp, (s.call id).seqNum, hasMore, 0⟩ msg) := by
  have hlt : id < s.numCalls := by
    by_contra hge
    rw [(h.fresh id (Nat.le_of_not_lt hge)).1] at hdelivered
    cases hdelivered
  generalize hm : StationMsg.mk ⟨waveIpcMsgResp, (s.call id).seqNum, hasMore, 0⟩ msg (some id) = m
  have hcall : ∀ i, (s.answer id m.hdr msg).call i =
      if i = id then { s.call id with answers := (s.call id).answers ++ [m] } else s.call i := by
    intro i
    subst hm
    simp only [CmdSystem.answer, Function.update_apply]
  have hfrom : ∀ sta, (s.answer id m.hdr msg).fromStation sta =
      if sta = (s.call id).ipsta then s.fromStation (s.call id).ipsta ++ [m]
      else s.fromStation sta := by
    intro sta
    subst hm
    simp only [CmdSystem.answer, Function.update_apply]
  have hid : m.answers = some id := hm ▸ rfl
  have hwire : m.hdr.header0 = waveIpcMsgResp ∧ m.hdr.header1 = (s.call id).seqNum :=
    hm ▸ ⟨rfl, rfl⟩
  rw [show (⟨waveIpcMsgResp, (s.call id).seqNum, hasMore, 0⟩ : IpcHeader) = m.hdr from hm ▸ rfl]
  have hkept : ∀ i, ((s.answer id m.hdr msg).call i).ipsta = (s.call i).ipsta ∧
      ((s.answer id m.hdr msg).call i).seqNum = (s.call i).seqNum ∧
      ((s.answer id m.hdr msg).call i).arrived = (s.call i).arrived := by
    intro i
    rw [hcall]
    split
    · next hi => exact hi ▸ ⟨rfl, rfl, rfl⟩
    · exact ⟨rfl, rfl, rfl⟩
  refine ⟨?_, h.distinct, ?_, ?_, ?_, ?_, ?_, h.queued, h.kept⟩
  · intro cs hcs
    obtain ⟨hipsta, hseq, harrived⟩ := hkept cs.call
    rw [hipsta, hseq, harrived]
    exact h.entries cs hcs
  · intro i
    rw [(hkept i).1, (hkept i).2.2, hcall, hfrom]
    by_cases hi : i = id
    · subst hi
      rw [if_pos rfl, if_pos rfl, List.filter_append, ← List.append_assoc, h.flow i]
      simp [hid]
    · rw [if_neg hi]
      split
      · next hsta =>
        rw [List.filter_append, ← List.append_assoc, ← hsta, h.flow i]
        simp [hid, Ne.symm hi]
      · exact h.flow i
  · intro i x hx
    rw [(hkept i).2.1]
    rw [hcall] at hx
    split at hx
    · next hi =>
      subst hi
      rcases List.mem_append.mp hx with hx | hx
      · exact h.wire i x hx
      · exact List.mem_singleton.mp hx ▸ hwire
    · exact h.wire i x hx
  · intro i x hx
    rw [hcall] at hx
    split at hx
    · rw [List.dropLast_concat] at hx
      exact hopen x hx
    · exact h.finals i x hx
  · intro sta x hx
    simp only [hkept]
    rw [hfrom] at hx
    split at hx
    · next hsta =>
      rcases List.mem_append.mp hx with hx | hx
      · exact hsta ▸ h.origin _ x hx
      · rw [List.mem_singleton.mp hx, hid]
        refine ⟨fun i hi => ?_, fun hnone => by cases hnone⟩
        obtain rfl := Option.some.inj hi
        exact ⟨hsta.symm, hlt⟩
    · exact h.origin sta x hx
  · intro i hi
    rw [hcall, if_neg (Nat.ne_of_gt (Nat.lt_of_lt_of_le hlt hi))]
    exact h.fresh i hi

/-- The answer at the front of the connection is read by the server and handed to its call. -/
theorem readAnswer (h : CmdInv s) {ipsta : Station} {m : StationMsg μ} {rest : List (StationMsg μ)}
    {id : Nat} (hfront : s.fromStation ipsta = m :: rest) (hid : m.answers = some id)
    (hfind : ∀ cs, s.respList.find? (CmdResponse.waits ipsta m.hdr) = some cs → cs.call = id) :
    m.hdr.header0 = waveIpcMsgResp ∧ CmdInv { s.readMsg ipsta m rest with
      respList := waveIpcsHandleResponseFromClient ipsta m.hdr m.msg s.respList } := by
  obtain ⟨hsta, hlt⟩ := (h.origin ipsta m (hfront ▸ List.mem_cons_self)).1 id hid
  have hflow : (s.call id).arrived ++ m :: rest.filter (fun x => x.answers = some id) =
      (s.call id).answers := by
    rw [← h.flow id, hsta, hfront, List.filter_cons_of_pos (by simpa using hid)]
  have hmem : m ∈ (s.call id).answers := by
    rw [← hflow]
    exact List.mem_append_right _ List.mem_cons_self
  obtain ⟨hresp, hseq⟩ := h.wire id m hmem
  have hopen : ∀ x ∈ (s.call id).arrived, x.isFinal = false := by
    intro x hx
    refine h.finals id x ?_
    rw [← hflow, List.dropLast_append_of_ne_nil (by simp)]
    exact List.mem_append_left _ hx
  have hwaits : ∀ cs ∈ s.respList, cs.call = id → cs.waits ipsta m.hdr = true := by
    intro cs hcs hcall
    obtain ⟨-, hipsta, hseqNum, -⟩ := h.entries cs hcs
    rw [hcall] at hipsta hseqNum
    simp [CmdResponse.waits, hipsta, hseqNum, hsta, hseq]
  rw [handleResponse_eq_map h.distinct hfind hwaits]
  refine ⟨hresp, ?_⟩
  have hread : ∀ i, (s.readMsg ipsta m rest).call i =
      if i = id then { s.call id with arrived := (s.call id).arrived ++ [m] } else s.call i := by
    intro i
    simp only [CmdSystem.readMsg, hid, Function.update_apply]
  refine ⟨?_, ?_, ?_, ?_, ?_, ?_, ?_, h.queued, h.kept⟩
  · intro cs' hcs'
    obtain ⟨cs, hcs, rfl⟩ := List.mem_map.mp hcs'
    obtain ⟨hcs_lt, hipsta, hseqNum, hresponse, hstatus⟩ := h.entries cs hcs
    simp only [hread]
    by_cases hcall : cs.call = id
    · rw [if_pos hcall, answered_call, if_pos hcall, answered_ipsta, answered_seqNum]
      rw [hcall] at hipsta hseqNum hresponse hstatus
      exact ⟨hcall ▸ hlt, hipsta, hseqNum, answered_part hresp hopen hresponse hstatus⟩
    · rw [if_neg hcall, if_neg hcall]
      exact ⟨hcs_lt, hipsta, hseqNum, hresponse, hstatus⟩
  · have hcalls : (s.respList.map fun cs =>
      if cs.call = id then cs.answered m.hdr m.msg else cs).map
        CmdResponse.call = s.respList.map CmdResponse.call := by
      rw [List.map_map]
      refine List.map_congr_left fun cs _ => ?_
      simp only [Function.comp]
      split <;> simp
    show (List.map _ _).Nodup
    rw [hcalls]
    exact h.distinct
  · intro i
    simp only [hread]
    by_cases hi : i = id
    · subst hi
      simp only [if_true, CmdSystem.readMsg, hsta, Function.update_self]
      rw [List.append_assoc]
      exact hflow
    · simp only [if_neg hi, CmdSystem.readMsg]
      rw [← h.flow i]
      by_cases hsta' : (s.call i).ipsta = ipsta
      · rw [hsta', Function.update_self, hfront,
          List.filter_cons_of_neg (by simpa [hid] using Ne.symm hi)]
      · rw [Function.update_of_ne hsta']
  · intro i x hx
    simp only [hread] at hx ⊢
    by_cases hi : i = id
    · subst hi
      simp only [if_true] at hx ⊢
      exact h.wire i x hx
    · simp only [if_neg hi] at hx ⊢
      exact h.wire i x hx
  · intro i x hx
    simp only [hread] at hx
    by_cases hi : i = id
    · subst hi
      simp only [if_true] at hx
      exact h.finals i x hx
    · simp only [if_neg hi] at hx
      exact h.finals i x hx
  · intro sta x hx
    have hx' : x ∈ s.fromStation sta := by
      by_cases hs : sta = ipsta
      · subst hs
        simp only [CmdSystem.readMsg, Function.update_self] at hx
        exact hfront ▸ List.mem_cons_of_mem m hx
      · simpa only [CmdSystem.readMsg, Function.update_of_ne hs] using hx
    refine ⟨fun i hi => ?_, (h.origin sta x hx').2⟩
    simp only [hread]
    split
    · next heq => exact heq ▸ (h.origin sta x hx').1 i hi
    · exact (h.origin sta x hx').1 i hi
  · intro i hi
    have hne : i ≠ id := Nat.ne_of_gt (Nat.lt_of_lt_of_le hlt hi)
    simp only [hread, if_neg hne]
    exact h.fresh i hi

/-- A message that answers nothing is read. -/
theorem readOther (h : CmdInv s) {ipsta : Station} {m : StationMsg μ} {rest : List (StationMsg μ)}
    (hfront : s.fromStation ipsta = m :: rest) (hnone : m.answers = none) :
    CmdInv (s.readMsg ipsta m rest) := by
  have hread : s.readMsg ipsta m rest =
      { s with fromStation := Function.update s.fromStation ipsta rest } := by
    rw [CmdSystem.readMsg, hnone]
  rw [hread]
  exact { h with
    flow := fun id => by
      rw [← h.flow id]
      by_cases hsta : (s.call id).ipsta = ipsta
      · simp only [hsta, Function.update_self, hfront]
        rw [List.filter_cons_of_neg (by simp [hnone])]
      · simp only [Function.update_of_ne hsta]
    origin := fun sta x hx => by
      refine h.origin sta x ?_
      by_cases hsta : sta = ipsta
      · subst hsta
        simp only [Function.update_self] at hx
        exact hfront ▸ List.mem_cons_of_mem m hx
      · simpa only [Function.update_of_ne hsta] using hx }

theorem step {s' : CmdSystem μ} {a : CmdAction μ} (h : CmdInv s) (hattr : Attributed s a)
    (hstep : s.step a = some s') : CmdInv s' := by
  cases a with
  | call ipsta =>
    simp only [CmdSystem.step, Option.ite_none_left_eq_some] at hstep
    obtain ⟨-, hstep⟩ := hstep
    cases hstep
    exact h.startCall ipsta
  | sendCmd id ret =>
    simp only [CmdSystem.step, Option.ite_none_right_eq_some] at hstep
    obtain ⟨⟨hlt, -, -⟩, hstep⟩ := hstep
    split at hstep
    · cases hstep
      refine h.setDelivery (fun i => ?_) (fun i hi => ?_) (fun sta i hi => ?_)
      · by_cases hi : i = id
        · subst hi
          simp
        · simp [Function.update_of_ne hi]
      · rw [Function.update_of_ne (Nat.ne_of_gt (Nat.lt_of_lt_of_le hlt hi))]
        exact (h.fresh i hi).1
      · by_cases hsta : sta = (s.call id).ipsta
        · subst hsta
          rw [Function.update_self] at hi
          rcases List.mem_append.mp hi with hi | hi
          · exact h.queued _ i hi
          · exact List.mem_singleton.mp hi ▸ hlt
        · rw [Function.update_of_ne hsta] at hi
          exact h.queued sta i hi
    · cases hstep
      exact h.endCall id
  | dispatch ipsta =>
    simp only [CmdSystem.step] at hstep
    split at hstep
    · cases hstep
    · next id rest hqueue =>
      cases hstep
      have hlt : id < s.numCalls := h.queued ipsta id (hqueue ▸ List.mem_cons_self)
      refine h.setDelivery (fun i => ?_) (fun i hi => ?_) (fun sta i hi => ?_)
      · by_cases hi : i = id
        · subst hi
          simp
        · simp [Function.update_of_ne hi]
      · rw [Function.update_of_ne (Nat.ne_of_gt (Nat.lt_of_lt_of_le hlt hi))]
        exact (h.fresh i hi).1
      · by_cases hsta : sta = ipsta
        · subst hsta
          rw [Function.update_self] at hi
          exact h.queued sta i (hqueue ▸ List.mem_cons_of_mem id hi)
        · rw [Function.update_of_ne hsta] at hi
          exact h.queued sta i hi
  | sendResponse id msg hasMore =>
    simp only [CmdSystem.step, Option.ite_none_right_eq_some] at hstep
    obtain ⟨⟨hdelivered, hopen⟩, hstep⟩ := hstep
    cases hstep
    exact h.answer hdelivered hopen msg hasMore
  | clbReturns id ret msg =>
    simp only [CmdSystem.step, Option.ite_none_right_eq_some] at hstep
    obtain ⟨-, hstep⟩ := hstep
    rw [if_neg hattr] at hstep
    cases hstep
    exact h
  | clientCmd ipsta seqNum msg =>
    cases hstep
    exact h.clientCmd ipsta rfl rfl
  | handleMsg ipsta failed =>
    simp only [CmdSystem.step, Option.ite_none_left_eq_some] at hstep
    obtain ⟨-, hstep⟩ := hstep
    split at hstep
    · cases hstep
    · next m rest hfront =>
      cases hstep
      cases hid : m.answers with
      | some id =>
        obtain ⟨hresp, hnext⟩ := h.readAnswer hfront hid (hattr m rest hfront id hid)
        rw [CmdSystem.handleStationMsg, if_neg (by rw [hresp]; decide), if_pos hresp]
        exact hnext
      | none =>
        have hcmd := (h.origin ipsta m (hfront ▸ List.mem_cons_self)).2 hid
        rw [CmdSystem.handleStationMsg, if_pos hcmd]
        have hnext := h.readOther hfront hid
        split
        · exact hnext.disconnectStation ipsta
        · exact hnext
  | disconnect ipsta =>
    cases hstep
    exact h.disconnectStation ipsta
  | finish id =>
    simp only [CmdSystem.step, Option.ite_none_right_eq_some] at hstep
    obtain ⟨-, hstep⟩ := hstep
    cases hstep
    exact h.endCall id

/-- What the status and the parts in an entry amount to. -/
theorem served (h : CmdInv s) : Served s where
  results cs hcs := by
    obtain ⟨-, -, -, hresponse, hstatus⟩ := h.entries cs hcs
    rw [CmdResponse.result, outcome, hstatus, statusOf]
    cases hlast : (s.call cs.call).arrived.getLast? with
    | none => rfl
    | some m =>
      have hmem : m ∈ (s.call cs.call).answers := by
        rw [← h.flow cs.call]
        exact List.mem_append_left _ (List.mem_of_getLast? hlast)
      have hresp := (h.wire cs.call m hmem).1
      have hnofail : m.hdr.header0 ≠ waveIpcMsgReqFail := by
        rw [hresp]
        decide
      simp only [Option.any_some, isFinal_of_resp hresp, if_neg hnofail]
      by_cases hfinal : m.hdr.header2 = 0
      · simp [hfinal, hresponse]
      · simp [hfinal]
  answers := h.flow
  kept := h.kept

end CmdInv

/-- In every run in which no callback fails and no answer arrives while a newer command to the
station waits under its number, a call of `wave_ipcs_send_cmd_to` that ends returns what the client
has answered. -/
theorem serverCommands {s : CmdSystem μ} {acts : List (CmdAction μ)}
    (hattr : Along CmdSystem.step Attributed .init acts)
    (hrun : exec CmdSystem.step .init acts = some s) : Served s :=
  (exec_along (fun h => h.step) CmdInv.init hattr hrun).served

end Server

/-- The client answers in two parts, which both arrive. -/
def twoParts : List (CmdAction Nat) :=
  [.call 0, .sendCmd 0 .success, .dispatch 0, .sendResponse 0 5 1, .clbReturns 0 .success 0,
    .sendResponse 0 6 0, .handleMsg 0 false, .handleMsg 0 false]

theorem twoParts_attributed : Along CmdSystem.step Attributed .init twoParts := by
  refine ⟨trivial, trivial, trivial, trivial, CmdClbRet.noConfusion, trivial, ?_, ?_, trivial⟩
  all_goals
    intro m rest hfront id hid cs hfind
    cases hfront
    cases hid
    cases hfind
    rfl

theorem serverCommands_twoParts :
    ∃ s, exec CmdSystem.step .init twoParts = some s ∧ Served s :=
  ⟨_, rfl, serverCommands twoParts_attributed rfl⟩

/-- The callback fails, and its request failure reaches the server. -/
def failedCallback : List (CmdAction Nat) :=
  [.call 0, .sendCmd 0 .success, .dispatch 0, .clbReturns 0 .failed 0, .handleMsg 0 false]

/-- The server drops the station for its answer, and the call goes on to wait. -/
theorem reqFailed_drops_station :
    ¬∀ (s : CmdSystem Nat) (acts : List (CmdAction Nat)),
      exec CmdSystem.step .init acts = some s → Served s := by
  intro h
  have hkept := (h _ failedCallback rfl).kept
  cases hkept

end Dwpal.Ipc
