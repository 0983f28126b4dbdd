import Dwpal.Ipc.PendingAccounts
import Dwpal.Ipc.ServerCmd

/-! Who owns the message objects of the server: those that it duplicates to park them, and those
that it receives from its stations. -/

namespace Dwpal.Ipc

open Machine Tally

/-- What `wave_ipcs_handle_station_msg` gets from `wave_ipc_recv_msg` and `ipc_header_pop`. -/
inductive ReceivedMsg where
  | recvFailed
  | badHeader
  | message (hdr : IpcHeader)

/-- The server's output, and the objects that it has received: those with the upper layer, those
that a waiting or a completed call of `wave_ipcs_send_cmd_to` has, and those back in the pool.
`sent` tells which calls wait. -/
structure ServerObjects (θ μ : Type) where
  output : WvIpserver θ μ
  received : Nat
  upperLayer : List Nat
  cmdSeqNum : UInt8
  numCalls : Nat
  sent : Nat → Bool
  respList : List (CmdResponse Nat)
  results : List Nat
  returned : List Nat

/-- A step of the output, a message from a station, and the steps of `wave_ipcs_send_cmd_to`: up to
its entry in the list, if there is a node for it, the send, and the end of the wait. -/
inductive ObjectsAction (θ μ : Type) where
  | output (a : OutputAction θ μ)
  | handleStationMsg (i : Nat) (got : ReceivedMsg)
  | startCmd (ipsta : Station) (node : Bool)
  | sendCmd (id : Nat) (ret : WvIpcRet)
  | finish (id : Nat)

variable {θ μ : Type}

namespace ServerObjects

def init : ServerObjects θ μ where
  output := .init
  received := 0
  upperLayer := []
  cmdSeqNum := 0
  numCalls := 0
  sent _ := false
  respList := []
  results := []
  returned := []

/-- `wave_ipc_msg_put` on a message that was received just now. -/
def putReceived (s : ServerObjects θ μ) : ServerObjects θ μ :=
  { s with received := s.received + 1, returned := s.returned ++ [s.received] }

/-- `wave_ipcs_handle_response_from_client`; a response that nobody waits for is thrown. -/
def handleResponse (s : ServerObjects θ μ) (ipsta : Station) (hdr : IpcHeader) :
    ServerObjects θ μ :=
  if s.respList.any (CmdResponse.waits ipsta hdr) then
    { s with
      received := s.received + 1
      respList := waveIpcsHandleResponseFromClient ipsta hdr s.received s.respList }
  else s.putReceived

/-- `wave_ipcs_handle_station_msg`. What the callback makes of a command is left to it; a request
failure that cannot be sent then ends the station as everything else does. -/
def waveIpcsHandleStationMsg (s : ServerObjects θ μ) (i : Nat) (ipsta : Station) :
    ReceivedMsg → ServerObjects θ μ
  | .recvFailed | .badHeader => { s.putReceived with output := s.output.remove i ipsta }
  | .message hdr =>
    if hdr.header0 = waveIpcMsgCmd then
      { s with received := s.received + 1, upperLayer := s.upperLayer ++ [s.received] }
    else if hdr.header0 = waveIpcMsgResp then s.handleResponse ipsta hdr
    else { s.putReceived with output := s.output.remove i ipsta }

/-- `wave_ipcs_send_cmd_to` up to the entry in the list. -/
def startCmd (s : ServerObjects θ μ) (ipsta : Station) (node : Bool) : ServerObjects θ μ :=
  { s with
    cmdSeqNum := s.cmdSeqNum + 1
    numCalls := s.numCalls + 1
    respList := if node then ⟨s.numCalls, ipsta, s.cmdSeqNum + 1, .respNone, []⟩ :: s.respList
      else s.respList }

/-- The entry is taken out of the list, and `free` leaves nothing of it. -/
def endCmd (s : ServerObjects θ μ) (id : Nat) : ServerObjects θ μ :=
  { s with respList := s.respList.filter fun cs => cs.call != id }

/-- The end of `_wave_ipcs_send_cmd_to` behind the wait. -/
def finishCmd (s : ServerObjects θ μ) (cs : CmdResponse Nat) : ServerObjects θ μ :=
  { s.endCmd cs.call with results := s.results ++ cs.result.2 }

variable [DecidableEq θ]

def step (s : ServerObjects θ μ) : ObjectsAction θ μ → Option (ServerObjects θ μ)
  | .output a => (s.output.step a).map fun output => { s with output }
  | .handleStationMsg i got =>
    if s.output.serverFree then
      (s.output.stations i).map fun ipsta => s.waveIpcsHandleStationMsg i ipsta got
    else none
  | .startCmd ipsta node =>
    if (s.output.sta ipsta).isConnected then some (s.startCmd ipsta node) else none
  | .sendCmd id ret =>
    if s.sent id = false ∧ id ∈ s.respList.map CmdResponse.call then
      some (if ret = .success then { s with sent := Function.update s.sent id true }
        else s.endCmd id)
    else none
  | .finish id =>
    if s.sent id then (s.respList.find? fun cs => cs.call = id).map s.finishCmd else none

end ServerObjects

/-- How often an object is on the lists of the stations that are not freed. -/
def WvIpserver.pendingCount (s : WvIpserver θ μ) (obj : Nat) : Nat :=
  ∑ ipsta ∈ (Finset.range s.created).filter fun ipsta => 0 < (s.sta ipsta).refcnt,
    (s.sta ipsta).objs.count obj

/-- Every object that the server has duplicated or received has one owner, or was put back once. -/
structure MessagesConserved (s : ServerObjects θ μ) : Prop where
  duplicated : ∀ obj < s.output.dups,
    s.output.pendingCount obj + s.output.returned.count obj = 1
  received : ∀ obj < s.received, s.upperLayer.count obj +
    (s.respList.flatMap CmdResponse.response).count obj + s.results.count obj +
      s.returned.count obj = 1

/-- No packet is to be parked for a station that is not connected any more, or without a node; no
command ends with responses to it, but without its final one. -/
def NothingDropped (s : ServerObjects θ μ) : ObjectsAction θ μ → Prop
  | .output (.sendWouldBlock t dup node) => ∀ packet, s.output.pc t = .wouldBlock packet →
      dup = true → (s.output.sta packet.ipsta).isConnected = true ∧
        (s.output.limitReached packet.ipsta = false → node = true)
  | .sendCmd id ret => ret ≠ .success → ∀ cs ∈ s.respList, cs.call = id → cs.response = []
  | .finish id => ∀ cs ∈ s.respList, cs.call = id → cs.status = .respNone → cs.response = []
  | _ => True

/-- The objects that were duplicated, as they are on the lists and back in the pool. -/
structure DupsInv (s : WvIpserver θ μ) : Prop where
  counts : ∀ obj, tally (fun sta => sta.objs.count obj) s.sta s.created + s.returned.count obj =
    (List.range s.dups).count obj
  known : ∀ ipsta, 0 < (s.sta ipsta).refcnt → ipsta < s.created
  live : ∀ ipsta, (s.sta ipsta).isConnected = true → 0 < (s.sta ipsta).refcnt
  freed : ∀ ipsta, (s.sta ipsta).refcnt ≤ 0 → (s.sta ipsta).objs = []

theorem count_range_succ (n obj : Nat) :
    (List.range (n + 1)).count obj = (List.range n).count obj + [n].count obj := by
  rw [List.range_succ, List.count_append]

theorem count_range_of_lt {n obj : Nat} (h : obj < n) : (List.range n).count obj = 1 :=
  List.count_eq_one_of_mem List.nodup_range (List.mem_range.mpr h)

theorem count_objs (sta : WvIpstation θ μ) (obj : Nat) : sta.objs.count obj =
    ((sta.pending .reply).map PendingMsg.obj).count obj +
      ((sta.pending .event).map PendingMsg.obj).count obj := by
  rw [WvIpstation.objs, List.map_append, List.count_append]

theorem count_objs_setPending (sta : WvIpstation θ μ) (cls : PacketClass)
    (msgs : List (PendingMsg θ μ)) (obj : Nat) :
    (sta.setPending cls msgs).objs.count obj +
      ((sta.pending cls).map PendingMsg.obj).count obj =
    sta.objs.count obj + (msgs.map PendingMsg.obj).count obj := by
  rw [count_objs, count_objs]
  cases cls with
  | reply =>
    rw [setPending_self, setPending_of_ne _ (by decide)]
    omega
  | event =>
    rw [setPending_self, setPending_of_ne _ (by decide)]
    omega

namespace DupsInv

variable {s s' : WvIpserver θ μ} {ipsta : Station} {sta : WvIpstation θ μ}

theorem init : DupsInv (WvIpserver.init : WvIpserver θ μ) where
  counts _ := rfl
  known _ h := absurd h (Int.lt_irrefl 0)
  live _ h := by cases h
  freed _ _ := rfl

/-- What leaves the lists of one station goes back to the pool, and what comes is new. -/
theorem change (h : DupsInv s) (hsta : s'.sta = Function.update s.sta ipsta sta)
    (hcreated : s'.created = s.created)
    (hrefs : (sta.isConnected = true → 0 < sta.refcnt) ∧ (sta.refcnt ≤ 0 → sta.objs = []) ∧
      (0 < sta.refcnt → 0 < (s.sta ipsta).refcnt))
    (hcount : ∀ obj, sta.objs.count obj + s'.returned.count obj + (List.range s.dups).count obj =
      (s.sta ipsta).objs.count obj + s.returned.count obj + (List.range s'.dups).count obj)
    (hknown : 0 < (s.sta ipsta).refcnt ∨ sta.objs = (s.sta ipsta).objs) : DupsInv s' := by
  obtain ⟨hlive, hfreed, hold⟩ := hrefs
  refine ⟨fun obj => ?_, fun other hrefcnt => ?_, fun other hc => ?_, fun other hrefcnt => ?_⟩
  · rw [hsta, hcreated]
    have hbefore := h.counts obj
    have hnow := hcount obj
    rcases hknown with hpos | hsame
    · have hupdate := tally_update (fun sta => sta.objs.count obj) s.sta (h.known ipsta hpos) sta
      omega
    · rw [tally_update_same _ _ _ (by rw [hsame])]
      rw [hsame] at hnow
      omega
  · rw [hcreated]
    refine h.known other ?_
    by_cases hother : other = ipsta
    · rw [hsta, hother, Function.update_self] at hrefcnt
      exact hother ▸ hold hrefcnt
    · rwa [hsta, Function.update_of_ne hother] at hrefcnt
  · by_cases hother : other = ipsta
    · rw [hsta, hother, Function.update_self] at hc ⊢
      exact hlive hc
    · rw [hsta, Function.update_of_ne hother] at hc ⊢
      exact h.live other hc
  · by_cases hother : other = ipsta
    · rw [hsta, hother, Function.update_self] at hrefcnt ⊢
      exact hfreed hrefcnt
    · rw [hsta, Function.update_of_ne hother] at hrefcnt ⊢
      exact h.freed other hrefcnt

/-- Nothing changes in the lists, the references and the pool. -/
theorem keep (h : DupsInv s) (hsta : s'.sta = Function.update s.sta ipsta sta)
    (hcreated : s'.created = s.created) (hdups : s'.dups = s.dups)
    (hreturned : s'.returned = s.returned) (hconn : sta.isConnected = (s.sta ipsta).isConnected)
    (hrefcnt : sta.refcnt = (s.sta ipsta).refcnt) (hobjs : sta.objs = (s.sta ipsta).objs) :
    DupsInv s' := by
  refine h.change hsta hcreated ⟨?_, ?_, ?_⟩ (fun obj => by rw [hobjs, hreturned, hdups])
    (.inr hobjs)
  · rw [hconn, hrefcnt]
    exact h.live ipsta
  · rw [hrefcnt, hobjs]
    exact h.freed ipsta
  · rw [hrefcnt]
    exact id

theorem goOn (h : DupsInv s) (hsta : s'.sta = s.sta) (hcreated : s'.created = s.created)
    (hcount : ∀ obj, s'.returned.count obj + (List.range s.dups).count obj =
      s.returned.count obj + (List.range s'.dups).count obj) : DupsInv s' := by
  have hsame : s'.sta = Function.update s.sta 0 (s.sta 0) :=
    hsta.trans (Function.update_eq_self 0 s.sta).symm
  refine h.change hsame hcreated ⟨h.live 0, h.freed 0, id⟩ (fun obj => ?_) (.inr rfl)
  have hnow := hcount obj
  omega

theorem waveIpcsAcceptNewClient (h : DupsInv s) : DupsInv s.waveIpcsAcceptNewClient := by
  rw [WvIpserver.waveIpcsAcceptNewClient]
  cases (List.range ipcClientArrSize).find? fun i => (s.stations i).isNone with
  | none => exact h
  | some i =>
    refine ⟨fun obj => ?_, fun other hrefcnt => ?_, fun other hc => ?_, fun other hrefcnt => ?_⟩
    · show tally _ (Function.update s.sta s.created .fresh) (s.created + 1) + _ = _
      rw [tally_new]
      exact h.counts obj
    · by_cases hother : other = s.created
      · rw [hother]
        exact Nat.lt_succ_self _
      · replace hrefcnt : 0 < (Function.update s.sta s.created .fresh other).refcnt := hrefcnt
        rw [Function.update_of_ne hother] at hrefcnt
        exact Nat.lt_succ_of_lt (h.known other hrefcnt)
    · show 0 < (Function.update s.sta s.created .fresh other).refcnt
      by_cases hother : other = s.created
      · rw [hother, Function.update_self]
        exact Int.one_pos
      · replace hc : (Function.update s.sta s.created .fresh other).isConnected = true := hc
        rw [Function.update_of_ne hother] at hc ⊢
        exact h.live other hc
    · show (Function.update s.sta s.created .fresh other).objs = []
      by_cases hother : other = s.created
      · rw [hother, Function.update_self]
        rfl
      · replace hrefcnt : (Function.update s.sta s.created .fresh other).refcnt ≤ 0 := hrefcnt
        rw [Function.update_of_ne hother] at hrefcnt ⊢
        exact h.freed other hrefcnt

/-- What is parked goes back to the pool with the last reference. -/
theorem waveIpcsStaDecref (h : DupsInv s) (hpos : 0 < (s.sta ipsta).refcnt)
    (hrefs : (s.sta ipsta).isConnected = true → 0 < (s.sta ipsta).refcnt - 1) :
    DupsInv (s.waveIpcsStaDecref ipsta) := by
  by_cases hlast : (s.sta ipsta).refcnt - 1 = 0
  · rw [WvIpserver.waveIpcsStaDecref, if_pos hlast, if_pos hlast]
    refine h.change rfl rfl ⟨hrefs, fun _ => rfl, fun _ => hpos⟩ (fun obj => ?_) (.inl hpos)
    rw [List.count_append]
    show 0 + (s.returned.count obj + _) + _ = _
    rw [Nat.zero_add, Nat.add_comm (s.returned.count obj)]
    rfl
  · rw [WvIpserver.waveIpcsStaDecref, if_neg hlast, if_neg hlast]
    refine h.change rfl rfl ⟨hrefs, fun hle => ?_, fun _ => hpos⟩ (fun _ => rfl) (.inr rfl)
    replace hle : (s.sta ipsta).refcnt - 1 ≤ 0 := hle
    omega

theorem remove (h : DupsInv s) {i : Nat} (hconn : (s.sta ipsta).isConnected = true) :
    DupsInv (s.remove i ipsta) := by
  have hpos := h.live ipsta hconn
  generalize hmid : ({ s.setSta ipsta { s.sta ipsta with isConnected := false } with
      stationHasPendingMsgs := s.stationHasPendingMsgs - (s.sta ipsta).numPending } :
    WvIpserver θ μ) = mid
  have hsta : mid.sta ipsta = { s.sta ipsta with isConnected := false } := by
    subst hmid
    exact Function.update_self ..
  have hgone : DupsInv mid := by
    subst hmid
    exact h.change rfl rfl ⟨fun hc => Bool.noConfusion hc, h.freed ipsta, id⟩ (fun _ => rfl)
      (.inr rfl)
  have hdecref : DupsInv (mid.waveIpcsStaDecref ipsta) :=
    hgone.waveIpcsStaDecref (by rw [hsta]; exact hpos) fun hc => by rw [hsta] at hc; cases hc
  rw [WvIpserver.remove, hmid]
  exact hdecref.goOn rfl rfl fun _ => rfl

/-- The duplicate is on a list. -/
theorem park (h : DupsInv s) {packet : Packet θ μ}
    (hconn : (s.sta packet.ipsta).isConnected = true) : DupsInv (s.park packet true) := by
  have hpos := h.live packet.ipsta hconn
  refine h.change rfl rfl ⟨fun _ => hpos, fun hle => ?_, fun _ => hpos⟩ (fun obj => ?_) (.inl hpos)
  · exact absurd hpos (Int.not_lt.mpr hle)
  · have hcount := count_objs_setPending (s.sta packet.ipsta) packet.cls
      ((s.sta packet.ipsta).pending packet.cls ++ [⟨s.dups, packet⟩]) obj
    rw [List.map_append, List.count_append] at hcount
    have hrange := count_range_succ s.dups obj
    simp only [WvIpserver.park, WvIpserver.setSta, if_true, List.map_cons, List.map_nil,
      WvIpstation.objs, WvIpstation.setPending] at hcount hrange ⊢
    omega

theorem waveIpcsSendWouldBlock (h : DupsInv s) {packet : Packet θ μ} {dup node : Bool}
    (hok : dup = true → (s.sta packet.ipsta).isConnected = true ∧
      (s.limitReached packet.ipsta = false → node = true)) :
    DupsInv (s.waveIpcsSendWouldBlock packet dup node).2 := by
  rw [WvIpserver.waveIpcsSendWouldBlock]
  split
  · exact h
  · next hdup =>
    obtain ⟨hconn, hnode⟩ := hok (Bool.eq_true_of_not_eq_false hdup)
    split
    · next hgone =>
      rw [hconn] at hgone
      cases hgone
    · split
      · refine h.goOn rfl rfl fun obj => ?_
        have hrange := count_range_succ s.dups obj
        simp only [List.count_append] at hrange ⊢
        omega
      · next hlimit =>
        rw [hnode (Bool.eq_false_of_not_eq_true hlimit)]
        exact h.park hconn

theorem resendTurn (h : DupsInv s) {i : Nat} (hconn : (s.sta ipsta).isConnected = true)
    (cls : PacketClass) (failedOnFirst : Bool) (ret : WvIpcRet) :
    DupsInv (s.resendTurn i ipsta cls failedOnFirst ret) := by
  have hpos := h.live ipsta hconn
  rw [WvIpserver.resendTurn]
  cases hpending : (s.sta ipsta).pending cls with
  | nil => exact h.goOn rfl rfl fun _ => rfl
  | cons m rest =>
    dsimp only
    split
    · refine h.change rfl rfl ⟨fun _ => hpos, fun hle => ?_, fun _ => hpos⟩ (fun obj => ?_)
        (.inl hpos)
      · exact absurd hpos (Int.not_lt.mpr hle)
      · have hcount := count_objs_setPending (s.sta ipsta) cls rest obj
        rw [hpending, List.map_cons, ← List.singleton_append, List.count_append] at hcount
        simp only [WvIpserver.setSta, List.count_append, WvIpstation.objs,
          WvIpstation.setPending] at hcount ⊢
        omega
    · exact h.keep rfl rfl rfl rfl rfl rfl rfl

theorem roundStep (h : DupsInv s) (haccount : AccountInv s) {round : Round}
    (hround : s.round = some round) (ret : WvIpcRet) : DupsInv (s.roundStep ret round) := by
  cases round with
  | slot i =>
    rw [WvIpserver.roundStep]
    split
    · cases s.stations i with
      | none => exact h.goOn rfl rfl fun _ => rfl
      | some ipsta =>
        dsimp only
        split
        · exact h.goOn rfl rfl fun _ => rfl
        · exact h.goOn rfl rfl fun _ => rfl
    · exact h.goOn rfl rfl fun _ => rfl
  | station i ipsta stage =>
    have hconn := haccount.slots i ipsta (haccount.current i ipsta stage hround)
    cases stage with
    | resend cls failedOnFirst => exact h.resendTurn hconn cls failedOnFirst ret
    | setFlag => exact h.keep rfl rfl rfl rfl rfl rfl rfl
    | mergeFlag => exact h.keep rfl rfl rfl rfl rfl rfl rfl
    | removeStuck =>
      rw [WvIpserver.roundStep]
      split
      · exact (h.remove (i := i) hconn).goOn rfl rfl fun _ => rfl
      · exact h.goOn rfl rfl fun _ => rfl

theorem step [DecidableEq θ] {a : OutputAction θ μ} (h : DupsInv s) (haccount : AccountInv s)
    (hok : ∀ t dup node, a = .sendWouldBlock t dup node → ∀ packet, s.pc t = .wouldBlock packet →
      dup = true → (s.sta packet.ipsta).isConnected = true ∧
        (s.limitReached packet.ipsta = false → node = true))
    (hst : s.step a = some s') : DupsInv s' := by
  cases a with
  | accept =>
    simp only [WvIpserver.step, Option.ite_none_right_eq_some] at hst
    obtain ⟨-, hst⟩ := hst
    cases hst
    exact h.waveIpcsAcceptNewClient
  | submit t ipsta cls msg =>
    simp only [WvIpserver.step] at hst
    cases hpc : s.pc t with
    | idle =>
      simp only [hpc, Option.ite_none_right_eq_some] at hst
      obtain ⟨-, hst⟩ := hst
      cases hst
      exact h.goOn rfl rfl fun _ => rfl
    | send packet => simp [hpc] at hst
    | wouldBlock packet => simp [hpc] at hst
  | send t ret =>
    simp only [WvIpserver.step] at hst
    cases hpc : s.pc t with
    | idle => simp [hpc] at hst
    | wouldBlock packet => simp [hpc] at hst
    | send packet =>
      simp only [hpc] at hst
      cases ret <;> cases hst
      · exact h.keep rfl rfl rfl rfl rfl rfl rfl
      all_goals exact h.goOn rfl rfl fun _ => rfl
  | sendWouldBlock t dup node =>
    simp only [WvIpserver.step] at hst
    cases hpc : s.pc t with
    | idle => simp [hpc] at hst
    | send packet => simp [hpc] at hst
    | wouldBlock packet =>
      cases hround : s.round with
      | some round => simp [hpc, hround] at hst
      | none =>
        simp only [hpc, hround] at hst
        cases hst
        exact (h.waveIpcsSendWouldBlock (hok t dup node rfl packet hpc)).goOn rfl rfl fun _ => rfl
  | startRound =>
    simp only [WvIpserver.step, Option.ite_none_right_eq_some] at hst
    obtain ⟨-, hst⟩ := hst
    cases hst
    exact h.goOn rfl rfl fun _ => rfl
  | round ret =>
    obtain ⟨round, hround, rfl⟩ := Option.map_eq_some_iff.mp hst
    exact h.roundStep haccount hround ret
  | disconnect i =>
    simp only [WvIpserver.step, Option.ite_none_right_eq_some] at hst
    obtain ⟨-, hst⟩ := hst
    obtain ⟨ipsta, hslot, rfl⟩ := Option.map_eq_some_iff.mp hst
    exact h.remove (haccount.slots i ipsta hslot)
  | incref ipsta =>
    simp only [WvIpserver.step, Option.ite_none_right_eq_some] at hst
    obtain ⟨hpos, hst⟩ := hst
    cases hst
    refine h.change rfl rfl ⟨fun _ => ?_, fun hle => ?_, fun _ => hpos⟩ (fun _ => rfl) (.inr rfl)
    · exact Int.lt_add_one_of_le (Int.le_of_lt hpos)
    · replace hle : (s.sta ipsta).refcnt + 1 ≤ 0 := hle
      omega
  | decref ipsta =>
    simp only [WvIpserver.step, Option.ite_none_right_eq_some] at hst
    obtain ⟨hrefs, hst⟩ := hst
    cases hst
    rw [WvIpstation.upperRefs] at hrefs
    have hpos : 0 < (s.sta ipsta).refcnt := by
      split at hrefs <;> omega
    refine h.waveIpcsStaDecref hpos fun hconn => ?_
    rwa [if_pos hconn] at hrefs

end DupsInv

/-- The objects that were received, with every owner. -/
def ServerObjects.owned (s : ServerObjects θ μ) (obj : Nat) : Nat :=
  s.upperLayer.count obj + (s.respList.flatMap CmdResponse.response).count obj +
    s.results.count obj + s.returned.count obj

structure ReceivedInv (s : ServerObjects θ μ) : Prop where
  counts : ∀ obj, s.owned obj = (List.range s.received).count obj
  calls : ∀ cs ∈ s.respList, cs.call < s.numCalls
  distinct : (s.respList.map CmdResponse.call).Nodup

/-- A response goes to the call that waits for it. -/
theorem count_handleResponse {ipsta : Station} {hdr : IpcHeader}
    (hresp : hdr.header0 = waveIpcMsgResp) (resp obj : Nat) {respList : List (CmdResponse Nat)}
    (hwaits : respList.any (CmdResponse.waits ipsta hdr) = true) :
    ((waveIpcsHandleResponseFromClient ipsta hdr resp respList).flatMap
        CmdResponse.response).count obj =
      (respList.flatMap CmdResponse.response).count obj + [resp].count obj := by
  induction respList with
  | nil => cases hwaits
  | cons cs rest ih =>
    rw [waveIpcsHandleResponseFromClient, List.flatMap_cons, List.count_append]
    split
    · have hanswered : (cs.answered hdr resp).response = cs.response ++ [resp] := by
        rw [CmdResponse.answered, if_pos hresp]
        split <;> rfl
      rw [List.flatMap_cons, List.count_append, hanswered, List.count_append]
      omega
    · next hcs =>
      rw [List.any_cons, Bool.eq_false_of_not_eq_true hcs, Bool.false_or] at hwaits
      rw [List.flatMap_cons, List.count_append, ih hwaits]
      omega

theorem calls_handleResponse (ipsta : Station) (hdr : IpcHeader) (resp : Nat)
    (respList : List (CmdResponse Nat)) :
    (waveIpcsHandleResponseFromClient ipsta hdr resp respList).map CmdResponse.call =
      respList.map CmdResponse.call := by
  induction respList with
  | nil => rfl
  | cons cs rest ih =>
    rw [waveIpcsHandleResponseFromClient]
    split
    · rw [List.map_cons, List.map_cons, answered_call]
    · rw [List.map_cons, List.map_cons, ih]

/-- The entry that ends is the only one of its call. -/
theorem count_endCmd {respList : List (CmdResponse Nat)} {cs : CmdResponse Nat}
    (hdistinct : (respList.map CmdResponse.call).Nodup) (hmem : cs ∈ respList) (obj : Nat) :
    (respList.flatMap CmdResponse.response).count obj = cs.response.count obj +
      ((respList.filter fun other => other.call != cs.call).flatMap
        CmdResponse.response).count obj := by
  induction respList with
  | nil => cases hmem
  | cons first rest ih =>
    rw [List.map_cons, List.nodup_cons] at hdistinct
    obtain ⟨hnew, hrest⟩ := hdistinct
    rw [List.flatMap_cons, List.count_append]
    rcases List.mem_cons.mp hmem with rfl | hmem
    · have hothers : rest.filter (fun other => other.call != cs.call) = rest := by
        refine List.filter_eq_self.mpr fun other hother => ?_
        rw [bne_iff_ne]
        exact fun hsame => hnew (hsame ▸ List.mem_map_of_mem hother)
      rw [List.filter_cons_of_neg (by simp), hothers]
    · have hne : first.call ≠ cs.call := fun hsame => hnew (hsame ▸ List.mem_map_of_mem hmem)
      rw [List.filter_cons_of_pos (by simpa using hne), List.flatMap_cons, List.count_append,
        ih hrest hmem]
      omega

namespace ReceivedInv

variable {s : ServerObjects θ μ}

theorem init : ReceivedInv (ServerObjects.init : ServerObjects θ μ) where
  counts _ := rfl
  calls _ hcs := by cases hcs
  distinct := List.nodup_nil

theorem setOutput (h : ReceivedInv s) (output : WvIpserver θ μ) :
    ReceivedInv { s with output := output } :=
  ⟨h.counts, h.calls, h.distinct⟩

theorem putReceived (h : ReceivedInv s) : ReceivedInv s.putReceived := by
  refine ⟨fun obj => ?_, h.calls, h.distinct⟩
  have hcounts := h.counts obj
  have hrange := count_range_succ s.received obj
  simp only [ServerObjects.owned, ServerObjects.putReceived, List.count_append] at hcounts ⊢
  omega

theorem handleResponse (h : ReceivedInv s) (ipsta : Station) {hdr : IpcHeader}
    (hresp : hdr.header0 = waveIpcMsgResp) : ReceivedInv (s.handleResponse ipsta hdr) := by
  rw [ServerObjects.handleResponse]
  split
  · next hwaits =>
    have hcalls := calls_handleResponse ipsta hdr s.received s.respList
    refine ⟨fun obj => ?_, fun cs hcs => ?_, ?_⟩
    · have hcounts := h.counts obj
      have hrange := count_range_succ s.received obj
      have hmore := count_handleResponse hresp s.received obj hwaits
      simp only [ServerObjects.owned] at hcounts ⊢
      omega
    · have hcall : cs.call ∈ s.respList.map CmdResponse.call :=
        hcalls ▸ List.mem_map_of_mem hcs
      obtain ⟨other, hother, hsame⟩ := List.mem_map.mp hcall
      exact hsame ▸ h.calls other hother
    · show (List.map _ _).Nodup
      rw [hcalls]
      exact h.distinct
  · exact h.putReceived

theorem waveIpcsHandleStationMsg (h : ReceivedInv s) (i : Nat) (ipsta : Station)
    (got : ReceivedMsg) : ReceivedInv (s.waveIpcsHandleStationMsg i ipsta got) := by
  cases got with
  | recvFailed => exact h.putReceived.setOutput _
  | badHeader => exact h.putReceived.setOutput _
  | message hdr =>
    rw [ServerObjects.waveIpcsHandleStationMsg]
    split
    · refine ⟨fun obj => ?_, h.calls, h.distinct⟩
      have hcounts := h.counts obj
      have hrange := count_range_succ s.received obj
      simp only [ServerObjects.owned, List.count_append] at hcounts ⊢
      omega
    · split
      · next hresp => exact h.handleResponse ipsta hresp
      · exact h.putReceived.setOutput _

theorem startCmd (h : ReceivedInv s) (ipsta : Station) (node : Bool) :
    ReceivedInv (s.startCmd ipsta node) := by
  cases node with
  | false =>
    exact ⟨h.counts, fun cs hcs => Nat.lt_succ_of_lt (h.calls cs hcs), h.distinct⟩
  | true =>
    refine ⟨h.counts, fun cs hcs => ?_, ?_⟩
    · rcases List.mem_cons.mp hcs with rfl | hcs
      · exact Nat.lt_succ_self _
      · exact Nat.lt_succ_of_lt (h.calls cs hcs)
    · refine List.nodup_cons.mpr ⟨fun hmem => ?_, h.distinct⟩
      obtain ⟨cs, hcs, hcall⟩ := List.mem_map.mp hmem
      exact Nat.ne_of_lt (h.calls cs hcs) hcall

/-- The call `cs` ends, and its responses go where `results` says. -/
theorem endCmd (h : ReceivedInv s) {cs : CmdResponse Nat} (hcs : cs ∈ s.respList)
    {results : List Nat} (hresults : results = cs.response) :
    ReceivedInv { s.endCmd cs.call with results := s.results ++ results } := by
  refine ⟨fun obj => ?_, fun other hother => ?_, ?_⟩
  · have hcounts := h.counts obj
    have hend := count_endCmd h.distinct hcs obj
    simp only [ServerObjects.owned, ServerObjects.endCmd, hresults, List.count_append]
      at hcounts ⊢
    omega
  · exact h.calls other (List.mem_of_mem_filter hother)
  · exact h.distinct.sublist (List.filter_sublist.map _)

end ReceivedInv

/-- What every step keeps, if nothing is dropped. -/
structure ObjectsInv (s : ServerObjects θ μ) : Prop where
  account : AccountInv s.output
  dups : DupsInv s.output
  received : ReceivedInv s

namespace ObjectsInv

variable {s s' : ServerObjects θ μ}

theorem init : ObjectsInv (ServerObjects.init : ServerObjects θ μ) := ⟨.init, .init, .init⟩

/-- A station ends while the thread of `wave_ipcs_run` is in no resend round. -/
theorem remove (h : ObjectsInv s) {i : Nat} {ipsta : Station} (hround : s.output.round = none)
    (hslot : s.output.stations i = some ipsta) :
    AccountInv (s.output.remove i ipsta) ∧ DupsInv (s.output.remove i ipsta) := by
  have hnone : ∀ other, Round.stageOf other s.output.round = none := fun other => by
    rw [hround, stageOf_none]
  have hflags := h.account.flags ipsta
  rw [hnone] at hflags
  exact ⟨h.account.remove hslot hnone (fun other _ => hnone other) hflags,
    h.dups.remove (h.account.slots i ipsta hslot)⟩

theorem waveIpcsHandleStationMsg (h : ObjectsInv s) {i : Nat} {ipsta : Station}
    (hround : s.output.round = none) (hslot : s.output.stations i = some ipsta)
    (got : ReceivedMsg) : ObjectsInv (s.waveIpcsHandleStationMsg i ipsta got) := by
  have hreceived := h.received.waveIpcsHandleStationMsg i ipsta got
  obtain ⟨haccount, hdups⟩ := h.remove hround hslot
  cases got with
  | recvFailed => exact ⟨haccount, hdups, hreceived⟩
  | badHeader => exact ⟨haccount, hdups, hreceived⟩
  | message hdr =>
    rw [ServerObjects.waveIpcsHandleStationMsg] at hreceived ⊢
    split at hreceived
    · next hcmd =>
      rw [if_pos hcmd]
      exact ⟨h.account, h.dups, hreceived⟩
    · next hcmd =>
      rw [if_neg hcmd]
      split at hreceived
      · next hresp =>
        rw [if_pos hresp]
        have houtput : (s.handleResponse ipsta hdr).output = s.output := by
          rw [ServerObjects.handleResponse]
          split <;> rfl
        exact ⟨houtput ▸ h.account, houtput ▸ h.dups, hreceived⟩
      · next hresp =>
        rw [if_neg hresp]
        exact ⟨haccount, hdups, hreceived⟩

theorem step [DecidableEq θ] {a : ObjectsAction θ μ} (h : ObjectsInv s) (hok : NothingDropped s a)
    (hst : s.step a = some s') : ObjectsInv s' := by
  cases a with
  | output a =>
    obtain ⟨output, hout, rfl⟩ := Option.map_eq_some_iff.mp hst
    refine ⟨h.account.step ?_ hout, h.dups.step h.account ?_ hout, h.received.setOutput output⟩
    · cases a with
      | sendWouldBlock t dup node =>
        exact fun packet hpc hdup _ hlimit => (hok packet hpc hdup).2 hlimit
      | _ => trivial
    · rintro t dup node rfl
      exact hok
  | handleStationMsg i got =>
    simp only [ServerObjects.step, Option.ite_none_right_eq_some] at hst
    obtain ⟨hfree, hst⟩ := hst
    obtain ⟨ipsta, hslot, rfl⟩ := Option.map_eq_some_iff.mp hst
    exact h.waveIpcsHandleStationMsg (round_of_serverFree hfree) hslot got
  | startCmd ipsta node =>
    simp only [ServerObjects.step, Option.ite_none_right_eq_some] at hst
    obtain ⟨-, hst⟩ := hst
    cases hst
    exact ⟨h.account, h.dups, h.received.startCmd ipsta node⟩
  | sendCmd id ret =>
    simp only [ServerObjects.step, Option.ite_none_right_eq_some] at hst
    obtain ⟨⟨-, hmem⟩, hst⟩ := hst
    cases hst
    split
    · exact ⟨h.account, h.dups, h.received.counts, h.received.calls, h.received.distinct⟩
    · next hret =>
      obtain ⟨cs, hcs, rfl⟩ := List.mem_map.mp hmem
      have hend := h.received.endCmd hcs (hok hret cs hcs rfl).symm
      rw [List.append_nil] at hend
      exact ⟨h.account, h.dups, hend⟩
  | finish id =>
    simp only [ServerObjects.step, Option.ite_none_right_eq_some] at hst
    obtain ⟨-, hst⟩ := hst
    obtain ⟨cs, hfind, rfl⟩ := Option.map_eq_some_iff.mp hst
    have hcs := List.mem_of_find?_eq_some hfind
    have hcall : cs.call = id := by simpa using List.find?_some hfind
    refine ⟨h.account, h.dups, h.received.endCmd hcs ?_⟩
    rw [CmdResponse.result]
    cases hstatus : cs.status with
    | respNone => exact (hok cs hcs hcall hstatus).symm
    | respSuccess => rfl
    | respFailure => rfl

end ObjectsInv

theorem MessagesConserved.ofInv {s : ServerObjects θ μ} (h : ObjectsInv s) :
    MessagesConserved s where
  duplicated obj hobj := by
    have hcounts := h.dups.counts obj
    rw [count_range_of_lt hobj] at hcounts
    have hpending : s.output.pendingCount obj =
        tally (fun sta => sta.objs.count obj) s.output.sta s.output.created := by
      rw [WvIpserver.pendingCount, tally]
      refine Finset.sum_filter_of_ne fun ipsta _ hne => ?_
      by_contra hdead
      rw [h.dups.freed ipsta (Int.not_lt.mp hdead)] at hne
      exact hne rfl
    rw [hpending]
    exact hcounts
  received obj hobj := (h.received.counts obj).trans (count_range_of_lt hobj)

/-- Every message object of the server has one owner or was put back once, in every run in which
nothing is dropped. -/
theorem messageConservation [DecidableEq θ] {as : List (ObjectsAction θ μ)} {s : ServerObjects θ μ}
    (hok : Along ServerObjects.step NothingDropped .init as)
    (hrun : exec ServerObjects.step .init as = some s) : MessagesConserved s :=
  .ofInv (exec_along (fun h hok hst => h.step hok hst) .init hok hrun)

/-- An event is parked, a command gets an answer of two parts, and the station goes. -/
def answeredRun : List (ObjectsAction Unit Unit) :=
  (parkedRun true).map .output ++
    [.startCmd 0 true, .sendCmd 0 .success,
      .handleStationMsg 0 (.message ⟨waveIpcMsgResp, 1, 1, 0⟩),
      .handleStationMsg 0 (.message ⟨waveIpcMsgResp, 1, 0, 0⟩), .finish 0,
      .handleStationMsg 0 .recvFailed]

theorem messageConservation_answeredRun : ∃ s,
    exec ServerObjects.step (.init : ServerObjects Unit Unit) answeredRun = some s ∧
      s.results = [0, 1] ∧ s.output.returned = [0] ∧ MessagesConserved s := by
  have hok : Along ServerObjects.step NothingDropped .init answeredRun := by
    refine ⟨trivial, trivial, trivial, ?_, trivial, fun hret => absurd rfl hret, trivial, trivial,
      ?_, trivial, trivial⟩
    · intro packet hpc _
      cases hpc
      exact ⟨rfl, fun _ => rfl⟩
    · intro cs hcs _ hstatus
      obtain rfl := List.mem_singleton.mp hcs
      cases hstatus
  exact ⟨_, rfl, rfl, rfl, messageConservation hok rfl⟩

/-- The station goes between a send that would block and `wave_ipcs_send_would_block`. -/
def goneRun : List (ObjectsAction Unit Unit) :=
  [.output .accept, .output (.incref 0), .output (.submit (some ()) 0 .event ()),
    .output (.send (some ()) .cmdWouldBlock), .handleStationMsg 0 .recvFailed,
    .output (.sendWouldBlock (some ()) true true)]

theorem duplicate_dropped : ¬ ∀ (as : List (ObjectsAction Unit Unit)) (s : ServerObjects Unit Unit),
    exec ServerObjects.step .init as = some s → MessagesConserved s := by
  intro h
  have hcount := (h goneRun _ rfl).duplicated 0 (by decide)
  revert hcount
  decide

end Dwpal.Ipc
